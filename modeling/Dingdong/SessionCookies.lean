import Dingdong.SessionCore
import Dingdong.Substrings

/-!
The `Cookie` header as `extract_cookie_value` reads it. The search finds the text of the
wanted name anywhere, also inside other names and values, and skips such matches; that
it neither takes one of them for a cookie nor skips a cookie with them is shown here.
-/

namespace LeanDingdong

open Substrings

/-- No space, semicolon, CR or LF. -/
def CookieByte (byte : UInt8) : Prop := byte ≠ 32 ∧ byte ≠ 59 ∧ byte ≠ 13 ∧ byte ≠ 10

instance (byte : UInt8) : Decidable (CookieByte byte) := inferInstanceAs (Decidable (_ ∧ _ ∧ _ ∧ _))

@[ext]
structure CookieName where
  bytes : Bytes
  nonempty : bytes ≠ []
  plain : ∀ byte ∈ bytes, CookieByte byte
  noEquals : 61 ∉ bytes
  deriving DecidableEq

structure Cookie where
  name : CookieName
  value : Bytes
  plain : ∀ byte ∈ value, CookieByte byte

/-- `name=value` -/
def Cookie.bytes (cookie : Cookie) : Bytes := cookie.name.bytes ++ 61 :: cookie.value

/-- Pairs with a semicolon between them, and after each semicolon some spaces. -/
def cookieHeader : List Nat → List Cookie → Bytes
  | _, [] => []
  | _, [cookie] => cookie.bytes
  | spaces, cookie :: rest =>
      cookie.bytes ++ 59 :: (List.replicate (spaces.headD 0) 32 ++ cookieHeader spaces.tail rest)

section Search

variable {wanted : CookieName}

/-- What a match has to start with. -/
def CookieName.needle (name : CookieName) : Bytes := name.bytes ++ ascii "="

theorem CookieName.needle_eq (name : CookieName) : name.needle = name.bytes ++ 61 :: [] := rfl

theorem CookieName.needle_plain (name : CookieName) : ∀ byte ∈ name.needle, CookieByte byte := by
  intro byte member
  rcases List.mem_append.mp member with inside | equals
  · exact name.plain byte inside
  · rw [List.mem_singleton.mp equals]
    decide

/-- A text that is over, or goes on with a semicolon. -/
def Ends (tail : Bytes) : Prop := tail = [] ∨ ∃ rest, tail = 59 :: rest

/-- A match does not reach past the end of a cookie. -/
theorem needle_length_le {body tail : Bytes} (ends : Ends tail)
    (found : wanted.needle <+: body ++ tail) : wanted.needle.length ≤ body.length := by
  by_contra long
  rcases ends with rfl | ⟨rest, rfl⟩
  · rw [List.append_nil] at found
    exact long found.length_le
  · obtain ⟨more, same⟩ := found
    have reaches : (body ++ 59 :: rest)[body.length]? = some 59 := by simp
    rw [← same, List.getElem?_append_left (by omega)] at reaches
    exact (wanted.needle_plain 59 (List.mem_of_getElem? reaches)).2.1 rfl

/-- Inside a cookie nothing is taken for one, and a match that is skipped ends inside. -/
theorem cookieAfter_inside {body tail : Bytes} (ends : Ends tail)
    (plain : ∀ byte ∈ body, CookieByte byte) {before : UInt8} (isPlain : CookieByte before)
    {skip : Nat} (within : skip ≤ body.length) :
    ∃ last, CookieByte last ∧
      cookieAfter wanted.needle skip (some before) (body ++ tail) =
        cookieAfter wanted.needle 0 (some last) tail := by
  induction body generalizing before skip with
  | nil =>
      obtain rfl : skip = 0 := Nat.le_zero.mp within
      exact ⟨before, isPlain, rfl⟩
  | cons byte body ih =>
      have here := plain byte List.mem_cons_self
      have rest : ∀ byte ∈ body, CookieByte byte := fun other member =>
        plain other (List.mem_cons_of_mem _ member)
      rw [List.length_cons] at within
      cases skip with
      | succ skip => exact ih rest here (by omega)
      | zero =>
          rw [List.cons_append, cookieAfter]
          have refused : ¬ (some before = none ∨ some before = some 32 ∨ some before = some 59) := by
            simp [isPlain.1, isPlain.2.1]
          by_cases found : wanted.needle.isPrefixOf (byte :: (body ++ tail)) = true
          · have inside := @needle_length_le wanted (byte :: body) tail ends
              (List.isPrefixOf_iff_prefix.mp found)
            rw [List.length_cons] at inside
            rw [if_pos found, if_neg refused]
            exact ih rest here (by omega)
          · rw [if_neg found]
            exact ih rest here (Nat.zero_le _)

/-- Spaces and semicolons are passed over. -/
theorem cookieAfter_space {byte : UInt8} (space : ¬ CookieByte byte) (before : Option UInt8)
    (text : Bytes) :
    cookieAfter wanted.needle 0 before (byte :: text) =
      cookieAfter wanted.needle 0 (some byte) text := by
  rw [cookieAfter, if_neg]
  rw [List.isPrefixOf_iff_prefix]
  rintro ⟨rest, same⟩
  obtain ⟨first, word, split⟩ := List.exists_cons_of_ne_nil wanted.nonempty
  rw [CookieName.needle, split, List.cons_append, List.cons_append] at same
  have first_plain := wanted.plain first (by rw [split]; exact List.mem_cons_self)
  rw [(List.cons.inj same).1] at first_plain
  exact space first_plain

/-- The byte before a cookie. -/
def Opens (before : Option UInt8) : Prop := before = none ∨ before = some 32 ∨ before = some 59

theorem cookieAfter_spaces (count : Nat) {before : Option UInt8} (opens : Opens before)
    (text : Bytes) :
    ∃ next, Opens next ∧
      cookieAfter wanted.needle 0 before (List.replicate count 32 ++ text) =
        cookieAfter wanted.needle 0 next text := by
  induction count generalizing before with
  | zero => exact ⟨before, opens, rfl⟩
  | succ count ih =>
      rw [List.replicate_succ, List.cons_append, cookieAfter_space (by decide)]
      exact ih (.inr (.inl rfl))

/-- At the start of a cookie the match is one of its whole name. -/
theorem needle_prefix_iff (cookie : Cookie) (tail : Bytes) :
    wanted.needle <+: cookie.bytes ++ tail ↔ wanted = cookie.name := by
  rw [CookieName.needle_eq, Cookie.bytes, List.append_assoc, List.cons_append,
    prefix_through_quote wanted.noEquals cookie.name.noEquals, and_iff_left List.nil_prefix,
    CookieName.ext_iff]

theorem cookieAfter_wanted {before : Option UInt8} (opens : Opens before) (cookie : Cookie)
    (tail : Bytes) (same : wanted = cookie.name) :
    cookieAfter wanted.needle 0 before (cookie.bytes ++ tail) = some (cookie.value ++ tail) := by
  have starts := (needle_prefix_iff cookie tail).mpr same
  have after : (cookie.bytes ++ tail).drop wanted.needle.length = cookie.value ++ tail := by
    have split : cookie.bytes ++ tail = wanted.needle ++ (cookie.value ++ tail) := by
      simp [same, CookieName.needle_eq, Cookie.bytes]
    rw [split, List.drop_left]
  obtain ⟨first, rest, split⟩ : ∃ first rest, cookie.bytes ++ tail = first :: rest :=
    List.exists_cons_of_ne_nil (by simp [Cookie.bytes])
  rw [split] at starts after ⊢
  rw [Opens] at opens
  rw [cookieAfter, if_pos (List.isPrefixOf_iff_prefix.mpr starts), if_pos opens, after]

/-- Another cookie is passed over. -/
theorem cookieAfter_other (before : Option UInt8) (cookie : Cookie) {tail : Bytes}
    (ends : Ends tail) (other : wanted ≠ cookie.name) :
    ∃ last, CookieByte last ∧
      cookieAfter wanted.needle 0 before (cookie.bytes ++ tail) =
        cookieAfter wanted.needle 0 (some last) tail := by
  have starts := mt (needle_prefix_iff cookie tail).mp other
  obtain ⟨first, rest, split⟩ := List.exists_cons_of_ne_nil cookie.name.nonempty
  have bytes : cookie.bytes = first :: (rest ++ 61 :: cookie.value) := by
    rw [Cookie.bytes, split, List.cons_append]
  have namePlain := cookie.name.plain
  rw [split] at namePlain
  have plain : ∀ byte ∈ rest ++ 61 :: cookie.value, CookieByte byte := by
    intro byte member
    rcases List.mem_append.mp member with inName | inValue
    · exact namePlain byte (List.mem_cons_of_mem _ inName)
    · rcases List.mem_cons.mp inValue with rfl | inside
      · decide
      · exact cookie.plain byte inside
  rw [bytes, List.cons_append] at starts ⊢
  rw [cookieAfter, if_neg (mt List.isPrefixOf_iff_prefix.mp starts)]
  exact cookieAfter_inside ends plain (namePlain first List.mem_cons_self) (Nat.zero_le _)

/-- The rest of a header behind its first cookie. -/
theorem cookieHeader_cons (spaces : List Nat) (cookie : Cookie) (rest : List Cookie) :
    ∃ tail, Ends tail ∧ cookieHeader spaces (cookie :: rest) = cookie.bytes ++ tail ∧
      ∀ last, CookieByte last → ∃ next, Opens next ∧
        cookieAfter wanted.needle 0 (some last) tail =
          cookieAfter wanted.needle 0 next (cookieHeader spaces.tail rest) := by
  cases rest with
  | nil =>
      refine ⟨[], .inl rfl, (List.append_nil _).symm, fun last _ => ⟨none, .inl rfl, ?_⟩⟩
      rw [cookieAfter, cookieHeader, cookieAfter]
  | cons second rest =>
      refine ⟨_, .inr ⟨_, rfl⟩, rfl, fun last _ => ?_⟩
      obtain ⟨next, opens, same⟩ := @cookieAfter_spaces wanted (spaces.headD 0)
        _ (.inr (.inr rfl)) (cookieHeader spaces.tail (second :: rest))
      exact ⟨next, opens, (cookieAfter_space (by decide) _ _).trans same⟩

/-- The search finds the first cookie of the name and goes on behind its equals sign, or it
finds nothing. -/
theorem cookieAfter_header (spaces : List Nat) (cookies : List Cookie) {before : Option UInt8}
    (opens : Opens before) :
    ((cookies.find? fun cookie => wanted = cookie.name) = none →
      cookieAfter wanted.needle 0 before (cookieHeader spaces cookies) = none) ∧
    ∀ cookie, (cookies.find? fun cookie => wanted = cookie.name) = some cookie →
      ∃ tail, Ends tail ∧
        cookieAfter wanted.needle 0 before (cookieHeader spaces cookies) =
          some (cookie.value ++ tail) := by
  induction cookies generalizing spaces before with
  | nil =>
      refine ⟨fun _ => ?_, fun cookie found => by cases found⟩
      rw [cookieHeader, cookieAfter]
  | cons first rest ih =>
      obtain ⟨tail, ends, header, goesOn⟩ := @cookieHeader_cons wanted spaces first rest
      rw [header]
      by_cases same : wanted = first.name
      · have here : ((first :: rest).find? fun cookie => wanted = cookie.name) = some first :=
          List.find?_cons_of_pos (by simpa using same)
        rw [here]
        refine ⟨fun absent => absurd absent (Option.some_ne_none _), fun cookie found =>
          ⟨tail, ends, ?_⟩⟩
        obtain rfl := Option.some.inj found
        exact cookieAfter_wanted opens first tail same
      · have later : ((first :: rest).find? fun cookie => wanted = cookie.name) =
            rest.find? fun cookie => wanted = cookie.name :=
          List.find?_cons_of_neg (by simpa using same)
        rw [later]
        obtain ⟨last, plain, passed⟩ := cookieAfter_other before first ends same
        obtain ⟨next, opensNext, rest⟩ := goesOn last plain
        rw [passed, rest]
        exact ih spaces.tail opensNext

/-- The value that is copied ends with its cookie. -/
theorem takeWhile_value (cookie : Cookie) {tail : Bytes} (ends : Ends tail) :
    (cookie.value ++ tail).takeWhile (fun byte => byte ≠ 59 ∧ byte ≠ 13 ∧ byte ≠ 10) =
      cookie.value := by
  have inside : ∀ byte ∈ cookie.value,
      (decide (byte ≠ 59 ∧ byte ≠ 13 ∧ byte ≠ 10)) = true := fun byte member =>
    decide_eq_true (cookie.plain byte member).2
  rw [List.takeWhile_append_of_pos inside]
  rcases ends with rfl | ⟨rest, rfl⟩ <;> simp

theorem cookieHeader_nil {spaces : List Nat} {cookies : List Cookie}
    (empty : cookieHeader spaces cookies = []) : cookies = [] := by
  cases cookies with
  | nil => rfl
  | cons first rest =>
      obtain ⟨tail, _, header, _⟩ := @cookieHeader_cons first.name spaces first rest
      rw [header, Cookie.bytes] at empty
      simp at empty

end Search

/-- A header that is a list of cookies yields the value of the first one of the wanted name,
if there is one and its value fits with the NUL. -/
theorem extractCookieValue_first (spaces : List Nat) (cookies : List Cookie) (wanted : CookieName)
    (capacity : Nat) (header : (cookieHeader spaces cookies).length < 1024)
    (name : wanted.bytes.length ≤ 62) :
    extractCookieValue (cookieHeader spaces cookies) wanted.bytes capacity =
      ((cookies.find? fun cookie => wanted = cookie.name).map Cookie.value).filter
        fun value => value.length < capacity := by
  obtain ⟨absent, present⟩ := @cookieAfter_header wanted spaces cookies none (.inl rfl)
  have needle : wanted.bytes ++ ascii "=" = wanted.needle := rfl
  rw [extractCookieValue, needle]
  by_cases empty : (cookieHeader spaces cookies).length = 0
  · rw [if_pos (.inl empty), cookieHeader_nil (List.length_eq_zero_iff.mp empty)]
    rfl
  · have inside : ¬ ((cookieHeader spaces cookies).length = 0 ∨
        1024 ≤ (cookieHeader spaces cookies).length) := by omega
    rw [if_neg inside, if_neg (by omega)]
    cases found : cookies.find? fun cookie => wanted = cookie.name with
    | none =>
        rw [absent found]
        rfl
    | some cookie =>
        obtain ⟨tail, ends, after⟩ := present cookie found
        rw [after]
        dsimp only
        rw [takeWhile_value cookie ends, Option.map_some, Option.filter_some]
        simp only [decide_eq_true_iff]

/-- The cookie of a name and a value, if they are ones. -/
def Cookie.ofTexts (name value : Bytes) : Option Cookie :=
  if plain : name ≠ [] ∧ (∀ byte ∈ name, CookieByte byte) ∧ 61 ∉ name ∧
      ∀ byte ∈ value, CookieByte byte then
    some
      { name :=
          { bytes := name, nonempty := plain.1, plain := plain.2.1, noEquals := plain.2.2.1 }
        value := value
        plain := plain.2.2.2 }
  else none

/-- `a=dd_session=1; xdd_session=2;dd_session=3=;  dd_session=4` -/
def nestedCookies : List Cookie :=
  [(ascii "a", ascii "dd_session=1"), (ascii "xdd_session", ascii "2"),
    (ascii "dd_session", ascii "3="), (ascii "dd_session", ascii "4")].filterMap fun texts =>
      Cookie.ofTexts texts.1 texts.2

def sessionCookie : CookieName where
  bytes := cookieName
  nonempty := by decide
  plain := by decide
  noEquals := by decide

theorem extractCookieValue_first_nested :
    extractCookieValue (cookieHeader [1, 0, 2] nestedCookies) cookieName 3 = some (ascii "3=") := by
  have found := extractCookieValue_first [1, 0, 2] nestedCookies sessionCookie 3 (by decide) (by decide)
  exact found.trans (by decide)

end LeanDingdong

import Dingdong.SlotTable
import Dingdong.ConfigCore

/-!
The logins of `dd_session.c`: four slots, each with a random token and the time it
expires, and the cookie a request carries its token in.
-/

namespace LeanDingdong

def ddSessionTokenLen : Nat := 65

abbrev maxSessions : Nat := 4

def ttlUsec : Nat := 7 * 24 * 3600 * 1000000

/-- `hex_encode` -/
def hexEncode (input : Bytes) : Bytes := input.flatMap hexByte

theorem hexEncode_length (input : Bytes) : (hexEncode input).length = 2 * input.length := by
  induction input with
  | nil => rfl
  | cons byte input ih =>
      rw [hexEncode, List.flatMap_cons, List.length_append, ← hexEncode, ih, List.length_cons]
      show 2 + 2 * input.length = _
      omega

theorem hexEncode_digits (input : Bytes) : ∀ byte ∈ hexEncode input, byte ∈ hexDigits := by
  intro byte member
  obtain ⟨source, _, inside⟩ := List.mem_flatMap.mp member
  simp only [hexByte, List.mem_cons, List.not_mem_nil, or_false] at inside
  rcases inside with rfl | rfl <;> exact hexDigit_mem _

theorem hexEncode_noNul (input : Bytes) : 0 ∉ hexEncode input := fun member =>
  absurd (hexEncode_digits input 0 member) (by decide)

/-- A full `char[DD_SESSION_TOKEN_LEN]`. -/
structure SessionToken where
  bytes : Bytes
  length_eq : bytes.length = ddSessionTokenLen - 1
  noNul : 0 ∉ bytes

theorem SessionToken.bytes_inj {first second : SessionToken} :
    first.bytes = second.bytes ↔ first = second := by
  cases first
  cases second
  simp

instance sessionTokenDecidableEq : DecidableEq SessionToken := fun _ _ =>
  decidable_of_iff _ SessionToken.bytes_inj

/-- The token of 32 bytes from `esp_fill_random`. -/
def SessionToken.ofRandom (random : Blob 32) : SessionToken where
  bytes := hexEncode random.bytes
  length_eq := by rw [hexEncode_length, random.length_eq]; rfl
  noNul := hexEncode_noNul _

/-- `slot_t` in use. -/
structure SessionSlot where
  token : SessionToken
  expiresUs : Nat
  deriving DecidableEq

/-- `s_slots`; `none` for a slot of zero bytes. -/
abbrev Sessions := Fin maxSessions → Option SessionSlot

namespace Sessions

def blank : Sessions := fun _ => none

def expiresUs (sessions : Sessions) (index : Fin maxSessions) : Nat :=
  ((sessions index).map SessionSlot.expiresUs).getD 0

/-- `find_slot_locked`: the first free or expired slot, else the one that expires first. -/
def findSlot (sessions : Sessions) (nowUs : Nat) : Fin maxSessions :=
  (SlotTable.first fun index => sessions.expiresUs index = 0 ∨ sessions.expiresUs index < nowUs).getD
    ((List.finRange maxSessions).foldl
      (fun oldest index =>
        if sessions.expiresUs index < sessions.expiresUs oldest then index else oldest) 0)

/-- `dd_session_create` -/
def create (random : Blob 32) (nowUs : Nat) (sessions : Sessions) : SessionToken × Sessions :=
  let token := SessionToken.ofRandom random
  (token, Function.update sessions (sessions.findSlot nowUs)
    (some { token := token, expiresUs := nowUs + ttlUsec }))

/-- The slot holds the token and is not expired. -/
def Live (token : Bytes) (nowUs : Nat) (slot : Option SessionSlot) : Prop :=
  ∃ held ∈ slot, nowUs < held.expiresUs ∧ held.token.bytes = token

/-- `dd_session_is_valid` -/
def isValid (sessions : Sessions) (token : Bytes) (nowUs : Nat) : Bool :=
  if token.length ≠ ddSessionTokenLen - 1 then false
  else
    (SlotTable.first fun index => (sessions index).any fun slot =>
      nowUs < slot.expiresUs ∧ slot.token.bytes = token).isSome

/-- The bytes of a token that `memcmp` looks at. -/
def compared (token : Bytes) : Bytes := token.take (ddSessionTokenLen - 1)

/-- `dd_session_destroy`; a token shorter than the slots' is none of theirs. -/
def destroy (token : Bytes) (sessions : Sessions) : Sessions :=
  match SlotTable.first fun index =>
      (sessions index).any fun slot => slot.token.bytes = compared token with
  | some index => Function.update sessions index none
  | none => sessions

/-- `dd_session_destroy_all` -/
def destroyAll (_ : Sessions) : Sessions := blank

variable {sessions : Sessions} {token other : Bytes} {nowUs laterUs : Nat}

theorem isValid_iff :
    sessions.isValid token nowUs = true ↔ ∃ index, Live token nowUs (sessions index) := by
  rw [isValid]
  split_ifs with length
  · simp only [false_iff, not_exists]
    rintro index ⟨held, _, _, rfl⟩
    exact length held.token.length_eq
  · constructor
    · intro found
      obtain ⟨index, here⟩ := Option.isSome_iff_exists.mp found
      have passes := SlotTable.first_passes here
      obtain ⟨held, member, live⟩ := (Option.any_eq_true _ _).mp passes
      rw [decide_eq_true_iff] at live
      exact ⟨index, held, member, live⟩
    · rintro ⟨index, held, member, live⟩
      have passes : (fun index => (sessions index).any fun slot =>
          nowUs < slot.expiresUs ∧ slot.token.bytes = token) index = true :=
        (Option.any_eq_true _ _).mpr ⟨held, member, decide_eq_true live⟩
      exact Option.isSome_iff_exists.mpr (SlotTable.first_isSome passes)

/-- Destroying a token that is not valid takes no valid session. -/
theorem isValid_destroy (short : token.length < ddSessionTokenLen)
    (invalid : sessions.isValid token nowUs = false) (later : nowUs ≤ laterUs) :
    (sessions.destroy token).isValid other laterUs = sessions.isValid other laterUs := by
  rw [destroy, compared, List.take_of_length_le (Nat.le_sub_one_of_lt short)]
  split
  · rename_i index found
    have passes := SlotTable.first_passes found
    obtain ⟨held, member, same⟩ := (Option.any_eq_true _ _).mp passes
    rw [decide_eq_true_iff] at same
    have expired : held.expiresUs ≤ nowUs := by
      by_contra live
      have valid := isValid_iff.mpr ⟨index, held, member, Nat.lt_of_not_le live, same⟩
      rw [invalid] at valid
      cases valid
    rw [Bool.eq_iff_iff, isValid_iff, isValid_iff]
    constructor
    · rintro ⟨slot, live, inside, rest⟩
      by_cases here : slot = index
      · rw [here, Function.update_self] at inside
        cases inside
      · rw [Function.update_of_ne here] at inside
        exact ⟨slot, live, inside, rest⟩
    · rintro ⟨slot, live, inside, soon, rest⟩
      by_cases here : slot = index
      · rw [here, Option.mem_def.mp member, Option.mem_some] at inside
        subst inside
        omega
      · exact ⟨slot, live, by rwa [Function.update_of_ne here], soon, rest⟩
  · rfl

end Sessions

section Cookie

/-- `COOKIE_NAME` -/
def cookieName : Bytes := ascii "dd_session"

/-- The text after the first match of the needle that starts a cookie. `skip` bytes of a
match that does not are left behind. -/
def cookieAfter (needle : Bytes) : Nat → Option UInt8 → Bytes → Option Bytes
  | _, _, [] => none
  | skip + 1, _, byte :: rest => cookieAfter needle skip (some byte) rest
  | 0, before, byte :: rest =>
      if needle.isPrefixOf (byte :: rest) then
        if before = none ∨ before = some 32 ∨ before = some 59 then
          some ((byte :: rest).drop needle.length)
        else cookieAfter needle (needle.length - 1) (some byte) rest
      else cookieAfter needle 0 (some byte) rest

/-- `extract_cookie_value` into a buffer of `capacity` bytes; the header is a C string, and
name and equals sign have to fit an array of 64 bytes. -/
def extractCookieValue (header name : Bytes) (capacity : Nat) : Option Bytes :=
  if header.length = 0 ∨ 1024 ≤ header.length then none
  else if 64 ≤ name.length + 1 then none
  else
    match cookieAfter (name ++ ascii "=") 0 none header with
    | none => none
    | some rest =>
        let value := rest.takeWhile fun byte => byte ≠ 59 ∧ byte ≠ 13 ∧ byte ≠ 10
        if value.length < capacity then some value else none

theorem extractCookieValue_length {header name value : Bytes} {capacity : Nat}
    (found : extractCookieValue header name capacity = some value) : value.length < capacity := by
  rw [extractCookieValue] at found
  split_ifs at found
  split at found
  · cases found
  · dsimp only at found
    split_ifs at found with fits
    rwa [← Option.some.inj found]

example : extractCookieValue (ascii "a=1; xdd_session=2; dd_session=3; b=4") cookieName 65 =
    some (ascii "3") := by
  decide

end Cookie

end LeanDingdong

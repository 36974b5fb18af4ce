import Dingdong.CJsonParse

/-!
The bodies of requests and replies: `cJSON` trees, the lookups the handlers make in
them, and a printer with a parser that reads its texts back. `Codec` stands for the
printer and parser of `cJSON`; `Codec.Faithful` says what the handlers rely on.
-/

namespace LeanDingdong

inductive JsonTree where
  | null
  | bool (value : Bool)
  /-- `valuedouble` without its fraction -/
  | number (value : Int)
  | text (value : Bytes)
  | array (items : List JsonTree)
  | object (members : List (Bytes × JsonTree))

namespace JsonTree

section Lookup

/-- `tolower` -/
def lower (byte : UInt8) : UInt8 := if 65 ≤ byte ∧ byte ≤ 90 then byte + 32 else byte

/-- `cJSON_GetObjectItem`: names are compared without regard to case. -/
def getObjectItem (tree : JsonTree) (key : Bytes) : Option JsonTree :=
  match tree with
  | object members =>
      (members.find? fun member => member.1.map lower = key.map lower).map Prod.snd
  | _ => none

/-- `valuestring` of a member that `cJSON_IsString`. -/
def getText (tree : JsonTree) (key : Bytes) : Option Bytes :=
  match tree.getObjectItem key with
  | some (text value) => some value
  | _ => none

/-- `valuedouble` of a member that `cJSON_IsNumber`. -/
def getInt (tree : JsonTree) (key : Bytes) : Option Int :=
  match tree.getObjectItem key with
  | some (number value) => some value
  | _ => none

/-- `cJSON_IsTrue` of a member that `cJSON_IsBool`. -/
def getBool (tree : JsonTree) (key : Bytes) : Option Bool :=
  match tree.getObjectItem key with
  | some (bool value) => some value
  | _ => none

/-- A member that `cJSON_IsObject`. -/
def getObject (tree : JsonTree) (key : Bytes) : Option JsonTree :=
  match tree.getObjectItem key with
  | some (object members) => some (object members)
  | _ => none

/-- The elements of a member that `cJSON_IsArray`. -/
def getArray (tree : JsonTree) (key : Bytes) : Option (List JsonTree) :=
  match tree.getObjectItem key with
  | some (array items) => some items
  | _ => none

end Lookup

mutual

/-- Strings are C strings, and integers are those a double holds exactly. -/
def Kept : JsonTree → Prop
  | null => True
  | bool _ => True
  | number value => value.natAbs < 2 ^ 53
  | text value => 0 ∉ value
  | array items => KeptItems items
  | object members => KeptMembers members

def KeptItems : List JsonTree → Prop
  | [] => True
  | item :: items => item.Kept ∧ KeptItems items

def KeptMembers : List (Bytes × JsonTree) → Prop
  | [] => True
  | (key, value) :: members => 0 ∉ key ∧ value.Kept ∧ KeptMembers members

end

theorem keptItems_iff {items : List JsonTree} : KeptItems items ↔ ∀ item ∈ items, item.Kept := by
  induction items with
  | nil => simp [KeptItems]
  | cons item items ih => simp [KeptItems, ih]

mutual

/-- `cJSON_PrintUnformatted` of a tree whose numbers print as integers. -/
def print : JsonTree → Bytes
  | null => ascii "null"
  | bool true => ascii "true"
  | bool false => ascii "false"
  | number value => signedDecimal value
  | text value => printString value
  | array items => 91 :: printItems items
  | object members => 123 :: printMembers members

def printItems : List JsonTree → Bytes
  | [] => [93]
  | item :: items => item.print ++ (if items.isEmpty then [] else [44]) ++ printItems items

def printMembers : List (Bytes × JsonTree) → Bytes
  | [] => [125]
  | (key, value) :: members =>
      printString key ++ 58 :: (value.print ++ (if members.isEmpty then [] else [44]) ++
        printMembers members)

end

section Parse

def skipComma : Bytes → Bytes
  | 44 :: rest => rest
  | input => input

mutual

/-- A value and what follows it, through at most `fuel` brackets and members. -/
def parseTree : Nat → Bytes → Option (JsonTree × Bytes)
  | 0, _ => none
  | fuel + 1, input =>
      match input with
      | 34 :: rest => (parseText rest).map fun parsed => (text parsed.1, parsed.2)
      | 91 :: rest => (parseItems fuel rest).map fun parsed => (array parsed.1, parsed.2)
      | 123 :: rest => (parseMembers fuel rest).map fun parsed => (object parsed.1, parsed.2)
      | 110 :: 117 :: 108 :: 108 :: rest => some (null, rest)
      | 116 :: 114 :: 117 :: 101 :: rest => some (bool true, rest)
      | 102 :: 97 :: 108 :: 115 :: 101 :: rest => some (bool false, rest)
      | input =>
          some (number (readInteger (input.takeWhile fun byte => Numeric byte)),
            input.dropWhile fun byte => Numeric byte)

def parseItems : Nat → Bytes → Option (List JsonTree × Bytes)
  | 0, _ => none
  | fuel + 1, input =>
      match input with
      | 93 :: rest => some ([], rest)
      | input =>
          match parseTree fuel input with
          | none => none
          | some (item, rest) =>
              (parseItems fuel (skipComma rest)).map fun parsed => (item :: parsed.1, parsed.2)

def parseMembers : Nat → Bytes → Option (List (Bytes × JsonTree) × Bytes)
  | 0, _ => none
  | fuel + 1, input =>
      match input with
      | 125 :: rest => some ([], rest)
      | 34 :: rest =>
          match parseText rest with
          | some (key, 58 :: rest) =>
              match parseTree fuel rest with
              | none => none
              | some (value, rest) =>
                  (parseMembers fuel (skipComma rest)).map fun parsed =>
                    ((key, value) :: parsed.1, parsed.2)
          | _ => none
      | _ => none

end

def parse (input : Bytes) : Option JsonTree := (parseTree input.length input).map Prod.fst

/-- What follows a value cannot be taken for a part of it. -/
def Ends (rest : Bytes) : Prop := ∀ byte ∈ rest.head?, ¬ Numeric byte

theorem signedDecimal_cons (value : Int) :
    ∃ digit more, signedDecimal value = digit :: more ∧ Numeric digit := by
  cases split : signedDecimal value with
  | nil =>
      rw [signedDecimal] at split
      split at split
      · exact absurd (List.append_eq_nil_iff.mp split).1 (List.cons_ne_nil _ _)
      · exact absurd split (decimal_ne_nil _)
  | cons digit more =>
      have inside : digit ∈ signedDecimal value := by simp [split]
      exact ⟨digit, more, rfl, signedDecimal_numeric digit inside⟩

theorem parseTree_number (value : Int) {rest : Bytes} (ends : Ends rest) (fuel : Nat) :
    parseTree (fuel + 1) (signedDecimal value ++ rest) = some (number value, rest) := by
  have all : ∀ byte ∈ signedDecimal value, decide (Numeric byte) = true := fun byte member => by
    simpa using signedDecimal_numeric byte member
  have taken : (signedDecimal value ++ rest).takeWhile (fun byte => Numeric byte) =
      signedDecimal value := by
    rw [List.takeWhile_append_of_pos all]
    cases rest with
    | nil => simp
    | cons stop rest => simp [ends stop rfl]
  have dropped : (signedDecimal value ++ rest).dropWhile (fun byte => Numeric byte) = rest := by
    rw [List.dropWhile_append_of_pos all]
    cases rest with
    | nil => rfl
    | cons stop rest => simp [ends stop rfl]
  obtain ⟨digit, more, split, first⟩ := signedDecimal_cons value
  -- no other kind of value starts with a digit or a sign
  have other {byte : UInt8} (letter : ¬ Numeric byte) (tail : Bytes) :
      signedDecimal value ++ rest ≠ byte :: tail := by
    intro same
    rw [split, List.cons_append, List.cons.injEq] at same
    exact letter (same.1 ▸ first)
  rw [parseTree, taken, dropped, readInteger_signedDecimal]
  all_goals exact fun tail => other (by decide) _

/-- A value starts with neither a comma nor a closing bracket. -/
theorem print_cons (tree : JsonTree) :
    ∃ byte rest, tree.print = byte :: rest ∧ byte ≠ 93 ∧ byte ≠ 44 := by
  cases tree with
  | null => exact ⟨110, ascii "ull", rfl, by decide⟩
  | bool value =>
      cases value with
      | false => exact ⟨102, ascii "alse", rfl, by decide⟩
      | true => exact ⟨116, ascii "rue", rfl, by decide⟩
  | number value =>
      obtain ⟨digit, more, split, first⟩ := signedDecimal_cons value
      refine ⟨digit, more, split, ?_, ?_⟩ <;> rintro rfl <;> exact absurd first (by decide)
  | text value => exact ⟨34, _, rfl, by decide⟩
  | array items => exact ⟨91, _, rfl, by decide⟩
  | object members => exact ⟨123, _, rfl, by decide⟩

theorem print_length (tree : JsonTree) : 1 ≤ tree.print.length := by
  obtain ⟨byte, rest, split, _⟩ := tree.print_cons
  simp [split]

theorem printItems_length (items : List JsonTree) : 1 ≤ (printItems items).length := by
  cases items with
  | nil => exact le_rfl
  | cons item items =>
      have := item.print_length
      rw [printItems, List.length_append, List.length_append]
      omega

theorem printMembers_length (members : List (Bytes × JsonTree)) :
    1 ≤ (printMembers members).length := by
  cases members with
  | nil => exact le_rfl
  | cons member members =>
      rw [printMembers, printString, List.cons_append, List.length_cons]
      omega

theorem skipComma_printItems (items : List JsonTree) (rest : Bytes) :
    skipComma ((if items.isEmpty then [] else [44]) ++ (printItems items ++ rest)) =
      printItems items ++ rest := by
  cases items <;> rfl

theorem skipComma_printMembers (members : List (Bytes × JsonTree)) (rest : Bytes) :
    skipComma ((if members.isEmpty then [] else [44]) ++ (printMembers members ++ rest)) =
      printMembers members ++ rest := by
  cases members <;> rfl

theorem ends_printItems (items : List JsonTree) (rest : Bytes) :
    Ends ((if items.isEmpty then [] else [44]) ++ (printItems items ++ rest)) := by
  cases items with
  | nil =>
      intro byte member
      rw [← Option.some.inj member]
      decide
  | cons item items =>
      intro byte member
      rw [← Option.some.inj member]
      decide

theorem ends_printMembers (members : List (Bytes × JsonTree)) (rest : Bytes) :
    Ends ((if members.isEmpty then [] else [44]) ++ (printMembers members ++ rest)) := by
  cases members with
  | nil =>
      intro byte member
      rw [← Option.some.inj member]
      decide
  | cons member members =>
      intro byte member
      rw [← Option.some.inj member]
      decide

mutual

/-- A printed value is read back, whatever may follow it. -/
theorem parseTree_print : ∀ (tree : JsonTree) (rest : Bytes) (fuel : Nat),
    tree.print.length ≤ fuel → Ends rest → parseTree fuel (tree.print ++ rest) = some (tree, rest)
  | tree, rest, 0, enough, _ => by
      have := tree.print_length
      omega
  | null, rest, fuel + 1, _, _ => rfl
  | bool true, rest, fuel + 1, _, _ => rfl
  | bool false, rest, fuel + 1, _, _ => rfl
  | number value, rest, fuel + 1, _, ends => parseTree_number value ends fuel
  | text value, rest, fuel + 1, _, _ => by
      have split : (text value).print ++ rest = 34 :: (escapeText value ++ 34 :: rest) := by
        simp [print, printString]
      rw [split, parseTree, parseText_escapeText]
      rfl
  | array items, rest, fuel + 1, enough, _ => by
      have inner := parseItems_print items rest fuel (Nat.le_of_succ_le_succ enough)
      have split : (array items).print ++ rest = 91 :: (printItems items ++ rest) := rfl
      rw [split, parseTree, inner]
      rfl
  | object members, rest, fuel + 1, enough, _ => by
      have inner := parseMembers_print members rest fuel (Nat.le_of_succ_le_succ enough)
      have split : (object members).print ++ rest = 123 :: (printMembers members ++ rest) := rfl
      rw [split, parseTree, inner]
      rfl

theorem parseItems_print : ∀ (items : List JsonTree) (rest : Bytes) (fuel : Nat),
    (printItems items).length ≤ fuel →
    parseItems fuel (printItems items ++ rest) = some (items, rest)
  | items, rest, 0, enough => by
      have := printItems_length items
      omega
  | [], rest, fuel + 1, _ => rfl
  | item :: items, rest, fuel + 1, enough => by
      have itemLength := item.print_length
      have itemsLength := printItems_length items
      rw [printItems, List.length_append, List.length_append] at enough
      have first := parseTree_print item
        ((if items.isEmpty then [] else [44]) ++ (printItems items ++ rest)) fuel (by omega)
        (ends_printItems items rest)
      have later := parseItems_print items rest fuel (by omega)
      obtain ⟨byte, more, split, notBracket, _⟩ := item.print_cons
      rw [printItems, List.append_assoc, List.append_assoc, parseItems, first]
      · dsimp only
        rw [skipComma_printItems, later]
        rfl
      · intro tail same
        rw [split, List.cons_append, List.cons.injEq] at same
        exact notBracket same.1

theorem parseMembers_print : ∀ (members : List (Bytes × JsonTree)) (rest : Bytes) (fuel : Nat),
    (printMembers members).length ≤ fuel →
    parseMembers fuel (printMembers members ++ rest) = some (members, rest)
  | members, rest, 0, enough => by
      have := printMembers_length members
      omega
  | [], rest, fuel + 1, _ => rfl
  | (key, value) :: members, rest, fuel + 1, enough => by
      have valueLength := value.print_length
      have membersLength := printMembers_length members
      simp only [printMembers, printString, List.length_append, List.length_cons] at enough
      have first := parseTree_print value
        ((if members.isEmpty then [] else [44]) ++ (printMembers members ++ rest)) fuel (by omega)
        (ends_printMembers members rest)
      have later := parseMembers_print members rest fuel (by omega)
      have split : printMembers ((key, value) :: members) ++ rest = 34 :: (escapeText key ++ 34 ::
          58 :: (value.print ++ ((if members.isEmpty then [] else [44]) ++
            (printMembers members ++ rest)))) := by
        simp [printMembers, printString]
      rw [split]
      simp only [parseMembers, parseText_escapeText, first, skipComma_printMembers, later,
        Option.map_some]

end

theorem parse_print (tree : JsonTree) : parse tree.print = some tree := by
  have whole := parseTree_print tree [] tree.print.length le_rfl fun _ member => by cases member
  rw [List.append_nil] at whole
  rw [parse, whole]
  rfl

end Parse

end JsonTree

/-- `cJSON_PrintUnformatted` and `cJSON_Parse`, the latter on the bytes before a NUL. -/
structure Codec where
  print : JsonTree → Bytes
  parse : Bytes → Option JsonTree

/-- Parsing a printed tree gives back its strings and its exact integers. -/
structure Codec.Faithful (codec : Codec) : Prop where
  parse_print : ∀ tree : JsonTree, tree.Kept → codec.parse (codec.print tree) = some tree
  print_ne_nil : ∀ tree : JsonTree, codec.print tree ≠ []

/-- The printer of plain decimal integers with the parser for its texts. -/
def plainCodec : Codec := { print := JsonTree.print, parse := JsonTree.parse }

theorem plainCodec_faithful : plainCodec.Faithful where
  parse_print tree _ := tree.parse_print
  print_ne_nil tree := by
    obtain ⟨byte, rest, split, _⟩ := tree.print_cons
    exact fun empty => List.cons_ne_nil byte rest (split.symm.trans empty)

end LeanDingdong

import Mathlib.Data.List.Basic
import Mathlib.Data.UInt
import Mathlib.Order.Basic

/-!
DNS messages as they stand in a datagram (RFC 1035, section 4): the name of a question or
of a record is a list of labels, and its end may be a pointer to a name that stands earlier.
-/

namespace DnsMessage

/-- A label fits in the six bits of its length. -/
abbrev Label := { bytes : List UInt8 // 0 < bytes.length ∧ bytes.length ≤ 63 }

abbrev Name := List Label

structure Question where
  name : Name
  qtype : Nat
  qclass : Nat
  deriving DecidableEq

structure Record where
  name : Name
  rtype : Nat
  rclass : Nat
  ttl : Nat
  rdata : List UInt8
  deriving DecidableEq

structure Message where
  id : Nat
  flags : Nat
  questions : List Question
  answers : List Record
  authorities : List Record
  additionals : List Record
  deriving DecidableEq

def word (high low : UInt8) : Nat := high.toNat * 256 + low.toNat

/-- A name without a pointer. -/
def encodeName : Name → List UInt8
  | [] => [0]
  | label :: rest => UInt8.ofNat label.1.length :: label.1 ++ encodeName rest

section Readers

variable (message : List UInt8)

def readWord (position : Nat) : Option Nat := do
  let high ← message[position]?
  let low ← message[position + 1]?
  return word high low

def readBytes (position count : Nat) : Option (List UInt8) :=
  if position + count ≤ message.length then some ((message.drop position).take count) else none

def readLabel (position size : Nat) : Option Label :=
  if fits : 0 < size ∧ size ≤ 63 ∧ position + size ≤ message.length then
    some ⟨(message.drop position).take size, by
      rw [List.length_take, List.length_drop]
      omega⟩
  else none

/-- The name at a position, and where what follows it starts. Pointers may lead in a circle,
so the turns are counted. -/
def readName : Nat → Nat → Option (Name × Nat)
  | 0, _ => none
  | turns + 1, position => do
      let size ← message[position]?
      if size = 0 then return ([], position + 1)
      else if size < 64 then
        let label ← readLabel message (position + 1) size.toNat
        let (rest, next) ← readName turns (position + 1 + size.toNat)
        return (label :: rest, next)
      else if 192 ≤ size then
        let low ← message[position + 1]?
        let (name, _) ← readName turns (word (size - 192) low)
        return (name, position + 2)
      else none

def readQuestion (position : Nat) : Option (Question × Nat) := do
  let (name, next) ← readName message (message.length + 1) position
  let qtype ← readWord message next
  let qclass ← readWord message (next + 2)
  return ({ name := name, qtype := qtype, qclass := qclass }, next + 4)

def readRecord (position : Nat) : Option (Record × Nat) := do
  let (name, next) ← readName message (message.length + 1) position
  let rtype ← readWord message next
  let rclass ← readWord message (next + 2)
  let ttlHigh ← readWord message (next + 4)
  let ttlLow ← readWord message (next + 6)
  let rdlength ← readWord message (next + 8)
  let rdata ← readBytes message (next + 10) rdlength
  return ({ name := name, rtype := rtype, rclass := rclass, ttl := ttlHigh * 65536 + ttlLow
            rdata := rdata }, next + 10 + rdlength)

def readMany {α : Type} (read : Nat → Option (α × Nat)) : Nat → Nat → Option (List α × Nat)
  | 0, position => some ([], position)
  | count + 1, position => do
      let (first, next) ← read position
      let (rest, last) ← readMany read count next
      return (first :: rest, last)

/-- The message that takes up the whole datagram. -/
def decode : Option Message := do
  let id ← readWord message 0
  let flags ← readWord message 2
  let qdcount ← readWord message 4
  let ancount ← readWord message 6
  let nscount ← readWord message 8
  let arcount ← readWord message 10
  let (questions, next) ← readMany (readQuestion message) qdcount 12
  let (answers, next) ← readMany (readRecord message) ancount next
  let (authorities, next) ← readMany (readRecord message) nscount next
  let (additionals, next) ← readMany (readRecord message) arcount next
  if next = message.length then
    return { id := id, flags := flags, questions := questions, answers := answers
             authorities := authorities, additionals := additionals }
  else none

end Readers

section Names

variable {message front back : List UInt8} {position turns : Nat} {name : Name}

theorem encodeName_pos (name : Name) : name.length < (encodeName name).length := by
  induction name with
  | nil => exact Nat.one_pos
  | cons label rest ih =>
      rw [encodeName, List.length_cons, List.length_append, List.length_cons]
      omega

theorem readWord_at {high low : UInt8} (stands : message = front ++ high :: low :: back)
    (starts : front.length = position) : readWord message position = some (word high low) := by
  subst stands starts
  rw [readWord, List.getElem?_append_right le_rfl,
    List.getElem?_append_right (Nat.le_add_right _ _), Nat.sub_self, Nat.add_sub_cancel_left]
  rfl

theorem readBytes_at {bytes : List UInt8} (stands : message = front ++ bytes ++ back)
    (starts : front.length = position) : readBytes message position bytes.length = some bytes := by
  subst stands starts
  rw [readBytes, if_pos (by rw [List.length_append, List.length_append]; omega), List.append_assoc,
    List.drop_left, List.take_left]

theorem readLabel_at (label : Label) (stands : message = front ++ label.1 ++ back)
    (starts : front.length = position) :
    readLabel message position label.1.length = some label := by
  obtain ⟨bytes, sized⟩ := label
  subst stands starts
  have fits : 0 < bytes.length ∧ bytes.length ≤ 63 ∧
      front.length + bytes.length ≤ (front ++ bytes ++ back).length := by
    rw [List.length_append, List.length_append]
    omega
  rw [readLabel, dif_pos fits]
  simp only [List.append_assoc, List.drop_left, List.take_left]

/-- A name without a pointer is read back, wherever it stands. -/
theorem readName_at (stands : message = front ++ encodeName name ++ back)
    (starts : front.length = position) (enough : name.length < turns) :
    readName message turns position = some (name, position + (encodeName name).length) := by
  induction name generalizing front position turns with
  | nil =>
      obtain ⟨turns, rfl⟩ := Nat.exists_eq_add_one_of_ne_zero enough.ne'
      have size : message[position]? = some 0 := by
        rw [stands, List.append_assoc, List.getElem?_append_right starts.le, starts, Nat.sub_self]
        rfl
      rw [readName, size]
      rfl
  | cons label rest ih =>
      obtain ⟨turns, rfl⟩ := Nat.exists_eq_add_one_of_ne_zero (Nat.ne_of_gt (Nat.zero_lt_of_lt enough))
      have sized := label.2
      have size : message[position]? = some (UInt8.ofNat label.1.length) := by
        rw [stands, List.append_assoc, List.getElem?_append_right starts.le, starts, Nat.sub_self]
        rfl
      have length : (UInt8.ofNat label.1.length).toNat = label.1.length := by
        rw [UInt8.toNat_ofNat']
        omega
      have nonzero : UInt8.ofNat label.1.length ≠ 0 := by
        rw [← UInt8.toNat_inj.ne, length]
        exact sized.1.ne'
      have short : UInt8.ofNat label.1.length < 64 := by
        rw [UInt8.lt_iff_toNat_lt, length]
        exact Nat.lt_succ_of_le sized.2
      have taken : readLabel message (position + 1) label.1.length = some label := by
        refine @readLabel_at message (front ++ [UInt8.ofNat label.1.length]) (encodeName rest ++ back)
          (position + 1) label ?_ ?_
        · rw [stands, encodeName]
          simp
        · rw [List.length_append, starts, List.length_singleton]
      have others : readName message turns (position + 1 + label.1.length) =
          some (rest, position + 1 + label.1.length + (encodeName rest).length) := by
        refine @ih (front ++ UInt8.ofNat label.1.length :: label.1) (position + 1 + label.1.length)
          turns ?_ ?_ ?_
        · rw [stands, encodeName]
          simp
        · rw [List.length_append, starts, List.length_cons]
          omega
        · rw [List.length_cons] at enough
          omega
      have total : position + 1 + label.1.length + (encodeName rest).length =
          position + (encodeName (label :: rest)).length := by
        rw [encodeName, List.cons_append, List.length_cons, List.length_append]
        omega
      rw [readName, size]
      simp only [Option.bind_eq_bind, Option.bind_some, if_neg nonzero, if_pos short, length, taken,
        others, total]
      rfl

/-- Four bytes behind a name without a pointer make a question. -/
theorem readQuestion_at {t0 t1 c0 c1 : UInt8}
    (stands : message = front ++ encodeName name ++ t0 :: t1 :: c0 :: c1 :: back)
    (starts : front.length = position) :
    readQuestion message position =
      some ({ name := name, qtype := word t0 t1, qclass := word c0 c1 },
        position + (encodeName name).length + 4) := by
  have ends : (front ++ encodeName name).length = position + (encodeName name).length := by
    rw [List.length_append, starts]
  have enough : name.length < message.length + 1 := by
    have inside := encodeName_pos name
    rw [stands, List.length_append, ends]
    omega
  have qclass : readWord message (position + (encodeName name).length + 2) = some (word c0 c1) := by
    refine @readWord_at message (front ++ encodeName name ++ [t0, t1]) back _ c0 c1 ?_ ?_
    · rw [stands, List.append_assoc _ [t0, t1]]
      rfl
    · rw [List.length_append, ends]
      rfl
  rw [readQuestion, readName_at stands starts enough]
  simp only [Option.bind_eq_bind, Option.bind_some, readWord_at stands ends, qclass]
  rfl

/-- A pointer stands for the name it leads to. -/
theorem readName_pointer {high low : UInt8} {last : Nat}
    (stands : message = front ++ high :: low :: back) (starts : front.length = position)
    (pointer : 192 ≤ high) (leads : readName message turns (word (high - 192) low) = some (name, last)) :
    readName message (turns + 1) position = some (name, position + 2) := by
  have first : message[position]? = some high := by
    rw [stands, List.getElem?_append_right starts.le, starts, Nat.sub_self]
    rfl
  have second : message[position + 1]? = some low := by
    rw [stands, List.getElem?_append_right (by omega), starts, Nat.add_sub_cancel_left]
    rfl
  have large : 192 ≤ high.toNat := UInt8.le_iff_toNat_le.mp pointer
  have nonzero : high ≠ 0 := by
    intro zero
    rw [zero] at large
    exact absurd large (by decide)
  have long : ¬ high < 64 := by
    rw [UInt8.lt_iff_toNat_lt]
    have bound : (64 : UInt8).toNat = 64 := rfl
    omega
  rw [readName, first]
  simp only [Option.bind_eq_bind, Option.bind_some, if_neg nonzero, if_neg long, if_pos pointer,
    second, leads]
  rfl

/-- Ten bytes and the data behind a pointer make a record. -/
theorem readRecord_at {high low r0 r1 c0 c1 a0 a1 a2 a3 l0 l1 : UInt8} {rdata : List UInt8}
    {last : Nat}
    (stands : message = front ++ [high, low, r0, r1, c0, c1, a0, a1, a2, a3, l0, l1] ++ rdata ++ back)
    (starts : front.length = position) (pointer : 192 ≤ high)
    (leads : readName message message.length (word (high - 192) low) = some (name, last))
    (sized : word l0 l1 = rdata.length) :
    readRecord message position =
      some ({ name := name, rtype := word r0 r1, rclass := word c0 c1
              ttl := word a0 a1 * 65536 + word a2 a3, rdata := rdata },
        position + 2 + 10 + rdata.length) := by
  have named : readName message (message.length + 1) position = some (name, position + 2) :=
    readName_pointer (by simpa using stands) starts pointer leads
  have rtype : readWord message (position + 2) = some (word r0 r1) :=
    @readWord_at message (front ++ [high, low]) (c0 :: c1 :: a0 :: a1 :: a2 :: a3 :: l0 :: l1 ::
      (rdata ++ back)) _ r0 r1 (by simpa using stands) (by simpa using starts)
  have rclass : readWord message (position + 2 + 2) = some (word c0 c1) :=
    @readWord_at message (front ++ [high, low, r0, r1]) (a0 :: a1 :: a2 :: a3 :: l0 :: l1 ::
      (rdata ++ back)) _ c0 c1 (by simpa using stands) (by simpa using starts)
  have ttlHigh : readWord message (position + 2 + 4) = some (word a0 a1) :=
    @readWord_at message (front ++ [high, low, r0, r1, c0, c1]) (a2 :: a3 :: l0 :: l1 ::
      (rdata ++ back)) _ a0 a1 (by simpa using stands) (by simpa using starts)
  have ttlLow : readWord message (position + 2 + 6) = some (word a2 a3) :=
    @readWord_at message (front ++ [high, low, r0, r1, c0, c1, a0, a1]) (l0 :: l1 ::
      (rdata ++ back)) _ a2 a3 (by simpa using stands) (by simpa using starts)
  have rdlength : readWord message (position + 2 + 8) = some (word l0 l1) :=
    @readWord_at message (front ++ [high, low, r0, r1, c0, c1, a0, a1, a2, a3]) (rdata ++ back)
      _ l0 l1 (by simpa using stands) (by simpa using starts)
  have held : readBytes message (position + 2 + 10) rdata.length = some rdata :=
    readBytes_at stands (by simpa using starts)
  rw [readRecord, named]
  simp only [Option.bind_eq_bind, Option.bind_some, rtype, rclass, ttlHigh, ttlLow, rdlength, sized,
    held]
  rfl

end Names

end DnsMessage

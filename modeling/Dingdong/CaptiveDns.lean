import Dingdong.DnsMessage
import Dingdong.RingCells
import Dingdong.Util

/-!
The DNS server of the captive portal: a query for an address is answered with the gateway's,
any other one with SERVFAIL. Every access to the packet and to the reply's buffer is checked
in the model, and a run that leaves one of them is a fault.
-/

namespace LeanDingdong

open DnsMessage RingCells

/-- An access outside of an array, at a position. -/
inductive Fault where
  | read (position : Nat)
  | write (position : Nat)

abbrev Checked := Except Fault

/-- `buf[position]` -/
def peek (buf : Bytes) (position : Nat) : Checked UInt8 :=
  match buf[position]? with
  | some byte => .ok byte
  | none => .error (.read position)

/-- The bytes a `memcpy` takes. -/
def slice (buf : Bytes) (position count : Nat) : Checked Bytes :=
  if position + count ≤ buf.length then .ok ((buf.drop position).take count)
  else .error (.read (max position buf.length))

/-- `memcpy` into a buffer. -/
def poke (buf : Bytes) (position : Nat) (source : Bytes) : Checked Bytes :=
  if position + source.length ≤ buf.length then .ok (copyAt buf position source)
  else .error (.write (max position buf.length))

/-- `htons` of a stored field, as the two bytes it leaves. -/
def htons (value : Nat) : Bytes := [UInt8.ofNat (value / 256), UInt8.ofNat value]

/-- `sizeof(dns_hdr_t)` -/
def dnsHdrSize : Nat := 12

def dnsHdrQr : Nat := 0x8000
def dnsHdrAa : Nat := 0x0400
def dnsHdrRcodeOk : Nat := 0
def dnsHdrRcodeFail : Nat := 2
def dnsTypeA : Nat := 1
def dnsBufMax : Nat := 512

/-- `s_answer_ip`, byte by byte as it lies in memory. -/
structure AnswerIp where
  o0 : UInt8
  o1 : UInt8
  o2 : UInt8
  o3 : UInt8

def AnswerIp.bytes (ip : AnswerIp) : Bytes := [ip.o0, ip.o1, ip.o2, ip.o3]

/-- The position after the name, `none` for the code's -1. -/
def skipQname (buf : Bytes) (pos : Nat) : Checked (Option Nat) :=
  if pos < buf.length then do
    let l ← peek buf pos
    if l = 0 then return some (pos + 1)
    else if l &&& 0xC0 ≠ 0 then return none
    else skipQname buf (pos + 1 + l.toNat)
  else return none
termination_by buf.length - pos

/-- The checks of `build_response` on the packet: where the question's name ends and its type. -/
def questionEnd (q : Bytes) : Checked (Option (Nat × Nat)) := do
  if q.length < dnsHdrSize then return none
  let high ← peek q 4
  let low ← peek q 5
  if word high low ≠ 1 then return none
  match ← skipQname q dnsHdrSize with
  | none => return none
  | some qend =>
      if q.length < qend + 4 then return none
      let high ← peek q qend
      let low ← peek q (qend + 1)
      return some (qend, word high low)

/-- The header's fields, each written where it stands. -/
def writeHeader (q out : Bytes) (qtype : Nat) : Checked Bytes := do
  let id ← slice q 0 2
  let out ← poke out 0 id
  let out ← poke out 2 (htons (dnsHdrQr ||| dnsHdrAa |||
    (if qtype = dnsTypeA then dnsHdrRcodeOk else dnsHdrRcodeFail)))
  let out ← poke out 4 (htons 1)
  let out ← poke out 6 (htons (if qtype = dnsTypeA then 1 else 0))
  let out ← poke out 8 [0, 0]
  poke out 10 [0, 0]

/-- The answer up to its data: a pointer to the question's name, type A, class IN, a minute. -/
def answerRr : Bytes := [0xC0, 0x0C, 0, 1, 0, 1, 0, 0, 0, 60, 0, 4]

/-- `build_response`: the length it returns, `none` for -1, and the buffer it leaves. -/
def buildResponse (answerIp : AnswerIp) (q out : Bytes) : Checked (Option Nat × Bytes) := do
  match ← questionEnd q with
  | none => return (none, out)
  | some (qend, qtype) =>
      let questionTotal := qend + 4 - dnsHdrSize
      let answerRrSize := if qtype = dnsTypeA then 16 else 0
      let total := dnsHdrSize + questionTotal + answerRrSize
      if out.length < total then return (none, out)
      let out ← writeHeader q out qtype
      let question ← slice q dnsHdrSize questionTotal
      let out ← poke out dnsHdrSize question
      if qtype = dnsTypeA then
        let out ← poke out (dnsHdrSize + questionTotal) answerRr
        let out ← poke out (dnsHdrSize + questionTotal + 12) answerIp.bytes
        return (some total, out)
      else return (some total, out)

/-- The loop of `dns_task` on a datagram: what it sends, and the buffer for the next one. -/
def dnsTask (answerIp : AnswerIp) (datagram resp : Bytes) : Checked (Option Bytes × Bytes) := do
  let buf := datagram.take dnsBufMax
  if buf.length = 0 then return (none, resp)
  let (rn, resp) ← buildResponse answerIp buf resp
  match rn with
  | none => return (none, resp)
  | some rn => return (some (resp.take rn), resp)

/-- What the task sends for one datagram after another. -/
def dnsServe (answerIp : AnswerIp) : Bytes → List Bytes → Checked (List (Option Bytes))
  | _, [] => return []
  | resp, datagram :: later => do
      let (sent, resp) ← dnsTask answerIp datagram resp
      let replies ← dnsServe answerIp resp later
      return sent :: replies

theorem ok_bind {α β : Type} (value : α) (next : α → Checked β) :
    (Except.ok value >>= next) = next value := rfl

section Accesses

variable {buf front rest source : Bytes} {position : Nat}

theorem peek_at {byte : UInt8} (stands : buf = front ++ byte :: rest)
    (starts : front.length = position) : peek buf position = .ok byte := by
  have held : buf[position]? = some byte := by
    rw [stands, List.getElem?_append_right starts.le, starts, Nat.sub_self]
    rfl
  rw [peek, held]

theorem peek_inside (inside : position < buf.length) : ∃ byte, peek buf position = .ok byte := by
  refine ⟨buf[position], ?_⟩
  rw [peek, List.getElem?_eq_getElem inside]

theorem slice_at (stands : buf = front ++ source ++ rest) (starts : front.length = position) :
    slice buf position source.length = .ok source := by
  subst stands starts
  rw [slice, if_pos (by rw [List.length_append, List.length_append]; omega), List.append_assoc,
    List.drop_left, List.take_left]

/-- A write behind what is written already. -/
theorem poke_fills {written out : Bytes} {next : Nat} (starts : written.length = position)
    (ends : position + source.length = next) (fits : next ≤ out.length) :
    poke (written ++ out.drop position) position source =
      .ok (written ++ source ++ out.drop next) := by
  subst starts ends
  rw [poke, if_pos (by rw [List.length_append, List.length_drop]; omega), copyAt, List.take_left,
    List.drop_length_add_append, List.drop_drop]

end Accesses

section Queries

variable {packet out : Bytes} {id : Nat} {question : Question}

/-- Labels of up to 63 bytes are those without a flag in the upper bits of their length. -/
theorem flags_clear (l : UInt8) : l &&& 0xC0 = 0 ↔ l.toNat ≤ 63 := by
  have all : ∀ size : Fin 256, UInt8.ofNat size &&& 0xC0 = 0 ↔ size.val ≤ 63 := by decide +kernel
  have own := all ⟨l.toNat, l.toNat_lt⟩
  rwa [UInt8.ofNat_toNat] at own

theorem skipQname_name (name : Name) (front rest : Bytes) :
    skipQname (front ++ encodeName name ++ rest) front.length =
      .ok (some (front.length + (encodeName name).length)) := by
  induction name generalizing front with
  | nil =>
      have inside : front.length < (front ++ encodeName [] ++ rest).length := by
        rw [encodeName, List.length_append, List.length_append, List.length_singleton]
        omega
      have zero : peek (front ++ encodeName [] ++ rest) front.length = .ok 0 :=
        @peek_at _ front rest _ 0 (by rw [encodeName, List.append_assoc]; rfl) rfl
      rw [skipQname, if_pos inside, zero]
      rfl
  | cons label others ih =>
      have sized := label.2
      have length : (UInt8.ofNat label.1.length).toNat = label.1.length := by
        rw [UInt8.toNat_ofNat']
        omega
      have nonzero : UInt8.ofNat label.1.length ≠ 0 := by
        rw [← UInt8.toNat_inj.ne, length]
        exact sized.1.ne'
      have clear : UInt8.ofNat label.1.length &&& 0xC0 = 0 := by
        rw [flags_clear, length]
        exact sized.2
      have inside : front.length < (front ++ encodeName (label :: others) ++ rest).length := by
        rw [encodeName, List.length_append, List.length_append, List.length_append, List.length_cons]
        omega
      have first : peek (front ++ encodeName (label :: others) ++ rest) front.length =
          .ok (UInt8.ofNat label.1.length) :=
        @peek_at _ front (label.1 ++ encodeName others ++ rest) _ _ (by simp [encodeName]) rfl
      have behind : skipQname (front ++ encodeName (label :: others) ++ rest)
          (front.length + 1 + label.1.length) =
            .ok (some (front.length + 1 + label.1.length + (encodeName others).length)) := by
        have step := ih (front ++ UInt8.ofNat label.1.length :: label.1)
        have same : front ++ UInt8.ofNat label.1.length :: label.1 ++ encodeName others ++ rest =
            front ++ encodeName (label :: others) ++ rest := by
          simp [encodeName]
        have moved : (front ++ UInt8.ofNat label.1.length :: label.1).length =
            front.length + 1 + label.1.length := by
          rw [List.length_append, List.length_cons]
          omega
        rwa [same, moved] at step
      have total : front.length + 1 + label.1.length + (encodeName others).length =
          front.length + (encodeName (label :: others)).length := by
        rw [encodeName, List.cons_append, List.length_cons, List.length_append]
        omega
      rw [skipQname, if_pos inside, first]
      rw [ok_bind, if_neg nonzero, if_neg (not_not.mpr clear), length, behind, total]

/-- A header of twelve bytes with QDCOUNT 1, a name without a pointer, a type and a class. -/
inductive Asks : Bytes → Nat → Question → Prop
  | query (i0 i1 f0 f1 a0 a1 n0 n1 r0 r1 : UInt8) (name : Name) (t0 t1 c0 c1 : UInt8)
      (rest : Bytes) :
      Asks (i0 :: i1 :: f0 :: f1 :: 0 :: 1 :: a0 :: a1 :: n0 :: n1 :: r0 :: r1 ::
          (encodeName name ++ t0 :: t1 :: c0 :: c1 :: rest))
        (word i0 i1) { name := name, qtype := word t0 t1, qclass := word c0 c1 }

/-- The walk over the labels stays inside of the packet, and ends behind a name only. -/
theorem skipQname_checked (buf : Bytes) (pos : Nat) :
    ∃ result, skipQname buf pos = .ok result ∧ ∀ last, result = some last →
      ∃ name rest, buf.drop pos = encodeName name ++ rest ∧
        last = pos + (encodeName name).length := by
  induction pos using skipQname.induct buf with
  | case1 pos inside ih =>
      obtain ⟨l, first⟩ := peek_inside inside
      have here : buf[pos] = l := by
        rw [peek, List.getElem?_eq_getElem inside] at first
        exact Except.ok.inj first
      have split : buf.drop pos = l :: buf.drop (pos + 1) := by
        rw [List.drop_eq_getElem_cons inside, here]
      rw [skipQname, if_pos inside, first, ok_bind]
      split_ifs with zero flagged
      · refine ⟨_, rfl, fun last found => ⟨[], buf.drop (pos + 1), ?_, ?_⟩⟩
        · rw [split, zero]
          rfl
        · rw [← Option.some.inj found]
          rfl
      · exact ⟨_, rfl, fun last found => absurd found (by simp)⟩
      · obtain ⟨result, runs, named⟩ := ih l
        refine ⟨result, runs, fun last found => ?_⟩
        obtain ⟨name, rest, behind, ends⟩ := named last found
        have nonempty : 0 < (encodeName name ++ rest).length := by
          have some := encodeName_pos name
          rw [List.length_append]
          omega
        rw [← behind, List.length_drop] at nonempty
        have sized : l.toNat ≤ 63 := (flags_clear l).mp (not_not.mp flagged)
        have positive : 0 < l.toNat := by
          rw [Nat.pos_iff_ne_zero]
          exact fun none => zero (UInt8.toNat_inj.mp none)
        have taken : ((buf.drop (pos + 1)).take l.toNat).length = l.toNat := by
          rw [List.length_take, List.length_drop]
          omega
        obtain ⟨label, held⟩ : ∃ label : Label, label.1 = (buf.drop (pos + 1)).take l.toNat :=
          ⟨⟨_, taken.symm ▸ ⟨positive, sized⟩⟩, rfl⟩
        have joined := List.take_append_drop l.toNat (buf.drop (pos + 1))
        rw [List.drop_drop, behind] at joined
        refine ⟨label :: name, rest, ?_, ?_⟩
        · rw [encodeName, held, taken, UInt8.ofNat_toNat, List.cons_append, List.cons_append,
            List.append_assoc, joined, split]
        · rw [ends, encodeName, List.cons_append, List.length_cons, List.length_append, held, taken]
          omega
  | case2 pos outside =>
      rw [skipQname, if_neg outside]
      exact ⟨_, rfl, fun last found => absurd found (by simp)⟩

theorem questionEnd_asks (asks : Asks packet id question) :
    questionEnd packet =
      .ok (some (dnsHdrSize + (encodeName question.name).length, question.qtype)) := by
  obtain ⟨i0, i1, f0, f1, a0, a1, n0, n1, r0, r1, name, t0, t1, c0, c1, rest⟩ := asks
  generalize stands : i0 :: i1 :: f0 :: f1 :: 0 :: 1 :: a0 :: a1 :: n0 :: n1 :: r0 :: r1 ::
    (encodeName name ++ t0 :: t1 :: c0 :: c1 :: rest) = packet
  have front : packet = [i0, i1, f0, f1, 0, 1, a0, a1, n0, n1, r0, r1] ++ encodeName name ++
      t0 :: t1 :: c0 :: c1 :: rest := by
    rw [← stands, List.append_assoc]
    rfl
  have total : packet.length = dnsHdrSize + (encodeName name).length + 4 + rest.length := by
    rw [front, List.length_append, List.length_append]
    simp only [List.length_cons, List.length_nil, dnsHdrSize]
    omega
  have walked : skipQname packet dnsHdrSize =
      .ok (some (dnsHdrSize + (encodeName name).length)) := by
    rw [front]
    exact skipQname_name name _ _
  have count : peek packet 4 = .ok 0 ∧ peek packet 5 = .ok 1 := by
    rw [← stands]
    exact ⟨rfl, rfl⟩
  have ends : ([i0, i1, f0, f1, 0, 1, a0, a1, n0, n1, r0, r1] ++ encodeName name).length =
      dnsHdrSize + (encodeName name).length := by
    rw [List.length_append]
    rfl
  have high : peek packet (dnsHdrSize + (encodeName name).length) = .ok t0 := peek_at front ends
  have low : peek packet (dnsHdrSize + (encodeName name).length + 1) = .ok t1 := by
    refine @peek_at packet ([i0, i1, f0, f1, 0, 1, a0, a1, n0, n1, r0, r1] ++ encodeName name ++ [t0])
      (c0 :: c1 :: rest) _ t1 ?_ ?_
    · rw [front, List.append_assoc _ [t0]]
      rfl
    · rw [List.length_append, ends, List.length_singleton]
  rw [questionEnd, if_neg (by omega), count.1, ok_bind, count.2, ok_bind, if_neg (by decide), walked,
    ok_bind]
  dsimp only
  rw [if_neg (by omega), high, ok_bind, low, ok_bind]
  rfl

theorem asks_of {rest : Bytes} {name : Name} {high low : UInt8} (long : 12 ≤ packet.length)
    (first : peek packet 4 = .ok high) (second : peek packet 5 = .ok low) (one : word high low = 1)
    (behind : packet.drop 12 = encodeName name ++ rest) (typed : 4 ≤ rest.length) :
    ∃ id question, Asks packet id question := by
  obtain _ | ⟨i0, _ | ⟨i1, _ | ⟨f0, _ | ⟨f1, _ | ⟨q0, _ | ⟨q1, _ | ⟨a0, _ | ⟨a1, _ | ⟨n0, _ |
    ⟨n1, _ | ⟨r0, _ | ⟨r1, others⟩⟩⟩⟩⟩⟩⟩⟩⟩⟩⟩⟩ := packet
  iterate 12 · simp at long
  obtain _ | ⟨t0, _ | ⟨t1, _ | ⟨c0, _ | ⟨c1, rest⟩⟩⟩⟩ := rest
  iterate 4 · simp at typed
  have isFirst : q0 = high := Except.ok.inj first
  have isSecond : q1 = low := Except.ok.inj second
  rw [word] at one
  have highZero : q0 = 0 := by
    rw [isFirst, ← UInt8.toNat_inj]
    exact (by omega : high.toNat = 0)
  have lowOne : q1 = 1 := by
    rw [isSecond, ← UInt8.toNat_inj]
    exact (by omega : low.toNat = 1)
  have others_eq : others = encodeName name ++ t0 :: t1 :: c0 :: c1 :: rest := behind
  rw [highZero, lowOne, others_eq]
  exact ⟨_, _, .query i0 i1 f0 f1 a0 a1 n0 n1 r0 r1 name t0 t1 c0 c1 rest⟩

/-- What passes the checks is a query. -/
theorem questionEnd_checked (packet : Bytes) :
    ∃ result, questionEnd packet = .ok result ∧
      (result.isSome → ∃ id question, Asks packet id question) := by
  rw [questionEnd]
  split_ifs with short
  · exact ⟨none, rfl, fun found => absurd found (by decide)⟩
  rw [dnsHdrSize, not_lt] at short
  obtain ⟨high, first⟩ := peek_inside (show 4 < packet.length by omega)
  obtain ⟨low, second⟩ := peek_inside (show 5 < packet.length by omega)
  rw [first, ok_bind, second, ok_bind]
  split_ifs with other
  · exact ⟨none, rfl, fun found => absurd found (by decide)⟩
  obtain ⟨walk, walked, named⟩ := skipQname_checked packet dnsHdrSize
  rw [walked, ok_bind]
  cases walk with
  | none => exact ⟨none, rfl, fun found => absurd found (by decide)⟩
  | some qend =>
      obtain ⟨name, rest, behind, ends⟩ := named qend rfl
      dsimp only
      split_ifs with cut
      · exact ⟨none, rfl, fun found => absurd found (by decide)⟩
      obtain ⟨t0, typeHigh⟩ := peek_inside (show qend < packet.length by omega)
      obtain ⟨t1, typeLow⟩ := peek_inside (show qend + 1 < packet.length by omega)
      rw [typeHigh, ok_bind, typeLow, ok_bind]
      refine ⟨some (qend, word t0 t1), rfl, fun _ =>
        asks_of short first second (not_not.mp other) behind ?_⟩
      have size := congrArg List.length behind
      rw [List.length_drop, List.length_append] at size
      omega

end Queries

section Replies

variable {packet out : Bytes} {id : Nat} {question : Question}

/-- What the portal answers: the gateway's address for a query of type A, else SERVFAIL. -/
def replyTo (answerIp : AnswerIp) (id : Nat) (question : Question) : Message where
  id := id
  flags := dnsHdrQr ||| dnsHdrAa |||
    (if question.qtype = dnsTypeA then dnsHdrRcodeOk else dnsHdrRcodeFail)
  questions := [question]
  answers :=
    if question.qtype = dnsTypeA then
      [{ name := question.name, rtype := 1, rclass := 1, ttl := 60, rdata := answerIp.bytes }]
    else []
  authorities := []
  additionals := []

def replySize (question : Question) : Nat :=
  12 + (encodeName question.name).length + 4 + (if question.qtype = dnsTypeA then 16 else 0)

/-- The bytes of that answer, which repeat nothing but the question. -/
def replyBytes (answerIp : AnswerIp) (id : Nat) (question : Question) : Bytes :=
  htons id ++ htons (dnsHdrQr ||| dnsHdrAa |||
      (if question.qtype = dnsTypeA then dnsHdrRcodeOk else dnsHdrRcodeFail)) ++ htons 1 ++
    htons (if question.qtype = dnsTypeA then 1 else 0) ++ [0, 0] ++ [0, 0] ++
    (encodeName question.name ++ (htons question.qtype ++ htons question.qclass)) ++
    (if question.qtype = dnsTypeA then answerRr ++ answerIp.bytes else [])

theorem htons_word (high low : UInt8) : htons (word high low) = [high, low] := by
  have below := low.toNat_lt
  have upper : (high.toNat * 256 + low.toNat) / 256 = high.toNat := by omega
  rw [htons, word, upper, UInt8.ofNat_toNat]
  congr 2
  rw [← UInt8.toNat_inj, UInt8.toNat_ofNat']
  omega

theorem writeHeader_writes {i0 i1 : UInt8} {rest : Bytes} {qtype : Nat} (long : 12 ≤ out.length)
    (starts : packet = i0 :: i1 :: rest) :
    writeHeader packet out qtype =
      .ok ([i0, i1] ++ htons (dnsHdrQr ||| dnsHdrAa |||
        (if qtype = dnsTypeA then dnsHdrRcodeOk else dnsHdrRcodeFail)) ++ htons 1 ++
          htons (if qtype = dnsTypeA then 1 else 0) ++ [0, 0] ++ [0, 0] ++ out.drop 12) := by
  have id : slice packet 0 2 = .ok [i0, i1] := @slice_at packet [] rest [i0, i1] 0 starts rfl
  have next (written source : Bytes) (position : Nat) (starts : written.length = position)
      (two : source.length = 2) (fits : position + 2 ≤ 12) :
      poke (written ++ out.drop position) position source =
        .ok (written ++ source ++ out.drop (position + 2)) :=
    poke_fills starts (by rw [two]) (by omega)
  have first : poke out 0 [i0, i1] = .ok ([i0, i1] ++ out.drop 2) :=
    next [] [i0, i1] 0 rfl rfl (by decide)
  rw [writeHeader, id, ok_bind, first, ok_bind, next _ _ 2 rfl rfl (by decide), ok_bind,
    next _ _ 4 rfl rfl (by decide), ok_bind, next _ _ 6 rfl rfl (by decide), ok_bind,
    next _ _ 8 rfl rfl (by decide), ok_bind, next _ _ 10 rfl rfl (by decide)]

/-- A message of one question, with the answers that are read behind it. -/
theorem decode_question {message back : Bytes} {answers : List Record}
    {i0 i1 g0 g1 an0 an1 t0 t1 c0 c1 : UInt8} {name : Name}
    (stands : message = [i0, i1, g0, g1, 0, 1, an0, an1, 0, 0, 0, 0] ++ encodeName name ++
      t0 :: t1 :: c0 :: c1 :: back)
    (answered : readMany (readRecord message) (word an0 an1) (12 + (encodeName name).length + 4) =
      some (answers, message.length)) :
    decode message =
      some { id := word i0 i1, flags := word g0 g1
             questions := [{ name := name, qtype := word t0 t1, qclass := word c0 c1 }]
             answers := answers, authorities := [], additionals := [] } := by
  have asked : readQuestion message 12 =
      some ({ name := name, qtype := word t0 t1, qclass := word c0 c1 },
        12 + (encodeName name).length + 4) := readQuestion_at stands rfl
  have header : readWord message 0 = some (word i0 i1) ∧ readWord message 2 = some (word g0 g1) ∧
      readWord message 4 = some 1 ∧ readWord message 6 = some (word an0 an1) ∧
      readWord message 8 = some 0 ∧ readWord message 10 = some 0 := by
    rw [stands]
    exact ⟨rfl, rfl, rfl, rfl, rfl, rfl⟩
  obtain ⟨id, flags, qdcount, ancount, nscount, arcount⟩ := header
  have questions : readMany (readQuestion message) 1 12 =
      some ([{ name := name, qtype := word t0 t1, qclass := word c0 c1 }],
        12 + (encodeName name).length + 4) := by
    rw [readMany, asked]
    rfl
  rw [decode, id, flags, qdcount, ancount, nscount, arcount]
  have none (position : Nat) : readMany (readRecord message) 0 position = some ([], position) := rfl
  simp only [Option.bind_eq_bind, Option.bind_some, questions, answered, none, if_true]
  rfl

section Layout

variable {reply : Bytes} {i0 i1 t0 t1 c0 c1 : UInt8} {name : Name}

/-- The bytes of an answer decode as the question and the gateway's address. -/
theorem decode_address (answerIp : AnswerIp)
    (laidOut : reply = [i0, i1, 0x84, 0, 0, 1, 0, 1, 0, 0, 0, 0] ++ encodeName name ++
      t0 :: t1 :: c0 :: c1 :: (answerRr ++ answerIp.bytes)) :
    decode reply =
      some { id := word i0 i1, flags := dnsHdrQr ||| dnsHdrAa ||| dnsHdrRcodeOk
             questions := [{ name := name, qtype := word t0 t1, qclass := word c0 c1 }]
             answers := [{ name := name, rtype := 1, rclass := 1, ttl := 60
                           rdata := answerIp.bytes }]
             authorities := [], additionals := [] } := by
  have size : reply.length = 12 + (encodeName name).length + 4 + 16 := by
    rw [laidOut, List.length_append, List.length_append]
    rfl
  have one : word 0 1 = 1 := by decide
  have four : word 0 4 = answerIp.bytes.length := (by decide : word 0 4 = 4)
  -- the record's pointer leads to the question's name at byte 12
  have named : readName reply reply.length 12 = some (name, 12 + (encodeName name).length) :=
    readName_at laidOut rfl (by have inside := encodeName_pos name; omega)
  have record := @readRecord_at reply
    ([i0, i1, 0x84, 0, 0, 1, 0, 1, 0, 0, 0, 0] ++ encodeName name ++ [t0, t1, c0, c1]) []
    (12 + (encodeName name).length + 4) name 0xC0 0x0C 0 1 0 1 0 0 0 60 0 4 answerIp.bytes
    (12 + (encodeName name).length) (by rw [laidOut, answerRr]; simp)
    (by simp only [List.length_append]; rfl) (by decide) named four
  have answered : readMany (readRecord reply) (word 0 1) (12 + (encodeName name).length + 4) =
      some ([{ name := name, rtype := 1, rclass := 1, ttl := 60, rdata := answerIp.bytes }],
        reply.length) := by
    rw [one, readMany, record, size]
    rfl
  rw [decode_question laidOut answered]
  rfl

/-- Those of a refusal decode as the question and SERVFAIL. -/
theorem decode_refusal
    (laidOut : reply = [i0, i1, 0x84, 2, 0, 1, 0, 0, 0, 0, 0, 0] ++ encodeName name ++
      t0 :: t1 :: c0 :: c1 :: []) :
    decode reply =
      some { id := word i0 i1, flags := dnsHdrQr ||| dnsHdrAa ||| dnsHdrRcodeFail
             questions := [{ name := name, qtype := word t0 t1, qclass := word c0 c1 }]
             answers := [], authorities := [], additionals := [] } := by
  have size : reply.length = 12 + (encodeName name).length + 4 := by
    rw [laidOut, List.length_append, List.length_append]
    rfl
  have unanswered : readMany (readRecord reply) (word 0 0) (12 + (encodeName name).length + 4) =
      some ([], reply.length) := by
    rw [size]
    rfl
  rw [decode_question laidOut unanswered]
  rfl

end Layout

theorem buildResponse_asks (answerIp : AnswerIp) (asks : Asks packet id question)
    (fits : replySize question ≤ out.length) :
    let reply := replyBytes answerIp id question
    buildResponse answerIp packet out =
        .ok (some (replySize question), reply ++ out.drop (replySize question)) ∧
      reply.length = replySize question ∧ decode reply = some (replyTo answerIp id question) ∧
      (question.qtype = dnsTypeA → (reply.drop (replySize question - 16)).take 2 = [0xC0, 0x0C]) := by
  have ends := questionEnd_asks asks
  obtain ⟨i0, i1, f0, f1, a0, a1, n0, n1, r0, r1, name, t0, t1, c0, c1, rest⟩ := asks
  generalize stands : i0 :: i1 :: f0 :: f1 :: 0 :: 1 :: a0 :: a1 :: n0 :: n1 :: r0 :: r1 ::
    (encodeName name ++ t0 :: t1 :: c0 :: c1 :: rest) = packet at ends
  have asked : (encodeName name ++ [t0, t1, c0, c1]).length =
      dnsHdrSize + (encodeName name).length + 4 - dnsHdrSize := by
    rw [List.length_append]
    simp only [List.length_cons, List.length_nil]
    omega
  have question : slice packet dnsHdrSize (dnsHdrSize + (encodeName name).length + 4 - dnsHdrSize) =
      .ok (encodeName name ++ [t0, t1, c0, c1]) := by
    rw [← asked]
    refine @slice_at packet [i0, i1, f0, f1, 0, 1, a0, a1, n0, n1, r0, r1] rest _ dnsHdrSize ?_ rfl
    rw [← stands]
    simp
  simp only [replySize] at fits
  have header := @writeHeader_writes packet out i0 i1 _ (word t0 t1) (by omega) stands.symm
  have place : dnsHdrSize + (dnsHdrSize + (encodeName name).length + 4 - dnsHdrSize) =
      12 + (encodeName name).length + 4 := by
    rw [dnsHdrSize]
    omega
  have behind (head : Bytes) (sized : head.length = 12) :
      (head ++ (encodeName name ++ [t0, t1, c0, c1])).length = 12 + (encodeName name).length + 4 := by
    rw [List.length_append, asked, sized, ← place]
    rfl
  have copied (head : Bytes) (sized : head.length = 12) :
      poke (head ++ out.drop 12) dnsHdrSize (encodeName name ++ [t0, t1, c0, c1]) =
        .ok (head ++ (encodeName name ++ [t0, t1, c0, c1]) ++
          out.drop (12 + (encodeName name).length + 4)) := by
    refine poke_fills sized ?_ (by omega)
    rw [asked]
    exact place
  have fields : [t0, t1] ++ [c0, c1] = [t0, t1, c0, c1] := rfl
  rw [replySize, replyBytes, htons_word, htons_word, htons_word, fields, buildResponse, ends, ok_bind]
  simp only [place]
  by_cases address : word t0 t1 = dnsTypeA
  · simp only [if_pos address] at header fits ⊢
    have answered (written : Bytes) (sized : written.length = 12 + (encodeName name).length + 4) :
        poke (written ++ out.drop (12 + (encodeName name).length + 4))
          (12 + (encodeName name).length + 4) answerRr =
            .ok (written ++ answerRr ++ out.drop (12 + (encodeName name).length + 4 + 12)) :=
      poke_fills sized rfl (by omega)
    have addressed (written : Bytes)
        (sized : written.length = 12 + (encodeName name).length + 4 + 12) :
        poke (written ++ out.drop (12 + (encodeName name).length + 4 + 12))
          (12 + (encodeName name).length + 4 + 12) answerIp.bytes =
            .ok (written ++ answerIp.bytes ++ out.drop (12 + (encodeName name).length + 4 + 16)) :=
      poke_fills sized rfl (by omega)
    rw [if_neg (by omega), header, ok_bind, question, ok_bind, copied _ rfl, ok_bind,
      answered _ (behind _ rfl), ok_bind, addressed _ ?_, ok_bind, ← List.append_assoc _ answerRr]
    · refine ⟨rfl, ?_, ?_, ?_⟩
      · rw [List.length_append, List.length_append, behind _ rfl]
        rfl
      · rw [decode_address answerIp (by simp only [List.append_assoc]; rfl), replyTo]
        simp only [if_pos address]
      · intro _
        rw [Nat.add_sub_cancel, List.append_assoc, List.drop_left' (behind _ rfl)]
        rfl
    · rw [List.length_append, behind _ rfl]
      rfl
  · simp only [if_neg address] at header fits ⊢
    rw [if_neg (by omega), header, ok_bind, question, ok_bind, copied _ rfl, ok_bind]
    rw [List.append_nil]
    refine ⟨rfl, behind _ rfl, ?_, fun asksAddress => absurd asksAddress address⟩
    rw [decode_refusal (by simp only [List.append_assoc]; rfl), replyTo]
    simp only [if_neg address]

/-- A packet asks one question. -/
theorem Asks.unique {otherId : Nat} {other : Question} (asks : Asks packet id question)
    (also : Asks packet otherId other) : id = otherId ∧ question = other := by
  let out : Bytes := List.replicate (max (replySize question) (replySize other)) 0
  have room : out.length = max (replySize question) (replySize other) := List.length_replicate
  have fits : replySize question ≤ out.length := room ▸ le_max_left _ _
  have fitsOther : replySize other ≤ out.length := room ▸ le_max_right _ _
  obtain ⟨built, size, decoded, _⟩ := buildResponse_asks ⟨0, 0, 0, 0⟩ asks fits
  obtain ⟨builtOther, sizeOther, decodedOther, _⟩ := buildResponse_asks ⟨0, 0, 0, 0⟩ also fitsOther
  rw [built] at builtOther
  obtain ⟨sameSize, sameBytes⟩ := Prod.mk.inj (Except.ok.inj builtOther)
  have same := congrArg (List.take (replySize question)) sameBytes
  rw [List.take_left' size, Option.some.inj sameSize, List.take_left' sizeOther] at same
  rw [same, decodedOther] at decoded
  have message := Option.some.inj decoded
  exact ⟨(congrArg Message.id message).symm,
    (List.cons.inj (congrArg Message.questions message)).1.symm⟩

theorem buildResponse_full (answerIp : AnswerIp) (asks : Asks packet id question)
    (short : out.length < replySize question) :
    buildResponse answerIp packet out = .ok (none, out) := by
  have size : dnsHdrSize + (dnsHdrSize + (encodeName question.name).length + 4 - dnsHdrSize) +
      (if question.qtype = dnsTypeA then 16 else 0) = replySize question := by
    rw [replySize, dnsHdrSize]
    omega
  rw [buildResponse, questionEnd_asks asks, ok_bind]
  simp only [size]
  rw [if_pos short]
  rfl

theorem buildResponse_other (answerIp : AnswerIp) (out : Bytes)
    (other : ¬ ∃ id question, Asks packet id question) :
    buildResponse answerIp packet out = .ok (none, out) := by
  obtain ⟨result, checked, query⟩ := questionEnd_checked packet
  cases result with
  | none =>
      rw [buildResponse, checked, ok_bind]
      rfl
  | some found => exact absurd (query rfl) other

theorem buildResponse_refuses (answerIp : AnswerIp)
    (short : ∀ id question, Asks packet id question → out.length < replySize question) :
    buildResponse answerIp packet out = .ok (none, out) := by
  by_cases query : ∃ id question, Asks packet id question
  · obtain ⟨id, question, asks⟩ := query
    exact buildResponse_full answerIp asks (short id question asks)
  · exact buildResponse_other answerIp out query

/-- No access leaves the packet or the buffer, a reply is written for a query that leaves room
for it and for nothing else, and it decodes as the portal's answer. -/
theorem buildResponse_decodes (answerIp : AnswerIp) (packet out : Bytes) :
    ∃ reply written, buildResponse answerIp packet out = .ok (reply, written) ∧
      written.length = out.length ∧
      (reply.isSome ↔ ∃ id question, Asks packet id question ∧ replySize question ≤ out.length) ∧
      ∀ total, reply = some total → total ≤ out.length ∧
        ∀ id question, Asks packet id question → total = replySize question ∧
          decode (written.take total) = some (replyTo answerIp id question) ∧
          (question.qtype = dnsTypeA →
            ((written.take total).drop (total - 16)).take 2 = [0xC0, 0x0C]) := by
  by_cases query : ∃ id question, Asks packet id question ∧ replySize question ≤ out.length
  · obtain ⟨id, question, asks, fits⟩ := query
    obtain ⟨built, size, decoded, pointer⟩ := buildResponse_asks answerIp asks fits
    refine ⟨_, _, built, ?_, iff_of_true rfl ⟨id, question, asks, fits⟩, ?_⟩
    · rw [List.length_append, List.length_drop, size]
      omega
    intro total isTotal
    obtain rfl := Option.some.inj isTotal
    refine ⟨fits, fun otherId other also => ?_⟩
    obtain ⟨rfl, rfl⟩ := asks.unique also
    rw [List.take_left' size]
    exact ⟨rfl, decoded, pointer⟩
  · have refused : buildResponse answerIp packet out = .ok (none, out) :=
      buildResponse_refuses answerIp fun id question asks =>
        not_le.mp fun fits => query ⟨id, question, asks, fits⟩
    exact ⟨none, out, refused, rfl, iff_of_false Bool.false_ne_true query,
      fun total isTotal => absurd isTotal (by simp)⟩

/-- What the portal sends for a datagram, of which it takes the first 512 bytes: its answer, when
they are a query that leaves room for one. -/
def Answers (answerIp : AnswerIp) (datagram : Bytes) (sent : Option Bytes) : Prop :=
  ∀ reply, sent = some reply ↔ ∃ id question, Asks (datagram.take dnsBufMax) id question ∧
    replySize question ≤ dnsBufMax ∧ reply = replyBytes answerIp id question ∧
      decode reply = some (replyTo answerIp id question)

/-- One turn of the task keeps its buffer and sends what that datagram asks for. -/
theorem dnsTask_answers (answerIp : AnswerIp) (datagram : Bytes) {resp : Bytes}
    (whole : resp.length = dnsBufMax) :
    ∃ sent resp', dnsTask answerIp datagram resp = .ok (sent, resp') ∧ resp'.length = dnsBufMax ∧
      Answers answerIp datagram sent := by
  by_cases query : ∃ id question, Asks (datagram.take dnsBufMax) id question ∧
      replySize question ≤ resp.length
  · obtain ⟨id, question, asks, fits⟩ := query
    obtain ⟨built, size, decoded, _⟩ := buildResponse_asks answerIp asks fits
    have nonempty : (datagram.take dnsBufMax).length ≠ 0 := by
      generalize datagram.take dnsBufMax = packet at asks
      cases asks
      exact Nat.succ_ne_zero _
    refine ⟨some (replyBytes answerIp id question),
      replyBytes answerIp id question ++ resp.drop (replySize question), ?_, ?_, fun reply => ?_⟩
    · simp only [dnsTask, if_neg nonempty]
      rw [built, ok_bind]
      dsimp only
      rw [List.take_left' size]
      rfl
    · rw [List.length_append, List.length_drop, size, ← whole]
      omega
    · constructor
      · intro sends
        obtain rfl := Option.some.inj sends
        exact ⟨id, question, asks, whole ▸ fits, rfl, decoded⟩
      · rintro ⟨otherId, other, also, _, rfl, _⟩
        obtain ⟨rfl, rfl⟩ := asks.unique also
        rfl
  · have silent : Answers answerIp datagram none := fun reply => iff_of_false (by simp)
      fun ⟨id, question, asks, fits, _⟩ => query ⟨id, question, asks, whole ▸ fits⟩
    refine ⟨none, resp, ?_, whole, silent⟩
    rw [dnsTask]
    dsimp only
    split_ifs with empty
    · rfl
    · rw [buildResponse_refuses answerIp fun id question asks =>
        not_le.mp fun fits => query ⟨id, question, asks, fits⟩]
      rfl

/-- Whatever comes in, no access of the task leaves the packet or its buffers, and each datagram
is answered by itself: a reply says nothing of the datagrams before. -/
theorem dnsServe_answers (answerIp : AnswerIp) (datagrams : List Bytes) (resp : Bytes)
    (whole : resp.length = dnsBufMax) :
    ∃ replies, dnsServe answerIp resp datagrams = .ok replies ∧
      List.Forall₂ (Answers answerIp) datagrams replies := by
  induction datagrams generalizing resp with
  | nil => exact ⟨[], rfl, .nil⟩
  | cons datagram later ih =>
      obtain ⟨sent, resp', turn, whole', answers⟩ := dnsTask_answers answerIp datagram whole
      obtain ⟨replies, served, others⟩ := ih resp' whole'
      refine ⟨sent :: replies, ?_, .cons answers others⟩
      rw [dnsServe, turn, ok_bind]
      dsimp only
      rw [served]
      rfl

/-- A query of type A for the root. -/
def rootQuery : Bytes := [7, 9, 1, 0, 0, 1, 0, 0, 0, 0, 0, 0, 0, 0, 1, 0, 1]

theorem dnsServe_answers_root :
    dnsServe ⟨192, 168, 4, 1⟩ (List.replicate dnsBufMax 255) [rootQuery, []] =
      .ok [some (replyBytes ⟨192, 168, 4, 1⟩ 1801 ⟨[], 1, 1⟩), none] := by
  have asks : Asks (rootQuery.take dnsBufMax) 1801 ⟨[], 1, 1⟩ :=
    .query 7 9 1 0 0 0 0 0 0 0 [] 0 1 0 1 []
  obtain ⟨replies, served, answered⟩ := dnsServe_answers ⟨192, 168, 4, 1⟩ [rootQuery, []]
    (List.replicate dnsBufMax 255) List.length_replicate
  obtain ⟨_, _, first, others, rfl⟩ := List.forall₂_cons_left_iff.mp answered
  obtain ⟨silent, _, second, last, rfl⟩ := List.forall₂_cons_left_iff.mp others
  obtain rfl := List.forall₂_nil_left_iff.mp last
  rw [served, (first _).mpr ⟨1801, ⟨[], 1, 1⟩, asks, by decide, rfl, ?_⟩]
  · cases silent with
    | none => rfl
    | some reply =>
        obtain ⟨id, question, empty, _⟩ := (second reply).mp rfl
        cases empty
  · have fits : replySize ⟨[], 1, 1⟩ ≤ (List.replicate dnsBufMax (255 : UInt8)).length := by
      rw [List.length_replicate]
      decide
    exact (buildResponse_asks _ asks fits).2.2.1

end Replies

end LeanDingdong

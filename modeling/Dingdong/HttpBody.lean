import Dingdong.HttpRoutes

/-!
`recv_json_body` of `dd_http.c` as it works in memory: the body comes in pieces of any size
into a block of `malloc`, and is parsed as a C string. However it is cut, the handlers get
what one read of the whole body gives.
-/

namespace LeanDingdong

/-- What the caller gets, unless a write leaves the block. -/
inductive Fetched where
  | overrun
  | json (parsed : Option JsonTree)

/-- The block with the bytes written at the offset; `none` where they leave it. -/
def writeAt (block : Bytes) (offset : Nat) (bytes : Bytes) : Option Bytes :=
  if offset + bytes.length ≤ block.length then
    some (block.take offset ++ bytes ++ block.drop (offset + bytes.length))
  else none

section Loop

variable (parse : Bytes → Option JsonTree) (body : Bytes)

/-- `buf[got] = '\0'` and `cJSON_Parse`. -/
def parseBlock (block : Bytes) (got : Nat) : Fetched :=
  match writeAt block got [0] with
  | none => .overrun
  | some block => .json (parse (cstr block))

/-- The loop of `recv_json_body`. A round has what has arrived for `httpd_req_recv`, `none` for
an error or a closed connection; when they run out the connection is closed. -/
def recvLoop : List (Option ℕ+) → Bytes → Nat → Fetched
  | [], block, got =>
      if body.length ≤ got then parseBlock parse block got else .json none
  | arrived :: rounds, block, got =>
      if body.length ≤ got then parseBlock parse block got
      else
        match arrived with
        | none => .json none
        | some arrived =>
            let count := min (arrived : Nat) (body.length - got)
            match writeAt block got ((body.drop got).take count) with
            | none => .overrun
            | some block => recvLoop rounds block (got + count)

/-- `recv_json_body`, with what `malloc` gives for a size. -/
def fetchJsonBody (malloc : Nat → Option Bytes) (rounds : List (Option ℕ+)) : Fetched :=
  if body.length = 0 ∨ 8192 < body.length then .json none
  else
    match malloc (body.length + 1) with
    | none => .json none
    | some block => recvLoop parse body rounds block 0

end Loop

/-- What arrives before the first round that fails. -/
def arrivedBefore (rounds : List (Option ℕ+)) : Nat :=
  ((rounds.takeWhile Option.isSome).map fun arrived => (arrived.elim 0 PNat.val : Nat)).sum

section Loop

variable {parse : Bytes → Option JsonTree} {body block : Bytes} {got : Nat}

@[simp] theorem arrivedBefore_nil : arrivedBefore [] = 0 := rfl

@[simp] theorem arrivedBefore_none (rounds : List (Option ℕ+)) :
    arrivedBefore (none :: rounds) = 0 := rfl

@[simp] theorem arrivedBefore_some (arrived : ℕ+) (rounds : List (Option ℕ+)) :
    arrivedBefore (some arrived :: rounds) = arrived + arrivedBefore rounds := rfl

/-- The front of the body is in the block, which has a byte more than the body. -/
structure Filled (body block : Bytes) (got : Nat) : Prop where
  size : block.length = body.length + 1
  within : got ≤ body.length
  front : block.take got = body.take got

/-- A round fills the block further, and stays inside. -/
theorem Filled.recv (filled : Filled body block got) {count : Nat}
    (room : got + count ≤ body.length) :
    ∃ next, writeAt block got ((body.drop got).take count) = some next ∧
      Filled body next (got + count) := by
  have size := filled.size
  have length : ((body.drop got).take count).length = count := by
    rw [List.length_take, List.length_drop]
    omega
  refine ⟨_, if_pos (by rw [length]; omega), ?_, room, ?_⟩
  · simp only [List.length_append, List.length_take, List.length_drop]
    omega
  · have written : (block.take got ++ (body.drop got).take count).length = got + count := by
      rw [List.length_append, length, List.length_take]
      omega
    rw [List.take_append_of_le_length written.ge, List.take_of_length_le written.le, filled.front,
      List.take_add]

/-- The terminator is the last byte of the block. -/
theorem Filled.terminated (filled : Filled body block body.length) :
    parseBlock parse block body.length = .json (parse (cstr body)) := by
  have size := filled.size
  have front : block.take body.length = body := by
    rw [filled.front, List.take_length]
  have ends : writeAt block body.length [0] = some (body ++ [0]) := by
    rw [writeAt, if_pos (by rw [List.length_singleton]; omega), front, List.length_singleton,
      List.drop_of_length_le (by omega), List.append_nil]
  have text : cstr (body ++ [0]) = cstr body := by
    rw [cstr, cstr, List.takeWhile_append]
    split_ifs with whole
    · rw [(List.takeWhile_prefix _).eq_of_length whole]
      exact List.append_nil body
    · rfl
  rw [parseBlock, ends]
  exact congrArg (fun text => Fetched.json (parse text)) text

/-- The loop gets the whole body, or fails with the first round that does, and never writes
outside the block. -/
theorem recvLoop_eq (filled : Filled body block got) (rounds : List (Option ℕ+)) :
    recvLoop parse body rounds block got =
      .json (if got + arrivedBefore rounds < body.length then none else parse (cstr body)) := by
  induction rounds generalizing block got with
  | nil =>
      have within := filled.within
      rw [recvLoop, arrivedBefore_nil, Nat.add_zero]
      split_ifs with whole short
      · omega
      · obtain rfl : got = body.length := by omega
        exact filled.terminated
      · rfl
      · omega
  | cons arrived rounds ih =>
      have within := filled.within
      by_cases whole : body.length ≤ got
      · obtain rfl : got = body.length := by omega
        rw [if_neg (by omega)]
        cases arrived <;> rw [recvLoop, if_pos whole] <;> exact filled.terminated
      cases arrived with
      | none => rw [recvLoop, if_neg whole, arrivedBefore_none, if_pos (by omega)]
      | some arrived =>
          obtain ⟨next, written, later⟩ :=
            @Filled.recv body block got filled (min (arrived : Nat) (body.length - got)) (by omega)
          rw [recvLoop, if_neg whole, arrivedBefore_some]
          dsimp only
          rw [written]
          dsimp only
          rw [ih later]
          congr 2
          refine propext ?_
          omega

end Loop

section Fetch

variable (platform : Platform) (world : World) (request : Request)

/-- However the socket cuts the body, and whatever bytes the block of `malloc` comes with,
`recv_json_body` never writes outside the block and gives the handler what the parser makes of
the body's C string, or `NULL` when the length is refused, `malloc` fails or a round fails
before the whole body is there. A body without a NUL is read as the handlers' model reads it. -/
theorem fetchJsonBody_eq (parse : Bytes → Option JsonTree) (malloc : Nat → Option Bytes)
    (sized : ∀ size block, malloc size = some block → block.length = size)
    (rounds : List (Option ℕ+)) :
    let failed := (malloc (request.body.length + 1)).isNone ||
      decide (arrivedBefore rounds < request.body.length)
    fetchJsonBody parse request.body malloc rounds =
        .json (if request.body.length = 0 ∨ 8192 < request.body.length ∨ failed = true then none
          else parse (cstr request.body)) ∧
      (parse = platform.codec.parse → 0 ∉ request.body → world.recvFails = failed →
        fetchJsonBody parse request.body malloc rounds =
          .json (recvJsonBody platform world request)) := by
  intro failed
  have fetched : fetchJsonBody parse request.body malloc rounds =
      .json (if request.body.length = 0 ∨ 8192 < request.body.length ∨ failed = true then none
        else parse (cstr request.body)) := by
    rw [fetchJsonBody]
    by_cases refused : request.body.length = 0 ∨ 8192 < request.body.length
    · rw [if_pos refused, if_pos (by tauto)]
    rw [if_neg refused]
    cases given : malloc (request.body.length + 1) with
    | none => rw [if_pos (.inr (.inr (by simp [failed, given])))]
    | some block =>
        have filled : Filled request.body block 0 :=
          ⟨sized _ block given, Nat.zero_le _, rfl⟩
        dsimp only
        rw [recvLoop_eq filled, Nat.zero_add]
        congr 2
        simp [failed, given, not_or.mp refused]
  refine ⟨fetched, fun same text fails => ?_⟩
  rw [fetched, recvJsonBody, fails, cstr_of_noNul text, same]
  congr 1
  split_ifs <;> first | rfl | tauto

/-- Three bytes in two pieces, into a block that is not blank. -/
theorem fetchJsonBody_eq_pieces :
    fetchJsonBody JsonTree.parse (ascii "[1]") (fun size => some (List.replicate size 170))
      [some 1, some 9] = .json (some (.array [.number 1])) := by
  have pieces := fetchJsonBody_eq samplePlatform sampleWorld { cookie := [], body := ascii "[1]" }
    JsonTree.parse (fun size => some (List.replicate size 170))
    (fun size block given => by
      rw [← Option.some.inj given]
      exact List.length_replicate)
    [some 1, some 9]
  exact pieces.1.trans rfl

end Fetch

end LeanDingdong

import Dingdong.RingCells
import Dingdong.Runs
import Dingdong.Util

/-!
The log capture of `dd_log.c`: the output of ESP_LOG goes into a ring of bytes, from
which the web page reads the tail. However the writes wrap, the ring is the end of the
stream of all that was written since it was last cleared.
-/

namespace LeanDingdong

open RingCells Runs

/-- `DD_LOG_BUF_BYTES` -/
def ddLogBufBytes : Nat := 65536

theorem ddLogBufBytes_pos : 0 < ddLogBufBytes := Nat.zero_lt_succ _

def logLineMax : Nat := 256

/-- `s_buf`, `s_head` and `s_used` -/
structure LogBuf (size : Nat) where
  cells : Bytes
  head : Nat
  used : Nat
  sized : cells.length = size
  inside : head < size
  bounded : used ≤ size

namespace LogBuf

variable {size : Nat}

def blank (positive : 0 < size) : LogBuf size where
  cells := List.replicate size 0
  head := 0
  used := 0
  sized := List.length_replicate
  inside := positive
  bounded := Nat.zero_le size

/-- A write that does not fit keeps its tail. -/
def writeWhole (log : LogBuf size) (src : Bytes) (long : size ≤ src.length) : LogBuf size where
  cells := copyAt log.cells 0 (src.drop (src.length - size))
  head := 0
  used := size
  sized := by
    have exact : (src.drop (src.length - size)).length = size := by
      rw [List.length_drop]
      omega
    rw [copyAt_length, log.sized]
    rw [exact, log.sized, Nat.zero_add]
  inside := Nat.zero_lt_of_lt log.inside
  bounded := le_rfl

def writeBehind (log : LogBuf size) (src : Bytes) (short : src.length < size) : LogBuf size where
  cells := writeAround log.cells log.head src
  head := (log.head + src.length) % size
  used := if size < log.used + src.length then size else log.used + src.length
  sized := by
    rw [writeAround_length, log.sized]
    · rw [log.sized]
      exact log.inside.le
    · rw [log.sized]
      exact short.le
  inside := Nat.mod_lt _ (Nat.zero_lt_of_lt short)
  bounded := by split_ifs <;> omega

/-- `buf_write` -/
def bufWrite (log : LogBuf size) (src : Bytes) : LogBuf size :=
  if src.length = 0 then log
  else if long : size ≤ src.length then log.writeWhole src long
  else log.writeBehind src (not_le.mp long)

/-- `log_vprintf` on what `vsnprintf` makes of the line, `none` for an error; `taken` says
whether the lock was free. -/
def logVprintf (log : LogBuf size) (formatted : Option Bytes) (taken : Bool) : LogBuf size :=
  match formatted with
  | none => log
  | some line => if taken then log.bufWrite (line.take (logLineMax - 1)) else log

/-- `dd_log_read_tail` into a buffer of `capacity` bytes. -/
def readTail (log : LogBuf size) (capacity : Nat) (taken : Bool) : Bytes :=
  if capacity = 0 then []
  else if !taken then []
  else
    let take := if log.used < capacity then log.used else capacity
    readAround log.cells ((log.head + size - take) % size) take

/-- `dd_log_clear` -/
def clear (log : LogBuf size) (taken : Bool) : LogBuf size :=
  if !taken then log
  else
    { log with
      head := 0
      used := 0
      inside := Nat.zero_lt_of_lt log.inside
      bounded := Nat.zero_le size }

end LogBuf

inductive LogAction where
  | write (src : Bytes)
  | print (formatted : Option Bytes) (taken : Bool)
  | clear (taken : Bool)

def LogBuf.step {size : Nat} (log : LogBuf size) : LogAction → LogBuf size
  | .write src => log.bufWrite src
  | .print formatted taken => log.logVprintf formatted taken
  | .clear taken => log.clear taken

/-- What `buf_write` was given since the last clear. -/
def writtenStep (written : Bytes) : LogAction → Bytes
  | .write src => written ++ src
  | .print (some line) true => written ++ line.take (logLineMax - 1)
  | .print _ _ => written
  | .clear true => []
  | .clear false => written

section Ring

variable {size : Nat} {log : LogBuf size} {written : Bytes}

/-- The ring is the end of what was written. -/
structure LogBuf.Holds (log : LogBuf size) (written : Bytes) : Prop where
  used : log.used = min size written.length
  newest : (log.cells.rotate log.head).rtake log.used = written.rtake log.used

namespace LogBuf.Holds

theorem rotated_length (log : LogBuf size) : (log.cells.rotate log.head).length = size := by
  rw [List.length_rotate, log.sized]

theorem blank (positive : 0 < size) : (LogBuf.blank positive).Holds [] := by
  refine ⟨?_, ?_⟩
  · rw [List.length_nil, Nat.min_zero]
    rfl
  · simp [LogBuf.blank]

theorem bufWrite (holds : log.Holds written) (src : Bytes) :
    (log.bufWrite src).Holds (written ++ src) := by
  have used := holds.used
  rw [LogBuf.bufWrite]
  split_ifs with none long
  · rw [List.length_eq_zero_iff.mp none, List.append_nil]
    exact holds
  · have exact : (src.drop (src.length - size)).length = size := by
      rw [List.length_drop]
      omega
    have whole : (log.writeWhole src long).cells = src.drop (src.length - size) := by
      rw [LogBuf.writeWhole]
      dsimp only
      rw [copyAt, List.take_zero, List.nil_append, Nat.zero_add, exact,
        List.drop_eq_nil_of_le log.sized.le, List.append_nil]
    constructor
    · rw [List.length_append, min_eq_left (by omega)]
      rfl
    · have head : (log.writeWhole src long).head = 0 := rfl
      have full : (log.writeWhole src long).used = size := rfl
      have stays : (src.drop (src.length - size)).rtake size = src.rtake size :=
        rtake_drop (by omega)
      have nothing : written.rtake 0 = ([] : Bytes).rtake 0 :=
        (List.rtake_zero written).trans (List.rtake_zero []).symm
      have latest : (written ++ src).rtake size = ([] ++ src).rtake size :=
        rtake_append nothing src (by omega)
      rw [whole, head, full, List.rotate_zero, stays, latest, List.nil_append]
  · have short := not_le.mp long
    have order : (log.writeBehind src short).cells.rotate (log.writeBehind src short).head =
        (log.cells.rotate log.head).drop src.length ++ src := by
      have law := writeAround_rotate (log.inside.trans_eq log.sized.symm)
        (short.trans_eq log.sized.symm)
      rw [log.sized] at law
      exact law
    have count : (log.writeBehind src short).used = min size (log.used + src.length) := by
      rw [LogBuf.writeBehind]
      dsimp only
      split_ifs <;> omega
    constructor
    · rw [count, List.length_append]
      omega
    · have length := rotated_length log
      have joined : (log.cells.rotate log.head).drop src.length ++ src =
          (log.cells.rotate log.head ++ src).drop src.length :=
        (List.drop_append_of_le_length (by omega)).symm
      rw [order, count, joined, rtake_drop]
      · exact rtake_append holds.newest src (by omega)
      · rw [List.length_append]
        omega

theorem clear (holds : log.Holds written) (taken : Bool) :
    (log.clear taken).Holds (if taken then [] else written) := by
  cases taken with
  | false => exact holds
  | true =>
      constructor
      · exact (Nat.min_zero size).symm
      · exact (List.rtake_zero _).trans (List.rtake_zero _).symm

theorem step (holds : log.Holds written) (action : LogAction) :
    (log.step action).Holds (writtenStep written action) := by
  cases action with
  | write src => exact holds.bufWrite src
  | print formatted taken =>
      cases formatted with
      | none => exact holds
      | some line =>
          cases taken with
          | false => exact holds
          | true => exact holds.bufWrite _
  | clear taken =>
      have cleared := holds.clear taken
      cases taken <;> exact cleared

theorem run (holds : log.Holds written) (actions : List LogAction) :
    (run LogBuf.step log actions).Holds (run writtenStep written actions) := by
  induction actions generalizing log written with
  | nil => exact holds
  | cons action actions ih => exact ih (holds.step action)

theorem readTail (holds : log.Holds written) (capacity : Nat) :
    log.readTail capacity true = written.rtake (min capacity (min size written.length)) := by
  rw [← holds.used]
  by_cases empty : capacity = 0
  · rw [LogBuf.readTail, if_pos empty, empty, Nat.zero_min, List.rtake_zero]
  · have take : (if log.used < capacity then log.used else capacity) = min capacity log.used := by
      split_ifs <;> omega
    have bounded := log.bounded
    have fits : min capacity log.used ≤ log.cells.length := by
      rw [log.sized]
      omega
    have read := readAround_rotate (log.inside.trans_eq log.sized.symm) fits
    rw [log.sized] at read
    have tail := rotated_length log
    rw [LogBuf.readTail, if_neg empty, take]
    dsimp only
    rw [if_neg (by decide), read, ← rtake_shorter holds.newest (min_le_right _ _), List.rtake, tail]

end LogBuf.Holds

end Ring

/-- After any writes and clears the tail that is read is the end of what was written since
the last clear, as far as the buffer and the caller's array go. -/
theorem readTail_newest (actions : List LogAction) (capacity : Nat) :
    let log := run LogBuf.step (LogBuf.blank ddLogBufBytes_pos) actions
    let written := run writtenStep [] actions
    log.readTail capacity true =
      written.rtake (min capacity (min ddLogBufBytes written.length)) := by
  intro log written
  exact ((LogBuf.Holds.blank ddLogBufBytes_pos).run actions).readTail capacity

/-- A ring of four bytes after six, and after a clear. -/
example :
    (run LogBuf.step (LogBuf.blank (by decide : 0 < 4))
      [.write (ascii "ab"), .write (ascii "cdef")]).readTail 3 true = ascii "def" ∧
    (run LogBuf.step (LogBuf.blank (by decide : 0 < 4))
      [.write (ascii "abc"), .clear true, .print (some (ascii "xy")) true]).readTail 9 true =
        ascii "xy" := by
  decide

end LeanDingdong

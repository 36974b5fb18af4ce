import Dingdong.BleCore
import Dingdong.StorageDelete
import Dingdong.WorkerCore

/-!
The hard delete of a worker, `workers_delete_post`, among calls of `dd_event_record`.
The handler walks the bond store, the log and the registry; a recording reads the
registry and appends to the log. Each of these is one step, and they come in any order.
-/

namespace LeanDingdong

open TextLines Runs

section Log

/-- A line of the log: an event, or what a delete leaves of one that overran its buffer. -/
inductive LogLine where
  | recorded (event : LoggedEvent)
  | residue (text : Bytes) (short : text.length ≤ 1) (noNewline : newline ∉ text) (noNul : 0 ∉ text)

namespace LogLine

def bytes : LogLine → Bytes
  | .recorded event => event.line.bytes
  | .residue text _ _ _ => text

theorem noNewline (line : LogLine) : newline ∉ line.bytes := by
  cases line with
  | recorded event => exact event.line.noNewline
  | residue _ _ noNewline _ => exact noNewline

theorem short (line : LogLine) : line.bytes.length ≤ lineBufMax := by
  cases line with
  | recorded event => exact event.accepted
  | residue text short _ _ => exact short.trans (by decide)

end LogLine

/-- The bytes of a log with these lines. -/
def logBytes (lines : List LogLine) : Bytes := encode newline (lines.map LogLine.bytes)

theorem logBytes_append (first second : List LogLine) :
    logBytes (first ++ second) = logBytes first ++ logBytes second := by
  simp [logBytes]

theorem logBytes_singleton (line : LogLine) : logBytes [line] = line.bytes ++ [newline] := by
  simp [logBytes]

/-- The iterator hands out lines of the log only. -/
theorem iterLines_logBytes (lines : List LogLine) :
    ∀ text ∈ iterLines (logBytes lines), ∃ line ∈ lines, line.bytes = text := by
  induction lines with
  | nil => exact fun _ member => absurd member List.not_mem_nil
  | cons line lines ih =>
      intro text member
      have split : logBytes (line :: lines) = (line.bytes ++ [newline]) ++ logBytes lines := by
        simp [logBytes]
      rw [split, iterLines_append (by simp [column_append_line, column])] at member
      rcases List.mem_append.mp member with first | later
      · refine ⟨line, List.mem_cons_self, ?_⟩
        cases line with
        | recorded event =>
            rw [LogLine.bytes, iterLines_line] at first
            exact (List.mem_singleton.mp first).symm
        | residue text short noNewline noNul =>
            rw [LogLine.bytes] at first
            by_cases blank : text = []
            · have none : iterLines ([] ++ [newline]) = [] := by decide
              rw [blank, none] at first
              cases first
            · have one := iterLines_line ⟨text, blank, short.trans (by decide), noNewline, noNul⟩
              rw [one] at first
              exact (List.mem_singleton.mp first).symm
      · obtain ⟨other, inside, same⟩ := ih text later
        exact ⟨other, List.mem_cons_of_mem _ inside, same⟩

/-- The size check of an append drops lines from the front. -/
theorem rotateIfOver_logBytes {store : Store} {lines : List LogLine}
    (file : store.file = logBytes lines) :
    ∃ kept, kept <:+ lines ∧ (rotateIfOver .none store).file = logBytes kept := by
  cases present : store.events with
  | none => exact ⟨lines, List.suffix_refl _, by simpa [rotateIfOver, present] using file⟩
  | some bytes =>
      have whole : bytes = logBytes lines := by simpa [Store.file, present] using file
      by_cases full : ddEventsMaxBytes < bytes.length
      · have inside : bytes.drop (bytes.length - bytes.length / 2) <:+
            encode newline (lines.map LogLine.bytes) := by
          rw [whole]
          exact List.drop_suffix _ _
        obtain ⟨texts, suffix, same, _⟩ := skipLine_encode newline
          (List.forall_mem_map.mpr fun line _ => line.noNewline)
          (List.forall_mem_map.mpr fun line _ => line.short) inside
        obtain ⟨dropped, split⟩ := suffix
        obtain ⟨front, kept, linesEq, _, rfl⟩ := List.map_eq_append_iff.mp split.symm
        refine ⟨kept, ⟨front, linesEq.symm⟩, ?_⟩
        simp only [rotateIfOver, present, full, if_true, rotateEvents_none present]
        exact same
      · exact ⟨lines, List.suffix_refl _, by simpa [rotateIfOver, present, full] using file⟩

/-- An append adds the line of an event it accepts. -/
theorem eventAppend_logBytes {store : Store} {lines : List LogLine}
    (file : store.file = logBytes lines) (record : EventRecord) :
    ∃ kept added, kept <:+ lines ∧
      (eventAppend .none record.line store).2.file = logBytes (kept ++ added) ∧
      ∀ line ∈ added, line.bytes = record.line := by
  by_cases accepted : record.line.length ≤ lineBufMax
  · obtain ⟨kept, suffix, rotated⟩ := rotateIfOver_logBytes file
    let event : LoggedEvent := { record := record, accepted := accepted }
    have appended := eventAppend_none event.line store
    refine ⟨kept, [.recorded event], suffix, ?_, fun line member => ?_⟩
    · rw [logBytes_append, logBytes_singleton, ← rotated]
      exact (congrArg (fun result => result.2.file) appended).trans rfl
    · rw [List.mem_singleton.mp member]
      rfl
  · refine ⟨lines, [], List.suffix_refl _, ?_, fun _ member => absurd member List.not_mem_nil⟩
    rw [List.append_nil, eventAppend, cstr_of_noNul record.line_noNul,
      if_pos (.inr (Nat.lt_of_not_le accepted))]
    exact file

/-- The second buffer of a line that `fgets` cuts. -/
theorem EventLine.residue_short (line : EventLine) :
    (line.bytes.drop (lineBufMax - 1)).length ≤ 1 := by
  have := line.short
  rw [List.length_drop]
  rw [lineBufMax] at this ⊢
  omega

/-- What the delete by worker leaves of a line. -/
def LogLine.scrub (workerId : Nat) : LogLine → List LogLine
  | .recorded event =>
      if event.record.workerId ≠ workerId then [.recorded event]
      else if event.line.Cut then
        [.residue (event.line.bytes.drop (lineBufMax - 1)) event.line.residue_short
          (fun member => event.line.noNewline (List.mem_of_mem_drop member))
          (fun member => event.line.noNul (List.mem_of_mem_drop member))]
      else []
  | .residue text short noNewline noNul => [.residue text short noNewline noNul]

/-- The line carries the worker's id, as the delete looks for it. -/
def LogLine.Carries (workerId : Nat) (line : LogLine) : Prop :=
  workerHit workerId (line.bytes ++ [newline]) = true

/-- The buffers the delete reads a line into. -/
def LogLine.buffers (line : LogLine) : List Bytes :=
  (lineChunks newline (lineBufMax - 1) line.bytes).map cstr

variable {workerId : Nat}

theorem LogLine.carries_residue {line : LogLine} (small : line.bytes.length ≤ 1) :
    ¬ line.Carries workerId := by
  rw [Carries, workerHit_short (by simpa using small)]
  exact Bool.false_ne_true

theorem LogLine.carries_recorded (positive : 0 < workerId) (event : LoggedEvent) :
    (LogLine.recorded event).Carries workerId ↔ event.record.workerId = workerId := by
  rw [Carries, bytes]
  have hit := workerHit_front positive event.record (List.prefix_refl _) (.inr rfl)
  rw [show event.line.bytes = event.record.line from rfl, hit, decide_eq_true_iff]

theorem LogLine.scrub_clean (positive : 0 < workerId) (line : LogLine) :
    ∀ left ∈ line.scrub workerId, ¬ left.Carries workerId := by
  intro left member
  cases line with
  | residue text short _ _ =>
      rw [List.mem_singleton.mp member]
      exact carries_residue short
  | recorded event =>
      rw [scrub] at member
      split_ifs at member with other cut
      · rw [List.mem_singleton.mp member, carries_recorded positive]
        exact other
      · rw [List.mem_singleton.mp member]
        exact carries_residue event.line.residue_short
      · cases member

/-- The buffers of an event that stay. -/
theorem Decides.kept {hit : Bytes → Bool} {drop : EventLine → Bool} {line : EventLine}
    (decides : Decides hit drop line) :
    (line.buffers.filter fun buffer => !hit buffer).flatten =
      if drop line then
        if line.Cut then line.bytes.drop (lineBufMax - 1) ++ [newline] else []
      else line.bytes ++ [newline] := by
  rw [EventLine.buffers]
  by_cases cut : line.Cut
  · have first := decides.first cut
    have whole : line.bytes.take (lineBufMax - 1) ++ (line.bytes.drop (lineBufMax - 1) ++ [newline]) =
        line.bytes ++ [newline] := by rw [← List.append_assoc, List.take_append_drop]
    cases found : drop line <;> simp [cut, first, found, decides.rest, whole]
  · cases found : drop line <;> simp [cut, decides.whole, found]

theorem LogLine.buffers_kept (positive : 0 < workerId) (line : LogLine) :
    (line.buffers.filter fun buffer => !workerHit workerId buffer).flatten =
      logBytes (line.scrub workerId) := by
  cases line with
  | residue text short noNewline noNul =>
      have fits : text.length < lineBufMax - 1 := Nat.lt_of_le_of_lt short (by decide)
      have whole : cstr (text ++ [newline]) = text ++ [newline] :=
        cstr_of_noNul (by simpa [newline] using noNul)
      have unmatched : workerHit workerId (text ++ [newline]) = false :=
        workerHit_short (by simpa using short)
      rw [buffers, bytes, lineChunks_short newline noNewline fits, List.map_singleton, whole, scrub,
        logBytes_singleton]
      simp [unmatched, bytes]
  | recorded event =>
      have decides := event.decides (fun record _ => workerHit_front positive record)
        fun _ => workerHit_short
      have dropped := carries_recorded positive event
      rw [Carries, bytes] at dropped
      rw [buffers, bytes, EventLine.lineChunks_buffers, decides.kept, scrub]
      by_cases same : event.record.workerId = workerId
      · rw [if_pos (dropped.mpr same), if_neg (not_not.mpr same)]
        split_ifs with cut
        · rw [logBytes_singleton]
          rfl
        · rfl
      · rw [if_neg (mt dropped.mp same), if_pos same, logBytes_singleton]
        rfl

theorem chunks_logBytes (lines : List LogLine) :
    (chunks newline (lineBufMax - 1) (logBytes lines)).map cstr = lines.flatMap LogLine.buffers := by
  rw [logBytes, chunks_encode newline (by decide), List.map_flatMap, List.flatMap_map]
  rfl

theorem filter_buffers (positive : 0 < workerId) (lines : List LogLine) :
    ((lines.flatMap LogLine.buffers).filter fun buffer => !workerHit workerId buffer).flatten =
      logBytes (lines.flatMap (LogLine.scrub workerId)) := by
  induction lines with
  | nil => rfl
  | cons line lines ih =>
      rw [List.flatMap_cons, List.filter_append, List.flatten_append, line.buffers_kept positive, ih,
        List.flatMap_cons, logBytes_append]

/-- A log in which no buffer matches has no line of the worker. -/
theorem LogLine.carries_buffers (positive : 0 < workerId) {line : LogLine}
    (unmatched : ∀ buffer ∈ line.buffers, workerHit workerId buffer = false) :
    ¬ line.Carries workerId := by
  cases line with
  | residue text short _ _ => exact carries_residue short
  | recorded event =>
      have decides := event.decides (fun record _ => workerHit_front positive record)
        fun _ => workerHit_short
      have length := decides.dropped_length
      rw [buffers, bytes, EventLine.lineChunks_buffers] at unmatched
      have empty : event.line.buffers.filter (workerHit workerId) = [] :=
        List.filter_eq_nil_iff.mpr fun buffer member => by simp [unmatched buffer member]
      rw [empty] at length
      rw [Carries, bytes]
      intro carries
      rw [if_pos carries] at length
      cases length

/-- The delete by worker leaves lines of the log, none of them the worker's. -/
theorem eventDeleteByWorker_clean (positive : 0 < workerId) {store : Store} {lines : List LogLine}
    (file : store.file = logBytes lines) :
    ∃ left, (eventDeleteByWorker .none workerId store).2.file = logBytes left ∧
      ∀ line ∈ left, ¬ line.Carries workerId := by
  have scrubbed : ∀ line ∈ lines.flatMap (LogLine.scrub workerId), ¬ line.Carries workerId := by
    intro line member
    obtain ⟨source, _, inside⟩ := List.mem_flatMap.mp member
    exact source.scrub_clean positive line inside
  rw [eventDeleteByWorker, if_neg (Nat.ne_of_gt positive)]
  cases present : store.events with
  | none =>
      have empty : store.file = [] := by rw [Store.file, present, Option.getD_none]
      refine ⟨[], ?_, fun _ member => absurd member List.not_mem_nil⟩
      rw [deleteMatching, present]
      exact empty
  | some bytes =>
      have whole : bytes = logBytes lines := by simpa [Store.file, present] using file
      simp only [deleteMatching, present, RewriteFaults.none, readable, writeBlocks_none,
        Bool.false_eq_true, if_false, whole, chunks_logBytes, filter_buffers positive]
      split_ifs with unmatched unkept
      · refine ⟨lines, file, fun line member => line.carries_buffers positive fun buffer inside => ?_⟩
        have none := List.filter_eq_nil_iff.mp (List.length_eq_zero_iff.mp unmatched) buffer
          (List.mem_flatMap_of_mem member inside)
        simpa using none
      · exact ⟨[], rfl, fun _ member => absurd member List.not_mem_nil⟩
      · exact ⟨_, rfl, scrubbed⟩

end Log

/-- `dd_worker_get` -/
def workerGet (workers : List Worker) (id : Nat) : Option Worker :=
  if id = 0 then none else workers.find? fun worker => worker.id = id

/-- What `workers_delete_post` does next. -/
inductive DeleteStage where
  | revoking
  | scrubbing
  | dropping
  | replied (err : EspErr)
  deriving DecidableEq

/-- A call of `dd_event_record` after its lookup. -/
structure RecordCall where
  record : EventRecord
  finished : Bool

structure HardDelete where
  /-- the id in the request, a `uint16_t` -/
  workerId : Nat
  registry : WorkerStore
  log : Store
  bonds : List Bond
  stage : DeleteStage
  calls : List RecordCall

inductive HardDeleteAction where
  /-- the next step of the handler -/
  | handler
  /-- a call that is not debounced builds its record; the id is looked up here -/
  | lookup (record : EventRecord) (now : Int)
  /-- the call appends its line and returns -/
  | append (call : Nat)

/-- The record with the id the lookup gave. -/
def EventRecord.resolved (record : EventRecord) (id : Nat) : EventRecord :=
  { record with peer := record.peer.map fun peer => (peer.1, UInt16.ofNat id) }

namespace HardDelete

variable (json : Json)

/-- The three steps of `workers_delete_post`, none of which fails. -/
def handler (state : HardDelete) : HardDelete :=
  match state.stage with
  | .revoking =>
      { state with
        stage := .scrubbing
        bonds := match workerGet state.registry.workers state.workerId with
          | some worker => state.bonds.filter fun bond => bond.addr ≠ worker.addr
          | none => state.bonds }
  | .scrubbing =>
      { state with
        stage := .dropping
        log := (eventDeleteByWorker .none state.workerId state.log).2 }
  | .dropping =>
      let deleted := workerDelete NvsFaults.none state.workerId state.registry
      { state with stage := .replied deleted.1, registry := deleted.2 }
  | .replied _ => state

/-- `dd_event_record` up to its lookup; without a peer there is none. -/
def lookup (state : HardDelete) (record : EventRecord) (now : Int) : HardDelete :=
  match record.peer with
  | none => { state with calls := state.calls ++ [{ record := record, finished := false }] }
  | some (addr, _) =>
      let found := workerLookupOrCreate json NvsFaults.none (some addr) now state.registry
      { state with
        registry := found.2
        calls := state.calls ++ [{ record := record.resolved found.1, finished := false }] }

/-- `dd_event_record` from its append on. -/
def append (state : HardDelete) (call : Nat) : HardDelete :=
  match state.calls[call]? with
  | some ⟨record, false⟩ =>
      { state with
        log := (eventAppend .none record.line state.log).2
        calls := state.calls.set call { record := record, finished := true } }
  | _ => state

def step (state : HardDelete) : HardDeleteAction → HardDelete
  | .handler => state.handler
  | .lookup record now => state.lookup json record now
  | .append call => state.append call

/-- A request on a registry and a log, no recording being under way. -/
def start (workerId : Nat) (registry : WorkerStore) (log : Store) (bonds : List Bond) :
    HardDelete where
  workerId := workerId
  registry := registry
  log := log
  bonds := bonds
  stage := .revoking
  calls := []

/-- No line of `events.jsonl` carries the worker's id. -/
def Forgotten (state : HardDelete) : Prop :=
  ∀ line ∈ iterLines state.log.file, workerHit state.workerId (line ++ [newline]) = false

/-- The handler has answered 200 and the recordings are over. -/
def Over (state : HardDelete) : Prop :=
  state.stage = .replied .ok ∧ ∀ call ∈ state.calls, call.finished = true

/-- A call that was given the worker's id appends before the handler has scrubbed the
log. -/
def AppendsInTime (state : HardDelete) : HardDeleteAction → Prop
  | .append call => ∀ record, state.calls[call]? = some ⟨record, false⟩ →
      record.workerId = state.workerId → state.stage = .revoking ∨ state.stage = .scrubbing
  | _ => True

/-- The log consists of lines, once scrubbed of the worker's. -/
structure Scrubbed (state : HardDelete) : Prop where
  log : ∃ lines, state.log.file = logBytes lines ∧
    (state.stage ≠ .revoking → state.stage ≠ .scrubbing → 0 < state.workerId →
      ∀ line ∈ lines, ¬ line.Carries state.workerId)
  positive : state.stage = .replied .ok → 0 < state.workerId

variable {json : Json} {state : HardDelete}

theorem Scrubbed.start {workerId : Nat} {registry : WorkerStore} {log : Store} {bonds : List Bond}
    {lines : List LogLine} (file : log.file = logBytes lines) :
    (start workerId registry log bonds).Scrubbed where
  log := ⟨lines, file, fun revoking => absurd rfl revoking⟩
  positive stage := by cases stage

theorem Scrubbed.handler (scrubbed : state.Scrubbed) : state.handler.Scrubbed := by
  obtain ⟨lines, file, clean⟩ := scrubbed.log
  rw [HardDelete.handler]
  split
  · exact ⟨⟨lines, file, fun _ scrubbing => absurd rfl scrubbing⟩, fun stage => by cases stage⟩
  · refine ⟨?_, fun stage => by cases stage⟩
    by_cases positive : 0 < state.workerId
    · obtain ⟨left, same, scrub⟩ := eventDeleteByWorker_clean positive file
      exact ⟨left, same, fun _ _ _ => scrub⟩
    · refine ⟨lines, ?_, fun _ _ isPositive => absurd isPositive positive⟩
      rw [eventDeleteByWorker, if_pos (by omega)]
      exact file
  · rename_i stage
    refine ⟨⟨lines, file, fun _ _ => clean (by simp [stage]) (by simp [stage])⟩, fun replied => ?_⟩
    refine Nat.pos_of_ne_zero fun zero => ?_
    rw [workerDelete, if_pos zero] at replied
    cases replied
  · exact scrubbed

theorem Scrubbed.append (scrubbed : state.Scrubbed) {call : Nat}
    (inTime : state.AppendsInTime (.append call)) : (state.append call).Scrubbed := by
  rw [HardDelete.append]
  split
  · rename_i record pending
    obtain ⟨lines, file, clean⟩ := scrubbed.log
    obtain ⟨kept, added, suffix, appended, new⟩ := eventAppend_logBytes file record
    refine ⟨⟨kept ++ added, appended, fun revoking scrubbing positive line member => ?_⟩,
      scrubbed.positive⟩
    rcases List.mem_append.mp member with old | fresh
    · exact clean revoking scrubbing positive line (suffix.subset old)
    · have late : record.workerId ≠ state.workerId := fun same =>
        (inTime record pending same).elim revoking scrubbing
      rw [LogLine.Carries, new line fresh,
        workerHit_front positive record (List.prefix_refl _) (.inr rfl)]
      simpa using late
  · exact scrubbed

theorem Scrubbed.step (scrubbed : state.Scrubbed) {action : HardDeleteAction}
    (inTime : state.AppendsInTime action) : (state.step json action).Scrubbed := by
  cases action with
  | handler => exact scrubbed.handler
  | lookup record now =>
      rw [HardDelete.step, lookup]
      split
      · exact ⟨scrubbed.log, scrubbed.positive⟩
      · exact ⟨scrubbed.log, scrubbed.positive⟩
  | append call => exact scrubbed.append inTime

theorem Scrubbed.forgotten (scrubbed : state.Scrubbed) (replied : state.stage = .replied .ok) :
    state.Forgotten := by
  obtain ⟨lines, file, clean⟩ := scrubbed.log
  intro text member
  rw [file] at member
  obtain ⟨line, inside, rfl⟩ := iterLines_logBytes lines text member
  have := clean (by simp [replied]) (by simp [replied]) (scrubbed.positive replied) line inside
  rwa [LogLine.Carries, Bool.not_eq_true] at this

/-- When every recording that was given the worker's id appends before the log is
scrubbed, a worker that is gone is forgotten. -/
theorem hardDelete_forgets (workerId : Nat) (registry : WorkerStore) (log : Store)
    (bonds : List Bond) (lines : List LogLine) (file : log.file = logBytes lines)
    (actions : List HardDeleteAction)
    (guarded : Guarded (step json) AppendsInTime (start workerId registry log bonds) actions) :
    (run (step json) (start workerId registry log bonds) actions).stage = .replied .ok →
      (run (step json) (start workerId registry log bonds) actions).Forgotten :=
  (run_invariant Scrubbed (fun _ _ scrubbed inTime => scrubbed.step inTime) (Scrubbed.start file)
    guarded).forgotten

/-- A registry in which the phone is worker 1. -/
def phoneRegistry : WorkerStore :=
  (workerLookupOrCreate plainJson NvsFaults.none (some phone) 0 WorkerStore.fresh).2

theorem hardDelete_forgets_early :
    (run (step plainJson) (start 1 phoneRegistry Store.empty [])
      [.lookup (notedRecord 1) 0, .append 0, .handler, .handler, .handler]).Forgotten :=
  hardDelete_forgets 1 phoneRegistry Store.empty [] [] rfl _
    (by simp [Guarded, AppendsInTime, step, start, lookup, notedRecord]) (by decide +kernel)

/-- A recording looks the worker up before the delete and appends after it. -/
theorem hardDelete_orphans :
    let state := run (step plainJson) (start 1 phoneRegistry Store.empty [])
      [.lookup (notedRecord 1) 0, .handler, .handler, .handler, .append 0]
    state.Over ∧ ¬ state.Forgotten := by
  refine ⟨⟨by decide +kernel, by decide +kernel⟩, fun forgotten => ?_⟩
  rw [Forgotten] at forgotten
  revert forgotten
  decide +kernel

end HardDelete

end LeanDingdong

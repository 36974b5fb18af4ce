import Dingdong.StorageLog

/-!
What can come of rewriting the log when filesystem steps fail: the old content or the
complete new one, and a count that is that of the newlines.
-/

namespace LeanDingdong

open TextLines

section Outcome

variable {store : Store} {intended : Option Bytes}

/-- The cached count is that of the newlines in the file. -/
def Store.Counted (store : Store) : Prop := store.eventCount = store.file.count newline

instance (store : Store) : Decidable store.Counted := inferInstanceAs (Decidable (_ = _))

/-- The log holds its old content or the complete new one, the old one after a failure,
and the cached count is that of its newlines. -/
structure AllOrNothing (before : Store) (intended : Option Bytes) (result : EspErr × Store) :
    Prop where
  content : result.2.events = before.events ∨ result.2.events = intended
  failed : result.1 ≠ .ok → result.2.events = before.events
  counted : result.2.Counted

/-- An operation that changes nothing keeps a count that is right. -/
theorem allOrNothing_unchanged {clean counts : Prop} (holds : clean) (stays : ¬ counts) (err : EspErr) :
    AllOrNothing store intended (err, store) ↔ clean ∧ (counts ∨ store.Counted) :=
  ⟨fun result => ⟨holds, .inr result.counted⟩,
    fun condition => ⟨.inl rfl, fun _ => rfl, condition.2.resolve_left stays⟩⟩

/-- A new content that cannot be the old one is the intended one. -/
theorem allOrNothing_replaced {events : Option Bytes} {count : Nat}
    (differs : events ≠ store.events) :
    AllOrNothing store intended (.ok, { events := events, eventCount := count }) ↔
      events = intended ∧ count = (events.getD []).count newline := by
  constructor
  · intro result
    exact ⟨result.content.resolve_left differs, result.counted⟩
  · rintro ⟨same, counted⟩
    exact ⟨.inr same, fun failed => absurd rfl failed, counted⟩

end Outcome

section Copy

variable {faults : RewriteFaults}

/-- The temporary file is written in full. -/
structure RewriteFaults.Copies (faults : RewriteFaults) (blocks : List Bytes) : Prop where
  opened : faults.openOut = false
  written : ∀ stop ∈ faults.writeStops, blocks.length ≤ stop
  closed : faults.closeOut = false

theorem writeBlocks_fits {stops : Option Nat} {blocks : List Bytes}
    (fits : ∀ stop ∈ stops, blocks.length ≤ stop) : writeBlocks stops blocks = some blocks.flatten := by
  induction blocks generalizing stops with
  | nil => rfl
  | cons block rest ih =>
      cases stops with
      | none => exact writeBlocks_none _
      | some stop =>
          have room := fits stop rfl
          rw [List.length_cons] at room
          obtain ⟨stop, rfl⟩ := Nat.exists_eq_succ_of_ne_zero (by omega : stop ≠ 0)
          have restFits : ∀ left ∈ some stop, rest.length ≤ left := by
            rintro _ ⟨⟩
            omega
          have written := ih restFits
          simp only [writeBlocks, Option.map_some, Nat.succ_eq_add_one, Nat.add_sub_cancel, written,
            List.flatten_cons]

theorem writeBlocks_short {stops : Option Nat} {blocks : List Bytes}
    (short : ¬ ∀ stop ∈ stops, blocks.length ≤ stop) : writeBlocks stops blocks = none := by
  cases stops with
  | none => exact absurd (by simp) short
  | some stop =>
      have beyond : stop < blocks.length := by
        by_contra room
        refine short ?_
        rintro _ ⟨⟩
        omega
      clear short
      induction blocks generalizing stop with
      | nil => exact absurd beyond (Nat.not_lt_zero _)
      | cons block rest ih =>
          cases stop with
          | zero => rfl
          | succ stop =>
              rw [List.length_cons] at beyond
              rw [writeBlocks]
              · simp only [Option.map_some, Nat.add_sub_cancel, ih stop (by omega), Option.map_none]
              · intro zero
                exact absurd zero (by simp)

/-- A copy in full goes on to what follows it. -/
theorem RewriteFaults.Copies.proceeds {blocks : List Bytes} (copies : faults.Copies blocks) {σ : Type}
    (fail : σ) (next : Bytes → σ) :
    (if faults.openOut then fail
      else match writeBlocks faults.writeStops blocks with
      | .none => fail
      | some written => if faults.closeOut then fail else next written) = next blocks.flatten := by
  simp only [copies.opened, writeBlocks_fits copies.written, copies.closed, Bool.false_eq_true,
    if_false]

/-- Any other copy fails. -/
theorem RewriteFaults.copy_fails {blocks : List Bytes} (stays : ¬ faults.Copies blocks) {σ : Type}
    (fail : σ) (next : Bytes → σ) :
    (if faults.openOut then fail
      else match writeBlocks faults.writeStops blocks with
      | .none => fail
      | some written => if faults.closeOut then fail else next written) = fail := by
  by_cases noOut : faults.openOut = true
  · rw [if_pos noOut]
  rw [if_neg noOut]
  by_cases written : ∀ stop ∈ faults.writeStops, blocks.length ≤ stop
  · have unclosed : faults.closeOut = true := by
      by_contra closed
      exact stays ⟨Bool.not_eq_true _ ▸ noOut, written, Bool.not_eq_true _ ▸ closed⟩
    simp only [writeBlocks_fits written, if_pos unclosed]
  · simp only [writeBlocks_short written]

/-- The recount reads every newline. -/
def RewriteFaults.Recounts (faults : RewriteFaults) (content : Bytes) : Prop :=
  (faults.openScan = true → newline ∉ content) ∧
    ∀ stop ∈ faults.scanStops, newline ∉ content.drop stop

theorem readable_length_le (stops : Option Nat) (content : Bytes) :
    (readable stops content).length ≤ content.length := by
  cases stops with
  | none => exact le_rfl
  | some stop =>
      rw [readable, List.length_take]
      exact Nat.min_le_right _ _

theorem readable_all_iff (stops : Option Nat) (content : Bytes) :
    readable stops content = content ↔ ∀ stop ∈ stops, content.length ≤ stop := by
  cases stops with
  | none => simp [readable]
  | some stop => simp [readable, List.take_eq_self_iff]

theorem count_readable_iff (stops : Option Nat) (content : Bytes) :
    (readable stops content).count newline = content.count newline ↔
      ∀ stop ∈ stops, newline ∉ content.drop stop := by
  cases stops with
  | none => simp [readable]
  | some stop =>
      have split : content.count newline =
          (content.take stop).count newline + (content.drop stop).count newline := by
        rw [← List.count_append, List.take_append_drop]
      rw [readable, split]
      simp only [Option.mem_def, Option.some.injEq, forall_eq', ← List.count_eq_zero]
      omega

theorem scanEventCount_iff (content : Bytes) :
    scanEventCount faults (some content) = content.count newline ↔ faults.Recounts content := by
  rw [scanEventCount, RewriteFaults.Recounts]
  by_cases unopened : faults.openScan = true
  · simp only [unopened, if_true, forall_true_left]
    rw [eq_comm, List.count_eq_zero]
    exact ⟨fun none => ⟨none, fun _ _ member => none (List.mem_of_mem_drop member)⟩, And.left⟩
  · simp only [unopened, if_false, Bool.false_eq_true, false_implies, true_and]
    exact count_readable_iff _ _

end Copy

end LeanDingdong

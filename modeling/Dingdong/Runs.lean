import Mathlib.Data.List.Induction

/-!
Runs of a deterministic step function under a guard on its steps. `Guarded` says
that every step of a run meets its guard in the state the step finds. The two
induction rules carry an invariant along a guarded run: `run_invariant` for a
property of states, `run_history` for one that also mentions the past actions.
-/

namespace Runs

variable {σ α : Type*} (step : σ → α → σ) (guard : σ → α → Prop)

/-- The state after a list of actions. -/
def run (state : σ) (actions : List α) : σ := actions.foldl step state

@[simp] theorem run_nil (state : σ) : run step state [] = state := rfl

@[simp] theorem run_cons (state : σ) (action : α) (actions : List α) :
    run step state (action :: actions) = run step (step state action) actions := rfl

theorem run_append (state : σ) (first second : List α) :
    run step state (first ++ second) = run step (run step state first) second :=
  List.foldl_append

/-- Every step of the run meets the guard in the state it finds. -/
def Guarded : σ → List α → Prop
  | _, [] => True
  | state, action :: actions => guard state action ∧ Guarded (step state action) actions

instance decidableGuarded [∀ state action, Decidable (guard state action)] :
    ∀ state actions, Decidable (Guarded step guard state actions)
  | _, [] => isTrue trivial
  | state, action :: actions =>
      have := decidableGuarded (step state action) actions
      inferInstanceAs (Decidable (guard state action ∧ _))

theorem guarded_append {state : σ} {first second : List α} :
    Guarded step guard state (first ++ second) ↔
      Guarded step guard state first ∧ Guarded step guard (run step state first) second := by
  induction first generalizing state with
  | nil => simp [Guarded]
  | cons action first ih => simp [Guarded, ih, and_assoc]

/-- The last step of a guarded run meets the guard in the state before it. -/
theorem guarded_snoc {state : σ} {actions : List α} {action : α} :
    Guarded step guard state (actions ++ [action]) ↔
      Guarded step guard state actions ∧ guard (run step state actions) action := by
  rw [guarded_append]
  simp [Guarded]

theorem Guarded.mono {step : σ → α → σ} {guard weaker : σ → α → Prop} {state : σ}
    {actions : List α} (implied : ∀ state action, guard state action → weaker state action)
    (guarded : Guarded step guard state actions) : Guarded step weaker state actions := by
  induction actions generalizing state with
  | nil => trivial
  | cons action actions ih => exact ⟨implied _ _ guarded.1, ih guarded.2⟩

variable {step guard}

/-- A run is guarded when each of its steps is, after the steps before it. -/
theorem guarded_of_prefixes {state : σ} {actions : List α}
    (steps : ∀ past action, past ++ [action] <+: actions → guard (run step state past) action) :
    Guarded step guard state actions := by
  induction actions using List.reverseRecOn with
  | nil => trivial
  | append_singleton past action ih =>
      rw [guarded_snoc]
      refine ⟨ih fun earlier other within => ?_, steps past action (List.prefix_refl _)⟩
      exact steps earlier other (within.trans (List.prefix_append _ _))

/-- What holds at the start and is kept by every guarded step holds at the end. -/
theorem run_invariant (invariant : σ → Prop)
    (kept : ∀ state action, invariant state → guard state action → invariant (step state action))
    {state : σ} {actions : List α} (start : invariant state)
    (guarded : Guarded step guard state actions) : invariant (run step state actions) := by
  induction actions generalizing state with
  | nil => exact start
  | cons action actions ih => exact ih (kept state action start guarded.1) guarded.2

/-- The same without a guard. -/
theorem run_kept (invariant : σ → Prop)
    (kept : ∀ state action, invariant state → invariant (step state action)) {state : σ}
    {actions : List α} (start : invariant state) : invariant (run step state actions) := by
  induction actions generalizing state with
  | nil => exact start
  | cons action actions ih => exact ih (kept state action start)

/-- The same for a property of the past actions and the state they lead to. -/
theorem run_history (invariant : List α → σ → Prop)
    (kept : ∀ past state action, invariant past state → guard state action →
      invariant (past ++ [action]) (step state action))
    {state : σ} {actions : List α} (start : invariant [] state)
    (guarded : Guarded step guard state actions) : invariant actions (run step state actions) := by
  induction actions using List.reverseRecOn with
  | nil => exact start
  | append_singleton past action ih =>
      rw [guarded_snoc] at guarded
      rw [run_append]
      exact kept past _ action (ih guarded.1) guarded.2

/-- Where each step keeps the invariant exactly when it meets its guard, the runs that never
leave the invariant are the guarded ones. -/
theorem prefixes_iff_guarded (invariant : σ → Prop) {state : σ} {actions : List α}
    (exact : ∀ state, ∀ action ∈ actions, invariant state →
      (invariant (step state action) ↔ guard state action)) (start : invariant state) :
    (∀ past, past <+: actions → invariant (run step state past)) ↔
      Guarded step guard state actions := by
  induction actions generalizing state with
  | nil =>
      refine iff_of_true (fun past within => ?_) trivial
      rw [List.prefix_nil.mp within]
      exact start
  | cons action actions ih =>
      have first := exact state action List.mem_cons_self start
      have later := @ih (step state action) fun state other member =>
        exact state other (List.mem_cons_of_mem _ member)
      rw [Guarded, ← first]
      constructor
      · intro all
        have here : invariant (step state action) := all [action] ⟨actions, rfl⟩
        refine ⟨here, (later here).mp fun past within => ?_⟩
        exact all (action :: past) (List.cons_prefix_cons.mpr ⟨rfl, within⟩)
      · rintro ⟨here, guarded⟩ past within
        cases past with
        | nil => exact start
        | cons other past =>
            obtain ⟨rfl, inside⟩ := List.cons_prefix_cons.mp within
            exact (later here).mpr guarded past inside

/-- A run that gives each action its turn once: the turn of an action makes what was
pending for it done, and the turns of the others leave both alone. -/
theorem run_sweep (general : σ → Prop) (pending done : α → σ → Prop)
    (turn : ∀ state action, general state → pending action state → guard state action →
      general (step state action) ∧ done action (step state action))
    (pendingKept : ∀ state action other, general state → guard state action → other ≠ action →
      pending other state → pending other (step state action))
    (doneKept : ∀ state action other, general state → guard state action → other ≠ action →
      done other state → done other (step state action))
    {state : σ} {actions : List α} (nodup : actions.Nodup) (start : general state)
    (waiting : ∀ action ∈ actions, pending action state)
    (guarded : Guarded step guard state actions) :
    general (run step state actions) ∧ ∀ action ∈ actions, done action (run step state actions) := by
  have finished {state : σ} {actions : List α} (action : α) (absent : action ∉ actions)
      (start : general state) (waiting : ∀ other ∈ actions, pending other state)
      (nodup : actions.Nodup) (guarded : Guarded step guard state actions)
      (here : done action state) : done action (run step state actions) := by
    induction actions generalizing state with
    | nil => exact here
    | cons other actions ih =>
        rw [List.mem_cons, not_or] at absent
        rw [List.nodup_cons] at nodup
        refine ih absent.2 (turn state other start (waiting other (by simp)) guarded.1).1 ?_ nodup.2
          guarded.2 (doneKept state other action start guarded.1 absent.1 here)
        intro later member
        refine pendingKept state other later start guarded.1 ?_
          (waiting later (List.mem_cons_of_mem _ member))
        rintro rfl
        exact nodup.1 member
  induction actions generalizing state with
  | nil => exact ⟨start, fun _ member => absurd member List.not_mem_nil⟩
  | cons action actions ih =>
      rw [List.nodup_cons] at nodup
      obtain ⟨general, here⟩ := turn state action start (waiting action (by simp)) guarded.1
      have later : ∀ other ∈ actions, pending other (step state action) := by
        intro other member
        refine pendingKept state action other start guarded.1 ?_
          (waiting other (List.mem_cons_of_mem _ member))
        rintro rfl
        exact nodup.1 member
      obtain ⟨kept, rest⟩ := ih nodup.2 general later guarded.2
      have first := finished action nodup.1 general later nodup.2 guarded.2 here
      refine ⟨kept, fun other member => ?_⟩
      rcases List.mem_cons.mp member with rfl | inside
      · exact first
      · exact rest other inside

/-- A run that gives each action its turn once, where a turn touches only what its own action
answers for: at the end all answer exactly when each turn met its guard. -/
theorem sweep_iff_guarded (general : σ → Prop) (answers : α → σ → Prop)
    (kept : ∀ state action, general state → general (step state action))
    (turn : ∀ state action, general state → answers action state →
      (answers action (step state action) ↔ guard state action))
    (apart : ∀ state action other, general state → other ≠ action →
      (answers other (step state action) ↔ answers other state))
    {state : σ} {actions : List α} (nodup : actions.Nodup) (start : general state)
    (all : ∀ action ∈ actions, answers action state) :
    (∀ action ∈ actions, answers action (run step state actions)) ↔
      Guarded step guard state actions := by
  have untouched {state : σ} {actions : List α} {action : α} (absent : action ∉ actions)
      (start : general state) : answers action (run step state actions) ↔ answers action state := by
    induction actions generalizing state with
    | nil => exact Iff.rfl
    | cons other actions ih =>
        rw [List.mem_cons, not_or] at absent
        rw [run_cons, ih absent.2 (kept state other start), apart state other action start absent.1]
  induction actions generalizing state with
  | nil => exact iff_of_true (fun _ member => absurd member List.not_mem_nil) trivial
  | cons action actions ih =>
      rw [List.nodup_cons] at nodup
      have later : ∀ other ∈ actions, answers other (step state action) := by
        intro other member
        have different : other ≠ action := fun same => nodup.1 (same ▸ member)
        exact (apart state action other start different).mpr (all other (by simp [member]))
      have next := kept state action start
      rw [List.forall_mem_cons, run_cons, untouched nodup.1 next,
        turn state action start (all action (by simp))]
      exact and_congr_right fun _ => ih nodup.2 next later

end Runs

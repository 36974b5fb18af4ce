import Dingdong.StorageByTime
import Dingdong.StorageOutcome

/-!
The two rotations with failing filesystem steps. A read error looks like the end of the
file to the copy loops, and the recount is not checked; everything else is.
-/

namespace LeanDingdong

open TextLines

section Rotation

variable {faults : RewriteFaults} {store : Store} {file : Bytes}

/-- The size check of an append, with what its rotation returns. -/
def rotateChecked (faults : RewriteFaults) (store : Store) : EspErr × Store :=
  (match store.events with
    | .none => .ok
    | some file => if ddEventsMaxBytes < file.length then (rotateEvents faults store).1 else .ok,
    rotateIfOver faults store)

theorem rotateChecked_of_none (faults : RewriteFaults) (absent : store.events = none) :
    rotateChecked faults store = (.ok, store) := by
  simp only [rotateChecked, rotateIfOver, absent]

theorem rotateChecked_of_le (faults : RewriteFaults) (present : store.events = some file)
    (fits : file.length ≤ ddEventsMaxBytes) : rotateChecked faults store = (.ok, store) := by
  simp only [rotateChecked, rotateIfOver, present, if_neg (not_lt.mpr fits)]

theorem rotateChecked_of_lt (faults : RewriteFaults) (present : store.events = some file)
    (full : ddEventsMaxBytes < file.length) :
    rotateChecked faults store = ((rotateEvents faults store).1,
      { (rotateEvents faults store).2 with
        eventCount := scanEventCount faults (rotateEvents faults store).2.events }) := by
  simp only [rotateChecked, rotateIfOver, present, if_pos full]

/-- What is there from the middle of the file on. -/
def newestHalf (file : Bytes) : Bytes := file.drop (file.length - file.length / 2)

/-- What a rotation copies when the file yields `read`. -/
def rotationCopy (file read : Bytes) : Bytes :=
  skipLine newline (read.drop (file.length - file.length / 2))

/-- A rotation that gets through to its rename. -/
structure RotationCommits (faults : RewriteFaults) (file : Bytes) : Prop where
  opened : faults.openIn = false
  copies : faults.Copies (freadBlocks 1024 (rotationCopy file (readable faults.readStops file)))
  renamed : faults.rename = false

theorem rotateEvents_cases (faults : RewriteFaults) (present : store.events = some file) :
    RotationCommits faults file ∧ rotateEvents faults store = (.ok, { store with
        events := some (rotationCopy file (readable faults.readStops file)) }) ∨
      ¬ RotationCommits faults file ∧ ∃ err, rotateEvents faults store = (err, store) := by
  simp only [rotateEvents, present]
  by_cases unopened : faults.openIn = true
  · refine .inr ⟨fun commits => ?_, .ok, by rw [if_pos unopened]⟩
    rw [commits.opened] at unopened
    cases unopened
  rw [if_neg unopened]
  rw [Bool.not_eq_true] at unopened
  by_cases copies : faults.Copies
      (freadBlocks 1024 (rotationCopy file (readable faults.readStops file)))
  · have proceeds := copies.proceeds (EspErr.fail, store) fun written =>
      if faults.rename then (.fail, store) else (.ok, { store with events := some written })
    rw [freadBlocks_flatten (by decide)] at proceeds
    by_cases unrenamed : faults.rename = true
    · refine .inr ⟨fun commits => ?_, .fail, proceeds.trans (if_pos unrenamed)⟩
      rw [commits.renamed] at unrenamed
      cases unrenamed
    · exact .inl ⟨⟨unopened, copies, Bool.not_eq_true _ ▸ unrenamed⟩,
        proceeds.trans (if_neg unrenamed)⟩
  · exact .inr ⟨fun commits => copies commits.copies, .fail,
      RewriteFaults.copy_fails copies (EspErr.fail, store) _⟩

/-- A rotation that commits reads to the end, or keeps nothing anyway, and the recount
reads every newline of what is there then. -/
structure RotationClean (faults : RewriteFaults) (file : Bytes) : Prop where
  read : RotationCommits faults file → ∀ stop ∈ faults.readStops,
    file.length ≤ stop ∨ newline ∉ (newestHalf file).dropLast
  recount : RotationCommits faults file → faults.Recounts (skipLine newline (newestHalf file))
  stayed : ¬ RotationCommits faults file → faults.Recounts file

theorem newestHalf_length (full : ddEventsMaxBytes < file.length) :
    0 < (newestHalf file).length ∧ (newestHalf file).length < file.length := by
  have room : 1 < ddEventsMaxBytes := by decide
  rw [newestHalf, List.length_drop]
  omega

/-- What a rotation that reads `stop` bytes copies is the whole newest half from the next
line on when nothing of it is missing. -/
theorem rotationCopy_readable_iff (full : ddEventsMaxBytes < file.length) (stops : Option Nat) :
    rotationCopy file (readable stops file) = skipLine newline (newestHalf file) ↔
      ∀ stop ∈ stops, file.length ≤ stop ∨ newline ∉ (newestHalf file).dropLast := by
  cases stops with
  | none => simp [rotationCopy, newestHalf, readable]
  | some stop =>
      have length := newestHalf_length full
      have taken : (file.take stop).drop (file.length - file.length / 2) =
          (newestHalf file).take (stop - (file.length - file.length / 2)) := by
        rw [newestHalf, List.drop_take]
      rw [rotationCopy, readable, taken, skipLine_take_iff, skipLine_eq_nil_iff]
      simp only [Option.mem_def, Option.some.injEq, forall_eq']
      have reach : (newestHalf file).length ≤ stop - (file.length - file.length / 2) ↔
          file.length ≤ stop := by
        rw [newestHalf, List.length_drop] at length ⊢
        omega
      rw [reach]

theorem rotationCopy_length_lt (full : ddEventsMaxBytes < file.length) (stops : Option Nat) :
    (rotationCopy file (readable stops file)).length < file.length := by
  have skipped := (skipLine_suffix newline
    ((readable stops file).drop (file.length - file.length / 2))).length_le
  have read := readable_length_le stops file
  have half := newestHalf_length full
  rw [List.length_drop] at skipped
  rw [newestHalf, List.length_drop] at half
  rw [rotationCopy]
  omega

theorem rotateChecked_none_events (present : store.events = some file)
    (full : ddEventsMaxBytes < file.length) :
    (rotateChecked .none store).2.events = some (skipLine newline (newestHalf file)) := by
  rw [rotateChecked_of_lt .none present full, rotateEvents_none present]
  rfl

/-- The size check rotates a log over the cap, and sets the count again whether the
rotation succeeds or not. -/
def Rotates (store : Store) : Prop := ∃ file ∈ store.events, ddEventsMaxBytes < file.length

/-- A rotation is all or nothing, and the count is right, when it is clean; where there is
none the count stays what it was. -/
theorem rotateChecked_allOrNothing :
    AllOrNothing store (rotateChecked .none store).2.events (rotateChecked faults store) ↔
      (∀ file ∈ store.events, ddEventsMaxBytes < file.length → RotationClean faults file) ∧
        (Rotates store ∨ store.Counted) := by
  cases present : store.events with
  | none =>
      rw [rotateChecked_of_none faults present]
      exact allOrNothing_unchanged (by simp) (by simp [Rotates, present]) _
  | some file =>
      simp only [Option.mem_def, Option.some.injEq, forall_eq']
      by_cases full : ddEventsMaxBytes < file.length
      · have rotates : Rotates store := ⟨file, present, full⟩
        rw [and_iff_left (.inl rotates), forall_prop_of_true full,
          rotateChecked_none_events present full]
        rcases rotateEvents_cases faults present with ⟨commits, result⟩ | ⟨stays, err, result⟩
        · have performed : rotateChecked faults store = (.ok,
              { events := some (rotationCopy file (readable faults.readStops file))
                eventCount := scanEventCount faults
                  (some (rotationCopy file (readable faults.readStops file))) }) := by
            rw [rotateChecked_of_lt faults present full, result]
          have shorter : some (rotationCopy file (readable faults.readStops file)) ≠ store.events := by
            rw [present]
            intro same
            have length := congrArg List.length (Option.some.inj same)
            have copied := rotationCopy_length_lt full faults.readStops
            omega
          rw [performed, allOrNothing_replaced shorter, Option.some.injEq, Option.getD_some,
            scanEventCount_iff, rotationCopy_readable_iff full]
          constructor
          · rintro ⟨read, recounts⟩
            rw [(rotationCopy_readable_iff full _).mpr read] at recounts
            exact ⟨fun _ => read, fun _ => recounts, fun stays => absurd commits stays⟩
          · intro clean
            refine ⟨clean.read commits, ?_⟩
            rw [(rotationCopy_readable_iff full _).mpr (clean.read commits)]
            exact clean.recount commits
        · have performed : rotateChecked faults store = (err,
              { store with eventCount := scanEventCount faults (some file) }) := by
            rw [rotateChecked_of_lt faults present full, result]
            simp only [present]
          have fileIs : store.file = file := by rw [Store.file, present, Option.getD_some]
          rw [performed]
          constructor
          · intro result
            refine ⟨fun commits => absurd commits stays, fun commits => absurd commits stays,
              fun _ => (scanEventCount_iff file).mp ?_⟩
            exact result.counted.trans (by rw [← fileIs]; rfl)
          · intro clean
            refine ⟨.inl rfl, fun _ => rfl, ?_⟩
            exact ((scanEventCount_iff file).mpr (clean.stayed stays)).trans (by rw [← fileIs]; rfl)
      · rw [rotateChecked_of_le faults present (not_lt.mp full)]
        refine allOrNothing_unchanged (fun exceeds => absurd exceeds full) ?_ _
        rintro ⟨other, same, exceeds⟩
        obtain rfl := Option.some.inj (present.symm.trans same)
        exact full exceeds

end Rotation

section ByTime

variable {faults : RotateFaults} {store : Store} {file : Bytes} {cutoffUnix : Int}

/-- Where the search that reads what it can finds a line that is new enough. -/
def searched (faults : RotateFaults) (cutoffUnix : Int) (file : Bytes) : Option Nat :=
  keepOffset cutoffUnix 0 (searchBuffers (readable faults.readStops file))

/-- A copy from `offset` on that gets through to its rename. -/
structure ByTimeCommits (faults : RotateFaults) (offset : Nat) (file : Bytes) : Prop where
  copies : faults.Copies (freadBlocks 1024 (readable faults.copyStops (file.drop offset)))
  renamed : faults.rename = false

/-- The log is wiped only where all of it is too old, and can be; a copy that commits
reads to the end, and the recount reads every newline. -/
structure ByTimeClean (faults : RotateFaults) (cutoffUnix : Int) (file : Bytes) : Prop where
  wiped : searched faults cutoffUnix file = none → faults.unlink = false →
    ∀ buf ∈ searchBuffers file, parseTsFromLine buf < cutoffUnix
  stuck : searched faults cutoffUnix file = none → faults.unlink = true → newline ∉ file
  copied : ∀ offset, searched faults cutoffUnix file = some offset → 0 < offset →
    ByTimeCommits faults offset file → ∀ stop ∈ faults.copyStops, file.length ≤ offset + stop
  recount : ∀ offset, searched faults cutoffUnix file = some offset → 0 < offset →
    ByTimeCommits faults offset file → faults.Recounts (file.drop offset)

theorem byTimeClean_none_iff (nothing : searched faults cutoffUnix file = none) :
    ByTimeClean faults cutoffUnix file ↔
      (faults.unlink = false → ∀ buf ∈ searchBuffers file, parseTsFromLine buf < cutoffUnix) ∧
        (faults.unlink = true → newline ∉ file) := by
  have unfound {offset : Nat} (found : searched faults cutoffUnix file = some offset) : False := by
    rw [nothing] at found
    cases found
  constructor
  · exact fun clean => ⟨clean.wiped nothing, clean.stuck nothing⟩
  · rintro ⟨wiped, stuck⟩
    exact ⟨fun _ => wiped, fun _ => stuck, fun _ found => (unfound found).elim,
      fun _ found => (unfound found).elim⟩

theorem byTimeClean_some_iff {offset : Nat} (found : searched faults cutoffUnix file = some offset) :
    ByTimeClean faults cutoffUnix file ↔
      (0 < offset → ByTimeCommits faults offset file →
        (∀ stop ∈ faults.copyStops, file.length ≤ offset + stop) ∧
          faults.Recounts (file.drop offset)) := by
  have unfound : ¬ searched faults cutoffUnix file = none := by simp [found]
  have here {other : Nat} (same : searched faults cutoffUnix file = some other) : offset = other :=
    Option.some.inj (found.symm.trans same)
  constructor
  · intro clean later commits
    exact ⟨clean.copied offset found later commits, clean.recount offset found later commits⟩
  · intro clean
    refine ⟨fun nothing => absurd nothing unfound, fun nothing => absurd nothing unfound, ?_, ?_⟩
    · intro other same later commits
      obtain rfl := here same
      exact (clean later commits).1
    · intro other same later commits
      obtain rfl := here same
      exact (clean later commits).2

theorem keepOffset_none_iff (offset : Nat) (buffers : List Bytes) :
    keepOffset cutoffUnix offset buffers = none ↔
      ∀ buf ∈ buffers, parseTsFromLine buf < cutoffUnix := by
  induction buffers generalizing offset with
  | nil => simp [keepOffset]
  | cons buf buffers ih =>
      rw [keepOffset, List.forall_mem_cons]
      split
      · rename_i recent
        exact iff_of_false (by simp) fun old => not_lt.mpr recent old.1
      · rename_i old
        rw [ih, and_iff_right (not_le.mp old)]

theorem searched_nonempty {offset : Nat} (found : searched faults cutoffUnix file = some offset) :
    file ≠ [] := by
  rintro rfl
  have nothing : readable faults.readStops [] = [] := by
    cases faults.readStops <;> simp [readable]
  rw [searched, nothing] at found
  cases found

theorem rotateByTime_none_events (positive : 0 < cutoffUnix) (present : store.events = some file) :
    (eventRotateByTime .none cutoffUnix store).2.events =
      match keepOffset cutoffUnix 0 (searchBuffers file) with
      | none => none
      | some offset => some (file.drop offset) := by
  have whole : readable RotateFaults.none.readStops file = file := rfl
  have copy (offset : Nat) : writeBlocks RotateFaults.none.writeStops
      (freadBlocks 1024 (readable RotateFaults.none.copyStops (file.drop offset))) =
        some (file.drop offset) := by
    refine (writeBlocks_none _).trans ?_
    rw [freadBlocks_flatten (by decide)]
    rfl
  simp only [eventRotateByTime, if_neg (not_le.mpr positive), present, whole]
  cases found : keepOffset cutoffUnix 0 (searchBuffers file) with
  | none => rfl
  | some offset =>
      cases offset with
      | zero => exact present
      | succ offset =>
          simp only [copy]
          rfl

/-- A retention rewrite that finds a line to keep from copies, or leaves the log. -/
theorem rotateByTime_found {offset : Nat} (opened : faults.openIn = false)
    (positive : 0 < cutoffUnix) (present : store.events = some file)
    (found : searched faults cutoffUnix file = some offset) (later : 0 < offset) :
    ByTimeCommits faults offset file ∧ eventRotateByTime faults cutoffUnix store = (.ok,
        { events := some (readable faults.copyStops (file.drop offset))
          eventCount := scanEventCount faults.toRewriteFaults
            (some (readable faults.copyStops (file.drop offset))) }) ∨
      ¬ ByTimeCommits faults offset file ∧
        eventRotateByTime faults cutoffUnix store = (.fail, store) := by
  obtain ⟨offset, rfl⟩ := Nat.exists_eq_succ_of_ne_zero (Nat.ne_of_gt later)
  rw [searched] at found
  simp only [eventRotateByTime, if_neg (not_le.mpr positive), present, opened, Bool.false_eq_true,
    if_false, found]
  by_cases copies : faults.Copies
      (freadBlocks 1024 (readable faults.copyStops (file.drop (offset + 1))))
  · have proceeds := copies.proceeds (EspErr.fail, store) fun written =>
      if faults.rename then (.fail, store)
      else (.ok, { events := some written
                   eventCount := scanEventCount faults.toRewriteFaults (some written) })
    rw [freadBlocks_flatten (by decide)] at proceeds
    by_cases unrenamed : faults.rename = true
    · refine .inr ⟨fun commits => ?_, proceeds.trans (if_pos unrenamed)⟩
      rw [commits.renamed] at unrenamed
      cases unrenamed
    · exact .inl ⟨⟨copies, Bool.not_eq_true _ ▸ unrenamed⟩, proceeds.trans (if_neg unrenamed)⟩
  · exact .inr ⟨fun commits => copies commits.copies,
      RewriteFaults.copy_fails copies (EspErr.fail, store) _⟩

theorem rotateByTime_wipes (positive : 0 < cutoffUnix) (present : store.events = some file)
    (opened : faults.openIn = false) (nothing : searched faults cutoffUnix file = none) :
    AllOrNothing store (eventRotateByTime .none cutoffUnix store).2.events
        (eventRotateByTime faults cutoffUnix store) ↔
      ByTimeClean faults cutoffUnix file := by
  have performed : eventRotateByTime faults cutoffUnix store =
      (.ok, { events := if faults.unlink then store.events else none, eventCount := 0 }) := by
    have search := nothing
    rw [searched] at search
    simp only [eventRotateByTime, if_neg (not_le.mpr positive), present, opened, search,
      Bool.false_eq_true, if_false]
  rw [performed, byTimeClean_none_iff nothing]
  by_cases stuck : faults.unlink = true
  · have noNewline : 0 = store.file.count newline ↔ newline ∉ file := by
      rw [Store.file, present, Option.getD_some, eq_comm, List.count_eq_zero]
    simp only [stuck, if_true, Bool.true_eq_false, false_implies, true_and, forall_true_left]
    exact ⟨fun result => noNewline.mp result.counted,
      fun none => ⟨.inl rfl, fun _ => rfl, noNewline.mpr none⟩⟩
  · have differs : (none : Option Bytes) ≠ store.events := by simp [present]
    have wholeOld : (none : Option Bytes) =
        (match keepOffset cutoffUnix 0 (searchBuffers file) with
          | none => none
          | some offset => some (file.drop offset)) ↔
        ∀ buf ∈ searchBuffers file, parseTsFromLine buf < cutoffUnix := by
      rw [← keepOffset_none_iff 0]
      cases keepOffset cutoffUnix 0 (searchBuffers file) <;> simp
    rw [if_neg stuck, allOrNothing_replaced differs, rotateByTime_none_events positive present,
      wholeOld]
    rw [Bool.not_eq_true] at stuck
    simp only [stuck, forall_true_left, Bool.false_eq_true, false_implies, and_true]
    exact and_iff_left rfl

/-- A retention rewrite that wipes or replaces the log sets the count again. -/
def ByTimeCounts (faults : RotateFaults) (cutoffUnix : Int) (file : Bytes) : Prop :=
  searched faults cutoffUnix file = none ∨
    ∃ offset, searched faults cutoffUnix file = some offset ∧ 0 < offset ∧
      ByTimeCommits faults offset file

theorem byTimeCounts_some_iff {offset : Nat} (found : searched faults cutoffUnix file = some offset) :
    ByTimeCounts faults cutoffUnix file ↔ 0 < offset ∧ ByTimeCommits faults offset file := by
  simp [ByTimeCounts, found]

/-- A search that finds a line copies the log from there. -/
theorem rotateByTime_copies (positive : 0 < cutoffUnix) (present : store.events = some file) (opened : faults.openIn = false)
    {offset : Nat} (found : searched faults cutoffUnix file = some offset) (later : 0 < offset) :
    AllOrNothing store (eventRotateByTime .none cutoffUnix store).2.events
        (eventRotateByTime faults cutoffUnix store) ↔
      ByTimeClean faults cutoffUnix file ∧
        (ByTimeCounts faults cutoffUnix file ∨ store.Counted) := by
  have nonempty := List.length_pos_of_ne_nil (searched_nonempty found)
  have wholeFound := keepOffset_readable positive found
  rw [byTimeClean_some_iff found, forall_prop_of_true later, byTimeCounts_some_iff found,
    and_iff_right later]
  rcases rotateByTime_found opened positive present found later with
    ⟨commits, result⟩ | ⟨stays, result⟩
  · have shorter : some (readable faults.copyStops (file.drop offset)) ≠ store.events := by
      rw [present]
      intro same
      have length := congrArg List.length (Option.some.inj same)
      have read := readable_length_le faults.copyStops (file.drop offset)
      rw [List.length_drop] at read
      omega
    have whole : readable faults.copyStops (file.drop offset) = file.drop offset ↔
        ∀ stop ∈ faults.copyStops, file.length ≤ offset + stop := by
      rw [readable_all_iff, List.length_drop]
      exact forall₂_congr fun stop _ => by omega
    have counts : ByTimeCommits faults offset file ∨ store.Counted := .inl commits
    rw [result, allOrNothing_replaced shorter, rotateByTime_none_events positive present,
      wholeFound, Option.some.injEq, Option.getD_some, scanEventCount_iff,
      forall_prop_of_true commits, and_iff_left counts, whole]
    constructor
    · rintro ⟨copied, recounts⟩
      rw [whole.mpr copied] at recounts
      exact ⟨copied, recounts⟩
    · rintro ⟨copied, recounts⟩
      rw [whole.mpr copied]
      exact ⟨copied, recounts⟩
  · rw [result]
    exact allOrNothing_unchanged (fun commits => absurd commits stays) stays _

/-- The retention rewrite looks for the lines that are new enough. -/
def Searches (faults : RotateFaults) (cutoffUnix : Int) (store : Store) (file : Bytes) : Prop :=
  file ∈ store.events ∧ 0 < cutoffUnix ∧ faults.openIn = false

/-- A retention rewrite is all or nothing, and the count is right, when it is clean; where
it changes nothing the count stays what it was. -/
theorem rotateByTime_allOrNothing :
    AllOrNothing store (eventRotateByTime .none cutoffUnix store).2.events
        (eventRotateByTime faults cutoffUnix store) ↔
      (∀ file, Searches faults cutoffUnix store file → ByTimeClean faults cutoffUnix file) ∧
        ((∃ file, Searches faults cutoffUnix store file ∧ ByTimeCounts faults cutoffUnix file) ∨
          store.Counted) := by
  by_cases positive : 0 < cutoffUnix
  swap
  · have result : eventRotateByTime faults cutoffUnix store = (.invalidArg, store) := by
      rw [eventRotateByTime, if_pos (not_lt.mp positive)]
    rw [result]
    exact allOrNothing_unchanged (fun _ searches => absurd searches.2.1 positive)
      (fun counts => positive counts.choose_spec.1.2.1) _
  cases present : store.events with
  | none =>
      have result : eventRotateByTime faults cutoffUnix store = (.ok, store) := by
        simp only [eventRotateByTime, if_neg (not_le.mpr positive), present]
      rw [result]
      exact allOrNothing_unchanged (by simp [Searches, present]) (by simp [Searches, present]) _
  | some file =>
      by_cases opened : faults.openIn = false
      swap
      · have result : eventRotateByTime faults cutoffUnix store = (.ok, store) := by
          rw [Bool.not_eq_false] at opened
          simp only [eventRotateByTime, if_neg (not_le.mpr positive), present, opened, if_true]
        rw [result]
        exact allOrNothing_unchanged (fun _ searches => absurd searches.2.2 opened)
          (fun counts => opened counts.choose_spec.1.2.2) _
      have searches (other : Bytes) : Searches faults cutoffUnix store other ↔ file = other := by
        simp [Searches, present, positive, opened]
      simp only [searches, forall_eq', exists_eq_left']
      cases found : searched faults cutoffUnix file with
      | none =>
          rw [rotateByTime_wipes positive present opened found, and_iff_left (.inl (.inl found))]
      | some offset =>
          rcases Nat.eq_zero_or_pos offset with rfl | later
          · -- everything is new enough
            have result : eventRotateByTime faults cutoffUnix store = (.ok, store) := by
              rw [searched] at found
              simp only [eventRotateByTime, if_neg (not_le.mpr positive), present, opened, found,
                Bool.false_eq_true, if_false]
            rw [result, byTimeClean_some_iff found, byTimeCounts_some_iff found]
            exact allOrNothing_unchanged (fun later => absurd later (lt_irrefl 0))
              (fun counts => absurd counts.1 (lt_irrefl 0)) _
          · exact rotateByTime_copies positive present opened found later

end ByTime

end LeanDingdong

import Dingdong.StorageLog

/-!
Appends that hit a short write. The bytes of a failed append stay in the file, so
the next successful append may continue a torn line. The file is described as
blocks, each some debris of failed appends followed by one stored line.
-/

namespace LeanDingdong

open TextLines Runs

/-- One append of a run: `short` is how much of the line and its newline a short
write lets through. -/
structure TornAppend where
  line : EventLine
  short : Option Nat

/-- The store after a run of appends, with what the run has been told so far. -/
structure WriteRun where
  store : Store
  /-- the lines whose append returned `ESP_OK`, each with its place among all bytes written -/
  stored : List (Nat × EventLine)
  /-- the bytes failed appends left behind -/
  torn : Bytes
  /-- how many bytes rotations have removed from the front -/
  removed : Nat

def WriteRun.start : WriteRun := { store := Store.empty, stored := [], torn := [], removed := 0 }

def WriteRun.step (current : WriteRun) (op : TornAppend) : WriteRun :=
  let result := eventAppend { short := op.short } op.line.bytes current.store
  let opened := (rotateIfOver .none current.store).file
  let removed := current.removed + (current.store.file.length - opened.length)
  { store := result.2
    stored := if result.1 = .ok then current.stored ++ [(removed + opened.length, op.line)]
      else current.stored
    torn := match op.short with
      | none => current.torn
      | some count => current.torn ++ (op.line.bytes ++ [newline]).take count
    removed := removed }

def runWrites (ops : List TornAppend) : WriteRun := run WriteRun.step WriteRun.start ops

/-- The stored lines no rotation has removed. -/
def WriteRun.retained (current : WriteRun) : List EventLine :=
  (current.stored.filter fun entry => current.removed ≤ entry.1).map Prod.snd

/-- What an iteration hands out. -/
def delivered (store : Store) : List Bytes :=
  (eventIter (fun line lines => (.ok, lines ++ [line])) [] store).2

theorem callEach_collect (lines collected : List Bytes) :
    callEach (fun line lines => (.ok, lines ++ [line])) lines collected =
      (.ok, collected ++ lines) := by
  induction lines generalizing collected with
  | nil => simp [callEach]
  | cons line rest ih => simp [callEach, ih]

theorem delivered_eq (store : Store) : delivered store = iterLines store.file := by
  cases present : store.events with
  | none => simp [delivered, eventIter, present, Store.file, iterLines]
  | some file => simp [delivered, eventIter, present, Store.file, callEach_collect]

/-- A stored line and the debris written before it, since the stored line before. -/
structure Block where
  debris : Bytes
  line : EventLine

def Block.bytes (block : Block) : Bytes := block.debris ++ (block.line.bytes ++ [newline])

def blockBytes (blocks : List Block) : Bytes := blocks.flatMap Block.bytes

def blockDebris (blocks : List Block) : Bytes := blocks.flatMap Block.debris

/-- The debris before the line ends on a boundary of the iterator's buffer. -/
def Block.Aligned (block : Block) : Prop := column newline block.debris % lineBufMax = 0

@[simp] theorem blockBytes_cons (block : Block) (blocks : List Block) :
    blockBytes (block :: blocks) = block.debris ++ (block.line.bytes ++ newline :: blockBytes blocks) := by
  simp [blockBytes, Block.bytes]

theorem blockBytes_snoc (blocks : List Block) (block : Block) :
    blockBytes (blocks ++ [block]) = blockBytes blocks ++ block.bytes := by
  simp [blockBytes]

theorem blockDebris_snoc (blocks : List Block) (block : Block) :
    blockDebris (blocks ++ [block]) = blockDebris blocks ++ block.debris := by
  simp [blockDebris]

theorem column_blockBytes (blocks : List Block) : column newline (blockBytes blocks) = 0 := by
  induction blocks with
  | nil => rfl
  | cons block blocks ih =>
      rw [blockBytes_cons, ← List.append_assoc, column_append_line]
      exact ih

/-- Every stored line comes out whole and in place, between the pieces of debris. -/
theorem iterLines_blocks {blocks : List Block} (aligned : ∀ block ∈ blocks, block.Aligned)
    (tail : Bytes) :
    iterLines (blockBytes blocks ++ tail) =
      (blocks.flatMap fun block => iterLines block.debris ++ [block.line.bytes]) ++
        iterLines tail := by
  induction blocks with
  | nil => simp [blockBytes]
  | cons block blocks ih =>
      have rest := ih fun other member => aligned other (by simp [member])
      have split : blockBytes (block :: blocks) ++ tail =
          block.debris ++ ((block.line.bytes ++ [newline]) ++ (blockBytes blocks ++ tail)) := by
        simp
      rw [split, iterLines_append (aligned block (by simp)),
        iterLines_append (by simp [column_append_line, column]), iterLines_line, rest]
      simp

/-- Where the lines of the blocks stand, the first block starting at `position`. -/
def placed : Nat → List Block → List (Nat × EventLine)
  | _, [] => []
  | position, block :: blocks =>
      (position + block.debris.length, block.line) ::
        placed (position + block.bytes.length) blocks

theorem placed_lower {position : Nat} {blocks : List Block} :
    ∀ entry ∈ placed position blocks, position ≤ entry.1 := by
  induction blocks generalizing position with
  | nil => simp [placed]
  | cons block blocks ih =>
      intro entry member
      rcases List.mem_cons.mp member with rfl | member
      · exact Nat.le_add_right _ _
      · have := ih entry member
        omega

theorem placed_upper {position : Nat} {blocks : List Block} :
    ∀ entry ∈ placed position blocks, entry.1 < position + (blockBytes blocks).length := by
  induction blocks generalizing position with
  | nil => simp [placed]
  | cons block blocks ih =>
      intro entry member
      simp only [blockBytes_cons, List.length_append, List.length_cons]
      rcases List.mem_cons.mp member with rfl | member
      · simp only
        omega
      · have := ih entry member
        simp only [Block.bytes, List.length_append, List.length_cons, List.length_nil] at this
        omega

theorem placed_snoc (position : Nat) (blocks : List Block) (block : Block) :
    placed position (blocks ++ [block]) =
      placed position blocks ++
        [(position + (blockBytes blocks).length + block.debris.length, block.line)] := by
  induction blocks generalizing position with
  | nil => simp [placed, blockBytes]
  | cons first blocks ih =>
      simp only [List.cons_append, placed, ih]
      simp [Block.bytes]
      omega

theorem placed_lines (position : Nat) (blocks : List Block) :
    (placed position blocks).map Prod.snd = blocks.map Block.line := by
  induction blocks generalizing position with
  | nil => rfl
  | cons block blocks ih => simp [placed, ih]

/-- A file described as blocks, of which `cut` leading bytes are dropped: the lines
that are left keep their places, those that are gone stood before the cut. -/
structure CutBlocks (position : Nat) (blocks : List Block) (tail rest : Bytes)
    (kept : List Block) (keptTail : Bytes) (cut : Nat) : Prop where
  bytes : rest = blockBytes kept ++ keptTail
  length : (blockBytes blocks ++ tail).length = cut + rest.length
  aligned : (∀ block ∈ blocks, block.Aligned) → ∀ block ∈ kept, block.Aligned
  places : ∃ gone, placed position blocks = gone ++ placed (position + cut) kept ∧
    ∀ entry ∈ gone, entry.1 < position + cut
  debris : blockDebris kept ++ keptTail <:+ blockDebris blocks ++ tail

/-- Dropping everything keeps no block. -/
theorem CutBlocks.all (position : Nat) (blocks : List Block) (tail : Bytes) :
    CutBlocks position blocks tail [] [] [] (blockBytes blocks ++ tail).length where
  bytes := rfl
  length := rfl
  aligned := fun _ => by simp
  places := by
    refine ⟨placed position blocks, by simp [placed], fun entry member => ?_⟩
    have := placed_upper entry member
    rw [List.length_append]
    omega
  debris := List.nil_suffix

/-- A later line start in the first block's successors drops that block too. -/
theorem CutBlocks.later {position : Nat} {block : Block} {blocks kept : List Block}
    {tail rest keptTail : Bytes} {cut : Nat}
    (after : CutBlocks (position + block.bytes.length) blocks tail rest kept keptTail cut) :
    CutBlocks position (block :: blocks) tail rest kept keptTail (block.bytes.length + cut) where
  bytes := after.bytes
  length := by
    have := after.length
    simp only [blockBytes_cons, Block.bytes, List.length_append, List.length_cons,
      List.length_nil] at this ⊢
    omega
  aligned := fun all => after.aligned fun other member => all other (by simp [member])
  places := by
    obtain ⟨gone, split, before⟩ := after.places
    rw [Nat.add_assoc] at split before
    refine ⟨(position + block.debris.length, block.line) :: gone, ?_, ?_⟩
    · rw [placed, split, List.cons_append]
    · intro entry member
      rcases List.mem_cons.mp member with rfl | member
      · simp only [Block.bytes, List.length_append, List.length_cons]
        omega
      · exact before entry member
  debris := after.debris.trans ⟨block.debris, by simp [blockDebris]⟩

/-- A line start never lies inside a stored line: the line is dropped with the
newline that ends it, or kept whole with the rest of its debris. -/
theorem lineStart_blocks {blocks : List Block} {tail before rest : Bytes}
    (split : blockBytes blocks ++ tail = before ++ newline :: rest) (position : Nat) :
    ∃ kept keptTail cut, CutBlocks position blocks tail rest kept keptTail cut := by
  induction blocks generalizing before position with
  | nil =>
      simp only [blockBytes, List.flatMap_nil, List.nil_append] at split
      subst split
      refine ⟨[], rest, before.length + 1, by simp [blockBytes], ?_, fun _ => by simp,
        ⟨[], by simp [placed]⟩, ⟨before ++ [newline], by simp [blockDebris]⟩⟩
      simp [blockBytes]
      omega
  | cons block blocks ih =>
      have free := block.line.noNewline
      rw [blockBytes_cons, List.append_assoc, List.append_assoc, List.cons_append] at split
      rcases List.append_eq_append_iff.mp split with ⟨past, beforeEq, restEq⟩ | ⟨ahead, debrisEq, restEq⟩
      · rcases List.append_eq_append_iff.mp restEq with ⟨beyond, pastEq, laterEq⟩ | ⟨middle, lineEq, laterEq⟩
        · cases beyond with
          | nil =>
              -- exactly after the newline of the stored line
              simp only [List.nil_append, List.cons.injEq, true_and] at laterEq
              subst laterEq
              exact ⟨blocks, tail, block.bytes.length + 0, CutBlocks.later ⟨rfl, by simp,
                fun all => all, ⟨[], by simp⟩, List.suffix_refl _⟩⟩
          | cons first beyond =>
              simp only [List.cons_append, List.cons.injEq] at laterEq
              obtain ⟨kept, keptTail, cut, after⟩ :=
                ih laterEq.2 (position + block.bytes.length)
              exact ⟨kept, keptTail, _, after.later⟩
        · cases middle with
          | nil =>
              simp only [List.nil_append, List.cons.injEq, true_and] at laterEq
              subst laterEq
              exact ⟨blocks, tail, block.bytes.length + 0, CutBlocks.later ⟨rfl, by simp,
                fun all => all, ⟨[], by simp⟩, List.suffix_refl _⟩⟩
          | cons first middle =>
              -- the newline would lie inside the stored line
              simp only [List.cons_append, List.cons.injEq] at laterEq
              exact absurd (by simp [lineEq, laterEq.1] : newline ∈ block.line.bytes) free
      · cases ahead with
        | nil =>
            -- the stored line would start with a newline
            simp only [List.nil_append] at restEq
            obtain ⟨first, line, lineEq⟩ := List.exists_cons_of_ne_nil block.line.nonempty
            rw [lineEq, List.cons_append, List.cons.injEq] at restEq
            exact absurd (by simp [lineEq, restEq.1] : newline ∈ block.line.bytes) free
        | cons first ahead =>
            -- inside the debris: the block is kept with what is left of it
            simp only [List.cons_append, List.cons.injEq] at restEq
            obtain ⟨rfl, rfl⟩ := restEq
            refine ⟨{ debris := ahead, line := block.line } :: blocks, tail, before.length + 1,
              ?_, ?_, ?_, ⟨[], ?_, by simp⟩, ?_⟩
            · simp
            · simp [debrisEq]
              omega
            · intro all other member
              rcases List.mem_cons.mp member with rfl | member
              · have whole := all block (by simp)
                rw [Block.Aligned, debrisEq, column_append_line] at whole
                exact whole
              · exact all other (by simp [member])
            · simp only [placed, List.nil_append, Block.bytes, debrisEq, List.length_append,
                List.length_cons]
              congr 2 <;> omega
            · exact ⟨before ++ [newline], by simp [blockDebris, debrisEq]⟩

/-- Skipping to the next line never cuts a stored line. -/
theorem skipLine_blocks {blocks : List Block} {tail stream : Bytes}
    (inside : stream <:+ blockBytes blocks ++ tail) (position : Nat) :
    ∃ kept keptTail cut,
      CutBlocks position blocks tail (skipLine newline stream) kept keptTail cut := by
  rcases skipLine_cases newline stream with nothing | ⟨line, _, whole⟩
  · rw [nothing]
    exact ⟨[], [], _, CutBlocks.all position blocks tail⟩
  · obtain ⟨before, split⟩ := inside
    rw [whole, ← List.append_assoc] at split
    exact lineStart_blocks split.symm position

/-- The blocks behind a state of a run: the file is what is left of the bytes
written, and the lines stored are in it unless they stood before the cut. -/
structure Explains (current : WriteRun) (blocks : List Block) (tail : Bytes) : Prop where
  file : current.store.file = blockBytes blocks ++ tail
  aligned : ∀ block ∈ blocks, block.Aligned
  places : ∃ gone, current.stored = gone ++ placed current.removed blocks ∧
    ∀ entry ∈ gone, entry.1 < current.removed
  debris : blockDebris blocks ++ tail <:+ current.torn

theorem Explains.retained {current : WriteRun} {blocks : List Block} {tail : Bytes}
    (explains : Explains current blocks tail) : current.retained = blocks.map Block.line := by
  obtain ⟨gone, split, before⟩ := explains.places
  have dropGone : gone.filter (fun entry => current.removed ≤ entry.1) = [] := by
    rw [List.filter_eq_nil_iff]
    intro entry member
    have := before entry member
    simp only [decide_eq_true_eq]
    omega
  have keepPlaced : (placed current.removed blocks).filter (fun entry => current.removed ≤ entry.1) =
      placed current.removed blocks := by
    rw [List.filter_eq_self]
    intro entry member
    simpa using placed_lower entry member
  rw [WriteRun.retained, split, List.filter_append, dropGone, keepPlaced, List.nil_append,
    placed_lines]

theorem rotateIfOver_file (store : Store) :
    (rotateIfOver .none store).file = store.file ∨
      ∃ stream, stream <:+ store.file ∧
        (rotateIfOver .none store).file = skipLine newline stream := by
  cases present : store.events with
  | none => simp [rotateIfOver, present]
  | some file =>
      by_cases full : ddEventsMaxBytes < file.length
      · refine Or.inr ⟨file.drop (file.length - file.length / 2), ?_, ?_⟩
        · rw [Store.file, present]
          exact List.drop_suffix _ _
        · simp only [rotateIfOver, present, full, if_true, rotateEvents_none present]
          rfl
      · simp [rotateIfOver, present, full]

/-- The size check of an append keeps the explanation; the bytes it removes are counted. -/
theorem Explains.rotate {current : WriteRun} {blocks : List Block} {tail : Bytes}
    (explains : Explains current blocks tail) :
    ∃ kept keptTail cut,
      CutBlocks current.removed blocks tail (rotateIfOver .none current.store).file kept keptTail cut ∧
      cut = current.store.file.length - (rotateIfOver .none current.store).file.length := by
  have length := congrArg List.length explains.file
  rcases rotateIfOver_file current.store with same | ⟨stream, inside, skipped⟩
  · refine ⟨blocks, tail, 0, ?_, by simp [same]⟩
    rw [same]
    exact ⟨explains.file, by omega, fun all => all, ⟨[], by simp⟩, List.suffix_refl _⟩
  · rw [explains.file] at inside
    obtain ⟨kept, keptTail, cut, cutBlocks⟩ := skipLine_blocks inside current.removed
    rw [← skipped] at cutBlocks
    have := cutBlocks.length
    exact ⟨kept, keptTail, cut, cutBlocks, by omega⟩

theorem column_rotateIfOver {store : Store} (aligned : column newline store.file % lineBufMax = 0) :
    column newline (rotateIfOver .none store).file % lineBufMax = 0 := by
  rcases rotateIfOver_file store with same | ⟨stream, ⟨before, split⟩, skipped⟩
  · rw [same]
    exact aligned
  · rw [skipped]
    rcases skipLine_cases newline stream with nothing | ⟨line, _, whole⟩
    · rw [nothing]
      rfl
    · rw [← split, whole, ← List.append_assoc, column_append_line] at aligned
      exact aligned

theorem eventAppend_short (line : EventLine) (count : Nat) (store : Store) :
    eventAppend { short := some count } line.bytes store =
      (.fail, { rotateIfOver .none store with
        events := some ((rotateIfOver .none store).file ++ (line.bytes ++ [newline]).take count) }) := by
  have long := line.short
  have positive := line.length_pos
  simp only [eventAppend, EventLine.cstr_bytes]
  rw [if_neg (by omega)]
  rfl

/-- Whether the step of a run starts where the iterator starts a buffer: an append
that succeeds finds a whole number of buffers after the last newline. -/
def SuccessAligned (current : WriteRun) (op : TornAppend) : Prop :=
  op.short = none → column newline current.store.file % lineBufMax = 0

instance (current : WriteRun) (op : TornAppend) : Decidable (SuccessAligned current op) :=
  inferInstanceAs (Decidable (_ → _))

theorem Explains.step {current : WriteRun} {blocks : List Block} {tail : Bytes}
    (explains : Explains current blocks tail) {op : TornAppend}
    (guard : SuccessAligned current op) :
    ∃ blocks' tail', Explains (current.step op) blocks' tail' := by
  obtain ⟨kept, keptTail, cut, cutBlocks, cutEq⟩ := explains.rotate
  obtain ⟨gone, places, before⟩ := explains.places
  obtain ⟨cutGone, cutPlaces, cutBefore⟩ := cutBlocks.places
  have aligned := cutBlocks.aligned explains.aligned
  have debris := cutBlocks.debris.trans explains.debris
  have goneBefore : ∀ entry ∈ gone ++ cutGone, entry.1 < current.removed + cut := by
    intro entry member
    rcases List.mem_append.mp member with old | new
    · have := before entry old
      omega
    · exact cutBefore entry new
  cases short : op.short with
  | some count =>
      -- a short write only lengthens the unfinished debris
      refine ⟨kept, keptTail ++ (op.line.bytes ++ [newline]).take count, ?_, aligned, ?_, ?_⟩
      · have file := cutBlocks.bytes
        simp only [WriteRun.step, short, eventAppend_short]
        simp only [Store.file, Option.getD_some] at file ⊢
        rw [file, List.append_assoc]
      · refine ⟨gone ++ cutGone, ?_, ?_⟩
        · simp [WriteRun.step, short, eventAppend_short, places, cutPlaces, ← cutEq]
        · simpa [WriteRun.step, ← cutEq] using goneBefore
      · obtain ⟨more, split⟩ := debris
        refine ⟨more, ?_⟩
        simp only [WriteRun.step, short]
        rw [← split]
        simp
  | none =>
      -- a stored line closes the block its debris starts
      have start := column_rotateIfOver (guard short)
      rw [cutBlocks.bytes, column_append_of_zero newline (column_blockBytes kept)] at start
      refine ⟨kept ++ [{ debris := keptTail, line := op.line }], [], ?_, ?_, ?_, ?_⟩
      · have appended := eventAppend_none op.line current.store
        simp only [AppendFaults.none] at appended
        have file := cutBlocks.bytes
        simp only [WriteRun.step, short, appended, blockBytes_snoc, Block.bytes, List.append_nil]
        simp only [Store.file, Option.getD_some] at file ⊢
        rw [file, List.append_assoc]
      · intro block member
        rcases List.mem_append.mp member with old | new
        · exact aligned block old
        · rw [List.mem_singleton.mp new]
          exact start
      · have appended := eventAppend_none op.line current.store
        simp only [AppendFaults.none] at appended
        have length := congrArg List.length cutBlocks.bytes
        rw [List.length_append] at length
        refine ⟨gone ++ cutGone, ?_, ?_⟩
        · simp only [WriteRun.step, short, appended, if_true, places, cutPlaces, ← cutEq,
            placed_snoc, List.append_assoc, List.append_cancel_left_eq]
          rw [length, Nat.add_assoc (current.removed + cut)]
        · simpa [WriteRun.step, ← cutEq] using goneBefore
      · simpa [WriteRun.step, short, blockDebris_snoc] using debris

/-- What a run owes its callers: the stored lines no rotation removed come out whole,
each in one place and in order; the rest that comes out is debris of failed appends. -/
def StoredDelivered (current : WriteRun) : Prop :=
  ∃ (blocks : List Block) (tail : Bytes),
    blocks.map Block.line = current.retained ∧
    delivered current.store =
      (blocks.flatMap fun block => iterLines block.debris ++ [block.line.bytes]) ++
        iterLines tail ∧
    blockDebris blocks ++ tail <:+ current.torn

theorem StoredDelivered.mem {current : WriteRun} (fine : StoredDelivered current)
    {line : EventLine} (kept : line ∈ current.retained) :
    line.bytes ∈ delivered current.store := by
  obtain ⟨blocks, tail, lines, out, _⟩ := fine
  rw [← lines] at kept
  obtain ⟨block, member, rfl⟩ := List.mem_map.mp kept
  rw [out]
  exact List.mem_append_left _ (List.mem_flatMap.mpr ⟨block, member, by simp⟩)

theorem Explains.storedDelivered {current : WriteRun} {blocks : List Block} {tail : Bytes}
    (explains : Explains current blocks tail) : StoredDelivered current :=
  ⟨blocks, tail, explains.retained.symm,
    by rw [delivered_eq, explains.file, iterLines_blocks explains.aligned], explains.debris⟩

/-- Failed appends damage no stored line in a run whose successful appends all start
on a boundary of the iterator's buffer: at the start of a line, above all. -/
theorem tornAppends_storedDelivered (ops : List TornAppend)
    (aligned : Guarded WriteRun.step SuccessAligned WriteRun.start ops) :
    StoredDelivered (runWrites ops) := by
  have explained : ∃ blocks tail, Explains (runWrites ops) blocks tail := by
    refine run_invariant (fun current => ∃ blocks tail, Explains current blocks tail)
      ?_ ?_ aligned
    · rintro current op ⟨blocks, tail, explains⟩ guard
      exact explains.step guard
    · exact ⟨[], [], rfl, by simp, ⟨[], rfl, by simp⟩, List.suffix_refl _⟩
  obtain ⟨blocks, tail, explains⟩ := explained
  exact explains.storedDelivered

/-- The line of one letter. -/
def letterLine (byte : UInt8) (text : byte ≠ newline ∧ byte ≠ 0) : EventLine where
  bytes := [byte]
  nonempty := by simp
  short := (by decide : 1 ≤ lineBufMax)
  noNewline := by simpa using text.1.symm
  noNul := by simpa using text.2.symm

/-- A short write that lets everything through, or nothing, and appends after it. -/
theorem tornAppends_storedDelivered_whole :
    StoredDelivered (runWrites [⟨letterLine 97 (by decide), some 2⟩,
      ⟨letterLine 98 (by decide), none⟩, ⟨letterLine 99 (by decide), some 0⟩,
      ⟨letterLine 100 (by decide), none⟩]) :=
  tornAppends_storedDelivered _ (by decide)

/-- One byte of `a` reaches the file, the append of `b` succeeds, and the iterator
hands out `ab`. -/
theorem tornAppend_damages_next :
    ¬ ∀ ops : List TornAppend, StoredDelivered (runWrites ops) := by
  intro claimed
  have fine := claimed [⟨letterLine 97 (by decide), some 1⟩, ⟨letterLine 98 (by decide), none⟩]
  have kept : (letterLine 98 (by decide)).bytes ∈ delivered _ := fine.mem (by
    refine List.mem_map.mpr ⟨(1, letterLine 98 (by decide)), ?_, rfl⟩
    exact List.mem_filter.mpr ⟨List.mem_singleton.mpr rfl, rfl⟩)
  rw [show delivered _ = [[97, 98]] from rfl] at kept
  exact absurd kept (by decide)

end LeanDingdong

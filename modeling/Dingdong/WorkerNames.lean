import Dingdong.JsonPrinted
import Dingdong.WorkerRegistry
import Dingdong.Runs

/-!
Names and categories as the registry keeps them. `dd_worker_update` looks at the whole name
and stores a front of it, counted in bytes: the front may be blank where the name is not, and
may end inside a character.
-/

namespace LeanDingdong

open ListTable Utf8

section Texts

/-- The bytes are a text with a character other than space and tab. -/
def ShowsName (bytes : Bytes) : Prop :=
  ∃ text, encode text = bytes ∧ ∃ char ∈ text, char ≠ ' ' ∧ char ≠ '\t'

/-- A space or a tab. -/
def BlankByte (byte : UInt8) : Prop := byte = 32 ∨ byte = 9

instance (byte : UInt8) : Decidable (BlankByte byte) := inferInstanceAs (Decidable (_ ∨ _))

theorem encodeChar_blank (char : Char) :
    (∀ byte ∈ String.utf8EncodeChar char, BlankByte byte) ↔ char = ' ' ∨ char = '\t' := by
  constructor
  · intro blank
    rcases encodeChar_cases char with ⟨low, single⟩ | ⟨_, high⟩
    · have value := toUInt8_toNat low
      have here : BlankByte char.val.toUInt8 := blank _ (by simp [single])
      refine here.imp (fun space => ?_) fun tab => ?_
      · rw [← Char.toNat_inj, ← value, space]
        rfl
      · rw [← Char.toNat_inj, ← value, tab]
        rfl
    · obtain ⟨byte, rest, split⟩ := List.exists_cons_of_ne_nil
        (String.utf8EncodeChar_ne_nil (c := char))
      have first : byte ∈ String.utf8EncodeChar char := by simp [split]
      have wide := high byte first
      rcases blank byte first with rfl | rfl <;> exact absurd wide (by decide)
  · rintro (rfl | rfl) <;> decide

/-- A text shows a name when one of its bytes is not blank. -/
theorem showsName_iff {bytes : Bytes} :
    ShowsName bytes ↔ Valid bytes ∧ ¬ ∀ byte ∈ bytes, BlankByte byte := by
  have blank (text : List Char) : (∀ byte ∈ encode text, BlankByte byte) ↔
      ∀ char ∈ text, char = ' ' ∨ char = '\t' := by
    simp only [encode, List.mem_flatMap, forall_exists_index, and_imp]
    constructor
    · exact fun all char member =>
        (encodeChar_blank char).mp fun byte inside => all byte char member inside
    · exact fun all byte char member inside =>
        (encodeChar_blank char).mpr (all char member) byte inside
  constructor
  · rintro ⟨text, rfl, char, member, shown⟩
    refine ⟨⟨text, rfl⟩, fun all => ?_⟩
    exact not_or.mpr shown ((blank text).mp all char member)
  · rintro ⟨⟨text, rfl⟩, shown⟩
    rw [blank] at shown
    simp only [not_forall, not_or] at shown
    obtain ⟨char, member, visible⟩ := shown
    exact ⟨text, rfl, char, member, visible⟩

end Texts

/-- What the registry keeps can be shown: its responses are JSON texts. -/
structure WorkerStore.Readable (store : WorkerStore) : Prop where
  names : ∀ worker ∈ store.workers, ShowsName worker.name.bytes
  valid : ∀ worker ∈ store.workers, Valid worker.name.bytes ∧ Valid worker.category.bytes
  responses : ∀ tree : JsonTree, tree.Texts (fun text => Valid text ∨ ∃ worker ∈ store.workers,
    text = worker.name.bytes ∨ text = worker.category.bytes) → JsonText.Value tree.print

/-- The worker's name and category can be shown. -/
def Worker.Readable (worker : Worker) : Prop :=
  ShowsName worker.name.bytes ∧ Valid worker.category.bytes

theorem readable_iff {store : WorkerStore} :
    store.Readable ↔ ∀ worker ∈ store.workers, worker.Readable := by
  constructor
  · exact fun readable worker member =>
      ⟨readable.names worker member, (readable.valid worker member).2⟩
  · intro all
    have valid : ∀ worker ∈ store.workers,
        Valid worker.name.bytes ∧ Valid worker.category.bytes := fun worker member =>
      ⟨(showsName_iff.mp (all worker member).1).1, (all worker member).2⟩
    refine ⟨fun worker member => (all worker member).1, valid, fun tree texts => ?_⟩
    refine tree.print_value (JsonTree.texts_mono ?_ tree texts)
    rintro text (here | ⟨worker, member, rfl | rfl⟩)
    · exact here
    · exact (valid worker member).1
    · exact (valid worker member).2

/-- A call of one of the two functions that write names. -/
inductive NameCall where
  | create (faults : NvsFaults) (addr : Option Addr) (now : Int)
  | update (faults : NvsFaults) (id : Nat) (name category : Option Bytes)

namespace NameCall

def step (json : Json) (store : WorkerStore) : NameCall → WorkerStore
  | .create faults addr now => (workerLookupOrCreate json faults addr now store).2
  | .update faults id name category => (workerUpdate json faults id name category store).2

/-- The arguments are texts. -/
def Sent : NameCall → Prop
  | .create .. => True
  | .update _ _ name category =>
      (∀ text ∈ name, Valid (cstr text)) ∧ ∀ text ∈ category, Valid (cstr text)

/-- A copy of so many bytes of the text ends with a character. -/
def CutsClean (count : Nat) (text : Bytes) : Prop :=
  ∀ byte ∈ (cstr text)[count]?, byte.IsUTF8FirstByte

instance (count : Nat) (text : Bytes) : Decidable (CutsClean count text) :=
  inferInstanceAs (Decidable (∀ byte ∈ (cstr text)[count]?, byte.IsUTF8FirstByte))

/-- An update that is not refused is given a name that is not blank in its first 31 bytes,
and neither text is cut inside a character. -/
def Fits (store : WorkerStore) : NameCall → Prop
  | .create .. => True
  | .update _ id name category =>
      id ≠ 0 → ¬ name.any blankName = true → (∃ worker ∈ store.workers, worker.id = id) →
        (∀ text ∈ name, CutsClean 31 text ∧ ¬ ∀ byte ∈ (cstr text).take 31, BlankByte byte) ∧
          ∀ text ∈ category, CutsClean 15 text

end NameCall

section Steps

variable {json : Json} {faults : NvsFaults} {store : WorkerStore}

/-- A creation leaves the table or adds an entry with a stub name. -/
theorem workers_lookupOrCreate (addr : Option Addr) (now : Int) :
    (workerLookupOrCreate json faults addr now store).2.workers = store.workers ∨
      ∃ new, (workerLookupOrCreate json faults addr now store).2.workers =
        store.workers ++ [newWorker store.nextId new now] := by
  cases addr with
  | none => exact .inl rfl
  | some addr =>
      rw [workerLookupOrCreate]
      dsimp only
      split_ifs
      · exact .inl rfl
      · exact .inl rfl
      · exact .inl rfl
      · split
        · exact .inr ⟨addr, rfl⟩
        · exact .inl rfl

/-- A stub name is plain ASCII. -/
theorem newWorker_readable (nextId : Nat) (addr : Addr) (now : Int) :
    (newWorker nextId addr now).Readable := by
  have digit (value : Nat) : hexDigit value < 128 :=
    (by decide : ∀ byte ∈ hexDigits, byte < 128) _ (hexDigit_mem value)
  have letters : ∀ byte ∈ ascii "Unnamed_", byte < 128 := by decide
  have number : ∀ byte ∈ hexId nextId, byte < 128 := by simp [hexId, digit]
  have last : ∀ byte ∈ hexByte addr.byte5, byte < 128 := by simp [hexByte, digit]
  have stub : ∀ byte ∈ ascii "Unnamed_" ++ hexId nextId ++ hexByte addr.byte5, byte < 128 :=
    List.forall_mem_append.mpr ⟨List.forall_mem_append.mpr ⟨letters, number⟩, last⟩
  have name : (newWorker nextId addr now).name.bytes =
      (cstr (ascii "Unnamed_" ++ hexId nextId ++ hexByte addr.byte5)).take 31 := rfl
  have inside : ∀ byte ∈ (newWorker nextId addr now).name.bytes, byte < 128 := fun byte member =>
    stub byte ((List.takeWhile_prefix _).subset (List.mem_of_mem_take (name ▸ member)))
  refine ⟨showsName_iff.mpr ⟨valid_ascii inside, fun blank => ?_⟩, valid_nil⟩
  have first : (85 : UInt8) ∈ (newWorker nextId addr now).name.bytes := by
    rw [name]
    exact List.mem_cons_self
  exact absurd (blank 85 first) (by decide)

/-- The fields an update can be read back from. -/
theorem updated_readable {worker : Worker} (readable : worker.Readable)
    {name category : Option Bytes} (names : ∀ text ∈ name, Valid (cstr text))
    (categories : ∀ text ∈ category, Valid (cstr text)) :
    (worker.updated name category).Readable ↔
      (∀ text ∈ name, NameCall.CutsClean 31 text ∧
        ¬ ∀ byte ∈ (cstr text).take 31, BlankByte byte) ∧
      ∀ text ∈ category, NameCall.CutsClean 15 text := by
  refine and_congr ?_ ?_
  · cases name with
    | none => exact iff_of_true readable.1 (by simp)
    | some text =>
        have sent : Valid (cstr text) := names text rfl
        have stored : (worker.updated (some text) category).name.bytes = (cstr text).take 31 := rfl
        rw [stored, showsName_iff, valid_take_iff sent]
        simp [NameCall.CutsClean]
  · cases category with
    | none => exact iff_of_true readable.2 (by simp)
    | some text =>
        have sent : Valid (cstr text) := categories text rfl
        have stored : (worker.updated name (some text)).category.bytes = (cstr text).take 15 := rfl
        rw [stored, valid_take_iff sent]
        simp [NameCall.CutsClean]

/-- An update keeps the registry readable exactly when it fits. -/
theorem update_readable_iff (readable : store.Readable) {id : Nat} {name category : Option Bytes}
    (names : ∀ text ∈ name, Valid (cstr text))
    (categories : ∀ text ∈ category, Valid (cstr text)) :
    (workerUpdate json faults id name category store).2.Readable ↔
      (NameCall.update faults id name category).Fits store := by
  rcases workerUpdate_cases json faults id name category store with
    ⟨refusal, refused⟩ | ⟨front, worker, back, split, here, positive, named, written⟩
  · rw [refused]
    refine iff_of_true readable fun positive named known => ?_
    obtain ⟨worker, member, same⟩ := known
    rcases refusal with zero | blank | absent
    · exact absurd zero positive
    · exact absurd blank named
    · exact absurd same (absent worker member)
  · have known : ∃ worker ∈ store.workers, worker.id = id := ⟨worker, by simp [split], here⟩
    have before := readable_iff.mp readable
    rw [split] at before
    have updated := updated_readable (before worker (by simp)) names categories
    rw [readable_iff, written]
    constructor
    · intro all _ _ _
      exact updated.mp (all _ (by simp))
    · intro fits other member
      rcases List.mem_append.mp member with first | rest
      · exact before other (List.mem_append_left _ first)
      · rcases List.mem_cons.mp rest with rfl | later
        · exact updated.mpr (fits positive named known)
        · exact before other (by simp [later])

end Steps

/-- The names of a run can be shown in every state it reaches if and only if each of its
updates fits in the state it finds. -/
theorem names_readable_iff (json : Json) (calls : List NameCall) (sent : ∀ call ∈ calls, call.Sent) :
    (∀ past, past <+: calls → (Runs.run (NameCall.step json) WorkerStore.fresh past).Readable) ↔
      Runs.Guarded (NameCall.step json) (fun store call => call.Fits store) WorkerStore.fresh
        calls := by
  refine Runs.prefixes_iff_guarded WorkerStore.Readable (fun store call member readable => ?_)
    (readable_iff.mpr fun worker member => absurd member List.not_mem_nil)
  cases call with
  | create faults addr now =>
      have before := readable_iff.mp readable
      refine iff_of_true (readable_iff.mpr ?_) trivial
      rcases @workers_lookupOrCreate json faults store addr now with same | ⟨new, added⟩
      · rw [NameCall.step, same]
        exact before
      · rw [NameCall.step, added]
        intro worker inside
        rcases List.mem_append.mp inside with known | created
        · exact before worker known
        · rw [List.mem_singleton.mp created]
          exact newWorker_readable _ _ _
  | update faults id name category =>
      obtain ⟨names, categories⟩ := sent _ member
      exact update_readable_iff readable names categories

section Runs

/-- The creation of worker 1. -/
def firstCreate : NameCall := .create .none (some Addr.zero) 1700000000

/-- A new name for worker 1. -/
def rename (name : Bytes) : NameCall := .update .none 1 (some name) none

theorem rename_sent {name : Bytes} (valid : Valid (cstr name)) : (rename name).Sent := by
  refine ⟨fun text same => ?_, fun text none => by cases none⟩
  rwa [← Option.some.inj same]

theorem names_readable_ann :
    (Runs.run (NameCall.step plainJson) WorkerStore.fresh
      [firstCreate, rename (ascii "Ann")]).Readable := by
  refine (names_readable_iff plainJson [firstCreate, rename (ascii "Ann")] ?_).mpr
    ⟨trivial, fun _ _ _ => ⟨?_, ?_⟩, trivial⟩ _ (List.prefix_refl _)
  · intro call member
    rcases List.mem_pair.mp member with rfl | rfl
    · trivial
    · exact rename_sent (valid_ascii (by decide))
  · intro text same
    rw [← Option.some.inj same]
    decide +kernel
  · intro text none
    cases none

/-- 31 spaces and a letter. -/
def blankFront : Bytes := List.replicate 31 32 ++ ascii "x"

/-- 30 letters and a character of two bytes. -/
def accentLast : Bytes := encode (List.replicate 30 'a' ++ ['é'])

/-- A name of 31 spaces and a letter is accepted and stored blank; a name whose 31st and 32nd
byte are one character is stored as no text. -/
theorem names_cut :
    ((rename blankFront).Sent ∧ ∃ worker ∈ (Runs.run (NameCall.step plainJson) WorkerStore.fresh
        [firstCreate, rename blankFront]).workers, ¬ ShowsName worker.name.bytes) ∧
    (rename accentLast).Sent ∧ ∃ worker ∈ (Runs.run (NameCall.step plainJson) WorkerStore.fresh
        [firstCreate, rename accentLast]).workers, ¬ Valid worker.name.bytes := by
  have accent : Valid accentLast := ⟨_, rfl⟩
  have noNul : cstr accentLast = accentLast := by decide
  refine ⟨⟨rename_sent (valid_ascii (by decide +kernel)), _, List.mem_singleton_self _, fun shows => ?_⟩,
    rename_sent (noNul.symm ▸ accent), _, List.mem_singleton_self _, fun valid => ?_⟩
  · exact (showsName_iff.mp shows).2 (by decide)
  · exact absurd ((valid_take_iff accent 31).mp valid) (by decide +kernel)

end Runs

end LeanDingdong

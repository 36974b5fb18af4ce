import Dingdong.StorageRetention

/-!
The three text searches of `dd_storage.c` against the object `dd_event_record` prints: each
reads the fields of the object and nothing else, whatever the note says.
-/

namespace LeanDingdong

open TextLines Substrings

/-- A last byte that neither belongs to the needle nor stops it changes nothing. -/
theorem matchedBy_snoc {needle stops text : Bytes} {last : UInt8} (nonempty : needle ≠ [])
    (free : last ∉ needle) (lastPasses : last ∉ stops) (nulPasses : 0 ∉ stops) :
    matchedBy needle stops (text ++ [last]) = matchedBy needle stops text := by
  rw [matchedBy, matchedBy, afterMatch, afterMatch]
  cases here : strstr needle text with
  | none =>
      have absent : strstr needle (text ++ [last]) = none := by
        rw [strstr_none_iff nonempty] at here ⊢
        rw [List.infix_concat_iff, List.suffix_concat_iff]
        rintro ((rfl | ⟨front, rfl, _⟩) | inside)
        · exact nonempty rfl
        · simp at free
        · exact here inside
      rw [absent]
  | some found =>
      obtain ⟨longer, front, rfl⟩ := strstr_append nonempty here [last]
      rw [longer, Option.map_some, Option.map_some, Option.any_some, Option.any_some,
        List.append_assoc, List.drop_left, List.drop_left]
      cases front with
      | nil => simp [lastPasses, nulPasses]
      | cons stop front => rfl

namespace EventRecord

variable (record : EventRecord)

/-- A text that shows the object: as printed, or the front of its line that a buffer of
the given size takes. -/
def Shows (size : Nat) (text : Bytes) : Prop :=
  text = record.line ∨ text = (record.line ++ [newline]).take (size - 1)

/-- A number is a member of the object when it is one of the members before the note. -/
theorem mem_members_number {key : Bytes} {value : Int} :
    (⟨key, .number value⟩ : Member) ∈ record.members ↔
      (⟨key, .number value⟩ : Member) ∈ record.head := by
  rw [members, List.mem_append, or_iff_left]
  split <;> simp [noteMember]

theorem newline_not_mem_needle {key : Bytes} (named : key ∈ numberKeys) (value : Int) :
    newline ∉ keyNeedle key (signedDecimal value) := by
  have keyFree : newline ∉ key := (numberKeys_plain named).not_mem (by decide)
  have digitsFree : newline ∉ signedDecimal value :=
    fun member => absurd (signedDecimal_numeric newline member) (by decide)
  rw [keyNeedle, List.mem_cons, List.mem_append, List.mem_cons, List.mem_cons]
  rintro (quote | inKey | quote | colon | inDigits)
  · exact absurd quote (by decide)
  · exact keyFree inKey
  · exact absurd quote (by decide)
  · exact absurd colon (by decide)
  · exact digitsFree inDigits

theorem matchedBy_shows {key : Bytes} (named : key ∈ numberKeys) {value : Int} {stops : Bytes}
    (stopsSeparators : ∀ byte ∈ separators, byte ∈ stops)
    (stopsEnd : ∀ byte ∈ stops, ¬ Numeric byte) (newlinePasses : newline ∉ stops)
    (nulPasses : 0 ∉ stops) {text : Bytes} (shows : record.Shows lineBufMax text) :
    matchedBy (keyNeedle key (signedDecimal value)) stops text = true ↔
      (⟨key, .number value⟩ : Member) ∈ record.members := by
  have whole := @matchedBy_front record key named value stops stopsSeparators stopsEnd
  rw [mem_members_number]
  rcases shows with rfl | rfl
  · rw [← whole (List.prefix_refl _) (.inr rfl), matchedBy_snoc (keyNeedle_ne_nil _ _)
      (newline_not_mem_needle named value) newlinePasses nulPasses]
  · refine whole (List.take_prefix _ _) ?_
    rw [List.take_eq_self_iff, List.length_take]
    have room : headRoom ≤ lineBufMax - 1 := by decide
    omega

/-- The searches find a number exactly in the objects that hold it as the member of that
name, and read the `ts` of each; what a buffer cuts off a line shows them nothing. -/
theorem searches_exact :
    (∀ text, record.Shows lineBufMax text →
      (∀ workerId : Nat, workerHit workerId text = true ↔
        ⟨ascii "worker_id", .number workerId⟩ ∈ record.members) ∧
      ∀ ts monoUs : Int, oneHit ts monoUs text = true ↔
        ⟨ascii "ts", .number ts⟩ ∈ record.members ∧
          ⟨ascii "mono_us", .number monoUs⟩ ∈ record.members) ∧
    (∀ text, record.Shows 512 text → parseTsFromLine text = record.ts) ∧
    (∀ piece, piece <:+: (record.line ++ [newline]).drop 511 → parseTsFromLine piece = 0) ∧
    (record.line.length ≤ lineBufMax →
      ∀ piece, piece <:+: (record.line ++ [newline]).drop (lineBufMax - 1) →
        (∀ workerId, workerHit workerId piece = false) ∧
          ∀ ts monoUs, oneHit ts monoUs piece = false) := by
  refine ⟨fun text shows => ⟨fun workerId => ?_, fun ts monoUs => ?_⟩, fun text shows => ?_,
    fun piece inside => ?_, fun accepted piece inside => ?_⟩
  · rw [workerHit, worker_needle]
    exact record.matchedBy_shows (by decide) (by decide) (by decide) (by decide) (by decide) shows
  · have tsNeedle : ascii "\"ts\":" ++ signedDecimal ts =
      keyNeedle (ascii "ts") (signedDecimal ts) := rfl
    have monoNeedle : ascii "\"mono_us\":" ++ signedDecimal monoUs =
      keyNeedle (ascii "mono_us") (signedDecimal monoUs) := rfl
    rw [oneHit, tsNeedle, monoNeedle, Bool.and_eq_true]
    exact and_congr
      (record.matchedBy_shows (by decide) (by decide) (by decide) (by decide) (by decide) shows)
      (record.matchedBy_shows (by decide) (by decide) (by decide) (by decide) (by decide) shows)
  · rcases shows with rfl | rfl
    · exact record.parseTs_front (List.prefix_append _ _) (.inr (List.prefix_refl _))
    · refine record.parseTs_front (List.take_prefix _ _) ?_
      rcases Nat.lt_or_ge record.line.length 511 with short | long
      · rw [List.take_of_length_le (by simpa using short)]
        exact .inr (List.prefix_append _ _)
      · rw [List.length_take, List.length_append]
        exact .inl (by omega)
  · exact record.parseTs_piece (inside.trans (List.drop_suffix_drop_left _ (by decide)).isInfix)
  · have short : piece.length ≤ 2 := by
      have := inside.length_le
      rw [List.length_drop, List.length_append, List.length_singleton] at this
      rw [lineBufMax] at this accepted
      omega
    exact ⟨fun _ => workerHit_short short, fun _ _ => oneHit_short short⟩

/-- A punch of worker 7 whose note is written like the members of another event. -/
def forged : EventRecord where
  ts := 1700031313
  monoUs := 818181
  type := .evOut
  src := .srcManualWeb
  peer := some (⟨1, 2, 3, 4, 5, 6⟩, 7)
  reason := -1
  note := ascii "\"worker_id\":8,\x7b\"ts\":9,\"mono_us\":3\x7d"
  tsPlain := by decide
  monoPlain := by decide
  noteNoNul := by decide

/-- The note of `forged` neither adds a match nor hides one. -/
theorem searches_exact_forged :
    workerHit 7 forged.line = true ∧ ¬ workerHit 8 forged.line = true ∧
      ¬ oneHit 9 3 forged.line = true ∧ parseTsFromLine forged.line = 1700031313 := by
  obtain ⟨hits, stamp, _⟩ := searches_exact forged
  obtain ⟨worker, one⟩ := hits forged.line (.inl rfl)
  refine ⟨(worker 7).mpr (by decide), fun found => ?_, fun found => ?_, stamp _ (.inl rfl)⟩
  · exact absurd ((worker 8).mp found) (by decide)
  · exact absurd ((one 9 3).mp found).1 (by decide)

end EventRecord

end LeanDingdong

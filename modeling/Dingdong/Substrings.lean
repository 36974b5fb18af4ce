import Mathlib.Data.List.Infix
import Mathlib.Data.List.Chain

/-!
Substring search, and what it does on text made of quoted words. A needle that
starts with a quoted word can only match at the quote that opens the same word,
as long as every other quote of the text is escaped.
-/

namespace Substrings

variable {α : Type*}

/-- Two texts that agree through the first symbol outside a class agree before it. -/
theorem append_cons_inj (inside : α → Prop) {first second rest rest' : List α} {stop stop' : α}
    (firstInside : ∀ symbol ∈ first, inside symbol) (stopOutside : ¬ inside stop)
    (secondInside : ∀ symbol ∈ second, inside symbol) (stopOutside' : ¬ inside stop')
    (same : first ++ stop :: rest = second ++ stop' :: rest') :
    first = second ∧ stop = stop' ∧ rest = rest' := by
  rcases List.append_eq_append_iff.mp same with ⟨more, secondEq, tail⟩ | ⟨more, firstEq, tail⟩
  · cases more with
    | nil => simpa [secondEq] using tail
    | cons symbol more =>
        simp only [List.cons_append, List.cons.injEq] at tail
        exact absurd (secondInside stop (by simp [secondEq, tail.1])) stopOutside
  · cases more with
    | nil =>
        simp only [List.nil_append, List.cons.injEq] at tail
        exact ⟨by simp [firstEq], tail.1.symm, tail.2.symm⟩
    | cons symbol more =>
        simp only [List.cons_append, List.cons.injEq] at tail
        exact absurd (firstInside stop' (by simp [firstEq, tail.1])) stopOutside'

/-- A quoted word is a prefix exactly of text that starts with the same word. -/
theorem prefix_through_quote {quote : α} {word other body text : List α} (wordFree : quote ∉ word)
    (otherFree : quote ∉ other) :
    word ++ quote :: body <+: other ++ quote :: text ↔ word = other ∧ body <+: text := by
  constructor
  · rintro ⟨rest, same⟩
    rw [List.append_assoc, List.cons_append] at same
    obtain ⟨words, _, bodies⟩ := append_cons_inj (fun symbol => symbol ≠ quote)
      (fun symbol member same => wordFree (same ▸ member)) (by simp)
      (fun symbol member same => otherFree (same ▸ member)) (by simp) same
    exact ⟨words, rest, bodies⟩
  · rintro ⟨rfl, rest, rfl⟩
    exact ⟨rest, by simp⟩

theorem not_prefix_of_head {word body text : List α} {first symbol : α} (different : first ≠ symbol) :
    ¬ first :: word ++ body <+: symbol :: text := by
  rintro ⟨rest, same⟩
  exact different (List.cons.inj same).1

variable {quote escape : α}

/-- Every quote comes right after the escape symbol, the first symbol apart. -/
def QuotesEscaped (quote escape : α) (text : List α) : Prop :=
  text.IsChain fun before symbol => symbol = quote → before = escape

theorem QuotesEscaped.tail {symbol : α} {text : List α}
    (escaped : QuotesEscaped quote escape (symbol :: text)) : QuotesEscaped quote escape text :=
  List.IsChain.of_cons escaped

/-- A word without the escape symbol does not continue a quote inside escaped text:
the next quote there is escaped, or closes the text and is followed by `stop`. -/
theorem not_prefix_escaped {word body text rest : List α} {stop colon : α}
    (nonempty : word ≠ []) (quoteFree : quote ∉ word) (escapeFree : escape ∉ word)
    (different : colon ≠ stop) (escaped : QuotesEscaped quote escape (quote :: text)) :
    ¬ word ++ quote :: colon :: body <+: text ++ quote :: stop :: rest := by
  intro matched
  by_cases inside : quote ∈ text
  · obtain ⟨before, after, textEq, beforeFree⟩ := List.eq_append_cons_of_mem inside
    rw [textEq, List.append_assoc, List.cons_append,
      prefix_through_quote quoteFree beforeFree] at matched
    rw [textEq, ← matched.1] at escaped
    -- the symbol before that quote is the word's last one
    obtain ⟨start, last, wordEq⟩ := List.eq_nil_or_concat word |>.resolve_left nonempty
    have split : quote :: (word ++ quote :: after) =
        (quote :: start) ++ last :: quote :: after := by simp [wordEq]
    rw [split] at escaped
    have pair := (List.isChain_append.mp escaped).2.1
    rw [List.isChain_cons_cons] at pair
    exact escapeFree (by simp [wordEq, pair.1 rfl])
  · rw [prefix_through_quote quoteFree inside] at matched
    obtain ⟨tail, same⟩ := matched.2
    exact different (List.cons.inj same).1

variable [DecidableEq α]

/-- The rest of the text from the first occurrence of the needle on. -/
def strstr (needle : List α) : List α → Option (List α)
  | [] => if needle = [] then some [] else none
  | symbol :: text =>
      if needle.isPrefixOf (symbol :: text) then some (symbol :: text) else strstr needle text

theorem strstr_none_iff {needle : List α} (nonempty : needle ≠ []) {text : List α} :
    strstr needle text = none ↔ ¬ needle <:+: text := by
  induction text with
  | nil => simp [strstr, nonempty]
  | cons symbol text ih =>
      simp only [strstr, List.infix_cons_iff, List.isPrefixOf_iff_prefix]
      split
      · rename_i here
        simp [here]
      · rename_i here
        simp [here, ih]

/-- What does not occur in a text does not occur in a part read from its front. -/
theorem strstr_none_front {needle front text : List α} (nonempty : needle ≠ [])
    (prefixed : front <+: text) (absent : strstr needle text = none) :
    strstr needle front = none := by
  rw [strstr_none_iff nonempty] at absent ⊢
  exact fun present => absent (present.trans prefixed.isInfix)

theorem strstr_suffix {needle text found : List α} (here : strstr needle text = some found) :
    found <:+ text := by
  induction text with
  | nil =>
      rw [strstr] at here
      split at here
      · rw [← Option.some.inj here]
      · cases here
  | cons symbol text ih =>
      rw [strstr] at here
      split at here
      · rw [← Option.some.inj here]
      · exact (ih here).trans (List.suffix_cons _ _)

/-- The first occurrence stays the first when text is added behind it. -/
theorem strstr_append {needle text found : List α} (nonempty : needle ≠ [])
    (here : strstr needle text = some found) (rest : List α) :
    strstr needle (text ++ rest) = some (found ++ rest) ∧ needle <+: found := by
  induction text with
  | nil => simp [strstr, nonempty] at here
  | cons symbol text ih =>
      rw [strstr] at here
      rw [List.cons_append, strstr]
      split at here
      · rename_i first
        obtain rfl := Option.some.inj here
        rw [List.isPrefixOf_iff_prefix] at first
        have longer : needle <+: symbol :: (text ++ rest) :=
          first.trans (List.prefix_append (symbol :: text) rest)
        rw [if_pos (List.isPrefixOf_iff_prefix.mpr longer)]
        exact ⟨rfl, first⟩
      · rename_i later
        obtain ⟨same, inside⟩ := ih here
        rw [if_neg, same]
        · exact ⟨rfl, inside⟩
        · -- an occurrence across the end would have to be longer than the one found
          rw [List.isPrefixOf_iff_prefix] at later ⊢
          intro first
          have room : needle.length ≤ text.length := by
            have suffix : found <:+ text := strstr_suffix here
            exact inside.length_le.trans suffix.length_le
          refine later (List.prefix_of_prefix_length_le first
            (List.prefix_append (symbol :: text) rest) ?_)
          rw [List.length_cons]
          omega

theorem strstr_here {needle text : List α} (nonempty : needle ≠ []) (here : needle <+: text) :
    strstr needle text = some text := by
  cases text with
  | nil => exact absurd (List.prefix_nil.mp here) nonempty
  | cons symbol text => simp [strstr, List.isPrefixOf_iff_prefix.mpr here]

theorem strstr_skip {needle text : List α} {symbol : α} (absent : ¬ needle <+: symbol :: text) :
    strstr needle (symbol :: text) = strstr needle text := by
  rw [strstr, if_neg]
  rwa [List.isPrefixOf_iff_prefix]

/-- A stretch without the needle's first symbol is passed over. -/
theorem strstr_skip_free {quote : α} {body : List α} (free : List α) (absent : quote ∉ free)
    (text : List α) : strstr (quote :: body) (free ++ text) = strstr (quote :: body) text := by
  induction free with
  | nil => rfl
  | cons symbol free ih =>
      simp only [List.mem_cons, not_or] at absent
      rw [List.cons_append, strstr_skip, ih absent.2]
      rintro ⟨rest, same⟩
      exact absent.1 (List.cons.inj same).1

/-- A quote that is not followed by the needle's body is passed over. -/
theorem strstr_skip_quote {quote : α} {body text : List α} (absent : ¬ body <+: text) :
    strstr (quote :: body) (quote :: text) = strstr (quote :: body) text := by
  apply strstr_skip
  rwa [List.cons_prefix_cons, and_iff_right rfl]

/-- The search passes over escaped text and the quote that closes it. -/
theorem strstr_skip_escaped {word body text : List α} {stop colon : α} (nonempty : word ≠ [])
    (quoteFree : quote ∉ word) (escapeFree : escape ∉ word) (stopFree : stop ∉ word)
    (different : colon ≠ stop) (stopNotQuote : stop ≠ quote)
    (escaped : QuotesEscaped quote escape text) (rest : List α) :
    strstr (quote :: (word ++ quote :: colon :: body)) (text ++ quote :: stop :: rest) =
      strstr (quote :: (word ++ quote :: colon :: body)) rest := by
  induction text with
  | nil =>
      obtain ⟨first, word, rfl⟩ := List.exists_cons_of_ne_nil nonempty
      have firstStop : first ≠ stop := by
        rintro rfl
        simp at stopFree
      rw [List.nil_append, strstr_skip_quote (not_prefix_of_head firstStop)]
      exact strstr_skip_free [stop] (by simpa using stopNotQuote.symm) rest
  | cons symbol text ih =>
      by_cases opens : symbol = quote
      · subst opens
        rw [List.cons_append, strstr_skip_quote, ih escaped.tail]
        exact not_prefix_escaped nonempty quoteFree escapeFree different escaped
      · have free : quote ∉ [symbol] := by simpa using Ne.symm opens
        exact (strstr_skip_free [symbol] free _).trans (ih escaped.tail)

end Substrings

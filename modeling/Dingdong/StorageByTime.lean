import Dingdong.StorageCore

/-!
The retention rewrite of `dd_storage.c`: look for the first line that is new enough and
copy the log from there. A read error in the search never moves the place it finds.
-/

namespace LeanDingdong

open TextLines

section Atoll

def isDigit (byte : UInt8) : Bool := 48 ≤ byte ∧ byte ≤ 57

/-- The number the leading digits spell behind `value`. -/
def digitsValue (value : Nat) : Bytes → Nat
  | [] => value
  | byte :: rest =>
      if isDigit byte then digitsValue (10 * value + (byte.toNat - 48)) rest else value

def int64Max : Int := 2 ^ 63 - 1

def int64Min : Int := -2 ^ 63

/-- A sign and digits, at most what an `int64_t` holds. -/
def signedDigits : Bytes → Int
  | [] => 0
  | sign :: digits =>
      if sign = 45 then max int64Min (-(digitsValue 0 digits : Int))
      else if sign = 43 then min int64Max (digitsValue 0 digits)
      else min int64Max (digitsValue 0 (sign :: digits))

/-- `atoll`: white space, then the number. -/
def atoll (text : Bytes) : Int := signedDigits (text.dropWhile isSpace)

theorem digitsValue_ge (value : Nat) (text : Bytes) : value ≤ digitsValue value text := by
  induction text generalizing value with
  | nil => exact le_rfl
  | cons byte rest ih =>
      rw [digitsValue]
      split
      · have := ih (10 * value + (byte.toNat - 48))
        omega
      · exact le_rfl

theorem digitsValue_mono (value : Nat) {front text : Bytes} (prefixed : front <+: text) :
    digitsValue value front ≤ digitsValue value text := by
  induction front generalizing value text with
  | nil => exact digitsValue_ge value text
  | cons byte front ih =>
      obtain ⟨rest, rfl⟩ := prefixed
      rw [List.cons_append, digitsValue, digitsValue]
      split
      · exact ih _ (List.prefix_append _ _)
      · exact le_rfl

theorem dropWhile_prefix {passes : UInt8 → Bool} {front text : Bytes} (prefixed : front <+: text) :
    front.dropWhile passes = [] ∨ front.dropWhile passes <+: text.dropWhile passes := by
  induction front generalizing text with
  | nil => exact .inl rfl
  | cons byte front ih =>
      obtain ⟨rest, rfl⟩ := prefixed
      rw [List.cons_append]
      by_cases skipped : passes byte = true
      · simpa [List.dropWhile_cons, skipped] using ih (List.prefix_append _ _)
      · simp [skipped]

theorem signedDigits_mono {front text : Bytes} (prefixed : front <+: text)
    (positive : 0 < signedDigits front) : signedDigits front ≤ signedDigits text := by
  cases front with
  | nil => exact absurd positive (lt_irrefl 0)
  | cons sign digits =>
      obtain ⟨rest, rfl⟩ := prefixed
      have longer := digitsValue_mono 0 (List.prefix_append digits rest)
      have unsigned := digitsValue_mono 0 (List.prefix_append (sign :: digits) rest)
      rw [List.cons_append] at unsigned ⊢
      simp only [signedDigits] at positive ⊢
      split_ifs at positive ⊢
      · have negative : int64Min < 0 := by decide
        omega
      · omega
      · omega

/-- Breaking a positive number off makes it smaller, if anything. -/
theorem atoll_mono {front text : Bytes} (prefixed : front <+: text) (positive : 0 < atoll front) :
    atoll front ≤ atoll text := by
  rcases dropWhile_prefix prefixed with nothing | inside
  · rw [atoll, nothing] at positive
    exact absurd positive (lt_irrefl 0)
  · exact signedDigits_mono inside positive

end Atoll

/-- `parse_ts_from_line` -/
def parseTsFromLine (line : Bytes) : Int :=
  if ascii "\x7b\"ts\":" <+: cstr line then atoll ((cstr line).drop 6) else 0

theorem cstr_front {front text : Bytes} (prefixed : front <+: text) : cstr front <+: cstr text := by
  induction front generalizing text with
  | nil => exact List.nil_prefix
  | cons byte front ih =>
      obtain ⟨rest, rfl⟩ := prefixed
      have later := ih (List.prefix_append front rest)
      rw [cstr] at later ⊢
      rw [List.cons_append, cstr, List.takeWhile_cons, List.takeWhile_cons]
      split
      · exact (List.cons_prefix_cons.mpr ⟨rfl, later⟩)
      · exact List.nil_prefix

theorem parseTsFromLine_mono {front text : Bytes} (prefixed : front <+: text)
    (positive : 0 < parseTsFromLine front) : parseTsFromLine front ≤ parseTsFromLine text := by
  have inside := cstr_front prefixed
  rw [parseTsFromLine] at positive ⊢
  split at positive
  · rename_i stamped
    rw [if_pos stamped, parseTsFromLine, if_pos (stamped.trans inside)]
    exact atoll_mono (inside.drop 6) positive
  · exact absurd positive (lt_irrefl 0)

/-- What can fail in a retention rewrite: the copy reads the file once more. -/
structure RotateFaults extends RewriteFaults where
  /-- the copy yields only this many bytes before a read error -/
  copyStops : Option Nat := none
  deriving DecidableEq

def RotateFaults.none : RotateFaults := {}

/-- Where the first line that is new enough starts, `keep_offset`. -/
def keepOffset (cutoffUnix : Int) : Nat → List Bytes → Option Nat
  | _, [] => none
  | offsetOfLine, buf :: rest =>
      if cutoffUnix ≤ parseTsFromLine buf then some offsetOfLine
      else keepOffset cutoffUnix (offsetOfLine + buf.length) rest

/-- The buffers the search reads lines into. -/
def searchBuffers (file : Bytes) : List Bytes := chunks newline 511 file

/-- `dd_storage_event_rotate_by_time` -/
def eventRotateByTime (faults : RotateFaults) (cutoffUnix : Int) (store : Store) :
    EspErr × Store :=
  if cutoffUnix ≤ 0 then (.invalidArg, store)
  else
    match store.events with
    | .none => (.ok, store)
    | some file =>
        if faults.openIn then (.ok, store)
        else
          match keepOffset cutoffUnix 0 (searchBuffers (readable faults.readStops file)) with
          | .none =>
              -- nothing is new enough, or the search broke off; `unlink` is not looked at
              (.ok, { events := if faults.unlink then store.events else .none, eventCount := 0 })
          | some 0 => (.ok, store)
          | some offset =>
              if faults.openOut then (.fail, store)
              else
                match writeBlocks faults.writeStops
                    (freadBlocks 1024 (readable faults.copyStops (file.drop offset))) with
                | .none => (.fail, store)
                | some written =>
                    if faults.closeOut then (.fail, store)
                    else if faults.rename then (.fail, store)
                    else
                      (.ok, { events := some written
                              eventCount := scanEventCount faults.toRewriteFaults (some written) })

theorem keepOffset_append (cutoffUnix : Int) (offset : Nat) (first second : List Bytes) :
    keepOffset cutoffUnix offset (first ++ second) =
      (keepOffset cutoffUnix offset first).orElse fun _ =>
        keepOffset cutoffUnix (offset + first.flatten.length) second := by
  induction first generalizing offset with
  | nil => simp [keepOffset]
  | cons buf first ih =>
      rw [List.cons_append, keepOffset, keepOffset]
      split
      · rfl
      · rw [ih, List.flatten_cons, List.length_append, Nat.add_assoc]

/-- What a search that broke off finds, the whole search finds. -/
theorem keepOffset_readable {cutoffUnix : Int} (positive : 0 < cutoffUnix) {stops : Option Nat}
    {file : Bytes} {offset : Nat}
    (found : keepOffset cutoffUnix 0 (searchBuffers (readable stops file)) = some offset) :
    keepOffset cutoffUnix 0 (searchBuffers file) = some offset := by
  cases stops with
  | none => exact found
  | some count =>
      have room : 0 < 511 := by decide
      obtain ⟨whole, rest, split, ends⟩ := chunks_take newline room file count
      rw [searchBuffers, readable] at found
      rw [searchBuffers, split, keepOffset_append]
      rcases ends with same | ⟨piece, buf, more, rfl, prefixed, same⟩
      · rw [same] at found
        rw [found]
        rfl
      · rw [same, keepOffset_append] at found
        cases early : keepOffset cutoffUnix 0 whole with
        | some earlier =>
            rw [early] at found
            exact found
        | none =>
            rw [early] at found
            simp only [Option.orElse_none, keepOffset] at found ⊢
            split at found
            · rename_i late
              have recent := late.trans (parseTsFromLine_mono prefixed (positive.trans_le late))
              rw [if_pos recent]
              exact found
            · cases found

end LeanDingdong

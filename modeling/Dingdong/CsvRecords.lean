import Mathlib.Data.List.Basic
import Mathlib.Data.List.Forall2

/-!
Records of separated fields, one to a line. A field may be quoted, and inside the quotes a
separator or a line end is a part of it and a quote is written twice. The reader takes the
text symbol by symbol; what a writer puts between the separators only has to be, each for
itself, the text of a field.
-/

namespace CsvRecords

/-- The symbols with a meaning of their own. -/
structure Dialect (α : Type*) where
  separator : α
  quote : α
  lineFeed : α
  carriageReturn : α
  distinct : [separator, quote, lineFeed, carriageReturn].Nodup

theorem Dialect.lineFeed_ne {α : Type*} (dialect : Dialect α) :
    dialect.lineFeed ≠ dialect.quote ∧ dialect.lineFeed ≠ dialect.separator := by
  have distinct := dialect.distinct
  simp only [List.nodup_cons, List.mem_cons, not_or] at distinct
  exact ⟨fun same => distinct.2.1.1 same.symm, fun same => distinct.1.2.1 same.symm⟩

theorem Dialect.separator_ne_quote {α : Type*} (dialect : Dialect α) :
    dialect.separator ≠ dialect.quote :=
  fun same => (List.nodup_cons.mp dialect.distinct).1 (same ▸ List.mem_cons_self)

inductive Mode where
  /-- at the start of a field -/
  | start
  | bare
  | quoted
  /-- behind a quote in a quoted field: the last one, or the first of two -/
  | closed
  /-- behind a carriage return, before the line feed -/
  | returned
  deriving DecidableEq

/-- Where the running field may end. -/
def Mode.Ending (mode : Mode) : Prop := mode = .start ∨ mode = .bare ∨ mode = .closed

/-- The part of a text that is read: whole records, the fields of the running one and its
running field. -/
structure Reader (α : Type*) where
  mode : Mode
  field : List α
  record : List (List α)
  records : List (List (List α))

namespace Reader

variable {α : Type*}

/-- Between two records. -/
def fresh (records : List (List (List α))) : Reader α :=
  { mode := .start, field := [], record := [], records := records }

def extend (reader : Reader α) (mode : Mode) (symbol : α) : Reader α :=
  { reader with mode := mode, field := reader.field ++ [symbol] }

def endField (reader : Reader α) : Reader α :=
  { reader with mode := .start, field := [], record := reader.record ++ [reader.field] }

def endRecord (reader : Reader α) : Reader α :=
  fresh (reader.records ++ [reader.record ++ [reader.field]])

end Reader

section Read

variable {α : Type*} [DecidableEq α] (dialect : Dialect α)

/-- What ends a field also ends it behind its last quote. -/
def delimit (reader : Reader α) (symbol : α) : Option (Reader α) :=
  if symbol = dialect.separator then some reader.endField
  else if symbol = dialect.lineFeed then some reader.endRecord
  else if symbol = dialect.carriageReturn then some { reader with mode := .returned }
  else none

def step (reader : Reader α) (symbol : α) : Option (Reader α) :=
  match reader.mode with
  | .start =>
      if symbol = dialect.quote then some { reader with mode := .quoted }
      else (delimit dialect reader symbol).or (some (reader.extend .bare symbol))
  | .bare =>
      if symbol = dialect.quote then none
      else (delimit dialect reader symbol).or (some (reader.extend .bare symbol))
  | .quoted =>
      if symbol = dialect.quote then some { reader with mode := .closed }
      else some (reader.extend .quoted symbol)
  | .closed =>
      if symbol = dialect.quote then some (reader.extend .quoted symbol)
      else delimit dialect reader symbol
  | .returned => if symbol = dialect.lineFeed then some reader.endRecord else none

def run (reader : Reader α) (text : List α) : Option (Reader α) := text.foldlM (step dialect) reader

/-- The records at the end of the text; the last line needs no line end. -/
def Reader.finish (reader : Reader α) : Option (List (List (List α))) :=
  match reader.mode with
  | .start => some (if reader.record = [] then reader.records else reader.endRecord.records)
  | .bare => some reader.endRecord.records
  | .closed => some reader.endRecord.records
  | .quoted => none
  | .returned => none

def decode (text : List α) : Option (List (List (List α))) :=
  (run dialect (Reader.fresh []) text).bind Reader.finish

end Read

section Fields

variable {α : Type*} [DecidableEq α] {dialect : Dialect α}

theorem run_append (reader : Reader α) (first second : List α) :
    run dialect reader (first ++ second) =
      (run dialect reader first).bind fun next => run dialect next second :=
  List.foldlM_append

theorem run_cons {reader next : Reader α} {symbol : α}
    (stepped : step dialect reader symbol = some next) (text : List α) :
    run dialect reader (symbol :: text) = run dialect next text := by
  rw [run, List.foldlM_cons, stepped]
  rfl

/-- The text is read as one field, wherever a field may start. -/
def Encodes (dialect : Dialect α) (text field : List α) : Prop :=
  ∀ record records, ∃ mode : Mode, mode.Ending ∧
    run dialect ⟨.start, [], record, records⟩ text = some ⟨mode, field, record, records⟩

/-- None of the symbols with a meaning of their own. -/
def Plain (dialect : Dialect α) (symbol : α) : Prop :=
  symbol ≠ dialect.separator ∧ symbol ≠ dialect.quote ∧ symbol ≠ dialect.lineFeed ∧
    symbol ≠ dialect.carriageReturn

theorem delimit_plain {symbol : α} (plain : Plain dialect symbol) (reader : Reader α) :
    delimit dialect reader symbol = none := by
  obtain ⟨separator, _, lineFeed, carriageReturn⟩ := plain
  rw [delimit, if_neg separator, if_neg lineFeed, if_neg carriageReturn]

theorem run_bare {text : List α} (plain : ∀ symbol ∈ text, Plain dialect symbol) (field : List α)
    (record : List (List α)) (records : List (List (List α))) :
    run dialect ⟨.bare, field, record, records⟩ text =
      some ⟨.bare, field ++ text, record, records⟩ := by
  induction text generalizing field with
  | nil =>
      rw [List.append_nil]
      rfl
  | cons symbol text ih =>
      have first := plain symbol List.mem_cons_self
      have stepped : step dialect ⟨.bare, field, record, records⟩ symbol =
          some ⟨.bare, field ++ [symbol], record, records⟩ := by
        simp only [step, if_neg first.2.1, delimit_plain first, Option.none_or]
        rfl
      rw [run_cons stepped, ih fun other member => plain other (List.mem_cons_of_mem _ member),
        List.append_assoc, List.singleton_append]

/-- A text of ordinary symbols is the field itself. -/
theorem encodes_plain {field : List α} (plain : ∀ symbol ∈ field, Plain dialect symbol) :
    Encodes dialect field field := by
  intro record records
  cases field with
  | nil => exact ⟨.start, .inl rfl, rfl⟩
  | cons symbol field =>
      have first := plain symbol List.mem_cons_self
      have stepped : step dialect ⟨.start, [], record, records⟩ symbol =
          some ⟨.bare, [symbol], record, records⟩ := by
        simp only [step, if_neg first.2.1, delimit_plain first, Option.none_or]
        rfl
      refine ⟨.bare, .inr (.inl rfl), ?_⟩
      rw [run_cons stepped,
        run_bare fun other member => plain other (List.mem_cons_of_mem _ member)]
      rfl

/-- A symbol inside the quotes. -/
def double (dialect : Dialect α) (symbol : α) : List α :=
  if symbol = dialect.quote then [dialect.quote, dialect.quote] else [symbol]

theorem run_quoted (text field : List α) (record : List (List α)) (records : List (List (List α))) :
    run dialect ⟨.quoted, field, record, records⟩ (text.flatMap (double dialect)) =
      some ⟨.quoted, field ++ text, record, records⟩ := by
  induction text generalizing field with
  | nil =>
      rw [List.append_nil]
      rfl
  | cons symbol text ih =>
      have one : run dialect ⟨.quoted, field, record, records⟩ (double dialect symbol) =
          some ⟨.quoted, field ++ [symbol], record, records⟩ := by
        by_cases quote : symbol = dialect.quote
        · simp [double, quote, run, step, Reader.extend]
        · simp [double, quote, run, step, Reader.extend]
      rw [List.flatMap_cons, run_append, one, Option.bind_some, ih, List.append_assoc,
        List.singleton_append]

/-- Any text between quotes, with its quotes doubled, is the field. -/
theorem encodes_quoted (field : List α) :
    Encodes dialect ([dialect.quote] ++ field.flatMap (double dialect) ++ [dialect.quote])
      field := by
  intro record records
  have opened : step dialect ⟨.start, [], record, records⟩ dialect.quote =
      some ⟨.quoted, [], record, records⟩ := if_pos rfl
  have closed : step dialect ⟨.quoted, field, record, records⟩ dialect.quote =
      some ⟨.closed, field, record, records⟩ := if_pos rfl
  refine ⟨.closed, .inr (.inr rfl), ?_⟩
  rw [List.append_assoc, List.singleton_append, run_cons opened, run_append, run_quoted,
    Option.bind_some, List.nil_append, run_cons closed]
  rfl

end Fields

section Rows

variable {α : Type*} [DecidableEq α] {dialect : Dialect α}

/-- A line of texts with separators between them. -/
def line (dialect : Dialect α) (texts : List (List α)) : List α :=
  [dialect.separator].intercalate texts ++ [dialect.lineFeed]

theorem step_delimiter {reader : Reader α} (ending : reader.mode.Ending) {symbol : α}
    {next : Reader α} (delimits : delimit dialect reader symbol = some next)
    (notQuote : symbol ≠ dialect.quote) : step dialect reader symbol = some next := by
  rcases ending with start | bare | closed
  · simp only [step, start, if_neg notQuote, delimits, Option.some_or]
  · simp only [step, bare, if_neg notQuote, delimits, Option.some_or]
  · simp only [step, closed, if_neg notQuote, delimits]

/-- A line of the texts of some fields is read as the record of these fields. -/
theorem run_line {texts fields : List (List α)}
    (encodes : List.Forall₂ (Encodes dialect) texts fields) (nonempty : texts ≠ [])
    (record : List (List α)) (records : List (List (List α))) :
    run dialect ⟨.start, [], record, records⟩ (line dialect texts) =
      some (Reader.fresh (records ++ [record ++ fields])) := by
  induction encodes generalizing record with
  | nil => exact absurd rfl nonempty
  | @cons text field texts fields first rest ih =>
      obtain ⟨mode, ending, read⟩ := first record records
      cases rest with
      | nil =>
          have ended : step dialect ⟨mode, field, record, records⟩ dialect.lineFeed =
              some (Reader.fresh (records ++ [record ++ [field]])) := by
            refine step_delimiter ending ?_ dialect.lineFeed_ne.1
            rw [delimit, if_neg dialect.lineFeed_ne.2, if_pos rfl]
            rfl
          rw [line, List.intercalate_singleton, run_append, read, Option.bind_some, run_cons ended]
          rfl
      | @cons other next others nexts second later =>
          have separated : step dialect ⟨mode, field, record, records⟩ dialect.separator =
              some ⟨.start, [], record ++ [field], records⟩ := by
            refine step_delimiter ending ?_ dialect.separator_ne_quote
            rw [delimit, if_pos rfl]
            rfl
          have split : line dialect (text :: other :: others) =
              text ++ dialect.separator :: line dialect (other :: others) := by
            simp [line, List.intercalate_cons_cons]
          have tail := ih (List.cons_ne_nil _ _) (record ++ [field])
          rw [List.append_assoc, List.singleton_append] at tail
          rw [split, run_append, read, Option.bind_some, run_cons separated, tail]

/-- A text of such lines is read as their records. -/
theorem decode_lines {rows records : List (List (List α))}
    (encodes : List.Forall₂ (List.Forall₂ (Encodes dialect)) rows records)
    (nonempty : ∀ row ∈ rows, row ≠ []) :
    decode dialect (rows.flatMap (line dialect)) = some records := by
  have reads (before : List (List (List α))) :
      run dialect (Reader.fresh before) (rows.flatMap (line dialect)) =
        some (Reader.fresh (before ++ records)) := by
    induction encodes generalizing before with
    | nil =>
        rw [List.append_nil]
        rfl
    | @cons row record rows records first rest ih =>
        have tail := ih (fun other member => nonempty other (List.mem_cons_of_mem _ member))
          (before ++ [record])
        rw [List.append_assoc, List.singleton_append] at tail
        rw [List.flatMap_cons, run_append]
        have head := run_line first (nonempty row List.mem_cons_self) [] before
        rw [List.nil_append] at head
        rw [Reader.fresh, head, Option.bind_some, tail]
  rw [decode, reads, List.nil_append, Option.bind_some]
  exact congrArg some (if_pos rfl)

end Rows

end CsvRecords

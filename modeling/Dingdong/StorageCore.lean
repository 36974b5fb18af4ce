import Dingdong.TextLines
import Dingdong.Util

/-!
The append-only event log of `dd_storage.c`: a LittleFS file read and written
through C streams, and the line count cached beside it. Every function takes the
filesystem steps that fail as a parameter.
-/

namespace LeanDingdong

open TextLines

def newline : UInt8 := 10

def lineBufMax : Nat := 1024

def ddEventsMaxBytes : Nat := 512 * 1024

structure Store where
  /-- `events.jsonl`; `none` when the file does not exist -/
  events : Option Bytes
  /-- `s_event_count` -/
  eventCount : Nat
  deriving DecidableEq

/-- The store of a fresh file system after `dd_storage_init`. -/
def Store.empty : Store := { events := none, eventCount := 0 }

/-- The file's bytes, empty when there is none. -/
def Store.file (store : Store) : Bytes := store.events.getD []

/-- The filesystem steps of one rewrite that fail. -/
structure RewriteFaults where
  openIn : Bool := false
  openOut : Bool := false
  /-- the input yields only this many bytes before a read error -/
  readStops : Option Nat := none
  /-- the number of complete writes before a short one -/
  writeStops : Option Nat := none
  closeOut : Bool := false
  rename : Bool := false
  unlink : Bool := false
  /-- the recount cannot open the file -/
  openScan : Bool := false
  scanStops : Option Nat := none
  deriving DecidableEq

def RewriteFaults.none : RewriteFaults := {}

/-- The bytes a stream yields when reads fail from offset `stops` on. -/
def readable (stops : Option Nat) (stream : Bytes) : Bytes :=
  match stops with
  | .none => stream
  | some count => stream.take count

/-- Write the blocks one after another; `none` at the first short write. -/
def writeBlocks : Option Nat → List Bytes → Option Bytes
  | _, [] => some []
  | some 0, _ :: _ => .none
  | stops, block :: rest => (writeBlocks (stops.map (· - 1)) rest).map (block ++ ·)

def scanEventCount (faults : RewriteFaults) (events : Option Bytes) : Nat :=
  match events with
  | .none => 0
  | some file => if faults.openScan then 0 else (readable faults.scanStops file).count newline

/-- `rotate_events_locked`: keep the newest half, from the next line boundary. -/
def rotateEvents (faults : RewriteFaults) (store : Store) : EspErr × Store :=
  match store.events with
  | .none => (.ok, store)
  | some file =>
      if faults.openIn then (.ok, store)
      else
        let size := file.length
        let targetKeep := size / 2
        -- a read error ends the skip loop and the copy loop as the end of file does
        let stream := (readable faults.readStops file).drop (size - targetKeep)
        let rest := skipLine newline stream
        if faults.openOut then (.fail, store)
        else match writeBlocks faults.writeStops (freadBlocks 1024 rest) with
        | .none => (.fail, store)
        | some written =>
            if faults.closeOut then (.fail, store)
            else if faults.rename then (.fail, store)
            else (.ok, { store with events := some written })

structure AppendFaults where
  rotate : RewriteFaults := {}
  openAppend : Bool := false
  /-- a short write: only this many bytes of the line and its newline reach the file -/
  short : Option Nat := none
  deriving DecidableEq

def AppendFaults.none : AppendFaults := {}

/-- The size check of an append: rotate when the file is over the cap, then recount. -/
def rotateIfOver (faults : RewriteFaults) (store : Store) : Store :=
  match store.events with
  | .none => store
  | some file =>
      if ddEventsMaxBytes < file.length then
        let rotated := (rotateEvents faults store).2
        { rotated with eventCount := scanEventCount faults rotated.events }
      else store

def eventAppend (faults : AppendFaults) (jsonLine : Bytes) (store : Store) : EspErr × Store :=
  let line := cstr jsonLine
  if line.length = 0 ∨ lineBufMax < line.length then (.invalidArg, store)
  else
    let store := rotateIfOver faults.rotate store
    if faults.openAppend then (.fail, store)
    else match faults.short with
    | some count =>
        (.fail, { store with events := some (store.file ++ (line ++ [newline]).take count) })
    | .none =>
        (.ok, { events := some (store.file ++ (line ++ [newline]))
                eventCount := store.eventCount + 1 })

/-- One buffer of the iterator with its newline stripped. -/
def stripNewline (buffer : Bytes) : Bytes :=
  if buffer.getLast? = some newline then buffer.dropLast else buffer

section Iteration

variable {σ : Type}

/-- Call back per line until a callback does not return `ESP_OK`. -/
def callEach (cb : Bytes → σ → EspErr × σ) : List Bytes → σ → EspErr × σ
  | [], state => (.ok, state)
  | line :: rest, state =>
      match cb line state with
      | (.ok, next) => callEach cb rest next
      | (err, next) => (err, next)

/-- The lines the iterator's buffer of `LINE_BUF_MAX + 1` bytes yields: an empty
buffer is passed over. -/
def iterLines (file : Bytes) : List Bytes :=
  ((chunks newline lineBufMax file).map fun buffer => stripNewline (cstr buffer)).filter
    (· ≠ [])

def eventIter (cb : Bytes → σ → EspErr × σ) (state : σ) (store : Store) : EspErr × σ :=
  match store.events with
  | .none => (.ok, state)
  | some file => callEach cb (iterLines file) state

theorem eventIter_lines (cb : Bytes → σ → EspErr × σ) (state : σ) (store : Store) :
    eventIter cb state store = callEach cb (iterLines store.file) state := by
  rw [eventIter, Store.file]
  cases store.events <;> rfl

end Iteration

def eventWipe (unlinkFails : Bool) (store : Store) : EspErr × Store :=
  match store.events with
  | .none => (.ok, { store with eventCount := 0 })
  | some _ => if unlinkFails then (.fail, store) else (.ok, { events := .none, eventCount := 0 })

/-- The rewrite shared by the two deletes: copy every `fgets` buffer of
`LINE_BUF_MAX` bytes that does not match, count the buffers kept. -/
def deleteMatching (faults : RewriteFaults) (hit : Bytes → Bool) (store : Store) :
    EspErr × Store :=
  match store.events with
  | .none => (.ok, store)
  | some file =>
      if faults.openIn then (.ok, store)
      else if faults.openOut then (.fail, store)
      else
        let buffers := (chunks newline (lineBufMax - 1) (readable faults.readStops file)).map cstr
        let kept := buffers.filter fun buffer => !hit buffer
        let dropped := buffers.filter hit
        match writeBlocks faults.writeStops kept with
        | .none => (.fail, store)
        | some written =>
            if faults.closeOut then (.fail, store)
            else if dropped.length = 0 then (.ok, store)
            else if kept.length = 0 then
              (.ok, { events := if faults.unlink then store.events else .none, eventCount := 0 })
            else if faults.rename then (.fail, store)
            else (.ok, { events := some written, eventCount := kept.length })

end LeanDingdong

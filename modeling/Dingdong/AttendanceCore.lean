import Dingdong.EventCore
import Dingdong.SlotTable

/-!
The attendance views of `dd_http_attendance.c`: the paired segments and the summary
of the day, each a fold over the lines of the event log. A line is taken as
`cJSON_Parse` reads it, and what a view sends is kept as a list.
-/

namespace LeanDingdong

open SlotTable

/-- The members of a parsed line a view looks at; `none` when absent or of another type. -/
structure JsonEvent where
  type : Option Bytes
  ts : Option Int
  monoUs : Option Int
  workerId : Option Int
  peer : Option Bytes
  src : Option Bytes
  deriving DecidableEq

/-- `(uint16_t)` -/
def castU16 (value : Int) : Nat := (value % 65536).toNat

/-- `(int)` -/
def castInt (value : Int) : Int := value.bmod (2 ^ 32)

theorem castInt_exact {value : Int} (low : -2 ^ 31 ≤ value) (high : value < 2 ^ 31) :
    castInt value = value := by
  rw [castInt]
  exact Int.bmod_eq_of_le (by omega) (by omega)

/-- The peer text as address and whether it is one. -/
def readPeer (peer : Option Bytes) : Addr × Bool :=
  match peer.bind scanMac with
  | some addr => (addr, true)
  | none => (Addr.zero, false)

def readWorkerId (workerId : Option Int) : Nat := (workerId.map castU16).getD 0

section Paired

abbrev pairMaxOpen : Nat := 16

structure PairOpen where
  workerId : Nat
  addr : Addr
  hasAddr : Bool
  inTs : Int
  inMono : Int
  inSrc : Bytes
  deriving DecidableEq

/-- A slot after `memset`. -/
def PairOpen.zero : PairOpen :=
  { workerId := 0, addr := Addr.zero, hasAddr := false, inTs := 0, inMono := 0, inSrc := [] }

/-- `in_ts != 0` marks a slot in use. -/
def PairOpen.live (entry : PairOpen) : Bool := entry.inTs ≠ 0

/-- One segment as `emit_segment` sends it; `out` is `none` for an open one. -/
structure Segment where
  workerId : Nat
  peer : Option Addr
  inTs : Int
  inSrc : Bytes
  out : Option (Int × Bytes)
  deriving DecidableEq

def PairOpen.segment (entry : PairOpen) (out : Option (Int × Bytes)) : Segment where
  workerId := entry.workerId
  peer := if entry.hasAddr then some entry.addr else none
  inTs := entry.inTs
  inSrc := entry.inSrc
  out := out

structure PairCtx where
  fromTs : Int
  toTs : Int
  opens : Fin pairMaxOpen → PairOpen
  /-- the segments sent so far -/
  segments : List Segment

def PairCtx.start (fromTs toTs : Int) : PairCtx :=
  { fromTs := fromTs, toTs := toTs, opens := fun _ => PairOpen.zero, segments := [] }

def findOpenSlot (opens : Fin pairMaxOpen → PairOpen) (workerId : Nat) (addr : Addr)
    (hasAddr : Bool) : Option (Fin pairMaxOpen) :=
  first fun slot =>
    (opens slot).live &&
      ((decide (workerId ≠ 0) && (opens slot).workerId == workerId) ||
        (decide (workerId = 0) && hasAddr && (opens slot).hasAddr && (opens slot).addr == addr))

def findFreeSlot (opens : Fin pairMaxOpen → PairOpen) : Option (Fin pairMaxOpen) :=
  first fun slot => !(opens slot).live

/-- The slot with the smallest `in_ts`, the lowest of them. -/
def oldestSlot (opens : Fin pairMaxOpen → PairOpen) : Fin pairMaxOpen :=
  (List.finRange pairMaxOpen).foldl
    (fun slot other => if (opens other).inTs < (opens slot).inTs then other else slot) 0

/-- Send the slot's segment and free the slot. -/
def PairCtx.close (ctx : PairCtx) (slot : Fin pairMaxOpen) (out : Option (Int × Bytes)) :
    PairCtx :=
  { ctx with
    segments := ctx.segments ++ [(ctx.opens slot).segment out]
    opens := Function.update ctx.opens slot PairOpen.zero }

/-- `ts > 0 ? ts : mono / 1000000` -/
def eventTime (ts mono : Int) : Int := if 0 < ts then ts else mono.tdiv 1000000

/-- Take a free slot, or write over the oldest one. -/
def PairCtx.fill (ctx : PairCtx) (entry : PairOpen) : PairCtx :=
  let slot := (findFreeSlot ctx.opens).getD (oldestSlot ctx.opens)
  { ctx with opens := Function.update ctx.opens slot entry }

/-- The IN branch of `paired_iter_cb`. -/
def pairIn (ctx : PairCtx) (entry : PairOpen) : PairCtx :=
  match findOpenSlot ctx.opens entry.workerId entry.addr entry.hasAddr with
  | some existing => (ctx.close existing none).fill entry
  | none => ctx.fill entry

/-- The OUT branch of `paired_iter_cb`. -/
def pairOut (ctx : PairCtx) (workerId : Nat) (addr : Addr) (hasAddr : Bool)
    (out : Int × Bytes) : PairCtx :=
  match findOpenSlot ctx.opens workerId addr hasAddr with
  | some slot => ctx.close slot (some out)
  | none => ctx

def pairedIterCb (ctx : PairCtx) (line : Option JsonEvent) : PairCtx :=
  match line with
  | none => ctx
  | some json =>
      match json.type, json.ts with
      | some type, some ts =>
          let mono := json.monoUs.getD 0
          let workerId := readWorkerId json.workerId
          if (ctx.fromTs ≠ 0 ∧ ts < ctx.fromTs) ∨ (ctx.toTs ≠ 0 ∧ ctx.toTs ≤ ts) then ctx
          else
            let (addr, hasAddr) := readPeer json.peer
            let src := json.src.getD (ascii "?")
            if type = ascii "in" then
              pairIn ctx
                { workerId := workerId, addr := addr, hasAddr := hasAddr,
                  inTs := eventTime ts mono, inMono := mono, inSrc := src.take 15 }
            else pairOut ctx workerId addr hasAddr (eventTime ts mono, src)
      | _, _ => ctx

/-- The pass over the slots still open after the last line. -/
def PairCtx.finish (ctx : PairCtx) : List Segment :=
  ctx.segments ++ (contents PairOpen.live ctx.opens).map fun entry => entry.segment none

/-- The lines of a log through `paired_iter_cb`. -/
def pairedRun (fromTs toTs : Int) (lines : List (Option JsonEvent)) : PairCtx :=
  lines.foldl pairedIterCb (PairCtx.start fromTs toTs)

/-- What `events_paired_get` sends. -/
def pairedView (lines : List (Option JsonEvent)) : List Segment := (pairedRun 0 0 lines).finish

end Paired

section Today

def todayMaxWorkers : Nat := 16

structure TodayWorker where
  workerId : Nat
  addr : Addr
  hasAddr : Bool
  inTs : Int
  inSrc : Bytes
  totalSeconds : Int
  segments : Nat
  currentlyIn : Bool
  deriving DecidableEq

def TodayWorker.new (workerId : Nat) (addr : Addr) (hasAddr : Bool) : TodayWorker where
  workerId := workerId
  addr := if hasAddr then addr else Addr.zero
  hasAddr := hasAddr
  inTs := 0
  inSrc := []
  totalSeconds := 0
  segments := 0
  currentlyIn := false

/-- The entry of the event's worker and the list that holds it; `none` when the list
is full. -/
def todayGetOrCreate (list : List TodayWorker) (workerId : Nat) (addr : Addr) (hasAddr : Bool) :
    Option (Nat × List TodayWorker) :=
  match list.findIdx? fun entry =>
      (decide (workerId ≠ 0) && entry.workerId == workerId) ||
        (decide (workerId = 0) && hasAddr && entry.hasAddr && entry.addr == addr) with
  | some index => some (index, list)
  | none =>
      if todayMaxWorkers ≤ list.length then none
      else some (list.length, list ++ [TodayWorker.new workerId addr hasAddr])

/-- The duration guard: what `dur` adds to the total. -/
def countedSeconds (dur : Int) : Int := if 0 < dur ∧ dur < 86400 then dur else 0

/-- The change one event makes to its worker's entry. -/
def TodayWorker.event (isIn : Bool) (ts : Int) (src : Option Bytes) (entry : TodayWorker) :
    TodayWorker :=
  if isIn then
    { entry with
      inTs := ts
      currentlyIn := true
      inSrc := match src with
        | some src => src.take 15
        | none => entry.inSrc }
  else if 0 < entry.inTs then
    { entry with
      totalSeconds := entry.totalSeconds + countedSeconds (castInt (ts - entry.inTs))
      segments := entry.segments + 1
      inTs := 0
      currentlyIn := false }
  else entry

def todayIterCb (cutoffTs : Int) (list : List TodayWorker) (line : Option JsonEvent) :
    List TodayWorker :=
  match line with
  | none => list
  | some json =>
      match json.type, json.ts with
      | some type, some ts =>
          if ts < cutoffTs then list
          else
            let (addr, hasAddr) := readPeer json.peer
            match todayGetOrCreate list (readWorkerId json.workerId) addr hasAddr with
            | none => list
            | some (index, list) => list.modify index (TodayWorker.event (type = ascii "in") ts json.src)
      | _, _ => list

/-- The running segment of `today_get`, up to now. -/
def TodayWorker.upToNow (nowTs : Int) (entry : TodayWorker) : TodayWorker :=
  if 0 < entry.inTs then
    { entry with
      totalSeconds := entry.totalSeconds + countedSeconds (castInt (nowTs - entry.inTs)) }
  else entry

def todayRun (cutoffTs : Int) (lines : List (Option JsonEvent)) : List TodayWorker :=
  lines.foldl (todayIterCb cutoffTs) []

/-- The workers `today_get` reports. -/
def todayGet (cutoffTs nowTs : Int) (lines : List (Option JsonEvent)) : List TodayWorker :=
  (todayRun cutoffTs lines).map (TodayWorker.upToNow nowTs)

end Today

/-- An event of a registered worker as a view reads it from the log. -/
structure LogEvent where
  type : EventType
  ts : Int
  workerId : Nat
  monoUs : Option Int
  peer : Option Bytes
  src : Option Bytes
  tsPos : 0 < ts
  workerPos : 0 < workerId
  workerShort : workerId < 65536

def LogEvent.json (event : LogEvent) : JsonEvent where
  type := some (eventTypeStr event.type)
  ts := some event.ts
  monoUs := event.monoUs
  workerId := some event.workerId
  peer := event.peer
  src := event.src

/-- The lines of a log of events. -/
def logLines (log : List LogEvent) : List (Option JsonEvent) := log.map fun event => some event.json

namespace LogEvent

variable (event : LogEvent)

def srcText : Bytes := event.src.getD (ascii "?")

/-- The slot an IN event fills. -/
def opened : PairOpen where
  workerId := event.workerId
  addr := (readPeer event.peer).1
  hasAddr := (readPeer event.peer).2
  inTs := event.ts
  inMono := event.monoUs.getD 0
  inSrc := event.srcText.take 15

@[simp] theorem opened_live : event.opened.live = true := by
  simp [opened, PairOpen.live, event.tsPos.ne']

@[simp] theorem readWorkerId_json : readWorkerId event.json.workerId = event.workerId := by
  have := event.workerShort
  simp only [readWorkerId, json, Option.map_some, Option.getD_some, castU16]
  omega

end LogEvent

/-- `paired_iter_cb` on an event in its window. -/
def pairStep (ctx : PairCtx) (event : LogEvent) : PairCtx :=
  match event.type with
  | .evIn => pairIn ctx event.opened
  | .evOut => pairOut ctx event.workerId event.opened.addr event.opened.hasAddr
      (event.ts, event.srcText)

/-- The event is not cut off by `from_ts` and `to_ts`. -/
def PairCtx.Covers (ctx : PairCtx) (event : LogEvent) : Prop :=
  (ctx.fromTs = 0 ∨ ctx.fromTs ≤ event.ts) ∧ ctx.toTs = 0

theorem pairedIterCb_json {ctx : PairCtx} {event : LogEvent} (covers : ctx.Covers event) :
    pairedIterCb ctx (some event.json) = pairStep ctx event := by
  have inside : ¬ ((ctx.fromTs ≠ 0 ∧ event.ts < ctx.fromTs) ∨
      (ctx.toTs ≠ 0 ∧ ctx.toTs ≤ event.ts)) := by
    have := covers.1
    have := covers.2
    omega
  have worker := event.readWorkerId_json
  simp only [LogEvent.json] at worker
  have other : ascii "out" ≠ ascii "in" := by decide
  cases type : event.type <;>
    simp only [pairStep, pairedIterCb, LogEvent.json, type, eventTypeStr, worker, eventTime,
      event.tsPos, if_true, if_neg inside, if_neg other, LogEvent.opened, LogEvent.srcText]

theorem pairStep_window (ctx : PairCtx) (event : LogEvent) :
    (pairStep ctx event).fromTs = ctx.fromTs ∧ (pairStep ctx event).toTs = ctx.toTs := by
  rw [pairStep]
  split
  · rw [pairIn]
    split <;> exact ⟨rfl, rfl⟩
  · rw [pairOut]
    split <;> exact ⟨rfl, rfl⟩

/-- Over a log inside the window the callback is `pairStep`. -/
theorem foldl_pairedIterCb {ctx : PairCtx} {log : List LogEvent}
    (covers : ∀ event ∈ log, ctx.Covers event) :
    (logLines log).foldl pairedIterCb ctx = log.foldl pairStep ctx := by
  induction log generalizing ctx with
  | nil => rfl
  | cons event rest ih =>
      have window := pairStep_window ctx event
      rw [logLines, List.map_cons, List.foldl_cons, List.foldl_cons,
        pairedIterCb_json (covers event (by simp))]
      refine ih fun other member => ?_
      rw [PairCtx.Covers, window.1, window.2]
      exact covers other (by simp [member])

end LeanDingdong

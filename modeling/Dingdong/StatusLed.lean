import Dingdong.Runs
import Dingdong.WifiGiveup

/-!
The status LED of `dd_led.c`: one logical state, drawn by two backends that skip a write of
the value they wrote last. The skipping is seen by nobody, the backends are dark at the same
moments, and two seconds of either tell the state as far as colours are not needed.
-/

namespace LeanDingdong

open Runs

def heapCritBytes : Nat := 20480

/-- `led_state_t` -/
inductive LedState where
  | off
  | heapCrit
  | pairing
  | ap
  | staDown
  | staNoNtp
  | ok
  deriving DecidableEq

/-- What `compute_state` asks the other components. -/
structure LedInputs where
  freeHeap : Nat
  pairing : Bool
  wifi : WifiState
  synced : Bool

def computeState (inputs : LedInputs) : LedState :=
  if inputs.freeHeap < heapCritBytes then .heapCrit
  else if inputs.pairing then .pairing
  else
    match inputs.wifi with
    | .ap => .ap
    | .staConnecting | .down => .staDown
    | .staGotIp => if inputs.synced then .ok else .staNoNtp

section Render

/-- Toggles every 200 ms. -/
def fastOn (tick : UInt32) : Bool := tick.toNat / 2 % 2 = 1

/-- Toggles every second. -/
def slowOn (tick : UInt32) : Bool := tick.toNat / 10 % 2 = 1

/-- Up to 10 and down again within two seconds. -/
def breath (tick : UInt32) : Nat :=
  let phase := tick.toNat % 20
  if phase < 10 then phase else 20 - phase

structure Rgb where
  red : UInt8
  green : UInt8
  blue : UInt8
  deriving DecidableEq

namespace Rgb

def dark : Rgb := ⟨0, 0, 0⟩

/-- A channel times `num / den`. -/
def scaleChannel (value : UInt8) (num den : Nat) : UInt8 := UInt8.ofNat (value.toNat * num / den)

def scale (colour : Rgb) (num den : Nat) : Rgb where
  red := scaleChannel colour.red num den
  green := scaleChannel colour.green num den
  blue := scaleChannel colour.blue num den

end Rgb

variable (brightness : UInt8)

/-- The colour `render` pushes to the pixel. -/
def renderRgb (state : LedState) (tick : UInt32) : Rgb :=
  match state with
  | .off => .dark
  | .heapCrit => if fastOn tick then ⟨brightness, 0, 0⟩ else .dark
  | .pairing => if fastOn tick then ⟨0, brightness, brightness⟩ else .dark
  | .ap => Rgb.scale ⟨brightness, 0, brightness⟩ (breath tick) 10
  | .staDown => if fastOn tick then ⟨0, 0, brightness⟩ else .dark
  | .staNoNtp => if slowOn tick then ⟨brightness, brightness, 0⟩ else .dark
  | .ok => ⟨0, brightness, 0⟩

def dutyBlink : UInt8 := 180

def dutyFull : UInt8 := 255

/-- The duty `render` sets for the plain LED. -/
def renderDuty (state : LedState) (tick : UInt32) : UInt8 :=
  match state with
  | .off => 0
  | .heapCrit => if fastOn tick then dutyFull else 0
  | .pairing => if fastOn tick then dutyBlink else 0
  | .ap => UInt8.ofNat (breath tick * 12)
  | .staDown => if fastOn tick then dutyBlink else 0
  | .staNoNtp => if slowOn tick then dutyBlink else 0
  | .ok => brightness

end Render

/-- A backend of the LED. -/
structure LedBackend (α : Type) where
  /-- what `s_last` holds before the first write -/
  sentinel : α
  dark : α
  render : LedState → UInt32 → α

/-- `DD_LED_KIND == 1` -/
def ws2812 (brightness : UInt8) : LedBackend Rgb where
  sentinel := ⟨255, 255, 255⟩
  dark := .dark
  render := renderRgb brightness

/-- `DD_LED_KIND == 2` -/
def ledc (brightness : UInt8) : LedBackend UInt8 where
  sentinel := 255
  dark := 0
  render := renderDuty brightness

structure Led (α : Type) where
  tick : UInt32
  enabled : Bool
  /-- the value written last -/
  last : α
  /-- what the LED shows -/
  shown : α

inductive LedEvent where
  | tick (inputs : LedInputs)
  | setEnabled (enabled : Bool)

section Led

variable {α : Type} [DecidableEq α] (backend : LedBackend α)

/-- `dd_led_init` -/
def Led.init (enabled : Bool) : Led α where
  tick := 0
  enabled := enabled
  last := backend.sentinel
  shown := backend.dark

/-- `push` and `set_duty`: nothing is written when it is what was written last. -/
def Led.push (led : Led α) (value : α) : Led α :=
  if value = led.last then led else { led with last := value, shown := value }

/-- `tick_cb` -/
def Led.tickCb (led : Led α) (inputs : LedInputs) : Led α :=
  let led := { led with tick := led.tick + 1 }
  if led.enabled then led.push (backend.render (computeState inputs) led.tick)
  else led.push backend.dark

/-- `dd_led_set_enabled`, as far as the LED is concerned. -/
def Led.setEnabled (led : Led α) (enabled : Bool) : Led α :=
  let led := { led with enabled := enabled }
  if enabled then led else led.push backend.dark

def Led.step (led : Led α) : LedEvent → Led α
  | .tick inputs => led.tickCb backend inputs
  | .setEnabled enabled => led.setEnabled backend enabled

end Led

/-- What an LED is meant to show: it forgets nothing and skips nothing. -/
structure PlainLed (α : Type) where
  tick : UInt32
  enabled : Bool
  shown : α

namespace PlainLed

variable {α : Type} (backend : LedBackend α)

def init (enabled : Bool) : PlainLed α := { tick := 0, enabled := enabled, shown := backend.dark }

def step (plain : PlainLed α) : LedEvent → PlainLed α
  | .tick inputs =>
      { plain with
        tick := plain.tick + 1
        shown := if plain.enabled then
          backend.render (computeState inputs) (plain.tick + 1) else backend.dark }
  | .setEnabled enabled =>
      { plain with
        enabled := enabled
        shown := if enabled then plain.shown else backend.dark }

end PlainLed

section Cache

variable {α : Type} [DecidableEq α] {backend : LedBackend α} {led : Led α} {plain : PlainLed α}

/-- The first write is not taken for one made before. -/
def LedBackend.Fresh (backend : LedBackend α) : Prop :=
  backend.dark ≠ backend.sentinel ∧ ∀ state, backend.render state 1 ≠ backend.sentinel

/-- The LED shows what is meant, and knows it once something was written. -/
structure Mirrors (backend : LedBackend α) (led : Led α) (plain : PlainLed α) : Prop where
  tick : led.tick = plain.tick
  enabled : led.enabled = plain.enabled
  shown : led.shown = plain.shown
  last : led.last = led.shown ∨ led.last = backend.sentinel ∧ led.tick = 0

omit [DecidableEq α] in
theorem Mirrors.init (backend : LedBackend α) (enabled : Bool) :
    Mirrors backend (Led.init backend enabled) (PlainLed.init backend enabled) :=
  ⟨rfl, rfl, rfl, .inr ⟨rfl, rfl⟩⟩

theorem Led.push_cases (led : Led α) (value : α) :
    (led.push value).tick = led.tick ∧ (led.push value).enabled = led.enabled ∧
      (led.push value).last = value ∧
      (led.push value).shown = if value = led.last then led.shown else value := by
  rw [push]
  split_ifs with same
  · exact ⟨rfl, rfl, same.symm, rfl⟩
  · exact ⟨rfl, rfl, rfl, rfl⟩

/-- A value that is skipped is the value shown. -/
theorem Mirrors.push_shown (mirrors : Mirrors backend led plain) {value : α}
    (fresh : led.tick = 0 → value ≠ backend.sentinel) :
    (if value = led.last then led.shown else value) = value := by
  split_ifs with same
  · rcases mirrors.last with known | ⟨unwritten, start⟩
    · exact known.symm.trans same.symm
    · exact absurd (same.trans unwritten) (fresh start)
  · rfl

theorem Mirrors.step (fresh : backend.Fresh) (mirrors : Mirrors backend led plain)
    (event : LedEvent) :
    Mirrors backend (led.step backend event) (plain.step backend event) := by
  have written (value : α) (first : led.tick = 0 → value ≠ backend.sentinel) (tick : UInt32)
      (enabled : Bool) : Mirrors backend ({ led with tick := tick, enabled := enabled }.push value)
        { tick := tick, enabled := enabled, shown := value } := by
    obtain ⟨sameTick, sameEnabled, last, shown⟩ :=
      Led.push_cases { led with tick := tick, enabled := enabled } value
    have meant : ({ led with tick := tick, enabled := enabled }.push value).shown = value :=
      shown.trans (mirrors.push_shown first)
    exact ⟨sameTick, sameEnabled, meant, .inl (last.trans meant.symm)⟩
  cases event with
  | tick inputs =>
      have first : led.tick = 0 →
          backend.render (computeState inputs) (led.tick + 1) ≠ backend.sentinel := by
        intro start
        rw [start]
        exact fresh.2 _
      rw [Led.step, Led.tickCb, PlainLed.step, ← mirrors.tick, ← mirrors.enabled]
      dsimp only
      split_ifs
      · exact written _ first _ _
      · exact written _ (fun _ => fresh.1) _ _
  | setEnabled enabled =>
      rw [Led.step, Led.setEnabled, PlainLed.step, ← mirrors.tick]
      split_ifs
      · exact ⟨rfl, rfl, mirrors.shown, mirrors.last⟩
      · exact written _ (fun _ => fresh.1) _ _

theorem Mirrors.kept (fresh : backend.Fresh) (mirrors : Mirrors backend led plain)
    (events : List LedEvent) : Mirrors backend (run (Led.step backend) led events)
      (run (PlainLed.step backend) plain events) := by
  induction events using List.reverseRecOn with
  | nil => exact mirrors
  | append_singleton past event ih =>
      rw [run_append, run_append, run_cons, run_nil, run_cons, run_nil]
      exact ih.step fresh event

end Cache

section Backends

variable {brightness : UInt8}

theorem breath_le (tick : UInt32) : breath tick ≤ 10 := by
  rw [breath]
  split_ifs <;> omega

theorem fastOn_one : fastOn 1 = false := by decide

theorem slowOn_one : slowOn 1 = false := by decide

/-- No colour of the pixel is white. -/
theorem ws2812_fresh (brightness : UInt8) : (ws2812 brightness).Fresh := by
  refine ⟨(by decide : Rgb.dark ≠ ⟨255, 255, 255⟩), fun state => ?_⟩
  have green (colour : Rgb) (dark : colour.green = 0) : colour ≠ ⟨255, 255, 255⟩ := by
    rintro rfl
    exact absurd dark (by decide)
  have red (colour : Rgb) (dark : colour.red = 0) : colour ≠ ⟨255, 255, 255⟩ := by
    rintro rfl
    exact absurd dark (by decide)
  cases state with
  | ok => exact red _ rfl
  | ap => exact green _ (by simp [ws2812, renderRgb, Rgb.scale, Rgb.scaleChannel])
  | off => exact green _ rfl
  | heapCrit | pairing | staDown | staNoNtp =>
      exact green _ (by simp [ws2812, renderRgb, fastOn_one, slowOn_one, Rgb.dark])

/-- The first duty is taken for one written before if it is 255. -/
theorem ledc_fresh_iff (brightness : UInt8) : (ledc brightness).Fresh ↔ brightness ≠ 255 := by
  constructor
  · exact fun fresh => fresh.2 .ok
  · intro dimmed
    refine ⟨(by decide : (0 : UInt8) ≠ 255), fun state => ?_⟩
    cases state with
    | ok => exact dimmed
    | ap => exact (by decide : UInt8.ofNat (breath 1 * 12) ≠ 255)
    | off => exact (by decide : (0 : UInt8) ≠ 255)
    | heapCrit | pairing | staDown | staNoNtp =>
        simp [ledc, renderDuty, fastOn_one, slowOn_one]

/-- From a brightness of 10 on, both backends are dark at the same ticks. -/
theorem render_dark_iff (bright : 10 ≤ brightness) (state : LedState) (tick : UInt32) :
    renderRgb brightness state tick = .dark ↔ renderDuty brightness state tick = 0 := by
  have lit : brightness ≠ 0 := by
    rintro rfl
    exact absurd bright (by decide)
  have blink : dutyBlink ≠ 0 := by decide
  have full : dutyFull ≠ 0 := by decide
  cases state with
  | off => exact iff_of_true rfl rfl
  | heapCrit | pairing | staDown | staNoNtp =>
      simp only [renderRgb, renderDuty]
      split_ifs <;> simp [Rgb.dark, lit, blink, full]
  | ok => simp [renderRgb, renderDuty, Rgb.dark, lit]
  | ap =>
      have most := breath_le tick
      have level := UInt8.le_iff_toNat_le.mp bright
      have top := brightness.toNat_lt
      have product : brightness.toNat * breath tick ≤ 255 * 10 :=
        Nat.mul_le_mul (by omega) most
      have least : 10 * breath tick ≤ brightness.toNat * breath tick :=
        Nat.mul_le_mul_right _ level
      have channel : Rgb.scaleChannel brightness (breath tick) 10 = 0 ↔ breath tick = 0 := by
        rw [Rgb.scaleChannel, ← UInt8.toNat_inj, UInt8.toNat_ofNat']
        refine ⟨fun zero => ?_, fun zero => by simp [zero]⟩
        replace zero : brightness.toNat * breath tick / 10 % 256 = 0 := zero
        omega
      have duty : UInt8.ofNat (breath tick * 12) = 0 ↔ breath tick = 0 := by
        rw [← UInt8.toNat_inj, UInt8.toNat_ofNat']
        refine ⟨fun zero => ?_, fun zero => by simp [zero]⟩
        replace zero : breath tick * 12 % 256 = 0 := zero
        omega
      have middle : Rgb.scaleChannel 0 (breath tick) 10 = 0 := by simp [Rgb.scaleChannel]
      rw [renderRgb, renderDuty, Rgb.scale, Rgb.dark, Rgb.mk.injEq]
      dsimp only
      rw [channel, middle, duty]
      exact ⟨fun dark => dark.1, fun dark => ⟨dark, rfl, dark⟩⟩

end Backends

section Shown

variable {brightness : UInt8} {enabled : Bool} {events : List LedEvent}

/-- The LED of a backend after a run. -/
def ledAfter {α : Type} [DecidableEq α] (backend : LedBackend α) (enabled : Bool)
    (events : List LedEvent) : Led α :=
  run (Led.step backend) (Led.init backend enabled) events

/-- What it is meant to show. -/
def plainAfter {α : Type} (backend : LedBackend α) (enabled : Bool) (events : List LedEvent) :
    PlainLed α :=
  run (PlainLed.step backend) (PlainLed.init backend enabled) events

theorem Mirrors.reached {α : Type} [DecidableEq α] {backend : LedBackend α}
    (fresh : backend.Fresh) (enabled : Bool) (events : List LedEvent) :
    Mirrors backend (ledAfter backend enabled events) (plainAfter backend enabled events) :=
  (Mirrors.init backend enabled).kept fresh events

/-- The network is up and the clock is set. -/
def allGood : LedInputs where
  freeHeap := 200000
  pairing := false
  wifi := .staGotIp
  synced := true

/-- The device waits for its setup. -/
def inSetup : LedInputs := { allGood with wifi := .ap }

/-- Skipping the write of what was written last is seen by nobody: in every run of ticks and
switches the pixel shows what an LED that skips nothing does, and the plain LED does so in
every run exactly when the brightness is not the value its driver starts with. -/
theorem led_shows (brightness : UInt8) :
    (∀ enabled events, (ledAfter (ws2812 brightness) enabled events).shown =
      (plainAfter (ws2812 brightness) enabled events).shown) ∧
    ((∀ enabled events, (ledAfter (ledc brightness) enabled events).shown =
      (plainAfter (ledc brightness) enabled events).shown) ↔ brightness ≠ 255) := by
  have fresh := ws2812_fresh brightness
  refine ⟨fun enabled events => (Mirrors.reached fresh enabled events).shown, ?_, ?_⟩
  · rintro same rfl
    exact absurd (same true [.tick allGood]) (by decide)
  · intro dimmed enabled events
    exact (Mirrors.reached ((ledc_fresh_iff brightness).mpr dimmed) enabled events).shown

theorem plain_dark_iff (bright : 10 ≤ brightness) (enabled : Bool) (events : List LedEvent) :
    (plainAfter (ws2812 brightness) enabled events).tick =
        (plainAfter (ledc brightness) enabled events).tick ∧
      (plainAfter (ws2812 brightness) enabled events).enabled =
        (plainAfter (ledc brightness) enabled events).enabled ∧
      ((plainAfter (ws2812 brightness) enabled events).shown = .dark ↔
        (plainAfter (ledc brightness) enabled events).shown = 0) := by
  induction events using List.reverseRecOn with
  | nil => exact ⟨rfl, rfl, iff_of_true rfl rfl⟩
  | append_singleton past event ih =>
      obtain ⟨tick, switch, dark⟩ := ih
      simp only [plainAfter] at tick switch dark ⊢
      rw [run_append, run_append, run_cons, run_nil, run_cons, run_nil]
      cases event with
      | tick inputs =>
          refine ⟨congrArg (· + 1) tick, switch, ?_⟩
          rw [PlainLed.step, PlainLed.step, tick, switch]
          dsimp only
          split_ifs
          · exact render_dark_iff bright _ _
          · exact iff_of_true rfl rfl
      | setEnabled enabled =>
          refine ⟨tick, rfl, ?_⟩
          rw [PlainLed.step, PlainLed.step]
          dsimp only
          split_ifs
          · exact dark
          · exact iff_of_true rfl rfl

/-- Built for the pixel or for a plain LED, the device is dark at the same moments of every
run, exactly for the brightnesses from 10 to 254. -/
theorem led_darkTogether (brightness : UInt8) :
    (∀ enabled events, (ledAfter (ws2812 brightness) enabled events).shown = .dark ↔
      (ledAfter (ledc brightness) enabled events).shown = 0) ↔
        10 ≤ brightness ∧ brightness ≠ 255 := by
  have pixel (enabled : Bool) (events : List LedEvent) :
      (ledAfter (ws2812 brightness) enabled events).shown =
        (plainAfter (ws2812 brightness) enabled events).shown :=
    (Mirrors.reached (ws2812_fresh brightness) enabled events).shown
  have lamp (dimmed : brightness ≠ 255) (enabled : Bool) (events : List LedEvent) :
      (ledAfter (ledc brightness) enabled events).shown =
        (plainAfter (ledc brightness) enabled events).shown :=
    (Mirrors.reached ((ledc_fresh_iff brightness).mpr dimmed) enabled events).shown
  constructor
  · intro together
    have dimmed : brightness ≠ 255 := by
      rintro rfl
      exact absurd (together true [.tick allGood]) (by decide)
    refine ⟨?_, dimmed⟩
    by_contra dim
    have low : brightness.toNat < 10 := UInt8.lt_iff_toNat_lt.mp (UInt8.not_le.mp dim)
    have breathes := together true [.tick inSetup]
    rw [pixel, lamp dimmed] at breathes
    -- the pixel rounds the first step of the breath to nothing
    have dark : (plainAfter (ws2812 brightness) true [.tick inSetup]).shown = .dark := by
      have channel : Rgb.scaleChannel brightness (breath 1) 10 = 0 := by
        rw [Rgb.scaleChannel, show breath 1 = 1 from by decide, Nat.mul_one,
          Nat.div_eq_of_lt low]
        rfl
      have middle : Rgb.scaleChannel 0 (breath 1) 10 = 0 := by decide
      show Rgb.scale ⟨brightness, 0, brightness⟩ (breath 1) 10 = .dark
      rw [Rgb.scale]
      dsimp only
      rw [channel, middle]
      rfl
    exact absurd (breathes.mp dark) (show UInt8.ofNat (breath 1 * 12) ≠ 0 from by decide)
  · rintro ⟨bright, dimmed⟩ enabled events
    rw [pixel, lamp dimmed]
    exact (plain_dark_iff bright enabled events).2.2

end Shown

section Tells

variable {brightness : UInt8}

/-- Two seconds of ticks come by every phase up to the fifteenth, where the counter wraps
around too. -/
theorem phase_within (tick : UInt32) {phase : Nat} (early : phase ≤ 15) :
    ∃ count < 20, (tick + UInt32.ofNat (count + 1)).toNat % 20 = phase := by
  have bound := tick.toNat_lt
  have sum (count : Nat) (few : count < 20) : (tick + UInt32.ofNat (count + 1)).toNat =
      (tick.toNat + (count + 1)) % 2 ^ 32 := by
    rw [UInt32.toNat_add, UInt32.toNat_ofNat', Nat.add_mod_mod]
  by_cases stays : tick.toNat + ((phase + 19 - tick.toNat % 20) % 20 + 1) < 2 ^ 32
  · refine ⟨(phase + 19 - tick.toNat % 20) % 20, by omega, ?_⟩
    rw [sum _ (by omega)]
    omega
  · refine ⟨2 ^ 32 - tick.toNat + phase - 1, by omega, ?_⟩
    rw [sum _ (by omega)]
    omega

/-- The values an LED shows over the next two seconds of one state. -/
def Led.watched {α : Type} [DecidableEq α] (backend : LedBackend α) (led : Led α)
    (inputs : LedInputs) : List α :=
  (List.range 20).map fun count =>
    (run (Led.step backend) led (List.replicate (count + 1) (.tick inputs))).shown

theorem plain_ticks {α : Type} {backend : LedBackend α} {plain : PlainLed α}
    (enabled : plain.enabled = true) (inputs : LedInputs) (count : Nat) :
    run (PlainLed.step backend) plain (List.replicate (count + 1) (.tick inputs)) =
      { plain with
        tick := plain.tick + UInt32.ofNat (count + 1)
        shown := backend.render (computeState inputs)
          (plain.tick + UInt32.ofNat (count + 1)) } := by
  induction count with
  | zero => simp [PlainLed.step, enabled]
  | succ count ih =>
      have next : plain.tick + UInt32.ofNat (count + 1) + 1 =
          plain.tick + UInt32.ofNat (count + 1 + 1) := by
        rw [UInt32.ofNat_add (count + 1) 1, ← UInt32.add_assoc]
        rfl
      rw [List.replicate_succ', run_append, ih, run_cons, run_nil, PlainLed.step]
      simp only [enabled, if_true, next]

theorem Mirrors.ticks {α : Type} [DecidableEq α] {backend : LedBackend α} {led : Led α}
    {plain : PlainLed α} (fresh : backend.Fresh) (mirrors : Mirrors backend led plain)
    (enabled : led.enabled = true) (inputs : LedInputs) :
    led.watched backend inputs = (List.range 20).map fun count =>
      backend.render (computeState inputs) (led.tick + UInt32.ofNat (count + 1)) := by
  refine List.map_congr_left fun count _ => ?_
  rw [(mirrors.kept fresh _).shown, plain_ticks (mirrors.enabled ▸ enabled), mirrors.tick]

/-- A connection that is missing blinks like a pairing where there are no colours. -/
def LedState.lamp : LedState → LedState
  | .staDown => .pairing
  | state => state

/-- Where the pixel is brightest, every state has a colour of its own. -/
theorem renderRgb_peak (lit : brightness ≠ 0) {tick : UInt32} (peak : tick.toNat % 20 = 10)
    {first second : LedState}
    (same : renderRgb brightness first tick = renderRgb brightness second tick) :
    first = second := by
  have fast : fastOn tick = true := decide_eq_true (by omega)
  have slow : slowOn tick = true := decide_eq_true (by omega)
  have full : Rgb.scale ⟨brightness, 0, brightness⟩ (breath tick) 10 =
      ⟨brightness, 0, brightness⟩ := by
    have most : breath tick = 10 := by rw [breath, peak]; rfl
    rw [Rgb.scale, most]
    simp [Rgb.scaleChannel]
  cases first <;> cases second <;>
    simp_all [renderRgb, Rgb.dark]

/-- What a plain LED shows at three moments of two seconds. -/
theorem renderDuty_moments (lit : brightness ≠ 0) {peak early start : UInt32}
    (atPeak : peak.toNat % 20 = 10) (atEarly : early.toNat % 20 = 2)
    (atStart : start.toNat % 20 = 0)
    {first second : LedState}
    (same : ∀ tick ∈ [peak, early, start],
      renderDuty brightness first tick = renderDuty brightness second tick) :
    first.lamp = second.lamp := by
  have fastPeak : fastOn peak = true := decide_eq_true (by omega)
  have slowPeak : slowOn peak = true := decide_eq_true (by omega)
  have fastEarly : fastOn early = true := decide_eq_true (by omega)
  have slowEarly : slowOn early = false := decide_eq_false (by omega)
  have fastStart : fastOn start = false := decide_eq_false (by omega)
  have slowStart : slowOn start = false := decide_eq_false (by omega)
  have breathPeak : breath peak = 10 := by rw [breath, atPeak]; rfl
  have breathStart : breath start = 0 := by rw [breath, atStart]; rfl
  have onPeak := same peak (by simp)
  have onEarly := same early (by simp)
  have onStart := same start (by simp)
  cases first <;> cases second <;>
    simp_all [renderDuty, LedState.lamp, dutyBlink, dutyFull]

theorem renderDuty_lamp {first second : LedState} (same : first.lamp = second.lamp)
    (tick : UInt32) :
    renderDuty brightness first tick = renderDuty brightness second tick := by
  cases first <;> cases second <;> first | rfl | cases same

/-- Whatever a run did before, two seconds of an LED that is switched on tell one state from
another: the pixel tells all of them, also where the tick counter wraps around, and a plain LED
all but a pairing from a connection that is missing. -/
theorem led_tells (brightness : UInt8) (lit : brightness ≠ 0) (enabled : Bool)
    (events : List LedEvent) (first second : LedInputs) :
    ((ledAfter (ws2812 brightness) enabled events).enabled = true →
      ((ledAfter (ws2812 brightness) enabled events).watched (ws2812 brightness) first =
          (ledAfter (ws2812 brightness) enabled events).watched (ws2812 brightness) second ↔
        computeState first = computeState second)) ∧
    (brightness ≠ 255 → (ledAfter (ledc brightness) enabled events).enabled = true →
      ((ledAfter (ledc brightness) enabled events).watched (ledc brightness) first =
          (ledAfter (ledc brightness) enabled events).watched (ledc brightness) second ↔
        (computeState first).lamp = (computeState second).lamp)) := by
  constructor
  · intro switchedOn
    have fresh := ws2812_fresh brightness
    have mirrors := Mirrors.reached fresh enabled events
    rw [mirrors.ticks fresh switchedOn, mirrors.ticks fresh switchedOn, List.map_inj_left]
    constructor
    · intro same
      obtain ⟨count, few, peak⟩ := phase_within
        (ledAfter (ws2812 brightness) enabled events).tick (by decide : 10 ≤ 15)
      exact renderRgb_peak lit peak (same count (List.mem_range.mpr few))
    · intro same count _
      rw [same]
  · intro dimmed switchedOn
    have fresh := (ledc_fresh_iff brightness).mpr dimmed
    have mirrors := Mirrors.reached fresh enabled events
    rw [mirrors.ticks fresh switchedOn, mirrors.ticks fresh switchedOn, List.map_inj_left]
    constructor
    · intro same
      have moment {phase : Nat} (early : phase ≤ 15) :
          ∃ tick : UInt32, tick.toNat % 20 = phase ∧
            renderDuty brightness (computeState first) tick =
              renderDuty brightness (computeState second) tick := by
        obtain ⟨count, few, reached⟩ :=
          phase_within (ledAfter (ledc brightness) enabled events).tick early
        exact ⟨_, reached, same count (List.mem_range.mpr few)⟩
      obtain ⟨peak, atPeak, onPeak⟩ := moment (by decide : 10 ≤ 15)
      obtain ⟨early, atEarly, onEarly⟩ := moment (by decide : 2 ≤ 15)
      obtain ⟨start, atStart, onStart⟩ := moment (by decide : 0 ≤ 15)
      exact renderDuty_moments lit atPeak atEarly atStart (by simp [onPeak, onEarly, onStart])
    · intro same count _
      exact renderDuty_lamp same _

/-- At the default brightness a device in its setup does not look like one that is well. -/
theorem led_tells_setup :
    computeState inSetup ≠ computeState allGood ∧
      (ledAfter (ws2812 10) true []).watched (ws2812 10) inSetup ≠
        (ledAfter (ws2812 10) true []).watched (ws2812 10) allGood := by
  have told := led_tells 10 (by decide) true [] inSetup allGood
  have apart : computeState inSetup ≠ computeState allGood := by decide
  exact ⟨apart, fun same => apart ((told.1 rfl).mp same)⟩

end Tells

end LeanDingdong

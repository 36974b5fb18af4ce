import Dingdong.HttpWrites

/-!
Factory resets, by request and by the BOOT button, and the boot after them compared with
the first boot of a device nobody has used. The reset is put together from the parts of
the flash that its two callers name; the registry and the bond store are not among them.
-/

namespace LeanDingdong

/-- What can be told about a device after a boot, the restart cause apart. -/
structure Appearance where
  mode : BootMode
  chassis : Chassis
  settings : Settings
  workers : List Worker
  nextId : Nat
  store : Store
  bonds : List Bond
  sessions : Sessions

namespace Device

def appearance (device : Device) : Appearance where
  mode := device.chassis.config.bootMode
  chassis := device.chassis
  settings := device.settings
  workers := device.registry.workers
  nextId := device.registry.nextId
  store := device.store
  bonds := device.bonds
  sessions := device.sessions

/-- The first boot of a device. -/
def neverUsed (platform : Platform) : Appearance := (boot platform Flash.blank).appearance

/-- A never-used device asks for its first run, with default settings and nothing kept. -/
theorem neverUsed_blank (platform : Platform) :
    (neverUsed platform).mode = .firstRun ∧
      (neverUsed platform).settings = Settings.load platform.mac Chassis.blank ∧
      (neverUsed platform).workers = [] ∧ (neverUsed platform).nextId = 1 ∧
      (neverUsed platform).store = Store.empty ∧ (neverUsed platform).bonds = [] :=
  ⟨rfl, rfl, rfl, rfl, rfl, rfl⟩

/-- A confirmed factory reset in which every step succeeds, and the boot after it. Nothing
happens in the second and a half, or with the button the half second, between them. -/
inductive ResetAndRestarted (platform : Platform) (device : Device) : Device → Prop where
  | web {uri : String} {method : Method} {request : Request} {world : World}
      (route : findRoute uri method = some .factoryResetPost)
      (confirmed : resetConfirmed platform world request device = true)
      (erased : world.reset = fun _ => false) (unlinked : world.unlinkFails = false) :
      ResetAndRestarted platform device
        ((device.perform platform (.request uri method request world)).restart platform)
  | button {world : World} (erased : world.reset = fun _ => false)
      (unlinked : world.unlinkFails = false) :
      ResetAndRestarted platform device
        ((device.perform platform (.bootButton world)).restart platform)

/-- No worker id was handed out, and no phone is bonded. -/
def Unused (device : Device) : Prop :=
  (device.registry.nvs.getU16 keyNextId).getD 1 = 1 ∧ device.bonds = []

variable {platform : Platform} {device after : Device}

/-- What a factory reset leaves in flash. -/
theorem factoryReset_flash {world : World} (erased : world.reset = fun _ => false)
    (unlinked : world.unlinkFails = false) :
    (device.factoryReset world).flash =
      { chassis := { Chassis.blank with config := Config.blank.setRestartCause .factory }
        workers := device.registry.nvs
        events := none
        bonds := device.bonds } := by
  have wiped : (eventWipe false device.store).2.events = none := by
    cases present : device.store.events with
    | none => simp [eventWipe, present]
    | some file => simp [eventWipe, present]
  rw [factoryReset, erased, unlinked, flash]
  simp only [Chassis.factoryReset_none, setRestartCause, setConfig, wiped]
  rfl

/-- Both ways boot from the same flash. -/
theorem ResetAndRestarted.boots (reset : ResetAndRestarted platform device after) :
    after = boot platform
      { chassis := { Chassis.blank with config := Config.blank.setRestartCause .factory }
        workers := device.registry.nvs
        events := none
        bonds := device.bonds } := by
  cases reset with
  | web route confirmed erased unlinked =>
      rw [← factoryReset_flash erased unlinked, perform, serve, route]
      show boot platform (factoryResetPost _ _ _ device).2.flash = _
      rw [factoryResetPost_eq, if_pos confirmed]
      rfl
  | button erased unlinked =>
      rw [← factoryReset_flash erased unlinked]
      rfl

/-- The device comes up as never used exactly when its registry and its bonds were
untouched. -/
theorem ResetAndRestarted.neverUsed_iff (reset : ResetAndRestarted platform device after) :
    after.appearance = neverUsed platform ↔ device.Unused := by
  rw [reset.boots]
  constructor
  · intro same
    exact ⟨congrArg Appearance.nextId same, congrArg Appearance.bonds same⟩
  · rintro ⟨fresh, unbonded⟩
    have registry : (workerInit platform.json device.registry.nvs).workers = [] ∧
        (workerInit platform.json device.registry.nvs).nextId = 1 := by
      rw [workerInit, fresh]
      exact ⟨rfl, rfl⟩
    simp only [appearance, neverUsed, boot, registry, unbonded]
    rfl

/-- Two devices with any histories come out of a factory reset as two never-used devices
exactly when neither had registered a worker or bonded a phone. -/
theorem factoryReset_indistinguishable (platform : Platform) {first second firstAfter
    secondAfter : Device} (firstReset : ResetAndRestarted platform first firstAfter)
    (secondReset : ResetAndRestarted platform second secondAfter) :
    firstAfter.appearance = neverUsed platform ∧ secondAfter.appearance = neverUsed platform ↔
      first.Unused ∧ second.Unused :=
  and_congr firstReset.neverUsed_iff secondReset.neverUsed_iff

/-- A device with one worker whose phone is bonded. -/
def usedDevice : Device :=
  let blank := boot samplePlatform Flash.blank
  { blank with
    registry := (workerLookupOrCreate plainJson .none (some phone) 1700000000 blank.registry).2
    bonds := [⟨phone, .publicId⟩] }

theorem factoryReset_indistinguishable_blank :
    let blank := boot samplePlatform Flash.blank
    let reset := (blank.perform samplePlatform (.bootButton sampleWorld)).restart samplePlatform
    reset.appearance = neverUsed samplePlatform ∧ reset.appearance = neverUsed samplePlatform ↔
      blank.Unused ∧ blank.Unused :=
  factoryReset_indistinguishable samplePlatform
    (@ResetAndRestarted.button samplePlatform _ sampleWorld rfl rfl)
    (@ResetAndRestarted.button samplePlatform _ sampleWorld rfl rfl)

/-- The worker and the bond are still there after the button's reset. -/
theorem factoryReset_keepsWorker :
    let reset :=
      (usedDevice.perform samplePlatform (.bootButton sampleWorld)).restart samplePlatform
    ResetAndRestarted samplePlatform usedDevice reset ∧
      reset.appearance ≠ neverUsed samplePlatform ∧
      reset.registry.workers = usedDevice.registry.workers ∧ reset.registry.workers.length = 1 ∧
      reset.bonds.length = 1 := by
  have path := @ResetAndRestarted.button samplePlatform usedDevice sampleWorld rfl rfl
  refine ⟨path, fun same => ?_, by decide +kernel, by decide +kernel, by decide +kernel⟩
  have bonds := (path.neverUsed_iff.mp same).2
  exact absurd bonds (by decide +kernel)

end Device

end LeanDingdong

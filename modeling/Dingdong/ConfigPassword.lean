import Dingdong.ConfigCore

/-!
A change of the admin password that does not succeed. The salt and the hash are two keys, each
stored for good when its write returns, and the new salt makes another password of the old hash.
-/

namespace LeanDingdong

theorem Blob.ofStored_iff {size : Nat} {stored : Option Bytes} {blob : Blob size} :
    Blob.ofStored size stored = some blob ↔ stored = some blob.bytes := by
  cases stored with
  | none => simp [Blob.ofStored]
  | some bytes =>
      rw [Blob.ofStored]
      constructor
      · intro whole
        split_ifs at whole with exact
        · rw [← Option.some.inj whole]
      · intro same
        obtain rfl := Option.some.inj same
        rw [dif_pos blob.length_eq]

theorem Blob.bytes_injective {size : Nat} {first second : Blob size}
    (same : first.bytes = second.bytes) : first = second := by
  obtain ⟨bytes, length⟩ := first
  subst same
  rfl

namespace Config

section Writes

variable (pbkdf2 : Bytes → AdminSalt → Option AdminHash)

/-- What is stored after each write of the two keys that succeeds. -/
def adminBlobWrites (faults : ConfigFaults) (salt : AdminSalt) (hash : AdminHash)
    (config : Config) : List Config :=
  if faults.openFails then []
  else if faults.firstFails then []
  else
    let salted := { config with adminSalt := some salt.bytes }
    if faults.secondFails then [salted]
    else [salted, { salted with adminHash := some hash.bytes }]

/-- What is stored after each write of `dd_config_set_admin_password` that succeeds. -/
def adminPasswordWrites (faults : ConfigFaults) (salt : AdminSalt) (plaintext : Bytes)
    (config : Config) : List Config :=
  if cstr plaintext = [] then []
  else
    match pbkdf2 (cstr plaintext) salt with
    | none => []
    | some hash => config.adminBlobWrites faults salt hash

theorem adminBlobWrites_last (faults : ConfigFaults) (salt : AdminSalt) (hash : AdminHash)
    (config : Config) :
    (config.setAdminBlob faults salt hash).2 =
      (config.adminBlobWrites faults salt hash).getLastD config := by
  rw [setAdminBlob, adminBlobWrites]
  split_ifs <;> rfl

/-- A call that returns leaves what its last write stored. -/
theorem adminPasswordWrites_last (faults : ConfigFaults) (salt : AdminSalt) (plaintext : Bytes)
    (config : Config) :
    (config.setAdminPassword pbkdf2 faults salt plaintext).2 =
      (config.adminPasswordWrites pbkdf2 faults salt plaintext).getLastD config := by
  rw [setAdminPassword, adminPasswordWrites]
  split_ifs
  · rfl
  · cases pbkdf2 (cstr plaintext) salt with
    | none => rfl
    | some hash => exact adminBlobWrites_last faults salt hash config

/-- `dd_config_verify_admin_password` lets the password in. -/
def Accepts (password : Bytes) (config : Config) : Prop :=
  config.verifyAdminPassword pbkdf2 password = (.ok, true)

instance (password : Bytes) (config : Config) : Decidable (config.Accepts pbkdf2 password) :=
  inferInstanceAs (Decidable (_ = _))

/-- A password is let in by a whole salt and a whole hash that it derives. -/
theorem accepts_iff (password : Bytes) (config : Config) :
    config.Accepts pbkdf2 password ↔ ∃ (salt : AdminSalt) (hash : AdminHash),
      config.adminSalt = some salt.bytes ∧ config.adminHash = some hash.bytes ∧
        pbkdf2 (cstr password) salt = some hash := by
  rw [Accepts, verifyAdminPassword_stored, getAdminBlob]
  constructor
  · intro accepts
    cases isSalt : Blob.ofStored ddAdminSaltLen config.adminSalt with
    | none => simp [isSalt] at accepts
    | some salt =>
        cases isHash : Blob.ofStored ddAdminHashLen config.adminHash with
        | none => simp [isSalt, isHash] at accepts
        | some hash =>
            refine ⟨salt, hash, Blob.ofStored_iff.mp isSalt, Blob.ofStored_iff.mp isHash, ?_⟩
            cases derived : pbkdf2 (cstr password) salt with
            | none => simp [isSalt, isHash, derived] at accepts
            | some got =>
                simp only [isSalt, isHash, derived, Prod.mk.injEq, true_and,
                  decide_eq_true_eq] at accepts
                rw [accepts]
  · rintro ⟨salt, hash, isSalt, isHash, derived⟩
    rw [Blob.ofStored_iff.mpr isSalt, Blob.ofStored_iff.mpr isHash]
    simp only [derived, decide_true]

theorem accepts_hash {password : Bytes} {config : Config} {hash : AdminHash}
    (stored : config.adminHash = some hash.bytes) :
    config.Accepts pbkdf2 password ↔ ∃ salt : AdminSalt, config.adminSalt = some salt.bytes ∧
      pbkdf2 (cstr password) salt = some hash := by
  rw [accepts_iff]
  constructor
  · rintro ⟨salt, other, isSalt, isHash, derived⟩
    rw [stored] at isHash
    obtain rfl : hash = other := Blob.bytes_injective (Option.some.inj isHash)
    exact ⟨salt, isSalt, derived⟩
  · rintro ⟨salt, isSalt, derived⟩
    exact ⟨salt, hash, isSalt, stored, derived⟩

theorem accepts_pair {password : Bytes} {config : Config} {salt : AdminSalt} {hash : AdminHash}
    (isSalt : config.adminSalt = some salt.bytes) (isHash : config.adminHash = some hash.bytes) :
    config.Accepts pbkdf2 password ↔ pbkdf2 (cstr password) salt = some hash := by
  rw [accepts_hash pbkdf2 isHash]
  constructor
  · rintro ⟨other, isOther, derived⟩
    rw [isSalt] at isOther
    rwa [Blob.bytes_injective (Option.some.inj isOther)]
  · exact fun derived => ⟨salt, isSalt, derived⟩

end Writes

end Config

/-- A call of `dd_config_set_admin_password`, with what goes wrong in its course. -/
structure PasswordCall where
  salt : AdminSalt
  plaintext : Bytes
  derivationFails : Bool := false
  faults : ConfigFaults := {}
  /-- the writes after which power is lost, `none` when it is not -/
  powerLoss : Option Nat := none

namespace PasswordCall

variable (pbkdf2 : Bytes → AdminSalt → Option AdminHash) (call : PasswordCall) (config : Config)

/-- The derivation as this call meets it. -/
def derive : Bytes → AdminSalt → Option AdminHash :=
  if call.derivationFails then fun _ _ => none else pbkdf2

/-- What the call returns, `none` when power is lost, and what is stored then. -/
def run : Option EspErr × Config :=
  match call.powerLoss with
  | none =>
      let saved := config.setAdminPassword (call.derive pbkdf2) call.faults call.salt call.plaintext
      (some saved.1, saved.2)
  | some writes =>
      (none, ((config.adminPasswordWrites (call.derive pbkdf2) call.faults call.salt
        call.plaintext).take writes).getLastD config)

/-- A call that does not report success changes nothing for the passwords. -/
def Keeps : Prop :=
  (call.run pbkdf2 config).1 ≠ some .ok →
    ∀ password, (call.run pbkdf2 config).2.Accepts pbkdf2 password ↔ config.Accepts pbkdf2 password

/-- Nothing is written: the password is refused, or the call ends before the salt is stored. -/
def Unwritten : Prop :=
  cstr call.plaintext = [] ∨ call.derive pbkdf2 (cstr call.plaintext) call.salt = none ∨
    call.faults.openFails = true ∨ call.faults.firstFails = true ∨ call.powerLoss = some 0

/-- The call ends after the salt is stored and before the hash is. -/
def BetweenWrites : Prop := call.faults.secondFails = true ∨ call.powerLoss = some 1

/-- The call ends as it should behind both writes. -/
def Committed : Prop := call.faults.commitFails = false ∧ call.powerLoss = none

/-- The stored hash was made with the salt, of whatever password. -/
def MadeWith (salt : AdminSalt) : Prop :=
  ∃ (password : Bytes) (hash : AdminHash), config.adminHash = some hash.bytes ∧
    pbkdf2 (cstr password) salt = some hash

/-- The salt the stored hash was made with is stored and is drawn again, or neither. -/
def DrawsStored : Prop :=
  ∀ salt, MadeWith pbkdf2 config salt →
    (call.salt = salt ↔ config.adminSalt = some salt.bytes)

/-- Two salts never lead to one hash, and passwords that lead to one hash are one key, whatever
the salt. -/
structure Separates : Prop where
  salts : ∀ {first second : Bytes} {salt other : AdminSalt} {hash : AdminHash},
    pbkdf2 first salt = some hash → pbkdf2 second other = some hash → salt = other
  keys : ∀ {first second : Bytes} {salt : AdminSalt} {hash : AdminHash},
    pbkdf2 first salt = some hash → pbkdf2 second salt = some hash →
      ∀ other, pbkdf2 first other = pbkdf2 second other

variable {pbkdf2 call config}

theorem run_unwritten (unwritten : call.Unwritten pbkdf2) : (call.run pbkdf2 config).2 = config := by
  have nothing : call.powerLoss = some 0 ∨ config.adminPasswordWrites (call.derive pbkdf2)
      call.faults call.salt call.plaintext = [] := by
    rw [Config.adminPasswordWrites]
    rcases unwritten with empty | underived | unopened | unsalted | lost
    · exact .inr (if_pos empty)
    · exact .inr (by rw [underived, ite_self])
    · refine .inr ?_
      cases call.derive pbkdf2 (cstr call.plaintext) call.salt with
      | none => rw [ite_self]
      | some hash =>
          dsimp only
          rw [Config.adminBlobWrites, if_pos unopened, ite_self]
    · refine .inr ?_
      cases call.derive pbkdf2 (cstr call.plaintext) call.salt with
      | none => rw [ite_self]
      | some hash =>
          dsimp only
          rw [Config.adminBlobWrites, if_pos unsalted, ite_self, ite_self]
    · exact .inl lost
  rw [run]
  cases lost : call.powerLoss with
  | none =>
      rw [lost] at nothing
      rcases nothing with absent | nothing
      · exact absurd absent (by simp)
      · dsimp only
        rw [Config.adminPasswordWrites_last, nothing]
        rfl
  | some writes =>
      dsimp only
      rcases nothing with zero | nothing
      · rw [lost] at zero
        rw [Option.some.inj zero, List.take_zero]
        rfl
      · rw [nothing, List.take_nil]
        rfl

/-- What a call that gets to its writes derives. -/
theorem derives_written (written : ¬ call.Unwritten pbkdf2) :
    ∃ hash, pbkdf2 (cstr call.plaintext) call.salt = some hash ∧
      call.derive pbkdf2 (cstr call.plaintext) call.salt = some hash := by
  obtain ⟨hash, derived⟩ := Option.ne_none_iff_exists'.mp fun underived =>
    written (.inr (.inl underived))
  refine ⟨hash, ?_, derived⟩
  rw [derive] at derived
  split_ifs at derived
  exact derived

theorem run_written {hash : AdminHash} (written : ¬ call.Unwritten pbkdf2)
    (derived : call.derive pbkdf2 (cstr call.plaintext) call.salt = some hash) :
    (call.BetweenWrites → (call.run pbkdf2 config).1 ≠ some .ok ∧
      (call.run pbkdf2 config).2 = { config with adminSalt := some call.salt.bytes }) ∧
    (¬ call.BetweenWrites → ((call.run pbkdf2 config).1 = some .ok ↔ call.Committed) ∧
      (call.run pbkdf2 config).2 =
        { config with adminSalt := some call.salt.bytes, adminHash := some hash.bytes }) := by
  simp only [Unwritten, not_or, Bool.not_eq_true] at written
  obtain ⟨nonempty, _, opened, salted, started⟩ := written
  have saves : config.setAdminPassword (call.derive pbkdf2) call.faults call.salt call.plaintext =
      config.setAdminBlob call.faults call.salt hash := by
    rw [Config.setAdminPassword, if_neg nonempty, derived]
  have writes : config.adminPasswordWrites (call.derive pbkdf2) call.faults call.salt
      call.plaintext = config.adminBlobWrites call.faults call.salt hash := by
    rw [Config.adminPasswordWrites, if_neg nonempty, derived]
  have notOpen : ¬ call.faults.openFails = true := by rw [opened]; decide
  have notSalt : ¬ call.faults.firstFails = true := by rw [salted]; decide
  rw [BetweenWrites, Committed, run, saves, writes, Config.setAdminBlob, Config.adminBlobWrites,
    if_neg notOpen, if_neg notSalt, if_neg notOpen, if_neg notSalt]
  constructor
  · intro between
    cases lost : call.powerLoss with
    | none =>
        have failed : call.faults.secondFails = true := between.resolve_right (by simp [lost])
        dsimp only
        rw [if_pos failed]
        exact ⟨by simp, rfl⟩
    | some writes =>
        obtain ⟨more, rfl⟩ : ∃ more, writes = more + 1 :=
          Nat.exists_eq_add_one_of_ne_zero fun zero => started (by rw [lost, zero])
        refine ⟨by simp, ?_⟩
        dsimp only
        split_ifs with failed
        · rw [List.take_succ_cons, List.take_nil]
          rfl
        · have one : call.powerLoss = some 1 := between.resolve_left failed
          rw [lost] at one
          rw [Option.some.inj one]
          rfl
  · intro behind
    rw [not_or] at behind
    rw [if_neg behind.1, if_neg behind.1]
    cases lost : call.powerLoss with
    | none =>
        cases call.faults.commitFails <;> simp
    | some writes =>
        rw [lost] at started behind
        obtain ⟨more, rfl⟩ : ∃ more, writes = more + 2 := by
          refine ⟨writes - 2, ?_⟩
          have notZero : writes ≠ 0 := fun zero => started (congrArg some zero)
          have notOne : writes ≠ 1 := fun one => behind.2 (congrArg some one)
          omega
        simp

/-- With the new salt beside the stored hash, the same passwords are let in exactly when the salt
that made the hash was stored and is drawn again, or neither. -/
theorem salted_iff (separates : Separates pbkdf2) :
    (∀ password, Config.Accepts pbkdf2 password { config with adminSalt := some call.salt.bytes } ↔
        config.Accepts pbkdf2 password) ↔ call.DrawsStored pbkdf2 config := by
  have before (password : Bytes) {hash : AdminHash}
      (isHash : config.adminHash = some hash.bytes) :
      config.Accepts pbkdf2 password ↔ ∃ salt : AdminSalt, config.adminSalt = some salt.bytes ∧
        pbkdf2 (cstr password) salt = some hash := Config.accepts_hash pbkdf2 isHash
  have after (password : Bytes) {hash : AdminHash}
      (isHash : config.adminHash = some hash.bytes) :
      Config.Accepts pbkdf2 password { config with adminSalt := some call.salt.bytes } ↔
        pbkdf2 (cstr password) call.salt = some hash := Config.accepts_pair pbkdf2 rfl isHash
  constructor
  · rintro keeps salt ⟨password, hash, isHash, derived⟩
    have same := keeps password
    rw [after password isHash, before password isHash] at same
    constructor
    · rintro rfl
      obtain ⟨stored, isSalt, opens⟩ := same.mp derived
      rw [isSalt, separates.salts opens derived]
    · intro isSalt
      exact separates.salts (same.mpr ⟨salt, isSalt, derived⟩) derived
  · intro draws password
    by_cases whole : ∃ hash : AdminHash, config.adminHash = some hash.bytes
    · obtain ⟨hash, isHash⟩ := whole
      rw [after password isHash, before password isHash]
      constructor
      · intro derived
        exact ⟨call.salt, (draws call.salt ⟨password, hash, isHash, derived⟩).mp rfl, derived⟩
      · rintro ⟨salt, isSalt, derived⟩
        rwa [(draws salt ⟨password, hash, isHash, derived⟩).mpr isSalt]
    · rw [Config.accepts_iff, Config.accepts_iff]
      refine iff_of_false ?_ ?_
      · rintro ⟨_, hash, _, isHash, _⟩
        exact whole ⟨hash, isHash⟩
      · rintro ⟨_, hash, _, isHash, _⟩
        exact whole ⟨hash, isHash⟩

/-- With both values stored, the same passwords are let in exactly when the new one was before. -/
theorem paired_iff (separates : Separates pbkdf2) {hash : AdminHash}
    (derives : pbkdf2 (cstr call.plaintext) call.salt = some hash) :
    (∀ password, Config.Accepts pbkdf2 password { config with
          adminSalt := some call.salt.bytes, adminHash := some hash.bytes } ↔
        config.Accepts pbkdf2 password) ↔ config.Accepts pbkdf2 call.plaintext := by
  have after (password : Bytes) : Config.Accepts pbkdf2 password { config with
      adminSalt := some call.salt.bytes, adminHash := some hash.bytes } ↔
        pbkdf2 (cstr password) call.salt = some hash := Config.accepts_pair pbkdf2 rfl rfl
  simp only [after]
  constructor
  · exact fun keeps => (keeps call.plaintext).mp derives
  · intro again password
    obtain ⟨salt, stored, isSalt, isHash, opens⟩ := (Config.accepts_iff pbkdf2 _ _).mp again
    rw [Config.accepts_pair pbkdf2 isSalt isHash]
    constructor
    · intro derived
      rw [separates.keys derived derives salt, opens]
    · intro derived
      rw [separates.keys derived opens call.salt, derives]

section Sample

/-- A derivation that writes out a short password and the salt. -/
def plainKdf (password : Bytes) (salt : AdminSalt) : Option AdminHash :=
  if short : password.length ≤ 15 then
    some ⟨UInt8.ofNat password.length ::
        (password ++ List.replicate (15 - password.length) 0 ++ salt.bytes), by
      have salted : salt.bytes.length = 16 := salt.length_eq
      simp only [List.length_cons, List.length_append, List.length_replicate, salted,
        ddAdminHashLen]
      omega⟩
  else none

theorem plainKdf_inj {first second : Bytes} {salt other : AdminSalt} {hash : AdminHash}
    (derived : plainKdf first salt = some hash) (again : plainKdf second other = some hash) :
    first = second ∧ salt = other := by
  rw [plainKdf] at derived again
  split_ifs at derived again with short shortToo
  have same := congrArg Blob.bytes ((Option.some.inj derived).trans (Option.some.inj again).symm)
  obtain ⟨size, rest⟩ := List.cons.inj same
  have sizes : first.length = second.length := by
    have := congrArg UInt8.toNat size
    simp only [UInt8.toNat_ofNat'] at this
    omega
  rw [sizes, List.append_assoc, List.append_assoc] at rest
  obtain ⟨passwords, tails⟩ := List.append_inj rest sizes
  exact ⟨passwords, Blob.bytes_injective (List.append_cancel_left tails)⟩

theorem plainKdf_separates : Separates plainKdf where
  salts derived again := (plainKdf_inj derived again).2
  keys derived again _ := by rw [(plainKdf_inj derived again).1]

/-- The administrator's password under a salt of zeros. -/
def adminConfig : Config :=
  { Config.blank with
    adminSalt := some (List.replicate ddAdminSaltLen 0)
    adminHash := (plainKdf (ascii "old password") ⟨List.replicate ddAdminSaltLen 0, rfl⟩).map
      Blob.bytes }

/-- A change to the password there is, under another salt, which the commit refuses. -/
def sameAgain : PasswordCall where
  salt := ⟨List.replicate ddAdminSaltLen 1, rfl⟩
  plaintext := ascii "old password"
  faults := { commitFails := true }

end Sample

end PasswordCall

end LeanDingdong

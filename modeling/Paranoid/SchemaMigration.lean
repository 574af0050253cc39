import Paranoid.EdgeWalks
import Paranoid.Postgres

namespace Paranoid.SchemaMigration

open EdgeWalks Postgres

structure ComponentSchemaVersion where
  component : String
  instanceKey : String
  version : Int
  fingerprint : String
  deriving DecidableEq

structure ComponentSchemaMigrationTarget where
  version : Int
  fingerprint : String
  deriving DecidableEq

abbrev RecordedComponentSchemaVersion : Type := ComponentSchemaMigrationTarget

structure ComponentSchemaMigrationStep where
  fromTarget : ComponentSchemaMigrationTarget
  toTarget : ComponentSchemaMigrationTarget
  deriving DecidableEq

inductive ComponentSchemaMigrationPlan
  | freshInstall
  | alreadyCurrent
  | upgrade (recorded : RecordedComponentSchemaVersion) (steps : List ComponentSchemaMigrationStep)
  deriving DecidableEq

/-- The reasons of the schema mismatches, with what their texts show. -/
inductive SchemaMismatch
  | versionNotPositive (label : String) (version : Int)
  | fingerprintEmpty (label : String)
  | stepDoesNotAdvance (fromVersion toVersion : Int)
  | stepTargetsFutureVersion (toVersion supportedVersion : Int)
  | recordedFingerprint (recorded expected : String)
  | recordedVersionNewer (recordedVersion supportedVersion : Int)
  | noMigrationStep (cursor current : ComponentSchemaMigrationTarget)
  | multipleSteps (cursor : ComponentSchemaMigrationTarget)
  | reachedUnsupported (reached current : ComponentSchemaMigrationTarget)
  deriving DecidableEq

def ComponentSchemaVersion.target (version : ComponentSchemaVersion) : ComponentSchemaMigrationTarget :=
  ⟨version.version, version.fingerprint⟩

def validateMigrationTarget (label : String) (target : ComponentSchemaMigrationTarget) :
    Except SchemaMismatch Unit := do
  if target.version ≤ 0 then throw (.versionNotPositive label target.version)
  if target.fingerprint.utf8ByteSize = 0 then throw (.fingerprintEmpty label)

def validateUpgradeStep (current : ComponentSchemaMigrationTarget)
    (step : ComponentSchemaMigrationStep) :
    Except SchemaMismatch Unit := do
  validateMigrationTarget "step source" step.fromTarget
  validateMigrationTarget "step target" step.toTarget
  if step.toTarget.version ≤ step.fromTarget.version then
    throw (.stepDoesNotAdvance step.fromTarget.version step.toTarget.version)
  if current.version < step.toTarget.version then
    throw (.stepTargetsFutureVersion step.toTarget.version current.version)

def validateUpgradeSteps (current : ComponentSchemaMigrationTarget)
    (upgradeSteps : List ComponentSchemaMigrationStep) :
    Except SchemaMismatch Unit :=
  upgradeSteps.forM (validateUpgradeStep current)

/-- The loop of the planner. It ends because every step advances. -/
def selectSteps (current : ComponentSchemaMigrationTarget)
    (upgradeSteps : List ComponentSchemaMigrationStep)
    (hadvance : ∀ step ∈ upgradeSteps, step.fromTarget.version < step.toTarget.version)
    (cursor : ComponentSchemaMigrationTarget) (selectedSteps : List ComponentSchemaMigrationStep) :
    Except SchemaMismatch (List ComponentSchemaMigrationStep) :=
  match _hleaving : leaving ComponentSchemaMigrationStep.fromTarget upgradeSteps cursor with
  | [] => throw (.noMigrationStep cursor current)
  | [step] =>
      if step.toTarget = current then return selectedSteps ++ [step]
      else if current.version ≤ step.toTarget.version then throw (.reachedUnsupported step.toTarget current)
      else selectSteps current upgradeSteps hadvance step.toTarget (selectedSteps ++ [step])
  | _ => throw (.multipleSteps cursor)
termination_by (current.version - cursor.version).toNat
decreasing_by
  obtain ⟨hmem, rfl⟩ := mem_of_leaving _hleaving
  have := hadvance step hmem
  omega

/-- What `validateUpgradeSteps` accepts. -/
structure ValidUpgradeStep (current : ComponentSchemaMigrationTarget)
    (step : ComponentSchemaMigrationStep) : Prop where
  source : 0 < step.fromTarget.version ∧ step.fromTarget.fingerprint ≠ ""
  target : 0 < step.toTarget.version ∧ step.toTarget.fingerprint ≠ ""
  advances : step.fromTarget.version < step.toTarget.version
  supported : step.toTarget.version ≤ current.version

section Validation

variable {current : ComponentSchemaMigrationTarget} {step : ComponentSchemaMigrationStep}
  {upgradeSteps : List ComponentSchemaMigrationStep}

theorem validateMigrationTarget_eq_ok {label : String} {target : ComponentSchemaMigrationTarget} :
    validateMigrationTarget label target = .ok () ↔ 0 < target.version ∧ target.fingerprint ≠ "" := by
  unfold validateMigrationTarget
  by_cases hversion : target.version ≤ 0
  · simp [hversion, Int.not_lt.2 hversion, throw, throwThe, MonadExceptOf.throw, bind, Except.bind]
  · by_cases hfingerprint : target.fingerprint = ""
    · simp [hversion, hfingerprint, throw, throwThe, MonadExceptOf.throw]
    · simp [hversion, hfingerprint, Int.not_le.1 hversion, pure, Except.pure]

theorem validateUpgradeStep_eq_ok :
    validateUpgradeStep current step = .ok () ↔ ValidUpgradeStep current step := by
  unfold validateUpgradeStep
  rw [bind_eq_ok]
  constructor
  · rintro ⟨⟨⟩, hsource, h⟩
    obtain ⟨⟨⟩, htarget, h⟩ := bind_eq_ok.1 h
    by_cases hadvances : step.toTarget.version ≤ step.fromTarget.version
    · rw [if_pos hadvances] at h
      cases h
    · by_cases hsupported : current.version < step.toTarget.version
      · rw [if_neg hadvances, if_pos hsupported] at h
        cases h
      · exact ⟨validateMigrationTarget_eq_ok.1 hsource, validateMigrationTarget_eq_ok.1 htarget,
          Int.not_le.1 hadvances, Int.not_lt.1 hsupported⟩
  · intro h
    refine ⟨(), validateMigrationTarget_eq_ok.2 h.source, ?_⟩
    rw [validateMigrationTarget_eq_ok.2 h.target, ok_bind, if_neg (Int.not_le.2 h.advances)]
    exact if_neg (Int.not_lt.2 h.supported)

theorem validateUpgradeSteps_eq_ok :
    validateUpgradeSteps current upgradeSteps = .ok () ↔
      ∀ step ∈ upgradeSteps, ValidUpgradeStep current step := by
  unfold validateUpgradeSteps
  simp only [forM_eq_ok, validateUpgradeStep_eq_ok]

end Validation

def planComponentSchemaMigration (version : ComponentSchemaVersion)
    (recorded : Option RecordedComponentSchemaVersion)
    (upgradeSteps : List ComponentSchemaMigrationStep) :
    Except SchemaMismatch ComponentSchemaMigrationPlan := do
  let current := version.target
  validateMigrationTarget "current target" current
  match hsteps : validateUpgradeSteps current upgradeSteps, recorded with
  | .error mismatch, _ => throw mismatch
  | .ok (), none => return .freshInstall
  | .ok (), some recorded =>
      if recorded.version = current.version then
        if recorded.fingerprint = current.fingerprint then return .alreadyCurrent
        else throw (.recordedFingerprint recorded.fingerprint current.fingerprint)
      else if current.version < recorded.version then
        throw (.recordedVersionNewer recorded.version current.version)
      else
        let selectedSteps ← selectSteps current upgradeSteps
          (fun step hstep => (validateUpgradeSteps_eq_ok.1 hsteps step hstep).advances) recorded []
        return .upgrade recorded selectedSteps

section Planner

variable {current cursor : ComponentSchemaMigrationTarget}
  {upgradeSteps selectedSteps steps : List ComponentSchemaMigrationStep}
  {version : ComponentSchemaVersion} {recorded : Option RecordedComponentSchemaVersion}

open ComponentSchemaMigrationStep (fromTarget toTarget)

/-- The current target and the upgrade steps can be planned with. -/
structure Plannable (current : ComponentSchemaMigrationTarget)
    (upgradeSteps : List ComponentSchemaMigrationStep) :
    Prop where
  target : 0 < current.version ∧ current.fingerprint ≠ ""
  steps : ∀ step ∈ upgradeSteps, ValidUpgradeStep current step

/-- The only way up from the recorded version to the current one. -/
structure UpgradeChain (upgradeSteps : List ComponentSchemaMigrationStep)
    (recorded current : ComponentSchemaMigrationTarget)
    (steps : List ComponentSchemaMigrationStep) : Prop where
  below : recorded.version < current.version
  walk : Walk fromTarget toTarget upgradeSteps recorded steps current
  increasing : (recorded :: steps.map toTarget).Pairwise fun earlier later =>
    earlier.version < later.version

theorem leaving_eq_nil_of_le (hvalid : ∀ step ∈ upgradeSteps, ValidUpgradeStep current step)
    (hcursor : current.version ≤ cursor.version) : leaving fromTarget upgradeSteps cursor = [] := by
  apply leaving_eq_nil
  rintro step hstep rfl
  have hadvances := (hvalid step hstep).advances
  have hsupported := (hvalid step hstep).supported
  omega

/-- No step leaves a version that is not below the current one. -/
theorem walk_of_le (hvalid : ∀ step ∈ upgradeSteps, ValidUpgradeStep current step)
    (hcursor : current.version ≤ cursor.version)
    (h : Walk fromTarget toTarget upgradeSteps cursor steps current) :
    steps = [] ∧ cursor = current := by
  cases h with
  | nil => exact ⟨rfl, rfl⟩
  | cons hleaving hrest => simp [leaving_eq_nil_of_le hvalid hcursor] at hleaving

/-- The loop finds the walk that the steps leave no choice about. -/
theorem selectSteps_eq_ok (hvalid : ∀ step ∈ upgradeSteps, ValidUpgradeStep current step)
    (hadvance : ∀ step ∈ upgradeSteps, step.fromTarget.version < step.toTarget.version) :
    selectSteps current upgradeSteps hadvance cursor selectedSteps = .ok steps ↔
      ∃ rest, steps = selectedSteps ++ rest ∧ rest ≠ [] ∧
        Walk fromTarget toTarget upgradeSteps cursor rest current := by
  fun_induction selectSteps current upgradeSteps hadvance cursor selectedSteps with
  | case1 cursor selectedSteps hleaving =>
      refine ⟨nofun, ?_⟩
      rintro ⟨rest, -, hne, hwalk⟩
      obtain ⟨step, rest', -, hfirst, -⟩ := hwalk.first hne
      cases hleaving.symm.trans hfirst
  | case2 cursor selectedSteps step hleaving hreached =>
      constructor
      · rintro ⟨⟩
        have hend : Walk fromTarget toTarget upgradeSteps step.toTarget [] current := by
          rw [hreached]
          exact .nil current
        exact ⟨[step], rfl, List.cons_ne_nil _ _, .cons hleaving hend⟩
      · rintro ⟨rest, rfl, hne, hwalk⟩
        obtain ⟨first, rest', rfl, hfirst, hrest⟩ := hwalk.first hne
        cases hleaving.symm.trans hfirst
        rw [hreached] at hrest
        rw [(walk_of_le hvalid le_rfl hrest).1]
        rfl
  | case3 cursor selectedSteps step hleaving hother hbeyond =>
      refine ⟨nofun, ?_⟩
      rintro ⟨rest, -, hne, hwalk⟩
      obtain ⟨first, rest', -, hfirst, hrest⟩ := hwalk.first hne
      cases hleaving.symm.trans hfirst
      exact absurd (walk_of_le hvalid hbeyond hrest).2 hother
  | case4 cursor selectedSteps step hleaving hother hbelow ih =>
      rw [ih]
      constructor
      · rintro ⟨rest, rfl, hne, hwalk⟩
        exact ⟨step :: rest, by simp, List.cons_ne_nil _ _, .cons hleaving hwalk⟩
      · rintro ⟨rest, rfl, hne, hwalk⟩
        obtain ⟨first, rest', rfl, hfirst, hrest⟩ := hwalk.first hne
        cases hleaving.symm.trans hfirst
        refine ⟨rest', by simp, ?_, hrest⟩
        rintro rfl
        cases hrest
        exact hother rfl
  | case5 cursor selectedSteps hnone hone =>
      refine ⟨nofun, ?_⟩
      rintro ⟨rest, -, hne, hwalk⟩
      obtain ⟨step, rest', -, hfirst, -⟩ := hwalk.first hne
      exact absurd hfirst (hone step)

variable (recorded) in
theorem plan_of_not_plannable (h : ¬Plannable version.target upgradeSteps) :
    ∃ mismatch, planComponentSchemaMigration version recorded upgradeSteps = .error mismatch := by
  unfold planComponentSchemaMigration
  dsimp only
  cases htarget : validateMigrationTarget "current target" version.target with
  | error mismatch => exact ⟨mismatch, rfl⟩
  | ok =>
      have hsteps : validateUpgradeSteps version.target upgradeSteps ≠ .ok () := fun hsteps =>
        h ⟨validateMigrationTarget_eq_ok.1 htarget, validateUpgradeSteps_eq_ok.1 hsteps⟩
      rw [ok_bind]
      split
      · exact ⟨_, rfl⟩
      · rename_i heq
        exact absurd heq hsteps
      · rename_i heq
        exact absurd heq hsteps

theorem plan_of_plannable (h : Plannable version.target upgradeSteps) :
    planComponentSchemaMigration version recorded upgradeSteps =
      match recorded with
      | none => .ok .freshInstall
      | some origin =>
          if origin.version = version.version then
            if origin.fingerprint = version.fingerprint then .ok .alreadyCurrent
            else .error (.recordedFingerprint origin.fingerprint version.fingerprint)
          else if version.version < origin.version then .error (.recordedVersionNewer origin.version version.version)
          else do
            let selectedSteps ← selectSteps version.target upgradeSteps
              (fun step hstep => (h.steps step hstep).advances) origin []
            return .upgrade origin selectedSteps := by
  unfold planComponentSchemaMigration
  dsimp only
  rw [validateMigrationTarget_eq_ok.2 h.target, ok_bind]
  split
  · rename_i heq
    cases heq.symm.trans (validateUpgradeSteps_eq_ok.2 h.steps)
  · rfl
  · rfl

theorem upgradeChain_iff (h : Plannable version.target upgradeSteps)
    {origin : RecordedComponentSchemaVersion} :
    UpgradeChain upgradeSteps origin version.target steps ↔
      origin.version < version.version ∧
        selectSteps version.target upgradeSteps
          (fun step hstep => (h.steps step hstep).advances) origin [] =
          .ok steps := by
  rw [selectSteps_eq_ok h.steps]
  constructor
  · intro hchain
    refine ⟨hchain.below, steps, rfl, ?_, hchain.walk⟩
    rintro rfl
    cases hchain.walk
    exact absurd hchain.below (lt_irrefl _)
  · rintro ⟨hbelow, rest, rfl, -, hwalk⟩
    have hrank : ∀ step ∈ upgradeSteps, (fromTarget step).version < (toTarget step).version :=
      fun step hstep =>
      (h.steps step hstep).advances
    exact ⟨hbelow, hwalk, hwalk.pairwise_rank hrank⟩

theorem UpgradeChain.unique (h : Plannable version.target upgradeSteps)
    {origin : RecordedComponentSchemaVersion}
    {others : List ComponentSchemaMigrationStep}
    (hchain : UpgradeChain upgradeSteps origin version.target steps)
    (hother : UpgradeChain upgradeSteps origin version.target others) : steps = others :=
  hchain.walk.unique (leaving_eq_nil_of_le h.steps le_rfl) hother.walk

/-- What is planned from a recorded version. -/
theorem plan_recorded (h : Plannable version.target upgradeSteps)
    (origin : RecordedComponentSchemaVersion) :
    origin = version.target ∧
      planComponentSchemaMigration version (some origin) upgradeSteps = .ok .alreadyCurrent ∨
    (∃ steps, UpgradeChain upgradeSteps origin version.target steps ∧
      planComponentSchemaMigration version (some origin) upgradeSteps = .ok (.upgrade origin steps)) ∨
    origin ≠ version.target ∧ (¬∃ steps, UpgradeChain upgradeSteps origin version.target steps) ∧
      ∃ mismatch, planComponentSchemaMigration version (some origin) upgradeSteps =
        .error mismatch := by
  rw [plan_of_plannable h]
  simp only [upgradeChain_iff h]
  by_cases hversion : origin.version = version.version
  · by_cases hfingerprint : origin.fingerprint = version.fingerprint
    · refine .inl ⟨?_, by rw [if_pos hversion, if_pos hfingerprint]⟩
      cases origin
      simp_all [ComponentSchemaVersion.target]
    · refine .inr (.inr ⟨?_, ?_, _, by rw [if_pos hversion, if_neg hfingerprint]⟩)
      · rintro rfl
        exact hfingerprint rfl
      · rintro ⟨steps, hbelow, -⟩
        omega
  · have horigin : origin ≠ version.target := by
      rintro rfl
      exact hversion rfl
    rw [if_neg hversion]
    by_cases hnewer : version.version < origin.version
    · refine .inr (.inr ⟨horigin, ?_, _, by rw [if_pos hnewer]⟩)
      rintro ⟨steps, hbelow, -⟩
      omega
    · rw [if_neg hnewer]
      cases hsteps : selectSteps version.target upgradeSteps
        (fun step hstep => (h.steps step hstep).advances) origin []
        with
      | ok steps => exact .inr (.inl ⟨steps, ⟨by omega, rfl⟩, rfl⟩)
      | error mismatch =>
          refine .inr (.inr ⟨horigin, ?_, mismatch, rfl⟩)
          rintro ⟨steps, -, hok⟩
          cases hok

theorem not_upgradeChain_current : ¬UpgradeChain upgradeSteps current current steps := fun h =>
  absurd h.below (lt_irrefl _)

theorem plan_sound_and_complete (version : ComponentSchemaVersion)
    (recorded : Option RecordedComponentSchemaVersion)
    (upgradeSteps : List ComponentSchemaMigrationStep) :
    (planComponentSchemaMigration version recorded upgradeSteps = .ok .freshInstall ↔
      Plannable version.target upgradeSteps ∧ recorded = none) ∧
    (planComponentSchemaMigration version recorded upgradeSteps = .ok .alreadyCurrent ↔
      Plannable version.target upgradeSteps ∧ recorded = some version.target) ∧
    (∀ origin steps, planComponentSchemaMigration version recorded upgradeSteps =
      .ok (.upgrade origin steps) ↔
      Plannable version.target upgradeSteps ∧ recorded = some origin ∧
        UpgradeChain upgradeSteps origin version.target steps) ∧
    ((∃ mismatch, planComponentSchemaMigration version recorded upgradeSteps = .error mismatch) ↔
      ¬Plannable version.target upgradeSteps ∨
        ∃ origin, recorded = some origin ∧ origin ≠ version.target ∧
          ¬∃ steps, UpgradeChain upgradeSteps origin version.target steps) := by
  by_cases h : Plannable version.target upgradeSteps
  · cases recorded with
    | none =>
        have hplan : planComponentSchemaMigration version none upgradeSteps = .ok .freshInstall :=
          plan_of_plannable h
        simp [hplan, h]
    | some origin =>
        rcases plan_recorded h origin with ⟨rfl, hplan⟩ |
          ⟨steps, hchain, hplan⟩ | ⟨horigin, hnone, mismatch, hplan⟩
        · refine ⟨by simp [hplan], by simp [hplan, h], fun origin steps => ?_, by simp [hplan, h]⟩
          rw [hplan]
          refine ⟨nofun, ?_⟩
          rintro ⟨-, ⟨⟩, hchain⟩
          exact absurd hchain not_upgradeChain_current
        · have horigin : origin ≠ version.target := by
            rintro rfl
            exact not_upgradeChain_current hchain
          refine ⟨by simp [hplan], by simp [hplan, horigin], fun origin' steps' => ?_, ?_⟩
          · rw [hplan]
            constructor
            · rintro ⟨⟩
              exact ⟨h, rfl, hchain⟩
            · rintro ⟨-, ⟨⟩, hchain'⟩
              rw [hchain.unique h hchain']
          · rw [hplan]
            refine ⟨nofun, ?_⟩
            rintro (hnot | ⟨_, ⟨⟩, -, hnone⟩)
            · exact absurd h hnot
            · exact absurd ⟨steps, hchain⟩ hnone
        · refine ⟨by simp [hplan], by simp [hplan, horigin], fun origin' steps' => ?_, ?_⟩
          · rw [hplan]
            refine ⟨nofun, ?_⟩
            rintro ⟨-, ⟨⟩, hchain⟩
            exact absurd ⟨steps', hchain⟩ hnone
          · exact ⟨fun _ => .inr ⟨origin, rfl, horigin, hnone⟩, fun _ => ⟨mismatch, hplan⟩⟩
  · obtain ⟨mismatch, hplan⟩ := plan_of_not_plannable recorded h
    simp [hplan, h]

/-- An upgrade step that does not advance is refused even where nothing is recorded. -/
theorem freshInstall_refused :
    planComponentSchemaMigration ⟨"kv", "main", 1, "v1"⟩ none [⟨⟨1, "v1"⟩, ⟨1, "v1"⟩⟩] =
      .error (.stepDoesNotAdvance 1 1) := rfl

end Planner

end Paranoid.SchemaMigration

import Paranoid.SchemaLedgerModel

namespace Paranoid.SchemaLedger

open EdgeWalks Postgres RowLocks SchemaLedgerModel SchemaMigration Transitions

variable {T : Type}

section Running

variable (engine : Engine T) (schema : ComponentSchema)

def runStatements : List String → T → Except Error T
  | [], tables => .ok tables
  | statement :: statements, tables => engine.execute statement tables >>= runStatements statements

/-- The statements of all these steps, in order. -/
def runSteps : List ComponentSchemaMigrationStep → T → Except Error T
  | [], tables => .ok tables
  | step :: steps, tables => do
      let migration ← componentSchemaMigrationForStep schema step
      runStatements engine migration.statements tables >>= runSteps steps

def runPlan : ComponentSchemaMigrationPlan → T → Except Error T
  | .freshInstall => runStatements engine schema.freshInstallStatements
  | .alreadyCurrent => .ok
  | .upgrade _ steps => runSteps engine schema steps

/-- The checks find the tables as they should be. -/
def Passed (checks : List String) (tables : T) : Prop :=
  ∀ check ∈ checks, engine.evaluate check tables = .ok (some true)

/-- What a migration in progress has still to run. -/
def runRest (statements : List String) (steps : List ComponentSchemaMigrationStep) (tables : T) :
    Except Error T :=
  runStatements engine statements tables >>= runSteps engine schema steps

end Running

/-- The ledger row and the tables of an instance that a fresh install and complete chains of
upgrade steps have left, each of which has run in order and has passed its checks. -/
inductive Told (engine : Engine T) (i : Instance) (initial : T) :
    List Migrated → Option RecordedComponentSchemaVersion → T → Prop
  | nothing : Told engine i initial [] none initial
  | freshInstall {schema : ComponentSchema} {tables : T} (hkey : schema.ledgerKey = i)
      (hrun : runStatements engine schema.freshInstallStatements initial = .ok tables)
      (hpassed : Passed engine schema.validationChecks tables) :
      Told engine i initial [⟨schema, []⟩] (some schema.currentVersion.target) tables
  | upgrade {migrated : List Migrated} {origin : RecordedComponentSchemaVersion} {schema : ComponentSchema}
      {steps : List ComponentSchemaMigrationStep} {before tables : T}
        (htold : Told engine i initial migrated (some origin) before)
      (hkey : schema.ledgerKey = i)
      (hchain : UpgradeChain (schema.migrations.map (·.step)) origin schema.currentVersion.target steps)
      (hrun : runSteps engine schema steps before = .ok tables)
      (hpassed : Passed engine schema.validationChecks tables) :
      Told engine i initial (migrated ++ [⟨schema, steps⟩]) (some schema.currentVersion.target) tables

section Told

variable {engine : Engine T} {i : Instance} {initial tables tables' : T} {migrated : List Migrated}
  {recorded : Option RecordedComponentSchemaVersion}
  {schema : ComponentSchema} {plan : ComponentSchemaMigrationPlan}

/-- The plan that was drawn up for the recorded version, run and checked, tells the truth
about the current one. -/
theorem Told.migrates (h : Told engine i initial migrated recorded tables) (hkey : schema.ledgerKey = i)
    (hplan : planComponentSchemaMigration schema.currentVersion
      recorded (schema.migrations.map (·.step)) = .ok plan)
    (hrun : runPlan engine schema plan tables = .ok tables')
    (hpassed : Passed engine schema.validationChecks tables') :
    Told engine i initial (migrated ++ migratedBy schema plan)
      (some schema.currentVersion.target) tables' := by
  obtain ⟨hfresh, hcurrent, hupgrade, -⟩ := plan_sound_and_complete schema.currentVersion recorded
    (schema.migrations.map (·.step))
  cases plan with
  | freshInstall =>
      obtain ⟨-, rfl⟩ := hfresh.1 hplan
      cases h
      exact .freshInstall hkey hrun hpassed
  | alreadyCurrent =>
      obtain ⟨-, rfl⟩ := hcurrent.1 hplan
      cases hrun
      simpa [migratedBy] using h
  | upgrade origin steps =>
      obtain ⟨-, rfl, hchain⟩ := (hupgrade origin steps).1 hplan
      exact .upgrade h hkey hchain hrun hpassed

/-- Every step that has run has reached a version of its own, and none is beyond the
recorded one. -/
theorem Told.increasing (h : Told engine i initial migrated recorded tables) :
    ((migrated.flatMap (·.steps)).map (·.toTarget.version)).Pairwise (· < ·) ∧
      ∀ step ∈ migrated.flatMap (·.steps), ∃ version, recorded = some version ∧
        step.toTarget.version ≤ version.version := by
  induction h with
  | nothing => simp
  | freshInstall => simp
  | @upgrade migrated origin schema steps before tables htold hkey hchain hrun hpassed ih =>
      obtain ⟨hincreasing, hbound⟩ := ih
      obtain ⟨hbelow, hclimbs⟩ := List.pairwise_cons.1 hchain.increasing
      have hold : ∀ step ∈ migrated.flatMap (·.steps), step.toTarget.version ≤ origin.version := by
        intro step hstep
        obtain ⟨version, hversion, hle⟩ := hbound step hstep
        cases hversion
        exact hle
      have hnew : ∀ step ∈ steps, step.toTarget.version ≤ schema.currentVersion.version :=
        fun step hstep =>
        hchain.walk.le_of_climbs hchain.increasing
          _ (List.mem_cons_of_mem _ (List.mem_map_of_mem hstep))
      simp only [List.flatMap_append, List.map_append,
        List.flatMap_cons, List.flatMap_nil, List.append_nil]
      constructor
      · refine List.pairwise_append.2 ⟨hincreasing, ?_, ?_⟩
        · have hsteps := List.pairwise_map.1 hclimbs
          exact List.pairwise_map.2 hsteps
        · intro earlier hearlier later hlater
          obtain ⟨step, hstep, rfl⟩ := List.mem_map.1 hearlier
          obtain ⟨step', hstep', rfl⟩ := List.mem_map.1 hlater
          exact (hold step hstep).trans_lt (hbelow _ (List.mem_map_of_mem hstep'))
      · intro step hstep
        refine ⟨_, rfl, ?_⟩
        rcases List.mem_append.1 hstep with hstep | hstep
        · exact (hold step hstep).trans hchain.below.le
        · exact hnew step hstep

end Told

/-- The transaction has the ledger row of the instance, where it sees this version; the
plan is the one for the committed row, and the tables are the committed ones and those
that the transaction sees. -/
structure Drawn (s : State T) (tx : Nat) (schema : ComponentSchema)
    (plan : ComponentSchemaMigrationPlan)
    (row : RecordedComponentSchemaVersion) (before after : T) : Prop where
  planned : planComponentSchemaMigration schema.currentVersion (s.ledger.committed schema.ledgerKey)
    (schema.migrations.map (·.step)) = .ok plan
  held : ∃ written, s.ledger.hold schema.ledgerKey = some ⟨tx, written⟩
  row : s.ledger.row tx schema.ledgerKey = some row
  before : s.tables.committed schema.ledgerKey = some before
  after : s.tables.row tx schema.ledgerKey = some after

/-- What a phase promises about its transaction: what it has run and what it has still to
run is the plan. -/
def Backed (engine : Engine T) (s : State T) (tx : Nat) : Phase → Prop
  | .executing schema plan statements steps =>
      ∃ row before after, Drawn s tx schema plan row before after ∧
      row = (s.ledger.committed schema.ledgerKey).getD schema.currentVersion.target ∧
      runRest engine schema statements steps after = runPlan engine schema plan before
  | .validating schema plan checks => ∃ row before after, Drawn s tx schema plan row before after ∧
      row = (s.ledger.committed schema.ledgerKey).getD schema.currentVersion.target ∧
      runPlan engine schema plan before = .ok after ∧
      ∃ passed, schema.validationChecks = passed ++ checks ∧ Passed engine passed after
  | .recording schema plan => ∃ row before after, Drawn s tx schema plan row before after ∧
      runPlan engine schema plan before = .ok after ∧ Passed engine schema.validationChecks after
  | .recorded schema plan | .done schema plan => ∃ before after,
      Drawn s tx schema plan schema.currentVersion.target before after ∧
      runPlan engine schema plan before = .ok after ∧ Passed engine schema.validationChecks after
  | _ => True

/-- A transaction in this phase may have the ledger row of the instance. -/
def MayHold (i : Instance) : Phase → Prop
  | .idle | .ledgerReady _ | .conflicted _ => False
  | .executing schema _ _ _ | .validating schema _ _ | .recording schema _ | .recorded schema _ | .done schema _ =>
      schema.ledgerKey = i
  | .failed _ => True

/-- The ledger tells the truth about every instance, and a migrator changes the tables of
an instance only while it has its row in the ledger. -/
structure Inv (engine : Engine T) (initial : Instance → T) (s : State T) : Prop where
  told : ∀ i, ∃ tables, s.tables.committed i = some tables ∧
    Told engine i (initial i) (s.migrated i) (s.ledger.committed i) tables
  present : ∀ i hold, s.ledger.hold i = some hold → hold.written = none → (s.ledger.committed i).isSome
  covered : ∀ i hold, s.tables.hold i = some hold →
    ∃ hold', s.ledger.hold i = some hold' ∧ hold'.tx = hold.tx
  mayHold : ∀ i hold, s.ledger.hold i = some hold → MayHold i (s.phase hold.tx)
  backed : ∀ tx, Backed engine s tx (s.phase tx)

variable {engine : Engine T} {initial : Instance → T} {s s' : State T} {tx other : Nat} {phase : Phase}
  {schema : ComponentSchema} {plan : ComponentSchemaMigrationPlan} {i : Instance}

theorem inv_start (engine : Engine T) (initial : Instance → T) :
    Inv engine initial (start initial) := by
  constructor
  · exact fun i => ⟨initial i, rfl, .nothing⟩
  · simp [start, Table.start]
  · simp [start, Table.start]
  · simp [start, Table.start]
  · simp [start, Backed]

/-- What a migrator relies on at its instance is the same in both states. -/
structure Same (s s' : State T) (tx : Nat) (i : Instance) : Prop where
  recorded : s'.ledger.committed i = s.ledger.committed i
  held : s'.ledger.hold i = s.ledger.hold i
  before : s'.tables.committed i = s.tables.committed i
  after : s'.tables.row tx i = s.tables.row tx i

theorem Drawn.same {row : RecordedComponentSchemaVersion}
    {before after : T} (h : Drawn s tx schema plan row before after)
    (hsame : Same s s' tx schema.ledgerKey) : Drawn s' tx schema plan row before after := by
  refine ⟨hsame.recorded ▸ h.planned, hsame.held ▸ h.held,
    ?_, hsame.before ▸ h.before, hsame.after ▸ h.after⟩
  rw [← h.row]
  simp only [Table.row, hsame.held, hsame.recorded]

/-- A migrator depends on an instance only while it has its row. -/
theorem Backed.same (h : Backed engine s tx phase)
    (hsame : ∀ i written, s.ledger.hold i = some ⟨tx, written⟩ → Same s s' tx i) :
    Backed engine s' tx phase := by
  unfold Backed at *
  split
  · obtain ⟨row, before, after, hdrawn, hrow, hrest⟩ := h
    have hi := hsame _ _ hdrawn.held.choose_spec
    exact ⟨row, before, after, hdrawn.same hi, hi.recorded ▸ hrow, hrest⟩
  · obtain ⟨row, before, after, hdrawn, hrow, hrest⟩ := h
    have hi := hsame _ _ hdrawn.held.choose_spec
    exact ⟨row, before, after, hdrawn.same hi, hi.recorded ▸ hrow, hrest⟩
  · obtain ⟨row, before, after, hdrawn, hrest⟩ := h
    exact ⟨row, before, after, hdrawn.same (hsame _ _ hdrawn.held.choose_spec), hrest⟩
  · obtain ⟨before, after, hdrawn, hrest⟩ := h
    exact ⟨before, after, hdrawn.same (hsame _ _ hdrawn.held.choose_spec), hrest⟩
  · obtain ⟨before, after, hdrawn, hrest⟩ := h
    exact ⟨before, after, hdrawn.same (hsame _ _ hdrawn.held.choose_spec), hrest⟩
  · trivial

theorem same_of_touches {keys keys' : Instance → Prop}
    {written : Option (Option RecordedComponentSchemaVersion)}
    (hledger : Touches tx keys s.ledger s'.ledger)
    (htables : Touches tx keys' s.tables s'.tables) (hne : other ≠ tx)
    (hheld : s.ledger.hold i = some ⟨other, written⟩) : Same s s' other i where
  recorded := congrFun hledger.committed i
  held := (hledger.kept i _ hheld (.inl hne)).trans hheld.symm
  before := congrFun htables.committed i
  after := htables.row hne i

/-- The invariant after a statement of a migrator, which commits nothing. -/
theorem Inv.touches (h : Inv engine initial s) {keys : Instance → Prop}
    (hledger : Touches tx keys s.ledger s'.ledger)
    (htables : Touches tx keys s.tables s'.tables) (hmigrated : s'.migrated = s.migrated)
    (hphase : s'.phase = Function.update s.phase tx phase)
    (hmay : ∀ i, MayHold i (s.phase tx) → MayHold i phase)
    (hkeys : ∀ i, keys i → MayHold i phase)
    (hpresent : ∀ i, keys i → ∀ hold,
      s'.ledger.hold i = some hold → hold.written = none → (s.ledger.committed i).isSome)
    (hcovered : ∀ i, keys i → ∀ hold, s'.tables.hold i = some hold →
      ∃ hold', s'.ledger.hold i = some hold' ∧ hold'.tx = hold.tx)
    (hbacked : Backed engine s' tx phase) : Inv engine initial s' := by
  constructor
  · intro i
    rw [htables.committed, hledger.committed, hmigrated]
    exact h.told i
  · intro i hold hhold hwritten
    rw [hledger.committed]
    rcases hledger.old i hold hhold with hold' | ⟨-, hkey⟩
    · exact h.present i hold hold' hwritten
    · exact hpresent i hkey hold hhold hwritten
  · intro i hold hhold
    by_cases hkey : keys i
    · exact hcovered i hkey hold hhold
    · rcases htables.old i hold hhold with hold' | ⟨-, hkey'⟩
      · obtain ⟨held, hheld, htx⟩ := h.covered i hold hold'
        exact ⟨held, hledger.kept i held hheld (.inr hkey), htx⟩
      · exact absurd hkey' hkey
  · intro i hold hhold
    rw [hphase]
    rcases hledger.old i hold hhold with hold' | ⟨htx, hkey⟩
    · have hold_may := h.mayHold i hold hold'
      by_cases htx : hold.tx = tx
      · rw [htx, Function.update_self]
        exact hmay i (htx ▸ hold_may)
      · rwa [Function.update_of_ne htx]
    · rw [htx, Function.update_self]
      exact hkeys i hkey
  · intro other
    rw [hphase]
    by_cases htx : other = tx
    · rwa [htx, Function.update_self]
    · rw [Function.update_of_ne htx]
      exact (h.backed other).same fun i written hheld => same_of_touches hledger htables htx hheld

theorem Inv.enter (h : Inv engine initial s) (hmay : ∀ i, MayHold i (s.phase tx) → MayHold i phase)
    (hbacked : Backed engine s tx phase) : Inv engine initial (s.enter tx phase) := by
  have hbacked' : Backed engine (s.enter tx phase) tx phase :=
    hbacked.same fun _ _ _ => ⟨rfl, rfl, rfl, rfl⟩
  exact h.touches (.refl tx (fun _ => False) s.ledger)
    (.refl tx _ s.tables) rfl rfl hmay nofun nofun nofun hbacked'

theorem Inv.failed (h : Inv engine initial s) (tx : Nat) (error : Error) :
    Inv engine initial (s.enter tx (.failed error)) :=
  h.enter (fun _ _ => trivial) trivial

/-- A migrator that cannot have the row of an instance has it free or not at all. -/
theorem Inv.hold_eq_none (h : Inv engine initial s)
    (hnot : ¬MayHold i (s.phase tx)) (hfree : s.ledger.free tx i = true) :
    s.ledger.hold i = none := by
  cases hhold : s.ledger.hold i with
  | none => rfl
  | some hold =>
      have htx := free_iff.1 hfree hold hhold
      exact absurd (htx ▸ h.mayHold i hold hhold) hnot

/-- Nobody has changed the tables of an instance whose row nobody has. -/
theorem Inv.tables_hold_eq_none (h : Inv engine initial s) (hnone : s.ledger.hold i = none) :
    s.tables.hold i = none := by
  cases hhold : s.tables.hold i with
  | none => rfl
  | some hold =>
      obtain ⟨hold', hheld, -⟩ := h.covered i hold hhold
      simp [hnone] at hheld

theorem Inv.executeSchemaLedgerMigration (h : Inv engine initial s) (hidle : s.phase tx = .idle) :
    Inv engine initial (executeSchemaLedgerMigration tx schema s) := by
  have hmay : ∀ i, MayHold i (s.phase tx) → MayHold i (.ledgerReady schema) := by simp [hidle, MayHold]
  unfold SchemaLedgerModel.executeSchemaLedgerMigration
  split
  · exact h.failed tx _
  · split
    · exact h.enter hmay trivial
    · split
      · exact h.touches (.refl tx (fun _ => False) s.ledger)
          (.refl tx _ s.tables) rfl rfl hmay nofun nofun nofun trivial
      · split
        · exact h.enter hmay trivial
        · exact h

theorem mayHold_planned (schema : ComponentSchema) (recorded : Option RecordedComponentSchemaVersion) :
    MayHold schema.ledgerKey (planned schema recorded) := by
  unfold planned
  split <;> simp [MayHold]

/-- The plan is drawn up when nothing has been run of it. -/
theorem backed_planned {recorded : Option RecordedComponentSchemaVersion} {tables : T}
    (hcommitted : s.ledger.committed schema.ledgerKey = recorded)
    (hheld : ∃ written, s.ledger.hold schema.ledgerKey = some ⟨tx, written⟩)
    (hrow : s.ledger.row tx schema.ledgerKey = some (recorded.getD schema.currentVersion.target))
    (hbefore : s.tables.committed schema.ledgerKey = some tables)
    (hafter : s.tables.row tx schema.ledgerKey = some tables) :
    Backed engine s tx (planned schema recorded) := by
  have hdrawn : ∀ plan,
    planComponentSchemaMigration schema.currentVersion recorded (schema.migrations.map (·.step)) =
      .ok plan → Drawn s tx schema plan (recorded.getD schema.currentVersion.target) tables tables := by
    intro plan hplan
    exact ⟨hcommitted.symm ▸ hplan, hheld, hrow, hbefore, hafter⟩
  have hgetD : recorded.getD schema.currentVersion.target =
      (s.ledger.committed schema.ledgerKey).getD schema.currentVersion.target := by rw [hcommitted]
  unfold planned
  split
  · trivial
  · rename_i hplan
    refine ⟨_, _, _, hdrawn _ hplan, hgetD, ?_⟩
    simp only [runRest, runPlan]
    cases runStatements engine schema.freshInstallStatements tables <;> rfl
  · rename_i hplan
    exact ⟨_, _, _, hdrawn _ hplan, hgetD, rfl, [], rfl, nofun⟩
  · rename_i hplan
    exact ⟨_, _, _, hdrawn _ hplan, hgetD, rfl⟩

theorem free_of_absent (h : Inv engine initial s) (hunwritten : s.ledger.unwritten tx i = true)
    (habsent : (s.ledger.row tx i).isNone = true) : s.ledger.free tx i = true := by
  refine free_iff.2 fun hold hhold => ?_
  by_contra htx
  have hwritten : hold.written = none := by
    have hall := hunwritten
    simp only [Table.unwritten, hhold, Option.all_some, Bool.or_eq_true, decide_eq_true_eq] at hall
    exact Option.isNone_iff_eq_none.1 (hall.resolve_left htx)
  have hpresent := h.present i hold hhold hwritten
  rw [row_of_others fun hold' hhold' => ?_] at habsent
  · simp [Option.isNone_iff_eq_none.1 habsent] at hpresent
  · rw [hhold] at hhold'
    cases hhold'
    exact htx

theorem Inv.claimComponentSchemaVersionRow (h : Inv engine initial s)
    (hphase : s.phase tx = .ledgerReady schema) :
    Inv engine initial (claimComponentSchemaVersionRow tx schema s) := by
  have hnot : ∀ i, ¬MayHold i (s.phase tx) := by simp [hphase, MayHold]
  unfold SchemaLedgerModel.claimComponentSchemaVersionRow
  by_cases hunwritten : s.ledger.unwritten tx schema.ledgerKey = true
  · rw [if_pos hunwritten]
    by_cases habsent : (s.ledger.row tx schema.ledgerKey).isNone = true
    · rw [if_pos habsent]
      have hfree := free_of_absent h hunwritten habsent
      have hnone := h.hold_eq_none (hnot _) hfree
      have htables := h.tables_hold_eq_none hnone
      obtain ⟨tables, hcommitted, -⟩ := h.told schema.ledgerKey
      have hown : decide (schema.ledgerKey = schema.ledgerKey) = true := decide_eq_true rfl
      refine h.touches ((touches_writeWhere ?_).mono fun _ => of_decide_eq_true)
        (.refl tx (· = schema.ledgerKey) s.tables)
        rfl rfl (fun i hi => absurd hi (hnot i)) ?_ ?_ ?_ ?_
      · intro key hkey
        rwa [of_decide_eq_true hkey]
      · rintro _ rfl
        exact mayHold_planned schema none
      · rintro _ rfl hold hhold hwritten
        obtain ⟨hkey, -⟩ | ⟨-, rfl⟩ := hold_writeWhere hhold
        · simp at hkey
        · cases hwritten
      · rintro _ rfl hold hhold
        exact absurd hhold (by simp [State.enter, htables])
      · refine backed_planned ?_ ⟨_, hold_writeWhere_of_mem hown⟩
          (row_writeWhere_of_mem hown) hcommitted ?_
        · have hrow := Option.isNone_iff_eq_none.1 habsent
          rwa [row_of_others (by simp [hnone])] at hrow
        · change s.tables.row tx schema.ledgerKey = some tables
          rw [row_of_others (by simp [htables]), hcommitted]
    · rw [if_neg habsent]
      exact h.enter (fun i hi => absurd hi (hnot i)) trivial
  · rw [if_neg hunwritten]
    exact h

theorem Inv.lockComponentSchemaVersionRow (h : Inv engine initial s)
    (hphase : s.phase tx = .conflicted schema) :
    Inv engine initial (lockComponentSchemaVersionRow tx schema s) := by
  have hnot : ∀ i, ¬MayHold i (s.phase tx) := by simp [hphase, MayHold]
  unfold SchemaLedgerModel.lockComponentSchemaVersionRow
  by_cases hfree : s.ledger.free tx schema.ledgerKey = true
  · rw [if_pos hfree]
    have hnone := h.hold_eq_none (hnot _) hfree
    have htables := h.tables_hold_eq_none hnone
    obtain ⟨tables, hcommitted, -⟩ := h.told schema.ledgerKey
    split
    · exact h.failed tx _
    · rename_i recorded hrow
      rw [row_of_others (by simp [hnone])] at hrow
      have hheld : (s.ledger.lock tx schema.ledgerKey).hold schema.ledgerKey = some ⟨tx, none⟩ := by
        simp [Table.lock, hnone]
      refine h.touches (touches_lock hfree) (.refl tx (· = schema.ledgerKey) s.tables) rfl rfl
        (fun i hi => absurd hi (hnot i)) ?_ ?_ ?_ ?_
      · rintro _ rfl
        exact mayHold_planned schema (some recorded)
      · rintro _ rfl hold - -
        simp [hrow]
      · rintro _ rfl hold hhold
        exact absurd hhold (by simp [State.enter, htables])
      · refine backed_planned hrow ⟨_, hheld⟩ ?_ hcommitted ?_
        · exact (row_of_hold hheld rfl).trans hrow
        · change s.tables.row tx schema.ledgerKey = some tables
          rw [row_of_others (by simp [htables]), hcommitted]
  · rw [if_neg hfree]
    exact h

theorem Inv.executeComponentSchemaStatements (h : Inv engine initial s) {statements : List String}
    {steps : List ComponentSchemaMigrationStep}
    (hphase : s.phase tx = .executing schema plan statements steps) :
    Inv engine initial (executeComponentSchemaStatements engine tx schema plan s statements steps) := by
  have hbacked := h.backed tx
  rw [hphase] at hbacked
  obtain ⟨row, before, after, hdrawn, hrow, hrest⟩ := hbacked
  have hmay : ∀ {phase : Phase}, MayHold schema.ledgerKey phase → ∀ i, MayHold i (s.phase tx) →
    MayHold i phase := by
    rw [hphase]
    rintro phase hmay _ rfl
    exact hmay
  cases statements with
  | cons statement statements =>
      simp only [SchemaLedgerModel.executeComponentSchemaStatements]
      split
      · rename_i hfree
        rw [hdrawn.after]
        dsimp only
        split
        · exact h.failed tx _
        · rename_i tables htables
          have hown : decide (schema.ledgerKey = schema.ledgerKey) = true := decide_eq_true rfl
          obtain ⟨written, hheld⟩ := hdrawn.held
          refine h.touches (.refl tx (· = schema.ledgerKey) s.ledger)
            ((touches_writeWhere ?_).mono fun _ => of_decide_eq_true) rfl rfl (hmay rfl) ?_ ?_ ?_ ?_
          · intro key hkey
            rwa [of_decide_eq_true hkey]
          · rintro _ rfl
            rfl
          · rintro _ rfl hold hhold hwritten
            exact h.present _ hold hhold hwritten
          · rintro _ rfl hold hhold
            obtain ⟨hkey, -⟩ | ⟨-, rfl⟩ := hold_writeWhere hhold
            · simp at hkey
            · exact ⟨_, hheld, rfl⟩
          · refine ⟨row, before, tables,
              ⟨hdrawn.planned, hdrawn.held, hdrawn.row, hdrawn.before, ?_⟩, hrow, ?_⟩
            · exact row_writeWhere_of_mem hown
            · rw [← hrest]
              simp only [runRest, runStatements, htables, ok_bind]
      · exact h
  | nil =>
      cases steps with
      | cons step steps =>
          simp only [SchemaLedgerModel.executeComponentSchemaStatements]
          split
          · exact h.failed tx _
          · rename_i migration hmigration
            refine h.enter (hmay rfl) ⟨row, before, after, hdrawn, hrow, ?_⟩
            rw [← hrest]
            simp only [runRest, runStatements, runSteps, hmigration, ok_bind]
      | nil => exact h.enter (hmay rfl) ⟨row, before, after, hdrawn, hrow, hrest.symm, [], rfl, by rintro _ ⟨⟩⟩

theorem Inv.executeComponentSchemaValidationChecks (h : Inv engine initial s) {checks : List String}
    (hphase : s.phase tx = .validating schema plan checks) :
    Inv engine initial (executeComponentSchemaValidationChecks engine tx schema plan s checks) := by
  have hbacked := h.backed tx
  rw [hphase] at hbacked
  obtain ⟨row, before, after, hdrawn, hrow, hrun, passed, hchecks, hpassed⟩ := hbacked
  have hmay : ∀ {phase : Phase}, MayHold schema.ledgerKey phase → ∀ i, MayHold i (s.phase tx) →
    MayHold i phase := by
    rw [hphase]
    rintro phase hmay _ rfl
    exact hmay
  cases checks with
  | cons check checks =>
      simp only [SchemaLedgerModel.executeComponentSchemaValidationChecks, hdrawn.after]
      split
      · exact h.failed tx _
      · rename_i htrue
        refine h.enter (hmay rfl)
          ⟨row, before, after, hdrawn, hrow, hrun, passed ++ [check], by simp [hchecks], ?_⟩
        intro check' hcheck'
        rcases List.mem_append.1 hcheck' with hcheck' | hcheck'
        · exact hpassed check' hcheck'
        · rw [List.mem_singleton.1 hcheck', htrue]
      · exact h.failed tx _
      · exact h.failed tx _
  | nil =>
      rw [List.append_nil] at hchecks
      rw [← hchecks] at hpassed
      cases plan with
      | alreadyCurrent =>
          -- The row is the committed one, and that is what the migrator has found current.
          obtain ⟨-, hcurrent, -⟩ := plan_sound_and_complete schema.currentVersion
            (s.ledger.committed schema.ledgerKey) (schema.migrations.map (·.step))
          rw [(hcurrent.1 hdrawn.planned).2, Option.getD_some] at hrow
          exact h.enter (hmay rfl) ⟨before, after, hrow ▸ hdrawn, hrun, hpassed⟩
      | freshInstall | upgrade origin steps =>
          exact h.enter (hmay rfl) ⟨row, before, after, hdrawn, hrun, hpassed⟩

theorem Inv.recordComponentSchemaMigrationCompletion (h : Inv engine initial s)
    (hphase : s.phase tx = .recording schema plan) :
    Inv engine initial (recordComponentSchemaMigrationCompletion tx schema plan s) := by
  have hbacked := h.backed tx
  rw [hphase] at hbacked
  obtain ⟨row, before, after, hdrawn, hrun, hpassed⟩ := hbacked
  have hmay : ∀ i, MayHold i (s.phase tx) → MayHold i (.recorded schema plan) := by
    simp [hphase, MayHold]
  unfold SchemaLedgerModel.recordComponentSchemaMigrationCompletion
  split
  · rename_i hfree
    split
    · have hown : decide (schema.ledgerKey = schema.ledgerKey) = true := decide_eq_true rfl
      refine h.touches ((touches_writeWhere ?_).mono fun _ => of_decide_eq_true)
        (.refl tx (· = schema.ledgerKey) s.tables) rfl rfl hmay ?_ ?_ ?_ ?_
      · intro key hkey
        rwa [of_decide_eq_true hkey]
      · rintro _ rfl
        rfl
      · rintro _ rfl hold hhold hwritten
        obtain ⟨hkey, -⟩ | ⟨-, rfl⟩ := hold_writeWhere hhold
        · simp at hkey
        · cases hwritten
      · rintro _ rfl hold hhold
        obtain ⟨held, hheld, htx⟩ := h.covered _ hold hhold
        exact ⟨_, hold_writeWhere_of_mem hown, (free_iff.1 hfree held hheld).symm.trans htx⟩
      · exact ⟨before, after,
          ⟨hdrawn.planned, ⟨_, hold_writeWhere_of_mem hown⟩, row_writeWhere_of_mem hown, hdrawn.before,
          hdrawn.after⟩, hrun, hpassed⟩
    · exact h.failed tx _
  · exact h

theorem Inv.validateComponentSchemaVersionRow (h : Inv engine initial s)
    (hphase : s.phase tx = .recorded schema plan) :
    Inv engine initial (validateComponentSchemaVersionRow tx schema plan s) := by
  have hbacked := h.backed tx
  rw [hphase] at hbacked
  have hmay : ∀ i, MayHold i (s.phase tx) → MayHold i (.done schema plan) := by simp [hphase, MayHold]
  unfold SchemaLedgerModel.validateComponentSchemaVersionRow
  split
  · exact h.failed tx _
  · split
    · exact h.failed tx _
    · split
      · exact h.failed tx _
      · exact h.enter hmay hbacked

theorem Inv.proceed (h : Inv engine initial s) (tx : Nat) :
    Inv engine initial (proceed engine tx s) := by
  unfold SchemaLedgerModel.proceed
  split
  · rename_i hphase
    exact h.claimComponentSchemaVersionRow hphase
  · rename_i hphase
    exact h.lockComponentSchemaVersionRow hphase
  · rename_i hphase
    exact h.executeComponentSchemaStatements hphase
  · rename_i hphase
    exact h.executeComponentSchemaValidationChecks hphase
  · rename_i hphase
    exact h.recordComponentSchemaMigrationCompletion hphase
  · rename_i hphase
    exact h.validateComponentSchemaVersionRow hphase
  · exact h

/-- A transaction has changed no tables of an instance whose row it does not have. -/
theorem Inv.tables_others (h : Inv engine initial s)
    (hothers : ∀ hold, s.ledger.hold i = some hold → hold.tx ≠ tx) :
    ∀ hold, s.tables.hold i = some hold → hold.tx ≠ tx := by
  intro hold hhold
  obtain ⟨hold', hheld, htx⟩ := h.covered i hold hhold
  exact htx ▸ hothers hold' hheld

theorem others_of_hold {written : Option (Option RecordedComponentSchemaVersion)}
    (hheld : s.ledger.hold i = some ⟨other, written⟩) (hne : other ≠ tx) :
    ∀ hold, s.ledger.hold i = some hold → hold.tx ≠ tx := by
  rw [hheld]
  rintro _ ⟨⟩
  exact hne

theorem Inv.others_of_done (h : Inv engine initial s) (hphase : s.phase tx = .done schema plan)
    (hi : schema.ledgerKey ≠ i) : ∀ hold, s.ledger.hold i = some hold → hold.tx ≠ tx := by
  rintro hold hhold rfl
  have hmay := h.mayHold i hold hhold
  rw [hphase] at hmay
  exact hi hmay

theorem Inv.commit (h : Inv engine initial s) (tx : Nat) : Inv engine initial (commit tx s).1 := by
  unfold SchemaLedgerModel.commit
  split
  swap
  · exact h
  rename_i schema plan hphase
  have hbacked := h.backed tx
  rw [hphase] at hbacked
  obtain ⟨before, after, hdrawn, hrun, hpassed⟩ := hbacked
  constructor
  · intro i
    by_cases hi : i = schema.ledgerKey
    · subst hi
      obtain ⟨tables, htables, htold⟩ := h.told schema.ledgerKey
      rw [hdrawn.before] at htables
      cases htables
      refine ⟨after, hdrawn.after, ?_⟩
      simp only [State.enter, Function.update_self, committed_commit, hdrawn.row]
      exact htold.migrates rfl hdrawn.planned hrun hpassed
    · have hothers := h.others_of_done hphase (Ne.symm hi)
      simp only [State.enter, Function.update_of_ne hi, committed_commit, row_of_others hothers,
        row_of_others (h.tables_others hothers)]
      exact h.told i
  · intro i hold hhold hwritten
    obtain ⟨hhold, hne⟩ := hold_commit.1 hhold
    change (s.ledger.row tx i).isSome = true
    rw [row_of_others (others_of_hold hhold hne)]
    exact h.present i hold hhold hwritten
  · intro i hold hhold
    obtain ⟨hhold, hne⟩ := hold_commit.1 hhold
    obtain ⟨hold', hheld, htx⟩ := h.covered i hold hhold
    exact ⟨hold', hold_commit.2 ⟨hheld, htx.trans_ne hne⟩, htx⟩
  · intro i hold hhold
    obtain ⟨hhold, hne⟩ := hold_commit.1 hhold
    simp only [State.enter, Function.update_of_ne hne]
    exact h.mayHold i hold hhold
  · intro other
    by_cases hne : other = tx
    · simp [State.enter, hne, Backed]
    · simp only [State.enter, Function.update_of_ne hne]
      refine (h.backed other).same fun i written hheld => ?_
      have hledger := others_of_hold hheld hne
      have htables := row_of_others (h.tables_others hledger)
      refine ⟨row_of_others hledger, (hold_commit.2 ⟨hheld, hne⟩).trans hheld.symm, htables, ?_⟩
      rcases row_commit_of_ne hne i with hrow | ⟨hrow, hcommitted⟩
      · exact hrow
      · exact (hrow.trans htables).trans hcommitted.symm

theorem Inv.abort (h : Inv engine initial s) (tx : Nat) : Inv engine initial (abort tx s) := by
  constructor
  · exact h.told
  · intro i hold hhold hwritten
    exact h.present i hold (hold_abort.1 hhold).1 hwritten
  · intro i hold hhold
    obtain ⟨hhold, hne⟩ := hold_abort.1 hhold
    obtain ⟨hold', hheld, htx⟩ := h.covered i hold hhold
    exact ⟨hold', hold_abort.2 ⟨hheld, htx.trans_ne hne⟩, htx⟩
  · intro i hold hhold
    obtain ⟨hhold, hne⟩ := hold_abort.1 hhold
    simp only [SchemaLedgerModel.abort, State.enter, Function.update_of_ne hne]
    exact h.mayHold i hold hhold
  · intro other
    by_cases hne : other = tx
    · simp [SchemaLedgerModel.abort, State.enter, hne, Backed]
    · simp only [SchemaLedgerModel.abort, State.enter, Function.update_of_ne hne]
      exact (h.backed other).same fun i written hheld =>
        ⟨rfl, (hold_abort.2 ⟨hheld, hne⟩).trans hheld.symm, rfl, row_abort_of_ne hne i⟩

theorem Inv.step (event : Event) (h : Inv engine initial s) :
    Inv engine initial (step engine event s).1 := by
  cases event with
  | begins tx schema =>
      simp only [SchemaLedgerModel.step]
      split
      · rename_i hidle
        exact h.executeSchemaLedgerMigration hidle
      · exact h
  | proceeds tx => exact h.proceed tx
  | commits tx => exact h.commit tx
  | aborts tx => exact h.abort tx

/-- The event commits a migration of the instance. -/
def Finishes (i : Instance) (event : Event) (s : State T) : Prop :=
  ∃ tx schema plan, event = .commits tx ∧ s.phase tx = .done schema plan ∧ schema.ledgerKey = i

/-- A statement of a migrator leaves what is committed and the other migrators alone. -/
structure Leaves (tx : Nat) (s s' : State T) : Prop where
  ledger : s'.ledger.committed = s.ledger.committed
  tables : s'.tables.committed = s.tables.committed
  phase : ∀ other, other ≠ tx → s'.phase other = s.phase other

theorem leaves_refl (tx : Nat) (s : State T) : Leaves tx s s := ⟨rfl, rfl, fun _ _ => rfl⟩

theorem leaves_enter (hledger : s'.ledger.committed = s.ledger.committed)
    (htables : s'.tables.committed = s.tables.committed) (hphase : s'.phase = s.phase) :
    Leaves tx s (s'.enter tx phase) := by
  refine ⟨hledger, htables, fun other hne => ?_⟩
  simp only [State.enter, Function.update_of_ne hne, hphase]

theorem leaves_executeComponentSchemaStatements (s : State T) (statements : List String)
    (steps : List ComponentSchemaMigrationStep) :
    Leaves tx s (executeComponentSchemaStatements engine tx schema plan s statements steps) := by
  cases statements with
  | cons statement statements =>
      simp only [executeComponentSchemaStatements]
      split_ifs
      · split
        · exact leaves_enter rfl rfl rfl
        · split <;> exact leaves_enter rfl rfl rfl
      · exact leaves_refl tx s
  | nil =>
      cases steps with
      | cons step steps =>
          simp only [executeComponentSchemaStatements]
          split <;> exact leaves_enter rfl rfl rfl
      | nil => exact leaves_enter rfl rfl rfl

theorem leaves_executeComponentSchemaValidationChecks (s : State T) (checks : List String) :
    Leaves tx s (executeComponentSchemaValidationChecks engine tx schema plan s checks) := by
  cases checks with
  | cons check checks =>
      simp only [executeComponentSchemaValidationChecks]
      split
      · exact leaves_enter rfl rfl rfl
      · split <;> exact leaves_enter rfl rfl rfl
  | nil => cases plan <;> exact leaves_enter rfl rfl rfl

theorem leaves_proceed (engine : Engine T) (tx : Nat) (s : State T) :
    Leaves tx s (proceed engine tx s) := by
  unfold proceed
  split
  · unfold claimComponentSchemaVersionRow
    split_ifs
    · exact leaves_enter rfl rfl rfl
    · exact leaves_enter rfl rfl rfl
    · exact leaves_refl tx s
  · unfold lockComponentSchemaVersionRow
    split_ifs
    · split <;> exact leaves_enter rfl rfl rfl
    · exact leaves_refl tx s
  · exact leaves_executeComponentSchemaStatements s _ _
  · exact leaves_executeComponentSchemaValidationChecks s _
  · unfold recordComponentSchemaMigrationCompletion
    split_ifs
    · exact leaves_enter rfl rfl rfl
    · exact leaves_enter rfl rfl rfl
    · exact leaves_refl tx s
  · unfold validateComponentSchemaVersionRow
    split
    · exact leaves_enter rfl rfl rfl
    · split_ifs <;> exact leaves_enter rfl rfl rfl
  · exact leaves_refl tx s

theorem leaves_executeSchemaLedgerMigration (tx : Nat) (schema : ComponentSchema) (s : State T) :
    Leaves tx s (executeSchemaLedgerMigration tx schema s) := by
  unfold executeSchemaLedgerMigration
  split
  · exact leaves_enter rfl rfl rfl
  · split_ifs
    · exact leaves_enter rfl rfl rfl
    · split
      · exact leaves_enter rfl rfl rfl
      · split_ifs
        · exact leaves_enter rfl rfl rfl
        · exact leaves_refl tx s

/-- What is committed of an instance is the same in both states. -/
structure Committed (s s' : State T) (i : Instance) : Prop where
  ledger : s'.ledger.committed i = s.ledger.committed i
  tables : s'.tables.committed i = s.tables.committed i

theorem Leaves.committed (h : Leaves tx s s') (i : Instance) : Committed s s' i :=
  ⟨congrFun h.ledger i, congrFun h.tables i⟩

/-- Only the commit of a finished migration changes what is committed of its instance. -/
theorem Inv.committed (h : Inv engine initial s) {event : Event} (hnot : ¬Finishes i event s) :
    Committed s (SchemaLedgerModel.step engine event s).1 i := by
  cases event with
  | begins tx schema =>
      simp only [SchemaLedgerModel.step]
      split
      · exact (leaves_executeSchemaLedgerMigration tx schema s).committed i
      · exact ⟨rfl, rfl⟩
  | proceeds tx => exact (leaves_proceed engine tx s).committed i
  | commits tx =>
      simp only [SchemaLedgerModel.step, SchemaLedgerModel.commit]
      split
      · rename_i schema plan hphase
        have hothers := h.others_of_done hphase fun hkey => hnot ⟨tx, schema, plan, rfl, hphase, hkey⟩
        exact ⟨row_of_others hothers, row_of_others (h.tables_others hothers)⟩
      · exact ⟨rfl, rfl⟩
  | aborts tx => exact ⟨rfl, rfl⟩

/-- What a finished migration records is not below what it has found. -/
theorem Inv.recorded_le (h : Inv engine initial s)
    (event : Event) {recorded : RecordedComponentSchemaVersion}
    (hrecorded : s.ledger.committed i = some recorded) :
    ∃ recorded', (SchemaLedgerModel.step engine event s).1.ledger.committed i = some recorded' ∧
      recorded.version ≤ recorded'.version := by
  by_cases hfinishes : Finishes i event s
  · obtain ⟨tx, schema, plan, rfl, hphase, rfl⟩ := hfinishes
    have hbacked := h.backed tx
    rw [hphase] at hbacked
    obtain ⟨before, after, hdrawn, -⟩ := hbacked
    refine ⟨schema.currentVersion.target, ?_, ?_⟩
    · simp only [SchemaLedgerModel.step, SchemaLedgerModel.commit,
        hphase, State.enter, committed_commit, hdrawn.row]
    · obtain ⟨hfresh, hcurrent, hupgrade, -⟩ :=
        plan_sound_and_complete schema.currentVersion (some recorded)
        (schema.migrations.map (·.step))
      have hplan := hdrawn.planned
      rw [hrecorded] at hplan
      cases plan with
      | freshInstall => cases (hfresh.1 hplan).2
      | alreadyCurrent =>
          cases (hcurrent.1 hplan).2
          exact le_rfl
      | upgrade origin steps =>
          obtain ⟨-, horigin, hchain⟩ := (hupgrade origin steps).1 hplan
          cases horigin
          exact hchain.below.le
  · exact ⟨recorded, (h.committed hfinishes).ledger.trans hrecorded, le_rfl⟩

/-- A migrator that has failed can only be aborted. -/
theorem failed_step {error : Error} {event : Event}
    (hevent : event ≠ .aborts tx) (hphase : s.phase tx = .failed error) :
    (step engine event s).1.phase tx = .failed error := by
  cases event with
  | begins other schema =>
      simp only [step]
      split
      · rename_i hidle
        have hne : tx ≠ other := by
          rintro rfl
          cases hphase.symm.trans hidle
        exact ((leaves_executeSchemaLedgerMigration other schema s).phase tx hne).trans hphase
      · exact hphase
  | proceeds other =>
      by_cases hne : tx = other
      · subst hne
        simp only [step, SchemaLedgerModel.proceed, hphase]
      · exact ((leaves_proceed engine other s).phase tx hne).trans hphase
  | commits other =>
      simp only [step, SchemaLedgerModel.commit]
      split
      · rename_i schema plan hdone
        have hne : tx ≠ other := by
          rintro rfl
          cases hphase.symm.trans hdone
        exact (Function.update_of_ne hne _ _).trans hphase
      · exact hphase
  | aborts other =>
      have hne : tx ≠ other := by
        rintro rfl
        exact hevent rfl
      exact (Function.update_of_ne hne _ _).trans hphase

theorem inv_exec (engine : Engine T) (initial : Instance → T) (events : List Event) :
    Inv engine initial (exec (step engine) events (start initial)) :=
  exec_invariant (Inv engine initial) (fun event _ h => h.step event) events (inv_start engine initial)

theorem Inv.exec_recorded_le (h : Inv engine initial s)
    (later : List Event) {recorded : RecordedComponentSchemaVersion}
    (hrecorded : s.ledger.committed i = some recorded) :
    ∃ recorded', (exec (SchemaLedgerModel.step engine) later s).ledger.committed i = some recorded' ∧
      recorded.version ≤ recorded'.version := by
  induction later generalizing s recorded with
  | nil => exact ⟨recorded, hrecorded, le_rfl⟩
  | cons event later ih =>
      obtain ⟨recorded', hrecorded', hle⟩ := h.recorded_le event hrecorded
      obtain ⟨recorded'', hrecorded'', hle'⟩ := ih (h.step event) hrecorded'
      exact ⟨recorded'', hrecorded'', hle.trans hle'⟩

theorem Inv.exec_committed (h : Inv engine initial s) {later : List Event}
    (hlater : Meets (fun event s => ¬Finishes i event s) (SchemaLedgerModel.step engine) later s) :
    Committed s (exec (SchemaLedgerModel.step engine) later s) i := by
  induction later generalizing s with
  | nil => exact ⟨rfl, rfl⟩
  | cons event later ih =>
      have hstep := h.committed hlater.1
      have hrest := ih (h.step event) hlater.2
      exact ⟨hrest.ledger.trans hstep.ledger, hrest.tables.trans hstep.tables⟩

theorem ledger_truthful (engine : Engine T) (initial : Instance → T) (events : List Event) :
    let s := exec (step engine) events (start initial)
    (∀ i, ∃ tables, s.tables.committed i = some tables ∧
      Told engine i (initial i) (s.migrated i) (s.ledger.committed i) tables) ∧
    (∀ i, ((s.migrated i).flatMap (·.steps)).Nodup) ∧
    (∀ i recorded later, s.ledger.committed i = some recorded →
      ∃ recorded', (exec (step engine) later s).ledger.committed i = some recorded' ∧
        recorded.version ≤ recorded'.version) ∧
    (∀ i later, Meets (fun event s => ¬Finishes i event s) (step engine) later s →
      Committed s (exec (step engine) later s) i) ∧
    (∀ tx error later, s.phase tx = .failed error → (∀ event ∈ later, event ≠ .aborts tx) →
      (exec (step engine) later s).phase tx = .failed error) ∧
    (∀ tx other i, let s' := (step engine (.aborts tx) s).1
      s'.ledger.row other i = (if other = tx then s.ledger.committed i else s.ledger.row other i) ∧
      s'.tables.row other i = (if other = tx then s.tables.committed i else s.tables.row other i)) := by
  intro s
  have h : Inv engine initial s := inv_exec engine initial events
  refine ⟨h.told, ?_, ?_, ?_, ?_, ?_⟩
  · intro i
    obtain ⟨tables, -, htold⟩ := h.told i
    have hversions := List.pairwise_map.1 htold.increasing.1
    exact hversions.imp fun hlt heq => absurd hlt (by rw [heq]; exact lt_irrefl _)
  · intro i recorded later hrecorded
    exact h.exec_recorded_le later hrecorded
  · intro i later hlater
    exact h.exec_committed hlater
  · intro tx error later hphase hlater
    have hstep : ∀ event (t : State T), event ≠ .aborts tx → t.phase tx = .failed error →
        (step engine event t).1.phase tx = .failed error := fun event t => failed_step
    exact exec_preserves hstep (meets_of_forall hlater s) hphase
  · intro tx other i
    by_cases hne : other = tx
    · subst hne
      rw [if_pos rfl, if_pos rfl]
      exact ⟨row_of_others fun hold hhold => (hold_abort.1 hhold).2,
        row_of_others fun hold hhold => (hold_abort.1 hhold).2⟩
    · rw [if_neg hne, if_neg hne]
      exact ⟨row_abort_of_ne hne i, row_abort_of_ne hne i⟩

section Race

def recordingEngine : Engine (List String) :=
  ⟨fun statement tables => .ok (tables ++ [statement]), fun _ _ => .ok (some true)⟩

def notes : ComponentSchema :=
  ⟨⟨"notes", "main", 1, "v1"⟩, ["CREATE TABLE notes ()"], [], ["true"], by decide⟩

/-- Two processes start on a missing ledger. -/
example : (trace (step recordingEngine) [.begins 0 notes,
    .begins 1 notes, .proceeds 0, .begins 1 notes, .proceeds 0,
    .proceeds 0, .proceeds 0, .proceeds 0, .proceeds 0,
      .proceeds 0, .commits 0, .begins 1 notes, .proceeds 1,
    .proceeds 1, .proceeds 1, .proceeds 1, .commits 1] (start fun _ => [])).filterMap Prod.snd =
      [.freshInstall 1, .alreadyCurrent 1] := rfl

end Race

end Paranoid.SchemaLedger

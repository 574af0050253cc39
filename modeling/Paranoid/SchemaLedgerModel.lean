import Paranoid.RowLocks
import Paranoid.SchemaMigration
import Paranoid.Transitions

namespace Paranoid.SchemaLedgerModel

open RowLocks SchemaMigration

def maxSchemaLedgerComponentBytes : Nat := 128

def maxSchemaLedgerInstanceKeyBytes : Nat := 1024

def maxSchemaLedgerFingerprintBytes : Nat := 256

/-- The errors that end a migration, the database's own without their cause. -/
inductive Error
  | textEmpty (label : String)
  | textTooLong (label : String) (actual max : Nat)
  | textContainsNull (label : String)
  | versionNotPositive (version : Int)
  | mismatch (mismatch : SchemaMismatch)
  | rowDisappeared
  | rowChanged
  | rowNotClaimed
  | rowNotFound
  | rowVersion (actual expected : Int)
  | rowFingerprint (actual expected : String)
  | migrationNotFound (step : ComponentSchemaMigrationStep)
  | checkReturnedFalse (booleanExpression : String)
  | checkReturnedNull (booleanExpression : String)
  | query

def validateBoundedNonemptySchemaLedgerText (label value : String) (maxBytes : Nat) :
    Except Error Unit := do
  if value.utf8ByteSize = 0 then throw (.textEmpty label)
  if maxBytes < value.utf8ByteSize then throw (.textTooLong label value.utf8ByteSize maxBytes)
  if '\x00' ∈ value.toList then throw (.textContainsNull label)

def validateComponentSchemaVersion (version : ComponentSchemaVersion) : Except Error Unit := do
  validateBoundedNonemptySchemaLedgerText "component" version.component maxSchemaLedgerComponentBytes
  validateBoundedNonemptySchemaLedgerText "instance_key"
    version.instanceKey maxSchemaLedgerInstanceKeyBytes
  validateBoundedNonemptySchemaLedgerText "schema_fingerprint"
    version.fingerprint maxSchemaLedgerFingerprintBytes
  if version.version ≤ 0 then throw (.versionNotPositive version.version)

/-- The primary key of the ledger. -/
structure Instance where
  component : String
  instanceKey : String
  deriving DecidableEq

structure ComponentSchemaMigration where
  step : ComponentSchemaMigrationStep
  statements : List String

structure ComponentSchema where
  currentVersion : ComponentSchemaVersion
  freshInstallStatements : List String
  migrations : List ComponentSchemaMigration
  validationChecks : List String
  checked : validationChecks ≠ []

def ComponentSchema.ledgerKey (schema : ComponentSchema) : Instance :=
  ⟨schema.currentVersion.component, schema.currentVersion.instanceKey⟩

def componentSchemaMigrationForStep (schema : ComponentSchema) (step : ComponentSchemaMigrationStep) :
    Except Error ComponentSchemaMigration :=
  match schema.migrations.find? fun migration => migration.step = step with
  | some migration => .ok migration
  | none => .error (.migrationNotFound step)

/-- What the statements of components and their checks do to the tables of an instance,
and find in them. A check may fail, and may find null. -/
structure Engine (T : Type) where
  execute : String → T → Except Error T
  evaluate : String → T → Except Error (Option Bool)

/-- Where the transaction of a migrator is: it has created the ledger or found it there,
its claim has met a row, it executes the statements of a step before further steps,
evaluates checks, has to record its version or to check the row, is done. -/
inductive Phase
  | idle
  | ledgerReady (schema : ComponentSchema)
  | conflicted (schema : ComponentSchema)
  | executing (schema : ComponentSchema) (plan : ComponentSchemaMigrationPlan) (statements : List String)
      (steps : List ComponentSchemaMigrationStep)
  | validating (schema : ComponentSchema) (plan : ComponentSchemaMigrationPlan) (checks : List String)
  | recording (schema : ComponentSchema) (plan : ComponentSchemaMigrationPlan)
  | recorded (schema : ComponentSchema) (plan : ComponentSchemaMigrationPlan)
  | done (schema : ComponentSchema) (plan : ComponentSchemaMigrationPlan)
  | failed (error : Error)

/-- A migration that has been committed and has changed its instance. -/
structure Migrated where
  schema : ComponentSchema
  steps : List ComponentSchemaMigrationStep

/-- The ledger table with the one that is creating it, its rows, the tables of every
instance, and as ghost state the committed migrations of every instance. -/
structure State (T : Type) where
  ledgerCommitted : Bool
  ledgerCreator : Option Nat
  ledger : Table Nat Instance RecordedComponentSchemaVersion
  tables : Table Nat Instance T
  phase : Nat → Phase
  migrated : Instance → List Migrated

inductive ComponentSchemaMigrationOutcome
  | freshInstall (version : Int)
  | alreadyCurrent (version : Int)
  | upgraded (fromVersion toVersion : Int) (stepsApplied : Nat)

/-- A migrator begins, or goes on with its next statement, commits, or aborts. -/
inductive Event
  | begins (tx : Nat) (schema : ComponentSchema)
  | proceeds (tx : Nat)
  | commits (tx : Nat)
  | aborts (tx : Nat)

variable {T : Type}

def start (initial : Instance → T) : State T where
  ledgerCommitted := false
  ledgerCreator := none
  ledger := .start fun _ => none
  tables := .start fun i => some (initial i)
  phase := fun _ => .idle
  migrated := fun _ => []

def State.enter (s : State T) (tx : Nat) (phase : Phase) : State T :=
  { s with phase := Function.update s.phase tx phase }

/-- `CREATE TABLE IF NOT EXISTS` under a savepoint. It waits for another that is creating
the table; when that one commits, its error is the one that the savepoint is for. -/
def executeSchemaLedgerMigration (tx : Nat) (schema : ComponentSchema) (s : State T) : State T :=
  match validateComponentSchemaVersion schema.currentVersion with
  | .error error => s.enter tx (.failed error)
  | .ok () =>
      if s.ledgerCommitted then s.enter tx (.ledgerReady schema)
      else match s.ledgerCreator with
        | none => { s with ledgerCreator := some tx }.enter tx (.ledgerReady schema)
        | some creator => if creator = tx then s.enter tx (.ledgerReady schema) else s

def planned (schema : ComponentSchema) (recorded : Option RecordedComponentSchemaVersion) : Phase :=
  match planComponentSchemaMigration schema.currentVersion recorded (schema.migrations.map (·.step)) with
  | .error mismatch => .failed (.mismatch mismatch)
  | .ok .freshInstall => .executing schema .freshInstall schema.freshInstallStatements []
  | .ok .alreadyCurrent => .validating schema .alreadyCurrent schema.validationChecks
  | .ok (.upgrade origin steps) => .executing schema (.upgrade origin steps) [] steps

/-- `INSERT ... ON CONFLICT DO NOTHING`, which waits for another that has written the row. -/
def claimComponentSchemaVersionRow (tx : Nat) (schema : ComponentSchema) (s : State T) : State T :=
  if s.ledger.unwritten tx schema.ledgerKey then
    if (s.ledger.row tx schema.ledgerKey).isNone then
      { s with
        ledger := s.ledger.writeWhere tx (· = schema.ledgerKey)
          (some schema.currentVersion.target) }.enter tx
        (planned schema none)
    else s.enter tx (.conflicted schema)
  else s

/-- `SELECT ... FOR UPDATE`, which waits for another that has the row. -/
def lockComponentSchemaVersionRow (tx : Nat) (schema : ComponentSchema) (s : State T) : State T :=
  if s.ledger.free tx schema.ledgerKey then
    match s.ledger.row tx schema.ledgerKey with
    | none => s.enter tx (.failed .rowDisappeared)
    | some recorded =>
        { s with ledger := s.ledger.lock tx schema.ledgerKey }.enter tx (planned schema (some recorded))
  else s

/-- The next statement of the step, or else the next step, or else the checks. A statement
waits for another that has the tables of the instance. -/
def executeComponentSchemaStatements (engine : Engine T) (tx : Nat) (schema : ComponentSchema)
    (plan : ComponentSchemaMigrationPlan) (s : State T) :
    List String → List ComponentSchemaMigrationStep → State T
  | statement :: statements, steps =>
      if s.tables.free tx schema.ledgerKey then
        match s.tables.row tx schema.ledgerKey with
        | none => s.enter tx (.failed .query)
        | some tables =>
            match engine.execute statement tables with
            | .error error => s.enter tx (.failed error)
            | .ok tables =>
                { s with
                  tables := s.tables.writeWhere tx (· = schema.ledgerKey) (some tables) }.enter tx
                  (.executing schema plan statements steps)
      else s
  | [], step :: steps =>
      match componentSchemaMigrationForStep schema step with
      | .error error => s.enter tx (.failed error)
      | .ok migration => s.enter tx (.executing schema plan migration.statements steps)
  | [], [] => s.enter tx (.validating schema plan schema.validationChecks)

def executeComponentSchemaValidationChecks (engine : Engine T) (tx : Nat) (schema : ComponentSchema)
    (plan : ComponentSchemaMigrationPlan) (s : State T) : List String → State T
  | check :: checks =>
      match s.tables.row tx schema.ledgerKey with
      | none => s.enter tx (.failed .query)
      | some tables =>
          match engine.evaluate check tables with
          | .error error => s.enter tx (.failed error)
          | .ok (some true) => s.enter tx (.validating schema plan checks)
          | .ok (some false) => s.enter tx (.failed (.checkReturnedFalse check))
          | .ok none => s.enter tx (.failed (.checkReturnedNull check))
  | [] =>
      match plan with
      | .alreadyCurrent => s.enter tx (.done schema plan)
      | _ => s.enter tx (.recording schema plan)

/-- The row that the recording statement updates, and the error when it is not there. -/
def expectedRow (schema : ComponentSchema) :
    ComponentSchemaMigrationPlan → RecordedComponentSchemaVersion × Error
  | .upgrade origin _ => (origin, .rowChanged)
  | _ => (schema.currentVersion.target, .rowNotClaimed)

/-- `UPDATE ... WHERE`, which waits for another that has the row. -/
def recordComponentSchemaMigrationCompletion (tx : Nat)
    (schema : ComponentSchema) (plan : ComponentSchemaMigrationPlan)
    (s : State T) : State T :=
  if s.ledger.free tx schema.ledgerKey then
    if s.ledger.row tx schema.ledgerKey = some (expectedRow schema plan).1 then
      { s with
        ledger := s.ledger.writeWhere tx (· = schema.ledgerKey)
          (some schema.currentVersion.target) }.enter tx
        (.recorded schema plan)
    else s.enter tx (.failed (expectedRow schema plan).2)
  else s

def validateComponentSchemaVersionRow (tx : Nat)
    (schema : ComponentSchema) (plan : ComponentSchemaMigrationPlan)
    (s : State T) : State T :=
  match s.ledger.row tx schema.ledgerKey with
  | none => s.enter tx (.failed .rowNotFound)
  | some actual =>
      if actual.version ≠ schema.currentVersion.version then
        s.enter tx (.failed (.rowVersion actual.version schema.currentVersion.version))
      else if actual.fingerprint ≠ schema.currentVersion.fingerprint then
        s.enter tx (.failed (.rowFingerprint actual.fingerprint schema.currentVersion.fingerprint))
      else s.enter tx (.done schema plan)

def proceed (engine : Engine T) (tx : Nat) (s : State T) : State T :=
  match s.phase tx with
  | .ledgerReady schema => claimComponentSchemaVersionRow tx schema s
  | .conflicted schema => lockComponentSchemaVersionRow tx schema s
  | .executing schema plan statements steps =>
      executeComponentSchemaStatements engine tx schema plan s statements steps
  | .validating schema plan checks =>
      executeComponentSchemaValidationChecks engine tx schema plan s checks
  | .recording schema plan => recordComponentSchemaMigrationCompletion tx schema plan s
  | .recorded schema plan => validateComponentSchemaVersionRow tx schema plan s
  | _ => s

def migratedBy (schema : ComponentSchema) : ComponentSchemaMigrationPlan → List Migrated
  | .freshInstall => [⟨schema, []⟩]
  | .alreadyCurrent => []
  | .upgrade _ steps => [⟨schema, steps⟩]

def outcome (schema : ComponentSchema) : ComponentSchemaMigrationPlan → ComponentSchemaMigrationOutcome
  | .freshInstall => .freshInstall schema.currentVersion.version
  | .alreadyCurrent => .alreadyCurrent schema.currentVersion.version
  | .upgrade origin steps => .upgraded origin.version schema.currentVersion.version steps.length

def commit (tx : Nat) (s : State T) : State T × Option ComponentSchemaMigrationOutcome :=
  match s.phase tx with
  | .done schema plan =>
      ({ s with
          ledgerCommitted := s.ledgerCommitted || s.ledgerCreator = some tx
          ledgerCreator := s.ledgerCreator.filter (· ≠ tx)
          ledger := s.ledger.commit tx
          tables := s.tables.commit tx
          migrated := Function.update s.migrated schema.ledgerKey
            (s.migrated schema.ledgerKey ++ migratedBy schema plan) }.enter tx .idle,
        some (outcome schema plan))
  | _ => (s, none)

def abort (tx : Nat) (s : State T) : State T :=
  { s with
    ledgerCreator := s.ledgerCreator.filter (· ≠ tx)
    ledger := s.ledger.abort tx
    tables := s.tables.abort tx }.enter tx .idle

/-- The output is what a migrator returns that has not failed. -/
def step (engine : Engine T) (event : Event) (s : State T) :
    State T × Option ComponentSchemaMigrationOutcome :=
  match event with
  | .begins tx schema =>
      match s.phase tx with
      | .idle => (executeSchemaLedgerMigration tx schema s, none)
      | _ => (s, none)
  | .proceeds tx => (proceed engine tx s, none)
  | .commits tx => commit tx s
  | .aborts tx => (abort tx s, none)

end Paranoid.SchemaLedgerModel

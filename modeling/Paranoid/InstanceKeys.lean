import Paranoid.FleetKeys
import Paranoid.PgIdentifiers
import Paranoid.SchemaLedgerModel

namespace Paranoid.InstanceKeys

open FleetKeys PgIdentifiers SchemaLedgerModel SchemaMigration SeparatedParts
open Utf8Text (isAscii)

def componentSchemaInstanceKeyForTables (parts : List (PgIdentifier × PgQualifiedTableName)) : String :=
  ";".intercalate (parts.map fun (label, tableName) => label.text ++ "=" ++ tableName.quoted)

def schemaInstanceKeyForParts (parts : List (String × PgQualifiedTableName)) : String :=
  ";".intercalate (parts.map fun (label, tableName) => label ++ "=" ++ tableName.quoted)

structure FleetStoreConfig where
  rootKey : RootKey
  protocolTableName : PgQualifiedTableName
  stateTableName : PgQualifiedTableName
  coordinationTableName : PgQualifiedTableName
  fencingCounterTableName : PgQualifiedTableName
  schemaLedgerTableName : PgQualifiedTableName

def FleetStoreConfig.tableNames (config : FleetStoreConfig) : List PgQualifiedTableName :=
  [config.protocolTableName, config.stateTableName,
    config.coordinationTableName, config.fencingCounterTableName,
    config.schemaLedgerTableName]

inductive FleetConfigError
  | tableNamesMustBeDistinct
  deriving DecidableEq

def validateDistinctTableNames (config : FleetStoreConfig) : Except FleetConfigError Unit :=
  if pgTableNameSetCouldContainSameRelation config.tableNames then throw .tableNamesMustBeDistinct else return ()

def fleetSchemaInstanceKey (config : FleetStoreConfig) : String :=
  "root=" ++ config.rootKey.text ++ ";" ++ schemaInstanceKeyForParts
    [("state_table", config.stateTableName), ("coordination_table", config.coordinationTableName),
      ("fencing_counter_table", config.fencingCounterTableName)]

def fleetComponentSchemaVersion (instanceKey : String) : ComponentSchemaVersion :=
  ⟨"fleet", instanceKey, 1, "paranoid.fleet.v1"⟩

/-- The row of the ledger that a component's version is recorded in. -/
def ledgerRow (version : ComponentSchemaVersion) : Instance := ⟨version.component, version.instanceKey⟩

section Keys

variable {label other : String} {tableName otherName : PgQualifiedTableName}
  {config otherConfig : FleetStoreConfig}

theorem not_mem_part {c : Char} (hc : isAscii c)
    (hbyte : isPgIdentifierTrailingByte c.toUInt8 = false) (hquote : c ≠ '"') (hdot : c ≠ '.')
    (hequals : c ≠ '=') (hlabel : c ∉ label.toList) (tableName : PgQualifiedTableName) :
    c ∉ (label ++ "=" ++ tableName.quoted).toList := by
  have htable := not_mem_quoted hc hbyte hquote hdot tableName
  simp [hlabel, htable, hequals]

/-- The first sign of equality ends the label. -/
theorem part_inj (hlabel : '=' ∉ label.toList) (hother : '=' ∉ other.toList)
    (h : label ++ "=" ++ tableName.quoted = other ++ "=" ++ otherName.quoted) :
    label = other ∧ tableName = otherName := by
  have h := congrArg String.toList h
  simp only [String.toList_append, List.append_assoc] at h
  obtain ⟨hlabels, hnames⟩ := before_unique hlabel hother h
  exact ⟨String.toList_injective hlabels, quoted_qualified_inj (String.toList_injective hnames)⟩

theorem componentSchemaInstanceKeyForTables_injOn :
    Set.InjOn componentSchemaInstanceKeyForTables {parts | parts ≠ []} := by
  intro parts hparts others hothers h
  have hfree (parts : List (PgIdentifier × PgQualifiedTableName)) :
      ∀ text ∈ parts.map fun (label, tableName) =>
        label.text ++ "=" ++ tableName.quoted, ';' ∉ text.toList := by
    rw [List.forall_mem_map]
    intro part _
    exact not_mem_part (by decide) (by decide) (by decide) (by decide) (by decide)
      (not_mem_identifier (by decide) (by decide) _) _
  have htexts := @intercalate_injOn ";" ';' [] rfl _ ⟨mt List.map_eq_nil_iff.1 hparts, hfree parts⟩
    _ ⟨mt List.map_eq_nil_iff.1 hothers, hfree others⟩ h
  refine List.map_injective_iff.2 ?_ htexts
  rintro ⟨label, tableName⟩ ⟨other, otherName⟩ hpart
  have hequals (identifier : PgIdentifier) : '=' ∉ identifier.text.toList :=
    not_mem_identifier (by decide) (by decide) identifier
  obtain ⟨hlabel, hname⟩ := part_inj (hequals label) (hequals other) hpart
  rw [PgIdentifier.eq_of_text hlabel, hname]

theorem toList_fleetSchemaInstanceKey (config : FleetStoreConfig) :
    (fleetSchemaInstanceKey config).toList =
      (("root=".toList ++ config.rootKey.text.toList ++
        ';' :: ("state_table" ++ "=" ++ config.stateTableName.quoted).toList) ++
        ';' :: ("coordination_table" ++ "=" ++ config.coordinationTableName.quoted).toList) ++
        ';' :: ("fencing_counter_table" ++ "=" ++ config.fencingCounterTableName.quoted).toList := by
  simp [fleetSchemaInstanceKey, schemaInstanceKeyForParts, String.intercalate_cons_cons]

/-- No table's part has a semicolon, so that the last three of them end the root,
whatever it has. -/
theorem fleetSchemaInstanceKey_inj
    (h : fleetSchemaInstanceKey config = fleetSchemaInstanceKey otherConfig) :
    config.rootKey = otherConfig.rootKey ∧ config.stateTableName = otherConfig.stateTableName ∧
      config.coordinationTableName = otherConfig.coordinationTableName ∧
      config.fencingCounterTableName = otherConfig.fencingCounterTableName := by
  have hfree {label : String} (hlabel : ';' ∉ label.toList) (tableName : PgQualifiedTableName) :
      ';' ∉ (label ++ "=" ++ tableName.quoted).toList :=
    not_mem_part (by decide) (by decide) (by decide) (by decide) (by decide) hlabel tableName
  have hlabels (label : String) (hlabel : '=' ∉ label.toList)
    {tableName otherName : PgQualifiedTableName}
      (h : (label ++ "=" ++ tableName.quoted).toList = (label ++ "=" ++ otherName.quoted).toList) :
      tableName = otherName :=
    (part_inj hlabel hlabel (String.toList_injective h)).2
  have h := congrArg String.toList h
  rw [toList_fleetSchemaInstanceKey, toList_fleetSchemaInstanceKey] at h
  obtain ⟨h, hfencing⟩ := after_unique (hfree (by decide) _) (hfree (by decide) _) h
  obtain ⟨h, hcoordination⟩ := after_unique (hfree (by decide) _) (hfree (by decide) _) h
  obtain ⟨hroot, hstate⟩ := after_unique (hfree (by decide) _) (hfree (by decide) _) h
  exact ⟨RootKey.eq_of_text (String.toList_injective (List.append_cancel_left hroot)),
    hlabels _ (by decide) hstate, hlabels _ (by decide) hcoordination, hlabels _ (by decide) hfencing⟩

/-- The tables of an accepted store are five, unless a schema is named as the alias of the
temporary one. -/
theorem tables_distinct_of_accepted (h : validateDistinctTableNames config = .ok ())
    (hplain : ∀ name ∈ config.tableNames, name.schema.map PgIdentifier.text ≠ some "pg_temp") :
    config.tableNames.Pairwise Distinct := by
  have hset : pgTableNameSetCouldContainSameRelation config.tableNames = false := by
    rw [validateDistinctTableNames] at h
    split at h
    · cases h
    · rename_i hset
      exact Bool.eq_false_iff.2 hset
  rw [pairwise_distinct_iff hset]
  apply List.pairwise_of_forall_mem_list
  intro left hleft right hright
  exact ⟨fun haliased => hplain left hleft haliased.2.1,
    fun haliased => hplain right hright haliased.2.1⟩

/-- Instances over different tables, or of different roots, have rows of their own, and
names that could not be of one relation are not, but for those in the temporary schemas. -/
theorem instances_separate :
    Set.InjOn componentSchemaInstanceKeyForTables {parts | parts ≠ []} ∧
    (∀ config otherConfig, fleetSchemaInstanceKey config = fleetSchemaInstanceKey otherConfig →
      config.rootKey = otherConfig.rootKey ∧ config.stateTableName = otherConfig.stateTableName ∧
        config.coordinationTableName = otherConfig.coordinationTableName ∧
        config.fencingCounterTableName = otherConfig.fencingCounterTableName) ∧
    (∀ version otherVersion parts others, parts ≠ [] → others ≠ [] →
      version.instanceKey = componentSchemaInstanceKeyForTables parts →
      otherVersion.instanceKey = componentSchemaInstanceKeyForTables others → parts ≠ others →
      ledgerRow version ≠ ledgerRow otherVersion) ∧
    (∀ config otherConfig,
      config.rootKey ≠ otherConfig.rootKey ∨ config.stateTableName ≠ otherConfig.stateTableName ∨
        config.coordinationTableName ≠ otherConfig.coordinationTableName ∨
        config.fencingCounterTableName ≠ otherConfig.fencingCounterTableName →
      ledgerRow (fleetComponentSchemaVersion (fleetSchemaInstanceKey config)) ≠
        ledgerRow (fleetComponentSchemaVersion (fleetSchemaInstanceKey otherConfig))) ∧
    ∀ names, pgTableNameSetCouldContainSameRelation names = false →
      (names.Pairwise Distinct ↔
        names.Pairwise fun left right => ¬Aliased left right ∧ ¬Aliased right left) := by
  refine ⟨componentSchemaInstanceKeyForTables_injOn, fun _ _ => fleetSchemaInstanceKey_inj, ?_, ?_,
    fun _ => pairwise_distinct_iff⟩
  · intro version otherVersion parts others hparts hothers hkey hotherKey hne hrow
    have hkeys := congrArg Instance.instanceKey hrow
    exact hne (componentSchemaInstanceKeyForTables_injOn
      hparts hothers (hkey.symm.trans (hkeys.trans hotherKey)))
  · intro config otherConfig hne hrow
    obtain ⟨hroot, hstate, hcoordination, hfencing⟩ :=
      fleetSchemaInstanceKey_inj (congrArg Instance.instanceKey hrow)
    rcases hne with h | h | h | h
    · exact h hroot
    · exact h hstate
    · exact h hcoordination
    · exact h hfencing

def inTemporaryAlias : PgQualifiedTableName :=
  ⟨some ⟨"pg_temp", by decide +kernel⟩, ⟨"jobs", by decide +kernel⟩⟩

def inTemporarySchema : PgQualifiedTableName :=
  ⟨some ⟨"pg_temp_3", by decide +kernel⟩, ⟨"jobs", by decide +kernel⟩⟩

theorem temporary_names_meet :
    pgTableNameSetCouldContainSameRelation [inTemporaryAlias, inTemporarySchema] = false ∧
      Session.resolve ⟨[⟨"pg_temp_3", "jobs"⟩], some 3⟩ ["public"] inTemporaryAlias =
        some ⟨"pg_temp_3", "jobs"⟩ ∧
      Session.resolve ⟨[⟨"pg_temp_3", "jobs"⟩], some 3⟩ ["public"] inTemporarySchema =
        some ⟨"pg_temp_3", "jobs"⟩ ∧
      ¬[inTemporaryAlias, inTemporarySchema].Pairwise Distinct := by
  have halias : Session.resolve ⟨[⟨"pg_temp_3", "jobs"⟩], some 3⟩ ["public"] inTemporaryAlias =
      some ⟨"pg_temp_3", "jobs"⟩ := by decide +kernel
  have hschema : Session.resolve ⟨[⟨"pg_temp_3", "jobs"⟩], some 3⟩ ["public"] inTemporarySchema =
      some ⟨"pg_temp_3", "jobs"⟩ := by decide +kernel
  refine ⟨by decide +kernel, halias, hschema, fun hdistinct => ?_⟩
  exact List.pairwise_pair.1 hdistinct _ _ _ halias hschema

end Keys

end Paranoid.InstanceKeys

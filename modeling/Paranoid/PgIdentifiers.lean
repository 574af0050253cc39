import Paranoid.Postgres
import Paranoid.SeparatedParts
import Paranoid.Utf8Text

namespace Paranoid.PgIdentifiers

open Postgres SeparatedParts Utf8Text

def maxPgIdentifierBytes : Nat := 63

inductive InvalidPgIdentifier
  | empty
  | tooLong (actual max : Nat)
  | invalidFirstByte (byte : UInt8)
  | invalidByte (index : Nat) (byte : UInt8)
  deriving DecidableEq

def isPgIdentifierFirstByte (byte : UInt8) : Bool :=
  byte == 0x5f || (0x41 ≤ byte && byte ≤ 0x5a) || (0x61 ≤ byte && byte ≤ 0x7a)

def isPgIdentifierTrailingByte (byte : UInt8) : Bool :=
  isPgIdentifierFirstByte byte || (0x30 ≤ byte && byte ≤ 0x39)

def validatePgIdentifier (input : String) (maxLen : Nat) : Except InvalidPgIdentifier Unit :=
  match utf8 input.toList with
  | [] => throw .empty
  | first :: trailing => do
      if maxLen < (first :: trailing).length then throw (.tooLong (first :: trailing).length maxLen)
      if ¬isPgIdentifierFirstByte first then throw (.invalidFirstByte first)
      match (trailing.zipIdx 1).find? fun (byte, _) => ¬isPgIdentifierTrailingByte byte with
      | some (byte, index) => throw (.invalidByte index byte)
      | none => return ()

structure PgIdentifier where
  text : String
  valid : validatePgIdentifier text maxPgIdentifierBytes = .ok ()
  deriving DecidableEq

def PgIdentifier.new (input : String) : Except InvalidPgIdentifier PgIdentifier :=
  match h : validatePgIdentifier input maxPgIdentifierBytes with
  | .ok () => return ⟨input, h⟩
  | .error error => throw error

abbrev PgSchemaName : Type := PgIdentifier

structure PgQualifiedTableName where
  schema : Option PgSchemaName
  table : PgIdentifier
  deriving DecidableEq

def PgIdentifier.quoted (identifier : PgIdentifier) : String := "\"" ++ identifier.text ++ "\""

def PgQualifiedTableName.quoted (name : PgQualifiedTableName) : String :=
  match name.schema with
  | some schema => schema.quoted ++ "." ++ name.table.quoted
  | none => name.table.quoted

def pgTableNamesCouldResolveToSameRelation (left right : PgQualifiedTableName) : Bool :=
  if left.table ≠ right.table then false
  else
    match left.schema, right.schema with
    | some leftSchema, some rightSchema => leftSchema = rightSchema
    | _, _ => true

def pgTableNameSetCouldContainSameRelation : List PgQualifiedTableName → Bool
  | [] => false
  | left :: rest =>
      rest.any (pgTableNamesCouldResolveToSameRelation left) ||
        pgTableNameSetCouldContainSameRelation rest

section Texts

variable {identifier other : PgIdentifier} {name otherName : PgQualifiedTableName} {c : Char}

theorem PgIdentifier.eq_of_text (h : identifier.text = other.text) : identifier = other := by
  cases identifier
  cases other
  cases h
  rfl

theorem isPgIdentifierTrailingByte_of_valid {text : String} {maxLen : Nat}
    (h : validatePgIdentifier text maxLen = .ok ()) :
    ∀ byte ∈ utf8 text.toList, isPgIdentifierTrailingByte byte := by
  rw [validatePgIdentifier] at h
  split at h
  · cases h
  · rename_i first trailing hbytes
    simp only [guard_eq_ok, not_not] at h
    obtain ⟨_, hfirst, h⟩ := h
    rw [hbytes, List.forall_mem_cons]
    refine ⟨by rw [isPgIdentifierTrailingByte, hfirst, Bool.true_or], ?_⟩
    intro byte hbyte
    split at h
    · cases h
    · rename_i hnone
      obtain ⟨index, hindex⟩ := List.mem_iff_getElem?.1 hbyte
      have hmem : (byte, 1 + index) ∈ trailing.zipIdx 1 := List.mk_add_mem_zipIdx_iff_getElem?.2 hindex
      simpa using List.find?_eq_none.1 hnone _ hmem

/-- An identifier has no character that is not a letter, a digit or an underscore. -/
theorem not_mem_identifier (hc : isAscii c) (hbyte : isPgIdentifierTrailingByte c.toUInt8 = false)
    (identifier : PgIdentifier) : c ∉ identifier.text.toList := by
  intro hmem
  have hbytes : c.toUInt8 ∈ utf8 identifier.text.toList :=
    List.mem_flatMap.2 ⟨c, hmem, (encode_ascii hc).symm ▸ List.mem_singleton_self _⟩
  have htrailing := isPgIdentifierTrailingByte_of_valid identifier.valid _ hbytes
  rw [hbyte] at htrailing
  cases htrailing

theorem toList_quoted (identifier : PgIdentifier) :
    identifier.quoted.toList = '"' :: (identifier.text.toList ++ ['"']) := by
  rw [PgIdentifier.quoted, String.toList_append, String.toList_append]
  rfl

theorem toList_quoted_qualified (name : PgQualifiedTableName) :
    name.quoted.toList = '"' :: (match name.schema with
      | some schema => schema.text.toList ++ '"' :: '.' :: name.table.quoted.toList
      | none => name.table.text.toList ++ ['"']) := by
  rw [PgQualifiedTableName.quoted]
  cases name.schema with
  | none => exact toList_quoted _
  | some schema => simp [toList_quoted]

theorem quoted_inj (h : identifier.quoted = other.quoted) : identifier = other := by
  have h := congrArg String.toList h
  rw [toList_quoted, toList_quoted] at h
  exact PgIdentifier.eq_of_text (String.toList_injective (List.append_cancel_right (List.cons.inj h).2))

/-- The quotes tell where a schema ends. -/
theorem quoted_qualified_inj (h : name.quoted = otherName.quoted) : name = otherName := by
  have hquote (identifier : PgIdentifier) : '"' ∉ identifier.text.toList :=
    not_mem_identifier (by decide) (by decide) identifier
  have htail (identifier : PgIdentifier) : '.' :: identifier.quoted.toList ≠ [] := List.cons_ne_nil _ _
  have htext {a b : PgIdentifier} (h : a.text.toList = b.text.toList) : a = b :=
    PgIdentifier.eq_of_text (String.toList_injective h)
  have h := congrArg String.toList h
  rw [toList_quoted_qualified, toList_quoted_qualified, List.cons.injEq] at h
  obtain ⟨schema, table⟩ := name
  obtain ⟨otherSchema, otherTable⟩ := otherName
  cases schema with
  | none =>
      cases otherSchema with
      | none =>
          have htable : table = otherTable := htext (List.append_cancel_right h.2)
          rw [htable]
      | some otherSchema => exact absurd (before_unique (hquote _) (hquote _) h.2).2.symm (htail _)
  | some schema =>
      cases otherSchema with
      | none => exact absurd (before_unique (hquote _) (hquote _) h.2).2 (htail _)
      | some otherSchema =>
          obtain ⟨hschema, htable⟩ := before_unique (hquote _) (hquote _) h.2
          have hquoted : table = otherTable :=
            quoted_inj (String.toList_injective (List.cons.inj htable).2)
          rw [htext hschema, hquoted]

theorem not_mem_quoted (hc : isAscii c) (hbyte : isPgIdentifierTrailingByte c.toUInt8 = false)
    (hquote : c ≠ '"') (hdot : c ≠ '.') (name : PgQualifiedTableName) : c ∉ name.quoted.toList := by
  have hidentifier := not_mem_identifier hc hbyte
  rw [toList_quoted_qualified]
  cases name.schema with
  | none => simp [hidentifier, hquote]
  | some schema => simp [hidentifier, hquote, hdot, toList_quoted]

end Texts

section Resolution

structure Relation where
  schema : String
  name : String
  deriving DecidableEq

/-- The relations that there are, and the number of the schema that the session has its
temporary ones in, if any. -/
structure Session where
  relations : List Relation
  temporary : Option Nat

def temporarySchema (number : Nat) : String := "pg_temp_" ++ toString number

/-- `pg_temp` stands for the session's temporary schema. -/
def Session.namespace? (session : Session) (schema : String) : Option String :=
  if schema = "pg_temp" then session.temporary.map temporarySchema else some schema

/-- The temporary schema and the system's own are searched before those that the path
lists, unless it lists them too. -/
def Session.activePath (session : Session) (searchPath : List String) : List String :=
  let listed := searchPath.filterMap session.namespace?
  let listed := if "pg_catalog" ∈ listed then listed else "pg_catalog" :: listed
  match session.temporary.map temporarySchema with
  | some schema => if schema ∈ listed then listed else schema :: listed
  | none => listed

def Session.relation? (session : Session) (name schema : String) : Option Relation :=
  session.relations.find? (· = ⟨schema, name⟩)

/-- The relation that a name denotes in a statement. -/
def Session.resolve (session : Session) (searchPath : List String) (name : PgQualifiedTableName) :
    Option Relation :=
  match name.schema with
  | some schema => (session.namespace? schema.text).bind (session.relation? name.table.text)
  | none => (session.activePath searchPath).findSome? (session.relation? name.table.text)

/-- No relation goes by both names, wherever they are looked up. -/
def Distinct (left right : PgQualifiedTableName) : Prop :=
  ∀ (session : Session) (searchPath : List String) (relation : Relation),
    session.resolve searchPath left = some relation → session.resolve searchPath right ≠ some relation

/-- A name in the temporary schema of whichever session, and one in that of a session. -/
def Aliased (left right : PgQualifiedTableName) : Prop :=
  left.table = right.table ∧ left.schema.map PgIdentifier.text = some "pg_temp" ∧
    ∃ number, right.schema.map PgIdentifier.text = some (temporarySchema number)

variable {left right name : PgQualifiedTableName} {session : Session} {searchPath : List String}
  {relation : Relation}

theorem relation?_eq_some {table schema : String} (h : session.relation? table schema = some relation) :
    relation = ⟨schema, table⟩ := of_decide_eq_true (List.find?_some h :)

theorem resolve_eq_some (h : session.resolve searchPath name = some relation) :
    relation.name = name.table.text ∧
      ∀ schema, name.schema = some schema → session.namespace? schema.text = some relation.schema := by
  rw [Session.resolve] at h
  split at h
  · rename_i schema hschema
    obtain ⟨found, hfound, hrelation⟩ := Option.bind_eq_some_iff.1 h
    obtain rfl := relation?_eq_some hrelation
    refine ⟨rfl, fun other hother => ?_⟩
    obtain rfl := Option.some.inj (hschema.symm.trans hother)
    exact hfound
  · rename_i hschema
    obtain ⟨schema, -, hrelation⟩ := List.exists_of_findSome?_eq_some h
    obtain rfl := relation?_eq_some hrelation
    refine ⟨rfl, fun other hother => ?_⟩
    cases hschema.symm.trans hother

theorem temporarySchema_ne (number : Nat) : temporarySchema number ≠ "pg_temp" := by
  intro h
  have hlength := congrArg (fun text => text.toList.length) h
  simp [temporarySchema] at hlength

theorem couldResolve_eq_false (h : pgTableNamesCouldResolveToSameRelation left right = false)
    (htable : left.table = right.table) : ∃ leftSchema rightSchema,
      left.schema = some leftSchema ∧ right.schema = some rightSchema ∧ leftSchema ≠ rightSchema := by
  rw [pgTableNamesCouldResolveToSameRelation, if_neg (not_not.2 htable)] at h
  split at h
  · rename_i leftSchema rightSchema hleft hright
    exact ⟨leftSchema, rightSchema, hleft, hright, of_decide_eq_false h⟩
  · cases h

theorem not_distinct_of_aliased (h : Aliased left right) :
    ∃ (session : Session) (searchPath : List String) (relation : Relation),
    session.resolve searchPath left = some relation ∧
      session.resolve searchPath right = some relation := by
  obtain ⟨htable, hleft, number, hright⟩ := h
  obtain ⟨leftSchema, hleft, hleftText⟩ := Option.map_eq_some_iff.1 hleft
  obtain ⟨rightSchema, hright, hrightText⟩ := Option.map_eq_some_iff.1 hright
  let relation : Relation := ⟨temporarySchema number, right.table.text⟩
  have hfind : [relation].find? (· = ⟨temporarySchema number, right.table.text⟩) = some relation :=
    List.find?_cons_of_pos (decide_eq_true rfl)
  refine ⟨⟨[relation], some number⟩, [], relation, ?_, ?_⟩
  · rw [Session.resolve, hleft, htable]
    simp only [Session.namespace?, hleftText, if_true]
    exact hfind
  · rw [Session.resolve, hright]
    simp only [Session.namespace?, hrightText, temporarySchema_ne, if_false]
    exact hfind

theorem distinct_iff (h : pgTableNamesCouldResolveToSameRelation left right = false) :
    Distinct left right ↔ ¬Aliased left right ∧ ¬Aliased right left := by
  constructor
  · intro hdistinct
    refine ⟨fun haliased => ?_, fun haliased => ?_⟩
    · obtain ⟨session, searchPath, relation, hleft, hright⟩ := not_distinct_of_aliased haliased
      exact hdistinct session searchPath relation hleft hright
    · obtain ⟨session, searchPath, relation, hright, hleft⟩ := not_distinct_of_aliased haliased
      exact hdistinct session searchPath relation hleft hright
  · rintro ⟨hleft, hright⟩ session searchPath relation hresolve hother
    obtain ⟨hname, hschema⟩ := resolve_eq_some hresolve
    obtain ⟨hotherName, hotherSchema⟩ := resolve_eq_some hother
    have htable : left.table = right.table := PgIdentifier.eq_of_text (hname.symm.trans hotherName)
    obtain ⟨leftSchema, rightSchema, hleftSchema, hrightSchema, hne⟩ := couldResolve_eq_false h htable
    have hleftNamespace := hschema _ hleftSchema
    have hrightNamespace := hotherSchema _ hrightSchema
    have haliased {schema : String} (h : session.temporary.map temporarySchema = some schema) :
        ∃ number, schema = temporarySchema number := by
      obtain ⟨number, -, hnumber⟩ := Option.map_eq_some_iff.1 h
      exact ⟨number, hnumber.symm⟩
    -- names in two schemas meet where one of these is the alias of the other
    by_cases hl : leftSchema.text = "pg_temp"
    · by_cases hr : rightSchema.text = "pg_temp"
      · exact hne (PgIdentifier.eq_of_text (hl.trans hr.symm))
      · rw [Session.namespace?, if_pos hl] at hleftNamespace
        rw [Session.namespace?, if_neg hr, Option.some.injEq] at hrightNamespace
        obtain ⟨number, hnumber⟩ := haliased hleftNamespace
        exact hleft ⟨htable, hleftSchema ▸ congrArg some hl, number,
          hrightSchema ▸ congrArg some (hrightNamespace.trans hnumber)⟩
    · rw [Session.namespace?, if_neg hl, Option.some.injEq] at hleftNamespace
      by_cases hr : rightSchema.text = "pg_temp"
      · rw [Session.namespace?, if_pos hr] at hrightNamespace
        obtain ⟨number, hnumber⟩ := haliased hrightNamespace
        exact hright ⟨htable.symm, hrightSchema ▸ congrArg some hr, number,
          hleftSchema ▸ congrArg some (hleftNamespace.trans hnumber)⟩
      · rw [Session.namespace?, if_neg hr, Option.some.injEq] at hrightNamespace
        exact hne (PgIdentifier.eq_of_text (hleftNamespace.trans hrightNamespace.symm))

theorem pairwise_of_set {names : List PgQualifiedTableName}
    (h : pgTableNameSetCouldContainSameRelation names = false) :
    names.Pairwise fun left right => pgTableNamesCouldResolveToSameRelation left right = false := by
  induction names with
  | nil => exact .nil
  | cons left rest ih =>
      rw [pgTableNameSetCouldContainSameRelation, Bool.or_eq_false_iff, List.any_eq_false] at h
      exact .cons (fun right hright => Bool.eq_false_iff.2 (h.1 right hright)) (ih h.2)

theorem pairwise_distinct_iff {names : List PgQualifiedTableName}
    (h : pgTableNameSetCouldContainSameRelation names = false) :
    names.Pairwise Distinct ↔ names.Pairwise fun left right =>
      ¬Aliased left right ∧ ¬Aliased right left := by
  have hpairs := pairwise_of_set h
  constructor
  · intro hdistinct
    exact (hpairs.and hdistinct).imp fun hpair => (distinct_iff hpair.1).1 hpair.2
  · intro haliased
    exact (hpairs.and haliased).imp fun hpair => (distinct_iff hpair.1).2 hpair.2

end Resolution

end Paranoid.PgIdentifiers

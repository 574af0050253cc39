import Mathlib.Data.String.Basic
import Paranoid.ExpiringMap
import Paranoid.KeyedRows
import Paranoid.KvAtomic
import Paranoid.LikePatterns

namespace Paranoid.KvModel

open KeyedRows
open ExpiringMap (Entry)
open LikePatterns (escaped like like_escaped)

abbrev Bytes : Type := List UInt8

def kvKeySeparator : String := "::"

def maxKvKeyBytes : Nat := 2048

/-- Validated persisted key. The column has the C collation, which orders texts
character by character. -/
structure Key where
  text : String
  short : text.utf8ByteSize ≤ maxKvKeyBytes
  deriving DecidableEq

theorem Key.eq_of_text {a b : Key} (h : a.text = b.text) : a = b := by
  cases a
  cases b
  cases h
  rfl

instance : LinearOrder Key := LinearOrder.lift' Key.text fun _ _ => Key.eq_of_text

abbrev KeyPrefix : Type := Key

def KeyPrefix.containsKey (keyPrefix : KeyPrefix) (key : Key) : Bool :=
  keyPrefix.text.toList.isPrefixOf key.text.toList

structure KvRow where
  key : Key
  value : Bytes
  expiresAt : Option Int
  updatedAt : Int

/-- The table, with its primary key. -/
structure Table where
  rows : List KvRow
  primaryKey : (rows.map KvRow.key).Nodup

def Table.empty : Table := ⟨[], List.nodup_nil⟩

def Table.row? (t : Table) (key : Key) : Option KvRow := lookup KvRow.key t.rows key

/-- `expires_at IS NULL OR expires_at > statement_timestamp()`. -/
def notExpired (now : Int) (row : KvRow) : Bool := row.expiresAt.all (now < ·)

/-- `expires_at IS NOT NULL AND expires_at <= statement_timestamp()`. -/
def expired (now : Int) (row : KvRow) : Bool := row.expiresAt.any (· ≤ now)

def Table.liveRow? (t : Table) (now : Int) (key : Key) : Option KvRow :=
  (t.row? key).filter (notExpired now)

/-- `INSERT ... ON CONFLICT (key) DO UPDATE` of the whole row. -/
def Table.upsert (t : Table) (row : KvRow) : Table :=
  ⟨KeyedRows.upsert KvRow.key row t.rows, nodup_upsert t.primaryKey row⟩

def Table.deleteWhere (t : Table) (p : KvRow → Bool) : Table :=
  ⟨t.rows.filter fun row => !p row, nodup_filter t.primaryKey _⟩

/-- What the table says of a key, the time of its last update apart. -/
def KvRow.entry (row : KvRow) : Entry Bytes Int := ⟨row.value, row.expiresAt⟩

def Table.cell (t : Table) (key : Key) : Option (Entry Bytes Int) := (t.row? key).map KvRow.entry

def Table.view (t : Table) (now : Int) (key : Key) : Option (Entry Bytes Int) :=
  ExpiringMap.live now (t.cell key)

section Rows

variable {t : Table} {key : Key} {row : KvRow} {now : Int}

theorem row?_eq_some : t.row? key = some row ↔ row ∈ t.rows ∧ row.key = key :=
  lookup_eq_some t.primaryKey

theorem row?_eq_none : t.row? key = none ↔ ∀ row ∈ t.rows, row.key ≠ key := lookup_eq_none

theorem row?_of_mem (h : row ∈ t.rows) : t.row? row.key = some row := row?_eq_some.2 ⟨h, rfl⟩

theorem expired_eq (now : Int) (row : KvRow) : expired now row = !notExpired now row := by
  cases h : row.expiresAt with
  | none => simp [expired, notExpired, h]
  | some t =>
      rw [expired, notExpired, h, Option.any_some, Option.all_some, ← decide_not]
      exact decide_eq_decide.2 Int.not_lt.symm

theorem notExpired_iff : notExpired now row ↔ row.entry.Live now := by
  cases h : row.expiresAt with
  | none => simp [notExpired, Entry.Live, KvRow.entry, h]
  | some t => simp [notExpired, Entry.Live, KvRow.entry, h]

@[simp] theorem row?_upsert (row : KvRow) (key : Key) :
    (t.upsert row).row? key = if key = row.key then some row else t.row? key := lookup_upsert row

@[simp] theorem row?_deleteWhere (p : KvRow → Bool) (key : Key) :
    (t.deleteWhere p).row? key = (t.row? key).filter fun row => !p row := lookup_filter t.primaryKey _

theorem liveRow?_eq_some :
    t.liveRow? now key = some row ↔ t.row? key = some row ∧ notExpired now row := by
  rw [Table.liveRow?, Option.filter_eq_some_iff]

theorem view_eq : t.view now key = (t.liveRow? now key).map KvRow.entry := by
  rw [Table.view, Table.cell, Table.liveRow?]
  cases hrow : t.row? key with
  | none => rfl
  | some row =>
      rw [Option.map_some, ExpiringMap.live_some]
      by_cases hlive : row.entry.Live now
      · simp [Option.filter, notExpired_iff.2 hlive, hlive]
      · have hdead : notExpired now row = false := by
          rw [← Bool.not_eq_true, notExpired_iff]; exact hlive
        simp [Option.filter, hdead, hlive]

/-- The live entries after the row of one key was written. -/
theorem view_upsert (row : KvRow) :
    (t.upsert row).view now =
      Function.update (t.view now) row.key (ExpiringMap.live now (some row.entry)) := by
  funext key
  by_cases h : key = row.key
  · subst h
    simp [Table.view, Table.cell]
  · simp [Table.view, Table.cell, h]

/-- Deleting rows that are not live changes no live entry. -/
theorem view_deleteWhere {p : KvRow → Bool} (h : ∀ row ∈ t.rows, p row → notExpired now row = false) :
    (t.deleteWhere p).view now = t.view now := by
  funext key
  rw [Table.view, Table.view, Table.cell, Table.cell, row?_deleteWhere]
  cases hrow : t.row? key with
  | none => rfl
  | some row =>
      rw [Option.filter]
      split
      · rfl
      · rename_i hp
        have hdead := h row (row?_eq_some.1 hrow).1 (by simpa using hp)
        rw [Option.map_some, ExpiringMap.live_some, if_neg]
        · rfl
        · rw [← notExpired_iff, hdead]
          exact Bool.false_ne_true

end Rows

def prefixLikePattern (keyPrefix : KeyPrefix) : String :=
  String.ofList (escaped '\\' '_' '%' keyPrefix.text.toList ++ ['%'])

/-- `text LIKE pattern ESCAPE E'\\'`. -/
def sqlLike (text pattern : String) : Option Bool := like '\\' '_' '%' pattern.toList text.toList

theorem sqlLike_prefixLikePattern (keyPrefix : KeyPrefix) (text : String) :
    sqlLike text (prefixLikePattern keyPrefix) =
      some (decide (keyPrefix.text.toList <+: text.toList)) := by
  rw [sqlLike, prefixLikePattern, String.toList_ofList]
  exact like_escaped (by decide) (by decide) _ _

/-- The keys that a condition on the pattern keeps. -/
def Key.like (key : Key) (pattern : String) : Bool := sqlLike key.text pattern = some true

/-- The pattern of a prefix matches the keys that start with it, whatever characters it contains. -/
theorem like_prefixLikePattern (keyPrefix : KeyPrefix) (key : Key) :
    key.like (prefixLikePattern keyPrefix) = keyPrefix.containsKey key := by
  rw [Key.like, sqlLike_prefixLikePattern, KeyPrefix.containsKey, Bool.eq_iff_iff,
    List.isPrefixOf_iff_prefix]
  simp

end Paranoid.KvModel

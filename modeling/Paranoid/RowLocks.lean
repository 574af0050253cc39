import Mathlib.Logic.Function.Basic
import Mathlib.Data.Option.Basic

namespace Paranoid.RowLocks

variable {τ κ ρ : Type}

/-- A transaction in progress has the row of a key: locked it, or written it too. -/
structure Hold (τ ρ : Type) where
  tx : τ
  written : Option (Option ρ)

/-- The committed rows of a table by key, and the one transaction that has each. An absent
row has its owner too: the one whose insert of the key has not been committed. -/
structure Table (τ κ ρ : Type) where
  committed : κ → Option ρ
  hold : κ → Option (Hold τ ρ)

namespace Table

variable (t : Table τ κ ρ) (tx : τ) (key : κ)

def start (committed : κ → Option ρ) : Table τ κ ρ := ⟨committed, fun _ => none⟩

def lock [DecidableEq κ] : Table τ κ ρ :=
  { t with hold := Function.update t.hold key (some ⟨tx, (t.hold key).bind (·.written)⟩) }

/-- The transaction writes the rows of all these keys. -/
def writeWhere (keys : κ → Bool) (row : Option ρ) : Table τ κ ρ :=
  { t with hold := fun key => if keys key then some ⟨tx, some row⟩ else t.hold key }

end Table

namespace Table

variable [DecidableEq τ] (t : Table τ κ ρ) (tx : τ) (key : κ)

/-- No other transaction has the row. -/
def free : Bool := (t.hold key).all (·.tx = tx)

/-- No other transaction in progress has written the row. -/
def unwritten : Bool := (t.hold key).all fun hold => hold.tx = tx || hold.written.isNone

/-- The row as the transaction's own statements find it. -/
def row : Option ρ :=
  match t.hold key with
  | none => t.committed key
  | some hold => if hold.tx = tx then hold.written.getD (t.committed key) else t.committed key

def commit : Table τ κ ρ := ⟨t.row tx, fun key => (t.hold key).filter (·.tx ≠ tx)⟩

def abort : Table τ κ ρ := { t with hold := fun key => (t.hold key).filter (·.tx ≠ tx) }

end Table

variable {t : Table τ κ ρ} {tx : τ} {key key' : κ}
  {hold : Hold τ ρ} {keys : κ → Bool} {written : Option ρ}

@[simp] theorem committed_lock [DecidableEq κ] : (t.lock tx key).committed = t.committed := rfl

@[simp] theorem committed_writeWhere : (t.writeWhere tx keys written).committed = t.committed := rfl

theorem hold_lock [DecidableEq κ] (h : (t.lock tx key).hold key' = some hold) :
    t.hold key' = some hold ∨
      key' = key ∧ hold.tx = tx ∧ hold.written = (t.hold key).bind (·.written) := by
  by_cases hk : key' = key
  · subst hk
    simp only [Table.lock, Function.update_self, Option.some.injEq] at h
    exact .inr ⟨rfl, h ▸ rfl, h ▸ rfl⟩
  · simp only [Table.lock, Function.update_of_ne hk] at h
    exact .inl h

theorem hold_lock_of_ne [DecidableEq κ] (hk : key' ≠ key) :
    (t.lock tx key).hold key' = t.hold key' := by
  simp [Table.lock, hk]

theorem hold_writeWhere (h : (t.writeWhere tx keys written).hold key = some hold) :
    keys key = false ∧ t.hold key = some hold ∨ keys key = true ∧ hold = ⟨tx, some written⟩ := by
  simp only [Table.writeWhere] at h
  split at h
  · rename_i hkey
    exact .inr ⟨hkey, (Option.some.inj h).symm⟩
  · rename_i hkey
    exact .inl ⟨Bool.eq_false_iff.2 hkey, h⟩

theorem hold_writeWhere_of_mem (h : keys key = true) :
    (t.writeWhere tx keys written).hold key = some ⟨tx, some written⟩ := by
  simp [Table.writeWhere, h]

theorem hold_writeWhere_of_not_mem (h : keys key = false) :
    (t.writeWhere tx keys written).hold key = t.hold key := by
  simp [Table.writeWhere, h]

variable [DecidableEq τ]

theorem free_iff : t.free tx key = true ↔ ∀ hold, t.hold key = some hold → hold.tx = tx := by
  simp [Table.free, Option.all_eq_true]

theorem row_of_hold (h : t.hold key = some hold) (htx : hold.tx = tx) :
    t.row tx key = hold.written.getD (t.committed key) := by
  simp only [Table.row, h, htx, if_true]

theorem row_of_others (h : ∀ hold, t.hold key = some hold → hold.tx ≠ tx) :
    t.row tx key = t.committed key := by
  unfold Table.row
  split
  · rfl
  · rename_i hold hhold
    rw [if_neg (h hold hhold)]

@[simp] theorem committed_commit : (t.commit tx).committed key = t.row tx key := rfl

@[simp] theorem committed_abort : (t.abort tx).committed = t.committed := rfl

theorem hold_commit : (t.commit tx).hold key = some hold ↔ t.hold key = some hold ∧ hold.tx ≠ tx := by
  simp [Table.commit, Option.filter_eq_some_iff]

theorem hold_abort : (t.abort tx).hold key = some hold ↔ t.hold key = some hold ∧ hold.tx ≠ tx := by
  simp [Table.abort, Option.filter_eq_some_iff]

/-- A commit changes only the rows that the transaction has written. -/
theorem committed_commit_cases (t : Table τ κ ρ) (tx : τ) (key : κ) :
    (t.commit tx).committed key = t.committed key ∨
      ∃ written, t.hold key = some ⟨tx, some written⟩ ∧ (t.commit tx).committed key = written := by
  rw [committed_commit]
  cases hhold : t.hold key with
  | none => exact .inl (row_of_others (by simp [hhold]))
  | some hold =>
      obtain ⟨owner, written⟩ := hold
      by_cases htx : owner = tx
      · subst htx
        rw [row_of_hold hhold rfl]
        cases written with
        | none => exact .inl rfl
        | some written => exact .inr ⟨written, rfl, rfl⟩
      · exact .inl (row_of_others (by simpa [hhold] using htx))

theorem row_writeWhere_of_mem (h : keys key = true) :
    (t.writeWhere tx keys written).row tx key = written :=
  row_of_hold (hold_writeWhere_of_mem h) rfl

theorem row_writeWhere_of_not_mem (h : keys key = false) (tx' : τ) :
    (t.writeWhere tx keys written).row tx' key = t.row tx' key := by
  simp only [Table.row, hold_writeWhere_of_not_mem h, committed_writeWhere]

/-- A statement of a transaction leaves the committed rows, the other keys and what the
others hold alone. -/
structure Touches (tx : τ) (keys : κ → Prop) (t t' : Table τ κ ρ) : Prop where
  committed : t'.committed = t.committed
  old : ∀ key hold, t'.hold key = some hold → t.hold key = some hold ∨ hold.tx = tx ∧ keys key
  kept : ∀ key hold, t.hold key = some hold → hold.tx ≠ tx ∨ ¬keys key → t'.hold key = some hold

section Touches

variable {other : τ} {t' : Table τ κ ρ}

omit [DecidableEq τ] in
theorem Touches.refl (tx : τ) (keys : κ → Prop) (t : Table τ κ ρ) : Touches tx keys t t :=
  ⟨rfl, fun _ _ hhold => .inl hhold, fun _ _ hhold _ => hhold⟩

theorem touches_writeWhere (hfree : ∀ key, keys key = true → t.free tx key = true) :
    Touches tx (keys · = true) t (t.writeWhere tx keys written) := by
  refine ⟨rfl, ?_, ?_⟩
  · intro key hold hhold
    rcases hold_writeWhere hhold with ⟨-, hold'⟩ | ⟨hkey, rfl⟩
    · exact .inl hold'
    · exact .inr ⟨rfl, hkey⟩
  · intro key hold hhold hother
    rw [hold_writeWhere_of_not_mem, hhold]
    refine Bool.eq_false_iff.2 fun hkey => ?_
    rcases hother with htx | hnot
    · exact htx (free_iff.1 (hfree key hkey) hold hhold)
    · exact hnot hkey

theorem touches_lock [DecidableEq κ] (hfree : t.free tx key = true) :
    Touches tx (· = key) t (t.lock tx key) := by
  refine ⟨rfl, ?_, ?_⟩
  · intro key' hold hhold
    rcases hold_lock hhold with hold' | ⟨hkey, htx, -⟩
    · exact .inl hold'
    · exact .inr ⟨htx, hkey⟩
  · intro key' hold hhold hother
    rw [hold_lock_of_ne, hhold]
    rintro rfl
    rcases hother with htx | hnot
    · exact htx (free_iff.1 hfree hold hhold)
    · exact hnot rfl

omit [DecidableEq τ] in
theorem Touches.mono {keys keys' : κ → Prop}
    (h : Touches tx keys t t') (hkeys : ∀ key, keys key → keys' key) :
    Touches tx keys' t t' :=
  ⟨h.committed, fun key hold hhold => (h.old key hold hhold).imp id (And.imp id (hkeys key)),
    fun key hold hhold hother => h.kept key hold hhold (hother.imp id (mt (hkeys key)))⟩

/-- What another transaction touches does not change what a transaction sees. -/
theorem Touches.row {keys : κ → Prop} (h : Touches tx keys t t') (hne : other ≠ tx) (key : κ) :
    t'.row other key = t.row other key := by
  by_cases hothers : ∃ hold, t.hold key = some hold ∧ hold.tx ≠ tx
  · obtain ⟨hold, hhold, htx⟩ := hothers
    simp only [Table.row, hhold, h.kept key hold hhold (.inl htx), h.committed]
  · have hown : ∀ hold, t.hold key = some hold → hold.tx = tx := fun hold hhold =>
      not_not.1 fun htx => hothers ⟨hold, hhold, htx⟩
    have hown' : ∀ hold, t'.hold key = some hold → hold.tx = tx := fun hold hhold =>
      (h.old key hold hhold).elim (hown hold) And.left
    rw [row_of_others fun hold hhold => (hown hold hhold).trans_ne hne.symm,
      row_of_others fun hold hhold => (hown' hold hhold).trans_ne hne.symm, h.committed]

end Touches

section Others

variable {other : τ}

theorem row_abort_of_ne (hne : other ≠ tx) (key : κ) :
    (t.abort tx).row other key = t.row other key := by
  cases hhold : t.hold key with
  | none => simp [Table.row, Table.abort, hhold]
  | some hold =>
      by_cases htx : hold.tx = tx
      · simp [Table.row, Table.abort, hhold, Option.filter, htx, hne.symm]
      · simp [Table.row, Table.abort, hhold, Option.filter, htx]

/-- After a commit, another transaction sees what it saw, or what the commit has left in
place of a committed row. -/
theorem row_commit_of_ne (hne : other ≠ tx) (key : κ) : (t.commit tx).row other key = t.row other key ∨
    (t.commit tx).row other key = t.row tx key ∧ t.row other key = t.committed key := by
  cases hhold : t.hold key with
  | none => simp [Table.row, Table.commit, hhold]
  | some hold =>
      by_cases htx : hold.tx = tx
      · right
        simp [Table.row, Table.commit, hhold, Option.filter, htx, hne.symm]
      · left
        simp [Table.row, Table.commit, hhold, Option.filter, htx]

end Others

end Paranoid.RowLocks

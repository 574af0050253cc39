import Mathlib.Data.List.Basic

namespace Paranoid.Savepoints

/-- What a transaction has done since it began, or since a savepoint that it is still in. -/
structure Frame (α : Type) where
  name : Option String
  data : α

variable {α : Type} (empty : α) (absorb : α → α → α) (name : String)

/-- The frames of a transaction, the innermost savepoint first. -/
abbrev Frames (α : Type) : Type := List (Frame α)

def start : Frames α := [⟨none, empty⟩]

def savepoint (frames : Frames α) : Frames α := ⟨some name, empty⟩ :: frames

/-- The savepoint stays, and what was done since is undone. -/
def rollbackTo (frames : Frames α) : Option (Frames α) :=
  match frames.dropWhile fun frame => frame.name ≠ some name with
  | [] => none
  | _ :: outer => some (⟨some name, empty⟩ :: outer)

def passOn (done : α) : Frames α → Option (Frames α)
  | [] => none
  | around :: outer => some (⟨around.name, absorb around.data done⟩ :: outer)

/-- What was done since the savepoint passes to the frame around it. -/
def release : α → Frames α → Option (Frames α)
  | _, [] => none
  | done, frame :: outer =>
      if frame.name = some name then passOn absorb (absorb frame.data done) outer
      else release (absorb frame.data done) outer

/-- An error undoes the innermost frame. -/
def abort : Frames α → Frames α
  | [] => []
  | frame :: outer => ⟨frame.name, empty⟩ :: outer

def update (f : α → α) : Frames α → Frames α
  | [] => []
  | frame :: outer => ⟨frame.name, f frame.data⟩ :: outer

def Holds (P : α → Prop) (frames : Frames α) : Prop := ∃ frame ∈ frames, P frame.data

section Lemmas

variable {empty : α} {absorb : α → α → α} {name : String}
  {P : α → Prop} {frames : Frames α} {frame : Frame α}
  {done : α}

@[simp] theorem holds_nil : ¬Holds P [] := fun ⟨_, hmem, _⟩ => nomatch hmem

@[simp] theorem holds_cons : Holds P (frame :: frames) ↔ P frame.data ∨ Holds P frames := by
  simp [Holds]

theorem holds_append {inner outer : Frames α} :
    Holds P (inner ++ outer) ↔ Holds P inner ∨ Holds P outer := by
  simp [Holds, or_and_right, exists_or]

theorem rollbackTo_cons (h : frame.name = some name) :
    rollbackTo empty name (frame :: frames) = some (⟨some name, empty⟩ :: frames) := by
  simp [rollbackTo, h]

theorem release_cons {around : Frame α} (h : frame.name = some name) :
    release absorb name done (frame :: around :: frames) =
      some (⟨around.name, absorb around.data (absorb frame.data done)⟩ :: frames) := by
  simp [release, passOn, h]

section Shrinking

variable (hempty : ¬P empty)
include hempty

theorem holds_start : ¬Holds P (start empty) := by
  simp [start, hempty]

theorem holds_savepoint : Holds P (savepoint empty name frames) ↔ Holds P frames := by
  simp [savepoint, hempty]

theorem holds_of_abort (h : Holds P (abort empty frames)) : Holds P frames := by
  cases frames with
  | nil => exact h
  | cons frame outer =>
      rw [abort, holds_cons] at h
      exact holds_cons.2 (.inr (h.resolve_left hempty))

theorem holds_of_rollbackTo {after : Frames α}
    (h : rollbackTo empty name frames = some after) (ha : Holds P after) :
    Holds P frames := by
  rw [rollbackTo] at h
  split at h
  · cases h
  · rename_i frame outer heq
    cases h
    obtain ⟨held, hmem, hP⟩ := (holds_cons.1 ha).resolve_left hempty
    have hsuffix : held ∈ frames.dropWhile fun frame => frame.name ≠ some name :=
      heq ▸ List.mem_cons_of_mem _ hmem
    exact ⟨held, (List.dropWhile_suffix _).subset hsuffix, hP⟩

end Shrinking

theorem holds_of_release (habsorb : ∀ a b, P (absorb a b) → P a ∨ P b) {after : Frames α}
    (h : release absorb name done frames = some after) (ha : Holds P after) :
    P done ∨ Holds P frames := by
  induction frames generalizing done with
  | nil => cases h
  | cons frame outer ih =>
      have hframe : P (absorb frame.data done) → P done ∨ Holds P (frame :: outer) := fun hP =>
        (habsorb _ _ hP).elim (fun hdata => .inr (holds_cons.2 (.inl hdata))) .inl
      rw [release] at h
      split at h
      · cases outer with
        | nil => cases h
        | cons around outer =>
            cases h
            rcases holds_cons.1 ha with hP | houter
            · rcases habsorb _ _ hP with haround | hdone
              · exact .inr (holds_cons.2 (.inr (holds_cons.2 (.inl haround))))
              · exact hframe hdone
            · exact .inr (holds_cons.2 (.inr (holds_cons.2 (.inr houter))))
      · rcases ih h with hP | houter
        · exact hframe hP
        · exact .inr (holds_cons.2 (.inr houter))

theorem holds_of_update {f : α → α} {Q : Prop}
    (hf : ∀ a, P (f a) → P a ∨ Q) (h : Holds P (update f frames)) :
    Holds P frames ∨ Q := by
  cases frames with
  | nil => exact .inl h
  | cons frame outer =>
      rcases holds_cons.1 h with hP | houter
      · exact (hf frame.data hP).imp_left fun hdata => holds_cons.2 (.inl hdata)
      · exact .inl (holds_cons.2 (.inr houter))

theorem holds_update {f : α → α} (hf : ∀ a, P a → P (f a)) (h : Holds P frames) :
    Holds P (update f frames) := by
  cases frames with
  | nil => exact h
  | cons frame outer => exact holds_cons.2 ((holds_cons.1 h).imp_left (hf frame.data))

/-- The change falls on the innermost frame. -/
theorem holds_update_innermost {f : α → α} (hf : ∀ a, P (f a)) (h : frames ≠ []) :
    Holds P (update f frames) := by
  cases frames with
  | nil => exact absurd rfl h
  | cons frame outer => exact holds_cons.2 (.inl (hf frame.data))

end Lemmas

end Paranoid.Savepoints

import Paranoid.LocalLockModel

namespace Paranoid.LocalLock

open LocalLockModel Transitions

/-- The process has created the lock file, and has not written its record yet. -/
def Phase.Unwritten : Phase → Prop
  | .building _ | .writing _ _ => True
  | _ => False

/-- The heartbeat has compared the file with the one at the path, and has not written yet. -/
def Heartbeat.Unwritten : Heartbeat → Prop
  | .building _ _ | .truncating _ _ | .writing _ _ => True
  | _ => False

def InWindow (process : Process) : Prop :=
  Phase.Unwritten process.phase ∨ Heartbeat.Unwritten process.heartbeat

/-- The call to acquire has taken the lock, and release has not been called. -/
def Active : Phase → Prop
  | .starting | .holding => True
  | _ => False

/-- The record of the process is there, and is stale to nobody. -/
def Fresh (staleAfter : Nat → Nat) (s : State) (p : Nat) : Prop :=
  ∃ file record, (s.process p).created = some file ∧
    parseLeaseRecord (s.files file).content = some record ∧
    ∀ q, isLeaseStale s.now (staleAfter q) record = false

/-- The call to acquire has a file of its own, and has not started the heartbeat. -/
def Quiet : Phase → Prop
  | .building _ | .writing _ _ | .cleaning => True
  | _ => False

def purposeOf : Phase → Option Purpose
  | .reading purpose | .statting purpose _ | .judging purpose _ | .rereading purpose _ | .removing purpose _ =>
      some purpose
  | _ => none

/-- The clock does not go back, and what is removed is the file that was judged, or that the
process has created, and nobody is about to write into it. -/
def Guarded (s : State) : Event → Prop
  | .clock now => s.now ≤ now
  | .proceeds p true =>
      match (s.process p).phase with
      | .removing _ snapshot => ∀ file, s.path = some file →
          (s.files file).content = snapshot.content ∧ ∀ q, (s.process q).created = some file →
            ¬InWindow (s.process q)
      | .cleaning => ∀ q, s.path = (s.process q).created → s.path ≠ none → q = p
      | _ => True
  | _ => True

/-- What a phase says of the file that its process has created, and of the snapshot that
it has judged. -/
def PhasePlaced (staleAfter : Nat → Nat) (now p : Nat) (created : Option Nat) : Phase → Prop
  | .idle | .creating _ | .reading (.acquiring _) | .statting (.acquiring _) _ | .judging (.acquiring _) _ =>
      created = none
  | .rereading (.acquiring _) snapshot | .removing (.acquiring _) snapshot => created = none ∧
      ∀ record, parseLeaseRecord snapshot.content = some record →
        staleAfter p ≤ now - record.lastHeartbeatUnixNano
  | .rereading .releasing snapshot | .removing .releasing snapshot =>
      ∃ record, parseLeaseRecord snapshot.content = some record ∧ record.ownerId = p
  | .building file => created = some file
  | .writing file record => created = some file ∧ record.ownerId = p
  | .starting | .holding => created ≠ none
  | _ => True

def HeartbeatPlaced (p : Nat) (created : Option Nat) : Heartbeat → Prop
  | .off => True
  | .reading file => created ≠ none ∧ 0 < file
  | .comparing file record | .building file record | .truncating file record | .writing file record =>
      created = some file ∧ record.ownerId = p
  | _ => created ≠ none

/-- Whoever is about to write has its file at the path, and whoever has the lock, unless
its record is stale. File 0 is the one that was there before. -/
structure Inv (staleAfter : Nat → Nat) (s : State) : Prop where
  next : 0 < s.next
  below : ∀ p file, (s.process p).created = some file → 0 < file ∧ file < s.next
  apart : ∀ p q file, (s.process p).created = some file → (s.process q).created = some file → p = q
  owner : ∀ file record, 0 < file → (s.files file).content = .record record →
    (s.process record.ownerId).created = some file
  path : ∀ file, s.path = some file →
    (∃ p, (s.process p).created = some file) ∨ file = 0 ∧ ∀ p, (s.process p).created = none
  unused : ∀ file, s.next ≤ file → ∃ text, (s.files file).content = .other text
  phase : ∀ p, PhasePlaced staleAfter s.now p (s.process p).created (s.process p).phase
  heartbeat : ∀ p, HeartbeatPlaced p (s.process p).created (s.process p).heartbeat
  quiet : ∀ p, Quiet (s.process p).phase → (s.process p).heartbeat = .off
  window : ∀ p, InWindow (s.process p) → s.path = (s.process p).created
  fresh : ∀ p, Active (s.process p).phase → Fresh staleAfter s p → s.path = (s.process p).created

variable {staleAfter : Nat → Nat} {s : State} {p q : Nat} {f : Process → Process} {ok : Bool}

@[simp] theorem process_change_self : (s.change p f).process p = f (s.process p) := by
  simp [State.change]

theorem process_change_of_ne (h : q ≠ p) : (s.change p f).process q = s.process q := by
  simp [State.change, h]

@[simp] theorem created_change (hf : ∀ process, (f process).created = process.created) :
    ((s.change p f).process q).created = (s.process q).created := by
  by_cases h : q = p
  · rw [h, process_change_self, hf]
  · rw [process_change_of_ne h]

theorem process_create_self : (s.create p).process p =
    { s.process p with phase := .building s.next, created := some s.next } := by
  simp [State.create]

theorem process_create_of_ne (h : q ≠ p) : (s.create p).process q = s.process q := by
  simp [State.create, h]

theorem created_create {file : Nat} (h : ((s.create p).process q).created = some file) :
    q = p ∧ file = s.next ∨ q ≠ p ∧ (s.process q).created = some file := by
  by_cases hqp : q = p
  · rw [hqp, process_create_self] at h
    exact .inl ⟨hqp, (Option.some.inj h).symm⟩
  · rw [process_create_of_ne hqp] at h
    exact .inr ⟨hqp, h⟩

section Steps

/-- A step of a process that leaves the files alone. -/
theorem Inv.change (h : Inv staleAfter s) (hf : ∀ process, (f process).created = process.created)
    (hphase : PhasePlaced staleAfter s.now p (s.process p).created (f (s.process p)).phase)
    (hheartbeat : HeartbeatPlaced p (s.process p).created (f (s.process p)).heartbeat)
    (hquiet : Quiet (f (s.process p)).phase → (f (s.process p)).heartbeat = .off)
    (hwindow : InWindow (f (s.process p)) → s.path = (s.process p).created)
    (hactive : Active (f (s.process p)).phase → Fresh staleAfter s p → s.path = (s.process p).created) :
    Inv staleAfter (s.change p f) := by
  have hcreated : ∀ q, ((s.change p f).process q).created = (s.process q).created :=
    fun q => created_change hf
  refine ⟨h.next, ?_, ?_, ?_, ?_, h.unused, ?_, ?_, ?_, ?_, ?_⟩
  · intro q file hq
    exact h.below q file (hcreated q ▸ hq)
  · intro q r file hq hr
    exact h.apart q r file (hcreated q ▸ hq) (hcreated r ▸ hr)
  · intro file record hfile hrecord
    rw [hcreated]
    exact h.owner file record hfile hrecord
  · intro file hpath
    simp only [hcreated]
    exact h.path file hpath
  · intro q
    rw [hcreated]
    by_cases hq : q = p
    · rw [hq, process_change_self]
      exact hphase
    · rw [process_change_of_ne hq]
      exact h.phase q
  · intro q
    rw [hcreated]
    by_cases hq : q = p
    · rw [hq, process_change_self]
      exact hheartbeat
    · rw [process_change_of_ne hq]
      exact h.heartbeat q
  · intro q hq
    by_cases hqp : q = p
    · rw [hqp, process_change_self] at hq ⊢
      exact hquiet hq
    · rw [process_change_of_ne hqp] at hq ⊢
      exact h.quiet q hq
  · intro q hq
    rw [hcreated]
    by_cases hqp : q = p
    · rw [hqp]
      rw [hqp, process_change_self] at hq
      exact hwindow hq
    · rw [process_change_of_ne hqp] at hq
      exact h.window q hq
  · intro q hq hfresh
    have hfresh' : Fresh staleAfter s q := by
      obtain ⟨file, record, hfile, hrecord⟩ := hfresh
      exact ⟨file, record, hcreated q ▸ hfile, hrecord⟩
    rw [hcreated]
    by_cases hqp : q = p
    · rw [hqp]
      rw [hqp, process_change_self] at hq
      exact hactive hq (hqp ▸ hfresh')
    · rw [process_change_of_ne hqp] at hq
      exact h.fresh q hq hfresh'

/-- A process writes into its own file while that is at the path. -/
theorem Inv.write {file : Nat} {content : Content} (h : Inv staleAfter s)
    (hcreated : (s.process p).created = some file) (hpath : s.path = (s.process p).created)
    (hcontent : ∀ record, content = .record record → record.ownerId = p) :
    Inv staleAfter (s.write file content) := by
  have hother : ∀ other, other ≠ file → ((s.write file content).files other) = s.files other := by
    intro other hne
    simp [State.write, hne]
  refine ⟨h.next, h.below, h.apart, ?_, h.path, ?_, h.phase, h.heartbeat, h.quiet, h.window, ?_⟩
  · intro other record hpos hrecord
    by_cases hne : other = file
    · subst hne
      simp only [State.write, Function.update_self] at hrecord
      rw [hcontent record hrecord]
      exact hcreated
    · rw [hother other hne] at hrecord
      exact h.owner other record hpos hrecord
  · intro other hnext
    have hne : other ≠ file := by
      have hlt := (h.below p file hcreated).2
      rintro rfl
      exact absurd hnext (Nat.not_le.2 hlt)
    rw [hother other hne]
    exact h.unused other hnext
  · intro q hactive hfresh
    by_cases hq : q = p
    · rw [hq]
      exact hpath
    · refine h.fresh q hactive ?_
      obtain ⟨other, record, hother', hrecord, hyoung⟩ := hfresh
      have hne : other ≠ file := by
        rintro rfl
        exact hq (h.apart q p other hother' hcreated)
      rw [hother other hne] at hrecord
      exact ⟨other, record, hother', hrecord, hyoung⟩

/-- The file at the path is removed: nobody is about to write it, and nobody has a fresh
record in it. -/
theorem Inv.unlink (h : Inv staleAfter s)
    (hwindow : ∀ q, s.path = (s.process q).created → ¬InWindow (s.process q))
    (hfresh : ∀ q, s.path = (s.process q).created →
      Active (s.process q).phase → ¬Fresh staleAfter s q) :
    Inv staleAfter { s with path := none } := by
  refine ⟨h.next, h.below, h.apart, h.owner, nofun, h.unused, h.phase, h.heartbeat, h.quiet, ?_, ?_⟩
  · intro q hq
    exact absurd hq (hwindow q (h.window q hq))
  · intro q hactive hq
    exact absurd hq (hfresh q (h.fresh q hactive hq) hactive)

theorem Inv.clock {now : Nat} (h : Inv staleAfter s) (hnow : s.now ≤ now) :
    Inv staleAfter { s with now } := by
  refine ⟨h.next, h.below, h.apart, h.owner, h.path, h.unused, ?_, h.heartbeat, h.quiet, h.window, ?_⟩
  · intro q
    have hq := h.phase q
    change PhasePlaced staleAfter now q (s.process q).created (s.process q).phase
    unfold PhasePlaced at hq ⊢
    split at hq
    all_goals try exact hq
    · exact ⟨hq.1, fun record hrecord =>
        Nat.le_trans (hq.2 record hrecord) (Nat.sub_le_sub_right hnow _)⟩
    · exact ⟨hq.1, fun record hrecord =>
        Nat.le_trans (hq.2 record hrecord) (Nat.sub_le_sub_right hnow _)⟩
  · intro q hactive hfresh
    refine h.fresh q hactive ?_
    obtain ⟨file, record, hfile, hrecord, hyoung⟩ := hfresh
    refine ⟨file, record, hfile, hrecord, fun r => ?_⟩
    have hyoung_r := hyoung r
    simp only [isLeaseStale, decide_eq_false_iff_not, Nat.not_le] at hyoung_r ⊢
    exact Nat.lt_of_le_of_lt (Nat.sub_le_sub_right hnow _) hyoung_r

theorem heartbeat_off (h : Inv staleAfter s) (hnone : (s.process p).created = none) :
    (s.process p).heartbeat = .off := by
  have hplaced := h.heartbeat p
  rw [hnone] at hplaced
  unfold HeartbeatPlaced at hplaced
  split at hplaced
  · assumption
  · exact absurd rfl hplaced.1
  · exact absurd hplaced.1 nofun
  · exact absurd hplaced.1 nofun
  · exact absurd hplaced.1 nofun
  · exact absurd hplaced.1 nofun
  · exact absurd rfl hplaced

theorem created_of_window (h : Inv staleAfter s) (hwindow : InWindow (s.process p)) :
    (s.process p).created ≠ none := by
  rcases hwindow with hphase | hheartbeat
  · have hplaced := h.phase p
    cases hp : (s.process p).phase <;> rw [hp] at hphase hplaced <;> try exact hphase.elim
    · rw [hplaced]
      nofun
    · rw [hplaced.1]
      nofun
  · intro hnone
    rw [heartbeat_off h hnone] at hheartbeat
    exact hheartbeat

/-- A process creates the lock file. -/
theorem Inv.create (h : Inv staleAfter s)
    (hnone : (s.process p).created = none) (hpath : s.path = none) :
    Inv staleAfter (s.create p) := by
  have hself := @process_create_self s p
  have hother : ∀ q, q ≠ p → (s.create p).process q = s.process q := fun q => process_create_of_ne
  have hfile : ∀ file, file ≠ s.next → (s.create p).files file = s.files file := by
    intro file hne
    simp [State.create, hne]
  refine ⟨Nat.succ_pos _, ?_, ?_, ?_, ?_, ?_, ?_, ?_, ?_, ?_, ?_⟩
  · intro q file hq
    rcases created_create hq with ⟨-, rfl⟩ | ⟨-, hq⟩
    · exact ⟨h.next, Nat.lt_succ_self _⟩
    · exact ⟨(h.below q file hq).1, Nat.lt_succ_of_lt (h.below q file hq).2⟩
  · intro q r file hq hr
    rcases created_create hq with ⟨hqp, hnext⟩ | ⟨-, hq⟩
    · rcases created_create hr with ⟨hrp, -⟩ | ⟨-, hr⟩
      · rw [hqp, hrp]
      · exact absurd (hnext ▸ (h.below r file hr).2) (Nat.lt_irrefl _)
    · rcases created_create hr with ⟨-, hnext⟩ | ⟨-, hr⟩
      · exact absurd (hnext ▸ (h.below q file hq).2) (Nat.lt_irrefl _)
      · exact h.apart q r file hq hr
  · intro file record hpos hrecord
    by_cases hne : file = s.next
    · subst hne
      simp [State.create] at hrecord
    · rw [hfile file hne] at hrecord
      have howner := h.owner file record hpos hrecord
      have howner_ne : record.ownerId ≠ p := by
        intro heq
        rw [heq, hnone] at howner
        cases howner
      rw [hother _ howner_ne]
      exact howner
  · rintro file ⟨⟩
    exact .inl ⟨p, by rw [hself]⟩
  · intro file hnext
    have hne : file ≠ s.next := (Nat.ne_of_lt hnext).symm
    rw [hfile file hne]
    exact h.unused file (Nat.le_of_succ_le hnext)
  · intro q
    by_cases hq : q = p
    · rw [hq, hself]
      exact rfl
    · rw [hother q hq]
      exact h.phase q
  · intro q
    by_cases hq : q = p
    · rw [hq, hself]
      dsimp only
      rw [heartbeat_off h hnone]
      trivial
    · rw [hother q hq]
      exact h.heartbeat q
  · intro q hquiet
    by_cases hq : q = p
    · rw [hq, hself]
      exact heartbeat_off h hnone
    · rw [hother q hq] at hquiet ⊢
      exact h.quiet q hquiet
  · intro q hwindow
    by_cases hq : q = p
    · rw [hq, hself]
      rfl
    · rw [hother q hq] at hwindow
      exact absurd (h.window q hwindow ▸ hpath) (created_of_window h hwindow)
  · intro q hactive hfresh
    by_cases hq : q = p
    · rw [hq, hself]
      rfl
    · obtain ⟨file, record, hq', hrecord, hyoung⟩ := hfresh
      rw [hother q hq] at hactive hq'
      have hne : file ≠ s.next := Nat.ne_of_lt (h.below q file hq').2
      rw [hfile file hne] at hrecord
      have hplace := h.fresh q hactive ⟨file, record, hq', hrecord, hyoung⟩
      rw [hpath, hq'] at hplace
      cases hplace

/-- A process goes on to a phase in which it has no file that it must not lose. -/
theorem Inv.enter {phase : Phase} (h : Inv staleAfter s)
    (hplaced : PhasePlaced staleAfter s.now p (s.process p).created phase)
    (hwritten : ¬Phase.Unwritten phase)
    (hquiet : Quiet phase → (s.process p).heartbeat = .off)
    (hactive : Active phase → Fresh staleAfter s p → s.path = (s.process p).created) :
    Inv staleAfter (s.enter p phase) := by
  apply h.change
  · intro process
    rfl
  · exact hplaced
  · exact h.heartbeat p
  · exact hquiet
  · rintro (hphase | hheartbeat)
    · exact absurd hphase hwritten
    · exact h.window p (.inr hheartbeat)
  · exact hactive

/-- The heartbeat goes on to where it has nothing to write. -/
theorem Inv.heart {heartbeat : Heartbeat} (h : Inv staleAfter s)
    (hf : ∀ process, (f process).created = process.created)
    (hphase : (f (s.process p)).phase = (s.process p).phase)
    (hheartbeat : (f (s.process p)).heartbeat = heartbeat)
    (hplaced : HeartbeatPlaced p (s.process p).created heartbeat)
    (hbeats : (s.process p).heartbeat ≠ .off)
    (hwritten : Heartbeat.Unwritten heartbeat → s.path = (s.process p).created) :
    Inv staleAfter (s.change p f) := by
  apply h.change hf
  · rw [hphase]
    exact h.phase p
  · rw [hheartbeat]
    exact hplaced
  · intro hquiet
    rw [hphase] at hquiet
    exact absurd (h.quiet p hquiet) hbeats
  · rintro (hunwritten | hunwritten)
    · rw [hphase] at hunwritten
      exact h.window p (.inl hunwritten)
    · rw [hheartbeat] at hunwritten
      exact hwritten hunwritten
  · intro hactive
    rw [hphase] at hactive
    exact h.fresh p hactive

end Steps

section Handlers

variable {phase : Phase} {purpose : Purpose}
  {snapshot : LeaseSnapshot} {file : Nat} {record : LeaseRecord}

/-- What follows an attempt to remove is passive, and takes no file of the process. -/
theorem inv_enter_after (h : Inv staleAfter s)
    (hpurpose : ∀ left, purpose = .acquiring left → (s.process p).created = none)
    (hphase : phase = afterRemoval purpose ∨ phase = afterError purpose) :
    Inv staleAfter (s.enter p phase) := by
  cases purpose with
  | acquiring left =>
      have hnone := hpurpose left rfl
      have hcases : phase = .refused ∨ phase = .creating (left - 1) := by
        rcases hphase with rfl | rfl
        · by_cases hleft : left ≤ 1
          · exact .inl (if_pos hleft)
          · exact .inr (if_neg hleft)
        · exact .inl rfl
      rcases hcases with rfl | rfl
      · exact h.enter trivial id nofun nofun
      · exact h.enter hnone id nofun nofun
  | releasing =>
      have hreleased : phase = .released := by
        rcases hphase with rfl | rfl <;> rfl
      rw [hreleased]
      exact h.enter trivial id nofun nofun

theorem inv_tryCreate_creating {left : Nat} (h : Inv staleAfter s)
    (hp : (s.process p).phase = .creating left) :
    Inv staleAfter (tryCreate s p ok (.creating left)) := by
  have hnone : (s.process p).created = none := by
    have hplaced := h.phase p
    rw [hp] at hplaced
    exact hplaced
  simp only [tryCreate]
  split
  · exact h.enter trivial id nofun nofun
  · split
    · exact h.enter hnone id nofun nofun
    · exact h.create hnone ‹_›

theorem inv_tryCreate_building (h : Inv staleAfter s) (hp : (s.process p).phase = .building file) :
    Inv staleAfter (tryCreate s p ok (.building file)) := by
  have hplaced := h.phase p
  have hquiet := h.quiet p
  have hwindow := h.window p
  rw [hp] at hplaced hquiet
  rw [InWindow, hp] at hwindow
  simp only [tryCreate, State.enter]
  apply h.change
  · intro process
    rfl
  · exact ⟨hplaced, rfl⟩
  · exact h.heartbeat p
  · intro _
    exact hquiet trivial
  · intro _
    exact hwindow (.inl trivial)
  · exact nofun

theorem inv_tryCreate_writing (h : Inv staleAfter s) (hp : (s.process p).phase = .writing file record) :
    Inv staleAfter (tryCreate s p ok (.writing file record)) := by
  have hplaced := h.phase p
  have hquiet := h.quiet p
  have hwindow := h.window p
  rw [hp] at hplaced hquiet
  rw [InWindow, hp] at hwindow
  have hpath := hwindow (.inl trivial)
  simp only [tryCreate]
  split
  · have hwritten : Inv staleAfter (s.write file (.record record)) := by
      apply h.write hplaced.1 hpath
      rintro _ ⟨⟩
      exact hplaced.2
    have hcreated : (s.process p).created ≠ none := by
      rw [hplaced.1]
      nofun
    exact hwritten.enter hcreated id nofun fun _ _ => hpath
  · exact h.enter trivial id (fun _ => hquiet trivial) nofun

theorem inv_tryCreate_cleaning (h : Inv staleAfter s) (hp : (s.process p).phase = .cleaning)
    (hguard : ok = true → ∀ q, s.path = (s.process q).created → s.path ≠ none → q = p) :
    Inv staleAfter (tryCreate s p ok .cleaning) := by
  have hquiet := h.quiet p
  rw [hp] at hquiet
  have hunlinked : Inv staleAfter { s with path := if ok then none else s.path } := by
    cases ok with
    | false => exact h
    | true =>
        apply h.unlink
        · intro q hq hwindow
          have hpath : s.path ≠ none := hq ▸ created_of_window h hwindow
          rw [hguard rfl q hq hpath, InWindow, hp, hquiet trivial] at hwindow
          rcases hwindow with hwindow | hwindow <;> exact hwindow
        · rintro q hq hactive ⟨file, record, hcreated, -⟩
          have hpath : s.path ≠ none := by
            rw [hq, hcreated]
            nofun
          rw [hguard rfl q hq hpath, hp] at hactive
          exact hactive
  exact hunlinked.enter trivial id nofun nofun

theorem created_of_acquiring (h : Inv staleAfter s)
    (hp : purposeOf (s.process p).phase = some purpose) :
    ∀ left, purpose = .acquiring left → (s.process p).created = none := by
  rintro left rfl
  have hplaced := h.phase p
  cases hphase : (s.process p).phase <;> rw [hphase] at hp hplaced <;> cases hp
  · exact hplaced
  · exact hplaced
  · exact hplaced
  · exact hplaced.1
  · exact hplaced.1

/-- Either look at the path goes on with what it finds there, or ends the attempt. -/
theorem inv_readSnapshot {phase : Phase} (h : Inv staleAfter s) (hp : (s.process p).phase = phase)
    (hpurpose : purposeOf phase = some purpose) : Inv staleAfter (readSnapshot s p ok phase) := by
  have hnone : ∀ left, purpose = .acquiring left → (s.process p).created = none :=
    created_of_acquiring h (by rw [hp, hpurpose])
  unfold readSnapshot
  split
  case h_3 => exact h
  all_goals
    cases hpurpose
    split
    · exact inv_enter_after h hnone (.inr rfl)
    split
    · exact inv_enter_after h hnone (.inl rfl)
    · refine h.enter ?_ id nofun nofun
      cases purpose with
      | acquiring left => exact hnone left rfl
      | releasing => trivial

/-- A snapshot that is judged is stale, or the process's own. -/
theorem placed_of_judges (hjudges : judges staleAfter s.now p snapshot purpose = true)
    (hnone : ∀ left, purpose = .acquiring left → (s.process p).created = none) :
    PhasePlaced staleAfter s.now p (s.process p).created (.rereading purpose snapshot) := by
  cases purpose with
  | acquiring left =>
      refine ⟨hnone left rfl, fun record hrecord => ?_⟩
      simpa [judges, hrecord, isLeaseStale] using hjudges
  | releasing =>
      simp only [judges] at hjudges
      split at hjudges
      · exact ⟨_, ‹_›, of_decide_eq_true hjudges⟩
      · cases hjudges

theorem inv_tryRemoveIfUnchanged_rereading (h : Inv staleAfter s)
    (hp : (s.process p).phase = .rereading purpose snapshot) :
    Inv staleAfter (tryRemoveIfUnchanged s p ok (.rereading purpose snapshot)) := by
  have hnone : ∀ left, purpose = .acquiring left → (s.process p).created = none :=
    created_of_acquiring h (by rw [hp]; rfl)
  have hplaced := h.phase p
  rw [hp] at hplaced
  simp only [tryRemoveIfUnchanged]
  split
  · exact inv_enter_after h hnone (.inr rfl)
  · split
    · exact inv_enter_after h hnone (.inl rfl)
    · split
      · refine h.enter ?_ id nofun nofun
        cases purpose <;> exact hplaced
      · exact inv_enter_after h hnone (.inl rfl)

theorem record_of_parse {content : Content} (h : parseLeaseRecord content = some record) :
    content = .record record := by
  cases content with
  | record _ =>
      simp only [parseLeaseRecord] at h
      split at h
      · rw [Option.some.inj h]
      · cases h
  | other _ => cases h

/-- Nobody has a fresh record in a file that is removed unchanged. -/
theorem not_fresh_of_removing (h : Inv staleAfter s)
    (hp : (s.process p).phase = .removing purpose snapshot) (hq : (s.process q).created = some file)
    (hcontent : (s.files file).content = snapshot.content) (hactive : Active (s.process q).phase) :
    ¬Fresh staleAfter s q := by
  rintro ⟨other, record, hother, hrecord, hyoung⟩
  cases hother.symm.trans hq
  rw [hcontent] at hrecord
  have hplaced := h.phase p
  rw [hp] at hplaced
  cases purpose with
  | acquiring left =>
      -- the record was stale when it was judged, and the clock has not gone back
      have hstale := hplaced.2 record hrecord
      have hyoung_p := hyoung p
      simp only [isLeaseStale, decide_eq_false_iff_not] at hyoung_p
      exact absurd hstale hyoung_p
  | releasing =>
      obtain ⟨_, hsnapshot, howner⟩ := hplaced
      cases hsnapshot.symm.trans hrecord
      have hown := h.owner file record (h.below q file hq).1 (hcontent.trans (record_of_parse hrecord))
      rw [howner] at hown
      cases h.apart p q file hown hq
      rw [hp] at hactive
      exact hactive

theorem inv_tryRemoveIfUnchanged_removing (h : Inv staleAfter s)
    (hp : (s.process p).phase = .removing purpose snapshot)
    (hguard : ok = true → ∀ file, s.path = some file →
      (s.files file).content = snapshot.content ∧ ∀ q, (s.process q).created = some file →
        ¬InWindow (s.process q)) :
    Inv staleAfter (tryRemoveIfUnchanged s p ok (.removing purpose snapshot)) := by
  have hnone : ∀ left, purpose = .acquiring left → (s.process p).created = none :=
    created_of_acquiring h (by rw [hp]; rfl)
  simp only [tryRemoveIfUnchanged]
  cases ok with
  | false => exact inv_enter_after h hnone (.inr rfl)
  | true =>
    have hunlinked : Inv staleAfter { s with path := none } := by
      apply h.unlink
      · intro q hq hwindow
        obtain ⟨file, hfile⟩ := Option.ne_none_iff_exists'.1 (created_of_window h hwindow)
        exact (hguard rfl file (hq.trans hfile)).2 q hfile hwindow
      · intro q hq hactive hfresh
        obtain ⟨file, _, hfile, -⟩ := id hfresh
        exact not_fresh_of_removing h hp hfile (hguard rfl file (hq.trans hfile)).1 hactive hfresh
    exact inv_enter_after hunlinked hnone (.inl rfl)

theorem inv_proceed (h : Inv staleAfter s)
    (hguard : Guarded s (.proceeds p ok)) : Inv staleAfter (proceed staleAfter s p ok) := by
  unfold proceed
  split <;> rename_i hp
  · exact inv_tryCreate_creating h hp
  · exact inv_tryCreate_building h hp
  · exact inv_tryCreate_writing h hp
  · apply inv_tryCreate_cleaning h hp
    rintro rfl
    simpa only [Guarded, hp] using hguard
  · exact inv_readSnapshot h hp rfl
  · exact inv_readSnapshot h hp rfl
  · rename_i purpose snapshot
    have hnone : ∀ left, purpose = .acquiring left → (s.process p).created = none :=
      created_of_acquiring h (by rw [hp]; rfl)
    split
    · exact h.enter (placed_of_judges ‹_› hnone) id nofun nofun
    · exact inv_enter_after h hnone (.inr rfl)
  · exact inv_tryRemoveIfUnchanged_rereading h hp
  · apply inv_tryRemoveIfUnchanged_removing h hp
    rintro rfl
    simpa only [Guarded, hp] using hguard
  · have hplaced := h.phase p
    have hfresh := h.fresh p
    rw [hp] at hplaced hfresh
    apply h.change
    · intro process
      rfl
    · exact hplaced
    · exact hplaced
    · exact nofun
    · rintro (hunwritten | hunwritten) <;> exact hunwritten.elim
    · intro _
      exact hfresh trivial
  · split
    · refine h.enter ?_ ?_ ?_ ?_ <;> split <;> first | trivial | exact id | exact nofun
    · refine h.enter ?_ ?_ ?_ ?_ <;> split <;> first | trivial | exact id | exact nofun
    · exact h
  · exact h
  · exact h
  · exact h
  · exact h
  · exact h

theorem inv_refreshHeartbeat {heartbeat : Heartbeat} (h : Inv staleAfter s)
    (hp : (s.process p).heartbeat = heartbeat) (hbeats : heartbeat ≠ .off) :
    Inv staleAfter (refreshHeartbeat s p ok heartbeat) := by
  have hon : (s.process p).heartbeat ≠ .off := by
    rw [hp]
    exact hbeats
  have hplaced := h.heartbeat p
  have hwindow := h.window p
  have hcreated : (s.process p).created ≠ none := fun hnone => hon (heartbeat_off h hnone)
  rw [hp] at hplaced
  rw [InWindow, hp] at hwindow
  cases heartbeat with
  | opening =>
      simp only [refreshHeartbeat]
      split
      · rename_i file hfile
        cases ok with
        | false => exact h.heart (fun _ => rfl) rfl rfl hcreated hon nofun
        | true =>
            have hpos : 0 < file := by
              rcases h.path file hfile with ⟨q, hq⟩ | ⟨-, hnone⟩
              · exact (h.below q file hq).1
              · exact absurd (hnone p) hcreated
            have hreading : HeartbeatPlaced p (s.process p).created (.reading file) := ⟨hcreated, hpos⟩
            exact h.heart (fun _ => rfl) rfl rfl hreading hon nofun
      · exact h.heart (fun _ => rfl) rfl rfl hcreated hon nofun
  | reading file =>
      simp only [refreshHeartbeat]
      split
      · rename_i record hrecord
        by_cases hown : ok ∧ record.ownerId = p
        · have howner := h.owner file record hplaced.2 (record_of_parse hrecord)
          rw [hown.2] at howner
          have hcomparing : HeartbeatPlaced p (s.process p).created (.comparing file record) :=
            ⟨howner, hown.2⟩
          exact h.heart (fun _ => rfl) rfl (if_pos hown) hcomparing hon nofun
        · exact h.heart (fun _ => rfl) rfl (if_neg hown) hcreated hon nofun
      · exact h.heart (fun _ => rfl) rfl rfl hcreated hon nofun
  | comparing file record =>
      simp only [refreshHeartbeat]
      by_cases hsame : ok ∧ s.path = some file
      · have hbuilding : HeartbeatPlaced p (s.process p).created (.building file record) := hplaced
        exact h.heart (fun _ => rfl) rfl (if_pos hsame) hbuilding hon fun _ =>
          hsame.2.trans hplaced.1.symm
      · exact h.heart (fun _ => rfl) rfl (if_neg hsame) hcreated hon nofun
  | building file record =>
      simp only [refreshHeartbeat]
      have htruncating : HeartbeatPlaced p (s.process p).created
          (.truncating file { record with lastHeartbeatUnixNano := s.now }) := hplaced
      exact h.heart (fun _ => rfl) rfl rfl htruncating hon fun _ => hwindow (.inr trivial)
  | truncating file record =>
      simp only [refreshHeartbeat]
      split
      · have hwritten : Inv staleAfter (s.write file (.other 0)) :=
          h.write hplaced.1 (hwindow (.inr trivial)) nofun
        have hwriting : HeartbeatPlaced p (s.process p).created (.writing file record) := hplaced
        exact hwritten.heart (fun _ => rfl) rfl rfl hwriting hon fun _ => hwindow (.inr trivial)
      · exact h.heart (fun _ => rfl) rfl rfl hcreated hon nofun
  | writing file record =>
      simp only [refreshHeartbeat]
      split
      · have hwritten : Inv staleAfter (s.write file (.record record)) := by
          apply h.write hplaced.1 (hwindow (.inr trivial))
          rintro _ ⟨⟩
          exact hplaced.2
        exact hwritten.heart (fun _ => rfl) rfl rfl hcreated hon nofun
      · exact h.heart (fun _ => rfl) rfl rfl hcreated hon nofun
  | verifying file =>
      simp only [refreshHeartbeat]
      by_cases hsame : ok ∧ s.path = some file
      · exact h.heart (fun _ => rfl) rfl (if_pos hsame) hcreated hon nofun
      · exact h.heart (fun _ => rfl) rfl (if_neg hsame) hcreated hon nofun
  | off | waiting | losing | callback | ended => exact h

theorem inv_handleLockLoss {heartbeat : Heartbeat} (h : Inv staleAfter s)
    (hp : (s.process p).heartbeat = heartbeat) (hbeats : heartbeat ≠ .off) :
    Inv staleAfter (handleLockLoss s p heartbeat) := by
  have hon : (s.process p).heartbeat ≠ .off := by
    rw [hp]
    exact hbeats
  have hcreated : (s.process p).created ≠ none := fun hnone => hon (heartbeat_off h hnone)
  cases heartbeat with
  | losing =>
      simp only [handleLockLoss]
      cases hheld : (s.process p).held with
      | false =>
          refine h.heart ?_ ?_ ?_
            (show HeartbeatPlaced p (s.process p).created .ended from hcreated) hon nofun
          · intro process
            split <;> rfl
          · rw [hheld]
            rfl
          · rw [hheld]
            rfl
      | true =>
          refine h.heart ?_ ?_ ?_
            (show HeartbeatPlaced p (s.process p).created .callback from hcreated) hon nofun
          · intro process
            split <;> rfl
          · rw [hheld]
            rfl
          · rw [hheld]
            rfl
  | callback =>
      simp only [handleLockLoss]
      exact h.heart (fun _ => rfl) rfl rfl
        (show HeartbeatPlaced p (s.process p).created .ended from hcreated) hon nofun
  | off | waiting | opening | reading | comparing | building | truncating | writing | verifying | ended =>
      exact h

theorem inv_beat (h : Inv staleAfter s) : Inv staleAfter (beat s p ok) := by
  unfold beat
  split <;> rename_i hp
  · have hon : (s.process p).heartbeat ≠ .off := by
      rw [hp]
      nofun
    have hcreated : (s.process p).created ≠ none := fun hnone => hon (heartbeat_off h hnone)
    split
    · exact h.heart (fun _ => rfl) rfl rfl
        (show HeartbeatPlaced p (s.process p).created .ended from hcreated) hon nofun
    · exact h.heart (fun _ => rfl) rfl rfl
        (show HeartbeatPlaced p (s.process p).created .opening from hcreated) hon nofun
  · exact inv_refreshHeartbeat h hp nofun
  · exact inv_refreshHeartbeat h hp nofun
  · exact inv_refreshHeartbeat h hp nofun
  · exact inv_refreshHeartbeat h hp nofun
  · exact inv_refreshHeartbeat h hp nofun
  · exact inv_refreshHeartbeat h hp nofun
  · exact inv_refreshHeartbeat h hp nofun
  · exact inv_handleLockLoss h hp nofun
  · exact inv_handleLockLoss h hp nofun
  · exact h
  · exact h

end Handlers

theorem inv_step (event : Event) (s : State) (hguard : Guarded s event)
    (h : Inv staleAfter s) : Inv staleAfter (step staleAfter event s).1 := by
  cases event with
  | clock now => exact h.clock hguard
  | acquires p =>
      have hplaced := h.phase p
      simp only [step]
      split <;> rename_i hp
      · rw [hp] at hplaced
        exact h.enter hplaced id nofun nofun
      · exact h
  | proceeds p ok => exact inv_proceed h hguard
  | beats p ok => exact inv_beat h
  | releases p =>
      simp only [step]
      split
      · dsimp only
        apply h.change
        · intro process
          rfl
        · trivial
        · exact h.heartbeat p
        · exact nofun
        · rintro (hunwritten | hunwritten)
          · exact hunwritten.elim
          · exact h.window p (.inr hunwritten)
        · exact nofun
      · exact h
  | dies p =>
      simp only [step]
      apply h.change
      · intro process
        rfl
      · trivial
      · trivial
      · exact nofun
      · rintro (hunwritten | hunwritten) <;> exact hunwritten.elim
      · exact nofun

theorem inv_start (now : Nat) (file : Option File) : Inv staleAfter (start now file) := by
  have hother : ∀ other, 0 < other → ((start now file).files other).content = .other 0 := by
    intro other hpos
    simp [start, (Nat.ne_of_lt hpos).symm]
  refine ⟨Nat.succ_pos _, nofun, nofun, ?_, ?_, ?_, fun _ => rfl, fun _ => trivial, nofun, ?_, nofun⟩
  · intro other record hpos hrecord
    rw [hother other hpos] at hrecord
    cases hrecord
  · intro other hpath
    cases file with
    | none => cases hpath
    | some _ => exact .inr ⟨(Option.some.inj hpath).symm, fun _ => rfl⟩
  · intro other hnext
    exact ⟨0, hother other hnext⟩
  · rintro p (hunwritten | hunwritten) <;> exact hunwritten.elim

section Ownership

/-- The process has a lock file of its own, or had. -/
def Taken : Phase → Prop
  | .building _ | .writing _ _ | .starting | .holding => True
  | _ => False

/-- The process may still create a lock file. -/
def Unplaced : Phase → Prop
  | .idle | .creating _ | .reading (.acquiring _) | .statting (.acquiring _) _ | .judging (.acquiring _) _
  | .rereading (.acquiring _) _ | .removing (.acquiring _) _ => True
  | _ => False

theorem not_taken_of_purposeOf {phase : Phase} {purpose : Purpose}
    (h : purposeOf phase = some purpose) : ¬Taken phase := by
  cases phase <;> cases h <;> exact id

theorem unplaced_of_purposeOf {phase : Phase} {purpose : Purpose}
    (h : purposeOf phase = some purpose) : Unplaced phase ↔ ∃ left, purpose = .acquiring left := by
  cases phase <;> cases h <;> cases purpose <;> simp [Unplaced]

/-- What every step keeps of the files that processes have created, unless it creates one. -/
structure Keeps (s t : State) : Prop where
  created : ∀ q, (t.process q).created = (s.process q).created
  next : t.next = s.next
  path : t.path = s.path ∨ t.path = none
  taken : ∀ q, Taken (t.process q).phase → Taken (s.process q).phase
  unplaced : ∀ q, Unplaced (t.process q).phase → Unplaced (s.process q).phase

theorem Keeps.refl (s : State) : Keeps s s := ⟨fun _ => rfl, rfl, .inl rfl, fun _ => id, fun _ => id⟩

theorem Keeps.write (s : State) (file : Nat) (content : Content) : Keeps s (s.write file content) :=
  ⟨fun _ => rfl, rfl, .inl rfl, fun _ => id, fun _ => id⟩

theorem Keeps.unlink (s : State) : Keeps s { s with path := none } :=
  ⟨fun _ => rfl, rfl, .inr rfl, fun _ => id, fun _ => id⟩

theorem Keeps.trans {t u : State} (h : Keeps s t) (h' : Keeps t u) : Keeps s u where
  created q := (h'.created q).trans (h.created q)
  next := h'.next.trans h.next
  path := by
    rcases h'.path with hpath | hpath
    · rw [hpath]
      exact h.path
    · exact .inr hpath
  taken q := h.taken q ∘ h'.taken q
  unplaced q := h.unplaced q ∘ h'.unplaced q

theorem Keeps.change (hf : ∀ process, (f process).created = process.created)
    (htaken : Taken (f (s.process p)).phase → Taken (s.process p).phase)
    (hunplaced : Unplaced (f (s.process p)).phase → Unplaced (s.process p).phase) :
    Keeps s (s.change p f) where
  created _ := created_change hf
  next := rfl
  path := .inl rfl
  taken q := by
    by_cases hq : q = p
    · rw [hq, process_change_self]
      exact htaken
    · rw [process_change_of_ne hq]
      exact id
  unplaced q := by
    by_cases hq : q = p
    · rw [hq, process_change_self]
      exact hunplaced
    · rw [process_change_of_ne hq]
      exact id

/-- From one phase to another. -/
theorem Keeps.enter {phase next : Phase}
    (hp : (s.process p).phase = phase) (htaken : Taken next → Taken phase)
    (hunplaced : Unplaced next → Unplaced phase) : Keeps s (s.enter p next) := by
  subst hp
  exact .change (fun _ => rfl) htaken hunplaced

/-- On to the next look, for the same purpose. -/
theorem Keeps.enter_on {phase next : Phase} {purpose : Purpose} (hp : (s.process p).phase = phase)
    (hphase : purposeOf phase = some purpose) (hnext : purposeOf next = some purpose) :
    Keeps s (s.enter p next) :=
  .enter hp (fun htaken => absurd htaken (not_taken_of_purposeOf hnext)) fun hunplaced =>
    (unplaced_of_purposeOf hphase).2 ((unplaced_of_purposeOf hnext).1 hunplaced)

theorem Keeps.enter_after {phase next : Phase} {purpose : Purpose} (hp : (s.process p).phase = phase)
    (hnext : next = afterRemoval purpose ∨ next = afterError purpose)
    (hphase : purposeOf phase = some purpose) : Keeps s (s.enter p next) := by
  apply Keeps.enter hp
  · intro htaken
    rcases hnext with rfl | rfl
    · cases purpose with
      | acquiring left =>
          by_cases hleft : left ≤ 1 <;> simp [afterRemoval, hleft, Taken] at htaken
      | releasing => exact htaken.elim
    · cases purpose <;> exact htaken.elim
  · intro hunplaced
    cases purpose with
    | acquiring left => exact (unplaced_of_purposeOf hphase).2 ⟨left, rfl⟩
    | releasing => rcases hnext with rfl | rfl <;> exact hunplaced.elim

theorem keeps_proceed (s : State) (p : Nat) (ok : Bool) : Keeps s (proceed staleAfter s p ok) ∨
    ∃ left, (s.process p).phase = .creating left ∧
      s.path = none ∧ proceed staleAfter s p ok = s.create p := by
  unfold proceed
  split <;> rename_i hp
  · simp only [tryCreate]
    split
    · exact .inl (.enter hp id nofun)
    · split
      · exact .inl (.enter hp nofun fun _ => trivial)
      · exact .inr ⟨_, hp, ‹_›, rfl⟩
  · exact .inl (.enter hp id nofun)
  · simp only [tryCreate]
    split
    · exact .inl ((Keeps.write s _ _).trans (.enter hp id nofun))
    · exact .inl (.enter hp nofun nofun)
  · simp only [tryCreate]
    split
    · exact .inl ((Keeps.unlink s).trans (.enter hp id nofun))
    · exact .inl (.enter hp id nofun)
  · simp only [readSnapshot]
    split
    · exact .inl (.enter_after hp (.inr rfl) rfl)
    · split
      · exact .inl (.enter_after hp (.inl rfl) rfl)
      · exact .inl (.enter_on hp rfl rfl)
  · simp only [readSnapshot]
    split
    · exact .inl (.enter_after hp (.inr rfl) rfl)
    · split
      · exact .inl (.enter_after hp (.inl rfl) rfl)
      · exact .inl (.enter_on hp rfl rfl)
  · split
    · exact .inl (.enter_on hp rfl rfl)
    · exact .inl (.enter_after hp (.inr rfl) rfl)
  · simp only [tryRemoveIfUnchanged]
    split
    · exact .inl (.enter_after hp (.inr rfl) rfl)
    · split
      · exact .inl (.enter_after hp (.inl rfl) rfl)
      · split
        · exact .inl (.enter_on hp rfl rfl)
        · exact .inl (.enter_after hp (.inl rfl) rfl)
  · simp only [tryRemoveIfUnchanged]
    split
    · exact .inl (.enter_after hp (.inr rfl) rfl)
    · exact .inl ((Keeps.unlink s).trans (.enter_after hp (.inl rfl) rfl))
  · refine .inl (.change (fun _ => rfl) ?_ nofun)
    rw [hp]
    exact id
  · refine .inl ?_
    split
    · refine .enter hp ?_ ?_ <;> split <;> exact id
    · refine .enter hp ?_ ?_ <;> split <;> exact id
    · exact .refl s
  · exact .inl (.refl s)
  · exact .inl (.refl s)
  · exact .inl (.refl s)
  · exact .inl (.refl s)
  · exact .inl (.refl s)

theorem keeps_beat (s : State) (p : Nat) (ok : Bool) : Keeps s (beat s p ok) := by
  have hchange : ∀ (t : State) (f : Process → Process), (∀ process,
    (f process).created = process.created) →
      (∀ process, (f process).phase = process.phase) → Keeps t (t.change p f) := by
    intro t f hcreated hphase
    apply Keeps.change hcreated <;> rw [hphase] <;> exact id
  unfold beat
  split
  · split <;> exact hchange s _ (fun _ => rfl) fun _ => rfl
  · simp only [refreshHeartbeat]
    split <;> exact hchange s _ (fun _ => rfl) fun _ => rfl
  · simp only [refreshHeartbeat]
    split <;> exact hchange s _ (fun _ => rfl) fun _ => rfl
  · simp only [refreshHeartbeat]
    exact hchange s _ (fun _ => rfl) fun _ => rfl
  · simp only [refreshHeartbeat]
    exact hchange s _ (fun _ => rfl) fun _ => rfl
  · simp only [refreshHeartbeat]
    split
    · exact (Keeps.write s _ _).trans (hchange _ _ (fun _ => rfl) fun _ => rfl)
    · exact hchange s _ (fun _ => rfl) fun _ => rfl
  · simp only [refreshHeartbeat]
    split
    · exact (Keeps.write s _ _).trans (hchange _ _ (fun _ => rfl) fun _ => rfl)
    · exact hchange s _ (fun _ => rfl) fun _ => rfl
  · simp only [refreshHeartbeat]
    exact hchange s _ (fun _ => rfl) fun _ => rfl
  · simp only [handleLockLoss]
    apply hchange
    · intro process
      split <;> rfl
    · intro process
      split <;> rfl
  · simp only [handleLockLoss]
    exact hchange s _ (fun _ => rfl) fun _ => rfl
  · exact .refl s
  · exact .refl s

/-- A lock file appears at the path only where a process creates it. -/
theorem keeps_step (event : Event) (s : State) : Keeps s (step staleAfter event s).1 ∨
    ∃ p left, (s.process p).phase = .creating left ∧
      s.path = none ∧ (step staleAfter event s).1 = s.create p := by
  cases event with
  | clock now => exact .inl ⟨fun _ => rfl, rfl, .inl rfl, fun _ => id, fun _ => id⟩
  | acquires p =>
      refine .inl ?_
      simp only [step]
      split <;> rename_i hp
      · exact .enter hp nofun fun _ => trivial
      · exact .refl s
  | proceeds p ok =>
      rcases keeps_proceed s p ok with hkeeps | ⟨left, hp, hpath, hcreates⟩
      · exact .inl hkeeps
      · exact .inr ⟨p, left, hp, hpath, hcreates⟩
  | beats p ok => exact .inl (keeps_beat s p ok)
  | releases p =>
      refine .inl ?_
      simp only [step]
      split
      · dsimp only
        exact .change (fun _ => rfl) nofun nofun
      · exact .refl s
  | dies p =>
      simp only [step]
      exact .inl (.change (fun _ => rfl) nofun nofun)

/-- Each lock file has one creator, and whoever has or had the lock has created one. -/
structure Owned (s : State) : Prop where
  below : ∀ p file, (s.process p).created = some file → file < s.next
  apart : ∀ p q file, (s.process p).created = some file → (s.process q).created = some file → p = q
  taken : ∀ p, Taken (s.process p).phase → (s.process p).created ≠ none
  unplaced : ∀ p, Unplaced (s.process p).phase → (s.process p).created = none

theorem Owned.keeps {t : State} (h : Owned s) (hkeeps : Keeps s t) : Owned t where
  below p file hp := by
    rw [hkeeps.created] at hp
    rw [hkeeps.next]
    exact h.below p file hp
  apart p q file hp hq := by
    rw [hkeeps.created] at hp hq
    exact h.apart p q file hp hq
  taken p hp := by
    rw [hkeeps.created]
    exact h.taken p (hkeeps.taken p hp)
  unplaced p hp := by
    rw [hkeeps.created]
    exact h.unplaced p (hkeeps.unplaced p hp)

theorem Owned.create (h : Owned s) : Owned (s.create p) := by
  refine ⟨?_, ?_, ?_, ?_⟩
  · intro q file hq
    rcases created_create hq with ⟨-, rfl⟩ | ⟨-, hq⟩
    · exact Nat.lt_succ_self _
    · exact Nat.lt_succ_of_lt (h.below q file hq)
  · intro q r file hq hr
    rcases created_create hq with ⟨hqp, hnext⟩ | ⟨-, hq⟩
    · rcases created_create hr with ⟨hrp, -⟩ | ⟨-, hr⟩
      · rw [hqp, hrp]
      · exact absurd (hnext ▸ h.below r file hr) (Nat.lt_irrefl _)
    · rcases created_create hr with ⟨-, hnext⟩ | ⟨-, hr⟩
      · exact absurd (hnext ▸ h.below q file hq) (Nat.lt_irrefl _)
      · exact h.apart q r file hq hr
  · intro q hq
    by_cases hqp : q = p
    · rw [hqp, process_create_self]
      nofun
    · rw [process_create_of_ne hqp] at hq ⊢
      exact h.taken q hq
  · intro q hq
    by_cases hqp : q = p
    · rw [hqp, process_create_self] at hq
      exact hq.elim
    · rw [process_create_of_ne hqp] at hq ⊢
      exact h.unplaced q hq

theorem owned_step (event : Event) (h : Owned s) : Owned (step staleAfter event s).1 := by
  rcases keeps_step event s with hkeeps | ⟨p, -, -, -, hcreates⟩
  · exact h.keeps hkeeps
  · rw [hcreates]
    exact h.create

theorem owned_start (now : Nat) (file : Option File) : Owned (start now file) :=
  ⟨nofun, nofun, nofun, fun _ _ => rfl⟩

end Ownership

/-- The lock file at the path is the one that both have created. -/
theorem eq_of_fresh (h : Inv staleAfter s)
    (hp : Active (s.process p).phase) (hq : Active (s.process q).phase)
    (hpfresh : Fresh staleAfter s p) (hqfresh : Fresh staleAfter s q) : p = q := by
  have hpath := h.fresh p hp hpfresh
  have hpath' := h.fresh q hq hqfresh
  obtain ⟨file, _, hcreated, -⟩ := hpfresh
  exact h.apart p q file hcreated (hpath'.symm.trans (hpath.trans hcreated))

/-- Two processes never have the lock with fresh records, in a run whose steps remove the
lock file only as it was judged. -/
theorem mutual_exclusion (staleAfter : Nat → Nat) (now : Nat) (file : Option File) (events : List Event)
    (hguard : Meets (fun event s => Guarded s event) (step staleAfter) events (start now file))
    (p q : Nat)
    (hp : ((exec (step staleAfter) events (start now file)).process p).phase = .holding)
    (hq : ((exec (step staleAfter) events (start now file)).process q).phase = .holding)
    (hpfresh : Fresh staleAfter (exec (step staleAfter) events (start now file)) p)
    (hqfresh : Fresh staleAfter (exec (step staleAfter) events (start now file)) q) : p = q := by
  have hinv : Inv staleAfter (exec (step staleAfter) events (start now file)) :=
    exec_preserves inv_step hguard (inv_start now file)
  have hpactive : Active ((exec (step staleAfter) events (start now file)).process p).phase := by
    rw [hp]
    trivial
  have hqactive : Active ((exec (step staleAfter) events (start now file)).process q).phase := by
    rw [hq]
    trivial
  exact eq_of_fresh hinv hpactive hqactive hpfresh hqfresh

section Takeover

/-- The lock of a process that has ended, which nobody has released. -/
def abandoned : File := ⟨.record ⟨9, 10, 1⟩, 1⟩

def threeSeconds : Nat → Nat := fun _ => 3000000000

/-- A process reads the lock file twice, and judges that it is stale. -/
def judgesStale (p : Nat) : List Event :=
  [.acquires p, .proceeds p true, .proceeds p true, .proceeds p true, .proceeds p true, .proceeds p true]

/-- One process removes the abandoned lock file and takes the lock. -/
def takesOver (p : Nat) : List Event :=
  [.proceeds p true, .proceeds p true, .proceeds p true, .proceeds p true, .proceeds p true]

theorem young_at {now p : Nat} : isLeaseStale now 3000000000 (buildLeaseRecord now p) = false := by
  simp [isLeaseStale, buildLeaseRecord]

/-- Process 0 takes over the abandoned lock, and stalls with it until its record is stale. -/
def stalls : List Event := judgesStale 0 ++ takesOver 0 ++ [.clock 9000000000]

/-- Process 1 takes over the lock of process 0, which still holds it, and process 2 is refused. -/
def stalledTakeover : List Event :=
  stalls ++ judgesStale 1 ++ takesOver 1 ++
    [.acquires 2, .proceeds 2 true, .proceeds 2 true, .proceeds 2 true, .proceeds 2 true]

/-- The step removes nothing and leaves the clock. -/
def removesNothing (event : Event) (s : State) : Bool :=
  match event with
  | .clock _ => false
  | .proceeds p true =>
      match (s.process p).phase with
      | .removing _ _ | .cleaning => false
      | _ => true
  | _ => true

theorem guarded_of_removesNothing {event : Event} (h : removesNothing event s = true) : Guarded s event := by
  cases event with
  | clock now => cases h
  | proceeds p ok =>
      cases ok with
      | false => trivial
      | true =>
          simp only [Guarded]
          split
          · rename_i hphase
            simp [removesNothing, hphase] at h
          · rename_i hphase
            simp [removesNothing, hphase] at h
          · trivial
  | _ => trivial

theorem guarded_run {events : List Event}
    (h : Meets (fun event s => removesNothing event s) (step staleAfter) events s) :
    Meets (fun event s => Guarded s event) (step staleAfter) events s := by
  induction events generalizing s with
  | nil => trivial
  | cons event events ih => exact ⟨guarded_of_removesNothing h.1, ih h.2⟩

/-- A file that was judged is removed while nobody is about to write into it. -/
theorem guarded_removal (purpose : Purpose) (snapshot : LeaseSnapshot) (file : Nat)
    (hphase : (s.process p).phase = .removing purpose snapshot) (hpath : s.path = some file)
    (hcontent : (s.files file).content = snapshot.content)
    (hwindow : ∀ q, (s.process q).created = some file → ¬InWindow (s.process q)) :
    Guarded s (.proceeds p true) := by
  simp only [Guarded, hphase]
  intro other hother
  obtain rfl : file = other := Option.some.inj (hpath.symm.trans hother)
  exact ⟨hcontent, hwindow⟩

theorem not_inWindow {process : Process} (hphase : process.phase = .holding)
    (hheartbeat : process.heartbeat = .waiting) : ¬InWindow process := by
  rw [InWindow, hphase, hheartbeat]
  exact fun h => h.elim id id

theorem guarded_stalledTakeover : Meets (fun event s => Guarded s event) (step threeSeconds)
    stalledTakeover (start 5000000000 (some abandoned)) := by
  have hjudges : Meets (fun event s => Guarded s event) (step threeSeconds) (judgesStale 0)
      (start 5000000000 (some abandoned)) := guarded_run (by decide +kernel)
  have hjudged := exec_preserves inv_step hjudges (inv_start 5000000000 (some abandoned))
  have htakes : Meets (fun event s => Guarded s event) (step threeSeconds) (takesOver 0)
      (exec (step threeSeconds) (judgesStale 0) (start 5000000000 (some abandoned))) :=
    ⟨guarded_removal (.acquiring 3) ⟨.record ⟨9, 10, 1⟩, 1⟩ 0
      (by decide +kernel) (by decide +kernel) (by decide +kernel)
      (fun q hq => absurd (hjudged.below q 0 hq).1 (Nat.lt_irrefl 0)), guarded_run (by decide +kernel)⟩
  have hstalls : Meets (fun event s => Guarded s event) (step threeSeconds) stalls
      (start 5000000000 (some abandoned)) := by
    rw [stalls, meets_append, meets_append]
    exact ⟨⟨hjudges, htakes⟩, (by decide +kernel : _ ≤ 9000000000), trivial⟩
  have hstalled : Meets (fun event s => Guarded s event) (step threeSeconds) (stalls ++ judgesStale 1)
      (start 5000000000 (some abandoned)) :=
    (meets_append ..).2 ⟨hstalls, guarded_run (by decide +kernel)⟩
  have hinv := exec_preserves inv_step hstalled (inv_start 5000000000 (some abandoned))
  rw [stalledTakeover, meets_append, meets_append]
  refine ⟨⟨hstalled, guarded_removal (.acquiring 3)
    ⟨.record ⟨0, 1, 5000000000⟩, 5000000000⟩ 1 (by decide +kernel) (by decide +kernel)
    (by decide +kernel) fun q hq => ?_, guarded_run (by decide +kernel)⟩, guarded_run (by decide +kernel)⟩
  obtain rfl := hinv.apart q 0 1 hq (by decide +kernel)
  exact not_inWindow (by decide +kernel) (by decide +kernel)

/-- Two processes hold the lock, and the record of the one that was taken over from is stale. -/
theorem mutual_exclusion_stalled :
    let s := exec (step threeSeconds) stalledTakeover (start 5000000000 (some abandoned))
    (s.process 0).phase = .holding ∧ (s.process 1).phase = .holding ∧ (s.process 2).phase = .refused ∧
      Fresh threeSeconds s 1 ∧ ¬Fresh threeSeconds s 0 := by
  intro s
  have hstalled : (s.process 0).phase = .holding := by decide +kernel
  have hholding : (s.process 1).phase = .holding := by decide +kernel
  have hfresh : Fresh threeSeconds s 1 :=
    ⟨2, ⟨1, 2, 9000000000⟩, by decide +kernel, by decide +kernel, fun _ => young_at⟩
  refine ⟨hstalled, hholding, by decide +kernel, hfresh, fun hstale => ?_⟩
  have heq : 0 = 1 := mutual_exclusion threeSeconds 5000000000 (some abandoned) stalledTakeover
    guarded_stalledTakeover 0 1 hstalled hholding hstale hfresh
  exact absurd heq (by decide)

/-- Process 0 and process 1 have both read the abandoned lock file twice, and process 1
removes the file of process 0 for it. -/
def bothTakeOver : List Event :=
  judgesStale 0 ++ judgesStale 1 ++ takesOver 0 ++ takesOver 1

theorem both_take_over : ¬∀ (staleAfter : Nat → Nat) (now : Nat)
    (file : Option File) (events : List Event) (p q : Nat),
    ((exec (step staleAfter) events (start now file)).process p).phase = .holding →
    ((exec (step staleAfter) events (start now file)).process q).phase = .holding →
    Fresh staleAfter (exec (step staleAfter) events (start now file)) p →
    Fresh staleAfter (exec (step staleAfter) events (start now file)) q → p = q := by
  intro h
  have heq : 0 = 1 := by
    apply h threeSeconds 5000000000 (some abandoned) bothTakeOver
    · decide +kernel
    · decide +kernel
    · exact ⟨1, ⟨0, 1, 5000000000⟩, by decide +kernel, by decide +kernel, fun _ => young_at⟩
    · exact ⟨2, ⟨1, 2, 5000000000⟩, by decide +kernel, by decide +kernel, fun _ => young_at⟩
  exact absurd heq (by decide)

end Takeover

end Paranoid.LocalLock

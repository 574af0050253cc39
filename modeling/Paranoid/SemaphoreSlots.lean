import Mathlib.Data.List.Perm.Subperm
import Paranoid.LeaseAuthority
import Paranoid.SemaphoreModel

namespace Paranoid.SemaphoreSlots

open LeaseModel KvAtomic RowLocks SemaphoreModel Transitions

/-- The grants that are neither released nor expired. -/
def live (s : State) : List Grant := s.held.filter fun grant => grant.row.isLive s.clock

/-- No live row is committed for the slot. -/
def Dead (s : State) (slot : String) : Prop :=
  ∀ row, s.slots.committed slot = some row → row.isLive s.clock = false

/-- A transaction in this phase deletes the row of the slot for a release by its holder. -/
def Releases (slots : Slots) (phase : Phase) (slot : String) (written : Option SlotRow) : Prop :=
  ∃ claim row, phase = .released claim true ∧ claim.slotSuffix = slot ∧ written = none ∧
    slots.committed slot = some row ∧ row.value = some claim.holderId

/-- What a phase promises about the rows of its transaction. -/
def Backed (semaphore : Semaphore) (slots : Slots) (tx : Nat) : Phase → Prop
  | .taken holderId (some grant) =>
      grant.claim.holderId = holderId ∧ grant.claim.slotSuffix ∈ slotSuffixes semaphore ∧
      slots.hold grant.claim.slotSuffix = some ⟨tx, some (some grant.row)⟩
  | .locked claim .deleteSlot => ∃ row, slots.hold claim.slotSuffix = some ⟨tx, none⟩ ∧
      slots.committed claim.slotSuffix = some row ∧ row.value = some claim.holderId
  | .locked claim .deletePlaceholder => ∃ written, slots.hold claim.slotSuffix = some ⟨tx, some written⟩
  | _ => True

/-- The live grants own the rows of their slots, and whoever has written such a row has
found it expired or releases it for its holder. -/
structure Inv (semaphore : Semaphore) (s : State) : Prop where
  owned : ∀ grant ∈ live s, s.slots.committed grant.claim.slotSuffix = some grant.row
  distinct : ((live s).map (·.claim.slotSuffix)).Nodup
  within : ∀ grant ∈ s.held, grant.claim.slotSuffix ∈ slotSuffixes semaphore
  written : ∀ slot hold written, s.slots.hold slot = some hold → hold.written = some written →
    Dead s slot ∨ Releases s.slots (s.phase hold.tx) slot written
  present : ∀ slot hold, s.slots.hold slot = some hold →
    hold.written = none → (s.slots.committed slot).isSome
  inProgress : ∀ slot hold, s.slots.hold slot = some hold → s.phase hold.tx ≠ .idle
  backed : ∀ tx, Backed semaphore s.slots tx (s.phase tx)

variable {semaphore : Semaphore} {s : State} {slots : Slots} {tx : Nat} {phase : Phase}

theorem inv_start (semaphore : Semaphore) : Inv semaphore start := by
  constructor
  · simp [live, start]
  · simp [live, start]
  · simp [start]
  · simp [start, Table.start]
  · simp [start, Table.start]
  · simp [start, Table.start]
  · simp [start, Backed]

theorem live_subset_of_clock {s' : State} (hheld : s'.held = s.held) (hclock : s.clock ≤ s'.clock) :
    (live s').Sublist (live s) := by
  rw [live, live, hheld]
  refine List.monotone_filter_right s.held ?_
  intro grant hlive
  cases hexpires : grant.expiresAt with
  | none => simp [Row.isLive, Grant.row, hexpires]
  | some expiresAt =>
      simp only [Row.isLive, Grant.row, hexpires, Option.all_some, decide_eq_true_eq] at hlive ⊢
      exact hclock.trans_lt hlive

theorem dead_of_clock {s' : State} {slot : String} (hslots : s'.slots.committed = s.slots.committed)
    (hclock : s.clock ≤ s'.clock) (h : Dead s slot) : Dead s' slot := by
  intro row hrow
  have hdead := h row (hslots ▸ hrow)
  cases hexpires : row.expiresAt with
  | none => simp [Row.isLive, hexpires] at hdead
  | some expiresAt =>
      simp only [Row.isLive, hexpires, Option.all_some, decide_eq_false_iff_not, not_lt] at hdead ⊢
      exact hdead.trans hclock

/-- A row that is expired at the timestamp of a statement is expired by the clock. -/
theorem dead_of_expired {slot : String} {waited : Nat}
    {row : SlotRow} (hrow : s.slots.committed slot = some row)
    (h : row.isLive (s.clock - waited) = false) : Dead s slot := by
  intro row' hrow'
  rw [hrow] at hrow'
  cases hrow'
  cases hexpires : row.expiresAt with
  | none => simp [Row.isLive, hexpires] at h
  | some expiresAt =>
      simp only [Row.isLive, hexpires, Option.all_some, decide_eq_false_iff_not, not_lt] at h ⊢
      omega

theorem Backed.mono {slots' : Slots} (h : Backed semaphore slots tx phase)
    (hkept : ∀ slot hold, slots.hold slot = some hold → hold.tx = tx →
      slots'.hold slot = some hold ∧
        slots'.committed slot = slots.committed slot) : Backed semaphore slots' tx phase := by
  unfold Backed at *
  split
  · exact ⟨h.1, h.2.1, (hkept _ _ h.2.2 rfl).1⟩
  · obtain ⟨row, hhold, hrow, hvalue⟩ := h
    obtain ⟨hhold', hcommitted⟩ := hkept _ _ hhold rfl
    exact ⟨row, hhold', hcommitted ▸ hrow, hvalue⟩
  · obtain ⟨written, hhold⟩ := h
    exact ⟨written, (hkept _ _ hhold rfl).1⟩
  · trivial

/-- The invariant after a statement: it has left the committed rows alone, and what its
transaction has come to hold is dead or to be released. -/
theorem Inv.enter (h : Inv semaphore s) (hcommitted : slots.committed = s.slots.committed)
    (hunreleased : ∀ claim, s.phase tx ≠ .released claim true) (hopen : phase ≠ .idle)
    (hhold : ∀ slot hold, slots.hold slot = some hold → s.slots.hold slot = some hold ∨ hold.tx = tx ∧
      (hold.written = none → (s.slots.committed slot).isSome) ∧
      ∀ written, hold.written = some written → Dead s slot ∨ Releases s.slots phase slot written)
    (hkept : ∀ slot hold, s.slots.hold slot = some hold → hold.tx ≠ tx → slots.hold slot = some hold)
    (hbacked : Backed semaphore slots tx phase) : Inv semaphore (s.enter tx slots phase) := by
  have hdead : ∀ slot, Dead s slot → Dead (s.enter tx slots phase) slot :=
    fun slot => dead_of_clock hcommitted le_rfl
  refine ⟨?_, h.distinct, h.within, ?_, ?_, ?_, ?_⟩
  · intro grant hgrant
    exact (congrFun hcommitted _).trans (h.owned grant hgrant)
  · intro slot hold written hslot hwritten
    by_cases htx : hold.tx = tx
    · have hphase : (s.enter tx slots phase).phase hold.tx = phase := by simp [State.enter, htx]
      rw [hphase]
      rcases hhold slot hold hslot with hold' | ⟨-, -, hjustified⟩
      · rcases h.written slot hold written hold' hwritten with hdead' | ⟨claim, row, hreleased, -⟩
        · exact .inl (hdead slot hdead')
        · exact absurd (htx ▸ hreleased) (hunreleased claim)
      · refine (hjustified written hwritten).imp (hdead slot) ?_
        rintro ⟨claim, row, hreleased, hclaim, hnone, hrow, hvalue⟩
        exact ⟨claim, row, hreleased, hclaim, hnone, hcommitted ▸ hrow, hvalue⟩
    · have hphase : (s.enter tx slots phase).phase hold.tx = s.phase hold.tx := by
        simp [State.enter, htx]
      rw [hphase]
      rcases hhold slot hold hslot with hold' | ⟨howner, -⟩
      · refine (h.written slot hold written hold' hwritten).imp (hdead slot) ?_
        rintro ⟨claim, row, hreleased, hclaim, hnone, hrow, hvalue⟩
        exact ⟨claim, row, hreleased, hclaim, hnone, hcommitted ▸ hrow, hvalue⟩
      · exact absurd howner htx
  · intro slot hold hslot hwritten
    change (slots.committed slot).isSome
    rw [hcommitted]
    rcases hhold slot hold hslot with hold' | ⟨-, hpresent, -⟩
    · exact h.present slot hold hold' hwritten
    · exact hpresent hwritten
  · intro slot hold hslot
    by_cases htx : hold.tx = tx
    · simpa [State.enter, htx] using hopen
    · rcases hhold slot hold hslot with hold' | ⟨howner, -⟩
      · simpa [State.enter, htx] using h.inProgress slot hold hold'
      · exact absurd howner htx
  · intro other
    by_cases htx : other = tx
    · subst htx
      simpa [State.enter] using hbacked
    · have hother : Backed semaphore slots other (s.phase other) :=
        (h.backed other).mono fun slot hold hslot howner =>
        ⟨hkept slot hold hslot (howner ▸ htx), congrFun hcommitted slot⟩
      simpa [State.enter, htx] using hother

/-- A transaction that begins holds nothing. -/
theorem hold_of_idle {slot : String} {hold : Hold Nat SlotRow}
    (h : Inv semaphore s) (hidle : s.phase tx = .idle)
    (hslot : s.slots.hold slot = some hold) : hold.tx ≠ tx := by
  rintro rfl
  exact h.inProgress slot hold hslot hidle

theorem hold_eq_none {slot : String} (h : Inv semaphore s) (hidle : s.phase tx = .idle)
    (hfree : s.slots.free tx slot = true) : s.slots.hold slot = none := by
  cases hslot : s.slots.hold slot with
  | none => rfl
  | some hold => exact absurd (free_iff.1 hfree hold hslot) (hold_of_idle h hidle hslot)

/-- A row that a statement takes is dead by the clock. -/
theorem dead_of_takeable {slot : String} {waited : Nat} (h : Inv semaphore s)
    (hunreleased : ∀ claim, s.phase tx ≠ .released claim true)
    (htake : takeable (s.clock - waited) tx s slot = true) :
    Dead s slot := by
  simp only [takeable, isExpired, Bool.and_eq_true, Option.any_eq_true, Bool.not_eq_true'] at htake
  obtain ⟨hfree, row, hrow, hexpired⟩ := htake
  cases hslot : s.slots.hold slot with
  | none =>
      rw [row_of_others (by simp [hslot])] at hrow
      exact dead_of_expired hrow hexpired
  | some hold =>
      have htx := free_iff.1 hfree hold hslot
      cases hwritten : hold.written with
      | none =>
          rw [row_of_hold hslot htx, hwritten] at hrow
          exact dead_of_expired hrow hexpired
      | some written =>
          rcases h.written slot hold written hslot hwritten with hdead | ⟨claim, row', hreleased, -⟩
          · exact hdead
          · exact absurd (htx ▸ hreleased) (hunreleased claim)

/-- A statement that writes rows that no other transaction has. -/
theorem Inv.writes {keys : String → Bool} {written : Option SlotRow} (h : Inv semaphore s)
    (hunreleased : ∀ claim, s.phase tx ≠ .released claim true) (hopen : phase ≠ .idle)
    (hfree : ∀ slot, keys slot = true → s.slots.free tx slot = true)
    (hjustified : ∀ slot, keys slot = true → Dead s slot ∨ Releases s.slots phase slot written)
    (hbacked : Backed semaphore (s.slots.writeWhere tx keys written) tx phase) :
    Inv semaphore (s.enter tx (s.slots.writeWhere tx keys written) phase) := by
  refine h.enter rfl hunreleased hopen ?_ ?_ hbacked
  · intro slot hold hslot
    rcases hold_writeWhere hslot with ⟨-, hold'⟩ | ⟨hkey, rfl⟩
    · exact .inl hold'
    · refine .inr ⟨rfl, by simp, ?_⟩
      rintro written' ⟨⟩
      exact hjustified slot hkey
  · intro slot hold hslot htx
    rw [hold_writeWhere_of_not_mem, hslot]
    refine Bool.eq_false_iff.2 fun hkey => ?_
    exact htx (free_iff.1 (hfree slot hkey) hold hslot)

/-- A statement that leaves the rows as they are. -/
theorem Inv.moves (h : Inv semaphore s)
    (hunreleased : ∀ claim, s.phase tx ≠ .released claim true) (hopen : phase ≠ .idle)
    (hbacked : Backed semaphore s.slots tx phase) : Inv semaphore (s.enter tx s.slots phase) :=
  h.enter rfl hunreleased hopen (fun _ _ hslot => .inl hslot) (fun _ _ hslot _ => hslot) hbacked

/-- A statement that locks a row. -/
theorem Inv.locks {slot : String} (h : Inv semaphore s)
    (hidle : s.phase tx = .idle) (hopen : phase ≠ .idle)
    (hfree : s.slots.free tx slot = true) (hpresent : (s.slots.committed slot).isSome)
    (hbacked : Backed semaphore (s.slots.lock tx slot) tx phase) :
    Inv semaphore (s.enter tx (s.slots.lock tx slot) phase) := by
  have hnone := hold_eq_none h hidle hfree
  refine h.enter rfl (by simp [hidle]) hopen ?_ ?_ hbacked
  · intro slot' hold hslot
    rcases hold_lock hslot with hold' | ⟨rfl, htx, hwritten⟩
    · exact .inl hold'
    · rw [hnone, Option.bind_none] at hwritten
      exact .inr ⟨htx, fun _ => hpresent, by simp [hwritten]⟩
  · intro slot' hold hslot htx
    rw [hold_lock_of_ne, hslot]
    rintro rfl
    rw [hnone] at hslot
    cases hslot

/-- A slot that the ensuring statement finds without a row is nobody's. -/
theorem nobodys_of_absent {slot : String} (h : Inv semaphore s) (hidle : s.phase tx = .idle)
    (hunwritten : (slotSuffixes semaphore).all (s.slots.unwritten tx) = true)
    (hkey : absent semaphore tx s slot = true) :
    s.slots.committed slot = none ∧ s.slots.hold slot = none := by
  simp only [absent, Bool.and_eq_true, decide_eq_true_eq, Option.isNone_iff_eq_none] at hkey
  have hcommitted := hkey.2
  rw [row_of_others fun hold hslot => hold_of_idle h hidle hslot] at hcommitted
  refine ⟨hcommitted, ?_⟩
  cases hslot : s.slots.hold slot with
  | none => rfl
  | some hold =>
      have hothers := List.all_eq_true.1 hunwritten slot hkey.1
      simp only [Table.unwritten, hslot, Option.all_some, Bool.or_eq_true, decide_eq_true_eq,
        Option.isNone_iff_eq_none] at hothers
      have hpresent := h.present slot hold hslot (hothers.resolve_left (hold_of_idle h hidle hslot))
      rw [hcommitted] at hpresent
      cases hpresent

theorem free_of_absent {slot : String} (h : Inv semaphore s) (hidle : s.phase tx = .idle)
    (hunwritten : (slotSuffixes semaphore).all (s.slots.unwritten tx) = true)
    (hkey : absent semaphore tx s slot = true) : s.slots.free tx slot = true := by
  simp [Table.free, (nobodys_of_absent h hidle hunwritten hkey).2]

theorem inv_ensureSlotKeysExist {holderId : HolderId} {now : Int}
    (h : Inv semaphore s) (hidle : s.phase tx = .idle) :
    Inv semaphore (ensureSlotKeysExist semaphore tx holderId now s) := by
  unfold ensureSlotKeysExist
  split
  · rename_i hunwritten
    refine h.writes (by simp [hidle]) (by simp) (fun slot => free_of_absent h hidle hunwritten) ?_ trivial
    intro slot hkey
    exact .inl fun row hrow => by simp [(nobodys_of_absent h hidle hunwritten hkey).1] at hrow
  · exact h

theorem setValueAndTtl_row {now : Int} {holderId : HolderId} {row : SlotRow}
    (h : setValueAndTtl now (some holderId) semaphore.maxHoldTtl = .ok row) (slot : String) :
    Grant.row ⟨⟨slot, holderId⟩, row.expiresAt⟩ = row := by
  simp [Grant.row, ← setValueAndTtl_value h]

theorem inv_acquireSlot {holderId : HolderId} {waited : Nat} {pick : String} (h : Inv semaphore s)
    (hensured : s.phase tx = .ensured holderId) :
    Inv semaphore (acquireSlot semaphore tx holderId (s.clock - waited) pick s).1 := by
  have hunreleased : ∀ claim, s.phase tx ≠ .released claim true := by simp [hensured]
  unfold acquireSlot
  split
  · rename_i htake
    split
    · exact h.moves hunreleased (by simp) trivial
    · rename_i row hrow
      refine h.writes hunreleased (by simp) ?_ ?_ ⟨rfl, htake.1, ?_⟩
      · intro slot hkey
        rw [of_decide_eq_true hkey]
        simp only [takeable, Bool.and_eq_true] at htake
        exact htake.2.1
      · intro slot hkey
        rw [of_decide_eq_true hkey]
        exact .inl (dead_of_takeable h hunreleased htake.2)
      · rw [hold_writeWhere_of_mem (by simp), setValueAndTtl_row hrow]
  · split
    · exact h
    · exact h.moves hunreleased (by simp) trivial

theorem inv_lockKeyForAtomicMutation {claim : SemaphoreClaim} {now : Int} (h : Inv semaphore s)
    (hidle : s.phase tx = .idle) : Inv semaphore (lockKeyForAtomicMutation tx claim now s) := by
  unfold lockKeyForAtomicMutation
  split
  · rename_i hfree
    have hnone := hold_eq_none h hidle hfree
    have hcommitted : s.slots.row tx claim.slotSuffix = s.slots.committed claim.slotSuffix :=
      row_of_others (by simp [hnone])
    have hlocked : (s.slots.lock tx claim.slotSuffix).hold claim.slotSuffix = some ⟨tx, none⟩ := by
      simp [Table.lock, hnone]
    rw [hcommitted]
    split
    · rename_i hrow
      refine h.writes (by simp [hidle]) (by simp) ?_ ?_ ⟨_, hold_writeWhere_of_mem (by simp)⟩
      · intro slot hkey
        rwa [of_decide_eq_true hkey]
      · intro slot hkey
        rw [of_decide_eq_true hkey]
        exact .inl fun row hrow' => by simp [hrow] at hrow'
    · rename_i row hrow
      have hpresent : (s.slots.committed claim.slotSuffix).isSome := by simp [hrow]
      split
      · split
        · exact h.locks hidle (by simp) hfree hpresent trivial
        · rename_i holderId hvalue
          refine h.locks hidle (by simp) hfree hpresent ?_
          by_cases hholder : holderId = claim.holderId
          · rw [if_pos hholder]
            exact ⟨row, hlocked, hrow, hvalue.trans (congrArg some hholder)⟩
          · rw [if_neg hholder]
            trivial
      · exact h.locks hidle (by simp) hfree hpresent trivial
  · exact h

theorem inv_applyAtomicMutation {claim : SemaphoreClaim} {mutation : Mutation} (h : Inv semaphore s)
    (hlocked : s.phase tx = .locked claim mutation) :
    Inv semaphore (applyAtomicMutation tx claim s mutation) := by
  have hunreleased : ∀ claim', s.phase tx ≠ .released claim' true := by simp [hlocked]
  have hbacked := h.backed tx
  rw [hlocked] at hbacked
  cases mutation with
  | deleteSlot =>
      obtain ⟨row, hhold, hrow, hvalue⟩ := hbacked
      refine h.writes hunreleased (by simp) ?_ ?_ trivial
      · intro slot hkey
        rw [of_decide_eq_true hkey]
        exact free_iff.2 (by simp [hhold])
      · intro slot hkey
        exact .inr ⟨claim, row, rfl, (of_decide_eq_true hkey).symm,
          rfl, of_decide_eq_true hkey ▸ hrow, hvalue⟩
  | deletePlaceholder =>
      obtain ⟨written, hhold⟩ := hbacked
      refine h.writes hunreleased (by simp) ?_ ?_ trivial
      · intro slot hkey
        rw [of_decide_eq_true hkey]
        exact free_iff.2 (by simp [hhold])
      · intro slot hkey
        rw [of_decide_eq_true hkey]
        rcases h.written _ _ written hhold rfl with hdead | ⟨claim', row, hreleased, -⟩
        · exact .inl hdead
        · exact absurd hreleased (hunreleased claim')
  | keepExisting => exact h.moves hunreleased (by simp) trivial

theorem inv_deleteExpiredKeysOnce {waited : Nat} {batch : String → Bool} (h : Inv semaphore s)
    (hidle : s.phase tx = .idle) :
    Inv semaphore (deleteExpiredKeysOnce tx (s.clock - waited) batch s) := by
  have hunreleased : ∀ claim, s.phase tx ≠ .released claim true := by simp [hidle]
  refine h.writes hunreleased (by simp) ?_ ?_ trivial
  · intro slot hkey
    simp only [Bool.and_eq_true, takeable] at hkey
    exact hkey.2.1
  · intro slot hkey
    exact .inl (dead_of_takeable h hunreleased (Bool.and_eq_true_iff.1 hkey).2)

/-- The invariant after a transaction has ended and let go of its rows. -/
theorem Inv.ends {held : List Grant} (h : Inv semaphore s)
    (hhold : ∀ slot hold, slots.hold slot = some hold ↔ s.slots.hold slot = some hold ∧ hold.tx ≠ tx)
    (hcommitted : ∀ slot hold,
      s.slots.hold slot = some hold → hold.tx ≠ tx → slots.committed slot = s.slots.committed slot)
    (howned : ∀ grant ∈ live { s with held }, slots.committed grant.claim.slotSuffix = some grant.row)
    (hdistinct : ((live { s with held }).map (·.claim.slotSuffix)).Nodup)
    (hwithin : ∀ grant ∈ held, grant.claim.slotSuffix ∈ slotSuffixes semaphore) :
    Inv semaphore { s.enter tx slots .idle with held } := by
  refine ⟨howned, hdistinct, hwithin, ?_, ?_, ?_, ?_⟩
  · intro slot hold written hslot hwritten
    obtain ⟨hold', htx⟩ := (hhold slot hold).1 hslot
    have hsame := hcommitted slot hold hold' htx
    have hphase : ({ s.enter tx slots .idle with held } : State).phase hold.tx = s.phase hold.tx := by
      simp [State.enter, htx]
    rw [hphase]
    rcases h.written slot hold written hold' hwritten with hdead |
      ⟨claim, row, hreleased, hclaim, hnone, hrow, hvalue⟩
    · exact .inl fun row hrow => hdead row (hsame ▸ hrow)
    · exact .inr ⟨claim, row, hreleased, hclaim, hnone, hsame.trans hrow, hvalue⟩
  · intro slot hold hslot hwritten
    obtain ⟨hold', htx⟩ := (hhold slot hold).1 hslot
    change (slots.committed slot).isSome
    rw [hcommitted slot hold hold' htx]
    exact h.present slot hold hold' hwritten
  · intro slot hold hslot
    obtain ⟨hold', htx⟩ := (hhold slot hold).1 hslot
    simpa [State.enter, htx] using h.inProgress slot hold hold'
  · intro other
    by_cases htx : other = tx
    · simp [State.enter, htx, Backed]
    · have hother : Backed semaphore slots other (s.phase other) :=
        (h.backed other).mono fun slot hold hslot howner =>
        ⟨(hhold slot hold).2 ⟨hslot, howner ▸ htx⟩, hcommitted slot hold hslot (howner ▸ htx)⟩
      simpa [State.enter, htx] using hother

theorem inv_abort (h : Inv semaphore s) : Inv semaphore (s.enter tx (s.slots.abort tx) .idle) :=
  h.ends (fun _ _ => hold_abort) (fun _ _ _ _ => rfl) h.owned h.distinct h.within

/-- A commit leaves the row of a live grant as it is, unless it is that of its release. -/
theorem committed_of_live {grant : Grant} (h : Inv semaphore s) (hgrant : grant ∈ live s)
    (hrelease : s.phase tx ≠ .released grant.claim true) :
    (s.slots.commit tx).committed grant.claim.slotSuffix =
      s.slots.committed grant.claim.slotSuffix := by
  have howned := h.owned grant hgrant
  rcases committed_commit_cases s.slots tx grant.claim.slotSuffix with hsame | ⟨written, hhold, -⟩
  · exact hsame
  · rcases h.written _ _ written hhold rfl with hdead | ⟨claim, row, hreleased, hslot, -, hrow, hvalue⟩
    · have hlive : grant.row.isLive s.clock = true := (List.mem_filter.1 hgrant).2
      rw [hdead grant.row howned] at hlive
      cases hlive
    · rw [howned] at hrow
      cases hrow
      have hclaim : claim = grant.claim := by
        obtain ⟨slot, holderId⟩ := claim
        simp only [Grant.row, Option.some.injEq] at hvalue hslot
        rw [← hvalue, hslot]
      exact absurd (hclaim ▸ hreleased) hrelease

theorem committed_of_others {slot : String}
    {hold : Hold Nat SlotRow} (hslot : s.slots.hold slot = some hold)
    (htx : hold.tx ≠ tx) : (s.slots.commit tx).committed slot = s.slots.committed slot :=
  row_of_others fun hold' hslot' => by
    rw [hslot] at hslot'
    cases hslot'
    exact htx

/-- A commit that hands out no grant. -/
theorem Inv.commits {held : List Grant} (h : Inv semaphore s) (hheld : held.Sublist s.held)
    (hreleased : ∀ grant ∈ held, s.phase tx ≠ .released grant.claim true) :
    Inv semaphore { s.enter tx (s.slots.commit tx) .idle with held } := by
  have hlive : (live { s with held }).Sublist (live s) := hheld.filter _
  refine h.ends (fun _ _ => hold_commit) (fun _ _ hslot htx => committed_of_others hslot htx) ?_ ?_ ?_
  · intro grant hgrant
    rw [committed_of_live h (hlive.subset hgrant) (hreleased grant (List.mem_of_mem_filter hgrant))]
    exact h.owned grant (hlive.subset hgrant)
  · exact (hlive.map _).nodup h.distinct
  · exact fun grant hgrant => h.within grant (hheld.subset hgrant)

theorem inv_grants {holderId : HolderId} {grant : Grant} (h : Inv semaphore s)
    (htaken : s.phase tx = .taken holderId (some grant)) :
    Inv semaphore { s.enter tx (s.slots.commit tx) .idle with held := grant :: s.held } := by
  have hbacked := h.backed tx
  rw [htaken] at hbacked
  obtain ⟨-, hwithin, hhold⟩ := hbacked
  have hcommitted : (s.slots.commit tx).committed grant.claim.slotSuffix = some grant.row :=
    row_of_hold hhold rfl
  have hfresh : ∀ other ∈ live s, other.claim.slotSuffix ≠ grant.claim.slotSuffix := by
    intro other hother heq
    rcases h.written _ _ _ hhold rfl with hdead | ⟨claim, row, hreleased, -⟩
    · have hlive : other.row.isLive s.clock = true := (List.mem_filter.1 hother).2
      rw [hdead other.row (heq ▸ h.owned other hother)] at hlive
      cases hlive
    · simp [htaken] at hreleased
  have hcases : live { s with held := grant :: s.held } = live s ∨
    live { s with held := grant :: s.held } = grant :: live s := by
    simp only [live, List.filter_cons]
    split
    · exact .inr rfl
    · exact .inl rfl
  refine h.ends (fun _ _ => hold_commit) (fun _ _ hslot htx => committed_of_others hslot htx) ?_ ?_ ?_
  · have hothers : ∀ other ∈ live s,
      (s.slots.commit tx).committed other.claim.slotSuffix = some other.row := by
      intro other hother
      rw [committed_of_live h hother (by simp [htaken])]
      exact h.owned other hother
    rcases hcases with heq | heq
    · rwa [heq]
    · rw [heq]
      exact List.forall_mem_cons.2 ⟨hcommitted, hothers⟩
  · rcases hcases with heq | heq
    · rw [heq]
      exact h.distinct
    · rw [heq, List.map_cons]
      refine List.nodup_cons.2 ⟨?_, h.distinct⟩
      intro hmem
      obtain ⟨other, hother, heq'⟩ := List.mem_map.1 hmem
      exact hfresh other hother heq'
  · exact List.forall_mem_cons.2 ⟨hwithin, h.within⟩

theorem inv_commit (h : Inv semaphore s) : Inv semaphore (commit tx s) := by
  unfold commit
  split
  · rename_i htaken
    exact inv_grants h htaken
  · rename_i htaken
    exact h.commits (List.Sublist.refl _) (by simp [htaken])
  · rename_i claim hreleased
    refine h.commits List.filter_sublist ?_
    intro grant hgrant heq
    rw [hreleased] at heq
    have hne := of_decide_eq_true (List.mem_filter.1 hgrant).2
    exact hne (Phase.released.inj heq).1.symm
  · rename_i claim hreleased
    exact h.commits (List.Sublist.refl _) (by simp [hreleased])
  · rename_i hswept
    exact h.commits (List.Sublist.refl _) (by simp [hswept])
  · exact h

theorem inv_passes {microseconds : Nat} (h : Inv semaphore s) :
    Inv semaphore { s with clock := s.clock + microseconds } := by
  have hclock : s.clock ≤ s.clock + microseconds := by omega
  have hlive : (live { s with clock := s.clock + microseconds }).Sublist (live s) :=
    live_subset_of_clock rfl hclock
  have hdead : ∀ slot, Dead s slot → Dead { s with clock := s.clock + microseconds } slot :=
    fun slot h => dead_of_clock (s := s) rfl hclock h
  refine ⟨fun grant hgrant => h.owned grant (hlive.subset hgrant),
    (hlive.map _).nodup h.distinct, h.within, ?_,
    h.present, h.inProgress, h.backed⟩
  intro slot hold written hslot hwritten
  exact (h.written slot hold written hslot hwritten).imp (hdead slot) id

theorem inv_step (semaphore : Semaphore) (event : Event) (s : State) (h : Inv semaphore s) :
    Inv semaphore (step semaphore event s).1 := by
  cases event with
  | passes microseconds => exact inv_passes h
  | ensureSlotKeysExist tx holderId waited =>
      simp only [step]
      split
      · rename_i hidle
        exact inv_ensureSlotKeysExist h hidle
      · exact h
  | acquireSlot tx waited pick =>
      simp only [step]
      split
      · rename_i hensured
        exact inv_acquireSlot h hensured
      · exact h
  | lockKeyForAtomicMutation tx claim waited =>
      simp only [step]
      split
      · rename_i hidle
        exact inv_lockKeyForAtomicMutation h hidle
      · exact h
  | applyAtomicMutation tx =>
      simp only [step]
      split
      · rename_i hlocked
        exact inv_applyAtomicMutation h hlocked
      · exact h
  | deleteExpiredKeysOnce tx waited batch =>
      simp only [step]
      split
      · rename_i hidle
        exact inv_deleteExpiredKeysOnce h hidle
      · exact h
  | commits tx => exact inv_commit h
  | aborts tx => exact inv_abort h

theorem inv_exec (semaphore : Semaphore) (events : List Event) :
    Inv semaphore (exec (step semaphore) events start) :=
  exec_invariant (Inv semaphore) (inv_step semaphore) events (inv_start semaphore)

/-- Every slot has a row, for an acquire that is between its two statements. -/
def Ensured (semaphore : Semaphore) (s : State) : Prop :=
  ∀ tx holderId, s.phase tx = .ensured holderId →
    ∀ slot ∈ slotSuffixes semaphore, (s.slots.row tx slot).isSome

/-- No transaction that has deleted the row of a slot commits while an acquire is between
its two statements. -/
def KeepsEnsuredSlots (semaphore : Semaphore) (event : Event) (s : State) : Prop :=
  ∀ tx, event = .commits tx → (∃ other holderId, s.phase other = .ensured holderId) →
    ∀ slot ∈ slotSuffixes semaphore, (s.slots.committed slot).isSome → (s.slots.row tx slot).isSome

theorem Ensured.enter (h : Ensured semaphore s)
    (hothers : ∀ other, other ≠ tx → ∀ slot, slots.row other slot = s.slots.row other slot)
    (hown : ∀ holderId, phase = .ensured holderId → ∀ slot ∈ slotSuffixes semaphore,
      (slots.row tx slot).isSome) :
    Ensured semaphore (s.enter tx slots phase) := by
  intro other holderId hphase slot hslot
  by_cases htx : other = tx
  · subst htx
    exact hown holderId (by simpa [State.enter] using hphase) slot hslot
  · change (slots.row other slot).isSome
    rw [hothers other htx slot]
    exact h other holderId (by simpa [State.enter, htx] using hphase) slot hslot

theorem ensured_ensureSlotKeysExist {holderId : HolderId}
    {now : Int} (hinv : Inv semaphore s) (h : Ensured semaphore s)
    (hidle : s.phase tx = .idle) :
    Ensured semaphore (ensureSlotKeysExist semaphore tx holderId now s) := by
  unfold ensureSlotKeysExist
  split
  · rename_i hunwritten
    refine h.enter (fun other hne =>
      (touches_writeWhere fun slot => free_of_absent hinv hidle hunwritten).row hne) ?_
    intro holderId' _ slot hslot
    cases hkey : absent semaphore tx s slot with
    | true =>
        rw [row_writeWhere_of_mem hkey]
        rfl
    | false =>
        rw [row_writeWhere_of_not_mem hkey]
        simpa [absent, hslot, Option.isSome_iff_ne_none] using hkey
  · exact h

theorem ensured_commit (h : Ensured semaphore s)
    (hkeeps : KeepsEnsuredSlots semaphore (.commits tx) s) :
    Ensured semaphore (commit tx s) := by
  have hcommit : ∀ held, Ensured semaphore { s.enter tx (s.slots.commit tx) .idle with held } := by
    intro held other holderId hphase slot hslot
    have hother : other ≠ tx := by
      rintro rfl
      simp [State.enter] at hphase
    have hensured : s.phase other = .ensured holderId := by simpa [State.enter, hother] using hphase
    change ((s.slots.commit tx).row other slot).isSome
    have hrow := h other holderId hensured slot hslot
    rcases row_commit_of_ne hother slot with heq | ⟨heq, hcommitted⟩
    · rwa [heq]
    · rw [heq]
      exact hkeeps tx rfl ⟨other, holderId, hensured⟩ slot hslot (hcommitted ▸ hrow)
  unfold commit
  split
  · exact hcommit _
  · exact hcommit _
  · exact hcommit _
  · exact hcommit _
  · exact hcommit _
  · exact h

theorem ensured_step (event : Event)
    (hkeeps : KeepsEnsuredSlots semaphore event s) (hinv : Inv semaphore s)
    (h : Ensured semaphore s) : Ensured semaphore (step semaphore event s).1 := by
  have hmoves : ∀ tx phase, (∀ holderId, phase ≠ .ensured holderId) →
    Ensured semaphore (s.enter tx s.slots phase) :=
    fun tx phase hphase => h.enter (fun _ _ _ => rfl) fun holderId heq => absurd heq (hphase holderId)
  cases event with
  | passes microseconds => exact h
  | ensureSlotKeysExist tx holderId waited =>
      simp only [step]
      split
      · rename_i hidle
        exact ensured_ensureSlotKeysExist hinv h hidle
      · exact h
  | acquireSlot tx waited pick =>
      simp only [step]
      split
      · simp only [acquireSlot]
        split
        · rename_i htake
          split
          · exact hmoves tx .failed (by simp)
          · refine h.enter (fun other hne => (touches_writeWhere ?_).row hne) (by simp)
            intro slot hkey
            rw [of_decide_eq_true hkey]
            simp only [takeable, Bool.and_eq_true] at htake
            exact htake.2.1
        · split
          · exact h
          · exact hmoves tx _ (by simp)
      · exact h
  | lockKeyForAtomicMutation tx claim waited =>
      simp only [step]
      split
      · simp only [lockKeyForAtomicMutation]
        split
        · rename_i hfree
          have hlocks : ∀ phase, (∀ holderId, phase ≠ .ensured holderId) →
              Ensured semaphore (s.enter tx (s.slots.lock tx claim.slotSuffix) phase) :=
            fun phase hphase => h.enter (fun other hne => (touches_lock hfree).row hne)
              fun holderId heq => absurd heq (hphase holderId)
          split
          · refine h.enter (fun other hne => (touches_writeWhere ?_).row hne) (by simp)
            intro slot hkey
            rwa [of_decide_eq_true hkey]
          · split
            · split <;> exact hlocks _ (by simp)
            · exact hlocks _ (by simp)
        · exact h
      · exact h
  | applyAtomicMutation tx =>
      simp only [step]
      split
      · rename_i claim mutation hlocked
        have hbacked := hinv.backed tx
        rw [hlocked] at hbacked
        have hdeletes : ∀ hold : Hold Nat SlotRow, s.slots.hold claim.slotSuffix = some hold →
          hold.tx = tx → ∀ released,
            Ensured semaphore (s.enter tx (s.slots.writeWhere tx (· = claim.slotSuffix) none)
              (.released claim released)) := by
          intro hold hhold htx released
          refine h.enter (fun other hne => (touches_writeWhere ?_).row hne) (by simp)
          intro slot hkey
          rw [of_decide_eq_true hkey]
          exact free_iff.2 fun hold' hhold' => by
            rw [hhold] at hhold'
            cases hhold'
            exact htx
        cases mutation with
        | deleteSlot =>
            obtain ⟨row, hhold, -⟩ := hbacked
            exact hdeletes _ hhold rfl true
        | deletePlaceholder =>
            obtain ⟨written, hhold⟩ := hbacked
            exact hdeletes _ hhold rfl false
        | keepExisting => exact hmoves tx _ (by simp)
      · exact h
  | deleteExpiredKeysOnce tx waited batch =>
      simp only [step]
      split
      · refine h.enter (fun other hne => (touches_writeWhere ?_).row hne) (by simp)
        intro slot hkey
        simp only [Bool.and_eq_true, takeable] at hkey
        exact hkey.2.1
      · exact h
  | commits tx => exact ensured_commit h hkeeps
  | aborts tx => exact h.enter (fun other hne => row_abort_of_ne hne) (by simp)

theorem ensured_exec {events : List Event}
    (hkeeps : Meets (KeepsEnsuredSlots semaphore) (step semaphore) events start) :
    Ensured semaphore (exec (step semaphore) events start) := by
  have hstep : ∀ event s, KeepsEnsuredSlots semaphore event s → Inv semaphore s ∧ Ensured semaphore s →
      Inv semaphore (step semaphore event s).1 ∧ Ensured semaphore (step semaphore event s).1 :=
    fun event s hk h => ⟨inv_step semaphore event s h.1, ensured_step event hk h.1 h.2⟩
  have hstart : Ensured semaphore start := fun tx holderId hphase => by simp [start] at hphase
  exact (exec_preserves hstep hkeeps ⟨inv_start semaphore, hstart⟩).2

/-- The slot is live at the timestamp of a statement, or another transaction has its row. -/
def LiveOrLocked (s : State) (tx : Nat) (now : Int) (slot : String) : Prop :=
  s.slots.free tx slot = false ∨ ∃ row, s.slots.row tx slot = some row ∧ row.isLive now = true

/-- When the taking statement of an acquire returns no slot, each slot is live or locked. -/
def RefusesOnlyWhenFull (semaphore : Semaphore) (s : State) : Prop :=
  ∀ tx waited pick, (step semaphore (.acquireSlot tx waited pick) s).2 = some none →
    ∀ slot ∈ slotSuffixes semaphore, LiveOrLocked s tx (s.clock - waited) slot

theorem refusesOnlyWhenFull_of_ensured (h : Ensured semaphore s) : RefusesOnlyWhenFull semaphore s := by
  intro tx waited pick hout slot hslot
  simp only [step] at hout
  split at hout
  · rename_i holderId hensured
    simp only [acquireSlot] at hout
    split at hout
    · split at hout <;> cases hout
    · split at hout
      · cases hout
      · rename_i hnone
        obtain ⟨row, hrow⟩ := Option.isSome_iff_exists.1 (h tx holderId hensured slot hslot)
        by_cases hfree : s.slots.free tx slot = true
        · refine .inr ⟨row, hrow, ?_⟩
          by_contra hexpired
          refine hnone (List.any_eq_true.2 ⟨slot, hslot, ?_⟩)
          simp [takeable, hfree, isExpired, hrow, Bool.eq_false_iff.2 hexpired]
        · exact .inl (Bool.eq_false_iff.2 hfree)
  · cases hout

/-- The claims that are neither released nor expired are at most as many as the semaphore
has slots, and name different ones. -/
def Bounded (semaphore : Semaphore) (s : State) : Prop :=
  (live s).length ≤ semaphore.maxConcurrent ∧ ((live s).map (·.claim.slotSuffix)).Nodup

/-- The commit of a release leaves the rows of the other holders' live claims. -/
def ReleasesOwnSlot (s : State) : Prop :=
  ∀ tx claim released, s.phase tx = .released claim released → ∀ grant ∈ live s,
    grant.claim.holderId ≠ claim.holderId →
      s.slots.committed grant.claim.slotSuffix = some grant.row ∧
        (commit tx s).slots.committed grant.claim.slotSuffix = some grant.row

theorem bounded_of_inv (h : Inv semaphore s) : Bounded semaphore s := by
  refine ⟨?_, h.distinct⟩
  have hsubset : (live s).map (·.claim.slotSuffix) ⊆ slotSuffixes semaphore := by
    intro slot hslot
    obtain ⟨grant, hgrant, rfl⟩ := List.mem_map.1 hslot
    exact h.within grant (List.mem_of_mem_filter hgrant)
  have hlength := (h.distinct.subperm hsubset).length_le
  simpa [slotSuffixes] using hlength

theorem releasesOwnSlot_of_inv (h : Inv semaphore s) : ReleasesOwnSlot s := by
  intro tx claim released hreleased grant hgrant hholder
  have howned := h.owned grant hgrant
  refine ⟨howned, ?_⟩
  have hrelease : s.phase tx ≠ .released grant.claim true := by
    rw [hreleased]
    intro heq
    exact hholder (congrArg SemaphoreClaim.holderId (Phase.released.inj heq).1.symm)
  have hcommitted := committed_of_live h hgrant hrelease
  cases released <;> simpa [commit, hreleased, State.enter, howned] using hcommitted

/-- In every run, whatever the holders' ids: the live claims stay within the bound and name
different slots, and a release leaves the others' slots alone. An acquire is refused only
when every slot is live or locked, in every run in which no slot row that an acquire has
ensured is gone before it takes one. -/
theorem semaphore_bounded (semaphore : Semaphore) (events : List Event) :
    Bounded semaphore (exec (step semaphore) events start) ∧
      ReleasesOwnSlot (exec (step semaphore) events start) ∧
      (Meets (KeepsEnsuredSlots semaphore) (step semaphore) events start →
        RefusesOnlyWhenFull semaphore (exec (step semaphore) events start)) := by
  have hinv := inv_exec semaphore events
  exact ⟨bounded_of_inv hinv, releasesOwnSlot_of_inv hinv,
    fun hkeeps => refusesOnlyWhenFull_of_ensured (ensured_exec hkeeps)⟩

def oneSlot : Semaphore where
  maxConcurrent := 1
  maxHoldTtl := ⟨some minKvTtl, minimum_minKvTtl, fits_minKvTtl⟩

/-- The one slot is taken. The second client finds its row there, and a sweep deletes nothing. -/
def takenThroughout : List Event :=
  [.ensureSlotKeysExist 1 LeaseAuthority.holderA 0, .acquireSlot 1 0 "1", .commits 1,
    .ensureSlotKeysExist 2 LeaseAuthority.holderB 0, .deleteExpiredKeysOnce 3 0 fun _ => true, .commits 3]

theorem takenThroughout_keeps :
    Meets (KeepsEnsuredSlots oneSlot) (step oneSlot) takenThroughout start := by
  refine ⟨?_, ?_, ?_, ?_, ?_, ?_, trivial⟩ <;> intro tx hevent <;> cases hevent
  · rintro - slot hslot -
    obtain rfl : slot = "1" := List.mem_singleton.1 hslot
    decide
  · rintro - slot hslot -
    obtain rfl : slot = "1" := List.mem_singleton.1 hslot
    decide

theorem semaphore_bounded_refused :
    let s := exec (step oneSlot) takenThroughout start
    (live s).length = 1 ∧ (step oneSlot (.acquireSlot 2 0 "1") s).2 = some none ∧
      LiveOrLocked s 2 s.clock "1" := by
  intro s
  have hrefused : (step oneSlot (.acquireSlot 2 0 "1") s).2 = some none := by rfl
  obtain ⟨-, -, hfull⟩ := semaphore_bounded oneSlot takenThroughout
  have hslot := hfull takenThroughout_keeps 2 0 "1" hrefused "1" (by decide)
  rw [Nat.cast_zero, Int.sub_zero] at hslot
  exact ⟨by rfl, hrefused, hslot⟩

/-- The one slot is taken, and its second goes by. Then the second client finds the row of
the slot there, and a sweep takes it away before the second client could. -/
def sweptBetween : List Event :=
  [.ensureSlotKeysExist 1 LeaseAuthority.holderA 0, .acquireSlot 1 0 "1", .commits 1, .passes 2000000,
    .ensureSlotKeysExist 2 LeaseAuthority.holderB 0, .deleteExpiredKeysOnce 3 0 fun _ => true, .commits 3]

/-- The second client is refused by a semaphore that nobody has a claim of. -/
theorem free_semaphore_looks_full : live (exec (step oneSlot) sweptBetween start) = [] ∧
    ¬RefusesOnlyWhenFull oneSlot (exec (step oneSlot) sweptBetween start) := by
  refine ⟨by rfl, fun h => ?_⟩
  rcases h 2 0 "1" (by rfl) "1" (by decide) with hlocked | ⟨row, hrow, -⟩
  · exact absurd hlocked (by decide)
  · have hnone : (exec (step oneSlot) sweptBetween start).slots.row 2 "1" = none := by rfl
    rw [hnone] at hrow
    cases hrow

end Paranoid.SemaphoreSlots

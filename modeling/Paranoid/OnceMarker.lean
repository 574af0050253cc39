import Mathlib.Data.List.Nodup
import Paranoid.OnceModel

namespace Paranoid.OnceMarker

open OnceModel RowLocks Transitions

/-- The run reports that it has run the task and recorded its completion. -/
def ReportsRan : Outcome → Prop
  | .ran | .markedDone true => True
  | _ => False

/-- The run may still report so. -/
def MayRan : Phase → Prop
  | .finished outcome => ReportsRan outcome
  | .releasing finish => ∃ result, ReportsRan (finish result)
  | .rollingBack next => ∃ result, MayRan (next result)
  | _ => False

/-- The run has nothing more to do in its transaction. -/
def Settled : Phase → Prop
  | .releasing _ | .finished _ | .resetFinished _ | .dead => True
  | _ => False

/-- The run does not have the row of the marker. -/
def Without (markers : Table Nat Unit OnceCompletion) (run : Nat) : Prop :=
  ∀ hold, markers.hold () = some hold → hold.tx ≠ run

/-- What a phase promises about the transaction of its run. -/
def Backed (completion : Nat → OnceCompletion)
    (markers : Table Nat Unit OnceCompletion) (run : Nat) : Phase → Prop
  | .deciding _ => markers.hold () = some ⟨run, none⟩
  | .committing _ true | .leaving true => markers.hold () = some ⟨run, some (some (completion run))⟩
  | .committing way false => way ≠ .atomic ∧ markers.hold () = some ⟨run, none⟩
  | .leaving false => markers.hold () = some ⟨run, none⟩
  | .resetLeaving | .resetCommitting =>
      ∀ hold, markers.hold () = some hold → hold.tx = run → hold.written = some none
  | .rollingBack next => ∀ result, Settled (next result)
  | .releasing _ | .finished _ | .resetFinished _ | .dead => True
  | _ => Without markers run

/-- Since every reset at most one completion has been committed, none where there is no
marker, and whoever writes a marker has found none. A marker is that of a completion. -/
structure Inv (completion : Nat → OnceCompletion) (s : State) : Prop where
  distinct : (s.completions.map Prod.fst).Nodup
  past : ∀ p ∈ s.completions, p.1 ≤ s.resets
  absent : s.markers.committed () = none → ∀ p ∈ s.completions, p.1 ≠ s.resets
  present : ∀ marker, s.markers.committed () = some marker →
    ∃ p ∈ s.completions, marker = completion p.2
  effects : s.effects.Sublist s.completions
  written : ∀ run marker, s.markers.hold () = some ⟨run, some (some marker)⟩ →
    s.markers.committed () = none
  backed : ∀ run, Backed completion s.markers run (s.phase run)
  ran : ∀ run, MayRan (s.phase run) → ∃ since, (since, run) ∈ s.completions

variable {completion : Nat → OnceCompletion} {s s' : State}
  {run other : Nat} {phase : Phase} {answer : Answer}
  {markers markers' : Table Nat Unit OnceCompletion}

theorem inv_start (completion : Nat → OnceCompletion) : Inv completion start := by
  constructor <;> simp [start, Table.start, Backed, Without, MayRan]

theorem backed_of_settled (h : Settled phase) : Backed completion markers run phase := by
  unfold Settled at h
  split at h
  · trivial
  · trivial
  · trivial
  · trivial
  · exact h.elim

/-- A phase depends on what its own run has of the row, and on nothing else. -/
theorem Backed.mono (h : Backed completion markers run phase)
    (hkept : ∀ hold, markers.hold () = some hold → hold.tx = run → markers'.hold () = some hold)
    (hold_ : ∀ hold, markers'.hold () = some hold → hold.tx = run → markers.hold () = some hold) :
    Backed completion markers' run phase := by
  have hwithout : Without markers run → Without markers' run :=
    fun h hold hhold htx => h hold (hold_ hold hhold htx) htx
  cases phase with
  | deciding way => exact hkept _ h rfl
  | committing way marked =>
      cases marked with
      | true => exact hkept _ h rfl
      | false => exact ⟨h.1, hkept _ h.2 rfl⟩
  | leaving marked =>
      cases marked with
      | true => exact hkept _ h rfl
      | false => exact hkept _ h rfl
  | resetLeaving | resetCommitting => exact fun hold hhold htx => h hold (hold_ hold hhold htx) htx
  | rollingBack next => exact h
  | releasing finish | finished outcome | resetFinished result | dead => trivial
  | idle | checking way waits | claiming way waits | refused | claimed way | ready way | running way | stopping way
  | renewing way | locking way | resetClaiming | resetDeleting => exact hwithout h

theorem backed_of_touches {keys : Unit → Prop} (h : Backed completion markers other phase)
    (htouches : Touches run keys markers markers') (hne : other ≠ run) :
    Backed completion markers' other phase := by
  refine h.mono (fun hold hhold htx => htouches.kept () hold hhold (.inl (htx.trans_ne hne)))
    fun hold hhold htx => ?_
  rcases htouches.old () hold hhold with hold' | ⟨htx', -⟩
  · exact hold'
  · exact absurd (htx.symm.trans htx') hne

/-- The invariant after a statement of a run, which commits nothing. -/
theorem Inv.touches {keys : Unit → Prop} (h : Inv completion s)
    (htouches : Touches run keys s.markers markers)
    (hwritten : ∀ marker,
      markers.hold () = some ⟨run, some (some marker)⟩ → s.markers.committed () = none)
    (hbacked : Backed completion markers run phase)
    (hran : MayRan phase → ∃ since, (since, run) ∈ s.completions) :
    Inv completion ({ s with markers }.enter run phase) := by
  refine ⟨h.distinct, h.past, ?_, ?_, h.effects, ?_, ?_, ?_⟩
  · intro hnone
    exact h.absent (htouches.committed ▸ hnone)
  · intro marker hmarker
    exact h.present marker (htouches.committed ▸ hmarker)
  · intro owner marker hhold
    change markers.committed () = none
    rw [htouches.committed]
    rcases htouches.old () _ hhold with hold | ⟨rfl, -⟩
    · exact h.written owner marker hold
    · exact hwritten marker hhold
  · intro other
    by_cases hne : other = run
    · rw [hne]
      simpa [State.enter] using hbacked
    · simp only [State.enter, Function.update_of_ne hne]
      exact backed_of_touches (h.backed other) htouches hne
  · intro other hmay
    by_cases hne : other = run
    · subst hne
      exact hran (by simpa [State.enter] using hmay)
    · simp only [State.enter, Function.update_of_ne hne] at hmay
      exact h.ran other hmay

theorem Inv.enter (h : Inv completion s) (hbacked : Backed completion s.markers run phase)
    (hran : MayRan phase → ∃ since, (since, run) ∈ s.completions) :
    Inv completion (s.enter run phase) :=
  h.touches (.refl run (fun _ => False) s.markers) (h.written run) hbacked hran

theorem Inv.drops (h : Inv completion s) (hsettled : Settled phase)
    (hran : MayRan phase → ∃ since, (since, run) ∈ s.completions) :
    Inv completion (s.drops run phase) := by
  refine ⟨h.distinct, h.past, h.absent, h.present, h.effects, ?_, ?_, ?_⟩
  · intro owner marker hhold
    exact h.written owner marker (hold_abort.1 hhold).1
  · intro other
    by_cases hne : other = run
    · rw [hne]
      simpa [State.drops, State.enter] using backed_of_settled hsettled
    · simp only [State.drops, State.enter, Function.update_of_ne hne]
      refine (h.backed other).mono
        (fun hold hhold htx => hold_abort.2 ⟨hhold, htx.trans_ne hne⟩) fun hold hhold _ => ?_
      exact (hold_abort.1 hhold).1
  · intro other hmay
    by_cases hne : other = run
    · subst hne
      exact hran (by simpa [State.drops, State.enter] using hmay)
    · simp only [State.drops, State.enter, Function.update_of_ne hne] at hmay
      exact h.ran other hmay

/-- The commit of a completion, which goes with the effects of an atomic task. -/
theorem Inv.commits {way : Way} {marked : Bool} (h : Inv completion s)
    (hphase : s.phase run = .committing way marked)
    (hsettled : Settled phase) (hran : MayRan phase → marked = true) :
    Inv completion (s.commits run way marked phase) := by
  have hbacked := h.backed run
  rw [hphase] at hbacked
  have hothers : ∀ other, Backed completion (s.commits run way marked phase).markers other
      ((s.commits run way marked phase).phase other) := by
    intro other
    by_cases hne : other = run
    · rw [hne]
      simpa [State.commits, State.enter] using backed_of_settled hsettled
    · simp only [State.commits, State.enter, Function.update_of_ne hne]
      exact (h.backed other).mono (fun hold hhold htx => hold_commit.2 ⟨hhold, htx.trans_ne hne⟩)
        fun hold hhold _ => (hold_commit.1 hhold).1
  have hown : ∀ hold, s.markers.hold () = some hold → hold.tx = run := by
    intro hold hhold
    cases marked with
    | true => exact (Option.some.inj (hhold.symm.trans hbacked)) ▸ rfl
    | false => exact (Option.some.inj (hhold.symm.trans hbacked.2)) ▸ rfl
  have hwritten : ∀ owner marker, (s.markers.commit run).hold () ≠
    some ⟨owner, some (some marker)⟩ := by
    intro owner marker hhold
    obtain ⟨hhold, hne⟩ := hold_commit.1 hhold
    exact hne (hown _ hhold)
  cases marked with
  | true =>
      have hnone := h.written run _ hbacked
      have hrow : (s.markers.commit run).committed () = some (completion run) := by
        rw [committed_commit, row_of_hold hbacked rfl]
        rfl
      refine ⟨?_, ?_, ?_, ?_, ?_, ?_, hothers, ?_⟩
      · simp only [State.commits, State.enter, if_true, List.map_append, List.nodup_append]
        refine ⟨h.distinct, by simp, ?_⟩
        rintro since hsince reset hreset rfl
        obtain ⟨p, hp, rfl⟩ := List.mem_map.1 hsince
        exact h.absent hnone p hp (by simpa using hreset)
      · intro p hp
        rcases List.mem_append.1 hp with hp | hp
        · exact h.past p hp
        · rw [List.mem_singleton.1 hp]
          exact Nat.le_refl s.resets
      · intro habsent
        exact absurd (hrow.symm.trans habsent) nofun
      · intro marker hmarker
        refine ⟨(s.resets, run), by simp [State.commits, State.enter], ?_⟩
        exact Option.some.inj (hmarker.symm.trans hrow)
      · simp only [State.commits, State.enter, if_true]
        split
        · exact h.effects.append (List.Sublist.refl _)
        · exact h.effects.trans (List.sublist_append_left _ _)
      · exact fun owner marker hhold => absurd hhold (hwritten owner marker)
      · intro other hmay
        by_cases hne : other = run
        · exact ⟨s.resets, by simp [State.commits, State.enter, hne]⟩
        · simp only [State.commits, State.enter, Function.update_of_ne hne] at hmay
          obtain ⟨since, hmem⟩ := h.ran other hmay
          exact ⟨since, List.mem_append_left _ hmem⟩
  | false =>
      obtain ⟨hway, hhold⟩ := hbacked
      have hcommitted : (s.markers.commit run).committed () = s.markers.committed () := by
        rw [committed_commit, row_of_hold hhold rfl]
        rfl
      refine ⟨h.distinct, h.past, ?_, ?_, ?_, ?_, hothers, ?_⟩
      · intro hnone
        exact h.absent (hcommitted ▸ hnone)
      · intro marker hmarker
        exact h.present marker (hcommitted ▸ hmarker)
      · simp only [State.commits, State.enter, if_neg hway]
        exact h.effects
      · exact fun owner marker hhold => absurd hhold (hwritten owner marker)
      · intro other hmay
        by_cases hne : other = run
        · subst hne
          exact absurd (hran (by simpa [State.commits, State.enter] using hmay)) nofun
        · simp only [State.commits, State.enter, Function.update_of_ne hne] at hmay
          exact h.ran other hmay

/-- The commit of a reset, after which a completion counts anew. -/
theorem Inv.resets (h : Inv completion s) (hphase : s.phase run = .resetCommitting)
    (hsettled : Settled phase) (hran : ¬MayRan phase) :
    Inv completion ({ s with
      markers := s.markers.commit run, resets := s.resets + 1 }.enter run phase) := by
  have hbacked := h.backed run
  rw [hphase] at hbacked
  refine ⟨h.distinct, ?_, ?_, ?_, h.effects, ?_, ?_, ?_⟩
  · exact fun p hp => Nat.le_succ_of_le (h.past p hp)
  · intro _ p hp
    exact Nat.ne_of_lt (Nat.lt_succ_of_le (h.past p hp))
  · intro marker hmarker
    rcases committed_commit_cases s.markers run () with heq | ⟨written, hhold, heq⟩
    · exact h.present marker (heq ▸ hmarker)
    · have hnone : some written = some none := hbacked _ hhold rfl
      rw [Option.some.inj hnone] at heq
      exact absurd (hmarker.symm.trans heq) nofun
  · intro owner marker hhold
    obtain ⟨hhold, hne⟩ := hold_commit.1 hhold
    have hrow : s.markers.row run () = s.markers.committed () := by
      refine row_of_others fun hold hhold' => ?_
      rw [hhold] at hhold'
      exact Option.some.inj hhold' ▸ hne
    change s.markers.row run () = none
    rw [hrow]
    exact h.written owner marker hhold
  · intro other
    by_cases hne : other = run
    · rw [hne]
      simpa [State.enter] using backed_of_settled hsettled
    · simp only [State.enter, Function.update_of_ne hne]
      exact (h.backed other).mono (fun hold hhold htx => hold_commit.2 ⟨hhold, htx.trans_ne hne⟩)
        fun hold hhold _ => (hold_commit.1 hhold).1
  · intro other hmay
    by_cases hne : other = run
    · subst hne
      exact absurd (by simpa [State.enter] using hmay) hran
    · simp only [State.enter, Function.update_of_ne hne] at hmay
      exact h.ran other hmay

theorem Inv.checkDone {found : OnceCompletion → Phase} {absent : Phase} (h : Inv completion s)
    (hfound : ∀ marker, Backed completion s.markers run (found marker) ∧ ¬MayRan (found marker))
    (habsent : Backed completion s.markers run absent ∧ ¬MayRan absent) :
    Inv completion (checkDone s run answer found absent) := by
  unfold OnceModel.checkDone
  split
  · exact h.drops trivial (by rintro ⟨⟩)
  · split
    · exact h.enter (hfound _).1 fun hmay => absurd hmay (hfound _).2
    · exact h.enter habsent.1 fun hmay => absurd hmay habsent.2

theorem Inv.tryStart (h : Inv completion s) (hphase : s.phase run = phase) :
    Inv completion (tryStart s run answer phase) := by
  have hbacked := h.backed run
  rw [hphase] at hbacked
  unfold OnceModel.tryStart
  split
  · refine h.checkDone (fun marker => ⟨trivial, ?_⟩) ⟨hbacked, nofun⟩
    split
    · nofun
    · nofun
  · split
    · exact h.enter hbacked nofun
    · split
      · exact h.enter trivial nofun
      · split
        · exact h
        · exact h.enter hbacked nofun
    · exact h.enter trivial nofun
  · exact h.checkDone (fun marker => ⟨trivial, nofun⟩) ⟨trivial, nofun⟩
  · exact h

section Endings

variable (marker : OnceCompletion) (source : Error)

theorem not_mayRan_releaseAfterAlreadyDone : ¬MayRan (.releasing (releaseAfterAlreadyDone marker)) := by
  rintro ⟨_ | _, h⟩
  · exact h
  · exact h

theorem not_mayRan_releaseAfterTaskError : ¬MayRan (.releasing releaseAfterTaskError) := by
  rintro ⟨_ | _, h⟩
  · exact h
  · exact h

theorem not_mayRan_releaseAfterFleetError : ¬MayRan (.releasing (releaseAfterFleetError source)) := by
  rintro ⟨_ | _, h⟩
  · exact h
  · exact h

theorem not_mayRan_releaseAfterCompletionFailed :
    ¬MayRan (.releasing (releaseAfterCompletionFailed source)) := by
  rintro ⟨_ | _, h⟩
  · exact h
  · exact h

theorem not_mayRan_releaseAfterFailedTransaction :
    ¬MayRan (.releasing (releaseAfterFailedTransaction source)) := by
  rintro ⟨_ | _, h⟩
  · exact h
  · exact h

/-- A rollback leads to a release, or to an end without one, and never to a run that counts. -/
def Fruitless (next : Except Error Unit → Phase) : Prop :=
  ∀ result, Settled (next result) ∧ ¬MayRan (next result)

theorem fruitless_afterAlreadyDone : Fruitless (rollbackAndReleaseAfterAlreadyDone marker) := by
  rintro (source | ⟨⟩)
  · exact ⟨trivial, not_mayRan_releaseAfterFailedTransaction source⟩
  · refine ⟨trivial, ?_⟩
    rintro ⟨_ | _, h⟩
    · exact h
    · exact h

theorem fruitless_afterTaskError : Fruitless rollbackTransactionAndReleaseAfterTaskError := by
  rintro (source | ⟨⟩)
  · refine ⟨trivial, ?_⟩
    rintro ⟨_ | _, h⟩
    · exact h
    · exact h
  · exact ⟨trivial, not_mayRan_releaseAfterTaskError⟩

theorem fruitless_afterFleetError :
    Fruitless (rollbackTransactionAndReleaseAfterFleetError source) := by
  rintro (source | ⟨⟩)
  · exact ⟨trivial, not_mayRan_releaseAfterFailedTransaction source⟩
  · exact ⟨trivial, not_mayRan_releaseAfterFailedTransaction source⟩

theorem fruitless_afterStopped : Fruitless (rollbackAndReleaseAfterStopped source) := by
  rintro (rollbackError | ⟨⟩)
  · refine ⟨trivial, ?_⟩
    rintro ⟨_ | _, h⟩
    · exact h
    · exact h
  · exact ⟨trivial, not_mayRan_releaseAfterFailedTransaction source⟩

theorem fruitless_withoutClaim :
    Fruitless (rollbackTransactionAfterStoppedGuardWithoutClaim source) := by
  rintro (source | ⟨⟩)
  · exact ⟨trivial, nofun⟩
  · exact ⟨trivial, nofun⟩

end Endings

/-- The run gives its transaction up. -/
theorem Inv.givesUp {next : Except Error Unit → Phase} (h : Inv completion s) (hnext : Fruitless next) :
    Inv completion (s.enter run (.rollingBack next)) := by
  refine h.enter (fun result => (hnext result).1) ?_
  rintro ⟨result, hmay⟩
  exact absurd hmay (hnext result).2

theorem Inv.runTaskAfterAcquiringGuard (h : Inv completion s) (hphase : s.phase run = phase) :
    Inv completion (runTaskAfterAcquiringGuard s run answer phase) := by
  have hbacked := h.backed run
  rw [hphase] at hbacked
  unfold OnceModel.runTaskAfterAcquiringGuard
  split
  · exact h.checkDone (fun marker => ⟨trivial, not_mayRan_releaseAfterAlreadyDone marker⟩)
      ⟨hbacked, nofun⟩
  · split
    · exact h.enter hbacked nofun
    · exact h.enter trivial fun hmay => absurd hmay (not_mayRan_releaseAfterFleetError _)
  · split
    · exact h.enter hbacked nofun
    · exact h.enter trivial fun hmay => absurd hmay not_mayRan_releaseAfterTaskError
  · split
    · exact h.enter hbacked nofun
    · exact h.enter trivial fun hmay => absurd hmay (not_mayRan_releaseAfterCompletionFailed _)
  · exact h

theorem Inv.runTaskAtomicallyAfterAcquiringGuard (h : Inv completion s) (hphase : s.phase run = phase) :
    Inv completion (runTaskAtomicallyAfterAcquiringGuard s run answer phase) := by
  have hbacked := h.backed run
  rw [hphase] at hbacked
  unfold OnceModel.runTaskAtomicallyAfterAcquiringGuard
  split
  · refine h.checkDone (fun marker => ?_) ⟨hbacked, nofun⟩
    refine ⟨fun result => (fruitless_afterAlreadyDone marker result).1, ?_⟩
    rintro ⟨result, hmay⟩
    exact (fruitless_afterAlreadyDone marker result).2 hmay
  · split
    · exact h.enter hbacked nofun
    · exact h.givesUp (fruitless_afterFleetError _)
  · split
    · exact h.enter hbacked nofun
    · exact h.givesUp fruitless_afterTaskError
  · split
    · exact h.enter hbacked nofun
    · exact h.givesUp (fruitless_withoutClaim _)
    · exact h.givesUp (fruitless_afterStopped _)
  · split
    · exact h.enter hbacked nofun
    · exact h.givesUp (fruitless_afterStopped _)
    · exact h.drops trivial nofun
  · exact h

theorem Inv.markDoneAndReleaseManualRun (h : Inv completion s) (hphase : s.phase run = phase) :
    Inv completion (markDoneAndReleaseManualRun s run answer phase) := by
  have hbacked := h.backed run
  rw [hphase] at hbacked
  unfold OnceModel.markDoneAndReleaseManualRun
  split
  · refine h.checkDone (fun marker => ⟨trivial, ?_⟩) ⟨hbacked, nofun⟩
    rintro ⟨_ | _, hran⟩
    · exact hran
    · exact hran
  · split
    · exact h.enter hbacked nofun
    · exact h.drops trivial nofun
    · exact h.drops trivial nofun
  · rename_i marked
    split
    · refine h.enter ?_ nofun
      cases marked with
      | true => exact hbacked
      | false => exact ⟨nofun, hbacked⟩
    · exact h.drops trivial nofun
  · exact h

theorem Inv.unmarked {way : Way} (h : Inv completion s) : Inv completion (s.unmarked run way) := by
  unfold State.unmarked
  split
  · exact h.drops trivial fun hmay => absurd hmay (not_mayRan_releaseAfterCompletionFailed _)
  · exact h.drops trivial nofun

theorem Inv.markCompletion (h : Inv completion s) (hphase : s.phase run = phase) :
    Inv completion (markCompletion completion s run answer phase) := by
  have hbacked := h.backed run
  rw [hphase] at hbacked
  unfold OnceModel.markCompletion
  split
  · rename_i way
    split
    · exact h.unmarked
    · split
      · rename_i hfree
        -- Nobody has the row: not another, and not the run, which has not locked it yet.
        have hnone : s.markers.hold () = none := by
          refine Option.eq_none_iff_forall_not_mem.2 fun hold hhold => ?_
          exact hbacked hold hhold (free_iff.1 hfree hold hhold)
        have hlock : (s.markers.lock run ()).hold () = some ⟨run, none⟩ := by
          simp [Table.lock, hnone]
        refine h.touches (touches_lock hfree) ?_ hlock False.elim
        intro marker hhold
        exact absurd (hlock.symm.trans hhold) (by rintro ⟨⟩)
      · exact h
  · rename_i way
    have hhold : s.markers.hold () = some ⟨run, none⟩ := hbacked
    have hrow : s.markers.row run () = s.markers.committed () := by
      rw [row_of_hold hhold rfl]
      rfl
    split
    · exact h.unmarked
    · split
      · cases way with
        | plain => exact h.enter ⟨(by rintro ⟨⟩), hhold⟩ False.elim
        | manual => exact h.enter hhold False.elim
        | atomic => exact h.givesUp (fruitless_afterStopped _)
      · rename_i hnone
        have hfree : s.markers.free run () = true := by
          simp [Table.free, hhold]
        have hwrite : (s.markers.writeWhere run (fun _ => true) (some (completion run))).hold () =
            some ⟨run, some (some (completion run))⟩ := hold_writeWhere_of_mem rfl
        refine h.touches (touches_writeWhere fun _ _ => hfree) (fun _ _ => hrow ▸ hnone) ?_ ?_
        · cases way with
          | plain => exact hwrite
          | manual => exact hwrite
          | atomic => exact hwrite
        · cases way with
          | plain => exact False.elim
          | manual => exact False.elim
          | atomic => exact False.elim
  · exact h

theorem Inv.finish (h : Inv completion s) (hphase : s.phase run = phase) :
    Inv completion (finish s run answer phase) := by
  have hbacked := h.backed run
  rw [hphase] at hbacked
  unfold OnceModel.finish
  split
  · rename_i way marked
    have hfailed : Settled (afterFailedCommit way) ∧ ¬MayRan (afterFailedCommit way) := by
      cases way with
      | plain => exact ⟨trivial, not_mayRan_releaseAfterCompletionFailed _⟩
      | atomic => exact ⟨trivial, not_mayRan_releaseAfterFailedTransaction _⟩
      | manual => exact ⟨trivial, nofun⟩
    split
    · refine h.commits hphase ?_ fun hmay => ?_
      · cases way with
        | plain => cases marked <;> trivial
        | atomic => trivial
        | manual => trivial
      · cases marked with
        | true => rfl
        | false =>
            exfalso
            cases way with
            | plain => exact not_mayRan_releaseAfterCompletionFailed _ hmay
            | atomic => exact hbacked.1 rfl
            | manual => exact hmay
    · exact h.commits hphase hfailed.1 fun hmay => absurd hmay hfailed.2
    · exact h.drops hfailed.1 fun hmay => absurd hmay hfailed.2
  · rename_i next
    refine h.drops (hbacked _) fun hmay => ?_
    exact h.ran run (hphase ▸ ⟨_, hmay⟩)
  · refine h.enter trivial fun hmay => ?_
    exact h.ran run (hphase ▸ ⟨_, hmay⟩)
  · exact h

theorem Inv.tryReset (h : Inv completion s) (hphase : s.phase run = phase) :
    Inv completion (tryReset s run answer phase) := by
  have hbacked := h.backed run
  rw [hphase] at hbacked
  unfold OnceModel.tryReset
  split
  · split
    · exact h.enter hbacked False.elim
    · exact h.drops trivial False.elim
    · exact h.drops trivial False.elim
  · split
    · exact h.drops trivial False.elim
    · split
      · exact h.enter (fun hold hhold htx => absurd htx (hbacked hold hhold)) False.elim
      · split
        · rename_i hfree
          have hwrite : (s.markers.writeWhere run (fun _ => true) none).hold () =
            some ⟨run, some none⟩ :=
            hold_writeWhere_of_mem rfl
          refine h.touches (touches_writeWhere fun _ _ => hfree) ?_ ?_ False.elim
          · intro marker hhold
            exact absurd (hwrite.symm.trans hhold) (by rintro ⟨⟩)
          · intro hold hhold _
            exact Option.some.inj (hwrite.symm.trans hhold) ▸ rfl
        · exact h
  · split
    · exact h.enter hbacked False.elim
    · exact h.drops trivial False.elim
  · split
    · exact h.resets hphase trivial False.elim
    · exact h.resets hphase trivial False.elim
    · exact h.drops trivial False.elim
  · exact h

theorem Inv.proceed (h : Inv completion s) : Inv completion (proceed completion s run answer) := by
  simp only [OnceModel.proceed]
  generalize hphase : s.phase run = phase
  cases phase with
  | checking way waits | claiming way waits | refused => exact h.tryStart hphase
  | claimed way | ready way | running way | stopping way | renewing way =>
      cases way with
      | plain => exact h.runTaskAfterAcquiringGuard hphase
      | atomic => exact h.runTaskAtomicallyAfterAcquiringGuard hphase
      | manual => exact h.markDoneAndReleaseManualRun hphase
  | leaving marked => exact h.markDoneAndReleaseManualRun hphase
  | locking way | deciding way => exact h.markCompletion hphase
  | committing way marked | rollingBack next | releasing finish => exact h.finish hphase
  | resetClaiming | resetDeleting | resetLeaving | resetCommitting => exact h.tryReset hphase
  | idle | finished outcome | resetFinished result | dead => exact h

theorem inv_step (event : Event) (h : Inv completion s) :
    Inv completion (step completion event s).1 := by
  cases event with
  | begins run way waits =>
      simp only [step]
      split
      · rename_i hphase
        have hbacked := h.backed run
        rw [hphase] at hbacked
        exact h.enter hbacked nofun
      · exact h
  | beginsReset run =>
      simp only [step]
      split
      · rename_i hphase
        have hbacked := h.backed run
        rw [hphase] at hbacked
        exact h.enter hbacked nofun
      · exact h
  | proceeds run answer => exact h.proceed
  | dies run => exact h.drops trivial nofun

theorem inv_exec (events : List Event) : Inv completion (exec (step completion) events start) :=
  exec_invariant (Inv completion) (fun event _ => inv_step event) events (inv_start completion)

section Kept

variable {marker : OnceCompletion}

theorem committed_checkDone {found : OnceCompletion → Phase} {absent : Phase} :
    (checkDone s run answer found absent).markers.committed = s.markers.committed := by
  unfold OnceModel.checkDone
  split
  · rfl
  · split
    · rfl
    · rfl

theorem committed_tryStart : (tryStart s run answer phase).markers.committed = s.markers.committed := by
  unfold OnceModel.tryStart
  split
  · exact committed_checkDone
  · split
    · rfl
    · split
      · rfl
      · split
        · rfl
        · rfl
    · rfl
  · exact committed_checkDone
  · rfl

theorem committed_runTaskAfterAcquiringGuard :
    (runTaskAfterAcquiringGuard s run answer phase).markers.committed = s.markers.committed := by
  unfold OnceModel.runTaskAfterAcquiringGuard
  split
  · exact committed_checkDone
  · split <;> rfl
  · split <;> rfl
  · split <;> rfl
  · rfl

theorem committed_runTaskAtomicallyAfterAcquiringGuard :
    (runTaskAtomicallyAfterAcquiringGuard s run answer phase).markers.committed =
      s.markers.committed := by
  unfold OnceModel.runTaskAtomicallyAfterAcquiringGuard
  split
  · exact committed_checkDone
  · split <;> rfl
  · split <;> rfl
  · split <;> rfl
  · split <;> rfl
  · rfl

theorem committed_markDoneAndReleaseManualRun :
    (markDoneAndReleaseManualRun s run answer phase).markers.committed = s.markers.committed := by
  unfold OnceModel.markDoneAndReleaseManualRun
  split
  · exact committed_checkDone
  · split <;> rfl
  · split <;> rfl
  · rfl

theorem committed_unmarked (way : Way) :
    (s.unmarked run way).markers.committed = s.markers.committed := by
  cases way with
  | plain => rfl
  | atomic => rfl
  | manual => rfl

theorem committed_markCompletion :
    (markCompletion completion s run answer phase).markers.committed = s.markers.committed := by
  unfold OnceModel.markCompletion
  split
  · rename_i way
    split
    · exact committed_unmarked way
    · split
      · rfl
      · rfl
  · rename_i way
    split
    · exact committed_unmarked way
    · split
      · rfl
      · rfl
  · rfl

/-- A run commits a completion only where it has found none. -/
theorem Inv.committed_finish (h : Inv completion s) (hphase : s.phase run = phase)
    (hmarker : s.markers.committed () = some marker) :
    (OnceModel.finish s run answer phase).markers.committed () = some marker := by
  have hbacked := h.backed run
  rw [hphase] at hbacked
  have hcommit : ∀ way marked, phase = .committing way marked →
      (s.markers.commit run).committed () = some marker := by
    rintro way marked rfl
    rcases committed_commit_cases s.markers run () with heq | ⟨written, hhold, -⟩
    · exact heq.trans hmarker
    · exfalso
      cases marked with
      | true => exact absurd ((h.written run _ hbacked).symm.trans hmarker) nofun
      | false => exact absurd (hbacked.2.symm.trans hhold) nofun
  unfold OnceModel.finish
  split
  · rename_i way marked
    split
    · exact hcommit way marked rfl
    · exact hcommit way marked rfl
    · exact hmarker
  · exact hmarker
  · exact hmarker
  · exact hmarker

/-- The step is the commit of a reset, whether its reply arrives or not. -/
def ResetCommits (event : Event) (s : State) : Prop :=
  ∃ run answer, event = .proceeds run answer ∧
    s.phase run = .resetCommitting ∧ (answer = .yes ∨ answer = .lost)

theorem committed_tryReset (hphase : s.phase run = phase)
    (hreset : ¬ResetCommits (.proceeds run answer) s) :
    (tryReset s run answer phase).markers.committed = s.markers.committed := by
  unfold OnceModel.tryReset
  split
  · split <;> rfl
  · split
    · rfl
    · split
      · rfl
      · split
        · rfl
        · rfl
  · split <;> rfl
  · simp only
    split
    · exact absurd ⟨run, .yes, rfl, hphase, .inl rfl⟩ hreset
    · exact absurd ⟨run, .lost, rfl, hphase, .inr rfl⟩ hreset
    · rfl
  · rfl

/-- Only the commit of a reset removes a completion or replaces one. -/
theorem Inv.committed_step {event : Event} (h : Inv completion s) (hreset : ¬ResetCommits event s)
    (hmarker : s.markers.committed () = some marker) :
    (step completion event s).1.markers.committed () = some marker := by
  cases event with
  | begins run way waits =>
      simp only [step]
      split <;> exact hmarker
  | beginsReset run =>
      simp only [step]
      split <;> exact hmarker
  | dies run => exact hmarker
  | proceeds run answer =>
      simp only [step, OnceModel.proceed]
      generalize hphase : s.phase run = phase
      cases phase with
      | checking way waits | claiming way waits | refused =>
          exact (congrFun committed_tryStart ()).trans hmarker
      | claimed way | ready way | running way | stopping way | renewing way =>
          cases way with
          | plain => exact (congrFun committed_runTaskAfterAcquiringGuard ()).trans hmarker
          | atomic => exact (congrFun committed_runTaskAtomicallyAfterAcquiringGuard ()).trans hmarker
          | manual => exact (congrFun committed_markDoneAndReleaseManualRun ()).trans hmarker
      | leaving marked => exact (congrFun committed_markDoneAndReleaseManualRun ()).trans hmarker
      | locking way | deciding way => exact (congrFun committed_markCompletion ()).trans hmarker
      | committing way marked | rollingBack next | releasing finish =>
          exact h.committed_finish hphase hmarker
      | resetClaiming | resetDeleting | resetLeaving | resetCommitting =>
          exact (congrFun (committed_tryReset hphase hreset) ()).trans hmarker
      | idle | finished outcome | resetFinished result | dead => exact hmarker

end Kept

theorem Inv.committed_exec {marker : OnceCompletion} {later : List Event} (h : Inv completion s)
    (hmeets : Meets (fun event s => ¬ResetCommits event s) (step completion) later s)
    (hmarker : s.markers.committed () = some marker) :
    (exec (step completion) later s).markers.committed () = some marker := by
  induction later generalizing s with
  | nil => exact hmarker
  | cons event later ih =>
      exact ih (inv_step event h) hmeets.2 (h.committed_step hmeets.1 hmarker)

/-- Of the runs since a reset at most one records a completion, and with it the effects of
an atomic task; the completion stays until a reset, and no other run reports that it has
run the task. -/
theorem at_most_once (completion : Nat → OnceCompletion) (events later : List Event) :
    let s := exec (step completion) events start
    (s.completions.map Prod.fst).Nodup ∧ (s.effects.map Prod.fst).Nodup ∧
      (∀ marker, s.markers.committed () = some marker →
        (∃ p ∈ s.completions, marker = completion p.2) ∧
          (Meets (fun event s => ¬ResetCommits event s) (step completion) later s →
            (exec (step completion) later s).markers.committed () = some marker)) ∧
      ∀ run outcome, s.phase run = .finished outcome → ReportsRan outcome →
        ∃ since, (since, run) ∈ s.completions ∧ ∀ other, (since, other) ∈ s.completions →
          other = run := by
  intro s
  have h : Inv completion s := inv_exec events
  refine ⟨h.distinct, (h.effects.map Prod.fst).nodup h.distinct, ?_, ?_⟩
  · intro marker hmarker
    exact ⟨h.present marker hmarker, fun hmeets => h.committed_exec hmeets hmarker⟩
  · intro run outcome hphase hran
    obtain ⟨since, hmem⟩ := h.ran run (hphase ▸ hran)
    refine ⟨since, hmem, fun other hother => ?_⟩
    have hsame := List.inj_on_of_nodup_map h.distinct hother hmem rfl
    exact congrArg Prod.snd hsame

section AlreadyRunning

def refusedWhileRunning : List Event :=
  [.begins 0 .plain false, .proceeds 0 .yes, .proceeds 0 .yes, .begins 1 .plain false, .proceeds 1 .yes,
    .proceeds 1 .no, .proceeds 1 .yes] ++ List.replicate 8 (.proceeds 0 .yes)

def firstCompletion (_ : Nat) : OnceCompletion := ⟨0, "holder", 1⟩

/-- The runner that has not been refused completes. -/
theorem at_most_once_refused :
    ∃ since, (since, 0) ∈ (exec (step firstCompletion) refusedWhileRunning start).completions ∧
    ∀ other, (since, other) ∈
      (exec (step firstCompletion) refusedWhileRunning start).completions → other = 0 :=
  (at_most_once firstCompletion refusedWhileRunning []).2.2.2 0 .ran rfl trivial

/-- A completion that was there already, or the leadership that has been lost. -/
def ReportsCompletedOrLost : Outcome → Prop
  | .alreadyDone _ => True
  | .fleet source | .taskSucceededButCompletionFailed source | .transactionAndRelease source _
  | .taskSucceededButCompletionAndReleaseFailed source _ | .release source => source ≠ .database
  | _ => False

/-- A runner whose claim is refused while another runs the task reports neither. -/
theorem refused_reports_alreadyRunning :
    let s := exec (step firstCompletion) refusedWhileRunning start
    s.completions = [(0, 0)] ∧ s.phase 1 = .finished .alreadyRunning ∧
      ¬ReportsCompletedOrLost .alreadyRunning :=
  ⟨rfl, rfl, id⟩

end AlreadyRunning

end Paranoid.OnceMarker

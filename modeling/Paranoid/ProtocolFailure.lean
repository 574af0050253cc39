import Paranoid.ErrorModel
import Paranoid.TreeSearch

namespace Paranoid.ProtocolFailure

open ErrorModel TreeSearch

/-- The derived `source` of an error. -/
def source (error : AnyError) : Option AnyError :=
  match _h : (fields error.2).link with
  | .none => none
  | .source keptError => some keptError
  | .transparent keptError => source keptError
termination_by sizeOf error.2
decreasing_by
  apply sizeOf_kept_lt
  simp [kept, Link.errors, *]

def unbox {t : ErrorType} : ErrorValue (.boxed t) → ErrorValue t
  | .boxed error => error

/-- The errors that the combined queue errors are searched for. -/
def queueFailures : AnyError → List AnyError
  | ⟨_, .queueWorkerRuntimeMultipleFailures failures⟩ => failures.map fun failure => ⟨_, failure⟩
  | ⟨_, .queueWorkerHeartbeatFailureAndJobFinalizationFailed heartbeatError finalizationError⟩ =>
      [⟨_, unbox heartbeatError⟩, ⟨_, unbox finalizationError⟩]
  | ⟨_, .queueWorkerJobPersistenceFailureAndRequeueFailed persistenceError requeueError⟩ =>
      [⟨_, unbox persistenceError⟩, ⟨_, unbox requeueError⟩]
  | ⟨_, .queueWorkerRuntimeFailureAndClaimedJobCleanupFailed workerError cleanupError⟩ =>
      [⟨_, unbox workerError⟩, ⟨_, unbox cleanupError⟩]
  | _ => []

theorem kept_boxed {t : ErrorType} (error : ErrorValue (.boxed t)) :
    kept ⟨_, error⟩ = [⟨_, unbox error⟩] := by
  cases error
  rfl

/-- These errors are kept, some of them in boxes. -/
theorem mem_queueFailures {error failure : AnyError} (h : failure ∈ queueFailures error) :
    failure ∈ kept error ∨ ∃ box ∈ kept error, kept box = [failure] := by
  unfold queueFailures at h
  split at h
  case h_1 => exact .inl h
  case h_5 => cases h
  all_goals
    right
    rcases List.mem_pair.1 h with rfl | rfl
    · exact ⟨_, List.mem_cons_self, kept_boxed _⟩
    · exact ⟨_, List.mem_cons_of_mem _ List.mem_cons_self, kept_boxed _⟩

theorem sizeOf_queueFailures_lt (error : AnyError) :
    ∀ failure ∈ queueFailures error, sizeOf failure.2 < sizeOf error.2 := by
  intro failure h
  rcases mem_queueFailures h with h | ⟨box, hbox, h⟩
  · exact sizeOf_kept_lt error failure h
  · have hfailure := sizeOf_kept_lt box failure (by rw [h]; exact List.mem_cons_self)
    exact Nat.lt_trans hfailure (sizeOf_kept_lt error box hbox)

theorem sizeOf_source_lt {error sourceError : AnyError} (h : source error = some sourceError) :
    sizeOf sourceError.2 < sizeOf error.2 := by
  fun_induction source error with
  | case1 => cases h
  | case2 error keptError hlink =>
      cases h
      exact sizeOf_kept_lt error _ (by simp [kept, Link.errors, hlink])
  | case3 error keptError hlink ih =>
      exact Nat.lt_trans (ih h) (sizeOf_kept_lt error keptError (by simp [kept, Link.errors, hlink]))

mutual

/-- An error that is not a protocol error itself is searched, then its source. -/
def containsProtocolFailure (error : AnyError) : Bool :=
  error.1 = .protocol || containsQueueProtocolFailure error ||
    match _h : source error with
    | some sourceError => containsProtocolFailure sourceError
    | none => false
termination_by (sizeOf error.2, 1)
decreasing_by
  · exact Prod.Lex.right _ (by decide)
  · exact Prod.Lex.left _ _ (sizeOf_source_lt _h)

/-- Only a combined queue error has something to search. -/
def containsQueueProtocolFailure (error : AnyError) : Bool :=
  (queueFailures error).attach.any fun failure => containsProtocolFailure failure.1
termination_by (sizeOf error.2, 0)
decreasing_by exact Prod.Lex.left _ _ (sizeOf_queueFailures_lt error _ failure.2)

end

/-- What the search goes on with. -/
def searched (error : AnyError) : List AnyError := queueFailures error ++ (source error).toList

theorem sizeOf_searched_lt (error : AnyError) :
    ∀ next ∈ searched error, sizeOf next.2 < sizeOf error.2 := by
  intro next h
  rcases List.mem_append.1 h with h | h
  · exact sizeOf_queueFailures_lt error next h
  · exact sizeOf_source_lt (Option.mem_toList.1 h)

theorem containsProtocolFailure_searched (error : AnyError) : containsProtocolFailure error =
    (decide (error.1 = .protocol) || (searched error).any containsProtocolFailure) := by
  have hqueue : containsQueueProtocolFailure error =
    (queueFailures error).any containsProtocolFailure := by
    rw [containsQueueProtocolFailure]
    simp
  rw [containsProtocolFailure, hqueue, searched, List.any_append, Bool.or_assoc]
  split
  · rename_i sourceError hsource
    simp [hsource]
  · rename_i hsource
    simp [hsource]

theorem containsProtocolFailure_iff (error : AnyError) :
    containsProtocolFailure error = true ↔
      ∃ found, Reaches searched error found ∧ found.1 = .protocol := by
  rw [search_iff sizeOf_searched_lt containsProtocolFailure_searched]
  simp only [decide_eq_true_eq]

/-- Somewhere in the fields of an error there is a protocol error. -/
def KeepsProtocolError (error : AnyError) : Prop :=
  ∃ found, Reaches kept error found ∧ found.1 = .protocol

theorem KeepsProtocolError.of_kept {error keptError : AnyError}
    (h : KeepsProtocolError keptError) (hkept : keptError ∈ kept error) :
    KeepsProtocolError error := by
  obtain ⟨found, hreaches, hprotocol⟩ := h
  exact ⟨found, .head hkept hreaches, hprotocol⟩

theorem keepsProtocolError_iff {error : AnyError} :
    KeepsProtocolError error ↔
      error.1 = .protocol ∨ ∃ keptError ∈ kept error, KeepsProtocolError keptError := by
  constructor
  · rintro ⟨found, hreaches, hprotocol⟩
    rcases reaches_iff.1 hreaches with rfl | ⟨keptError, hkept, hrest⟩
    · exact .inl hprotocol
    · exact .inr ⟨keptError, hkept, found, hrest, hprotocol⟩
  · rintro (hprotocol | ⟨keptError, hkept, h⟩)
    · exact ⟨error, .refl error, hprotocol⟩
    · exact h.of_kept hkept

/-- The errors that a transparent variant or a box hides from the search, which only sees
their source. -/
def passedOver (error : AnyError) : List AnyError :=
  match _h : (fields error.2).link with
  | .none => []
  | .source _ => []
  | .transparent keptError => keptError :: passedOver keptError
termination_by sizeOf error.2
decreasing_by
  apply sizeOf_kept_lt
  simp [kept, Link.errors, *]

/-- What an error that the search comes by keeps, and the search does not come by: the
fields beside the source, those of the combined queue errors excepted, and the errors that
are passed over, with their fields beside the source. -/
def overlooked (error : AnyError) : List AnyError :=
  (if queueFailures error = [] then (fields error.2).others else []) ++
    ((passedOver error).flatMap (fun passed => (fields passed.2).others) ++
      (passedOver error).filter fun passed => passed.1 = .protocol)

section Walks

variable {error keptError : AnyError}

theorem others_subset_kept : (fields error.2).others ⊆ kept error := List.subset_append_right _ _

theorem link_mem_kept (h : keptError ∈ (fields error.2).link.errors) : keptError ∈ kept error :=
  List.mem_append_left _ h

theorem keeps_of_source {sourceError : AnyError}
    (h : source error = some sourceError) (hkeeps : KeepsProtocolError sourceError) :
    KeepsProtocolError error := by
  fun_induction source error with
  | case1 => cases h
  | case2 error keptError hlink =>
      cases h
      exact hkeeps.of_kept (link_mem_kept (by simp [Link.errors, hlink]))
  | case3 error keptError hlink ih =>
      exact (ih h).of_kept (link_mem_kept (by simp [Link.errors, hlink]))

theorem keeps_of_passedOver {passed : AnyError}
    (h : passed ∈ passedOver error) (hkeeps : KeepsProtocolError passed) :
    KeepsProtocolError error := by
  fun_induction passedOver error with
  | case1 => cases h
  | case2 => cases h
  | case3 error keptError hlink ih =>
      refine KeepsProtocolError.of_kept ?_
        (link_mem_kept (by simp [Link.errors, hlink] : keptError ∈ _))
      rcases List.mem_cons.1 h with rfl | h
      · exact hkeeps
      · exact ih h

theorem keeps_of_searched {next : AnyError}
    (h : next ∈ searched error) (hkeeps : KeepsProtocolError next) :
    KeepsProtocolError error := by
  rcases List.mem_append.1 h with h | h
  · rcases mem_queueFailures h with h | ⟨box, hbox, h⟩
    · exact hkeeps.of_kept h
    · exact (hkeeps.of_kept (by rw [h]; exact List.mem_cons_self)).of_kept hbox
  · exact keeps_of_source (Option.mem_toList.1 h) hkeeps

theorem keeps_of_overlooked {missed : AnyError}
    (h : missed ∈ overlooked error) (hkeeps : KeepsProtocolError missed) :
    KeepsProtocolError error := by
  unfold overlooked at h
  rcases List.mem_append.1 h with h | h
  · split at h
    · exact hkeeps.of_kept (others_subset_kept h)
    · cases h
  rcases List.mem_append.1 h with h | h
  · obtain ⟨passed, hpassed, h⟩ := List.mem_flatMap.1 h
    exact keeps_of_passedOver hpassed (hkeeps.of_kept (others_subset_kept h))
  · exact keeps_of_passedOver (List.mem_of_mem_filter h) hkeeps

theorem keeps_of_reaches {found : AnyError}
    (h : Reaches searched error found) (hkeeps : KeepsProtocolError found) :
    KeepsProtocolError error := by
  induction error using descend sizeOf_searched_lt with
  | h error ih =>
      rcases reaches_iff.1 h with rfl | ⟨next, hnext, hrest⟩
      · exact hkeeps
      · exact keeps_of_searched hnext (ih next hnext hrest)

/-- A protocol error is kept by an error itself or by one that is passed over, or by the
source that the search goes on with. -/
theorem keeps_cases (h : KeepsProtocolError error) :
    (∃ passed ∈ error :: passedOver error,
      passed.1 = .protocol ∨ ∃ missed ∈ (fields passed.2).others, KeepsProtocolError missed) ∨
      ∃ sourceError, source error = some sourceError ∧ KeepsProtocolError sourceError := by
  fun_induction source error with
  | case1 error hlink =>
      left
      refine ⟨error, List.mem_cons_self, (keepsProtocolError_iff.1 h).imp_right ?_⟩
      rintro ⟨keptError, hkept, hkeeps⟩
      rw [kept, hlink] at hkept
      exact ⟨keptError, hkept, hkeeps⟩
  | case2 error sourceError hlink =>
      rcases keepsProtocolError_iff.1 h with hprotocol | ⟨keptError, hkept, hkeeps⟩
      · exact .inl ⟨error, List.mem_cons_self, .inl hprotocol⟩
      · rw [kept, hlink] at hkept
        rcases List.mem_cons.1 hkept with rfl | hother
        · exact .inr ⟨_, rfl, hkeeps⟩
        · exact .inl ⟨error, List.mem_cons_self, .inr ⟨keptError, hother, hkeeps⟩⟩
  | case3 error passed hlink ih =>
      have hpassedOver : passedOver error = passed :: passedOver passed := by
        rw [passedOver]
        split <;> simp_all
      rcases keepsProtocolError_iff.1 h with hprotocol | ⟨keptError, hkept, hkeeps⟩
      · exact .inl ⟨error, List.mem_cons_self, .inl hprotocol⟩
      · rw [kept, hlink] at hkept
        rcases List.mem_cons.1 hkept with rfl | hother
        · rcases ih hkeeps with ⟨other, hother, hcases⟩ | hsource
          · exact .inl ⟨other, List.mem_cons_of_mem _ (hpassedOver ▸ hother), hcases⟩
          · exact .inr hsource
        · exact .inl ⟨error, List.mem_cons_self, .inr ⟨keptError, hother, hkeeps⟩⟩

/-- A field of a combined queue error is searched. -/
theorem keeps_queueFailures (hfailures : queueFailures error ≠ [])
    (h : keptError ∈ (fields error.2).others)
    (hkeeps : KeepsProtocolError keptError) :
    ∃ failure ∈ queueFailures error, KeepsProtocolError failure := by
  have hunbox {t : ErrorType} (box : ErrorValue (.boxed t)) (hbox : KeepsProtocolError ⟨_, box⟩) :
      KeepsProtocolError ⟨_, unbox box⟩ := by
    rcases keepsProtocolError_iff.1 hbox with hprotocol | ⟨inner, hinner, hkeepsInner⟩
    · cases hprotocol
    · rw [kept_boxed, List.mem_singleton] at hinner
      rwa [← hinner]
  unfold queueFailures at hfailures ⊢
  split at hfailures
  case h_1 => exact ⟨keptError, h, hkeeps⟩
  case h_5 => exact absurd rfl hfailures
  all_goals
    rcases List.mem_pair.1 h with rfl | rfl
    · exact ⟨_, List.mem_cons_self, hunbox _ hkeeps⟩
    · exact ⟨_, List.mem_cons_of_mem _ List.mem_cons_self, hunbox _ hkeeps⟩

/-- A protocol error that is kept anywhere is come by in the search, or in what it overlooks. -/
theorem searched_or_overlooked (h : KeepsProtocolError error) :
    (∃ found, Reaches searched error found ∧ found.1 = .protocol) ∨
      ∃ visited, Reaches searched error visited ∧
        ∃ missed ∈ overlooked visited, KeepsProtocolError missed := by
  induction error using descend sizeOf_searched_lt with
  | h error ih =>
      have hnext (next : AnyError) (hsearched : next ∈ searched error)
        (hkeeps : KeepsProtocolError next) :
          (∃ found, Reaches searched error found ∧ found.1 = .protocol) ∨
            ∃ visited, Reaches searched error visited ∧
              ∃ missed ∈ overlooked visited, KeepsProtocolError missed := by
        refine (ih next hsearched hkeeps).imp ?_ ?_
        · rintro ⟨found, hreaches, hprotocol⟩
          exact ⟨found, .head hsearched hreaches, hprotocol⟩
        · rintro ⟨visited, hreaches, hmissed⟩
          exact ⟨visited, .head hsearched hreaches, hmissed⟩
      rcases keeps_cases h with ⟨passed, hpassed, hcases⟩ | ⟨sourceError, hsource, hkeeps⟩
      · rcases List.mem_cons.1 hpassed with rfl | hpassed
        · rcases hcases with hprotocol | ⟨missed, hmissed, hkeeps⟩
          · exact .inl ⟨passed, .refl passed, hprotocol⟩
          · by_cases hfailures : queueFailures passed = []
            · refine .inr ⟨passed, .refl passed, missed, List.mem_append_left _ ?_, hkeeps⟩
              rwa [if_pos hfailures]
            · obtain ⟨failure, hfailure, hkeepsFailure⟩ := keeps_queueFailures hfailures hmissed hkeeps
              exact hnext failure (List.mem_append_left _ hfailure) hkeepsFailure
        · refine .inr ⟨error, .refl error, ?_⟩
          rcases hcases with hprotocol | ⟨missed, hmissed, hkeeps⟩
          · refine ⟨passed, List.mem_append_right _ (List.mem_append_right _ ?_),
              passed, .refl passed, hprotocol⟩
            exact List.mem_filter.2 ⟨hpassed, decide_eq_true hprotocol⟩
          · refine ⟨missed, List.mem_append_right _ (List.mem_append_left _ ?_), hkeeps⟩
            exact List.mem_flatMap.2 ⟨passed, hpassed, hmissed⟩
      · exact hnext sourceError (List.mem_append_right _ (Option.mem_toList.2 hsource)) hkeeps

end Walks

/-- Where what is overlooked keeps a protocol error, the search comes by another one. -/
def ShownIfOverlooked (error : AnyError) : Prop :=
  (∃ visited, Reaches searched error visited ∧ ∃ missed ∈ overlooked visited,
    KeepsProtocolError missed) →
    ∃ found, Reaches searched error found ∧ found.1 = .protocol

/-- The search reports a protocol error exactly when one is kept, if and only if what it
overlooks keeps none that it does not come by otherwise. -/
theorem contains_protocol_failure_exact_iff (error : AnyError) :
    (containsProtocolFailure error = true ↔ KeepsProtocolError error) ↔ ShownIfOverlooked error := by
  have hsound : containsProtocolFailure error = true → KeepsProtocolError error := by
    intro h
    obtain ⟨found, hreaches, hprotocol⟩ := (containsProtocolFailure_iff error).1 h
    exact keeps_of_reaches hreaches ⟨found, .refl found, hprotocol⟩
  constructor
  · rintro hexact ⟨visited, hreaches, missed, hmissed, hkeeps⟩
    have hkept := keeps_of_reaches hreaches (keeps_of_overlooked hmissed hkeeps)
    exact (containsProtocolFailure_iff error).1 (hexact.2 hkept)
  · intro hshown
    refine ⟨hsound, fun h => (containsProtocolFailure_iff error).2 ?_⟩
    rcases searched_or_overlooked h with hfound | hoverlooked
    · exact hfound
    · exact hshown hoverlooked

def epochUnsupported : ErrorValue .protocol := .incompatible 2 1 "unsupported epoch"

def releaseRejected : ErrorValue .fleet :=
  .fleetCoordination (.coordinationDatabase (.dbProtocol epochUnsupported))

/-- A guard whose heartbeat task failed and whose release the protocol rejected. -/
def guardStopAndReleaseFailed : AnyError :=
  ⟨.fleet, .fleetMutexGuardStopAndReleaseFailed
    (.boxed (.fleetFailure .mutexHeartbeatTaskFailed .other)) (.boxed releaseRejected)⟩

theorem rejected_release_is_overlooked :
    ¬ (containsProtocolFailure guardStopAndReleaseFailed = true ↔
      KeepsProtocolError guardStopAndReleaseFailed) := by
  intro h
  have hprotocol : KeepsProtocolError ⟨_, epochUnsupported⟩ := keepsProtocolError_iff.2 (.inl rfl)
  have hdatabase : KeepsProtocolError ⟨_, .dbProtocol epochUnsupported⟩ :=
    hprotocol.of_kept List.mem_cons_self
  have hcoordination : KeepsProtocolError ⟨_, .coordinationDatabase (.dbProtocol epochUnsupported)⟩ :=
    hdatabase.of_kept List.mem_cons_self
  have hrelease : KeepsProtocolError ⟨_, releaseRejected⟩ := hcoordination.of_kept List.mem_cons_self
  have hboxed : KeepsProtocolError ⟨_, .boxed releaseRejected⟩ := hrelease.of_kept List.mem_cons_self
  have hguard : KeepsProtocolError guardStopAndReleaseFailed :=
    hboxed.of_kept (List.mem_cons_of_mem _ List.mem_cons_self)
  have hsource : source guardStopAndReleaseFailed = none := by
    rw [source]
    rfl
  have hsearched : searched guardStopAndReleaseFailed = [] := by
    rw [searched, hsource]
    rfl
  have hfound := h.2 hguard
  rw [containsProtocolFailure_searched, hsearched] at hfound
  exact absurd hfound (by decide)

end Paranoid.ProtocolFailure

import Paranoid.LeaseRuns

namespace Paranoid.LeaseAuthority

open Function LeaseModel LeaseStatements LeaseRuns Transitions

/-- The claim would be honoured by a renewal or a release, at some timestamp. -/
def Succeeds (claim : Claim) (t : Tables) : Prop :=
  (∃ now nextLeaseToken duration renewed,
    (Store.tryRenewLease now claim nextLeaseToken duration t).2 = .ok (some renewed)) ∨
  ∃ now, (Store.releaseLease now claim t).2 = .ok true

/-- Same key and same (holder, fencing token, lease token) triple. -/
def SameAuthority (c d : Claim) : Prop :=
  c.key = d.key ∧ c.holderId = d.holderId ∧
    c.fencingToken = d.fencingToken ∧ c.leaseToken = d.leaseToken

/-- The claim that a renewal or a release presents. -/
def presented : Operation → Option Claim
  | .claim _ _ _ _ _ => none
  | .renew claim _ _ => some claim
  | .release claim => some claim

def Succeeded (out : Output) : Prop :=
  (∃ c, out = .claimed (.ok (some c))) ∨
  (∃ c, out = .renewed (.ok (some c))) ∨ out = .released (.ok true)

def outputAfter (earlier : List Input) (i : Input) : Output :=
  (step i (exec step earlier Tables.empty)).2

def Issues (claim : Claim) (out : Output) : Prop :=
  out = .claimed (.ok (some claim)) ∨ out = .renewed (.ok (some claim))

/-- A successful operation that supersedes, rotates or releases the claim: a
claim of its key, or a renewal or release that presents it. -/
def Ends (claim : Claim) (i : Input) (out : Output) : Prop :=
  Succeeded out ∧ i.operation.key = claim.key ∧ ∀ c, presented i.operation = some c →
    SameAuthority c claim

def NotCarried (key : Key) (leaseToken : Token) (t : Tables) : Prop :=
  ∀ row, t.leases key = some row → row.leaseToken ≠ leaseToken

variable {t t' : Tables} {key other : Key} {drawn : Option Token} {out : Output} {claim : Claim}
  {leaseToken : Token}

theorem authorised_of_succeeds (h : Succeeds claim t) :
    ∃ row, t.leases claim.key = some row ∧ row.holderId = claim.holderId ∧
      row.fencingToken = claim.fencingToken ∧ row.leaseToken = claim.leaseToken := by
  rcases h with ⟨now, next, duration, renewed, h⟩ | ⟨now, h⟩
  · rcases tryRenewLease_cases now claim next duration t with ⟨r, hr, heq⟩ | ⟨row, hrow, hauth, -⟩
    · rw [heq] at h
      exact absurd h (hr renewed)
    · exact ⟨row, hrow, hauth.1, hauth.2.1, hauth.2.2.1⟩
  · rw [releaseLease_eq] at h
    cases ha : authorisedRow now claim t with
    | none => simp [ha] at h
    | some row =>
        obtain ⟨hrow, hauth⟩ := authorisedRow_eq_some.1 ha
        exact ⟨row, hrow, hauth.1, hauth.2.1, hauth.2.2.1⟩

/-- The row of a key carries one triple, and only that triple is honoured. -/
theorem succeeds_unique {c d : Claim} (hkey : c.key = d.key) (hc : Succeeds c t) (hd : Succeeds d t) :
    SameAuthority c d := by
  obtain ⟨row, hrow, hholder, hfencing, htoken⟩ := authorised_of_succeeds hc
  obtain ⟨row', hrow', hholder', hfencing', htoken'⟩ := authorised_of_succeeds hd
  rw [hkey, hrow'] at hrow
  cases hrow
  exact ⟨hkey, hholder.symm.trans hholder', hfencing.symm.trans hfencing', htoken.symm.trans htoken'⟩

theorem issues_drawn (h : Effect t key drawn t' out) (hi : Issues claim out) :
    drawn = some claim.leaseToken := by
  cases h with
  | refused hc hr => exact (hi.elim (hc claim) (hr claim)).elim
  | bumped => simp [Issues] at hi
  | claimed =>
      rcases hi with h | h
      all_goals cases h
      rfl
  | renewed =>
      rcases hi with h | h
      all_goals cases h
      rfl
  | released => simp [Issues] at hi

/-- A successful operation leaves its key without a row or with a row that
carries the token it drew. -/
theorem notCarried_of_succeeded (h : Effect t key drawn t' out) (hs : Succeeded out)
    (hfresh : drawn ≠ some leaseToken) : NotCarried key leaseToken t' := by
  intro row' hrow' heq
  cases h with
  | refused hc hr hd =>
      rcases hs with ⟨c, h⟩ | ⟨c, h⟩ | h
      · exact hc c h
      · exact hr c h
      · exact hd h
  | bumped => simp [Succeeded] at hs
  | claimed =>
      simp only [Tables.putLease, update_self, Option.some.injEq] at hrow'
      exact hfresh (by rw [← heq, ← hrow'])
  | renewed =>
      simp only [Tables.putLease, update_self, Option.some.injEq] at hrow'
      exact hfresh (by rw [← heq, ← hrow'])
  | released => simp [Tables.deleteLease] at hrow'

theorem notCarried_effect (h : Effect t other drawn t' out) (hfresh : drawn ≠ some leaseToken)
    (hn : NotCarried key leaseToken t) : NotCarried key leaseToken t' := by
  by_cases hk : key = other
  · subst hk
    cases h with
    | refused => exact hn
    | bumped => exact hn
    | claimed above => exact notCarried_of_succeeded (.claimed above) (.inl ⟨_, rfl⟩) hfresh
    | renewed held => exact notCarried_of_succeeded (.renewed held) (.inr (.inl ⟨_, rfl⟩)) hfresh
    | released held => exact notCarried_of_succeeded (.released held) (.inr (.inr rfl)) hfresh
  · intro row hrow
    refine hn row ?_
    cases h <;> simpa [Tables.putLease, Tables.putCounter, Tables.deleteLease, hk] using hrow

theorem notCarried_exec {inputs : List Input} (hfresh : ∀ i ∈ inputs, i.drawnToken ≠ some leaseToken)
    (hn : NotCarried key leaseToken t) : NotCarried key leaseToken (exec step inputs t) :=
  exec_preserves (fun i t hg => notCarried_effect (step_effect i t) hg) (meets_of_forall hfresh t) hn

theorem authorisedRow_of_notCarried {c : Claim} {now : Int} (hc : SameAuthority c claim)
    (hn : NotCarried claim.key claim.leaseToken t) : authorisedRow now c t = none := by
  rw [Option.eq_none_iff_forall_not_mem]
  intro row hrow
  obtain ⟨hrow, hauth⟩ := authorisedRow_eq_some.1 hrow
  rw [hc.1] at hrow
  exact hn row hrow (hauth.2.2.1.trans hc.2.2.2)

theorem step_of_notCarried {i : Input} {c : Claim} (hi : presented i.operation = some c)
    (hc : SameAuthority c claim) (hn : NotCarried claim.key claim.leaseToken t) :
    (step i t).1 = t ∧ ¬Succeeded (step i t).2 := by
  obtain ⟨now, op⟩ := i
  cases op with
  | claim => simp [presented] at hi
  | renew d next duration =>
      cases hi
      simp [step, tryRenewLease_of_not_authorised (authorisedRow_of_notCarried hc hn), Succeeded]
  | release d =>
      cases hi
      simp [step, releaseLease_eq, authorisedRow_of_notCarried hc hn, Succeeded]

theorem drawn_once {earlier later : List Input} {i : Input} {token : Token}
    (hfresh : ((earlier ++ i :: later).filterMap Input.drawnToken).Nodup)
    (hi : i.drawnToken = some token) :
    ∀ j ∈ later, j.drawnToken ≠ some token := by
  intro j hj hdrawn
  rw [List.filterMap_append, List.filterMap_cons, hi] at hfresh
  exact (List.nodup_cons.1 (List.nodup_append.1 hfresh).2.1).1 (List.mem_filterMap.2 ⟨j, hj, hdrawn⟩)

theorem claim_finds_expired {i : Input} (h : (step i t).2 = .claimed (.ok (some claim))) :
    ∀ row, t.leases claim.key = some row → row.expiresAt ≤ i.now := by
  obtain ⟨now, op⟩ := i
  cases op with
  | claim key holderId leaseToken duration rowVisible =>
      rcases tryClaimLease_cases now rowVisible key holderId leaseToken duration t with
        ⟨r, hr, heq⟩ | ⟨token, -, heq | ⟨hfree, expiresAt, heq⟩⟩
      all_goals simp only [step, heq, Prod.map_apply, Output.claimed.injEq, Except.ok.injEq] at h
      · exact absurd h (hr claim)
      · cases h
      · rw [← Option.some.inj h]
        exact hfree
  | renew => simp [step] at h
  | release => simp [step] at h

/-- At most one triple per key is honoured; once a claim has ended, an operation
that presents its triple neither succeeds nor changes the tables; and a claim
succeeds only over leases that have expired by its own timestamp. -/
theorem lease_authority_unique (inputs : List Input)
    (hfresh : (inputs.filterMap Input.drawnToken).Nodup) :
    (∀ c d, c.key = d.key → Succeeds c (exec step inputs Tables.empty) →
      Succeeds d (exec step inputs Tables.empty) → SameAuthority c d) ∧
    (∀ earlier issue middle ending after late rest claim c,
      inputs = earlier ++ issue :: (middle ++ ending :: (after ++ late :: rest)) →
      Issues claim (outputAfter earlier issue) →
      Ends claim ending (outputAfter (earlier ++ issue :: middle) ending) →
      presented late.operation = some c → SameAuthority c claim →
      ¬Succeeded (outputAfter (earlier ++ issue :: (middle ++ ending :: after)) late) ∧
        exec step (earlier ++ issue :: (middle ++ ending :: (after ++ [late]))) Tables.empty =
          exec step (earlier ++ issue :: (middle ++ ending :: after)) Tables.empty) ∧
    ∀ earlier i later claim, inputs = earlier ++ i :: later →
      outputAfter earlier i = .claimed (.ok (some claim)) →
      ∀ row, (exec step earlier Tables.empty).leases claim.key = some row → row.expiresAt ≤ i.now := by
  refine ⟨fun c d => succeeds_unique, ?_, fun earlier i later claim _ h => claim_finds_expired h⟩
  rintro earlier issue middle ending after late rest claim c rfl hissue ⟨hsucc, hkey, -⟩ hlate hc
  have hdrawn := issues_drawn (step_effect issue _) hissue
  have hlater := drawn_once hfresh hdrawn
  have hended : NotCarried claim.key claim.leaseToken
      (step ending (exec step (earlier ++ issue :: middle) Tables.empty)).1 :=
    hkey ▸ notCarried_of_succeeded (step_effect ending _) hsucc (hlater ending (by simp))
  have hafter := notCarried_exec (fun i (hi : i ∈ after) => hlater i (by simp [hi])) hended
  obtain ⟨hsame, hfails⟩ := step_of_notCarried hlate hc hafter
  have hexec : ∀ tail, exec step (earlier ++ issue :: (middle ++ ending :: tail)) Tables.empty =
      exec step tail (step ending (exec step (earlier ++ issue :: middle) Tables.empty)).1 := by
    intro tail
    simp [exec_append]
  refine ⟨?_, ?_⟩
  · rwa [outputAfter, hexec]
  · rw [hexec, hexec, exec_append]
    exact hsame

def jobKey : Key := ⟨"job::", by decide⟩

def holderA : HolderId := ⟨"a", by decide, by decide, by decide⟩

def holderB : HolderId := ⟨"b", by decide, by decide, by decide⟩

def tokenOf (byte : UInt8) : Token := ⟨List.replicate leaseTokenBytes byte, by simp⟩

def oneSecond : ClaimDuration := ⟨minLeaseDuration, le_rfl, by decide⟩

def firstClaim : Claim := ⟨jobKey, holderA, ⟨1, by decide⟩, tokenOf 1, 1000000⟩

def takeover : List Input :=
  [⟨0, .claim jobKey holderA (tokenOf 1) oneSecond true⟩,
    ⟨2000000, .claim jobKey holderB (tokenOf 2) oneSecond true⟩]

/-- The first owner is taken over after its second is up, and its release is late. -/
theorem lease_authority_unique_takeover :
    ¬Succeeded (outputAfter takeover ⟨2000001, .release firstClaim⟩) :=
  ((lease_authority_unique (takeover ++ [⟨2000001, .release firstClaim⟩])
    (by decide)).2.1 [] _ [] _ [] _ []
    firstClaim firstClaim rfl (.inl (by rfl)) ⟨.inl ⟨_, by rfl⟩, rfl, by simp [presented]⟩ rfl
    ⟨rfl, rfl, rfl, rfl⟩).1

end Paranoid.LeaseAuthority

import Paranoid.LeaseRuns

namespace Paranoid.LeaseFencing

open Function LeaseModel LeaseStatements LeaseRuns Transitions

/-- The durable fencing counter of a key, zero before its first claim. -/
def counter (key : Key) (t : Tables) : Int := (t.lastFencingToken key).elim 0 (·.value)

/-- The fencing token that an entry of the run handed out for a key. -/
def claimedToken (key : Key) : Input × Output → Option Int
  | (_, .claimed (.ok (some claim))) => if claim.key = key then some claim.fencingToken.value else none
  | _ => none

def Fenced (key : Key) (t : Tables) : Prop :=
  ∀ row, t.leases key = some row → row.fencingToken.value ≤ counter key t

@[simp] theorem counter_putLease (key other : Key) (row : LeaseRow) (t : Tables) :
    counter key (t.putLease other row) = counter key t := rfl

@[simp] theorem counter_deleteLease (key other : Key) (t : Tables) :
    counter key (t.deleteLease other) = counter key t := rfl

theorem counter_putCounter_self (key : Key) (token : FencingToken) (t : Tables) :
    counter key (t.putCounter key token) = token.value := by
  simp [counter, Tables.putCounter]

theorem counter_putCounter_of_ne {key other : Key} (hne : key ≠ other) (token : FencingToken)
    (t : Tables) : counter key (t.putCounter other token) = counter key t := by
  simp [counter, Tables.putCounter, hne]

theorem counter_lt_of_above {t : Tables} {key : Key} {token : FencingToken}
    (above : AboveCounter t key token) : counter key t < token.value := by
  have := token.positive
  cases hlast : t.lastFencingToken key with
  | none => simpa [counter, hlast] using this
  | some last => simpa [counter, hlast] using above last hlast

theorem counter_le_putCounter {t : Tables} {other : Key} {token : FencingToken}
    (above : AboveCounter t other token) (key : Key) :
    counter key t ≤ counter key (t.putCounter other token) := by
  by_cases hk : key = other
  · subst hk
    rw [counter_putCounter_self]
    exact (counter_lt_of_above above).le
  · rw [counter_putCounter_of_ne hk]

variable {t t' : Tables} {key other : Key} {drawn : Option Token} {out : Output}

theorem counter_le_effect (h : Effect t other drawn t' out) (key : Key) :
    counter key t ≤ counter key t' := by
  cases h with
  | refused => exact le_rfl
  | bumped above => exact counter_le_putCounter above key
  | claimed above => exact counter_le_putCounter above key
  | renewed => exact le_rfl
  | released => exact le_rfl

/-- Only its own key's rows are touched, and a row that stays or is rewritten
carries a fencing token that the counter has reached. -/
theorem fenced_effect (h : Effect t other drawn t' out) (hf : Fenced key t) : Fenced key t' := by
  have hmono := counter_le_effect h key
  intro row' hrow'
  by_cases hk : key = other
  · subst hk
    cases h with
    | refused => exact hf row' hrow'
    | bumped => exact (hf row' hrow').trans hmono
    | claimed above =>
        simp only [Tables.putLease, update_self, Option.some.injEq] at hrow'
        subst hrow'
        exact (counter_putCounter_self _ _ _).ge
    | @renewed row _ _ held =>
        simp only [Tables.putLease, update_self, Option.some.injEq] at hrow'
        subst hrow'
        exact hf row held
    | released => simp [Tables.deleteLease] at hrow'
  · refine (hf row' ?_).trans hmono
    cases h <;> simpa [Tables.putLease, Tables.putCounter, Tables.deleteLease, hk] using hrow'

theorem claimedToken_effect {i : Input} {n : Int} (h : Effect t other drawn t' out)
    (hn : claimedToken key (i, out) = some n) : counter key t < n ∧ n ≤ counter key t' := by
  cases h with
  | refused hc =>
      unfold claimedToken at hn
      split at hn
      · rename_i heq
        cases heq
        exact absurd rfl (hc _)
      · cases hn
  | bumped => simp [claimedToken] at hn
  | claimed above =>
      simp only [claimedToken] at hn
      split at hn
      · rename_i hk
        subst hk
        rw [← Option.some.inj hn]
        exact ⟨counter_lt_of_above above, (counter_putCounter_self _ _ _).ge⟩
      · cases hn
  | renewed => simp [claimedToken] at hn
  | released => simp [claimedToken] at hn

theorem counter_mono (key : Key) (earlier later : List Input) (t : Tables) :
    counter key (exec step earlier t) ≤ counter key (exec step (earlier ++ later) t) := by
  rw [exec_append]
  exact exec_mono (fun i t => counter_le_effect (step_effect i t) key) later _

theorem fenced_exec (key : Key) (inputs : List Input) : Fenced key (exec step inputs Tables.empty) :=
  exec_invariant (Fenced key) (fun i t => fenced_effect (step_effect i t))
    inputs (fun _ h => by cases h)

theorem claimedTokens_increase (key : Key) (inputs : List Input) :
    ((trace step inputs Tables.empty).filterMap (claimedToken key)).Pairwise (· < ·) :=
  (trace_stamps (fun _ => True) (fun _ _ _ => trivial)
    (fun i t _ => counter_le_effect (step_effect i t) key)
    (fun i t _ _ hn => claimedToken_effect (step_effect i t) hn) inputs trivial).1

theorem renewal_keeps_token {i : Input} {claim renewed : Claim} {nextLeaseToken : Token}
    {duration : ClaimDuration} (hi : i.operation = .renew claim nextLeaseToken duration)
    (hout : (step i t).2 = .renewed (.ok (some renewed))) :
    renewed.fencingToken = claim.fencingToken := by
  simp only [step, hi] at hout
  rcases tryRenewLease_cases i.now claim nextLeaseToken duration t with
    ⟨r, hr, h⟩ | ⟨row, -, hauth, expiresAt, h⟩
  · rw [h] at hout
    exact absurd (Output.renewed.inj hout) (hr renewed)
  · rw [h] at hout
    simp only [Prod.map_apply, Output.renewed.injEq, Except.ok.injEq, Option.some.injEq] at hout
    rw [← hout]
    exact hauth.2.1

/-- In every run, for every key: the counter never decreases, it bounds the
fencing token of the stored row, successful claims return increasing tokens,
and a renewal returns the token of the claim it renews. -/
theorem fencing_tokens_monotone (key : Key) (inputs : List Input) :
    (∀ earlier later, inputs = earlier ++ later →
      counter key (exec step earlier Tables.empty) ≤ counter key (exec step inputs Tables.empty)) ∧
    (∀ row, (exec step inputs Tables.empty).leases key = some row →
      row.fencingToken.value ≤ counter key (exec step inputs Tables.empty)) ∧
    ((trace step inputs Tables.empty).filterMap (claimedToken key)).Pairwise (· < ·) ∧
    ∀ earlier i later claim nextLeaseToken duration renewed, inputs = earlier ++ i :: later →
      i.operation = .renew claim nextLeaseToken duration →
      (step i (exec step earlier Tables.empty)).2 = .renewed (.ok (some renewed)) →
      renewed.fencingToken = claim.fencingToken := by
  refine ⟨?_, fenced_exec key inputs, claimedTokens_increase key inputs, ?_⟩
  · rintro earlier later rfl
    exact counter_mono key earlier later Tables.empty
  · intro earlier i later claim nextLeaseToken duration renewed _ hi hout
    exact renewal_keeps_token hi hout

end Paranoid.LeaseFencing

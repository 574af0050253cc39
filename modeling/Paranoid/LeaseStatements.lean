import Mathlib.Logic.Function.Basic
import Paranoid.LeaseModel

namespace Paranoid.LeaseStatements

open Function Postgres LeaseModel

structure LeaseRow where
  holderId : HolderId
  fencingToken : FencingToken
  leaseToken : Token
  expiresAt : Int
  deriving DecidableEq

/-- The lease table and the table of durable fencing counters, by primary key. -/
structure Tables where
  leases : Key → Option LeaseRow
  lastFencingToken : Key → Option FencingToken

def Tables.empty : Tables := ⟨fun _ => none, fun _ => none⟩

def Tables.putLease (t : Tables) (key : Key) (row : LeaseRow) : Tables :=
  { t with leases := update t.leases key (some row) }

def Tables.deleteLease (t : Tables) (key : Key) : Tables :=
  { t with leases := update t.leases key none }

def Tables.putCounter (t : Tables) (key : Key) (token : FencingToken) : Tables :=
  { t with lastFencingToken := update t.lastFencingToken key (some token) }

/-- What a `RETURNING` clause hands to the decoder. -/
structure Returned where
  holderId : String
  fencingToken : Int
  leaseToken : List UInt8
  expiresAtUnixMicroseconds : Int

def LeaseRow.returning (row : LeaseRow) : Except SqlError Returned := do
  return ⟨row.holderId.text, row.fencingToken.value,
    row.leaseToken.bytes, ← unixMicroseconds row.expiresAt⟩

/-- `CHECK (fencing_token > 0)` on a bigint that the statement computed. -/
def checkPositive (value : Int) : Except SqlError FencingToken :=
  if positive : 0 < value then return ⟨value, positive⟩ else throw .checkViolation

def nextFencingToken (counter : Option FencingToken) (proposed : FencingToken) :
    Except SqlError FencingToken := do
  match counter with
  | none => return proposed
  | some last => checkPositive (max (← int8 (last.value + 1)) proposed.value)

/-- The row that a renew or release statement addresses. -/
def Authorised (now : Int) (claim : Claim) (row : LeaseRow) : Prop :=
  row.holderId = claim.holderId ∧ row.fencingToken = claim.fencingToken ∧
    row.leaseToken = claim.leaseToken ∧ now < row.expiresAt

instance (now : Int) (claim : Claim) (row : LeaseRow) : Decidable (Authorised now claim row) :=
  inferInstanceAs (Decidable (_ ∧ _))

def authorisedRow (now : Int) (claim : Claim) (t : Tables) : Option LeaseRow :=
  (t.leases claim.key).filter (fun row => Authorised now claim row)

namespace Queries

/-- The claim statement at its place in row-lock order. `rowVisible` tells
whether the snapshot saw a row to lock: a row inserted after the snapshot
reaches the statement only through `ON CONFLICT`. -/
def claimLease (now : Int) (rowVisible : Bool) (key : Key) (holderId : HolderId) (leaseToken : Token)
    (microseconds : Int) (t : Tables) : Except SqlError (Tables × Option Returned) := do
  let existing := if rowVisible then t.leases key else none
  if existing.any (fun row => now < row.expiresAt) then return (t, none)
  let proposed ← checkPositive (← int8 (existing.elim 0 (·.fencingToken.value) + 1))
  let fencingToken ← nextFencingToken (t.lastFencingToken key) proposed
  let row : LeaseRow :=
    ⟨holderId, fencingToken, leaseToken, ← timestampPlusMicroseconds now microseconds⟩
  if (t.leases key).all (fun current => current.expiresAt ≤ now) then
    return ((t.putCounter key fencingToken).putLease key row, some (← row.returning))
  else return (t.putCounter key fencingToken, none)

def renewLease (now : Int) (claim : Claim) (nextLeaseToken : Token) (microseconds : Int) (t : Tables) :
    Except SqlError (Tables × Option Returned) := do
  match authorisedRow now claim t with
  | none => return (t, none)
  | some row =>
      let renewed : LeaseRow := { row with
        leaseToken := nextLeaseToken, expiresAt := ← timestampPlusMicroseconds now microseconds }
      return (t.putLease claim.key renewed, some (← renewed.returning))

/-- The tables left behind and the number of rows deleted. -/
def releaseLease (now : Int) (claim : Claim) (t : Tables) : Tables × Nat :=
  match authorisedRow now claim t with
  | none => (t, 0)
  | some _ => (t.deleteLease claim.key, 1)

def fetchLiveLeaseHolder (now : Int) (key : Key) (t : Tables) :
    Except SqlError (Option (String × Int × Int)) := do
  match (t.leases key).filter (fun row => now < row.expiresAt) with
  | none => return none
  | some row =>
      return some (row.holderId.text, row.fencingToken.value, ← unixMicroseconds row.expiresAt)

end Queries

/-- Decodes the row of a statement. A failure of either rolls the transaction back. -/
def decodeClaim (key : Key) (t : Tables) (ran : Except SqlError (Tables × Option Returned)) :
    Tables × Except CoordinationError (Option Claim) :=
  match ran with
  | .error e => (t, .error (.database e))
  | .ok (t', none) => (t', .ok none)
  | .ok (t', some r) =>
      match leaseClaimFromPersistedParts key r.holderId r.fencingToken r.leaseToken
        r.expiresAtUnixMicroseconds with
      | .error e => (t, .error e)
      | .ok claim => (t', .ok (some claim))

namespace Store

def tryClaimLease (now : Int) (rowVisible : Bool) (key : Key) (holderId : HolderId) (leaseToken : Token)
    (duration : ClaimDuration) (t : Tables) : Tables × Except CoordinationError (Option Claim) :=
  match duration.positiveMicroseconds with
  | .error e => (t, .error e)
  | .ok microseconds =>
      decodeClaim key t (Queries.claimLease now rowVisible key holderId leaseToken microseconds t)

def tryRenewLease (now : Int) (claim : Claim) (nextLeaseToken : Token) (duration : ClaimDuration)
    (t : Tables) : Tables × Except CoordinationError (Option Claim) :=
  match duration.positiveMicroseconds with
  | .error e => (t, .error e)
  | .ok microseconds =>
      decodeClaim claim.key t (Queries.renewLease now claim nextLeaseToken microseconds t)

def releaseLease (now : Int) (claim : Claim) (t : Tables) : Tables × Except CoordinationError Bool :=
  let (t', rowsUpdated) := Queries.releaseLease now claim t
  (t', .ok (rowsUpdated != 0))

def fetchLiveLeaseHolder (now : Int) (key : Key) (t : Tables) :
    Except CoordinationError (Option HolderSnapshot) :=
  match Queries.fetchLiveLeaseHolder now key t with
  | .error e => .error (.database e)
  | .ok none => .ok none
  | .ok (some (holderId, fencingToken, expiresAt)) =>
      some <$> leaseHolderSnapshotFromPersistedParts key holderId fencingToken expiresAt

end Store

theorem returning_eq_ok {row : LeaseRow} {r : Returned} (h : row.returning = .ok r) :
    r = ⟨row.holderId.text, row.fencingToken.value, row.leaseToken.bytes, row.expiresAt⟩ := by
  obtain ⟨micros, hm, hr⟩ := bind_eq_ok.1 h
  rw [int8_eq_ok hm] at hr
  exact (Except.ok.inj hr).symm

theorem checkPositive_eq_ok {value : Int} {token : FencingToken} (h : checkPositive value = .ok token) :
    token.value = value := by
  unfold checkPositive at h
  split at h
  · rw [← Except.ok.inj h]
  · cases h

/-- A counter value from which the next token of the key may follow. -/
def AboveCounter (t : Tables) (key : Key) (token : FencingToken) : Prop :=
  ∀ last, t.lastFencingToken key = some last → last.value < token.value

theorem nextFencingToken_above {t : Tables} {key : Key} {proposed token : FencingToken}
    (h : nextFencingToken (t.lastFencingToken key) proposed = .ok token) :
    AboveCounter t key token := by
  intro last hlast
  rw [hlast] at h
  obtain ⟨next, hnext, hcheck⟩ := bind_eq_ok.1 h
  rw [checkPositive_eq_ok hcheck, int8_eq_ok hnext]
  omega

/-- The decoder never refuses a row that was written under the schema's checks. -/
theorem decodeClaim_returning {key : Key} {t t' : Tables} {row : LeaseRow} {r : Returned}
    (h : row.returning = .ok r) :
    decodeClaim key t (.ok (t', some r)) =
      (t', .ok (some ⟨key, row.holderId, row.fencingToken, row.leaseToken, row.expiresAt⟩)) := by
  rw [returning_eq_ok h]
  simp [decodeClaim]

theorem claimLease_eq_ok {now microseconds : Int} {rowVisible : Bool} {key : Key} {holderId : HolderId}
    {leaseToken : Token} {t : Tables} {out : Tables × Option Returned}
    (h : Queries.claimLease now rowVisible key holderId leaseToken microseconds t = .ok out) :
    out = (t, none) ∨
    ∃ token, AboveCounter t key token ∧ (out = (t.putCounter key token, none) ∨
      (∀ row, t.leases key = some row → row.expiresAt ≤ now) ∧
        ∃ row : LeaseRow, row.holderId = holderId ∧ row.fencingToken = token ∧
          row.leaseToken = leaseToken ∧ ∃ r, row.returning = .ok r ∧
            out = ((t.putCounter key token).putLease key row, some r)) := by
  dsimp only [Queries.claimLease] at h
  generalize (if rowVisible then t.leases key else none) = existing at h
  split at h
  · exact .inl (Except.ok.inj h).symm
  · obtain ⟨_, _, h⟩ := bind_eq_ok.1 h
    obtain ⟨proposed, _, h⟩ := bind_eq_ok.1 h
    obtain ⟨token, htoken, h⟩ := bind_eq_ok.1 h
    obtain ⟨expiresAt, _, h⟩ := bind_eq_ok.1 h
    refine .inr ⟨token, nextFencingToken_above htoken, ?_⟩
    split at h
    · rename_i hfree
      obtain ⟨r, hr, h⟩ := bind_eq_ok.1 h
      refine .inr ⟨?_, _, rfl, rfl, rfl, r, hr, (Except.ok.inj h).symm⟩
      intro row hrow
      simpa [hrow] using hfree
    · exact .inl (Except.ok.inj h).symm

/-- What a claim can do: fail, find the key taken, lose the row to a concurrent
claim after having bumped the counter, or write a fresh row over an expired one. -/
theorem tryClaimLease_cases (now : Int) (rowVisible : Bool) (key : Key) (holderId : HolderId)
    (leaseToken : Token) (duration : ClaimDuration) (t : Tables) :
    (∃ r, (∀ claim, r ≠ .ok (some claim)) ∧
      Store.tryClaimLease now rowVisible key holderId leaseToken duration t = (t, r)) ∨
    ∃ token, AboveCounter t key token ∧
      (Store.tryClaimLease now rowVisible key holderId leaseToken duration t =
          (t.putCounter key token, .ok none) ∨
        (∀ row, t.leases key = some row → row.expiresAt ≤ now) ∧ ∃ expiresAt,
          Store.tryClaimLease now rowVisible key holderId leaseToken duration t =
            ((t.putCounter key token).putLease key ⟨holderId, token, leaseToken, expiresAt⟩,
              .ok (some ⟨key, holderId, token, leaseToken, expiresAt⟩))) := by
  simp only [Store.tryClaimLease, ClaimDuration.positiveMicroseconds_eq]
  cases hq : Queries.claimLease now rowVisible key holderId leaseToken
      (ceilMicroseconds duration.positiveDuration) t with
  | error e => exact .inl ⟨_, by simp, rfl⟩
  | ok out =>
      rcases claimLease_eq_ok hq with rfl |
        ⟨token, habove, rfl | ⟨hfree, row, rfl, rfl, rfl, r, hr, rfl⟩⟩
      · exact .inl ⟨_, by simp, rfl⟩
      · exact .inr ⟨token, habove, .inl rfl⟩
      · exact .inr ⟨row.fencingToken, habove, .inr ⟨hfree, row.expiresAt, decodeClaim_returning hr⟩⟩

theorem authorisedRow_eq_some {now : Int} {claim : Claim} {t : Tables} {row : LeaseRow} :
    authorisedRow now claim t = some row ↔
      t.leases claim.key = some row ∧ Authorised now claim row := by
  simp [authorisedRow, Option.filter_eq_some_iff]

theorem tryRenewLease_cases (now : Int) (claim : Claim) (nextLeaseToken : Token)
    (duration : ClaimDuration) (t : Tables) :
    (∃ r, (∀ renewed, r ≠ .ok (some renewed)) ∧
      Store.tryRenewLease now claim nextLeaseToken duration t = (t, r)) ∨
    ∃ row, t.leases claim.key = some row ∧ Authorised now claim row ∧ ∃ expiresAt,
      Store.tryRenewLease now claim nextLeaseToken duration t =
        (t.putLease claim.key { row with leaseToken := nextLeaseToken, expiresAt := expiresAt },
          .ok (some ⟨claim.key, row.holderId, row.fencingToken, nextLeaseToken, expiresAt⟩)) := by
  simp only [Store.tryRenewLease, ClaimDuration.positiveMicroseconds_eq, Queries.renewLease]
  cases ha : authorisedRow now claim t with
  | none => exact .inl ⟨_, by simp, rfl⟩
  | some row =>
      obtain ⟨hrow, hauth⟩ := authorisedRow_eq_some.1 ha
      cases ht : timestampPlusMicroseconds now (ceilMicroseconds duration.positiveDuration) with
      | error e => exact .inl ⟨_, by simp, rfl⟩
      | ok expiresAt =>
          cases hr : (LeaseRow.mk row.holderId row.fencingToken nextLeaseToken expiresAt).returning with
          | error e => exact .inl ⟨.error (.database e), by simp, by simp [hr, decodeClaim]⟩
          | ok r =>
              refine .inr ⟨row, hrow, hauth, expiresAt, ?_⟩
              simp [hr, decodeClaim_returning hr]

/-- A renewal that presents a triple the row no longer carries finds no row. -/
theorem tryRenewLease_of_not_authorised {now : Int} {claim : Claim} {nextLeaseToken : Token}
    {duration : ClaimDuration} {t : Tables} (h : authorisedRow now claim t = none) :
    Store.tryRenewLease now claim nextLeaseToken duration t = (t, .ok none) := by
  simp [Store.tryRenewLease, Queries.renewLease, h, decodeClaim]

theorem releaseLease_eq (now : Int) (claim : Claim) (t : Tables) :
    Store.releaseLease now claim t = if (authorisedRow now claim t).isSome then
      (t.deleteLease claim.key, .ok true) else (t, .ok false) := by
  cases ha : authorisedRow now claim t <;> simp [Store.releaseLease, Queries.releaseLease, ha]

end Paranoid.LeaseStatements

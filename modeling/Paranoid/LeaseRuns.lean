import Paranoid.LeaseStatements
import Paranoid.Transitions

namespace Paranoid.LeaseRuns

open Function LeaseModel LeaseStatements

inductive Operation
  | claim (key : Key) (holderId : HolderId) (leaseToken : Token) (duration : ClaimDuration)
      (rowVisible : Bool)
  | renew (claim : Claim) (nextLeaseToken : Token) (duration : ClaimDuration)
  | release (claim : Claim)

/-- One operation of some client, with the timestamp its statement was given
before it queued for its row locks. -/
structure Input where
  now : Int
  operation : Operation

inductive Output
  | claimed (result : Except CoordinationError (Option Claim))
  | renewed (result : Except CoordinationError (Option Claim))
  | released (result : Except CoordinationError Bool)

/-- The committed operations, in the order in which they held the rows of their
key. An operation whose transaction rolls back leaves no trace in the tables. -/
def step (i : Input) (t : Tables) : Tables × Output :=
  match i.operation with
  | .claim key holderId leaseToken duration rowVisible =>
      (Store.tryClaimLease i.now rowVisible key holderId leaseToken duration t).map id .claimed
  | .renew claim nextLeaseToken duration =>
      (Store.tryRenewLease i.now claim nextLeaseToken duration t).map id .renewed
  | .release claim => (Store.releaseLease i.now claim t).map id .released

def Operation.key : Operation → Key
  | .claim key _ _ _ _ => key
  | .renew presented _ _ => presented.key
  | .release presented => presented.key

/-- The random token that an operation draws for the row it may write. -/
def Input.drawnToken (i : Input) : Option Token :=
  match i.operation with
  | .claim _ _ leaseToken _ _ => some leaseToken
  | .renew _ nextLeaseToken _ => some nextLeaseToken
  | .release _ => none

/-- What one operation does to the two rows of its key. -/
inductive Effect (t : Tables) (key : Key) : Option Token → Tables → Output → Prop
  | refused {drawn out} (hc : ∀ c, out ≠ .claimed (.ok (some c))) (hr : ∀ c, out ≠ .renewed (.ok (some c)))
      (hd : out ≠ .released (.ok true)) : Effect t key drawn t out
  | bumped {drawn token} (above : AboveCounter t key token) :
      Effect t key drawn (t.putCounter key token) (.claimed (.ok none))
  | claimed {holderId token leaseToken expiresAt} (above : AboveCounter t key token) :
      Effect t key (some leaseToken)
        ((t.putCounter key token).putLease key ⟨holderId, token, leaseToken, expiresAt⟩)
        (.claimed (.ok (some ⟨key, holderId, token, leaseToken, expiresAt⟩)))
  | renewed {row leaseToken expiresAt} (held : t.leases key = some row) :
      Effect t key (some leaseToken)
        (t.putLease key { row with leaseToken := leaseToken, expiresAt := expiresAt })
        (.renewed (.ok (some ⟨key, row.holderId, row.fencingToken, leaseToken, expiresAt⟩)))
  | released {row} (held : t.leases key = some row) :
      Effect t key none (t.deleteLease key) (.released (.ok true))

theorem step_effect (i : Input) (t : Tables) :
    Effect t i.operation.key i.drawnToken (step i t).1 (step i t).2 := by
  obtain ⟨now, op⟩ := i
  cases op with
  | claim key holderId leaseToken duration rowVisible =>
      rcases tryClaimLease_cases now rowVisible key holderId leaseToken duration t with
        ⟨r, hr, h⟩ | ⟨token, habove, h | ⟨-, expiresAt, h⟩⟩
      all_goals simp only [step, h, Prod.map_apply, id_eq]
      · exact .refused (by simpa using hr) (by simp) (by simp)
      · exact .bumped habove
      · exact .claimed habove
  | renew claim nextLeaseToken duration =>
      rcases tryRenewLease_cases now claim nextLeaseToken duration t with
        ⟨r, hr, h⟩ | ⟨row, hrow, -, expiresAt, h⟩
      all_goals simp only [step, h, Prod.map_apply, id_eq]
      · exact .refused (by simp) (by simpa using hr) (by simp)
      · exact .renewed hrow
  | release claim =>
      simp only [step, releaseLease_eq]
      cases ha : authorisedRow now claim t with
      | none => exact .refused (by simp) (by simp) (by simp)
      | some row =>
          simp only [Option.isSome_some, if_true, Prod.map_apply, id_eq]
          exact .released (authorisedRow_eq_some.1 ha).1

end Paranoid.LeaseRuns

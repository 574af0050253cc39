import Paranoid.Postgres

namespace Paranoid.LeaseModel

open Postgres

def leaseKeySeparator : String := "::"

def maxLeaseKeyBytes : Nat := 2048

def maxLeaseHolderIdBytes : Nat := 512

/-- One second, in nanoseconds. -/
def minLeaseDuration : Nat := 1000000000

def leaseTokenBytes : Nat := 32

inductive CoordinationError
  | emptyKey
  | emptyKeyPart
  | keyPartContainsSeparatorByte
  | keyPartContainsNullByte
  | keyTooLong (actual max : Nat)
  | emptyHolderId
  | holderIdContainsNullByte
  | holderIdTooLong (actual max : Nat)
  | durationIsZero
  | durationBelowMinimum (minimum : Nat)
  | durationTooLarge
  | invalidPersistedTokenLength (actual expected : Nat)
  | invalidPersistedFencingToken (value : Int)
  | database (error : SqlError)
  deriving DecidableEq

def validateKeyPart (part : String) : Except CoordinationError Unit := do
  if part.utf8ByteSize = 0 then throw .emptyKeyPart
  if ':' ∈ part.toList then throw .keyPartContainsSeparatorByte
  if '\x00' ∈ part.toList then throw .keyPartContainsNullByte

/-- Every part is followed by the separator, the last one included. -/
def joinKeyParts (parts : List String) : String :=
  leaseKeySeparator.intercalate parts ++ leaseKeySeparator

/-- Validated persisted coordination key. -/
structure Key where
  text : String
  short : text.utf8ByteSize ≤ maxLeaseKeyBytes
  deriving DecidableEq

def Key.fromParts (parts : List String) : Except CoordinationError Key := do
  parts.forM validateKeyPart
  if parts = [] then throw .emptyKey
  let key := joinKeyParts parts
  if short : key.utf8ByteSize ≤ maxLeaseKeyBytes then return ⟨key, short⟩
  else throw (.keyTooLong key.utf8ByteSize maxLeaseKeyBytes)

/-- Validated holder identifier. The schema's check on the column and the text
type, which stores no null byte, demand the same of every row. -/
structure HolderId where
  text : String
  nonempty : text.utf8ByteSize ≠ 0
  noNull : '\x00' ∉ text.toList
  short : text.utf8ByteSize ≤ maxLeaseHolderIdBytes
  deriving DecidableEq

def HolderId.new (input : String) : Except CoordinationError HolderId :=
  if empty : input.utf8ByteSize = 0 then throw .emptyHolderId
  else if null : '\x00' ∈ input.toList then throw .holderIdContainsNullByte
  else if short : input.utf8ByteSize ≤ maxLeaseHolderIdBytes then return ⟨input, empty, null, short⟩
  else throw (.holderIdTooLong input.utf8ByteSize maxLeaseHolderIdBytes)

/-- Positive lease ownership generation, as the checked columns of both lease
tables hold it. -/
structure FencingToken where
  value : Int
  positive : 0 < value
  deriving DecidableEq

def FencingToken.fromI64 (value : Int) : Except CoordinationError FencingToken :=
  if nonpositive : value ≤ 0 then throw (.invalidPersistedFencingToken value)
  else return ⟨value, Int.not_le.1 nonpositive⟩

structure Token where
  bytes : List UInt8
  exact : bytes.length = leaseTokenBytes
  deriving DecidableEq

def Token.fromPersistedBytes (bytes : List UInt8) : Except CoordinationError Token :=
  if exact : bytes.length = leaseTokenBytes then return ⟨bytes, exact⟩
  else throw (.invalidPersistedTokenLength bytes.length leaseTokenBytes)

def durationToRoundedMicroseconds (nanoseconds : Nat) : Except CoordinationError Int :=
  if (ceilMicroseconds nanoseconds : Int) ≤ i64Max then return ceilMicroseconds nanoseconds
  else throw .durationTooLarge

/-- Validated claim duration, in nanoseconds. -/
structure ClaimDuration where
  positiveDuration : Nat
  minimum : minLeaseDuration ≤ positiveDuration
  fits : (ceilMicroseconds positiveDuration : Int) ≤ i64Max
  deriving DecidableEq

def ClaimDuration.expiresAfter (duration : Nat) : Except CoordinationError ClaimDuration :=
  if duration = 0 then throw .durationIsZero
  else if minimum : minLeaseDuration ≤ duration then
    if fits : (ceilMicroseconds duration : Int) ≤ i64Max then return ⟨duration, minimum, fits⟩
    else throw .durationTooLarge
  else throw (.durationBelowMinimum minLeaseDuration)

def ClaimDuration.positiveMicroseconds (duration : ClaimDuration) : Except CoordinationError Int :=
  durationToRoundedMicroseconds duration.positiveDuration

/-- The authority that a successful claim or renewal hands to its caller. -/
structure Claim where
  key : Key
  holderId : HolderId
  fencingToken : FencingToken
  leaseToken : Token
  expiresAtUnixMicroseconds : Int
  deriving DecidableEq

structure HolderSnapshot where
  key : Key
  holderId : HolderId
  fencingToken : FencingToken
  expiresAtUnixMicroseconds : Int
  deriving DecidableEq

def leaseClaimFromPersistedParts (key : Key) (holderId : String) (fencingToken : Int)
    (leaseToken : List UInt8) (expiresAtUnixMicroseconds : Int) : Except CoordinationError Claim := do
  return {
    key
    holderId := ← HolderId.new holderId
    fencingToken := ← FencingToken.fromI64 fencingToken
    leaseToken := ← Token.fromPersistedBytes leaseToken
    expiresAtUnixMicroseconds }

def leaseHolderSnapshotFromPersistedParts (key : Key) (holderId : String) (fencingToken : Int)
    (expiresAtUnixMicroseconds : Int) : Except CoordinationError HolderSnapshot := do
  return {
    key
    holderId := ← HolderId.new holderId
    fencingToken := ← FencingToken.fromI64 fencingToken
    expiresAtUnixMicroseconds }

@[simp] theorem HolderId.new_text (holderId : HolderId) :
    HolderId.new holderId.text = .ok holderId := by
  simp [HolderId.new, holderId.nonempty, holderId.noNull, holderId.short]

@[simp] theorem FencingToken.fromI64_value (token : FencingToken) :
    FencingToken.fromI64 token.value = .ok token := by
  have := token.positive
  simp [FencingToken.fromI64, show ¬token.value ≤ 0 by omega]

@[simp] theorem Token.fromPersistedBytes_bytes (token : Token) :
    Token.fromPersistedBytes token.bytes = .ok token := by
  simp [Token.fromPersistedBytes, token.exact]

/-- The schema's checks are as strong as the decoder's, so what a row of the
lease table returns is never refused. -/
@[simp] theorem leaseClaimFromPersistedParts_checked (key : Key) (holderId : HolderId)
    (fencingToken : FencingToken) (leaseToken : Token) (expiresAt : Int) :
    leaseClaimFromPersistedParts key holderId.text fencingToken.value leaseToken.bytes expiresAt =
      .ok ⟨key, holderId, fencingToken, leaseToken, expiresAt⟩ := by
  simp [leaseClaimFromPersistedParts]

@[simp] theorem leaseHolderSnapshotFromPersistedParts_checked (key : Key) (holderId : HolderId)
    (fencingToken : FencingToken) (expiresAt : Int) :
    leaseHolderSnapshotFromPersistedParts key holderId.text fencingToken.value expiresAt =
      .ok ⟨key, holderId, fencingToken, expiresAt⟩ := by
  simp [leaseHolderSnapshotFromPersistedParts]

@[simp] theorem ClaimDuration.positiveMicroseconds_eq (duration : ClaimDuration) :
    duration.positiveMicroseconds = .ok (ceilMicroseconds duration.positiveDuration) := by
  rw [ClaimDuration.positiveMicroseconds,
    durationToRoundedMicroseconds, if_pos duration.fits, pure_eq_ok]

end Paranoid.LeaseModel

import Paranoid.CsrfRequests

namespace Paranoid.CsrfModel

open ByteCodecs CryptoPrimitives CsrfRequests EncryptedCookies List SetCookieText Utf8Text
open CookieModel hiding Error
open EnvelopeModel (Kdf XChaCha20Poly1305 Aes256GcmSiv Keyset CryptoError)

def csrfNonceSize : Nat := 16

def maxCsrfBindingSize : Nat := 1024

/-- Bytes that are not empty, and not too many. -/
structure CsrfBinding where
  bytes : Bytes
  ne_nil : bytes ≠ []
  le_max : bytes.length ≤ maxCsrfBindingSize
  deriving DecidableEq

def CsrfBinding.fromNonEmptyBytes (bytes : Bytes) : Except Error CsrfBinding :=
  if hempty : bytes = [] then .error .emptyCsrfBinding
  else if hlarge : maxCsrfBindingSize < bytes.length then .error (.csrfBindingTooLarge bytes.length maxCsrfBindingSize)
  else .ok ⟨bytes, hempty, Nat.le_of_not_lt hlarge⟩

structure CsrfCookiePayload where
  nonce : FixedBytes csrfNonceSize
  expiresAtUnix : Int
  binding : Option Bytes
  deriving DecidableEq

def CsrfCookiePayload.isValid (payload : CsrfCookiePayload) (nowUnix : Int) : Bool :=
  payload.nonce.val ≠ replicate csrfNonceSize 0 && nowUnix < payload.expiresAtUnix

def bindingMatches (left : Option Bytes) (right : Option CsrfBinding) : Bool :=
  match left, right.map CsrfBinding.bytes with
  | none, none => true
  | some left, some right => left = right
  | _, _ => false

def isCsrfSafeMethod (method : Text) : Bool :=
  method = ['G', 'E', 'T'] || method = ['H', 'E', 'A', 'D'] ||
    method = ['O', 'P', 'T', 'I', 'O', 'N', 'S'] ||
    method = ['T', 'R', 'A', 'C', 'E']

def maxInt64 : Int := 2 ^ 63 - 1

/-- Of the seconds since the epoch; a clock before it gives none. -/
def currentUnixSeconds (clock : Option Nat) : Except Error Int :=
  match clock with
  | none => .error .clockBeforeUnixEpoch
  | some elapsed => if (elapsed : Int) ≤ maxInt64 then .ok elapsed else .error .csrfExpirationOverflow

structure CsrfProtectorConfig where
  cookieManager : CookieManager
  extractBindingFromHeaders : HeaderMap → Except Error (Option CsrfBinding)
  cookieName : Text
  headerName : HeaderName
  tokenMaxAge : CookieMaxAgeSeconds
  allowedOrigins : List Text

/-- What the callbacks, the clock and the source of randomness answer in a call: the one that checks a token, and then the one
that issues another. -/
structure Answers where
  isDevelopment : Bool
  checkingKeyset : Except CookieModel.Error Keyset
  checkingClock : Option Nat
  nonce : Except CookieModel.Error (FixedBytes csrfNonceSize)
  issuingClock : Option Nat
  issuingKeyset : Except CookieModel.Error Keyset
  fillRandom : FillRandom CryptoError

structure CsrfProtector where
  extractBindingFromHeaders : HeaderMap → Except Error (Option CsrfBinding)
  cookie : CookieSpec
  headerName : HeaderName
  tokenMaxAge : CookieMaxAgeSeconds
  allowedOrigins : List Text

structure CsrfVerificationFailure where
  error : Error
  selfHealBinding : Option (Option CsrfBinding)
  deriving DecidableEq

namespace CsrfVerificationFailure

def withoutSelfHeal (error : Error) : CsrfVerificationFailure := ⟨error, none⟩

def withSelfHeal (binding : Option CsrfBinding) (error : Error) : CsrfVerificationFailure :=
  ⟨error, some binding⟩

end CsrfVerificationFailure

open CsrfVerificationFailure (withoutSelfHeal withSelfHeal)

/-- The libraries that requests are read with, the ciphers, and the serialization of payloads. -/
structure Libraries where
  crates : Crates
  parseUrl : Text → Option Url
  kdf : Kdf
  xchacha : XChaCha20Poly1305
  aesGcmSiv : Aes256GcmSiv
  payloads : Payloads CsrfCookiePayload

namespace CsrfProtector

variable (libraries : Libraries)

def new (config : CsrfProtectorConfig) : Except Error CsrfProtector := do
  let allowedOrigins ← normalizeAllowedOrigins libraries.parseUrl config.allowedOrigins
  let cookie ← (CookieSpec.new libraries.crates config.cookieManager .hostOnly
    ⟨config.cookieName, some config.tokenMaxAge, some .lax,
      none, some false⟩ .encrypted).mapError .cookie
  return ⟨config.extractBindingFromHeaders, cookie,
    config.headerName, config.tokenMaxAge, allowedOrigins⟩

variable (protector : CsrfProtector) (answers : Answers)

def validateDevelopmentRequestHostIsLocalhost (request : Request) : Except Error Unit :=
  if ¬answers.isDevelopment then .ok ()
  else
    let host := (requestHost libraries.crates request).getD []
    if isLocalhostHost host then .ok () else .error (.developmentModeNonLocalhostHost host)

def extractBinding (request : Request) : Except Error (Option CsrfBinding) :=
  protector.extractBindingFromHeaders request.headers

def parseFromRequest (request : Request) : Except Error Pair :=
  (protector.cookie.parseFromHeaders libraries.crates
    (request.headers.getAll Header.cookie)).mapError .cookie

def payloadFromCookie (cookie : Pair) : Except Error CsrfCookiePayload :=
  (protector.cookie.getFromCookie
    (decodeCookieValue libraries.crates libraries.kdf libraries.xchacha libraries.aesGcmSiv libraries.payloads
    protector.cookie answers.checkingKeyset) cookie).mapError .cookie

def newTokenCookie (binding : Option CsrfBinding) : Except Error Cookie := do
  let nonce ← answers.nonce.mapError .cookie
  let now ← currentUnixSeconds answers.issuingClock
  let expiresAtUnix := now + protector.tokenMaxAge.seconds
  if maxInt64 < expiresAtUnix then throw .csrfExpirationOverflow
  (newCookie libraries.crates libraries.kdf libraries.xchacha
    libraries.aesGcmSiv libraries.payloads protector.cookie
    answers.issuingKeyset ⟨nonce, expiresAtUnix, binding.map CsrfBinding.bytes⟩
      answers.fillRandom).mapError .cookie

def validateOriginHeader (header : Text) (label : Label) : Except Error Unit := do
  let normalized ← normalizeRequestOriginHeader libraries.parseUrl header label
  if protector.allowedOrigins.any (· = normalized) then return () else throw (.csrfOriginNotAllowed normalized)

def validateOrigin (headers : HeaderMap) : Except Error Unit := do
  if protector.allowedOrigins = [] then return ()
  match ← headerToNonemptyStr libraries.crates headers Header.origin .origin with
  | some originHeader => protector.validateOriginHeader libraries originHeader .origin
  | none =>
      match ← headerToNonemptyStr libraries.crates headers Header.referer .referer with
      | some refererHeader => protector.validateOriginHeader libraries refererHeader .referer
      | none => throw .csrfOriginAndRefererMissing

def cycleTokenCookieForRequest (request : Request) : Except Error Cookie := do
  validateDevelopmentRequestHostIsLocalhost libraries answers request
  let binding ← protector.extractBinding request
  protector.newTokenCookie libraries answers binding

def cycleTokenCookieForBinding (binding : Option CsrfBinding) : Except Error Cookie :=
  protector.newTokenCookie libraries answers binding

def issueTokenCookieIfNeededForRequest (request : Request) : Except Error (Option Cookie) := do
  validateDevelopmentRequestHostIsLocalhost libraries answers request
  let binding ← protector.extractBinding request
  if let .ok cookie := protector.parseFromRequest libraries request then
    if let .ok payload := protector.payloadFromCookie libraries answers cookie then
      if payload.isValid (← currentUnixSeconds answers.checkingClock) then
        if bindingMatches payload.binding binding then return none
  let cookie ← protector.newTokenCookie libraries answers binding
  return some cookie

def issueTokenCookieIfNeededForExplicitBinding (request : Request) (binding : Option CsrfBinding) :
    Except Error (Option Cookie) := do
  validateDevelopmentRequestHostIsLocalhost libraries answers request
  if let .ok cookie := protector.parseFromRequest libraries request then
    if let .ok payload := protector.payloadFromCookie libraries answers cookie then
      if payload.isValid (← currentUnixSeconds answers.checkingClock) then
        if bindingMatches payload.binding binding then return none
  let cookie ← protector.newTokenCookie libraries answers binding
  return some cookie

def verifyUnsafeRequest (request : Request) : Except CsrfVerificationFailure Unit := do
  (protector.validateOrigin libraries request.headers).mapError withoutSelfHeal
  let binding ← (protector.extractBinding request).mapError withoutSelfHeal
  let parsedCookie ← (protector.parseFromRequest libraries request).mapError (withSelfHeal binding)
  let payload ← (protector.payloadFromCookie libraries answers parsedCookie).mapError
    (withSelfHeal binding)
  let now ← (currentUnixSeconds answers.checkingClock).mapError withoutSelfHeal
  if ¬payload.isValid now then throw (withSelfHeal binding .csrfTokenInvalidOrExpired)
  let submittedToken ← (submittedToken libraries.crates
    request.headers protector.headerName).mapError withoutSelfHeal
  if utf8 submittedToken ≠ utf8 parsedCookie.value then throw (withoutSelfHeal .csrfTokenMismatch)
  if ¬bindingMatches payload.binding binding then throw (withSelfHeal binding .csrfBindingMismatch)

def verifyUnsafeRequestWithExplicitBinding (request : Request) (binding : Option CsrfBinding) :
    Except CsrfVerificationFailure Unit := do
  (protector.validateOrigin libraries request.headers).mapError withoutSelfHeal
  let parsedCookie ← (protector.parseFromRequest libraries request).mapError withoutSelfHeal
  let payload ← (protector.payloadFromCookie libraries answers parsedCookie).mapError withoutSelfHeal
  let now ← (currentUnixSeconds answers.checkingClock).mapError withoutSelfHeal
  if ¬payload.isValid now then throw (withoutSelfHeal .csrfTokenInvalidOrExpired)
  let submittedToken ← (submittedToken libraries.crates
    request.headers protector.headerName).mapError withoutSelfHeal
  if utf8 submittedToken ≠ utf8 parsedCookie.value then throw (withoutSelfHeal .csrfTokenMismatch)
  if ¬bindingMatches payload.binding binding then throw (withoutSelfHeal .csrfBindingMismatch)

def verifyRequest (request : Request) : Except Error Unit := do
  validateDevelopmentRequestHostIsLocalhost libraries answers request
  if isCsrfSafeMethod request.method then return ()
  (protector.verifyUnsafeRequest libraries answers request).mapError CsrfVerificationFailure.error

def verifyRequestWithExplicitBinding (request : Request) (binding : Option CsrfBinding) :
    Except Error Unit := do
  validateDevelopmentRequestHostIsLocalhost libraries answers request
  if isCsrfSafeMethod request.method then return ()
  (protector.verifyUnsafeRequestWithExplicitBinding libraries answers request binding).mapError
    CsrfVerificationFailure.error

end CsrfProtector

/-- The layer around an inner service, with what is answered for a failure. -/
structure CsrfService (ε β : Type) where
  inner : Request → Except ε (Response β)
  protector : CsrfProtector
  failureResponse : Error → Response β

/-- The calls of the inner service, and the response. -/
structure Served (ε β : Type) where
  innerCalls : List Request
  response : Except ε (Response β)

namespace CsrfService

variable {ε β : Type} (libraries : Libraries) (service : CsrfService ε β) (answers : Answers)

def responseForFailure (failure : CsrfVerificationFailure) : Response β :=
  let response := service.failureResponse failure.error
  match failure.selfHealBinding with
  | none => response
  | some binding =>
      match service.protector.newTokenCookie libraries answers binding with
      | .error error => service.failureResponse error
      | .ok cookie =>
          match appendSetCookieHeader libraries.crates response.headers cookie with
          | .error error => service.failureResponse error
          | .ok headers => { response with headers }

def callSafeRequest (request : Request) : Served ε β :=
  match service.protector.issueTokenCookieIfNeededForRequest libraries answers request with
  | .error error => ⟨[], .ok (service.failureResponse error)⟩
  | .ok cookie =>
      ⟨[request], do
        let response ← service.inner request
        match cookie with
        | none => return response
        | some cookie =>
            match appendSetCookieHeader libraries.crates response.headers cookie with
            | .error error => return service.failureResponse error
            | .ok headers => return { response with headers }⟩

def call (request : Request) : Served ε β :=
  if isCsrfSafeMethod request.method then service.callSafeRequest libraries answers request
  else
    match CsrfProtector.validateDevelopmentRequestHostIsLocalhost libraries answers request with
    | .error error => ⟨[], .ok (service.failureResponse error)⟩
    | .ok () =>
        match service.protector.verifyUnsafeRequest libraries answers request with
        | .ok () => ⟨[request], service.inner request⟩
        | .error failure => ⟨[], .ok (service.responseForFailure libraries answers failure)⟩

end CsrfService

end Paranoid.CsrfModel

import Paranoid.EncryptedCookies
import Paranoid.IpAddresses
import Mathlib.Data.List.Dedup
import Mathlib.Data.List.Sort

namespace Paranoid.CsrfRequests

open ByteCodecs CookieModel DecimalText List SetCookieText TrimmedText Utf8Text
open IpAddresses (IpAddr Ipv4Addr Ipv6Addr)
open MnemonicModel (isWhitespace)

/-- What a header is for, in errors. -/
inductive Label
  | submittedToken
  | origin
  | referer
  | allowedOrigin
  deriving DecidableEq

inductive Error
  | cookie (source : CookieModel.Error)
  | emptyCsrfBinding
  | csrfBindingTooLarge (actual max : Nat)
  | csrfTokenMissing
  | csrfTokenInvalidOrExpired
  | csrfTokenMismatch
  | csrfBindingMismatch
  | csrfExpirationOverflow
  | clockBeforeUnixEpoch
  | csrfSubmittedTokenHeaderDecode
  | csrfHeaderDecode (label : Label)
  | duplicateCsrfHeader (label : Label)
  | csrfOriginParse (label : Label)
  | csrfOriginUnsupportedScheme (label : Label) (scheme : Text)
  | csrfOriginMissingHost (label : Label)
  | csrfOriginContainsNonOriginParts (label : Label)
  | csrfOriginAndRefererMissing
  | csrfOriginNotAllowed (origin : Text)
  | developmentModeNonLocalhostHost (host : Text)
  | cookieSetHeaderInvalid
  deriving DecidableEq

/-- A header name in lower case. -/
abbrev HeaderName := Text

abbrev HeaderMap := List (HeaderName × Bytes)

def HeaderMap.getAll (headers : HeaderMap) (name : HeaderName) : List Bytes :=
  (headers.filter fun header => header.1 = name).map Prod.snd

namespace Header

def host : HeaderName := ['h', 'o', 's', 't']

def origin : HeaderName := ['o', 'r', 'i', 'g', 'i', 'n']

def referer : HeaderName := ['r', 'e', 'f', 'e', 'r', 'e', 'r']

def cookie : HeaderName := ['c', 'o', 'o', 'k', 'i', 'e']

def setCookie : HeaderName := ['s', 'e', 't', '-', 'c', 'o', 'o', 'k', 'i', 'e']

end Header

structure Request where
  method : Text
  /-- the host of the address that was asked for -/
  uriHost : Option Text
  headers : HeaderMap

structure Response (β : Type) where
  headers : HeaderMap
  body : β

section Headers

variable (crates : Crates)

def singleHeaderValue (headers : HeaderMap) (name : HeaderName) (label : Label) :
    Except Error (Option Bytes) :=
  match headers.getAll name with
  | [] => .ok none
  | [value] => .ok (some value)
  | _ :: _ :: _ => .error (.duplicateCsrfHeader label)

def submittedToken (headers : HeaderMap) (headerName : HeaderName) : Except Error Text := do
  match ← singleHeaderValue headers headerName .submittedToken with
  | none => throw .csrfTokenMissing
  | some value =>
      match crates.toStr value with
      | none => throw .csrfSubmittedTokenHeaderDecode
      | some token => if token = [] then throw .csrfTokenMissing else return token

def headerToNonemptyStr (headers : HeaderMap) (name : HeaderName) (label : Label) :
    Except Error (Option Text) := do
  match ← singleHeaderValue headers name label with
  | none => return none
  | some value =>
      match crates.toStr value with
      | none => throw (.csrfHeaderDecode label)
      | some value => return if value = [] then none else some value

def appendSetCookieHeader (headers : HeaderMap) (cookie : Cookie) : Except Error HeaderMap :=
  if crates.fromStr (crates.toText cookie) then .ok (headers ++ [(Header.setCookie, utf8 (crates.toText cookie))])
  else .error .cookieSetHeaderInvalid

end Headers

section Hosts

def requestHost (crates : Crates) (request : Request) : Option Text :=
  ((request.headers.getAll Header.host).head?.bind crates.toStr).or request.uriHost

def localhost : Text := ['l', 'o', 'c', 'a', 'l', 'h', 'o', 's', 't']

def isPort (port : Text) : Bool := port ≠ [] && port.all Char.isDigit

/-- There is one colon, so that what is in front of the last is in front of the first. -/
def stripUnbracketedHostPort (host : Text) : Option Text :=
  if host.count ':' ≠ 1 then none
  else (cut ':' host).bind fun (hostname, port) =>
    if hostname ≠ [] ∧ isPort port then some hostname else none

def stripBracketedIpv6Host : Text → Option Text
  | '[' :: rest => (cut ']' rest).bind fun (inside, after) =>
      match after with
      | [] => some inside
      | ':' :: port => if isPort port then some inside else none
      | _ => none
  | _ => none

def parseHostIp (host : Text) : Option IpAddr :=
  match stripBracketedIpv6Host host with
  | some stripped => IpAddr.parse stripped
  | none =>
      match IpAddr.parse host with
      | some ip => some ip
      | none =>
          if host.count ':' = 1 then
            (cut ':' host).bind fun (hostname, port) =>
              if isPort port then IpAddr.parse hostname else none
          else none

def ipIsLoopback : IpAddr → Bool
  | .v4 ip => ip.isLoopback
  | .v6 ip => ip.isLoopback || ip.toIpv4Mapped.any Ipv4Addr.isLoopback

def isLocalhostHost (host : Text) : Bool :=
  let host := trim isWhitespace host
  lowercase host = localhost || (stripUnbracketedHostPort host).any (lowercase · = localhost) ||
    (parseHostIp host).any ipIsLoopback

end Hosts

section Origins

inductive Host
  | domain (domain : Text)
  | ipv4 (ip : Ipv4Addr)
  | ipv6 (ip : Ipv6Addr)

/-- What is read of an address. -/
structure Url where
  scheme : Text
  username : Text
  password : Option Text
  host : Option Host
  port : Option Nat
  path : Text
  query : Option Text
  fragment : Option Text
  cannotBeABase : Bool

def http : Text := ['h', 't', 't', 'p']

def https : Text := ['h', 't', 't', 'p', 's']

def normalizedHost : Host → Text
  | .domain domain => lowercase domain
  | .ipv4 ip => ip.text
  | .ipv6 ip => '[' :: ip.text ++ [']']

def rejectCredentials (parsed : Url) (label : Label) : Except Error Unit :=
  if parsed.username ≠ [] ∨ parsed.password.isSome then .error (.csrfOriginContainsNonOriginParts label) else .ok ()

def rejectUnsupportedOriginParts (parsed : Url) (label : Label) : Except Error Unit := do
  rejectCredentials parsed label
  if parsed.path ≠ ['/'] ∨ parsed.query.isSome ∨ parsed.fragment.isSome ∨ parsed.cannotBeABase then
    throw (.csrfOriginContainsNonOriginParts label)

def normalizedSchemeHostPort (parsed : Url) (label : Label) : Except Error Text :=
  let scheme := lowercase parsed.scheme
  if scheme ≠ http ∧ scheme ≠ https then .error (.csrfOriginUnsupportedScheme label scheme)
  else
    match parsed.host with
    | none => .error (.csrfOriginMissingHost label)
    | some host =>
        let port := match parsed.port with
          | none => []
          | some port => ':' :: natText port
        .ok (scheme ++ [':', '/', '/'] ++ normalizedHost host ++ port)

variable (parseUrl : Text → Option Url)

def parseOrigin (text : Text) (label : Label) : Except Error Url :=
  match parseUrl text with
  | none => .error (.csrfOriginParse label)
  | some parsed => .ok parsed

def normalizeExactOrigin (origin : Text) (label : Label) : Except Error Text := do
  let parsed ← parseOrigin parseUrl origin label
  rejectUnsupportedOriginParts parsed label
  normalizedSchemeHostPort parsed label

def normalizeRefererOrigin (referer : Text) (label : Label) : Except Error Text := do
  let parsed ← parseOrigin parseUrl referer label
  rejectCredentials parsed label
  normalizedSchemeHostPort parsed label

def normalizeRequestOriginHeader (header : Text) (label : Label) : Except Error Text :=
  if label = .referer then normalizeRefererOrigin parseUrl header label else normalizeExactOrigin parseUrl header label

/-- In order, each once: equal texts stand next to each other. -/
def normalizeAllowedOrigins (origins : List Text) : Except Error (List Text) := do
  let normalized ← origins.mapM fun origin => normalizeExactOrigin parseUrl origin .allowedOrigin
  return (normalized.insertionSort (· ≤ ·)).dedup

end Origins

end Paranoid.CsrfRequests

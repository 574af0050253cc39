import Paranoid.MnemonicModel
import Paranoid.SetCookieText
import Paranoid.TemplateScanner
import Paranoid.TextCodecs

namespace Paranoid.CookieModel

open ByteCodecs DecimalText List SetCookieText TrimmedText Utf8Text
open MnemonicModel (isWhitespace)
open TemplateScanner (isAsciiAlphanumeric)

def hostPrefix : Text := ['_', '_', 'H', 'o', 's', 't', '-']

def devPrefix : Text := ['_', '_', 'D', 'e', 'v', '-']

def maxCookieMaxAgeSeconds : Nat := 2 ^ 63 - 1

/-- Why the parser of cookies refuses a pair. -/
inductive ParseError
  | missingPair
  | emptyName
  deriving DecidableEq

inductive Error
  | cookieMaxAgeSecondsZero
  | cookieMaxAgeSecondsTooLarge (seconds max : Nat)
  | managedCookieNamePrefix (managed : Text)
  | emptyCookieName
  | invalidCookieName
  | invalidCookieValue
  | invalidCookiePath
  | invalidCookieDomain
  | cookieHeaderDecode
  | cookieParse (source : ParseError)
  | missingCookie (name : Text)
  | duplicateCookie (name : Text)
  | cookieNameMismatch (expected actual : Text)
  | emptyCookieValue
  | keyset
  | payloadSerialize
  | payloadDeserialize
  | codec (source : TextCodecs.CodecError)
  | crypto (source : EnvelopeModel.CryptoError)
  deriving DecidableEq

/-- Positive, and not more than an `i64` holds. -/
structure CookieMaxAgeSeconds where
  seconds : Nat
  positive : 0 < seconds
  le_max : seconds ≤ maxCookieMaxAgeSeconds

def CookieMaxAgeSeconds.new (seconds : Nat) : Except Error CookieMaxAgeSeconds :=
  if hzero : seconds = 0 then .error .cookieMaxAgeSecondsZero
  else if hmax : maxCookieMaxAgeSeconds < seconds then .error (.cookieMaxAgeSecondsTooLarge seconds maxCookieMaxAgeSeconds)
  else .ok ⟨seconds, Nat.pos_of_ne_zero hzero, Nat.le_of_not_lt hmax⟩

/-- The name and the value of a cookie. -/
structure Pair where
  name : Text
  value : Text
  deriving DecidableEq

def Pair.text (pair : Pair) : Text := pair.name ++ '=' :: pair.value

/-- A cookie with the attributes that it is emitted with. -/
structure Cookie where
  name : Text
  value : Text
  path : Text
  domain : Option Text
  secure : Bool
  sameSite : SameSite
  httpOnly : Bool
  partitioned : Bool
  maxAge : Option Nat
  deriving DecidableEq

section Crates

/-- The pair before the attributes: split at the first equals sign, without the whitespace around the name and the value. -/
def parsePair (text : Text) : Except ParseError Pair :=
  match cut '=' text with
  | none => .error .missingPair
  | some (name, value) =>
      if trim isWhitespace name = [] then .error .emptyName else .ok ⟨trim isWhitespace name, trim isWhitespace value⟩

def named (name value : Text) : Text := name ++ '=' :: value

/-- What stands in the text of a cookie for its attributes. -/
def attributeTexts (cookie : Cookie) : List Text :=
  (if cookie.httpOnly then [Names.httpOnly] else []) ++ [named Names.sameSite cookie.sameSite.text] ++
    (if cookie.partitioned then [Names.partitioned] else []) ++
    (if cookie.secure then [Names.secure] else []) ++
    [named Names.path cookie.path] ++ cookie.domain.toList.map (named Names.domain) ++
    cookie.maxAge.toList.map fun seconds => named Names.maxAge (natText seconds)

/-- A space or a tab, or a character that is printed. -/
def isVisible (c : Char) : Bool := c = '\t' || (32 ≤ c.toNat && c.toNat < 127)

def isVisibleByte (b : UInt8) : Bool := b = 9 || (32 ≤ b.toNat && b.toNat < 127)

/-- What is used of the libraries for cookies, for headers and for texts of bytes. -/
structure Crates where
  texts : TextCodecs.Crates
  parse : Text → Except ParseError Pair
  splitParse : Text → List (Except ParseError Pair)
  toText : Cookie → Text
  /-- whether a text can be the value of a header -/
  fromStr : Text → Bool
  toStr : Bytes → Option Text
  parse_eq : ∀ text, parse text = parsePair (text.takeWhile (· ≠ ';'))
  splitParse_eq : ∀ text, splitParse text =
    ((text.splitOn ';').filter fun part => !part.all isWhitespace).map parsePair
  /-- the attributes may come in any order -/
  toText_eq : ∀ cookie, ∃ attributes : List Text, attributes.Perm (attributeTexts cookie) ∧
    toText cookie = rendered cookie.name cookie.value attributes
  toStr_eq : ∀ value, toStr value =
    if value.all isVisibleByte then some (value.map Char.ofUInt8) else none

/-- Every character that is no control character can be in a header. -/
instance : Inhabited Crates where
  default :=
    { texts := default
      parse := fun text => parsePair (text.takeWhile (· ≠ ';'))
      splitParse := fun text =>
        ((text.splitOn ';').filter fun part => !part.all isWhitespace).map parsePair
      toText := fun cookie => rendered cookie.name cookie.value (attributeTexts cookie)
      fromStr := fun text => (utf8 text).all fun b => b = 9 || (32 ≤ b.toNat && b.toNat ≠ 127)
      toStr := fun value => if value.all isVisibleByte then some (value.map Char.ofUInt8) else none
      parse_eq := fun _ => rfl
      splitParse_eq := fun _ => rfl
      toText_eq := fun cookie => ⟨attributeTexts cookie, .rfl, rfl⟩
      toStr_eq := fun _ => rfl }

end Crates

section Validation

variable (crates : Crates)

def validateCookieName (name : Text) : Except Error Unit := do
  if name = [] then throw .emptyCookieName
  let probe := name ++ ['=', 'x']
  match crates.parse probe with
  | .error _ => throw .invalidCookieName
  | .ok parsed => if parsed.name ≠ name ∨ parsed.value ≠ ['x'] then throw .invalidCookieName

def validateUnprefixedCookieName (name : Text) : Except Error Unit := do
  if hostPrefix.isPrefixOf name then throw (.managedCookieNamePrefix hostPrefix)
  if devPrefix.isPrefixOf name then throw (.managedCookieNamePrefix devPrefix)
  validateCookieName crates name

def validateCookieValue (value : Text) : Except Error Unit := do
  let probe := ['x', '='] ++ value
  match crates.parse probe with
  | .error _ => throw .invalidCookieValue
  | .ok parsed => if parsed.name ≠ ['x'] ∨ parsed.value ≠ value then throw .invalidCookieValue

def isSafeCookieAttributeByte (b : UInt8) : Bool := (0x21 ≤ b.toNat && b.toNat ≤ 0x7e) && b ≠ 59

def validateCookiePath (path : Text) : Except Error Unit :=
  if (utf8 path).all isSafeCookieAttributeByte then .ok () else .error .invalidCookiePath

def normalizePath (path : Text) : Except Error Text := do
  let path := if path = [] then ['/'] else path
  if path.head? ≠ some '/' then throw .invalidCookiePath
  validateCookiePath path
  return path

def invalidCookieDomainLabel (label : Text) : Bool :=
  label = [] || label.head? = some '-' || label.getLast? = some '-' ||
    !(utf8 label).all fun b => isAsciiAlphanumeric b || b = 45

def validateCookieDomain (domain : Text) : Except Error Unit :=
  if domain = [] ∨ domain.head? = some '.' ∨ domain.getLast? = some '.' ∨
      (domain.splitOn '.').any invalidCookieDomainLabel then .error .invalidCookieDomain
  else .ok ()

def normalizeDomain (domain : Option Text) : Except Error (Option Text) :=
  match domain with
  | none => return none
  | some domain =>
      if domain = [] then return none
      else do
        let domain := lowercase (if domain.head? = some '.' then domain.tail else domain)
        validateCookieDomain domain
        return some domain

end Validation

/-- Where the callback is asked whether this is development; it may answer differently each time. -/
inductive Call
  | resolvePartitioned
  | secure
  | finalHostOnlyName

structure CookieManager where
  isDevelopment : Call → Bool
  defaultSameSite : SameSite
  defaultPartitioned : Bool

structure CookieConfigParts where
  name : Text
  maxAge : Option CookieMaxAgeSeconds
  sameSite : Option SameSite
  partitioned : Option Bool
  httpOnly : Option Bool

inductive CookieScope
  | hostOnly
  | nonHostOnly (path : Text) (domain : Option Text)

inductive CookieScopeKind
  | hostOnly
  | nonHostOnly
  deriving DecidableEq

inductive CookieHttpOnlyMode
  | encrypted
  | clientReadable
  deriving DecidableEq

namespace CookieManager

variable (manager : CookieManager)

def finalHostOnlyName (crates : Crates) (name : Text) : Except Error Text := do
  validateUnprefixedCookieName crates name
  let finalName := (if manager.isDevelopment .finalHostOnlyName then devPrefix else hostPrefix) ++ name
  validateCookieName crates finalName
  return finalName

def resolveSameSite (configured : Option SameSite) : SameSite := configured.getD manager.defaultSameSite

def resolvePartitioned (configured : Option Bool) : Bool :=
  configured.getD manager.defaultPartitioned && !manager.isDevelopment .resolvePartitioned

def resolveHttpOnly (configured : Option Bool) : Bool := configured.getD true

end CookieManager

structure CookieSpec where
  name : Text
  path : Text
  domain : Option Text
  secure : Bool
  sameSite : SameSite
  httpOnly : Bool
  partitioned : Bool
  maxAge : Option CookieMaxAgeSeconds
  scope : CookieScopeKind

namespace CookieSpec

def new (crates : Crates) (manager : CookieManager) (scope : CookieScope) (config : CookieConfigParts)
    (httpOnlyMode : CookieHttpOnlyMode) : Except Error CookieSpec :=
  let sameSite := manager.resolveSameSite config.sameSite
  let httpOnly := match httpOnlyMode with
    | .encrypted => CookieManager.resolveHttpOnly config.httpOnly
    | .clientReadable => false
  let partitioned := manager.resolvePartitioned config.partitioned
  let secure := !manager.isDevelopment .secure
  match scope with
  | .hostOnly => do
      let name ← manager.finalHostOnlyName crates config.name
      return ⟨name, ['/'], none, secure, sameSite, httpOnly, partitioned, config.maxAge, .hostOnly⟩
  | .nonHostOnly path domain => do
      validateUnprefixedCookieName crates config.name
      validateCookieName crates config.name
      let path ← normalizePath path
      let domain ← normalizeDomain domain
      return ⟨config.name, path, domain, secure, sameSite,
        httpOnly, partitioned, config.maxAge, .nonHostOnly⟩

variable (crates : Crates) (spec : CookieSpec)

/-- A cookie of this name with the attributes of the helper. -/
def applyAttributes (value : Text) : Cookie :=
  ⟨spec.name, value, spec.path, spec.domain, spec.secure,
    spec.sameSite, spec.httpOnly, spec.partitioned,
    spec.maxAge.map CookieMaxAgeSeconds.seconds⟩

def cookieWithValue (value : Text) : Except Error Cookie := do
  validateCookieValue crates value
  let cookie := spec.applyAttributes value
  if crates.fromStr (crates.toText cookie) then return cookie else throw .invalidCookieValue

/-- A pair that was parsed is kept if it has the name, and must be the only one. -/
def keepMatching (found : Option Pair) (parsed : Except ParseError Pair) : Except Error (Option Pair) :=
  match parsed with
  | .error source => .error (.cookieParse source)
  | .ok parsed =>
      if parsed.name = spec.name then
        if found.isSome then .error (.duplicateCookie spec.name) else .ok (some parsed)
      else .ok found

def collectMatchingCookie (cookieHeader : Text) (found : Option Pair) : Except Error (Option Pair) :=
  (crates.splitParse cookieHeader).foldlM spec.keepMatching found

def collectFromHeader (found : Option Pair) (header : Bytes) : Except Error (Option Pair) :=
  match crates.toStr header with
  | none => .error .cookieHeaderDecode
  | some cookieHeader => spec.collectMatchingCookie crates cookieHeader found

def foundOrMissing (found : Option Pair) : Except Error Pair :=
  match found with
  | some pair => .ok pair
  | none => .error (.missingCookie spec.name)

def parseFromHeaders (headers : List Bytes) : Except Error Pair := do
  let found ← headers.foldlM (spec.collectFromHeader crates) none
  spec.foundOrMissing found

def parseFromCookieHeader (cookieHeader : Text) : Except Error Pair := do
  let found ← spec.collectMatchingCookie crates cookieHeader none
  spec.foundOrMissing found

variable {α : Type}

/-- The value of a cookie is decoded by what the helper is for: decrypted, or parsed. -/
def getFromCookie (decode : Text → Except Error α) (cookie : Pair) : Except Error α := do
  if cookie.name ≠ spec.name then throw (.cookieNameMismatch spec.name cookie.name)
  decode cookie.value

def getFromHeaders (decode : Text → Except Error α) (headers : List Bytes) : Except Error α := do
  let parsed ← spec.parseFromHeaders crates headers
  spec.getFromCookie decode parsed

end CookieSpec

end Paranoid.CookieModel

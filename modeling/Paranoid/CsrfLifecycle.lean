import Paranoid.CsrfTokens
import Paranoid.StorageBinding

namespace Paranoid.CsrfLifecycle

open ByteCodecs CryptoPrimitives CsrfModel CsrfReading CsrfRequests CsrfTokens EncryptedCookies EnvelopeRotation KeysetDerivation List
  SetCookieText
open CookieModel hiding Error
open EnvelopeModel (Keyset)
open Utf8Text (Text)

section Lifecycle

variable {libraries : Libraries} {config : CsrfProtectorConfig}
  {protector : CsrfProtector} {answers : Answers} {request : Request}
  {binding : Option CsrfBinding}
  {made : List (Sealing libraries.kdf libraries.xchacha libraries.aesGcmSiv)}

/-- An unsafe request from a right place with a cookie as its only token cookie, which submits the cookie's value. -/
structure Resubmits (libraries : Libraries) (config : CsrfProtectorConfig)
    (protector : CsrfProtector) (answers : Answers)
    (request : Request) (cookie : Cookie) : Prop where
  method : isCsrfSafeMethod request.method = false
  host : HostRule libraries answers request
  origin : OriginRule libraries config request.headers
  readable : CookiesReadable libraries request
  once : namedCookies libraries.crates (request.headers.getAll Header.cookie) protector.cookie.name =
    [⟨protector.cookie.name, cookie.value⟩]
  submits : Submits libraries protector request cookie.value

/-- The key of a cookie is in the keyset, its time has not come, and it is asked for its binding. -/
structure Live (i : Issued libraries protector) (keys : List Key32)
    (now : Int) (binding : Option CsrfBinding) : Prop where
  key : i.sealing.encryptingKey ∈ keys
  nonce : Nonzero i.nonce
  unexpired : now < i.issuedAt + protector.tokenMaxAge.seconds
  bound : binding = i.binding

theorem binding_eq_of_bytes {left right : Option CsrfBinding}
    (h : left.map CsrfBinding.bytes = right.map CsrfBinding.bytes) :
    left = right := by
  refine Option.map_injective (fun a b hab => ?_) h
  cases a
  cases b
  cases hab
  rfl

theorem verifyExplicit_eq_ok (h : Configured libraries config protector)
    (hmethod : isCsrfSafeMethod request.method = false) :
    protector.verifyRequestWithExplicitBinding libraries answers request binding = .ok () ↔
      HostRule libraries answers request ∧
        OriginRule libraries config request.headers ∧ ∃ token payload now,
        Presents libraries protector answers request binding token payload now ∧
          CookiesReadable libraries request ∧
          Nonzero payload.nonce ∧ Submits libraries protector request token := by
  rw [verifyRequestWithExplicitBinding_eq_ok hmethod,
    verifyUnsafeRequestWithExplicitBinding_eq_ok, validateOrigin_eq_ok h, passes_iff]

/-- A request is verified with the binding that is extracted from it. -/
theorem verifyRequest_iff (hmethod : isCsrfSafeMethod request.method = false) :
    protector.verifyRequest libraries answers request = .ok () ↔
      ∃ binding, protector.extractBinding request = .ok binding ∧
      protector.verifyRequestWithExplicitBinding libraries answers request binding = .ok () := by
  simp only [verifyRequest_eq_ok hmethod,
    verifyRequestWithExplicitBinding_eq_ok hmethod, verifyUnsafeRequest_eq_ok,
    verifyUnsafeRequestWithExplicitBinding_eq_ok]
  constructor
  · rintro ⟨hhost, horigin, binding, hbinding, hpasses⟩
    exact ⟨binding, hbinding, hhost, horigin, hpasses⟩
  · rintro ⟨binding, hbinding, hhost, horigin, hpasses⟩
    exact ⟨hhost, horigin, binding, hbinding, hpasses⟩

theorem verifyRequest_of_extracted (hmethod : isCsrfSafeMethod request.method = false)
    (hbinding : protector.extractBinding request = .ok binding) :
    protector.verifyRequest libraries answers request = .ok () ↔
      protector.verifyRequestWithExplicitBinding libraries answers request binding = .ok () := by
  rw [verifyRequest_iff hmethod, hbinding]
  constructor
  · rintro ⟨own, hown, h⟩
    exact Except.ok.inj hown ▸ h
  · exact fun h => ⟨binding, rfl, h⟩

/-- An issued cookie that is submitted again is accepted exactly while it is live. -/
theorem resubmitted_iff (hinner : libraries.xchacha.Ideal (InnerMade made))
    (houter : libraries.aesGcmSiv.Ideal (OuterMade made))
    (hpayloads : libraries.payloads.Faithful)
    (h : Configured libraries config protector) (i : Issued libraries protector)
    (hi : i.sealing ∈ made)
    (hrequest : Resubmits libraries config protector answers request i.cookie) {keys : List Key32}
    {keyset : Keyset} {now : Int} (hkeyset : i.application.keyset libraries.kdf keys = .ok keyset)
    (hchecking : answers.checkingKeyset = .ok keyset)
    (hclock : currentUnixSeconds answers.checkingClock = .ok now)
    (hkdf : NoCollision libraries.kdf (inputsInPlay made keys i.sealing.path)) :
    protector.verifyRequestWithExplicitBinding libraries answers request binding = .ok () ↔
      Live i keys now binding := by
  have hopens := fun payload =>
    @decode_minted_eq_ok _ _ _ _ _ _ _ hinner houter hpayloads (i.minting h.accepted) hi _ _ _
    h.accepted hkdf hkeyset payload
  rw [verifyExplicit_eq_ok h hrequest.method]
  constructor
  · rintro ⟨-, -, token, payload, read, hpresents, -, hnonce, -⟩
    obtain ⟨honce, hopened, hread, hlive, hbound⟩ := hpresents
    obtain rfl := Except.ok.inj (hread.symm.trans hclock)
    rw [hrequest.once] at honce
    cases honce
    rw [hchecking] at hopened
    obtain ⟨-, hkey, rfl⟩ := (hopens payload).1 hopened
    exact ⟨hkey, hnonce, hlive, (binding_eq_of_bytes hbound).symm⟩
  · rintro ⟨hkey, hnonce, hlive, rfl⟩
    have hopened := (hopens i.payload).2 ⟨⟨rfl, rfl, rfl, rfl⟩, hkey, rfl⟩
    refine ⟨hrequest.host, hrequest.origin, i.cookie.value,
      i.payload, now, ⟨hrequest.once, ?_, hclock, hlive, rfl⟩,
      hrequest.readable, hnonce, hrequest.submits⟩
    rw [hchecking]
    exact hopened

/-- The layer calls the inner service for the unsafe requests that are verified, and for no other. -/
theorem call_innerCalls {ε β : Type} (service : CsrfService ε β)
    (hmethod : isCsrfSafeMethod request.method = false) :
    (service.protector.verifyRequest libraries answers request = .ok () ∧
        (service.call libraries answers request).innerCalls = [request]) ∨
      service.protector.verifyRequest libraries answers request ≠ .ok () ∧
        (service.call libraries answers request).innerCalls = [] := by
  have hnot : ¬isCsrfSafeMethod request.method = true := by rw [hmethod]; decide
  rw [CsrfService.call, if_neg hnot]
  cases hhost : CsrfProtector.validateDevelopmentRequestHostIsLocalhost libraries answers request with
  | error error =>
      refine .inr ⟨fun hverified => ?_, rfl⟩
      rw [validateHost_eq_ok.2 ((verifyRequest_eq_ok hmethod).1 hverified).1] at hhost
      cases hhost
  | ok _ =>
      dsimp only
      cases hverified : service.protector.verifyUnsafeRequest libraries answers request with
      | error failure =>
          refine .inr ⟨fun hall => ?_, rfl⟩
          rw [((verifyRequest_eq_ok hmethod).1 hall).2] at hverified
          cases hverified
      | ok _ =>
          exact .inl ⟨(verifyRequest_eq_ok hmethod).2 ⟨validateHost_eq_ok.1 hhost, hverified⟩, rfl⟩

/-- What a protector and its layer accept and issue. -/
structure AcceptsLiveTokens (libraries : Libraries)
    (config : CsrfProtectorConfig) (protector : CsrfProtector)
    (made : List (Sealing libraries.kdf libraries.xchacha libraries.aesGcmSiv)) : Prop where
  verified : ∀ answers request, isCsrfSafeMethod request.method = false →
    (protector.verifyRequest libraries answers request = .ok () ↔ HostRule libraries answers request ∧
      OriginRule libraries config request.headers ∧
        ∃ binding, config.extractBindingFromHeaders request.headers = .ok binding ∧
        ∃ token payload now, Presents libraries protector answers request binding token payload now ∧
          CookiesReadable libraries request ∧ Nonzero payload.nonce ∧
            Submits libraries protector request token)
  issued : ∀ i : Issued libraries protector, i.sealing ∈ made → ∀ answers request,
    Resubmits libraries config protector answers request i.cookie → ∀ keys keyset now,
    i.application.keyset libraries.kdf keys = .ok keyset → answers.checkingKeyset = .ok keyset →
    currentUnixSeconds answers.checkingClock = .ok now →
      NoCollision libraries.kdf (inputsInPlay made keys i.sealing.path) →
    ∀ binding, config.extractBindingFromHeaders request.headers = .ok binding →
      (protector.verifyRequest libraries answers request = .ok () ↔ Live i keys now binding)
  issuesNone : ∀ answers request,
    protector.issueTokenCookieIfNeededForRequest libraries answers request = .ok none ↔
      HostRule libraries answers request ∧
      ∃ binding, config.extractBindingFromHeaders request.headers = .ok binding ∧ ∃ token payload now,
        Presents libraries protector answers request binding token payload now ∧
          CookiesReadable libraries request ∧
          Nonzero payload.nonce
  served : ∀ {ε β : Type} (service : CsrfService ε β), service.protector = protector → ∀ answers request,
    isCsrfSafeMethod request.method = false →
    ((service.call libraries answers request).innerCalls = [request] ↔
      protector.verifyRequest libraries answers request = .ok ()) ∧
    ((service.call libraries answers request).innerCalls = [] ↔
      protector.verifyRequest libraries answers request ≠ .ok ())
  explicit : ∀ answers request binding, config.extractBindingFromHeaders request.headers = .ok binding →
    (isCsrfSafeMethod request.method = false →
      (protector.verifyRequestWithExplicitBinding libraries answers request binding = .ok () ↔
        protector.verifyRequest libraries answers request = .ok ())) ∧
    ∀ found, protector.issueTokenCookieIfNeededForExplicitBinding
      libraries answers request binding = .ok found ↔
      protector.issueTokenCookieIfNeededForRequest libraries answers request = .ok found

theorem accepts_live_tokens (hinner : libraries.xchacha.Ideal (InnerMade made))
    (houter : libraries.aesGcmSiv.Ideal (OuterMade made)) (hpayloads : libraries.payloads.Faithful)
    (hnew : CsrfProtector.new libraries config = .ok protector) :
    AcceptsLiveTokens libraries config protector made := by
  have h := configured_of_new hnew
  have hextract : ∀ request, protector.extractBinding request =
    config.extractBindingFromHeaders request.headers := fun request =>
    congrFun h.extract request.headers
  constructor
  · intro answers request hmethod
    simp only [verifyRequest_iff hmethod, verifyExplicit_eq_ok h hmethod, hextract]
    constructor
    · rintro ⟨binding, hbinding, hhost, horigin, hpresented⟩
      exact ⟨hhost, horigin, binding, hbinding, hpresented⟩
    · rintro ⟨hhost, horigin, binding, hbinding, hpresented⟩
      exact ⟨binding, hbinding, hhost, horigin, hpresented⟩
  · intro i hi answers request hrequest keys keyset now hkeyset hchecking hclock hkdf binding hbinding
    rw [← hextract] at hbinding
    rw [verifyRequest_of_extracted hrequest.method hbinding]
    exact resubmitted_iff hinner houter hpayloads h i hi hrequest hkeyset hchecking hclock hkdf
  · intro answers request
    simp only [issueIfNeeded_eq_ok, issueIfNeeded_eq_ok_none, hextract]
    constructor
    · rintro ⟨binding, hbinding, hhost, hpresented⟩
      exact ⟨hhost, binding, hbinding, hpresented⟩
    · rintro ⟨hhost, binding, hbinding, hpresented⟩
      exact ⟨binding, hbinding, hhost, hpresented⟩
  · rintro ε β service rfl answers request hmethod
    rcases @call_innerCalls libraries answers request ε β service
      hmethod with ⟨hverified, hcalls⟩ | ⟨hrefused, hcalls⟩
    · exact ⟨iff_of_true hcalls hverified,
        iff_of_false (by rw [hcalls]; exact cons_ne_nil _ _) (not_not.2 hverified)⟩
    · exact ⟨iff_of_false (by rw [hcalls]; exact nofun) hrefused, iff_of_true hcalls hrefused⟩
  · intro answers request binding hbinding
    rw [← hextract] at hbinding
    refine ⟨fun hmethod => (verifyRequest_of_extracted hmethod hbinding).symm, fun found => ?_⟩
    rw [issueIfNeeded_eq_ok, hbinding]
    constructor
    · exact fun hfound => ⟨binding, rfl, hfound⟩
    · rintro ⟨own, hown, hfound⟩
      exact Except.ok.inj hown ▸ hfound

end Lifecycle

section Example

open CookieEmission (production)
open StorageBinding (cookie cookiePath)
open TextCodecs (toBase64Url)

def formConfig : CsrfProtectorConfig where
  cookieManager := production
  extractBindingFromHeaders _ := .ok none
  cookieName := ['c', 's', 'r', 'f']
  headerName := ['x', '-', 'c', 's', 'r', 'f']
  tokenMaxAge := ⟨14400, by decide, by decide⟩
  allowedOrigins := []

def formProtector : CsrfProtector where
  extractBindingFromHeaders _ := .ok none
  cookie := ⟨hostPrefix ++ formConfig.cookieName, ['/'], none,
    true, .lax, false, true, some formConfig.tokenMaxAge, .hostOnly⟩
  headerName := formConfig.headerName
  tokenMaxAge := formConfig.tokenMaxAge
  allowedOrigins := []

/-- A nonce of zeros, or of ones. -/
def formNonce (zero : Bool) : FixedBytes csrfNonceSize :=
  ⟨replicate csrfNonceSize (if zero then 0 else 1), length_replicate⟩

def formPayload (zero : Bool) : CsrfCookiePayload := ⟨formNonce zero, 100 + 14400, none⟩

/-- The nonce, the time as a variable-length number, and no binding. -/
def formPlaintext (zero : Bool) : Bytes := (formNonce zero).val ++ [0xc8, 0xe2, 0x01, 0x00]

def formSealed (zero : Bool) : Sealed where
  path := cookiePath
  context := associatedData formProtector.cookie
  plaintext := formPlaintext zero
  derived := cookie.derived
  padded := by cases zero <;> decide +kernel
  bounded := by decide +kernel

def formLibraries (zero : Bool) : Libraries where
  crates := default
  parseUrl _ := none
  kdf := digestKdf
  xchacha := recordedCiphers ([formSealed zero].map Sealed.inner)
  aesGcmSiv := recordedCiphers ([formSealed zero].map Sealed.outer)
  payloads :=
    { serialize := fun payload => if payload = formPayload zero then some (formPlaintext zero) else none
      deserialize := fun bytes => if bytes = formPlaintext zero then some (formPayload zero) else none }

def formEnvelope (zero : Bool) : Bytes := (formSealed zero).envelope

def formSealing (zero : Bool) :
    Sealing (formLibraries zero).kdf (formLibraries zero).xchacha (formLibraries zero).aesGcmSiv :=
  (formSealed zero).sealing [formSealed zero]

def formKeyset : Keyset := ⟨[0x61, 0x70, 0x70],
    [EnvelopeModel.deriveWorkingKeyFromKey32 digestKdf retiredKey [0x61, 0x70, 0x70]]⟩

theorem form_keyset :
    (PurposePath.root [0x61, 0x70, 0x70]).keyset digestKdf [retiredKey] = .ok formKeyset :=
  keyset_of_isOk (by decide +kernel)

def formAnswers (zero : Bool) (now : Nat) : Answers where
  isDevelopment := false
  checkingKeyset := .ok formKeyset
  checkingClock := some now
  nonce := .ok (formNonce zero)
  issuingClock := some now
  issuingKeyset := .ok formKeyset
  fillRandom call n := .ok ⟨replicate n (UInt8.ofNat call), length_counted call n⟩

def formCookie (zero : Bool) : Cookie :=
  formProtector.cookie.applyAttributes (toBase64Url default (formEnvelope zero))

theorem form_serialized (zero : Bool) :
    (formLibraries zero).payloads.serialize (formPayload zero) = some (formPlaintext zero) := if_pos rfl

theorem form_issued (zero : Bool) :
    formProtector.cycleTokenCookieForBinding (formLibraries zero) (formAnswers zero 100) none =
      .ok (formCookie zero) := by
  have hplaintext : toPlaintextBytes (formLibraries zero).payloads (formPayload zero) =
      .ok (formPlaintext zero) := by
    rw [toPlaintextBytes, form_serialized]
    cases zero <;> rfl
  have hcookieKeyset : encryptedCookieKeyset digestKdf (.ok formKeyset) =
      .ok (formSealing zero).keyset :=
    (congrArg (encryptedCookieKeyset digestKdf) (congrArg (Except.mapError _) form_keyset)).symm.trans
      (encryptedCookieKeyset_eq_ok.2 cookie.derived)
  exact Postgres.mapError_eq_ok.2 (newCookie_eq_ok hcookieKeyset hplaintext (formSealing zero).sealed
    (by cases zero <;> decide +kernel))

def formIssued (zero : Bool) : Issued (formLibraries zero) formProtector where
  binding := none
  cookie := formCookie zero
  answers := formAnswers zero 100
  issues := .cycledForBinding (form_issued zero)
  nonce := formNonce zero
  nonce_eq := rfl
  issuedAt := 100
  clock_eq := rfl
  sealing := formSealing zero
  application := .root [0x61, 0x70, 0x70]
  path_eq := rfl
  keyset_eq := (congrArg (Except.mapError _) form_keyset).symm
  random_eq := rfl
  plaintext_eq := form_serialized zero
  context_eq := rfl

/-- The token cookie with something in front of it in its header, submitted with its value. -/
def formRequest (zero : Bool) (front : Text) : Request where
  method := ['P', 'O', 'S', 'T']
  uriHost := none
  headers := [(Header.cookie,
    Utf8Text.utf8 (front ++ formProtector.cookie.name ++ '=' :: (formCookie zero).value)),
    (formConfig.headerName, Utf8Text.utf8 (formCookie zero).value)]

theorem form_ideal (zero : Bool) : (formLibraries zero).xchacha.Ideal (InnerMade [formSealing zero]) ∧
    (formLibraries zero).aesGcmSiv.Ideal (OuterMade [formSealing zero]) := by
  exact ⟨recordedCiphers_ideal (nodup_singleton _) Sealed.innerMade_sealing,
    recordedCiphers_ideal (nodup_singleton _) Sealed.outerMade_sealing⟩

theorem form_payloads_faithful (zero : Bool) : (formLibraries zero).payloads.Faithful := by
  intro payload bytes h
  by_cases hpayload : payload = formPayload zero
  · have hbytes : some (formPlaintext zero) = some bytes := (if_pos hpayload).symm.trans h
    cases hbytes
    rw [hpayload]
    exact if_pos rfl
  · have hnone : none = some bytes := (if_neg hpayload).symm.trans h
    cases hnone

theorem form_noCollision (zero : Bool) :
    NoCollision (formLibraries zero).kdf
      (inputsInPlay [formSealing zero] [retiredKey] (formIssued zero).sealing.path) := by
  cases zero <;> exact noCollision_of_dedup (by decide +kernel)

theorem form_goodName : CookieNames.GoodName formProtector.cookie.name :=
  ⟨by decide, by decide, by decide, TrimmedText.trimmed_of_all rfl⟩

theorem form_value_visible (zero : Bool) : CookieNames.Visible (formCookie zero).value :=
  visible_toBase64Url default (formEnvelope zero)

theorem form_cookie_text (zero : Bool) :
    (formLibraries zero).crates.toStr
      (Utf8Text.utf8 (formProtector.cookie.name ++ '=' :: (formCookie zero).value)) =
      some (CookieNames.headerText [⟨formProtector.cookie.name, (formCookie zero).value⟩]) := by
  have hvisible : CookieNames.Visible (formProtector.cookie.name ++ '=' :: (formCookie zero).value) := by
    rw [CookieNames.Visible, all_append, all_cons, form_value_visible zero]
    rfl
  rw [CookieNames.toStr_utf8, if_pos hvisible]
  simp [CookieNames.headerText, Pair.text, intercalate]

theorem form_cookieParts (zero : Bool) :
    cookieParts (formLibraries zero).crates ((formRequest zero []).headers.getAll Header.cookie) =
      [.ok ⟨formProtector.cookie.name, (formCookie zero).value⟩] := by
  have hgood : ∀ pair ∈ [(⟨formProtector.cookie.name, (formCookie zero).value⟩ : Pair)],
      CookieNames.Pair.Good pair := by
    intro pair hpair
    obtain rfl := mem_singleton.1 hpair
    exact ⟨form_goodName, goodValue_toBase64Url default (formEnvelope zero)⟩
  refine (cookieParts_cons (form_cookie_text zero)).trans ?_
  rw [CookieNames.splitParse_headerText hgood]
  rfl

theorem form_submits (zero : Bool) (front : Text) :
    Submits (formLibraries zero) formProtector (formRequest zero front) (formCookie zero).value :=
  ⟨⟨_, rfl, (CookieNames.toStr_utf8 _).trans (if_pos (form_value_visible zero))⟩,
    toBase64Url_ne_nil default (append_ne_nil_of_left_ne_nil
      (ne_nil_of_length_pos ((EnvelopeRotation.length_buildHeader tokenFields).symm ▸ by decide)) _)⟩

theorem form_resubmits (zero : Bool) (now : Nat) :
    Resubmits (formLibraries zero) formConfig formProtector (formAnswers zero now)
    (formRequest zero []) (formIssued zero).cookie where
  method := rfl
  host := nofun
  origin := .inl rfl
  readable := by
    refine ⟨fun value hvalue => ?_, ?_⟩
    · rw [mem_singleton.1 (hvalue : value ∈ [_])]
      exact Option.isSome_iff_exists.2 ⟨_, form_cookie_text zero⟩
    rw [form_cookieParts]
    exact fun part hpart => ⟨_, mem_singleton.1 hpart⟩
  once := by
    rw [namedCookies, form_cookieParts]
    exact filter_eq_self.2 fun pair hpair => decide_eq_true (mem_singleton.1 hpair ▸ rfl)
  submits := form_submits zero []

/-- An issued token is accepted until its time has come. -/
theorem accepts_live_tokens_form :
    formProtector.verifyRequest (formLibraries false)
      (formAnswers false 14499) (formRequest false []) = .ok () ∧
      formProtector.verifyRequest (formLibraries false)
        (formAnswers false 14500) (formRequest false []) ≠ .ok () := by
  have hnew : CsrfProtector.new (formLibraries false) formConfig = .ok formProtector := rfl
  have htokens := accepts_live_tokens (form_ideal false).1
    (form_ideal false).2 (form_payloads_faithful false) hnew
  have hlive := fun now hread =>
    htokens.issued (formIssued false) mem_cons_self (formAnswers false now) _ (form_resubmits false now)
    [retiredKey] formKeyset now form_keyset rfl hread (form_noCollision false) none rfl
  have hnonce : Nonzero (formIssued false).nonce :=
    fun hzeros => absurd (congrArg head? hzeros) (by decide)
  refine ⟨(hlive 14499 rfl).2 ⟨mem_cons_self, hnonce, by decide, rfl⟩, fun haccepted => ?_⟩
  exact absurd ((hlive 14500 rfl).1 haccepted).unexpired (by decide)

/-- A stray text in front of a cookie. -/
def stray : Text := ['x', ';', ' ']

/-- A right place, and a token that is presented for the binding of the request and submitted. -/
def Qualifies (libraries : Libraries) (config : CsrfProtectorConfig)
    (protector : CsrfProtector) (answers : Answers)
    (request : Request) : Prop :=
  isCsrfSafeMethod request.method = false ∧ HostRule libraries answers request ∧
    OriginRule libraries config request.headers ∧
    ∃ binding, protector.extractBinding request = .ok binding ∧ ∃ token payload now,
      Presents libraries protector answers request binding token payload now ∧
        Submits libraries protector request token

theorem form_opens (zero : Bool) :
    decodeCookieValue (formLibraries zero).crates (formLibraries zero).kdf (formLibraries zero).xchacha
    (formLibraries zero).aesGcmSiv (formLibraries zero).payloads
      formProtector.cookie (.ok formKeyset) (formCookie zero).value =
      .ok (formPayload zero) := by
  have haccepted : Accepted (formLibraries zero).crates formProtector.cookie :=
    ⟨production, .hostOnly,
      ⟨formConfig.cookieName, some formConfig.tokenMaxAge,
      some .lax, none, some false⟩, .encrypted, rfl⟩
  exact (decode_minted_eq_ok (form_ideal zero).1 (form_ideal zero).2 (form_payloads_faithful zero)
    ((formIssued zero).minting haccepted) mem_cons_self haccepted (form_noCollision zero)
    form_keyset).2 ⟨⟨rfl, rfl, rfl, rfl⟩, mem_cons_self, rfl⟩

theorem form_stray_text :
    (formLibraries false).crates.toStr
      (Utf8Text.utf8 (stray ++ formProtector.cookie.name ++ '=' :: (formCookie false).value)) =
      some (intercalate [';', ' '] [['x'],
        Pair.text ⟨formProtector.cookie.name, (formCookie false).value⟩]) := by
  have hvisible : CookieNames.Visible
      (stray ++ formProtector.cookie.name ++ '=' :: (formCookie false).value) := by
    rw [CookieNames.Visible, all_append, all_cons, form_value_visible false]
    rfl
  rw [CookieNames.toStr_utf8, if_pos hvisible]
  simp [stray, Pair.text, intercalate]

theorem form_stray_cookieParts :
    cookieParts (formLibraries false).crates ((formRequest false stray).headers.getAll Header.cookie) =
      [.error .missingPair, .ok ⟨formProtector.cookie.name, (formCookie false).value⟩] := by
  have hgood : CookieNames.Pair.Good ⟨formProtector.cookie.name, (formCookie false).value⟩ :=
    ⟨form_goodName, goodValue_toBase64Url default (formEnvelope false)⟩
  refine (cookieParts_cons form_stray_text).trans ?_
  have hclear : ∀ text ∈ [Pair.text ⟨formProtector.cookie.name, (formCookie false).value⟩],
      ';' ∉ text := by
    intro text htext
    rw [mem_singleton.1 htext]
    simp [Pair.text, hgood.name.semicolon, hgood.value.semicolon]
  rw [(formLibraries false).crates.splitParse_eq,
    TrimmedText.splitOn_intercalate_spaced (by decide) (by decide) hclear]
  have hkeep : ∀ part ∈ ['x'] :: map (' ' :: ·)
      [Pair.text ⟨formProtector.cookie.name, (formCookie false).value⟩],
      (!part.all MnemonicModel.isWhitespace) = true := by
    rw [forall_mem_cons, map_singleton, forall_mem_singleton]
    refine ⟨rfl, ?_⟩
    rw [all_cons, CookieNames.not_all_text, Bool.and_false]
    rfl
  rw [filter_eq_self.2 hkeep, map_cons, map_singleton, map_singleton,
    CookieNames.parsePair_spaced_text hgood]
  rfl

/-- A token with a nonce of zeros is refused, though it was issued; and so is a good one next to what is no cookie. -/
theorem qualified_and_refused :
    Issues (formLibraries true) formProtector (formAnswers true 100) none (formCookie true) ∧
      Qualifies (formLibraries true) formConfig formProtector
        (formAnswers true 200) (formRequest true []) ∧
      formProtector.verifyRequest (formLibraries true)
        (formAnswers true 200) (formRequest true []) ≠ .ok () ∧
      Qualifies (formLibraries false) formConfig formProtector
        (formAnswers false 200) (formRequest false stray) ∧
      formProtector.verifyRequest (formLibraries false)
        (formAnswers false 200) (formRequest false stray) ≠ .ok () := by
  have hnew : ∀ zero, CsrfProtector.new (formLibraries zero) formConfig = .ok formProtector :=
    fun _ => rfl
  have hlive := @resubmitted_iff (formLibraries true) formConfig
    formProtector (formAnswers true 200) (formRequest true []) none _
    (form_ideal true).1 (form_ideal true).2 (form_payloads_faithful true)
    (configured_of_new (hnew _)) (formIssued true) mem_cons_self
    (form_resubmits true 200)
    [retiredKey] formKeyset 200 form_keyset rfl rfl (form_noCollision true)
  refine ⟨(formIssued true).issues,
    ⟨rfl, nofun, .inl rfl, none, rfl, (formCookie true).value, formPayload true, 200, ?_, ?_⟩, ?_,
    ⟨rfl, nofun, .inl rfl, none, rfl, (formCookie false).value, formPayload false, 200, ?_, ?_⟩, ?_⟩
  · exact ⟨(form_resubmits true 200).once, form_opens true, rfl, by decide, rfl⟩
  · exact (form_resubmits true 200).submits
  · rw [Ne, verifyRequest_of_extracted rfl rfl, hlive]
    exact fun h => h.nonce rfl
  · refine ⟨?_, form_opens false, rfl, by decide, rfl⟩
    rw [namedCookies, form_stray_cookieParts]
    exact filter_eq_self.2 fun pair hpair => decide_eq_true (mem_singleton.1 hpair ▸ rfl)
  · exact form_submits false stray
  · intro h
    obtain ⟨_, -, hexplicit⟩ := (verifyRequest_iff rfl).1 h
    obtain ⟨-, -, token, payload, read, -, hreadable, -⟩ :=
      (verifyExplicit_eq_ok (configured_of_new (hnew _)) rfl).1 hexplicit
    have hpairs := hreadable.pairs
    rw [form_stray_cookieParts] at hpairs
    obtain ⟨pair, hpair⟩ := hpairs _ mem_cons_self
    cases hpair

end Example

end Paranoid.CsrfLifecycle

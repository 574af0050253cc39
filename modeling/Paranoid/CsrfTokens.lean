import Paranoid.CsrfReading

namespace Paranoid.CsrfTokens

open ByteCodecs CsrfModel CsrfReading CsrfRequests EncryptedCookies EnvelopeRotation
  KeysetDerivation List SetCookieText Utf8Text
open CookieModel hiding Error
open Postgres (bind_eq_error bind_eq_ok forall₂_mem_left forall₂_mem_right guard_eq_ok lastGuard_eq_ok
  mapError_eq_error mapError_eq_ok mapM_eq_ok ok_bind)
open Utf8Text (Text)

section Origins

variable {libraries : Libraries} {config : CsrfProtectorConfig}
  {protector : CsrfProtector} {headers : HeaderMap}

/-- The header that tells where a request is from: `Origin`, or `Referer` where there is no `Origin` or an empty one. -/
inductive DecidingHeader (crates : Crates) (headers : HeaderMap) : Text → Label → Prop
  | origin {text : Text} (h : HasText crates headers Header.origin text) (hne : text ≠ []) : DecidingHeader crates headers text .origin
  | referer {text : Text} (hblank : Blank crates headers Header.origin) (h : HasText crates headers Header.referer text)
      (hne : text ≠ []) : DecidingHeader crates headers text .referer

/-- Without configured origins every request may pass; else those from one of them. -/
def OriginRule (libraries : Libraries) (config : CsrfProtectorConfig) (headers : HeaderMap) : Prop :=
  config.allowedOrigins = [] ∨
    ∃ text label, DecidingHeader libraries.crates headers text label ∧
      ∃ origin allowed, allowed ∈ config.allowedOrigins ∧
      normalizeRequestOriginHeader libraries.parseUrl text label = .ok origin ∧
      normalizeExactOrigin libraries.parseUrl allowed .allowedOrigin = .ok origin

theorem mem_of_mapM {ε α β : Type} {f : α → Except ε β}
    {as : List α} {bs : List β} (h : as.mapM f = .ok bs) {b : β} :
    b ∈ bs ↔ ∃ a ∈ as, f a = .ok b := by
  have hall := mapM_eq_ok h
  constructor
  · exact forall₂_mem_right hall
  · rintro ⟨a, ha, hb⟩
    obtain ⟨b', hmem, hb'⟩ := forall₂_mem_left hall ha
    rwa [Except.ok.inj (hb.symm.trans hb')]

theorem mem_normalizeAllowedOrigins {parseUrl : Text → Option Url} {origins normalized : List Text}
    (h : normalizeAllowedOrigins parseUrl origins = .ok normalized) {origin : Text} :
    origin ∈ normalized ↔
      ∃ allowed ∈ origins, normalizeExactOrigin parseUrl allowed .allowedOrigin = .ok origin := by
  obtain ⟨each, heach, h⟩ := bind_eq_ok.1 h
  cases h
  rw [mem_dedup, mem_insertionSort, mem_of_mapM heach]

theorem normalizeAllowedOrigins_eq_nil {parseUrl : Text → Option Url} {origins normalized : List Text}
    (h : normalizeAllowedOrigins parseUrl origins = .ok normalized) :
    normalized = [] ↔ origins = [] := by
  constructor
  · intro hempty
    cases origins with
    | nil => rfl
    | cons first origins =>
        obtain ⟨each, heach, hnormalized⟩ := bind_eq_ok.1 h
        rw [mapM_cons] at heach
        obtain ⟨origin, horigin, -⟩ := bind_eq_ok.1 heach
        have hmem := (mem_normalizeAllowedOrigins h).2 ⟨first, mem_cons_self, horigin⟩
        rw [hempty] at hmem
        cases hmem
  · rintro rfl
    cases h
    rfl

/-- What a protector takes from its configuration. -/
structure Configured (libraries : Libraries)
    (config : CsrfProtectorConfig) (protector : CsrfProtector) : Prop where
  accepted : Accepted libraries.crates protector.cookie
  extract : protector.extractBindingFromHeaders = config.extractBindingFromHeaders
  headerName : protector.headerName = config.headerName
  tokenMaxAge : protector.tokenMaxAge = config.tokenMaxAge
  origins : normalizeAllowedOrigins libraries.parseUrl config.allowedOrigins =
    .ok protector.allowedOrigins

theorem configured_of_new (h : CsrfProtector.new libraries config = .ok protector) :
    Configured libraries config protector := by
  obtain ⟨origins, horigins, h⟩ := bind_eq_ok.1 h
  obtain ⟨cookie, hcookie, h⟩ := bind_eq_ok.1 h
  cases h
  exact ⟨⟨_, _, _, _, mapError_eq_ok.1 hcookie⟩, rfl, rfl, rfl, horigins⟩

theorem validateOriginHeader_eq_ok (h : Configured libraries config protector)
    {text : Text} {label : Label} :
    protector.validateOriginHeader libraries text label = .ok () ↔
      ∃ origin allowed, allowed ∈ config.allowedOrigins ∧
      normalizeRequestOriginHeader libraries.parseUrl text label = .ok origin ∧
      normalizeExactOrigin libraries.parseUrl allowed .allowedOrigin = .ok origin := by
  rw [CsrfProtector.validateOriginHeader, bind_eq_ok]
  have hallowed : ∀ origin, protector.allowedOrigins.any (· = origin) = true ↔
      ∃ allowed ∈ config.allowedOrigins,
        normalizeExactOrigin libraries.parseUrl allowed .allowedOrigin = .ok origin := by
    intro origin
    rw [← mem_normalizeAllowedOrigins h.origins, any_eq_true]
    simp only [decide_eq_true_iff, exists_eq_right]
  constructor
  · rintro ⟨origin, horigin, hany⟩
    by_cases hlisted : protector.allowedOrigins.any (· = origin) = true
    · obtain ⟨allowed, hmem, hnormal⟩ := (hallowed origin).1 hlisted
      exact ⟨origin, allowed, hmem, horigin, hnormal⟩
    · rw [if_neg hlisted] at hany
      cases hany
  · rintro ⟨origin, allowed, hmem, horigin, hnormal⟩
    exact ⟨origin, horigin, if_pos ((hallowed origin).2 ⟨allowed, hmem, hnormal⟩)⟩

theorem validateOrigin_eq_ok (h : Configured libraries config protector) :
    protector.validateOrigin libraries headers = .ok () ↔ OriginRule libraries config headers := by
  rw [CsrfProtector.validateOrigin, OriginRule, ← normalizeAllowedOrigins_eq_nil h.origins]
  by_cases hempty : protector.allowedOrigins = []
  · rw [if_pos hempty]
    exact iff_of_true rfl (.inl hempty)
  · rw [if_neg hempty, or_iff_right hempty]
    constructor
    · intro hvalid
      obtain ⟨origin, horigin, hvalid⟩ := bind_eq_ok.1 hvalid
      cases origin with
      | some text =>
          obtain ⟨htext, hne⟩ := headerToNonemptyStr_eq_ok_some.1 horigin
          exact ⟨text, _, .origin htext hne, (validateOriginHeader_eq_ok h).1 hvalid⟩
      | none =>
          obtain ⟨referer, hreferer, hvalid⟩ := bind_eq_ok.1 hvalid
          cases referer with
          | none => cases hvalid
          | some text =>
              obtain ⟨htext, hne⟩ := headerToNonemptyStr_eq_ok_some.1 hreferer
              exact ⟨text, _, .referer (headerToNonemptyStr_eq_ok_none.1 horigin) htext hne,
                (validateOriginHeader_eq_ok h).1 hvalid⟩
    · rintro ⟨text, label, hheader, hallowed⟩
      have hvalid := (validateOriginHeader_eq_ok h).2 hallowed
      cases hheader with
      | origin htext hne =>
          exact bind_eq_ok.2 ⟨some text, headerToNonemptyStr_eq_ok_some.2 ⟨htext, hne⟩, hvalid⟩
      | referer hblank htext hne =>
          exact bind_eq_ok.2 ⟨none, headerToNonemptyStr_eq_ok_none.2 hblank,
            bind_eq_ok.2 ⟨some text, headerToNonemptyStr_eq_ok_some.2 ⟨htext, hne⟩, hvalid⟩⟩

end Origins

section Verification

variable {libraries : Libraries} {config : CsrfProtectorConfig}
  {protector : CsrfProtector} {answers : Answers} {request : Request}
  {binding : Option CsrfBinding}

/-- Where the host has to be a loopback host, it is. -/
def HostRule (libraries : Libraries) (answers : Answers) (request : Request) : Prop :=
  answers.isDevelopment = true → isLocalhostHost ((requestHost libraries.crates request).getD []) = true

def CookiesReadable (libraries : Libraries) (request : Request) : Prop :=
  Readable libraries.crates (request.headers.getAll Header.cookie)

/-- The only token cookie of a request opens to a payload that is not expired and has the binding. -/
structure Presents (libraries : Libraries) (protector : CsrfProtector)
    (answers : Answers) (request : Request)
    (binding : Option CsrfBinding) (token : Text) (payload : CsrfCookiePayload) (now : Int) : Prop where
  once : namedCookies libraries.crates (request.headers.getAll Header.cookie) protector.cookie.name =
    [⟨protector.cookie.name, token⟩]
  opens : decodeCookieValue libraries.crates libraries.kdf libraries.xchacha
    libraries.aesGcmSiv libraries.payloads protector.cookie
    answers.checkingKeyset token = .ok payload
  clock : currentUnixSeconds answers.checkingClock = .ok now
  live : now < payload.expiresAtUnix
  bound : payload.binding = binding.map CsrfBinding.bytes

/-- A nonce of zeros is none. -/
def Nonzero (nonce : FixedBytes csrfNonceSize) : Prop := nonce.val ≠ replicate csrfNonceSize 0

/-- The token stands in the only header for it. -/
def Submits (libraries : Libraries) (protector : CsrfProtector)
    (request : Request) (token : Text) : Prop :=
  HasText libraries.crates request.headers protector.headerName token ∧ token ≠ []

theorem validateHost_eq_ok :
    CsrfProtector.validateDevelopmentRequestHostIsLocalhost libraries answers request = .ok () ↔
    HostRule libraries answers request := by
  unfold CsrfProtector.validateDevelopmentRequestHostIsLocalhost HostRule
  by_cases hdevelopment : answers.isDevelopment = true
  · rw [if_neg (not_not.2 hdevelopment)]
    by_cases hlocal : isLocalhostHost ((requestHost libraries.crates request).getD []) = true
    · exact iff_of_true (if_pos hlocal) fun _ => hlocal
    · refine iff_of_false (fun h => ?_) fun h => hlocal (h hdevelopment)
      rw [if_neg hlocal] at h
      cases h
  · rw [if_pos hdevelopment]
    exact iff_of_true rfl fun h => absurd h hdevelopment

theorem bindingMatches_iff {left : Option Bytes} :
    bindingMatches left binding = true ↔ left = binding.map CsrfBinding.bytes := by
  cases left with
  | none => cases binding <;> simp [bindingMatches]
  | some left => cases binding <;> simp [bindingMatches]

theorem isValid_iff {payload : CsrfCookiePayload} {now : Int} :
    payload.isValid now = true ↔ Nonzero payload.nonce ∧ now < payload.expiresAtUnix := by
  rw [CsrfCookiePayload.isValid, Bool.and_eq_true, decide_eq_true_iff, decide_eq_true_iff, Nonzero]

theorem parseFromRequest_eq_ok {cookie : Pair} :
    protector.parseFromRequest libraries request = .ok cookie ↔
    CookiesReadable libraries request ∧
      namedCookies libraries.crates (request.headers.getAll Header.cookie) protector.cookie.name =
        [cookie] := by
  rw [CsrfProtector.parseFromRequest, mapError_eq_ok, parseFromHeaders_eq_ok]
  rfl

theorem name_of_namedCookies {crates : Crates} {values : List Bytes} {name : Text} {cookie : Pair}
    (h : namedCookies crates values name = [cookie]) : cookie.name = name := by
  have hmem : cookie ∈ namedCookies crates values name := h ▸ mem_cons_self
  exact of_decide_eq_true (mem_filter.1 hmem).2

theorem payloadFromCookie_eq {cookie : Pair} (hname : cookie.name = protector.cookie.name) :
    protector.payloadFromCookie libraries answers cookie =
      (decodeCookieValue libraries.crates libraries.kdf libraries.xchacha
      libraries.aesGcmSiv libraries.payloads protector.cookie
        answers.checkingKeyset cookie.value).mapError .cookie := by
  rw [CsrfProtector.payloadFromCookie, CookieSpec.getFromCookie, if_neg (not_not.2 hname)]

/-- The steps that all copies of the check have in common. -/
structure Checked (libraries : Libraries) (protector : CsrfProtector)
    (answers : Answers) (request : Request)
    (cookie : Pair) (payload : CsrfCookiePayload) (now : Int) : Prop where
  parsed : protector.parseFromRequest libraries request = .ok cookie
  opened : protector.payloadFromCookie libraries answers cookie = .ok payload
  read : currentUnixSeconds answers.checkingClock = .ok now
  valid : payload.isValid now = true

/-- A checked cookie with the binding is a cookie that is presented, where the headers can be read and the nonce is one. -/
theorem checked_iff {token : Text} {payload : CsrfCookiePayload} {now : Int} :
    (∃ cookie, Checked libraries protector answers request cookie payload now ∧
      bindingMatches payload.binding binding = true ∧
      cookie.value = token) ↔
      Presents libraries protector answers request binding token payload now ∧
        CookiesReadable libraries request ∧
        Nonzero payload.nonce := by
  constructor
  · rintro ⟨cookie, ⟨hparsed, hopened, hread, hvalid⟩, hmatches, rfl⟩
    obtain ⟨hreadable, honce⟩ := parseFromRequest_eq_ok.1 hparsed
    have hname := name_of_namedCookies honce
    rw [payloadFromCookie_eq hname, mapError_eq_ok] at hopened
    obtain ⟨hnonce, hlive⟩ := isValid_iff.1 hvalid
    refine ⟨⟨?_, hopened, hread, hlive, bindingMatches_iff.1 hmatches⟩, hreadable, hnonce⟩
    rw [honce, ← hname]
  · rintro ⟨⟨honce, hopened, hread, hlive, hbound⟩, hreadable, hnonce⟩
    refine ⟨_, ⟨parseFromRequest_eq_ok.2 ⟨hreadable, honce⟩, ?_, hread, isValid_iff.2 ⟨hnonce, hlive⟩⟩,
      bindingMatches_iff.2 hbound, rfl⟩
    rw [payloadFromCookie_eq rfl, mapError_eq_ok]
    exact hopened

/-- A checked cookie with the binding is submitted too. -/
def Passes (libraries : Libraries) (protector : CsrfProtector) (answers : Answers) (request : Request)
    (binding : Option CsrfBinding) : Prop :=
  ∃ cookie payload now, Checked libraries protector answers request cookie payload now ∧
    submittedToken libraries.crates request.headers protector.headerName = .ok cookie.value ∧
    bindingMatches payload.binding binding = true

theorem verifyUnsafeRequest_eq_ok : protector.verifyUnsafeRequest libraries answers request = .ok () ↔
    protector.validateOrigin libraries request.headers = .ok () ∧
      ∃ binding, protector.extractBinding request = .ok binding ∧
        Passes libraries protector answers request binding := by
  simp only [CsrfProtector.verifyUnsafeRequest, bind_eq_ok,
    mapError_eq_ok, guard_eq_ok, lastGuard_eq_ok, not_not]
  constructor
  · rintro ⟨⟨⟩, horigin, binding, hbinding, cookie, hparsed, payload,
      hopened, now, hread, hvalid, token, htoken, hsame, hmatches⟩
    rw [utf8_inj hsame] at htoken
    exact ⟨horigin, binding, hbinding, cookie, payload, now,
      ⟨hparsed, hopened, hread, hvalid⟩, htoken, hmatches⟩
  · rintro ⟨horigin, binding, hbinding, cookie, payload, now,
      ⟨hparsed, hopened, hread, hvalid⟩, htoken, hmatches⟩
    exact ⟨(), horigin, binding, hbinding, cookie, hparsed, payload,
      hopened, now, hread, hvalid, _, htoken, rfl, hmatches⟩

theorem verifyUnsafeRequestWithExplicitBinding_eq_ok :
    protector.verifyUnsafeRequestWithExplicitBinding libraries answers request binding = .ok () ↔
      protector.validateOrigin libraries request.headers = .ok () ∧
        Passes libraries protector answers request binding := by
  simp only [CsrfProtector.verifyUnsafeRequestWithExplicitBinding,
    bind_eq_ok, mapError_eq_ok, guard_eq_ok, lastGuard_eq_ok,
    not_not]
  constructor
  · rintro ⟨⟨⟩, horigin, cookie, hparsed, payload, hopened,
      now, hread, hvalid, token, htoken, hsame, hmatches⟩
    rw [utf8_inj hsame] at htoken
    exact ⟨horigin, cookie, payload, now, ⟨hparsed, hopened, hread, hvalid⟩, htoken, hmatches⟩
  · rintro ⟨horigin, cookie, payload, now, ⟨hparsed, hopened, hread, hvalid⟩, htoken, hmatches⟩
    exact ⟨(), horigin, cookie, hparsed, payload, hopened, now, hread, hvalid, _, htoken, rfl, hmatches⟩

theorem passes_iff : Passes libraries protector answers request binding ↔ ∃ token payload now,
    Presents libraries protector answers request binding token payload now ∧
      CookiesReadable libraries request ∧
      Nonzero payload.nonce ∧ Submits libraries protector request token := by
  constructor
  · rintro ⟨cookie, payload, now, hchecked, htoken, hmatches⟩
    obtain ⟨hpresents, hreadable, hnonce⟩ := checked_iff.1 ⟨cookie, hchecked, hmatches, rfl⟩
    exact ⟨_, payload, now, hpresents, hreadable, hnonce, submittedToken_eq_ok.1 htoken⟩
  · rintro ⟨token, payload, now, hpresents, hreadable, hnonce, hsubmits⟩
    obtain ⟨cookie, hchecked, hmatches, rfl⟩ := checked_iff.2 ⟨hpresents, hreadable, hnonce⟩
    exact ⟨cookie, payload, now, hchecked, submittedToken_eq_ok.2 hsubmits, hmatches⟩

theorem validateHost_bind_eq_ok {α : Type} {rest : Unit → Except Error α} {a : α} :
    (CsrfProtector.validateDevelopmentRequestHostIsLocalhost libraries answers request >>= rest) =
      .ok a ↔
      HostRule libraries answers request ∧ rest () = .ok a := by
  rw [bind_eq_ok, ← validateHost_eq_ok]
  exact ⟨fun ⟨_, h⟩ => h, fun h => ⟨(), h⟩⟩

theorem verifyRequest_eq_ok (hmutating : isCsrfSafeMethod request.method = false) :
    protector.verifyRequest libraries answers request = .ok () ↔
      HostRule libraries answers request ∧
        protector.verifyUnsafeRequest libraries answers request = .ok () := by
  have hmethod : ¬isCsrfSafeMethod request.method = true := by rw [hmutating]; decide
  rw [CsrfProtector.verifyRequest, validateHost_bind_eq_ok, if_neg hmethod, mapError_eq_ok]

theorem verifyRequestWithExplicitBinding_eq_ok (hmutating : isCsrfSafeMethod request.method = false) :
    protector.verifyRequestWithExplicitBinding libraries answers request binding = .ok () ↔
      HostRule libraries answers request ∧
        protector.verifyUnsafeRequestWithExplicitBinding libraries answers request binding =
          .ok () := by
  have hmethod : ¬isCsrfSafeMethod request.method = true := by rw [hmutating]; decide
  rw [CsrfProtector.verifyRequestWithExplicitBinding,
    validateHost_bind_eq_ok, if_neg hmethod, mapError_eq_ok]

/-- The request's own binding is issued for as an explicit one is. -/
theorem issueIfNeeded_eq_ok {found : Option Cookie} :
    protector.issueTokenCookieIfNeededForRequest libraries answers request = .ok found ↔
      ∃ binding, protector.extractBinding request = .ok binding ∧
        protector.issueTokenCookieIfNeededForExplicitBinding libraries answers request binding =
          .ok found := by
  simp only [CsrfProtector.issueTokenCookieIfNeededForRequest,
    CsrfProtector.issueTokenCookieIfNeededForExplicitBinding,
    validateHost_bind_eq_ok]
  rw [bind_eq_ok]
  constructor
  · rintro ⟨hhost, binding, hbinding, h⟩
    exact ⟨binding, hbinding, hhost, h⟩
  · rintro ⟨binding, hbinding, hhost, h⟩
    exact ⟨hhost, binding, hbinding, h⟩

/-- Nothing is issued for a checked cookie with the binding, and else a new one. -/
theorem issueIfNeeded_cases {found : Option Cookie}
    (h : protector.issueTokenCookieIfNeededForExplicitBinding libraries answers request binding =
      .ok found) :
    HostRule libraries answers request ∧
      ((found = none ∧ ∃ cookie payload now,
        Checked libraries protector answers request cookie payload now ∧
          bindingMatches payload.binding binding = true) ∨
        ∃ cookie, found = some cookie ∧
          protector.newTokenCookie libraries answers binding = .ok cookie) := by
  rw [CsrfProtector.issueTokenCookieIfNeededForExplicitBinding, validateHost_bind_eq_ok] at h
  obtain ⟨hhost, h⟩ := h
  refine ⟨hhost, ?_⟩
  have hnew : (protector.newTokenCookie libraries answers binding >>=
    fun cookie => pure (some cookie)) = .ok found →
      ∃ cookie, found = some cookie ∧
        protector.newTokenCookie libraries answers binding = .ok cookie := by
    intro h
    obtain ⟨cookie, hcookie, hsome⟩ := bind_eq_ok.1 h
    exact ⟨cookie, (Except.ok.inj hsome).symm, hcookie⟩
  cases hparsed : protector.parseFromRequest libraries request with
  | error error =>
      rw [hparsed] at h
      exact .inr (hnew h)
  | ok cookie =>
      simp only [hparsed] at h
      cases hopened : protector.payloadFromCookie libraries answers cookie with
      | error error =>
          rw [hopened] at h
          exact .inr (hnew h)
      | ok payload =>
          simp only [hopened] at h
          obtain ⟨now, hread, h⟩ := bind_eq_ok.1 h
          by_cases hvalid : payload.isValid now = true
          · rw [if_pos hvalid] at h
            by_cases hmatches : bindingMatches payload.binding binding = true
            · rw [if_pos hmatches] at h
              exact .inl ⟨(Except.ok.inj h).symm, cookie, payload,
                now, ⟨hparsed, hopened, hread, hvalid⟩, hmatches⟩
            · rw [if_neg hmatches] at h
              exact .inr (hnew h)
          · rw [if_neg hvalid] at h
            exact .inr (hnew h)

theorem issueIfNeeded_of_checked {cookie : Pair} {payload : CsrfCookiePayload} {now : Int}
    (hhost : HostRule libraries answers request)
    (h : Checked libraries protector answers request cookie payload now)
    (hmatches : bindingMatches payload.binding binding = true) :
    protector.issueTokenCookieIfNeededForExplicitBinding libraries answers request binding =
      .ok none := by
  rw [CsrfProtector.issueTokenCookieIfNeededForExplicitBinding, validateHost_bind_eq_ok]
  refine ⟨hhost, ?_⟩
  simp only [h.parsed, h.opened, h.read, ok_bind, if_pos h.valid, if_pos hmatches]
  rfl

/-- No cookie is issued exactly if the cookie that is presented passes. -/
theorem issueIfNeeded_eq_ok_none :
    protector.issueTokenCookieIfNeededForExplicitBinding libraries answers request binding = .ok none ↔
      HostRule libraries answers request ∧ ∃ token payload now,
        Presents libraries protector answers request binding token payload now ∧
          CookiesReadable libraries request ∧
          Nonzero payload.nonce := by
  constructor
  · intro h
    obtain ⟨hhost, ⟨-, cookie, payload, now, hchecked, hmatches⟩ | ⟨cookie, hsome, -⟩⟩ :=
      issueIfNeeded_cases h
    · exact ⟨hhost, _, payload, now, checked_iff.1 ⟨cookie, hchecked, hmatches, rfl⟩⟩
    · cases hsome
  · rintro ⟨hhost, token, payload, now, hpresented⟩
    obtain ⟨cookie, hchecked, hmatches, -⟩ := checked_iff.2 hpresented
    exact issueIfNeeded_of_checked hhost hchecked hmatches

end Verification

section Issuing

variable {libraries : Libraries} {config : CsrfProtectorConfig}
  {protector : CsrfProtector} {answers : Answers} {request : Request}
  {binding : Option CsrfBinding} {cookie : Cookie} {failure : CsrfVerificationFailure}

theorem guard_eq_error {ε α : Type} {c : Prop} [Decidable c]
    {error other : ε} {rest : Unit → Except ε α} :
    (if c then (throw error : Except ε Unit) >>= rest else rest ()) = .error other ↔
      c ∧ other = error ∨ ¬c ∧ rest () = .error other := by
  by_cases hc : c
  · rw [if_pos hc]
    exact ⟨fun h => .inl ⟨hc,
      by cases h; rfl⟩, fun h => h.elim (fun h => by rw [h.2]; rfl) fun h => absurd hc h.1⟩
  · rw [if_neg hc]
    exact ⟨fun h => .inr ⟨hc, h⟩, fun h => h.elim (fun h => absurd h.1 hc) And.right⟩

theorem lastGuard_eq_error {ε : Type} {c : Prop} [Decidable c] {error other : ε} :
    (if c then (throw error : Except ε Unit) else pure ()) = .error other ↔ c ∧ other = error := by
  by_cases hc : c
  · rw [if_pos hc]
    exact ⟨fun h => ⟨hc, by cases h; rfl⟩, fun h => by rw [h.2]; rfl⟩
  · rw [if_neg hc]
    exact ⟨nofun, fun h => absurd h.1 hc⟩

/-- A failure heals itself with the binding of the request, or not at all. -/
theorem selfHealBinding_eq
    (h : protector.verifyUnsafeRequest libraries answers request = .error failure)
    {healed : Option CsrfBinding} (hhealed : failure.selfHealBinding = some healed) :
    protector.extractBinding request = .ok healed := by
  simp only [CsrfProtector.verifyUnsafeRequest, bind_eq_error,
    mapError_eq_error, mapError_eq_ok, guard_eq_error,
    lastGuard_eq_error] at h
  rcases h with ⟨_, -, rfl⟩ | ⟨_, -, ⟨_, -, rfl⟩ | ⟨own, hown, h⟩⟩
  · cases hhealed
  · cases hhealed
  · have hsame : failure.selfHealBinding = none ∨ failure.selfHealBinding = some own := by
      rcases h with ⟨_, -, rfl⟩ |
        ⟨_, -, ⟨_, -, rfl⟩ | ⟨_, -, ⟨_, -, rfl⟩ | ⟨_, -, ⟨-, rfl⟩ | ⟨-, ⟨_, -, rfl⟩ |
        ⟨_, -, ⟨-, rfl⟩ | ⟨-, -, rfl⟩⟩⟩⟩⟩⟩
      · exact .inr rfl
      · exact .inr rfl
      · exact .inl rfl
      · exact .inr rfl
      · exact .inl rfl
      · exact .inl rfl
      · exact .inr rfl
    rw [hhealed] at hsame
    rcases hsame with hnone | hsome
    · cases hnone
    · rw [Option.some.inj hsome]
      exact hown

/-- The ways in which a cookie is issued for a binding. -/
inductive Issues (libraries : Libraries) (protector : CsrfProtector) (answers : Answers) :
    Option CsrfBinding → Cookie → Prop
  | cycledForRequest {request : Request} {binding : Option CsrfBinding} {cookie : Cookie}
      (hbinding : protector.extractBinding request = .ok binding)
      (h : protector.cycleTokenCookieForRequest libraries answers request = .ok cookie) :
      Issues libraries protector answers binding cookie
  | cycledForBinding {binding : Option CsrfBinding} {cookie : Cookie}
      (h : protector.cycleTokenCookieForBinding libraries answers binding = .ok cookie) :
      Issues libraries protector answers binding cookie
  | ifNeededForRequest {request : Request} {binding : Option CsrfBinding} {cookie : Cookie}
      (hbinding : protector.extractBinding request = .ok binding)
      (h : protector.issueTokenCookieIfNeededForRequest libraries answers request = .ok (some cookie)) :
      Issues libraries protector answers binding cookie
  | ifNeededForExplicitBinding {request : Request} {binding : Option CsrfBinding} {cookie : Cookie}
      (h : protector.issueTokenCookieIfNeededForExplicitBinding
        libraries answers request binding = .ok (some cookie)) :
      Issues libraries protector answers binding cookie
  | selfHealed {request : Request} {binding healed : Option CsrfBinding} {cookie : Cookie} {failure : CsrfVerificationFailure}
      (hbinding : protector.extractBinding request = .ok binding)
      (hfailure : protector.verifyUnsafeRequest libraries answers request = .error failure)
      (hhealed : failure.selfHealBinding = some healed)
      (h : protector.newTokenCookie libraries answers healed = .ok cookie) :
      Issues libraries protector answers binding cookie

/-- All of them make the cookie in the same way. -/
theorem Issues.made (h : Issues libraries protector answers binding cookie) :
    protector.newTokenCookie libraries answers binding = .ok cookie := by
  cases h with
  | cycledForRequest hbinding h =>
      rw [CsrfProtector.cycleTokenCookieForRequest, validateHost_bind_eq_ok, hbinding] at h
      exact h.2
  | cycledForBinding h => exact h
  | ifNeededForRequest hbinding h =>
      obtain ⟨own, hown, h⟩ := issueIfNeeded_eq_ok.1 h
      obtain rfl := Except.ok.inj (hown.symm.trans hbinding)
      obtain ⟨-, ⟨hnone, -⟩ | ⟨_, hsome, hnew⟩⟩ := issueIfNeeded_cases h
      · cases hnone
      · cases hsome
        exact hnew
  | ifNeededForExplicitBinding h =>
      obtain ⟨-, ⟨hnone, -⟩ | ⟨_, hsome, hnew⟩⟩ := issueIfNeeded_cases h
      · cases hnone
      · cases hsome
        exact hnew
  | selfHealed hbinding hfailure hhealed h =>
      obtain rfl := Except.ok.inj ((selfHealBinding_eq hfailure hhealed).symm.trans hbinding)
      exact h

/-- A cookie that was issued, with what was sealed for it. -/
structure Issued (libraries : Libraries) (protector : CsrfProtector) where
  binding : Option CsrfBinding
  cookie : Cookie
  answers : Answers
  issues : Issues libraries protector answers binding cookie
  nonce : FixedBytes csrfNonceSize
  nonce_eq : answers.nonce = .ok nonce
  issuedAt : Int
  clock_eq : currentUnixSeconds answers.issuingClock = .ok issuedAt
  sealing : Sealing libraries.kdf libraries.xchacha libraries.aesGcmSiv
  application : PurposePath
  path_eq : sealing.path = .child application encryptedCookieChildPurpose
  keyset_eq : answers.issuingKeyset =
    (application.keyset libraries.kdf (sealing.encryptingKey :: sealing.retiredKeys)).mapError .crypto
  random_eq : answers.fillRandom = sealing.fillRandom
  plaintext_eq : libraries.payloads.serialize
    ⟨nonce, issuedAt + protector.tokenMaxAge.seconds,
      binding.map CsrfBinding.bytes⟩ = some sealing.plaintext
  context_eq : sealing.context = associatedData protector.cookie

def Issued.payload (i : Issued libraries protector) : CsrfCookiePayload :=
  ⟨i.nonce, i.issuedAt + protector.tokenMaxAge.seconds, i.binding.map CsrfBinding.bytes⟩

theorem Issued.minted (i : Issued libraries protector) :
    newCookie libraries.crates libraries.kdf libraries.xchacha
      libraries.aesGcmSiv libraries.payloads protector.cookie
      ((i.application.keyset libraries.kdf
        (i.sealing.encryptingKey :: i.sealing.retiredKeys)).mapError .crypto) i.payload
      i.sealing.fillRandom = .ok i.cookie := by
  have hmade := i.issues.made
  simp only [CsrfProtector.newTokenCookie, bind_eq_ok, mapError_eq_ok, guard_eq_ok] at hmade
  obtain ⟨nonce, hnonce, now, hnow, -, hcookie⟩ := hmade
  obtain rfl := Except.ok.inj (hnonce.symm.trans i.nonce_eq)
  obtain rfl := Except.ok.inj (hnow.symm.trans i.clock_eq)
  rw [i.keyset_eq, i.random_eq] at hcookie
  exact hcookie

/-- The call of the encrypted cookie in it. -/
def Issued.minting (i : Issued libraries protector) (h : Accepted libraries.crates protector.cookie) :
    Minting libraries.crates libraries.kdf libraries.xchacha
      libraries.aesGcmSiv libraries.payloads where
  sealing := i.sealing
  application := i.application
  spec := protector.cookie
  payload := i.payload
  cookie := i.cookie
  accepted := h
  path_eq := i.path_eq
  plaintext_eq := i.plaintext_eq
  context_eq := i.context_eq
  minted := i.minted

end Issuing

end Paranoid.CsrfTokens

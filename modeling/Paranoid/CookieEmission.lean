import Paranoid.CookieNames

namespace Paranoid.CookieEmission

open CookieModel CookieNames DecimalText List SetCookieText TrimmedText Utf8Text
open Postgres (bind_eq_ok)
open TemplateScanner (isAsciiAlphanumeric)

section Attributes

variable {path domain text : Text} {b : UInt8} {c : Char}

/-- A byte that passes a check for ASCII bytes is a character that does. -/
theorem ascii_of_all {p : UInt8 → Bool} (h : (utf8 text).all p = true)
    (hp : ∀ b : UInt8, 128 ≤ b.toNat → p b = false)
    (hc : c ∈ text) : isAscii c = true ∧ p c.toUInt8 = true := by
  rw [all_eq_true] at h
  have hencoding : ∀ b ∈ String.utf8EncodeChar c, p b = true :=
    fun b hb => h b (mem_flatMap.2 ⟨c, hc, hb⟩)
  cases hascii : isAscii c with
  | true => exact ⟨rfl, hencoding _ (by rw [encode_ascii hascii]; exact mem_singleton.2 rfl)⟩
  | false =>
      obtain ⟨tail, htail⟩ := encode_eq_cons c
      have hbyte := hencoding (firstByte c) (by rw [htail]; exact mem_cons_self)
      rw [hp _ (firstByte_high hascii)] at hbyte
      cases hbyte

/-- A text that an attribute can hold: nothing in it ends the attribute, and nothing is trimmed from it. -/
structure GoodAttribute (text : Text) : Prop where
  semicolon : ';' ∉ text
  solid : ∀ c ∈ text, isWsp c = false

theorem GoodAttribute.trimmed (h : GoodAttribute text) : Trimmed isWsp text := trimmed_of_forall h.solid

/-- A byte that is no blank and no semicolon. -/
theorem goodAttribute_of_all {p : UInt8 → Bool} (h : (utf8 text).all p = true)
    (hp : ∀ b : UInt8, 128 ≤ b.toNat → p b = false)
    (hsemicolon : p 59 = false) (hspace : p 32 = false) (htab : p 9 = false) : GoodAttribute text := by
  constructor
  · intro hmem
    have hbyte := (ascii_of_all h hp hmem).2
    rw [show ';'.toUInt8 = 59 from rfl, hsemicolon] at hbyte
    cases hbyte
  · intro c hc
    have hbyte := (ascii_of_all h hp hc).2
    rw [isWsp, Bool.or_eq_false_iff]
    constructor
    · refine decide_eq_false fun he => ?_
      rw [he, show ' '.toUInt8 = 32 from rfl, hspace] at hbyte
      cases hbyte
    · refine decide_eq_false fun he => ?_
      rw [he, show '\t'.toUInt8 = 9 from rfl, htab] at hbyte
      cases hbyte

theorem isSafeCookieAttributeByte_high (b : UInt8) (h : 128 ≤ b.toNat) :
    isSafeCookieAttributeByte b = false := by
  have hnot : ¬b.toNat ≤ 0x7e := by omega
  rw [isSafeCookieAttributeByte, decide_eq_false hnot, Bool.and_false, Bool.false_and]

theorem labelByte_high (b : UInt8) (h : 128 ≤ b.toNat) : (isAsciiAlphanumeric b || b = 45) = false := by
  have hdash : b ≠ 45 := fun he => by rw [he] at h; exact absurd h (by decide)
  rw [decide_eq_false hdash, Bool.or_false, isAsciiAlphanumeric,
    Bool.or_eq_false_iff, Bool.or_eq_false_iff]
  exact ⟨⟨Bool.and_eq_false_imp.2 fun _ => decide_eq_false (by omega),
    Bool.and_eq_false_imp.2 fun _ =>
      decide_eq_false (by omega)⟩, Bool.and_eq_false_imp.2 fun _ => decide_eq_false (by omega)⟩

/-- A path as the cookie carries it. -/
structure GoodPath (path : Text) : Prop extends GoodAttribute path where
  rooted : path.head? = some '/'

theorem goodPath_root : GoodPath ['/'] :=
  ⟨⟨by decide, fun c hc => by rw [mem_singleton.1 hc]; rfl⟩, rfl⟩

theorem normalizePath_eq_ok {configured : Text} (h : normalizePath configured = .ok path) :
    path = (if configured = [] then ['/'] else configured) ∧ GoodPath path := by
  unfold normalizePath at h
  generalize hpath : (if configured = [] then ['/'] else configured) = given at h ⊢
  dsimp only at h
  by_cases hrooted : given.head? ≠ some '/'
  · rw [if_pos hrooted] at h
    cases h
  · rw [if_neg hrooted, validateCookiePath] at h
    rw [not_not] at hrooted
    by_cases hsafe : (utf8 given).all isSafeCookieAttributeByte = true
    · rw [if_pos hsafe] at h
      cases h
      exact ⟨rfl, goodAttribute_of_all hsafe isSafeCookieAttributeByte_high rfl rfl rfl, hrooted⟩
    · rw [if_neg hsafe] at h
      cases h

/-- A domain as the cookie carries it. -/
structure GoodDomain (domain : Text) : Prop extends GoodAttribute domain where
  ne_nil : domain ≠ []
  undotted : domain.head? ≠ some '.'
  lower : lowercase domain = domain

theorem toLower_toLower (c : Char) : c.toLower.toLower = c.toLower := by
  cases hascii : isAscii c with
  | true => exact @ascii_forall c (fun c => c.toLower.toLower = c.toLower) (by decide +kernel) hascii
  | false =>
      have hsame : c.toLower = c := by
        refine dif_neg fun hupper => ?_
        have hle : c.toNat ≤ 90 := hupper.2
        have hhigh : ¬c.toNat < 128 := of_decide_eq_false hascii
        omega
      rw [hsame, hsame]

theorem lowercase_lowercase (text : Text) : lowercase (lowercase text) = lowercase text := by
  rw [lowercase, lowercase, map_map]
  exact map_congr_left fun c _ => toLower_toLower c

/-- What the parts between separators are made of, with the separators. -/
theorem mem_splitOn (hc : c ∈ text) : c = '.' ∨ ∃ label ∈ text.splitOn '.', c ∈ label := by
  have hparts : ∀ parts : List Text, c ∈ ['.'].intercalate parts →
    c = '.' ∨ ∃ label ∈ parts, c ∈ label := by
    intro parts
    induction parts with
    | nil =>
        intro h
        cases h
    | cons part parts ih =>
        intro h
        cases parts with
        | nil => exact .inr ⟨part, mem_cons_self, by rwa [intercalate_singleton] at h⟩
        | cons next parts =>
            rw [intercalate_cons_cons, mem_append, mem_append, mem_singleton] at h
            rcases h with (hpart | hdot) | hrest
            · exact .inr ⟨part, mem_cons_self, hpart⟩
            · exact .inl hdot
            · exact (ih hrest).imp_right fun ⟨label, hlabel, hc⟩ =>
                ⟨label, mem_cons_of_mem _ hlabel, hc⟩
  exact hparts _ (by rwa [intercalate_splitOn])

theorem goodAttribute_of_labels (h : ∀ label ∈ domain.splitOn '.', GoodAttribute label) :
    GoodAttribute domain := by
  constructor
  · intro hmem
    rcases mem_splitOn hmem with hdot | ⟨label, hlabel, hc⟩
    · exact absurd hdot (by decide)
    · exact (h label hlabel).semicolon hc
  · intro c hc
    rcases mem_splitOn hc with rfl | ⟨label, hlabel, hc⟩
    · rfl
    · exact (h label hlabel).solid c hc

theorem validateCookieDomain_eq_ok (h : validateCookieDomain domain = .ok ())
    (hlower : lowercase domain = domain) :
    GoodDomain domain := by
  unfold validateCookieDomain at h
  split at h
  · cases h
  · rename_i hvalid
    rw [not_or, not_or, not_or] at hvalid
    obtain ⟨hne, hundotted, -, hlabels⟩ := hvalid
    rw [Bool.not_eq_true, any_eq_false] at hlabels
    refine ⟨goodAttribute_of_labels fun label hlabel => ?_, hne, hundotted, hlower⟩
    have hbytes := hlabels label hlabel
    rw [invalidCookieDomainLabel, Bool.or_eq_true, not_or,
      Bool.not_eq_true', Bool.not_eq_false] at hbytes
    exact goodAttribute_of_all hbytes.2 labelByte_high rfl rfl rfl

/-- The domain that a helper is configured with, without a leading dot and in lower case. -/
def domainOf (configured : Option Text) : Option Text :=
  match configured with
  | none => none
  | some domain =>
      if domain = [] then none else some (lowercase (if domain.head? = some '.' then domain.tail else domain))

theorem normalizeDomain_eq_ok {configured normalized : Option Text}
    (h : normalizeDomain configured = .ok normalized) :
    normalized = domainOf configured ∧ ∀ domain ∈ normalized, GoodDomain domain := by
  unfold normalizeDomain at h
  cases configured with
  | none =>
      cases h
      exact ⟨rfl, fun _ hd => by cases hd⟩
  | some domain =>
      dsimp only at h
      split at h
      · rename_i hempty
        cases h
        exact ⟨(if_pos hempty).symm, fun _ hd => by cases hd⟩
      · rename_i hne
        obtain ⟨_, hvalid, hsame⟩ := bind_eq_ok.1 h
        cases hsame
        refine ⟨(if_neg hne).symm, fun d hd => ?_⟩
        cases hd
        exact validateCookieDomain_eq_ok hvalid (lowercase_lowercase _)

theorem readAttribute_path (h : GoodPath path) :
    readAttribute (named Names.path path) = some (.path (some path)) := by
  rw [named, readAttribute_named (by decide) (trimmed_of_all rfl) h.trimmed, readNamed, if_pos rfl, readPath_rooted h.rooted]

theorem readAttribute_domain (h : GoodDomain domain) :
    readAttribute (named Names.domain domain) = some (.domain domain) := by
  rw [named, readAttribute_named (by decide) (trimmed_of_all rfl) h.trimmed, readNamed,
    if_neg (by decide), if_pos rfl, readDomain_plain h.ne_nil h.undotted h.lower]

theorem goodAttribute_natText (n : Nat) : GoodAttribute (natText n) := by
  constructor
  · intro hmem
    exact absurd (isDigit_of_mem_natText hmem) (by decide)
  · intro c hc
    have hdigit := isDigit_of_mem_natText hc
    rw [isWsp, Bool.or_eq_false_iff]
    constructor
    · exact decide_eq_false fun he => absurd (he ▸ hdigit) (by decide)
    · exact decide_eq_false fun he => absurd (he ▸ hdigit) (by decide)

theorem readAttribute_maxAge (n : Nat) :
    readAttribute (named Names.maxAge (natText n)) = some (.maxAge n) := by
  rw [named, readAttribute_named (by decide) (trimmed_of_all rfl) (goodAttribute_natText n).trimmed, readNamed,
    if_neg (by decide), if_neg (by decide), if_pos rfl, readMaxAge_natText]

theorem readAttribute_sameSite (sameSite : SameSite) :
    readAttribute (named Names.sameSite sameSite.text) = some (.sameSite (some sameSite)) := by
  cases sameSite <;> rfl

theorem readAttribute_flags : readAttribute Names.httpOnly = some .httpOnly ∧
    readAttribute Names.partitioned = some .partitioned ∧
      readAttribute Names.secure = some .secure := ⟨rfl, rfl, rfl⟩

end Attributes

section Emission

variable {crates : Crates} {manager : CookieManager} {scope : CookieScope} {config : CookieConfigParts}
  {mode : CookieHttpOnlyMode} {spec : CookieSpec} {value : Text}
  {cookie : Cookie} {meaning : Attribute} {text : Text}

/-- The attributes that a cookie stands for. -/
def attributesOf (cookie : Cookie) : List Attribute :=
  (if cookie.httpOnly then [Attribute.httpOnly] else []) ++
    [Attribute.sameSite (some cookie.sameSite)] ++
    (if cookie.partitioned then [Attribute.partitioned] else []) ++
    (if cookie.secure then [Attribute.secure] else []) ++
    [Attribute.path (some cookie.path)] ++ cookie.domain.toList.map Attribute.domain ++
    cookie.maxAge.toList.map fun seconds : Nat => Attribute.maxAge seconds

theorem filterMap_flag (h : readAttribute text = some meaning) (flag : Bool) :
    (if flag then [text] else []).filterMap readAttribute = if flag then [meaning] else [] := by
  cases flag with
  | false => rfl
  | true => rw [if_pos rfl, if_pos rfl, filterMap_cons_some h, filterMap_nil]

theorem filterMap_attributeTexts (hpath : GoodPath cookie.path)
    (hdomain : ∀ domain ∈ cookie.domain, GoodDomain domain) :
    (attributeTexts cookie).filterMap readAttribute = attributesOf cookie := by
  obtain ⟨hhttpOnly, hpartitioned, hsecure⟩ := readAttribute_flags
  have hsingle : ∀ {text : Text} {meaning : Attribute}, readAttribute text = some meaning →
      [text].filterMap readAttribute = [meaning] :=
    fun h => by rw [filterMap_cons_some h, filterMap_nil]
  have hdomains : (cookie.domain.toList.map (named Names.domain)).filterMap readAttribute =
    cookie.domain.toList.map .domain := by
    cases hcookie : cookie.domain with
    | none => rfl
    | some domain => exact hsingle (readAttribute_domain (hdomain domain hcookie))
  have hmaxAges : (cookie.maxAge.toList.map fun seconds =>
    named Names.maxAge (natText seconds)).filterMap readAttribute =
      cookie.maxAge.toList.map fun seconds : Nat => Attribute.maxAge seconds := by
    cases cookie.maxAge with
    | none => rfl
    | some seconds => exact hsingle (readAttribute_maxAge seconds)
  rw [attributeTexts, attributesOf]
  simp only [filterMap_append, filterMap_flag hhttpOnly,
    filterMap_flag hpartitioned, filterMap_flag hsecure,
    hsingle (readAttribute_sameSite _), hsingle (readAttribute_path hpath), hdomains, hmaxAges]

theorem attributeTexts_clear (hpath : GoodPath cookie.path)
    (hdomain : ∀ domain ∈ cookie.domain, GoodDomain domain) :
    ∀ text ∈ attributeTexts cookie, ';' ∉ text := by
  have hnamed : ∀ name value : Text, ';' ∉ name → ';' ∉ value → ';' ∉ named name value :=
    fun name value hname hvalue => by
    simp [named, hname, hvalue]
  have hflag : ∀ (flag : Bool) (name : Text), ';' ∉ name → ∀ text ∈ (if flag then [name] else []), ';' ∉ text := by
    intro flag name hname text htext
    cases flag with
    | false => cases htext
    | true => rwa [mem_singleton.1 htext]
  have hsameSite : ';' ∉ cookie.sameSite.text := by cases cookie.sameSite <;> decide
  simp only [attributeTexts, forall_mem_append, forall_mem_singleton, forall_mem_map]
  refine ⟨⟨⟨⟨⟨⟨hflag _ _ (by decide), hnamed _ _ (by decide) hsameSite⟩,
    hflag _ _ (by decide)⟩, hflag _ _ (by decide)⟩, hnamed _ _ (by decide) hpath.semicolon⟩, fun domain hd => ?_⟩, fun seconds _ => ?_⟩
  · exact hnamed _ _ (by decide) (hdomain domain (Option.mem_toList.1 hd)).semicolon
  · exact hnamed _ _ (by decide) (goodAttribute_natText seconds).semicolon

theorem isWhitespace_of_isWsp {c : Char} (h : isWsp c = true) :
    MnemonicModel.isWhitespace c = true := by
  rw [isWsp, Bool.or_eq_true, decide_eq_true_iff, decide_eq_true_iff] at h
  rcases h with rfl | rfl
  · decide
  · decide

theorem plain_of_goodName (h : GoodName text) : Plain text :=
  ⟨h.semicolon, h.trimmed.mono fun _ => isWhitespace_of_isWsp⟩

theorem plain_of_goodValue (h : GoodValue text) : Plain text :=
  ⟨h.semicolon, h.trimmed.mono fun _ => isWhitespace_of_isWsp⟩

/-- A user agent reads from the text of a cookie its name, its value and its attributes. -/
theorem read_toText (hname : GoodName cookie.name)
    (hvalue : GoodValue cookie.value) (hpath : GoodPath cookie.path)
    (hdomain : ∀ domain ∈ cookie.domain, GoodDomain domain) :
    ∃ attributes : List Attribute, attributes.Perm (attributesOf cookie) ∧
      read (crates.toText cookie) = some ⟨cookie.name, cookie.value, attributes⟩ := by
  obtain ⟨texts, hperm, htext⟩ := crates.toText_eq cookie
  refine ⟨texts.filterMap readAttribute, ?_, ?_⟩
  · rw [← filterMap_attributeTexts hpath hdomain]
    exact hperm.filterMap readAttribute
  · rw [htext]
    exact read_rendered (plain_of_goodName hname) hname.equals
      hname.ne_nil (plain_of_goodValue hvalue) fun text htext =>
      attributeTexts_clear hpath hdomain text (hperm.mem_iff.1 htext)

def configuredName (manager : CookieManager) (scope : CookieScope) (config : CookieConfigParts) :
    Text :=
  match scope with
  | .hostOnly => (if manager.isDevelopment .finalHostOnlyName then devPrefix else hostPrefix) ++
      config.name
  | .nonHostOnly _ _ => config.name

def configuredPath : CookieScope → Text
  | .hostOnly => ['/']
  | .nonHostOnly path _ => if path = [] then ['/'] else path

def configuredDomain : CookieScope → Option Text
  | .hostOnly => none
  | .nonHostOnly _ domain => domainOf domain

/-- The attributes that a helper is configured to emit: those of the scope and the configuration, and in development neither
`Secure` nor `Partitioned`. -/
def configuredAttributes (manager : CookieManager) (scope : CookieScope) (config : CookieConfigParts)
    (mode : CookieHttpOnlyMode) : List Attribute :=
  (if mode = .encrypted && config.httpOnly.getD true then [Attribute.httpOnly] else []) ++
    [Attribute.sameSite (some (config.sameSite.getD manager.defaultSameSite))] ++
    (if config.partitioned.getD manager.defaultPartitioned && !manager.isDevelopment .resolvePartitioned
      then [Attribute.partitioned] else []) ++
    (if !manager.isDevelopment .secure then [Attribute.secure] else []) ++
    [Attribute.path (some (configuredPath scope))] ++
    (configuredDomain scope).toList.map Attribute.domain ++
    config.maxAge.toList.map fun maxAge => Attribute.maxAge maxAge.seconds

/-- What a helper takes from its configuration. -/
structure Configured (manager : CookieManager) (scope : CookieScope)
    (config : CookieConfigParts) (mode : CookieHttpOnlyMode)
    (spec : CookieSpec) : Prop where
  name : spec.name = configuredName manager scope config
  goodName : GoodName spec.name
  path : GoodPath spec.path
  domain : ∀ domain ∈ spec.domain, GoodDomain domain
  attributes : ∀ value, attributesOf (spec.applyAttributes value) =
    configuredAttributes manager scope config mode
  managed : scope = .hostOnly →
    (hostPrefix <+: spec.name ∨ devPrefix <+: spec.name) ∧ spec.path = ['/'] ∧ spec.domain = none
  unmanaged : scope ≠ .hostOnly → ¬hostPrefix <+: spec.name ∧ ¬devPrefix <+: spec.name

theorem validateUnprefixedCookieName_eq_ok {name : Text}
    (h : validateUnprefixedCookieName crates name = .ok ()) :
    (¬hostPrefix <+: name ∧ ¬devPrefix <+: name) ∧ validateCookieName crates name = .ok () := by
  unfold validateUnprefixedCookieName at h
  by_cases hhost : hostPrefix.isPrefixOf name = true
  · rw [if_pos hhost] at h
    cases h
  · rw [if_neg hhost] at h
    by_cases hdev : devPrefix.isPrefixOf name = true
    · rw [if_pos hdev] at h
      cases h
    · rw [if_neg hdev] at h
      rw [ isPrefixOf_iff_prefix] at hhost hdev
      exact ⟨⟨hhost, hdev⟩, h⟩

theorem attributesOf_applyAttributes {path : Text}
    {domain : Option Text} {kind : CookieScopeKind} {name : Text}
    (hpath : path = configuredPath scope) (hdomain : domain = configuredDomain scope) (value : Text) :
    attributesOf (CookieSpec.applyAttributes ⟨name, path, domain, !manager.isDevelopment .secure,
      manager.resolveSameSite config.sameSite, (match mode with
        | .encrypted => CookieManager.resolveHttpOnly config.httpOnly
        | .clientReadable =>
            false), manager.resolvePartitioned config.partitioned, config.maxAge, kind⟩ value) =
      configuredAttributes manager scope config mode := by
  subst hpath hdomain
  rw [attributesOf, configuredAttributes, CookieSpec.applyAttributes]
  have hmaxAge : ((config.maxAge.map CookieMaxAgeSeconds.seconds).toList.map fun seconds : Nat =>
    Attribute.maxAge seconds) =
      config.maxAge.toList.map fun maxAge => .maxAge maxAge.seconds := by
    cases config.maxAge <;> rfl
  rw [hmaxAge]
  cases mode <;> rfl

theorem new_eq_ok (h : CookieSpec.new crates manager scope config mode = .ok spec) :
    Configured manager scope config mode spec := by
  unfold CookieSpec.new at h
  cases scope with
  | hostOnly =>
      obtain ⟨name, hname, hspec⟩ := bind_eq_ok.1 h
      cases hspec
      unfold CookieManager.finalHostOnlyName at hname
      obtain ⟨_, -, hfinal⟩ := bind_eq_ok.1 hname
      obtain ⟨_, hvalid, hsame⟩ := bind_eq_ok.1 hfinal
      cases hsame
      have hmanaged : hostPrefix <+: configuredName manager .hostOnly config ∨
          devPrefix <+: configuredName manager .hostOnly config := by
        unfold configuredName
        cases manager.isDevelopment .finalHostOnlyName with
        | true => exact .inr (prefix_append _ _)
        | false => exact .inl (prefix_append _ _)
      exact
        { name := rfl
          goodName := validateCookieName_eq_ok.1 hvalid
          path := goodPath_root
          domain := fun _ hd => by cases hd
          attributes := attributesOf_applyAttributes rfl rfl
          managed := fun _ => ⟨hmanaged, rfl, rfl⟩
          unmanaged := fun hnot => absurd rfl hnot }
  | nonHostOnly path domain =>
      obtain ⟨_, hunprefixed, h⟩ := bind_eq_ok.1 h
      obtain ⟨_, hvalid, h⟩ := bind_eq_ok.1 h
      obtain ⟨normalPath, hpath, h⟩ := bind_eq_ok.1 h
      obtain ⟨normalDomain, hdomain, h⟩ := bind_eq_ok.1 h
      cases h
      obtain ⟨hpathIs, hgoodPath⟩ := normalizePath_eq_ok hpath
      obtain ⟨hdomainIs, hgoodDomain⟩ := normalizeDomain_eq_ok hdomain
      exact
        { name := rfl
          goodName := validateCookieName_eq_ok.1 hvalid
          path := hgoodPath
          domain := hgoodDomain
          attributes := attributesOf_applyAttributes hpathIs hdomainIs
          managed := fun hhost => by cases hhost
          unmanaged := fun _ => (validateUnprefixedCookieName_eq_ok hunprefixed).1 }

theorem cookieWithValue_eq_ok (h : spec.cookieWithValue crates value = .ok cookie) :
    cookie = spec.applyAttributes value ∧ GoodValue value := by
  unfold CookieSpec.cookieWithValue at h
  obtain ⟨_, hvalid, h⟩ := bind_eq_ok.1 h
  dsimp only at h
  split at h
  · cases h
    exact ⟨rfl, validateCookieValue_eq_ok.1 hvalid⟩
  · cases h

/-- A pair with another name, as a header may have it. -/
def WellFormed (pair : Pair) : Prop := Pair.Good pair ∧ Visible pair.text

/-- Headers with a pair so many times among well-formed pairs with other names. -/
def Carries (headers : List (List Pair)) (pair : Pair) (n : Nat) : Prop :=
  (∀ other ∈ headers.flatten, other = pair ∨ other.name ≠ pair.name ∧ WellFormed other) ∧
    headers.flatten.count pair = n

/-- The cookie of a value is read with its name, its value and the configured attributes; its name is managed exactly if it is
host-only; and the helper reads it back. -/
structure ExactEmission (crates : Crates) (manager : CookieManager)
    (scope : CookieScope) (config : CookieConfigParts)
    (mode : CookieHttpOnlyMode) (spec : CookieSpec) (value : Text) (cookie : Cookie) : Prop where
  read : ∃ attributes : List Attribute,
    attributes.Perm (configuredAttributes manager scope config mode) ∧
    read (crates.toText cookie) = some ⟨configuredName manager scope config, value, attributes⟩
  hostOnly : scope = .hostOnly →
    (hostPrefix <+: cookie.name ∨ devPrefix <+: cookie.name) ∧
    cookie.path = ['/'] ∧ cookie.domain = none
  nonHostOnly : scope ≠ .hostOnly → ¬hostPrefix <+: cookie.name ∧ ¬devPrefix <+: cookie.name
  once : ∀ headers, Carries headers ⟨configuredName manager scope config, value⟩ 1 →
    ∀ (α : Type) (decode : Text → Except Error α), spec.getFromHeaders crates decode (headerValues headers) = decode value
  absent : ∀ headers, Carries headers ⟨configuredName manager scope config, value⟩ 0 →
    ∀ (α : Type) (decode : Text → Except Error α),
      spec.getFromHeaders crates decode (headerValues headers) =
        .error (.missingCookie (configuredName manager scope config))
  repeated : ∀ headers n, Carries headers ⟨configuredName manager scope config, value⟩ (n + 2) →
    ∀ (α : Type) (decode : Text → Except Error α),
      spec.getFromHeaders crates decode (headerValues headers) =
        .error (.duplicateCookie (configuredName manager scope config))

theorem visible_append {text other : Text} :
    Visible (text ++ other) ↔ Visible text ∧ Visible other := by
  rw [Visible, all_append, Bool.and_eq_true]
  rfl

theorem visible_cons {c : Char} {text : Text} (hc : isVisible c = true) :
    Visible (c :: text) ↔ Visible text := by
  rw [Visible, all_cons, hc, Bool.true_and]
  rfl

theorem visible_text {pair : Pair} : Visible pair.text ↔ Visible pair.name ∧ Visible pair.value := by
  rw [Pair.text, visible_append, visible_cons (by decide)]

theorem visible_headerText {pairs : List Pair} (h : ∀ pair ∈ pairs, Visible pair.text) :
    Visible (headerText pairs) := by
  unfold headerText
  induction pairs with
  | nil => rfl
  | cons pair pairs ih =>
      rw [forall_mem_cons] at h
      cases pairs with
      | nil => rw [map_cons, map_nil, intercalate_singleton]; exact h.1
      | cons next pairs =>
          rw [map_cons, map_cons, intercalate_pair_cons, visible_append,
            visible_cons (by decide), visible_cons (by decide)]
          exact ⟨h.1, ih h.2⟩

theorem visible_configuredName :
    Visible (configuredName manager scope config) ↔ Visible config.name := by
  cases scope with
  | hostOnly =>
      have hmanaged : Visible
        (if manager.isDevelopment .finalHostOnlyName then devPrefix else hostPrefix) := by
        cases manager.isDevelopment .finalHostOnlyName <;> rfl
      exact visible_append.trans (and_iff_right hmanaged)
  | nonHostOnly path domain => exact Iff.rfl

/-- The pairs with the name are the occurrences of the pair. -/
theorem filter_of_carries {headers : List (List Pair)}
    {pair : Pair} {n : Nat} (h : Carries headers pair n) :
    (headers.flatten.filter fun other => other.name = pair.name) = replicate n pair := by
  rw [← h.2, ← filter_eq]
  refine filter_congr fun other hother => ?_
  rcases h.1 other hother with rfl | ⟨hname, -⟩
  · simp
  · have hne : other ≠ pair := fun he => hname (congrArg Pair.name he)
    rw [decide_eq_false hname, decide_eq_false hne]

theorem parseFromHeaders_of_carries {headers : List (List Pair)}
    {pair : Pair} {n : Nat} (hname : spec.name = pair.name)
    (hpair : WellFormed pair) (h : Carries headers pair n) :
    spec.parseFromHeaders crates (headerValues headers) =
      foundOf spec.name (replicate n pair) >>= spec.foundOrMissing := by
  have hgood : ∀ pairs ∈ headers, (∀ other ∈ pairs, Pair.Good other) ∧ Visible (headerText pairs) := by
    intro pairs hpairs
    have hformed : ∀ other ∈ pairs, WellFormed other := fun other hother =>
      (h.1 other (mem_flatten.2 ⟨pairs, hpairs, hother⟩)).elim (fun he => he ▸ hpair) And.right
    exact ⟨fun other hother => (hformed other hother).1,
      visible_headerText fun other hother => (hformed other hother).2⟩
  rw [CookieSpec.parseFromHeaders, foldlM_collectFromHeader hgood,
    Option.toList_none, nil_append, hname, filter_of_carries h]

theorem getFromHeaders_once {headers : List (List Pair)} {α : Type} {decode : Text → Except Error α}
    (hformed : WellFormed ⟨spec.name, value⟩) (h : Carries headers ⟨spec.name, value⟩ 1) :
    spec.getFromHeaders crates decode (headerValues headers) = decode value := by
  rw [CookieSpec.getFromHeaders, parseFromHeaders_of_carries rfl hformed h]
  exact if_neg (not_not.2 rfl)

/-- The emission of a cookie is exact, and the cookie is read back, exactly if the configured name and the value are visible. -/
theorem emission_exact_iff (hspec : CookieSpec.new crates manager scope config mode = .ok spec)
    (hcookie : spec.cookieWithValue crates value = .ok cookie) :
    ExactEmission crates manager scope config mode spec value cookie ↔
      Visible config.name ∧ Visible value := by
  have hconfigured := new_eq_ok hspec
  obtain ⟨rfl, hvalue⟩ := cookieWithValue_eq_ok hcookie
  have hgood : Pair.Good ⟨spec.name, value⟩ := ⟨hconfigured.goodName, hvalue⟩
  rw [← @visible_configuredName manager scope config, ← hconfigured.name]
  constructor
  · -- a header with this pair alone is not read if anything in it is not visible
    intro h
    have hcarries : Carries [[⟨spec.name, value⟩]] ⟨configuredName manager scope config, value⟩ 1 := by
      rw [← hconfigured.name]
      exact ⟨fun other hother => .inl (mem_singleton.1 hother), by simp⟩
    have hread := h.once _ hcarries Text .ok
    by_contra hhidden
    have hheader : ¬Visible (headerText [⟨spec.name, value⟩]) := by
      rwa [headerText, map_singleton, intercalate_singleton, visible_text]
    rw [CookieSpec.getFromHeaders, CookieSpec.parseFromHeaders,
      headerValues, map_singleton, foldlM_cons,
      CookieSpec.collectFromHeader, toStr_utf8, if_neg hheader] at hread
    cases hread
  · intro hvisible
    have hformed : WellFormed ⟨spec.name, value⟩ := ⟨hgood, visible_text.2 hvisible⟩
    obtain ⟨attributes, hperm, htext⟩ :=
      @read_toText crates (spec.applyAttributes value) hconfigured.goodName hvalue
      hconfigured.path hconfigured.domain
    rw [hconfigured.attributes] at hperm
    constructor
    · rw [← hconfigured.name]
      exact ⟨attributes, hperm, htext⟩
    · exact hconfigured.managed
    · exact hconfigured.unmanaged
    · intro headers hcarries α decode
      rw [← hconfigured.name] at hcarries
      exact getFromHeaders_once hformed hcarries
    · intro headers hcarries α decode
      rw [← hconfigured.name] at hcarries ⊢
      rw [CookieSpec.getFromHeaders, parseFromHeaders_of_carries rfl hformed hcarries]
      rfl
    · intro headers n hcarries α decode
      rw [← hconfigured.name] at hcarries ⊢
      rw [CookieSpec.getFromHeaders, parseFromHeaders_of_carries rfl hformed hcarries]
      rfl

/-- A manager in production. -/
def production : CookieManager := ⟨fun _ => false, .lax, true⟩

def theme : CookieConfigParts := ⟨['t', 'h', 'e', 'm', 'e'], none, none, none, none⟩

def themeSpec : CookieSpec :=
  ⟨hostPrefix ++ theme.name, ['/'], none, true, .lax, false, true, none, .hostOnly⟩

theorem emission_exact_theme :
    ExactEmission default production .hostOnly theme .clientReadable themeSpec ['d', 'a', 'r', 'k']
      (themeSpec.applyAttributes ['d', 'a', 'r', 'k']) :=
  (emission_exact_iff rfl rfl).2 ⟨rfl, rfl⟩

/-- A value with an accent can be emitted, and then no header with it can be read. -/
theorem accented_value_not_read :
    CookieSpec.new default production .hostOnly theme .clientReadable = .ok themeSpec ∧
      themeSpec.cookieWithValue default ['é'] = .ok (themeSpec.applyAttributes ['é']) ∧
      themeSpec.getFromHeaders default Except.ok (headerValues [[⟨themeSpec.name, ['é']⟩]]) =
        .error .cookieHeaderDecode ∧
      ¬ExactEmission default production .hostOnly theme .clientReadable
        themeSpec ['é'] (themeSpec.applyAttributes ['é']) := by
  have hread : themeSpec.getFromHeaders default Except.ok (headerValues [[⟨themeSpec.name, ['é']⟩]]) =
      .error .cookieHeaderDecode := rfl
  refine ⟨rfl, rfl, hread, fun h => ?_⟩
  have hcarries : Carries [[⟨themeSpec.name, ['é']⟩]] ⟨themeSpec.name, ['é']⟩ 1 :=
    ⟨fun other hother => .inl (mem_singleton.1 hother), rfl⟩
  have honce := h.once _ hcarries Text .ok
  rw [hread] at honce
  cases honce

end Emission

end Paranoid.CookieEmission

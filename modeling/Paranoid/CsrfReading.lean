import Paranoid.CsrfModel

namespace Paranoid.CsrfReading

open ByteCodecs CookieNames CsrfRequests List SetCookieText
open CookieModel hiding Error
open Postgres (bind_eq_ok)
open Utf8Text (Text)

section Cookies

variable (crates : Crates) (values : List Bytes)

/-- What stands in the `Cookie` headers that are text. -/
def cookieParts : List (Except ParseError Pair) :=
  (values.filterMap crates.toStr).flatMap crates.splitParse

/-- The cookies of a name. -/
def namedCookies (name : Text) : List Pair :=
  ((cookieParts crates values).filterMap Except.toOption).filter fun pair => pair.name = name

/-- All `Cookie` headers are text, and all that stands in them are pairs. -/
structure Readable : Prop where
  text : ∀ value ∈ values, (crates.toStr value).isSome
  pairs : ∀ part ∈ cookieParts crates values, ∃ pair, part = .ok pair

end Cookies

section Collecting

variable {crates : Crates} {spec : CookieSpec}
  {parts : List (Except ParseError Pair)} {value : Bytes} {values : List Bytes}
  {found next : Option Pair} {pair : Pair} {text : Text}

theorem foldlM_keepMatching_eq_ok : parts.foldlM spec.keepMatching found = .ok next ↔
    (∀ part ∈ parts, ∃ pair, part = .ok pair) ∧
      foundOf spec.name (found.toList ++
        (parts.filterMap Except.toOption).filter fun pair => pair.name = spec.name) =
        .ok next := by
  by_cases hpairs : ∀ part ∈ parts, ∃ pair, part = .ok pair
  · -- then the parts are pairs, and what is found among them is known
    have hparts : parts = (parts.filterMap Except.toOption).map .ok := by
      induction parts with
      | nil => rfl
      | cons part parts ih =>
          rw [forall_mem_cons] at hpairs
          obtain ⟨⟨pair, rfl⟩, hpairs⟩ := hpairs
          exact congrArg (Except.ok pair :: ·) (ih hpairs)
    rw [and_iff_right hpairs, ← foldlM_keepMatching, ← hparts]
  · refine iff_of_false (fun h => hpairs ?_) (fun h => hpairs h.1)
    clear hpairs
    induction parts generalizing found with
    | nil => exact fun _ hpart => by cases hpart
    | cons part parts ih =>
        rw [foldlM_cons] at h
        obtain ⟨kept, hkept, hrest⟩ := bind_eq_ok.1 h
        cases part with
        | error source => cases hkept
        | ok pair => exact forall_mem_cons.2 ⟨⟨pair, rfl⟩, ih hrest⟩

theorem cookieParts_cons (htext : crates.toStr value = some text) :
    cookieParts crates (value :: values) = crates.splitParse text ++ cookieParts crates values := by
  rw [cookieParts, filterMap_cons_some htext, flatMap_cons]
  rfl

theorem namedCookies_cons (htext : crates.toStr value = some text) (name : Text) :
    namedCookies crates (value :: values) name =
      ((crates.splitParse text).filterMap Except.toOption).filter (fun pair => pair.name = name) ++
        namedCookies crates values name := by
  rw [namedCookies, cookieParts_cons htext, filterMap_append, filter_append]
  rfl

theorem readable_cons (htext : crates.toStr value = some text) : Readable crates (value :: values) ↔
    (∀ part ∈ crates.splitParse text, ∃ pair, part = .ok pair) ∧ Readable crates values := by
  constructor
  · rintro ⟨htexts, hpairs⟩
    rw [cookieParts_cons htext, forall_mem_append] at hpairs
    exact ⟨hpairs.1, (forall_mem_cons.1 htexts).2, hpairs.2⟩
  · rintro ⟨hpairs, htexts, hrest⟩
    refine ⟨forall_mem_cons.2 ⟨by rw [htext]; rfl, htexts⟩, ?_⟩
    rw [cookieParts_cons htext, forall_mem_append]
    exact ⟨hpairs, hrest⟩

theorem foldlM_collectFromHeader_eq_ok :
    values.foldlM (spec.collectFromHeader crates) found = .ok next ↔
    Readable crates values ∧
      foundOf spec.name (found.toList ++ namedCookies crates values spec.name) = .ok next := by
  induction values generalizing found with
  | nil =>
      have hreadable : Readable crates [] := ⟨by rintro _ ⟨⟩, by rintro _ ⟨⟩⟩
      have hnone : namedCookies crates [] spec.name = [] := rfl
      rw [and_iff_right hreadable, hnone, append_nil]
      cases found <;> exact Iff.rfl
  | cons value values ih =>
      rw [foldlM_cons, CookieSpec.collectFromHeader]
      cases htext : crates.toStr value with
      | none =>
          refine iff_of_false (by rintro ⟨⟩) fun h => ?_
          have hsome := h.1.text value mem_cons_self
          rw [htext] at hsome
          cases hsome
      | some text =>
          dsimp only
          rw [bind_eq_ok, readable_cons htext,
            namedCookies_cons htext, ← append_assoc, CookieSpec.collectMatchingCookie]
          constructor
          · rintro ⟨kept, hkept, h⟩
            obtain ⟨hpairs, hfound⟩ := foldlM_keepMatching_eq_ok.1 hkept
            obtain ⟨hreadable, hnext⟩ := ih.1 h
            rw [foundOf_toList hfound] at hnext
            exact ⟨⟨hpairs, hreadable⟩, hnext⟩
          · rintro ⟨⟨hpairs, hreadable⟩, hnext⟩
            cases hfound : foundOf spec.name (found.toList ++
                ((crates.splitParse text).filterMap Except.toOption).filter fun pair =>
                  pair.name = spec.name) with
            | error error =>
                rw [foundOf_error spec.name hfound] at hnext
                cases hnext
            | ok kept =>
                rw [← foundOf_toList hfound] at hnext
                exact ⟨kept, foldlM_keepMatching_eq_ok.2 ⟨hpairs, hfound⟩, ih.2 ⟨hreadable, hnext⟩⟩

theorem foundOf_eq_ok_some {name : Text} {named : List Pair} :
    foundOf name named = .ok (some pair) ↔ named = [pair] := by
  match named with
  | [] => exact ⟨nofun, nofun⟩
  | [other] => simp only [foundOf, Except.ok.injEq, Option.some.injEq, cons.injEq, and_true]
  | _ :: _ :: _ => exact ⟨nofun, nofun⟩

/-- A cookie is found if the headers can be read and it is the only one of its name. -/
theorem parseFromHeaders_eq_ok : spec.parseFromHeaders crates values = .ok pair ↔
    Readable crates values ∧ namedCookies crates values spec.name = [pair] := by
  have hsteps : spec.parseFromHeaders crates values = .ok pair ↔
      values.foldlM (spec.collectFromHeader crates) none = .ok (some pair) := by
    rw [CookieSpec.parseFromHeaders, bind_eq_ok]
    constructor
    · rintro ⟨found, hfound, hpair⟩
      cases found with
      | none => cases hpair
      | some other =>
          cases hpair
          exact hfound
    · exact fun h => ⟨_, h, rfl⟩
  rw [hsteps, foldlM_collectFromHeader_eq_ok, foundOf_eq_ok_some]
  exact Iff.rfl

end Collecting

section Texts

variable {crates : Crates} {headers : HeaderMap} {name : HeaderName} {label : Label} {text : Text}

/-- The only header of a name, as text. -/
def HasText (crates : Crates) (headers : HeaderMap) (name : HeaderName) (text : Text) : Prop :=
  ∃ value, headers.getAll name = [value] ∧ crates.toStr value = some text

/-- No header of a name, or an empty one. -/
def Blank (crates : Crates) (headers : HeaderMap) (name : HeaderName) : Prop :=
  headers.getAll name = [] ∨ HasText crates headers name []

theorem singleHeaderValue_eq_ok {found : Option Bytes} :
    singleHeaderValue headers name label = .ok found ↔ headers.getAll name = found.toList := by
  unfold singleHeaderValue
  match headers.getAll name with
  | [] => cases found <;> simp
  | [value] => cases found <;> simp
  | _ :: _ :: _ => cases found <;> simp

theorem submittedToken_eq_ok : submittedToken crates headers name = .ok text ↔
    HasText crates headers name text ∧ text ≠ [] := by
  unfold submittedToken
  rw [bind_eq_ok]
  constructor
  · rintro ⟨found, hfound, h⟩
    rw [singleHeaderValue_eq_ok] at hfound
    cases found with
    | none => cases h
    | some value =>
        dsimp only at h
        cases htext : crates.toStr value with
        | none =>
            rw [htext] at h
            cases h
        | some token =>
            rw [htext] at h
            dsimp only at h
            by_cases hempty : token = []
            · rw [if_pos hempty] at h
              cases h
            · rw [if_neg hempty] at h
              cases h
              exact ⟨⟨value, hfound, htext⟩, hempty⟩
  · rintro ⟨⟨value, hvalue, htext⟩, hne⟩
    refine ⟨some value, singleHeaderValue_eq_ok.2 hvalue, ?_⟩
    dsimp only
    rw [htext]
    exact if_neg hne

theorem headerToNonemptyStr_eq_ok {found : Option Text} :
    headerToNonemptyStr crates headers name label = .ok found ↔
    headers.getAll name = [] ∧ found = none ∨
      ∃ text, HasText crates headers name text ∧ found = if text = [] then none else some text := by
  unfold headerToNonemptyStr
  rw [bind_eq_ok]
  constructor
  · rintro ⟨header, hheader, h⟩
    rw [singleHeaderValue_eq_ok] at hheader
    cases header with
    | none => exact .inl ⟨hheader, (Except.ok.inj h).symm⟩
    | some value =>
        dsimp only at h
        cases htext : crates.toStr value with
        | none =>
            rw [htext] at h
            cases h
        | some text =>
            rw [htext] at h
            exact .inr ⟨text, ⟨value, hheader, htext⟩, (Except.ok.inj h).symm⟩
  · rintro (⟨habsent, rfl⟩ | ⟨text, ⟨value, hvalue, htext⟩, rfl⟩)
    · exact ⟨none, singleHeaderValue_eq_ok.2 habsent, rfl⟩
    · refine ⟨some value, singleHeaderValue_eq_ok.2 hvalue, ?_⟩
      dsimp only
      rw [htext]
      rfl

theorem headerToNonemptyStr_eq_ok_some :
    headerToNonemptyStr crates headers name label = .ok (some text) ↔
    HasText crates headers name text ∧ text ≠ [] := by
  rw [headerToNonemptyStr_eq_ok]
  constructor
  · rintro (⟨-, hnone⟩ | ⟨read, hread, hsome⟩)
    · cases hnone
    · by_cases hempty : read = []
      · rw [if_pos hempty] at hsome
        cases hsome
      · rw [if_neg hempty] at hsome
        cases hsome
        exact ⟨hread, hempty⟩
  · rintro ⟨htext, hne⟩
    exact .inr ⟨text, htext, (if_neg hne).symm⟩

theorem headerToNonemptyStr_eq_ok_none :
    headerToNonemptyStr crates headers name label = .ok none ↔ Blank crates headers name := by
  rw [headerToNonemptyStr_eq_ok]
  constructor
  · rintro (⟨habsent, -⟩ | ⟨read, hread, hnone⟩)
    · exact .inl habsent
    · by_cases hempty : read = []
      · exact .inr (hempty ▸ hread)
      · rw [if_neg hempty] at hnone
        cases hnone
  · rintro (habsent | hempty)
    · exact .inl ⟨habsent, rfl⟩
    · exact .inr ⟨[], hempty, rfl⟩

end Texts

end Paranoid.CsrfReading

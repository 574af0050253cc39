import Paranoid.CookieModel

namespace Paranoid.CookieNames

open CookieModel List SetCookieText TrimmedText Utf8Text
open MnemonicModel (isWhitespace)

section Probes

variable {crates : Crates} {name value text : Text} {pair : Pair}

theorem parsePair_eq_ok (h : parsePair text = .ok pair) :
    ∃ before behind, text = before ++ '=' :: behind ∧ '=' ∉ before ∧
      trim isWhitespace before = pair.name ∧ pair.name ≠ [] ∧
        trim isWhitespace behind = pair.value := by
  unfold parsePair at h
  cases hcut : cut '=' text with
  | none =>
      rw [hcut] at h
      cases h
  | some parts =>
      obtain ⟨before, behind⟩ := parts
      obtain ⟨hseparated, rfl⟩ := cut_eq_some hcut
      rw [hcut] at h
      dsimp only at h
      split at h
      · cases h
      · rename_i hne
        cases h
        exact ⟨before, behind, rfl, hseparated, rfl, hne, rfl⟩

theorem parsePair_append (hname : '=' ∉ name) (hne : trim isWhitespace name ≠ []) (value : Text) :
    parsePair (name ++ '=' :: value) = .ok ⟨trim isWhitespace name, trim isWhitespace value⟩ := by
  rw [parsePair, cut_append hname]
  exact if_neg hne

/-- A name that survives the parser. -/
structure GoodName (name : Text) : Prop where
  ne_nil : name ≠ []
  equals : '=' ∉ name
  semicolon : ';' ∉ name
  trimmed : Trimmed isWhitespace name

/-- A value that survives the parser. -/
structure GoodValue (value : Text) : Prop where
  semicolon : ';' ∉ value
  trimmed : Trimmed isWhitespace value

theorem GoodName.trim_eq (h : GoodName name) : trim isWhitespace name = name :=
  trim_eq_self_iff.2 h.trimmed

theorem GoodValue.trim_eq (h : GoodValue value) : trim isWhitespace value = value :=
  trim_eq_self_iff.2 h.trimmed

theorem parse_pair (hname : GoodName name) (hvalue : GoodValue value) :
    crates.parse (name ++ '=' :: value) = .ok ⟨name, value⟩ := by
  have hwhole : ';' ∉ name ++ '=' :: value := by simp [hname.semicolon, hvalue.semicolon]
  have hne : trim isWhitespace name ≠ [] := by rw [hname.trim_eq]; exact hname.ne_nil
  rw [crates.parse_eq, takeWhile_of_not_mem hwhole,
    parsePair_append hname.equals hne, hname.trim_eq, hvalue.trim_eq]

theorem goodName_of_parse (h : crates.parse (name ++ ['=', 'x']) = .ok pair)
    (hname : pair.name = name) : GoodName name := by
  rw [crates.parse_eq] at h
  obtain ⟨before, behind, hkept, hbefore, htrim, hne, -⟩ := parsePair_eq_ok h
  rw [hname] at htrim hne
  have hprobe : before ++ '=' :: behind <+: name ++ ['=', 'x'] := hkept ▸ takeWhile_prefix _
  have hlength : name.length ≤ before.length := htrim ▸ length_trim_le isWhitespace before
  -- what is before the first equals sign is the name itself: it is not shorter, and nothing else is left of the probe
  have hlong : name <+: before :=
    prefix_of_prefix_length_le (prefix_append _ _) ((prefix_append _ _).trans hprobe) hlength
  obtain ⟨rest, rfl⟩ := hlong
  have hrest : rest <+: ['=', 'x'] := by
    rw [append_assoc] at hprobe
    exact (prefix_append _ _).trans ((prefix_append_right_inj name).1 hprobe)
  obtain rfl : rest = [] := by
    cases rest with
    | nil => rfl
    | cons c rest =>
        obtain ⟨rfl, -⟩ := cons_prefix_cons.1 hrest
        exact absurd (mem_append_right _ mem_cons_self) hbefore
  rw [append_nil] at hbefore htrim hkept
  refine ⟨hne, hbefore, fun hmem => ?_, trim_eq_self_iff.1 htrim⟩
  exact not_mem_takeWhile ';' _ (hkept ▸ mem_append_left _ hmem)

theorem validateCookieName_eq_ok : validateCookieName crates name = .ok () ↔ GoodName name := by
  constructor
  · intro h
    unfold validateCookieName at h
    split at h
    · cases h
    · cases hparse : crates.parse (name ++ ['=', 'x']) with
      | error source =>
          simp only [hparse] at h
          cases h
      | ok pair =>
          simp only [hparse] at h
          split at h
          · cases h
          · rename_i hsame
            rw [not_or, not_not] at hsame
            exact goodName_of_parse hparse hsame.1
  · intro h
    have hparse : crates.parse (name ++ ['=', 'x']) = .ok ⟨name, ['x']⟩ :=
      parse_pair h ⟨by decide, trimmed_of_all rfl⟩
    unfold validateCookieName
    rw [if_neg h.ne_nil]
    simp only [hparse]
    rw [if_neg (by simp)]
    rfl

theorem validateCookieValue_eq_ok : validateCookieValue crates value = .ok () ↔ GoodValue value := by
  constructor
  · intro h
    unfold validateCookieValue at h
    cases hparse : crates.parse (['x', '='] ++ value) with
    | error source =>
        simp only [hparse] at h
        cases h
    | ok pair =>
        simp only [hparse] at h
        split at h
        · cases h
        · rename_i hsame
          rw [not_or, not_not, not_not] at hsame
          rw [crates.parse_eq] at hparse
          have hkept : (['x', '='] ++ value).takeWhile (· ≠ ';') =
            ['x'] ++ '=' :: value.takeWhile (· ≠ ';') := rfl
          rw [hkept, parsePair_append (by decide) (by decide)] at hparse
          cases hparse
          have htrim : trim isWhitespace (value.takeWhile (· ≠ ';')) = value := hsame.2
          have hlength : value.length ≤ (value.takeWhile (· ≠ ';')).length := by
            calc value.length = (trim isWhitespace (value.takeWhile (· ≠ ';'))).length := by rw [htrim]
              _ ≤ (value.takeWhile (· ≠ ';')).length := length_trim_le _ _
          have hwhole : value.takeWhile (· ≠ ';') = value :=
            ( takeWhile_prefix _).eq_of_length_le hlength
          rw [hwhole] at htrim
          exact ⟨hwhole ▸ not_mem_takeWhile ';' value, trim_eq_self_iff.1 htrim⟩
  · intro h
    have hx : GoodName ['x'] := ⟨by decide, by decide, by decide, trimmed_of_all rfl⟩
    have hparse : crates.parse (['x', '='] ++ value) = .ok ⟨['x'], value⟩ := parse_pair hx h
    unfold validateCookieValue
    simp only [hparse]
    rw [if_neg (by simp)]
    rfl

end Probes

section Headers

variable {crates : Crates} {spec : CookieSpec} {pair : Pair} {pairs : List Pair} {text : Text}

/-- A pair that a header can carry. -/
structure Pair.Good (pair : Pair) : Prop where
  name : GoodName pair.name
  value : GoodValue pair.value

/-- The text of a `Cookie` header. -/
def headerText (pairs : List Pair) : Text := [';', ' '].intercalate (pairs.map Pair.text)

theorem not_all_text (pair : Pair) : pair.text.all isWhitespace = false := by
  rw [Pair.text, all_append, all_cons]
  simp only [show isWhitespace '=' = false from by decide, Bool.false_and, Bool.and_false]

theorem parsePair_text (h : Pair.Good pair) : parsePair pair.text = .ok pair := by
  rw [Pair.text, parsePair_append h.name.equals
    (by rw [h.name.trim_eq]; exact h.name.ne_nil), h.name.trim_eq, h.value.trim_eq]

theorem parsePair_spaced_text (h : Pair.Good pair) : parsePair (' ' :: pair.text) = .ok pair := by
  have hspaced : '=' ∉ ' ' :: pair.name := by simp [h.name.equals]
  have htrim : trim isWhitespace (' ' :: pair.name) = pair.name := by
    rw [trim_cons_space (by decide), h.name.trim_eq]
  rw [Pair.text, ← cons_append,
    parsePair_append hspaced (by rw [htrim]; exact h.name.ne_nil), htrim, h.value.trim_eq]

/-- The parser finds the pairs of a header, in order. -/
theorem splitParse_headerText (h : ∀ pair ∈ pairs, Pair.Good pair) :
    crates.splitParse (headerText pairs) = pairs.map .ok := by
  rw [crates.splitParse_eq, headerText]
  cases pairs with
  | nil => rfl
  | cons first rest =>
      rw [forall_mem_cons] at h
      have hclear : ∀ pair, Pair.Good pair → ';' ∉ pair.text := fun pair hpair => by
        simp [Pair.text, hpair.name.semicolon, hpair.value.semicolon]
      have hrest : ∀ text ∈ rest.map Pair.text, ';' ∉ text :=
        forall_mem_map.2 fun pair hpair => hclear pair (h.2 pair hpair)
      rw [map_cons, splitOn_intercalate_spaced (by decide) (hclear first h.1) hrest]
      have hkeep : ∀ part ∈ first.text :: (rest.map Pair.text).map (' ' :: ·), (!part.all isWhitespace) = true := by
        rw [map_map, forall_mem_cons, forall_mem_map]
        refine ⟨by rw [not_all_text]; rfl, fun pair _ => ?_⟩
        rw [Function.comp_apply, all_cons, not_all_text, Bool.and_false]
        rfl
      rw [filter_eq_self.2 hkeep, map_cons, map_map, map_map, parsePair_text h.1]
      congr 1
      exact map_congr_left fun pair hpair => parsePair_spaced_text (h.2 pair hpair)

/-- What is found when these are the pairs with the name. -/
def foundOf (name : Text) (named : List Pair) : Except Error (Option Pair) :=
  match named with
  | [] => .ok none
  | [pair] => .ok (some pair)
  | _ :: _ :: _ => .error (.duplicateCookie name)

theorem foundOf_error (name : Text) {named : List Pair}
    {error : Error} (h : foundOf name named = .error error)
    (others : List Pair) : foundOf name (named ++ others) = .error error := by
  match named with
  | [] => cases h
  | [_] => cases h
  | _ :: _ :: _ => exact h

theorem foundOf_toList {name : Text} {named : List Pair}
    {found : Option Pair} (h : foundOf name named = .ok found) :
    found.toList = named := by
  match named with
  | [] => cases h; rfl
  | [_] => cases h; rfl
  | _ :: _ :: _ => cases h

theorem foldlM_keepMatching (pairs : List Pair) (found : Option Pair) :
    (pairs.map Except.ok).foldlM spec.keepMatching found =
      foundOf spec.name (found.toList ++ pairs.filter fun pair => pair.name = spec.name) := by
  induction pairs generalizing found with
  | nil => cases found <;> rfl
  | cons pair pairs ih =>
      rw [map_cons, foldlM_cons, CookieSpec.keepMatching]
      by_cases hname : pair.name = spec.name
      · have hkeep : (pair :: pairs).filter (fun pair => decide (pair.name = spec.name)) =
            pair :: pairs.filter fun pair => decide (pair.name = spec.name) :=
              filter_cons_of_pos (by simp [hname])
        rw [if_pos hname, hkeep]
        cases found with
        | none => exact ih (some pair)
        | some first => rfl
      · have hskip : (pair :: pairs).filter (fun pair => decide (pair.name = spec.name)) =
            pairs.filter fun pair => decide (pair.name = spec.name) :=
              filter_cons_of_neg (by simp [hname])
        rw [if_neg hname, hskip]
        exact ih found

def Visible (text : Text) : Prop := text.all isVisible = true

instance (text : Text) : Decidable (Visible text) := inferInstanceAs (Decidable (_ = _))

theorem isAscii_of_isVisible {c : Char} (h : isVisible c = true) : isAscii c = true := by
  rw [isVisible, Bool.or_eq_true, Bool.and_eq_true,
    decide_eq_true_iff, decide_eq_true_iff, decide_eq_true_iff] at h
  refine decide_eq_true ?_
  rcases h with rfl | ⟨-, hlt⟩
  · decide
  · omega

theorem isVisibleByte_eq {c : Char} (h : isAscii c = true) : isVisibleByte c.toUInt8 = isVisible c := by
  have hbyte := toNat_toUInt8 h
  have htab : c.toUInt8 = 9 ↔ c = '\t' := by
    rw [← UInt8.toNat_inj, hbyte, ← Char.toNat_inj]
    rfl
  rw [isVisibleByte, isVisible, hbyte]
  simp only [htab]

theorem all_isVisibleByte (text : Text) : (utf8 text).all isVisibleByte = text.all isVisible := by
  induction text with
  | nil => rfl
  | cons c text ih =>
      rw [utf8_cons, all_append, all_cons, ih]
      cases hascii : isAscii c with
      | true =>
          rw [encode_ascii hascii, all_cons, isVisibleByte_eq hascii, all_nil, Bool.and_true]
      | false =>
          -- such a character is not visible, and neither is the first byte of its encoding
          obtain ⟨tail, htail⟩ := encode_eq_cons c
          have hhigh := firstByte_high hascii
          have hbyte : isVisibleByte (firstByte c) = false := by
            rw [isVisibleByte, Bool.or_eq_false_iff, Bool.and_eq_false_iff]
            refine ⟨decide_eq_false fun htab => ?_, .inr (decide_eq_false (by omega))⟩
            rw [htab] at hhigh
            exact absurd hhigh (by decide)
          have hchar : isVisible c = false := by
            cases hvisible : isVisible c with
            | false => rfl
            | true => rw [isAscii_of_isVisible hvisible] at hascii; cases hascii
          rw [htail, all_cons, hbyte, hchar, Bool.false_and, Bool.false_and]

theorem map_ofUInt8_utf8 {text : Text} (h : text.all isVisible = true) :
    (utf8 text).map Char.ofUInt8 = text := by
  induction text with
  | nil => rfl
  | cons c text ih =>
      rw [all_cons, Bool.and_eq_true] at h
      have hascii := isAscii_of_isVisible h.1
      have hback : Char.ofUInt8 c.toUInt8 = c := by
        rw [← Char.toNat_inj]
        exact toNat_toUInt8 hascii
      rw [utf8_cons, encode_ascii hascii, map_append, map_singleton, hback, ih h.2, singleton_append]

/-- The text of a header is read back if all of it is visible, and else not at all. -/
theorem toStr_utf8 (text : Text) :
    crates.toStr (utf8 text) = if Visible text then some text else none := by
  rw [crates.toStr_eq, all_isVisibleByte]
  by_cases hvisible : Visible text
  · rw [if_pos hvisible]
    exact (if_pos hvisible).trans (congrArg some (map_ofUInt8_utf8 hvisible))
  · rw [if_neg hvisible]
    exact if_neg hvisible

variable {headers : List (List Pair)}

/-- The values of the headers. -/
def headerValues (headers : List (List Pair)) : List ByteCodecs.Bytes :=
  headers.map fun pairs => utf8 (headerText pairs)

theorem collectFromHeader_visible (h : ∀ pair ∈ pairs, Pair.Good pair)
    (hvisible : Visible (headerText pairs))
    (found : Option Pair) : spec.collectFromHeader crates found (utf8 (headerText pairs)) =
      foundOf spec.name (found.toList ++ pairs.filter fun pair => pair.name = spec.name) := by
  rw [CookieSpec.collectFromHeader, toStr_utf8, if_pos hvisible]
  dsimp only
  rw [CookieSpec.collectMatchingCookie, splitParse_headerText h, foldlM_keepMatching]

/-- Over all headers, what counts are the pairs with the name. -/
theorem foldlM_collectFromHeader
    (h : ∀ pairs ∈ headers, (∀ pair ∈ pairs, Pair.Good pair) ∧ Visible (headerText pairs))
    (found : Option Pair) :
    (headerValues headers).foldlM (spec.collectFromHeader crates) found =
      foundOf spec.name (found.toList ++ headers.flatten.filter fun pair => pair.name = spec.name) := by
  induction headers generalizing found with
  | nil => cases found <;> rfl
  | cons pairs headers ih =>
      rw [forall_mem_cons] at h
      rw [headerValues, map_cons, foldlM_cons, collectFromHeader_visible h.1.1 h.1.2,
        flatten_cons, filter_append, ← append_assoc]
      cases hfound : foundOf spec.name
        (found.toList ++ pairs.filter fun pair => pair.name = spec.name) with
      | error error => exact (foundOf_error spec.name hfound _).symm
      | ok next =>
          rw [← foundOf_toList hfound]
          exact ih h.2 next

end Headers

end Paranoid.CookieNames

import Mathlib
import Paranoid.DecimalText
import Paranoid.TrimmedText
import Paranoid.Utf8Text

namespace Paranoid.SetCookieText

open DecimalText List TrimmedText
open Utf8Text (Text)

/-- A space or a tab. -/
def isWsp (c : Char) : Bool := c = ' ' || c = '\t'

inductive SameSite
  | lax
  | strict
  | none
  deriving DecidableEq

def SameSite.text : SameSite → Text
  | lax => ['L', 'a', 'x']
  | strict => ['S', 't', 'r', 'i', 'c', 't']
  | none => ['N', 'o', 'n', 'e']

/-- What a user agent takes an attribute to say. -/
inductive Attribute
  | maxAge (seconds : Int)
  | domain (domain : Text)
  | path (path : Option Text)
  | secure
  | httpOnly
  | sameSite (enforcement : Option SameSite)
  | partitioned
  | other (name value : Text)
  deriving DecidableEq

structure SetCookie where
  name : Text
  value : Text
  attributes : List Attribute

def lowercase (text : Text) : Text := text.map Char.toLower

namespace Names

def path : Text := ['P', 'a', 't', 'h']

def domain : Text := ['D', 'o', 'm', 'a', 'i', 'n']

def maxAge : Text := ['M', 'a', 'x', '-', 'A', 'g', 'e']

def secure : Text := ['S', 'e', 'c', 'u', 'r', 'e']

def httpOnly : Text := ['H', 't', 't', 'p', 'O', 'n', 'l', 'y']

def sameSite : Text := ['S', 'a', 'm', 'e', 'S', 'i', 't', 'e']

def partitioned : Text := ['P', 'a', 'r', 't', 'i', 't', 'i', 'o', 'n', 'e', 'd']

end Names

/-- Digits, with a sign before them or not; any other number of seconds is passed over. -/
def readMaxAge (value : Text) : Option Attribute :=
  let digits := if value.head? = some '-' then value.tail else value
  if digits ≠ [] ∧ ∀ c ∈ digits, c.isDigit then
    some (.maxAge (signed (value.head? = some '-') (ofDigits digits)))
  else none

def readDomain (value : Text) : Option Attribute :=
  if value = [] then none
  else some (.domain (lowercase (if value.head? = some '.' then value.tail else value)))

/-- A path that does not begin with a slash stands for the default path. -/
def readPath (value : Text) : Attribute := .path (if value.head? = some '/' then some value else none)

def readSameSite (value : Text) : Attribute :=
  .sameSite ([SameSite.lax, .strict, .none].find? fun sameSite => lowercase sameSite.text =
    lowercase value)

/-- The attribute of a name and a value; the name may be in any case. -/
def readNamed (name value : Text) : Option Attribute :=
  if lowercase name = lowercase Names.path then some (readPath value)
  else if lowercase name = lowercase Names.domain then readDomain value
  else if lowercase name = lowercase Names.maxAge then readMaxAge value
  else if lowercase name = lowercase Names.secure then some .secure
  else if lowercase name = lowercase Names.httpOnly then some .httpOnly
  else if lowercase name = lowercase Names.sameSite then some (readSameSite value)
  else if lowercase name = lowercase Names.partitioned then some .partitioned
  else some (.other name value)

def readAttribute (text : Text) : Option Attribute :=
  match cut '=' text with
  | some (name, value) => readNamed (trim isWsp name) (trim isWsp value)
  | none => readNamed (trim isWsp text) []

/-- How a user agent reads the text of a `Set-Cookie` header. -/
def read (text : Text) : Option SetCookie :=
  match text.splitOn ';' with
  | [] => none
  | pair :: attributes =>
      match cut '=' pair with
      | none => none
      | some (name, value) =>
          if trim isWsp name = [] then none
          else some ⟨trim isWsp name, trim isWsp value, attributes.filterMap readAttribute⟩

section Reading

variable {name value path domain : Text}

/-- The pair of a cookie, and attributes that each have a semicolon and a space before them. -/
def rendered (name value : Text) (attributes : List Text) : Text :=
  [';', ' '].intercalate ((name ++ '=' :: value) :: attributes)

/-- A name or value that no separator ends and no whitespace is trimmed from. -/
structure Plain (text : Text) : Prop where
  semicolon : ';' ∉ text
  trimmed : Trimmed isWsp text

theorem readAttribute_spaced (text : Text) : readAttribute (' ' :: text) = readAttribute text := by
  unfold readAttribute
  cases hcut : cut '=' text with
  | some parts =>
      obtain ⟨name, value⟩ := parts
      obtain ⟨hname, rfl⟩ := cut_eq_some hcut
      have hspaced : cut '=' (' ' :: (name ++ '=' :: value)) = some (' ' :: name, value) :=
        @cut_append _ _ '=' (' ' :: name) (by simp [hname]) value
      rw [hspaced]
      exact congrArg (readNamed · _) (trim_cons_space rfl)
  | none =>
      have hnot : '=' ∉ text := fun hmem => by simp [cut, hmem] at hcut
      rw [cut_of_not_mem (by simp [hnot])]
      exact congrArg (readNamed · _) (trim_cons_space rfl)

theorem readAttribute_named (hname : '=' ∉ name)
    (hnameTrimmed : Trimmed isWsp name) (hvalue : Trimmed isWsp value) :
    readAttribute (name ++ '=' :: value) = readNamed name value := by
  rw [readAttribute, cut_append hname]
  dsimp only
  rw [trim_eq_self_iff.2 hnameTrimmed, trim_eq_self_iff.2 hvalue]

theorem read_rendered {attributes : List Text} (hname : Plain name)
    (hseparated : '=' ∉ name) (hne : name ≠ [])
    (hvalue : Plain value) (hattributes : ∀ text ∈ attributes, ';' ∉ text) :
    read (rendered name value attributes) = some ⟨name, value, attributes.filterMap readAttribute⟩ := by
  have hpair : ';' ∉ name ++ '=' :: value := by
    simp [hname.semicolon, hvalue.semicolon]
  rw [read, rendered, splitOn_intercalate_spaced (by decide) hpair hattributes]
  dsimp only
  rw [cut_append hseparated]
  dsimp only
  rw [trim_eq_self_iff.2 hname.trimmed, trim_eq_self_iff.2 hvalue.trimmed, if_neg hne, filterMap_map]
  congr 3
  exact funext readAttribute_spaced

theorem readMaxAge_natText (n : Nat) : readMaxAge (natText n) = some (.maxAge n) := by
  have hhead : (natText n).head? ≠ some '-' := fun h => by
    have hdigit := @isDigit_of_mem_natText n _ (mem_of_mem_head? h)
    exact absurd hdigit (by decide)
  have hdigits : ∀ c ∈ natText n, c.isDigit := fun c hc => isDigit_of_mem_natText hc
  unfold readMaxAge
  rw [if_neg hhead, if_pos ⟨natText_ne_nil, hdigits⟩, decide_eq_false hhead, ofDigits_natText]
  rfl

theorem readPath_rooted (h : path.head? = some '/') : readPath path = .path (some path) := by
  rw [readPath, if_pos h]

theorem readDomain_plain (hne : domain ≠ [])
    (hdot : domain.head? ≠ some '.') (hlower : lowercase domain = domain) :
    readDomain domain = some (.domain domain) := by
  rw [readDomain, if_neg hne, if_neg hdot, hlower]

end Reading

end Paranoid.SetCookieText

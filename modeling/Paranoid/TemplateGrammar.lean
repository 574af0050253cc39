import Mathlib.Algebra.Ring.Nat
import Mathlib.Data.List.Basic
import Paranoid.Utf8Text

namespace Paranoid.TemplateGrammar

open List
open Utf8Text (Text)

inductive TemplateError
  | unterminatedString
  | unterminatedIdentifier
  | unterminatedComment
  | unsupportedDollar
  | invalidIndex (digits : Text)
  | zeroIndex
  | noBind (index : Nat)
  deriving DecidableEq

def isIdentifierContinuation (c : Char) : Bool := c.isAlphanum || c = '_' || 128 ≤ c.toNat

/-- What was read so far ends in an `E` that is a word of its own. -/
def opensEscapeString (before : Text) : Bool :=
  match before.reverse with
  | [] => false
  | e :: word => (e = 'E' || e = 'e') && !word.head?.any isIdentifierContinuation

def decimal (digits : Text) : Nat := digits.foldl (fun n d => 10 * n + (d.toNat - '0'.toNat)) 0

/-- `usize` has 64 bits. -/
def parseUsize (digits : Text) : Option Nat :=
  if decimal digits < 2 ^ 64 then some (decimal digits) else none

/-- What follows an opening quote, up to the closing one and with it. -/
inductive Quoted (quote : Char) (escapes : Bool) : Text → Prop
  | close : Quoted quote escapes [quote]
  | doubled {body : Text} (h : Quoted quote escapes body) : Quoted quote escapes (quote :: quote :: body)
  | escaped {body : Text} (c : Char) (hescapes : escapes) (h : Quoted quote escapes body) :
      Quoted quote escapes ('\\' :: c :: body)
  | plain {body : Text} {c : Char} (hquote : c ≠ quote) (hescape : ¬(escapes ∧ c = '\\')) (h : Quoted quote escapes body) :
      Quoted quote escapes (c :: body)

def OpensComment (text : Text) : Prop := ['/', '*'] <+: text

def ClosesComment (text : Text) : Prop := ['*', '/'] <+: text

/-- What closes the innermost comment and all around it, when `depth` comments are open. -/
inductive Closes : Nat → Text → Prop
  | done : Closes 0 []
  | nested {depth : Nat} {body : Text} (h : Closes (depth + 2) body) : Closes (depth + 1) ('/' :: '*' :: body)
  | closed {depth : Nat} {body : Text} (h : Closes depth body) : Closes (depth + 1) ('*' :: '/' :: body)
  | plain {depth : Nat} {body : Text} {c : Char} (hopens : ¬OpensComment (c :: body)) (hcloses : ¬ClosesComment (c :: body))
      (h : Closes (depth + 1) body) : Closes (depth + 1) (c :: body)

/-- The comments nest deeper than a `u32` counts before they are closed. -/
inductive Deep : Nat → Text → Prop
  | tooDeep {body : Text} : Deep (2 ^ 32 - 1) ('/' :: '*' :: body)
  | nested {depth : Nat} {body : Text} (h : Deep (depth + 2) body) : Deep (depth + 1) ('/' :: '*' :: body)
  | closed {depth : Nat} {body : Text} (h : Deep (depth + 1) body) : Deep (depth + 2) ('*' :: '/' :: body)
  | plain {depth : Nat} {body : Text} {c : Char} (hopens : ¬OpensComment (c :: body)) (hcloses : ¬ClosesComment (c :: body))
      (h : Deep (depth + 1) body) : Deep (depth + 1) (c :: body)

/-- What follows until a count of the open comments is back at zero. A `u32` that is full goes
on at zero. -/
inductive CountsOut : Nat → Text → Prop
  | done : CountsOut 0 []
  | nested {depth : Nat} {body : Text} (h : CountsOut ((depth + 2) % 2 ^ 32) body) :
      CountsOut (depth + 1) ('/' :: '*' :: body)
  | closed {depth : Nat} {body : Text} (h : CountsOut depth body) : CountsOut (depth + 1) ('*' :: '/' :: body)
  | plain {depth : Nat} {body : Text} {c : Char} (hopens : ¬OpensComment (c :: body)) (hcloses : ¬ClosesComment (c :: body))
      (h : CountsOut (depth + 1) body) : CountsOut (depth + 1) (c :: body)

/-- A character at which nothing but itself begins. -/
def Plain (c : Char) (rest : Text) : Prop :=
  c ≠ '\'' ∧ c ≠ '"' ∧ c ≠ '$' ∧ ¬(c = '-' ∧ rest.head? = some '-') ∧ ¬(c = '/' ∧ rest.head? = some '*')

/-- The digits of a placeholder, none left behind. -/
def Digits (digits rest : Text) : Prop :=
  digits ≠ [] ∧ (∀ d ∈ digits, d.isDigit) ∧ ∀ c ∈ rest.head?, c.isDigit = false

/-- A span of the template after `before` that holds no placeholder, before `rest`. -/
inductive Verbatim (before : Text) : Text → Text → Prop
  | string {body rest : Text} (h : Quoted '\'' (opensEscapeString before) body) (hrest : rest.head? ≠ some '\'') :
      Verbatim before ('\'' :: body) rest
  | identifier {body rest : Text} (h : Quoted '"' false body) (hrest : rest.head? ≠ some '"') :
      Verbatim before ('"' :: body) rest
  | lineComment {body rest : Text} (h : ∀ c ∈ body, c ≠ '\n') (hrest : ∀ c ∈ rest.head?, c = '\n') :
      Verbatim before ('-' :: '-' :: body) rest
  | blockComment {body rest : Text} (h : CountsOut 1 body) : Verbatim before ('/' :: '*' :: body) rest
  | plain {c : Char} {rest : Text} (h : Plain c rest) : Verbatim before [c] rest

variable (fragments : List Text)

/-- A span of the template after `before`, what it is rendered as, and what it is followed by. -/
inductive Span (before : Text) : Text → Text → Text → Prop
  | string {body rest : Text} (h : Quoted '\'' (opensEscapeString before) body) (hrest : rest.head? ≠ some '\'') :
      Span before ('\'' :: body) ('\'' :: body) rest
  | identifier {body rest : Text} (h : Quoted '"' false body) (hrest : rest.head? ≠ some '"') :
      Span before ('"' :: body) ('"' :: body) rest
  | lineComment {body rest : Text} (h : ∀ c ∈ body, c ≠ '\n') (hrest : ∀ c ∈ rest.head?, c = '\n') :
      Span before ('-' :: '-' :: body) ('-' :: '-' :: body) rest
  | blockComment {body rest : Text} (h : Closes 1 body) : Span before ('/' :: '*' :: body) ('/' :: '*' :: body) rest
  | placeholder {digits rest fragment : Text} {n : Nat} (h : Digits digits rest) (hindex : parseUsize digits = some (n + 1))
      (hfragment : fragments[n]? = some fragment) : Span before ('$' :: digits) fragment rest
  | plain {c : Char} {rest : Text} (h : Plain c rest) : Span before [c] [c] rest

/-- What cannot be read after `before`. -/
inductive Faulty (before : Text) : Text → TemplateError → Prop
  | string {text : Text} (h : ∀ body rest, text = body ++ rest → Quoted '\'' (opensEscapeString before) body →
      rest.head? = some '\'') : Faulty before ('\'' :: text) .unterminatedString
  | identifier {text : Text} (h : ∀ body rest, text = body ++ rest → Quoted '"' false body → rest.head? = some '"') :
      Faulty before ('"' :: text) .unterminatedIdentifier
  | blockComment {text : Text} (h : ∀ body rest, text = body ++ rest → ¬Closes 1 body) :
      Faulty before ('/' :: '*' :: text) .unterminatedComment
  | dollar {text : Text} (h : ∀ c ∈ text.head?, c.isDigit = false) : Faulty before ('$' :: text) .unsupportedDollar
  | unparsable {digits rest : Text} (h : Digits digits rest) (hindex : parseUsize digits = none) :
      Faulty before ('$' :: (digits ++ rest)) (.invalidIndex digits)
  | zero {digits rest : Text} (h : Digits digits rest) (hindex : parseUsize digits = some 0) :
      Faulty before ('$' :: (digits ++ rest)) .zeroIndex
  | unbound {digits rest : Text} {n : Nat} (h : Digits digits rest) (hindex : parseUsize digits = some (n + 1))
      (hfragment : fragments[n]? = none) : Faulty before ('$' :: (digits ++ rest)) (.noBind (n + 1))

/-- The template after `before` is a sequence of spans, rendered one by one. -/
inductive Renders : Text → Text → Text → Prop
  | done {before : Text} : Renders before [] []
  | span {before source output rest out : Text} (h : Span fragments before source output rest)
      (hrest : Renders (before ++ source) rest out) : Renders before (source ++ rest) (output ++ out)

/-- A sequence of spans ends at what cannot be read. -/
inductive Refuses : Text → Text → TemplateError → Prop
  | fault {before text : Text} {e : TemplateError} (h : Faulty fragments before text e) : Refuses before text e
  | span {before source output rest : Text} {e : TemplateError} (h : Span fragments before source output rest)
      (hrest : Refuses (before ++ source) rest e) : Refuses before (source ++ rest) e

/-- A sequence of spans comes to a comment that nests too deep to be counted. -/
inductive Overflows : Text → Text → Prop
  | comment {before text : Text} (h : Deep 1 text) : Overflows before ('/' :: '*' :: text)
  | span {before source output rest : Text} (h : Span fragments before source output rest)
      (hrest : Overflows (before ++ source) rest) : Overflows before (source ++ rest)

end Paranoid.TemplateGrammar

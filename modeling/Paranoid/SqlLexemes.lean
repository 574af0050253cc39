import Mathlib.Data.List.TakeWhile
import Paranoid.Utf8Text

namespace Paranoid.SqlLexemes

open List
open Utf8Text (Text)

section Characters

def isSpace (c : Char) : Bool := c = ' ' || c = '\t' || c = '\n' || c = '\r' || c = '\x0b' || c = '\x0c'

def isIdentifierStart (c : Char) : Bool := c.isAlpha || c = '_' || 128 ≤ c.toNat

def isIdentifierPart (c : Char) : Bool := isIdentifierStart c || c.isDigit || c = '$'

def isOperator (c : Char) : Bool := c ∈ "~!@#^&|?+-*/%<>=".toList || c.toNat = 96

/-- The characters that let an operator end in a sign. -/
def keepsSign (c : Char) : Bool := c ∈ "~!@#^&|?%".toList || c.toNat = 96

/-- The characters up to where `depth` open comments are closed. -/
def blockCommentLength : Nat → Text → Option Nat
  | 0, _ => some 0
  | _ + 1, [] => none
  | _ + 1, [_] => none
  | depth + 1, c :: d :: rest =>
      if c = '/' ∧ d = '*' then (blockCommentLength (depth + 2) rest).map (· + 2)
      else if c = '*' ∧ d = '/' then (blockCommentLength depth rest).map (· + 2)
      else (blockCommentLength (depth + 1) (d :: rest)).map (· + 1)

/-- The characters up to a delimiter and with it. -/
def delimitedLength (delimiter : Text) : Text → Option Nat
  | [] => none
  | c :: rest =>
      if delimiter <+: c :: rest then some delimiter.length else (delimitedLength delimiter rest).map (· + 1)

/-- The part of an operator before a comment. -/
def beforeComment : Text → Text
  | c :: d :: rest =>
      if (c = '-' ∧ d = '-') ∨ (c = '/' ∧ d = '*') then [] else c :: beforeComment (d :: rest)
  | text => text

/-- An operator does not end in a sign, unless it has a character that lets it. -/
def trimSigns (operator : Text) : Text :=
  if operator.dropLast.any keepsSign then operator
  else operator.take 1 ++ ((operator.drop 1).reverse.dropWhile fun c => c = '+' || c = '-').reverse

end Characters

/-- How the text of a quoted lexeme is read: whether a backslash escapes, and whether a quote is
doubled. -/
inductive Style
  | plain
  | escape
  | bits
  deriving DecidableEq

inductive Kind
  | space
  | lineComment
  | blockComment
  | string (style : Style)
  | continued (style : Style)
  | quotedIdentifier
  | identifier
  | number
  | parameter
  | dollarString
  | operator
  | symbol
  deriving DecidableEq

@[ext] structure Lexeme where
  kind : Kind
  text : Text
  deriving DecidableEq

def isNewline (c : Char) : Bool := c = '\n' || c = '\r'

/-- What a string that follows may continue: a string, once a new line has begun behind it. -/
inductive After
  | other
  | string (style : Style) (newline : Bool)
  deriving DecidableEq

def After.next (after : After) (lexeme : Lexeme) : After :=
  match lexeme.kind with
  | .space =>
      match after with
      | .string style newline => .string style (newline || lexeme.text.any isNewline)
      | .other => .other
  | .lineComment => after
  | .string style => .string style false
  | .continued style => .string style false
  | _ => .other

section Quotes

/-- The characters of a quoted lexeme behind its opening quote, if it is closed. -/
def closingLength (quote : Char) (style : Style) : Text → Option Nat
  | [] => none
  | [c] => if c = quote then some 1 else none
  | c :: d :: rest =>
      if style = .escape ∧ c = '\\' then (closingLength quote style rest).map (· + 2)
      else if c = quote then
        if style ≠ .bits ∧ d = quote then (closingLength quote style rest).map (· + 2) else some 1
      else (closingLength quote style (d :: rest)).map (· + 1)

/-- What a quoted lexeme begins with, up to its quote. -/
structure Opening where
  before : Text
  quote : Char
  style : Style
  deriving DecidableEq

def Opening.text (o : Opening) : Text := o.before ++ [o.quote]

def openings : List Opening :=
  [⟨[], '\'', .plain⟩, ⟨[], '"', .plain⟩, ⟨['e'], '\'', .escape⟩, ⟨['E'], '\'', .escape⟩,
    ⟨['b'], '\'', .bits⟩, ⟨['B'], '\'', .bits⟩, ⟨['x'], '\'', .bits⟩, ⟨['X'], '\'', .bits⟩,
    ⟨['u', '&'], '\'', .plain⟩, ⟨['U', '&'], '\'', .plain⟩,
    ⟨['u', '&'], '"', .plain⟩, ⟨['U', '&'], '"', .plain⟩]

def opening (text : Text) : Option Opening := openings.find? fun o => decide (o.text <+: text)

/-- A string without a letter in front continues the one before it, if there is a new line
between them. -/
def Opening.kind (after : After) (o : Opening) : Kind :=
  if o.quote = '"' then .quotedIdentifier
  else
    match o.before, after with
    | [], .string style true => .continued style
    | _, _ => .string o.style

def Opening.styleAfter (after : After) (o : Opening) : Style :=
  match o.kind after with
  | .continued style => style
  | _ => o.style

end Quotes

section Numbers

inductive NumberPart
  | integer
  | fraction
  | exponent
  | hexadecimal
  | octal
  | binary
  deriving DecidableEq

def NumberPart.isDigit : NumberPart → Char → Bool
  | .hexadecimal, c => c.isDigit || c ∈ "abcdefABCDEF".toList
  | .octal, c => c ∈ "01234567".toList
  | .binary, c => c ∈ "01".toList
  | _, c => c.isDigit

inductive NumberState
  | zero
  | digits (part : NumberPart)
  | separator (part : NumberPart)
  | point
  | letter
  | sign
  | radix (part : NumberPart)
  deriving DecidableEq

def afterDigit (part : NumberPart) (c : Char) : Option NumberState :=
  if part.isDigit c then some (.digits part)
  else if c = '_' then some (.separator part)
  else if c = '.' ∧ part = .integer then some .point
  else if (c = 'e' ∨ c = 'E') ∧ (part = .integer ∨ part = .fraction) then some .letter
  else none

def NumberState.step : NumberState → Char → Option NumberState
  | .zero, c =>
      if c = 'x' ∨ c = 'X' then some (.radix .hexadecimal)
      else if c = 'o' ∨ c = 'O' then some (.radix .octal)
      else if c = 'b' ∨ c = 'B' then some (.radix .binary)
      else afterDigit .integer c
  | .digits part, c => afterDigit part c
  | .separator part, c => if part.isDigit c then some (.digits part) else none
  | .point, c =>
      if c.isDigit then some (.digits .fraction) else if c = 'e' ∨ c = 'E' then some .letter else none
  | .letter, c =>
      if c = '+' ∨ c = '-' then some .sign else if c.isDigit then some (.digits .exponent) else none
  | .sign, c => if c.isDigit then some (.digits .exponent) else none
  | .radix part, c =>
      if part.isDigit c then some (.digits part) else if c = '_' then some (.separator part) else none

def NumberState.accepts : NumberState → Bool
  | .zero | .digits _ | .point => true
  | _ => false

/-- A character that may not stand directly behind a number. -/
def joinsNumber (c : Char) : Bool := isIdentifierStart c || c.isDigit

/-- The characters of a number from `state` on. Two points are not a part of it. -/
def numberLength (state : NumberState) : Text → Option Nat
  | [] => if state.accepts then some 0 else none
  | c :: rest =>
      match state.step c with
      | some next =>
          if next = .point ∧ rest.head? = some '.' then some 0
          else (numberLength next rest).map (· + 1)
      | none => if state.accepts ∧ joinsNumber c = false then some 0 else none

def startState (c : Char) : NumberState :=
  if c = '0' then .zero else if c = '.' then .point else .digits .integer

end Numbers

section Scan

/-- The operator that a text begins with. -/
def operatorOf (text : Text) : Text := trimSigns (beforeComment (text.takeWhile isOperator))

/-- A parameter, or a text between two equal tags. -/
def scanDollar (rest : Text) : Option (Kind × Nat) :=
  let digits := rest.takeWhile Char.isDigit
  if digits ≠ [] then
    if (rest.drop digits.length).head?.any isIdentifierStart then none
    else some (.parameter, 1 + digits.length)
  else
    let tag := rest.takeWhile fun c => isIdentifierStart c || c.isDigit
    let delimiter := '$' :: (tag ++ ['$'])
    if ['$'] <+: rest.drop tag.length then
      (delimitedLength delimiter (rest.drop (tag.length + 1))).map fun n =>
        (.dollarString, delimiter.length + n)
    else none

def symbolLength (text : Text) : Nat :=
  if [':', ':'] <+: text ∨ [':', '='] <+: text ∨ ['.', '.'] <+: text then 2 else 1

def startsNumber (c : Char) (rest : Text) : Bool :=
  c.isDigit || (c = '.' && rest.head?.any Char.isDigit)

/-- What a text begins with, and how many characters it has. A backslash is a character of its own
in a string without an `E` in front. -/
def scan (after : After) (text : Text) : Option (Kind × Nat) :=
  match opening text with
  | some o =>
      (closingLength o.quote (o.styleAfter after) (text.drop o.text.length)).map fun n =>
        (o.kind after, o.text.length + n)
  | none =>
      match text with
      | [] => none
      | c :: rest =>
          if isSpace c then some (.space, 1)
          else if ['-', '-'] <+: c :: rest then
            some (.lineComment, ((c :: rest).takeWhile fun d => !isNewline d).length)
          else if ['/', '*'] <+: c :: rest then
            (blockCommentLength 1 (rest.drop 1)).map fun n => (.blockComment, n + 2)
          else if isIdentifierStart c then some (.identifier, 1 + (rest.takeWhile isIdentifierPart).length)
          else if startsNumber c rest then (numberLength (startState c) rest).map fun n => (.number, n + 1)
          else if c = '$' then scanDollar rest
          else if isOperator c then some (.operator, (operatorOf (c :: rest)).length)
          else some (.symbol, symbolLength (c :: rest))

def lexemesWithin : Nat → After → Text → Option (List Lexeme)
  | _, _, [] => some []
  | 0, _, _ :: _ => none
  | limit + 1, after, c :: rest =>
      match scan after (c :: rest) with
      | none => none
      | some (_, 0) => none
      | some (kind, n + 1) =>
          (lexemesWithin limit (after.next ⟨kind, c :: rest.take n⟩) (rest.drop n)).map
            (⟨kind, c :: rest.take n⟩ :: ·)

/-- The lexemes of a text from the first to the last, with its spaces and comments, unless one of
them is not closed. -/
def lexemes (text : Text) : Option (List Lexeme) := lexemesWithin text.length .other text

def Kind.isToken : Kind → Bool
  | .space | .lineComment | .blockComment => false
  | _ => true

/-- The texts of the lexemes that are neither spaces nor comments. -/
def tokens (text : Text) : Option (List Text) :=
  (lexemes text).map fun ls => (ls.filter fun l => l.kind.isToken).map Lexeme.text

theorem ne_nil_of_mem_lexemesWithin {limit : Nat} {after : After} {text : Text} {ls : List Lexeme}
    (h : lexemesWithin limit after text = some ls) : ∀ l ∈ ls, l.text ≠ [] := by
  induction limit generalizing after text ls with
  | zero =>
      cases text with
      | nil =>
          cases h
          exact nofun
      | cons c rest => cases h
  | succ limit ih =>
      cases text with
      | nil =>
          cases h
          exact nofun
      | cons c rest =>
          rw [lexemesWithin] at h
          split at h
          next => cases h
          next => cases h
          next =>
            obtain ⟨ls, hls, rfl⟩ := Option.map_eq_some_iff.1 h
            exact forall_mem_cons.2 ⟨cons_ne_nil _ _, ih hls⟩

theorem ne_nil_of_mem_tokens {text : Text} {ts : List Text} (h : tokens text = some ts) :
    ∀ t ∈ ts, t ≠ [] := by
  obtain ⟨ls, hls, rfl⟩ := Option.map_eq_some_iff.1 h
  intro t ht
  obtain ⟨l, hl, rfl⟩ := mem_map.1 ht
  exact ne_nil_of_mem_lexemesWithin hls l (mem_of_mem_filter hl)

example : tokens "NOT (a<=-1) --x".toList =
    some (["NOT", "(", "a", "<=", "-", "1", ")"].map String.toList) := by
  decide +kernel

end Scan

section Lengths

variable {quote : Char} {style : Style} {state : NumberState} {text body rest : Text}

theorem map_add_eq_some {x : Option Nat} {k n : Nat} : x.map (· + k) = some (n + k) ↔ x = some n := by
  cases x <;> simp

theorem closingLength_ne_zero : ∀ text, closingLength quote style text ≠ some 0
  | [] => by simp [closingLength]
  | [c] => by
      rw [closingLength]
      split_ifs <;> simp
  | c :: d :: rest => by
      rw [closingLength]
      split_ifs <;> simp

theorem closingLength_le :
    ∀ {text : Text} {n : Nat}, closingLength quote style text = some n → n ≤ text.length
  | [], n, h => by cases h
  | [c], n, h => by
      rw [closingLength] at h
      split_ifs at h
      exact (Option.some.inj h).ge
  | c :: d :: rest, n, h => by
      rw [closingLength] at h
      split_ifs at h
      · obtain ⟨m, hm, rfl⟩ := Option.map_eq_some_iff.1 h
        exact Nat.add_le_add_right (closingLength_le hm) 2
      · obtain ⟨m, hm, rfl⟩ := Option.map_eq_some_iff.1 h
        exact Nat.add_le_add_right (closingLength_le hm) 2
      · rw [← Option.some.inj h]
        simp
      · obtain ⟨m, hm, rfl⟩ := Option.map_eq_some_iff.1 h
        exact Nat.add_le_add_right (closingLength_le hm) 1

/-- Where a quoted lexeme is closed depends on the next character only. -/
theorem closingLength_append (hquote : quote ≠ '\\') : ∀ (body rest : Text),
    closingLength quote style (body ++ rest) = some body.length ↔
      closingLength quote style body = some body.length ∧ (style ≠ .bits → rest.head? ≠ some quote)
  | [], rest => iff_of_false (closingLength_ne_zero rest) fun h => closingLength_ne_zero [] h.1
  | [c], [] => by simp
  | [c], d :: rest => by
      have hone : (closingLength quote style (d :: rest)).map (· + 1) ≠ some 1 := fun h =>
        closingLength_ne_zero _ ((map_add_eq_some (k := 1) (n := 0)).1 h)
      rw [singleton_append, closingLength, closingLength, length_singleton, head?_cons]
      by_cases hc : c = quote
      · subst hc
        rw [if_neg fun hescape => hquote hescape.2, if_pos rfl, if_pos rfl]
        by_cases hd : style ≠ .bits ∧ d = c
        · rw [if_pos hd, hd.2]
          refine iff_of_false (fun h => ?_) fun h => h.2 hd.1 rfl
          obtain ⟨m, -, hm⟩ := Option.map_eq_some_iff.1 h
          omega
        · rw [if_neg hd]
          exact iff_of_true rfl ⟨rfl, fun hbits hhead => hd ⟨hbits, Option.some.inj hhead⟩⟩
      · rw [if_neg hc, if_neg hc]
        refine iff_of_false ?_ fun h => by cases h.1
        split_ifs
        · intro h
          obtain ⟨m, -, hm⟩ := Option.map_eq_some_iff.1 h
          omega
        · exact hone
  | c :: d :: body, rest => by
      rw [cons_append, cons_append, closingLength, closingLength, length_cons, length_cons]
      split_ifs
      · rw [map_add_eq_some, map_add_eq_some]
        exact closingLength_append hquote body rest
      · rw [map_add_eq_some, map_add_eq_some]
        exact closingLength_append hquote body rest
      · exact iff_of_false (by simp) (by simp)
      · rw [map_add_eq_some, map_add_eq_some]
        exact closingLength_append hquote (d :: body) rest

theorem blockCommentLength_ne_zero {depth : Nat} : ∀ text, blockCommentLength (depth + 1) text ≠ some 0
  | [] => by simp [blockCommentLength]
  | [c] => by simp [blockCommentLength]
  | c :: d :: rest => by
      rw [blockCommentLength]
      split_ifs <;> simp

theorem blockCommentLength_le : ∀ {depth : Nat} {text : Text} {n : Nat},
    blockCommentLength depth text = some n → n ≤ text.length
  | 0, _, n, h => by
      rw [blockCommentLength] at h
      rw [← Option.some.inj h]
      exact Nat.zero_le _
  | depth + 1, [], n, h => by cases h
  | depth + 1, [c], n, h => by cases h
  | depth + 1, c :: d :: rest, n, h => by
      rw [blockCommentLength] at h
      split_ifs at h
      · obtain ⟨m, hm, rfl⟩ := Option.map_eq_some_iff.1 h
        exact Nat.add_le_add_right (blockCommentLength_le hm) 2
      · obtain ⟨m, hm, rfl⟩ := Option.map_eq_some_iff.1 h
        exact Nat.add_le_add_right (blockCommentLength_le hm) 2
      · obtain ⟨m, hm, rfl⟩ := Option.map_eq_some_iff.1 h
        exact Nat.add_le_add_right (blockCommentLength_le hm) 1

/-- Where a comment is closed does not depend on what follows. -/
theorem blockCommentLength_append : ∀ (depth : Nat) (body rest : Text),
    blockCommentLength depth (body ++ rest) = some body.length ↔
      blockCommentLength depth body = some body.length
  | 0, body, rest => by rw [blockCommentLength, blockCommentLength]
  | depth + 1, [], rest =>
      iff_of_false (blockCommentLength_ne_zero rest) (blockCommentLength_ne_zero [])
  | depth + 1, [c], [] => by rw [append_nil]
  | depth + 1, [c], d :: rest => by
      refine iff_of_false ?_ (by simp [blockCommentLength])
      rw [singleton_append, blockCommentLength, length_singleton]
      split_ifs
      · simp
      · simp
      · exact fun h => blockCommentLength_ne_zero _ ((map_add_eq_some (k := 1) (n := 0)).1 h)
  | depth + 1, c :: d :: body, rest => by
      rw [cons_append, cons_append, blockCommentLength, blockCommentLength, length_cons, length_cons]
      split_ifs
      · rw [map_add_eq_some, map_add_eq_some]
        exact blockCommentLength_append (depth + 2) body rest
      · rw [map_add_eq_some, map_add_eq_some]
        exact blockCommentLength_append depth body rest
      · rw [map_add_eq_some, map_add_eq_some]
        exact blockCommentLength_append (depth + 1) (d :: body) rest

variable {delimiter : Text}

theorem delimitedLength_bounds {n : Nat} (h : delimitedLength delimiter text = some n) :
    delimiter.length ≤ n ∧ n ≤ text.length := by
  induction text generalizing n with
  | nil => cases h
  | cons c rest ih =>
      rw [delimitedLength] at h
      split_ifs at h with hstarts
      · obtain rfl := Option.some.inj h
        exact ⟨le_rfl, hstarts.length_le⟩
      · obtain ⟨m, hm, rfl⟩ := Option.map_eq_some_iff.1 h
        obtain ⟨hle, hlength⟩ := ih hm
        exact ⟨Nat.le_succ_of_le hle, Nat.succ_le_succ hlength⟩

/-- Where a delimiter is found first does not depend on what follows it. -/
theorem delimitedLength_append (hdelimiter : delimiter ≠ []) (body rest : Text) :
    delimitedLength delimiter (body ++ rest) = some body.length ↔
      delimitedLength delimiter body = some body.length := by
  have hpos := length_pos_of_ne_nil hdelimiter
  induction body with
  | nil =>
      refine iff_of_false (fun h => ?_) (by simp [delimitedLength])
      have hle := (delimitedLength_bounds h).1
      rw [length_nil] at hle
      omega
  | cons c body ih =>
      rw [cons_append, delimitedLength, delimitedLength, length_cons]
      by_cases hshort : delimiter.length ≤ body.length + 1
      · have hiff : delimiter <+: c :: (body ++ rest) ↔ delimiter <+: c :: body := by
          refine ⟨fun h => ?_, fun h => h.trans (prefix_append (c :: body) rest)⟩
          exact prefix_of_prefix_length_le h (prefix_append (c :: body) rest) hshort
        by_cases hstarts : delimiter <+: c :: body
        · rw [if_pos hstarts, if_pos (hiff.2 hstarts)]
        · rw [if_neg hstarts, if_neg (mt hiff.1 hstarts), map_add_eq_some, map_add_eq_some]
          exact ih
      · refine iff_of_false (fun h => ?_) fun h => ?_
        · split_ifs at h
          · have := Option.some.inj h
            omega
          · have hle := (delimitedLength_bounds (map_add_eq_some.1 h)).1
            omega
        · split_ifs at h
          · have := Option.some.inj h
            omega
          · have hle := (delimitedLength_bounds (map_add_eq_some.1 h)).1
            omega

theorem numberLength_le : ∀ {state : NumberState} {text : Text} {n : Nat},
    numberLength state text = some n → n ≤ text.length := by
  intro state text
  induction text generalizing state with
  | nil =>
      intro n h
      rw [numberLength] at h
      split_ifs at h
      exact (Option.some.inj h).ge
  | cons c rest ih =>
      intro n h
      rw [numberLength] at h
      split at h
      · split_ifs at h
        · rw [← Option.some.inj h]
          exact Nat.zero_le _
        · obtain ⟨m, hm, rfl⟩ := Option.map_eq_some_iff.1 h
          exact Nat.succ_le_succ (ih hm)
      · split_ifs at h
        rw [← Option.some.inj h]
        exact Nat.zero_le _

end Lengths

section Openings

variable {c : Char} {o : Opening} {text rest : Text}

theorem opening_eq_some : opening text = some o ↔ o ∈ openings ∧ o.text <+: text := by
  refine ⟨fun h => ?_, fun ⟨ho, hstarts⟩ => ?_⟩
  · exact ⟨mem_of_find?_eq_some h,
      of_decide_eq_true (@find?_some _ (fun o : Opening => decide (o.text <+: text)) _ _ h)⟩
  · cases hfound : opening text with
    | none =>
        have hnot := find?_eq_none.1 hfound o ho
        exact absurd (decide_eq_true hstarts) hnot
    | some other =>
        have hother : other ∈ openings := mem_of_find?_eq_some hfound
        have hthere : other.text <+: text :=
          of_decide_eq_true (@find?_some _ (fun o : Opening => decide (o.text <+: text)) _ _ hfound)
        have hunique : ∀ o ∈ openings, ∀ other ∈ openings, o.text <+: other.text → o = other := by
          decide
        rcases prefix_or_prefix_of_prefix hstarts hthere with h | h
        · rw [hunique o ho other hother h]
        · rw [hunique other hother o ho h]

theorem opening_eq_none : opening text = none ↔ ∀ o ∈ openings, ¬o.text <+: text := by
  simp [opening]

/-- The characters that a quoted lexeme begins with. -/
def openers : Text := "'\"eEbBxXuU".toList

theorem forall_of_all {p : Char → Prop} [DecidablePred p] (h : text.all fun c => p c) : ∀ c ∈ text, p c :=
  fun c hc => of_decide_eq_true (all_eq_true.1 h c hc)

theorem opening_of_head (h : c ∉ openers) : opening (c :: rest) = none := by
  refine opening_eq_none.2 fun o ho hstarts => h ?_
  have hheads : ∀ o ∈ openings, o.text.head?.all (· ∈ openers) := by decide
  have hne : ∀ o ∈ openings, o.text ≠ [] := by decide
  obtain ⟨d, tail, htext⟩ := exists_cons_of_ne_nil (hne o ho)
  have hd := hheads o ho
  rw [htext, head?_cons, Option.all_some, decide_eq_true_eq] at hd
  rw [htext, cons_prefix_cons] at hstarts
  rwa [← hstarts.1]

end Openings

section Classes

variable {c : Char} {rest text : Text}

theorem space_forall {p : Char → Prop} [DecidablePred p]
    (hp : [' ', '\t', '\n', '\r', '\x0b', '\x0c'].all fun c => p c) (h : isSpace c) : p c := by
  simp only [isSpace, Bool.or_eq_true, decide_eq_true_eq] at h
  rcases h with ((((rfl | rfl) | rfl) | rfl) | rfl) | rfl <;> exact forall_of_all hp _ (by decide)

def operators : Text := "~!@#^&|?+-*/%<>=".toList ++ [Char.ofNat 96]

theorem operator_forall {p : Char → Prop} [DecidablePred p] (hp : operators.all fun c => p c)
    (h : isOperator c) : p c := by
  rw [isOperator, Bool.or_eq_true, decide_eq_true_eq, decide_eq_true_eq] at h
  rcases h with h | h
  · exact forall_of_all hp c (mem_append_left _ h)
  · have hc : c = Char.ofNat 96 := by rw [← h, Char.ofNat_toNat]
    rw [hc]
    exact forall_of_all hp _ (by decide)

theorem digit_forall {p : Char → Prop} (hp : ∀ n < 10, p (Char.ofNat (n + 48))) (h : c.isDigit) :
    p c := by
  rw [Char.isDigit, Bool.and_eq_true, decide_eq_true_eq,
    decide_eq_true_eq, ge_iff_le, UInt32.le_iff_toNat_le,
    UInt32.le_iff_toNat_le] at h
  obtain ⟨hlow, hhigh⟩ : 48 ≤ c.toNat ∧ c.toNat ≤ 57 := h
  have hn := hp (c.toNat - 48) (by omega)
  rwa [Nat.sub_add_cancel hlow, Char.ofNat_toNat] at hn

/-- A lexeme of one character, or of two that belong together. -/
def isSymbol (c : Char) : Bool :=
  !(isSpace c || isIdentifierStart c || c.isDigit || isOperator c || c = '$' || c = '\'' || c = '"')

theorem isSymbol_eq_true :
    isSymbol c ↔ isSpace c = false ∧ isIdentifierStart c = false ∧ c.isDigit = false ∧
    isOperator c = false ∧ c ≠ '$' ∧ c ≠ '\'' ∧ c ≠ '"' := by
  simp [isSymbol, and_assoc]

/-- Only a few characters can begin a quoted lexeme. -/
theorem opening_of_class {p : Char → Bool} (hp : openers.all fun d => p d = false) (hc : p c) :
    opening (c :: rest) = none := by
  refine opening_of_head fun hmem => ?_
  rw [forall_of_all hp c hmem] at hc
  cases hc

end Classes

section Reading

/-- A lexeme at the head of a text, judged with the text that is left behind it. -/
inductive Reads (after : After) : Kind → Text → Text → Prop
  | quoted {o : Opening} {body rest : Text} (ho : o ∈ openings)
      (h : closingLength o.quote (o.styleAfter after) (body ++ rest) = some body.length) :
      Reads after (o.kind after) (o.text ++ body) rest
  | space {c : Char} {rest : Text} (hc : isSpace c) : Reads after .space [c] rest
  | lineComment {body rest : Text} (hbody : ∀ c ∈ body, isNewline c = false)
      (hrest : ∀ c ∈ rest.head?, isNewline c) : Reads after .lineComment ('-' :: '-' :: body) rest
  | blockComment {body rest : Text} (h : blockCommentLength 1 (body ++ rest) = some body.length) :
      Reads after .blockComment ('/' :: '*' :: body) rest
  | identifier {c : Char} {tail rest : Text} (hc : isIdentifierStart c)
      (htail : ∀ d ∈ tail, isIdentifierPart d) (hrest : ∀ d ∈ rest.head?, isIdentifierPart d = false)
      (hopening : opening (c :: (tail ++ rest)) = none) : Reads after .identifier (c :: tail) rest
  | number {c : Char} {tail rest : Text} (hc : startsNumber c (tail ++ rest))
      (h : numberLength (startState c) (tail ++ rest) = some tail.length) :
      Reads after .number (c :: tail) rest
  | parameter {digits rest : Text} (hne : digits ≠ []) (hdigits : ∀ d ∈ digits, d.isDigit)
      (hrest : ∀ c ∈ rest.head?, joinsNumber c = false) : Reads after .parameter ('$' :: digits) rest
  | dollarString {tag body rest : Text} (htag : ∀ c ∈ tag, joinsNumber c)
      (hstart : ∀ c ∈ tag.head?, c.isDigit = false)
      (h : delimitedLength ('$' :: (tag ++ ['$'])) (body ++ rest) = some body.length) :
      Reads after .dollarString ('$' :: (tag ++ '$' :: body)) rest
  | operator {c : Char} {tail rest : Text} (hc : isOperator c)
      (h : operatorOf (c :: (tail ++ rest)) = c :: tail) : Reads after .operator (c :: tail) rest
  | symbol {c : Char} {tail rest : Text} (hc : isSymbol c) (hnumber : startsNumber c (tail ++ rest) = false)
      (h : symbolLength (c :: (tail ++ rest)) = tail.length + 1) : Reads after .symbol (c :: tail) rest

variable {after : After} {kind : Kind} {c : Char} {text rest u : Text} {n : Nat}

theorem exists_split (h : n ≤ text.length) : ∃ u rest, text = u ++ rest ∧ u.length = n :=
  ⟨text.take n, text.drop n, (take_append_drop n text).symm, length_take_of_le h⟩

theorem exists_run (p : Char → Bool) (text : Text) :
    ∃ run rest, text = run ++ rest ∧ text.takeWhile p = run ∧ (∀ c ∈ run, p c) ∧
      ∀ c ∈ rest.head?, p c = false := by
  refine ⟨text.takeWhile p, text.dropWhile p, takeWhile_append_dropWhile.symm, rfl,
    fun c => mem_takeWhile_imp, fun c hc => ?_⟩
  have hne : text.dropWhile p ≠ [] := fun hnil => by
    rw [hnil] at hc
    cases hc
  have hhead := head_dropWhile_not p hne
  rw [head?_eq_some_head hne, Option.mem_some_iff] at hc
  rwa [hc] at hhead

theorem takeWhile_run {p : Char → Bool} {run : Text} (hrun : ∀ c ∈ run, p c)
    (hrest : ∀ c ∈ rest.head?, p c = false) : (run ++ rest).takeWhile p = run := by
  rw [takeWhile_append_of_pos hrun]
  cases rest with
  | nil => rw [takeWhile_nil, append_nil]
  | cons c rest => rw [takeWhile_cons, hrest c rfl, if_neg Bool.false_ne_true, append_nil]

theorem two_heads {c d e : Char} : [d, e] <+: c :: rest ↔ d = c ∧ rest.head? = some e := by
  rw [cons_prefix_cons]
  cases rest with
  | nil => simp
  | cons f rest => simp [eq_comm]

end Reading

end Paranoid.SqlLexemes

import Mathlib.Data.Rat.Cast.Order
import Paranoid.ByteCodecs
import Paranoid.DecimalText
import Paranoid.Utf8Text

namespace Paranoid.SqlConstants

open Binary64 ByteCodecs DecimalText List
open Utf8Text (Text)

section Strings

def nul : Char := '\x00'

def hexDigitValue (c : Char) : Option Nat :=
  if '0' ≤ c ∧ c ≤ '9' then some (c.toNat - 48)
  else if 'a' ≤ c ∧ c ≤ 'f' then some (c.toNat - 87)
  else if 'A' ≤ c ∧ c ≤ 'F' then some (c.toNat - 55)
  else none

/-- The number that up to `limit` leading digits write in a base, and what follows them. -/
def readCode (digitValue : Char → Option Nat) (base : Nat) : Nat → Nat → Text → Nat × Text
  | 0, code, text => (code, text)
  | _ + 1, code, [] => (code, [])
  | limit + 1, code, c :: text =>
      match digitValue c with
      | some d => readCode digitValue base limit (base * code + d) text
      | none => (code, c :: text)

def octalDigitValue (c : Char) : Option Nat := if '0' ≤ c ∧ c ≤ '7' then some (c.toNat - 48) else none

/-- A character by its code. Codes of no character, and the codes of single bytes above the ASCII ones, are not read. -/
def charOfCode (limit code : Nat) : Option Char :=
  if 0 < code ∧ code < limit then some (Char.ofNat code) else none

def codePointDigits (c : Char) : Nat := if c = 'u' then 4 else 8

/-- What follows a backslash in an escape string. -/
def readEscape (text : Text) : Option (Char × Text) :=
  match text with
  | [] => none
  | c :: rest =>
      if c = 'b' then some ('\x08', rest)
      else if c = 'f' then some ('\x0c', rest)
      else if c = 'n' then some ('\n', rest)
      else if c = 'r' then some ('\r', rest)
      else if c = 't' then some ('\t', rest)
      else if c = 'x' ∧ (rest.head?.bind hexDigitValue).isSome then
        let code := readCode hexDigitValue 16 2 0 rest
        (charOfCode 128 code.1).map (·, code.2)
      else if c = 'u' ∨ c = 'U' then
        let code := readCode hexDigitValue 16 (codePointDigits c) 0 rest
        (charOfCode 0xd800 code.1).map (·, code.2)
      else
        match octalDigitValue c with
        | some d =>
            let code := readCode octalDigitValue 8 2 d rest
            (charOfCode 128 code.1).map (·, code.2)
        | none => some (c, rest)

theorem readCode_length (digitValue : Char → Option Nat) (base limit code : Nat) (text : Text) :
    (readCode digitValue base limit code text).2.length ≤ text.length := by
  fun_induction readCode with
  | case1 => exact le_rfl
  | case2 => exact le_rfl
  | case3 _ _ c text _ _ ih => exact le_trans ih (Nat.le_succ _)
  | case4 => exact le_rfl

theorem readEscape_length {text rest : Text} {c : Char} (h : readEscape text = some (c, rest)) :
    rest.length < text.length := by
  unfold readEscape at h
  split at h
  next => cases h
  next d tail =>
    have hitself {e : Char} (heq : some (e, tail) = some (c, rest)) :
      rest.length < (d :: tail).length := by
      cases heq
      exact Nat.lt_succ_self _
    have hcode {code : Nat × Text} {bound : Nat} (hlength : code.2.length ≤ tail.length)
        (hread : (charOfCode bound code.1).map (·, code.2) = some (c, rest)) :
        rest.length < (d :: tail).length := by
      obtain ⟨_, -, heq⟩ := Option.map_eq_some_iff.1 hread
      cases heq
      exact Nat.lt_succ_of_le hlength
    split_ifs at h
    · exact hitself h
    · exact hitself h
    · exact hitself h
    · exact hitself h
    · exact hitself h
    · exact hcode (readCode_length _ _ _ _ _) h
    · exact hcode (readCode_length _ _ _ _ _) h
    · split at h
      next => exact hcode (readCode_length _ _ _ _ _) h
      next => exact hitself h

/-- A string behind `E'`, up to the quote that closes it, and what follows. -/
def readEscapeString (text : Text) : Option (Text × Text) :=
  match text with
  | [] => none
  | c :: rest =>
      if c = '\'' then
        match rest with
        | [] => some ([], [])
        | d :: tail =>
            if d = '\'' then (readEscapeString tail).map fun read => ('\'' :: read.1, read.2) else some ([], d :: tail)
      else if c = '\\' then
        match h : readEscape rest with
        | none => none
        | some (d, tail) =>
            have : tail.length < rest.length := readEscape_length h
            (readEscapeString tail).map fun read => (d :: read.1, read.2)
      else if c = nul then none
      else (readEscapeString rest).map fun read => (c :: read.1, read.2)
termination_by text.length

/-- A string behind a plain quote. -/
def readString : Text → Option (Text × Text)
  | [] => none
  | [c] => if c = '\'' then some ([], []) else none
  | c :: d :: rest =>
      if c = '\'' then
        if d = '\'' then (readString rest).map fun read => ('\'' :: read.1, read.2) else some ([], d :: rest)
      else if c = nul then none
      else (readString (d :: rest)).map fun read => (c :: read.1, read.2)

variable {c : Char} {rest : Text}

theorem readEscapeString_close (hrest : rest.head? ≠ some '\'') :
    readEscapeString ('\'' :: rest) = some ([], rest) := by
  rw [readEscapeString.eq_def]
  dsimp only
  rw [if_pos rfl]
  cases rest with
  | nil => rfl
  | cons d tail => exact if_neg fun hd => hrest (congrArg some hd)

/-- A backslash makes itself, or a quote, an ordinary character. -/
theorem readEscapeString_escaped (h : readEscape (c :: rest) = some (c, rest)) :
    readEscapeString ('\\' :: c :: rest) = (readEscapeString rest).map fun read =>
      (c :: read.1, read.2) := by
  rw [readEscapeString.eq_def]
  dsimp only
  rw [if_neg (by decide), if_pos rfl]
  split
  next hnone =>
    rw [h] at hnone
    cases hnone
  next hsome =>
    rw [h] at hsome
    cases hsome
    rfl

theorem readEscapeString_plain (hquote : c ≠ '\'') (hbackslash : c ≠ '\\') (hnul : c ≠ nul) :
    readEscapeString (c :: rest) = (readEscapeString rest).map fun read => (c :: read.1, read.2) := by
  rw [readEscapeString.eq_def]
  dsimp only
  rw [if_neg hquote, if_neg hbackslash, if_neg hnul]

/-- A string of ordinary characters is read up to its quote. -/
theorem readString_plain {word : Text}
    (hword : ∀ c ∈ word, c ≠ '\'' ∧ c ≠ nul) (hrest : rest.head? ≠ some '\'') :
    readString (word ++ '\'' :: rest) = some (word, rest) := by
  induction word with
  | nil =>
      cases rest with
      | nil => rfl
      | cons d rest =>
          rw [nil_append, readString, if_pos rfl]
          exact if_neg fun hd => hrest (congrArg some hd)
  | cons c word ih =>
      obtain ⟨hquote, hnul⟩ := hword c mem_cons_self
      have hread := ih fun d hd => hword d (mem_cons_of_mem c hd)
      obtain ⟨d, tail, htail⟩ :=
        exists_cons_of_ne_nil (append_ne_nil_of_right_ne_nil word (cons_ne_nil '\'' rest))
      rw [cons_append, htail, readString, if_neg hquote, if_neg hnul, ← htail, hread]
      rfl

end Strings

section Types

/-- Where a type name can no longer go on. -/
def EndsType (c : Char) : Prop := c ∈ [',', ';', ':', ')', ']']

instance (c : Char) : Decidable (EndsType c) := inferInstanceAs (Decidable (c ∈ _))

/-- A type name, with brackets and quotes open so far, and what follows it. -/
def readType : Nat → Option Char → Text → Text × Text
  | _, _, [] => ([], [])
  | depth, some quote, c :: rest =>
      let read := readType depth (if c = quote then none else some quote) rest
      (c :: read.1, read.2)
  | depth, none, c :: rest =>
      if c = '\'' ∨ c = '"' then
        let read := readType depth (some c) rest
        (c :: read.1, read.2)
      else if c = '(' ∨ c = '[' then
        let read := readType (depth + 1) none rest
        (c :: read.1, read.2)
      else if depth = 0 ∧ EndsType c then ([], c :: rest)
      else
        let read := readType (if c = ')' ∨ c = ']' then depth - 1 else depth) none rest
        (c :: read.1, read.2)

/-- A text that is one type name as far as brackets and quotes tell. -/
def Closed : Nat → Option Char → Text → Prop
  | depth, quote, [] => depth = 0 ∧ quote = none
  | depth, some quote, c :: rest => Closed depth (if c = quote then none else some quote) rest
  | depth, none, c :: rest =>
      if c = '\'' ∨ c = '"' then Closed depth (some c) rest
      else if c = '(' ∨ c = '[' then Closed (depth + 1) none rest
      else ¬(depth = 0 ∧ EndsType c) ∧ Closed (if c = ')' ∨ c = ']' then depth - 1 else depth) none rest

instance decidableClosed :
    ∀ (depth : Nat) (quote : Option Char) (text : Text), Decidable (Closed depth quote text)
  | depth, quote, [] => inferInstanceAs (Decidable (depth = 0 ∧ quote = none))
  | depth, some quote, c :: rest => decidableClosed depth (if c = quote then none else some quote) rest
  | depth, none, c :: rest =>
      have := decidableClosed depth (some c) rest
      have := decidableClosed (depth + 1) none rest
      have := decidableClosed (if c = ')' ∨ c = ']' then depth - 1 else depth) none rest
      inferInstanceAs (Decidable (if c = '\'' ∨ c = '"' then Closed depth (some c) rest
        else if c = '(' ∨ c = '[' then Closed (depth + 1) none rest
        else ¬(depth = 0 ∧ EndsType c) ∧
          Closed (if c = ')' ∨ c = ']' then depth - 1 else depth) none rest))

/-- A name that a caller vouches to be that of a type. -/
structure TypeName where
  text : Text
  closed : Closed 0 none text

/-- What can follow a value in a list, an array or a statement. -/
def Delimited (rest : Text) : Prop := ∀ c ∈ rest.head?, c ∈ [',', ';', ')', ']']

variable {depth : Nat} {quote : Option Char} {text rest : Text}

theorem endsType_of_delimiter {c : Char} (h : c ∈ [',', ';', ')', ']']) :
    ¬(c = '\'' ∨ c = '"') ∧ ¬(c = '(' ∨ c = '[') ∧ EndsType c := by
  simp only [mem_cons, not_mem_nil, or_false] at h
  rcases h with rfl | rfl | rfl | rfl
  all_goals decide

theorem readType_append (h : Closed depth quote text) (hrest : Delimited rest) :
    readType depth quote (text ++ rest) = (text, rest) := by
  fun_induction Closed with
  | case1 depth quote =>
      obtain ⟨rfl, rfl⟩ := h
      cases rest with
      | nil => rfl
      | cons c rest =>
          obtain ⟨hquote, hopen, hends⟩ := endsType_of_delimiter (hrest c rfl)
          rw [nil_append, readType, if_neg hquote, if_neg hopen, if_pos ⟨rfl, hends⟩]
  | case2 depth quote c text ih => rw [cons_append, readType, ih h]
  | case3 depth c text hquote ih => rw [cons_append, readType, if_pos hquote, ih h]
  | case4 depth c text hquote hopen ih => rw [cons_append, readType, if_neg hquote, if_pos hopen, ih h]
  | case5 depth c text hquote hopen ih =>
      rw [cons_append, readType, if_neg hquote, if_neg hopen, if_neg h.1, ih h.2]

/-- A type name makes the name of its array type. -/
theorem closed_array (h : Closed depth quote text) : Closed depth quote (text ++ ['[', ']']) := by
  fun_induction Closed with
  | case1 depth quote =>
      obtain ⟨rfl, rfl⟩ := h
      decide
  | case2 depth quote c text ih =>
      rw [cons_append, Closed]
      exact ih h
  | case3 depth c text hquote ih =>
      rw [cons_append, Closed, if_pos hquote]
      exact ih h
  | case4 depth c text hquote hopen ih =>
      rw [cons_append, Closed, if_neg hquote, if_pos hopen]
      exact ih h
  | case5 depth c text hquote hopen ih =>
      rw [cons_append, Closed, if_neg hquote, if_neg hopen]
      exact ⟨h.1, ih h.2⟩

end Types

section Values

inductive IntegerType
  | smallint
  | integer
  | bigint
  deriving DecidableEq

def IntegerType.bits : IntegerType → Nat
  | .smallint => 16
  | .integer => 32
  | .bigint => 64

def IntegerType.name : IntegerType → Text
  | .smallint => "smallint".toList
  | .integer => "integer".toList
  | .bigint => "bigint".toList

def IntegerType.InRange (type : IntegerType) (n : Int) : Prop :=
  -2 ^ (type.bits - 1) ≤ n ∧ n < 2 ^ (type.bits - 1)

instance (type : IntegerType) (n : Int) : Decidable (type.InRange n) :=
  inferInstanceAs (Decidable (_ ∧ _))

/-- A value, with the types whose input functions are not modelled left as the text that is cast to them. -/
inductive PgValue
  | null
  | boolean (value : Bool)
  | integer (type : IntegerType) (value : Int)
  | float8 (value : Float64)
  | text (value : Text)
  | bytea (value : Bytes)
  | cast (value : Text) (type : Text)
  | array (elements : List PgValue) (elementType : Text)

/-- Pairs of hexadecimal digits. -/
def readHex : Text → Option Bytes
  | [] => some []
  | [_] => none
  | a :: b :: rest =>
      match hexDigitValue a, hexDigitValue b with
      | some i, some j => (readHex rest).map (.ofNat (16 * i + j) :: ·)
      | _, _ => none

def doublePrecision : Text := "double precision".toList

/-- `'value'::type` -/
def castText (value type : Text) : PgValue :=
  if type = "bytea".toList then
    match value with
    | '\\' :: 'x' :: digits => ((readHex digits).map .bytea).getD (.cast value type)
    | _ => .cast value type
  else if type = doublePrecision ∧ value = "NaN".toList then .float8 .nan
  else if type = doublePrecision ∧ value = "Infinity".toList then .float8 (.infinite false)
  else if type = doublePrecision ∧ value = "-Infinity".toList then .float8 (.infinite true)
  else .cast value type

/-- `number::type` -/
def castNumber (q : ℚ) (type : Text) : Option PgValue :=
  if type = doublePrecision then (nearest q).map fun x => .float8 (.finite false x)
  else
    ([.smallint, .integer, .bigint].find? fun target => type = IntegerType.name target).bind
      fun target =>
      if q.den = 1 ∧ target.InRange q.num then some (.integer target q.num) else none

/-- `ARRAY[..]::type` -/
def castArray (elements : List PgValue) (type : Text) : Option PgValue :=
  if ['[', ']'] <:+ type then some (.array elements (type.take (type.length - 2))) else none

/-- Unary minus, which takes what is cast. -/
def negate : PgValue → Option PgValue
  | .float8 .nan => some (.float8 .nan)
  | .float8 (.infinite negative) => some (.float8 (.infinite !negative))
  | .float8 (.finite negative x) => some (.float8 (.finite (!negative) x))
  | .integer type n => if type.InRange (-n) then some (.integer type (-n)) else none
  | _ => none

end Values

section Reader

/-- A constant before it is cast. -/
inductive Operand
  | null
  | boolean (value : Bool)
  | string (value : Text)
  | number (q : ℚ)
  | array (elements : List PgValue)

def Operand.cast : Operand → Text → Option PgValue
  | .string value, type => some (castText value type)
  | .number q, type => castNumber q type
  | .array elements, type => castArray elements type
  | _, _ => none

def Operand.uncast : Operand → Option PgValue
  | .null => some .null
  | .boolean value => some (.boolean value)
  | .string value => some (.text value)
  | _ => none

def strip (word text : Text) : Option Text :=
  if word <+: text then some (text.drop word.length) else none

variable (readElement : Text → Option (PgValue × Text))

/-- The elements of an array, from the first one on. -/
def readElements : Nat → Text → Option (List PgValue × Text)
  | 0, _ => none
  | limit + 1, text => do
      let (element, rest) ← readElement text
      match rest with
      | ',' :: rest =>
          let (elements, rest) ← readElements limit rest
          return (element :: elements, rest)
      | ']' :: rest => return ([element], rest)
      | _ => none

def readArray (text : Text) : Option (List PgValue × Text) :=
  match text with
  | ']' :: rest => some ([], rest)
  | _ => readElements readElement text.length text

def readOperand (text : Text) : Option (Operand × Text) :=
  match text with
  | [] => none
  | c :: rest =>
      if c = 'N' then (strip "ULL".toList rest).map (.null, ·)
      else if c = 'T' then (strip "RUE".toList rest).map (.boolean true, ·)
      else if c = 'F' then (strip "ALSE".toList rest).map (.boolean false, ·)
      else if c = 'A' then do
        let rest ← strip "RRAY[".toList rest
        let (elements, rest) ← readArray readElement rest
        return (.array elements, rest)
      else if c = 'E' then do
        let rest ← strip "'".toList rest
        let (value, rest) ← readEscapeString rest
        return (.string value, rest)
      else if c = '\'' then do
        let (value, rest) ← readString rest
        return (.string value, rest)
      else if c = '(' then do
        let (negative, rest) := readSign rest
        let (q, rest) ← readNumeral rest
        let rest ← strip ")".toList rest
        return (.number (if negative then -q else q), rest)
      else do
        let (q, rest) ← readNumeral text
        return (.number q, rest)

/-- A constant with its cast, if it has one. -/
def readUnsigned (text : Text) : Option (PgValue × Text) := do
  let (operand, rest) ← readOperand readElement text
  match strip "::".toList rest with
  | some rest =>
      let (type, rest) := readType 0 none rest
      let value ← operand.cast type
      return (value, rest)
  | none =>
      let value ← operand.uncast
      return (value, rest)

/-- A value, with arrays nested up to `limit` deep. -/
def readValue : Nat → Text → Option (PgValue × Text)
  | 0, _ => none
  | limit + 1, text =>
      match text with
      | '-' :: rest => do
          let (value, rest) ← readUnsigned (readValue limit) rest
          let value ← negate value
          return (value, rest)
      | _ => readUnsigned (readValue limit) text

/-- The value at the beginning of a text, and what follows it. -/
def read (text : Text) : Option (PgValue × Text) := readValue (text.length + 1) text

section Equations

variable {readElement} {c : Char} {text type rest tail : Text}
  {operand : Operand} {value : PgValue} {q : ℚ}

@[simp] theorem strip_append (word rest : Text) : strip word (word ++ rest) = some rest := by
  rw [strip, if_pos (prefix_append word rest), drop_left]

/-- Nothing that can follow a value begins a cast. -/
theorem strip_colons (h : Delimited rest) : strip "::".toList rest = none := by
  refine if_neg ?_
  rintro ⟨tail, rfl⟩
  exact absurd (h ':' rfl) (by decide)

theorem readUnsigned_cast
    (h : readOperand readElement text = some (operand, "::".toList ++ (type ++ rest)))
    (htype : Closed 0 none type) (hrest : Delimited rest) (hcast : operand.cast type = some value) :
    readUnsigned readElement text = some (value, rest) := by
  rw [readUnsigned, h, Option.bind_eq_bind, Option.bind_some]
  dsimp only
  rw [strip_append]
  dsimp only
  rw [readType_append htype hrest, hcast]
  rfl

theorem readUnsigned_uncast (h : readOperand readElement text = some (operand, rest))
    (hrest : Delimited rest)
    (huncast : operand.uncast = some value) : readUnsigned readElement text = some (value, rest) := by
  rw [readUnsigned, h, Option.bind_eq_bind, Option.bind_some]
  dsimp only
  rw [strip_colons hrest, huncast]
  rfl

theorem readValue_unsigned {limit : Nat} (hc : c ≠ '-') :
    readValue (limit + 1) (c :: tail) = readUnsigned (readValue limit) (c :: tail) := by
  rw [readValue]
  rintro rest ⟨⟩
  exact hc rfl

/-- A numeral begins with a digit. -/
theorem exists_digit_of_readNumeral (h : readNumeral text = some (q, rest)) :
    ∃ d tail, text = d :: tail ∧ d.isDigit := by
  cases text with
  | nil => cases h
  | cons d tail =>
      refine ⟨d, tail, rfl, ?_⟩
      by_contra hd
      rw [readNumeral, if_pos] at h
      · cases h
      · exact takeWhile_cons_of_neg hd

theorem readOperand_numeral (h : readNumeral text = some (q, rest)) :
    readOperand readElement text = some (.number q, rest) := by
  obtain ⟨d, tail, rfl, hd⟩ := exists_digit_of_readNumeral h
  have hne : ∀ e : Char, e.isDigit = false → d ≠ e := by
    rintro e he rfl
    rw [hd] at he
    cases he
  rw [readOperand, if_neg (hne _ rfl), if_neg (hne _ rfl),
    if_neg (hne _ rfl), if_neg (hne _ rfl), if_neg (hne _ rfl),
    if_neg (hne _ rfl), if_neg (hne _ rfl), h]
  rfl

theorem readOperand_escapeString {body : Text} (h : readEscapeString body = some (text, rest)) :
    readOperand readElement ("E'".toList ++ body) = some (.string text, rest) := by
  have hstrip := strip_append "'".toList body
  change readOperand readElement ('E' :: ("'".toList ++ body)) = _
  rw [readOperand, if_neg
    (by decide), if_neg (by decide), if_neg (by decide), if_neg (by decide), if_pos rfl, hstrip]
  change (readEscapeString body).bind _ = _
  rw [h]
  rfl

theorem readOperand_integer (n : Int) (rest : Text) :
    readOperand readElement ('(' :: (intText n ++ (')' :: rest))) = some (.number n, rest) := by
  have hends : Ends (')' :: rest) := by
    rintro c ⟨⟩
    decide
  have hsigned : (if decide (n < 0) = true then -((n.natAbs : Nat) : ℚ) else (n.natAbs : Nat)) = n := by
    have hvalue : ((signed (decide (n < 0)) n.natAbs : Int) : ℚ) = n := by rw [signed_natAbs]
    rw [← hvalue, signed]
    split_ifs
    · rw [Int.cast_neg, Int.cast_natCast]
    · rw [Int.cast_natCast]
  rw [readOperand, if_neg
    (by decide), if_neg (by decide), if_neg (by decide), if_neg (by decide), if_neg (by decide),
    if_neg (by decide), if_pos rfl, readSign_intText]
  dsimp only
  rw [readNumeral_natText _ hends, Option.bind_eq_bind, Option.bind_some]
  dsimp only
  rw [hsigned, show (')' :: rest) = ")".toList ++ rest from rfl, strip_append]
  rfl

theorem readOperand_array {elements : List PgValue}
    (h : readArray readElement text = some (elements, rest)) :
    readOperand readElement ("ARRAY[".toList ++ text) = some (.array elements, rest) := by
  have hstrip := strip_append "RRAY[".toList text
  change readOperand readElement ('A' :: ("RRAY[".toList ++ text)) = _
  rw [readOperand, if_neg (by decide), if_neg (by decide), if_neg (by decide), if_pos rfl, hstrip]
  change (readArray readElement text).bind _ = _
  rw [h]
  rfl

theorem castArray_append (elements : List PgValue) (type : Text) :
    castArray elements (type ++ ['[', ']']) = some (.array elements type) := by
  rw [castArray, if_pos (suffix_append _ _), length_append,
    length_cons, length_singleton, Nat.add_sub_cancel,
    take_left]

theorem readValue_bracket (limit : Nat) (rest : Text) : readValue limit (']' :: rest) = none := by
  cases limit with
  | zero => rfl
  | succ limit =>
      rw [readValue_unsigned (by decide)]
      rfl

end Equations

section Arrays

/-- The texts of the elements of an array between its brackets. -/
def separated : List Text → Text
  | [] => []
  | text :: texts => text ++ texts.flatMap (',' :: ·)

/-- A text is read as a value wherever it may stand. -/
def ReadsBy (text : Text) (value : PgValue) : Prop :=
  ∀ rest, Delimited rest → readElement (text ++ rest) = some (value, rest)

variable {readElement} {text rest : Text} {texts : List Text}
  {value : PgValue} {values : List PgValue} {limit : Nat}

theorem length_le_flatMap (texts : List Text) : texts.length ≤ (texts.flatMap (',' :: ·)).length := by
  induction texts with
  | nil => exact le_rfl
  | cons text texts ih =>
      rw [flatMap_cons, cons_append, length_cons, length_cons, length_append]
      omega

theorem delimited_comma (rest : Text) : Delimited (',' :: rest) := by
  rintro c ⟨⟩
  decide

theorem delimited_bracket (rest : Text) : Delimited (']' :: rest) := by
  rintro c ⟨⟩
  decide

theorem readElements_separated (hfirst : ReadsBy readElement text value)
    (h : Forall₂ (ReadsBy readElement) texts values)
    (hlimit : texts.length < limit) :
    readElements readElement limit (separated (text :: texts) ++ ']' :: rest) =
      some (value :: values, rest) := by
  induction h generalizing text value limit with
  | nil =>
      obtain ⟨limit, rfl⟩ := Nat.exists_eq_add_of_lt hlimit
      rw [separated, flatMap_nil, append_nil, readElements, hfirst _ (delimited_bracket rest)]
      rfl
  | @cons next nextValue texts values hnext _ ih =>
      obtain ⟨limit, rfl⟩ := Nat.exists_eq_add_of_lt hlimit
      have hrest := @ih next nextValue (texts.length + 1 + limit) hnext (by omega)
      have hsplit : separated (text :: next :: texts) ++ ']' :: rest =
          text ++ ',' :: (separated (next :: texts) ++ ']' :: rest) := by
        rw [separated, separated, flatMap_cons, append_assoc, cons_append, cons_append]
      rw [hsplit, readElements, hfirst _ (delimited_comma _)]
      change (readElements readElement _ _).bind _ = _
      rw [length_cons, hrest]
      rfl

/-- The elements of an array are read, where no element begins with the closing bracket. -/
theorem readArray_separated (hbracket : ∀ rest, readElement (']' :: rest) = none)
    (h : Forall₂ (ReadsBy readElement) texts values) (rest : Text) :
    readArray readElement (separated texts ++ ']' :: rest) = some (values, rest) := by
  cases h with
  | nil => rfl
  | @cons text value texts values hfirst hrest =>
      have hlimit : texts.length < (separated (text :: texts) ++ ']' :: rest).length := by
        have hflat := length_le_flatMap texts
        rw [separated, length_append, length_append, length_cons]
        omega
      unfold readArray
      split
      next tail htail =>
        have hread : readElement (']' :: tail) =
          some (value, texts.flatMap (',' :: ·) ++ ']' :: rest) := by
          rw [← htail, separated, append_assoc]
          apply hfirst
          cases texts with
          | nil => exact delimited_bracket rest
          | cons next texts => exact delimited_comma _
        rw [hbracket] at hread
        cases hread
      next => exact readElements_separated hfirst hrest hlimit

theorem length_le_separated (h : text ∈ texts) : text.length ≤ (separated texts).length := by
  cases texts with
  | nil => cases h
  | cons first texts =>
      rw [separated, length_append]
      rcases mem_cons.1 h with rfl | h
      · exact Nat.le_add_right _ _
      · have hsub : (',' :: text).length ≤ (texts.flatMap (',' :: ·)).length :=
          (sublist_flatten_of_mem (mem_map_of_mem h)).length_le
        rw [length_cons] at hsub
        omega

end Arrays

end Reader

end Paranoid.SqlConstants

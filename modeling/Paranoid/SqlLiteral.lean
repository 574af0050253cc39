import Paranoid.Postgres
import Paranoid.SqlConstants

namespace Paranoid.SqlLiteral

open Binary64 ByteCodecs DecimalText List Postgres SqlConstants
open Utf8Text (Text)

inductive DbError
  | queryEncoding (message : String)
  deriving DecidableEq

/-- A typed value to be rendered as a literal. -/
inductive PostgresLiteral
  | null
  | bool (value : Bool)
  | i16 (value : Int16)
  | i32 (value : Int32)
  | i64 (value : Int64)
  | f64 (value : Float64)
  | text (value : Text)
  | bytea (value : Bytes)
  | textCast (value : Text) (pgType : TypeName)
  | array (elements : List PostgresLiteral) (elementPgType : TypeName)

section Encoders

def encodeBoolLiteral (value : Bool) (out : Text) : Text :=
  out ++ if value then "TRUE".toList else "FALSE".toList

def encodeInteger (type : IntegerType) (value : Int) (out : Text) : Text :=
  out ++ ('(' :: (intText value ++ (")::".toList ++ type.name)))

def encodeI16Literal (value : Int16) (out : Text) : Text := encodeInteger .smallint value.toInt out

def encodeI32Literal (value : Int32) (out : Text) : Text := encodeInteger .integer value.toInt out

def encodeI64Literal (value : Int64) (out : Text) : Text := encodeInteger .bigint value.toInt out

def encodeF64Literal (value : Float64) (out : Text) : Text :=
  match value with
  | .nan => out ++ "'NaN'::double precision".toList
  | .infinite false => out ++ "'Infinity'::double precision".toList
  | .infinite true => out ++ "'-Infinity'::double precision".toList
  | .finite negative x => out ++
      ((if negative then ['-'] else []) ++ (magnitudeText x ++ "::double precision".toList))

def escapeCharacter (character : Char) : Text :=
  if character = '\\' then ['\\', '\\'] else if character = '\'' then ['\\', '\''] else [character]

def nulInText : DbError :=
  .queryEncoding "text value contains a NUL byte, which Postgres text cannot represent"

def encodeTextLiteral (value out : Text) : Except DbError Text :=
  if nul ∈ value then .error nulInText else .ok (out ++ ("E'".toList ++ (value.flatMap escapeCharacter ++ ['\''])))

/-- `{byte:02x}` -/
def hexByte (byte : UInt8) : Text := [Nat.digitChar (byte.toNat / 16), Nat.digitChar (byte.toNat % 16)]

def encodeByteaLiteral (bytes : Bytes) (out : Text) : Text :=
  out ++ ("E'\\\\x".toList ++ (bytes.flatMap hexByte ++ "'::bytea".toList))

mutual

def PostgresLiteral.encodeInto : PostgresLiteral → Text → Except DbError Text
  | .null, out => .ok (out ++ "NULL".toList)
  | .bool value, out => .ok (encodeBoolLiteral value out)
  | .i16 value, out => .ok (encodeI16Literal value out)
  | .i32 value, out => .ok (encodeI32Literal value out)
  | .i64 value, out => .ok (encodeI64Literal value out)
  | .f64 value, out => .ok (encodeF64Literal value out)
  | .text value, out => encodeTextLiteral value out
  | .bytea value, out => .ok (encodeByteaLiteral value out)
  | .textCast value pgType, out => do
      let out ← encodeTextLiteral value out
      return out ++ "::".toList ++ pgType.text
  | .array elements elementPgType, out => do
      let out ← encodeElements elements 0 (out ++ "ARRAY[".toList)
      return out ++ "]::".toList ++ elementPgType.text ++ "[]".toList

/-- The loop over the elements of an array, from the one at `index` on. -/
def encodeElements : List PostgresLiteral → Nat → Text → Except DbError Text
  | [], _, out => .ok out
  | element :: elements, index, out => do
      let out ← element.encodeInto (if index > 0 then out ++ [','] else out)
      encodeElements elements (index + 1) out

end

end Encoders

section Meaning

/-- A text with a NUL character is in the literal. -/
inductive PostgresLiteral.ContainsNul : PostgresLiteral → Prop
  | text {value : Text} (h : nul ∈ value) : ContainsNul (.text value)
  | textCast {value : Text} {pgType : TypeName} (h : nul ∈ value) : ContainsNul (.textCast value pgType)
  | array {elements : List PostgresLiteral} {elementPgType : TypeName} {element : PostgresLiteral}
      (hmem : element ∈ elements) (h : ContainsNul element) :
      ContainsNul (.array elements elementPgType)

mutual

/-- The value that a literal is to be read as. -/
def PostgresLiteral.denote : PostgresLiteral → PgValue
  | .null => .null
  | .bool value => .boolean value
  | .i16 value => .integer .smallint value.toInt
  | .i32 value => .integer .integer value.toInt
  | .i64 value => .integer .bigint value.toInt
  | .f64 value => .float8 value
  | .text value => .text value
  | .bytea value => .bytea value
  | .textCast value pgType => castText value pgType.text
  | .array elements elementPgType => .array (denoteAll elements) elementPgType.text

def denoteAll : List PostgresLiteral → List PgValue
  | [] => []
  | element :: elements => element.denote :: denoteAll elements

end

end Meaning

section Scalars

variable {value rest : Text} {limit : Nat}

/-- A text is read as a value once the reader may go deep enough. -/
def Reads (text : Text) (value : PgValue) : Prop :=
  ∀ limit, text.length < limit → ReadsBy (readValue limit) text value

/-- An escaped text is read back, whatever characters it has. -/
theorem readEscapeString_escaped_text (hnul : nul ∉ value) (hrest : rest.head? ≠ some '\'') :
    readEscapeString (value.flatMap escapeCharacter ++ '\'' :: rest) = some (value, rest) := by
  induction value with
  | nil => exact readEscapeString_close hrest
  | cons c value ih =>
      have hread := ih fun hmem => hnul (mem_cons_of_mem c hmem)
      rw [flatMap_cons, append_assoc]
      by_cases hbackslash : c = '\\'
      · subst hbackslash
        change readEscapeString ('\\' :: '\\' :: (value.flatMap escapeCharacter ++ '\'' :: rest)) = _
        rw [readEscapeString_escaped rfl, hread]
        rfl
      · by_cases hquote : c = '\''
        · subst hquote
          change readEscapeString ('\\' :: '\'' :: (value.flatMap escapeCharacter ++ '\'' :: rest)) = _
          rw [readEscapeString_escaped rfl, hread]
          rfl
        · have hc : c ≠ nul := fun h => hnul (h ▸ mem_cons_self)
          rw [escapeCharacter, if_neg hbackslash, if_neg hquote, singleton_append,
            readEscapeString_plain hquote hbackslash hc, hread]
          rfl

theorem hexDigitValue_digitChar : ∀ i < 16, hexDigitValue (Nat.digitChar i) = some i := by decide

theorem readHex_hexByte (bytes : Bytes) : readHex (bytes.flatMap hexByte) = some bytes := by
  induction bytes with
  | nil => rfl
  | cons b bytes ih =>
      have hhigh : b.toNat / 16 < 16 := Nat.div_lt_of_lt_mul b.toNat_lt
      have hlow : b.toNat % 16 < 16 := Nat.mod_lt _ (by decide)
      change readHex (Nat.digitChar (b.toNat / 16) ::
        Nat.digitChar (b.toNat % 16) :: bytes.flatMap hexByte) = _
      rw [readHex, hexDigitValue_digitChar _ hhigh, hexDigitValue_digitChar _ hlow, ih]
      dsimp only
      rw [Nat.div_add_mod]
      exact congrArg (fun b => some (b :: bytes)) UInt8.ofNat_toNat

theorem castNumber_integer {type : IntegerType} {n : Int} (h : type.InRange n) :
    castNumber n type.name = some (.integer type n) := by
  have hfind : [IntegerType.smallint, .integer,
    .bigint].find? (fun target => type.name = target.name) = some type := by
    cases type with
    | smallint => rfl
    | integer => rfl
    | bigint => rfl
  have hdouble : type.name ≠ doublePrecision := by
    cases type with
    | smallint => decide
    | integer => decide
    | bigint => decide
  rw [castNumber, if_neg hdouble, hfind, Option.bind_some, if_pos ⟨Rat.den_intCast n, h⟩]
  rfl

theorem closed_name (type : IntegerType) : Closed 0 none type.name := by
  cases type with
  | smallint => decide
  | integer => decide
  | bigint => decide

/-- An integer keeps its type and its sign, the least one too. -/
theorem reads_integer {type : IntegerType} {n : Int} (h : type.InRange n) :
    Reads (encodeInteger type n []) (.integer type n) := by
  intro limit hlimit rest hrest
  obtain ⟨limit, rfl⟩ := Nat.exists_eq_add_of_lt hlimit
  have htext : encodeInteger type n [] ++ rest =
      '(' :: (intText n ++ (')' :: ("::".toList ++ (type.name ++ rest)))) := by
    simp [encodeInteger]
  rw [htext, readValue_unsigned (by decide)]
  exact readUnsigned_cast (readOperand_integer n _) (closed_name type) hrest (castNumber_integer h)

theorem reads_word {word : Text} {value : PgValue} {operand : Operand}
    (hfirst : word.head? ≠ some '-') (hne : word ≠ [])
    (hword : ∀ readElement rest, readOperand readElement (word ++ rest) = some (operand, rest))
    (huncast : operand.uncast = some value) : Reads word value := by
  intro limit hlimit rest hrest
  obtain ⟨limit, rfl⟩ := Nat.exists_eq_add_of_lt hlimit
  obtain ⟨c, tail, rfl⟩ := exists_cons_of_ne_nil hne
  have hc : c ≠ '-' := fun h => hfirst (congrArg some h)
  rw [cons_append, readValue_unsigned hc]
  exact readUnsigned_uncast (hword _ rest) hrest huncast

theorem reads_null : Reads "NULL".toList .null := by
  apply @reads_word _ _ .null (by decide) (by decide) ?_ rfl
  intro readElement rest
  have hstrip := strip_append "ULL".toList rest
  change (strip "ULL".toList ("ULL".toList ++ rest)).map _ = _
  rw [hstrip]
  rfl

theorem reads_bool (b : Bool) : Reads (encodeBoolLiteral b []) (.boolean b) := by
  cases b with
  | false =>
      apply @reads_word _ _ (.boolean false) (by decide) (by decide) ?_ rfl
      intro readElement rest
      have hstrip := strip_append "ALSE".toList rest
      change (strip "ALSE".toList ("ALSE".toList ++ rest)).map _ = _
      rw [hstrip]
      rfl
  | true =>
      apply @reads_word _ _ (.boolean true) (by decide) (by decide) ?_ rfl
      intro readElement rest
      have hstrip := strip_append "RUE".toList rest
      change (strip "RUE".toList ("RUE".toList ++ rest)).map _ = _
      rw [hstrip]
      rfl

theorem closed_doublePrecision : Closed 0 none doublePrecision := by decide

theorem ends_colons (rest : Text) : Ends ("::".toList ++ rest) := by
  rintro c ⟨⟩
  decide

/-- A finite number is read back exactly, minus zero too. -/
theorem reads_finite (negative : Bool) (x : Magnitude) :
    Reads (encodeF64Literal (.finite negative x) []) (.float8 (.finite negative x)) := by
  intro limit hlimit rest hrest
  obtain ⟨limit, rfl⟩ := Nat.exists_eq_add_of_lt hlimit
  obtain ⟨q, hread, hnearest⟩ := readNumeral_magnitudeText x (ends_colons (doublePrecision ++ rest))
  have hcast : (Operand.number q).cast doublePrecision = some (.float8 (.finite false x)) := by
    rw [Operand.cast, castNumber, if_pos rfl, hnearest]
    rfl
  have hunsigned (readElement) :
      readUnsigned readElement (magnitudeText x ++ ("::".toList ++ (doublePrecision ++ rest))) =
        some (.float8 (.finite false x), rest) :=
    readUnsigned_cast (readOperand_numeral hread) closed_doublePrecision hrest hcast
  cases negative with
  | false =>
      obtain ⟨d, tail, htail, hd⟩ := exists_digit_of_readNumeral hread
      have hminus : d ≠ '-' := by
        rintro rfl
        exact absurd hd (by decide)
      have htext : encodeF64Literal (.finite false x) [] ++ rest =
          magnitudeText x ++ ("::".toList ++ (doublePrecision ++ rest)) := by
        rw [encodeF64Literal, nil_append,
          if_neg (by decide), nil_append, append_assoc, ← append_assoc "::".toList]
        rfl
      rw [htext, htail, readValue_unsigned hminus, ← htail, hunsigned]
  | true =>
      have htext : encodeF64Literal (.finite true x) [] ++ rest =
          '-' :: (magnitudeText x ++ ("::".toList ++ (doublePrecision ++ rest))) := by
        rw [← append_assoc "::".toList, ← append_assoc]
        rfl
      rw [htext, readValue, hunsigned]
      rfl

theorem head?_colons_ne (rest : Text) : ("::".toList ++ rest).head? ≠ some '\'' := fun h =>
  absurd (Option.some.inj h) (by decide)

theorem reads_special {word : Text} {x : Float64} (hall : word.all fun c => decide (c ≠ '\'' ∧ c ≠ nul))
    (hcast : castText word doublePrecision = .float8 x) :
    Reads ('\'' :: (word ++ "'::double precision".toList)) (.float8 x) := by
  have hword : ∀ c ∈ word, c ≠ '\'' ∧ c ≠ nul := fun c hc => of_decide_eq_true (all_eq_true.1 hall c hc)
  intro limit hlimit rest hrest
  obtain ⟨limit, rfl⟩ := Nat.exists_eq_add_of_lt hlimit
  have htext : '\'' :: (word ++ "'::double precision".toList) ++ rest =
      '\'' :: (word ++ '\'' :: ("::".toList ++ (doublePrecision ++ rest))) := by
    rw [cons_append, append_assoc]
    rfl
  have hread (readElement) : readOperand readElement
    ('\'' :: (word ++ '\'' :: ("::".toList ++ (doublePrecision ++ rest)))) =
      some (.string word, "::".toList ++ (doublePrecision ++ rest)) := by
    rw [readOperand, if_neg
      (by decide), if_neg (by decide), if_neg (by decide), if_neg (by decide), if_neg (by decide),
      if_pos rfl, readString_plain hword (head?_colons_ne _)]
    rfl
  rw [htext, readValue_unsigned (by decide)]
  exact readUnsigned_cast (hread _) closed_doublePrecision hrest (congrArg some hcast)

/-- Every `double precision` is read back. -/
theorem reads_f64 (x : Float64) : Reads (encodeF64Literal x []) (.float8 x) := by
  cases x with
  | nan => exact @reads_special "NaN".toList _ rfl rfl
  | infinite negative =>
      cases negative with
      | false => exact @reads_special "Infinity".toList _ rfl rfl
      | true => exact @reads_special "-Infinity".toList _ rfl rfl
  | finite negative x => exact reads_finite negative x

/-- The text of an escape string. -/
def escapeString (value : Text) : Text := "E'".toList ++ (value.flatMap escapeCharacter ++ ['\''])

theorem readOperand_escapeString_text {readElement : Text → Option (PgValue × Text)}
    (hnul : nul ∉ value)
    (hrest : rest.head? ≠ some '\'') :
    readOperand readElement (escapeString value ++ rest) = some (.string value, rest) := by
  have htext : escapeString value ++ rest =
    "E'".toList ++ (value.flatMap escapeCharacter ++ '\'' :: rest) := by
    rw [escapeString, append_assoc, append_assoc]
    rfl
  rw [htext]
  exact readOperand_escapeString (readEscapeString_escaped_text hnul hrest)

theorem head?_ne_of_delimited (h : Delimited rest) : rest.head? ≠ some '\'' := fun hhead =>
  absurd (h _ hhead) (by decide)

theorem reads_text (hnul : nul ∉ value) : Reads (escapeString value) (.text value) := by
  intro limit hlimit rest hrest
  obtain ⟨limit, rfl⟩ := Nat.exists_eq_add_of_lt hlimit
  have hread (readElement) :=
    @readOperand_escapeString_text _ _ readElement hnul (head?_ne_of_delimited hrest)
  have hunsigned := readUnsigned_uncast
    (hread (readValue (length (escapeString value) + limit))) hrest rfl
  exact (@readValue_unsigned 'E' _ _ (by decide)).trans hunsigned

theorem reads_cast {type : Text} (htype : Closed 0 none type) (hnul : nul ∉ value) :
    Reads (escapeString value ++ ("::".toList ++ type)) (castText value type) := by
  intro limit hlimit rest hrest
  obtain ⟨limit, rfl⟩ := Nat.exists_eq_add_of_lt hlimit
  have hread (readElement) :=
    @readOperand_escapeString_text _ _ readElement hnul (head?_colons_ne (type ++ rest))
  have hunsigned := readUnsigned_cast
    (hread (readValue (length (escapeString value ++ ("::".toList ++ type)) + limit))) htype hrest rfl
  rw [append_assoc, append_assoc]
  exact (@readValue_unsigned 'E' _ _ (by decide)).trans hunsigned

theorem escapeCharacter_digitChar :
    ∀ i < 16, escapeCharacter (Nat.digitChar i) = [Nat.digitChar i] := by decide

theorem digitChar_ne_nul : ∀ i < 16, nul ≠ Nat.digitChar i := by decide

/-- Nothing of a hexadecimal text is escaped. -/
theorem escape_hexByte (bytes : Bytes) :
    (bytes.flatMap hexByte).flatMap escapeCharacter = bytes.flatMap hexByte := by
  induction bytes with
  | nil => rfl
  | cons b bytes ih =>
      have hhigh : b.toNat / 16 < 16 := Nat.div_lt_of_lt_mul b.toNat_lt
      have hlow : b.toNat % 16 < 16 := Nat.mod_lt _ (by decide)
      rw [flatMap_cons, flatMap_append, ih, hexByte, flatMap_cons, flatMap_cons, flatMap_nil,
        escapeCharacter_digitChar _ hhigh, escapeCharacter_digitChar _ hlow]
      rfl

theorem nul_not_mem_hexByte (bytes : Bytes) : nul ∉ bytes.flatMap hexByte := by
  intro h
  obtain ⟨b, -, hmem⟩ := mem_flatMap.1 h
  have hhigh : b.toNat / 16 < 16 := Nat.div_lt_of_lt_mul b.toNat_lt
  have hlow : b.toNat % 16 < 16 := Nat.mod_lt _ (by decide)
  rcases mem_cons.1 hmem with h | hmem
  · exact digitChar_ne_nul _ hhigh h
  · exact digitChar_ne_nul _ hlow (mem_singleton.1 hmem)

/-- The text that is cast to `bytea`. -/
def hexText (bytes : Bytes) : Text := '\\' :: 'x' :: bytes.flatMap hexByte

theorem castText_hexText (bytes : Bytes) : castText (hexText bytes) "bytea".toList = .bytea bytes := by
  rw [castText.eq_def, if_pos rfl]
  change ((readHex (bytes.flatMap hexByte)).map PgValue.bytea).getD _ = _
  rw [readHex_hexByte]
  rfl

theorem encodeByteaLiteral_eq (bytes : Bytes) (out : Text) :
    encodeByteaLiteral bytes out =
      out ++ (escapeString (hexText bytes) ++ ("::".toList ++ "bytea".toList)) := by
  rw [escapeString, hexText, flatMap_cons, flatMap_cons,
    escape_hexByte, encodeByteaLiteral, append_assoc, append_assoc]
  rfl

theorem reads_bytea (bytes : Bytes) : Reads (encodeByteaLiteral bytes []) (.bytea bytes) := by
  have hnul : nul ∉ hexText bytes := by
    rw [hexText, mem_cons, mem_cons]
    rintro (h | h | h)
    · exact absurd h (by decide)
    · exact absurd h (by decide)
    · exact nul_not_mem_hexByte bytes h
  rw [encodeByteaLiteral_eq, nil_append, ← castText_hexText]
  exact reads_cast (by decide) hnul

end Scalars

section Arrays

variable {texts : List Text} {values : List PgValue}

theorem readsBy_of_reads {limit : Nat} (h : Forall₂ Reads texts values)
    (hlimit : ∀ text ∈ texts, text.length < limit) :
    Forall₂ (ReadsBy (readValue limit)) texts values := by
  induction h with
  | nil => exact .nil
  | cons hfirst _ ih =>
      obtain ⟨hlength, hlimit⟩ := forall_mem_cons.1 hlimit
      exact .cons (hfirst limit hlength) (ih hlimit)

/-- An array is read where its elements are. -/
theorem reads_array (h : Forall₂ Reads texts values) (elementPgType : TypeName) :
    Reads ("ARRAY[".toList ++ (separated texts ++ ("]::".toList ++ (elementPgType.text ++ ['[', ']']))))
      (.array values elementPgType.text) := by
  intro limit hlimit rest hrest
  obtain ⟨limit, rfl⟩ : ∃ depth, limit = depth + 1 := ⟨limit - 1, by omega⟩
  have hdeep : ∀ text ∈ texts, text.length < limit := by
    intro text hmem
    have hlength := length_le_separated hmem
    rw [length_append, length_append, length_append] at hlimit
    have hopen : "ARRAY[".toList.length = 6 := rfl
    omega
  have htype : Closed 0 none (elementPgType.text ++ ['[', ']']) := closed_array elementPgType.closed
  have hread := readArray_separated (readValue_bracket limit) (readsBy_of_reads h hdeep)
    ("::".toList ++ ((elementPgType.text ++ ['[', ']']) ++ rest))
  have hunsigned := readUnsigned_cast (readOperand_array hread)
    htype hrest (castArray_append values elementPgType.text)
  rw [append_assoc, append_assoc, append_assoc]
  exact (@readValue_unsigned 'A' _ _ (by decide)).trans hunsigned

end Arrays

/-- Induction over a literal and the elements of its arrays. -/
theorem PostgresLiteral.induction {p : PostgresLiteral → Prop}
    (null : p .null) (bool : ∀ value, p (.bool value))
    (i16 : ∀ value, p (.i16 value)) (i32 : ∀ value, p (.i32 value)) (i64 : ∀ value, p (.i64 value))
    (f64 : ∀ value, p (.f64 value)) (text : ∀ value, p (.text value))
    (bytea : ∀ value, p (.bytea value))
    (textCast : ∀ value pgType, p (.textCast value pgType))
    (array : ∀ elements elementPgType,
      (∀ element ∈ elements, p element) → p (.array elements elementPgType))
    (literal : PostgresLiteral) : p literal :=
  @PostgresLiteral.rec p (fun elements => ∀ element ∈ elements, p element)
    null bool i16 i32 i64 f64 text bytea textCast
    (fun elements elementPgType h => array elements elementPgType h) nofun
    (fun _ _ hfirst hrest => forall_mem_cons.2 ⟨hfirst, hrest⟩) literal

section Encodings

theorem encodeTextLiteral_of_mem {value out : Text} (h : nul ∈ value) :
    encodeTextLiteral value out = .error nulInText := if_pos h

theorem encodeTextLiteral_of_not_mem {value out : Text} (h : nul ∉ value) :
    encodeTextLiteral value out = .ok (out ++ escapeString value) := if_neg h

theorem encodeF64Literal_append (x : Float64) (out : Text) :
    encodeF64Literal x out = out ++ encodeF64Literal x [] := by
  cases x with
  | nan => rfl
  | infinite negative =>
      cases negative with
      | false => rfl
      | true => rfl
  | finite negative x => rfl

/-- What an encoding comes to: the only failure is a NUL character, and all else is read back. -/
def Faithful (literal : PostgresLiteral) : Prop :=
  ∀ out, (literal.ContainsNul ∧ literal.encodeInto out = .error nulInText) ∨
    ¬literal.ContainsNul ∧ ∃ text, literal.encodeInto out = .ok (out ++ text) ∧
      Reads text literal.denote

theorem faithful_scalar {literal : PostgresLiteral} {text : Text} (hnul : ¬literal.ContainsNul)
    (hencode : ∀ out, literal.encodeInto out = .ok (out ++ text))
    (hread : Reads text literal.denote) : Faithful literal :=
  fun out => .inr ⟨hnul, text, hencode out, hread⟩

theorem faithful_text (value : Text) : Faithful (.text value) := by
  intro out
  by_cases hnul : nul ∈ value
  · exact .inl ⟨.text hnul, encodeTextLiteral_of_mem hnul⟩
  · refine .inr ⟨?_, _, encodeTextLiteral_of_not_mem hnul, reads_text hnul⟩
    intro h
    cases h with
    | text h => exact hnul h

theorem faithful_textCast (value : Text) (pgType : TypeName) : Faithful (.textCast value pgType) := by
  intro out
  by_cases hnul : nul ∈ value
  · refine .inl ⟨.textCast hnul, ?_⟩
    rw [PostgresLiteral.encodeInto, encodeTextLiteral_of_mem hnul]
    rfl
  · refine .inr ⟨?_, _, ?_, reads_cast pgType.closed hnul⟩
    · intro h
      cases h with
      | textCast h => exact hnul h
    · rw [PostgresLiteral.encodeInto, encodeTextLiteral_of_not_mem hnul,
        ok_bind, append_assoc, append_assoc]
      rfl

/-- The elements of an array behind the first are encoded one by one, unless one of them is not. -/
theorem encodeElements_faithful {elements : List PostgresLiteral}
    (h : ∀ element ∈ elements, Faithful element) (index : Nat)
    (out : Text) :
    ((∃ element ∈ elements, element.ContainsNul) ∧
      encodeElements elements (index + 1) out = .error nulInText) ∨
      (∀ element ∈ elements, ¬element.ContainsNul) ∧
        ∃ texts, encodeElements elements (index + 1) out = .ok (out ++ texts.flatMap (',' :: ·)) ∧
          Forall₂ Reads texts (denoteAll elements) := by
  induction elements generalizing index out with
  | nil => exact .inr ⟨nofun, [], by rw [flatMap_nil, append_nil]; rfl, .nil⟩
  | cons element elements ih =>
      obtain ⟨hfirst, hrest⟩ := forall_mem_cons.1 h
      rw [encodeElements, if_pos (Nat.succ_pos index)]
      rcases hfirst (out ++ [',']) with ⟨hnul, hencode⟩ | ⟨hnul, text, hencode, hread⟩
      · refine .inl ⟨⟨element, mem_cons_self, hnul⟩, ?_⟩
        rw [hencode]
        rfl
      · rw [hencode, ok_bind]
        rcases ih hrest (index + 1) (out ++ [','] ++ text) with ⟨⟨other, hmem, hother⟩, hencode⟩ |
          ⟨hnone, texts, hencode, hreads⟩
        · exact .inl ⟨⟨other, mem_cons_of_mem _ hmem, hother⟩, hencode⟩
        · refine .inr ⟨forall_mem_cons.2 ⟨hnul, hnone⟩, text :: texts, ?_, .cons hread hreads⟩
          rw [hencode, flatMap_cons, append_assoc, append_assoc]
          rfl

theorem encodeElements_start {elements : List PostgresLiteral}
    (h : ∀ element ∈ elements, Faithful element) (out : Text) :
    ((∃ element ∈ elements, element.ContainsNul) ∧ encodeElements elements 0 out = .error nulInText) ∨
      (∀ element ∈ elements, ¬element.ContainsNul) ∧
        ∃ texts, encodeElements elements 0 out = .ok (out ++ separated texts) ∧
          Forall₂ Reads texts (denoteAll elements) := by
  cases elements with
  | nil => exact .inr ⟨nofun, [], by rw [separated, append_nil]; rfl, .nil⟩
  | cons element elements =>
      obtain ⟨hfirst, hrest⟩ := forall_mem_cons.1 h
      rw [encodeElements, if_neg (Nat.lt_irrefl 0)]
      rcases hfirst out with ⟨hnul, hencode⟩ | ⟨hnul, text, hencode, hread⟩
      · refine .inl ⟨⟨element, mem_cons_self, hnul⟩, ?_⟩
        rw [hencode]
        rfl
      · rw [hencode, ok_bind]
        rcases encodeElements_faithful hrest 0 (out ++ text) with
          ⟨⟨other, hmem, hother⟩, hencode⟩ | ⟨hnone, texts, hencode, hreads⟩
        · exact .inl ⟨⟨other, mem_cons_of_mem _ hmem, hother⟩, hencode⟩
        · refine .inr ⟨forall_mem_cons.2 ⟨hnul, hnone⟩, text :: texts, ?_, .cons hread hreads⟩
          rw [hencode, separated, append_assoc]

theorem faithful_array {elements : List PostgresLiteral} (elementPgType : TypeName)
    (h : ∀ element ∈ elements, Faithful element) : Faithful (.array elements elementPgType) := by
  intro out
  rcases encodeElements_start h (out ++ "ARRAY[".toList) with ⟨⟨element, hmem, hnul⟩, hencode⟩ |
    ⟨hnone, texts, hencode, hreads⟩
  · refine .inl ⟨.array hmem hnul, ?_⟩
    rw [PostgresLiteral.encodeInto, hencode]
    rfl
  · refine .inr ⟨?_, _, ?_, reads_array hreads elementPgType⟩
    · intro h
      cases h with
      | array hmem hnul => exact hnone _ hmem hnul
    · rw [PostgresLiteral.encodeInto, hencode, ok_bind,
        append_assoc, append_assoc, append_assoc, append_assoc]
      rfl

/-- Every literal is encoded faithfully, by induction over the nesting of its arrays. -/
theorem faithful (literal : PostgresLiteral) : Faithful literal := by
  induction literal using PostgresLiteral.induction with
  | null => exact faithful_scalar nofun (fun _ => rfl) reads_null
  | bool value => exact faithful_scalar nofun (fun _ => rfl) (reads_bool value)
  | i16 value =>
      exact faithful_scalar nofun (fun _ => rfl) (reads_integer ⟨value.le_toInt, value.toInt_lt⟩)
  | i32 value =>
      exact faithful_scalar nofun (fun _ => rfl) (reads_integer ⟨value.le_toInt, value.toInt_lt⟩)
  | i64 value =>
      exact faithful_scalar nofun (fun _ => rfl) (reads_integer ⟨value.le_toInt, value.toInt_lt⟩)
  | f64 value =>
      exact faithful_scalar nofun
        (fun out => congrArg Except.ok (encodeF64Literal_append value out)) (reads_f64 value)
  | text value => exact faithful_text value
  | bytea value => exact faithful_scalar nofun (fun _ => rfl) (reads_bytea value)
  | textCast value pgType => exact faithful_textCast value pgType
  | array elements elementPgType ih => exact faithful_array elementPgType ih

end Encodings

section Portable

/-- How values of types that are defined elsewhere are written. -/
structure Formats (OffsetDateTime Date Value Uuid : Type) where
  rfc3339 : OffsetDateTime → Option Text
  iso8601Date : Date → Option Text
  toJsonString : Value → Option Text
  hyphenated : Uuid → Text

/-- The values of the types that `IntoPortableQueryLiteral` covers. -/
inductive PortableValue (OffsetDateTime Date Value Uuid : Type)
  | bool (value : Bool)
  | i16 (value : Int16)
  | i32 (value : Int32)
  | i64 (value : Int64)
  | f64 (value : Float64)
  | offsetDateTime (value : OffsetDateTime)
  | date (value : Date)
  | json (value : Value)
  | uuid (value : Uuid)
  | str (value : Text)
  | bytes (value : Bytes)
  | none
  | some (value : PortableValue OffsetDateTime Date Value Uuid)
  | strings (elements : List Text)
  | byteStrings (elements : List Bytes)
  | i64s (elements : List Int64)

variable {OffsetDateTime Date Value Uuid α : Type} (formats : Formats OffsetDateTime Date Value Uuid)

/-- Text that a formatter has written, cast to a type. -/
def encodeFormatted (formatted : Option Text) (message : String) (cast out : Text) :
    Except DbError Text :=
  match formatted with
  | none => .error (.queryEncoding message)
  | some formatted => do
      let out ← encodeTextLiteral formatted out
      return out ++ cast

def encodeEach (encodeElement : α → Text → Except DbError Text) :
    List α → Nat → Text → Except DbError Text
  | [], _, out => .ok out
  | element :: elements, index, out => do
      let out ← encodeElement element (if index > 0 then out ++ [','] else out)
      encodeEach encodeElement elements (index + 1) out

def encodeArrayLiteral (elements : List α) (pgArrayType : Text)
    (encodeElement : α → Text → Except DbError Text) (out : Text) :
    Except DbError Text := do
  let out ← encodeEach encodeElement elements 0 (out ++ "ARRAY[".toList)
  return out ++ "]::".toList ++ pgArrayType

def encodePortableQueryLiteral :
    PortableValue OffsetDateTime Date Value Uuid → Text → Except DbError Text
  | .bool value, out => .ok (encodeBoolLiteral value out)
  | .i16 value, out => .ok (encodeI16Literal value out)
  | .i32 value, out => .ok (encodeI32Literal value out)
  | .i64 value, out => .ok (encodeI64Literal value out)
  | .f64 value, out => .ok (encodeF64Literal value out)
  | .offsetDateTime value, out =>
      encodeFormatted (formats.rfc3339 value)
        "time::OffsetDateTime could not be formatted as RFC 3339 text"
        "::timestamptz".toList out
  | .date value, out =>
      encodeFormatted (formats.iso8601Date value)
        "time::Date could not be formatted as ISO 8601 text" "::date".toList out
  | .json value, out =>
      encodeFormatted (formats.toJsonString value)
        "serde_json::Value could not be serialized" "::jsonb".toList out
  | .uuid value, out => do
      let out ← encodeTextLiteral (formats.hyphenated value) out
      return out ++ "::uuid".toList
  | .str value, out => encodeTextLiteral value out
  | .bytes value, out => .ok (encodeByteaLiteral value out)
  | .none, out => .ok (out ++ "NULL".toList)
  | .some value, out => encodePortableQueryLiteral value out
  | .strings elements, out => encodeArrayLiteral elements "text[]".toList encodeTextLiteral out
  | .byteStrings elements, out =>
      encodeArrayLiteral elements "bytea[]".toList
        (fun element out => .ok (encodeByteaLiteral element out)) out
  | .i64s elements, out =>
      encodeArrayLiteral elements "bigint[]".toList
        (fun element out => .ok (encodeI64Literal element out)) out

def timestamptzType : TypeName := ⟨"timestamptz".toList, by decide⟩

def dateType : TypeName := ⟨"date".toList, by decide⟩

def jsonbType : TypeName := ⟨"jsonb".toList, by decide⟩

def uuidType : TypeName := ⟨"uuid".toList, by decide⟩

def textType : TypeName := ⟨"text".toList, by decide⟩

def byteaType : TypeName := ⟨"bytea".toList, by decide⟩

def bigintType : TypeName := ⟨"bigint".toList, by decide⟩

/-- The literal for the same value, where its type has one and it can be formatted. -/
def PortableValue.simple : PortableValue OffsetDateTime Date Value Uuid → Option PostgresLiteral
  | .bool value => Option.some (.bool value)
  | .i16 value => Option.some (.i16 value)
  | .i32 value => Option.some (.i32 value)
  | .i64 value => Option.some (.i64 value)
  | .f64 value => Option.some (.f64 value)
  | .offsetDateTime value => (formats.rfc3339 value).map (.textCast · timestamptzType)
  | .date value => (formats.iso8601Date value).map (.textCast · dateType)
  | .json value => (formats.toJsonString value).map (.textCast · jsonbType)
  | .uuid value => Option.some (.textCast (formats.hyphenated value) uuidType)
  | .str value => Option.some (.text value)
  | .bytes value => Option.some (.bytea value)
  | .none => Option.some .null
  | .some value => value.simple
  | .strings elements => Option.some (.array (elements.map .text) textType)
  | .byteStrings elements => Option.some (.array (elements.map .bytea) byteaType)
  | .i64s elements => Option.some (.array (elements.map .i64) bigintType)

theorem encodeEach_eq {encodeElement : α → Text → Except DbError Text} {toLiteral : α → PostgresLiteral}
    (h : encodeElement = fun element out => (toLiteral element).encodeInto out)
    (elements : List α) (index : Nat) (out : Text) :
    encodeEach encodeElement elements index out =
      encodeElements (elements.map toLiteral) index out := by
  subst h
  induction elements generalizing index out with
  | nil => rfl
  | cons element elements ih =>
      rw [encodeEach, map_cons, encodeElements]
      exact congrArg _ (funext fun out => ih (index + 1) out)

theorem encodeArrayLiteral_eq {encodeElement : α → Text → Except DbError Text}
    {toLiteral : α → PostgresLiteral}
    (h : encodeElement = fun element out => (toLiteral element).encodeInto out)
    (elements : List α) (elementPgType : TypeName)
    (out : Text) :
    encodeArrayLiteral elements (elementPgType.text ++ "[]".toList) encodeElement out =
      (PostgresLiteral.array (elements.map toLiteral) elementPgType).encodeInto out := by
  rw [encodeArrayLiteral, PostgresLiteral.encodeInto, encodeEach_eq h]
  apply congrArg
  funext out
  rw [append_assoc _ elementPgType.text]

theorem encodeFormatted_eq {formatted : Option Text}
    {message : String} {cast : Text} {pgType : TypeName}
    {literal : PostgresLiteral} (hcast : cast = "::".toList ++ pgType.text)
    (h : formatted.map (.textCast · pgType) = some literal) (out : Text) :
    encodeFormatted formatted message cast out = literal.encodeInto out := by
  obtain ⟨value, rfl, rfl⟩ := Option.map_eq_some_iff.1 h
  subst hcast
  rw [encodeFormatted, PostgresLiteral.encodeInto]
  apply congrArg
  funext out
  rw [append_assoc]

/-- What both surfaces can express, they encode alike. -/
theorem encodePortableQueryLiteral_eq {value : PortableValue OffsetDateTime Date Value Uuid}
    {literal : PostgresLiteral}
    (h : value.simple formats = some literal) (out : Text) :
    encodePortableQueryLiteral formats value out = literal.encodeInto out := by
  induction value with
  | bool | i16 | i32 | i64 | f64 | str | bytes | none =>
      cases h
      rfl
  | offsetDateTime | date | json => exact encodeFormatted_eq rfl h out
  | uuid value =>
      cases h
      exact @encodeFormatted_eq (some (formats.hyphenated value)) "" _ uuidType _ rfl rfl out
  | some value ih => exact ih h
  | strings elements =>
      cases h
      exact @encodeArrayLiteral_eq _ _ .text rfl elements textType out
  | byteStrings elements =>
      cases h
      exact @encodeArrayLiteral_eq _ _ .bytea rfl elements byteaType out
  | i64s elements =>
      cases h
      exact @encodeArrayLiteral_eq _ _ .i64 rfl elements bigintType out

/-- An encoding fails exactly where a text has a NUL character. All else is read back as the value it was, up to its last
character, and both surfaces encode it alike. -/
theorem encoding_faithful (literal : PostgresLiteral) (out : Text) :
    ((∃ e, literal.encodeInto out = .error e) ↔ literal.ContainsNul) ∧
      (∀ sql, literal.encodeInto out = .ok sql →
        ∃ text, sql = out ++ text ∧ ∀ rest, Delimited rest →
          read (text ++ rest) = some (literal.denote, rest)) ∧
      ∀ value : PortableValue OffsetDateTime Date Value Uuid, value.simple formats = some literal →
        encodePortableQueryLiteral formats value out = literal.encodeInto out := by
  refine ⟨?_, ?_, fun value h => encodePortableQueryLiteral_eq formats h out⟩
  · rcases faithful literal out with ⟨hnul, hencode⟩ | ⟨hnul, text, hencode, -⟩
    · exact iff_of_true ⟨_, hencode⟩ hnul
    · refine iff_of_false ?_ hnul
      rintro ⟨e, he⟩
      rw [hencode] at he
      cases he
  · intro sql hsql
    rcases faithful literal out with ⟨-, hencode⟩ | ⟨-, text, hencode, hread⟩
    · rw [hencode] at hsql
      cases hsql
    · rw [hencode] at hsql
      cases hsql
      refine ⟨text, rfl, fun rest hrest => hread _ ?_ rest hrest⟩
      rw [length_append]
      omega

end Portable

end Paranoid.SqlLiteral

import Paranoid.SqlLiteral
import Paranoid.SqlTexts

namespace Paranoid.LiteralLexemes

open Binary64 DecimalText List Postgres SqlConstants SqlLexemes SqlLiteral SqlScan SqlSeams SqlTexts
open Utf8Text (Text)

section Literals

variable {after : After} {u rest : Text} {c : Char}

/-- What may stand behind a literal: nothing, a comma or a bracket. -/
structure Behind (rest : Text) : Prop where
  lexable (after : After) : Lexable after rest
  head : ∀ c ∈ rest.head?, c ∈ [',', ']']

theorem behind_nil : Behind [] := ⟨fun _ => lexable_nil, nofun⟩

theorem behind_cons (hc : c ∈ [',', ']']) (hrest : Lexable .other rest) : Behind (c :: rest) := by
  have hsymbols : ∀ c ∈ [',', ']'], c ∈ "()[],".toList := forall_of_all (by decide)
  exact ⟨fun _ => lexable_symbol (hsymbols c hc) hrest, fun d hd => Option.some.inj hd ▸ hc⟩

/-- A text that is made of lexemes wherever a literal may stand. -/
def Literal (text : Text) : Prop := ∀ rest, Behind rest → Lexable .other (text ++ rest)

theorem Behind.not_part (h : Behind rest) : ∀ c ∈ rest.head?, isIdentifierPart c = false :=
  fun c hc => by
  have hends : ∀ c ∈ [',', ']'], isIdentifierPart c = false := forall_of_all (by decide)
  exact hends c (h.head c hc)

theorem literal_word (hword : isWord u) : Literal u := fun _ hrest =>
  lexable_word hword hrest.not_part (hrest.lexable .other)

theorem lexable_cast (hword : isWord u) (hrest : Behind rest) :
    Lexable after ("::".toList ++ (u ++ rest)) :=
  lexable_colons (literal_word hword rest hrest)

end Literals

section Numerals

variable {after : After} {state : NumberState} {part : NumberPart} {c : Char}
  {whole fraction exponent digits u text rest : Text}

/-- A text that ends a number: neither a letter nor a digit nor a point. -/
def Stops (rest : Text) : Prop := ∀ c ∈ rest.head?, joinsNumber c = false ∧ c ≠ '.'

theorem clingsNumber_of_stops {integral : Bool} (h : Stops rest) :
    clingsNumber integral text rest = false :=
  clingsNumber_eq_false.2
    ⟨any_head_eq_false.2 fun c hc => (h c hc).1, fun hhead => absurd rfl (h '.' hhead).2⟩

/-- The digits of one part of a number are read one by one. -/
theorem numberLength_digits (hstate : ∀ c, c.isDigit → state.step c = some (.digits part))
    (hpart : ∀ c, c.isDigit → part.isDigit c) (hdigits : ∀ d ∈ digits, d.isDigit) (hne : digits ≠ []) :
    numberLength state (digits ++ rest) =
      (numberLength (.digits part) rest).map (· + digits.length) := by
  induction digits generalizing state with
  | nil => exact absurd rfl hne
  | cons d digits ih =>
      obtain ⟨hd, hdigits⟩ := forall_mem_cons.1 hdigits
      rw [cons_append, numberLength, hstate d hd]
      dsimp only
      rw [if_neg fun h => NumberState.noConfusion h.1]
      by_cases hlast : digits = []
      · rw [hlast]
        rfl
      · have hagain : ∀ c, c.isDigit → (NumberState.digits part).step c = some (.digits part) :=
          fun c hc =>
          if_pos (hpart c hc)
        rw [ih hagain hdigits hlast, Option.map_map]
        rfl

/-- Digits with a point and a power of ten behind them, or without. -/
inductive Numeral : Text → Prop
  | intro {whole fraction exponent : Text} (hne : whole ≠ []) (hwhole : ∀ d ∈ whole, d.isDigit)
      (hfraction : fraction = [] ∨ ∃ digits,
        digits ≠ [] ∧ (∀ d ∈ digits, d.isDigit) ∧ fraction = '.' :: digits)
      (hexponent : exponent = [] ∨ ∃ n, exponent = 'e' :: intText n) :
      Numeral (whole ++ (fraction ++ exponent))

theorem not_letter_of_isDigit (h : c.isDigit) :
    ¬(c = 'x' ∨ c = 'X') ∧ ¬(c = 'o' ∨ c = 'O') ∧ ¬(c = 'b' ∨ c = 'B') ∧ c ≠ '+' ∧ c ≠ '-' ∧ c ≠ '.' :=
  digit_forall (p := fun c => ¬(c = 'x' ∨ c = 'X') ∧ ¬(c = 'o' ∨ c = 'O') ∧ ¬(c = 'b' ∨ c = 'B') ∧
    c ≠ '+' ∧ c ≠ '-' ∧ c ≠ '.') (by decide) h

theorem numberLength_natText (hstate : ∀ c, c.isDigit → state.step c = some (.digits .exponent))
    (n : Nat) :
    numberLength state (natText n) = some (natText n).length := by
  have hread := @numberLength_digits _ .exponent _ [] hstate
    (fun _ hc => hc) (fun _ => isDigit_of_mem_natText)
    (@natText_ne_nil n)
  rw [append_nil] at hread
  rw [hread]
  exact congrArg some (Nat.zero_add _)

theorem numberLength_exponent (hpart : part = .integer ∨ part = .fraction)
    (hexponent : exponent = [] ∨ ∃ n, exponent = 'e' :: intText n) :
    numberLength (.digits part) exponent = some exponent.length := by
  rcases hexponent with rfl | ⟨n, rfl⟩
  · rfl
  · have hletter : (NumberState.digits part).step 'e' = some .letter := by
      rcases hpart with rfl | rfl <;> rfl
    have hsign (m : Nat) : numberLength .sign (natText m) = some (natText m).length :=
      @numberLength_natText .sign (fun c hc => if_pos hc) m
    have hdigits (m : Nat) : numberLength .letter (natText m) = some (natText m).length := by
      refine numberLength_natText (fun c hc => ?_) m
      obtain ⟨-, -, -, hplus, hminus, -⟩ := not_letter_of_isDigit hc
      rw [NumberState.step, if_neg (not_or.2 ⟨hplus, hminus⟩), if_pos hc]
    have hread : numberLength .letter (intText n) = some (intText n).length := by
      rw [intText]
      split_ifs
      · exact congrArg (Option.map (· + 1)) (hsign n.natAbs)
      · exact hdigits n.natAbs
    rw [numberLength, hletter]
    dsimp only
    rw [if_neg fun h => NumberState.noConfusion h.1, hread]
    rfl

theorem numberLength_fraction
    (hfraction : fraction = [] ∨ ∃ digits,
      digits ≠ [] ∧ (∀ d ∈ digits, d.isDigit) ∧ fraction = '.' :: digits)
    (hexponent : exponent = [] ∨ ∃ n, exponent = 'e' :: intText n) :
    numberLength (.digits .integer) (fraction ++ exponent) = some (fraction ++ exponent).length := by
  rcases hfraction with rfl | ⟨digits, hne, hdigits, rfl⟩
  · exact numberLength_exponent (.inl rfl) hexponent
  · have hpoint : ∀ c, c.isDigit → NumberState.step .point c = some (.digits .fraction) :=
      fun c hc => if_pos hc
    have hdots : (digits ++ exponent).head? ≠ some '.' := by
      obtain ⟨d, tail, rfl⟩ := exists_cons_of_ne_nil hne
      intro hhead
      exact (not_letter_of_isDigit (hdigits d mem_cons_self)).2.2.2.2.2 (Option.some.inj hhead)
    have hstep : (NumberState.digits .integer).step '.' = some .point := rfl
    rw [cons_append, numberLength, hstep]
    dsimp only
    rw [if_neg fun h => hdots h.2, numberLength_digits hpoint (fun _ hc => hc) hdigits hne,
      numberLength_exponent (.inr rfl) hexponent, length_cons,
        length_append, Nat.add_comm digits.length]
    rfl

theorem step_startState {d : Char} (hc : c.isDigit) (hd : d.isDigit) :
    (startState c).step d = some (.digits .integer) := by
  obtain ⟨hx, ho, hb, -⟩ := not_letter_of_isDigit hd
  rw [startState, if_neg (not_letter_of_isDigit hc).2.2.2.2.2]
  split_ifs
  · rw [NumberState.step, if_neg hx, if_neg ho, if_neg hb]
    exact if_pos hd
  · exact if_pos hd

/-- A zero goes on as any other digit does, but for the letter of a radix. -/
theorem numberLength_startState (hc : c.isDigit) (hhead : ∀ d ∈ text.head?, d = '.' ∨ d = 'e') :
    numberLength (startState c) text = numberLength (.digits .integer) text := by
  rw [startState, if_neg (not_letter_of_isDigit hc).2.2.2.2.2]
  split_ifs
  · cases text with
    | nil => rfl
    | cons d text => rcases hhead d rfl with rfl | rfl <;> rfl
  · rfl

theorem numberLength_whole (hc : c.isDigit) (hdigits : ∀ d ∈ digits, d.isDigit)
    (hhead : ∀ d ∈ text.head?, d = '.' ∨ d = 'e')
    (htext : numberLength (.digits .integer) text = some text.length) :
    numberLength (startState c) (digits ++ text) = some (digits ++ text).length := by
  by_cases hne : digits = []
  · rw [hne, nil_append, numberLength_startState hc hhead, htext]
  · rw [numberLength_digits (fun d hd => step_startState hc hd) (fun _ hd => hd) hdigits hne, htext,
      length_append, Nat.add_comm digits.length]
    rfl

theorem reads_numeral (h : Numeral u) (hrest : Stops rest) : Reads after .number u rest := by
  cases h with
  | @intro whole fraction exponent hne hwhole hfraction hexponent =>
      obtain ⟨c, digits, rfl⟩ := exists_cons_of_ne_nil hne
      obtain ⟨hc, hdigits⟩ := forall_mem_cons.1 hwhole
      have hhead : ∀ d ∈ (fraction ++ exponent).head?, d = '.' ∨ d = 'e' := by
        intro d hd
        rcases hfraction with rfl | ⟨_, _, _, rfl⟩
        · rcases hexponent with rfl | ⟨_, rfl⟩
          · cases hd
          · exact .inr (Option.some.inj hd).symm
        · exact .inl (Option.some.inj hd).symm
      have hread := numberLength_whole hc hdigits hhead (numberLength_fraction hfraction hexponent)
      have hstarts : startsNumber c (digits ++ (fraction ++ exponent) ++ rest) := by
        rw [startsNumber, hc]
        rfl
      exact .number hstarts (numberLength_append.2 ⟨hread, clingsNumber_of_stops hrest⟩)

theorem numeral_natText (n : Nat) : Numeral (natText n) := by
  have h := @Numeral.intro (natText n) [] [] natText_ne_nil
    (fun _ => isDigit_of_mem_natText) (.inl rfl) (.inl rfl)
  rwa [append_nil, append_nil] at h

theorem numeral_point (hne : whole ≠ []) (hwhole : ∀ d ∈ whole, d.isDigit) (hfraction : digits ≠ [])
    (hdigits : ∀ d ∈ digits, d.isDigit) : Numeral (whole ++ '.' :: digits) := by
  have h := @Numeral.intro whole ('.' :: digits) [] hne
    hwhole (.inr ⟨digits, hfraction, hdigits, rfl⟩) (.inl rfl)
  rwa [append_nil] at h

theorem numeral_exponentialText (hne : digits ≠ []) (hdigits : ∀ d ∈ digits, d.isDigit) (n : Int) :
    Numeral (exponentialText digits n) := by
  have htake : digits.take 1 ≠ [] := by
    rw [← length_pos_iff, length_take]
    exact Nat.lt_min.2 ⟨Nat.one_pos, length_pos_of_ne_nil hne⟩
  refine .intro htake (fun d hd => hdigits d (mem_of_mem_take hd)) ?_ (.inr ⟨_, rfl⟩)
  split_ifs with hdrop
  · exact .inl rfl
  · exact .inr ⟨_, hdrop, fun d hd => hdigits d (mem_of_mem_drop hd), rfl⟩

theorem numeral_decimalText (hne : digits ≠ []) (hdigits : ∀ d ∈ digits, d.isDigit) (n : Int) :
    Numeral (decimalText digits n) := by
  have hzero : ∀ d ∈ ['0'], d.isDigit := forall_of_all (by decide)
  rw [decimalText]
  split_ifs with hsmall hinside
  · refine @numeral_point ['0'] _ (cons_ne_nil _ _) hzero
      (append_ne_nil_of_right_ne_nil _ hne) fun d hd => ?_
    exact (mem_append.1 hd).elim isDigit_of_mem_zeros (hdigits d)
  · have htake : digits.take (digits.length + n).toNat ≠ [] := by
      rw [← length_pos_iff, length_take]
      have hpos := length_pos_of_ne_nil hne
      omega
    have hdrop : digits.drop (digits.length + n).toNat ≠ [] := by
      rw [← length_pos_iff, length_drop]
      omega
    exact numeral_point htake (fun d hd => hdigits d (mem_of_mem_take hd)) hdrop
      fun d hd => hdigits d (mem_of_mem_drop hd)
  · refine @numeral_point _ ['0'] (append_ne_nil_of_left_ne_nil hne _)
      (fun d hd => ?_) (cons_ne_nil _ _) hzero
    exact (mem_append.1 hd).elim (hdigits d) isDigit_of_mem_zeros

/-- However a finite number is written, it is one numeral. -/
theorem numeral_magnitudeText (x : Magnitude) : Numeral (magnitudeText x) := by
  have hdigits : ∀ d ∈ natText (shortestDigits x), d.isDigit := fun _ => isDigit_of_mem_natText
  have hzero : ∀ d ∈ ['0'], d.isDigit := forall_of_all (by decide)
  rw [magnitudeText]
  split_ifs
  · exact @numeral_point ['0'] ['0'] (cons_ne_nil _ _) hzero (cons_ne_nil _ _) hzero
  · exact numeral_exponentialText natText_ne_nil hdigits _
  · exact numeral_decimalText natText_ne_nil hdigits _

end Numerals

section Scalars

variable {after : After} {c : Char} {u value rest : Text}

theorem stops_symbol (hc : c ∈ ":)".toList) : Stops (c :: rest) := fun d hd => by
  have hsymbols : ∀ c ∈ ":)".toList, joinsNumber c = false ∧ c ≠ '.' := forall_of_all (by decide)
  obtain rfl := Option.some.inj hd
  exact hsymbols c hc

theorem exists_digit_of_numeral (h : Numeral u) : ∃ d tail, u = d :: tail ∧ d.isDigit := by
  cases h with
  | intro hne hwhole =>
      obtain ⟨d, tail, rfl⟩ := exists_cons_of_ne_nil hne
      exact ⟨d, _, rfl, hwhole d mem_cons_self⟩

/-- A sign is an operator of its own in front of a digit. -/
theorem reads_minus (hc : c.isDigit) : Reads after .operator ['-'] (c :: rest) := by
  have hoperator : isOperator c = false :=
    digit_forall (p := fun c => isOperator c = false) (by decide) hc
  refine .operator (by decide) ?_
  rw [nil_append, operatorOf,
    takeWhile_cons_of_pos (by decide), takeWhile_cons_of_neg (by rw [hoperator]; decide)]
  rfl

theorem lexable_signed (negative : Bool) (hu : Numeral u)
    (hstops : Stops rest) (hrest : Lexable .other rest) :
    Lexable .other ((if negative then ['-'] else []) ++ (u ++ rest)) := by
  have hnumber : Lexable .other (u ++ rest) := lexable_append (reads_numeral hu hstops) hrest
  cases negative with
  | false => exact hnumber
  | true =>
      obtain ⟨d, tail, rfl, hd⟩ := exists_digit_of_numeral hu
      exact lexable_append (reads_minus hd) hnumber

theorem literal_integer (type : IntegerType) (n : Int) : Literal (encodeInteger type n []) := by
  intro rest hrest
  have hword : isWord type.name := by
    cases type <;> decide
  have htext : encodeInteger type n [] ++ rest =
      '(' :: ((if decide (n < 0) then ['-'] else []) ++
        (natText n.natAbs ++ ')' :: ("::".toList ++ (type.name ++ rest)))) := by
    rw [encodeInteger, intText]
    by_cases hn : n < 0
    · simp [hn]
    · simp [hn]
  rw [htext]
  refine lexable_symbol (by decide) (lexable_signed _ (numeral_natText _) (stops_symbol (by decide)) ?_)
  exact lexable_symbol (by decide) (lexable_cast hword hrest)

theorem lexable_doublePrecision (hrest : Behind rest) :
    Lexable after ("::double precision".toList ++ rest) :=
  lexable_colons (@lexable_word _ "double".toList (' ' :: ("precision".toList ++ rest)) (by decide)
    (fun d hd => Option.some.inj hd ▸ by decide) (lexable_space (literal_word (by decide) rest hrest)))

/-- An escaped text is closed by its last quote, whatever characters it has. -/
theorem closingLength_escaped (value : Text) :
    closingLength '\'' .escape (value.flatMap escapeCharacter ++ ['\'']) =
      some (value.flatMap escapeCharacter ++ ['\'']).length := by
  induction value with
  | nil => rfl
  | cons c value ih =>
      have hescaped (d : Char) :
        closingLength '\'' .escape ('\\' :: d :: (value.flatMap escapeCharacter ++ ['\''])) =
          some ('\\' :: d :: (value.flatMap escapeCharacter ++ ['\''])).length := by
        rw [closingLength, if_pos ⟨rfl, rfl⟩, ih]
        rfl
      rw [flatMap_cons, append_assoc]
      by_cases hbackslash : c = '\\'
      · subst hbackslash
        exact hescaped '\\'
      · by_cases hquote : c = '\''
        · subst hquote
          exact hescaped '\''
        · rw [escapeCharacter, if_neg hbackslash, if_neg hquote, singleton_append]
          obtain ⟨d, tail, htail⟩ := exists_cons_of_ne_nil
            (append_ne_nil_of_right_ne_nil (value.flatMap escapeCharacter) (cons_ne_nil '\'' []))
          rw [htail] at ih ⊢
          rw [closingLength, if_neg fun h => hbackslash h.2, if_neg hquote, ih]
          rfl

theorem lexable_escapeString (hhead : rest.head? ≠ some '\'')
    (hrest : Lexable (.string .escape false) rest) :
    Lexable after (escapeString value ++ rest) := by
  have hquote : '\'' ≠ '\\' := by decide
  have hclose := (@closingLength_append _ .escape hquote
    (value.flatMap escapeCharacter ++ ['\'']) rest).2
    ⟨closingLength_escaped value, fun _ => hhead⟩
  exact lexable_append (@Reads.quoted after ⟨['E'], '\'', .escape⟩ _ rest (by decide) hclose) hrest

theorem literal_escapeString (value : Text) : Literal (escapeString value) := by
  intro rest hrest
  refine lexable_escapeString (fun hhead => ?_) (hrest.lexable _)
  exact absurd (hrest.head _ hhead) (by decide)

theorem literal_cast (value : Text) {type : Text} (htype : isWord type) :
    Literal (escapeString value ++ ("::".toList ++ type)) := by
  intro rest hrest
  rw [append_assoc, append_assoc]
  exact lexable_escapeString (head?_colons_ne _) (lexable_cast htype hrest)

theorem literal_bool (b : Bool) : Literal (encodeBoolLiteral b []) := by
  cases b with
  | false => exact literal_word (by decide)
  | true => exact literal_word (by decide)

theorem literal_special {word : Text}
    (hword : closingLength '\'' .plain (word ++ ['\'']) = some (word ++ ['\'']).length) :
    Literal ('\'' :: (word ++ "'::double precision".toList)) := by
  intro rest hrest
  have hquote : '\'' ≠ '\\' := by decide
  have hclose := (@closingLength_append _ .plain hquote
    (word ++ ['\'']) ("::double precision".toList ++ rest)).2
    ⟨hword, fun _ => head?_colons_ne _⟩
  have hread := @Reads.quoted .other plainOpening _ _ (by decide) hclose
  have htext : '\'' :: (word ++ "'::double precision".toList) ++ rest =
      '\'' :: (word ++ ['\'']) ++ ("::double precision".toList ++ rest) := by
    rw [cons_append, cons_append, append_assoc, append_assoc]
    rfl
  rw [htext]
  exact lexable_append hread (lexable_doublePrecision hrest)

theorem literal_f64 (x : Float64) : Literal (encodeF64Literal x []) := by
  cases x with
  | nan => exact @literal_special "NaN".toList (by decide)
  | infinite negative =>
      cases negative with
      | false => exact @literal_special "Infinity".toList (by decide)
      | true => exact @literal_special "-Infinity".toList (by decide)
  | finite negative x =>
      intro rest hrest
      have htext : encodeF64Literal (.finite negative x) [] ++ rest =
          (if negative then ['-'] else []) ++
            (magnitudeText x ++ ("::double precision".toList ++ rest)) := by
        rw [encodeF64Literal, nil_append, append_assoc, append_assoc]
      rw [htext]
      exact lexable_signed negative (numeral_magnitudeText x)
        (stops_symbol (by decide)) (lexable_doublePrecision hrest)

theorem literal_bytea (bytes : ByteCodecs.Bytes) : Literal (encodeByteaLiteral bytes []) := by
  rw [encodeByteaLiteral_eq, nil_append]
  exact literal_cast _ (by decide)

end Scalars

section Arrays

variable {texts : List Text} {type rest : Text}

theorem behind_elements (h : ∀ text ∈ texts, Literal text) (hrest : Lexable .other rest) :
    Behind (texts.flatMap (',' :: ·) ++ ']' :: rest) := by
  induction texts with
  | nil => exact behind_cons (by decide) hrest
  | cons text texts ih =>
      obtain ⟨hfirst, htexts⟩ := forall_mem_cons.1 h
      rw [flatMap_cons, append_assoc]
      exact behind_cons (by decide) (hfirst _ (ih htexts))

theorem lexable_separated (h : ∀ text ∈ texts, Literal text) (hrest : Lexable .other rest) :
    Lexable .other (separated texts ++ ']' :: rest) := by
  cases texts with
  | nil => exact lexable_symbol (by decide) hrest
  | cons text texts =>
      obtain ⟨hfirst, htexts⟩ := forall_mem_cons.1 h
      rw [separated, append_assoc]
      exact hfirst _ (behind_elements htexts hrest)

theorem literal_array (h : ∀ text ∈ texts, Literal text) (htype : isWord type) :
    Literal ("ARRAY[".toList ++ (separated texts ++ ("]::".toList ++ (type ++ "[]".toList)))) := by
  intro rest hrest
  have hbrackets : Lexable .other ("[]".toList ++ rest) :=
    lexable_symbol (by decide) (lexable_symbol (by decide) (hrest.lexable .other))
  have hcast : Lexable .other ("::".toList ++ (type ++ ("[]".toList ++ rest))) :=
    lexable_colons (@lexable_word _ type ('[' :: (']' :: rest))
      htype (fun d hd => Option.some.inj hd ▸ by decide) hbrackets)
  have helements := @lexable_symbol .other '[' _ (by decide) (lexable_separated h hcast)
  have hword := @lexable_word .other "ARRAY".toList
    ('[' :: (separated texts ++ ']' :: ("::".toList ++ (type ++ ("[]".toList ++ rest))))) (by decide)
    (fun d hd => Option.some.inj hd ▸ by decide) helements
  simpa using hword

end Arrays

section Values

variable {OffsetDateTime Date Value Uuid α : Type} {formats : Formats OffsetDateTime Date Value Uuid}
  {value : PortableValue OffsetDateTime Date Value Uuid} {out sql type text : Text}

/-- A text that begins neither with a space nor with a placeholder. -/
def Begins (text : Text) : Prop := ∃ c tail, text = c :: tail ∧ isSpace c = false ∧ c ≠ '$'

theorem begins_f64 (x : Float64) : Begins (encodeF64Literal x []) := by
  cases x with
  | nan => exact ⟨_, _, rfl, by decide, by decide⟩
  | infinite negative =>
      cases negative with
      | false => exact ⟨_, _, rfl, by decide, by decide⟩
      | true => exact ⟨_, _, rfl, by decide, by decide⟩
  | finite negative x =>
      cases negative with
      | false =>
          obtain ⟨d, tail, htext, hd⟩ := exists_digit_of_numeral (numeral_magnitudeText x)
          refine ⟨d, tail ++ "::double precision".toList, ?_, (digit_classes hd).1, ?_⟩
          · rw [encodeF64Literal, htext]
            rfl
          · rintro rfl
            exact absurd hd (by decide)
      | true => exact ⟨'-', _, rfl, by decide, by decide⟩

theorem encodeTextLiteral_eq_ok {value : Text} (h : encodeTextLiteral value out = .ok sql) :
    sql = out ++ escapeString value := by
  by_cases hnul : nul ∈ value
  · rw [encodeTextLiteral_of_mem hnul] at h
    cases h
  · rw [encodeTextLiteral_of_not_mem hnul] at h
    exact (Except.ok.inj h).symm

/-- What an encoder pushes is a literal. -/
def Pushes (out sql : Text) : Prop := ∃ text, sql = out ++ text ∧ Literal text ∧ Begins text

theorem pushes_text {value : Text} (h : encodeTextLiteral value out = .ok sql) : Pushes out sql :=
  ⟨_, encodeTextLiteral_eq_ok h, literal_escapeString value, ⟨'E', _, rfl, by decide, by decide⟩⟩

theorem pushes_cast {formatted : Text} (htype : isWord type)
    (h : (do let out ← encodeTextLiteral formatted out; return out ++ ("::".toList ++ type)) = .ok sql) :
    Pushes out sql := by
  obtain ⟨text, htext, heq⟩ := bind_eq_ok.1 h
  obtain rfl := Except.ok.inj heq
  rw [encodeTextLiteral_eq_ok htext, append_assoc]
  exact ⟨_, rfl, literal_cast formatted htype, ⟨'E', _, rfl, by decide, by decide⟩⟩

theorem pushes_formatted {formatted : Option Text} {message : String} (htype : isWord type)
    (h : encodeFormatted formatted message ("::".toList ++ type) out = .ok sql) : Pushes out sql := by
  cases formatted with
  | none => cases h
  | some formatted => exact pushes_cast htype h

variable {encodeElement : α → Text → Except DbError Text} {elements : List α}

theorem exists_texts (h : ∀ element out sql, encodeElement element out = .ok sql → Pushes out sql)
    (index : Nat)
    (hsql : encodeEach encodeElement elements (index + 1) out = .ok sql) :
    ∃ texts : List Text, sql = out ++ texts.flatMap (',' :: ·) ∧ ∀ text ∈ texts, Literal text := by
  induction elements generalizing index out with
  | nil => exact ⟨[], by rw [flatMap_nil, append_nil]; exact (Except.ok.inj hsql).symm, nofun⟩
  | cons element elements ih =>
      rw [encodeEach, if_pos (Nat.succ_pos index)] at hsql
      obtain ⟨next, hnext, hsql⟩ := bind_eq_ok.1 hsql
      obtain ⟨text, rfl, htext, -⟩ := h element _ _ hnext
      obtain ⟨texts, rfl, htexts⟩ := ih (index + 1) hsql
      refine ⟨text :: texts, ?_, forall_mem_cons.2 ⟨htext, htexts⟩⟩
      rw [flatMap_cons, append_assoc, append_assoc]
      rfl

theorem pushes_array (h : ∀ element out sql, encodeElement element out = .ok sql → Pushes out sql)
    (htype : isWord type)
    (hsql : encodeArrayLiteral elements (type ++ "[]".toList) encodeElement out = .ok sql) :
    Pushes out sql := by
  obtain ⟨next, hnext, heq⟩ := bind_eq_ok.1 hsql
  obtain rfl := Except.ok.inj heq
  have htexts : ∃ texts, next = out ++ "ARRAY[".toList ++ separated texts ∧
    ∀ text ∈ texts, Literal text := by
    cases elements with
    | nil => exact ⟨[], by rw [separated, append_nil]; exact (Except.ok.inj hnext).symm, nofun⟩
    | cons element elements =>
        rw [encodeEach, if_neg (Nat.lt_irrefl 0)] at hnext
        obtain ⟨first, hfirst, hnext⟩ := bind_eq_ok.1 hnext
        obtain ⟨text, rfl, htext, -⟩ := h element _ _ hfirst
        obtain ⟨texts, rfl, htexts⟩ := exists_texts h 0 hnext
        exact ⟨text :: texts, append_assoc _ _ _, forall_mem_cons.2 ⟨htext, htexts⟩⟩
  obtain ⟨texts, rfl, hall⟩ := htexts
  refine ⟨_, ?_, literal_array hall htype, ⟨'A', _, rfl, by decide, by decide⟩⟩
  simp only [append_assoc]

/-- Whatever value is bound, what it is encoded to is a literal. -/
theorem pushes_value (h : encodePortableQueryLiteral formats value out = .ok sql) : Pushes out sql := by
  induction value with
  | bool value =>
      obtain rfl := Except.ok.inj h
      cases value with
      | false => exact ⟨_, rfl, literal_bool false, ⟨_, _, rfl, by decide, by decide⟩⟩
      | true => exact ⟨_, rfl, literal_bool true, ⟨_, _, rfl, by decide, by decide⟩⟩
  | i16 value => exact ⟨_, (Except.ok.inj h).symm,
      literal_integer .smallint _, ⟨'(', _, rfl, by decide, by decide⟩⟩
  | i32 value => exact ⟨_, (Except.ok.inj h).symm,
      literal_integer .integer _, ⟨'(', _, rfl, by decide, by decide⟩⟩
  | i64 value => exact ⟨_, (Except.ok.inj h).symm,
      literal_integer .bigint _, ⟨'(', _, rfl, by decide, by decide⟩⟩
  | f64 value =>
      obtain rfl := Except.ok.inj h
      exact ⟨_, encodeF64Literal_append value out, literal_f64 value, begins_f64 value⟩
  | offsetDateTime value => exact @pushes_formatted _ _ "timestamptz".toList _ _ (by decide) h
  | date value => exact @pushes_formatted _ _ "date".toList _ _ (by decide) h
  | json value => exact @pushes_formatted _ _ "jsonb".toList _ _ (by decide) h
  | uuid value => exact @pushes_cast _ _ "uuid".toList _ (by decide) h
  | str value => exact pushes_text h
  | bytes value =>
      obtain rfl := Except.ok.inj h
      exact ⟨_, rfl, literal_bytea value, ⟨'E', _, rfl, by decide, by decide⟩⟩
  | none => exact ⟨_, (Except.ok.inj h).symm,
      literal_word (by decide), ⟨'N', _, rfl, by decide, by decide⟩⟩
  | some value ih => exact ih h
  | strings elements =>
      exact @pushes_array _ _ _ "text".toList _ _ (fun _ _ _ => pushes_text) (by decide) h
  | byteStrings elements =>
      refine @pushes_array _ _ _ "bytea".toList _ _ (fun value _ _ h => ?_) (by decide) h
      exact ⟨_, (Except.ok.inj h).symm, literal_bytea value, ⟨'E', _, rfl, by decide, by decide⟩⟩
  | i64s elements =>
      refine @pushes_array _ _ _ "bigint".toList _ _ (fun value _ _ h => ?_) (by decide) h
      exact ⟨_, (Except.ok.inj h).symm, literal_integer .bigint _, ⟨'(', _, rfl, by decide, by decide⟩⟩

end Values

end Paranoid.LiteralLexemes

import Mathlib.Data.List.DropRight
import Mathlib.Data.List.Infix
import Paranoid.SqlScan

namespace Paranoid.SqlSeams

open List SqlLexemes SqlScan
open Utf8Text (Text)

section Clinging

def isIntegral (c : Char) : Bool := c.isDigit || c = '_'

/-- Whether a number that is read up to `tail` is read otherwise with `rest` behind it. -/
def clingsNumber (integral : Bool) (tail rest : Text) : Bool :=
  rest.head?.any joinsNumber ||
    (rest.head? = some '.' && (tail.getLast? = some '.' ||
      (integral && tail.all isIntegral && rest.tail.head? ≠ some '.')))

def clingsSymbol (symbol rest : Text) : Bool :=
  (symbol = [':'] && (rest.head? = some ':' || rest.head? = some '=')) ||
    (symbol = ['.'] && (rest.head? = some '.' || rest.head?.any Char.isDigit))

/-- Whether a lexeme is read otherwise once `rest` stands behind it. -/
def clings (lexeme : Lexeme) (rest : Text) : Bool :=
  match lexeme.kind with
  | .space | .blockComment | .dollarString => false
  | .lineComment => rest.head?.any fun c => !isNewline c
  | .string style | .continued style => style ≠ .bits && rest.head? = some '\''
  | .quotedIdentifier => rest.head? = some '"'
  | .identifier => rest.head?.any isIdentifierPart || (opening (lexeme.text ++ rest)).isSome
  | .number => clingsNumber true lexeme.text rest
  | .parameter => rest.head?.any joinsNumber
  | .operator => operatorOf (lexeme.text ++ rest) ≠ lexeme.text
  | .symbol => clingsSymbol lexeme.text rest

end Clinging

section Operators

variable {u run rest text : Text}

theorem beforeComment_of_starts : ∀ {u run : Text}, u <+: beforeComment (u ++ run) → beforeComment u = u
  | [], _, _ => rfl
  | [_], _, _ => rfl
  | c :: d :: u, run, h => by
      rw [cons_append, cons_append, beforeComment] at h
      split_ifs at h with hcomment
      · cases prefix_nil.1 h
      · rw [beforeComment, if_neg hcomment, beforeComment_of_starts ((prefix_cons_inj c).1 h)]

theorem trimSigns_of_append (h : trimSigns (u ++ run) = u) : trimSigns u = u := by
  rw [trimSigns] at h
  split_ifs at h with hkeeps
  · rw [append_right_eq_self.1 h, append_nil] at hkeeps
    rw [trimSigns, if_pos hkeeps]
  · by_cases hrun : run = []
    · rw [hrun, append_nil] at hkeeps h
      rw [trimSigns, if_neg hkeeps]
      exact h
    · have hnot : ¬u.dropLast.any keepsSign := by
        refine fun hany => hkeeps ?_
        rw [dropLast_append_of_ne_nil hrun]
        obtain ⟨c, hc, hkeep⟩ := any_eq_true.1 hany
        exact any_eq_true.2 ⟨c, mem_append_left _ (mem_of_mem_dropLast hc), hkeep⟩
      rw [trimSigns, if_neg hnot]
      cases u with
      | nil => rfl
      | cons c u =>
          have htail : ((u ++ run).reverse.dropWhile fun c => c = '+' || c = '-').reverse = u :=
            (cons.inj h).2
          have hidem : (u.reverse.dropWhile fun c => c = '+' || c = '-') = u.reverse := by
            rw [← htail, reverse_reverse, dropWhile_idempotent]
          change c :: (u.reverse.dropWhile fun c => c = '+' || c = '-').reverse = c :: u
          rw [hidem, reverse_reverse]

theorem operatorOf_of_append (h : operatorOf (u ++ rest) = u) : operatorOf u = u := by
  obtain ⟨run, hrun⟩ : u <+: (u ++ rest).takeWhile isOperator := by
    have hle := (prefix_trimSigns (beforeComment ((u ++ rest).takeWhile isOperator))).trans
      (prefix_beforeComment _)
    rwa [← operatorOf, h] at hle
  have hall : ∀ c ∈ u, isOperator c := fun c hc =>
    mem_takeWhile_imp (hrun ▸ mem_append_left run hc : c ∈ (u ++ rest).takeWhile isOperator)
  have hself : u.takeWhile isOperator = u := takeWhile_eq_self_iff.2 hall
  rw [operatorOf, ← hrun] at h
  obtain ⟨behind, hbehind⟩ : u <+: beforeComment (u ++ run) := by
    have hle := prefix_trimSigns (beforeComment (u ++ run))
    rwa [h] at hle
  rw [operatorOf, hself, beforeComment_of_starts ⟨behind, hbehind⟩]
  rw [← hbehind] at h
  exact trimSigns_of_append h

end Operators

section Numbers

variable {state next : NumberState} {c : Char} {tail rest : Text}

/-- The states of a number that has digits only, so far. -/
def integralState : NumberState → Bool
  | .zero | .digits .integer | .separator .integer | .radix .integer => true
  | _ => false

theorem digits_isIntegral {part : NumberPart} (h : part.isDigit c) :
    integralState (.digits part) = (part = .integer && isIntegral c) := by
  cases part with
  | integer => exact (congrArg (· || decide (c = '_')) h).symm
  | _ => rfl

theorem afterDigit_isIntegral {part : NumberPart} (h : afterDigit part c = some next) :
    integralState next = (part = .integer && isIntegral c) := by
  rw [afterDigit] at h
  split_ifs at h with hdigit hseparator hpoint hletter
  · cases h
    exact digits_isIntegral hdigit
  · cases h
    subst hseparator
    cases part <;> rfl
  · cases h
    obtain ⟨rfl, rfl⟩ := hpoint
    rfl
  · cases h
    obtain ⟨rfl | rfl, rfl | rfl⟩ := hletter <;> rfl

/-- A number has digits only as long as nothing else is read. -/
theorem step_isIntegral (h : state.step c = some next) :
    integralState next = (integralState state && isIntegral c) := by
  cases state with
  | zero =>
      rw [NumberState.step] at h
      split_ifs at h with hx ho hb
      · cases h
        rcases hx with rfl | rfl <;> rfl
      · cases h
        rcases ho with rfl | rfl <;> rfl
      · cases h
        rcases hb with rfl | rfl <;> rfl
      · exact afterDigit_isIntegral h
  | digits part =>
      refine (afterDigit_isIntegral h).trans ?_
      cases part <;> rfl
  | separator part =>
      rw [NumberState.step] at h
      split_ifs at h with hdigit
      cases h
      refine (digits_isIntegral hdigit).trans ?_
      cases part <;> rfl
  | radix part =>
      rw [NumberState.step] at h
      split_ifs at h with hdigit hseparator
      · cases h
        refine (digits_isIntegral hdigit).trans ?_
        cases part <;> rfl
      · cases h
        subst hseparator
        cases part <;> rfl
  | _ =>
      rw [NumberState.step] at h
      split_ifs at h <;> cases h <;> rfl

/-- Only a number that has digits only goes on with a point. -/
theorem step_point (hstate : state.accepts) :
    state.step '.' = if integralState state then some .point else none := by
  cases state with
  | zero => rfl
  | digits part => cases part <;> rfl
  | point => rfl
  | _ => cases hstate

theorem afterDigit_point {part : NumberPart} (h : afterDigit part c = some .point) :
    c = '.' ∧ part = .integer := by
  rw [afterDigit] at h
  split_ifs at h with hdigit hseparator hpoint hletter
  · cases h
  · cases h
  · exact hpoint
  · cases h

theorem accepts_of_step_point (h : state.step c = some .point) : c = '.' ∧ state.accepts := by
  cases state with
  | zero =>
      rw [NumberState.step] at h
      split_ifs at h with hx ho hb
      · cases h
      · cases h
      · cases h
      · exact ⟨(afterDigit_point h).1, rfl⟩
  | digits part => exact ⟨(afterDigit_point h).1, rfl⟩
  | _ =>
      rw [NumberState.step] at h
      split_ifs at h <;> cases h

theorem joinsNumber_of_isDigit {part : NumberPart} (h : part.isDigit c) : joinsNumber c := by
  have hdigit (hc : c.isDigit) : joinsNumber c := by
    rw [joinsNumber, hc, Bool.or_true]
  have hletter : ∀ d ∈ "abcdefABCDEF01234567".toList, joinsNumber d := forall_of_all (by decide)
  cases part with
  | hexadecimal =>
      rw [NumberPart.isDigit, Bool.or_eq_true, decide_eq_true_eq] at h
      rcases h with h | h
      · exact hdigit h
      · exact hletter c (mem_append_left "01234567".toList h)
  | octal => exact hletter c (mem_append_right "abcdefABCDEF".toList (of_decide_eq_true h))
  | binary =>
      have hbinary : ∀ d ∈ "01".toList, joinsNumber d := forall_of_all (by decide)
      exact hbinary c (of_decide_eq_true h)
  | integer => exact hdigit h
  | fraction => exact hdigit h
  | exponent => exact hdigit h

theorem joinsNumber_of_afterDigit {part : NumberPart}
    (h : afterDigit part c = some next) (hc : c ≠ '.') :
    joinsNumber c := by
  rw [afterDigit] at h
  split_ifs at h with hdigit hseparator hpoint hletter
  · exact joinsNumber_of_isDigit hdigit
  · rw [hseparator]
    decide
  · exact absurd hpoint.1 hc
  · rcases hletter.1 with rfl | rfl <;> decide

/-- What goes on with a number can not stand behind it either, unless it is a point. -/
theorem joinsNumber_of_step (hstate : state.accepts) (h : state.step c = some next) (hc : c ≠ '.') :
    joinsNumber c := by
  cases state with
  | zero =>
      rw [NumberState.step] at h
      split_ifs at h with hx ho hb
      · rcases hx with rfl | rfl <;> decide
      · rcases ho with rfl | rfl <;> decide
      · rcases hb with rfl | rfl <;> decide
      · exact joinsNumber_of_afterDigit h hc
  | digits part => exact joinsNumber_of_afterDigit h hc
  | point =>
      rw [NumberState.step] at h
      split_ifs at h with hdigit hletter
      · exact @joinsNumber_of_isDigit _ .integer hdigit
      · rcases hletter with rfl | rfl <;> decide
  | _ => cases hstate

theorem clingsNumber_eq_false {integral : Bool} : clingsNumber integral tail rest = false ↔
    rest.head?.any joinsNumber = false ∧ (rest.head? = some '.' → tail.getLast? ≠ some '.' ∧
      (integral → tail.all isIntegral → rest.tail.head? = some '.')) := by
  rw [clingsNumber, Bool.or_eq_false_iff, Bool.and_eq_false_imp,
    decide_eq_true_eq, Bool.or_eq_false_iff,
    decide_eq_false_iff_not, Bool.and_eq_false_imp,
      Bool.and_eq_true, and_imp, decide_eq_false_iff_not, not_not]

theorem step_eq_point (h : state.step '.' = some next) : next = .point ∧ integralState state := by
  cases hstate : state.accepts with
  | true =>
      rw [step_point hstate] at h
      split_ifs at h with hintegral
      exact ⟨(Option.some.inj h).symm, hintegral⟩
  | false =>
      cases state with
      | separator part => cases part <;> cases h
      | radix part => cases part <;> cases h
      | letter => cases h
      | sign => cases h
      | _ => cases hstate

theorem numberLength_stop : numberLength state rest = some 0 ↔
    state.accepts ∧ clingsNumber (integralState state) [] rest = false := by
  cases rest with
  | nil =>
      rw [numberLength]
      cases hstate : state.accepts with
      | false => simp
      | true =>
          refine iff_of_true rfl ⟨rfl, clingsNumber_eq_false.2 ⟨rfl, fun hhead => ?_⟩⟩
          cases hhead
  | cons c rest =>
      rw [numberLength]
      cases hstep : state.step c with
      | none =>
          cases hstate : state.accepts with
          | false => simp
          | true =>
              have hpoint : c = '.' → integralState state → rest.head? = some '.' := by
                rintro rfl hintegral
                rw [step_point hstate, if_pos hintegral] at hstep
                cases hstep
              have hclings : clingsNumber (integralState state) [] (c :: rest) = false ↔
                joinsNumber c = false := by
                rw [clingsNumber_eq_false]
                refine and_iff_left fun hhead => ⟨(Option.some_ne_none _).symm, fun hintegral _ => ?_⟩
                exact hpoint (Option.some.inj hhead) hintegral
              rw [hclings]
              simp
      | some next =>
          dsimp only
          by_cases hc : c = '.'
          · subst hc
            obtain ⟨rfl, hintegral⟩ := step_eq_point hstep
            have hjoins : joinsNumber '.' = false := by decide
            have hstate := (accepts_of_step_point hstep).2
            by_cases hdots : rest.head? = some '.'
            · rw [if_pos ⟨rfl, hdots⟩]
              refine iff_of_true rfl ⟨hstate, clingsNumber_eq_false.2 ⟨hjoins, fun _ => ?_⟩⟩
              exact ⟨(Option.some_ne_none _).symm, fun _ _ => hdots⟩
            · rw [if_neg fun h => hdots h.2]
              refine iff_of_false (by simp) fun h => hdots ?_
              exact ((clingsNumber_eq_false.1 h.2).2 rfl).2 hintegral rfl
          · rw [if_neg fun h => hc (accepts_of_step_point (h.1 ▸ hstep)).1]
            refine iff_of_false (by simp) ?_
            rintro ⟨hstate, h⟩
            have hjoins := (clingsNumber_eq_false.1 h).1
            rw [head?_cons, Option.any_some, joinsNumber_of_step hstate hstep hc] at hjoins
            cases hjoins

/-- Whether a number ends where it does is told by its own characters and the next two. -/
theorem numberLength_append : numberLength state (tail ++ rest) = some tail.length ↔
    numberLength state tail = some tail.length ∧
      clingsNumber (integralState state) tail rest = false := by
  induction tail generalizing state with
  | nil =>
      rw [nil_append, length_nil, numberLength_stop, numberLength_stop]
      exact and_congr_left fun _ => (and_iff_left rfl).symm
  | cons d tail ih =>
      rw [cons_append, numberLength, numberLength, length_cons]
      cases hstep : state.step d with
      | none =>
          dsimp only
          exact iff_of_false (by split_ifs <;> simp) (by split_ifs <;> simp)
      | some next =>
          dsimp only
          by_cases hdots : next = .point ∧ (tail ++ rest).head? = some '.'
          · rw [if_pos hdots]
            refine iff_of_false (by simp) ?_
            rintro ⟨h, hclings⟩
            obtain ⟨rfl, hhead⟩ := hdots
            cases tail with
            | nil =>
                have hlast := ((clingsNumber_eq_false.1 hclings).2 hhead).1
                exact hlast (congrArg some (accepts_of_step_point hstep).1)
            | cons e tail =>
                rw [if_pos ⟨rfl, hhead⟩] at h
                simp at h
          · have hown : ¬(next = .point ∧ tail.head? = some '.') := by
              rintro ⟨hpoint, hhead⟩
              refine hdots ⟨hpoint, ?_⟩
              rw [head?_append, hhead]
              rfl
            rw [if_neg hdots, if_neg hown, map_add_eq_some, map_add_eq_some, ih]
            refine and_congr_right fun _ => ?_
            rw [clingsNumber_eq_false, clingsNumber_eq_false,
              step_isIntegral hstep, all_cons, Bool.and_eq_true,
              Bool.and_eq_true]
            refine and_congr_right fun _ => forall_congr' fun hhead => and_congr ?_ ?_
            · cases tail with
              | nil =>
                  refine iff_of_true (Option.some_ne_none _).symm fun hlast => hdots ⟨?_, hhead⟩
                  rw [getLast?_singleton, Option.some_inj] at hlast
                  subst hlast
                  exact (step_eq_point hstep).1
              | cons e tail => rw [getLast?_cons_cons]
            · exact ⟨fun h hstate htail => h ⟨hstate, htail.1⟩ htail.2,
                fun h hd htail => h hd.1 ⟨hd.2, htail⟩⟩

theorem clingsNumber_start (hc : startsNumber c (tail ++ rest)) :
    clingsNumber true (c :: tail) rest = false ↔
      clingsNumber (integralState (startState c)) tail rest = false := by
  have hstart : (integralState (startState c) : Prop) ↔ isIntegral c := by
    rw [startsNumber, Bool.or_eq_true, Bool.and_eq_true, decide_eq_true_eq] at hc
    rcases hc with hc | ⟨rfl, -⟩
    · have hdigit : isIntegral c := by
        rw [isIntegral, hc]
        rfl
      have hpoint : c ≠ '.' := by
        rintro rfl
        exact absurd hc (by decide)
      refine iff_of_true ?_ hdigit
      rw [startState, if_neg hpoint]
      split_ifs <;> rfl
    · decide
  rw [clingsNumber_eq_false, clingsNumber_eq_false, all_cons, Bool.and_eq_true, hstart]
  refine and_congr_right fun _ => forall_congr' fun hhead => and_congr ?_ ?_
  · cases tail with
    | nil =>
        refine iff_of_true (fun hlast => ?_) (Option.some_ne_none _).symm
        rw [getLast?_singleton, Option.some_inj] at hlast
        rw [hlast, startsNumber, nil_append, hhead] at hc
        exact absurd hc (by decide)
    | cons e tail => rw [getLast?_cons_cons]
  · exact ⟨fun h hd htail => h rfl ⟨hd, htail⟩, fun h _ htail => h htail.1 htail.2⟩

theorem startsNumber_append (h : startsNumber c tail) : startsNumber c (tail ++ rest) := by
  rw [startsNumber, Bool.or_eq_true, Bool.and_eq_true, decide_eq_true_eq] at h ⊢
  refine h.imp_right (And.imp_right fun hhead => ?_)
  cases tail with
  | nil => cases hhead
  | cons d tail => exact hhead

theorem startsNumber_of_append (h : startsNumber c (tail ++ rest))
    (hclings : clingsNumber true (c :: tail) rest = false) : startsNumber c tail := by
  rw [startsNumber, Bool.or_eq_true, Bool.and_eq_true, decide_eq_true_eq] at h ⊢
  refine h.imp_right (And.imp_right fun hhead => ?_)
  cases tail with
  | nil =>
      have hjoins := (clingsNumber_eq_false.1 hclings).1
      rw [nil_append] at hhead
      cases hrest : rest.head? with
      | none =>
          rw [hrest] at hhead
          cases hhead
      | some d =>
          rw [hrest, Option.any_some] at hhead hjoins
          rw [joinsNumber, hhead, Bool.or_true] at hjoins
          cases hjoins
  | cons d tail => exact hhead

end Numbers

section Symbols

variable {c : Char} {tail rest : Text}

theorem any_head_eq_false {p : Char → Bool} :
    rest.head?.any p = false ↔ ∀ c ∈ rest.head?, p c = false := by
  cases rest with
  | nil => simp
  | cons c rest => simp

theorem symbolLength_cons : symbolLength (c :: rest) =
    if (c = ':' ∧ (rest.head? = some ':' ∨ rest.head? = some '=')) ∨
      (c = '.' ∧ rest.head? = some '.') then 2 else 1 := by
  refine if_congr ?_ rfl rfl
  rw [two_heads, two_heads, two_heads, ← or_assoc, ← and_or_left, @eq_comm _ ':', @eq_comm _ '.']

theorem symbol_append (hc : isSymbol c) :
    (startsNumber c (tail ++ rest) = false ∧ symbolLength (c :: (tail ++ rest)) = tail.length + 1) ↔
      (startsNumber c tail = false ∧ symbolLength (c :: tail) = tail.length + 1) ∧
        clingsSymbol (c :: tail) rest = false := by
  have hdigit : c.isDigit = false := (isSymbol_eq_true.1 hc).2.2.1
  rw [symbolLength_cons, symbolLength_cons, startsNumber,
    startsNumber, hdigit, Bool.false_or, Bool.false_or]
  cases tail with
  | nil =>
      have hone (p : Prop) [Decidable p] : (if p then 2 else 1) = ([] : Text).length + 1 ↔ ¬p := by
        split_ifs with hp
        · exact iff_of_false (by decide) (not_not_intro hp)
        · exact iff_of_true rfl hp
      rw [nil_append, hone, hone, clingsSymbol]
      simp only [Bool.and_eq_false_imp, Bool.or_eq_false_iff,
        decide_eq_true_eq, decide_eq_false_iff_not, not_or,
        not_and, cons.injEq, and_true, head?_nil, Option.any_none, implies_true, true_and, reduceCtorEq,
        not_false_eq_true]
      constructor
      · rintro ⟨hdigit, hcolon, hpoint⟩
        exact ⟨hcolon, fun h => ⟨hpoint h, hdigit h⟩⟩
      · rintro ⟨hcolon, hpoint⟩
        exact ⟨fun h => (hpoint h).2, hcolon, fun h => (hpoint h).1⟩
  | cons d tail =>
      have hclings : clingsSymbol (c :: d :: tail) rest = false := by simp [clingsSymbol]
      rw [cons_append, head?_cons, head?_cons, hclings]
      exact (and_iff_left rfl).symm

end Symbols

section Quotes

variable {after : After} {o : Opening} {u rest : Text}

theorem clings_quoted (ho : o ∈ openings) : clings ⟨o.kind after, u⟩ rest = false ↔
    (o.styleAfter after ≠ .bits → rest.head? ≠ some o.quote) := by
  have hquotes : ∀ o ∈ openings, (o.quote = '"' ∧ o.style = .plain) ∨ o.quote = '\'' := by decide
  have hstring (style : Style) : ((style ≠ .bits && rest.head? = some '\'' : Bool) = false) ↔
      (style ≠ .bits → rest.head? ≠ some '\'') := by
    rw [Bool.and_eq_false_imp, decide_eq_true_eq, decide_eq_false_iff_not]
  rcases hquotes o ho with ⟨hquote, hstyle⟩ | hquote
  · have hkind : o.kind after = .quotedIdentifier := if_pos hquote
    have hafter : o.styleAfter after = .plain := by
      rw [Opening.styleAfter, hkind]
      exact hstyle
    rw [hkind, hafter, hquote]
    exact decide_eq_false_iff_not.trans ⟨fun h _ => h, fun h => h (by decide)⟩
  · rw [Opening.styleAfter, hquote]
    have hkind : (∃ style, o.kind after = .continued style) ∨ o.kind after = .string o.style := by
      rw [Opening.kind.eq_def, hquote, if_neg (by decide)]
      split
      · exact .inl ⟨_, rfl⟩
      · exact .inr rfl
    rcases hkind with ⟨style, hkind⟩ | hkind
    · rw [hkind]
      exact hstring style
    · rw [hkind]
      exact hstring o.style

end Quotes

section Seams

variable {after : After} {kind : Kind} {u rest : Text}

theorem opening_none_of_append (h : opening (u ++ rest) = none) : opening u = none :=
  opening_eq_none.2 fun o ho hstarts => opening_eq_none.1 h o ho (hstarts.trans (prefix_append u rest))

theorem clings_identifier : clings ⟨.identifier, u⟩ rest = false ↔
    (∀ c ∈ rest.head?, isIdentifierPart c = false) ∧ opening (u ++ rest) = none := by
  rw [clings, Bool.or_eq_false_iff, any_head_eq_false,
    Option.isSome_eq_false_iff, Option.isNone_iff_eq_none]

/-- A lexeme is read in front of a text if and only if it is read alone, and the text does not change it. -/
theorem reads_append :
    Reads after kind u rest ↔ Reads after kind u [] ∧ clings ⟨kind, u⟩ rest = false := by
  constructor
  · intro h
    cases h with
    | @quoted o body _ ho h =>
        have hquote : ∀ o ∈ openings, o.quote ≠ '\\' := by decide
        obtain ⟨hown, hseam⟩ := (closingLength_append (hquote o ho) body rest).1 h
        exact ⟨.quoted ho (by rwa [append_nil]), (clings_quoted ho).2 hseam⟩
    | space hc => exact ⟨.space hc, rfl⟩
    | lineComment hbody hrest =>
        refine ⟨.lineComment hbody nofun, any_head_eq_false.2 fun c hc => ?_⟩
        rw [hrest c hc]
        rfl
    | blockComment h =>
        exact ⟨.blockComment (by rw [append_nil]; exact (blockCommentLength_append 1 _ rest).1 h), rfl⟩
    | @identifier c tail _ hc htail hrest hopening =>
        have hown : opening (c :: (tail ++ [])) = none := by
          rw [append_nil]
          exact @opening_none_of_append (c :: tail) _ hopening
        exact ⟨.identifier hc htail nofun hown, clings_identifier.2 ⟨hrest, hopening⟩⟩
    | @number c tail _ hc h =>
        obtain ⟨hown, hseam⟩ := numberLength_append.1 h
        have hclings := (clingsNumber_start hc).2 hseam
        refine ⟨.number ?_ ?_, hclings⟩
        · rw [append_nil]
          exact startsNumber_of_append hc hclings
        · rwa [append_nil]
    | parameter hne hdigits hrest => exact ⟨.parameter hne hdigits nofun, any_head_eq_false.2 hrest⟩
    | dollarString htag hstart h =>
        refine ⟨.dollarString htag hstart ?_, rfl⟩
        rw [append_nil]
        exact (delimitedLength_append (cons_ne_nil _ _) _ rest).1 h
    | operator hc h =>
        refine ⟨.operator hc ?_, decide_eq_false (not_not_intro h)⟩
        rw [append_nil]
        exact operatorOf_of_append h
    | symbol hc hnumber h =>
        obtain ⟨⟨hown, hlength⟩, hclings⟩ := (symbol_append hc).1 ⟨hnumber, h⟩
        exact ⟨.symbol hc (by rwa [append_nil]) (by rwa [append_nil]), hclings⟩
  · rintro ⟨h, hclings⟩
    cases h with
    | @quoted o body _ ho h =>
        have hquote : ∀ o ∈ openings, o.quote ≠ '\\' := by decide
        rw [append_nil] at h
        exact .quoted ho ((closingLength_append (hquote o ho) body rest).2 ⟨h,
          (clings_quoted ho).1 hclings⟩)
    | space hc => exact .space hc
    | lineComment hbody _ =>
        refine .lineComment hbody fun c hc => ?_
        exact (Bool.not_eq_false' _).mp (any_head_eq_false.1 hclings c hc)
    | blockComment h =>
        rw [append_nil] at h
        exact .blockComment ((blockCommentLength_append 1 _ rest).2 h)
    | identifier hc htail _ _ =>
        obtain ⟨hrest, hopening⟩ := clings_identifier.1 hclings
        exact .identifier hc htail hrest hopening
    | @number c tail _ hc h =>
        rw [append_nil] at hc h
        have hstarts := @startsNumber_append _ _ rest hc
        exact .number hstarts (numberLength_append.2 ⟨h, (clingsNumber_start hstarts).1 hclings⟩)
    | parameter hne hdigits _ => exact .parameter hne hdigits (any_head_eq_false.1 hclings)
    | dollarString htag hstart h =>
        rw [append_nil] at h
        exact .dollarString htag hstart ((delimitedLength_append (cons_ne_nil _ _) _ rest).2 h)
    | operator hc _ => exact .operator hc (not_not.1 (of_decide_eq_false hclings))
    | symbol hc hnumber h =>
        rw [append_nil] at hnumber h
        obtain ⟨hstarts, hlength⟩ := (symbol_append hc).2 ⟨⟨hnumber, h⟩, hclings⟩
        exact .symbol hc hstarts hlength

end Seams

end Paranoid.SqlSeams

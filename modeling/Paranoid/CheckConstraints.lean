import Mathlib.Algebra.Order.Ring.Int
import Mathlib.Data.Int.Basic
import Paranoid.MnemonicModel
import Paranoid.Parentheses
import Paranoid.SqlLexemes
import Paranoid.TemplateScanner

namespace Paranoid.CheckConstraints

open List MnemonicModel Parentheses
open TemplateScanner (Build)
open Utf8Text (Text)

section Model

variable (build : Build)

/-- Addition of an `i32`. -/
def addDepth (depth delta : Int) : Option Int :=
  if -2 ^ 31 ≤ depth + delta ∧ depth + delta < 2 ^ 31 then some (depth + delta)
  else match build with
    | .checked => none
    | .wrapping => some ((depth + delta).bmod (2 ^ 32))

/-- The loop over the characters of an expression that ends in a parenthesis. -/
def depthScan : Int → Text → Option Bool
  | depth, [] => some (depth = 0)
  | depth, c :: rest =>
      if c = '(' then (addDepth build depth 1).bind fun depth => depthScan depth rest
      else if c = ')' then
        (addDepth build depth (-1)).bind fun depth =>
          if depth = 0 ∧ rest ≠ [] then some false else depthScan depth rest
      else depthScan depth rest

def expressionHasSingleOuterParentheses (expression : Text) : Option Bool :=
  if expression.head? = some '(' ∧ expression.getLast? = some ')' then depthScan build 0 expression else some false

theorem ne_nil_of_outer {expression : Text}
    (h : expressionHasSingleOuterParentheses build expression = some true) :
    expression ≠ [] := by
  rintro rfl
  cases h

/-- `while expression_has_single_outer_parentheses` -/
def stripOuter (normalized : Text) : Option Text :=
  match h : expressionHasSingleOuterParentheses build normalized with
  | none => none
  | some false => some normalized
  | some true =>
      have : 0 < normalized.length := length_pos_of_ne_nil (ne_nil_of_outer build h)
      stripOuter (normalized.drop 1).dropLast
termination_by normalized.length
decreasing_by
  rw [length_dropLast, length_drop]
  omega

def normalizeCheckConstraintExpression (expression : Text) : Option Text :=
  stripOuter build (expression.filter fun character => !isWhitespace character)

end Model

section Strips

variable {build : Build} {text stripped : Text}

theorem stripOuter_of_false (h : expressionHasSingleOuterParentheses build text = some false) :
    stripOuter build text = some text := by
  rw [stripOuter]
  split
  next hnone =>
    rw [h] at hnone
    cases hnone
  next => rfl
  next htrue =>
    rw [h] at htrue
    cases htrue

theorem stripOuter_of_true (h : expressionHasSingleOuterParentheses build text = some true) :
    stripOuter build text = stripOuter build (text.drop 1).dropLast := by
  rw [stripOuter]
  split
  next hnone =>
    rw [h] at hnone
    cases hnone
  next hfalse =>
    rw [h] at hfalse
    cases hfalse
  next => rfl

/-- What is left is a part of the text, and has no more to strip. -/
theorem stripOuter_stripped (h : stripOuter build text = some stripped) :
    stripped <+ text ∧ expressionHasSingleOuterParentheses build stripped = some false := by
  fun_induction stripOuter with
  | case1 => cases h
  | case2 text hfalse =>
      cases h
      exact ⟨Sublist.refl _, hfalse⟩
  | case3 text htrue _ ih =>
      obtain ⟨hsub, hfalse⟩ := ih h
      exact ⟨hsub.trans ((dropLast_sublist _).trans (drop_sublist 1 text)), hfalse⟩

/-- Normalizing twice is normalizing once. -/
theorem normalize_idempotent {expression : Text}
    (h : normalizeCheckConstraintExpression build expression = some stripped) :
    normalizeCheckConstraintExpression build stripped = some stripped := by
  obtain ⟨hsub, hfalse⟩ := stripOuter_stripped h
  have hsolid : stripped.filter (fun character => !isWhitespace character) = stripped :=
    filter_eq_self.2 fun c hc => (mem_filter.1 (hsub.subset hc)).2
  rw [normalizeCheckConstraintExpression, hsolid, stripOuter_of_false hfalse]

end Strips

section Depth

variable {build : Build}

def isOpen (c : Char) : Bool := c = '('

def isClose (c : Char) : Bool := c = ')'

theorem addDepth_of_fits {depth delta : Int} (h : -2 ^ 31 ≤ depth + delta ∧ depth + delta < 2 ^ 31) :
    addDepth build depth delta = some (depth + delta) := if_pos h

theorem addDepth_open {depth : Nat} (h : depth + 2 < 2 ^ 31) :
    addDepth build (depth + 1 : Nat) 1 = some ((depth + 1 + 1 : Nat) : Int) := by
  rw [addDepth_of_fits (by omega), Nat.cast_add_one (depth + 1)]

theorem addDepth_close {depth : Nat} (h : depth + 2 < 2 ^ 31) :
    addDepth build (depth + 1 : Nat) (-1) = some (depth : Int) := by
  rw [addDepth_of_fits (by omega), Nat.cast_add_one, add_neg_cancel_right]

/-- As long as the depth fits, counting tells whether what is before the last parenthesis closes all it opens. -/
theorem depthScan_eq (text : Text) (depth : Nat) (hfits : depth + text.length + 2 < 2 ^ 31) :
    depthScan build (depth + 1 : Nat) (text ++ [')']) = some (balanced isOpen isClose depth text) := by
  induction text generalizing depth with
  | nil =>
      have hadd : addDepth build (depth + 1 : Nat) (-1) = some (depth : Int) := addDepth_close hfits
      rw [nil_append, depthScan, if_neg (by decide), if_pos rfl, hadd, Option.bind_some,
        if_neg (fun h => h.2 rfl), depthScan, balanced]
      exact congrArg some (decide_eq_decide.2 Int.natCast_eq_zero)
  | cons c text ih =>
      rw [length_cons] at hfits
      rw [cons_append, depthScan, balanced]
      by_cases hopen : c = '('
      · have hc : isOpen c := decide_eq_true hopen
        rw [if_pos hopen, if_pos hc,
          addDepth_open (by omega), Option.bind_some, ih (depth + 1) (by omega)]
      · have hc : ¬isOpen c := fun h => hopen (of_decide_eq_true h)
        rw [if_neg hopen, if_neg hc]
        by_cases hclose : c = ')'
        · have hd : isClose c := decide_eq_true hclose
          rw [if_pos hclose, if_pos hd, addDepth_close (by omega), Option.bind_some]
          cases depth with
          | zero => exact if_pos ⟨rfl, append_ne_nil_of_right_ne_nil text (cons_ne_nil ')' [])⟩
          | succ depth =>
              rw [if_neg (fun h => absurd h.1 (Int.natCast_ne_zero.2 (Nat.succ_ne_zero depth))),
                ih depth (by omega)]
              rfl
        · have hd : ¬isClose c := fun h => hclose (of_decide_eq_true h)
          rw [if_neg hclose, if_neg hd, ih depth (by omega)]

/-- A text with parentheses at both ends is scanned from behind the first of them. -/
theorem outer_eq (inner : Text) (hfits : inner.length + 2 < 2 ^ 31) :
    expressionHasSingleOuterParentheses build ('(' :: (inner ++ [')'])) =
      some (balanced isOpen isClose 0 inner) := by
  have hadd : addDepth build 0 1 = some ((0 + 1 : Nat) : Int) := addDepth_of_fits (by decide)
  have hlast : ('(' :: (inner ++ [')'])).getLast? = some ')' := by
    rw [← cons_append, getLast?_concat]
  rw [expressionHasSingleOuterParentheses, if_pos ⟨rfl, hlast⟩,
    depthScan, if_pos rfl, hadd, Option.bind_some]
  exact depthScan_eq inner 0 (by omega)

/-- Of any other text nothing is stripped. -/
theorem outer_or (text : Text) :
    (∃ inner, text = '(' :: (inner ++ [')'])) ∨
    expressionHasSingleOuterParentheses build text = some false := by
  by_cases h : text.head? = some '(' ∧ text.getLast? = some ')'
  · left
    obtain ⟨tail, rfl⟩ := head?_eq_some_iff.1 h.1
    obtain ⟨init, hinit⟩ := getLast?_eq_some_iff.1 h.2
    cases init with
    | nil => cases hinit
    | cons c init =>
        obtain ⟨-, rfl⟩ := cons.inj hinit
        exact ⟨init, rfl⟩
  · exact .inr (if_neg h)

end Depth

section Tokens

variable {build : Build} {ts inner : List Text}

def opensToken (t : Text) : Bool := t = ['(']

def closesToken (t : Text) : Bool := t = [')']

/-- A token that is a parenthesis or has none. -/
def Plain (t : Text) : Prop := t ≠ [] ∧ (t = ['('] ∨ t = [')'] ∨ ∀ c ∈ t, c ≠ '(' ∧ c ≠ ')')

theorem eq_of_open_mem {t : Text} (h : Plain t) (hmem : '(' ∈ t) : t = ['('] := by
  rcases h.2 with ht | rfl | hnone
  · exact ht
  · exact absurd hmem (by decide)
  · exact absurd rfl (hnone '(' hmem).1

theorem eq_of_close_mem {t : Text} (h : Plain t) (hmem : ')' ∈ t) : t = [')'] := by
  rcases h.2 with rfl | ht | hnone
  · exact absurd hmem (by decide)
  · exact ht
  · exact absurd rfl (hnone ')' hmem).2

/-- Parentheses are counted alike over tokens and over their characters. -/
theorem balanced_flatten (h : ∀ t ∈ ts, Plain t) (depth : Nat) :
    balanced isOpen isClose depth ts.flatten = balanced opensToken closesToken depth ts := by
  induction ts generalizing depth with
  | nil => rfl
  | cons t ts ih =>
      obtain ⟨⟨-, ht⟩, hts⟩ := forall_mem_cons.1 h
      rw [flatten_cons, balanced]
      rcases ht with rfl | rfl | hnone
      · exact ih hts (depth + 1)
      · exact congrArg (depth ≠ 0 && ·) (ih hts (depth - 1))
      · have hopens : opensToken t = false :=
          decide_eq_false fun ht => (hnone '(' (ht ▸ mem_singleton.2 rfl)).1 rfl
        have hcloses : closesToken t = false :=
          decide_eq_false fun ht => (hnone ')' (ht ▸ mem_singleton.2 rfl)).2 rfl
        have hskip : ∀ c ∈ t, isOpen c = false ∧ isClose c = false := fun c hc =>
          ⟨decide_eq_false (hnone c hc).1, decide_eq_false (hnone c hc).2⟩
        rw [balanced_skip hskip, ih hts, hopens, hcloses]
        rfl

/-- The text of tokens between matching parentheses is stripped of these. -/
theorem outer_of_encloses (h : ∀ t ∈ ts, Plain t) (hfits : ts.flatten.length < 2 ^ 30)
    (hencloses : Encloses opensToken closesToken ts inner) :
    expressionHasSingleOuterParentheses build ts.flatten = some true ∧
      (ts.flatten.drop 1).dropLast = inner.flatten := by
  obtain ⟨first, last, rfl, hfirst, hlast, hbalanced⟩ := hencloses
  obtain rfl : first = ['('] := of_decide_eq_true hfirst
  obtain rfl : last = [')'] := of_decide_eq_true hlast
  have hplain : ∀ t ∈ inner, Plain t := fun t ht => h t (mem_cons_of_mem _ (mem_append_left _ ht))
  have hflatten : ([('(' : Char)] :: (inner ++ [[')']])).flatten = '(' :: (inner.flatten ++ [')']) := by
    rw [flatten_cons, flatten_append]
    rfl
  rw [hflatten, length_cons, length_append, length_singleton] at hfits
  rw [hflatten, outer_eq _ (by omega), balanced_flatten hplain, hbalanced]
  refine ⟨rfl, ?_⟩
  rw [drop_one, tail_cons, dropLast_concat]

/-- Where the text of tokens is stripped, its first and last tokens are parentheses that match. -/
theorem encloses_of_outer (h : ∀ t ∈ ts, Plain t) (hfits : ts.flatten.length < 2 ^ 30)
    (houter : expressionHasSingleOuterParentheses build ts.flatten = some true) :
    ∃ inner, Encloses opensToken closesToken ts inner := by
  rcases @outer_or build ts.flatten with ⟨text, htext⟩ | hfalse
  · have hlength : text.length + 2 < 2 ^ 31 := by
      rw [htext, length_cons, length_append, length_singleton] at hfits
      omega
    rw [htext, outer_eq text hlength, Option.some.injEq] at houter
    cases ts with
    | nil => cases htext
    | cons first ts =>
        obtain ⟨hplain, hrest⟩ := forall_mem_cons.1 h
        have hfirst : first = ['('] := by
          obtain ⟨c, tail, rfl⟩ := exists_cons_of_ne_nil hplain.1
          obtain ⟨rfl, -⟩ := cons.inj htext
          exact eq_of_open_mem hplain mem_cons_self
        subst hfirst
        have htail : ts.flatten = text ++ [')'] := (cons.inj htext).2
        rcases eq_nil_or_concat' ts with rfl | ⟨init, last, rfl⟩
        · exact absurd htail.symm (append_ne_nil_of_right_ne_nil text (cons_ne_nil ')' []))
        · have hlastPlain : Plain last := hrest last (mem_append_right _ mem_cons_self)
          rw [flatten_append, flatten_singleton] at htail
          have hend : (init.flatten ++ last).getLast? = some ')' := by rw [htail, getLast?_concat]
          rw [getLast?_append_of_ne_nil _ hlastPlain.1] at hend
          have hlast : last = [')'] := eq_of_close_mem hlastPlain (mem_of_getLast? hend)
          subst hlast
          have hinit : init.flatten = text := append_cancel_right htail
          refine ⟨init, ['('], [')'], rfl, rfl, rfl, ?_⟩
          rw [← balanced_flatten fun t ht => hrest t (mem_append_left _ ht), hinit, houter]
  · rw [hfalse] at houter
    cases houter

theorem length_flatten_inner (h : Encloses opensToken closesToken ts inner) :
    inner.flatten.length < ts.flatten.length := by
  obtain ⟨first, last, rfl, hfirst, -, -⟩ := h
  obtain rfl : first = ['('] := of_decide_eq_true hfirst
  rw [flatten_cons, flatten_append, length_append, length_append, length_singleton]
  omega

/-- Stripping the text of tokens strips the tokens, until no matching pair is around them. -/
theorem stripOuter_flatten (h : ∀ t ∈ ts, Plain t) (hfits : ts.flatten.length < 2 ^ 30) :
    ∃ xs, Unwraps opensToken closesToken ts xs ∧ Bare opensToken closesToken xs ∧
      stripOuter build ts.flatten = some xs.flatten := by
  induction hlength : ts.flatten.length using Nat.strong_induction_on generalizing ts with
  | h n ih =>
      by_cases hencloses : ∃ inner, Encloses opensToken closesToken ts inner
      · obtain ⟨inner, hinner⟩ := hencloses
        obtain ⟨houter, hdrop⟩ := @outer_of_encloses build _ _ h hfits hinner
        have hshorter := length_flatten_inner hinner
        have hplain : ∀ t ∈ inner, Plain t := by
          obtain ⟨first, last, rfl, -⟩ := hinner
          exact fun t ht => h t (mem_cons_of_mem _ (mem_append_left _ ht))
        obtain ⟨xs, hunwraps, hbare, hstrip⟩ :=
          ih _ (hlength ▸ hshorter) hplain (hshorter.trans hfits) rfl
        refine ⟨xs, .strip hinner hunwraps, hbare, ?_⟩
        rw [stripOuter_of_true houter, hdrop, hstrip]
      · refine ⟨ts, .refl ts, fun inner hinner => hencloses ⟨inner, hinner⟩, stripOuter_of_false ?_⟩
        rcases @outer_or build ts.flatten with ⟨text, htext⟩ | hfalse
        · have hnot : expressionHasSingleOuterParentheses build ts.flatten ≠ some true := fun houter =>
            hencloses (encloses_of_outer h hfits houter)
          have hlength : text.length + 2 < 2 ^ 31 := by
            rw [htext, length_cons, length_append, length_singleton] at hfits
            omega
          rw [htext, outer_eq text hlength] at hnot ⊢
          cases hbalanced : balanced isOpen isClose 0 text with
          | false => rfl
          | true => exact absurd (congrArg some hbalanced) hnot
        · exact hfalse

end Tokens

section Expressions

variable {build : Build} {a b : Text} {ts us : List Text}

/-- The same tokens up to parentheses around the whole expression. -/
def SameTokens (a b : Text) : Prop :=
  ∃ ts us xs, SqlLexemes.tokens a = some ts ∧ SqlLexemes.tokens b = some us ∧
    Unwraps opensToken closesToken ts xs ∧ Unwraps opensToken closesToken us xs

/-- An expression, not longer than PostgreSQL lets a text be, with no comment in it and with whitespace and parentheses in no
token but the parentheses themselves. -/
structure PlainExpression (expression : Text) (ts : List Text) : Prop where
  tokens : SqlLexemes.tokens expression = some ts
  length_lt : expression.length < 2 ^ 30
  uncommented : (expression.filter fun c => !isWhitespace c) = ts.flatten.filter fun c =>
    !isWhitespace c
  solid : ∀ t ∈ ts, ∀ c ∈ t, isWhitespace c = false
  parentheses : ∀ t ∈ ts, t = ['('] ∨ t = [')'] ∨ ∀ c ∈ t, c ≠ '(' ∧ c ≠ ')'

namespace PlainExpression

/-- What makes an expression plain can be evaluated. -/
theorem of_all (tokens : SqlLexemes.tokens a = some ts) (length_lt : a.length < 2 ^ 30)
    (uncommented : (a.filter fun c => !isWhitespace c) = ts.flatten.filter fun c => !isWhitespace c)
    (solid : (ts.all fun t => t.all fun c => !isWhitespace c) = true)
    (parentheses : (ts.all fun t => t == ['('] || t == [')'] ||
      t.all fun c => c != '(' && c != ')') = true) :
    PlainExpression a ts where
  tokens := tokens
  length_lt := length_lt
  uncommented := uncommented
  solid := by
    intro t ht c hc
    have hall := all_eq_true.1 (all_eq_true.1 solid t ht) c hc
    rwa [Bool.not_eq_true'] at hall
  parentheses := by
    intro t ht
    have hall := all_eq_true.1 parentheses t ht
    rw [Bool.or_eq_true, Bool.or_eq_true, beq_iff_eq, beq_iff_eq, or_assoc] at hall
    refine hall.imp_right (Or.imp_right fun hclear c hc => ?_)
    have hc := all_eq_true.1 hclear c hc
    rwa [Bool.and_eq_true, bne_iff_ne, bne_iff_ne] at hc

theorem plain (h : PlainExpression a ts) : ∀ t ∈ ts, Plain t := fun t ht =>
  ⟨SqlLexemes.ne_nil_of_mem_tokens h.tokens t ht, h.parentheses t ht⟩

theorem filter_eq (h : PlainExpression a ts) : (a.filter fun c => !isWhitespace c) = ts.flatten := by
  rw [h.uncommented]
  refine filter_eq_self.2 fun c hc => ?_
  obtain ⟨t, ht, hct⟩ := mem_flatten.1 hc
  rw [h.solid t ht c hct]
  rfl

/-- A plain expression comes to its tokens, one directly behind another, out of all matching parentheses. -/
theorem normalize_eq (h : PlainExpression a ts) :
    ∃ xs, Unwraps opensToken closesToken ts xs ∧ Bare opensToken closesToken xs ∧
      normalizeCheckConstraintExpression build a = some xs.flatten := by
  have hfits : ts.flatten.length < 2 ^ 30 := by
    rw [← h.filter_eq]
    exact (length_filter_le _ _).trans_lt h.length_lt
  rw [normalizeCheckConstraintExpression, h.filter_eq]
  exact stripOuter_flatten h.plain hfits

end PlainExpression

/-- Of two plain expressions with one normal form the tokens make up the same text, out of the parentheses around the whole, and
are the same if they are still told apart without whitespace. All that is stripped are parentheses that match, and a normal form
is its own. -/
theorem normalize_compares_text (build : Build)
    (ha : PlainExpression a ts) (hb : PlainExpression b us) :
    (∃ xs, Unwraps opensToken closesToken ts xs ∧ Bare opensToken closesToken xs ∧
        normalizeCheckConstraintExpression build a = some xs.flatten) ∧
      (normalizeCheckConstraintExpression build a = normalizeCheckConstraintExpression build b →
        ∃ xs ys, Unwraps opensToken closesToken ts xs ∧
          Unwraps opensToken closesToken us ys ∧ xs.flatten = ys.flatten ∧
          (SqlLexemes.tokens xs.flatten = some xs →
            SqlLexemes.tokens ys.flatten = some ys → SameTokens a b)) ∧
      ∀ expression normalized, normalizeCheckConstraintExpression build expression = some normalized →
        normalizeCheckConstraintExpression build normalized = some normalized := by
  refine ⟨ha.normalize_eq, fun hsame => ?_, fun _ _ => normalize_idempotent⟩
  obtain ⟨xs, hxs, -, hnormalA⟩ := @PlainExpression.normalize_eq build _ _ ha
  obtain ⟨ys, hys, -, hnormalB⟩ := @PlainExpression.normalize_eq build _ _ hb
  rw [hnormalA, hnormalB, Option.some.injEq] at hsame
  refine ⟨xs, ys, hxs, hys, hsame, fun hreadA hreadB => ?_⟩
  rw [hsame, hreadB, Option.some.injEq] at hreadA
  exact ⟨ts, us, xs, ha.tokens, hb.tokens, hxs, hreadA ▸ hys⟩

theorem normalize_compares_text_pair :
    normalizeCheckConstraintExpression .checked "((fencing_token > 0))".toList =
        normalizeCheckConstraintExpression .checked "fencing_token>0".toList ∧
      SameTokens "((fencing_token > 0))".toList "fencing_token>0".toList := by
  have hsame : normalizeCheckConstraintExpression .checked "((fencing_token > 0))".toList =
      normalizeCheckConstraintExpression .checked "fencing_token>0".toList := by
    decide +kernel
  have hwrapped : PlainExpression "((fencing_token > 0))".toList
      (["(", "(", "fencing_token", ">", "0", ")", ")"].map String.toList) :=
    .of_all (by decide +kernel) (by decide) (by decide) (by decide) (by decide)
  have hbare : PlainExpression "fencing_token>0".toList (["fencing_token", ">", "0"].map String.toList) :=
    .of_all (by decide +kernel) (by decide) (by decide) (by decide) (by decide)
  obtain ⟨-, hcompares, -⟩ := normalize_compares_text .checked hwrapped hbare
  obtain ⟨xs, ys, hxs, hys, hflatten, hread⟩ := hcompares hsame
  obtain rfl := eq_of_unwraps_bare hys (bare_of_head (by decide))
  -- both layers have to go before the text is that of the other expression
  have htokens : ["fencing_token", ">", "0"].map String.toList = xs := by
    cases hxs with
    | refl => exact absurd hflatten (by decide)
    | strip houter hrest =>
        obtain rfl := tail_dropLast_of_encloses houter
        cases hrest with
        | refl => exact absurd hflatten (by decide)
        | strip hinner hrest =>
            obtain rfl := tail_dropLast_of_encloses hinner
            exact eq_of_unwraps_bare hrest (bare_of_head (by decide))
  subst htokens
  exact ⟨hsame, hread (by decide +kernel) (by decide +kernel)⟩

/-- Whitespace that only divides tokens is dropped, so that a negated column is taken for another column. -/
theorem normalize_joins_tokens :
    normalizeCheckConstraintExpression .checked "NOT x".toList =
        normalizeCheckConstraintExpression .checked "NOTx".toList ∧
      normalizeCheckConstraintExpression .wrapping "NOT x".toList =
        normalizeCheckConstraintExpression .wrapping "NOTx".toList ∧
      ¬SameTokens "NOT x".toList "NOTx".toList := by
  refine ⟨rfl, rfl, ?_⟩
  rintro ⟨ts, us, xs, hts, hus, hxs, hys⟩
  have htokens : SqlLexemes.tokens "NOT x".toList = some [['N', 'O', 'T'], ['x']] := by decide +kernel
  have hjoined : SqlLexemes.tokens "NOTx".toList = some [['N', 'O', 'T', 'x']] := by decide +kernel
  rw [htokens] at hts
  rw [hjoined] at hus
  cases hts
  cases hus
  have hfirst := eq_of_unwraps_bare hxs (bare_of_head (by decide))
  have hsecond := eq_of_unwraps_bare hys (bare_of_head (by decide))
  rw [← hfirst] at hsecond
  exact absurd hsecond (by decide)

end Expressions

end Paranoid.CheckConstraints

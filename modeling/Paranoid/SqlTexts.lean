import Paranoid.SqlSeams

namespace Paranoid.SqlTexts

open List SqlLexemes SqlScan SqlSeams
open Utf8Text (Text)

section Texts

variable {after : After} {kind : Kind} {text u rest : Text} {ls xs ys : List Lexeme} {x : Lexeme}

def textOf (ls : List Lexeme) : Text := ls.flatMap Lexeme.text

@[simp] theorem textOf_nil : textOf [] = [] := rfl

@[simp] theorem textOf_cons : textOf (x :: xs) = x.text ++ textOf xs := rfl

@[simp] theorem textOf_append : textOf (xs ++ ys) = textOf xs ++ textOf ys := flatMap_append

/-- Each lexeme is read in front of all that follow it. -/
def Lexes : After → List Lexeme → Prop
  | _, [] => True
  | after, x :: xs => Reads after x.kind x.text (textOf xs) ∧ Lexes (after.next x) xs

theorem ne_nil_of_reads (h : Reads after kind u rest) : u ≠ [] := by
  cases h with
  | quoted ho _ =>
      exact append_ne_nil_of_left_ne_nil (append_ne_nil_of_right_ne_nil _ (cons_ne_nil _ _)) _
  | _ => exact cons_ne_nil _ _

theorem lexemesWithin_nil {limit : Nat} :
    lexemesWithin limit after [] = some ls ↔ [] = textOf ls ∧ Lexes after ls := by
  have hnil : lexemesWithin limit after [] = some [] := by cases limit <;> rfl
  rw [hnil, Option.some_inj]
  constructor
  · rintro rfl
    exact ⟨rfl, trivial⟩
  · rintro ⟨htext, h⟩
    cases ls with
    | nil => rfl
    | cons x xs => exact absurd (append_eq_nil_iff.1 htext.symm).1 (ne_nil_of_reads h.1)

/-- The first lexeme is what is read first, and the others are those of what is left. -/
theorem lexemesWithin_succ {limit : Nat} (h : Reads after kind u rest) (htext : u ++ rest = text) :
    lexemesWithin (limit + 1) after text = some ls ↔
      ∃ xs, lexemesWithin limit (after.next ⟨kind, u⟩) rest = some xs ∧ ⟨kind, u⟩ :: xs = ls := by
  obtain ⟨c, tail, rfl⟩ := exists_cons_of_ne_nil (ne_nil_of_reads h)
  have hscan := scan_of_reads h
  subst htext
  rw [cons_append] at hscan ⊢
  rw [lexemesWithin, hscan]
  dsimp only [length_cons]
  rw [take_left, drop_left, Option.map_eq_some_iff]

theorem lexemesWithin_eq_some {limit : Nat} (hlimit : text.length ≤ limit) :
    lexemesWithin limit after text = some ls ↔ text = textOf ls ∧ Lexes after ls := by
  induction limit generalizing after text ls with
  | zero =>
      obtain rfl := length_eq_zero_iff.1 (Nat.le_zero.1 hlimit)
      exact lexemesWithin_nil
  | succ limit ih =>
      have hshorter {kind u rest} (h : Reads after kind u rest) (htext : u ++ rest = text) :
          rest.length ≤ limit := by
        have hpos := length_pos_of_ne_nil (ne_nil_of_reads h)
        rw [← htext, length_append] at hlimit
        omega
      constructor
      · intro h
        cases text with
        | nil => exact lexemesWithin_nil.1 h
        | cons c rest =>
            cases hscan : scan after (c :: rest) with
            | none =>
                rw [lexemesWithin, hscan] at h
                cases h
            | some found =>
                obtain ⟨u, behind, htext, -, hreads⟩ := reads_of_scan hscan
                obtain ⟨xs, hxs, rfl⟩ := (lexemesWithin_succ hreads htext.symm).1 h
                obtain ⟨rfl, hlexes⟩ := (ih (hshorter hreads htext.symm)).1 hxs
                exact ⟨htext, hreads, hlexes⟩
      · rintro ⟨htext, h⟩
        cases ls with
        | nil =>
            rw [htext]
            exact lexemesWithin_nil.2 ⟨rfl, trivial⟩
        | cons x xs =>
            have hxs := (ih (hshorter h.1 htext.symm)).2 ⟨rfl, h.2⟩
            exact (lexemesWithin_succ h.1 htext.symm).2 ⟨xs, hxs, rfl⟩

/-- A text has the lexemes it is made of, where each of them is read. -/
theorem lexemes_eq_some : lexemes text = some ls ↔ text = textOf ls ∧ Lexes .other ls :=
  lexemesWithin_eq_some le_rfl

end Texts

section Apart

variable {after before : After} {xs ys : List Lexeme} {x : Lexeme} {o : Opening}

def continues : After → Bool
  | .string _ true => true
  | _ => false

def isPlainString (lexeme : Lexeme) : Bool :=
  lexeme.kind = .string .plain && lexeme.text.head? = some '\''

/-- No lexeme is changed by what follows it, and no string continues the one before it. -/
def apart : After → List Lexeme → Bool
  | _, [] => true
  | after, x :: xs =>
      !clings x (textOf xs) && !(isPlainString x && continues after) && apart (after.next x) xs

def plainOpening : Opening := ⟨[], '\'', .plain⟩

/-- What is known of lexemes that were read somewhere: a continued string is one here too. -/
def Sound : After → List Lexeme → Prop
  | _, [] => True
  | after, x :: xs => (∃ before, Reads before x.kind x.text []) ∧
      (∀ style, x.kind = .continued style → after = .string style true) ∧ Sound (after.next x) xs

theorem kind_eq_of_ne (ho : o ∈ openings.tail) :
    o.kind after = o.kind before ∧ o.styleAfter after = o.styleAfter before := by
  simp only [openings, tail_cons, mem_cons, not_mem_nil, or_false] at ho
  rcases ho with rfl | rfl | rfl | rfl | rfl | rfl | rfl | rfl | rfl | rfl | rfl <;> exact ⟨rfl, rfl⟩

/-- A quote without a letter in front continues the string before it where it can. -/
theorem continued_of_reads {u : Text} {kind : Kind}
    {style : Style} (h : Reads (.string style true) kind u [])
    (hquote : u.head? = some '\'') : kind = .continued style := by
  obtain ⟨body, rfl⟩ := head?_eq_some_iff.1 hquote
  have hopening : opening ('\'' :: body ++ []) = some plainOpening :=
    opening_eq_some.2 ⟨by decide, ⟨body ++ [], rfl⟩⟩
  have hscan := scan_of_reads h
  rw [scan_opening hopening] at hscan
  obtain ⟨n, -, heq⟩ := Option.map_eq_some_iff.1 hscan
  exact (Prod.mk.inj heq).1.symm

/-- A plain string is read alone unless it continues the one before it. -/
theorem reads_plain {body : Text} (h : closingLength '\'' .plain (body ++ []) = some body.length) :
    Reads after (.string .plain) ('\'' :: body) [] ↔ continues after = false := by
  have hquoted (state : After) (hkind : plainOpening.kind state = .string .plain)
      (hstyle : plainOpening.styleAfter state = .plain) :
      Reads state (.string .plain) ('\'' :: body) [] := by
    rw [← hkind]
    exact @Reads.quoted state plainOpening body [] (by decide) (by rwa [hstyle])
  cases after with
  | other => exact iff_of_true (hquoted .other rfl rfl) rfl
  | string style newline =>
      cases newline with
      | false => exact iff_of_true (hquoted (.string style false) rfl rfl) rfl
      | true => exact iff_of_false (fun h => by cases continued_of_reads h rfl) Bool.noConfusion

theorem reads_iff_not_continues {kind : Kind} {u : Text} (hwhole : Reads before kind u [])
    (hcontinued : ∀ style, kind = .continued style → after = .string style true) :
    Reads after kind u [] ↔ (isPlainString ⟨kind, u⟩ && continues after) = false := by
  cases hwhole with
  | @quoted o body _ ho h =>
      rcases mem_cons.1 ho with rfl | htail
      · cases before with
        | other => exact reads_plain h
        | string style newline =>
            cases newline with
            | false => exact reads_plain h
            | true =>
                obtain rfl := hcontinued style rfl
                exact iff_of_true (.quoted ho h) rfl
      · obtain ⟨hkind, hstyle⟩ := @kind_eq_of_ne after before o htail
        have hheads : ∀ o ∈ openings.tail, o.text ≠ [] ∧ o.text.head? ≠ some '\'' := by decide
        have hplain : isPlainString ⟨o.kind before, o.text ++ body⟩ = false := by
          obtain ⟨hne, hhead⟩ := hheads o htail
          rw [isPlainString, head?_append_of_ne_nil _ hne, decide_eq_false hhead, Bool.and_false]
        rw [hplain, Bool.false_and, ← hkind]
        exact iff_of_true (.quoted ho (by rwa [hstyle])) rfl
  | space hc => exact iff_of_true (.space hc) rfl
  | lineComment hbody hrest => exact iff_of_true (.lineComment hbody hrest) rfl
  | blockComment h => exact iff_of_true (.blockComment h) rfl
  | identifier hc htail hrest hopening => exact iff_of_true (.identifier hc htail hrest hopening) rfl
  | number hc h => exact iff_of_true (.number hc h) rfl
  | parameter hne hdigits hrest => exact iff_of_true (.parameter hne hdigits hrest) rfl
  | dollarString htag hstart h => exact iff_of_true (.dollarString htag hstart h) rfl
  | operator hc h => exact iff_of_true (.operator hc h) rfl
  | symbol hc hnumber h => exact iff_of_true (.symbol hc hnumber h) rfl

/-- Lexemes that were read somewhere are read together if and only if they are apart. -/
theorem lexes_iff_apart (h : Sound after xs) : Lexes after xs ↔ apart after xs := by
  induction xs generalizing after with
  | nil => exact iff_of_true trivial rfl
  | cons x xs ih =>
      obtain ⟨⟨before, hwhole⟩, hcontinued, hrest⟩ := h
      rw [Lexes, apart, reads_append,
        reads_iff_not_continues hwhole hcontinued, ih hrest, Bool.and_eq_true,
        Bool.and_eq_true, Bool.not_eq_true', Bool.not_eq_true', and_comm (a := _ = false)]

/-- What may follow less was behind a value. -/
def Follows (after before : After) : Prop := before = .other ∨ after = before

theorem Follows.next (h : Follows after before) (x : Lexeme) :
    Follows (after.next x) (before.next x) := by
  rcases h with rfl | rfl
  · obtain ⟨kind, u⟩ := x
    cases kind with
    | string style => exact .inr rfl
    | continued style => exact .inr rfl
    | _ => exact .inl rfl
  · exact .inr rfl

theorem continues_of_continued {kind : Kind} {u : Text} {style : Style} (h : Reads before kind u [])
    (hkind : kind = .continued style) : before = .string style true := by
  cases h with
  | @quoted o body _ ho _ =>
      rw [Opening.kind.eq_def] at hkind
      split_ifs at hkind
      split at hkind
      · cases hkind
        rfl
      · cases hkind
  | _ => cases hkind

theorem Follows.continued {kind : Kind} {u : Text} {style : Style} (h : Follows after before)
    (hread : Reads before kind u []) (hkind : kind = .continued style) :
    after = .string style true := by
  obtain rfl := continues_of_continued hread hkind
  exact h.resolve_left After.noConfusion

theorem sound_of_lexes (h : Lexes before xs) (hfollows : Follows after before) : Sound after xs := by
  induction xs generalizing after before with
  | nil => trivial
  | cons x xs ih =>
      obtain ⟨hwhole, -⟩ := reads_append.1 h.1
      exact ⟨⟨before, hwhole⟩, fun _ => hfollows.continued hwhole, ih h.2 (hfollows.next x)⟩

theorem Sound.reads (h : Sound after xs) : ∀ x ∈ xs, ∃ before, Reads before x.kind x.text [] := by
  induction xs generalizing after with
  | nil => exact nofun
  | cons x xs ih => exact forall_mem_cons.2 ⟨h.1, ih h.2.2⟩

end Apart

section Visible

variable {after : After} {kind : Kind} {c d : Char}
  {s t u rest : Text} {x : Lexeme} {xs ys : List Lexeme}

/-- Two texts that are the same up to two characters, neither of them a space. -/
inductive Differ : Text → Text → Prop
  | here {c d : Char} {s t : Text} (hne : c ≠ d) (hc : isSpace c = false) (hd : isSpace d = false) :
      Differ (c :: s) (d :: t)
  | there {c : Char} {s t : Text} (h : Differ s t) : Differ (c :: s) (c :: t)

theorem Differ.ne (h : Differ s t) : s ≠ t := by
  induction h with
  | here hne _ _ => exact fun heq => hne (cons.inj heq).1
  | there _ ih => exact fun heq => ih (cons.inj heq).2

theorem Differ.append (h : Differ s t) (u : Text) : Differ (u ++ s) (u ++ t) := by
  induction u with
  | nil => exact h
  | cons c u ih => exact .there ih

def Near (s t : Text) : Prop := s = t ∨ Differ s t

theorem near_cons (h : Near (c :: s) (d :: t)) :
    (c = d ∧ Near s t) ∨ (isSpace c = false ∧ isSpace d = false) := by
  rcases h with h | h
  · obtain ⟨rfl, rfl⟩ := cons.inj h
    exact .inl ⟨rfl, .inl rfl⟩
  · cases h with
    | here _ hc hd => exact .inr ⟨hc, hd⟩
    | there h => exact .inl ⟨rfl, .inr h⟩

theorem eq_nil_of_near (h : Near s []) : s = [] := by
  rcases h with h | h
  · exact h
  · cases h

theorem near_nil (h : Near [] s) : s = [] := by
  rcases h with h | h
  · exact h.symm
  · cases h

theorem near_of_append (h : Near (u ++ s) (u ++ t)) : Near s t := by
  induction u with
  | nil => exact h
  | cons c u ih =>
      refine ih ?_
      rcases h with h | h
      · exact .inl (cons.inj h).2
      · cases h with
        | here hne _ _ => exact absurd rfl hne
        | there h => exact .inr h

/-- The lexemes that are not spaces: tokens and comments. -/
def visible (xs : List Lexeme) : List Lexeme := xs.filter fun x => x.kind ≠ .space

theorem space_of_reads (h : Reads after .space u rest) : ∃ c, u = [c] ∧ isSpace c := by
  generalize hkind : Kind.space = kind at h
  cases h with
  | space hc => exact ⟨_, rfl, hc⟩
  | quoted ho _ =>
      rw [Opening.kind.eq_def] at hkind
      split_ifs at hkind
      split at hkind <;> cases hkind
  | _ => cases hkind

theorem not_space_of_reads (h : Reads after kind u rest) (hkind : kind ≠ .space) :
    ∃ c tail, u = c :: tail ∧ isSpace c = false := by
  cases h with
  | space _ => exact absurd rfl hkind
  | @quoted o body _ ho _ =>
      have hheads : ∀ o ∈ openings, o.text ≠ [] ∧ o.text.head?.any isSpace = false := by decide
      obtain ⟨hne, hspace⟩ := hheads o ho
      obtain ⟨c, tail, htext⟩ := exists_cons_of_ne_nil hne
      rw [htext] at hspace
      exact ⟨c, tail ++ body, by rw [htext, cons_append], hspace⟩
  | lineComment => exact ⟨_, _, rfl, by decide⟩
  | blockComment => exact ⟨_, _, rfl, by decide⟩
  | identifier hc => exact ⟨_, _, rfl, space_of_start hc⟩
  | number hc => exact ⟨_, _, rfl, (number_classes hc).1⟩
  | parameter => exact ⟨_, _, rfl, by decide⟩
  | dollarString => exact ⟨_, _, rfl, by decide⟩
  | operator hc => exact ⟨_, _, rfl, (operator_classes hc).1⟩
  | symbol hc => exact ⟨_, _, rfl, (isSymbol_eq_true.1 hc).1⟩

/-- A lexeme is a space or begins with another character. -/
theorem head_of_reads (h : Reads after kind u rest) :
    ∃ c tail, u = c :: tail ∧ (kind = .space ↔ isSpace c) ∧ (kind = .space → tail = []) := by
  by_cases hkind : kind = .space
  · subst hkind
    obtain ⟨c, rfl, hc⟩ := space_of_reads h
    exact ⟨c, [], rfl, iff_of_true rfl hc, fun _ => rfl⟩
  · obtain ⟨c, tail, rfl, hc⟩ := not_space_of_reads h hkind
    exact ⟨c, tail, rfl, iff_of_false hkind (Bool.eq_false_iff.1 hc), fun h => absurd h hkind⟩

/-- Lexemes of texts that are near each other are the same if all but the spaces are. -/
theorem eq_of_visible (hxs : ∀ x ∈ xs, ∃ before, Reads before x.kind x.text [])
    (hys : ∀ y ∈ ys, ∃ before, Reads before y.kind y.text []) (hvisible : visible xs = visible ys)
    (h : Near (textOf xs) (textOf ys)) : xs = ys := by
  induction xs generalizing ys with
  | nil =>
      cases ys with
      | nil => rfl
      | cons y ys =>
          obtain ⟨before, hy⟩ := hys y mem_cons_self
          exact absurd (append_eq_nil_iff.1 (near_nil h)).1 (ne_nil_of_reads hy)
  | cons x xs ih =>
      obtain ⟨⟨before, hx⟩, hxs⟩ := forall_mem_cons.1 hxs
      cases ys with
      | nil => exact absurd (append_eq_nil_iff.1 (eq_nil_of_near h)).1 (ne_nil_of_reads hx)
      | cons y ys =>
          obtain ⟨⟨behind, hy⟩, hothers⟩ := forall_mem_cons.1 hys
          obtain ⟨c, tail, hc, hcspace, hctail⟩ := head_of_reads hx
          obtain ⟨d, other, hd, hdspace, hdtail⟩ := head_of_reads hy
          rw [textOf_cons, textOf_cons] at h
          have hheads := h
          rw [hc, hd] at hheads
          have hkinds : x.kind = .space ↔ y.kind = .space := by
            rw [hcspace, hdspace]
            rcases near_cons hheads with ⟨rfl, -⟩ | ⟨hcfalse, hdfalse⟩
            · exact Iff.rfl
            · rw [hcfalse, hdfalse]
          rw [visible, visible, filter_cons, filter_cons] at hvisible
          by_cases hspace : x.kind = .space
          · have hother := hkinds.1 hspace
            rw [if_neg (by simpa using hspace), if_neg (by simpa using hother)] at hvisible
            obtain rfl : c = d := by
              rcases near_cons hheads with ⟨rfl, -⟩ | ⟨hcfalse, -⟩
              · rfl
              · rw [hcspace.1 hspace] at hcfalse
                cases hcfalse
            have hsame : x = y :=
              Lexeme.ext (hspace.trans hother.symm) (by rw [hc, hd, hctail hspace, hdtail hother])
            subst hsame
            exact congrArg (x :: ·) (ih hxs hothers hvisible (near_of_append h))
          · rw [if_pos (by simpa using hspace), if_pos (by simpa using mt hkinds.2 hspace)] at hvisible
            obtain ⟨rfl, hrest⟩ := cons.inj hvisible
            exact congrArg (x :: ·) (ih hxs hothers hrest (near_of_append h))

end Visible

section Building

variable {after : After} {kind : Kind} {c : Char} {u text rest : Text}

def Lexable (after : After) (text : Text) : Prop := ∃ xs, textOf xs = text ∧ Lexes after xs

theorem lexable_nil : Lexable after [] := ⟨[], rfl, trivial⟩

theorem lexable_append (h : Reads after kind u rest) (hrest : Lexable (after.next ⟨kind, u⟩) rest) :
    Lexable after (u ++ rest) := by
  obtain ⟨xs, rfl, hxs⟩ := hrest
  exact ⟨⟨kind, u⟩ :: xs, rfl, h, hxs⟩

theorem exists_lexemes_iff : (∃ xs, lexemes text = some xs) ↔ Lexable .other text := by
  refine exists_congr fun xs => ?_
  rw [lexemes_eq_some, eq_comm]

theorem lexable_symbol (hc : c ∈ "()[],".toList) (hrest : Lexable .other rest) :
    Lexable after (c :: rest) := by
  have hsymbols : ∀ c ∈ "()[],".toList, isSymbol c ∧ c.isDigit = false ∧ c ≠ '.' ∧ c ≠ ':' :=
    forall_of_all (by decide)
  obtain ⟨hsymbol, hdigit, hpoint, hcolon⟩ := hsymbols c hc
  have hnumber : startsNumber c rest = false := by
    rw [startsNumber, hdigit, decide_eq_false hpoint]
    rfl
  have hlength : symbolLength (c :: rest) = 1 := by
    rw [symbolLength_cons, if_neg]
    rintro (⟨h, -⟩ | ⟨h, -⟩)
    · exact hcolon h
    · exact hpoint h
  exact lexable_append (@Reads.symbol after c [] rest hsymbol hnumber hlength) hrest

theorem lexable_colons (hrest : Lexable .other rest) : Lexable after ("::".toList ++ rest) := by
  have hlength : symbolLength (':' :: ':' :: rest) = 2 := by
    rw [symbolLength_cons, if_pos (.inl ⟨rfl, .inl rfl⟩)]
  exact lexable_append (@Reads.symbol after ':' [':'] rest (by decide) rfl hlength) hrest

theorem lexable_space (hrest : Lexable .other rest) : Lexable .other (' ' :: rest) :=
  lexable_append (@Reads.space .other ' ' rest (by decide)) hrest

/-- A word of two letters or more, so that no quote can belong to it. -/
def isWord (word : Text) : Bool :=
  word.head?.any isIdentifierStart && word.tail.all isIdentifierPart &&
    word.tail.head?.any fun d => d ≠ '\'' && d ≠ '"' && d ≠ '&'

theorem opening_of_word {d : Char} (hc : isIdentifierStart c) (hd : d ≠ '\'' ∧ d ≠ '"' ∧ d ≠ '&') :
    opening (c :: d :: rest) = none := by
  have hsecond : ∀ o ∈ openings, o.text ≠ [] ∧ (o.text.head?.any isIdentifierStart → o.text.tail ≠ []) ∧
      o.text.tail.head?.all fun d => d = '\'' ∨ d = '"' ∨ d = '&' := by decide
  refine opening_eq_none.2 fun o ho hstarts => ?_
  obtain ⟨hne, hlong, hquote⟩ := hsecond o ho
  obtain ⟨e, tail, htext⟩ := exists_cons_of_ne_nil hne
  rw [htext] at hstarts hlong hquote
  obtain ⟨rfl, htail⟩ := cons_prefix_cons.1 hstarts
  obtain ⟨f, tail, rfl⟩ := exists_cons_of_ne_nil (hlong hc)
  obtain ⟨rfl, -⟩ := cons_prefix_cons.1 htail
  rcases of_decide_eq_true hquote with h | h | h
  · exact hd.1 h
  · exact hd.2.1 h
  · exact hd.2.2 h

theorem lexable_word (hword : isWord u) (hend : ∀ d ∈ rest.head?, isIdentifierPart d = false)
    (hrest : Lexable .other rest) : Lexable after (u ++ rest) := by
  match u, hword with
  | [], h => cases h
  | [c], h => exact absurd h (by simp [isWord])
  | c :: d :: tail, h =>
      rw [isWord, Bool.and_eq_true, Bool.and_eq_true, all_eq_true] at h
      obtain ⟨⟨hc, hparts⟩, hd⟩ := h
      simp only [tail_cons, head?_cons, Option.any_some, Bool.and_eq_true, decide_eq_true_eq] at hd
      have hopening : opening (c :: (d :: tail ++ rest)) = none :=
        opening_of_word hc ⟨hd.1.1, hd.1.2, hd.2⟩
      exact lexable_append (Reads.identifier hc hparts hend hopening) hrest

end Building

end Paranoid.SqlTexts

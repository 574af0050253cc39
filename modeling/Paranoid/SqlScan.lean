import Paranoid.SqlLexemes

namespace Paranoid.SqlScan

open List SqlLexemes
open Utf8Text (Text)

section Operators

variable {c : Char} {text rest : Text}

theorem prefix_trimSigns (operator : Text) : trimSigns operator <+: operator := by
  rw [trimSigns]
  split_ifs
  · exact prefix_rfl
  · have htail : ((operator.drop 1).reverse.dropWhile fun c => c = '+' || c = '-').reverse <+:
      operator.drop 1 := by
      rw [← reverse_suffix, reverse_reverse]
      exact dropWhile_suffix _
    calc
      operator.take 1 ++ ((operator.drop 1).reverse.dropWhile fun c => c = '+' || c = '-').reverse <+:
          operator.take 1 ++ operator.drop 1 := (prefix_append_right_inj _).2 htail
      _ = operator := take_append_drop 1 operator

theorem prefix_beforeComment : ∀ text, beforeComment text <+: text
  | [] => prefix_rfl
  | [_] => prefix_rfl
  | c :: d :: rest => by
      rw [beforeComment]
      split_ifs
      · exact nil_prefix
      · exact (prefix_cons_inj c).2 (prefix_beforeComment (d :: rest))

theorem prefix_operatorOf (text : Text) : operatorOf text <+: text :=
  ((prefix_trimSigns _).trans (prefix_beforeComment _)).trans <| takeWhile_prefix _

def OpensComment (text : Text) : Prop := ['-', '-'] <+: text ∨ ['/', '*'] <+: text

theorem operatorOf_comment (h : OpensComment text) : operatorOf text = [] := by
  rcases h with h | h
  · obtain ⟨rest, rfl⟩ := h
    rfl
  · obtain ⟨rest, rfl⟩ := h
    rfl

theorem operatorOf_cons (hc : isOperator c) (hcomment : ¬OpensComment (c :: rest)) :
    ∃ tail, operatorOf (c :: rest) = c :: tail := by
  have hbefore : ∃ run, beforeComment ((c :: rest).takeWhile isOperator) = c :: run := by
    rw [takeWhile_cons, if_pos hc]
    cases hrun : rest.takeWhile isOperator with
    | nil => exact ⟨[], rfl⟩
    | cons d run =>
        obtain ⟨behind, hrest⟩ : d :: run <+: rest := hrun ▸ takeWhile_prefix isOperator
        refine ⟨beforeComment (d :: run), ?_⟩
        rw [beforeComment, if_neg]
        rintro (⟨rfl, rfl⟩ | ⟨rfl, rfl⟩)
        · exact hcomment (.inl ⟨run ++ behind, by rw [← hrest]; rfl⟩)
        · exact hcomment (.inr ⟨run ++ behind, by rw [← hrest]; rfl⟩)
  obtain ⟨run, hrun⟩ := hbefore
  rw [operatorOf, hrun, trimSigns]
  split_ifs
  · exact ⟨run, rfl⟩
  · exact ⟨_, rfl⟩

end Operators

section Scanning

variable {after : After} {kind : Kind} {c : Char} {text rest u : Text} {n : Nat} {o : Opening}

theorem scan_opening (h : opening text = some o) :
    scan after text = (closingLength o.quote (o.styleAfter after) (text.drop o.text.length)).map
      fun n =>
      (o.kind after, o.text.length + n) := by
  rw [scan.eq_def, h]

theorem scan_space (hc : isSpace c) : scan after (c :: rest) = some (.space, 1) := by
  have hopening : opening (c :: rest) = none := opening_of_class (by decide) hc
  rw [scan, hopening]
  dsimp only
  rw [if_pos hc]

theorem prefix_two (c d : Char) (rest : Text) : [c, d] <+: c :: d :: rest := prefix_append [c, d] rest

theorem scan_lineComment : scan after ('-' :: '-' :: rest) =
    some (.lineComment, 2 + (rest.takeWhile fun d => !isNewline d).length) := by
  have hopening : opening ('-' :: '-' :: rest) = none := opening_of_head (by decide)
  rw [scan, hopening]
  dsimp only
  rw [if_neg (by decide), if_pos (prefix_two _ _ _), takeWhile_cons_of_pos (by decide),
    takeWhile_cons_of_pos (by decide), length_cons, length_cons, Nat.add_comm 2]

theorem scan_blockComment : scan after ('/' :: '*' :: rest) =
    (blockCommentLength 1 rest).map fun n => (.blockComment, n + 2) := by
  have hopening : opening ('/' :: '*' :: rest) = none := opening_of_head (by decide)
  have hline : ¬['-', '-'] <+: '/' :: '*' :: rest :=
    fun h => absurd (cons_prefix_cons.1 h).1 (by decide)
  rw [scan, hopening]
  dsimp only
  rw [if_neg (by decide), if_neg hline, if_pos (prefix_two _ _ _)]
  rfl

/-- What is left to tell where no quote, no space and no comment is opened. -/
theorem scan_cons (hopening : opening (c :: rest) = none) (hspace : isSpace c = false)
    (hcomment : ¬OpensComment (c :: rest)) :
    scan after (c :: rest) =
      if isIdentifierStart c then some (.identifier, 1 + (rest.takeWhile isIdentifierPart).length)
      else if startsNumber c rest then (numberLength (startState c) rest).map fun n => (.number, n + 1)
      else if c = '$' then scanDollar rest
      else if isOperator c then some (.operator, (operatorOf (c :: rest)).length)
      else some (.symbol, symbolLength (c :: rest)) := by
  rw [scan, hopening]
  dsimp only
  rw [if_neg (Bool.eq_false_iff.1 hspace),
    if_neg fun h => hcomment (.inl h), if_neg fun h => hcomment (.inr h)]

theorem not_opensComment_of_head (hline : c ≠ '-') (hblock : c ≠ '/') : ¬OpensComment (c :: rest) := by
  rintro (h | h)
  · exact hline (cons_prefix_cons.1 h).1.symm
  · exact hblock (cons_prefix_cons.1 h).1.symm

theorem space_of_start (hc : isIdentifierStart c) : isSpace c = false := by
  refine Bool.eq_false_iff.2 fun hspace => ?_
  have hstart : isIdentifierStart c = false :=
    space_forall (p := fun c => isIdentifierStart c = false) (by decide) hspace
  rw [hstart] at hc
  cases hc

theorem scan_identifier (hopening : opening (c :: rest) = none) (hc : isIdentifierStart c) :
    scan after (c :: rest) = some (.identifier, 1 + (rest.takeWhile isIdentifierPart).length) := by
  have hcomment : ¬OpensComment (c :: rest) := by
    refine not_opensComment_of_head ?_ ?_
    · rintro rfl
      exact absurd hc (by decide)
    · rintro rfl
      exact absurd hc (by decide)
  rw [scan_cons hopening (space_of_start hc) hcomment, if_pos hc]

theorem digit_classes (hc : c.isDigit) :
    isSpace c = false ∧ isIdentifierStart c = false ∧ c ≠ '-' ∧ c ≠ '/' ∧
    c ∉ openers :=
  digit_forall (p := fun c => isSpace c = false ∧ isIdentifierStart c = false ∧ c ≠ '-' ∧ c ≠ '/' ∧
    c ∉ openers) (by decide) hc

theorem number_classes (hc : startsNumber c rest) :
    isSpace c = false ∧ isIdentifierStart c = false ∧ c ≠ '-' ∧
    c ≠ '/' ∧ c ∉ openers := by
  rw [startsNumber, Bool.or_eq_true, Bool.and_eq_true, decide_eq_true_eq] at hc
  rcases hc with hc | ⟨rfl, -⟩
  · exact digit_classes hc
  · decide

theorem scan_number (hc : startsNumber c rest) :
    scan after (c :: rest) = (numberLength (startState c) rest).map fun n => (.number, n + 1) := by
  obtain ⟨hspace, hstart, hline, hblock, hopeners⟩ := number_classes hc
  rw [scan_cons (opening_of_head hopeners) hspace (not_opensComment_of_head hline hblock),
    if_neg (Bool.eq_false_iff.1 hstart), if_pos hc]

theorem scan_dollar : scan after ('$' :: rest) = scanDollar rest := by
  rw [scan_cons (opening_of_head (by decide)) (by decide)
    (not_opensComment_of_head (by decide) (by decide)), if_neg (by decide), if_neg, if_pos rfl]
  rw [startsNumber, Bool.or_eq_true, Bool.and_eq_true, decide_eq_true_eq]
  rintro (h | ⟨h, -⟩)
  · exact absurd h (by decide)
  · exact absurd h (by decide)

theorem operator_classes (hc : isOperator c) : isSpace c = false ∧ isIdentifierStart c = false ∧
    c.isDigit = false ∧ c ≠ '.' ∧ c ≠ '$' ∧ c ∉ openers :=
  operator_forall (p := fun c => isSpace c = false ∧ isIdentifierStart c = false ∧ c.isDigit = false ∧
    c ≠ '.' ∧ c ≠ '$' ∧ c ∉ openers) (by decide) hc

theorem scan_operator (hc : isOperator c) (hcomment : ¬OpensComment (c :: rest)) :
    scan after (c :: rest) = some (.operator, (operatorOf (c :: rest)).length) := by
  obtain ⟨hspace, hstart, hdigit, hpoint, hdollar, hopeners⟩ := operator_classes hc
  have hnumber : startsNumber c rest = false := by
    rw [startsNumber, hdigit, decide_eq_false hpoint]
    rfl
  rw [scan_cons (opening_of_head hopeners) hspace hcomment, if_neg (Bool.eq_false_iff.1 hstart),
    if_neg (Bool.eq_false_iff.1 hnumber), if_neg hdollar, if_pos hc]

theorem scan_symbol (hc : isSymbol c) (hnumber : startsNumber c rest = false) :
    scan after (c :: rest) = some (.symbol, symbolLength (c :: rest)) := by
  have hopening : opening (c :: rest) = none := opening_of_class (by decide) hc
  obtain ⟨hspace, hstart, -, hoperator, hdollar, -⟩ := isSymbol_eq_true.1 hc
  have hcomment : ¬OpensComment (c :: rest) := by
    refine not_opensComment_of_head ?_ ?_
    · rintro rfl
      exact absurd hoperator (by decide)
    · rintro rfl
      exact absurd hoperator (by decide)
  rw [scan_cons hopening hspace hcomment, if_neg (Bool.eq_false_iff.1 hstart),
    if_neg (Bool.eq_false_iff.1 hnumber), if_neg hdollar, if_neg (Bool.eq_false_iff.1 hoperator)]

theorem joinsNumber_dollar : joinsNumber '$' = false := by decide

theorem scanDollar_digits {digits : Text} (hne : digits ≠ []) (hdigits : ∀ d ∈ digits, d.isDigit)
    (hrest : ∀ c ∈ rest.head?, c.isDigit = false) :
    scanDollar (digits ++ rest) = if rest.head?.any isIdentifierStart then none
      else some (.parameter, 1 + digits.length) := by
  rw [scanDollar, takeWhile_run hdigits hrest, if_pos hne, drop_left]

theorem scanDollar_tag {tag : Text} (htag : ∀ c ∈ tag, joinsNumber c)
    (hstart : ∀ c ∈ tag.head?, c.isDigit = false) :
    scanDollar (tag ++ '$' :: rest) = (delimitedLength ('$' :: (tag ++ ['$'])) rest).map fun n =>
      (.dollarString, ('$' :: (tag ++ ['$'])).length + n) := by
  have hdigits : (tag ++ '$' :: rest).takeWhile Char.isDigit = [] := by
    cases tag with
    | nil => rfl
    | cons c tag => rw [cons_append, takeWhile_cons, hstart c rfl, if_neg Bool.false_ne_true]
  have hrun : (tag ++ '$' :: rest).takeWhile (fun c => isIdentifierStart c || c.isDigit) = tag := by
    refine takeWhile_run htag fun c hc => ?_
    rw [← Option.some.inj hc]
    exact joinsNumber_dollar
  have hstarts : ['$'] <+: (tag ++ '$' :: rest).drop tag.length := by
    rw [drop_left]
    exact prefix_append ['$'] rest
  have hbody : (tag ++ '$' :: rest).drop (tag.length + 1) = rest := by
    rw [← drop_drop, drop_left]
    rfl
  rw [scanDollar, hdigits, if_neg fun h => h rfl, hrun]
  dsimp only
  rw [if_pos hstarts, hbody]

theorem scan_of_reads (h : Reads after kind u rest) :
    scan after (u ++ rest) = some (kind, u.length) := by
  cases h with
  | @quoted o body _ ho h =>
      have hopening : opening (o.text ++ body ++ rest) = some o := by
        rw [append_assoc]
        exact opening_eq_some.2 ⟨ho, prefix_append _ _⟩
      rw [scan_opening hopening, append_assoc, drop_left, h, length_append]
      rfl
  | space hc => exact scan_space hc
  | @lineComment body _ hbody hrest =>
      have hrun : (body ++ rest).takeWhile (fun d => !isNewline d) = body := by
        refine takeWhile_run (fun c hc => ?_) fun c hc => ?_
        · rw [hbody c hc]
          rfl
        · rw [hrest c hc]
          rfl
      rw [cons_append, cons_append, scan_lineComment, hrun, length_cons, length_cons, Nat.add_comm 2]
  | blockComment h =>
      rw [cons_append, cons_append, scan_blockComment, h]
      rfl
  | identifier hc htail hrest hopening =>
      rw [cons_append, scan_identifier hopening hc,
        takeWhile_run htail hrest, length_cons, Nat.add_comm 1]
  | number hc h =>
      rw [cons_append, scan_number hc, h]
      rfl
  | @parameter digits _ hne hdigits hrest =>
      have hjoins : ∀ c ∈ rest.head?, isIdentifierStart c = false ∧ c.isDigit = false := fun c hc =>
        Bool.or_eq_false_iff.1 (hrest c hc)
      have hstart : rest.head?.any isIdentifierStart = false := by
        cases hhead : rest.head? with
        | none => rfl
        | some c => exact (hjoins c hhead).1
      rw [cons_append, scan_dollar, scanDollar_digits hne hdigits fun c hc => (hjoins c hc).2, hstart,
        if_neg Bool.false_ne_true, length_cons, Nat.add_comm 1]
  | @dollarString tag body _ htag hstart h =>
      rw [cons_append, scan_dollar, append_assoc, cons_append, scanDollar_tag htag hstart, h]
      simp only [Option.map_some, length_cons, length_append, length_nil]
      congr 2
      omega
  | operator hc h =>
      have hcomment : ¬OpensComment (_ :: (_ ++ rest)) := fun hopens => by
        rw [operatorOf_comment hopens] at h
        cases h
      rw [cons_append, scan_operator hc hcomment, h]
  | symbol hc hnumber h => rw [cons_append, scan_symbol hc hnumber, h, length_cons]

theorem exists_of_scanDollar (h : scanDollar rest = some (kind, n)) :
    ∃ u behind, '$' :: rest = u ++ behind ∧ u.length = n ∧ Reads after kind u behind := by
  obtain ⟨digits, behind, rfl, hrun, hdigits, hbehind⟩ := exists_run Char.isDigit rest
  by_cases hne : digits = []
  · subst hne
    rw [nil_append] at h hrun ⊢
    obtain ⟨tag, rest, rfl, htag, hjoins, -⟩ :=
      exists_run (fun c => isIdentifierStart c || c.isDigit) behind
    have hstart : ∀ c ∈ tag.head?, c.isDigit = false := by
      intro c hc
      refine hbehind c ?_
      obtain ⟨tail, rfl⟩ := head?_eq_some_iff.1 hc
      rfl
    by_cases hclose : ['$'] <+: rest
    · obtain ⟨rest, rfl⟩ := hclose
      rw [singleton_append, scanDollar_tag hjoins hstart] at h
      obtain ⟨m, hm, heq⟩ := Option.map_eq_some_iff.1 h
      cases heq
      obtain ⟨body, rest, rfl, rfl⟩ := exists_split (delimitedLength_bounds hm).2
      refine ⟨'$' :: (tag ++ '$' :: body), rest, ?_, ?_, .dollarString hjoins hstart hm⟩
      · change '$' :: (tag ++ '$' :: (body ++ rest)) = '$' :: ((tag ++ '$' :: body) ++ rest)
        rw [append_assoc, cons_append]
      · simp only [length_cons, length_append, length_nil]
        omega
    · rw [scanDollar, hrun, if_neg fun h => h rfl, htag] at h
      dsimp only at h
      rw [drop_left, if_neg hclose] at h
      cases h
  · rw [scanDollar_digits hne hdigits hbehind] at h
    split_ifs at h with hstart
    cases h
    refine ⟨'$' :: digits, behind, rfl, Nat.add_comm _ _, .parameter hne hdigits fun c hc => ?_⟩
    rw [hc, Option.any_some] at hstart
    exact Bool.or_eq_false_iff.2 ⟨Bool.eq_false_iff.2 hstart, hbehind c hc⟩

theorem reads_of_scan (h : scan after text = some (kind, n)) :
    ∃ u rest, text = u ++ rest ∧ u.length = n ∧ Reads after kind u rest := by
  cases hopening : opening text with
  | some o =>
      obtain ⟨ho, tail, rfl⟩ := opening_eq_some.1 hopening
      rw [scan_opening hopening, drop_left] at h
      obtain ⟨m, hm, heq⟩ := Option.map_eq_some_iff.1 h
      cases heq
      obtain ⟨body, rest, rfl, rfl⟩ := exists_split (closingLength_le hm)
      exact ⟨o.text ++ body, rest, (append_assoc _ _ _).symm, length_append, .quoted ho hm⟩
  | none =>
      cases text with
      | nil =>
          rw [scan.eq_def, hopening] at h
          cases h
      | cons c rest =>
          by_cases hspace : isSpace c
          · rw [scan_space hspace] at h
            cases h
            exact ⟨[c], rest, rfl, rfl, .space hspace⟩
          by_cases hcomment : OpensComment (c :: rest)
          · rcases hcomment with ⟨body, hbody⟩ | ⟨body, hbody⟩
            · rw [← hbody, cons_append, singleton_append] at h ⊢
              rw [scan_lineComment] at h
              obtain ⟨run, rest, rfl, hrun, hall, hrest⟩ := exists_run (fun d => !isNewline d) body
              rw [hrun] at h
              cases h
              refine ⟨'-' :: '-' :: run, rest, rfl, Nat.add_comm run.length 2, .lineComment ?_ ?_⟩
              · exact fun c hc => (Bool.not_eq_true' _).mp (hall c hc)
              · exact fun c hc => (Bool.not_eq_false' _).mp (hrest c hc)
            · rw [← hbody, cons_append, singleton_append] at h ⊢
              rw [scan_blockComment] at h
              obtain ⟨m, hm, heq⟩ := Option.map_eq_some_iff.1 h
              cases heq
              obtain ⟨body, rest, rfl, rfl⟩ := exists_split (blockCommentLength_le hm)
              exact ⟨'/' :: '*' :: body, rest, rfl, rfl, .blockComment hm⟩
          rw [scan_cons hopening (Bool.eq_false_iff.2 hspace) hcomment] at h
          split_ifs at h with hstart hnumber hdollar hoperator
          · cases h
            obtain ⟨run, rest, rfl, hrun, hall, hrest⟩ := exists_run isIdentifierPart rest
            rw [hrun]
            exact ⟨c :: run, rest, rfl, Nat.add_comm _ _, .identifier hstart hall hrest hopening⟩
          · obtain ⟨m, hm, heq⟩ := Option.map_eq_some_iff.1 h
            cases heq
            obtain ⟨tail, rest, rfl, rfl⟩ := exists_split (numberLength_le hm)
            exact ⟨c :: tail, rest, rfl, rfl, .number hnumber hm⟩
          · rw [hdollar]
            exact exists_of_scanDollar h
          · cases h
            obtain ⟨tail, htail⟩ := operatorOf_cons hoperator hcomment
            obtain ⟨behind, hbehind⟩ := htail ▸ prefix_operatorOf (c :: rest)
            obtain rfl : tail ++ behind = rest := (cons.inj hbehind).2
            refine ⟨c :: tail, behind, rfl, ?_, .operator hoperator htail⟩
            rw [htail]
          · cases h
            have hlength : 1 ≤ symbolLength (c :: rest) ∧
              symbolLength (c :: rest) ≤ (c :: rest).length := by
              rw [symbolLength]
              split_ifs with htwo
              · refine ⟨Nat.le_succ 1, ?_⟩
                rcases htwo with h | h | h <;> exact h.length_le
              · exact ⟨le_rfl, Nat.succ_le_succ (Nat.zero_le _)⟩
            obtain ⟨m, hm⟩ := Nat.exists_eq_add_of_le' hlength.1
            rw [hm] at hlength ⊢
            obtain ⟨tail, rest, rfl, rfl⟩ := exists_split (Nat.le_of_succ_le_succ hlength.2)
            refine ⟨c :: tail, rest, rfl, rfl, .symbol ?_ (Bool.eq_false_iff.2 hnumber) hm⟩
            rw [startsNumber, Bool.or_eq_true, not_or] at hnumber
            have hopeners : c ≠ '\'' ∧ c ≠ '"' := by
              refine ⟨?_, ?_⟩
              · rintro rfl
                exact opening_eq_none.1 hopening ⟨[], '\'', .plain⟩ (by decide) (prefix_append ['\''] _)
              · rintro rfl
                exact opening_eq_none.1 hopening ⟨[], '"', .plain⟩ (by decide) (prefix_append ['"'] _)
            exact isSymbol_eq_true.2 ⟨Bool.eq_false_iff.2 hspace, Bool.eq_false_iff.2 hstart,
              Bool.eq_false_iff.2 hnumber.1, Bool.eq_false_iff.2 hoperator, hdollar, hopeners⟩

end Scanning

end Paranoid.SqlScan

import Paranoid.TemplateScanner

namespace Paranoid.TemplateRendering

open ByteCodecs List Postgres TemplateGrammar TemplateScanner Utf8Text

variable (build : Build) (template : Text) (fragments : List Text)

section Turns

variable {bytes : Bytes} {build template fragments} {index stop : Nat}

theorem quotedEnd_gt {quote : UInt8} {escapeString : Bool} {unterminated : TemplateError}
    (h : quotedEnd bytes quote escapeString unterminated index = .ok stop) : index < stop := by
  fun_induction quotedEnd with
  | case1 => cases h
  | case2 index _ _ _ _ ih => exact lt_trans (by omega) (ih h)
  | case3 index _ _ _ _ ih => exact lt_trans (by omega) (ih h)
  | case4 => rw [← Except.ok.inj h]; omega
  | case5 index _ _ _ _ _ ih => exact lt_trans (by omega) (ih h)

theorem lineCommentEnd_ge : index ≤ lineCommentEnd bytes index := by
  fun_induction lineCommentEnd with
  | case1 => exact le_rfl
  | case2 => exact le_rfl
  | case3 index _ _ _ _ ih => exact le_trans (by omega) ih

theorem digitsEnd_ge : index ≤ digitsEnd bytes index := by
  fun_induction digitsEnd with
  | case1 => exact le_rfl
  | case2 index _ _ _ _ ih => exact le_trans (by omega) ih
  | case3 => exact le_rfl

theorem blockCommentEnd_ge {depth : Nat}
    (h : blockCommentEnd bytes build depth index = .ok stop) : index ≤ stop := by
  fun_induction blockCommentEnd with
  | case1 => rw [← Except.ok.inj h]
  | case2 => cases h
  | case3 => cases h
  | case4 depth index _ _ _ _ _ _ _ ih => exact le_trans (by omega) (ih h)
  | case5 depth index _ _ _ _ _ _ ih => exact le_trans (by omega) (ih h)
  | case6 depth index _ _ _ _ _ _ ih => exact le_trans (by omega) (ih h)

theorem utf8SequenceLen_pos (b : UInt8) : 1 ≤ utf8SequenceLen b := by
  unfold utf8SequenceLen
  split_ifs <;> decide

theorem copied_next {start next : Nat} {piece : Text}
    (h : copied template start stop = .ok (next, piece)) : next = stop := by
  obtain ⟨span, -, hnext⟩ := bind_eq_ok.1 h
  cases hnext
  rfl

theorem bind_copied_next {run : Except Failure Nat} {start next : Nat} {piece : Text}
    (h : run >>= copied template start = .ok (next, piece)) : run = .ok next := by
  obtain ⟨stop, hrun, hstop⟩ := bind_eq_ok.1 h
  rw [copied_next hstop, hrun]

theorem placeholder_next {digitsStart digitsEnd next : Nat} {piece : Text}
    (h : placeholder template fragments digitsStart digitsEnd = .ok (next, piece)) :
    next = digitsEnd := by
  rw [placeholder] at h
  split_ifs at h
  obtain ⟨digits, -, h⟩ := bind_eq_ok.1 h
  split at h
  next => cases h
  next =>
    split_ifs at h
    split at h
    next => cases h
    next =>
      cases h
      rfl

/-- A turn goes on behind the byte it is at. -/
theorem turn_advances {b : UInt8} {next : Nat} {piece : Text} (hb : (utf8 template)[index]? = some b)
    (h : turn build template fragments index b = .ok (next, piece)) : index < next := by
  rw [turn] at h
  split_ifs at h with hstring hidentifier hline hblock hdollar
  · exact lt_trans (Nat.lt_succ_self index) (quotedEnd_gt (bind_copied_next h))
  · exact lt_trans (Nat.lt_succ_self index) (quotedEnd_gt (bind_copied_next h))
  · rw [copied_next h, lineCommentEnd_of_byte hb, if_neg (by rw [hline.1]; decide)]
    exact Nat.lt_of_succ_le lineCommentEnd_ge
  · exact lt_of_lt_of_le (by omega) (blockCommentEnd_ge (bind_copied_next h))
  · rw [placeholder_next h]
    exact digitsEnd_ge
  · rw [copied_next h]
    exact Nat.lt_add_of_pos_right (utf8SequenceLen_pos b)

end Turns

/-- The scanner's loop, with what it has rendered so far. -/
def renderFrom (index : Nat) (out : Text) : Except Failure Text :=
  match hb : (utf8 template)[index]? with
  | none => .ok out
  | some b =>
      match hturn : turn build template fragments index b with
      | .error e => .error e
      | .ok (next, piece) =>
          have : index < next := turn_advances hb hturn
          have : index < (utf8 template).length := (List.getElem?_eq_some_iff.1 hb).1
          renderFrom next (out ++ piece)
termination_by (utf8 template).length - index

def renderPortableQuerySql : Except Failure Text := renderFrom build template fragments 0 []

section Spans

variable {build template fragments}
  {before source output rest text digits out : Text} {index next : Nat}

theorem renderFrom_of_ok {b : UInt8} (hb : (utf8 template)[index]? = some b)
    (h : turn build template fragments index b = .ok (next, output)) :
    renderFrom build template fragments index out =
      renderFrom build template fragments next (out ++ output) := by
  rw [renderFrom]
  split
  next hnone =>
      rw [hb] at hnone
      cases hnone
  next hsome =>
      obtain rfl := Option.some.inj (hb.symm.trans hsome)
      split
      next herror =>
          rw [h] at herror
          cases herror
      next hok =>
          rw [h] at hok
          cases hok
          rfl

theorem renderFrom_of_error {b : UInt8} {e : Failure} (hb : (utf8 template)[index]? = some b)
    (h : turn build template fragments index b = .error e) :
    renderFrom build template fragments index out = .error e := by
  rw [renderFrom]
  split
  next hnone =>
      rw [hb] at hnone
      cases hnone
  next hsome =>
      obtain rfl := Option.some.inj (hb.symm.trans hsome)
      split
      next herror =>
          rw [h] at herror
          cases herror
          rfl
      next hok =>
          rw [h] at hok
          cases hok

theorem renderFrom_end : renderFrom build before fragments (utf8Len before) out = .ok out := by
  rw [renderFrom]
  split
  next => rfl
  next hsome =>
      rw [← length_utf8, List.getElem?_eq_none_iff.2 le_rfl] at hsome
      cases hsome

theorem copied_eq (before span rest : Text) :
    copied (before ++ (span ++ rest)) (utf8Len before) (utf8Len before + utf8Len span) =
      .ok (utf8Len (before ++ span), span) := by
  rw [copied, spanOf, ← append_assoc, slice_eq, utf8Len_append]
  rfl

theorem utf8Len_pos (h : text ≠ []) : 0 < utf8Len text := by
  obtain ⟨c, text, rfl⟩ := exists_cons_of_ne_nil h
  exact Nat.add_pos_left (Char.utf8Size_pos c) _

/-- What a placeholder comes to once its digits are sliced. -/
theorem placeholder_eq (hdigits : digits ≠ []) :
    placeholder (before ++ '$' :: (digits ++ rest)) fragments
      (utf8Len before + 1) (utf8Len before + 1 + utf8Len digits) =
      match parseUsize digits with
      | none => .error (.template (.invalidIndex digits))
      | some placeholderIndex =>
          if placeholderIndex = 0 then .error (.template .zeroIndex)
          else
            match fragments[placeholderIndex - 1]? with
            | none => .error (.template (.noBind placeholderIndex))
            | some fragment => .ok (utf8Len before + 1 + utf8Len digits, fragment) := by
  have hpos := utf8Len_pos hdigits
  have hlen : utf8Len before + 1 = utf8Len (before ++ ['$']) := by rw [utf8Len_append]; rfl
  have hslice : slice (before ++ '$' :: (digits ++ rest))
    (utf8Len before + 1) (utf8Len before + 1 + utf8Len digits) =
      some digits := by
    rw [hlen, ← slice_eq (before ++ ['$']) digits rest, append_assoc, append_assoc, singleton_append]
  rw [placeholder, if_neg (by omega), spanOf, hslice]
  rfl

theorem at_head (before text : Text) (c : Char) :
    (utf8 (before ++ c :: text))[utf8Len before]? = some (firstByte c) :=
  (at_append before (c :: text)).head?

section Equations

variable (build template fragments) (index : Nat)

theorem turn_string : turn build template fragments index (firstByte '\'') =
    quotedEnd (utf8 template) '\''.toUInt8
      (isEscapeString (utf8 template) index) .unterminatedString (index + 1) >>=
      copied template index := by
  rw [turn, if_pos (firstByte_ascii rfl)]

theorem turn_identifier : turn build template fragments index (firstByte '"') =
    quotedEnd (utf8 template) '"'.toUInt8 false .unterminatedIdentifier (index + 1) >>=
      copied template index := by
  rw [turn, if_neg (by decide), if_pos (firstByte_ascii rfl)]

theorem turn_dollar : turn build template fragments index (firstByte '$') =
    placeholder template fragments (index + 1) (digitsEnd (utf8 template) (index + 1)) := by
  rw [turn, if_neg (by decide), if_neg (by decide), if_neg (fun h => absurd h.1 (by decide)),
    if_neg (fun h => absurd h.1 (by decide)), if_pos (firstByte_ascii rfl)]

variable {template index}

theorem turn_lineComment (h : At (utf8 template) index ('-' :: '-' :: text)) :
    turn build template fragments index (firstByte '-') =
      copied template index (lineCommentEnd (utf8 template) index) := by
  rw [turn, if_neg (by decide), if_neg (by decide), if_pos ((h.two_iff rfl rfl).2 (prefix_append ['-', '-'] text))]

theorem turn_blockComment (h : At (utf8 template) index ('/' :: '*' :: text)) :
    turn build template fragments index (firstByte '/') =
      blockCommentEnd (utf8 template) build 1 (index + 2) >>= copied template index := by
  rw [turn, if_neg (by decide), if_neg (by decide), if_neg (fun h => absurd h.1 (by decide)),
    if_pos ((h.two_iff rfl rfl).2 (prefix_append ['/', '*'] text))]

theorem turn_plain {c : Char} (h : At (utf8 template) index (c :: rest)) (hplain : Plain c rest) :
    turn build template fragments index (firstByte c) = copied template index (index + c.utf8Size) := by
  obtain ⟨hstring, hidentifier, hdollar, hline, hblock⟩ := hplain
  have htwo : ∀ d e : Char, [d, e] <+: c :: rest → c = d ∧ rest.head? = some e := by
    rintro d e ⟨tail, htail⟩
    cases htail
    exact ⟨rfl, rfl⟩
  rw [turn, if_neg (fun heq => hstring ((firstByte_eq_iff rfl).1 heq)),
    if_neg (fun heq => hidentifier ((firstByte_eq_iff rfl).1 heq)),
    if_neg (fun heq => hline (htwo _ _ ((h.two_iff rfl rfl).1 heq))),
    if_neg (fun heq => hblock (htwo _ _ ((h.two_iff rfl rfl).1 heq))),
    if_neg (fun heq => hdollar ((firstByte_eq_iff rfl).1 heq)), utf8SequenceLen_firstByte]

end Equations

/-- A span takes one turn, unless it is a comment whose nesting cannot be counted. -/
theorem turn_of_span (h : Span fragments before source output rest) :
    (∃ b, (utf8 (before ++ (source ++ rest)))[utf8Len before]? = some b ∧
      turn build (before ++ (source ++ rest)) fragments (utf8Len before) b =
        .ok (utf8Len (before ++ source), output)) ∨
    ∃ text, source ++ rest = '/' :: '*' :: text ∧ Deep 1 text := by
  have hat := at_append before (source ++ rest)
  cases h with
  | @string body _ hbody hrest =>
      have hend := @quotedEnd_of_quoted _ _ _ _ _ .unterminatedString
        _ hbody rfl (by decide) hrest (hat.ascii rfl)
      refine .inl ⟨_, at_head _ _ _, ?_⟩
      rw [turn_string, isEscapeString_eq, hend, ok_bind, Nat.add_assoc]
      exact copied_eq before ('\'' :: body) rest
  | @identifier body _ hbody hrest =>
      have hend := @quotedEnd_of_quoted _ _ _ _ _ .unterminatedIdentifier
        _ hbody rfl (by decide) hrest (hat.ascii rfl)
      refine .inl ⟨_, at_head _ _ _, ?_⟩
      rw [turn_identifier, hend, ok_bind, Nat.add_assoc]
      exact copied_eq before ('"' :: body) rest
  | @lineComment body _ hbody hrest =>
      have hall : ∀ c ∈ '-' :: '-' :: body, c ≠ '\n' := by
        simpa using hbody
      refine .inl ⟨_, at_head _ _ _, ?_⟩
      rw [turn_lineComment build fragments hat, lineCommentEnd_eq hall hrest hat]
      exact copied_eq before ('-' :: '-' :: body) rest
  | @blockComment body _ hbody =>
      rcases @blockCommentEnd_of_closes _ build _ _ _ _ hbody
        (by decide) ((hat.ascii rfl).ascii rfl) with hend | hdeep
      · refine .inl ⟨_, at_head _ _ _, ?_⟩
        rw [turn_blockComment build fragments hat, hend, ok_bind, Nat.add_assoc, Nat.add_assoc]
        exact copied_eq before ('/' :: '*' :: body) rest
      · exact .inr ⟨_, rfl, hdeep⟩
  | @placeholder digits _ _ n hdigits hindex hfragment =>
      obtain ⟨hne, hall, hrest⟩ := hdigits
      refine .inl ⟨_, at_head _ _ _, ?_⟩
      rw [turn_dollar, digitsEnd_eq hall hrest (hat.ascii rfl)]
      refine (placeholder_eq hne).trans ?_
      rw [hindex]
      dsimp only
      rw [if_neg (Nat.succ_ne_zero n), Nat.add_sub_cancel, hfragment, utf8Len_append, Nat.add_assoc]
      rfl
  | @plain c _ hplain =>
      refine .inl ⟨_, at_head _ _ _, ?_⟩
      rw [turn_plain build fragments hat hplain]
      exact copied_eq before [c] rest

/-- What cannot be read ends the scan, unless it is a comment whose nesting cannot be counted. -/
theorem turn_of_faulty {e : TemplateError} (h : Faulty fragments before text e) :
    (∃ b, (utf8 (before ++ text))[utf8Len before]? = some b ∧
      turn build (before ++ text) fragments (utf8Len before) b = .error (.template e)) ∨
    ∃ rest, text = '/' :: '*' :: rest ∧ Deep 1 rest := by
  have hat := at_append before text
  cases h with
  | string hnone =>
      have hend := @quotedEnd_of_unterminated _ _ _ .unterminatedString
        rfl (by decide) _ _ (hat.ascii rfl) hnone
      refine .inl ⟨_, at_head _ _ _, ?_⟩
      rw [turn_string, isEscapeString_eq, hend]
      rfl
  | identifier hnone =>
      have hend := @quotedEnd_of_unterminated _ _ _ .unterminatedIdentifier
        rfl (by decide) _ _ (hat.ascii rfl) hnone
      refine .inl ⟨_, at_head _ _ _, ?_⟩
      rw [turn_identifier, hend]
      rfl
  | blockComment hnone =>
      rcases @blockCommentEnd_of_unclosed _ build
        _ _ _ (by decide) ((hat.ascii rfl).ascii rfl) hnone with hend | hdeep
      · refine .inl ⟨_, at_head _ _ _, ?_⟩
        rw [turn_blockComment build fragments hat, hend]
        rfl
      · exact .inr ⟨_, rfl, hdeep⟩
  | @dollar text hnone =>
      refine .inl ⟨_, at_head _ _ _, ?_⟩
      have hend : digitsEnd (utf8 (before ++ '$' :: text)) (utf8Len before + 1) = utf8Len before + 1 :=
        @digitsEnd_eq _ _ [] _ nofun hnone (hat.ascii rfl)
      rw [turn_dollar, hend, placeholder, if_pos rfl]
  | unparsable hdigits hindex =>
      obtain ⟨hne, hall, hrest⟩ := hdigits
      refine .inl ⟨_, at_head _ _ _, ?_⟩
      rw [turn_dollar, digitsEnd_eq hall hrest (hat.ascii rfl), placeholder_eq hne, hindex]
  | zero hdigits hindex =>
      obtain ⟨hne, hall, hrest⟩ := hdigits
      refine .inl ⟨_, at_head _ _ _, ?_⟩
      rw [turn_dollar, digitsEnd_eq hall hrest (hat.ascii rfl), placeholder_eq hne, hindex]
      rfl
  | @unbound digits rest n hdigits hindex hfragment =>
      obtain ⟨hne, hall, hrest⟩ := hdigits
      refine .inl ⟨_, at_head _ _ _, ?_⟩
      rw [turn_dollar, digitsEnd_eq hall hrest (hat.ascii rfl), placeholder_eq hne, hindex]
      dsimp only
      rw [if_neg (Nat.succ_ne_zero n), Nat.add_sub_cancel, hfragment]

/-- A checked build panics at a comment whose nesting cannot be counted. -/
theorem turn_of_deep (h : Deep 1 text) :
    turn .checked (before ++ '/' :: '*' :: text) fragments (utf8Len before) (firstByte '/') =
      .error .depthOverflow := by
  have hat := at_append before ('/' :: '*' :: text)
  rw [turn_blockComment .checked fragments hat,
    blockCommentEnd_of_deep h (by decide) ((hat.ascii rfl).ascii rfl)]
  rfl

end Spans

section Runs

variable {build template fragments} {before text out out' : Text} {e : TemplateError}

/-- Unless a nesting cannot be counted, what the grammar renders is what the scanner renders. -/
theorem renderFrom_of_renders (h : Renders fragments before text out')
    (hcount : ¬Overflows fragments before text) :
    renderFrom build (before ++ text) fragments (utf8Len before) out = .ok (out ++ out') := by
  induction h generalizing out with
  | done => rw [append_nil, append_nil, renderFrom_end]
  | @span before source output rest out' hspan hrest ih =>
      rcases @turn_of_span build _ _ _ _ _ hspan with ⟨b, hb, hturn⟩ | ⟨text, htext, hdeep⟩
      · rw [renderFrom_of_ok hb hturn, ← append_assoc,
          ih fun hover => hcount (.span hspan hover), append_assoc]
      · exact absurd (htext ▸ .comment hdeep) hcount

theorem renderFrom_of_refuses (h : Refuses fragments before text e)
    (hcount : ¬Overflows fragments before text) :
    renderFrom build (before ++ text) fragments (utf8Len before) out = .error (.template e) := by
  induction h generalizing out with
  | @fault before text e hfault =>
      rcases @turn_of_faulty build _ _ _ _ hfault with ⟨b, hb, hturn⟩ | ⟨rest, rfl, hdeep⟩
      · exact renderFrom_of_error hb hturn
      · exact absurd (.comment hdeep) hcount
  | @span before source output rest e hspan hrest ih =>
      rcases @turn_of_span build _ _ _ _ _ hspan with ⟨b, hb, hturn⟩ | ⟨text, htext, hdeep⟩
      · rw [renderFrom_of_ok hb hturn, ← append_assoc, ih fun hover => hcount (.span hspan hover)]
      · exact absurd (htext ▸ .comment hdeep) hcount

theorem renderFrom_of_overflows (h : Overflows fragments before text) :
    renderFrom .checked (before ++ text) fragments (utf8Len before) out = .error .depthOverflow := by
  induction h generalizing out with
  | comment hdeep => exact renderFrom_of_error (at_head _ _ _) (turn_of_deep hdeep)
  | @span before source output rest hspan hrest ih =>
      rcases @turn_of_span .checked _ _ _ _ _ hspan with ⟨b, hb, hturn⟩ | ⟨text, htext, hdeep⟩
      · rw [renderFrom_of_ok hb hturn, ← append_assoc, ih]
      · rw [htext]
        exact renderFrom_of_error (at_head _ _ _) (turn_of_deep hdeep)

end Runs

section Grammar

variable {fragments} {before text : Text}

theorem exists_digits (text : Text) :
    ∃ digits rest, text = digits ++ rest ∧ (∀ d ∈ digits, d.isDigit) ∧
      ∀ c ∈ rest.head?, c.isDigit = false := by
  induction text with
  | nil => exact ⟨[], [], rfl, nofun, nofun⟩
  | cons c text ih =>
      cases hc : c.isDigit with
      | false => exact ⟨[], c :: text, rfl, nofun, fun d hd => Option.some.inj hd ▸ hc⟩
      | true =>
          obtain ⟨digits, rest, rfl, hdigits, hrest⟩ := ih
          exact ⟨c :: digits, rest, rfl, forall_mem_cons.2 ⟨hc, hdigits⟩, hrest⟩

theorem exists_line (text : Text) :
    ∃ body rest, text = body ++ rest ∧ (∀ c ∈ body, c ≠ '\n') ∧ ∀ c ∈ rest.head?, c = '\n' := by
  induction text with
  | nil => exact ⟨[], [], rfl, nofun, nofun⟩
  | cons c text ih =>
      by_cases hc : c = '\n'
      · exact ⟨[], c :: text, rfl, nofun, fun d hd => Option.some.inj hd ▸ hc⟩
      · obtain ⟨body, rest, rfl, hbody, hrest⟩ := ih
        exact ⟨c :: body, rest, rfl, forall_mem_cons.2 ⟨hc, hbody⟩, hrest⟩

/-- Something can be read at every position of a template, or it is said why not. -/
theorem exists_span_or_faulty (fragments : List Text) (before : Text) (c : Char) (text : Text) :
    (∃ source output rest, c :: text = source ++ rest ∧ Span fragments before source output rest) ∨
      ∃ e, Faulty fragments before (c :: text) e := by
  by_cases hstring : c = '\''
  · subst hstring
    by_cases h : ∃ body rest, text = body ++ rest ∧
      Quoted '\'' (opensEscapeString before) body ∧ rest.head? ≠ some '\''
    · obtain ⟨body, rest, rfl, hbody, hrest⟩ := h
      exact .inl ⟨_, _, rest, rfl, .string hbody hrest⟩
    · push Not at h
      exact .inr ⟨_, .string h⟩
  by_cases hidentifier : c = '"'
  · subst hidentifier
    by_cases h : ∃ body rest, text = body ++ rest ∧ Quoted '"' false body ∧ rest.head? ≠ some '"'
    · obtain ⟨body, rest, rfl, hbody, hrest⟩ := h
      exact .inl ⟨_, _, rest, rfl, .identifier hbody hrest⟩
    · push Not at h
      exact .inr ⟨_, .identifier h⟩
  by_cases hdollar : c = '$'
  · subst hdollar
    obtain ⟨digits, rest, rfl, hdigits, hrest⟩ := exists_digits text
    by_cases hne : digits = []
    · subst hne
      exact .inr ⟨_, .dollar hrest⟩
    have h : Digits digits rest := ⟨hne, hdigits, hrest⟩
    cases hindex : parseUsize digits with
    | none => exact .inr ⟨_, .unparsable h hindex⟩
    | some n =>
        cases n with
        | zero => exact .inr ⟨_, .zero h hindex⟩
        | succ n =>
            cases hfragment : fragments[n]? with
            | none => exact .inr ⟨_, .unbound h hindex hfragment⟩
            | some fragment => exact .inl ⟨_, _, rest, rfl, .placeholder h hindex hfragment⟩
  by_cases hline : c = '-' ∧ text.head? = some '-'
  · obtain ⟨rfl, hhead⟩ := hline
    obtain ⟨tail, rfl⟩ := head?_eq_some_iff.1 hhead
    obtain ⟨body, rest, rfl, hbody, hrest⟩ := exists_line tail
    exact .inl ⟨_, _, rest, rfl, .lineComment hbody hrest⟩
  by_cases hblock : c = '/' ∧ text.head? = some '*'
  · obtain ⟨rfl, hhead⟩ := hblock
    obtain ⟨tail, rfl⟩ := head?_eq_some_iff.1 hhead
    by_cases h : ∃ body rest, tail = body ++ rest ∧ Closes 1 body
    · obtain ⟨body, rest, rfl, hbody⟩ := h
      exact .inl ⟨_, _, rest, rfl, .blockComment hbody⟩
    · push Not at h
      exact .inr ⟨_, .blockComment h⟩
  exact .inl ⟨[c], [c], text, rfl, .plain ⟨hstring, hidentifier, hdollar, hline, hblock⟩⟩

theorem ne_nil_of_span {source output rest : Text}
    (h : Span fragments before source output rest) : source ≠ [] := by
  cases h <;> exact cons_ne_nil _ _

/-- Every template is rendered or refused. -/
theorem renders_or_refuses (fragments : List Text) (before text : Text) :
    (∃ out, Renders fragments before text out) ∨ ∃ e, Refuses fragments before text e := by
  induction hlength : text.length using Nat.strong_induction_on generalizing before text with
  | h n ih =>
      cases text with
      | nil => exact .inl ⟨[], .done⟩
      | cons c tail =>
          rcases exists_span_or_faulty fragments before c
            tail with ⟨source, output, rest, hsplit, hspan⟩ | ⟨e, hfault⟩
          · have hshorter : rest.length < n := by
              rw [← hlength, hsplit, length_append]
              exact Nat.lt_add_of_pos_left (length_pos_of_ne_nil (ne_nil_of_span hspan))
            rw [hsplit]
            exact (ih _ hshorter (before ++ source) rest rfl).imp (fun ⟨out, h⟩ => ⟨_, .span hspan h⟩)
              (fun ⟨e, h⟩ => ⟨e, .span hspan h⟩)
          · exact .inr ⟨e, .fault hfault⟩

end Grammar

/-- What the scanner owes to the grammar: it renders what can be read, says what cannot, and ends in no other way. -/
structure Meets : Prop where
  renders (out : Text) : renderPortableQuerySql build template fragments = .ok out ↔
    Renders fragments [] template out
  refuses (e : TemplateError) :
    renderPortableQuerySql build template fragments = .error (.template e) ↔
      Refuses fragments [] template e
  ends (f : Failure) (h : renderPortableQuerySql build template fragments = .error f) : ∃ e,
    f = .template e

variable {template fragments}

theorem meets_of_countable (hcount : ¬Overflows fragments [] template) :
    Meets build template fragments := by
  have hrenders : ∀ out, Renders fragments [] template out →
    renderPortableQuerySql build template fragments = .ok out :=
    fun out h => renderFrom_of_renders h hcount
  have hrefuses : ∀ e, Refuses fragments [] template e →
      renderPortableQuerySql build template fragments = .error (.template e) :=
    fun e h => renderFrom_of_refuses h hcount
  rcases renders_or_refuses fragments [] template with ⟨out, hout⟩ | ⟨e, he⟩
  · have hrun := hrenders out hout
    refine ⟨fun out' => ⟨fun h => ?_, hrenders out'⟩, fun e => ⟨fun h => ?_, hrefuses e⟩, fun f h => ?_⟩
    · rw [hrun] at h
      exact Except.ok.inj h ▸ hout
    · rw [hrun] at h
      cases h
    · rw [hrun] at h
      cases h
  · have hrun := hrefuses e he
    refine ⟨fun out => ⟨fun h => ?_, hrenders out⟩, fun e' => ⟨fun h => ?_, hrefuses e'⟩, fun f h => ?_⟩
    · rw [hrun] at h
      cases h
    · rw [hrun] at h
      cases h
      exact he
    · rw [hrun] at h
      cases h
      exact ⟨e, rfl⟩

/-- The scanner reads exactly its grammar as long as it can count how deep comments nest. -/
theorem meets_iff (template : Text) (fragments : List Text) :
    (∀ build, Meets build template fragments) ↔ ¬Overflows fragments [] template := by
  refine ⟨fun h hover => ?_, fun hcount build => meets_of_countable build hcount⟩
  obtain ⟨e, he⟩ := (h .checked).ends _ (renderFrom_of_overflows hover)
  cases he

section Nesting

variable {bytes : Bytes} {depth index : Nat}

/-- Comments opened one in another. -/
def opened (levels : Nat) : Text := (replicate levels ['/', '*']).flatten

theorem opened_succ (levels : Nat) : opened (levels + 1) = '/' :: '*' :: opened levels := rfl

theorem not_closes_opened (levels : Nat) (body rest : Text) (h : opened levels = body ++ rest) :
    ¬Closes (depth + 1) body := by
  intro hbody
  induction levels generalizing depth body with
  | zero => exact ne_nil_of_closes hbody (append_eq_nil_iff.1 h.symm).1
  | succ levels ih =>
      rw [opened_succ] at h
      cases hbody with
      | nested hbody => exact ih _ (cons_inj_right _ |>.1 (cons_inj_right _ |>.1 h)) hbody
      | closed => cases (cons.inj h).1
      | @plain _ body c hopens _ hbody =>
          obtain ⟨hc, h⟩ := cons.inj h
          rw [← hc] at hopens
          cases body with
          | nil => exact ne_nil_of_closes hbody rfl
          | cons d body =>
              rw [← (cons.inj h).1] at hopens
              exact hopens (prefix_append ['/', '*'] body)

theorem deep_opened (levels : Nat) (hdepth : 1 ≤ depth)
    (hlt : depth < 2 ^ 32) (hlevels : 2 ^ 32 ≤ depth + levels) :
    Deep depth (opened levels) := by
  induction levels generalizing depth with
  | zero => omega
  | succ levels ih =>
      rw [opened_succ]
      by_cases hlast : depth = 2 ^ 32 - 1
      · rw [hlast]
        exact .tooDeep
      · obtain ⟨depth, rfl⟩ := Nat.exists_eq_add_of_le' hdepth
        exact .nested (ih (by omega) (by omega) (by omega))

/-- Where arithmetic wraps, the comment is taken for closed once the count is back at zero. -/
theorem blockCommentEnd_opened (levels : Nat)
    (hdepth : 1 ≤ depth) (hlevels : depth + (levels + 1) = 2 ^ 32)
    (h : At bytes index (opened (levels + 1))) :
    blockCommentEnd bytes .wrapping depth index = .ok (index + utf8Len (opened (levels + 1))) := by
  obtain ⟨depth, rfl⟩ := Nat.exists_eq_add_of_le' hdepth
  induction levels generalizing depth index with
  | zero =>
      have hwraps : nest .wrapping (depth + 1) = .ok 0 := if_neg (by omega)
      rw [blockCommentEnd_nested h, hwraps]
      exact blockCommentEnd_zero
  | succ levels ih =>
      rw [blockCommentEnd_nested h, nest_of_lt (by omega)]
      dsimp only
      rw [ih ((h.ascii rfl).ascii rfl) (depth + 1) (by omega) (by omega), Nat.add_assoc, Nat.add_assoc]
      rfl

theorem renderPortableQuerySql_opened {levels : Nat} (h : levels + 2 = 2 ^ 32) :
    renderPortableQuerySql .wrapping ('/' :: '*' :: opened (levels + 1)) [] =
      .ok ('/' :: '*' :: opened (levels + 1)) := by
  have hat := at_zero ('/' :: '*' :: opened (levels + 1))
  have hend := @blockCommentEnd_opened _ 1 _ levels le_rfl (by omega) ((hat.ascii rfl).ascii rfl)
  have hcopied := copied_eq [] ('/' :: '*' :: opened (levels + 1)) []
  rw [append_nil] at hcopied
  have hturn : turn .wrapping ('/' :: '*' :: opened (levels + 1)) [] 0 (firstByte '/') =
      .ok (utf8Len ('/' :: '*' :: opened (levels + 1)), '/' :: '*' :: opened (levels + 1)) := by
    rw [turn_blockComment .wrapping [] hat, hend, ok_bind, Nat.add_assoc, Nat.add_assoc]
    exact hcopied
  have hhead := hat.head?
  rw [head?_cons, Option.map_some] at hhead
  rw [renderPortableQuerySql, renderFrom_of_ok hhead hturn]
  exact renderFrom_end

theorem refuses_opened (levels : Nat) :
    Refuses [] [] ('/' :: '*' :: opened levels) .unterminatedComment :=
  .fault (.blockComment (not_closes_opened levels))

end Nesting

/-- With one level of nesting too many, a checked build panics, and a wrapping one renders a comment that nothing closes. -/
theorem nested_too_deep_not_met :
    ¬Meets .checked (opened (2 ^ 32)) [] ∧ ¬Meets .wrapping (opened (2 ^ 32)) [] := by
  have hlevels : 4294967294 + 2 = 2 ^ 32 := rfl
  rw [← hlevels, opened_succ]
  refine ⟨fun h => ?_, fun h => ?_⟩
  · have hdeep : Deep 1 (opened (4294967294 + 1)) := deep_opened _ le_rfl (by decide) (by decide)
    obtain ⟨e, he⟩ := h.ends .depthOverflow (@renderFrom_of_overflows [] [] _ [] (.comment hdeep))
    cases he
  · have hrun := (h.refuses _).2 (refuses_opened _)
    rw [renderPortableQuerySql_opened hlevels] at hrun
    cases hrun

end Paranoid.TemplateRendering

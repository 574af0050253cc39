import Paranoid.TemplateRendering

namespace Paranoid.TemplatePieces

open List TemplateGrammar TemplateScanner TemplateRendering Utf8Text

/-- What the scanner makes of a template: characters that it copies, and placeholders. -/
inductive Piece
  | copied (c : Char)
  | placeholder (digits : Text)
  deriving DecidableEq

section Pieces

variable (fragments : List Text)

/-- The fragment that a placeholder stands for. -/
def fragmentOf (digits : Text) : Option Text :=
  match parseUsize digits with
  | some (n + 1) => fragments[n]?
  | _ => none

def fill : List Piece → Option Text
  | [] => some []
  | .copied c :: pieces => (fill pieces).map (c :: ·)
  | .placeholder digits :: pieces =>
      (fragmentOf fragments digits).bind fun fragment => (fill pieces).map (fragment ++ ·)

/-- The pieces that a template is made of, each placeholder with all its digits. -/
inductive Tiles : List Piece → Text → Prop
  | nil : Tiles [] []
  | copied {c : Char} {pieces : List Piece} {rest : Text} (h : Tiles pieces rest) :
      Tiles (.copied c :: pieces) (c :: rest)
  | placeholder {digits : Text} {pieces : List Piece} {rest : Text} (hdigits : Digits digits rest)
      (h : Tiles pieces rest) : Tiles (.placeholder digits :: pieces) ('$' :: (digits ++ rest))

/-- The template after `before` is a sequence of spans: placeholders, and what is copied. -/
inductive Spells : Text → List Piece → Text → Prop
  | done {before : Text} : Spells before [] []
  | copied {before source rest : Text} {pieces : List Piece} (h : Verbatim before source rest)
      (hrest : Spells (before ++ source) pieces rest) :
      Spells before (source.map .copied ++ pieces) (source ++ rest)
  | placeholder {before digits rest : Text} {pieces : List Piece} (h : Digits digits rest)
      (hrest : Spells (before ++ '$' :: digits) pieces rest) :
      Spells before (.placeholder digits :: pieces) ('$' :: (digits ++ rest))

variable {fragments} {build : Build} {before digits source text tail rest fragment sql out : Text}
  {c : Char} {pieces : List Piece}

theorem fill_copied :
    fill fragments (text.map .copied ++ pieces) = (fill fragments pieces).map (text ++ ·) := by
  induction text with
  | nil =>
      rw [map_nil, nil_append]
      exact Option.map_id'.symm
  | cons c text ih =>
      rw [map_cons, cons_append, fill, ih, Option.map_map]
      rfl

theorem fill_placeholder (h : fragmentOf fragments digits = some fragment) :
    fill fragments (.placeholder digits :: pieces) = (fill fragments pieces).map (fragment ++ ·) := by
  rw [fill, h]
  rfl

theorem mem_of_fragmentOf (h : fragmentOf fragments digits = some fragment) : fragment ∈ fragments := by
  rw [fragmentOf] at h
  split at h
  · exact mem_of_getElem? h
  · cases h

theorem tiles_copied (h : Tiles pieces rest) : Tiles (text.map .copied ++ pieces) (text ++ rest) := by
  induction text with
  | nil => exact h
  | cons c text ih => exact .copied ih

theorem tiles_of_spells (h : Spells before pieces rest) : Tiles pieces rest := by
  induction h with
  | done => exact .nil
  | copied _ _ ih => exact tiles_copied ih
  | placeholder hdigits _ ih => exact .placeholder hdigits ih

/-- A span without placeholders takes one turn, which a checked build may not finish. -/
theorem turn_of_verbatim (build : Build) (fragments : List Text) (h : Verbatim before source rest) :
    ∃ b, (utf8 (before ++ (source ++ rest)))[utf8Len before]? = some b ∧
      (turn build (before ++ (source ++ rest)) fragments (utf8Len before) b =
          .ok (utf8Len (before ++ source), source) ∨
        turn build (before ++ (source ++ rest)) fragments (utf8Len before) b = .error .depthOverflow) := by
  have hspan : ∀ {source rest : Text}, Span fragments before source source rest →
      (∀ text, source ++ rest ≠ '/' :: '*' :: text) →
      ∃ b, (utf8 (before ++ (source ++ rest)))[utf8Len before]? = some b ∧
        (turn build (before ++ (source ++ rest)) fragments (utf8Len before) b =
            .ok (utf8Len (before ++ source), source) ∨
          turn build (before ++ (source ++ rest)) fragments (utf8Len before) b = .error .depthOverflow) := by
    intro source rest hspan hopens
    rcases @turn_of_span build _ _ _ _ _ hspan with ⟨b, hb, hturn⟩ | ⟨text, htext, -⟩
    · exact ⟨b, hb, .inl hturn⟩
    · exact absurd htext (hopens text)
  cases h with
  | string hbody hrest => exact hspan (.string hbody hrest) (by rintro text ⟨⟩)
  | identifier hbody hrest => exact hspan (.identifier hbody hrest) (by rintro text ⟨⟩)
  | lineComment hbody hrest => exact hspan (.lineComment hbody hrest) (by rintro text ⟨⟩)
  | plain hplain =>
      refine hspan (.plain hplain) fun text htext => ?_
      obtain ⟨rfl, rfl⟩ := cons.inj htext
      exact hplain.2.2.2.2 ⟨rfl, rfl⟩
  | @blockComment body _ hbody =>
      have hat := at_append before ('/' :: '*' :: (body ++ rest))
      refine ⟨_, at_head _ _ _, ?_⟩
      rcases @blockCommentEnd_of_countsOut _ build _ _ _ _ hbody
        (by decide) ((hat.ascii rfl).ascii rfl) with hend | hend
      · left
        have hcopied := copied_eq before ('/' :: '*' :: body) rest
        rw [utf8Len_cons, utf8Len_cons, ← Nat.add_assoc, ← Nat.add_assoc] at hcopied
        exact (turn_blockComment build fragments hat).trans (hend ▸ hcopied)
      · exact .inr ((turn_blockComment build fragments hat).trans (hend ▸ rfl))

theorem renderFrom_verbatim (h : Verbatim before source rest)
    (hrun : renderFrom build (before ++ (source ++ rest)) fragments (utf8Len before) out = .ok sql) :
    renderFrom build (before ++ source ++ rest) fragments (utf8Len (before ++ source)) (out ++ source) =
      .ok sql := by
  obtain ⟨b, hb, hturn | hturn⟩ := turn_of_verbatim build fragments h
  · rw [renderFrom_of_ok hb hturn] at hrun
    rwa [append_assoc]
  · rw [renderFrom_of_error hb hturn] at hrun
    cases hrun

/-- A placeholder's turn pushes the fragment of its digits, where there is one. -/
theorem turn_placeholder (build : Build) (fragments : List Text) (before : Text) (h : Digits digits rest) :
    ∃ e, turn build (before ++ '$' :: (digits ++ rest)) fragments (utf8Len before) (firstByte '$') =
      (fragmentOf fragments digits).elim (.error e) fun fragment =>
        .ok (utf8Len (before ++ '$' :: digits), fragment) := by
  obtain ⟨hne, hall, hrest⟩ := h
  have hat := at_append before ('$' :: (digits ++ rest))
  have hlen : utf8Len before + 1 + utf8Len digits = utf8Len (before ++ '$' :: digits) := by
    rw [utf8Len_append, utf8Len_cons, Nat.add_assoc]
    rfl
  rw [turn_dollar, digitsEnd_eq hall hrest (hat.ascii rfl), placeholder_eq hne, hlen, fragmentOf.eq_def]
  cases parseUsize digits with
  | none => exact ⟨_, rfl⟩
  | some n =>
      cases n with
      | zero => exact ⟨_, rfl⟩
      | succ n =>
          dsimp only
          rw [if_neg (Nat.succ_ne_zero n), Nat.succ_sub_one]
          cases fragments[n]? with
          | none => exact ⟨_, rfl⟩
          | some fragment => exact ⟨.depthOverflow, rfl⟩

theorem renderFrom_placeholder (h : Digits digits rest)
    (hrun : renderFrom build (before ++ '$' :: (digits ++ rest)) fragments (utf8Len before) out = .ok sql) :
    ∃ fragment, fragmentOf fragments digits = some fragment ∧
      renderFrom build (before ++ '$' :: digits ++ rest) fragments (utf8Len (before ++ '$' :: digits))
        (out ++ fragment) = .ok sql := by
  have hb := at_head before (digits ++ rest) '$'
  obtain ⟨e, hturn⟩ := turn_placeholder build fragments before h
  cases hfragment : fragmentOf fragments digits with
  | none =>
      rw [hfragment] at hturn
      rw [renderFrom_of_error hb hturn] at hrun
      cases hrun
  | some fragment =>
      rw [hfragment] at hturn
      rw [renderFrom_of_ok hb hturn] at hrun
      refine ⟨fragment, rfl, ?_⟩
      rwa [append_assoc, cons_append]

/-- Where a run ends well, a span begins at every position it comes to. -/
theorem verbatim_or_placeholder
    (hrun : renderFrom build (before ++ c :: tail) fragments (utf8Len before) out = .ok sql) :
    (∃ source rest, c :: tail = source ++ rest ∧ Verbatim before source rest) ∨
      ∃ digits rest, c :: tail = '$' :: (digits ++ rest) ∧ Digits digits rest := by
  have hturns : ∀ {b e}, (utf8 (before ++ c :: tail))[utf8Len before]? = some b →
      turn build (before ++ c :: tail) fragments (utf8Len before) b ≠ .error e := by
    intro b e hb hturn
    rw [renderFrom_of_error hb hturn] at hrun
    cases hrun
  by_cases hblock : c = '/' ∧ tail.head? = some '*'
  · obtain ⟨rfl, hhead⟩ := hblock
    obtain ⟨text, rfl⟩ := head?_eq_some_iff.1 hhead
    have hat := at_append before ('/' :: '*' :: text)
    have hturn := turn_blockComment build fragments hat
    cases hend : blockCommentEnd (utf8 (before ++ '/' :: '*' :: text)) build 1 (utf8Len before + 2) with
    | error e =>
        rw [hend] at hturn
        exact absurd hturn (hturns (at_head _ _ _))
    | ok stop =>
        obtain ⟨body, rest, rfl, hbody⟩ := countsOut_of_blockCommentEnd text 1 _ (by decide)
          ((hat.ascii rfl).ascii rfl) hend
        exact .inl ⟨'/' :: '*' :: body, rest, rfl, .blockComment hbody⟩
  · rcases exists_span_or_faulty fragments before c tail with
      ⟨source, output, rest, hsplit, hspan⟩ | ⟨e, hfault⟩
    · cases hspan with
      | string hbody hrest => exact .inl ⟨_, rest, hsplit, .string hbody hrest⟩
      | identifier hbody hrest => exact .inl ⟨_, rest, hsplit, .identifier hbody hrest⟩
      | lineComment hbody hrest => exact .inl ⟨_, rest, hsplit, .lineComment hbody hrest⟩
      | blockComment =>
          obtain ⟨rfl, rfl⟩ := cons.inj hsplit
          exact absurd ⟨rfl, rfl⟩ hblock
      | placeholder hdigits _ _ => exact .inr ⟨_, rest, hsplit, hdigits⟩
      | plain hplain => exact .inl ⟨_, rest, hsplit, .plain hplain⟩
    · rcases @turn_of_faulty build _ _ _ _ hfault with ⟨b, hb, hturn⟩ | ⟨text, htext, -⟩
      · exact absurd hturn (hturns hb)
      · obtain ⟨rfl, rfl⟩ := cons.inj htext
        exact absurd ⟨rfl, rfl⟩ hblock

/-- A template whose run ends well is spelled by pieces. -/
theorem exists_spells
    (hrun : renderFrom build (before ++ rest) fragments (utf8Len before) out = .ok sql) :
    ∃ pieces, Spells before pieces rest := by
  induction hlength : rest.length using Nat.strong_induction_on generalizing before rest out with
  | h n ih =>
      cases rest with
      | nil => exact ⟨[], .done⟩
      | cons c tail =>
          rcases verbatim_or_placeholder hrun with ⟨source, rest, hsplit, hspan⟩ | ⟨digits, rest, hsplit, hdigits⟩
          · have hshorter : rest.length < n := by
              have hne : source ≠ [] := by cases hspan <;> exact cons_ne_nil _ _
              rw [← hlength, hsplit, length_append]
              exact Nat.lt_add_of_pos_left (length_pos_of_ne_nil hne)
            rw [hsplit] at hrun ⊢
            obtain ⟨pieces, hpieces⟩ := ih _ hshorter (renderFrom_verbatim hspan hrun) rfl
            exact ⟨_, .copied hspan hpieces⟩
          · have hshorter : rest.length < n := by
              rw [← hlength, hsplit, length_cons, length_append]
              omega
            rw [hsplit] at hrun ⊢
            obtain ⟨fragment, -, hnext⟩ := renderFrom_placeholder hdigits hrun
            obtain ⟨pieces, hpieces⟩ := ih _ hshorter hnext rfl
            exact ⟨_, .placeholder hdigits hpieces⟩

/-- What a run pushes is what the pieces that spell its template are filled to. -/
theorem fill_of_spells (h : Spells before pieces rest)
    (hrun : renderFrom build (before ++ rest) fragments (utf8Len before) out = .ok sql) :
    ∃ text, fill fragments pieces = some text ∧ sql = out ++ text := by
  induction h generalizing out with
  | done =>
      rw [append_nil, renderFrom_end] at hrun
      exact ⟨[], rfl, (append_nil out).symm ▸ (Except.ok.inj hrun).symm⟩
  | copied hspan _ ih =>
      obtain ⟨text, hfill, rfl⟩ := ih (renderFrom_verbatim hspan hrun)
      exact ⟨_, by rw [fill_copied, hfill]; rfl, append_assoc ..⟩
  | placeholder hdigits _ ih =>
      obtain ⟨fragment, hfragment, hnext⟩ := renderFrom_placeholder hdigits hrun
      obtain ⟨text, hfill, rfl⟩ := ih hnext
      exact ⟨_, by rw [fill_placeholder hfragment, hfill]; rfl, append_assoc ..⟩

end Pieces

end Paranoid.TemplatePieces

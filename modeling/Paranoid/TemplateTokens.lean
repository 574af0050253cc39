import Paranoid.LiteralLexemes
import Paranoid.TemplatePieces

namespace Paranoid.TemplateTokens

open List Postgres SqlLexemes SqlLiteral SqlSeams SqlTexts
open TemplateGrammar TemplatePieces TemplateRendering TemplateScanner Utf8Text
open LiteralLexemes (Begins)

section Substitution

variable (fragments : List Text)

/-- What a lexeme of a template is to come to: a parameter is a placeholder, all else is copied. -/
def piecesOf (x : Lexeme) : List Piece :=
  if x.kind = .parameter then [.placeholder x.text.tail] else x.text.map .copied

/-- The lexemes of a template with the lexemes of a fragment in place of each parameter. -/
def substituted : List Lexeme → Option (List Lexeme)
  | [] => some []
  | x :: ls =>
      if x.kind = .parameter then
        ((fragmentOf fragments x.text.tail).bind lexemes).bind fun xs => (substituted ls).map (xs ++ ·)
      else (substituted ls).map (x :: ·)

variable {fragments} {after before : After} {ls xs ys : List Lexeme}
  {text s t : Text} {pieces tiles : List Piece}

theorem digits_of_parameter {u rest : Text} (h : Reads after .parameter u rest) :
    ∃ digits, u = '$' :: digits ∧ Digits digits rest := by
  generalize hkind : Kind.parameter = kind at h
  cases h with
  | parameter hne hdigits hrest =>
      exact ⟨_, rfl, hne, hdigits, fun c hc => (Bool.or_eq_false_iff.1 (hrest c hc)).2⟩
  | quoted _ _ =>
      rw [Opening.kind.eq_def] at hkind
      split_ifs at hkind
      split at hkind <;> cases hkind
  | _ => cases hkind

theorem tiles_of_lexes (h : Lexes after ls) : Tiles (ls.flatMap piecesOf) (textOf ls) := by
  induction ls generalizing after with
  | nil => exact .nil
  | cons x ls ih =>
      obtain ⟨hx, hls⟩ := h
      rw [flatMap_cons, textOf_cons, piecesOf]
      split_ifs with hparameter
      · obtain ⟨digits, htext, hdigits⟩ := digits_of_parameter (hparameter ▸ hx)
        rw [htext]
        exact .placeholder hdigits (ih hls)
      · exact tiles_copied (ih hls)

/-- Filling the placeholders is substituting lexemes, where all fragments have lexemes. -/
theorem fill_eq_substituted (hfragments : ∀ fragment ∈ fragments, ∃ xs, lexemes fragment = some xs) :
    fill fragments (ls.flatMap piecesOf) = (substituted fragments ls).map textOf := by
  induction ls with
  | nil => rfl
  | cons x ls ih =>
      rw [flatMap_cons, piecesOf, substituted]
      split_ifs with hparameter
      · rw [singleton_append, fill, ih]
        cases hfragment : fragmentOf fragments x.text.tail with
        | none => rfl
        | some fragment =>
            obtain ⟨xs, hxs⟩ := hfragments fragment (mem_of_fragmentOf hfragment)
            obtain ⟨rfl, -⟩ := lexemes_eq_some.1 hxs
            rw [Option.bind_some, Option.bind_some, hxs,
              Option.bind_some, Option.map_map, Option.map_map]
            refine Option.map_congr fun ys _ => textOf_append.symm
      · rw [fill_copied, ih, Option.map_map, Option.map_map]
        rfl

theorem sound_append (h : Sound after xs) (hys : Sound (xs.foldl After.next after) ys) :
    Sound after (xs ++ ys) := by
  induction xs generalizing after with
  | nil => exact hys
  | cons x xs ih => exact ⟨h.1, h.2.1, ih h.2.2 hys⟩

theorem sound_substituted (h : Lexes before ls) (hfollows : Follows after before)
    (hxs : substituted fragments ls = some xs) : Sound after xs := by
  induction ls generalizing after before xs with
  | nil =>
      cases hxs
      trivial
  | cons x ls ih =>
      rw [substituted] at hxs
      split_ifs at hxs with hparameter
      · obtain ⟨fs, hfs, hxs⟩ := Option.bind_eq_some_iff.1 hxs
        obtain ⟨fragment, -, hlex⟩ := Option.bind_eq_some_iff.1 hfs
        obtain ⟨ys, hys, rfl⟩ := Option.map_eq_some_iff.1 hxs
        have hnext : before.next x = .other := by
          rw [After.next.eq_def, hparameter]
        exact sound_append (sound_of_lexes (lexemes_eq_some.1 hlex).2 (.inl rfl))
          (ih h.2 (.inl hnext) hys)
      · obtain ⟨ys, hys, rfl⟩ := Option.map_eq_some_iff.1 hxs
        obtain ⟨hwhole, -⟩ := reads_append.1 h.1
        exact ⟨⟨before, hwhole⟩, fun _ => hfollows.continued hwhole, ih h.2 (hfollows.next x) hys⟩

/-- Two ways to read a template are filled to texts that differ at a place that is no space. -/
theorem eq_or_differ (hbegins : ∀ fragment ∈ fragments, Begins fragment) (hpieces : Tiles pieces text)
    (htiles : Tiles tiles text) (hs : fill fragments pieces = some s)
    (ht : fill fragments tiles = some t) :
    pieces = tiles ∨ Differ s t := by
  induction hpieces generalizing tiles s t with
  | nil =>
      cases htiles
      exact .inl rfl
  | @copied c pieces rest _ ih =>
      obtain ⟨s', hs', rfl⟩ := Option.map_eq_some_iff.1 hs
      cases htiles with
      | copied htiles =>
          obtain ⟨t', ht', rfl⟩ := Option.map_eq_some_iff.1 ht
          exact (ih htiles hs' ht').imp (congrArg (Piece.copied c :: ·)) .there
      | placeholder hdigits htiles =>
          obtain ⟨fragment, hfragment, ht⟩ := Option.bind_eq_some_iff.1 ht
          obtain ⟨t, -, rfl⟩ := Option.map_eq_some_iff.1 ht
          obtain ⟨d, tail, rfl, hspace, hdollar⟩ := hbegins _ (mem_of_fragmentOf hfragment)
          exact .inr (.here hdollar.symm (by decide) hspace)
  | @placeholder digits pieces rest hdigits _ ih =>
      obtain ⟨fragment, hfragment, hs⟩ := Option.bind_eq_some_iff.1 hs
      obtain ⟨s', hs', rfl⟩ := Option.map_eq_some_iff.1 hs
      generalize htext : '$' :: (digits ++ rest) = text at htiles
      cases htiles with
      | nil => cases htext
      | copied htiles =>
          obtain ⟨rfl, -⟩ := cons.inj htext
          obtain ⟨t, -, rfl⟩ := Option.map_eq_some_iff.1 ht
          obtain ⟨d, tail, rfl, hspace, hdollar⟩ := hbegins _ (mem_of_fragmentOf hfragment)
          exact .inr (.here hdollar hspace (by decide))
      | @placeholder other tiles behind hother htiles =>
          have hsame : digits = other ∧ rest = behind := by
            have hrun := takeWhile_run hdigits.2.1 hdigits.2.2
            rw [(cons.inj htext).2, takeWhile_run hother.2.1 hother.2.2] at hrun
            exact ⟨hrun.symm, append_cancel_left (hrun ▸ (cons.inj htext).2)⟩
          obtain ⟨rfl, rfl⟩ := hsame
          obtain ⟨found, hfound, ht⟩ := Option.bind_eq_some_iff.1 ht
          obtain ⟨t', ht', rfl⟩ := Option.map_eq_some_iff.1 ht
          obtain rfl := Option.some.inj (hfragment.symm.trans hfound)
          exact (ih htiles hs' ht').imp (congrArg (Piece.placeholder digits :: ·)) (·.append fragment)

end Substitution

section Queries

variable {OffsetDateTime Date Value Uuid : Type} (formats : Formats OffsetDateTime Date Value Uuid)

structure PortableQuery where
  template : Text
  fragments : List Text
  pendingError : Option DbError

def portableQuery (sql : Text) : PortableQuery := ⟨sql, [], none⟩

/-- Binds a value, unless one before it could not be encoded. -/
def PortableQuery.bind (query : PortableQuery) (value : PortableValue OffsetDateTime Date Value Uuid) :
    PortableQuery :=
  match query.pendingError with
  | some _ => query
  | none =>
      match encodePortableQueryLiteral formats value [] with
      | .ok fragment => { query with fragments := query.fragments ++ [fragment] }
      | .error error => { query with pendingError := some error }

inductive QueryError
  | encoding (error : DbError)
  | rendering (failure : Failure)

def PortableQuery.intoRawSql (build : Build) (query : PortableQuery) : Except QueryError Text :=
  match query.pendingError with
  | some error => .error (.encoding error)
  | none => (renderPortableQuerySql build query.template query.fragments).mapError .rendering

/-- A query with its values bound one by one. -/
def bound (template : Text) (values : List (PortableValue OffsetDateTime Date Value Uuid)) :
    PortableQuery :=
  values.foldl (PortableQuery.bind formats) (portableQuery template)

variable {formats} {build : Build} {template out : Text}
  {ls xs ys : List Lexeme} {query : PortableQuery}
  {value : PortableValue OffsetDateTime Date Value Uuid}
  {values : List (PortableValue OffsetDateTime Date Value Uuid)}

theorem bind_template : (query.bind formats value).template = query.template := by
  rw [PortableQuery.bind]
  split
  · rfl
  · split <;> rfl

theorem foldl_template :
    (values.foldl (PortableQuery.bind formats) query).template = query.template := by
  induction values generalizing query with
  | nil => rfl
  | cons value values ih => exact ih.trans bind_template

theorem bind_fragments {fragment : Text} (h : fragment ∈ (query.bind formats value).fragments) :
    fragment ∈ query.fragments ∨ encodePortableQueryLiteral formats value [] = .ok fragment := by
  rw [PortableQuery.bind] at h
  split at h
  · exact .inl h
  · split at h
    next found hfound =>
      rw [hfound, Except.ok.injEq, eq_comm]
      simpa using h
    next => exact .inl h

theorem foldl_fragments {fragment : Text}
    (h : fragment ∈ (values.foldl (PortableQuery.bind formats) query).fragments) :
    fragment ∈ query.fragments ∨
      ∃ value, encodePortableQueryLiteral formats value [] = .ok fragment := by
  induction values generalizing query with
  | nil => exact .inl h
  | cons value values ih =>
      rcases ih h with h | h
      · exact (bind_fragments h).imp_right fun h => ⟨value, h⟩
      · exact .inr h

/-- Every fragment of a bound query is the literal of a value. -/
theorem literal_of_fragment {fragment : Text}
    (h : fragment ∈ (bound formats template values).fragments) :
    Begins fragment ∧ ∃ xs, lexemes fragment = some xs := by
  rcases foldl_fragments h with h | ⟨value, hvalue⟩
  · cases h
  · obtain ⟨text, rfl, hliteral, hbegins⟩ := LiteralLexemes.pushes_value hvalue
    have hlexable := hliteral [] LiteralLexemes.behind_nil
    rw [append_nil] at hlexable
    exact ⟨hbegins, exists_lexemes_iff.2 hlexable⟩

/-- The tokens and comments of `out` are those of the template, with those of a fragment in
place of each parameter. -/
def KeepsTokens (fragments : List Text) (template out : Text) : Prop :=
  ∃ ls xs ys, lexemes template = some ls ∧ substituted fragments ls = some xs ∧ lexemes out = some ys ∧
    visible ys = visible xs

theorem render_of_intoRawSql (h : (bound formats template values).intoRawSql build = .ok out) :
    renderPortableQuerySql build template (bound formats template values).fragments = .ok out := by
  rw [PortableQuery.intoRawSql] at h
  split at h
  · cases h
  · have htemplate : (bound formats template values).template = template := foldl_template
    rw [htemplate] at h
    exact mapError_eq_ok.1 h

section Outputs

variable {fragments : List Text}

/-- What is rendered has the tokens it should have only where the spans of the template are its
lexemes and no lexeme runs into the next. -/
theorem spells_of_visible (hls : Lexes .other ls)
    (hrender : renderPortableQuerySql build (textOf ls) fragments = .ok out)
    (hfragments : ∀ fragment ∈ fragments, Begins fragment ∧ ∃ xs, lexemes fragment = some xs)
    (hxs : substituted fragments ls = some xs)
    (hys : lexemes out = some ys) (hvisible : visible ys = visible xs) :
    Spells [] (ls.flatMap piecesOf) (textOf ls) ∧ apart .other xs := by
  obtain ⟨hout, hlexes⟩ := lexemes_eq_some.1 hys
  obtain ⟨pieces, hspells⟩ := @exists_spells fragments build [] (textOf ls) out [] hrender
  obtain ⟨text, htext, rfl⟩ := @fill_of_spells fragments build [] (textOf ls) out [] _ hspells hrender
  have hexpected : fill fragments (ls.flatMap piecesOf) = some (textOf xs) := by
    rw [fill_eq_substituted fun fragment h => (hfragments fragment h).2, hxs]
    rfl
  have hpieces := eq_or_differ (fun fragment h => (hfragments fragment h).1)
    (tiles_of_spells hspells) (tiles_of_lexes hls) htext hexpected
  have hnear : Near (textOf ys) (textOf xs) := by
    rw [← hout]
    refine hpieces.imp_left fun hsame => ?_
    rw [hsame, hexpected] at htext
    exact (Option.some.inj htext).symm
  have hsound : Sound .other xs := sound_substituted hls (.inl rfl) hxs
  obtain rfl : ys = xs :=
    eq_of_visible (@sound_of_lexes .other .other ys hlexes (.inl rfl)).reads hsound.reads hvisible hnear
  have hequal := hpieces.resolve_right fun hdiffer => hdiffer.ne hout
  exact ⟨hequal ▸ hspells, (lexes_iff_apart hsound).1 hlexes⟩

/-- There it has them. -/
theorem lexemes_of_spells (hls : Lexes .other ls)
    (hrender : renderPortableQuerySql build (textOf ls) fragments = .ok out)
    (hfragments : ∀ fragment ∈ fragments, Begins fragment ∧ ∃ xs, lexemes fragment = some xs)
    (hspells : Spells [] (ls.flatMap piecesOf) (textOf ls))
    (hxs : substituted fragments ls = some xs)
    (hapart : apart .other xs) : lexemes out = some xs := by
  obtain ⟨text, htext, rfl⟩ := @fill_of_spells fragments build [] (textOf ls) out [] _ hspells hrender
  rw [fill_eq_substituted fun fragment h => (hfragments fragment h).2, hxs] at htext
  have hlexes := (lexes_iff_apart (sound_substituted hls (.inl rfl) hxs)).2 hapart
  exact lexemes_eq_some.2 ⟨(Option.some.inj htext).symm, hlexes⟩

end Outputs

/-- A query that is rendered keeps the tokens of its template, with those of its values in place of
the parameters, if and only if the spans of the template are its lexemes, each placeholder a
parameter, and no lexeme of the result runs into the next. -/
theorem keepsTokens_iff (hrun : (bound formats template values).intoRawSql build = .ok out) :
    KeepsTokens (bound formats template values).fragments template out ↔
      ∃ ls xs, lexemes template = some ls ∧ Spells [] (ls.flatMap piecesOf) template ∧
        substituted (bound formats template values).fragments ls = some xs ∧ apart .other xs := by
  have hrender := render_of_intoRawSql hrun
  have hfragments := fun fragment => @literal_of_fragment _ _ _ _ formats template values fragment
  constructor
  · rintro ⟨ls, xs, ys, hls, hxs, hys, hvisible⟩
    obtain ⟨rfl, hlexes⟩ := lexemes_eq_some.1 hls
    obtain ⟨hspells, hapart⟩ := spells_of_visible hlexes hrender hfragments hxs hys hvisible
    exact ⟨ls, xs, hls, hspells, hxs, hapart⟩
  · rintro ⟨ls, xs, hls, hspells, hxs, hapart⟩
    obtain ⟨rfl, hlexes⟩ := lexemes_eq_some.1 hls
    exact ⟨ls, xs, xs, hls, hxs, lexemes_of_spells hlexes hrender hfragments hspells hxs hapart, rfl⟩

section Runs

variable {fragments : List Text} {before plain rest text : Text}

theorem renders_plain (hplain : plain.all fun c => c ∉ "'\"$-/".toList)
    (h : Renders fragments (before ++ plain) rest out) :
    Renders fragments before (plain ++ rest) (plain ++ out) := by
  induction plain generalizing before with
  | nil => rwa [append_nil] at h
  | cons c plain ih =>
      rw [all_cons, Bool.and_eq_true, decide_eq_true_eq] at hplain
      have hc : c ≠ '\'' ∧ c ≠ '"' ∧ c ≠ '$' ∧ c ≠ '-' ∧ c ≠ '/' := by simpa using hplain.1
      obtain ⟨hstring, hidentifier, hdollar, hline, hblock⟩ := hc
      have hspan : Span fragments before [c] [c] (plain ++ rest) :=
        .plain ⟨hstring, hidentifier, hdollar, fun h => hline h.1, fun h => hblock h.1⟩
      have hrest : Renders fragments (before ++ [c]) (plain ++ rest) (plain ++ out) := by
        refine ih hplain.2 ?_
        rwa [append_assoc, singleton_append]
      exact @Renders.span _ _ [c] [c] (plain ++ rest) (plain ++ out) hspan hrest

theorem renders_parameter {fragment : Text} : Renders [fragment] before "$1".toList fragment := by
  have hdigits : Digits ['1'] [] := by
    refine ⟨cons_ne_nil _ _, forall_of_all (by decide), fun c hc => ?_⟩
    cases hc
  have hspan : Span [fragment] before ('$' :: ['1']) fragment [] := .placeholder hdigits rfl rfl
  have hrenders : Renders [fragment] before "$1".toList (fragment ++ []) := .span hspan .done
  rwa [append_nil] at hrenders

theorem mem_of_overflows (h : Overflows fragments before text) : '/' ∈ text := by
  induction h with
  | comment => exact mem_cons_self
  | span _ _ ih => exact mem_append_right _ ih

theorem render_of_renders (h : Renders fragments [] text out) (hslash : '/' ∉ text) :
    renderPortableQuerySql build text fragments = .ok out :=
  renderFrom_of_renders h (mt mem_of_overflows hslash)

end Runs

def minusZero : Binary64.Float64 := .finite true .zero

def noFormats : Formats Unit Unit Unit Unit :=
  ⟨fun _ => none, fun _ => none, fun _ => none, fun _ => []⟩

def minusZeroLiteral : Text := "-0.0::double precision".toList

theorem renders_minusZero : Renders [minusZeroLiteral]
    [] "SELECT 5 -$1".toList ("SELECT 5 -".toList ++ minusZeroLiteral) := by
  have hminus : Span [minusZeroLiteral] "SELECT 5 ".toList ['-'] ['-'] "$1".toList :=
    .plain ⟨by decide, by decide, by decide, by decide, by decide⟩
  have hsigned : Renders [minusZeroLiteral] "SELECT 5 ".toList "-$1".toList ('-' :: minusZeroLiteral) :=
    .span hminus renders_parameter
  exact @renders_plain _ _ [] "SELECT 5 ".toList "-$1".toList (by decide) hsigned

/-- The sign of a value and the minus before it are read as a comment, up to the end of the line. -/
theorem sign_opens_comment :
    (bound noFormats "SELECT 5 -$1".toList [.f64 minusZero]).intoRawSql .checked =
        .ok "SELECT 5 --0.0::double precision".toList ∧
      (lexemes "SELECT 5 -$1".toList).isSome ∧
      ¬KeepsTokens (bound noFormats "SELECT 5 -$1".toList [.f64 minusZero]).fragments
        "SELECT 5 -$1".toList
        "SELECT 5 --0.0::double precision".toList := by
  have hbound : bound noFormats "SELECT 5 -$1".toList [.f64 minusZero] =
      ⟨"SELECT 5 -$1".toList, [minusZeroLiteral], none⟩ := rfl
  have hrender : renderPortableQuerySql .checked "SELECT 5 -$1".toList [minusZeroLiteral] =
      .ok "SELECT 5 --0.0::double precision".toList := render_of_renders renders_minusZero (by decide)
  refine ⟨?_, by decide +kernel, ?_⟩
  · rw [hbound, PortableQuery.intoRawSql]
    dsimp only
    rw [hrender]
    rfl
  · rintro ⟨ls, xs, ys, hls, hxs, hys, hvisible⟩
    have height : ((lexemes "SELECT 5 -$1".toList).bind (substituted [minusZeroLiteral])).map
        (fun xs => (visible xs).length) = some 8 := by decide +kernel
    have hthree : (lexemes "SELECT 5 --0.0::double precision".toList).map
        (fun ys => (visible ys).length) = some 3 := by decide +kernel
    rw [hbound] at hxs
    rw [hls, Option.bind_some, hxs, Option.map_some, Option.some_inj] at height
    rw [hys, Option.map_some, Option.some_inj, hvisible, height] at hthree
    cases hthree

theorem keepsTokens_iff_null :
    KeepsTokens (bound noFormats "SELECT $1".toList [.none]).fragments
      "SELECT $1".toList "SELECT NULL".toList ∧
      ∃ ls xs, lexemes "SELECT $1".toList = some ls ∧
        Spells [] (ls.flatMap piecesOf) "SELECT $1".toList ∧
        substituted (bound noFormats "SELECT $1".toList [.none]).fragments ls = some xs ∧
          apart .other xs := by
  have hrenders : Renders ["NULL".toList] [] "SELECT $1".toList "SELECT NULL".toList :=
    @renders_plain _ _ [] "SELECT ".toList "$1".toList (by decide) renders_parameter
  have hrun : (bound noFormats "SELECT $1".toList [.none]).intoRawSql .checked =
    .ok "SELECT NULL".toList := by
    have hrender := @render_of_renders .checked _ _ _ hrenders (by decide)
    exact congrArg (Except.mapError QueryError.rendering) hrender
  have hkeeps : KeepsTokens ["NULL".toList] "SELECT $1".toList "SELECT NULL".toList :=
    ⟨[⟨.identifier, "SELECT".toList⟩, ⟨.space, [' ']⟩, ⟨.parameter, "$1".toList⟩],
      [⟨.identifier, "SELECT".toList⟩, ⟨.space, [' ']⟩, ⟨.identifier, "NULL".toList⟩],
      [⟨.identifier, "SELECT".toList⟩, ⟨.space, [' ']⟩, ⟨.identifier, "NULL".toList⟩],
      by decide +kernel, by decide +kernel, by decide +kernel, rfl⟩
  exact ⟨hkeeps, (keepsTokens_iff hrun).1 hkeeps⟩

end Queries

end Paranoid.TemplateTokens

import Paranoid.Postgres
import Paranoid.TemplateGrammar
import Paranoid.Utf8Text

namespace Paranoid.TemplateScanner

open ByteCodecs List TemplateGrammar Utf8Text

/-- The errors of the scanner, and the panics it could end in. -/
inductive Failure
  | template (e : TemplateError)
  | notCharBoundary
  | depthOverflow
  deriving DecidableEq

/-- Whether arithmetic is checked for overflow, or wraps. -/
inductive Build
  | checked
  | wrapping
  deriving DecidableEq

def isAsciiAlphanumeric (b : UInt8) : Bool :=
  (48 ≤ b.toNat && b.toNat ≤ 57) || (65 ≤ b.toNat && b.toNat ≤ 90) || (97 ≤ b.toNat && b.toNat ≤ 122)

def isIdentifierContinuationByte (b : UInt8) : Bool :=
  isAsciiAlphanumeric b || b = '_'.toUInt8 || 0x80 ≤ b.toNat

def isAsciiDigit (b : UInt8) : Bool := 48 ≤ b.toNat && b.toNat ≤ 57

def utf8SequenceLen (leadByte : UInt8) : Nat :=
  if leadByte &&& 0x80 = 0 then 1
  else if leadByte &&& 0xe0 = 0xc0 then 2
  else if leadByte &&& 0xf0 = 0xe0 then 3
  else if leadByte &&& 0xf8 = 0xf0 then 4
  else 1

section Loops

variable (bytes : Bytes)

def isEscapeString (index : Nat) : Bool :=
  1 ≤ index && (bytes[index - 1]? = some 'E'.toUInt8 || bytes[index - 1]? = some 'e'.toUInt8) &&
    (index < 2 || !bytes[index - 2]?.any isIdentifierContinuationByte)

/-- The loop over a string literal or a quoted identifier, from behind its opening quote. -/
def quotedEnd (quote : UInt8) (escapeString : Bool) (unterminated : TemplateError) (index : Nat) :
    Except Failure Nat :=
  match h : bytes[index]? with
  | none => .error (.template unterminated)
  | some b =>
      have : index < bytes.length := (List.getElem?_eq_some_iff.1 h).1
      if b = '\\'.toUInt8 ∧ escapeString then quotedEnd quote escapeString unterminated (index + 2)
      else if b = quote then
        if bytes[index + 1]? = some quote then quotedEnd quote escapeString unterminated (index + 2)
        else .ok (index + 1)
      else quotedEnd quote escapeString unterminated (index + 1)
termination_by bytes.length - index

def lineCommentEnd (index : Nat) : Nat :=
  match h : bytes[index]? with
  | none => index
  | some b =>
      have : index < bytes.length := (List.getElem?_eq_some_iff.1 h).1
      if b = '\n'.toUInt8 then index else lineCommentEnd (index + 1)
termination_by bytes.length - index

/-- `depth += 1` -/
def nest (build : Build) (depth : Nat) : Except Failure Nat :=
  if depth + 1 < 2 ^ 32 then .ok (depth + 1)
  else match build with
    | .checked => .error .depthOverflow
    | .wrapping => .ok 0

def blockCommentEnd (build : Build) (depth index : Nat) : Except Failure Nat :=
  if depth = 0 then .ok index
  else
    match h : bytes[index]? with
    | none => .error (.template .unterminatedComment)
    | some b =>
        have : index < bytes.length := (List.getElem?_eq_some_iff.1 h).1
        if b = '/'.toUInt8 ∧ bytes[index + 1]? = some '*'.toUInt8 then
          match nest build depth with
          | .error e => .error e
          | .ok deeper => blockCommentEnd build deeper (index + 2)
        else if b = '*'.toUInt8 ∧ bytes[index + 1]? = some '/'.toUInt8 then
          blockCommentEnd build (depth - 1) (index + 2)
        else blockCommentEnd build depth (index + 1)
termination_by bytes.length - index

def digitsEnd (index : Nat) : Nat :=
  match h : bytes[index]? with
  | none => index
  | some b =>
      have : index < bytes.length := (List.getElem?_eq_some_iff.1 h).1
      if isAsciiDigit b then digitsEnd (index + 1) else index
termination_by bytes.length - index

end Loops

variable (build : Build) (template : Text) (fragments : List Text)

/-- `&template[start..stop]`, which panics inside a character. -/
def spanOf (start stop : Nat) : Except Failure Text :=
  match slice template start stop with
  | some span => .ok span
  | none => .error .notCharBoundary

/-- A span that is copied as it is. -/
def copied (start stop : Nat) : Except Failure (Nat × Text) := do
  return (stop, ← spanOf template start stop)

def placeholder (digitsStart digitsEnd : Nat) : Except Failure (Nat × Text) :=
  if digitsEnd = digitsStart then .error (.template .unsupportedDollar)
  else do
    let digits ← spanOf template digitsStart digitsEnd
    match parseUsize digits with
    | none => .error (.template (.invalidIndex digits))
    | some placeholderIndex =>
        if placeholderIndex = 0 then .error (.template .zeroIndex)
        else
          match fragments[placeholderIndex - 1]? with
          | none => .error (.template (.noBind placeholderIndex))
          | some fragment => .ok (digitsEnd, fragment)

/-- One turn of the scanner's loop at the byte `b`: where it goes on and what it pushes. -/
def turn (index : Nat) (b : UInt8) : Except Failure (Nat × Text) := do
  let bytes := utf8 template
  if b = '\''.toUInt8 then
    copied template index
      (← quotedEnd bytes '\''.toUInt8 (isEscapeString bytes index) .unterminatedString (index + 1))
  else if b = '"'.toUInt8 then
    copied template index (← quotedEnd bytes '"'.toUInt8 false .unterminatedIdentifier (index + 1))
  else if b = '-'.toUInt8 ∧ bytes[index + 1]? = some '-'.toUInt8 then
    copied template index (lineCommentEnd bytes index)
  else if b = '/'.toUInt8 ∧ bytes[index + 1]? = some '*'.toUInt8 then
    copied template index (← blockCommentEnd bytes build 1 (index + 2))
  else if b = '$'.toUInt8 then placeholder template fragments (index + 1) (digitsEnd bytes (index + 1))
  else copied template index (index + utf8SequenceLen b)

section Quotes

variable {bytes : Bytes} {index : Nat} {text rest : Text} {quote c : Char} {escapes : Bool} {b : UInt8}
  {unterminated : TemplateError}

theorem quotedEnd_of_byte {q : UInt8} (h : bytes[index]? = some b) :
    quotedEnd bytes q escapes unterminated index =
      if b = '\\'.toUInt8 ∧ escapes then quotedEnd bytes q escapes unterminated (index + 2)
      else if b = q then
        if bytes[index + 1]? = some q then quotedEnd bytes q escapes unterminated (index + 2) else .ok (index + 1)
      else quotedEnd bytes q escapes unterminated (index + 1) := by
  rw [quotedEnd]
  split
  next hnone =>
      rw [h] at hnone
      cases hnone
  next hsome =>
      obtain rfl := Option.some.inj (h.symm.trans hsome)
      rfl

theorem quotedEnd_of_none {q : UInt8} (h : bytes[index]? = none) :
    quotedEnd bytes q escapes unterminated index = .error (.template unterminated) := by
  rw [quotedEnd]
  split
  next => rfl
  next hsome =>
      rw [h] at hsome
      cases hsome

/-- Neither a quote nor a backslash has a byte above the ASCII ones. -/
theorem quotedEnd_skip (hquote : isAscii quote) (h : bytes[index]? = some b) (hb : 128 ≤ b.toNat) :
    quotedEnd bytes quote.toUInt8 escapes unterminated index =
      quotedEnd bytes quote.toUInt8 escapes unterminated (index + 1) := by
  have hlow : ∀ d : Char, isAscii d → b ≠ d.toUInt8 := by
    rintro d hd rfl
    have hlt : d.toNat < 128 := of_decide_eq_true hd
    rw [toNat_toUInt8 hd] at hb
    omega
  rw [quotedEnd_of_byte h, if_neg (fun hesc => hlow '\\' rfl hesc.1), if_neg (hlow quote hquote)]

theorem quotedEnd_plain (h : At bytes index (c :: text)) (hquote : isAscii quote) (hc : c ≠ quote)
    (hescape : ¬(escapes ∧ c = '\\')) :
    quotedEnd bytes quote.toUInt8 escapes unterminated index =
      quotedEnd bytes quote.toUInt8 escapes unterminated (index + c.utf8Size) := by
  have hhead := h.head?
  rw [head?_cons, Option.map_some] at hhead
  rw [quotedEnd_of_byte hhead, if_neg (fun hesc => hescape ⟨hesc.2, (firstByte_eq_iff rfl).1 hesc.1⟩),
    if_neg (fun heq => hc ((firstByte_eq_iff hquote).1 heq))]
  exact h.skip_rest fun i b => quotedEnd_skip hquote

theorem quotedEnd_escaped (h : At bytes index ('\\' :: c :: text))
    (hquote : isAscii quote) (hescapes : escapes) :
    quotedEnd bytes quote.toUInt8 escapes unterminated index =
      quotedEnd bytes quote.toUInt8 escapes unterminated (index + 1 + c.utf8Size) := by
  have hhead := h.head?
  rw [head?_cons, Option.map_some] at hhead
  rw [quotedEnd_of_byte hhead, if_pos ⟨rfl, hescapes⟩]
  exact (h.ascii rfl).skip_rest fun i b => quotedEnd_skip hquote

theorem quotedEnd_escaped_nil (h : At bytes index ['\\']) (hescapes : escapes) {q : UInt8} :
    quotedEnd bytes q escapes unterminated index = .error (.template unterminated) := by
  have hhead := h.head?
  have hend := (h.ascii rfl).getElem? 1
  rw [head?_cons, Option.map_some] at hhead
  rw [quotedEnd_of_byte hhead, if_pos ⟨rfl, hescapes⟩, quotedEnd_of_none hend]

theorem quotedEnd_doubled (h : At bytes index (quote :: quote :: text))
    (hquote : isAscii quote) (hback : quote ≠ '\\') :
    quotedEnd bytes quote.toUInt8 escapes unterminated index =
      quotedEnd bytes quote.toUInt8 escapes unterminated (index + 2) := by
  have hhead := h.head?
  have hnext := (h.ascii hquote).head?
  rw [head?_cons, Option.map_some, firstByte_ascii hquote] at hhead hnext
  rw [quotedEnd_of_byte hhead, if_neg, if_pos rfl, if_pos hnext]
  rintro ⟨heq, -⟩
  rw [← firstByte_ascii hquote, firstByte_eq_iff rfl] at heq
  exact hback heq

theorem quotedEnd_close (h : At bytes index (quote :: rest))
    (hquote : isAscii quote) (hback : quote ≠ '\\')
    (hrest : rest.head? ≠ some quote) :
    quotedEnd bytes quote.toUInt8 escapes unterminated index = .ok (index + 1) := by
  have hhead := h.head?
  rw [head?_cons, Option.map_some, firstByte_ascii hquote] at hhead
  rw [quotedEnd_of_byte hhead, if_neg, if_pos rfl, if_neg]
  · exact fun hnext => hrest (((h.ascii hquote).head?_eq_some_iff hquote).1 hnext)
  · rintro ⟨heq, -⟩
    rw [← firstByte_ascii hquote, firstByte_eq_iff rfl] at heq
    exact hback heq

/-- The loop ends behind the closing quote. -/
theorem quotedEnd_of_quoted {body : Text} (hbody : Quoted quote escapes body) (hquote : isAscii quote)
    (hback : quote ≠ '\\') (hrest : rest.head? ≠ some quote) (h : At bytes index (body ++ rest)) :
    quotedEnd bytes quote.toUInt8 escapes unterminated index = .ok (index + utf8Len body) := by
  induction hbody generalizing index with
  | close =>
      rw [quotedEnd_close h hquote hback hrest, utf8Len_cons, utf8Size_of_ascii hquote, utf8Len_nil]
  | doubled _ ih =>
      rw [quotedEnd_doubled h hquote hback,
        ih ((h.ascii hquote).ascii hquote), utf8Len_cons, utf8Len_cons,
        utf8Size_of_ascii hquote, ← Nat.add_assoc, ← Nat.add_assoc]
  | escaped c hescapes _ ih =>
      rw [quotedEnd_escaped h hquote hescapes, ih (h.ascii rfl).next,
        utf8Len_cons, utf8Len_cons, ← Nat.add_assoc,
        ← Nat.add_assoc]
      rfl
  | plain hc hescape _ ih =>
      rw [quotedEnd_plain h hquote hc hescape, ih h.next, utf8Len_cons, ← Nat.add_assoc]

/-- Where nothing closes the quote, the loop says so. -/
theorem quotedEnd_of_unterminated (hquote : isAscii quote) (hback : quote ≠ '\\') :
    ∀ (text : Text) (index : Nat), At bytes index text →
      (∀ body rest, text = body ++ rest → Quoted quote escapes body → rest.head? = some quote) →
      quotedEnd bytes quote.toUInt8 escapes unterminated index = .error (.template unterminated)
  | [], index, h, _ => quotedEnd_of_none h.head?
  | [c], index, h, hnone => by
      by_cases hescape : escapes ∧ c = '\\'
      · obtain ⟨hescapes, rfl⟩ := hescape
        exact quotedEnd_escaped_nil h hescapes
      · by_cases hc : c = quote
        · subst hc
          cases hnone [c] [] rfl .close
        · rw [quotedEnd_plain h hquote hc hescape]
          exact quotedEnd_of_none h.next.head?
  | c :: d :: text, index, h, hnone => by
      by_cases hescape : escapes ∧ c = '\\'
      · obtain ⟨hescapes, rfl⟩ := hescape
        rw [quotedEnd_escaped h hquote hescapes]
        refine quotedEnd_of_unterminated hquote hback text _ (h.ascii rfl).next ?_
        rintro body rest rfl hbody
        exact hnone ('\\' :: d :: body) rest rfl (.escaped d hescapes hbody)
      · by_cases hc : c = quote
        · rw [hc] at h hnone
          have hd : d = quote := Option.some.inj (hnone [quote] (d :: text) rfl .close)
          rw [hd] at h hnone
          rw [quotedEnd_doubled h hquote hback]
          refine quotedEnd_of_unterminated hquote hback text _ ((h.ascii hquote).ascii hquote) ?_
          rintro body rest rfl hbody
          exact hnone (quote :: quote :: body) rest rfl (.doubled hbody)
        · rw [quotedEnd_plain h hquote hc hescape]
          refine quotedEnd_of_unterminated hquote hback (d :: text) _ h.next ?_
          rintro body rest hsplit hbody
          exact hnone (c :: body) rest (congrArg (c :: ·) hsplit) (.plain hc hescape hbody)

end Quotes

section Comments

variable {bytes : Bytes} {build : Build} {depth index : Nat}
  {text body rest : Text} {c : Char} {b : UInt8}

@[simp] theorem blockCommentEnd_zero : blockCommentEnd bytes build 0 index = .ok index := by
  rw [blockCommentEnd, if_pos rfl]

theorem blockCommentEnd_of_byte (h : bytes[index]? = some b) :
    blockCommentEnd bytes build (depth + 1) index =
      if b = '/'.toUInt8 ∧ bytes[index + 1]? = some '*'.toUInt8 then
        match nest build (depth + 1) with
        | .error e => .error e
        | .ok deeper => blockCommentEnd bytes build deeper (index + 2)
      else if b = '*'.toUInt8 ∧ bytes[index + 1]? = some '/'.toUInt8 then blockCommentEnd bytes build depth (index + 2)
      else blockCommentEnd bytes build (depth + 1) (index + 1) := by
  rw [blockCommentEnd, if_neg (Nat.succ_ne_zero depth)]
  split
  next hnone =>
      rw [h] at hnone
      cases hnone
  next hsome =>
      obtain rfl := Option.some.inj (h.symm.trans hsome)
      rfl

theorem blockCommentEnd_of_none (h : bytes[index]? = none) :
    blockCommentEnd bytes build (depth + 1) index = .error (.template .unterminatedComment) := by
  rw [blockCommentEnd, if_neg (Nat.succ_ne_zero depth)]
  split
  next => rfl
  next hsome =>
      rw [h] at hsome
      cases hsome

theorem blockCommentEnd_skip (h : bytes[index]? = some b) (hb : 128 ≤ b.toNat) :
    blockCommentEnd bytes build (depth + 1) index =
      blockCommentEnd bytes build (depth + 1) (index + 1) := by
  have hslash : b ≠ '/'.toUInt8 := by
    rintro rfl
    exact absurd hb (by decide)
  have hstar : b ≠ '*'.toUInt8 := by
    rintro rfl
    exact absurd hb (by decide)
  rw [blockCommentEnd_of_byte h, if_neg (fun hopens => hslash hopens.1),
    if_neg (fun hcloses => hstar hcloses.1)]

theorem blockCommentEnd_nested (h : At bytes index ('/' :: '*' :: text)) :
    blockCommentEnd bytes build (depth + 1) index =
      match nest build (depth + 1) with
      | .error e => .error e
      | .ok deeper => blockCommentEnd bytes build deeper (index + 2) := by
  have hhead := h.head?
  have hopens := (h.two_iff (d := '/') (e := '*') rfl rfl).2 (prefix_append ['/', '*'] text)
  rw [head?_cons, Option.map_some] at hhead
  rw [blockCommentEnd_of_byte hhead, if_pos hopens]

theorem blockCommentEnd_closed (h : At bytes index ('*' :: '/' :: text)) :
    blockCommentEnd bytes build (depth + 1) index = blockCommentEnd bytes build depth (index + 2) := by
  have hhead := h.head?
  have hcloses := (h.two_iff (d := '*') (e := '/') rfl rfl).2 (prefix_append ['*', '/'] text)
  rw [head?_cons, Option.map_some] at hhead
  rw [blockCommentEnd_of_byte hhead, if_neg (fun hopens => absurd hopens.1 (by decide)), if_pos hcloses]

theorem blockCommentEnd_plain (h : At bytes index (c :: text)) (hopens : ¬OpensComment (c :: text))
    (hcloses : ¬ClosesComment (c :: text)) :
    blockCommentEnd bytes build (depth + 1) index =
      blockCommentEnd bytes build (depth + 1) (index + c.utf8Size) := by
  have hhead := h.head?
  rw [head?_cons, Option.map_some] at hhead
  rw [blockCommentEnd_of_byte hhead, if_neg (fun heq => hopens ((h.two_iff rfl rfl).1 heq)),
    if_neg (fun heq => hcloses ((h.two_iff rfl rfl).1 heq))]
  exact h.skip_rest fun i b => blockCommentEnd_skip

theorem nest_of_lt (h : depth + 1 < 2 ^ 32) : nest build depth = .ok (depth + 1) := if_pos h

theorem ne_nil_of_closes (h : Closes (depth + 1) body) : body ≠ [] := by
  rintro rfl
  cases h

theorem two_prefix_iff {d e f : Char} : [d, e] <+: c :: f :: text ↔ d = c ∧ e = f := by
  rw [cons_prefix_cons, cons_prefix_cons]
  exact and_congr_right fun _ => and_iff_left (prefix_append [] text)

/-- A delimiter is told by two characters, whatever follows. -/
theorem two_prefix_append_iff {d e : Char} (hbody : body ≠ []) :
    [d, e] <+: c :: (body ++ rest) ↔ [d, e] <+: c :: body := by
  cases body with
  | nil => exact absurd rfl hbody
  | cons f body => rw [cons_append, two_prefix_iff, two_prefix_iff]

/-- The loop ends where the comment is closed, unless the count overflows before. -/
theorem blockCommentEnd_of_closes (hbody : Closes depth body)
    (hdepth : depth < 2 ^ 32) (h : At bytes index (body ++ rest)) :
    blockCommentEnd bytes build depth index = .ok (index + utf8Len body) ∨
      Deep depth (body ++ rest) := by
  induction hbody generalizing index with
  | done => exact .inl blockCommentEnd_zero
  | @nested depth body _ ih =>
      by_cases hdeeper : depth + 2 < 2 ^ 32
      · rw [blockCommentEnd_nested h, nest_of_lt hdeeper]
        refine (ih hdeeper ((h.ascii rfl).ascii rfl)).imp (fun hend => ?_) .nested
        rw [utf8Len_cons, utf8Len_cons, ← Nat.add_assoc, ← Nat.add_assoc]
        exact hend
      · obtain rfl : depth = 2 ^ 32 - 2 := by omega
        exact .inr .tooDeep
  | @closed depth body hbody ih =>
      rw [blockCommentEnd_closed h]
      refine (ih (by omega) ((h.ascii rfl).ascii rfl)).imp (fun hend => ?_) (fun hdeep => ?_)
      · rw [utf8Len_cons, utf8Len_cons, ← Nat.add_assoc, ← Nat.add_assoc]
        exact hend
      · cases depth with
        | zero => cases hdeep
        | succ depth => exact .closed hdeep
  | @plain depth body c hopens hcloses hbody ih =>
      have hopens' : ¬OpensComment (c :: (body ++ rest)) := fun hpre =>
        hopens ((two_prefix_append_iff (ne_nil_of_closes hbody)).1 hpre)
      have hcloses' : ¬ClosesComment (c :: (body ++ rest)) := fun hpre =>
        hcloses ((two_prefix_append_iff (ne_nil_of_closes hbody)).1 hpre)
      rw [cons_append] at h
      rw [blockCommentEnd_plain h hopens' hcloses']
      refine (ih hdepth h.next).imp (fun hend => ?_) (.plain hopens' hcloses')
      rw [utf8Len_cons, ← Nat.add_assoc]
      exact hend

theorem nest_cases (build : Build) (h : depth < 2 ^ 32) :
    nest build depth = .ok ((depth + 1) % 2 ^ 32) ∨ nest build depth = .error .depthOverflow := by
  by_cases hlt : depth + 1 < 2 ^ 32
  · exact .inl (by rw [nest_of_lt hlt, Nat.mod_eq_of_lt hlt])
  · have hfull : depth + 1 = 2 ^ 32 := by omega
    cases build with
    | checked => exact .inr (if_neg hlt)
    | wrapping => exact .inl (by rw [nest, if_neg hlt, hfull, Nat.mod_self])

theorem ne_nil_of_countsOut (h : CountsOut (depth + 1) body) : body ≠ [] := by
  rintro rfl
  cases h

/-- The loop ends where its count is back at zero, unless the count is checked and overflows. -/
theorem blockCommentEnd_of_countsOut (hbody : CountsOut depth body)
    (hdepth : depth < 2 ^ 32) (h : At bytes index (body ++ rest)) :
    blockCommentEnd bytes build depth index = .ok (index + utf8Len body) ∨
      blockCommentEnd bytes build depth index = .error .depthOverflow := by
  induction hbody generalizing index with
  | done => exact .inl blockCommentEnd_zero
  | @nested depth body _ ih =>
      rw [blockCommentEnd_nested h, utf8Len_cons, utf8Len_cons, ← Nat.add_assoc, ← Nat.add_assoc]
      rcases nest_cases build hdepth with hnest | hnest
      · rw [hnest]
        exact ih (Nat.mod_lt _ (Nat.two_pow_pos 32)) ((h.ascii rfl).ascii rfl)
      · rw [hnest]
        exact .inr rfl
  | @closed depth body _ ih =>
      rw [blockCommentEnd_closed h, utf8Len_cons, utf8Len_cons, ← Nat.add_assoc, ← Nat.add_assoc]
      exact ih (by omega) ((h.ascii rfl).ascii rfl)
  | @plain depth body c hopens hcloses hbody ih =>
      have hne := ne_nil_of_countsOut hbody
      rw [cons_append] at h
      rw [blockCommentEnd_plain h (mt (two_prefix_append_iff hne).1 hopens)
        (mt (two_prefix_append_iff hne).1 hcloses), utf8Len_cons, ← Nat.add_assoc]
      exact ih hdepth h.next

/-- Where the loop ends well, its count is back at zero. -/
theorem countsOut_of_blockCommentEnd {stop : Nat} :
    ∀ (text : Text) (depth index : Nat), depth < 2 ^ 32 → At bytes index text →
    blockCommentEnd bytes build depth index = .ok stop →
    ∃ body rest, text = body ++ rest ∧ CountsOut depth body
  | text, 0, index, _, _, _ => ⟨[], text, rfl, .done⟩
  | [], depth + 1, index, _, h, hstop => by
      rw [blockCommentEnd_of_none h.head?] at hstop
      cases hstop
  | [c], depth + 1, index, _, h, hstop => by
      have hlone : ∀ d e : Char, ¬[d, e] <+: [c] := fun d e hpre => absurd hpre.length_le (by simp)
      rw [blockCommentEnd_plain h (hlone _ _) (hlone _ _), blockCommentEnd_of_none h.next.head?] at hstop
      cases hstop
  | c :: d :: text, depth + 1, index, hdepth, h, hstop => by
      by_cases hopens : OpensComment (c :: d :: text)
      · obtain ⟨rfl, rfl⟩ := two_prefix_iff.1 hopens
        rw [blockCommentEnd_nested h] at hstop
        rcases nest_cases build hdepth with hnest | hnest <;> rw [hnest] at hstop
        · obtain ⟨body, rest, rfl, hbody⟩ := countsOut_of_blockCommentEnd text _ _
            (Nat.mod_lt _ (Nat.two_pow_pos 32)) ((h.ascii rfl).ascii rfl) hstop
          exact ⟨'/' :: '*' :: body, rest, rfl, .nested hbody⟩
        · cases hstop
      · by_cases hcloses : ClosesComment (c :: d :: text)
        · obtain ⟨rfl, rfl⟩ := two_prefix_iff.1 hcloses
          rw [blockCommentEnd_closed h] at hstop
          obtain ⟨body, rest, rfl, hbody⟩ := countsOut_of_blockCommentEnd text depth _
            (by omega) ((h.ascii rfl).ascii rfl) hstop
          exact ⟨'*' :: '/' :: body, rest, rfl, .closed hbody⟩
        · rw [blockCommentEnd_plain h hopens hcloses] at hstop
          obtain ⟨body, rest, hsplit, hbody⟩ := countsOut_of_blockCommentEnd (d :: text) _ _ hdepth h.next hstop
          have hne := ne_nil_of_countsOut hbody
          rw [hsplit] at hopens hcloses
          exact ⟨c :: body, rest, congrArg (c :: ·) hsplit, .plain
            (mt (two_prefix_append_iff hne).2 hopens) (mt (two_prefix_append_iff hne).2 hcloses) hbody⟩

/-- Where nothing closes the comment, the loop says so, unless the count overflows before. -/
theorem blockCommentEnd_of_unclosed :
    ∀ (text : Text) (depth index : Nat), depth < 2 ^ 32 → At bytes index text →
    (∀ body rest, text = body ++ rest → ¬Closes depth body) →
    blockCommentEnd bytes build depth index = .error (.template .unterminatedComment) ∨ Deep depth text
  | text, 0, index, _, _, hnone => absurd .done (hnone [] text rfl)
  | [], depth + 1, index, _, h, _ => .inl (blockCommentEnd_of_none h.head?)
  | [c], depth + 1, index, _, h, _ => by
      have hlone : ∀ d e : Char, ¬[d, e] <+: [c] := fun d e hpre => absurd hpre.length_le (by simp)
      rw [blockCommentEnd_plain h (hlone _ _) (hlone _ _)]
      exact .inl (blockCommentEnd_of_none h.next.head?)
  | c :: d :: text, depth + 1, index, hdepth, h, hnone => by
      by_cases hopens : OpensComment (c :: d :: text)
      · obtain ⟨rfl, rfl⟩ := two_prefix_iff.1 hopens
        by_cases hdeeper : depth + 2 < 2 ^ 32
        · rw [blockCommentEnd_nested h, nest_of_lt hdeeper]
          refine (blockCommentEnd_of_unclosed text _ _ hdeeper
            ((h.ascii rfl).ascii rfl) ?_).imp_right .nested
          rintro body rest rfl hbody
          exact hnone ('/' :: '*' :: body) rest rfl (.nested hbody)
        · obtain rfl : depth = 2 ^ 32 - 2 := by omega
          exact .inr .tooDeep
      · by_cases hcloses : ClosesComment (c :: d :: text)
        · obtain ⟨rfl, rfl⟩ := two_prefix_iff.1 hcloses
          rw [blockCommentEnd_closed h]
          refine (blockCommentEnd_of_unclosed text depth
            _ (by omega) ((h.ascii rfl).ascii rfl) ?_).imp_right fun hdeep => ?_
          · rintro body rest rfl hbody
            exact hnone ('*' :: '/' :: body) rest rfl (.closed hbody)
          · cases depth with
            | zero => cases hdeep
            | succ depth => exact .closed hdeep
        · rw [blockCommentEnd_plain h hopens hcloses]
          refine (blockCommentEnd_of_unclosed (d :: text) _ _ hdepth h.next ?_).imp_right
            (.plain hopens hcloses)
          rintro body rest hsplit hbody
          rw [hsplit] at hopens hcloses
          refine hnone (c :: body) rest (congrArg (c :: ·) hsplit) (.plain ?_ ?_ hbody)
          · exact fun hpre => hopens ((two_prefix_append_iff (ne_nil_of_closes hbody)).2 hpre)
          · exact fun hpre => hcloses ((two_prefix_append_iff (ne_nil_of_closes hbody)).2 hpre)

/-- A checked build panics at the nesting that a `u32` cannot count. -/
theorem blockCommentEnd_of_deep (hdeep : Deep depth text)
    (hdepth : depth < 2 ^ 32) (h : At bytes index text) :
    blockCommentEnd bytes .checked depth index = .error .depthOverflow := by
  induction hdeep generalizing index with
  | tooDeep => exact blockCommentEnd_nested h
  | @nested depth body hdeep ih =>
      by_cases hdeeper : depth + 2 < 2 ^ 32
      · rw [blockCommentEnd_nested h, nest_of_lt hdeeper]
        exact ih hdeeper ((h.ascii rfl).ascii rfl)
      · obtain rfl : depth = 2 ^ 32 - 2 := by omega
        exact blockCommentEnd_nested h
  | closed hdeep ih =>
      rw [blockCommentEnd_closed h]
      exact ih (by omega) ((h.ascii rfl).ascii rfl)
  | plain hopens hcloses hdeep ih =>
      rw [blockCommentEnd_plain h hopens hcloses]
      exact ih hdepth h.next

end Comments

section Bytes

variable {bytes : Bytes} {index : Nat} {before body digits rest : Text} {c : Char}

theorem lineCommentEnd_of_byte {b : UInt8} (h : bytes[index]? = some b) :
    lineCommentEnd bytes index =
      if b = '\n'.toUInt8 then index else lineCommentEnd bytes (index + 1) := by
  rw [lineCommentEnd]
  split
  next hnone =>
      rw [h] at hnone
      cases hnone
  next hsome =>
      obtain rfl := Option.some.inj (h.symm.trans hsome)
      rfl

theorem lineCommentEnd_eq (hbody : ∀ c ∈ body, c ≠ '\n') (hrest : ∀ c ∈ rest.head?, c = '\n')
    (h : At bytes index (body ++ rest)) : lineCommentEnd bytes index = index + utf8Len body := by
  induction body generalizing index with
  | nil =>
      have hhead := h.head?
      cases rest with
      | nil =>
          rw [lineCommentEnd]
          split
          next => rfl
          next hsome =>
              rw [hhead] at hsome
              cases hsome
      | cons c rest =>
          obtain rfl := hrest c rfl
          rw [lineCommentEnd_of_byte hhead, if_pos (firstByte_ascii rfl)]
          rfl
  | cons c body ih =>
      have hskip : ∀ i b, bytes[i]? = some b → 128 ≤ b.toNat →
        lineCommentEnd bytes i = lineCommentEnd bytes (i + 1) := by
        intro i b hi hb
        refine (lineCommentEnd_of_byte hi).trans (if_neg ?_)
        rintro rfl
        exact absurd hb (by decide)
      have hhead := h.head?
      rw [cons_append, head?_cons, Option.map_some] at hhead
      rw [lineCommentEnd_of_byte hhead,
        if_neg (fun heq => hbody c mem_cons_self ((firstByte_eq_iff rfl).1 heq)),
        h.skip_rest hskip, ih (fun d hd => hbody d (mem_cons_of_mem _ hd)) h.next,
          utf8Len_cons, Nat.add_assoc]

theorem isAsciiDigit_firstByte (c : Char) : isAsciiDigit (firstByte c) = c.isDigit := by
  cases hc : isAscii c with
  | true =>
      rw [firstByte_ascii hc]
      exact ascii_forall (p := fun c => isAsciiDigit c.toUInt8 = c.isDigit) (by decide +kernel) hc
  | false =>
      have hhigh := firstByte_high hc
      have hdigit : c.isDigit = false := by
        refine Bool.eq_false_iff.2 fun hdigit => ?_
        rw [isAscii_of_isDigit hdigit] at hc
        cases hc
      rw [hdigit, isAsciiDigit, Bool.and_eq_false_iff, decide_eq_false_iff_not, decide_eq_false_iff_not]
      exact .inr (by omega)

theorem digitsEnd_of_byte {b : UInt8} (h : bytes[index]? = some b) :
    digitsEnd bytes index = if isAsciiDigit b then digitsEnd bytes (index + 1) else index := by
  rw [digitsEnd]
  split
  next hnone =>
      rw [h] at hnone
      cases hnone
  next hsome =>
      obtain rfl := Option.some.inj (h.symm.trans hsome)
      rfl

theorem digitsEnd_eq (hdigits : ∀ d ∈ digits, d.isDigit) (hrest : ∀ c ∈ rest.head?, c.isDigit = false)
    (h : At bytes index (digits ++ rest)) : digitsEnd bytes index = index + utf8Len digits := by
  induction digits generalizing index with
  | nil =>
      have hhead := h.head?
      cases rest with
      | nil =>
          rw [digitsEnd]
          split
          next => rfl
          next hsome =>
              rw [hhead] at hsome
              cases hsome
      | cons c rest =>
          have hc : isAsciiDigit (firstByte c) = false := (isAsciiDigit_firstByte c).trans (hrest c rfl)
          rw [digitsEnd_of_byte hhead, hc]
          rfl
  | cons d digits ih =>
      have hd : d.isDigit := hdigits d mem_cons_self
      have hhead := h.head?
      rw [cons_append, head?_cons, Option.map_some] at hhead
      rw [digitsEnd_of_byte hhead, isAsciiDigit_firstByte, if_pos hd,
        ih (fun e he => hdigits e (mem_cons_of_mem _ he)) (h.ascii (isAscii_of_isDigit hd)),
          utf8Len_cons,
        utf8Size_of_ascii (isAscii_of_isDigit hd), Nat.add_assoc]

theorem isIdentifierContinuationByte_lastByte (c : Char) :
    isIdentifierContinuationByte (lastByte c) = isIdentifierContinuation c := by
  cases hc : isAscii c with
  | true =>
      rw [lastByte_ascii hc]
      exact ascii_forall
        (p := fun c => isIdentifierContinuationByte c.toUInt8 = isIdentifierContinuation c)
        (by decide +kernel) hc
  | false =>
      have hlarge : 128 ≤ c.toNat := Nat.le_of_not_lt (of_decide_eq_false hc)
      rw [isIdentifierContinuationByte, isIdentifierContinuation,
        decide_eq_true (lastByte_high hc), decide_eq_true hlarge,
        Bool.or_true, Bool.or_true]

theorem utf8Len_concat_pos (before : Text) (c : Char) : 1 ≤ utf8Len (before ++ [c]) := by
  have hpos : 1 ≤ c.utf8Size := Char.utf8Size_pos c
  rw [utf8Len_append, utf8Len_cons, utf8Len_nil]
  omega

theorem and_congr_of_true {p q r : Bool} (h : p → q = r) : (p && q) = (p && r) := by
  cases p with
  | true => exact h rfl
  | false => rfl

/-- The bytes before a quote tell an escape string as the characters do. -/
theorem isEscapeString_eq (before rest : Text) :
    isEscapeString (utf8 (before ++ rest)) (utf8Len before) = opensEscapeString before := by
  rcases eq_nil_or_concat' before with rfl | ⟨word, e, rfl⟩
  · rfl
  have hletter : ∀ d : Char, isAscii d →
      decide ((utf8 (word ++ [e] ++ rest))[utf8Len (word ++ [e]) - 1]? = some d.toUInt8) =
        decide (e = d) := by
    intro d hd
    rw [append_assoc, singleton_append, getElem?_utf8_pred word rest e]
    exact decide_eq_decide.2 (Option.some_inj.trans (lastByte_eq_iff hd))
  rw [isEscapeString, opensEscapeString, reverse_append,
    decide_eq_true (utf8Len_concat_pos word e), hletter 'E' rfl,
    hletter 'e' rfl, Bool.true_and]
  refine and_congr_of_true fun he => ?_
  have hsize : e.utf8Size = 1 := by
    rw [Bool.or_eq_true, decide_eq_true_iff, decide_eq_true_iff] at he
    rcases he with rfl | rfl
    · rfl
    · rfl
  have hlen : utf8Len (word ++ [e]) = utf8Len word + 1 := by
    rw [utf8Len_append, utf8Len_cons, hsize, utf8Len_nil]
  rw [hlen]
  rcases eq_nil_or_concat' word with rfl | ⟨word, d, rfl⟩
  · rfl
  · have hpos := utf8Len_concat_pos word d
    rw [decide_eq_false (by omega), Bool.false_or, append_assoc, append_assoc, singleton_append,
      show utf8Len (word ++ [d]) + 1 - 2 =
        utf8Len (word ++ [d]) - 1 by omega, getElem?_utf8_pred word _ d,
      Option.any_some, isIdentifierContinuationByte_lastByte, reverse_append]
    rfl

theorem utf8SequenceLen_firstByte (c : Char) : utf8SequenceLen (firstByte c) = c.utf8Size := by
  have hone : ∀ n < 128, utf8SequenceLen (UInt8.ofNat n) = 1 := by decide +kernel
  have htwo : ∀ n < 32, utf8SequenceLen (UInt8.ofNat (n + 0xc0)) = 2 := by decide +kernel
  have hthree : ∀ n < 16, utf8SequenceLen (UInt8.ofNat (n + 0xe0)) = 3 := by decide +kernel
  have hfour : ∀ n < 8, utf8SequenceLen (UInt8.ofNat (n + 0xf0)) = 4 := by decide +kernel
  rw [firstByte, String.utf8EncodeChar]
  split
  next h =>
    rw [Char.utf8Size_eq_one_iff.2 (UInt32.le_iff_toNat_le.2 h)]
    exact hone _ (Nat.lt_succ_of_le h)
  next h =>
    have h : 127 < c.val := UInt32.lt_iff_toNat_lt.2 (Nat.lt_of_not_le h)
    split
    next h' =>
      rw [Char.utf8Size_eq_two_iff.2 ⟨h, UInt32.le_iff_toNat_le.2 h'⟩]
      exact htwo _ (Nat.mod_lt _ (by decide))
    next h' =>
      have h' : 0x7ff < c.val := UInt32.lt_iff_toNat_lt.2 (Nat.lt_of_not_le h')
      split
      next h'' =>
        rw [Char.utf8Size_eq_three_iff.2 ⟨h', UInt32.le_iff_toNat_le.2 h''⟩]
        exact hthree _ (Nat.mod_lt _ (by decide))
      next h'' =>
        rw [Char.utf8Size_eq_four_iff.2 (UInt32.lt_iff_toNat_lt.2 (Nat.lt_of_not_le h''))]
        exact hfour _ (Nat.mod_lt _ (by decide))

end Bytes

end Paranoid.TemplateScanner

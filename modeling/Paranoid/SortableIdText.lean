import Paranoid.SortableIdOrder

namespace Paranoid.SortableIdText

open BitStaging ByteCodecs List RadixText SortableIdModel SortableIdOrder
open Postgres (bind_eq_ok)

section Chunks

theorem joinBits {high low shift : UInt8} (hlow : low.toNat < 2 ^ (shift.toNat % 8))
    (hhigh : high.toNat * 2 ^ (shift.toNat % 8) < 256) :
    (high <<< shift ||| low).toNat = high.toNat * 2 ^ (shift.toNat % 8) + low.toNat := by
  rw [UInt8.toNat_or, UInt8.toNat_shiftLeft,
    Nat.mod_eq_of_lt (by rwa [Nat.shiftLeft_eq]), shiftLeft_or hlow]

theorem and_low (b : UInt8) : (b &&& 0x01).toNat = b.toNat % 2 ∧
    (b &&& 0x03).toNat = b.toNat % 4 ∧ (b &&& 0x07).toNat = b.toNat % 8 ∧
    (b &&& 0x0f).toNat = b.toNat % 16 ∧ (b &&& 0x1f).toNat = b.toNat % 32 := by
  simp only [UInt8.toNat_and]
  exact ⟨Nat.and_two_pow_sub_one_eq_mod _ 1,
    Nat.and_two_pow_sub_one_eq_mod _ 2, Nat.and_two_pow_sub_one_eq_mod _ 3,
    Nat.and_two_pow_sub_one_eq_mod _ 4, Nat.and_two_pow_sub_one_eq_mod _ 5⟩

theorem shiftRight_toNat (b : UInt8) {k : UInt8} : (b >>> k).toNat = b.toNat / 2 ^ (k.toNat % 8) := by
  rw [UInt8.toNat_shiftRight, Nat.shiftRight_eq_div_pow]

/-- The five bits at each place of five bytes. -/
theorem spell_chunk (a b c d e : UInt8) : spell 32 8 (value 256 (byteValues [a, b, c, d, e])) =
    [a.toNat / 8, a.toNat % 8 * 4 + b.toNat / 64, b.toNat / 2 % 32,
      b.toNat % 2 * 16 + c.toNat / 16, c.toNat % 16 * 2 + d.toNat / 128,
      d.toNat / 4 % 32, d.toNat % 4 * 8 + e.toNat / 32, e.toNat % 32] := by
  have ha := a.toNat_lt
  have hb := b.toNat_lt
  have hc := c.toNat_lt
  have hd := d.toNat_lt
  have he := e.toNat_lt
  simp only [spell, value, byteValues, map_cons, map_nil, foldl_cons,
    foldl_nil, nil_append, cons_append, cons.injEq, and_true]
  refine ⟨?_, ?_, ?_, ?_, ?_, ?_, ?_, ?_⟩ <;> omega

theorem joined {high low k : UInt8} {h l s : Nat} (hhigh : high.toNat = h)
    (hlow : low.toNat = l) (hshift : 2 ^ (k.toNat % 8) = s)
    (hl : l < s) (hh : h * s < 256) : (high <<< k ||| low).toNat = h * s + l := by
  subst hhigh hlow hshift
  exact joinBits hl hh

theorem encodeChunk_eq (a b c d e : UInt8) :
    encodeBase325ByteChunk a b c d e =
      base32LowerSymbols.spelled (spell 32 8 (value 256 (byteValues [a, b, c, d, e]))) := by
  have hb := b.toNat_lt
  have hc := c.toNat_lt
  have hd := d.toNat_lt
  have he := e.toNat_lt
  have hab := joined (and_low a).2.2.1 (shiftRight_toNat b (k := 6))
    (k := 2) rfl (by simp; omega) (by simp; omega)
  have hbc := joined (and_low b).1 (shiftRight_toNat c (k := 4))
    (k := 4) rfl (by simp; omega) (by simp; omega)
  have hcd := joined (and_low c).2.2.2.1 (shiftRight_toNat d (k := 7))
    (k := 1) rfl (by simp; omega) (by simp; omega)
  have hde := joined (and_low d).2.1 (shiftRight_toNat e (k := 5))
    (k := 3) rfl (by simp; omega) (by simp; omega)
  rw [spell_chunk, encodeBase325ByteChunk, Alphabet.spelled]
  simp only [base32Lower, map_cons, map_nil, hab, hbc, hcd, hde, (and_low _).2.2.2.2, shiftRight_toNat]
  rfl

theorem exists_sixteen (bytes : FixedBytes 16) :
    ∃ b₀ b₁ b₂ b₃ b₄ b₅ b₆ b₇ b₈ b₉ b₁₀ b₁₁ b₁₂ b₁₃ b₁₄ b₁₅,
    bytes = ⟨[b₀, b₁, b₂, b₃, b₄, b₅, b₆, b₇, b₈, b₉, b₁₀, b₁₁, b₁₂, b₁₃, b₁₄, b₁₅], rfl⟩ := by
  obtain ⟨bytes, hlength⟩ := bytes
  match bytes, hlength with
  | [b₀, b₁, b₂, b₃, b₄, b₅, b₆, b₇, b₈, b₉, b₁₀, b₁₁, b₁₂, b₁₃, b₁₄, b₁₅], _ =>
      exact ⟨_, _, _, _, _, _, _, _, _, _, _, _, _, _, _, _, rfl⟩

theorem xor_xor (b c : UInt8) : b ^^^ c ^^^ c = b := by
  rw [UInt8.xor_assoc, UInt8.xor_self, UInt8.xor_zero]

theorem mixTime_mixTime (bytes : FixedBytes 16) : mixTime (mixTime bytes) = bytes := by
  obtain ⟨b₀, b₁, b₂, b₃, b₄, b₅, b₆, b₇, b₈, b₉, b₁₀, b₁₁, b₁₂, b₁₃, b₁₄, b₁₅, rfl⟩ :=
    exists_sixteen bytes
  refine Subtype.ext ?_
  simp only [mixTime, slice, Nat.reduceSub, take_succ_cons, take_zero,
    drop_succ_cons, drop_zero, zipWith_cons_cons, zipWith_nil_left,
    cons_append, nil_append, xor_xor]

/-- The text is that of the bytes in groups of five bits. -/
theorem encodeBase32_eq (bytes : FixedBytes 16) :
    encodeBase32NoPaddingLower bytes = base32LowerSymbols.spelled (toGroups 5 bytes.val) := by
  obtain ⟨b₀, b₁, b₂, b₃, b₄, b₅, b₆, b₇, b₈, b₉, b₁₀, b₁₁, b₁₂, b₁₃, b₁₄, b₁₅, rfl⟩ :=
    exists_sixteen bytes
  have hlt := b₁₅.toNat_lt
  have hlast : toGroups 5 [b₁₅] = [b₁₅.toNat / 8, b₁₅.toNat % 8 * 4] := by
    simp only [toGroups, groupCount, length_singleton, byteValues,
      map_cons, map_nil, value, foldl_cons, foldl_nil, Nat.reduceMul,
      Nat.reduceAdd, Nat.reduceSub, Nat.reduceDiv, Nat.reducePow,
        spell, nil_append, cons_append, cons.injEq, and_true]
    constructor <;> omega
  have hwidth : 0 < 5 := by decide
  have hchunk : 5 * 8 = 8 * 5 := rfl
  have hfirst := toGroups_append [b₀, b₁, b₂, b₃, b₄] [b₅, b₆,
    b₇, b₈, b₉, b₁₀, b₁₁, b₁₂, b₁₃, b₁₄, b₁₅] hwidth hchunk
  have hsecond := toGroups_append [b₅, b₆, b₇, b₈, b₉] [b₁₀, b₁₁, b₁₂, b₁₃, b₁₄, b₁₅] hwidth hchunk
  have hthird := toGroups_append [b₁₀, b₁₁, b₁₂, b₁₃, b₁₄] [b₁₅] hwidth hchunk
  have hgroups := hfirst.trans
    (congrArg _ (hsecond.trans (congrArg _ (hthird.trans (congrArg _ hlast)))))
  have hshifted : ((b₁₅ &&& 0x07) <<< 2).toNat = b₁₅.toNat % 8 * 4 := by
    have hjoined := joined (and_low b₁₅).2.2.1 (rfl : (0 : UInt8).toNat = 0)
      (k := 2) rfl (by decide) (by simp; omega)
    rwa [UInt8.or_zero] at hjoined
  have hends : base32LowerSymbols.spelled [b₁₅.toNat / 8,
    b₁₅.toNat % 8 * 4] = [base32Lower (b₁₅ >>> 3), base32Lower ((b₁₅ &&& 0x07) <<< 2)] := by
    rw [base32Lower, base32Lower, hshifted, shiftRight_toNat]
    rfl
  change encodeBase325ByteChunk b₀ b₁ b₂ b₃ b₄ ++ encodeBase325ByteChunk b₅ b₆ b₇ b₈ b₉ ++
    encodeBase325ByteChunk b₁₀ b₁₁ b₁₂ b₁₃ b₁₄ ++ _ =
    (toGroups 5 ([b₀, b₁, b₂, b₃, b₄] ++ [b₅, b₆, b₇, b₈, b₉, b₁₀, b₁₁, b₁₂, b₁₃, b₁₄, b₁₅])).map _
  rw [hgroups, map_append, map_append, map_append]
  change _ = base32LowerSymbols.spelled _ ++ (base32LowerSymbols.spelled _ ++
    (base32LowerSymbols.spelled _ ++ base32LowerSymbols.spelled _))
  rw [hends, encodeChunk_eq, encodeChunk_eq, encodeChunk_eq, append_assoc, append_assoc]
  rfl

end Chunks

section Parsing

variable {crates : Crates} {input : Bytes} {id : SortableId} {bytes : FixedBytes 16} {digits : List Nat}

theorem toAsciiLowercase_toAsciiUppercase (b : UInt8) :
    toAsciiLowercase (toAsciiUppercase b) = toAsciiLowercase b := by
  unfold toAsciiLowercase toAsciiUppercase
  grind

theorem toAsciiUppercase_toAsciiLowercase (b : UInt8) :
    toAsciiUppercase (toAsciiLowercase b) = toAsciiUppercase b := by
  unfold toAsciiLowercase toAsciiUppercase
  grind

theorem symbols_case : base32Symbols.symbols.map toAsciiLowercase = base32LowerSymbols.symbols ∧
    base32LowerSymbols.symbols.map toAsciiUppercase = base32Symbols.symbols := by
  decide +kernel

theorem symbol_case (digit : Nat) :
    toAsciiLowercase (base32Symbols.symbol digit) = base32LowerSymbols.symbol digit ∧
    toAsciiUppercase (base32LowerSymbols.symbol digit) = base32Symbols.symbol digit := by
  simp only [Alphabet.symbol]
  constructor
  · rw [← symbols_case.1]
    exact (getD_map ..).symm
  · rw [← symbols_case.2]
    exact (getD_map ..).symm

theorem same_symbol (b : UInt8) (digit : Nat) :
    toAsciiUppercase b = base32Symbols.symbol digit ↔
      toAsciiLowercase b = base32LowerSymbols.symbol digit := by
  obtain ⟨hlower, hupper⟩ := symbol_case digit
  constructor
  · intro h
    rw [← toAsciiLowercase_toAsciiUppercase, h, hlower]
  · intro h
    rw [← toAsciiUppercase_toAsciiLowercase, h, hupper]

/-- A text is the upper-case text of digits where it is their lower-case text. -/
theorem same_text (hdigits : ∀ digit ∈ digits, digit < 32) :
    input.map toAsciiUppercase = base32Symbols.spelled digits ↔
      input.map toAsciiLowercase = base32LowerSymbols.spelled digits := by
  induction digits generalizing input with
  | nil => cases input <;> simp [Alphabet.spelled]
  | cons digit digits ih =>
      rw [forall_mem_cons] at hdigits
      cases input with
      | nil => simp [Alphabet.spelled]
      | cons b input =>
          have hrest : input.map toAsciiUppercase = base32Symbols.spelled digits ↔ _ := ih hdigits.2
          rw [Alphabet.spelled, Alphabet.spelled] at hrest ⊢
          rw [map_cons, map_cons, map_cons, map_cons, cons.injEq,
            cons.injEq, same_symbol b digit, hrest]

theorem decodeBase32_eq_ok {input : FixedBytes sortableIdTextLen} :
    decodeBase32NoPadding crates input = .ok bytes ↔
      input.val.map toAsciiLowercase = base32LowerSymbols.spelled (toGroups 5 bytes.val) := by
  have hsymbols : base32Symbols.symbols.length = 32 := rfl
  have hdecoded : decodeBase32NoPadding crates input = .ok bytes ↔ crates.decodeMut input = .ok bytes := by
    rw [decodeBase32NoPadding]
    cases crates.decodeMut input with
    | ok decoded =>
        constructor
        · rintro ⟨⟩
          rfl
        · rintro ⟨⟩
          rfl
    | error error =>
        obtain ⟨position, kind⟩ := error
        refine iff_of_false (fun h => ?_) nofun
        cases kind <;> cases h
  rw [← same_text (toGroups_lt 5 bytes.val), hdecoded, crates.decodeMut_eq_ok]
  constructor
  · intro h
    obtain ⟨digits, hdigits, hgroups⟩ := Option.bind_eq_some_iff.1 h
    obtain ⟨hlt, htext⟩ := Alphabet.read_eq_some.1 hdigits
    rw [hsymbols] at hlt
    rw [htext, ofGroups_eq_some (by decide) hlt hgroups]
  · intro h
    rw [Alphabet.read_eq_some.2 ⟨toGroups_lt 5 bytes.val, h⟩]
    exact ofGroups_toGroups (by decide) (by decide) bytes.val

/-- The byte that an error names stands where it says. -/
theorem byte_of_parseId {index : Nat} {byte : UInt8}
    (h : parseId crates input = .error (.invalidTextByte index byte)) : input[index]? = some byte := by
  rw [parseId] at h
  split at h
  · next hlength =>
      cases hdecoded : crates.decodeMut ⟨input, hlength⟩ with
      | ok bytes =>
          simp only [decodeBase32NoPadding, hdecoded] at h
          cases h
      | error error =>
          have hlt := crates.position_lt _ _ hdecoded
          rw [← hlength] at hlt
          obtain ⟨position, kind⟩ := error
          simp only [decodeBase32NoPadding, hdecoded] at h
          cases kind with
          | length => cases h
          | symbol | trailing | padding =>
              cases h
              rw [getElem?_eq_getElem hlt, getD_eq_getElem _ _ hlt]
  · cases h

theorem length_serializeId (id : SortableId) : (serializeId id).length = sortableIdTextLen := by
  rw [serializeId, encodeBase32_eq, Alphabet.length_spelled,
    length_toGroups, (mixTime id.bytes).property]
  rfl

theorem parseId_eq_ok : parseId crates input = .ok id ↔ input.map toAsciiLowercase = serializeId id := by
  have hmixed : serializeId id = base32LowerSymbols.spelled (toGroups 5 (mixTime id.bytes).val) :=
    encodeBase32_eq _
  rw [parseId]
  constructor
  · intro h
    split at h
    · obtain ⟨bytes, hbytes, h⟩ := bind_eq_ok.1 h
      cases h
      rw [hmixed, mixTime_mixTime]
      exact decodeBase32_eq_ok.1 hbytes
    · cases h
  · intro h
    have hlength : input.length = sortableIdTextLen := by rw [← length_serializeId id, ← h, length_map]
    have hbytes : decodeBase32NoPadding crates ⟨input, hlength⟩ = .ok (mixTime id.bytes) :=
      decodeBase32_eq_ok.2 (h.trans hmixed)
    rw [dif_pos hlength, hbytes]
    change Except.ok (SortableId.mk (mixTime (mixTime id.bytes))) = _
    rw [mixTime_mixTime]

theorem lowercase_symbol : ∀ digit < 32, toAsciiLowercase (base32LowerSymbols.symbol digit) =
    base32LowerSymbols.symbol digit := by decide

theorem lowercase_serializeId (id : SortableId) :
    (serializeId id).map toAsciiLowercase = serializeId id := by
  rw [serializeId, encodeBase32_eq, Alphabet.spelled, map_map]
  exact map_congr_left fun digit hdigit => lowercase_symbol digit (toGroups_lt 5 _ digit hdigit)

/-- An id is read from its text in either case, and from nothing else. -/
theorem text_exact (crates : Crates) :
    (∀ id, parseId crates (serializeId id) = .ok id) ∧
    (∀ input id, parseId crates input = .ok id ↔ input.map toAsciiLowercase = serializeId id) ∧
    ∀ id, (serializeId id).length = sortableIdTextLen ∧
      ∀ b ∈ serializeId id, b ∈ base32LowerSymbols.symbols := by
  refine ⟨fun id => parseId_eq_ok.2 (lowercase_serializeId id),
    fun input id => parseId_eq_ok, fun id => ⟨length_serializeId id, ?_⟩⟩
  intro b hb
  rw [serializeId, encodeBase32_eq] at hb
  obtain ⟨digit, hdigit, rfl⟩ := mem_map.1 hb
  have hlt : digit < base32LowerSymbols.symbols.length := toGroups_lt 5 _ digit hdigit
  rw [Alphabet.symbol, getD_eq_getElem _ _ hlt]
  exact getElem_mem hlt

def zeroId : SortableId := ⟨⟨replicate 16 0, rfl⟩⟩

/-- Its time is the same, and is mixed with other bytes. -/
def mixedId : SortableId := ⟨⟨replicate 7 0 ++ 0xff :: replicate 8 0, rfl⟩⟩

theorem later_text_first : zeroId < mixedId ∧ serializeId mixedId < serializeId zeroId := by
  decide +kernel

end Parsing

end Paranoid.SortableIdText

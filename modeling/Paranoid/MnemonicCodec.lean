import Paranoid.MnemonicModel

namespace Paranoid.MnemonicCodec

open BitStaging ByteCodecs MnemonicModel Postgres SpacedWords
open TextCodecs (CodecError EdgeByteContainer divCeil saturatingAdd saturatingMul usizeMax
  validateCanonicalEncoding validateDecodedLen validateEncodedLen)
open Utf8Text (Text utf8Len)

section Texts

variable (words : WordList)

def word (index : Nat) : Text := words.words.getD index []

/-- The text of some words. -/
def render (indices : List Nat) : Text := joinWords ' ' (indices.map (word words))

variable {words} {index : Nat} {indices others : List Nat}

theorem words_getElem? (h : index < 2048) : words.words[index]? = some (word words index) := by
  rw [← words.length_words] at h
  simp [word, h]

theorem word_mem (h : index < 2048) : word words index ∈ words.words :=
  List.mem_of_getElem? (words_getElem? h)

theorem idxOf?_word (h : index < 2048) : words.words.idxOf? (word words index) = some index := by
  rw [List.idxOf?_eq_some_iff]
  rw [← words.length_words] at h
  refine ⟨h, ?_, ?_⟩
  · simp [word, h]
  · intro j hj heq
    have hword : word words index = words.words[index] := by simp [word, h]
    have hindex := words.nodup.getElem_inj_iff.1 (heq.trans hword)
    omega

theorem pushMnemonicWord_render (h : index < 2048) :
    pushMnemonicWord words (render words indices) index = .ok (render words (indices ++ [index])) := by
  rw [pushMnemonicWord, words_getElem? h, render, render,
    List.map_append, List.map_singleton, joinWords_concat]

theorem foldlM_pushMnemonicWord (h : ∀ index ∈ others, index < 2048) :
    others.foldlM (pushMnemonicWord words) (render words indices) =
      .ok (render words (indices ++ others)) := by
  induction others generalizing indices with
  | nil => simp
  | cons index others ih =>
      rw [List.forall_mem_cons] at h
      rw [List.foldlM_cons, pushMnemonicWord_render h.1, ok_bind,
        ih h.2, List.append_assoc, List.singleton_append]

theorem splitSpaces_render (h : ∀ index ∈ indices, index < 2048) :
    splitSpaces isWhitespace (render words indices) = indices.map (word words) := by
  refine splitSpaces_joinWords (by decide) ?_
  rw [List.forall_mem_map]
  exact fun index hindex => words.isWord _ (word_mem (h index hindex))

theorem lookUpWords_map {maxWordCount start : Nat} (h : ∀ index ∈ indices, index < 2048)
    (hcount : start + indices.length ≤ maxWordCount) :
    lookUpWords words maxWordCount start (indices.map (word words)) = .ok indices := by
  induction indices generalizing start with
  | nil => rfl
  | cons index indices ih =>
      rw [List.forall_mem_cons] at h
      rw [List.length_cons] at hcount
      rw [List.map_cons, lookUpWords, if_neg (by omega), idxOf?_word h.1]
      dsimp only
      rw [ih h.2 (by omega)]
      rfl

theorem lookUpWords_lt {maxWordCount start : Nat} {texts : List Text}
    (h : lookUpWords words maxWordCount start texts = .ok indices) :
    ∀ index ∈ indices, index < 2048 := by
  induction texts generalizing start indices with
  | nil =>
      cases h
      exact fun _ hindex => nomatch hindex
  | cons text texts ih =>
      rw [lookUpWords] at h
      split at h
      · cases h
      split at h
      · cases h
      · rename_i index hfound
        obtain ⟨following, hfollowing, h⟩ := bind_eq_ok.1 h
        cases h
        rw [List.forall_mem_cons]
        obtain ⟨hlt, -⟩ := List.idxOf?_eq_some_iff.1 hfound
        exact ⟨words.length_words ▸ hlt, ih hfollowing⟩

theorem utf8Len_render (h : ∀ index ∈ indices, index < 2048)
    {bound : Nat} (hbound : ∀ word ∈ words.words, utf8Len word ≤ bound) :
    utf8Len (render words indices) ≤ indices.length * (bound + 1) := by
  have hweight (text word : Text) : utf8Len (text ++ ' ' :: word) =
    utf8Len text + 1 + utf8Len word := by
    simp [utf8Len, Nat.add_assoc]
    rfl
  have hwords : ∀ text ∈ indices.map (word words), utf8Len text ≤ bound := by
    rw [List.forall_mem_map]
    exact fun index hindex => hbound _ (word_mem (h index hindex))
  have hlength := weight_joinWords utf8Len hweight hwords rfl
  rwa [List.length_map] at hlength

end Texts

section Staged

variable {width digit : Nat} {staging : Staging} {read written : List Nat}

theorem and_lowBitMask (bits count : Nat) : bits &&& lowBitMask count = bits % 2 ^ count := by
  unfold lowBitMask
  split
  · rename_i hzero
    rw [hzero, Nat.and_zero, Nat.pow_zero, Nat.mod_one]
  · rw [Nat.one_shiftLeft, Nat.and_two_pow_sub_one_eq_mod]

theorem and_mnemonicWordMask {bits : Nat} (h : bits < 2 ^ mnemonicWordBits) :
    bits &&& mnemonicWordMask = bits :=
  Nat.and_two_pow_sub_one_of_lt_two_pow h

/-- The bits fit while no more than 32 of them are staged. -/
theorem shiftStagedBits_ok {bits count : Nat} (hbits : bits < 2 ^ count) (hcount : count + width ≤ 32) :
    shiftStagedBits bits width = .ok (bits * 2 ^ width) := by
  have hfits : bits * 2 ^ width < 2 ^ 32 :=
    calc bits * 2 ^ width < 2 ^ count * 2 ^ width :=
      Nat.mul_lt_mul_of_pos_right hbits (Nat.two_pow_pos _)
      _ = 2 ^ (count + width) := (Nat.pow_add _ _ _).symm
      _ ≤ 2 ^ 32 := Nat.pow_le_pow_right Nat.two_pos hcount
  rw [shiftStagedBits, Nat.shiftLeft_eq, if_pos hfits]

theorem stage_ok (hfits : staging.bits < 2 ^ staging.count)
    (hdigit : digit < 2 ^ width) (hcount : staging.count + width ≤ 32) :
    stage staging width digit = .ok ⟨staging.bits * 2 ^ width + digit, staging.count + width⟩ := by
  rw [stage, shiftStagedBits_ok hfits hcount, ok_bind,
    pure_eq_ok, ← Nat.shiftLeft_eq, Nat.shiftLeft_add_eq_or_of_lt hdigit]

variable (words : WordList) (front : List Nat)

theorem writeStagedWords_ok (h : Cut 8 mnemonicWordBits read written staging) :
    ∃ more rest, Cut 8 mnemonicWordBits read (written ++ more) rest ∧ rest.count < mnemonicWordBits ∧
      writeStagedWords words staging (render words (front ++ written)) =
        .ok (rest, render words (front ++ (written ++ more))) := by
  induction hcount : staging.count using Nat.strong_induction_on generalizing staging written with
  | _ count ih =>
      rw [writeStagedWords]
      split
      · rename_i hfull
        have hpop := h.pop hfull
        have hindex := hpop.digits _ (List.mem_append_right _ List.mem_cons_self)
        have hless : staging.count - mnemonicWordBits < count := by
          simp only [mnemonicWordBits] at hfull ⊢
          omega
        obtain ⟨more, rest, hcut, hrest, hwrites⟩ := ih _ hless hpop rfl
        refine ⟨_ :: more, rest, by simpa using hcut, hrest, ?_⟩
        dsimp only
        rw [and_lowBitMask, Nat.shiftRight_eq_div_pow,
          and_mnemonicWordMask hindex, pushMnemonicWord_render hindex, ok_bind,
          List.append_assoc, hwrites]
        simp
      · rename_i hfull
        exact ⟨[], staging, by simpa using h, Nat.not_le.1 hfull, by simp⟩

theorem writeBytes_ok (bytes : Bytes) (h : Cut 8 mnemonicWordBits read written staging)
    (hcount : staging.count < mnemonicWordBits) :
    ∃ more rest, Cut 8 mnemonicWordBits (read ++ bytes.map UInt8.toNat) (written ++ more) rest ∧
      rest.count < mnemonicWordBits ∧
      writeBytes words bytes staging (render words (front ++ written)) =
        .ok (rest, render words (front ++ (written ++ more))) := by
  induction bytes generalizing staging read written with
  | nil => exact ⟨[], staging, by simpa using h, hcount, by simp [writeBytes]⟩
  | cons byte bytes ih =>
      have hroom : staging.count + 8 ≤ 32 := by
        simp only [mnemonicWordBits] at hcount
        omega
      have hstage := stage_ok h.fits byte.toNat_lt hroom
      obtain ⟨more, rest, hcut, hrest, hwrites⟩ :=
        writeStagedWords_ok words front (h.push byte.toNat_lt)
      obtain ⟨following, last, hlastCut, hlast, hfollowing⟩ := ih hcut hrest
      refine ⟨more ++ following, last, by simpa using hlastCut, hlast, ?_⟩
      rw [writeBytes, hstage, ok_bind, hwrites, ok_bind]
      dsimp only
      rw [hfollowing, List.append_assoc]

end Staged

section Encoding

variable {blake3 : Bytes → FixedBytes 32} {bytes : Bytes}

theorem mnemonicChecksumWords_lt : ∀ index ∈ mnemonicChecksumWords blake3 bytes, index < 2048 := by
  intro index hindex
  have hmask (n : Nat) : n &&& mnemonicWordMask < 2048 :=
    Nat.and_lt_two_pow _ (by decide : mnemonicWordMask < 2 ^ 11)
  rcases List.mem_pair.1 hindex with rfl | rfl
  · exact hmask _
  · exact hmask _

def paddingBits (byteCount : Nat) : Nat := dataWordCount byteCount * mnemonicWordBits - byteCount * 8

/-- What a text says of some bytes: how many bits are padding, the bytes, and their checksum. -/
structure Canonical (blake3 : Bytes → FixedBytes 32) (bytes : Bytes) (data indices : List Nat) :
    Prop where
  indices_eq : indices = paddingBits bytes.length :: (data ++ mnemonicChecksumWords blake3 bytes)
  length_data : data.length = dataWordCount bytes.length
  data_lt : ∀ index ∈ data, index < 2048
  value_data : value (2 ^ 11) data =
    value (2 ^ 8) (bytes.map UInt8.toNat) * 2 ^ paddingBits bytes.length

theorem dataWordCount_spec (byteCount : Nat) :
    dataWordCount byteCount * 11 = byteCount * 8 + paddingBits byteCount ∧
      paddingBits byteCount < 11 := by
  unfold paddingBits dataWordCount mnemonicWordBits
  split <;> omega

/-- The words of the bytes, with the last one padded. -/
theorem writeLastWord_ok (words : WordList) (front : List Nat)
    {read written : List Nat} {staging : Staging}
    (h : Cut 8 mnemonicWordBits read written staging)
    (hcount : staging.count < mnemonicWordBits) :
    ∃ data, data.length = dataWordCount read.length ∧ (∀ index ∈ data, index < 2048) ∧
      value (2 ^ 11) data = value (2 ^ 8) read * 2 ^ paddingBits read.length ∧
      writeLastWord words staging (render words (front ++ written)) =
        .ok (render words (front ++ data)) := by
  have hcounts := h.counts
  obtain ⟨hdata, hpadding⟩ := dataWordCount_spec read.length
  simp only [mnemonicWordBits] at hcounts hcount
  rw [writeLastWord]
  split
  · rename_i hpos
    obtain ⟨hvalue, hindex⟩ := h.pad hcount.le
    have hpad : paddingBits read.length = mnemonicWordBits - staging.count := by
      simp only [mnemonicWordBits]
      omega
    rw [← hpad] at hvalue hindex
    refine ⟨_, ?_, ?_, hvalue, ?_⟩
    · rw [List.length_append, List.length_singleton]
      omega
    · rw [List.forall_mem_append, List.forall_mem_singleton]
      exact ⟨h.digits, hindex⟩
    · rw [← hpad, shiftStagedBits_ok h.fits
        (by omega), ok_bind, pushMnemonicWord_render hindex, List.append_assoc]
  · rename_i hzero
    have hempty : staging.count = 0 := Nat.eq_zero_of_not_pos hzero
    have hbits : staging.bits = 0 := by
      have hfits := h.fits
      rw [hempty] at hfits
      exact Nat.lt_one_iff.1 hfits
    have hpad : paddingBits read.length = 0 := by omega
    refine ⟨written, by omega, h.digits, ?_, rfl⟩
    have hvalues := h.values
    rw [hempty, hbits, Nat.pow_zero, Nat.mul_one, Nat.add_zero] at hvalues
    rw [hpad, Nat.pow_zero, Nat.mul_one]
    exact hvalues.symm

theorem encodeMnemonic_ok (words : WordList) (blake3 : Bytes → FixedBytes 32) (bytes : Bytes) :
    ∃ data indices, Canonical blake3 bytes data indices ∧
      encodeMnemonic words blake3 bytes = .ok (render words indices) := by
  obtain ⟨-, hpadding⟩ := dataWordCount_spec bytes.length
  obtain ⟨written, rest, hcut, hrest, hwrites⟩ :=
    writeBytes_ok words [paddingBits bytes.length] bytes
      (Cut.start : Cut 8 mnemonicWordBits [] [] _) (by decide)
  obtain ⟨data, hlength, hdata, hvalue, hlast⟩ :=
    writeLastWord_ok words [paddingBits bytes.length] hcut hrest
  simp only [List.nil_append, List.length_map] at hlength hvalue hlast hwrites
  have hheader : pushMnemonicWord words []
    (mnemonicVersion * mnemonicPaddingValueCount + paddingBits bytes.length) =
      .ok (render words [paddingBits bytes.length]) := by
    rw [mnemonicVersion, Nat.zero_mul, Nat.zero_add]
    have hindex : paddingBits bytes.length < 2048 := by omega
    exact (pushMnemonicWord_render hindex : pushMnemonicWord words (render words []) _ = _)
  refine ⟨data, _, ⟨rfl, hlength, hdata, hvalue⟩, ?_⟩
  dsimp only [encodeMnemonic]
  rw [← paddingBits, hheader, ok_bind, ← List.append_nil [paddingBits bytes.length], hwrites, ok_bind]
  dsimp only
  rw [hlast, ok_bind, foldlM_pushMnemonicWord mnemonicChecksumWords_lt, List.append_assoc]
  rfl

end Encoding

section Decoding

variable {read : List Nat} {staging : Staging} {decoded : Bytes} {expected : Nat}

/-- Where the decoder stands between two words. -/
structure Reading (expected : Nat) (read : List Nat) (staging : Staging) (decoded : Bytes) : Prop where
  cut : Cut mnemonicWordBits 8 read (decoded.map UInt8.toNat) staging
  length_le : decoded.length ≤ expected
  drained : decoded.length < expected → staging.count < 8

theorem readStagedBytes_spec (h : Cut mnemonicWordBits 8 read (decoded.map UInt8.toNat) staging)
    (hlength : decoded.length ≤ expected) :
    Reading expected read (readStagedBytes expected staging decoded).1
      (readStagedBytes expected staging decoded).2 := by
  fun_induction readStagedBytes with
  | case1 staging decoded hmore ih =>
      have hpop := h.pop hmore.1
      have hbyte := hpop.digits _ (List.mem_append_right _ List.mem_cons_self)
      rw [and_lowBitMask, Nat.shiftRight_eq_div_pow] at ih ⊢
      apply ih
      · rw [List.map_append, List.map_singleton, UInt8.toNat_ofNat', Nat.mod_eq_of_lt hbyte]
        exact hpop
      · rw [List.length_append, List.length_singleton]
        omega
  | case2 staging decoded hdone =>
      refine ⟨h, hlength, fun hless => ?_⟩
      dsimp only at hless ⊢
      omega

/-- The staged bits do not overflow when no more than padding follows the last byte. -/
theorem Reading.room (h : Reading expected read staging decoded) {following : Nat}
    (hcount : (read.length + following) * 11 ≤ expected * 8 + 10) : staging.count < 11 := by
  have hcounts := h.cut.counts
  have hlength := h.length_le
  have hdrained := h.drained
  simp only [mnemonicWordBits, List.length_map] at hcounts
  omega

theorem readWords_ok {wordIndices : List Nat} (h : Reading expected read staging decoded)
    (hindices : ∀ index ∈ wordIndices, index < 2048)
    (hcount : (read.length + wordIndices.length) * 11 ≤ expected * 8 + 10) :
    ∃ rest bytes, Reading expected (read ++ wordIndices) rest bytes ∧
      readWords expected wordIndices staging decoded = .ok (rest, bytes) := by
  induction wordIndices generalizing read staging decoded with
  | nil => exact ⟨staging, decoded, by simpa using h, rfl⟩
  | cons index wordIndices ih =>
      rw [List.forall_mem_cons] at hindices
      have hroom := h.room hcount
      have hfits : staging.count + mnemonicWordBits ≤ 32 := by
        simp only [mnemonicWordBits]
        omega
      have hnext := readStagedBytes_spec (h.cut.push hindices.1) h.length_le
      rw [List.length_cons, ← Nat.add_assoc, Nat.add_right_comm] at hcount
      obtain ⟨rest, bytes, hreading, hreads⟩ := ih hnext hindices.2 (by simpa using hcount)
      refine ⟨rest, bytes, by simpa using hreading, ?_⟩
      rw [readWords, stage_ok h.cut.fits hindices.1 hfits, ok_bind]
      exact hreads

theorem Reading.start (expected : Nat) : Reading expected [] ⟨0, 0⟩ [] :=
  ⟨Cut.start, Nat.zero_le _, fun _ => by decide⟩

/-- With all words read, the bytes that were expected are there, and the padding is left. -/
theorem Reading.complete (h : Reading expected read staging decoded) {padding : Nat}
    (hcount : read.length * 11 = expected * 8 + padding) :
    decoded.length = expected ∧ staging.count = padding := by
  have hcounts := h.cut.counts
  have hlength := h.length_le
  have hdrained := h.drained
  simp only [mnemonicWordBits, List.length_map] at hcounts
  omega

end Decoding

section Codec

variable {words : WordList} {blake3 : Bytes → FixedBytes 32}
  {bytes : Bytes} {text : Text} {maxDecodedLen : Nat}

theorem length_mnemonicChecksumWords :
    (mnemonicChecksumWords blake3 bytes).length = mnemonicChecksumWordCount := rfl

theorem Canonical.length {data indices : List Nat} (h : Canonical blake3 bytes data indices) :
    indices.length = minMnemonicWordCount + dataWordCount bytes.length := by
  rw [h.indices_eq, List.length_cons, List.length_append,
    h.length_data, length_mnemonicChecksumWords, minMnemonicWordCount]
  omega

theorem Canonical.lt {data indices : List Nat} (h : Canonical blake3 bytes data indices) :
    ∀ index ∈ indices, index < 2048 := by
  obtain ⟨-, hpadding⟩ := dataWordCount_spec bytes.length
  rw [h.indices_eq, List.forall_mem_cons, List.forall_mem_append]
  exact ⟨by omega, h.data_lt, mnemonicChecksumWords_lt⟩

/-- The words of some bytes are read as these bytes. -/
theorem decodeWordIndices_ok {data indices : List Nat} (h : Canonical blake3 bytes data indices)
    (hlength : bytes.length ≤ maxDecodedLen) :
    decodeWordIndices blake3 indices maxDecodedLen = .ok bytes := by
  obtain ⟨hcount, hpadding⟩ := dataWordCount_spec bytes.length
  have hdataCount : indices.length - minMnemonicWordCount = dataWordCount bytes.length := by
    rw [h.length, Nat.add_sub_cancel_left]
  have hexpected : expectedByteCount indices = .ok (bytes.length, paddingBits bytes.length) := by
    have hhead : indices.headD 0 = paddingBits bytes.length := by rw [h.indices_eq, List.headD_cons]
    dsimp only [expectedByteCount]
    rw [hdataCount, hhead, mnemonicPaddingValueCount, mnemonicWordBits,
      Nat.div_eq_of_lt hpadding, Nat.mod_eq_of_lt hpadding,
      hcount, Nat.add_sub_cancel, Nat.mul_mod_left, Nat.mul_div_cancel _ (by decide : 0 < 8)]
    rw [if_neg (by decide), if_neg (by omega), if_neg (by decide)]
  have hdata : (indices.drop 1).take (dataWordCount bytes.length) = data := by
    rw [h.indices_eq, List.drop_succ_cons, List.drop_zero, List.take_left' h.length_data]
  have hchecksum : indices.drop (1 + dataWordCount bytes.length) =
    mnemonicChecksumWords blake3 bytes := by
    rw [h.indices_eq, Nat.add_comm, List.drop_succ_cons, List.drop_left' h.length_data]
  obtain ⟨rest, decoded, hreading, hreads⟩ := readWords_ok (Reading.start bytes.length) h.data_lt
    (by rw [List.length_nil, h.length_data]; omega)
  rw [List.nil_append] at hreading
  obtain ⟨hdecoded, hrest⟩ :=
    hreading.complete (by rw [h.length_data, hcount] : data.length * 11 = bytes.length * 8 + paddingBits bytes.length)
  have hsame : decoded = bytes ∧ rest.bits = 0 := by
    have hbytes : ∀ digit ∈ bytes.map UInt8.toNat, digit < 2 ^ 8 := by
      rw [List.forall_mem_map]
      exact fun byte _ => byte.toNat_lt
    obtain ⟨hmap, hbits⟩ :=
      hreading.cut.read_back hbytes (by rw [List.length_map, List.length_map, hdecoded])
      (by rw [hrest]; exact h.value_data)
    exact ⟨List.map_injective_iff.2 (fun _ _ => UInt8.toNat_inj.1) hmap, hbits⟩
  obtain ⟨rfl, hbits⟩ := hsame
  rw [decodeWordIndices, if_neg (by rw [h.length]; omega), hexpected, ok_bind]
  dsimp only
  rw [validateDecodedLen, if_neg (Nat.not_lt.2 hlength), ok_bind, hdataCount, hdata, hreads, ok_bind]
  dsimp only
  rw [if_neg (by simp [hrest, hbits]), hchecksum, if_neg (by simp)]
  rfl

theorem max_word_len (words : WordList) :
    (∀ word ∈ words.words, utf8Len word ≤ (words.words.map utf8Len).max?.getD 0) ∧
      (words.words.map utf8Len).max?.getD 0 ≤ 8 := by
  cases hmax : (words.words.map utf8Len).max? with
  | none =>
      rw [List.max?_eq_none_iff, List.map_eq_nil_iff] at hmax
      simp [hmax]
  | some max =>
      obtain ⟨hmem, hle⟩ := List.max?_eq_some_iff.1 hmax
      obtain ⟨word, hword, rfl⟩ := List.mem_map.1 hmem
      exact ⟨fun other hother => hle _ (List.mem_map_of_mem hother), words.short word hword⟩

/-- The text of some bytes is within the limits for their length. -/
theorem Canonical.text_limits {data indices : List Nat} (h : Canonical blake3 bytes data indices)
    (hlength : bytes.length ≤ maxDecodedLen) (hmax : maxDecodedLen ≤ 2 ^ 32) :
    indices.length ≤ maxMnemonicWordCountForDecodedLen maxDecodedLen ∧
      utf8Len (render words indices) ≤ maxMnemonicEncodedLenForDecodedLen words maxDecodedLen := by
  obtain ⟨hcount, hpadding⟩ := dataWordCount_spec bytes.length
  have hwords : indices.length ≤ maxMnemonicWordCountForDecodedLen maxDecodedLen := by
    rw [h.length, minMnemonicWordCount, maxMnemonicWordCountForDecodedLen,
      divCeil, saturatingMul, usizeMax, mnemonicWordBits,
      Nat.min_eq_left (by omega)]
    omega
  refine ⟨hwords, ?_⟩
  obtain ⟨hbound, hshort⟩ := max_word_len words
  refine (utf8Len_render h.lt hbound).trans ?_
  have hcountMax : maxMnemonicWordCountForDecodedLen maxDecodedLen ≤ 2 ^ 35 := by
    rw [maxMnemonicWordCountForDecodedLen, divCeil, saturatingMul,
      usizeMax, mnemonicWordBits, mnemonicChecksumWordCount,
      Nat.min_eq_left (by omega)]
    omega
  rw [maxMnemonicEncodedLenForDecodedLen, saturatingAdd, saturatingMul, usizeMax]
  generalize (words.words.map utf8Len).max?.getD 0 = longest at hshort ⊢
  have hproduct : maxMnemonicWordCountForDecodedLen maxDecodedLen * (longest + 1) ≤ 2 ^ 35 * (8 + 1) :=
    Nat.mul_le_mul hcountMax (Nat.succ_le_succ hshort)
  rw [Nat.min_eq_left (by omega : longest + 1 ≤ 2 ^ 64 - 1), Nat.min_eq_left (by omega)]
  exact Nat.mul_le_mul_right _ hwords

/-- Nothing of the source stops it or loses bits. -/
def Faultless {α : Type} (x : Except CodecError α) : Prop := ∀ fault, x ≠ .error (.fault fault)

theorem faultless_ok {α : Type} (a : α) : Faultless (.ok a) := fun _ => nofun

theorem Faultless.bind {α β : Type} {x : Except CodecError α}
    {f : α → Except CodecError β} (h : Faultless x)
    (hf : ∀ a, x = .ok a → Faultless (f a)) : Faultless (x >>= f) := by
  cases x with
  | error error => exact fun fault hfault => h fault (congrArg Except.error (Except.error.inj hfault))
  | ok a => exact hf a rfl

theorem lookUpWords_faultless {maxWordCount start : Nat} {texts : List Text} :
    Faultless (lookUpWords words maxWordCount start texts) := by
  induction texts generalizing start with
  | nil => exact faultless_ok []
  | cons text texts ih =>
      rw [lookUpWords]
      split
      · exact fun _ => nofun
      split
      · exact fun _ => nofun
      · exact ih.bind fun _ _ => faultless_ok _

theorem expectedByteCount_spec {indices : List Nat} {byteCount padding : Nat}
    (h : expectedByteCount indices = .ok (byteCount, padding)) :
    (indices.length - minMnemonicWordCount) * 11 = byteCount * 8 + padding ∧ padding ≤ 10 := by
  dsimp only [expectedByteCount] at h
  split at h
  · cases h
  split at h
  · cases h
  split at h
  · cases h
  · rename_i hpadding hwhole
    cases h
    simp only [mnemonicPaddingValueCount, mnemonicWordBits] at hpadding hwhole ⊢
    omega

theorem expectedByteCount_faultless {indices : List Nat} : Faultless (expectedByteCount indices) := by
  intro fault h
  dsimp only [expectedByteCount] at h
  split at h
  · cases h
  split at h
  · cases h
  split at h
  · cases h
  · cases h

theorem readWords_expected {indices : List Nat}
    {byteCount padding : Nat} (h : ∀ index ∈ indices, index < 2048)
    (hcount : expectedByteCount indices = .ok (byteCount, padding)) :
    ∃ rest decoded, Reading byteCount
      ((indices.drop 1).take (indices.length - minMnemonicWordCount)) rest decoded ∧
      readWords byteCount ((indices.drop 1).take (indices.length - minMnemonicWordCount)) ⟨0,
        0⟩ [] = .ok (rest, decoded) := by
  obtain ⟨hbits, hpadding⟩ := expectedByteCount_spec hcount
  have hlength : ((indices.drop 1).take (indices.length - minMnemonicWordCount)).length ≤
    indices.length - minMnemonicWordCount :=
    List.length_take_le _ _
  have hdata : ∀ index ∈ (indices.drop 1).take (indices.length - minMnemonicWordCount), index < 2048 :=
    fun index hindex => h index (List.mem_of_mem_drop (List.mem_of_mem_take hindex))
  obtain ⟨rest, decoded, hreading, hreads⟩ :=
    readWords_ok (Reading.start byteCount) hdata (by rw [List.length_nil]; omega)
  exact ⟨rest, decoded, hreading, hreads⟩

theorem decodeWordIndices_spec {indices : List Nat} (h : ∀ index ∈ indices, index < 2048) :
    Faultless (decodeWordIndices blake3 indices maxDecodedLen) ∧
      ∀ bytes, decodeWordIndices blake3 indices maxDecodedLen = .ok bytes →
        bytes.length ≤ maxDecodedLen := by
  unfold decodeWordIndices
  by_cases hshort : indices.length < minMnemonicWordCount
  · rw [if_pos hshort]
    constructor <;> intro _ h <;> cases h
  rw [if_neg hshort]
  cases hexpected : expectedByteCount indices with
  | error error =>
      have hfault : Faultless (expectedByteCount indices) := expectedByteCount_faultless
      rw [hexpected] at hfault
      refine ⟨hfault.bind fun _ hok => ?_, fun _ hbytes => ?_⟩
      · cases hok
      · cases hbytes
  | ok counts =>
      obtain ⟨byteCount, padding⟩ := counts
      obtain ⟨rest, decoded, hreading, hreads⟩ := readWords_expected h hexpected
      rw [ok_bind]
      dsimp only
      by_cases hlong : maxDecodedLen < byteCount
      · rw [validateDecodedLen, if_pos hlong]
        constructor <;> intro _ h <;> cases h
      rw [validateDecodedLen, if_neg hlong, ok_bind, hreads, ok_bind]
      dsimp only
      split
      · constructor <;> intro _ h <;> cases h
      split
      · constructor <;> intro _ h <;> cases h
      · refine ⟨faultless_ok _, fun bytes hbytes => ?_⟩
        cases hbytes
        exact hreading.length_le.trans (Nat.not_lt.1 hlong)

theorem mnemonicWordIndices_spec {maxWordCount : Nat} :
    Faultless (mnemonicWordIndices words text maxWordCount) ∧
      ∀ indices, mnemonicWordIndices words text maxWordCount = .ok indices →
        ∀ index ∈ indices, index < 2048 := by
  unfold mnemonicWordIndices
  constructor
  · refine lookUpWords_faultless.bind fun indices _ => ?_
    split
    · exact fun _ => nofun
    · exact faultless_ok _
  · intro indices h
    obtain ⟨found, hfound, h⟩ := bind_eq_ok.1 h
    split at h
    · cases h
    · cases h
      exact lookUpWords_lt hfound

theorem decodeMnemonic_faultless : Faultless (decodeMnemonic words blake3 text maxDecodedLen) := by
  unfold decodeMnemonic
  refine Faultless.bind ?_ fun _ _ => ?_
  · unfold validateEncodedLen
    split
    · exact fun _ => nofun
    · exact faultless_ok _
  refine mnemonicWordIndices_spec.1.bind fun indices hindices => ?_
  have hlt := mnemonicWordIndices_spec.2 indices hindices
  refine (decodeWordIndices_spec hlt).1.bind fun decoded _ => ?_
  obtain ⟨_, _, -, hencode⟩ := encodeMnemonic_ok words blake3 decoded
  rw [hencode, ok_bind]
  refine Faultless.bind ?_ fun _ _ => faultless_ok _
  unfold validateCanonicalEncoding
  split
  · exact fun _ => nofun
  · exact faultless_ok _

/-- A text is read only if it is the text of what is read from it. -/
theorem decodeMnemonic_eq_ok_iff (hmax : maxDecodedLen ≤ 2 ^ 32) :
    decodeMnemonic words blake3 text maxDecodedLen = .ok bytes ↔
      encodeMnemonic words blake3 bytes = .ok text ∧ bytes.length ≤ maxDecodedLen := by
  constructor
  · intro h
    obtain ⟨_, -, h⟩ := bind_eq_ok.1 h
    obtain ⟨indices, hindices, h⟩ := bind_eq_ok.1 h
    obtain ⟨decoded, hdecoded, h⟩ := bind_eq_ok.1 h
    obtain ⟨canonical, hcanonical, h⟩ := bind_eq_ok.1 h
    obtain ⟨_, hsame, h⟩ := bind_eq_ok.1 h
    cases h
    have hlt := mnemonicWordIndices_spec.2 indices hindices
    refine ⟨?_, (decodeWordIndices_spec hlt).2 _ hdecoded⟩
    unfold validateCanonicalEncoding at hsame
    split at hsame
    · cases hsame
    · rename_i heq
      rw [hcanonical, not_not.1 heq]
  · rintro ⟨hencode, hlength⟩
    obtain ⟨data, indices, hcanonical, hrender⟩ := encodeMnemonic_ok words blake3 bytes
    obtain rfl := Except.ok.inj (hencode.symm.trans hrender)
    obtain ⟨hwords, htext⟩ := hcanonical.text_limits hlength hmax
    have hindices : mnemonicWordIndices words (render words indices)
      (maxMnemonicWordCountForDecodedLen maxDecodedLen) = .ok indices := by
      have hne : indices ≠ [] := by
        rw [hcanonical.indices_eq]
        exact List.cons_ne_nil _ _
      rw [mnemonicWordIndices, splitSpaces_render hcanonical.lt,
        lookUpWords_map hcanonical.lt (by omega), ok_bind, if_neg hne]
      rfl
    rw [decodeMnemonic, validateEncodedLen, if_neg (Nat.not_lt.2 htext), ok_bind, hindices, ok_bind,
      decodeWordIndices_ok hcanonical hlength, ok_bind, hencode,
        ok_bind, validateCanonicalEncoding, if_neg (by simp), ok_bind]
    rfl

end Codec

/-- The texts that are read for a container are the texts of its bytes, each read as the
bytes that it is the text of; no word is looked up out of range, and no staged bit is lost. -/
theorem mnemonic_bijective (words : WordList)
    (blake3 : Bytes → FixedBytes 32) (container : EdgeByteContainer) :
    (∀ bytes, bytes.length ≤ container.maxDecodedLen → ∃ text,
      encodeMnemonic words blake3 bytes = .ok text ∧
      decodeMnemonic words blake3 text container.maxDecodedLen = .ok bytes) ∧
    (∀ text bytes, decodeMnemonic words blake3 text container.maxDecodedLen = .ok bytes ↔
      encodeMnemonic words blake3 bytes = .ok text ∧ bytes.length ≤ container.maxDecodedLen) ∧
    (∀ bytes, ∃ text, encodeMnemonic words blake3 bytes = .ok text) ∧
    ∀ text fault, decodeMnemonic words blake3 text container.maxDecodedLen ≠ .error (.fault fault) := by
  have hmax := container.maxDecodedLen_le
  have hencode (bytes : Bytes) : ∃ text, encodeMnemonic words blake3 bytes = .ok text := by
    obtain ⟨_, indices, -, hencode⟩ := encodeMnemonic_ok words blake3 bytes
    exact ⟨_, hencode⟩
  refine ⟨?_, fun text bytes => decodeMnemonic_eq_ok_iff hmax,
    hencode, fun text => decodeMnemonic_faultless⟩
  intro bytes hlength
  obtain ⟨text, htext⟩ := hencode bytes
  exact ⟨text, htext, (decodeMnemonic_eq_ok_iff hmax).2 ⟨htext, hlength⟩⟩

end Paranoid.MnemonicCodec

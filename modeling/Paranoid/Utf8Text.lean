import Mathlib.Data.List.Basic
import Paranoid.ByteCodecs

namespace Paranoid.Utf8Text

open ByteCodecs List

/-- The characters of a string. -/
abbrev Text : Type := List Char

variable {c d : Char} {text rest : Text} {bytes : Bytes} {index : Nat}

def utf8 (text : Text) : Bytes := text.flatMap String.utf8EncodeChar

def utf8Len (text : Text) : Nat := (text.map Char.utf8Size).sum

@[simp] theorem utf8_nil : utf8 [] = [] := rfl

@[simp] theorem utf8_cons (c : Char) (text : Text) :
    utf8 (c :: text) = String.utf8EncodeChar c ++ utf8 text := rfl

@[simp] theorem utf8_append (text rest : Text) :
    utf8 (text ++ rest) = utf8 text ++ utf8 rest := flatMap_append

@[simp] theorem utf8Len_nil : utf8Len [] = 0 := rfl

@[simp] theorem utf8Len_cons (c : Char) (text : Text) :
    utf8Len (c :: text) = c.utf8Size + utf8Len text := rfl

@[simp] theorem utf8Len_append (text rest : Text) :
    utf8Len (text ++ rest) = utf8Len text + utf8Len rest := by
  simp [utf8Len]

theorem length_utf8 (text : Text) : (utf8 text).length = utf8Len text := by
  induction text with
  | nil => rfl
  | cons c text ih => rw [utf8_cons, length_append, String.length_utf8EncodeChar, ih, utf8Len_cons]

theorem utf8ByteSize_ofList (text : Text) : (String.ofList text).utf8ByteSize = utf8Len text := by
  induction text with
  | nil => rfl
  | cons c text ih =>
      have hcons : String.ofList (c :: text) = String.singleton c ++ String.ofList text := by
        apply String.toList_injective
        rw [String.toList_append, String.toList_ofList, String.toList_ofList, String.toList_singleton]
        rfl
      rw [hcons, String.utf8ByteSize_append, String.utf8ByteSize_singleton, ih, utf8Len_cons]

theorem utf8_inj {text other : Text} (h : utf8 text = utf8 other) : text = other := by
  have hencoded : text.utf8Encode = other.utf8Encode := congrArg List.toByteArray h
  have hdecoded := congrArg ByteArray.utf8Decode? hencoded
  rw [utf8Decode?_utf8Encode, utf8Decode?_utf8Encode, Option.some.injEq] at hdecoded
  exact congrArg Array.toList hdecoded

def isAscii (c : Char) : Bool := c.toNat < 128

/-- The byte that the encoding of a character begins with. -/
def firstByte (c : Char) : UInt8 := (String.utf8EncodeChar c).headD 0

theorem utf8Size_of_ascii (h : isAscii c) : c.utf8Size = 1 := by
  rw [Char.utf8Size_eq_one_iff, UInt32.le_iff_toNat_le]
  have h : c.toNat < 128 := of_decide_eq_true h
  exact Nat.le_of_lt_succ h

theorem isAscii_of_isDigit (h : c.isDigit) : isAscii c := by
  rw [Char.isDigit, Bool.and_eq_true, decide_eq_true_iff,
    decide_eq_true_iff, UInt32.le_iff_toNat_le] at h
  exact decide_eq_true (Nat.lt_of_le_of_lt h.2 (by decide))

theorem utf8Len_digits (h : ∀ c ∈ text, c.isDigit) : utf8Len text = text.length := by
  induction text with
  | nil => rfl
  | cons c text ih =>
      rw [forall_mem_cons] at h
      rw [utf8Len_cons, utf8Size_of_ascii (isAscii_of_isDigit h.1), ih h.2, length_cons, Nat.add_comm]

theorem encode_ascii (h : isAscii c) : String.utf8EncodeChar c = [c.toUInt8] :=
  String.utf8EncodeChar_eq_singleton (utf8Size_of_ascii h)

/-- Every byte of the encoding of any other character is above the ASCII ones. -/
theorem encode_high (h : isAscii c = false) : ∀ b ∈ String.utf8EncodeChar c, 128 ≤ b.toNat := by
  have hlarge : ¬c.val.toNat ≤ 0x7f := by
    have h : ¬c.toNat < 128 := of_decide_eq_false h
    exact fun hle => h (Nat.lt_succ_of_le hle)
  have hbyte (n base : Nat) (hbase : 128 ≤ base) (hsum : n + base < 256) : 128 ≤
    (UInt8.ofNat (n + base)).toNat := by
    rw [UInt8.toNat_ofNat', Nat.mod_eq_of_lt hsum]
    omega
  intro b hb
  rw [String.utf8EncodeChar, if_neg hlarge] at hb
  split at hb
  · rcases mem_cons.1 hb with rfl | hb
    · exact hbyte _ _ (by omega) (by omega)
    · rw [mem_singleton.1 hb]
      exact hbyte _ _ (by omega) (by omega)
  · split at hb
    · rcases mem_cons.1 hb with rfl | hb
      · exact hbyte _ _ (by omega) (by omega)
      · rcases mem_cons.1 hb with rfl | hb
        · exact hbyte _ _ (by omega) (by omega)
        · rw [mem_singleton.1 hb]
          exact hbyte _ _ (by omega) (by omega)
    · rcases mem_cons.1 hb with rfl | hb
      · exact hbyte _ _ (by omega) (by omega)
      · rcases mem_cons.1 hb with rfl | hb
        · exact hbyte _ _ (by omega) (by omega)
        · rcases mem_cons.1 hb with rfl | hb
          · exact hbyte _ _ (by omega) (by omega)
          · rw [mem_singleton.1 hb]
            exact hbyte _ _ (by omega) (by omega)

theorem encode_eq_cons (c : Char) : ∃ tail, String.utf8EncodeChar c = firstByte c :: tail := by
  obtain ⟨b, tail, h⟩ := exists_cons_of_ne_nil (@String.utf8EncodeChar_ne_nil c)
  exact ⟨tail, by rw [firstByte, h]; rfl⟩

theorem toNat_toUInt8 (h : isAscii c) : c.toUInt8.toNat = c.toNat := by
  have h : c.toNat < 128 := of_decide_eq_true h
  exact Nat.mod_eq_of_lt (Nat.lt_trans h (by decide))

theorem utf8_map_ofUInt8 {bytes : Bytes} (h : ∀ b ∈ bytes, b.toNat < 128) :
    utf8 (bytes.map Char.ofUInt8) = bytes := by
  induction bytes with
  | nil => rfl
  | cons b bytes ih =>
      rw [forall_mem_cons] at h
      have hascii : isAscii (Char.ofUInt8 b) = true := decide_eq_true h.1
      have hback : (Char.ofUInt8 b).toUInt8 = b := by
        rw [← UInt8.toNat_inj, toNat_toUInt8 hascii]
        rfl
      rw [map_cons, utf8_cons, encode_ascii hascii, hback, ih h.2, singleton_append]

theorem firstByte_ascii (h : isAscii c) : firstByte c = c.toUInt8 := by
  rw [firstByte, encode_ascii h]
  rfl

theorem firstByte_high (h : isAscii c = false) : 128 ≤ (firstByte c).toNat := by
  obtain ⟨tail, htail⟩ := encode_eq_cons c
  exact encode_high h _ (htail ▸ mem_cons_self)

/-- A byte tells the ASCII character it stands for from every other one. -/
theorem firstByte_eq_iff (hd : isAscii d) : firstByte c = d.toUInt8 ↔ c = d := by
  constructor
  · intro h
    cases hc : isAscii c with
    | false =>
        have hhigh := firstByte_high hc
        have hlow : d.toNat < 128 := of_decide_eq_true hd
        rw [h, toNat_toUInt8 hd] at hhigh
        omega
    | true =>
        rw [firstByte_ascii hc] at h
        have hval : c.toNat = d.toNat := by rw [← toNat_toUInt8 hc, ← toNat_toUInt8 hd, h]
        exact Char.toNat_inj.1 hval
  · rintro rfl
    exact firstByte_ascii hd

/-- The byte that the encoding of a character ends in. -/
def lastByte (c : Char) : UInt8 := (String.utf8EncodeChar c).getLastD 0

theorem lastByte_ascii (h : isAscii c) : lastByte c = c.toUInt8 := by
  rw [lastByte, encode_ascii h]
  rfl

theorem lastByte_high (h : isAscii c = false) : 128 ≤ (lastByte c).toNat := by
  refine encode_high h _ ?_
  rw [lastByte, getLastD_eq_getLast?, getLast?_eq_some_getLast String.utf8EncodeChar_ne_nil]
  exact getLast_mem _

theorem lastByte_eq_iff (hd : isAscii d) : lastByte c = d.toUInt8 ↔ c = d := by
  cases hc : isAscii c with
  | true => rw [lastByte_ascii hc, ← firstByte_ascii hc, firstByte_eq_iff hd]
  | false =>
      have hlow : d.toNat < 128 := of_decide_eq_true hd
      refine iff_of_false (fun h => ?_) (fun h => ?_)
      · have hhigh := lastByte_high hc
        rw [h, toNat_toUInt8 hd] at hhigh
        omega
      · rw [h, hd] at hc
        cases hc

/-- The byte before a position is the last one of the character before it. -/
theorem getElem?_utf8_pred (before rest : Text) (c : Char) :
    (utf8 (before ++ c :: rest))[utf8Len (before ++ [c]) - 1]? = some (lastByte c) := by
  have hpos : 1 ≤ c.utf8Size := Char.utf8Size_pos c
  have hlen : utf8Len (before ++ [c]) - 1 = (utf8 before).length + (c.utf8Size - 1) := by
    rw [utf8Len_append, utf8Len_cons, utf8Len_nil, length_utf8]
    omega
  have hsize : c.utf8Size - 1 < (String.utf8EncodeChar c).length := by
    rw [String.length_utf8EncodeChar]
    omega
  rw [utf8_append, utf8_cons, hlen,
    getElem?_append_right (Nat.le_add_right _ _), Nat.add_sub_cancel_left,
    getElem?_append_left hsize, lastByte, getLastD_eq_getLast?,
      getLast?_eq_getElem?, String.length_utf8EncodeChar,
    List.getElem?_eq_getElem hsize]
  rfl

theorem ascii_forall {p : Char → Prop} (h : ∀ n < 128, p (Char.ofNat n)) (hc : isAscii c) : p c := by
  rw [← Char.ofNat_toNat c]
  exact h _ (of_decide_eq_true hc)

/-- The bytes from `index` on are those of `text`. -/
def At (bytes : Bytes) (index : Nat) (text : Text) : Prop := bytes.drop index = utf8 text

theorem at_zero (text : Text) : At (utf8 text) 0 text := rfl

theorem at_append (before text : Text) : At (utf8 (before ++ text)) (utf8Len before) text := by
  rw [At, utf8_append, ← length_utf8, drop_left]

theorem At.getElem? (h : At bytes index text) (offset : Nat) :
    bytes[index + offset]? = (utf8 text)[offset]? := by
  rw [← h, getElem?_drop]

theorem At.head? (h : At bytes index text) : bytes[index]? = text.head?.map firstByte := by
  rw [← Nat.add_zero index, h.getElem?]
  cases text with
  | nil => rfl
  | cons c text =>
      obtain ⟨tail, htail⟩ := encode_eq_cons c
      rw [utf8_cons, htail]
      rfl

theorem At.next (h : At bytes index (c :: text)) : At bytes (index + c.utf8Size) text := by
  rw [At, ← drop_drop, h, utf8_cons, ← String.length_utf8EncodeChar, drop_left]

theorem At.append (h : At bytes index (text ++ rest)) : At bytes (index + utf8Len text) rest := by
  induction text generalizing index with
  | nil => exact h
  | cons c text ih =>
      rw [utf8Len_cons, ← Nat.add_assoc]
      exact ih h.next

theorem At.ascii (h : At bytes index (c :: text)) (hc : isAscii c) : At bytes (index + 1) text := by
  have hnext := h.next
  rwa [utf8Size_of_ascii hc] at hnext

theorem At.head?_eq_some_iff (h : At bytes index text) (hd : isAscii d) :
    bytes[index]? = some d.toUInt8 ↔ text.head? = some d := by
  rw [h.head?]
  cases text with
  | nil => exact ⟨nofun, nofun⟩
  | cons c text =>
      rw [head?_cons, Option.map_some, Option.some_inj, Option.some_inj, firstByte_eq_iff hd]

/-- Two bytes tell the two ASCII characters they stand for. -/
theorem At.two_iff {e : Char} (h : At bytes index (c :: text)) (hd : isAscii d) (he : isAscii e) :
    firstByte c = d.toUInt8 ∧ bytes[index + 1]? = some e.toUInt8 ↔ [d, e] <+: c :: text := by
  rw [firstByte_eq_iff hd, cons_prefix_cons, eq_comm]
  refine and_congr_right fun hc => ?_
  subst hc
  rw [(h.ascii hd).head?_eq_some_iff he]
  cases text with
  | nil => exact ⟨nofun, nofun⟩
  | cons c text =>
      rw [cons_prefix_cons, head?_cons, Option.some_inj, eq_comm]
      exact ⟨fun heq => ⟨heq, prefix_append [] text⟩, fun heq => heq.1⟩

/-- A loop that passes over single bytes above the ASCII ones gets past the rest of any character. -/
theorem At.skip_rest {γ : Type} {loop : Nat → γ}
    (hskip : ∀ i b, bytes[i]? = some b → 128 ≤ b.toNat → loop i = loop (i + 1))
    (h : At bytes index (c :: text)) : loop (index + 1) = loop (index + c.utf8Size) := by
  cases hc : isAscii c with
  | true => rw [utf8Size_of_ascii hc]
  | false =>
      have hpos : 1 ≤ c.utf8Size := Char.utf8Size_pos c
      have hsteps : ∀ n, 1 ≤ n → n ≤ c.utf8Size → loop (index + 1) = loop (index + n) := by
        intro n hn
        induction n, hn using Nat.le_induction with
        | base => exact fun _ => rfl
        | succ n hn ih =>
            intro hle
            have hlt : n < (String.utf8EncodeChar c).length := by
              rw [String.length_utf8EncodeChar]
              omega
            have hbyte : bytes[index + n]? = some ((String.utf8EncodeChar c)[n]) := by
              rw [h.getElem?, utf8_cons, getElem?_append_left hlt, List.getElem?_eq_getElem hlt]
            rw [ih (by omega), hskip _ _ hbyte (encode_high hc _ (getElem_mem hlt)), Nat.add_assoc]
      exact hsteps _ hpos le_rfl

section Slices

/-- The text before a byte position and the text behind it, if it lies between two characters. -/
def splitAtByte : Nat → Text → Option (Text × Text)
  | 0, text => some ([], text)
  | _ + 1, [] => none
  | n + 1, c :: text =>
      if c.utf8Size ≤ n + 1 then (splitAtByte (n + 1 - c.utf8Size) text).map fun split => (c :: split.1, split.2) else none

theorem splitAtByte_append (text rest : Text) :
    splitAtByte (utf8Len text) (text ++ rest) = some (text, rest) := by
  induction text with
  | nil => rw [utf8Len_nil, splitAtByte, nil_append]
  | cons c text ih =>
      have hpos : 1 ≤ c.utf8Size := Char.utf8Size_pos c
      obtain ⟨n, hn⟩ : ∃ n, utf8Len (c :: text) = n + 1 :=
        ⟨utf8Len (c :: text) - 1, by rw [utf8Len_cons]; omega⟩
      rw [hn, cons_append, splitAtByte, ← hn, utf8Len_cons,
        if_pos (by omega), Nat.add_sub_cancel_left, ih]
      rfl

/-- `&text[start..stop]` -/
def slice (text : Text) (start stop : Nat) : Option (Text) := do
  let (_, rest) ← splitAtByte start text
  let (span, _) ← splitAtByte (stop - start) rest
  return span

theorem slice_eq (before span rest : Text) :
    slice (before ++ span ++ rest) (utf8Len before) (utf8Len before + utf8Len span) = some span := by
  rw [slice, append_assoc, splitAtByte_append, Nat.add_sub_cancel_left]
  change (splitAtByte (utf8Len span) (span ++ rest)).bind _ = _
  rw [splitAtByte_append]
  rfl

end Slices

end Paranoid.Utf8Text

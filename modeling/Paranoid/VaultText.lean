import Mathlib.Algebra.Order.BigOperators.Group.List
import Paranoid.JsonText
import Paranoid.VaultModel

namespace Paranoid.VaultText

open ByteCodecs JsonText VaultModel
open Utf8Text (Text utf8 utf8_inj)

section Files

/-- The text of a string. -/
def text (value : Text) : Bytes := string (utf8 value)

def named (depth : Nat) (name : String) (value : Bytes) : Bytes := field depth (utf8 name.toList) value

def kdfText (kdf : StoredPasswordKdf) : Bytes :=
  object 1 [named 1 "algorithm" (text kdf.algorithm),
    named 1 "version" (number kdf.version.toNat),
    named 1 "memory_cost_kib" (number kdf.memoryCostKib.toNat),
    named 1 "iterations" (number kdf.iterations.toNat),
    named 1 "parallelism" (number kdf.parallelism.toNat),
    named 1 "salt" (text kdf.salt)]

def entryText (entry : EncryptedEnvEntry) : Bytes :=
  object 2 [named 2 "version" (number entry.version.toNat),
    named 2 "updated_at_unix_seconds" (number entry.updatedAtUnixSeconds.toNat),
    named 2 "ciphertext" (text entry.ciphertext)]

/-- What serde_json writes with `to_writer_pretty`. -/
def toWriterPretty (vault : VaultFile) : Bytes :=
  object 0 [named 0 "version" (number vault.version.toNat),
    named 0 "vault_id" (text vault.vaultId),
    named 0 "created_at_unix_seconds" (number vault.createdAtUnixSeconds.toNat),
    named 0 "updated_at_unix_seconds" (number vault.updatedAtUnixSeconds.toNat),
    named 0 "kdf" (kdfText vault.kdf),
    named 0 "password_check" (text vault.passwordCheck),
    named 0 "encrypted_env" (object 1 (vault.encryptedEnv.entries.map fun entry =>
      field 1 (utf8 entry.1) (entryText entry.2)))]

end Files

section Records

variable {α : Type} {print : α → Bytes} {depth : Nat}
  {key next following : Bytes} {rest others : List Bytes} {a b : α}
  {x y : Bytes}

/-- The first field of a record, before others. -/
theorem first_field (h : Delimited print)
    (heq : List.intercalate [44, 10] (field depth key (print a) :: next :: rest) ++ x =
      List.intercalate [44, 10] (field depth key (print b) :: following :: others) ++ y) :
    a = b ∧ List.intercalate [44, 10] (next :: rest) ++ x = List.intercalate [44,
      10] (following :: others) ++ y := by
  simp only [List.intercalate_cons_cons, List.append_assoc] at heq
  obtain ⟨hvalue, hrest⟩ := h.field (by simp [isDigit]) (by simp [isDigit]) heq
  exact ⟨hvalue, List.append_cancel_left hrest⟩

theorem last_field (h : Delimited print)
    (heq : List.intercalate [44, 10] [field depth key (print a)] ++ 10 :: x =
      List.intercalate [44, 10] [field depth key (print b)] ++ 10 :: y) : a = b ∧ x = y := by
  simp only [List.intercalate_singleton] at heq
  obtain ⟨hvalue, hrest⟩ := h.field (by simp [isDigit]) (by simp [isDigit]) heq
  exact ⟨hvalue, (List.cons.inj hrest).2⟩

theorem object_cons (depth : Nat) (next : Bytes) (rest : List Bytes) (x : Bytes) :
    object depth (next :: rest) ++ x =
    123 :: 10 :: (List.intercalate [44, 10] (next :: rest) ++
      10 :: (indentation depth ++ 125 :: x)) := by
  simp [object]

theorem object_end {n : Nat} (h : indentation n ++ 125 :: x = indentation n ++ 125 :: y) : x = y :=
  (List.cons.inj (List.append_cancel_left h)).2

end Records

theorem text_delimited : Delimited text := by
  intro a b x y hx hy h
  obtain ⟨hvalue, hrest⟩ := string_delimited hx hy h
  exact ⟨utf8_inj hvalue, hrest⟩

theorem uint32_delimited : Delimited fun n : UInt32 => number n.toNat := by
  intro a b x y hx hy h
  obtain ⟨hvalue, hrest⟩ := number_delimited hx hy h
  exact ⟨UInt32.toNat_inj.1 hvalue, hrest⟩

theorem uint64_delimited : Delimited fun n : UInt64 => number n.toNat := by
  intro a b x y hx hy h
  obtain ⟨hvalue, hrest⟩ := number_delimited hx hy h
  exact ⟨UInt64.toNat_inj.1 hvalue, hrest⟩

theorem kdfText_delimited : Delimited kdfText := by
  intro a b x y _ _ h
  rw [kdfText, kdfText, object_cons, object_cons] at h
  simp only [List.cons.injEq, true_and] at h
  obtain ⟨halgorithm, h⟩ := first_field text_delimited h
  obtain ⟨hversion, h⟩ := first_field uint32_delimited h
  obtain ⟨hmemory, h⟩ := first_field uint32_delimited h
  obtain ⟨hiterations, h⟩ := first_field uint32_delimited h
  obtain ⟨hparallelism, h⟩ := first_field uint32_delimited h
  obtain ⟨hsalt, h⟩ := last_field text_delimited h
  refine ⟨?_, object_end h⟩
  cases a
  cases b
  simp_all only

theorem entryText_delimited : Delimited entryText := by
  intro a b x y _ _ h
  rw [entryText, entryText, object_cons, object_cons] at h
  simp only [List.cons.injEq, true_and] at h
  obtain ⟨hversion, h⟩ := first_field uint32_delimited h
  obtain ⟨hupdated, h⟩ := first_field uint64_delimited h
  obtain ⟨hciphertext, h⟩ := last_field text_delimited h
  refine ⟨?_, object_end h⟩
  cases a
  cases b
  simp_all only

theorem namedEntry_delimited : Delimited fun entry : Text × EncryptedEnvEntry =>
    field 1 (utf8 entry.1) (entryText entry.2) := by
  intro a b x y hx hy h
  simp only [field, List.append_assoc, List.cons_append] at h
  obtain ⟨hname, h⟩ :=
    string_delimited (by simp [isDigit]) (by simp [isDigit]) (List.append_cancel_left h)
  simp only [List.cons.injEq, true_and] at h
  obtain ⟨hentry, hrest⟩ := entryText_delimited hx hy h
  exact ⟨Prod.ext (utf8_inj hname) hentry, hrest⟩

/-- The text of a vault tells the vault. -/
theorem toWriterPretty_delimited : Delimited toWriterPretty := by
  intro a b x y _ _ h
  rw [toWriterPretty, toWriterPretty, object_cons, object_cons] at h
  simp only [List.cons.injEq, true_and] at h
  obtain ⟨hversion, h⟩ := first_field uint32_delimited h
  obtain ⟨hid, h⟩ := first_field text_delimited h
  obtain ⟨hcreated, h⟩ := first_field uint64_delimited h
  obtain ⟨hupdated, h⟩ := first_field uint64_delimited h
  obtain ⟨hkdf, h⟩ := first_field kdfText_delimited h
  obtain ⟨hcheck, h⟩ := first_field text_delimited h
  obtain ⟨hentries, h⟩ := last_field (Delimited.object namedEntry_delimited) h
  refine ⟨?_, object_end h⟩
  obtain ⟨_, _, _, _, _, _, ⟨_, _⟩⟩ := a
  obtain ⟨_, _, _, _, _, _, ⟨_, _⟩⟩ := b
  simp_all only

section Sizes

theorem length_string (text : Bytes) : text.length ≤ (string text).length := by
  have hescape : ∀ b : UInt8, 1 ≤ (escape b).length := fun b => List.length_pos_iff.2 (escape_ne_nil b)
  rw [string, List.length_cons, List.length_append]
  induction text with
  | nil => simp
  | cons b text ih =>
      have hb := hescape b
      rw [List.flatMap_cons, List.length_append, List.length_cons]
      omega

theorem length_field (depth : Nat) (key value : Bytes) :
    value.length ≤ (field depth key value).length := by
  simp only [field, List.length_append, List.length_cons]
  omega

theorem sum_length_intercalate (fields : List Bytes) :
    (fields.map List.length).sum ≤ (List.intercalate [44, 10] fields).length := by
  induction fields with
  | nil => simp
  | cons first rest ih =>
      cases rest with
      | nil => simp
      | cons second rest =>
          simp only [List.intercalate_cons_cons, List.length_append,
            List.map_cons, List.sum_cons] at ih ⊢
          omega

theorem length_object (depth : Nat) (fields : List Bytes) :
    (fields.map List.length).sum ≤ (object depth fields).length := by
  have hsum := sum_length_intercalate fields
  rw [object]
  split
  · rename_i hnil
    simp [hnil]
  · simp only [List.length_cons, List.length_append]
    omega

theorem length_object_of_mem {depth : Nat} {fields : List Bytes} {value : Bytes} (h : value ∈ fields) :
    value.length ≤ (object depth fields).length :=
  (List.single_le_sum (fun _ _ => Nat.zero_le _) _ (List.mem_map_of_mem h)).trans
  (length_object depth fields)

theorem length_text (value : Text) : value.length ≤ (text value).length := by
  have hutf8 : value.length ≤ (utf8 value).length := by
    rw [Utf8Text.length_utf8]
    induction value with
    | nil => exact Nat.le_refl 0
    | cons c value ih =>
        have hpos : 1 ≤ c.utf8Size := Char.utf8Size_pos c
        rw [List.length_cons, Utf8Text.utf8Len_cons]
        omega
  exact hutf8.trans (length_string (utf8 value))

theorem length_entryText (entry : EncryptedEnvEntry) :
    entry.ciphertext.length ≤ (entryText entry).length := by
  refine (length_text entry.ciphertext).trans ((length_field 2 (utf8 "ciphertext".toList) _).trans ?_)
  exact length_object_of_mem (by simp [named])

/-- The text is as long as its ciphertexts at least. -/
theorem length_toWriterPretty (vault : VaultFile) :
    (vault.encryptedEnv.entries.map fun entry => entry.2.ciphertext.length).sum ≤
      (toWriterPretty vault).length := by
  have hentries : (vault.encryptedEnv.entries.map fun entry => entry.2.ciphertext.length).sum ≤
      ((vault.encryptedEnv.entries.map fun entry => field 1 (utf8 entry.1) (entryText entry.2)).map
        List.length).sum := by
    rw [List.map_map]
    refine List.sum_le_sum fun entry _ => ?_
    exact (length_entryText entry.2).trans (length_field 1 (utf8 entry.1) _)
  have hobject := hentries.trans (length_object 1 _)
  refine hobject.trans ((length_field 0 (utf8 "encrypted_env".toList) _).trans ?_)
  exact length_object_of_mem (by simp [named])

end Sizes

end Paranoid.VaultText

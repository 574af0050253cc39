import Paranoid.EnvelopeModel
import Paranoid.SeparatedParts

namespace Paranoid.KeysetDerivation

open ByteCodecs CryptoPrimitives EnvelopeModel Postgres SeparatedParts

/-- How the keyset of a purpose is derived from the keys: at once, or as a child. -/
inductive PurposePath
  | root (purpose : Bytes)
  | child (parent : PurposePath) (purpose : Bytes)
  deriving DecidableEq

namespace PurposePath

def text : PurposePath → Bytes
  | root purpose => purpose
  | child parent purpose => parent.text ++ 0x2f :: purpose

def keyset (kdf : Kdf) (latestFirstKeys : List Key32) : PurposePath → Except CryptoError Keyset
  | root purpose => deriveKeysetFromLatestFirstKeys kdf latestFirstKeys purpose
  | child parent purpose => do
      let parentKeyset ← parent.keyset kdf latestFirstKeys
      parentKeyset.deriveChildKeyset kdf purpose

/-- What one of the keys becomes. -/
def workingKey (kdf : Kdf) (key : Key32) : PurposePath → ParanoidKey
  | root purpose => deriveWorkingKeyFromKey32 kdf key purpose
  | child parent purpose => deriveChildKey kdf (parent.workingKey kdf key) parent.text purpose

def inputs (kdf : Kdf) (key : Key32) : PurposePath → List KdfInput
  | root purpose => [(workingKeyInputs key purpose).1, (workingKeyInputs key purpose).2]
  | child parent purpose =>
      (childKeyInputs (parent.workingKey kdf key) parent.text purpose).1 ::
        (childKeyInputs (parent.workingKey kdf key) parent.text purpose).2 :: parent.inputs kdf key

inductive Valid : PurposePath → Prop
  | root {purpose : Bytes} : validatePurpose purpose = .ok () → Valid (root purpose)
  | child {parent : PurposePath} {purpose : Bytes} : Valid parent → validatePurpose purpose = .ok () →
      (child parent purpose).text.length ≤ maxPurposeLen → Valid (child parent purpose)

end PurposePath

/-- No two of the inputs have one output. -/
def NoCollision (kdf : Kdf) (inputs : List KdfInput) : Prop :=
  ∀ i ∈ inputs, ∀ j ∈ inputs, kdf i = kdf j → i = j

instance (kdf : Kdf) (inputs : List KdfInput) : Decidable (NoCollision kdf inputs) :=
  inferInstanceAs (Decidable (∀ i ∈ inputs, ∀ j ∈ inputs, kdf i = kdf j → i = j))

theorem NoCollision.mono {kdf : Kdf} {inputs others : List KdfInput} (h : NoCollision kdf others)
    (hsubset : inputs ⊆ others) : NoCollision kdf inputs :=
  fun i hi j hj => h i (hsubset hi) j (hsubset hj)

section Purposes

variable {purpose other : Bytes} {path others : PurposePath}

theorem validatePurpose_eq_ok (h : validatePurpose purpose = .ok ()) :
    purpose.length ≤ maxPurposeLen ∧ (0x2f : UInt8) ∉ purpose := by
  unfold validatePurpose at h
  by_cases hempty : purpose.length = 0
  · rw [if_pos hempty] at h
    cases h
  by_cases hlong : maxPurposeLen < purpose.length
  · rw [if_neg hempty, if_pos hlong] at h
    cases h
  rw [if_neg hempty, if_neg hlong] at h
  refine ⟨Nat.not_lt.1 hlong, ?_⟩
  intro hmem
  split at h
  next => cases h
  next hfind =>
      obtain ⟨index, hindex⟩ := List.mem_iff_getElem?.1 hmem
      simpa using List.find?_eq_none.1 hfind _ (List.mk_mem_zipIdx_iff_getElem?.2 hindex)

theorem PurposePath.Valid.length_text (h : path.Valid) : path.text.length ≤ maxPurposeLen := by
  cases h with
  | root hpurpose => exact (validatePurpose_eq_ok hpurpose).1
  | child _ _ hlength => exact hlength

/-- The last separator of a purpose tells a child's purpose from its parent's. -/
theorem text_inj (hpath : path.Valid) (hothers : others.Valid) (h : path.text = others.text) :
    path = others := by
  induction hpath generalizing others with
  | root hpurpose =>
      cases hothers with
      | root _ => exact congrArg PurposePath.root h
      | child _ _ _ =>
          refine absurd ?_ (validatePurpose_eq_ok hpurpose).2
          simp only [PurposePath.text] at h
          simp [h]
  | child _ hpurpose _ ih =>
      cases hothers with
      | root hother =>
          refine absurd ?_ (validatePurpose_eq_ok hother).2
          simp only [PurposePath.text] at h
          simp [← h]
      | child hparent hother _ =>
          obtain ⟨htext, hpurposes⟩ :=
            after_unique (validatePurpose_eq_ok hpurpose).2 (validatePurpose_eq_ok hother).2 h
          rw [ih hparent htext, hpurposes]

theorem deriveKeysetFromLatestFirstKeys_eq_ok {kdf : Kdf}
    {latestFirstKeys : List Key32} {keyset : Keyset}
    (h : deriveKeysetFromLatestFirstKeys kdf latestFirstKeys purpose = .ok keyset) :
    validatePurpose purpose = .ok () ∧
      keyset = ⟨purpose, latestFirstKeys.map fun key => deriveWorkingKeyFromKey32 kdf key purpose⟩ := by
  unfold deriveKeysetFromLatestFirstKeys at h
  by_cases hmany : maxKeysetKeys < latestFirstKeys.length
  · rw [if_pos hmany] at h
    cases h
  rw [if_neg hmany] at h
  obtain ⟨_, _, h⟩ := bind_eq_ok.1 h
  obtain ⟨_, hpurpose, h⟩ := bind_eq_ok.1 h
  cases h
  exact ⟨hpurpose, rfl⟩

theorem purposeForChild_eq_ok {text : Bytes} (h : purposeForChild text purpose = .ok other) :
    validatePurpose purpose = .ok () ∧ other = text ++ 0x2f :: purpose ∧
      other.length ≤ maxPurposeLen := by
  unfold purposeForChild at h
  obtain ⟨_, hpurpose, h⟩ := bind_eq_ok.1 h
  by_cases hlong : maxPurposeLen < text.length + 1 + purpose.length
  · rw [if_pos hlong] at h
    cases h
  rw [if_neg hlong] at h
  cases h
  refine ⟨hpurpose, rfl, ?_⟩
  simp only [List.length_append, List.length_cons]
  omega

theorem keyset_eq_ok {kdf : Kdf} {latestFirstKeys : List Key32} {keyset : Keyset}
    (h : path.keyset kdf latestFirstKeys = .ok keyset) :
    path.Valid ∧ keyset = ⟨path.text, latestFirstKeys.map fun key => path.workingKey kdf key⟩ := by
  induction path generalizing keyset with
  | root purpose =>
      obtain ⟨hpurpose, hkeyset⟩ := deriveKeysetFromLatestFirstKeys_eq_ok h
      exact ⟨.root hpurpose, hkeyset⟩
  | child parent purpose ih =>
      obtain ⟨parentKeyset, hparent, h⟩ := bind_eq_ok.1 h
      obtain ⟨hvalid, rfl⟩ := ih hparent
      obtain ⟨childPurpose, hchild, h⟩ := bind_eq_ok.1 h
      obtain ⟨hpurpose, rfl, hlength⟩ := purposeForChild_eq_ok hchild
      cases h
      refine ⟨.child hvalid hpurpose hlength, ?_⟩
      simp only [PurposePath.text, PurposePath.workingKey, List.map_map, Function.comp_def]

end Purposes

section Keys

variable {kdf : Kdf} {key other : Key32} {path others : PurposePath}

theorem lengthPrefixedBytes_inj {bytes others rest following : Bytes}
    (hbytes : bytes.length ≤ maxPurposeLen)
    (hothers : others.length ≤ maxPurposeLen)
    (h : lengthPrefixedBytes bytes ++ rest = lengthPrefixedBytes others ++ following) :
    bytes = others ∧ rest = following := by
  simp only [lengthPrefixedBytes, List.append_assoc] at h
  obtain ⟨hlengths, hrest⟩ := List.append_inj h (by simp)
  have hbound : maxPurposeLen < 256 ^ 2 := by decide
  have hlength := beBytes_inj (hbytes.trans_lt hbound) (hothers.trans_lt hbound) hlengths
  exact List.append_inj hrest hlength

theorem hkdf_salts_ne : keysetHkdfDerivationSalt ≠ childHkdfDerivationSalt := by decide +kernel

theorem blake3_contexts_ne : keysetBlake3DerivationContext ≠ childBlake3DerivationContext := by decide

theorem hkdfInput_inj {salt otherSalt infoPrefix otherInfoPrefix derivationContext otherContext : Bytes}
    (h : hkdfInput key salt infoPrefix derivationContext =
      hkdfInput other otherSalt otherInfoPrefix otherContext) :
    key = other ∧ salt = otherSalt ∧
      infoPrefix ++ derivationContext = otherInfoPrefix ++ otherContext := by
  simpa [hkdfInput] using h

theorem blake3Input_inj {context otherContext : String} {derivationContext otherDerivation : Bytes}
    (h : blake3Input key context derivationContext = blake3Input other otherContext otherDerivation) :
    key = other ∧ context = otherContext ∧ derivationContext = otherDerivation := by
  simp only [blake3Input, KdfInput.blake3.injEq] at h
  obtain ⟨hkeys, hrest⟩ := List.append_inj h.2 (by rw [key.property, other.property])
  exact ⟨Subtype.ext hkeys, h.1, hrest⟩

theorem lengthPrefixedBytes_inj' {bytes others : Bytes} (hbytes : bytes.length ≤ maxPurposeLen)
    (hothers : others.length ≤ maxPurposeLen)
    (h : lengthPrefixedBytes bytes = lengthPrefixedBytes others) :
    bytes = others := by
  have happend : lengthPrefixedBytes bytes ++ [] = lengthPrefixedBytes others ++ [] := by rw [h]
  exact (lengthPrefixedBytes_inj hbytes hothers happend).1

theorem workingKeyInputs_inj {purpose otherPurpose : Bytes} (hpurpose : purpose.length ≤ maxPurposeLen)
    (hother : otherPurpose.length ≤ maxPurposeLen)
    (h : (workingKeyInputs key purpose).1 = (workingKeyInputs other otherPurpose).1 ∨
      (workingKeyInputs key purpose).2 = (workingKeyInputs other otherPurpose).2) : key = other ∧
        purpose = otherPurpose := by
  rcases h with h | h
  · obtain ⟨hkey, -, hinfo⟩ := hkdfInput_inj h
    exact ⟨hkey, lengthPrefixedBytes_inj' hpurpose hother (List.append_cancel_left hinfo)⟩
  · obtain ⟨hkey, -, hcontext⟩ := blake3Input_inj h
    exact ⟨hkey, lengthPrefixedBytes_inj' hpurpose hother hcontext⟩

variable {parentKey otherKey : ParanoidKey}

theorem childKeyInputs_inj {parentPurpose purpose otherParent otherPurpose : Bytes}
    (hparent : parentPurpose.length ≤ maxPurposeLen) (hotherParent : otherParent.length ≤ maxPurposeLen)
    (hpurpose : purpose.length ≤ maxPurposeLen) (hother : otherPurpose.length ≤ maxPurposeLen)
    (h : (childKeyInputs parentKey parentPurpose purpose).1 =
      (childKeyInputs otherKey otherParent otherPurpose).1 ∨
      (childKeyInputs parentKey parentPurpose purpose).2 =
        (childKeyInputs otherKey otherParent otherPurpose).2) :
    (parentKey.hkdfSha256 = otherKey.hkdfSha256 ∨ parentKey.blake3 = otherKey.blake3) ∧
      purpose = otherPurpose := by
  have hcontexts (h : lengthPrefixedBytes parentPurpose ++ lengthPrefixedBytes purpose =
      lengthPrefixedBytes otherParent ++ lengthPrefixedBytes otherPurpose) : purpose = otherPurpose :=
    lengthPrefixedBytes_inj' hpurpose hother (lengthPrefixedBytes_inj hparent hotherParent h).2
  rcases h with h | h
  · obtain ⟨hkey, -, hinfo⟩ := hkdfInput_inj h
    exact ⟨.inl hkey, hcontexts (List.append_cancel_left hinfo)⟩
  · obtain ⟨hkey, -, hcontext⟩ := blake3Input_inj h
    exact ⟨.inr hkey, hcontexts hcontext⟩

theorem workingKeyInputs_ne_childKeyInputs {purpose parentPurpose childPurpose : Bytes} :
    (workingKeyInputs key purpose).1 ≠ (childKeyInputs parentKey parentPurpose childPurpose).1 ∧
      (workingKeyInputs key purpose).2 ≠ (childKeyInputs parentKey parentPurpose childPurpose).2 :=
  ⟨fun h => hkdf_salts_ne (hkdfInput_inj h).2.1, fun h => blake3_contexts_ne (blake3Input_inj h).2.1⟩

/-- One of the two halves of a working key tells the purpose and the key it comes from:
the salts and contexts tell children apart from roots, and lengths stand before purposes. -/
theorem workingKey_inj (hkdf : NoCollision kdf (path.inputs kdf key ++ others.inputs kdf other))
    (hpath : path.Valid)
    (hothers : others.Valid)
    (h : (path.workingKey kdf key).hkdfSha256 = (others.workingKey kdf other).hkdfSha256 ∨
      (path.workingKey kdf key).blake3 = (others.workingKey kdf other).blake3) : path = others ∧
        key = other := by
  induction hpath generalizing others with
  | root hpurpose =>
      cases hothers with
      | root hother =>
          have hinputs := h.imp (hkdf _ (by simp [PurposePath.inputs]) _ (by simp [PurposePath.inputs]))
            (hkdf _ (by simp [PurposePath.inputs]) _ (by simp [PurposePath.inputs]))
          obtain ⟨hkey, rfl⟩ :=
            workingKeyInputs_inj (validatePurpose_eq_ok hpurpose).1
            (validatePurpose_eq_ok hother).1 hinputs
          exact ⟨rfl, hkey⟩
      | child hparent hother _ =>
          rcases h with h | h
          · exact absurd (hkdf _ (by simp [PurposePath.inputs]) _ (by simp [PurposePath.inputs]) h)
              workingKeyInputs_ne_childKeyInputs.1
          · exact absurd (hkdf _ (by simp [PurposePath.inputs]) _ (by simp [PurposePath.inputs]) h)
              workingKeyInputs_ne_childKeyInputs.2
  | child hparent hpurpose _ ih =>
      cases hothers with
      | root hother =>
          rcases h with h | h
          · exact absurd (hkdf _ (by simp [PurposePath.inputs]) _ (by simp [PurposePath.inputs]) h.symm)
              workingKeyInputs_ne_childKeyInputs.1
          · exact absurd (hkdf _ (by simp [PurposePath.inputs]) _ (by simp [PurposePath.inputs]) h.symm)
              workingKeyInputs_ne_childKeyInputs.2
      | child hotherParent hother _ =>
          have hinputs := h.imp (hkdf _ (by simp [PurposePath.inputs]) _ (by simp [PurposePath.inputs]))
            (hkdf _ (by simp [PurposePath.inputs]) _ (by simp [PurposePath.inputs]))
          obtain ⟨hkeys, rfl⟩ := childKeyInputs_inj hparent.length_text hotherParent.length_text
            (validatePurpose_eq_ok hpurpose).1 (validatePurpose_eq_ok hother).1 hinputs
          have hsubset : NoCollision kdf _ := hkdf.mono (List.append_subset.2
            ⟨fun input hinput =>
              List.mem_append_left _ (List.mem_cons_of_mem _ (List.mem_cons_of_mem _ hinput)),
              fun input hinput =>
                List.mem_append_right _ (List.mem_cons_of_mem _ (List.mem_cons_of_mem _ hinput))⟩)
          obtain ⟨rfl, rfl⟩ := ih hsubset hotherParent hkeys
          exact ⟨rfl, rfl⟩

end Keys

end Paranoid.KeysetDerivation

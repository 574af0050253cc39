import Paranoid.KvModel
import Paranoid.LeaseModel
import Paranoid.SeparatedParts

namespace Paranoid.KvKeys

open KvAtomic KvModel Postgres SeparatedParts

def validateKeyPart (part : String) : Except KvError Unit := do
  if part.utf8ByteSize = 0 then throw .emptyKeyPart
  if ':' ∈ part.toList then throw .keyPartContainsSeparatorByte
  if '\x00' ∈ part.toList then throw .keyPartContainsNullByte

def validateKeyLength (key : String) : Except KvError Key :=
  if short : key.utf8ByteSize ≤ maxKvKeyBytes then return ⟨key, short⟩
  else throw (.keyTooLong key.utf8ByteSize maxKvKeyBytes)

/-- Every part is followed by the separator, and nothing is written for no parts. -/
def joinKeyParts (parts : List String) : String :=
  if parts = [] then "" else kvKeySeparator.intercalate parts ++ kvKeySeparator

def buildKeyFromPrefixAndParts (keyPrefix : KeyPrefix) (suffixParts : List String) :
    Except KvError Key := do
  suffixParts.forM validateKeyPart
  validateKeyLength (keyPrefix.text ++ joinKeyParts suffixParts)

def buildKeyFromParts (parts : List String) : Except KvError Key := do
  parts.forM validateKeyPart
  if parts = [] then throw .emptyKey
  validateKeyLength (joinKeyParts parts)

/-- A text that starts with the parts, none of which contains the separator's byte. -/
structure Under (parts : List String) (text : String) : Prop where
  separable : ∀ part ∈ parts, ':' ∉ part.toList
  starts : joined "::".toList (parts.map String.toList) <+: text.toList

section Parts

variable {parts others : List String} {text : String}

theorem under_comparable (h : Under parts text) (h' : Under others text) :
    parts <+: others ∨ others <+: parts := by
  have hinj : Function.Injective String.toList := fun _ _ => String.toList_injective
  rw [← List.prefix_map_iff_of_injective hinj, ← List.prefix_map_iff_of_injective hinj]
  have hsep : "::".toList = [':', ':'] := rfl
  have hstarts := h.starts
  have hstarts' := h'.starts
  rw [hsep] at hstarts hstarts'
  apply parts_comparable _ _ hstarts hstarts'
  · simpa using h.separable
  · simpa using h'.separable

end Parts

theorem validateKeyPart_eq_ok {part : String} (h : validateKeyPart part = .ok ()) :
    ':' ∉ part.toList := by
  intro hmem
  simp only [validateKeyPart, hmem, if_true] at h
  split at h <;> cases h

theorem lease_validateKeyPart_eq_ok {part : String} (h : LeaseModel.validateKeyPart part = .ok ()) :
    ':' ∉ part.toList := by
  intro hmem
  simp only [LeaseModel.validateKeyPart, hmem, if_true] at h
  split at h <;> cases h

theorem validateKeyLength_eq_ok {text : String} {key : Key} (h : validateKeyLength text = .ok key) :
    key.text = text := by
  rw [validateKeyLength] at h
  split at h
  · cases h
    rfl
  · cases h

theorem under_of_buildKeyFromParts {parts : List String}
    {key : Key} (h : buildKeyFromParts parts = .ok key) :
    Under parts key.text := by
  rw [buildKeyFromParts] at h
  obtain ⟨_, hparts, h⟩ := bind_eq_ok.1 h
  split at h
  · cases h
  · rename_i hne
    refine ⟨fun part hpart => validateKeyPart_eq_ok (forM_eq_ok.1 hparts part hpart), ?_⟩
    rw [validateKeyLength_eq_ok h, joinKeyParts, if_neg hne, toList_intercalate_append _ hne]
    rfl

/-- The keys built under a prefix start with its text. -/
theorem under_of_buildKeyFromPrefixAndParts {parts suffixParts : List String}
    {keyPrefix : KeyPrefix} {key : Key}
    (hstart : Under parts keyPrefix.text)
    (h : buildKeyFromPrefixAndParts keyPrefix suffixParts = .ok key) :
    Under parts key.text := by
  rw [buildKeyFromPrefixAndParts] at h
  obtain ⟨_, -, h⟩ := bind_eq_ok.1 h
  refine ⟨hstart.separable, hstart.starts.trans ?_⟩
  rw [validateKeyLength_eq_ok h, String.toList_append]
  exact List.prefix_append _ _

theorem under_of_lease_fromParts {parts : List String} {key : LeaseModel.Key}
    (h : LeaseModel.Key.fromParts parts = .ok key) : Under parts key.text := by
  rw [LeaseModel.Key.fromParts] at h
  obtain ⟨_, hparts, h⟩ := bind_eq_ok.1 h
  split at h
  · cases h
  · rename_i hne
    refine ⟨fun part hpart => lease_validateKeyPart_eq_ok (forM_eq_ok.1 hparts part hpart), ?_⟩
    dsimp only [pure_bind] at h
    split at h
    · cases h
      change _ <+: (LeaseModel.leaseKeySeparator.intercalate parts ++
        LeaseModel.leaseKeySeparator).toList
      rw [toList_intercalate_append _ hne]
      rfl
    · cases h

end Paranoid.KvKeys

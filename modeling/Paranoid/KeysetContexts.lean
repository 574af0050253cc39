import Paranoid.KeysetDerivation

namespace Paranoid.KeysetContexts

open ByteCodecs CryptoPrimitives EnvelopeModel KeysetDerivation List

section Contexts

variable {path others : PurposePath}

/-- What the lengths are written for, in front of each. -/
def prefixedParts : PurposePath → List Bytes
  | .root purpose => [purpose]
  | .child parent purpose => [parent.text, purpose]

def derivationContext (path : PurposePath) : Bytes :=
  (prefixedParts path).flatMap lengthPrefixedBytes

/-- What the two halves of a working key are derived from. -/
def ownInputs (kdf : Kdf) (key : Key32) : PurposePath → KdfInput × KdfInput
  | .root purpose => workingKeyInputs key purpose
  | .child parent purpose => childKeyInputs (parent.workingKey kdf key) parent.text purpose

theorem workingKey_eq (kdf : Kdf) (key : Key32) (path : PurposePath) :
    path.workingKey kdf key = deriveKey kdf (ownInputs kdf key path) := by
  cases path <;> rfl

/-- A path that some keys are derived by. -/
def Accepted (path : PurposePath) : Prop :=
  ∃ kdf latestFirstKeys keyset, path.keyset kdf latestFirstKeys = .ok keyset

theorem Accepted.valid (h : Accepted path) : path.Valid := by
  obtain ⟨kdf, latestFirstKeys, keyset, h⟩ := h
  exact (keyset_eq_ok h).1

theorem length_of_prefixed (h : path.Valid) :
    ∀ part ∈ prefixedParts path, part.length ≤ maxPurposeLen := by
  cases h with
  | root hpurpose =>
      rw [prefixedParts, forall_mem_singleton]
      exact (validatePurpose_eq_ok hpurpose).1
  | child hparent hpurpose _ =>
      rw [prefixedParts, forall_mem_cons, forall_mem_singleton]
      exact ⟨hparent.length_text, (validatePurpose_eq_ok hpurpose).1⟩

/-- The lengths tell where each part ends. -/
theorem parts_inj {parts following : List Bytes} (hparts : ∀ part ∈ parts, part.length ≤ maxPurposeLen)
    (hfollowing : ∀ part ∈ following, part.length ≤ maxPurposeLen)
    (h : parts.flatMap lengthPrefixedBytes = following.flatMap lengthPrefixedBytes) :
    parts = following := by
  have hne : ∀ part : Bytes, lengthPrefixedBytes part ≠ [] := fun part => by
    rw [lengthPrefixedBytes, Ne, append_eq_nil_iff]
    exact fun hnil => absurd (congrArg length hnil.1) (by simp)
  induction parts generalizing following with
  | nil =>
      cases following with
      | nil => rfl
      | cons part following =>
          rw [flatMap_nil, flatMap_cons] at h
          exact absurd (append_eq_nil_iff.1 h.symm).1 (hne part)
  | cons part parts ih =>
      cases following with
      | nil =>
          rw [flatMap_nil, flatMap_cons] at h
          exact absurd (append_eq_nil_iff.1 h).1 (hne part)
      | cons other following =>
          rw [forall_mem_cons] at hparts hfollowing
          rw [flatMap_cons, flatMap_cons] at h
          obtain ⟨rfl, hrest⟩ := lengthPrefixedBytes_inj hparts.1 hfollowing.1 h
          rw [ih hparts.2 hfollowing.2 hrest]

theorem prefixedParts_inj (hpath : path.Valid) (hothers : others.Valid)
    (h : prefixedParts path = prefixedParts others) : path = others := by
  cases hpath with
  | root hpurpose =>
      cases hothers with
      | root hother => rw [(cons.inj h).1]
      | child _ _ _ => cases h
  | child hparent hpurpose _ =>
      cases hothers with
      | root hother => cases h
      | child hotherParent hother _ =>
          obtain ⟨htext, hpurposes⟩ := cons.inj h
          rw [text_inj hparent hotherParent htext, (cons.inj hpurposes).1]

theorem derivationContext_inj (hpath : path.Valid) (hothers : others.Valid)
    (h : derivationContext path = derivationContext others) : path = others :=
  prefixedParts_inj hpath hothers (parts_inj (length_of_prefixed hpath) (length_of_prefixed hothers) h)

theorem root_context (purpose : Bytes) :
    derivationContext (.root purpose) = lengthPrefixedBytes purpose := by
  rw [derivationContext, prefixedParts, flatMap_singleton]

theorem child_context (parent : PurposePath) (purpose : Bytes) :
    derivationContext (.child parent purpose) =
      lengthPrefixedBytes parent.text ++ lengthPrefixedBytes purpose := by
  rw [derivationContext, prefixedParts, flatMap_cons, flatMap_singleton]

/-- An input of either key derivation has the whole context in it. -/
theorem context_of_inputs {kdf kdf' : Kdf} {key key' : Key32}
    (h : (ownInputs kdf key path).1 = (ownInputs kdf' key' others).1 ∨
      (ownInputs kdf key path).2 = (ownInputs kdf' key' others).2) :
    derivationContext path = derivationContext others := by
  cases path with
  | root purpose =>
      cases others with
      | root other =>
          rw [root_context, root_context]
          exact h.elim (fun h => append_cancel_left (hkdfInput_inj h).2.2) fun h =>
            (blake3Input_inj h).2.2
      | child parent other =>
          refine (?_ : False).elim
          exact h.elim workingKeyInputs_ne_childKeyInputs.1 workingKeyInputs_ne_childKeyInputs.2
  | child parent purpose =>
      cases others with
      | root other =>
          refine (?_ : False).elim
          exact h.elim workingKeyInputs_ne_childKeyInputs.1.symm
            workingKeyInputs_ne_childKeyInputs.2.symm
      | child otherParent other =>
          rw [child_context, child_context]
          exact h.elim (fun h => append_cancel_left (hkdfInput_inj h).2.2) fun h =>
            (blake3Input_inj h).2.2

/-- Two paths are never derived with one context, no length is cut, and the purpose of a keyset tells
its path. -/
theorem contexts_injective :
    (∀ kdf key path, path.workingKey kdf key = deriveKey kdf (ownInputs kdf key path)) ∧
    (∀ path others, Accepted path → Accepted others → path ≠ others →
      derivationContext path ≠ derivationContext others ∧
      ∀ kdf kdf' key key', (ownInputs kdf key path).1 ≠ (ownInputs kdf' key' others).1 ∧
        (ownInputs kdf key path).2 ≠ (ownInputs kdf' key' others).2) ∧
    (∀ path, Accepted path → ∀ part ∈ prefixedParts path, part.length % 2 ^ 16 = part.length) ∧
    ∀ (kdf : Kdf) (latestFirstKeys : List Key32) (keyset : Keyset)
      (kdf' : Kdf) (latestFirstKeys' : List Key32) (keyset' : Keyset) (path others : PurposePath),
      path.keyset kdf latestFirstKeys = .ok keyset →
      others.keyset kdf' latestFirstKeys' = .ok keyset' →
      keyset.purpose = keyset'.purpose → path = others := by
  refine ⟨workingKey_eq, fun path others hpath hothers hne => ?_, fun path hpath part hpart => ?_, ?_⟩
  · have hcontexts : derivationContext path ≠ derivationContext others :=
      fun h => hne (derivationContext_inj hpath.valid hothers.valid h)
    exact ⟨hcontexts, fun kdf kdf' key key' =>
      ⟨fun h => hcontexts (context_of_inputs (.inl h)),
        fun h => hcontexts (context_of_inputs (.inr h))⟩⟩
  · have hbound : maxPurposeLen < 2 ^ 16 := by decide
    exact Nat.mod_eq_of_lt ((length_of_prefixed hpath.valid part hpart).trans_lt hbound)
  · intro kdf latestFirstKeys keyset kdf' latestFirstKeys' keyset' path others hpath hothers h
    obtain ⟨hvalid, rfl⟩ := keyset_eq_ok hpath
    obtain ⟨hvalid', rfl⟩ := keyset_eq_ok hothers
    exact text_inj hvalid hvalid' h

end Contexts

end Paranoid.KeysetContexts

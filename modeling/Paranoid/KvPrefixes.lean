import Paranoid.KvKeys

namespace Paranoid.KvPrefixes

open KvKeys KvModel Postgres SeparatedParts

variable {parts others : List String} {key : Key} {keyPrefix : KeyPrefix}

theorem toList_joinKeyParts (parts : List String) :
    (joinKeyParts parts).toList = joined "::".toList (parts.map String.toList) := by
  unfold joinKeyParts
  split
  · rename_i hparts
    rw [hparts]
    rfl
  · rename_i hne
    exact toList_intercalate_append kvKeySeparator hne

theorem joinKeyParts_append (parts others : List String) :
    joinKeyParts (parts ++ others) = joinKeyParts parts ++ joinKeyParts others := by
  apply String.toList_injective
  rw [String.toList_append, toList_joinKeyParts, toList_joinKeyParts,
    toList_joinKeyParts, List.map_append, joined_append]

theorem buildKeyFromParts_eq_ok (h : buildKeyFromParts parts = .ok key) :
    parts.forM validateKeyPart = .ok () ∧ parts ≠ [] ∧ key.text = joinKeyParts parts := by
  rw [buildKeyFromParts] at h
  obtain ⟨⟨⟩, hparts, h⟩ := bind_eq_ok.1 h
  split at h
  · cases h
  · rename_i hne
    exact ⟨hparts, hne, validateKeyLength_eq_ok h⟩

theorem separable_of_buildKeyFromParts (h : buildKeyFromParts parts = .ok key) :
    ∀ part ∈ parts.map String.toList, ':' ∉ part := by
  simpa using (under_of_buildKeyFromParts h).separable

theorem containsKey_iff (hstart : buildKeyFromParts parts = .ok keyPrefix)
    (hkey : buildKeyFromParts others = .ok key) :
    keyPrefix.containsKey key = true ↔ parts <+: others := by
  have hinj : Function.Injective String.toList := fun _ _ => String.toList_injective
  rw [KeyPrefix.containsKey, List.isPrefixOf_iff_prefix, (buildKeyFromParts_eq_ok hstart).2.2,
    (buildKeyFromParts_eq_ok hkey).2.2, toList_joinKeyParts, toList_joinKeyParts]
  exact (joined_prefix_iff (separable_of_buildKeyFromParts hstart)
    (separable_of_buildKeyFromParts hkey)).trans
    (List.prefix_map_iff_of_injective hinj)

/-- A key is built from a prefix and further parts as it is from all the parts. -/
theorem buildKeyFromPrefixAndParts_eq (hstart : buildKeyFromParts parts = .ok keyPrefix)
    (suffixParts : List String) :
    buildKeyFromPrefixAndParts keyPrefix suffixParts = buildKeyFromParts (parts ++ suffixParts) := by
  obtain ⟨hparts, hne, htext⟩ := buildKeyFromParts_eq_ok hstart
  have hall : (parts ++ suffixParts).forM validateKeyPart = suffixParts.forM validateKeyPart := by
    change forM (parts ++ suffixParts) validateKeyPart = _
    rw [List.forM_append]
    change (parts.forM validateKeyPart >>= fun _ => suffixParts.forM validateKeyPart) = _
    rw [hparts, ok_bind]
  rw [buildKeyFromPrefixAndParts, buildKeyFromParts, hall, joinKeyParts_append, htext,
    if_neg (List.append_ne_nil_of_left_ne_nil hne _)]

theorem key_text_faithful (hstart : buildKeyFromParts parts = .ok keyPrefix)
    (hkey : buildKeyFromParts others = .ok key) :
    (keyPrefix.text = key.text → parts = others) ∧
    (keyPrefix.containsKey key = true ↔ parts <+: others) ∧
    (∀ suffixParts, buildKeyFromPrefixAndParts keyPrefix suffixParts =
      buildKeyFromParts (parts ++ suffixParts)) ∧
    ∀ text, sqlLike text (prefixLikePattern keyPrefix) =
      some (decide (keyPrefix.text.toList <+: text.toList)) := by
  refine ⟨fun htext => ?_, containsKey_iff hstart hkey, buildKeyFromPrefixAndParts_eq hstart,
    sqlLike_prefixLikePattern keyPrefix⟩
  have hsame : keyPrefix = key := Key.eq_of_text htext
  subst hsame
  have hcontains : keyPrefix.containsKey keyPrefix = true := by
    rw [KeyPrefix.containsKey, List.isPrefixOf_iff_prefix]
  have hle := (containsKey_iff hstart hkey).1 hcontains
  exact hle.eq_of_length_le ((containsKey_iff hkey hstart).1 hcontains).length_le

def wildcards : KeyPrefix := ⟨"a%::b_::", by decide⟩

def underWildcards : Key := ⟨"a%::b_::c::", by decide⟩

theorem key_text_faithful_wildcards :
    wildcards.containsKey underWildcards = true ∧
      sqlLike "ax::by::c::" (prefixLikePattern wildcards) = some false := by
  have hstart : buildKeyFromParts ["a%", "b_"] = .ok wildcards := by decide +kernel
  have hkey : buildKeyFromParts ["a%", "b_", "c"] = .ok underWildcards := by decide +kernel
  obtain ⟨-, hcontains, -, hlike⟩ := key_text_faithful hstart hkey
  refine ⟨hcontains.2 ⟨["c"], rfl⟩, ?_⟩
  rw [hlike]
  decide +kernel

end Paranoid.KvPrefixes

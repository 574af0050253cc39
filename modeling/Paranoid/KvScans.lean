import Paranoid.KvPrefixes
import Paranoid.KvRuns
import Paranoid.Pagination

namespace Paranoid.KvScans

open KvAtomic KvKeys KvModel KvOperations KvPrefixes KvRuns KvStore Pagination Postgres SeparatedParts

section Suffixes

def stripPrefix (start text : String) : Option String :=
  (start.toList.isPrefixOf? text.toList).map String.ofList

def stripSuffix (ending text : String) : Option String :=
  (ending.toList.isSuffixOf? text.toList).map String.ofList

def suffixFromKey (keyPrefix : KeyPrefix) (key : Key) : String :=
  (stripSuffix kvKeySeparator ((stripPrefix keyPrefix.text key.text).getD "")).getD ""

def validateRawSuffixCursor (rawSuffix : String) : Except KvError Unit := do
  if '\x00' ∈ rawSuffix.toList then throw .keyPartContainsNullByte

def keyFromPrefixAndRawSuffix (keyPrefix : KeyPrefix) (rawSuffix : String) : Except KvError Key := do
  validateRawSuffixCursor rawSuffix
  if rawSuffix = "" then return keyPrefix
  else validateKeyLength (keyPrefix.text ++ rawSuffix ++ kvKeySeparator)

def afterKeyFromOptionalSuffix (keyPrefix : KeyPrefix) (afterKeySuffix : Option String) :
    Except KvError (Option Key) :=
  match afterKeySuffix with
  | some suffix => some <$> keyFromPrefixAndRawSuffix keyPrefix suffix
  | none => return none

/-- A key, or a prefix, that is joined from parts. A text of either type always is. -/
def Joined (key : Key) : Prop := ∃ parts, buildKeyFromParts parts = .ok key

variable {keyPrefix : KeyPrefix} {key : Key} {parts : List String}

theorem stripPrefix_append (start rest : String) : stripPrefix start (start ++ rest) = some rest := by
  have h : start.toList.isPrefixOf? (start ++ rest).toList = some rest.toList :=
    List.isPrefixOf?_eq_some_iff_append_eq.2 (String.toList_append).symm
  rw [stripPrefix, h, Option.map_some, String.ofList_toList]

theorem stripSuffix_append (ending rest : String) :
    stripSuffix ending (rest ++ ending) = some rest := by
  have h : ending.toList.isSuffixOf? (rest ++ ending).toList = some rest.toList :=
    List.isSuffixOf?_eq_some_iff_append_eq.2 (String.toList_append).symm
  rw [stripSuffix, h, Option.map_some, String.ofList_toList]

/-- The parts of a key behind those of a prefix, none of which is empty or has a null byte. -/
theorem parts_under_prefix (hstart : Joined keyPrefix) (hkey : Joined key)
    (hunder : keyPrefix.containsKey key) : ∃ rest,
      key.text = keyPrefix.text ++ joinKeyParts rest ∧
        ∀ part ∈ rest, validateKeyPart part = .ok () := by
  obtain ⟨parts, hparts⟩ := hstart
  obtain ⟨others, hothers⟩ := hkey
  obtain ⟨rest, rfl⟩ := (containsKey_iff hparts hothers).1 hunder
  obtain ⟨hvalid, -, htext⟩ := buildKeyFromParts_eq_ok hothers
  refine ⟨rest, ?_, fun part hpart => forM_eq_ok.1 hvalid part (List.mem_append_right parts hpart)⟩
  rw [htext, (buildKeyFromParts_eq_ok hparts).2.2, joinKeyParts_append]

theorem validateKeyPart_free {part : String} (h : validateKeyPart part = .ok ()) :
    part ≠ "" ∧ '\x00' ∉ part.toList := by
  simp only [validateKeyPart, guard_eq_ok, lastGuard_eq_ok] at h
  obtain ⟨hempty, -, hnull⟩ := h
  exact ⟨fun hpart => hempty (by rw [hpart]; rfl), hnull⟩

theorem not_mem_intercalate {c : Char} (hseparator : c ∉ kvKeySeparator.toList) (hne : parts ≠ [])
    (hparts : ∀ part ∈ parts, c ∉ part.toList) : c ∉ (kvKeySeparator.intercalate parts).toList := by
  intro hmem
  have hjoined : c ∈ joined kvKeySeparator.toList (parts.map String.toList) := by
    rw [← toList_intercalate_append kvKeySeparator hne, String.toList_append]
    exact List.mem_append_left _ hmem
  obtain ⟨text, htext, hc⟩ := List.mem_flatMap.1 hjoined
  obtain ⟨part, hpart, rfl⟩ := List.mem_map.1 htext
  exact (List.mem_append.1 hc).elim (hparts part hpart) hseparator

theorem intercalate_ne_empty {part : String} (hpart : part ≠ "") (rest : List String) :
    kvKeySeparator.intercalate (part :: rest) ≠ "" := by
  intro hempty
  have hjoined := toList_intercalate_append kvKeySeparator (List.cons_ne_nil part rest)
  rw [hempty, String.empty_append, List.map_cons, joined_cons] at hjoined
  have hlength := congrArg List.length hjoined
  have hpositive : 0 < part.toList.length :=
    List.length_pos_iff.2 fun hnil => hpart (String.toList_injective hnil)
  simp only [List.length_append] at hlength
  omega

theorem suffixFromKey_of_text {rest : String} (h : key.text = keyPrefix.text ++ rest) :
    suffixFromKey keyPrefix key = (stripSuffix kvKeySeparator rest).getD "" := by
  rw [suffixFromKey, h, stripPrefix_append, Option.getD_some]

/-- The suffix of a key under a prefix, put behind the prefix again, gives the key. -/
theorem keyFromPrefixAndRawSuffix_suffixFromKey (hstart : Joined keyPrefix) (hkey : Joined key)
    (hunder : keyPrefix.containsKey key) :
    keyFromPrefixAndRawSuffix keyPrefix (suffixFromKey keyPrefix key) = .ok key := by
  obtain ⟨rest, htext, hrest⟩ := parts_under_prefix hstart hkey hunder
  rw [suffixFromKey_of_text htext]
  cases rest with
  | nil =>
      have hsame : keyPrefix = key := Key.eq_of_text (htext.trans (String.append_empty)).symm
      rw [hsame]
      rfl
  | cons part rest =>
      have hne : part :: rest ≠ [] := List.cons_ne_nil part rest
      have hparts := fun part hpart => validateKeyPart_free (hrest part hpart)
      have hjoined : joinKeyParts (part :: rest) =
        kvKeySeparator.intercalate (part :: rest) ++ kvKeySeparator :=
        if_neg hne
      rw [hjoined, stripSuffix_append, Option.getD_some, keyFromPrefixAndRawSuffix,
        if_neg (intercalate_ne_empty (hparts part List.mem_cons_self).1 rest)]
      have hnull : validateRawSuffixCursor (kvKeySeparator.intercalate (part :: rest)) = .ok () :=
        lastGuard_eq_ok.2 (not_mem_intercalate (by decide) hne fun part hpart => (hparts part hpart).2)
      rw [hnull, ok_bind, String.append_assoc, ← hjoined, ← htext]
      exact dif_pos key.short

end Suffixes

section Pages

variable (keyPrefix : KeyPrefix) (limit : Nat)

def scanKeySuffixes (now : Int) (t : Table) (afterKeySuffix : Option String) :
    Except KvError (List String) := do
  let afterKey ← afterKeyFromOptionalSuffix keyPrefix afterKeySuffix
  let keys ← scanKeysWithPrefix now t keyPrefix afterKey limit
  return keys.map (suffixFromKey keyPrefix)

/-- The rows of a scan, whose values are decoded afterwards. -/
def scanItems (now : Int) (t : Table) (afterKeySuffix : Option String) :
    Except KvError (List (String × Bytes)) := do
  let afterKey ← afterKeyFromOptionalSuffix keyPrefix afterKeySuffix
  let rows ← scanBytesWithPrefix now t keyPrefix afterKey limit
  return rows.map fun (key, value) => (suffixFromKey keyPrefix key, value)

/-- The pages of a scan, each read at a time of its own, up to a short one. The last
suffix of a page is the cursor of the next. -/
def scanPages (snapshot : Nat → Int × Table) :
    Nat → Nat → Option String → Except KvError (Option (List String))
  | 0, _, _ => return none
  | fuel + 1, page, afterKeySuffix => do
      let suffixes ← scanKeySuffixes keyPrefix limit (snapshot page).1 (snapshot page).2 afterKeySuffix
      if suffixes.length < limit then return some suffixes
      else
        let following ← scanPages snapshot fuel (page + 1) suffixes.getLast?
        return following.map (suffixes ++ ·)

variable {keyPrefix limit} {now : Int} {t : Table} {keys : List Key} {cursor : Option Key}

theorem empty_lt_of_contains {key : Key} (hstart : Joined keyPrefix) (h : keyPrefix.containsKey key) :
    "" < key.text := by
  obtain ⟨parts, hparts⟩ := hstart
  obtain ⟨-, hne, htext⟩ := buildKeyFromParts_eq_ok hparts
  rw [KeyPrefix.containsKey, List.isPrefixOf_iff_prefix,
    htext, joinKeyParts, if_neg hne, String.toList_append] at h
  rw [String.lt_iff_toList_lt]
  cases htoList : key.text.toList with
  | nil =>
      rw [htoList, List.prefix_nil, List.append_eq_nil_iff] at h
      exact absurd h.2 (by decide)
  | cons c rest => exact List.nil_lt_cons c rest

theorem scanKeysWithPrefix_eq (hstart : Joined keyPrefix) (hlimit : validateScanLimit limit = .ok ())
    (hsorted : keys.Pairwise (· < ·))
    (hkeys : ∀ key, key ∈ keys ↔ (t.view now key).isSome ∧ keyPrefix.containsKey key)
    (hcursor : ∀ key ∈ cursor, key ∈ keys) :
    scanKeysWithPrefix now t keyPrefix cursor limit = .ok ((remaining id keys cursor).take limit) := by
  have hnodup : (keys.map id).Nodup := by
    rw [List.map_id]
    exact hsorted.imp fun hlt => ne_of_lt hlt
  have hremaining : (remaining id keys cursor).Pairwise (· < ·) := pairwise_remaining hnodup
  have hafter : scanAfterKeyText keyPrefix cursor = .ok ((cursor.map Key.text).getD "") := by
    cases cursor with
    | none => rfl
    | some key => exact if_pos ((hkeys key).1 (hcursor key rfl)).2
  have hview : t.view now = (stored t).view now := rfl
  rw [scanKeysWithPrefix, hlimit, ok_bind, hafter, ok_bind, scanKeys_eq hview]
  refine congrArg Except.ok (ExpiringMap.scan_eq (hremaining.imp le_of_lt)
    (hremaining.imp fun hlt => ne_of_lt hlt) ?_ limit)
  intro key
  rw [mem_remaining, hkeys, and_assoc, scannedKey, Bool.and_eq_true]
  refine and_congr_right fun _ => and_congr_right fun hunder => ?_
  cases cursor with
  | none => exact iff_of_true rfl (decide_eq_true (empty_lt_of_contains hstart hunder))
  | some after => exact Iff.rfl

theorem scanKeySuffixes_eq_scanItems (now : Int) (t : Table) (afterKeySuffix : Option String) :
    scanKeySuffixes keyPrefix limit now t afterKeySuffix =
      (scanItems keyPrefix limit now t afterKeySuffix).map (List.map Prod.fst) := by
  rw [scanKeySuffixes, scanItems]
  cases afterKeyFromOptionalSuffix keyPrefix afterKeySuffix with
  | error error => rfl
  | ok afterKey =>
      rw [ok_bind, ok_bind, scanKeysWithPrefix, scanBytesWithPrefix]
      cases validateScanLimit limit with
      | error error => rfl
      | ok _ =>
          rw [ok_bind, ok_bind]
          cases scanAfterKeyText keyPrefix afterKey with
          | error error => rfl
          | ok afterKeyText =>
              refine congrArg Except.ok ?_
              rw [KvStatements.scanKeysWithPrefix, List.map_map, List.map_map]
              rfl

theorem scanKeySuffixes_eq (hstart : Joined keyPrefix) (hlimit : validateScanLimit limit = .ok ())
    (hsorted : keys.Pairwise (· < ·))
    (hkeys : ∀ key, key ∈ keys ↔ (t.view now key).isSome ∧ keyPrefix.containsKey key)
    (hjoined : ∀ key ∈ keys, Joined key) (hcursor : ∀ key ∈ cursor, key ∈ keys) :
    scanKeySuffixes keyPrefix limit now t (cursor.map (suffixFromKey keyPrefix)) =
      .ok (((remaining id keys cursor).take limit).map (suffixFromKey keyPrefix)) := by
  have hafter : afterKeyFromOptionalSuffix keyPrefix (cursor.map (suffixFromKey keyPrefix)) =
    .ok cursor := by
    cases cursor with
    | none => rfl
    | some key =>
        have hkey := hcursor key rfl
        rw [Option.map_some, afterKeyFromOptionalSuffix,
          keyFromPrefixAndRawSuffix_suffixFromKey hstart (hjoined key hkey) ((hkeys key).1 hkey).2]
        rfl
  rw [scanKeySuffixes, hafter, ok_bind, scanKeysWithPrefix_eq hstart hlimit hsorted hkeys hcursor]
  rfl

variable {snapshot : Nat → Int × Table}

/-- From a cursor on, the pages are cut from what remains behind it. -/
theorem scanPages_eq (hstart : Joined keyPrefix) (hlimit : validateScanLimit limit = .ok ())
    (hpositive : 0 < limit) (hsorted : keys.Pairwise (· < ·)) (hjoined : ∀ key ∈ keys, Joined key)
    (hkeys : ∀ page key, key ∈ keys ↔
      ((snapshot page).2.view (snapshot page).1 key).isSome ∧ keyPrefix.containsKey key)
    (fuel page : Nat) (hcursor : ∀ key ∈ cursor, key ∈ keys)
    (hfuel : (remaining id keys cursor).length < fuel) :
    scanPages keyPrefix limit snapshot fuel page (cursor.map (suffixFromKey keyPrefix)) =
      .ok (some ((remaining id keys cursor).map (suffixFromKey keyPrefix))) := by
  have hnodup : (keys.map id).Nodup := by
    rw [List.map_id]
    exact hsorted.imp fun hlt => ne_of_lt hlt
  induction fuel generalizing page cursor with
  | zero => exact absurd hfuel (Nat.not_lt_zero _)
  | succ fuel ih =>
      rw [scanPages, scanKeySuffixes_eq hstart hlimit hsorted (hkeys page) hjoined hcursor, ok_bind,
        List.length_map, List.length_take]
      by_cases hshort : (remaining id keys cursor).length < limit
      · rw [if_pos ((Nat.min_le_right _ _).trans_lt hshort), List.take_of_length_le hshort.le]
        rfl
      · rw [if_neg (by omega)]
        have hne : (remaining id keys cursor).take limit ≠ [] := by
          rw [← List.length_pos_iff, List.length_take]
          omega
        obtain ⟨key, hlast⟩ := Option.isSome_iff_exists.1 (List.getLast?_isSome.2 hne)
        have hnext : remaining id keys (some key) = (remaining id keys cursor).drop limit :=
          remaining_next hnodup (List.take_append_drop limit _).symm hlast
        have hmem : key ∈ keys :=
          (mem_remaining.1 (List.mem_of_mem_take (List.mem_of_getLast? hlast))).1
        have hfollowing : scanPages keyPrefix limit snapshot fuel (page + 1)
            ((some key).map (suffixFromKey keyPrefix)) =
              .ok (some ((remaining id keys (some key)).map (suffixFromKey keyPrefix))) := by
          apply ih (page + 1) fun other hother => Option.some.inj hother ▸ hmem
          rw [hnext, List.length_drop]
          omega
        rw [List.getLast?_map, hlast, hfollowing, hnext, ok_bind, Option.map_some, ← List.map_append,
          List.take_append_drop]
        rfl

theorem validateScanLimit_eq_ok (hpositive : 0 < limit) (hlimit : limit ≤ maxKvScanLimit) :
    validateScanLimit limit = .ok () := by
  rw [validateScanLimit, if_neg hpositive.ne', if_neg (Nat.not_lt.2 hlimit)]
  rfl

/-- Following the suffixes of a scan shows every live key under the prefix once, in order,
and no other, and every suffix stands for its key. -/
theorem scan_enumerates (hstart : Joined keyPrefix)
    (hpositive : 0 < limit) (hlimit : limit ≤ maxKvScanLimit)
    (live : Key → Prop)
    (hlive : ∀ page key, ((snapshot page).2.view (snapshot page).1 key).isSome ↔ live key)
    (hjoined : ∀ key, live key → Joined key) :
    (∃ keys : List Key, keys.Pairwise (· < ·) ∧
      (∀ key, key ∈ keys ↔ live key ∧ keyPrefix.containsKey key) ∧
      ∀ fuel, keys.length < fuel →
        scanPages keyPrefix limit snapshot fuel 0 none =
          .ok (some (keys.map (suffixFromKey keyPrefix)))) ∧
    (∀ now t afterKeySuffix, scanKeySuffixes keyPrefix limit now t afterKeySuffix =
      (scanItems keyPrefix limit now t afterKeySuffix).map (List.map Prod.fst)) ∧
    ∀ key, Joined key → keyPrefix.containsKey key →
      keyFromPrefixAndRawSuffix keyPrefix (suffixFromKey keyPrefix key) = .ok key := by
  refine ⟨?_, scanKeySuffixes_eq_scanItems, fun key => keyFromPrefixAndRawSuffix_suffixFromKey hstart⟩
  let under := ((stored (snapshot 0).2).liveKeys (snapshot 0).1).filter fun key =>
    keyPrefix.containsKey key
  have hmem (key : Key) : key ∈ under.sort (· ≤ ·) ↔ live key ∧ keyPrefix.containsKey key := by
    rw [Finset.mem_sort, Finset.mem_filter, ExpiringMap.mem_liveKeys]
    exact and_congr_left fun _ => hlive 0 key
  have hsorted : (under.sort (· ≤ ·)).Pairwise (· < ·) := (Finset.sortedLT_sort under).pairwise
  refine ⟨under.sort (· ≤ ·), hsorted, hmem, fun fuel hfuel => ?_⟩
  have hall : remaining id (under.sort (· ≤ ·)) none = under.sort (· ≤ ·) := by
    have hkept : (under.sort (· ≤ ·)).filter (behind id none) = under.sort (· ≤ ·) :=
      List.filter_eq_self.2 fun _ _ => rfl
    rw [remaining, hkept]
    exact List.Pairwise.insertionSort_eq (hsorted.imp le_of_lt)
  have hkeys (page : Nat) (key : Key) : key ∈ under.sort (· ≤ ·) ↔
      ((snapshot page).2.view (snapshot page).1 key).isSome ∧ keyPrefix.containsKey key :=
    (hmem key).trans (and_congr_left fun _ => (hlive page key).symm)
  have hpages : scanPages keyPrefix limit snapshot fuel 0 (none.map (suffixFromKey keyPrefix)) =
      .ok (some ((remaining id (under.sort (· ≤ ·)) none).map (suffixFromKey keyPrefix))) := by
    apply scanPages_eq hstart (validateScanLimit_eq_ok hpositive hlimit) hpositive hsorted
      (fun key hkey => hjoined key ((hmem key).1 hkey).1) hkeys fuel 0
      fun _ h => absurd h (Option.not_mem_none _)
    rwa [hall]
  rwa [hall] at hpages

def sessions : KeyPrefix := ⟨"session::", by decide⟩

def sessionOfAda : Key := ⟨"session::ada::", by decide⟩

def sessionsTable : Table :=
  ⟨[⟨sessionOfAda, [1], none, 0⟩, ⟨sessions, [2], none, 0⟩], by decide +kernel⟩

theorem scan_enumerates_sessions :
    ∃ keys : List Key, keys.Pairwise (· < ·) ∧
      (∀ key, key ∈ keys ↔ (sessionsTable.view 5 key).isSome ∧ KeyPrefix.containsKey sessions key) ∧
      ∀ fuel, keys.length < fuel →
        scanPages sessions 1 (fun _ => (5, sessionsTable)) fuel 0 none =
          .ok (some (keys.map (suffixFromKey sessions))) := by
  have hlive (key : Key) (h : (sessionsTable.view 5 key).isSome) : key = sessionOfAda ∨
    key = sessions := by
    rw [view_eq, Option.isSome_map, Option.isSome_iff_exists] at h
    obtain ⟨row, hrow⟩ := h
    have hmem := row?_eq_some.1 (liveRow?_eq_some.1 hrow).1
    rcases List.mem_pair.1 hmem.1 with rfl | rfl
    · exact .inl hmem.2.symm
    · exact .inr hmem.2.symm
  have hsessions : Joined sessions := ⟨["session"], by decide +kernel⟩
  have hada : Joined sessionOfAda := ⟨["session", "ada"], by decide +kernel⟩
  refine (scan_enumerates hsessions
    (by decide) (by decide) (fun key => (sessionsTable.view 5 key).isSome)
    (fun _ _ => Iff.rfl) fun key h => ?_).1
  rcases hlive key h with rfl | rfl
  · exact hada
  · exact hsessions

/-- A larger page than the greatest is refused. -/
theorem large_page_refused :
    (sessionsTable.view 5 sessionOfAda).isSome ∧
      scanPages sessions 10001 (fun _ => (5, sessionsTable)) 3 0 none =
        .error (.scanLimitTooLarge 10001 maxKvScanLimit) := by
  decide +kernel

end Pages

end Paranoid.KvScans

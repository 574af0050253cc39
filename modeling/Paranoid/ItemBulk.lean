import Paranoid.ItemMutations

namespace Paranoid.ItemBulk

open ItemModel TypedItems ItemRefinement ItemMutations KvAtomic KvKeys KvModel KvScans KvStatements
open KvStore Postgres
open ExpiringMap (Entry Map live)
open KvOperations (scannedKey)
open KvRuns (stored)

variable {T C E : Type}

variable {lift : ItemError C → E} {plaintext : Plaintext T C} {calls : ItemCodec C → Prop}
  {codec : ItemCodec C} {keyPrefix : KeyPrefix} {times : Times} {t : Table} {M : Map Key T Int}

section Keys

theorem keys_of_partsList {keyPartsList : List (List String)} {keys : List Key}
    (h : keysFromPartsList keyPrefix keyPartsList = .ok keys) :
    keys.length = keyPartsList.length ∧ ∀ key ∈ keys, keyPrefix.containsKey key := by
  have hall := mapM_eq_ok h
  refine ⟨hall.length_eq.symm, fun key hkey => ?_⟩
  obtain ⟨keyParts, -, hparts⟩ := forall₂_mem_right hall hkey
  exact containsKey_of_keyFromParts hparts

end Keys

section Reads

/-- A call that leaves the table as it is. -/
theorem refines_reads {α : Type} {operation : ItemOperation T E} (reply : α → ItemReply T)
    {result : Except (ItemError C) α} (hM : Represents plaintext calls keyPrefix times.now t M)
    (hperforms : Performs lift plaintext codec keyPrefix times M operation
      ((result.map fun a => (reply a, M)).mapError lift)) :
    Refines lift plaintext calls codec keyPrefix times M operation t
      ((result.map fun a => (reply a, t)).mapError lift) := by
  cases result with
  | error e => exact hperforms
  | ok a => exact ⟨M, hperforms, hM.later times.now_le_last, fun _ _ _ _ => rfl⟩

theorem live_isSome (hM : Represents plaintext calls keyPrefix times.now t M) {key : Key}
    (hkey : keyPrefix.containsKey key) :
    ((stored t).view times.now key).isSome = (M.view times.now key).isSome :=
  (hM key hkey).isSome

theorem refines_count (hM : Represents plaintext calls keyPrefix times.now t M) :
    Refines lift plaintext calls codec keyPrefix times M .count t
      (runItem lift plaintext codec keyPrefix times .count t) := by
  have hcount : KvStatements.countLiveKeysWithPrefix times.now t keyPrefix =
      (namespaceKeys keyPrefix times M).card := by
    rw [KvStatements.countLiveKeysWithPrefix, KvRefinement.liveRowsWithPrefix_eq,
      KvRefinement.count_liveRows (m := stored t) rfl, ExpiringMap.filter_liveKeys_congr fun _ =>
        live_isSome hM]
    rfl
  refine ⟨M, ?_, hM.later times.now_le_last, fun _ _ _ _ => rfl⟩
  rw [hcount]
  exact .count

theorem mapM_zip_map {ε α β γ : Type} {f : α → β} {g : α × β → Except ε γ} {h : α → γ} {xs : List α}
    (hg : ∀ x ∈ xs, g (x, f x) = .ok (h x)) : (xs.zip (xs.map f)).mapM g = .ok (xs.map h) := by
  induction xs with
  | nil => rfl
  | cons x xs ih =>
      rw [List.map_cons, List.zip_cons_cons, List.mapM_cons, hg x List.mem_cons_self,
        ih fun x hx => hg x (List.mem_cons_of_mem _ hx)]
      rfl

/-- The keyset is needed exactly where there is a value. -/
theorem decodeMultiValues_eq (hcodec : calls codec) {keys : List Key}
    {rows : Key → Option (Entry Bytes Int)} {cells : Key → Option (Entry T Int)}
    (hshows : ∀ key ∈ keys, Shows plaintext calls key (rows key) (cells key)) :
    decodeMultiValues plaintext codec keys (keys.map fun key => (rows key).map (·.value)) = (do
      if (keys.map fun key => (cells key).map (·.value)).any Option.isSome then codec.getKeyset
      return keys.map fun key => (cells key).map (·.value)) := by
  rw [decodeMultiValues]
  by_cases hsome : ∃ key ∈ keys, (cells key).isSome
  · have hany : (keys.map fun key => (cells key).map (·.value)).any Option.isSome = true := by
      simpa using hsome
    have hall : (keys.map fun key => (rows key).map (·.value)).all Option.isNone = false := by
      obtain ⟨key, hkey, hcell⟩ := hsome
      simp only [List.all_eq_false, List.mem_map]
      refine ⟨_, ⟨key, hkey, rfl⟩, ?_⟩
      rw [← (hshows key hkey).isSome] at hcell
      simp [Option.isSome_iff_ne_none.1 hcell]
    rw [hany, hall, if_neg Bool.false_ne_true, if_pos rfl]
    cases hkeyset : codec.getKeyset with
    | error e => rfl
    | ok =>
        dsimp only [ok_bind]
        apply mapM_zip_map
        intro key hkey
        have hrow := hshows key hkey
        generalize rows key = row, cells key = cell at hrow
        cases hrow with
        | none => rfl
        | some hreads =>
            dsimp only [Option.map_some]
            rw [hreads codec hcodec hkeyset]
            rfl
  · push Not at hsome
    have hany : (keys.map fun key => (cells key).map (·.value)).any Option.isSome = false := by
      simpa using hsome
    have hall : (keys.map fun key => (rows key).map (·.value)).all Option.isNone = true := by
      simp only [List.all_eq_true, List.mem_map]
      rintro _ ⟨key, hkey, rfl⟩
      have hrow := (hshows key hkey).isSome
      simp [hsome key hkey] at hrow
      simp [hrow]
    rw [hany, hall, if_pos rfl, if_neg Bool.false_ne_true]
    dsimp only [pure_eq_ok, ok_bind]
    rw [List.map_map]
    congr 1
    apply List.map_congr_left
    intro key hkey
    have hcell := hsome key hkey
    simp at hcell
    simp [hcell]

theorem refines_getMulti (hM : Represents plaintext calls keyPrefix times.now t M) (hcodec : calls codec)
    (keyPartsList : List (List String)) :
    Refines lift plaintext calls codec keyPrefix times M (.getMulti keyPartsList) t
      (runItem lift plaintext codec keyPrefix times (.getMulti keyPartsList) t) := by
  apply refines_reads .values hM
  have hperforms : Performs lift plaintext codec keyPrefix times M (.getMulti keyPartsList) _ :=
    .getMulti keyPartsList
  convert hperforms using 1
  rw [ItemModel.getMulti]
  cases hkeys : keysFromPartsListForMultiGet keyPrefix keyPartsList with
  | error e => rfl
  | ok keys =>
      rw [keysFromPartsListForMultiGet, guard_eq_ok] at hkeys
      obtain ⟨hlength, hkeys⟩ := hkeys
      obtain ⟨keys', hkeys', hkeys⟩ := bind_eq_ok.1 hkeys
      obtain ⟨_, hunique, hkeys⟩ := bind_eq_ok.1 hkeys
      cases hkeys
      obtain ⟨hcount, hcontains⟩ := keys_of_partsList hkeys'
      have hprepared : prepareUniqueKeysForMultiGet keys = .ok keys := by
        rw [prepareUniqueKeysForMultiGet, if_neg (by omega), hunique]
        rfl
      have hdecode := decodeMultiValues_eq hcodec fun key hkey => hM key (hcontains key hkey)
      dsimp only [store_ok, ok_bind]
      rw [KvRuns.getBytesMulti_result, hprepared]
      dsimp only [store_ok, ok_bind, pure_eq_ok]
      rw [hdecode]
      split <;> cases codec.getKeyset <;> rfl

/-- What a scan returns is shown as what the map holds under the same keys. -/
theorem decodeScannedRows_eq (keyPrefix : KeyPrefix) (hcodec : calls codec) {keys : List Key}
    {rows : Key → Option (Entry Bytes Int)} {cells : Key → Option (Entry T Int)}
    (hshows : ∀ key ∈ keys, Shows plaintext calls key (rows key) (cells key))
    (hlive : ∀ key ∈ keys, (rows key).isSome) :
    decodeScannedRows plaintext codec keyPrefix
      (keys.filterMap fun key => (rows key).map fun entry => (key, entry.value)) = (do
      if keys ≠ [] then codec.getKeyset
      return keys.filterMap fun key => (cells key).map fun entry =>
        (suffixFromKey keyPrefix key, entry.value)) := by
  have hmapM : codec.getKeyset = .ok () →
      (keys.filterMap fun key => (rows key).map fun entry => (key, entry.value)).mapM (fun row =>
        (decodeUnlocked plaintext codec row.1 row.2).map fun value => (suffixFromKey keyPrefix row.1, value)) =
      .ok (keys.filterMap fun key => (cells key).map fun entry =>
        (suffixFromKey keyPrefix key, entry.value)) := by
    intro hkeyset
    induction keys with
    | nil => rfl
    | cons key keys ih =>
        have hrest := ih (fun key hkey => hshows key (List.mem_cons_of_mem _ hkey))
          (fun key hkey => hlive key (List.mem_cons_of_mem _ hkey))
        have hrow := hshows key List.mem_cons_self
        have hsome := hlive key List.mem_cons_self
        rw [List.filterMap_cons, List.filterMap_cons]
        generalize rows key = row, cells key = cell at hrow hsome
        cases hrow with
        | none => cases hsome
        | some hreads =>
            dsimp only [Option.map_some]
            rw [List.mapM_cons, hreads codec hcodec hkeyset, hrest]
            rfl
  rw [decodeScannedRows]
  cases keys with
  | nil => rfl
  | cons key keys =>
      have hne : (key :: keys).filterMap (fun key =>
        (rows key).map fun entry => (key, entry.value)) ≠ [] := by
        obtain ⟨entry, hentry⟩ := Option.isSome_iff_exists.1 (hlive key List.mem_cons_self)
        rw [List.filterMap_cons, hentry]
        simp
      rw [if_neg hne, if_pos (List.cons_ne_nil key keys)]
      cases hkeyset : codec.getKeyset with
      | error e => rfl
      | ok => exact hmapM hkeyset

/-- The keys of a scan are those of the map. -/
theorem scannedKeys_eq (hM : Represents plaintext calls keyPrefix times.now t M) (afterKeyText : String)
    (limit : Nat) :
    (stored t).scan times.now (scannedKey keyPrefix afterKeyText) limit =
      M.scan times.now (scannedKey keyPrefix afterKeyText) limit := by
  apply ExpiringMap.scan_congr
  intro key hkey
  rw [scannedKey, Bool.and_eq_true] at hkey
  exact live_isSome hM hkey.1

theorem refines_scanKeySuffixes (hM : Represents plaintext calls keyPrefix times.now t M)
    (afterKeySuffix : Option String) (limit : Nat) :
    Refines lift plaintext calls codec keyPrefix times M (.scanKeySuffixes afterKeySuffix limit) t
      (runItem lift plaintext codec keyPrefix times (.scanKeySuffixes afterKeySuffix limit) t) := by
  apply refines_reads .scannedSuffixes hM
  have hperforms : Performs lift plaintext codec keyPrefix
    times M (.scanKeySuffixes afterKeySuffix limit) _ :=
    .scanKeySuffixes afterKeySuffix limit
  convert hperforms using 1
  rw [KvScans.scanKeySuffixes, scannedKeys]
  cases afterKeyFromOptionalSuffix keyPrefix afterKeySuffix with
  | error e => rfl
  | ok afterKey =>
      rw [ok_bind, ok_bind, KvStore.scanKeysWithPrefix]
      cases validateScanLimit limit with
      | error e => rfl
      | ok =>
          cases scanAfterKeyText keyPrefix afterKey with
          | error e => rfl
          | ok afterKeyText =>
              rw [ok_bind, ok_bind, ok_bind, ok_bind, KvRuns.scanKeys_eq (m := stored t) rfl,
                scannedKeys_eq hM]
              rfl

theorem refines_scan (hM : Represents plaintext calls keyPrefix times.now t M) (hcodec : calls codec)
    (afterKeySuffix : Option String) (limit : Nat) :
    Refines lift plaintext calls codec keyPrefix times M (.scan afterKeySuffix limit) t
      (runItem lift plaintext codec keyPrefix times (.scan afterKeySuffix limit) t) := by
  apply refines_reads .scanned hM
  have hperforms : Performs lift plaintext codec keyPrefix times M (.scan afterKeySuffix limit) _ :=
    .scan afterKeySuffix limit
  convert hperforms using 1
  rw [ItemModel.scan, scannedKeys]
  cases afterKeyFromOptionalSuffix keyPrefix afterKeySuffix with
  | error e => rfl
  | ok afterKey =>
      dsimp only [store_ok, ok_bind]
      rw [KvStore.scanBytesWithPrefix]
      cases validateScanLimit limit with
      | error e => rfl
      | ok =>
          cases scanAfterKeyText keyPrefix afterKey with
          | error e => rfl
          | ok afterKeyText =>
              have hmem : ∀ key ∈ M.scan times.now (scannedKey keyPrefix afterKeyText) limit,
                  keyPrefix.containsKey key ∧ (M.view times.now key).isSome := by
                intro key hkey
                obtain ⟨hlive, hscanned⟩ := ExpiringMap.mem_scan hkey
                rw [scannedKey, Bool.and_eq_true] at hscanned
                exact ⟨hscanned.1, hlive⟩
              have hdecode := decodeScannedRows_eq keyPrefix hcodec
                (fun key hkey => hM key (hmem key hkey).1) fun key hkey => by
                  rw [(hM key (hmem key hkey).1).isSome]
                  exact (hmem key hkey).2
              dsimp only [ok_bind, pure_eq_ok, store_ok]
              rw [KvRuns.scanBytes_eq (m := stored t) rfl, scannedKeys_eq hM]
              rw [show (stored t).view times.now = t.view times.now from rfl, hdecode]
              split <;> cases codec.getKeyset <;> rfl

end Reads

section Writes

theorem forM_cons {ε α : Type} (f : α → Except ε Unit) (x : α) (xs : List α) :
    (x :: xs).forM f = f x >>= fun _ => xs.forM f := rfl

/-- The rows of a multi-set are encoded where every value is accepted. -/
theorem follows_entries (hlawful : Lawful plaintext calls) (hcodec : calls codec)
    (pairs : List ((Key × T) × Nat)) (hpairs : pairs ≠ []) :
    Follows (fun entries _ => List.Forall₂ (fun entry pair => entry.1 = pair.1.1 ∧
        ReadsAs plaintext calls pair.1.1 entry.2 pair.1.2) entries pairs)
      (do
        coded codec.getKeyset
        pairs.mapM fun ((key, value), n) =>
          coded ((encodeUnlocked plaintext codec n key value).map fun bytes => (key, bytes)))
      (pairs.forM fun ((key, value), n) => (coded (accepts plaintext codec n key value) :
        Except (ItemError C) Unit)) := by
  cases hkeyset : codec.getKeyset with
  | error e =>
      obtain ⟨pair, pairs, rfl⟩ := List.exists_cons_of_ne_nil hpairs
      have haccepts : accepts plaintext codec pair.2 pair.1.1 pair.1.2 = .error e := by
        rw [accepts, encodeValueForKey, hkeyset]
        rfl
      rw [forM_cons]
      dsimp only
      rw [haccepts]
      exact .error _
  | ok =>
      dsimp only [coded_ok, ok_bind]
      clear hpairs
      induction pairs with
      | nil => exact .ok .nil
      | cons pair pairs ih =>
          obtain ⟨⟨key, value⟩, n⟩ := pair
          have hencode := follows_encode hlawful hcodec n key value
          rw [encodeValueForKey, hkeyset, ok_bind] at hencode
          rw [forM_cons, List.mapM_cons]
          dsimp only
          cases haccepts : accepts plaintext codec n key value with
          | error e =>
              rw [haccepts, follows_error] at hencode
              rw [hencode]
              exact .error _
          | ok =>
              rw [haccepts, follows_ok] at hencode
              obtain ⟨bytes, hbytes, hreads⟩ := hencode
              rw [hbytes]
              dsimp only [map_ok, coded_ok, ok_bind]
              rw [← bind_pure (pairs.forM _)]
              apply ih.bind
              intro entries _ hentries
              exact .ok (.cons ⟨rfl, hreads⟩ hentries)

/-- Each pair with what encodes it. -/
abbrev Entries (plaintext : Plaintext T C) (calls : ItemCodec C → Prop) :
    List (Key × Bytes) → List (Key × T) → Prop :=
  List.Forall₂ fun entry pair => entry.1 = pair.1 ∧ ReadsAs plaintext calls pair.1 entry.2 pair.2

theorem entries_of_zipIdx {entries : List (Key × Bytes)} {pairs : List (Key × T)}
    (h : List.Forall₂ (fun entry pair => entry.1 = pair.1.1 ∧
      ReadsAs plaintext calls pair.1.1 entry.2 pair.1.2) entries pairs.zipIdx) :
    Entries plaintext calls entries pairs := by
  have hmap := List.forall₂_map_right_iff (f := Prod.fst)
    (R := fun (entry : Key × Bytes) (pair : Key × T) => entry.1 = pair.1 ∧
      ReadsAs plaintext calls pair.1 entry.2 pair.2) (l := entries) (u := pairs.zipIdx)
  rw [List.zipIdx_map_fst] at hmap
  exact hmap.2 h

theorem map_fst_entries {entries : List (Key × Bytes)} {keys : List Key} {values : List T}
    (h : Entries plaintext calls entries (keys.zip values)) (hlengths : keys.length ≤ values.length) :
    entries.map Prod.fst = keys := by
  rw [← List.map_fst_zip hlengths]
  generalize keys.zip values = pairs at h
  induction h with
  | nil => rfl
  | cons hentry _ ih => rw [List.map_cons, List.map_cons, hentry.1, ih]

theorem represents_setMulti {later : Int} {expiresAt : Option Int} {now : Int}
    {entries : List (Key × Bytes)} {pairs : List (Key × T)}
    (hentries : Entries plaintext calls entries pairs)
    (hM : Represents plaintext calls keyPrefix later t M) :
    Represents plaintext calls keyPrefix later
      (entries.foldl (fun t entry => t.upsert ⟨entry.1, entry.2, expiresAt, now⟩) t)
      (pairs.foldl (fun M pair => M.put pair.1 (some ⟨pair.2, expiresAt⟩)) M) := by
  induction hentries generalizing t M with
  | nil => exact hM
  | @cons entry pair entries pairs hentry _ ih =>
      obtain ⟨key, bytes⟩ := entry
      obtain ⟨rfl, hreads⟩ := hentry
      rw [List.foldl_cons, List.foldl_cons]
      apply ih
      apply represents_put hM (fun later _ => view_upsert _) (.some hreads) le_rfl

theorem view_setMulti_of_not_mem {later : Int} {expiresAt : Option Int} {now : Int}
    {entries : List (Key × Bytes)} {key : Key} (hkey : key ∉ entries.map Prod.fst) :
    (entries.foldl (fun t entry => t.upsert ⟨entry.1, entry.2, expiresAt, now⟩) t).view later key =
      t.view later key := by
  induction entries generalizing t with
  | nil => rfl
  | cons entry entries ih =>
      rw [List.map_cons, List.mem_cons, not_or] at hkey
      rw [List.foldl_cons, ih hkey.2, view_upsert, Function.update_of_ne hkey.1]

theorem refines_setMulti (hlawful : Lawful plaintext calls)
    (hM : Represents plaintext calls keyPrefix times.now t M) (hcodec : calls codec)
    (keyPartsList : List (List String)) (values : List T) (ttl : Ttl) :
    Refines lift plaintext calls codec keyPrefix times M (.setMulti keyPartsList values ttl) t
      (runItem lift plaintext codec keyPrefix times (.setMulti keyPartsList values ttl) t) := by
  have hperforms : Performs lift plaintext codec keyPrefix times M (.setMulti keyPartsList values ttl) _ :=
    .setMulti keyPartsList values ttl
  rw [runItem, multiSetEntries]
  by_cases hlengths : keyPartsList.length = values.length
  swap
  · rw [if_pos hlengths] at hperforms ⊢
    exact hperforms
  rw [if_neg (not_not_intro hlengths)] at hperforms ⊢
  by_cases htoo : maxKvSetMultiEntries < keyPartsList.length
  · rw [if_pos htoo] at hperforms ⊢
    exact hperforms
  rw [if_neg htoo] at hperforms ⊢
  cases hkeys : keysFromPartsList keyPrefix keyPartsList with
  | error e =>
      rw [hkeys] at hperforms
      exact hperforms
  | ok keys =>
      rw [hkeys] at hperforms
      obtain ⟨hcount, hcontains⟩ := keys_of_partsList hkeys
      dsimp only [store_ok, ok_bind] at hperforms ⊢
      cases hunique : validateUnique keys with
      | error e =>
          rw [hunique] at hperforms
          exact hperforms
      | ok =>
          rw [hunique] at hperforms
          dsimp only [store_ok, ok_bind] at hperforms ⊢
          by_cases hempty : keys = []
          · rw [if_pos hempty] at hperforms ⊢
            exact ⟨M, hperforms, hM.later times.now_le_last, fun _ _ _ _ => rfl⟩
          rw [if_neg hempty] at hperforms ⊢
          have hpairs : (keys.zip values).zipIdx ≠ [] := by
            intro hnil
            have hlength := congrArg List.length hnil
            rw [List.length_zipIdx, List.length_zip, List.length_nil] at hlength
            have hpos := List.length_pos_of_ne_nil hempty
            omega
          have hentries := follows_entries hlawful hcodec (keys.zip values).zipIdx hpairs
          dsimp only at hperforms hentries ⊢
          generalize List.forM (m := Except (ItemError C)) (keys.zip values).zipIdx _ = accepted
            at hperforms hentries
          cases accepted with
          | error e =>
              rw [follows_error] at hentries
              rw [hentries]
              exact hperforms
          | ok =>
              rw [follows_ok] at hentries
              obtain ⟨entries, heq, hentries⟩ := hentries
              have hpairs := entries_of_zipIdx hentries
              have hkeysOf := map_fst_entries hpairs (hcount.trans hlengths).le
              have hvalid : validateSetMultiEntryCount entries = .ok () := by
                rw [validateSetMultiEntryCount, ← List.length_map (f := Prod.fst), hkeysOf, hcount,
                  if_neg htoo]
                rfl
              have hsome : entries ≠ [] := by
                rintro rfl
                exact hempty hkeysOf.symm
              rw [heq]
              dsimp only [ok_bind] at hperforms ⊢
              rw [KvStore.setBytesMulti, hvalid, hkeysOf, hunique, if_neg hsome, KvStatements.setBytesMulti]
              dsimp only [ok_bind]
              cases hexpires : expiresAtExpression times.now ttl.positiveMicroseconds with
              | error e =>
                  rw [hexpires] at hperforms
                  exact hperforms
              | ok expiresAt =>
                  rw [hexpires] at hperforms
                  refine ⟨_, hperforms, represents_setMulti hpairs (hM.later times.now_le_last), ?_⟩
                  intro key hkey later _
                  apply view_setMulti_of_not_mem
                  intro hmem
                  rw [hkeysOf] at hmem
                  rw [hcontains key hmem] at hkey
                  cases hkey

end Writes

section Namespaces

open KvRefinement (prefixRows mem_prefixRows)

theorem filter_append_of_keys {ρ κ : Type} [DecidableEq κ] (key : ρ → κ) {xs ys : List ρ}
    (h : ((xs ++ ys).map key).Nodup) : ((xs ++ ys).filter fun row => key row ∉ xs.map key) = ys := by
  rw [List.map_append, List.nodup_append] at h
  rw [List.filter_append]
  have hxs : (xs.filter fun row => key row ∉ xs.map key) = [] := by
    rw [List.filter_eq_nil_iff]
    intro row hrow
    simpa using ⟨row, hrow, rfl⟩
  have hys : (ys.filter fun row => key row ∉ xs.map key) = ys := by
    rw [List.filter_eq_self]
    intro row hrow
    rw [decide_eq_true_eq]
    intro hmem
    exact h.2.2 _ hmem _ (List.mem_map_of_mem hrow) rfl
  rw [hxs, hys, List.nil_append]

theorem nodup_prefixRows (t : Table) (keyPrefix : KeyPrefix) :
    ((prefixRows t keyPrefix).map KvRow.key).Nodup := by
  have hperm : (prefixRows t keyPrefix).Perm (t.rows.filter fun row => keyPrefix.containsKey row.key) :=
    List.perm_insertionSort _ _
  rw [(hperm.map KvRow.key).nodup_iff]
  exact KeyedRows.nodup_filter t.primaryKey _

/-- A batch leaves the rows under the prefix that it does not reach. -/
theorem length_prefixRows_deleteBatch (t : Table) (keyPrefix : KeyPrefix) (batchSize : Nat) :
    ((prefixRows t keyPrefix).take batchSize).length +
      (prefixRows (deleteBatch t ((prefixRows t keyPrefix).take batchSize)).2 keyPrefix).length =
        (prefixRows t keyPrefix).length := by
  let batch := (prefixRows t keyPrefix).take batchSize
  let rest := (prefixRows t keyPrefix).drop batchSize
  have hsplit : batch ++ rest = prefixRows t keyPrefix := List.take_append_drop _ _
  have hperm : (batch ++ rest).Perm (t.rows.filter fun row => keyPrefix.containsKey row.key) := by
    rw [hsplit]
    exact List.perm_insertionSort _ _
  have hnodup : ((batch ++ rest).map KvRow.key).Nodup := by
    rw [hsplit]
    exact nodup_prefixRows t keyPrefix
  have hleft : (prefixRows (deleteBatch t batch).2 keyPrefix).length =
      ((batch ++ rest).filter fun row => row.key ∉ batch.map KvRow.key).length := by
    rw [(hperm.filter _).length_eq, List.filter_filter, prefixRows, List.length_insertionSort, deleteBatch,
      Table.deleteWhere, List.filter_filter]
    congr 2
    funext row
    rw [Bool.and_comm, decide_not]
  change batch.length + (prefixRows (deleteBatch t batch).2 keyPrefix).length = _
  rw [hleft, filter_append_of_keys KvRow.key hnodup, ← List.length_append, hsplit]

theorem batch_eq (keyPrefix : KeyPrefix) (u : Unit) (t : Table) :
    (namespaceSweep keyPrefix).batch u t =
      .ok (deleteBatch t ((prefixRows t keyPrefix).take maxKvDeleteBatchSize)) := by
  rw [← KvRefinement.deleteKeysWithPrefixOnce_eq]
  rfl

/-- A table without the rows under a prefix. -/
def Cleared (keyPrefix : KeyPrefix) (t t' : Table) : Prop :=
  ∀ key, t'.row? key = if keyPrefix.containsKey key then none else t.row? key

theorem cleared_of_drains {moments : List Unit} {t t' : Table}
    (h : SweepLoop.Drains (namespaceSweep keyPrefix) moments t t') : Cleared keyPrefix t t' := by
  induction h with
  | @last moment t deleted t' hbatch hshort =>
      rw [batch_eq, Except.ok.injEq, Prod.ext_iff] at hbatch
      obtain ⟨rfl, rfl⟩ := hbatch
      have hall : (prefixRows t keyPrefix).take maxKvDeleteBatchSize = prefixRows t keyPrefix := by
        apply List.take_of_length_le
        change ((prefixRows t keyPrefix).take maxKvDeleteBatchSize).length < maxKvDeleteBatchSize at hshort
        rw [List.length_take] at hshort
        omega
      intro key
      rw [hall, KvRefinement.row?_deleteBatch]
      by_cases hkey : keyPrefix.containsKey key
      · rw [if_pos hkey]
        split
        · rfl
        · rename_i hmem
          cases hrow : t.row? key with
          | none => rfl
          | some row =>
              obtain ⟨hin, rfl⟩ := row?_eq_some.1 hrow
              exact absurd (List.mem_map_of_mem (mem_prefixRows.2 ⟨hin, hkey⟩)) hmem
      · rw [if_neg hkey, if_neg]
        intro hmem
        obtain ⟨row, hrow, rfl⟩ := List.mem_map.1 hmem
        exact hkey (mem_prefixRows.1 hrow).2
  | @full moment moments t deleted t' final hbatch _ _ ih =>
      rw [batch_eq, Except.ok.injEq, Prod.ext_iff] at hbatch
      obtain ⟨rfl, rfl⟩ := hbatch
      intro key
      rw [ih, KvRefinement.row?_deleteBatch]
      by_cases hkey : keyPrefix.containsKey key
      · rw [if_pos hkey, if_pos hkey]
      · rw [if_neg hkey, if_neg hkey, if_neg]
        intro hmem
        obtain ⟨row, hrow, rfl⟩ := List.mem_map.1 hmem
        exact hkey (mem_prefixRows.1 (List.mem_of_mem_take hrow)).2

/-- The batches end, and the rows that they count are all those under the prefix. -/
theorem deleteEntireNamespace_eq (keyPrefix : KeyPrefix) (t : Table) :
    ∃ t', deleteEntireNamespace keyPrefix t = .ok ((prefixRows t keyPrefix).length, t') ∧
      Cleared keyPrefix t t' := by
  have hsize : (prefixRows t keyPrefix).length ≤ t.rows.length := by
    rw [prefixRows, List.length_insertionSort]
    exact List.length_filter_le _ _
  have hmoments : (prefixRows t keyPrefix).length <
      (List.replicate (t.rows.length + 1) ()).length * (namespaceSweep keyPrefix).batchSize := by
    rw [List.length_replicate]
    change (prefixRows t keyPrefix).length < (t.rows.length + 1) * 10000
    omega
  obtain ⟨earlier, last, later, final, total, hmoments, hdrains, -, hexec, htotal⟩ :=
    SweepLoop.drains_alone (s := SweepLoop.start t) (fun t => (prefixRows t keyPrefix).length)
      (fun _ _ _ => rfl) (fun moment _ t => ⟨_, _, batch_eq keyPrefix moment t,
        length_prefixRows_deleteBatch t keyPrefix maxKvDeleteBatchSize⟩) rfl hmoments
  have hcleared := cleared_of_drains hdrains
  have hempty : (prefixRows final keyPrefix).length = 0 := by
    rw [List.length_eq_zero_iff, List.eq_nil_iff_forall_not_mem]
    intro row hrow
    obtain ⟨hin, hkey⟩ := mem_prefixRows.1 hrow
    have hrow? := row?_of_mem hin
    rw [hcleared, if_pos hkey] at hrow?
    cases hrow?
  refine ⟨final, ?_, hcleared⟩
  change total + (prefixRows final keyPrefix).length = 0 + (prefixRows t keyPrefix).length at htotal
  rw [deleteEntireNamespace, hmoments, SweepLoop.exec_alone_of_returned hexec rfl]
  dsimp only
  rw [show total = (prefixRows t keyPrefix).length by omega]

/-- Rows that have expired are counted too. -/
theorem card_namespaceKeys_le (hM : Represents plaintext calls keyPrefix times.now t M) :
    (namespaceKeys keyPrefix times M).card ≤ (prefixRows t keyPrefix).length := by
  rw [← List.length_map (f := KvRow.key)]
  apply (Finset.card_le_card _).trans (List.toFinset_card_le _)
  intro key hkey
  rw [namespaceKeys, Finset.mem_filter, ExpiringMap.mem_liveKeys] at hkey
  obtain ⟨hlive, hcontains⟩ := hkey
  rw [← (hM key hcontains).isSome, view_eq, Option.isSome_map, Option.isSome_iff_exists] at hlive
  obtain ⟨row, hrow⟩ := hlive
  obtain ⟨hin, rfl⟩ := row?_eq_some.1 (liveRow?_eq_some.1 hrow).1
  exact List.mem_toFinset.2 (List.mem_map_of_mem (mem_prefixRows.2 ⟨hin, hcontains⟩))

theorem refines_deleteEntireNamespaceAtomically
    (hM : Represents plaintext calls keyPrefix times.now t M) :
    Refines lift plaintext calls codec keyPrefix times M .deleteEntireNamespaceAtomically t
      (runItem lift plaintext codec keyPrefix times .deleteEntireNamespaceAtomically t) := by
  obtain ⟨t', heq, hcleared⟩ := deleteEntireNamespace_eq keyPrefix t
  rw [runItem, heq]
  refine ⟨_, .deleteEntireNamespaceAtomically (card_namespaceKeys_le hM), ?_, ?_⟩
  · intro key hkey
    have hgone : (M.without (namespaceKeys keyPrefix times M)).view times.last key = none := by
      rw [ExpiringMap.view_without, ExpiringMap.view_later times.now_le_last]
      dsimp only
      split
      · rfl
      · rename_i hmem
        rw [namespaceKeys, Finset.mem_filter, ExpiringMap.mem_liveKeys, not_and'] at hmem
        rw [Option.not_isSome_iff_eq_none.1 (hmem hkey), ExpiringMap.live_none]
    rw [hgone, Table.view, Table.cell, hcleared, if_pos hkey]
    exact .none
  · intro key hkey later _
    rw [Table.view, Table.view, Table.cell, Table.cell, hcleared, hkey, if_neg Bool.false_ne_true]

end Namespaces

section Slots

theorem prepared_keys {candidateSuffixes : List String} {prepared : List (Key × String)}
    (h : prepareSlotCandidateKeys keyPrefix candidateSuffixes = .ok prepared) :
    (prepared.map Prod.fst).length ≤ maxKvAcquireSlotCandidates ∧ (prepared.map Prod.fst).Nodup ∧
      ∀ key ∈ prepared.map Prod.fst, keyPrefix.containsKey key := by
  rw [prepareSlotCandidateKeys, guard_eq_ok] at h
  obtain ⟨hlength, h⟩ := h
  have hfold : ∀ (suffixes : List String) (before after : List (Key × String)),
      (before.map Prod.fst).Nodup → (∀ key ∈ before.map Prod.fst, keyPrefix.containsKey key) →
      suffixes.foldlM (fun prepared suffix => do
        let key ← buildKeyFromPrefixAndParts keyPrefix [suffix]
        if key ∈ prepared.map Prod.fst then throw .duplicateKeyInBulkOperation
        return prepared ++ [(key, suffix)]) before = Except.ok after →
      after.length = before.length + suffixes.length ∧ (after.map Prod.fst).Nodup ∧
        ∀ key ∈ after.map Prod.fst, keyPrefix.containsKey key := by
    intro suffixes
    induction suffixes with
    | nil =>
        rintro before _ hnodup hcontains ⟨⟩
        exact ⟨rfl, hnodup, hcontains⟩
    | cons suffix suffixes ih =>
        intro before after hnodup hcontains hfold
        rw [List.foldlM_cons] at hfold
        obtain ⟨next, hnext, hfold⟩ := bind_eq_ok.1 hfold
        obtain ⟨key, hkey, hnext⟩ := bind_eq_ok.1 hnext
        rw [guard_eq_ok] at hnext
        obtain ⟨hnew, hnext⟩ := hnext
        cases hnext
        obtain ⟨hcount, hnodup', hcontains'⟩ := ih _ _ (by
          rw [List.map_append, List.nodup_append]
          refine ⟨hnodup, List.nodup_singleton _, ?_⟩
          rintro a ha b hb rfl
          rw [List.map_singleton, List.mem_singleton] at hb
          subst hb
          exact hnew ha) (by
          intro other hother
          rw [List.map_append, List.mem_append] at hother
          rcases hother with hother | hother
          · exact hcontains other hother
          · rw [List.map_singleton, List.mem_singleton] at hother
            exact hother ▸ containsKey_of_keyFromParts hkey) hfold
        refine ⟨?_, hnodup', hcontains'⟩
        rw [hcount, List.length_append, List.length_singleton, List.length_cons]
        omega
  obtain ⟨hcount, hnodup, hcontains⟩ := hfold _ [] _ List.nodup_nil (by simp) h
  refine ⟨?_, hnodup, hcontains⟩
  rw [List.length_map, hcount, List.length_nil]
  omega

/-- What the store does with slots that are prepared. -/
theorem acquireSlotBytes_spec {keys : List Key} {ttl : Ttl} {ttlMicroseconds : Int} (now : Int) (t : Table)
    (delay : Nat) (value : Bytes) (pick : Nat) (hlength : keys.length ≤ maxKvAcquireSlotCandidates)
    (hnodup : keys.Nodup) (hkeys : keys ≠ [])
    (httl : positiveExpiringTtlMicroseconds ttl = .ok ttlMicroseconds) :
    ∃ slot, KvOperations.Free (stored t) (now + delay) keys slot ∧
      Follows (fun acquired expected => acquired.1 = expected.1 ∧ KvRuns.Agree now acquired.2 expected.2)
        (KvStore.acquireSlotBytes now t delay keys value ttl pick) (do
          let _ ← query (timestamptz (now - oneSecond))
          query (KvOperations.occupied (stored t) (now + delay) value ttlMicroseconds slot)) := by
  have hprepared : prepareUniqueKeysForSlotAcquisition keys = .ok keys := by
    rw [prepareUniqueKeysForSlotAcquisition, if_neg (not_lt_of_ge hlength), validateUnique, if_pos hnodup]
    rfl
  rw [KvStore.acquireSlotBytes, hprepared, httl]
  dsimp only [ok_bind]
  rw [if_neg hkeys]
  cases hexpires : timestamptz (now - oneSecond) with
  | error e =>
      obtain ⟨slot, hslot⟩ := KvRuns.exists_free (stored t) (now + delay) keys
      refine ⟨slot, hslot, ?_⟩
      rw [KvStatements.ensureSlotKeysExist, if_neg hkeys, hexpires]
      exact .error _
  | ok expiresAt =>
      obtain ⟨t', heq, hrows, hsame⟩ := KvRefinement.ensureSlotKeysExist_spec hkeys hexpires
      have hagree : KvRuns.Agree now t' (stored t) := hsame
      obtain ⟨slot, hslot, hacquire⟩ :=
        KvRefinement.acquireSlot_spec hrows (hagree (now + delay) (by omega)) value ttlMicroseconds pick
      refine ⟨slot, hslot, ?_⟩
      rw [heq]
      dsimp only [query, mapError_ok, ok_bind]
      cases hoccupied : KvOperations.occupied (stored t) (now + delay) value ttlMicroseconds slot with
      | error e =>
          rw [hoccupied] at hacquire
          rw [hacquire]
          exact .error _
      | ok written =>
          rw [hoccupied] at hacquire
          obtain ⟨t'', heq', hwritten⟩ := hacquire
          rw [heq']
          exact .ok ⟨rfl, fun later hlater => hwritten later (hagree later hlater)⟩

/-- Candidates of the item are as free in its map as in the table. -/
theorem free_of_represents {now : Int} {keys : List Key} {slot : Option Key}
    (hM : Represents plaintext calls keyPrefix now t M)
    (hcontains : ∀ key ∈ keys, keyPrefix.containsKey key)
    (h : KvOperations.Free (stored t) now keys slot) : Free M now keys slot := by
  cases slot with
  | none =>
      intro key hkey
      rw [← (hM key (hcontains key hkey)).isSome]
      exact h key hkey
  | some slot =>
      refine ⟨h.1, ?_⟩
      have hshows := (hM slot (hcontains slot h.1)).isSome
      have hfree : t.view now slot = none := h.2
      rw [hfree] at hshows
      rw [← Option.not_isSome_iff_eq_none, ← hshows]
      exact Bool.false_ne_true

theorem positiveMicroseconds_of_expiring {ttl : Ttl} {ttlMicroseconds : Int}
    (h : positiveExpiringTtlMicroseconds ttl = .ok ttlMicroseconds) :
    ttl.positiveMicroseconds = some ttlMicroseconds := by
  rw [positiveExpiringTtlMicroseconds] at h
  split at h
  · cases h
  · cases h
    assumption

/-- What acquiring a slot leaves, with the reply to it. -/
def Acquired (plaintext : Plaintext T C) (calls : ItemCodec C → Prop)
    (keyPrefix : KeyPrefix) (times : Times)
    (t : Table) (prepared : List (Key × String)) (acquired : Option Key × Table)
    (expected : ItemReply T × Map Key T Int) : Prop :=
  .slot (acquired.1.bind fun key => prepared.lookup key) = expected.1 ∧
    Represents plaintext calls keyPrefix times.last acquired.2 expected.2 ∧
    ∀ key, keyPrefix.containsKey key = false →
      ∀ later, times.last ≤ later → acquired.2.view later key = t.view later key

theorem acquired_none {t' : Table} {prepared : List (Key × String)}
    (hM : Represents plaintext calls keyPrefix times.now t M)
    (hagree : ∀ later, times.now ≤ later → t'.view later = t.view later) :
    Acquired plaintext calls keyPrefix times t prepared (none, t') (.slot none, M) := by
  refine ⟨rfl, ?_, fun key _ later hlater => ?_⟩
  · intro key hkey
    rw [hagree _ times.now_le_last]
    exact hM.later times.now_le_last key hkey
  · rw [hagree later (times.now_le_last.trans hlater)]

theorem acquired_some {t' : Table} {prepared : List (Key × String)} {slot : Key} {bytes : Bytes} {value : T}
    {expiresAt : Option Int} (hM : Represents plaintext calls keyPrefix times.now t M)
    (hcontains : keyPrefix.containsKey slot) (hreads : ReadsAs plaintext calls slot bytes value)
    (hview : ∀ later, times.now ≤ later →
      t'.view later = Function.update (t.view later) slot (live later (some ⟨bytes, expiresAt⟩))) :
    Acquired plaintext calls keyPrefix times t prepared (some slot, t')
      (.slot (prepared.lookup slot), M.put slot (some ⟨value, expiresAt⟩)) := by
  refine ⟨rfl, represents_put hM hview (.some hreads) times.now_le_last, fun key hkey later hlater => ?_⟩
  rw [hview later (times.now_le_last.trans hlater), Function.update_of_ne]
  rintro rfl
  rw [hcontains] at hkey
  cases hkey

/-- Once the store has its slot, what is done with it follows what becomes of it. -/
theorem follows_slot {acquire : Except KvError (Option Key × Table)} {slot : Option Key} {bytes : Bytes}
    {value : T} {ttlMicroseconds : Int} {prepared : List (Key × String)}
    {R : Option Key × Table → ItemReply T × Map Key T Int → Prop}
    {next : Option Key × Table → Except (ItemError C) (Option Key × Table)}
    (hacquire : Follows
      (fun acquired expected => acquired.1 = expected.1 ∧ KvRuns.Agree times.now acquired.2 expected.2)
      acquire (do
        let _ ← query (timestamptz (times.now - oneSecond))
        query (KvOperations.occupied (stored t) (times.now + times.delay) bytes ttlMicroseconds slot)))
    (hnone : ∀ t', KvRuns.Agree times.now t' (stored t) → Follows R (next (none, t')) (.ok (.slot none, M)))
    (hsome : ∀ key expiresAt t', slot = some key →
      timestampPlusMicroseconds (times.now + times.delay) ttlMicroseconds = .ok expiresAt →
      KvRuns.Agree times.now t' ((stored t).put key (some ⟨bytes, some expiresAt⟩)) →
        Follows R (next (some key, t'))
          (occupied plaintext codec times M prepared value ttlMicroseconds (some key))) :
    Follows R (store acquire >>= next) (do
      let _ ← store (query (timestamptz (times.now - oneSecond)))
      occupied plaintext codec times M prepared value ttlMicroseconds slot) := by
  cases htimestamp : query (timestamptz (times.now - oneSecond)) with
  | error e =>
      rw [htimestamp, error_bind, follows_error] at hacquire
      rw [hacquire]
      exact .error _
  | ok timestamp =>
      rw [htimestamp, ok_bind] at hacquire
      dsimp only [store_ok, ok_bind]
      cases slot with
      | none =>
          obtain ⟨⟨found, t'⟩, hfound, rfl, hagree⟩ := follows_ok.1 hacquire
          rw [hfound]
          exact hnone t' hagree
      | some key =>
          rw [KvOperations.occupied] at hacquire
          cases hexpires : timestampPlusMicroseconds (times.now + times.delay) ttlMicroseconds with
          | error e =>
              rw [hexpires] at hacquire
              rw [follows_error.1 hacquire, occupied, slotExpiry, hexpires]
              exact .error _
          | ok expiresAt =>
              rw [hexpires] at hacquire
              obtain ⟨⟨found, t'⟩, hfound, rfl, hagree⟩ := follows_ok.1 hacquire
              rw [hfound]
              exact hsome key expiresAt t' rfl hexpires hagree

/-- What acquiring a slot of a plain item does, once its candidates are prepared. -/
theorem acquirePlain_spec (hlawful : Lawful plaintext calls)
    (hM : Represents plaintext calls keyPrefix times.now t M) (hcodec : calls .plain)
    (prepared : List (Key × String)) {first : Key} {keys : List Key} (value : T) {ttl : Ttl}
    {ttlMicroseconds : Int} (pick : Nat) (hlength : (first :: keys).length ≤ maxKvAcquireSlotCandidates)
    (hnodup : (first :: keys).Nodup) (hcontains : ∀ key ∈ first :: keys, keyPrefix.containsKey key)
    (httl : positiveExpiringTtlMicroseconds ttl = .ok ttlMicroseconds) :
    ∃ slot, Free M (times.now + times.delay) (first :: keys) slot ∧
      Follows (Acquired plaintext calls keyPrefix times t prepared)
        (acquirePreparedKey plaintext .plain times first keys value ttl pick t) (do
          coded (acceptsUnslotted plaintext .plain first value)
          let _ ← store (query (timestamptz (times.now - oneSecond)))
          occupied plaintext .plain times M prepared value ttlMicroseconds slot) := by
  have hM' := hM.later (show times.now ≤ times.now + times.delay by omega)
  have hencode := follows_encode hlawful hcodec 0 first value
  rw [acquirePreparedKey, acceptsUnslotted]
  cases haccepts : accepts plaintext .plain 0 first value with
  | error e =>
      rw [haccepts, follows_error] at hencode
      obtain ⟨slot, hslot⟩ := KvRuns.exists_free (stored t) (times.now + times.delay) (first :: keys)
      refine ⟨slot, free_of_represents hM' hcontains hslot, ?_⟩
      rw [hencode]
      exact .error _
  | ok =>
      rw [haccepts, follows_ok] at hencode
      obtain ⟨bytes, hbytes, -⟩ := hencode
      obtain ⟨slot, hslot, hacquire⟩ :=
        acquireSlotBytes_spec times.now t times.delay bytes pick hlength hnodup
        (List.cons_ne_nil first keys) httl
      refine ⟨slot, free_of_represents hM' hcontains hslot, ?_⟩
      rw [hbytes]
      dsimp only [coded_ok, ok_bind]
      rw [← bind_pure (store _)]
      refine follows_slot hacquire (fun t' hagree => .ok (acquired_none hM hagree)) ?_
      rintro key expiresAt t' rfl hexpires hagree
      rw [occupied, slotExpiry, hexpires]
      -- A plain value is encoded alike for every key.
      have hreads : ReadsAs plaintext calls key bytes value :=
        fun codec hcalls hkeyset =>
          hlawful .plain codec hcodec hcalls hkeyset 0 key value bytes hbytes
      refine .ok (acquired_some hM (hcontains key hslot.1) hreads fun later hlater => ?_)
      rw [hagree later hlater, ExpiringMap.view_put]
      rfl

/-- An encrypted value is written once the slot is known that it is bound to. -/
theorem acquireEncrypted_spec {cipher : Cipher C} (hlawful : Lawful plaintext calls)
    (hM : Represents plaintext calls keyPrefix times.now t M) (hcodec : calls (.encrypted cipher))
    (prepared : List (Key × String)) {first : Key} {keys : List Key} (value : T) {ttl : Ttl}
    {ttlMicroseconds : Int} (pick : Nat) (hlength : (first :: keys).length ≤ maxKvAcquireSlotCandidates)
    (hnodup : (first :: keys).Nodup) (hcontains : ∀ key ∈ first :: keys, keyPrefix.containsKey key)
    (httl : positiveExpiringTtlMicroseconds ttl = .ok ttlMicroseconds) :
    ∃ slot, Free M (times.now + times.delay) (first :: keys) slot ∧
      Follows (Acquired plaintext calls keyPrefix times t prepared)
        (acquirePreparedKey plaintext (.encrypted cipher) times first keys value ttl pick t) (do
          coded (acceptsUnslotted plaintext (.encrypted cipher) first value)
          let _ ← store (query (timestamptz (times.now - oneSecond)))
          occupied plaintext (.encrypted cipher) times M prepared value ttlMicroseconds slot) := by
  have hM' := hM.later (show times.now ≤ times.now + times.delay by omega)
  obtain ⟨slot, hslot, hacquire⟩ := acquireSlotBytes_spec times.now t times.delay [] pick hlength hnodup
    (List.cons_ne_nil first keys) httl
  refine ⟨slot, free_of_represents hM' hcontains hslot, ?_⟩
  rw [acquirePreparedKey, acceptsUnslotted]
  cases hkeyset : cipher.getKeyset with
  | error e => exact .error _
  | ok =>
      cases hplaintext : plaintext.toPlaintextBytes value with
      | error e => exact .error _
      | ok plaintextBytes =>
          dsimp only [coded_ok, ok_bind, pure_eq_ok]
          refine follows_slot hacquire (fun t' hagree => .ok (acquired_none hM hagree)) ?_
          rintro key expiresAt t' rfl hexpires hagree
          rw [occupied, slotExpiry, hexpires]
          have hencode := follows_encode hlawful hcodec 0 key value
          rw [encodeValueForKey, encodeUnlocked, encodeEncryptedValueForKey, hplaintext,
            ItemCodec.getKeyset, hkeyset] at hencode
          dsimp only [ok_bind] at hencode
          dsimp only [store_ok, ok_bind, query, mapError_ok]
          cases haccepts : accepts plaintext (.encrypted cipher) 0 key value with
          | error e =>
              rw [haccepts, follows_error] at hencode
              rw [hencode]
              exact .error _
          | ok =>
              rw [haccepts, follows_ok] at hencode
              obtain ⟨bytes, hbytes, hreads⟩ := hencode
              rw [hbytes]
              dsimp only [coded_ok, ok_bind]
              rw [KvStore.setBytes, KvStatements.setBytes,
                positiveMicroseconds_of_expiring httl, expiresAtExpression]
              cases timestampPlusMicroseconds times.last ttlMicroseconds with
              | error e => exact .error _
              | ok expiresAt' =>
                  refine .ok (acquired_some hM (hcontains key hslot.1) hreads fun later hlater => ?_)
                  rw [view_upsert, hagree later hlater, ExpiringMap.view_put, Function.update_idem]
                  rfl

theorem acquirePreparedKey_spec (hlawful : Lawful plaintext calls)
    (hM : Represents plaintext calls keyPrefix times.now t M) (hcodec : calls codec)
    (prepared : List (Key × String)) {first : Key} {keys : List Key} (value : T) {ttl : Ttl}
    {ttlMicroseconds : Int} (pick : Nat) (hlength : (first :: keys).length ≤ maxKvAcquireSlotCandidates)
    (hnodup : (first :: keys).Nodup) (hcontains : ∀ key ∈ first :: keys, keyPrefix.containsKey key)
    (httl : positiveExpiringTtlMicroseconds ttl = .ok ttlMicroseconds) :
    ∃ slot, Free M (times.now + times.delay) (first :: keys) slot ∧
      Follows (Acquired plaintext calls keyPrefix times t prepared)
        (acquirePreparedKey plaintext codec times first keys value ttl pick t) (do
          coded (acceptsUnslotted plaintext codec first value)
          let _ ← store (query (timestamptz (times.now - oneSecond)))
          occupied plaintext codec times M prepared value ttlMicroseconds slot) := by
  cases codec with
  | plain => exact acquirePlain_spec hlawful hM hcodec prepared value pick hlength hnodup hcontains httl
  | encrypted cipher =>
      exact acquireEncrypted_spec hlawful hM hcodec prepared value pick hlength hnodup hcontains httl

theorem refines_acquireSlot (hlawful : Lawful plaintext calls)
    (hM : Represents plaintext calls keyPrefix times.now t M) (hcodec : calls codec)
    (candidateSuffixes : List String) (value : T) (ttl : Ttl) (pick : Nat) :
    Refines lift plaintext calls codec keyPrefix times M (.acquireSlot candidateSuffixes value ttl pick) t
      (runItem lift plaintext codec keyPrefix times (.acquireSlot candidateSuffixes value ttl pick) t) := by
  rw [runItem, ItemModel.acquireSlot]
  cases hprepared : prepareSlotCandidateKeys keyPrefix candidateSuffixes with
  | error e =>
      have hfree : ∀ prepared, prepareSlotCandidateKeys keyPrefix candidateSuffixes = .ok prepared →
          Free M (times.now + times.delay) (prepared.map Prod.fst) none := by
        simp [hprepared]
      have hperforms : Performs lift plaintext codec keyPrefix times M
          (.acquireSlot candidateSuffixes value ttl pick) _ := .acquireSlot value ttl pick hfree
      rw [hprepared] at hperforms
      exact hperforms
  | ok prepared =>
      obtain ⟨hlength, hnodup, hcontains⟩ := prepared_keys hprepared
      have hperforms : ∀ slot, Free M (times.now + times.delay) (prepared.map Prod.fst) slot →
          Performs lift plaintext codec keyPrefix times M
            (.acquireSlot candidateSuffixes value ttl pick) _ :=
        fun slot hslot => .acquireSlot value ttl pick (by
          intro prepared' h
          rw [hprepared] at h
          cases h
          exact hslot)
      have hM' := hM.later (show times.now ≤ times.now + times.delay by omega)
      obtain ⟨slot, hslot⟩ :=
        KvRuns.exists_free (stored t) (times.now + times.delay) (prepared.map Prod.fst)
      have hrefused := hperforms slot (free_of_represents hM' hcontains hslot)
      rw [hprepared] at hperforms hrefused
      dsimp only [store_ok, ok_bind] at hperforms hrefused ⊢
      cases httl : positiveExpiringTtlMicroseconds ttl with
      | error e =>
          rw [httl] at hrefused
          exact hrefused
      | ok ttlMicroseconds =>
          rw [httl] at hperforms hrefused
          dsimp only [store_ok, ok_bind] at hperforms hrefused ⊢
          cases hkeys : prepared.map Prod.fst with
          | nil =>
              rw [hkeys] at hrefused
              exact ⟨M, hrefused, hM.later times.now_le_last, fun _ _ _ _ => rfl⟩
          | cons first keys =>
              rw [hkeys] at hlength hnodup hcontains hperforms
              obtain ⟨slot, hslot, hacquire⟩ :=
                acquirePreparedKey_spec hlawful hM hcodec prepared value pick
                hlength hnodup hcontains httl
              have hperformed := hperforms slot hslot
              dsimp only at hperformed ⊢
              generalize acquirePreparedKey plaintext codec times first keys value ttl pick t = acquired
                at hacquire ⊢
              generalize (do
                coded (acceptsUnslotted plaintext codec first value)
                let _ ← store (query (timestamptz (times.now - oneSecond)))
                occupied plaintext codec times M prepared value ttlMicroseconds slot :
                  Except (ItemError C) (ItemReply T × Map Key T Int)) = expected at hacquire hperformed
              cases hacquire with
              | error e => exact hperformed
              | @ok acquired expected h =>
                  obtain ⟨hreply, hrepresents, hframe⟩ := h
                  refine ⟨expected.2, ?_, hrepresents, hframe⟩
                  obtain ⟨reply, M'⟩ := expected
                  obtain rfl : ItemReply.slot _ = reply := hreply
                  exact hperformed

end Slots

end Paranoid.ItemBulk

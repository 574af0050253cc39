import Paranoid.KvOperations

namespace Paranoid.KvRefinement

open KvAtomic KvModel KvStatements KvStore KvMutation KvOperations Postgres
open ExpiringMap (Entry live Map)

variable {E : Type} {lift : KvError → E} {t t' : Table} {key : Key} {now : Int}

/-- A result at one key is the one of its effect on the live entry. -/
def OnKey (now : Int) (t : Table) (key : Key) (effect : Effect E)
    (result : Except E (Reply × Table)) : Prop :=
  match effect (t.view now key) with
  | .error e => result = .error e
  | .ok (reply, cell) => ∃ t', result = .ok (reply, t') ∧
      ∀ later, now ≤ later → t'.view later = Function.update (t.view later) key (live later cell)

theorem view_later {later : Int} (hlater : now ≤ later) :
    t.view later = fun key => live later (t.view now key) := by
  funext key
  exact (ExpiringMap.live_live hlater (t.cell key)).symm

theorem view_same {later : Int} (hlater : now ≤ later) :
    t.view later = Function.update (t.view later) key (live later (t.view now key)) := by
  rw [Table.view, ExpiringMap.live_live hlater]
  exact (Function.update_eq_self key (t.view later)).symm

theorem liveRow_view {row : KvRow} (h : t.liveRow? now key = some row) :
    t.view now key = some row.entry := by
  rw [view_eq, h, Option.map_some]

theorem view_of_none (h : t.liveRow? now key = none) : t.view now key = none := by
  rw [view_eq, h, Option.map_none]

theorem liveRow_key {row : KvRow} (h : t.liveRow? now key = some row) : row.key = key :=
  (row?_eq_some.1 (liveRow?_eq_some.1 h).1).2

/-- A read of a live row. -/
theorem onKey_read (reply : KvRow → Except KvError Reply)
    (read : Entry Bytes Int → Except KvError Reply)
    {result : Except E (Reply × Table)} (hreply : ∀ row, reply row = read row.entry)
    (hnone : t.liveRow? now key = none → result = .error (lift .keyNotFound))
    (hsome : ∀ row, t.liveRow? now key = some row →
      result = ((reply row).map fun r => (r, t)).mapError lift) :
    OnKey now t key (readLive lift read) result := by
  rw [OnKey, readLive]
  cases hrow : t.liveRow? now key with
  | none =>
      rw [view_of_none hrow]
      exact hnone hrow
  | some row =>
      rw [liveRow_view hrow, requireLive, hsome row hrow, hreply]
      cases read row.entry with
      | error e => rfl
      | ok r => exact ⟨t, rfl, fun later hlater => liveRow_view hrow ▸ view_same hlater⟩

/-- A statement that updates a live row. -/
theorem onKey_update (set : KvRow → Except SqlError KvRow)
    (written : Entry Bytes Int → Except SqlError (Entry Bytes Int))
    (hset : ∀ row, (set row).map KvRow.entry = written row.entry)
    (hkey : ∀ row row', set row = .ok row' → row'.key = row.key) :
    OnKey now t key (updateLive lift written)
      (writes lift (fun _ => .done)
        ((affectRow (updateRow t (t.liveRow? now key) set)).map (Prod.mk ()))) := by
  rw [OnKey, updateLive]
  cases hrow : t.liveRow? now key with
  | none =>
      rw [view_of_none hrow]
      rfl
  | some row =>
      rw [liveRow_view hrow, requireLive, ← hset]
      cases hnew : set row with
      | error e =>
          rw [updateRow, hnew]
          rfl
      | ok row' =>
          rw [updateRow, hnew]
          refine ⟨t.upsert row', rfl, fun later _ => ?_⟩
          rw [view_upsert, hkey row row' hnew, liveRow_key hrow]

/-- A write of the whole row, where the row that is there has expired. -/
theorem view_unlive (h : t.liveRow? now key = none) : (t.row? key).all (expired now) := by
  cases hrow : t.row? key with
  | none => rfl
  | some row =>
      rw [Table.liveRow?, hrow, Option.filter_eq_none_iff] at h
      rw [Option.all_some, expired_eq, Bool.not_eq_true']
      simpa using h row rfl

theorem view_live {row : KvRow} (h : t.liveRow? now key = some row) :
    (t.row? key).all (expired now) = false := by
  obtain ⟨hrow, hlive⟩ := liveRow?_eq_some.1 h
  rw [hrow, Option.all_some, expired_eq, hlive, Bool.not_true]

/-- Deleting the live row of a key leaves no live entry there. -/
theorem view_deleteLive {later : Int} (hlater : now ≤ later) :
    (t.deleteWhere fun row => row.key = key && notExpired now row).view later =
      Function.update (t.view later) key (live later none) := by
  funext other
  rw [Table.view, Table.cell, row?_deleteWhere]
  by_cases hother : other = key
  · subst hother
    rw [Function.update_self]
    cases hrow : t.row? other with
    | none => rfl
    | some row =>
        have hkey : row.key = other := (row?_eq_some.1 hrow).2
        cases hlive : notExpired now row with
        | true => simp [Option.filter, hkey, hlive]
        | false =>
            have hdead : ¬row.entry.Live later := fun h => by
              rw [notExpired_iff.2 (h.earlier hlater)] at hlive
              cases hlive
            simp [Option.filter, hkey, hlive, ExpiringMap.live_some, hdead]
  · rw [Function.update_of_ne hother, Table.view, Table.cell]
    cases hrow : t.row? other with
    | none => rfl
    | some row => simp [Option.filter, (row?_eq_some.1 hrow).2, hother]

/-- Every operation on one key does to the live entries what its effect says. -/
theorem onKey_run {delay : Nat} {operation : Operation E} {effect : Effect E}
    (h : keyEffect lift now delay operation = some (key, effect)) :
    OnKey now t key effect (run lift now delay operation t) := by
  cases operation with
  | getBytesMulti | setBytesMulti | countLiveKeysWithPrefix | scanBytesWithPrefix | scanKeysWithPrefix
  | deleteKeysWithPrefixOnce | acquireSlotBytes => cases h
  | getBytes key =>
      obtain ⟨rfl, rfl⟩ := Prod.mk.inj (Option.some.inj h)
      refine onKey_read (fun row => .ok (.value row.value)) (fun entry => .ok (.value entry.value))
        (fun row => rfl) (fun hrow => ?_) (fun row hrow => ?_)
      · rw [run, KvStore.getBytes, KvStatements.getBytes, hrow]
        rfl
      · rw [run, KvStore.getBytes, KvStatements.getBytes, hrow]
        rfl
  | getBytesAndReturnDatabaseTimestamp key =>
      obtain ⟨rfl, rfl⟩ := Prod.mk.inj (Option.some.inj h)
      refine onKey_read
        (fun row => (query (kvTimestampMicros now)).map fun timestamp => .valueAt row.value timestamp)
        (fun entry => (query (kvTimestampMicros now)).map fun timestamp =>
          .valueAt entry.value timestamp)
        (fun row => rfl) (fun hrow => ?_) (fun row hrow => ?_)
      · rw [run, KvStore.getBytesAndReturnDatabaseTimestamp, getBytesReturningDatabaseTimestamp, hrow]
        rfl
      · rw [run, KvStore.getBytesAndReturnDatabaseTimestamp, getBytesReturningDatabaseTimestamp, hrow]
        cases kvTimestampMicros now <;> rfl
  | setBytes key value ttl =>
      obtain ⟨rfl, rfl⟩ := Prod.mk.inj (Option.some.inj h)
      rw [OnKey, run, KvStore.setBytes, KvStatements.setBytes, overwrite]
      cases expiresAtExpression now ttl.positiveMicroseconds with
      | error e => rfl
      | ok expiresAt => exact ⟨_, rfl, fun later _ => view_upsert _⟩
  | setBytesAndReturnDatabaseTimestamp key value ttl =>
      obtain ⟨rfl, rfl⟩ := Prod.mk.inj (Option.some.inj h)
      rw [OnKey, run, KvStore.setBytesAndReturnDatabaseTimestamp, setBytesReturningDatabaseTimestamp,
        KvStatements.setBytes, overwrite]
      cases expiresAtExpression now ttl.positiveMicroseconds with
      | error e => rfl
      | ok expiresAt =>
          cases kvTimestampMicros now with
          | error e => rfl
          | ok timestamp => exact ⟨_, rfl, fun later _ => view_upsert _⟩
  | setBytesIfNotExists key value ttl =>
      obtain ⟨rfl, rfl⟩ := Prod.mk.inj (Option.some.inj h)
      rw [OnKey, run, KvStore.setBytesIfNotExists, KvStatements.setBytesIfNotExists, overwriteDead]
      cases expiresAtExpression now ttl.positiveMicroseconds with
      | error e => rfl
      | ok expiresAt =>
          dsimp only [ok_bind]
          cases hrow : t.liveRow? now key with
          | none =>
              rw [view_of_none hrow, if_pos (view_unlive hrow)]
              exact ⟨_, rfl, fun later _ => view_upsert _⟩
          | some row =>
              rw [liveRow_view hrow, view_live hrow, if_neg Bool.false_ne_true]
              exact ⟨t, rfl, fun later hlater => liveRow_view hrow ▸ view_same hlater⟩
  | setBytesIfNotExistsAndReturnDatabaseTimestamp key value ttl =>
      obtain ⟨rfl, rfl⟩ := Prod.mk.inj (Option.some.inj h)
      rw [OnKey, run, KvStore.setBytesIfNotExistsAndReturnDatabaseTimestamp,
        setBytesIfNotExistsReturningDatabaseTimestamp, KvStatements.setBytesIfNotExists, overwriteDead]
      cases expiresAtExpression now ttl.positiveMicroseconds with
      | error e => rfl
      | ok expiresAt =>
          dsimp only [ok_bind]
          cases hrow : t.liveRow? now key with
          | none =>
              rw [view_of_none hrow, if_pos (view_unlive hrow)]
              cases kvTimestampMicros now with
              | error e => rfl
              | ok timestamp => exact ⟨_, rfl, fun later _ => view_upsert _⟩
          | some row =>
              rw [liveRow_view hrow, view_live hrow, if_neg Bool.false_ne_true]
              exact ⟨t, rfl, fun later hlater => liveRow_view hrow ▸ view_same hlater⟩
  | touchKey key =>
      obtain ⟨rfl, rfl⟩ := Prod.mk.inj (Option.some.inj h)
      exact onKey_update (fun row => .ok { row with updatedAt := now })
        (fun entry => .ok entry) (fun _ => rfl)
        fun row row' h => by rw [← Except.ok.inj h]
  | setKeyTtl key ttl =>
      obtain ⟨rfl, rfl⟩ := Prod.mk.inj (Option.some.inj h)
      refine onKey_update (fun row => do
          let expiresAt ← expiresAtExpression now ttl.positiveMicroseconds
          return { row with expiresAt, updatedAt := now })
        (fun entry => (expiresAtExpression now ttl.positiveMicroseconds).map fun expiresAt =>
          { entry with expiresAt })
        (fun row => ?_) fun row row' h => ?_
      · cases expiresAtExpression now ttl.positiveMicroseconds <;> rfl
      · obtain ⟨expiresAt, -, hrow⟩ := bind_eq_ok.1 h
        rw [← Except.ok.inj hrow]
  | expireKey key =>
      obtain ⟨rfl, rfl⟩ := Prod.mk.inj (Option.some.inj h)
      exact onKey_update (fun row => .ok { row with expiresAt := some now, updatedAt := now })
        (fun entry => .ok { entry with expiresAt := some now })
        (fun _ => rfl) fun row row' h => by rw [← Except.ok.inj h]
  | deleteKey key =>
      obtain ⟨rfl, rfl⟩ := Prod.mk.inj (Option.some.inj h)
      rw [OnKey, run, KvStore.deleteKey, KvStatements.deleteKey]
      cases hrow : t.liveRow? now key with
      | none =>
          rw [view_of_none hrow]
          rfl
      | some row =>
          rw [liveRow_view hrow]
          exact ⟨_, rfl, fun later hlater => view_deleteLive hlater⟩
  | checkKeyExists key =>
      obtain ⟨rfl, rfl⟩ := Prod.mk.inj (Option.some.inj h)
      refine ⟨t, ?_, fun later hlater => view_same hlater⟩
      rw [run, checkKeyExists, view_eq, Option.isSome_map]
  | mutateKeyAtomically key decideMutation =>
      obtain ⟨rfl, rfl⟩ := Prod.mk.inj (Option.some.inj h)
      have hinternal := internal_leaves lift (fun _ => now) delay decideMutation false t key
      rw [OnKey, run, KvStore.mutateKeyAtomically]
      cases hdecided : decidedEntry lift now delay decideMutation (t.view now key) with
      | error e =>
          rw [hdecided] at hinternal
          obtain ⟨t', heq, -⟩ := hinternal
          rw [heq]
          rfl
      | ok decided =>
          rw [hdecided] at hinternal
          obtain ⟨t', heq, hleaves⟩ := hinternal
          rw [heq]
          exact ⟨t', rfl, fun later hlater => view_of_leaves hleaves hlater⟩

section Scans

variable {m : Map Key Bytes Int} {p : Key → Bool}

/-- The live rows whose keys have a property. -/
def liveRows (now : Int) (t : Table) (p : Key → Bool) : List KvRow :=
  t.rows.filter fun row => p row.key && notExpired now row

theorem liveRowsWithPrefix_eq (keyPrefix : KeyPrefix) :
    liveRowsWithPrefix now t keyPrefix = liveRows now t keyPrefix.containsKey := by
  rw [liveRowsWithPrefix, liveRows]
  congr 1
  funext row
  rw [like_prefixLikePattern]

theorem nodup_liveRows : ((liveRows now t p).map KvRow.key).Nodup :=
  KeyedRows.nodup_filter t.primaryKey _

theorem view_liveRows {row : KvRow} (h : row ∈ liveRows now t p) :
    t.view now row.key = some row.entry ∧ p row.key := by
  obtain ⟨hmem, hrow⟩ := List.mem_filter.1 h
  rw [Bool.and_eq_true] at hrow
  exact ⟨liveRow_view (liveRow?_eq_some.2 ⟨row?_of_mem hmem, hrow.2⟩), hrow.1⟩

theorem mem_liveRows (hview : t.view now = m.view now) (k : Key) :
    k ∈ (liveRows now t p).map KvRow.key ↔ (m.view now k).isSome ∧ p k := by
  rw [← hview, List.mem_map]
  constructor
  · rintro ⟨row, hrow, rfl⟩
    obtain ⟨hlive, hp⟩ := view_liveRows hrow
    exact ⟨by rw [hlive]; rfl, hp⟩
  · rintro ⟨hlive, hp⟩
    rw [view_eq, Option.isSome_map, Option.isSome_iff_exists] at hlive
    obtain ⟨row, hrow⟩ := hlive
    have hkey := liveRow_key hrow
    obtain ⟨hrow, hlive⟩ := liveRow?_eq_some.1 hrow
    refine ⟨row, List.mem_filter.2 ⟨(row?_eq_some.1 hrow).1, ?_⟩, hkey⟩
    rw [hkey, hp, hlive]
    rfl

/-- The live rows with a property in key order, up to a limit. -/
theorem scan_liveRows (hview : t.view now = m.view now) (limit : Nat) :
    (((liveRows now t p).insertionSort fun a b => a.key ≤ b.key).take limit).map KvRow.key =
      m.scan now p limit := by
  have hperm : ((liveRows now t p).insertionSort fun a b => a.key ≤ b.key).Perm (liveRows now t p) :=
    List.perm_insertionSort _ _
  have hsorted : (((liveRows now t p).insertionSort fun a b => a.key ≤ b.key).map
    KvRow.key).Pairwise (· ≤ ·) := by
    rw [List.pairwise_map]
    exact List.pairwise_insertionSort _ _
  rw [List.map_take,
    ExpiringMap.scan_eq hsorted ((hperm.map KvRow.key).nodup_iff.2 nodup_liveRows) (fun k => ?_)]
  rw [(hperm.map KvRow.key).mem_iff, mem_liveRows hview]

theorem scanned_values (hview : t.view now = m.view now) (limit : Nat) :
    (((liveRows now t p).insertionSort fun a b => a.key ≤ b.key).take limit).map
    (fun row => (row.key, row.value)) =
      (m.scan now p limit).filterMap fun key =>
        (m.view now key).map fun entry => (key, entry.value) := by
  rw [← scan_liveRows hview, List.filterMap_map, ← List.filterMap_eq_map]
  apply List.filterMap_congr
  intro row hrow
  have hmem : row ∈ liveRows now t p :=
    (List.perm_insertionSort _ _).mem_iff.1 (List.mem_of_mem_take hrow)
  dsimp only [Function.comp]
  rw [← hview, (view_liveRows hmem).1]
  rfl

theorem count_liveRows (hview : t.view now = m.view now) :
    (liveRows now t p).length = ((m.liveKeys now).filter fun k => p k).card := by
  rw [ExpiringMap.card_liveKeys nodup_liveRows (mem_liveRows hview), List.length_map]

end Scans

section Bulk

theorem placeRow_getElem? {keys : List Key} (hkeys : keys.Nodup) {results : List (Option Bytes)}
    (hlength : results.length = keys.length) (row : Key × Bytes) {i : Nat} (hi : i < keys.length) :
    (placeRow keys results row)[i]? = if row.1 = keys[i] then some (some row.2) else results[i]? := by
  rw [placeRow]
  by_cases hrow : row.1 = keys[i]
  · have hindex : keys.idxOf? row.1 = some i := by
      refine List.idxOf?_eq_some_iff.2 ⟨hi, hrow.symm, fun j hj heq => ?_⟩
      have hsame := (List.Nodup.getElem_inj_iff hkeys).1 (heq.trans hrow)
      omega
    rw [if_pos hrow, hindex]
    simp [hlength, hi]
  · rw [if_neg hrow]
    cases hindex : keys.idxOf? row.1 with
    | none => rfl
    | some j =>
        obtain ⟨hj, hkey, -⟩ := List.idxOf?_eq_some_iff.1 hindex
        have hne : j ≠ i := by
          rintro rfl
          exact hrow hkey.symm
        exact List.getElem?_set_ne hne

theorem length_placeRow (keys : List Key) (results : List (Option Bytes)) (row : Key × Bytes) :
    (placeRow keys results row).length = results.length := by
  rw [placeRow]
  split
  · rfl
  · exact List.length_set

theorem length_placeRows (keys : List Key) (rows : List (Key × Bytes)) (results : List (Option Bytes)) :
    (rows.foldl (placeRow keys) results).length = results.length := by
  induction rows generalizing results with
  | nil => rfl
  | cons row rows ih => rw [List.foldl_cons, ih, length_placeRow]

/-- Placing the rows of a reply gives each key asked for the value of its row. -/
theorem placeRows_getElem? {keys : List Key} (hkeys : keys.Nodup) (rows : List (Key × Bytes))
    (hrows : (rows.map Prod.fst).Nodup) (results : List (Option Bytes))
    (hlength : results.length = keys.length)
    {i : Nat} (hi : i < keys.length) :
    (rows.foldl (placeRow keys) results)[i]? =
      match KeyedRows.lookup Prod.fst rows keys[i] with
      | none => results[i]?
      | some row => some (some row.2) := by
  induction rows generalizing results with
  | nil => rfl
  | cons row rows ih =>
      rw [List.map_cons, List.nodup_cons] at hrows
      have hplaced : (placeRow keys results row).length = keys.length := by
        rw [length_placeRow, hlength]
      rw [List.foldl_cons, ih hrows.2 _ hplaced,
        KeyedRows.lookup_cons, placeRow_getElem? hkeys hlength row hi]
      by_cases hrow : row.1 = keys[i]
      · rw [if_pos hrow, if_pos hrow, KeyedRows.lookup_eq_none_of_not_mem (hrow ▸ hrows.1)]
      · rw [if_neg hrow, if_neg hrow]

theorem lookup_getBytesMulti {keys : List Key} {key : Key} (hkey : key ∈ keys) :
    KeyedRows.lookup Prod.fst (KvStatements.getBytesMulti now t keys) key =
      (t.liveRow? now key).map fun row => (row.key, row.value) := by
  rw [KeyedRows.lookup, KvStatements.getBytesMulti, List.find?_map]
  have hlookup := KeyedRows.lookup_filter (k := key) t.primaryKey fun row =>
    row.key ∈ keys && notExpired now row
  rw [KeyedRows.lookup] at hlookup
  congr 1
  refine hlookup.trans ?_
  rw [Table.liveRow?, Table.row?]
  cases hrow : KeyedRows.lookup KvRow.key t.rows key with
  | none => rfl
  | some row => simp [Option.filter, KeyedRows.lookup_key hrow, hkey]

/-- A multi-get finds for each key what a get of that key finds. -/
theorem getBytesMulti_eq {keys : List Key} (hkeys : keys.Nodup) :
    (KvStatements.getBytesMulti now t keys).foldl (placeRow keys) (List.replicate keys.length none) =
      keys.map fun key => (t.view now key).map (·.value) := by
  have hrows : ((KvStatements.getBytesMulti now t keys).map Prod.fst).Nodup := by
    rw [KvStatements.getBytesMulti, List.map_map]
    exact KeyedRows.nodup_filter t.primaryKey _
  apply List.ext_getElem?
  intro i
  by_cases hi : i < keys.length
  · rw [placeRows_getElem? hkeys _ hrows _ List.length_replicate hi,
      lookup_getBytesMulti (List.getElem_mem hi),
      List.getElem?_map, List.getElem?_eq_getElem hi, Option.map_some, view_eq]
    cases t.liveRow? now keys[i] with
    | none => simp [hi]
    | some row => rfl
  · have hlength := length_placeRows keys
      (KvStatements.getBytesMulti now t keys) (List.replicate keys.length none)
    rw [List.length_replicate] at hlength
    rw [List.getElem?_eq_none (by omega), List.getElem?_eq_none (by simpa using hi)]

/-- A multi-set writes each of its keys. -/
theorem view_setBytesMulti (entries : List (Key × Bytes))
    (expiresAt : Option Int) (t : Table) (m : Map Key Bytes Int)
    (later : Int) (hview : t.view later = m.view later) :
    (entries.foldl (fun t entry => t.upsert ⟨entry.1, entry.2, expiresAt, now⟩) t).view later =
      (entries.foldl (fun m entry => m.put entry.1 (some ⟨entry.2, expiresAt⟩)) m).view later := by
  induction entries generalizing t m with
  | nil => exact hview
  | cons entry entries ih =>
      rw [List.foldl_cons, List.foldl_cons]
      apply ih
      rw [view_upsert, ExpiringMap.view_put, hview]
      rfl

/-- The writes of a multi-set may be made in any order. -/
theorem row?_setBytesMulti (entries : List (Key × Bytes)) (hkeys : (entries.map Prod.fst).Nodup)
    (expiresAt : Option Int) (t : Table) (key : Key) :
    (entries.foldl (fun t entry => t.upsert ⟨entry.1, entry.2, expiresAt, now⟩) t).row? key =
      match KeyedRows.lookup Prod.fst entries key with
      | none => t.row? key
      | some entry => some ⟨entry.1, entry.2, expiresAt, now⟩ := by
  induction entries generalizing t with
  | nil => rfl
  | cons entry entries ih =>
      rw [List.map_cons, List.nodup_cons] at hkeys
      rw [List.foldl_cons, ih hkeys.2, KeyedRows.lookup_cons, row?_upsert]
      by_cases hentry : entry.1 = key
      · rw [if_pos hentry, if_pos hentry.symm, KeyedRows.lookup_eq_none_of_not_mem (hentry ▸ hkeys.1)]
      · rw [if_neg hentry, if_neg (Ne.symm hentry)]

end Bulk

section Batches

variable {m : Map Key Bytes Int}

/-- The rows under a prefix, expired or not, in key order. -/
def prefixRows (t : Table) (keyPrefix : KeyPrefix) : List KvRow :=
  (t.rows.filter fun row => keyPrefix.containsKey row.key).insertionSort fun a b => a.key ≤ b.key

theorem mem_prefixRows {keyPrefix : KeyPrefix} {row : KvRow} :
    row ∈ prefixRows t keyPrefix ↔ row ∈ t.rows ∧ keyPrefix.containsKey row.key := by
  rw [prefixRows, (List.perm_insertionSort _ _).mem_iff, List.mem_filter]

theorem deleteKeysWithPrefixOnce_eq (keyPrefix : KeyPrefix) (batchSize : Nat) :
    KvStatements.deleteKeysWithPrefixOnce t keyPrefix batchSize =
      deleteBatch t ((prefixRows t keyPrefix).take batchSize) := by
  rw [KvStatements.deleteKeysWithPrefixOnce, prefixRows]
  congr 4
  funext row
  rw [like_prefixLikePattern]

/-- Rows that sort before a row of a batch are in it. -/
theorem batch_initial {keyPrefix : KeyPrefix} {batchSize : Nat} {a b : KvRow}
    (ha : a ∈ (prefixRows t keyPrefix).take batchSize)
    (hb : b ∈ prefixRows t keyPrefix) (hlt : b.key < a.key) :
    b ∈ (prefixRows t keyPrefix).take batchSize := by
  have hsorted : (prefixRows t keyPrefix).Pairwise fun a b => a.key ≤ b.key :=
    List.pairwise_insertionSort _ _
  rw [← List.take_append_drop batchSize (prefixRows t keyPrefix)] at hsorted hb
  refine (List.mem_append.1 hb).resolve_right fun hrest => ?_
  exact absurd ((List.pairwise_append.1 hsorted).2.2 a ha b hrest) (not_le_of_gt hlt)

theorem row?_deleteBatch (batch : List KvRow) (key : Key) :
    (deleteBatch t batch).2.row? key = if key ∈ batch.map KvRow.key then none else t.row? key := by
  rw [deleteBatch, row?_deleteWhere]
  cases hrow : t.row? key with
  | none => rw [Option.filter_none, ite_self]
  | some row =>
      by_cases hmem : key ∈ batch.map KvRow.key
      · rw [if_pos hmem]
        simp [Option.filter, (row?_eq_some.1 hrow).2, hmem]
      · rw [if_neg hmem]
        simp [Option.filter, (row?_eq_some.1 hrow).2, hmem]

/-- How many live keys a prefix delete frees depends on the expired rows under its
prefix, which count too. -/
theorem prefixDelete_view (hview : t.view now = m.view now) (keyPrefix : KeyPrefix) (batchSize : Nat) :
    ∃ freed, Freed m now keyPrefix batchSize
      (KvStatements.deleteKeysWithPrefixOnce t keyPrefix batchSize).1 freed ∧
      ∀ later, now ≤ later →
        (KvStatements.deleteKeysWithPrefixOnce t keyPrefix batchSize).2.view later =
          (m.without freed).view later := by
  rw [deleteKeysWithPrefixOnce_eq]
  have hrow : ∀ k ∈ m.liveKeys now, keyPrefix.containsKey k →
    ∃ row ∈ prefixRows t keyPrefix, row.key = k := by
    intro k hk hprefix
    rw [ExpiringMap.mem_liveKeys, ← hview, view_eq, Option.isSome_map, Option.isSome_iff_exists] at hk
    obtain ⟨row, hrow⟩ := hk
    have hkey := liveRow_key hrow
    exact ⟨row, mem_prefixRows.2 ⟨(row?_eq_some.1 (liveRow?_eq_some.1 hrow).1).1, hkey ▸ hprefix⟩, hkey⟩
  refine ⟨(m.liveKeys now).filter fun k => k ∈ ((prefixRows t keyPrefix).take batchSize).map KvRow.key,
    ⟨?_, ?_, ?_, ?_, ?_⟩, ?_⟩
  · intro k hk
    obtain ⟨hlive, hbatch⟩ := Finset.mem_filter.1 hk
    obtain ⟨row, hmem, rfl⟩ := List.mem_map.1 hbatch
    exact Finset.mem_filter.2 ⟨hlive, (mem_prefixRows.1 (List.mem_of_mem_take hmem)).2⟩
  · refine (Finset.card_le_card
      (t := (((prefixRows t keyPrefix).take batchSize).map KvRow.key).toFinset) ?_).trans ?_
    · intro k hk
      exact List.mem_toFinset.2 (Finset.mem_filter.1 hk).2
    · exact (List.toFinset_card_le _).trans_eq (List.length_map _)
  · exact List.length_take_le _ _
  · intro a ha b hb hprefix hlt
    obtain ⟨arow, harow, rfl⟩ := List.mem_map.1 (Finset.mem_filter.1 ha).2
    obtain ⟨brow, hbrow, rfl⟩ := hrow b hb hprefix
    exact Finset.mem_filter.2 ⟨hb, List.mem_map_of_mem (batch_initial harow hbrow hlt)⟩
  · intro hshort
    have hall : (prefixRows t keyPrefix).take batchSize = prefixRows t keyPrefix := by
      apply List.take_of_length_le
      rw [deleteBatch, List.length_take] at hshort
      omega
    rw [hall]
    apply Finset.filter_congr
    intro k hk
    constructor
    · intro hmem
      obtain ⟨row, hrow, rfl⟩ := List.mem_map.1 hmem
      exact (mem_prefixRows.1 hrow).2
    · intro hprefix
      obtain ⟨row, hrow, rfl⟩ := hrow k hk hprefix
      exact List.mem_map_of_mem hrow
  · intro later hlater
    funext k
    have hlater' : t.view later k = m.view later k := by
      rw [view_later hlater, ExpiringMap.view_later hlater, hview]
    rw [ExpiringMap.view_without, Table.view, Table.cell, row?_deleteBatch]
    dsimp only
    by_cases hbatch : k ∈ ((prefixRows t keyPrefix).take batchSize).map KvRow.key
    · rw [if_pos hbatch]
      by_cases hlive : k ∈ m.liveKeys now
      · rw [if_pos (Finset.mem_filter.2 ⟨hlive, hbatch⟩)]
        rfl
      · rw [if_neg (fun h => hlive (Finset.mem_filter.1 h).1), ExpiringMap.view_later hlater]
        rw [ExpiringMap.mem_liveKeys, Option.not_isSome_iff_eq_none] at hlive
        dsimp only
        rw [hlive]
        rfl
    · rw [if_neg hbatch, if_neg (fun h => hbatch (Finset.mem_filter.1 h).2), ← hlater']
      rfl

/-- Cleanup changes no live entry. -/
theorem cleanup_view {later : Int} (hlater : now ≤ later) (batchSize : Nat) :
    (KvStatements.deleteExpiredKeysOnce now t batchSize).2.view later = t.view later := by
  rw [KvStatements.deleteExpiredKeysOnce, deleteBatch]
  apply view_deleteWhere
  intro row hrow hbatch
  obtain ⟨other, hother, hkey⟩ := List.mem_map.1 (of_decide_eq_true hbatch)
  have hmem := (List.perm_insertionSort _ _).mem_iff.1 (List.mem_of_mem_take hother)
  obtain ⟨hmem, hexpired⟩ := List.mem_filter.1 hmem
  obtain rfl : other = row := List.inj_on_of_nodup_map t.primaryKey hmem hrow hkey
  rw [expired_eq, Bool.not_eq_true'] at hexpired
  rw [← Bool.not_eq_true, notExpired_iff]
  intro hlive
  rw [notExpired_iff.2 (hlive.earlier hlater)] at hexpired
  cases hexpired

end Batches

section Slots

variable {m : Map Key Bytes Int}

theorem row?_slotRows (expiresAt : Int) (keys : List Key) (t : Table) (key : Key) :
    (keys.foldl (fun t key =>
      if (t.row? key).isSome then t else t.upsert ⟨key, [], some expiresAt, now⟩) t).row? key =
      if key ∈ keys then some ((t.row? key).getD ⟨key, [], some expiresAt, now⟩) else t.row? key := by
  induction keys generalizing t with
  | nil => rfl
  | cons slot keys ih =>
      rw [List.foldl_cons, ih]
      by_cases hslot : key = slot
      · subst hslot
        rw [if_pos List.mem_cons_self]
        cases hrow : t.row? key with
        | none => simp
        | some row => simp [hrow]
      · have hother : (if (t.row? slot).isSome then t else t.upsert ⟨slot,
          [], some expiresAt, now⟩).row? key =
            t.row? key := by
          split
          · rfl
          · rw [row?_upsert, if_neg hslot]
        rw [hother]
        simp only [List.mem_cons, hslot, false_or]

/-- The rows of the slots are there afterwards, and no live entry has changed. -/
theorem ensureSlotKeysExist_spec {keys : List Key} {expiresAt : Int} (hkeys : keys ≠ [])
    (hexpires : timestamptz (now - oneSecond) = .ok expiresAt) :
    ∃ t', KvStatements.ensureSlotKeysExist now t keys = .ok t' ∧ (∀ key ∈ keys, (t'.row? key).isSome) ∧
      ∀ later, now ≤ later → t'.view later = t.view later := by
  refine ⟨_, by rw [KvStatements.ensureSlotKeysExist, if_neg hkeys, hexpires]; rfl, fun key hkey => ?_,
    fun later hlater => ?_⟩
  · rw [row?_slotRows, if_pos hkey]
    rfl
  · funext key
    rw [Table.view, Table.view, Table.cell, Table.cell, row?_slotRows]
    split
    · cases hrow : t.row? key with
      | some row => rfl
      | none =>
          have hsecond : expiresAt = now - oneSecond := timestamptz_eq_ok hexpires
          rw [Option.getD_none, Option.map_some, ExpiringMap.live_some, if_neg]
          · rfl
          · intro hlive
            have hlt := hlive expiresAt rfl
            rw [oneSecond] at hsecond
            omega
    · rfl

/-- The server picks a candidate that is free, where there is one. -/
theorem acquireSlot_spec {keys : List Key}
    (hkeys : ∀ key ∈ keys, (t.row? key).isSome) (hview : t.view now = m.view now)
    (value : Bytes) (ttlMicroseconds : Int) (pick : Nat) :
    ∃ slot, Free m now keys slot ∧
      match occupied m now value ttlMicroseconds slot with
      | .error e => KvStatements.acquireSlot now t value ttlMicroseconds keys pick = .error e
      | .ok (found, m') =>
          ∃ t', KvStatements.acquireSlot now t value ttlMicroseconds keys pick = .ok (found, t') ∧
          ∀ later, t.view later = m.view later → t'.view later = m'.view later := by
  cases hpick : (t.rows.filter fun row => row.key ∈ keys && expired now row)[
      pick % (t.rows.filter fun row => row.key ∈ keys && expired now row).length]? with
  | none =>
      refine ⟨none, fun key hkey => ?_, t, ?_, fun later h => h⟩
      · have hempty : (t.rows.filter fun row => row.key ∈ keys && expired now row) = [] := by
          rw [List.getElem?_eq_none_iff] at hpick
          by_contra hne
          exact absurd (Nat.mod_lt pick (List.length_pos_of_ne_nil hne)) (not_lt_of_ge hpick)
        obtain ⟨row, hrow⟩ := Option.isSome_iff_exists.1 (hkeys key hkey)
        obtain ⟨hmem, rfl⟩ := row?_eq_some.1 hrow
        have hlive := List.filter_eq_nil_iff.1 hempty row hmem
        rw [← hview, view_eq, Option.isSome_map, Table.liveRow?, hrow]
        have hnot : notExpired now row = true := by simpa [hkey, expired_eq] using hlive
        rw [Option.filter, hnot]
        rfl
      · rw [KvStatements.acquireSlot, hpick]
  | some row =>
      obtain ⟨hmem, hfree⟩ := List.mem_filter.1 (List.mem_of_getElem? hpick)
      rw [Bool.and_eq_true, decide_eq_true_eq, expired_eq, Bool.not_eq_true'] at hfree
      refine ⟨some row.key, ⟨hfree.1, ?_⟩, ?_⟩
      · rw [← hview, view_eq, Table.liveRow?, row?_of_mem hmem, Option.filter, hfree.2]
        rfl
      · rw [occupied, KvStatements.acquireSlot, hpick]
        cases timestampPlusMicroseconds now ttlMicroseconds with
        | error e => rfl
        | ok expiresAt =>
            refine ⟨_, rfl, fun later h => ?_⟩
            rw [view_upsert, ExpiringMap.view_put, h]
            rfl

end Slots

end Paranoid.KvRefinement

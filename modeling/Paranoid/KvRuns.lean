import Paranoid.KvRefinement

namespace Paranoid.KvRuns

open KvAtomic KvModel KvStatements KvStore KvOperations KvRefinement Postgres
open ExpiringMap (Map)

variable {E : Type} (lift : KvError → E)

section Runs

/-- The statements of a run are told apart by the time between them. -/
inductive Input (E : Type)
  | operation (elapsed delay : Nat) (operation : Operation E)
  | deleteExpiredKeysOnce (elapsed batchSize : Nat)

structure State where
  now : Int
  table : Table

/-- The rows that cleanup deletes; a batch size that it refuses deletes none. -/
def cleaned (now : Int) (t : Table) (batchSize : Nat) : Table :=
  match KvStore.deleteExpiredKeysOnce now t batchSize with
  | .error _ => t
  | .ok (_, t) => t

/-- A transaction that fails leaves the table as it was. -/
def next (s : State) : Input E → Option (Except E Reply) × State
  | .operation elapsed delay operation =>
      match run lift (s.now + elapsed) delay operation s.table with
      | .error e => (some (.error e), ⟨s.now + elapsed + delay, s.table⟩)
      | .ok (reply, t) => (some (.ok reply), ⟨s.now + elapsed + delay, t⟩)
  | .deleteExpiredKeysOnce elapsed batchSize =>
      (none, ⟨s.now + elapsed, cleaned (s.now + elapsed) s.table batchSize⟩)

/-- The replies to the operations of a run, and the state after it. -/
def replies : State → List (Input E) → List (Except E Reply) × State
  | s, [] => ([], s)
  | s, input :: inputs =>
      let (reply, s) := next lift s input
      let (rest, s) := replies s inputs
      (reply.toList ++ rest, s)

/-- A run of the operations on an expiring map, which cleanup does not touch. -/
inductive Replies :
    Int → Map Key Bytes Int → List (Input E) → List (Except E Reply) → Map Key Bytes Int → Prop
  | nil (now : Int) (m : Map Key Bytes Int) : Replies now m [] [] m
  | refused {now : Int} {m m' : Map Key Bytes Int} {elapsed delay : Nat} {operation : Operation E} {e : E}
      {inputs : List (Input E)} {rest : List (Except E Reply)}
      (h : Performs lift (now + elapsed) delay m operation (.error e))
      (hrest : Replies (now + elapsed + delay) m inputs rest m') :
      Replies now m (.operation elapsed delay operation :: inputs) (.error e :: rest) m'
  | performed {now : Int} {m m₁ m' : Map Key Bytes Int} {elapsed delay : Nat} {operation : Operation E} {reply : Reply}
      {inputs : List (Input E)} {rest : List (Except E Reply)}
      (h : Performs lift (now + elapsed) delay m operation (.ok (reply, m₁)))
      (hrest : Replies (now + elapsed + delay) m₁ inputs rest m') :
      Replies now m (.operation elapsed delay operation :: inputs) (.ok reply :: rest) m'
  | cleaned {now : Int} {m m' : Map Key Bytes Int} {elapsed batchSize : Nat} {inputs : List (Input E)}
      {rest : List (Except E Reply)} (hrest : Replies (now + elapsed) m inputs rest m') :
      Replies now m (.deleteExpiredKeysOnce elapsed batchSize :: inputs) rest m'

end Runs

variable {lift} {now : Int} {t : Table} {m : Map Key Bytes Int}

/-- The map that a table stores. -/
def stored (t : Table) : Map Key Bytes Int where
  entry := t.cell
  finite := by
    refine (t.rows.map KvRow.key).finite_toSet.subset fun key hkey => ?_
    obtain ⟨row, hrow, rfl⟩ : ∃ row ∈ t.rows, row.key = key := by
      by_contra hnone
      push Not at hnone
      refine hkey ?_
      rw [Table.cell, row?_eq_none.2 hnone, Option.map_none]
    exact List.mem_map_of_mem hrow

theorem scannedRows (keyPrefix : KeyPrefix) (afterKeyText : String) :
    ((liveRowsWithPrefix now t keyPrefix).filter fun row => afterKeyText < row.key.text) =
      liveRows now t (scannedKey keyPrefix afterKeyText) := by
  rw [liveRowsWithPrefix_eq, liveRows, liveRows, List.filter_filter]
  congr 1
  funext row
  rw [scannedKey, ← Bool.and_assoc, Bool.and_comm (decide (afterKeyText < row.key.text))]

theorem scanBytes_eq (hview : t.view now = m.view now)
    (keyPrefix : KeyPrefix) (afterKeyText : String) (limit : Nat) :
    KvStatements.scanBytesWithPrefix now t keyPrefix afterKeyText limit =
      (m.scan now (scannedKey keyPrefix afterKeyText) limit).filterMap fun key =>
        (m.view now key).map fun entry => (key, entry.value) := by
  rw [KvStatements.scanBytesWithPrefix, scannedRows, scanned_values hview]

theorem scanKeys_eq (hview : t.view now = m.view now)
    (keyPrefix : KeyPrefix) (afterKeyText : String) (limit : Nat) :
    KvStatements.scanKeysWithPrefix now t keyPrefix afterKeyText limit =
      m.scan now (scannedKey keyPrefix afterKeyText) limit := by
  rw [KvStatements.scanKeysWithPrefix, KvStatements.scanBytesWithPrefix,
    scannedRows, List.map_map, ← scan_liveRows hview]
  rfl

/-- What a multi-get returns, once its keys are accepted. -/
theorem getBytesMulti_result (keys : List Key) :
    KvStore.getBytesMulti now t keys = do
      let keys ← prepareUniqueKeysForMultiGet keys
      return keys.map fun key => (t.view now key).map (·.value) := by
  rw [KvStore.getBytesMulti]
  cases hkeys : prepareUniqueKeysForMultiGet keys with
  | error e => rfl
  | ok prepared =>
      have hnodup : prepared.Nodup := by
        rw [prepareUniqueKeysForMultiGet] at hkeys
        split at hkeys
        · cases hkeys
        · obtain ⟨_, hunique, hprepared⟩ := bind_eq_ok.1 hkeys
          rw [validateUnique] at hunique
          split at hunique
          · rwa [← Except.ok.inj hprepared]
          · cases hunique
      dsimp only [ok_bind]
      split
      · subst_vars
        rfl
      · rw [getBytesMulti_eq hnodup]

/-- A result on the table is one that the operation may have on the map. -/
def Refines (lift : KvError → E) (now : Int) (delay : Nat)
    (m : Map Key Bytes Int) (operation : Operation E)
    (result : Except E (Reply × Table)) : Prop :=
  match result with
  | .error e => Performs lift now delay m operation (.error e)
  | .ok (reply, t') => ∃ m', Performs lift now delay m operation (.ok (reply, m')) ∧
      ∀ later, now ≤ later → t'.view later = m'.view later

/-- The map after `now` is all that counts. -/
def Agree (now : Int) (t : Table) (m : Map Key Bytes Int) : Prop :=
  ∀ later, now ≤ later → t.view later = m.view later

variable {delay : Nat}

theorem refines_key {operation : Operation E} {key : Key} {effect : Effect E} (hagree : Agree now t m)
    (h : keyEffect lift now delay operation = some (key, effect)) :
    Refines lift now delay m operation (run lift now delay operation t) := by
  have hrun := onKey_run (t := t) h
  have hperforms := Performs.onKey (m := m) h
  rw [OnKey, hagree now le_rfl] at hrun
  cases heffect : effect (m.view now key) with
  | error e =>
      rw [heffect] at hrun hperforms
      rw [hrun]
      exact hperforms
  | ok written =>
      rw [heffect] at hrun hperforms
      obtain ⟨t', heq, hwritten⟩ := hrun
      rw [heq]
      refine ⟨_, hperforms, fun later hlater => ?_⟩
      rw [hwritten later hlater, ExpiringMap.view_put, hagree later hlater]

theorem refines_reads {α : Type} {operation : Operation E}
    {reply : α → Reply} {result : Except KvError α}
    (hagree : Agree now t m) (h : Performs lift now delay m operation (reads lift m reply result)) :
    Refines lift now delay m operation (reads lift t reply result) := by
  cases result with
  | error e => exact h
  | ok a => exact ⟨m, h, hagree⟩

/-- A write of the table and one of the map that leave them in agreement. -/
def Writes {ε α : Type} (now : Int) (onTable : Except ε (α × Table))
    (onMap : Except ε (α × Map Key Bytes Int)) : Prop :=
  match onMap with
  | .error e => onTable = .error e
  | .ok (a, m') => ∃ t', onTable = .ok (a, t') ∧ Agree now t' m'

theorem refines_writes {α : Type} {operation : Operation E} {reply : α → Reply}
    {onTable : Except KvError (α × Table)} {onMap : Except KvError (α × Map Key Bytes Int)}
    (hmatch : Writes now onTable onMap)
    (h : Performs lift now delay m operation (writes lift reply onMap)) :
    Refines lift now delay m operation (writes lift reply onTable) := by
  cases onMap with
  | error e =>
      obtain rfl : onTable = .error e := hmatch
      exact h
  | ok written =>
      obtain ⟨t', heq, hview⟩ := hmatch
      rw [heq]
      exact ⟨written.2, h, hview⟩

theorem refines_setBytesMulti (hagree : Agree now t m) (entries : List (Key × Bytes)) (ttl : Ttl) :
    Refines lift now delay m (.setBytesMulti entries ttl)
      (run lift now delay (.setBytesMulti entries ttl) t) := by
  refine refines_writes ?_ (.setBytesMulti entries ttl)
  rw [KvStore.setBytesMulti, KvStatements.setBytesMulti]
  cases validateSetMultiEntryCount entries with
  | error e => rfl
  | ok _ =>
      dsimp only [ok_bind]
      by_cases hentries : entries = []
      · rw [if_pos hentries, if_pos hentries]
        exact ⟨t, rfl, hagree⟩
      · rw [if_neg hentries, if_neg hentries]
        cases validateUnique (entries.map Prod.fst) with
        | error e => rfl
        | ok _ =>
            cases expiresAtExpression now ttl.positiveMicroseconds with
            | error e => rfl
            | ok expiresAt =>
                exact ⟨_, rfl, fun later hlater =>
                  view_setBytesMulti entries expiresAt t m later (hagree later hlater)⟩

theorem refines_prefixDelete (hagree : Agree now t m) (keyPrefix : KeyPrefix) (batchSize : Nat) :
    Refines lift now delay m (.deleteKeysWithPrefixOnce keyPrefix batchSize)
      (run lift now delay (.deleteKeysWithPrefixOnce keyPrefix batchSize) t) := by
  obtain ⟨freed, hfreed, hview⟩ := prefixDelete_view (hagree now le_rfl) keyPrefix batchSize
  refine refines_writes ?_ (.deleteKeysWithPrefixOnce hfreed)
  rw [KvStore.deleteKeysWithPrefixOnce]
  cases validateDeleteBatchSize batchSize with
  | error e => rfl
  | ok _ =>
      exact ⟨_, rfl, hview⟩

theorem exists_free (m : Map Key Bytes Int) (now : Int) (candidateKeys : List Key) :
    ∃ slot, Free m now candidateKeys slot := by
  by_cases hlive : ∀ key ∈ candidateKeys, (m.view now key).isSome
  · exact ⟨none, hlive⟩
  · push Not at hlive
    obtain ⟨key, hkey, hdead⟩ := hlive
    exact ⟨some key, hkey, Option.not_isSome_iff_eq_none.1 hdead⟩

theorem prepared_slots {keys prepared : List Key}
    (h : prepareUniqueKeysForSlotAcquisition keys = .ok prepared) :
    prepared = keys := by
  rw [prepareUniqueKeysForSlotAcquisition] at h
  split at h
  · cases h
  · obtain ⟨_, -, hprepared⟩ := bind_eq_ok.1 h
    exact (Except.ok.inj hprepared).symm

theorem refines_acquireSlot (hagree : Agree now t m)
    (candidateKeys : List Key) (value : Bytes) (ttl : Ttl) (pick : Nat) :
    Refines lift now delay m (.acquireSlotBytes candidateKeys value ttl pick)
      (run lift now delay (.acquireSlotBytes candidateKeys value ttl pick) t) := by
  obtain ⟨slot, hslot⟩ := exists_free m (now + delay) candidateKeys
  have hrefused : Performs lift now delay m (.acquireSlotBytes candidateKeys value ttl pick) _ :=
    .acquireSlotBytes value ttl pick hslot
  have hdelay : now ≤ now + delay := by omega
  rw [run, KvStore.acquireSlotBytes]
  cases hkeys : prepareUniqueKeysForSlotAcquisition candidateKeys with
  | error e =>
      rw [hkeys] at hrefused
      exact hrefused
  | ok keys =>
      obtain rfl := prepared_slots hkeys
      cases httl : positiveExpiringTtlMicroseconds ttl with
      | error e =>
          rw [hkeys, httl] at hrefused
          exact hrefused
      | ok ttlMicroseconds =>
          by_cases hempty : keys = []
          · refine refines_writes ?_ hrefused
            rw [hkeys, httl]
            subst hempty
            exact ⟨t, rfl, hagree⟩
          · cases hexpires : timestamptz (now - oneSecond) with
            | error e =>
                refine refines_writes ?_ hrefused
                rw [hkeys, httl]
                dsimp only [ok_bind]
                rw [if_neg hempty, if_neg hempty, hexpires,
                  KvStatements.ensureSlotKeysExist, if_neg hempty, hexpires]
                rfl
            | ok expiresAt =>
                obtain ⟨t', heq, hrows, hsame⟩ := ensureSlotKeysExist_spec hempty hexpires
                have hagree' : Agree now t' m :=
                  fun later hlater => (hsame later hlater).trans (hagree later hlater)
                obtain ⟨slot, hslot, hacquire⟩ :=
                  acquireSlot_spec hrows (hagree' _ hdelay) value ttlMicroseconds pick
                refine refines_writes ?_ (.acquireSlotBytes value ttl pick hslot)
                rw [hkeys, httl]
                dsimp only [ok_bind]
                rw [if_neg hempty, if_neg hempty, hexpires, heq]
                dsimp only [query, Except.mapError, ok_bind]
                cases hoccupied : occupied m (now + delay) value ttlMicroseconds slot with
                | error e =>
                    rw [hoccupied] at hacquire
                    rw [hacquire]
                    rfl
                | ok written =>
                    rw [hoccupied] at hacquire
                    obtain ⟨t'', heq', hwritten⟩ := hacquire
                    rw [heq']
                    exact ⟨t'', rfl, fun later hlater => hwritten later (hagree' later hlater)⟩

/-- Operations on a table that agrees with a map do what they may do on the map. -/
theorem run_refines (hagree : Agree now t m) (delay : Nat) (operation : Operation E) :
    Refines lift now delay m operation (run lift now delay operation t) := by
  cases operation with
  | getBytesMulti keys =>
      rw [run, getBytesMulti_result, hagree now le_rfl]
      exact refines_reads hagree (.getBytesMulti keys)
  | setBytesMulti entries ttl => exact refines_setBytesMulti hagree entries ttl
  | countLiveKeysWithPrefix keyPrefix =>
      refine ⟨m, ?_, hagree⟩
      rw [KvStatements.countLiveKeysWithPrefix,
        liveRowsWithPrefix_eq, count_liveRows (hagree now le_rfl)]
      exact .countLiveKeysWithPrefix keyPrefix
  | scanBytesWithPrefix keyPrefix afterKey limit =>
      simp only [run, KvStore.scanBytesWithPrefix, scanBytes_eq (hagree now le_rfl)]
      exact refines_reads hagree (.scanBytesWithPrefix keyPrefix afterKey limit)
  | scanKeysWithPrefix keyPrefix afterKey limit =>
      simp only [run, KvStore.scanKeysWithPrefix, scanKeys_eq (hagree now le_rfl)]
      exact refines_reads hagree (.scanKeysWithPrefix keyPrefix afterKey limit)
  | deleteKeysWithPrefixOnce keyPrefix batchSize =>
      exact refines_prefixDelete hagree keyPrefix batchSize
  | acquireSlotBytes candidateKeys value ttl pick =>
      exact refines_acquireSlot hagree candidateKeys value ttl pick
  | _ => exact refines_key hagree rfl

theorem agree_cleaned (hagree : Agree now t m) (batchSize : Nat) :
    Agree now (cleaned now t batchSize) m := by
  rw [cleaned, KvStore.deleteExpiredKeysOnce]
  cases validateDeleteBatchSize batchSize with
  | error e => exact hagree
  | ok _ => exact fun later hlater => (cleanup_view hlater batchSize).trans (hagree later hlater)

theorem Agree.later {later : Int} (hagree : Agree now t m) (hlater : now ≤ later) : Agree later t m :=
  fun _ h => hagree _ (hlater.trans h)

/-- From one input to a whole run, with the map that the table agrees with. -/
theorem replies_refine (inputs : List (Input E)) (s : State)
    (m : Map Key Bytes Int) (hagree : Agree s.now s.table m) :
    ∃ m', Replies lift s.now m inputs (replies lift s inputs).1 m' ∧
      Agree (replies lift s inputs).2.now (replies lift s inputs).2.table m' := by
  induction inputs generalizing s m with
  | nil => exact ⟨m, .nil s.now m, hagree⟩
  | cons input inputs ih =>
      cases input with
      | deleteExpiredKeysOnce elapsed batchSize =>
          have hcleaned := agree_cleaned
            (hagree.later (Int.le_add_of_nonneg_right (Int.natCast_nonneg elapsed))) batchSize
          obtain ⟨m', hreplies, hagree'⟩ :=
            ih ⟨s.now + elapsed, cleaned (s.now + elapsed) s.table batchSize⟩ m hcleaned
          exact ⟨m', .cleaned hreplies, hagree'⟩
      | operation elapsed delay operation =>
          have hlater := hagree.later (Int.le_add_of_nonneg_right (Int.natCast_nonneg elapsed))
          have hrun : Refines lift _ delay m operation _ := run_refines hlater delay operation
          have hdelay : s.now + elapsed ≤ s.now + elapsed + delay :=
            Int.le_add_of_nonneg_right (Int.natCast_nonneg delay)
          rw [replies, next]
          cases hresult : run lift (s.now + elapsed) delay operation s.table with
          | error e =>
              rw [hresult] at hrun
              obtain ⟨m', hreplies, hagree'⟩ :=
                ih ⟨s.now + elapsed + delay, s.table⟩ m (hlater.later hdelay)
              exact ⟨m', .refused hrun hreplies, hagree'⟩
          | ok replied =>
              rw [hresult] at hrun
              obtain ⟨m₁, hperforms, hagree₁⟩ := hrun
              have hagree₁ : Agree (s.now + elapsed) replied.2 m₁ := hagree₁
              obtain ⟨m', hreplies, hagree'⟩ :=
                ih ⟨s.now + elapsed + delay, replied.2⟩ m₁ (hagree₁.later hdelay)
              exact ⟨m', .performed hperforms hreplies, hagree'⟩

section Bulk

def setEach (now : Int) (t : Table) (entries : List (Key × Bytes)) (ttl : Ttl) : Except KvError Table :=
  entries.foldlM (fun t entry => KvStore.setBytes now t entry.1 entry.2 ttl) t

def SameRows : Except KvError Table → Except KvError Table → Prop
  | .ok t, .ok t' => ∀ key, t.row? key = t'.row? key
  | .error e, .error e' => e = e'
  | _, _ => False

theorem setEach_eq {ttl : Ttl} {expiresAt : Option Int}
    (h : expiresAtExpression now ttl.positiveMicroseconds = .ok expiresAt)
    (entries : List (Key × Bytes)) (t : Table) :
    setEach now t entries ttl =
      .ok (entries.foldl (fun t entry => t.upsert ⟨entry.1, entry.2, expiresAt, now⟩) t) := by
  rw [setEach]
  induction entries generalizing t with
  | nil => rfl
  | cons entry entries ih =>
      rw [List.foldlM_cons, KvStore.setBytes, KvStatements.setBytes, h]
      exact ih _

/-- A multi-set is the sets of its entries in any order. -/
theorem setBytesMulti_setEach {entries others : List (Key × Bytes)}
    (hcount : entries.length ≤ maxKvSetMultiEntries)
    (hkeys : (entries.map Prod.fst).Nodup) (hperm : entries.Perm others) (ttl : Ttl) :
    SameRows (KvStore.setBytesMulti now t entries ttl) (setEach now t others ttl) := by
  rw [KvStore.setBytesMulti, validateSetMultiEntryCount, if_neg (not_lt_of_ge hcount)]
  dsimp only [pure_eq_ok, ok_bind]
  by_cases hempty : entries = []
  · subst hempty
    rw [List.nil_perm.1 hperm]
    exact fun key => rfl
  · rw [if_neg hempty, validateUnique, if_pos hkeys, KvStatements.setBytesMulti]
    cases hexpires : expiresAtExpression now ttl.positiveMicroseconds with
    | error e =>
        cases others with
        | nil => exact absurd (List.perm_nil.1 hperm) hempty
        | cons entry others =>
            rw [setEach, List.foldlM_cons, KvStore.setBytes, KvStatements.setBytes, hexpires]
            rfl
    | ok expiresAt =>
        rw [setEach_eq hexpires]
        intro key
        rw [row?_setBytesMulti entries hkeys,
          row?_setBytesMulti others ((hperm.map Prod.fst).nodup_iff.1 hkeys),
          KeyedRows.lookup_perm hkeys hperm]

end Bulk

/-- Every run of the store from any table, with cleanup anywhere in it, is one of the
expiring map that the table stores, and leaves its live entries; and the bulk
operations are the single ones in any order. -/
theorem kv_refines_expiring_map (lift : KvError → E) (s : State) (inputs : List (Input E)) :
    (∃ m', Replies lift s.now (stored s.table) inputs (replies lift s inputs).1 m' ∧
      Agree (replies lift s inputs).2.now (replies lift s inputs).2.table m') ∧
    (∀ keys, KvStore.getBytesMulti s.now s.table keys = do
      let keys ← prepareUniqueKeysForMultiGet keys
      return keys.map fun key => (KvStore.getBytes s.now s.table key).toOption) ∧
    ∀ (entries others : List (Key × Bytes)) (ttl : Ttl), entries.length ≤ maxKvSetMultiEntries →
      (entries.map Prod.fst).Nodup → entries.Perm others →
      SameRows (KvStore.setBytesMulti s.now s.table entries ttl)
        (setEach s.now s.table others ttl) := by
  refine ⟨replies_refine inputs s (stored s.table) fun later _ => rfl, fun keys => ?_,
    fun entries others ttl hcount hkeys hperm => setBytesMulti_setEach hcount hkeys hperm ttl⟩
  have hget : ∀ key, (KvStore.getBytes s.now s.table key).toOption =
    (s.table.view s.now key).map (·.value) := by
    intro key
    rw [KvStore.getBytes, KvStatements.getBytes, view_eq]
    cases s.table.liveRow? s.now key <;> rfl
  simp only [getBytesMulti_result, hget]

section PrefixDelete

def oneSecondTtl : Ttl := ⟨some minKvTtl, by decide, by decide⟩

def expiringThenKept : List (Input KvError) :=
  [.operation 0 0 (.setBytes ⟨"p::a::", by decide⟩ [] oneSecondTtl),
    .operation 0 0 (.setBytes ⟨"p::b::", by decide⟩ [] .noExpiration)]

def deleteOneAndGet : List (Input KvError) :=
  [.operation 2000000 0 (.deleteKeysWithPrefixOnce ⟨"p::", by decide⟩ 1),
    .operation 0 0 (.getBytes ⟨"p::b::", by decide⟩)]

/-- An expired row fills the batch of a prefix delete, unless cleanup was there first. -/
theorem prefixDelete_observes_cleanup :
    (replies id ⟨0, Table.empty⟩ (expiringThenKept ++ deleteOneAndGet)).1 =
      [.ok .done, .ok .done, .ok (.count 1), .ok (.value [])] ∧
    (replies id ⟨0, Table.empty⟩
      (expiringThenKept ++ [.deleteExpiredKeysOnce 1500000 10] ++ deleteOneAndGet)).1 =
      [.ok .done, .ok .done, .ok (.count 1), .error .keyNotFound] := by
  decide +kernel

end PrefixDelete

end Paranoid.KvRuns

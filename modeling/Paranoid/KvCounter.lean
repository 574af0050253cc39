import Paranoid.KvSerial

namespace Paranoid.KvCounter

open KvAtomic KvLocking KvSerial Postgres Transitions

inductive FleetError
  | counterArithmeticOverflow
  | kv (error : KvError)
  deriving DecidableEq

def checkedAdd (a b : Int) : Option Int :=
  if -i64Max - 1 ≤ a + b ∧ a + b ≤ i64Max then some (a + b) else none

def addDelta (delta current : Int) : Except FleetError (Int × AtomicMutation Int) :=
  match checkedAdd current delta with
  | none => throw .counterArithmeticOverflow
  | some value => return (value, .setValue value .noExpiration)

/-- The calls on a counter, and the cleanup that may come across its row. -/
inductive CounterCall
  | add (delta : Int) (inCurrentTransaction : Bool)
  | setValue (value : Int)
  | deleteExpiredKeysOnce

def counterOperation : CounterCall → Operation Int Int FleetError
  | .add delta inCurrentTransaction =>
      .mutateKeyAtomically (fun _ => liveOrInitial 0 .noExpiration (addDelta delta))
        inCurrentTransaction
  | .setValue value => .setBytes value .noExpiration
  | .deleteExpiredKeysOnce => .deleteExpiredKeysOnce

def fetchValue (now : Int) (cell : Option (Row Int)) : Int := (liveValue now cell).getD 0

/-- The last value set, or the first, and the deltas added to it since, where the calls
have returned these replies. -/
def counted (value : Int) : List (CounterCall × Reply Int) → Int
  | [] => value
  | (.add delta _, .mutated _) :: calls => counted (value + delta) calls
  | (.setValue value, .set) :: calls => counted value calls
  | _ :: calls => counted value calls

/-- Calls that did not write do not count. -/
theorem counted_wrote (value : Int) (calls : List (CounterCall × Reply Int)) :
    counted value (wrote calls) = counted value calls := by
  induction calls generalizing value with
  | nil => rfl
  | cons call calls ih =>
      obtain ⟨op, reply⟩ := call
      rw [wrote, List.filter_cons]
      split
      · cases op <;> cases reply <;> exact ih _
      · rename_i hquiet
        rw [← wrote, ih]
        cases op <;> cases reply <;> first | rfl | exact absurd rfl hquiet

/-- A counter's row does not expire. -/
def Kept (cell : Option (Row Int)) : Prop := ∀ row ∈ cell, row.expiresAt = none

theorem liveValue_kept {cell : Option (Row Int)} (h : Kept cell) (now : Int) :
    liveValue now cell = cell.map (·.value) := by
  cases cell with
  | none => rfl
  | some row =>
      have hrow := h row rfl
      simp [liveValue_some, Row.isLive, hrow]

theorem fetchValue_kept {cell : Option (Row Int)} (h : Kept cell) (now later : Int) :
    fetchValue now cell = fetchValue later cell := by
  rw [fetchValue, fetchValue, liveValue_kept h, liveValue_kept h]

/-- An addition decides on the value that is there, or on zero. -/
theorem liveOrInitial_add {delta : Int} {live : Option Int}
    {answer : Int} {mutation : AtomicMutation Int}
    (h : liveOrInitial 0 .noExpiration (addDelta delta) live = .ok (answer, mutation)) :
    answer = live.getD 0 + delta ∧ mutation = .setValue answer .noExpiration := by
  have hadd : ∀ current, addDelta delta current = .ok (answer, mutation) →
      answer = current + delta ∧ mutation = .setValue answer .noExpiration := by
    intro current hadd
    rw [addDelta, checkedAdd] at hadd
    split at hadd
    · cases hadd
    · rename_i value hvalue
      split at hvalue
      · obtain rfl := Option.some.inj hvalue
        obtain ⟨rfl, rfl⟩ := Prod.mk.inj (Except.ok.inj hadd)
        exact ⟨rfl, rfl⟩
      · cases hvalue
  cases live with
  | some current => exact hadd current h
  | none =>
      obtain ⟨⟨answer', mutation'⟩, hinner, hmutation⟩ := bind_eq_ok.1 h
      rw [addDelta] at hinner
      split at hinner
      · cases hinner
      · rename_i value hvalue
        obtain ⟨rfl, rfl⟩ := Prod.mk.inj (Except.ok.inj hinner)
        obtain ⟨rfl, rfl⟩ := Prod.mk.inj (Except.ok.inj hmutation)
        refine hadd 0 ?_
        rw [addDelta, hvalue]
        rfl

variable {lift : KvError → FleetError}

/-- One write of a counter counts as its call says. -/
theorem counted_write {w : Write CounterCall Int Int}
    (hlegal : Legal counterOperation lift w) (hkept : Kept w.before)
    (calls : List (CounterCall × Reply Int)) (now : Int) :
    Kept w.after ∧ counted (fetchValue now w.before) (w.call :: calls) =
      counted (fetchValue now w.after) calls := by
  rw [Write.call, Legal] at *
  cases hop : w.op with
  | add delta inCurrentTransaction =>
      rw [hop] at hlegal
      obtain ⟨-, answer, hreply, hmutated⟩ := hlegal
      obtain ⟨⟨answer', mutation⟩, hdecide, hmutated⟩ := bind_eq_ok.1 hmutated
      obtain ⟨rfl, rfl⟩ := liveOrInitial_add hdecide
      obtain ⟨-, hafter⟩ := Prod.mk.inj (Except.ok.inj hmutated)
      rw [hreply, ← hafter]
      refine ⟨fun row hrow => ?_, ?_⟩
      · rw [← Option.some.inj hrow]
      · rw [fetchValue_kept hkept now w.now]
        rfl
  | setValue value =>
      rw [hop] at hlegal
      obtain ⟨hreply, row, hrow, hafter⟩ := hlegal
      obtain rfl := setValueAndTtl_noExpiration hrow
      rw [hreply, hafter]
      exact ⟨fun row hrow => by rw [← Option.some.inj hrow], rfl⟩
  | deleteExpiredKeysOnce =>
      rw [hop] at hlegal
      obtain ⟨-, ⟨row, hrow, hdead⟩, -⟩ := hlegal
      have hlive := hkept row hrow
      simp [Row.isLive, hlive] at hdead

theorem counted_history {ws : List (Write CounterCall Int Int)}
    {start stop : Option (Row Int)} (h : History start ws stop)
    (hlegal : ∀ w ∈ ws, Legal counterOperation lift w) (hkept : Kept start) (now : Int) :
    fetchValue now stop = counted (fetchValue now start) (ws.map Write.call) := by
  induction ws generalizing start with
  | nil =>
      obtain rfl : stop = start := h
      rfl
  | cons w ws ih =>
      obtain ⟨rfl, hrest⟩ := h
      obtain ⟨hafter, hcounted⟩ := counted_write (hlegal w List.mem_cons_self) hkept (ws.map Write.call) now
      rw [List.map_cons, hcounted]
      exact ih hrest (fun u hu => hlegal u (List.mem_cons_of_mem w hu)) hafter

section Runs

variable {O A V E : Type} [Inhabited V]

/-- The calls that have returned `Ok` in committed transactions, with their replies, are
writes that follow each other from the first row to the last, and every reply is one of
its operation. -/
structure Serial (operation : O → Operation A V E) (lift : KvError → E)
    (start stop : Option (Row V)) (calls : List (O × Reply A)) : Prop where
  writes : ∃ ws : List (Write O A V), ws.map Write.call = wrote calls ∧ History start ws stop ∧
    ∀ w ∈ ws, Legal operation lift w
  answers : ∀ call ∈ calls, Answers (operation call.1) call.2

/-- In every interleaving the committed writes follow each other from the first row to
the last: each mutation saw what the write before it left, and what was refused or
rolled back is not among them. -/
theorem serial_run (operation : O → Operation A V E)
    (lift : KvError → E) (committed : Option (Stored V))
    (inputs : List (Input O)) :
    Serial operation lift (rowOf committed)
      (rowOf (exec (step operation lift) inputs (System.start committed)).committed)
      (committedCalls (trace (step operation lift) inputs (System.start committed))) := by
  have hinv : Inv operation lift (rowOf committed)
    (exec (step operation lift) inputs (System.start committed)) :=
    exec_invariant _ inv_step inputs (inv_start committed)
  have hstart : Agrees operation (.start : Observed O A) (System.start committed) :=
    agrees_start committed
  have hagrees := agrees_run lift inputs hstart
  exact ⟨⟨_, hagrees.committed.symm, hinv.chained, hinv.legal⟩, hagrees.answers⟩

/-- No update is lost; in particular a counter has the last value set and the deltas
added since, and an addition that overflows is refused. -/
theorem no_update_lost (operation : O → Operation A V E)
    (lift : KvError → E) (committed : Option (Stored V))
    (inputs : List (Input O)) (counterInputs : List (Input CounterCall)) (now : Int) :
    Serial operation lift (rowOf committed)
      (rowOf (exec (step operation lift) inputs (System.start committed)).committed)
      (committedCalls (trace (step operation lift) inputs (System.start committed))) ∧
    fetchValue now (rowOf
      (exec (step counterOperation .kv) counterInputs (System.start none)).committed) =
      counted 0 (committedCalls (trace (step counterOperation .kv) counterInputs (System.start none))) ∧
    ∀ live delta, live + delta < -i64Max - 1 ∨ i64Max < live + delta →
      addDelta delta live = .error .counterArithmeticOverflow := by
  refine ⟨serial_run operation lift committed inputs, ?_, fun live delta hrange => ?_⟩
  · obtain ⟨⟨ws, hcalls, hhistory, hlegal⟩, -⟩ := serial_run counterOperation .kv none counterInputs
    rw [← counted_wrote, ← hcalls]
    exact counted_history hhistory hlegal nofun now
  · rw [addDelta, checkedAdd, if_neg (by omega)]
    rfl

end Runs

end Paranoid.KvCounter

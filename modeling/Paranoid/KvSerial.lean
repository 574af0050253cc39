import Paranoid.Chains
import Paranoid.KvLocking

namespace Paranoid.KvSerial

open Chains KvAtomic KvLocking Postgres Transitions

variable {O A V E : Type}

section Legal

variable (operation : O → Operation A V E) (lift : KvError → E)

/-- A write is what its operation makes of the row before it, and says so in its reply. A
mutation is the atomic one, whose callback saw the live value of that row. -/
def Legal (w : Write O A V) : Prop :=
  match operation w.op with
  | .mutateKeyAtomically decideMutation _ =>
      w.seen = liveValue w.now w.before ∧ ∃ answer, w.reply = .mutated answer ∧
      mutateKeyAtomically lift w.now w.delay (decideMutation w.now) w.before = .ok (answer, w.after)
  | .setBytes value ttl => w.reply = .set ∧
      ∃ row, setValueAndTtl w.now value ttl = .ok row ∧ w.after = some row
  | .setBytesIfNotExists value ttl => w.reply = .setIfNotExists true ∧ liveValue w.now w.before = none ∧
      ∃ row, setValueAndTtl w.now value ttl = .ok row ∧ w.after = some row
  | .deleteKey => w.reply = .deleted ∧ (liveValue w.now w.before).isSome ∧ w.after = none
  | .deleteExpiredKeysOnce => w.reply = .cleanedUp 1 ∧
      (∃ row, w.before = some row ∧ row.isLive w.now = false) ∧ w.after = none

end Legal

abbrev History (start : Option (Row V)) (ws : List (Write O A V)) (stop : Option (Row V)) : Prop :=
  Chained Write.before Write.after start ws stop

def Phase.Plain : Phase O V → Prop
  | .locked .. | .failed => False
  | _ => True

/-- The row as the transaction found it or wrote it: a placeholder is neither. -/
def base : Phase O V → Option (Stored V) → Option (Row V)
  | .locked _ true _ _, _ => none
  | _, working => rowOf working

variable {operation : O → Operation A V E} {lift : KvError → E} {start : Option (Row V)}
  {s : System O A V} {i : Nat} {phase : Phase O V}
  {written : List (Write O A V)} {working : Option (Stored V)}

theorem base_plain (h : Phase.Plain phase) : base phase working = rowOf working := by
  cases phase with
  | locked => exact h.elim
  | _ => rfl

/-- The uncommitted writes of the transaction that has the row lead to its contents. -/
structure Own (operation : O → Operation A V E) (lift : KvError → E) (committed : Option (Row V))
    (session : Session O A V) (working : Option (Stored V)) : Prop where
  legal : ∀ w ∈ session.written, Legal operation lift w
  chained : session.phase ≠ .failed → History committed session.written (base session.phase working)
  locked : ∀ op placeholder seen now, session.phase = .locked op placeholder seen now →
    working.isSome ∧ seen = liveValue now (base session.phase working)

/-- A transaction without the row has written nothing. -/
structure Clear (session : Session O A V) : Prop where
  written : session.written = []
  unlocked : ∀ op placeholder seen now, session.phase ≠ .locked op placeholder seen now

structure Inv (operation : O → Operation A V E) (lift : KvError → E)
    (start : Option (Row V)) (s : System O A V) :
    Prop where
  chained : History start s.log (rowOf s.committed)
  legal : ∀ w ∈ s.log, Legal operation lift w
  own : ∀ i working, s.holder = some (i, working) →
    Own operation lift (rowOf s.committed) (s.sessions i) working
  clear : ∀ i, (∀ working, s.holder ≠ some (i, working)) → Clear (s.sessions i)

theorem own_of_clear {session : Session O A V} {working : Option (Stored V)} (h : Clear session) :
    Own operation lift (rowOf working) session working := by
  refine ⟨?_, fun _ => ?_,
    fun op placeholder seen now hphase => absurd hphase (h.unlocked op placeholder seen now)⟩
  · rw [h.written]
    exact fun _ hw => nomatch hw
  · have hbase : base session.phase working = rowOf working := by
      cases hphase : session.phase with
      | locked op placeholder seen now => exact absurd hphase (h.unlocked op placeholder seen now)
      | _ => rfl
    rw [h.written, hbase]
    rfl

theorem own_cell (h : Inv operation lift start s) (hfree : s.blocked i = false) :
    Own operation lift (rowOf s.committed) (s.sessions i) (s.cell i) := by
  rw [System.blocked] at hfree
  rw [System.cell]
  cases hholder : s.holder with
  | none => exact own_of_clear (h.clear i fun working => by rw [hholder]; exact nofun)
  | some held =>
      obtain ⟨j, working⟩ := held
      have hji : j = i := by simpa [hholder] using hfree
      subst hji
      dsimp only
      rw [if_pos rfl]
      exact h.own j working hholder

theorem inv_hold (h : Inv operation lift start s) (hfree : s.blocked i = false)
    (hown : Own operation lift (rowOf s.committed) ⟨phase, written⟩ working) :
    Inv operation lift start (s.hold i working phase written) := by
  refine ⟨h.chained, h.legal, fun j working' hj => ?_, fun j hj => ?_⟩
  · obtain ⟨rfl, rfl⟩ := Prod.mk.inj (Option.some.inj hj)
    dsimp only [System.hold, System.put]
    rwa [Function.update_self]
  · have hne : j ≠ i := by
      rintro rfl
      exact hj working rfl
    dsimp only [System.hold, System.put]
    rw [Function.update_of_ne hne]
    refine h.clear j fun working' hholder => ?_
    rw [System.blocked, hholder] at hfree
    simp [hne] at hfree

/-- Outside of a lock the phase may change, and any transaction may fail. -/
theorem inv_enter (h : Inv operation lift start s)
    (hphase : phase = .failed ∨ Phase.Plain (s.sessions i).phase ∧ Phase.Plain phase) :
    Inv operation lift start (s.enter i phase) := by
  have hunlocked : ∀ op placeholder seen now, phase ≠ .locked op placeholder seen now := by
    rintro op placeholder seen now rfl
    rcases hphase with hfailed | ⟨-, hplain⟩
    · cases hfailed
    · exact hplain
  refine ⟨h.chained, h.legal, fun j working hj => ?_, fun j hj => ?_⟩
  · have hown := h.own j working hj
    by_cases hji : j = i
    · subst hji
      dsimp only [System.enter, System.put]
      rw [Function.update_self]
      refine ⟨hown.legal, fun hne => ?_,
        fun op placeholder seen now hlocked => absurd hlocked (hunlocked _ _ _ _)⟩
      rcases hphase with hfailed | ⟨hold, hnew⟩
      · exact absurd hfailed hne
      · have hchained := hown.chained (by intro hfailed; rw [hfailed] at hold; exact hold)
        rw [base_plain hold] at hchained
        rw [base_plain hnew]
        exact hchained
    · dsimp only [System.enter, System.put]
      rwa [Function.update_of_ne hji]
  · have hclear := h.clear j hj
    by_cases hji : j = i
    · subst hji
      dsimp only [System.enter, System.put]
      rw [Function.update_self]
      exact ⟨hclear.written, hunlocked⟩
    · dsimp only [System.enter, System.put]
      rwa [Function.update_of_ne hji]

theorem inv_next (h : Inv operation lift start s) (n : Nat) :
    Inv operation lift start { s with nextIncarnation := n } :=
  ⟨h.chained, h.legal, h.own, h.clear⟩

theorem rowOf_version (after : Option (Row V)) : rowOf (after.map (s.version i)) = after := by
  cases after with
  | none => rfl
  | some row =>
      rw [Option.map_some, System.version]
      cases s.cell i <;> rfl

section Steps

theorem own_statement (h : Inv operation lift start s) (hfree : s.blocked i = false)
    (hplain : Phase.Plain (s.sessions i).phase) :
    History (rowOf s.committed) (s.sessions i).written (rowOf (s.cell i)) := by
  have hchained := (own_cell h hfree).chained (by intro hfailed; rw [hfailed] at hplain; exact hplain)
  rwa [base_plain hplain] at hchained

/-- A statement that leaves the row locked but as it was. -/
theorem inv_keep (h : Inv operation lift start s) (hfree : s.blocked i = false)
    (hplain : Phase.Plain (s.sessions i).phase) :
    Inv operation lift start (s.hold i (s.cell i) .idle (s.sessions i).written) :=
  inv_hold h hfree ⟨(own_cell h hfree).legal, fun _ => own_statement h hfree hplain, nofun⟩

theorem inv_write {op : O} {now : Int} {reply : Reply A} {after : Option (Row V)}
    (h : Inv operation lift start s)
    (hfree : s.blocked i = false) (hplain : Phase.Plain (s.sessions i).phase)
    (hlegal : Legal operation lift ⟨op, reply, now, 0, none, rowOf (s.cell i), after⟩) :
    Inv operation lift start (write (E := E) s i op now reply after).1 := by
  refine inv_hold (inv_next h _) hfree ⟨fun w hw => ?_, fun _ => ?_, nofun⟩
  · rcases List.mem_append.1 hw with hw | hw
    · exact (own_cell h hfree).legal w hw
    · exact List.mem_singleton.1 hw ▸ hlegal
  · dsimp only [base]
    rw [rowOf_version]
    exact chained_concat (own_statement h hfree hplain)

theorem inv_fail (h : Inv operation lift start s) (e : KvError) :
    Inv operation lift start (fail (E := E) lift s i e).1 :=
  inv_enter h (.inl rfl)

theorem refused_plain (inCurrentTransaction : Bool) :
    (refusedPhase inCurrentTransaction : Phase O V) = .failed ∨
    Phase.Plain (refusedPhase inCurrentTransaction : Phase O V) := by
  cases inCurrentTransaction
  · exact .inl rfl
  · exact .inr trivial

variable {op : O} {now : Int} {snapshot : Option (Stored V)} {attempts : Nat}

theorem inv_lock [Inhabited V] (h : Inv operation lift start s) (hfree : s.blocked i = false)
    (hplain : Phase.Plain (s.sessions i).phase) (inCurrentTransaction : Bool) :
    Inv operation lift start
      (lockKeyForAtomicMutation lift s i op now snapshot inCurrentTransaction attempts).1 := by
  have hown := own_statement h hfree hplain
  rw [lockKeyForAtomicMutation]
  split
  · exact inv_fail h _
  · dsimp only
    split
    · rename_i hcell
      refine inv_hold (inv_next h _) hfree ⟨(own_cell h hfree).legal, fun _ => ?_, ?_⟩
      · rw [hcell] at hown
        exact hown
      · rintro op placeholder seen now ⟨⟩
        refine ⟨rfl, ?_⟩
        rw [liveValue_some]
        simp [Row.isLive, base, liveValue_none]
    · rename_i stored hcell
      rw [hcell] at hown
      split
      · refine inv_hold h hfree ⟨(own_cell h hfree).legal, fun _ => hown, ?_⟩
        rintro op placeholder seen now ⟨⟩
        exact ⟨rfl, rfl⟩
      · split
        · exact inv_enter h
            ((refused_plain inCurrentTransaction).imp_right fun hrefused => ⟨hplain, hrefused⟩)
        · exact inv_enter h (.inr ⟨hplain, trivial⟩)

theorem inv_deleteWhere {condition : Row V → Bool} {reply : Reply A} {otherwise : Except E (Reply A)}
    (h : Inv operation lift start s) (hfree : s.blocked i = false)
    (hplain : Phase.Plain (s.sessions i).phase)
    (hlegal : ∀ row, condition row = true →
      Legal operation lift (⟨op, reply, now, 0, none, some row, none⟩ : Write O A V)) :
    Inv operation lift start (deleteWhere s i op now snapshot condition reply otherwise).1 := by
  rw [deleteWhere]
  split
  · exact inv_enter h (.inr ⟨hplain, trivial⟩)
  · rename_i stored hcell
    split
    · split
      · rename_i hcondition
        refine inv_write h hfree hplain ?_
        rw [hcell]
        exact hlegal stored.row hcondition
      · rw [← hcell]
        exact inv_keep h hfree hplain
    · exact inv_enter h (.inr ⟨hplain, trivial⟩)

/-- A statement that reaches the row keeps the account of its transaction. -/
theorem inv_proceed [Inhabited V] (h : Inv operation lift start s)
    (hplain : Phase.Plain (s.sessions i).phase) :
    Inv operation lift start (proceed operation lift s i op now snapshot attempts).1 := by
  rw [proceed]
  split
  · split
    · exact h
    · rename_i hfree
      exact inv_lock h (by simpa using hfree) hplain _
  · rename_i value ttl hop
    split
    · exact h
    · rename_i hfree
      rw [setBytes]
      split
      · exact inv_fail h _
      · rename_i row hrow
        refine inv_write h (by simpa using hfree) hplain ?_
        rw [Legal, hop]
        exact ⟨rfl, row, hrow, rfl⟩
  · rename_i value ttl hop
    split
    · exact h
    · rename_i hfree
      rw [setBytesIfNotExists]
      split
      · exact inv_fail h _
      · rename_i row hrow
        split
        · rename_i hdead
          refine inv_write h (by simpa using hfree) hplain ?_
          rw [Legal, hop]
          exact ⟨rfl, by simpa using hdead, row, hrow, rfl⟩
        · exact inv_keep h (by simpa using hfree) hplain
  · rename_i hop
    split
    · exact inv_enter h (.inr ⟨hplain, trivial⟩)
    · split
      · exact h
      · rename_i hfree
        refine inv_deleteWhere h (by simpa using hfree) hplain fun row hlive => ?_
        rw [Legal, hop]
        exact ⟨rfl, by simp [liveValue_some, hlive], rfl⟩
  · rename_i hop
    split
    · exact inv_enter h (.inr ⟨hplain, trivial⟩)
    · rename_i hfree
      rw [Bool.or_eq_true, not_or] at hfree
      refine inv_deleteWhere h (by simpa using hfree.2) hplain fun row hdead => ?_
      rw [Legal, hop]
      exact ⟨rfl, ⟨row, rfl, by simpa using hdead⟩, rfl⟩

end Steps

section Decisions

variable {op : O} {now : Int} {delay : Nat} {placeholder : Bool} {seen : Option V}

theorem blocked_locked (h : Inv operation lift start s)
    (hphase : (s.sessions i).phase = .locked op placeholder seen now) :
    s.blocked i = false := by
  by_contra hblocked
  refine (h.clear i fun working hholder => ?_).unlocked _ _ _ _ hphase
  rw [System.blocked, hholder] at hblocked
  simp at hblocked

/-- The row that a locked key had before its mutation. -/
def undone (placeholder : Bool) (stored : Stored V) : Option (Stored V) :=
  if placeholder then none else some stored

theorem base_locked (stored : Stored V) :
    base (.locked op placeholder seen now) (some stored) = rowOf (undone placeholder stored) := by
  cases placeholder <;> rfl

/-- A mutation that has locked the row decides on its live value. -/
theorem own_locked {stored : Stored V} (h : Inv operation lift start s)
    (hphase : (s.sessions i).phase = .locked op placeholder seen now) (hcell : s.cell i = some stored) :
    History (rowOf s.committed) (s.sessions i).written (rowOf (undone placeholder stored)) ∧
      seen = liveValue now (rowOf (undone placeholder stored)) := by
  have hown := own_cell h (blocked_locked h hphase)
  have hchained := hown.chained (by rw [hphase]; exact nofun)
  have hseen := (hown.locked op placeholder seen now hphase).2
  rw [hphase, hcell, base_locked] at hchained hseen
  exact ⟨hchained, hseen⟩

theorem inv_mutated {stored : Stored V}
    {decideMutation : Int → Option V → Except E (A × AtomicMutation V)}
    {inCurrentTransaction : Bool} {answer : A} {mutation : AtomicMutation V} (after : Option (Stored V))
    (h : Inv operation lift start s) (hphase : (s.sessions i).phase = .locked op placeholder seen now)
    (hcell : s.cell i = some stored)
    (hop : operation op = .mutateKeyAtomically decideMutation inCurrentTransaction)
    (hdecide : decideMutation now seen = .ok (answer, mutation))
    (hafter : ∀ decideMutation : Option V → Except E (A × AtomicMutation V),
      decideMutation (liveValue now (rowOf (undone placeholder stored))) = .ok (answer, mutation) →
      mutateKeyAtomically lift now delay decideMutation (rowOf (undone placeholder stored)) =
        .ok (answer, rowOf after)) :
    Inv operation lift start (s.hold i after .idle ((s.sessions i).written ++
      [⟨op, .mutated answer, now, delay, seen, rowOf (undone placeholder stored), rowOf after⟩])) := by
  obtain ⟨hchained, hseen⟩ := own_locked h hphase hcell
  have hfree := blocked_locked h hphase
  refine inv_hold h hfree ⟨fun w hw => ?_, fun _ => chained_concat hchained, nofun⟩
  rcases List.mem_append.1 hw with hw | hw
  · exact (own_cell h hfree).legal w hw
  · obtain rfl := List.mem_singleton.1 hw
    rw [Legal, hop]
    exact ⟨hseen, answer, rfl, hafter (decideMutation now) (by rw [← hseen]; exact hdecide)⟩

/-- A mutation that is refused leaves the row as it was, or fails its transaction. -/
theorem inv_refused {stored : Stored V} (undo : Bool) {inCurrentTransaction : Bool}
    (h : Inv operation lift start s) (hphase : (s.sessions i).phase = .locked op placeholder seen now)
    (hcell : s.cell i = some stored) (hundo : inCurrentTransaction = true → undo = true) :
    Inv operation lift start (s.hold i (if undo then undone placeholder stored else some stored)
      (refusedPhase inCurrentTransaction) (s.sessions i).written) := by
  obtain ⟨hchained, -⟩ := own_locked h hphase hcell
  have hfree := blocked_locked h hphase
  cases inCurrentTransaction with
  | false => exact inv_hold h hfree ⟨(own_cell h hfree).legal, fun hne => absurd rfl hne, nofun⟩
  | true =>
      rw [hundo rfl]
      exact inv_hold h hfree ⟨(own_cell h hfree).legal, fun _ => hchained, nofun⟩

theorem inv_decide (h : Inv operation lift start s)
    (hphase : (s.sessions i).phase = .locked op placeholder seen now) :
    Inv operation lift start
      (applyAtomicMutation operation lift s i op placeholder seen now delay).1 := by
  rw [applyAtomicMutation]
  split
  · rename_i decideMutation inCurrentTransaction stored hop hcell
    dsimp only
    split
    · exact inv_refused _ h hphase hcell id
    · rename_i answer hdecide
      refine inv_mutated _ h hphase hcell hop hdecide fun decideMutation hdecide => ?_
      rw [mutateKeyAtomically, hdecide]
      rfl
    · rename_i answer value ttl hdecide
      split
      · exact inv_fail h _
      · rename_i row hrow
        refine inv_mutated (some { stored with row }) h hphase
          hcell hop hdecide fun decideMutation hdecide => ?_
        rw [mutateKeyAtomically, hdecide]
        dsimp only [ok_bind]
        rw [hrow]
        rfl
    · rename_i answer value hdecide
      split
      · exact inv_refused true h hphase hcell fun _ => rfl
      · rename_i hlive
        refine inv_mutated (some { stored with row := { stored.row with value } })
          h hphase hcell hop hdecide
          fun decideMutation hdecide => ?_
        rw [(own_locked h hphase hcell).2] at hlive
        cases placeholder with
        | true => simp [undone, rowOf, liveValue_none] at hlive
        | false =>
            have hrow : stored.row.isLive now = true := by
              by_contra hdead
              simp [undone, rowOf, liveValue_some, hdead] at hlive
            rw [mutateKeyAtomically, hdecide]
            simp [undone, rowOf, Option.filter, hrow]
    · rename_i answer hdecide
      refine inv_mutated none h hphase hcell hop hdecide fun decideMutation hdecide => ?_
      rw [mutateKeyAtomically, hdecide]
      rfl
  · exact h

end Decisions

section Ends

theorem inv_release {committed : Option (Stored V)} {log : List (Write O A V)}
    (h : Inv operation lift start s) (hchained : History start log (rowOf committed))
    (hlegal : ∀ w ∈ log, Legal operation lift w)
    (hblocked : s.blocked i = true → committed = s.committed) :
    Inv operation lift start (release s i committed log) := by
  have hclear : Clear (⟨.idle, []⟩ : Session O A V) := ⟨rfl, nofun⟩
  refine ⟨hchained, hlegal, fun j working hj => ?_, fun j hj => ?_⟩
  · dsimp only [release, System.put] at hj ⊢
    split at hj
    · rename_i hheld
      have hne : j ≠ i := by
        rintro rfl
        rw [System.blocked, hj] at hheld
        simp at hheld
      rw [Function.update_of_ne hne, hblocked hheld]
      exact h.own j working hj
    · cases hj
  · dsimp only [release, System.put] at hj ⊢
    by_cases hji : j = i
    · rw [hji, Function.update_self]
      exact hclear
    · rw [Function.update_of_ne hji]
      refine h.clear j fun working hholder => ?_
      have hheld : s.blocked i = true := by simp [System.blocked, hholder, hji]
      rw [if_pos hheld] at hj
      exact hj working hholder

theorem inv_commit (h : Inv operation lift start s) (hphase : (s.sessions i).phase = .idle) :
    Inv operation lift start (release s i (s.cell i) (s.log ++ (s.sessions i).written)) := by
  cases hblocked : s.blocked i with
  | true =>
      have hclear : Clear (s.sessions i) := by
        refine h.clear i fun working hholder => ?_
        rw [System.blocked, hholder] at hblocked
        simp at hblocked
      have hcell : s.cell i = s.committed := by
        rw [System.blocked, Option.any_eq_true] at hblocked
        obtain ⟨⟨j, working⟩, hholder, hji⟩ := hblocked
        rw [System.cell, hholder]
        exact if_neg (of_decide_eq_true hji)
      rw [hclear.written, List.append_nil, hcell]
      exact inv_release h h.chained h.legal fun _ => rfl
  | false =>
      have hplain : Phase.Plain (s.sessions i).phase := by rw [hphase]; trivial
      refine inv_release h (chained_append.2 ⟨_, h.chained, own_statement h hblocked hplain⟩)
        (fun w hw => ?_) ?_
      · rcases List.mem_append.1 hw with hw | hw
        · exact h.legal w hw
        · exact (own_cell h hblocked).legal w hw
      · rw [hblocked]
        exact nofun

theorem inv_step [Inhabited V] (input : Input O) (s : System O A V) (h : Inv operation lift start s) :
    Inv operation lift start (step operation lift input s).1 := by
  cases input with
  | call i op now =>
      rw [step]
      split
      · rename_i hphase
        exact inv_enter h (.inr ⟨by rw [hphase]; trivial, trivial⟩)
      · exact h
  | retry i now =>
      rw [step]
      split
      · rename_i hphase
        exact inv_enter h (.inr ⟨by rw [hphase]; trivial, trivial⟩)
      · exact h
  | proceed i =>
      rw [step]
      split
      · rename_i hphase
        exact inv_proceed h (by rw [hphase]; trivial)
      · exact h
  | decide i delay =>
      rw [step]
      split
      · rename_i hphase
        exact inv_decide h hphase
      · exact h
  | commit i =>
      rw [step]
      split
      · rename_i hphase
        exact inv_commit h hphase
      · exact h
  | rollback i => exact inv_release h h.chained h.legal fun _ => rfl

theorem inv_start (committed : Option (Stored V)) :
    Inv operation lift (rowOf committed) (System.start committed : System O A V) :=
  ⟨rfl, fun _ hw => absurd hw List.not_mem_nil, fun _ _ hheld => (by cases hheld),
    fun _ _ => ⟨rfl, nofun⟩⟩

end Ends

section Observed

/-- A reply is of the kind of its operation. -/
def Answers : Operation A V E → Reply A → Prop
  | .mutateKeyAtomically .., .mutated _ | .setBytes .., .set | .setBytesIfNotExists .., .setIfNotExists _
  | .deleteKey, .deleted | .deleteExpiredKeysOnce, .cleanedUp _ => True
  | _, _ => False

theorem wrote_append (calls more : List (O × Reply A)) : wrote (calls ++ more) = wrote calls ++ wrote more :=
  List.filter_append ..

/-- What a step of the call `op` makes of its session. -/
def Returns (operation : O → Operation A V E) (op : O) (old new : Session O A V) : Output A E → Prop
  | none => new.written = old.written ∧ new.phase.op = some op
  | some (.error _) => new.written = old.written ∧ (new.phase = .failed ∨ new.phase = .idle)
  | some (.ok reply) => Answers (operation op) reply ∧ new.phase = .idle ∧
      new.written.map Write.call = old.written.map Write.call ++ wrote [(op, reply)]

/-- A step of a call of one session leaves the others alone, and commits nothing. -/
structure Calls (operation : O → Operation A V E) (s : System O A V) (i : Nat) (op : O)
    (result : System O A V × Output A E) : Prop where
  log : result.1.log = s.log
  others : ∀ j, j ≠ i → result.1.sessions j = s.sessions j
  session : Returns operation op (s.sessions i) (result.1.sessions i) result.2

/-- The observer knows of the system what it has been told. -/
structure Agrees (operation : O → Operation A V E) (o : Observed O A) (s : System O A V) : Prop where
  committed : wrote o.committed = s.log.map Write.call
  pending : ∀ j, wrote (o.pending j) = (s.sessions j).written.map Write.call
  underWay : ∀ j, (s.sessions j).phase = .failed ∨ o.underWay j = (s.sessions j).phase.op
  answers : ∀ call ∈ o.committed, Answers (operation call.1) call.2
  pendingAnswers : ∀ j, ∀ call ∈ o.pending j, Answers (operation call.1) call.2

section Calls

variable {op : O} {now : Int} {snapshot : Option (Stored V)} {output : Output A E}

theorem calls_hold (n : Nat) (h : Returns operation op (s.sessions i) ⟨phase, written⟩ output) :
    Calls operation s i op
      (({ s with nextIncarnation := n } : System O A V).hold i working phase written, output) := by
  refine ⟨rfl, fun j hj => Function.update_of_ne hj _ _, ?_⟩
  dsimp only [System.hold, System.put]
  rw [Function.update_self]
  exact h

theorem calls_enter (h : Returns operation op (s.sessions i) { s.sessions i with phase } output) :
    Calls operation s i op (s.enter i phase, output) := by
  refine ⟨rfl, fun j hj => Function.update_of_ne hj _ _, ?_⟩
  dsimp only [System.enter, System.put]
  rw [Function.update_self]
  exact h

theorem calls_fail (e : KvError) : Calls operation s i op (fail lift s i e) :=
  calls_enter ⟨rfl, .inl rfl⟩

/-- A statement that waits for the row. -/
theorem calls_waits (hop : (s.sessions i).phase.op = some op) : Calls operation s i op (s, none) :=
  ⟨rfl, fun _ _ => rfl, rfl, hop⟩

theorem refusedPhase_ends (inCurrentTransaction : Bool) :
    (refusedPhase inCurrentTransaction : Phase O V) = .failed ∨
      (refusedPhase inCurrentTransaction : Phase O V) = .idle := by
  cases inCurrentTransaction
  · exact .inl rfl
  · exact .inr rfl

theorem calls_write {reply : Reply A} (hanswers : Answers (operation op) reply)
    (hwrote : reply.wrote = true) (after : Option (Row V)) :
    Calls operation s i op (write s i op now reply after) := by
  refine calls_hold _ ⟨hanswers, rfl, ?_⟩
  rw [List.map_append, wrote, List.filter_singleton, hwrote]
  rfl

/-- An operation that found nothing to write. -/
theorem returns_nothing {reply : Reply A} (hanswers : Answers (operation op) reply)
    (hwrote : reply.wrote = false) :
    Returns operation op (s.sessions i) { s.sessions i with phase := .idle }
      (some (.ok reply)) := by
  refine ⟨hanswers, rfl, ?_⟩
  rw [wrote, List.filter_singleton, hwrote]
  exact (List.append_nil _).symm

theorem calls_deleteWhere {condition : Row V → Bool} {reply : Reply A} {otherwise : Except E (Reply A)}
    (hanswers : Answers (operation op) reply) (hwrote : reply.wrote = true)
    (hotherwise : Returns operation op (s.sessions i)
      { s.sessions i with phase := .idle } (some otherwise)) :
    Calls operation s i op (deleteWhere s i op now snapshot condition reply otherwise) := by
  rw [deleteWhere]
  split
  · exact calls_enter hotherwise
  · split
    · split
      · exact calls_write hanswers hwrote none
      · exact calls_hold _ hotherwise
    · exact calls_enter hotherwise

theorem calls_lock [Inhabited V] (attempts : Nat) (inCurrentTransaction : Bool) :
    Calls operation s i op
      (lockKeyForAtomicMutation lift s i op now snapshot inCurrentTransaction attempts) := by
  rw [lockKeyForAtomicMutation]
  split
  · exact calls_fail _
  · dsimp only
    split
    · exact calls_hold _ ⟨rfl, rfl⟩
    · split
      · exact calls_hold _ ⟨rfl, rfl⟩
      · split
        · exact calls_enter ⟨rfl, refusedPhase_ends inCurrentTransaction⟩
        · exact calls_enter ⟨rfl, rfl⟩

theorem calls_proceed [Inhabited V] (hphase : (s.sessions i).phase.op = some op) (attempts : Nat) :
    Calls operation s i op (proceed operation lift s i op now snapshot attempts) := by
  rw [proceed]
  split
  · split
    · exact calls_waits hphase
    · exact calls_lock attempts _
  · rename_i hop
    have hanswers : Answers (operation op) (.set : Reply A) := by rw [hop]; trivial
    split
    · exact calls_waits hphase
    · rw [setBytes]
      split
      · exact calls_fail _
      · exact calls_write hanswers rfl _
  · rename_i hop
    have hanswers : ∀ didSet, Answers (operation op) (.setIfNotExists didSet : Reply A) := by
      rw [hop]
      exact fun _ => trivial
    split
    · exact calls_waits hphase
    · rw [setBytesIfNotExists]
      split
      · exact calls_fail _
      · split
        · exact calls_write (hanswers true) rfl _
        · exact calls_hold _ (returns_nothing (hanswers false) rfl)
  · rename_i hop
    have hanswers : Answers (operation op) (.deleted : Reply A) := by rw [hop]; trivial
    have hmissing : Returns operation op (s.sessions i) { s.sessions i with phase := .idle }
        (some (.error (lift .keyNotFound))) := ⟨rfl, .inr rfl⟩
    split
    · exact calls_enter hmissing
    · split
      · exact calls_waits hphase
      · exact calls_deleteWhere hanswers rfl hmissing
  · rename_i hop
    have hanswers : ∀ count, Answers (operation op) (.cleanedUp count : Reply A) := by
      rw [hop]
      exact fun _ => trivial
    split
    · exact calls_enter (returns_nothing (hanswers 0) rfl)
    · exact calls_deleteWhere (hanswers 1) rfl (returns_nothing (hanswers 0) rfl)

theorem calls_applyAtomicMutation {placeholder : Bool} {seen : Option V}
    (hphase : (s.sessions i).phase = .locked op placeholder seen now) (delay : Nat) :
    Calls operation s i op (applyAtomicMutation operation lift s i op placeholder seen now delay) := by
  rw [applyAtomicMutation]
  split
  · rename_i decideMutation inCurrentTransaction stored hop hcell
    have hmutated : ∀ (answer : A) (w : Write O A V), w.call = (op, .mutated answer) →
        Returns operation op (s.sessions i) ⟨.idle, (s.sessions i).written ++ [w]⟩
          (some (.ok (.mutated answer)) : Output A E) := by
      intro answer w hw
      refine ⟨by rw [hop]; trivial, rfl, ?_⟩
      rw [List.map_append, List.map_singleton, hw]
      rfl
    have hrefused : ∀ e, Returns operation op (s.sessions i)
        ⟨refusedPhase inCurrentTransaction, (s.sessions i).written⟩ (some (.error e)) :=
      fun e => ⟨rfl, refusedPhase_ends inCurrentTransaction⟩
    dsimp only
    split
    · exact calls_hold _ (hrefused _)
    · exact calls_hold _ (hmutated _ _ rfl)
    · split
      · exact calls_fail _
      · exact calls_hold _ (hmutated _ _ rfl)
    · split
      · exact calls_hold _ (hrefused _)
      · exact calls_hold _ (hmutated _ _ rfl)
    · exact calls_hold _ (hmutated _ _ rfl)
  · exact calls_waits (by rw [hphase]; rfl)

end Calls

section Observe

variable {o : Observed O A} {op : O} {output : Output A E}

/-- A call that returns is told to the observer with its reply. -/
theorem agrees_returned {s' : System O A V} (h : Agrees operation o s)
    (hphase : (s.sessions i).phase.op = some op) (hcalls : Calls operation s i op (s', output)) :
    Agrees operation (o.returned i output) s' := by
  have hunderWay : o.underWay i = some op := by
    rcases h.underWay i with hfailed | hsame
    · rw [hfailed] at hphase
      cases hphase
    · rw [hsame, hphase]
  obtain ⟨hlog, hothers, hsession⟩ := hcalls
  dsimp only at hlog hothers hsession
  have hkept : (s'.sessions i).written = (s.sessions i).written →
      ∀ j, wrote (o.pending j) = (s'.sessions j).written.map Write.call := by
    intro hwritten j
    by_cases hj : j = i
    · rw [hj, hwritten]
      exact h.pending i
    · rw [hothers j hj]
      exact h.pending j
  match output, hsession with
  | none, ⟨hwritten, hop⟩ =>
      refine ⟨hlog ▸ h.committed, hkept hwritten, fun j => ?_, h.answers, h.pendingAnswers⟩
      by_cases hj : j = i
      · rw [hj, hop]
        exact .inr hunderWay
      · rw [hothers j hj]
        exact h.underWay j
  | some (.error e), ⟨hwritten, hends⟩ =>
      refine ⟨hlog ▸ h.committed, hkept hwritten, fun j => ?_, h.answers, h.pendingAnswers⟩
      dsimp only [Observed.returned]
      by_cases hj : j = i
      · rw [hj, Function.update_self]
        exact hends.imp_right fun hidle => by rw [hidle]; rfl
      · rw [Function.update_of_ne hj, hothers j hj]
        exact h.underWay j
  | some (.ok reply), ⟨hanswers, hidle, hwritten⟩ =>
      refine ⟨hlog ▸ h.committed, fun j => ?_, fun j => ?_, h.answers, fun j call hcall => ?_⟩
      · dsimp only [Observed.returned]
        by_cases hj : j = i
        · rw [hj, Function.update_self, hunderWay, wrote_append, h.pending, hwritten]
          rfl
        · rw [Function.update_of_ne hj, hothers j hj]
          exact h.pending j
      · dsimp only [Observed.returned]
        by_cases hj : j = i
        · rw [hj, Function.update_self, hidle]
          exact .inr rfl
        · rw [Function.update_of_ne hj, hothers j hj]
          exact h.underWay j
      · dsimp only [Observed.returned] at hcall
        by_cases hj : j = i
        · rw [hj, Function.update_self, hunderWay] at hcall
          rcases List.mem_append.1 hcall with hcall | hcall
          · exact h.pendingAnswers i call hcall
          · rw [List.mem_singleton.1 hcall]
            exact hanswers
        · rw [Function.update_of_ne hj] at hcall
          exact h.pendingAnswers j call hcall

/-- The transaction of a session ends: its calls are those that have committed, or none. -/
theorem agrees_ended {committed : Option (Stored V)} {log : List (Write O A V)}
    {calls : List (O × Reply A)} (h : Agrees operation o s)
    (hcommitted : wrote calls = log.map Write.call)
    (hanswers : ∀ call ∈ calls, Answers (operation call.1) call.2) :
    Agrees operation (o.ended i calls) (release s i committed log) := by
  refine ⟨hcommitted, fun j => ?_, fun j => ?_, hanswers, fun j call hcall => ?_⟩
  · dsimp only [Observed.ended, release, System.put]
    by_cases hj : j = i
    · rw [hj, Function.update_self, Function.update_self]
      rfl
    · rw [Function.update_of_ne hj, Function.update_of_ne hj]
      exact h.pending j
  · dsimp only [Observed.ended, release, System.put]
    by_cases hj : j = i
    · rw [hj, Function.update_self, Function.update_self]
      exact .inr rfl
    · rw [Function.update_of_ne hj, Function.update_of_ne hj]
      exact h.underWay j
  · dsimp only [Observed.ended] at hcall
    by_cases hj : j = i
    · rw [hj, Function.update_self] at hcall
      cases hcall
    · rw [Function.update_of_ne hj] at hcall
      exact h.pendingAnswers j call hcall

/-- A session with a call under way takes no other; one that has failed takes none. -/
theorem agrees_call [Inhabited V] (h : Agrees operation o s) (op : O) (now : Int) :
    Agrees operation (observe (.call i op now, output) o) (step operation lift (.call i op now) s).1 := by
  rw [step]
  split
  · rename_i hidle
    refine ⟨h.committed, fun j => ?_, fun j => ?_, h.answers, h.pendingAnswers⟩
    · dsimp only [observe, System.enter, System.put]
      by_cases hj : j = i
      · rw [hj, Function.update_self]
        exact h.pending i
      · rw [Function.update_of_ne hj]
        exact h.pending j
    · dsimp only [observe, System.enter, System.put]
      by_cases hj : j = i
      · have hnone := (h.underWay i).resolve_left (by rw [hidle]; exact nofun)
        rw [hidle] at hnone
        rw [hj, Function.update_self, Function.update_self, hnone]
        exact .inr rfl
      · rw [Function.update_of_ne hj, Function.update_of_ne hj]
        exact h.underWay j
  · rename_i hbusy
    refine ⟨h.committed, h.pending, fun j => ?_, h.answers, h.pendingAnswers⟩
    dsimp only [observe]
    by_cases hj : j = i
    · rw [hj, Function.update_self]
      cases hphase : (s.sessions i).phase with
      | idle => exact absurd hphase hbusy
      | failed => exact .inl rfl
      | statement | retrying | locked =>
          have hsame := (h.underWay i).resolve_left (by rw [hphase]; exact nofun)
          rw [hsame, hphase]
          exact .inr rfl
    · rw [Function.update_of_ne hj]
      exact h.underWay j

/-- A step of the system is one that the observer is told of. -/
theorem agrees_step [Inhabited V] (lift : KvError → E) (input : Input O) (h : Agrees operation o s) :
    Agrees operation (observe (input, (step operation lift input s).2) o)
      (step operation lift input s).1 := by
  cases input with
  | call i op now => exact agrees_call h op now
  | retry i now =>
      dsimp only [observe]
      rw [step]
      split
      · rename_i op attempts hphase
        exact agrees_returned h (by rw [hphase]; rfl) (calls_enter ⟨rfl, rfl⟩)
      · exact h
  | proceed i =>
      dsimp only [observe]
      rw [step]
      split
      · rename_i op attempts now snapshot hphase
        have hop : (s.sessions i).phase.op = some op := by rw [hphase]; rfl
        exact agrees_returned h hop (calls_proceed hop attempts)
      · exact h
  | decide i delay =>
      dsimp only [observe]
      rw [step]
      split
      · rename_i hphase
        exact agrees_returned h (by rw [hphase]; rfl) (calls_applyAtomicMutation hphase delay)
      · exact h
  | commit i =>
      rw [step]
      split
      · refine agrees_ended h ?_ fun call hcall => ?_
        · rw [wrote_append, List.map_append, h.committed, h.pending]
        · rcases List.mem_append.1 hcall with hcall | hcall
          · exact h.answers call hcall
          · exact h.pendingAnswers i call hcall
      · exact h
  | rollback i => exact agrees_ended h h.committed h.answers

theorem agrees_start (committed : Option (Stored V)) :
    Agrees operation (.start : Observed O A) (System.start committed : System O A V) :=
  ⟨rfl, fun _ => rfl, fun _ => .inr rfl, nofun, fun _ => nofun⟩

/-- At the end of a run the observer knows the calls of the log. -/
theorem agrees_run [Inhabited V] (lift : KvError → E) (inputs : List (Input O))
    (h : Agrees operation o s) :
    Agrees operation ((trace (step operation lift) inputs s).foldl (fun o entry => observe entry o) o)
      (exec (step operation lift) inputs s) := by
  induction inputs generalizing o s with
  | nil => exact h
  | cons input inputs ih =>
      rw [exec_cons, trace_cons, List.foldl_cons]
      exact ih (agrees_step lift input h)

end Observe

end Observed

end Paranoid.KvSerial

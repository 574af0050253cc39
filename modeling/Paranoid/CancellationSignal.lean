import Paranoid.Transitions

namespace Paranoid.CancellationSignal

open Function List Transitions

variable {ν φ : Type}

section Model

/-- A notifier of the runtime. A future that was created before a call of `notify_waiters` is woken by
it, polled or not, and stays so. -/
structure Notify (ν φ : Type) where
  new : ν
  notified : ν → φ
  notifyWaiters : ν → ν
  ready : ν → φ → Bool
  wakes : ∀ n, ready (notifyWaiters n) (notified n) = true

/-- Where a call of `wait_until_cancellation_requested` is, from one atomic step to the next. -/
inductive Waiter (φ : Type)
  | entering
  | creating
  | rechecking (notified : φ)
  | awaiting (notified : φ)
  | returned

/-- Where a call of `request_cancellation` is. It returns whether it was the first. -/
inductive Requester
  | calling
  | notifying
  | returned (first : Bool)
  deriving DecidableEq

/-- A signal with everybody that has a copy of it. -/
structure State (ν φ : Type) where
  requested : Bool
  notify : ν
  waiters : Nat → Waiter φ
  requesters : Nat → Requester

inductive Event
  | waiter (i : Nat)
  | requester (i : Nat)
  deriving DecidableEq

variable (notify : Notify ν φ)

def start : State ν φ := ⟨false, notify.new, fun _ => .entering, fun _ => .calling⟩

def waitUntilCancellationRequested (requested : Bool) (n : ν) : Waiter φ → Waiter φ
  | .entering => if requested then .returned else .creating
  | .creating => .rechecking (notify.notified n)
  | .rechecking notified => if requested then .returned else .awaiting notified
  | .awaiting notified => if notify.ready n notified then .entering else .awaiting notified
  | .returned => .returned

/-- The swap and the notification are two steps. -/
def requestCancellation (i : Nat) (s : State ν φ) : State ν φ :=
  match s.requesters i, s.requested with
  | .calling, true => { s with requesters := update s.requesters i (.returned false) }
  | .calling, false => { s with requested := true, requesters := update s.requesters i .notifying }
  | .notifying, _ =>
      { s with
        notify := notify.notifyWaiters s.notify
        requesters := update s.requesters i (.returned true) }
  | .returned _, _ => s

def step (event : Event) (s : State ν φ) : State ν φ × Unit :=
  match event with
  | .waiter i =>
      let waiter := waitUntilCancellationRequested notify s.requested s.notify (s.waiters i)
      ({ s with waiters := update s.waiters i waiter }, ())
  | .requester i => (requestCancellation notify i s, ())

end Model

section Invariant

variable {notify : Notify ν φ} {s : State ν φ} {event : Event}

/-- What a waiter knows: a future that it awaits is older than the notification. -/
def Knows (notify : Notify ν φ) (requested : Bool) : Waiter φ → Prop
  | .rechecking notified => notified = notify.notified notify.new ∨ requested = true
  | .awaiting notified => notified = notify.notified notify.new
  | .returned => requested = true
  | _ => True

structure Quiet (notify : Notify ν φ) (s : State ν φ) : Prop where
  requested : s.requested = false
  notify : s.notify = notify.new
  calling : ∀ i, s.requesters i = .calling

/-- One requester has set the flag, and it alone notifies. -/
structure Led (notify : Notify ν φ) (s : State ν φ) (first : Nat) : Prop where
  requested : s.requested = true
  others : ∀ i ≠ first, s.requesters i = .calling ∨ s.requesters i = .returned false
  notify : s.requesters first = .notifying ∧ s.notify = notify.new ∨
    s.requesters first = .returned true ∧ s.notify = notify.notifyWaiters notify.new

structure Inv (notify : Notify ν φ) (s : State ν φ) : Prop where
  waiters : ∀ i, Knows notify s.requested (s.waiters i)
  requesters : Quiet notify s ∨ ∃ first, Led notify s first

theorem knows_mono {waiter : Waiter φ} {requested requested' : Bool} (h : Knows notify requested waiter)
    (hrequested : requested = true → requested' = true) : Knows notify requested' waiter := by
  cases waiter with
  | entering | creating => trivial
  | rechecking notified => exact h.imp id hrequested
  | awaiting notified => exact h
  | returned => exact hrequested h

/-- A future that was created while nobody had set the flag is older than the notification. -/
theorem notify_of_not_requested (h : Inv notify s) (hrequested : s.requested ≠ true) :
    s.notify = notify.new := by
  rcases h.requesters with hquiet | ⟨first, hled⟩
  · exact hquiet.notify
  · exact absurd hled.requested hrequested

theorem knows_step (h : Inv notify s) (i : Nat) : Knows notify s.requested
    (waitUntilCancellationRequested notify s.requested s.notify (s.waiters i)) := by
  have hknows := h.waiters i
  cases hwaiter : s.waiters i with
  | entering =>
      simp only [waitUntilCancellationRequested]
      split
      · assumption
      · trivial
  | creating =>
      by_cases hrequested : s.requested = true
      · exact .inr hrequested
      · exact .inl (congrArg notify.notified (notify_of_not_requested h hrequested))
  | rechecking notified =>
      rw [hwaiter] at hknows
      simp only [waitUntilCancellationRequested]
      split
      · assumption
      · exact hknows.resolve_right ‹_›
  | awaiting notified =>
      rw [hwaiter] at hknows
      simp only [waitUntilCancellationRequested]
      split
      · trivial
      · exact hknows
  | returned =>
      rw [hwaiter] at hknows
      exact hknows

theorem led_request (i : Nat) {first : Nat} (h : Led notify s first) :
    Led notify (requestCancellation notify i s) first := by
  by_cases hi : i = first
  · subst hi
    rcases h.notify with ⟨hnotifying, hnew⟩ | ⟨hreturned, hnew⟩
    · simp only [requestCancellation, hnotifying]
      refine ⟨h.requested, ?_, .inr ⟨update_self .., congrArg _ hnew⟩⟩
      intro j hj
      simp only [update_of_ne hj]
      exact h.others j hj
    · simp only [requestCancellation, hreturned]
      exact h
  · rcases h.others i hi with hcalling | hreturned
    · simp only [requestCancellation, hcalling, h.requested]
      refine ⟨rfl, ?_, ?_⟩
      · intro j hj
        by_cases hji : j = i
        · subst hji
          exact .inr (update_self ..)
        · simp only [update_of_ne hji]
          exact h.others j hj
      · simp only [update_of_ne (Ne.symm hi)]
        exact h.notify
    · simp only [requestCancellation, hreturned]
      exact h

theorem led_of_quiet (i : Nat) (h : Quiet notify s) : Led notify (requestCancellation notify i s) i := by
  simp only [requestCancellation, h.calling, h.requested]
  refine ⟨rfl, ?_, .inl ⟨update_self .., h.notify⟩⟩
  intro j hj
  simp only [update_of_ne hj]
  exact .inl (h.calling j)

theorem waiters_request (i : Nat) (s : State ν φ) :
    (requestCancellation notify i s).waiters = s.waiters := by
  rw [requestCancellation]
  split <;> rfl

theorem requested_request (i : Nat) (h : s.requested = true) :
    (requestCancellation notify i s).requested = true := by
  rw [requestCancellation]
  split
  · exact h
  · rfl
  · exact h
  · exact h

theorem inv_step (event : Event) (h : Inv notify s) : Inv notify (step notify event s).1 := by
  cases event with
  | waiter i =>
      refine ⟨?_, ?_⟩
      · intro j
        by_cases hj : j = i
        · subst hj
          simp only [step, update_self]
          exact knows_step h j
        · simp only [step, update_of_ne hj]
          exact h.waiters j
      · rcases h.requesters with hquiet | ⟨first, hled⟩
        · exact .inl ⟨hquiet.requested, hquiet.notify, hquiet.calling⟩
        · exact .inr ⟨first, hled.requested, hled.others, hled.notify⟩
  | requester i =>
      refine ⟨?_, .inr ?_⟩
      · intro j
        simp only [step, waiters_request]
        exact knows_mono (h.waiters j) (requested_request i)
      · rcases h.requesters with hquiet | ⟨first, hled⟩
        · exact ⟨i, led_of_quiet i hquiet⟩
        · exact ⟨first, led_request i hled⟩

theorem inv_exec (notify : Notify ν φ) (events : List Event) :
    Inv notify (exec (step notify) events (start notify)) :=
  exec_invariant (Inv notify) (fun event _ => inv_step event) events
    ⟨fun _ => trivial, .inl ⟨rfl, rfl, fun _ => rfl⟩⟩

end Invariant

section Wakeup

variable {notify : Notify ν φ} {s : State ν φ} {event : Event} {i first : Nat}

/-- How many of its own steps a waiter is from its return, once it has been notified. -/
def stepsLeft : Waiter φ → Nat
  | .returned => 0
  | .entering | .rechecking _ => 1
  | .creating | .awaiting _ => 2

/-- The call that has set the flag has returned. -/
structure Notified (notify : Notify ν φ) (s : State ν φ) : Prop where
  inv : Inv notify s
  requested : s.requested = true
  woken : s.notify = notify.notifyWaiters notify.new

theorem notified_of_returned (h : Inv notify s) (hfirst : s.requesters first = .returned true) :
    Notified notify s := by
  rcases h.requesters with hquiet | ⟨leader, hled⟩
  · rw [hquiet.calling] at hfirst
    cases hfirst
  · by_cases hleader : first = leader
    · subst hleader
      refine ⟨h, hled.requested, ?_⟩
      rcases hled.notify with ⟨hnotifying, -⟩ | ⟨-, hwoken⟩
      · rw [hnotifying] at hfirst
        cases hfirst
      · exact hwoken
    · rcases hled.others first hleader with hother | hother
      · rw [hother] at hfirst
        cases hfirst
      · rw [hother] at hfirst
        cases hfirst

theorem returned_step (hfirst : s.requesters first = .returned true) :
    (step notify event s).1.requesters first = .returned true := by
  cases event with
  | waiter i => exact hfirst
  | requester i =>
      by_cases hi : i = first
      · subst hi
        simp only [step, requestCancellation, hfirst]
      · simp only [step, requestCancellation]
        split
        · simpa only [update_of_ne (Ne.symm hi)] using hfirst
        · simpa only [update_of_ne (Ne.symm hi)] using hfirst
        · simpa only [update_of_ne (Ne.symm hi)] using hfirst
        · exact hfirst

/-- A step of a waiter that has been notified brings it nearer to its return. -/
theorem stepsLeft_wait (h : Notified notify s) (i : Nat) :
    stepsLeft (waitUntilCancellationRequested notify s.requested s.notify (s.waiters i)) ≤
      stepsLeft (s.waiters i) - 1 := by
  have hknows := h.inv.waiters i
  cases hwaiter : s.waiters i with
  | entering | rechecking notified =>
      simp only [waitUntilCancellationRequested, h.requested, if_true, stepsLeft]
      exact Nat.le_refl _
  | creating | returned => exact Nat.le_refl _
  | awaiting notified =>
      rw [hwaiter] at hknows
      obtain rfl : notified = notify.notified notify.new := hknows
      simp only [waitUntilCancellationRequested, h.woken, notify.wakes, if_true, stepsLeft]
      exact Nat.le_refl _

theorem stepsLeft_step (h : Notified notify s) (i : Nat) :
    stepsLeft ((step notify event s).1.waiters i) ≤
      stepsLeft (s.waiters i) - [event].count (.waiter i) := by
  cases event with
  | requester j =>
      simp only [step, waiters_request]
      simp
  | waiter j =>
      by_cases hj : j = i
      · subst hj
        rw [count_singleton_self]
        simp only [step, update_self]
        exact stepsLeft_wait h j
      · have hnone : [Event.waiter j].count (.waiter i) = 0 := count_eq_zero.2 (by simp [Ne.symm hj])
        simp only [step, update_of_ne (Ne.symm hj), hnone, Nat.sub_zero, Nat.le_refl]

theorem stepsLeft_exec (h : Inv notify s) (hfirst : s.requesters first = .returned true) (i : Nat)
    (later : List Event) : stepsLeft ((exec (step notify) later s).waiters i) ≤
      stepsLeft (s.waiters i) - later.count (.waiter i) := by
  induction later generalizing s with
  | nil => exact Nat.le_refl _
  | cons event later ih =>
      have hstep := @stepsLeft_step _ _ _ _ event (notified_of_returned h hfirst) i
      have hrest := ih (inv_step event h) (returned_step hfirst)
      rw [← singleton_append, count_append, exec_append]
      rw [exec_cons, exec_nil]
      omega

end Wakeup

theorem counting_wakes (n : Nat) : decide (id n < n.succ) = true := decide_eq_true n.lt_succ_self

/-- A notifier that counts its notifications, with futures that note the count. -/
def countingNotify : Notify Nat Nat where
  new := 0
  notified := id
  notifyWaiters := Nat.succ
  ready := fun n seen => seen < n
  wakes := counting_wakes

/-- In every interleaving of any number of waiters and requesters: a waiter returns only once the
cancellation was requested, exactly one of the requesters that have begun is the first, and once its
call has returned no waiter misses the notification, but each returns after two steps of its own. -/
theorem cancellation_reaches_waiters (notify : Notify ν φ) (events : List Event) :
    let s := exec (step notify) events (start notify)
    (∀ i, s.waiters i = .returned → s.requested = true) ∧
    (∀ i, s.requesters i ≠ .calling → ∃ first, (∀ j, s.requesters j ≠ .calling → j ≠ first →
      s.requesters j = .returned false) ∧
      (s.requesters first = .notifying ∨ s.requesters first = .returned true)) ∧
    ∀ first, s.requesters first = .returned true → ∀ later i, 2 ≤ later.count (.waiter i) →
      (exec (step notify) later s).waiters i = .returned := by
  intro s
  have hinv : Inv notify s := inv_exec notify events
  refine ⟨?_, ?_, ?_⟩
  · intro i hreturned
    have hknows := hinv.waiters i
    rwa [hreturned] at hknows
  · intro i hbegun
    rcases hinv.requesters with hquiet | ⟨first, hled⟩
    · exact absurd (hquiet.calling i) hbegun
    · exact ⟨first, fun j hj hne => (hled.others j hne).resolve_left hj, hled.notify.imp And.left And.left⟩
  · intro first hfirst later i hsteps
    have hleft := stepsLeft_exec hinv hfirst i later
    have hbound : stepsLeft (s.waiters i) ≤ 2 := by
      cases s.waiters i <;> simp [stepsLeft]
    have hzero : stepsLeft ((exec (step notify) later s).waiters i) = 0 := by omega
    cases hwaiter : (exec (step notify) later s).waiters i with
    | returned => rfl
    | entering | creating | rechecking notified | awaiting notified =>
        rw [hwaiter] at hzero
        cases hzero

/-- A waiter that awaits already, and a second requester between the two steps of the first. -/
theorem cancellation_reaches_waiters_awaiting :
    let events := [.waiter 0, .waiter 0, .waiter 0, .requester 0, .requester 1, .requester 0]
    let s := exec (step countingNotify) events (start countingNotify)
    s.waiters 0 = .awaiting 0 ∧ s.requesters 0 = .returned true ∧
      s.requesters 1 = .returned false ∧
      (exec (step countingNotify) [.waiter 0, .waiter 0] s).waiters 0 = .returned := by
  intro events s
  obtain ⟨-, -, hreturns⟩ := cancellation_reaches_waiters countingNotify events
  exact ⟨rfl, rfl, rfl, hreturns 0 rfl _ 0 (by decide)⟩

end Paranoid.CancellationSignal

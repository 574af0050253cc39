import Paranoid.ProtocolModel

namespace Paranoid.ProtocolSessions

open ProtocolModel ProtocolOperations Savepoints

variable {ι κ : Type}

/-- An admission succeeded since the start of the frame, and the `ACCESS SHARE` lock that
it took is still held. -/
def Admitted (p : κ) (held : Holdings κ) : Prop := held.admitted p = true ∧ held.shared p = true

instance (p : κ) : DecidablePred (Admitted p) := fun _ => inferInstanceAs (Decidable (_ ∧ _))

section Sessions

variable {session : Session κ} {opened : List String}
  {known : List κ} {inner outer : Frames (Holdings κ)} {p : κ}

/-- The operation under way has opened the savepoints `opened`, whose frames are the inner
ones, and relies on the admissions `known`. What the transaction remembers as admitted is
held outside of these savepoints, or lost with a transaction that is aborted for good. -/
structure Within (session : Session κ) (opened : List String)
    (known : List κ) (inner outer : Frames (Holdings κ)) :
    Prop where
  frames : session.frames = inner ++ outer
  names : inner.map Frame.name = opened.map some
  guarded : Guarded opened known session.body
  remembered : ∀ p ∈ known, session.admittedProtocols p = true
  held : ∀ p, session.admittedProtocols p = true →
    Holds (Admitted p) outer ∨ session.aborted = true ∧ opened = []
  block : session.body = .done ∨ session.frames ≠ []

def Sound (session : Session κ) : Prop :=
  ∃ opened known inner outer, Within session opened known inner outer

theorem admitted_absorb {a : Holdings κ} (b : Holdings κ) (h : Admitted p a) :
    Admitted p (a.absorb b) := by
  simp [Admitted, Holdings.absorb, h.1, h.2]

theorem sound_of_forgotten (hforgotten : ∀ p, session.admittedProtocols p = false)
    (hbody : session.body = .done) :
    Sound session := by
  refine ⟨[], [], [], session.frames, rfl, rfl, ?_, ?_, ?_, .inl hbody⟩
  · rw [hbody]
    exact guarded_done
  · intro p hp
    cases hp
  · intro p hp
    rw [hforgotten p] at hp
    cases hp

theorem admitted_share [DecidableEq κ] {q : κ} (admitted : Bool)
    {held : Holdings κ} (h : Admitted p held) :
    Admitted p (held.share q admitted) := by
  by_cases hq : p = q
  · subst hq
    simp [Admitted, Holdings.share, h.1]
  · simp [Admitted, Holdings.share, hq, h.1, h.2]

theorem Within.sound (h : Within session opened known inner outer) : Sound session := ⟨_, _, _, _, h⟩

/-- The frames inside of a savepoint of the operation are not those that hold the
admissions. -/
theorem Within.held_of_opened (h : Within session opened known inner outer)
    (hopened : opened ≠ []) (p : κ)
    (hp : session.admittedProtocols p = true) : Holds (Admitted p) outer :=
  (h.held p hp).resolve_right fun haborted => hopened haborted.2

theorem Within.inner_eq_nil (h : Within session [] known inner outer) : inner = [] :=
  List.map_eq_nil_iff.1 h.names

theorem Within.opened_ne_nil {frame : Frame (Holdings κ)}
    (h : Within session opened known (frame :: inner) outer) :
    opened ≠ [] := by
  rintro rfl
  cases h.names

theorem Within.goOn (h : Within session opened known inner outer)
    {next : Body κ} (hnext : Guarded opened known next)
    (hframes : session.frames ≠ []) : Within { session with body := next } opened known inner outer :=
  ⟨h.frames, h.names, hnext, h.remembered, h.held, .inr hframes⟩

theorem Sound.restarted (h : Sound session) {next : Body κ} (hnext : Guarded [] [] next)
    (hblock : next = .done ∨ session.frames ≠ []) : Sound { session with body := next } := by
  obtain ⟨opened, known, inner, outer, hw⟩ := h
  refine ⟨[], [], [], inner ++ outer, hw.frames, rfl, hnext, ?_, ?_, hblock⟩
  · intro p hp
    cases hp
  · intro p hp
    rcases hw.held p hp with houter | haborted
    · exact .inl (holds_append.2 (.inr houter))
    · exact .inr ⟨haborted.1, rfl⟩

theorem Sound.dropped (h : Sound session) : Sound { session with body := .done } :=
  h.restarted guarded_done (.inl rfl)

theorem Within.failed (h : Within session opened known inner outer) {onError : Body κ}
    (hnext : Guarded opened known onError) (hblock : onError = .done ∨ session.frames ≠ []) :
    Sound (session.failed onError) := by
  have hframes : onError = .done ∨ abort .none session.frames ≠ [] := by
    refine hblock.imp_right fun hne => ?_
    cases hsession : session.frames with
    | nil => exact absurd hsession hne
    | cons frame rest => exact List.cons_ne_nil _ _
  cases inner with
  | nil =>
      have hopened : opened = [] := List.map_eq_nil_iff.1 h.names.symm
      have hsession : session.frames = outer := h.frames
      refine ⟨opened, known, [], abort .none outer, ?_, h.names, hnext, h.remembered, ?_, hframes⟩
      · simp [Session.failed, hsession]
      · intro p hp
        refine .inr ⟨?_, hopened⟩
        rcases h.held p hp with houter | haborted
        · have hne : session.frames.isEmpty = false := by
            rw [hsession, List.isEmpty_eq_false_iff]
            rintro rfl
            exact holds_nil houter
          simp [Session.failed, hne]
        · simp [Session.failed, haborted.1]
  | cons frame inner =>
      have hopened : opened ≠ [] := h.opened_ne_nil
      refine ⟨opened, known, ⟨frame.name, .none⟩ :: inner,
        outer, ?_, h.names, hnext, h.remembered, ?_, hframes⟩
      · simp [Session.failed, h.frames, abort]
      · intro p hp
        exact .inl (h.held_of_opened hopened p hp)

theorem Sound.failed (h : Sound session) : Sound (session.failed .done) := by
  obtain ⟨opened, known, inner, outer, hw⟩ := h.dropped
  exact hw.failed guarded_done (.inl rfl)

theorem sound_orFailed (h : Sound session) (answer : Bool) {result : Option (Session κ)} {next : Body κ}
    (hnext : ∀ after, result = some after → Sound { after with body := next }) :
    Sound (session.orFailed answer result next) := by
  unfold Session.orFailed
  split
  · rename_i after
    exact hnext after rfl
  · exact h.failed

theorem Within.savepoint (h : Within session opened known inner outer) {name : String} {next : Body κ}
    (hnext : Guarded (name :: opened) known next) (answer : Bool) :
    Sound (session.orFailed answer (session.savepoint name) next) := by
  refine sound_orFailed h.sound answer fun after hafter => ?_
  obtain ⟨hrunning, rfl⟩ := savepoint_eq_some hafter
  refine ⟨name :: opened, known, ⟨some name, .none⟩ :: inner,
    outer, ?_, ?_, hnext, h.remembered, ?_, .inr ?_⟩
  · simp [Savepoints.savepoint, h.frames]
  · simp [h.names]
  · intro p hp
    refine .inl ((h.held p hp).resolve_right fun haborted => ?_)
    rw [hrunning] at haborted
    cases haborted.1
  · exact List.cons_ne_nil _ _

/-- The innermost savepoint of the operation is the one that it names. -/
theorem Within.innermost (h : Within session opened known inner outer) {name : String}
    (hname : opened.head? = some name) :
    ∃ frame inner', inner = frame :: inner' ∧ frame.name = some name ∧
      inner'.map Frame.name = opened.tail.map some := by
  have hnames := h.names
  cases opened with
  | nil => cases hname
  | cons first opened =>
      cases hname
      cases inner with
      | nil => cases hnames
      | cons frame inner' =>
          rw [List.map_cons, List.map_cons, List.cons.injEq] at hnames
          exact ⟨frame, inner', rfl, hnames.1, hnames.2⟩

theorem Within.rollbackTo (h : Within session opened known inner outer) {name : String} {next : Body κ}
    (hname : opened.head? = some name) (hnext : Guarded opened known next) (answer : Bool) :
    Sound (session.orFailed answer (session.rollbackTo name) next) := by
  refine sound_orFailed h.sound answer fun after hafter => ?_
  obtain ⟨frame, inner', rfl, hframe, -⟩ := h.innermost hname
  obtain ⟨frames, hback, rfl⟩ := rollbackTo_eq_some hafter
  rw [h.frames, List.cons_append, rollbackTo_cons hframe, Option.some.injEq] at hback
  subst hback
  refine ⟨opened, known, ⟨some name, .none⟩ :: inner', outer, rfl, ?_, hnext, h.remembered, ?_, .inr ?_⟩
  · rw [← h.names, List.map_cons, List.map_cons, hframe]
  · exact fun p hp => .inl (h.held_of_opened h.opened_ne_nil p hp)
  · exact List.cons_ne_nil _ _

theorem Within.release (h : Within session opened known inner outer) {name : String} {next : Body κ}
    (hname : opened.head? = some name) (hnext : Guarded opened.tail known next) (answer : Bool) :
    Sound (session.orFailed answer (session.release name) next) := by
  refine sound_orFailed h.sound answer fun after hafter => ?_
  obtain ⟨frame, inner', rfl, hframe, hnames⟩ := h.innermost hname
  have hheld := h.held_of_opened h.opened_ne_nil
  obtain ⟨frames, hrelease, rfl⟩ := release_eq_some hafter
  rw [h.frames] at hrelease
  cases inner' with
  | cons around inner' =>
      rw [List.cons_append, List.cons_append, release_cons hframe, Option.some.injEq] at hrelease
      subst hrelease
      exact ⟨opened.tail, known, _ :: inner', outer, rfl, hnames,
        hnext, h.remembered, fun p hp => .inl (hheld p hp),
        .inr (List.cons_ne_nil _ _)⟩
  | nil =>
      cases outer with
      | nil => simp [Savepoints.release, passOn, hframe] at hrelease
      | cons around outer =>
          rw [List.cons_append, List.nil_append, release_cons hframe, Option.some.injEq] at hrelease
          subst hrelease
          refine ⟨opened.tail, known, [], _ :: outer, rfl, hnames, hnext, h.remembered, ?_,
            .inr (List.cons_ne_nil _ _)⟩
          intro p hp
          exact .inl (holds_cons.2 ((holds_cons.1 (hheld p hp)).imp_left (admitted_absorb _)))

/-- No savepoint of the operation is open when an admission takes a lock. -/
theorem Within.takeShared [DecidableEq κ]
    (h : Within session [] known inner outer) (admitted : Bool) (p q : κ)
    (hq : session.admittedProtocols q = true) :
    Holds (Admitted q) (session.takeShared p admitted).frames ∨ session.aborted = true := by
  have houter : session.frames = outer := by rw [h.frames, h.inner_eq_nil, List.nil_append]
  rcases h.held q hq with hheld | haborted
  · rw [← houter] at hheld
    exact .inl (holds_update (fun _ => admitted_share admitted) hheld)
  · exact .inr haborted.1

theorem Within.refused [DecidableEq κ] (h : Within session [] known inner outer) (p : κ) :
    Sound { session.takeShared p false with body := .done } := by
  refine ⟨[], [], [], _, rfl, rfl, guarded_done, ?_, ?_, .inl rfl⟩
  · intro q hq
    cases hq
  · exact fun q hq => (h.takeShared false p q hq).imp_right fun haborted => ⟨haborted, rfl⟩

theorem Within.admitted [DecidableEq κ] (h : Within session [] known inner outer) {next : Body κ}
    (hnext : Guarded [] (p :: known) next) (hframes : session.frames ≠ []) :
    Sound { session.takeShared p true with
      admittedProtocols := Function.update session.admittedProtocols p true, body := next } := by
  refine ⟨[], p :: known, [], _, rfl, rfl, hnext, ?_, ?_, .inr ?_⟩
  · intro q hq
    by_cases hqp : q = p
    · simp [hqp]
    · simpa [hqp] using h.remembered q ((List.mem_cons.1 hq).resolve_left hqp)
  · intro q hq
    by_cases hqp : q = p
    · subst hqp
      have hshare : ∀ held : Holdings κ, Admitted q (held.share q true) := fun held => by
        simp [Admitted, Holdings.share]
      exact .inl (holds_update_innermost hshare hframes)
    · have hremembered : session.admittedProtocols q = true := by
        rw [← hq]
        exact (Function.update_of_ne hqp _ _).symm
      exact (h.takeShared true p q hremembered).imp_right fun haborted => ⟨haborted, rfl⟩
  · cases hsession : session.frames with
    | nil => exact absurd hsession hframes
    | cons frame rest => simp [Session.takeShared, hsession, update]

theorem body_of_idle (h : session.idle = true) : session.body = .done := by
  unfold Session.idle at h
  split at h
  · assumption
  · cases h

end Sessions

section Steps

variable [DecidableEq ι] {s : System ι κ} {i : ι} {opened : List String} {known : List κ}
  {inner outer : Frames (Holdings κ)} {p : κ} {next onError : Body κ}

theorem sound_statement (h : ∀ k, Sound (s.sessions k))
    (hw : Within (s.sessions i) opened known inner outer)
    (hnext : Guarded opened known next) (honError : Guarded opened known onError)
    (hframes : (s.sessions i).frames ≠ [])
    (answer : Bool) (k : ι) : Sound ((statement s i answer next onError).sessions k) := by
  unfold statement
  dsimp only
  split
  · exact put_forall h (hw.goOn honError hframes).sound k
  · split
    · exact put_forall h (hw.goOn hnext hframes).sound k
    · exact put_forall h (hw.failed honError (.inr hframes)) k

variable [Fintype ι] [DecidableEq κ]

theorem sound_admit (h : ∀ k, Sound (s.sessions k))
    (hw : Within (s.sessions i) opened known inner outer)
    (hguarded : Guarded opened known (.admission p next))
    (hframes : (s.sessions i).frames ≠ []) (answer : Bool) (k : ι) :
    Sound ((protocolAdmit s i p answer next).sessions k) := by
  obtain ⟨hopened, hnext⟩ := hguarded
  unfold protocolAdmit
  dsimp only
  split
  · rename_i hremembered
    have hknown : ∀ q ∈ p :: known, (s.sessions i).admittedProtocols q = true :=
      List.forall_mem_cons.2 ⟨hremembered, hw.remembered⟩
    have hsound : Sound { s.sessions i with body := next } :=
      ⟨_, _, _, _, hw.frames, hw.names, hnext, hknown, hw.held, .inr hframes⟩
    exact put_forall h hsound k
  · rename_i hforgotten
    have hopened : opened = [] := hopened.resolve_right fun hp => hforgotten (hw.remembered p hp)
    subst hopened
    split
    · exact put_forall h (h i).failed k
    · split
      · split
        · exact put_forall h (h i).failed k
        · split
          · exact put_forall h (hw.refused p) k
          · exact put_forall h (hw.admitted hnext hframes) k
      · exact h k

theorem sound_advance (h : ∀ k, Sound (s.sessions k)) (answer : Bool) (k : ι) :
    Sound ((advance s i answer).1.sessions k) := by
  obtain ⟨opened, known, inner, outer, hw⟩ := h i
  have hguarded := hw.guarded
  have hblock := hw.block
  unfold advance
  dsimp only
  cases hbody : (s.sessions i).body with
  | done => exact h k
  | admission p next =>
      rw [hbody] at hguarded hblock
      exact sound_admit h hw hguarded (hblock.resolve_left nofun) answer k
  | component p next onError =>
      rw [hbody] at hguarded hblock
      exact sound_statement h hw hguarded.2.1 hguarded.2.2 (hblock.resolve_left nofun) answer k
  | other next onError =>
      rw [hbody] at hguarded hblock
      exact sound_statement h hw hguarded.1 hguarded.2 (hblock.resolve_left nofun) answer k
  | savepoint name next =>
      rw [hbody] at hguarded
      exact put_forall h (hw.savepoint hguarded answer) k
  | rollbackTo name next =>
      rw [hbody] at hguarded
      exact put_forall h (hw.rollbackTo hguarded.1 hguarded.2 answer) k
  | release name next =>
      rw [hbody] at hguarded
      exact put_forall h (hw.release hguarded.1 hguarded.2 answer) k
  | choose first second =>
      rw [hbody] at hguarded hblock
      refine put_forall h ?_ k
      cases answer with
      | true => exact (hw.goOn hguarded.1 (hblock.resolve_left nofun)).sound
      | false => exact (hw.goOn hguarded.2 (hblock.resolve_left nofun)).sound

theorem sound_raw (h : ∀ k, Sound (s.sessions k)) (hbody : (s.sessions i).body = .done) (answer : Bool)
    (sql : RawSql κ) (k : ι) : Sound ((raw s i answer sql).sessions k) := by
  have hforgetting : Sound (s.sessions i).forgetting := sound_of_forgotten (fun _ => rfl) hbody
  unfold raw
  dsimp only
  cases sql with
  | savepoint name =>
      refine put_forall h (sound_orFailed hforgetting answer fun after hafter => ?_) k
      obtain ⟨-, rfl⟩ := savepoint_eq_some hafter
      exact sound_of_forgotten (fun _ => rfl) rfl
  | rollbackTo name =>
      refine put_forall h (sound_orFailed hforgetting answer fun after hafter => ?_) k
      obtain ⟨frames, -, rfl⟩ := rollbackTo_eq_some hafter
      exact sound_of_forgotten (fun _ => rfl) rfl
  | release name =>
      refine put_forall h (sound_orFailed hforgetting answer fun after hafter => ?_) k
      obtain ⟨frames, -, rfl⟩ := release_eq_some hafter
      exact sound_of_forgotten (fun _ => rfl) rfl
  | commit =>
      refine put_forall ?_ ?_ k
      · rwa [publish_sessions]
      · exact sound_of_forgotten (fun _ => rfl) hbody
  | rollback =>
      refine put_forall h ?_ k
      exact sound_of_forgotten (fun _ => rfl) hbody
  | begin isolation =>
      dsimp only
      split
      · refine put_forall h ?_ k
        exact sound_of_forgotten (fun _ => rfl) hbody
      · exact put_forall h hforgetting k
  | setIsolation isolation =>
      dsimp only
      split
      · exact put_forall h hforgetting.failed k
      · refine put_forall h ?_ k
        exact sound_of_forgotten (fun _ => rfl) hbody
  | lockShared p =>
      dsimp only
      split
      · exact put_forall h hforgetting.failed k
      · split
        · refine put_forall h ?_ k
          exact sound_of_forgotten (fun _ => rfl) hbody
        · exact h k
  | lockExclusive p =>
      dsimp only
      split
      · exact put_forall h hforgetting.failed k
      · split
        · refine put_forall h ?_ k
          exact sound_of_forgotten (fun _ => rfl) hbody
        · exact h k
  | write p relation =>
      dsimp only
      split
      · exact put_forall h hforgetting.failed k
      · split
        · split
          · exact put_forall h hforgetting k
          · refine put_forall h ?_ k
            exact sound_of_forgotten (fun _ => rfl) hbody
        · exact h k
  | other =>
      dsimp only
      split
      · exact put_forall h hforgetting k
      · exact put_forall h hforgetting.failed k

/-- A caller's own SQL has left the connection inside of a transaction block when an
operation is called. -/
def InBlock : Input ι κ → System ι κ → Prop
  | .call i _ _, s => (s.sessions i).frames ≠ []
  | _, _ => True

instance : (input : Input ι κ) → (s : System ι κ) → Decidable (InBlock input s)
  | .call i _ _, s => inferInstanceAs (Decidable ((s.sessions i).frames ≠ []))
  | .begin _, _ | .finish _ _, _ | .advance _ _, _ | .cancel _, _ | .raw _ _ _, _ => .isTrue trivial

/-- The step lemma for what the sessions remember. -/
theorem sound_step {input : Input ι κ} (hguard : InBlock input s)
    (h : ∀ k, Sound (s.sessions k)) (k : ι) :
    Sound ((step input s).1.sessions k) := by
  unfold step
  cases input with
  | begin i =>
      dsimp only
      split
      · exact h k
      · exact put_forall h (sound_of_forgotten (fun _ => rfl) rfl) k
  | finish i commit =>
      dsimp only
      split
      · refine put_forall ?_ (sound_of_forgotten (fun _ => rfl) rfl) k
        split
        · rwa [publish_sessions]
        · exact h
      · exact h k
  | call i p operation =>
      dsimp only
      split
      · exact put_forall h ((h i).restarted (guarded_body p operation) (.inr hguard)) k
      · exact h k
  | advance i answer => exact sound_advance h answer k
  | cancel i => exact put_forall h (h i).dropped k
  | raw i answer sql =>
      dsimp only
      split
      · rename_i hidle
        exact sound_raw h (body_of_idle hidle) answer sql k
      · exact h k

end Steps

end Paranoid.ProtocolSessions

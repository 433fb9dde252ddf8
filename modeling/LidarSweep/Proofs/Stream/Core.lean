import LidarSweep.Proofs.Stream.Turn

/-!
# What listeners do not touch

The core of a stream is the stream without its listeners, what they heard, the log, and the locks.
Listeners that never stop the stream leave it as it is. So a thread alone takes a stream from core
to core, whoever is listening (`Moves`), and what an operation does can be said of cores.
-/

namespace LidarSweep

/-- Never stops the stream, whatever it is told. -/
def Listener.IsPassive (l : Listener) : Prop := ∀ r ∈ l.plan, r.2 ≠ .stop

theorem Listener.isPassive_hear {l : Listener} (h : l.IsPassive) (state : StreamState) :
    (l.hear state).1.IsPassive ∧ (l.hear state).2 ≠ some .stop := by
  obtain ⟨keeps, plan⟩ := l
  cases plan with
  | nil => exact ⟨h, nofun⟩
  | cons r plan =>
    simp only [hear]
    split
    · refine ⟨fun q hq => h q (List.mem_cons_of_mem _ hq), fun hStop => ?_⟩
      exact h r List.mem_cons_self (Option.some.inj hStop)
    · exact ⟨h, nofun⟩

namespace Stream

/-- The stream without its listeners, what they heard, the log and the locks. -/
def core (s : Stream) : Stream :=
  { s with
    locks := {}
    control := { s.control with listeners := [], wakes := 0 }
    journal := { s.journal with heard := [], log := [] } }

def IsCalm (s : Stream) : Prop := ∀ l ∈ s.control.listeners, l.IsPassive

/-- Telling passive listeners changes nothing but them. -/
theorem tell_of_isCalm {s : Stream} (h : s.IsCalm) (listener : Nat) (state : StreamState)
    (profile : Option Profile) :
    ∃ s', s.tell listener state profile = { stream := s' } ∧ s'.core = s.core ∧
      s'.locks = s.locks ∧ s'.IsCalm := by
  unfold tell
  cases hListener : s.control.listeners[listener]? with
  | none => exact ⟨s, rfl, rfl, rfl, h⟩
  | some l =>
    obtain ⟨hPassive, hStop⟩ :=
      Listener.isPassive_hear (h l (List.mem_of_getElem? hListener)) state
    dsimp only
    generalize hHeard : (if l.keeps then s.heard (.state state profile) else s) = heard
    generalize l.hear state = after at hPassive hStop
    obtain ⟨l', reaction⟩ := after
    have hSame : heard.core = s.core ∧ heard.locks = s.locks ∧
        heard.control.listeners = s.control.listeners := by
      subst hHeard
      split <;> exact ⟨rfl, rfl, rfl⟩
    -- The listener is put back with less before it.
    have hCalm : ∀ l₁ ∈ heard.control.listeners.set listener l', l₁.IsPassive := by
      intro l₁ hl₁
      rcases List.mem_or_eq_of_mem_set hl₁ with hOld | rfl
      · exact h l₁ (hSame.2.2 ▸ hOld)
      · exact hPassive
    cases reaction with
    | none => exact ⟨_, rfl, hSame.1, hSame.2.1, hCalm⟩
    | some reaction =>
      cases reaction with
      | stop => exact absurd rfl hStop
      | note => exact ⟨_, rfl, hSame.1, hSame.2.1, hCalm⟩
      | panic reason => exact ⟨_, rfl, hSame.1, hSame.2.1, hCalm⟩

/-- Going to another state shows in the core as just that. -/
theorem core_transition (s : Stream) (c : Control) (target : StreamState) :
    core { s with control := (c.transition target).1 } =
      core { s with control := { c with state := target } } := by
  rw [Control.transition_fst]
  rfl

theorem isCalm_transition {s : Stream} {c : Control} (h : s.IsCalm)
    (hSame : c.listeners = s.control.listeners) (target : StreamState) :
    IsCalm { s with control := (c.transition target).1 } := by
  intro l hl
  rw [Control.transition_fst] at hl
  exact h l (hSame ▸ hl)

end Stream

/-- What a thread has before it, and what it has to do it to. -/
structure Work where
  agenda : List Action
  core : Stream
  locks : Locks
  /-- How the thread's latest start or halt ended -/
  last : Except Error Unit

/-- Thread `me`, alone with passive listeners, gets from one point of its work to another. -/
def Moves (me : ThreadId) (w w' : Work) : Prop :=
  ∀ s taken, s.core = w.core → s.locks = w.locks → s.IsCalm → ∃ deeds s' taken',
    Turn me ⟨w.agenda, w.last, taken⟩ s deeds ⟨w'.agenda, w'.last, taken'⟩ s' ∧
      s'.core = w'.core ∧ s'.locks = w'.locks ∧ s'.IsCalm

namespace Moves

variable {me : ThreadId} {w w' w'' : Work} {rest : List Action} {c : Stream} {locks : Locks}
  {last : Except Error Unit}

theorem refl (w : Work) : Moves me w w := fun s taken hCore hLocks hCalm =>
  ⟨[], s, taken, .stay _ s, hCore, hLocks, hCalm⟩

theorem trans (h : Moves me w w') (h' : Moves me w' w'') : Moves me w w'' := by
  intro s taken hCore hLocks hCalm
  obtain ⟨deeds, s', taken', hTurn, hCore', hLocks', hCalm'⟩ := h s taken hCore hLocks hCalm
  obtain ⟨deeds', s'', taken'', hTurn', hEnd⟩ := h' s' taken' hCore' hLocks' hCalm'
  exact ⟨deeds ++ deeds', s'', taken'', hTurn.trans hTurn', hEnd⟩

/-- One action, and then the rest. -/
theorem act {action : Action} (hGoes : action.isPause = false)
    (h : ∀ s : Stream, s.core = c → s.locks = locks → s.IsCalm →
      ∃ e, action.perform me last s = some e ∧ e.spawned = [] ∧ e.stream.IsCalm ∧
        Moves me ⟨e.next ++ rest, e.stream.core, e.stream.locks, e.result.getD last⟩ w') :
    Moves me ⟨action :: rest, c, locks, last⟩ w' := by
  intro s taken hCore hLocks hCalm
  obtain ⟨e, hPerform, hAlone, hCalm', hMoves⟩ := h s hCore hLocks hCalm
  obtain ⟨deeds, s', taken', hTurn, hEnd⟩ := hMoves e.stream (taken + e.taken) rfl rfl hCalm'
  exact ⟨_ :: deeds, s', taken', .step rfl hGoes hPerform hAlone hTurn, hEnd⟩

theorem tell (listener : Nat) (state : StreamState) (profile : Option Profile) :
    Moves me ⟨.tell listener state profile :: rest, c, locks, last⟩ ⟨rest, c, locks, last⟩ := by
  refine act rfl ?_
  rintro s rfl rfl hCalm
  obtain ⟨s', hTell, hCore, hLocks, hCalm'⟩ := Stream.tell_of_isCalm hCalm listener state profile
  exact ⟨_, congrArg some hTell, rfl, hCalm', hCore ▸ hLocks ▸ refl _⟩

theorem tellAll (notice : Option Notice) :
    Moves me ⟨Notice.tellAll notice ++ rest, c, locks, last⟩ ⟨rest, c, locks, last⟩ := by
  cases notice with
  | none => exact refl _
  | some n =>
    simp only [Notice.tellAll, Notice.tell]
    induction List.range n.listeners with
    | nil => exact refl _
    | cons i is ih => exact (tell i n.state n.profile).trans ih

/-- An action that changes the control block, goes to a state and has listeners told of it. -/
theorem transition {action : Action} (change : Control → Control) (target : StreamState)
    (next : List Action) (hGoes : action.isPause = false)
    (hPerform : ∀ s : Stream, s.core = c → action.perform me last s = some {
      stream := { s with control := ((change s.control).transition target).1 }
      next := Notice.tellAll ((change s.control).transition target).2 ++ next })
    (hListeners : ∀ d, (change d).listeners = d.listeners)
    (hCore : ∀ s : Stream, Stream.core { s with control := change s.control } =
      { s.core with control := change s.core.control }) :
    Moves me ⟨action :: rest, c, locks, last⟩
      ⟨next ++ rest, { c with control := { change c.control with state := target } }, locks,
        last⟩ := by
  refine act hGoes ?_
  rintro s rfl rfl hCalm
  refine ⟨_, hPerform s rfl, rfl, Stream.isCalm_transition hCalm (hListeners _) _, ?_⟩
  have hChanged : Stream.core { s with control := { change s.control with state := target } } =
      { s.core with control := { change s.core.control with state := target } } :=
    congrArg (fun d : Stream => { d with control := { d.control with state := target } }) (hCore s)
  rw [Stream.core_transition, hChanged, List.append_assoc]
  exact tellAll _

/-- A thread that nobody is in the way of gets a lock. -/
theorem acquire (hFree : locks.FreeFor me) (lock : Lock) :
    ∃ locks' : Locks, locks'.FreeFor me ∧ locks'.release lock = locks ∧
      ∀ rest c last, Moves me ⟨.acquire lock :: rest, c, locks, last⟩ ⟨rest, c, locks', last⟩ := by
  obtain ⟨locks', hAcquire, hFree', _, hRelease⟩ := hFree.acquire lock
  refine ⟨locks', hFree', hRelease, fun rest c last => act rfl ?_⟩
  rintro s rfl rfl hCalm
  have hPerform : (Action.acquire lock).perform me last s =
      some { stream := { s with locks := locks' } } := by
    rw [Action.perform, hAcquire]
    rfl
  exact ⟨_, hPerform, rfl, hCalm, refl _⟩

theorem release (lock : Lock) :
    Moves me ⟨.release lock :: rest, c, locks, last⟩ ⟨rest, c, locks.release lock, last⟩ := by
  refine act rfl ?_
  rintro s rfl rfl hCalm
  exact ⟨_, rfl, rfl, hCalm, refl _⟩

end Moves

/-- Thread `me`, alone with passive listeners, gets these actions done, however its latest start or
halt ended. -/
def Completes (me : ThreadId) (agenda : List Action) (c : Stream) (locks : Locks) (c' : Stream)
    (locks' : Locks) : Prop :=
  ∀ rest last s taken, s.core = c → s.locks = locks → s.IsCalm → ∃ deeds s' last' taken',
    Turn me ⟨agenda ++ rest, last, taken⟩ s deeds ⟨rest, last', taken'⟩ s' ∧
      s'.core = c' ∧ s'.locks = locks' ∧ s'.IsCalm

namespace Completes

variable {me : ThreadId} {locks locks' locks'' : Locks} {agenda agenda' : List Action}
  {c c' c'' : Stream}

theorem of_moves
    (h : ∀ rest last, ∃ last',
      Moves me ⟨agenda ++ rest, c, locks, last⟩ ⟨rest, c', locks', last'⟩) :
    Completes me agenda c locks c' locks' := by
  intro rest last s taken hCore hLocks hCalm
  obtain ⟨last', hMoves⟩ := h rest last
  obtain ⟨deeds, s', taken', hEnd⟩ := hMoves s taken hCore hLocks hCalm
  exact ⟨deeds, s', last', taken', hEnd⟩

theorem nil : Completes me [] c locks c locks := of_moves fun _ last => ⟨last, .refl _⟩

theorem append (h : Completes me agenda c locks c' locks')
    (h' : Completes me agenda' c' locks' c'' locks'') :
    Completes me (agenda ++ agenda') c locks c'' locks'' := by
  intro rest last s taken hCore hLocks hCalm
  obtain ⟨deeds, s', last', taken', hTurn, hCore', hLocks', hCalm'⟩ :=
    h (agenda' ++ rest) last s taken hCore hLocks hCalm
  obtain ⟨deeds', s'', last'', taken'', hTurn', hEnd⟩ :=
    h' rest last' s' taken' hCore' hLocks' hCalm'
  rw [List.append_assoc]
  exact ⟨deeds ++ deeds', s'', last'', taken'', hTurn.trans hTurn', hEnd⟩

/-- One action, and what it puts in front of the rest. -/
theorem act {action : Action} (hGoes : action.isPause = false)
    (h : ∀ last, ∀ s : Stream, s.core = c → s.locks = locks → s.IsCalm →
      ∃ e, action.perform me last s = some e ∧ e.spawned = [] ∧ e.stream.IsCalm ∧
        Completes me e.next e.stream.core e.stream.locks c' locks') :
    Completes me [action] c locks c' locks' := by
  intro rest last s taken hCore hLocks hCalm
  obtain ⟨e, hPerform, hAlone, hCalm', hNext⟩ := h last s hCore hLocks hCalm
  obtain ⟨deeds, s', last', taken', hTurn, hEnd⟩ :=
    hNext rest (e.result.getD last) e.stream (taken + e.taken) rfl rfl hCalm'
  exact ⟨_ :: deeds, s', last', taken', .step rfl hGoes hPerform hAlone hTurn, hEnd⟩

theorem tellAll (notice : Option Notice) :
    Completes me (Notice.tellAll notice) c locks c locks :=
  of_moves fun _ last => ⟨last, .tellAll notice⟩

theorem acquire (hFree : locks.FreeFor me) (lock : Lock) :
    ∃ locks' : Locks, locks'.FreeFor me ∧ locks'.release lock = locks ∧
      ∀ c, Completes me [.acquire lock] c locks c locks' := by
  obtain ⟨locks', hFree', hRelease, hAcquire⟩ := Moves.acquire hFree lock
  exact ⟨locks', hFree', hRelease, fun c => of_moves fun rest last => ⟨last, hAcquire rest c last⟩⟩

theorem release {lock : Lock} (hRelease : locks'.release lock = locks) :
    Completes me [.release lock] c locks' c locks :=
  of_moves fun _ last => ⟨last, hRelease ▸ .release lock⟩

end Completes

end LidarSweep

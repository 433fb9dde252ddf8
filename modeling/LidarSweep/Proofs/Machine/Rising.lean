import LidarSweep.Proofs.Machine.Notices

/-!
# How the start of a restart ends

The start that a watcher makes on the way of a restart is the same as a caller's: it gets ready,
and at one of a few actions it turns out how it ends (`Action.decides`).  If it ends well the stream
is active; if not, the watcher says that it is starting.  So a restart that is carried through
leaves an active stream (`Machine.Rising.isActive`).
-/

namespace LidarSweep

namespace Action

/-- Whether it may turn out here how a start ends. -/
def decides : Action → Bool
  | checkStart _ _ | activate _ _ | openSource _ | revert _ | finish (.error _) => true
  | _ => false

/-- Whether a restart is carried through here. -/
def isOutcome : Action → Bool
  | endRestart _ _ _ _ _ => true
  | _ => false

theorem isRenewal_of_isOutcome {action : Action} (h : action.isOutcome = true) :
    action.isRenewal = true := by
  cases action <;> first | rfl | cases h

end Action

/-- What is left of a start gets ready until its last action decides; or it has failed, or the
stream is active. -/
def Decided (c : Control) (last : Except Error Unit) (start : List Action) : Prop :=
  (∃ pre x, start = pre ++ [x] ∧ (∀ y ∈ pre, y = .acquire .restart ∨ y.isInert = true) ∧
      x.decides = true) ∨
    start = [] ∧ (last = .ok () → c.state.isActive = true)

theorem Action.next_of_acquire {lock : Lock} {me : ThreadId} {last : Except Error Unit}
    {s : Stream} {e : Effect} (h : (Action.acquire lock).perform me last s = some e) :
    e.next = [] := by
  obtain ⟨locks, _, rfl⟩ := Option.map_eq_some_iff.mp h
  rfl

/-- **How a start goes on** that listeners are not told of: it gets ready, and then it fails or
makes the stream active. -/
theorem Decided.of_perform {action : Action} {me : ThreadId} {last : Except Error Unit}
    {s : Stream} {e : Effect} {start : List Action} (h : Decided s.control last (action :: start))
    (hCalm : s.IsCalm) (hQuiet : s.control.quiet = true)
    (hMeets : action.isInert = false → action.Meets s.control)
    (hPerform : action.perform me last s = some e) :
    Decided e.stream.control (e.result.getD last) (e.next ++ start) := by
  rcases h with ⟨pre, x, hStart, hPre, hx⟩ | ⟨hNil, _⟩
  · cases pre with
    | cons a pre =>
      obtain ⟨rfl, rfl⟩ := List.cons.inj hStart
      have hNext : e.next = [] := by
        rcases hPre _ List.mem_cons_self with rfl | hInert
        · exact Action.next_of_acquire hPerform
        · exact Action.next_of_isInert hInert hCalm hPerform
      rw [hNext]
      exact .inl ⟨pre, x, rfl, fun y hy => hPre y (List.mem_cons_of_mem _ hy), hx⟩
    | nil =>
      obtain ⟨rfl, rfl⟩ := List.cons.inj hStart
      rw [List.append_nil]
      -- Nobody is told of a state, so the next action follows at once.
      have hTold (c : Control) (hSame : c.quiet = s.control.quiet) (target : StreamState) :
          Notice.tellAll (c.transition target).2 = [] := by
        rw [Control.notice_of_quiet (hSame.trans hQuiet)]
        rfl
      cases action
      case checkStart profile consumer =>
        cases hPerform
        rw [Stream.checkStart]
        rcases s.admission profile with ⟨verdict, table⟩
        cases verdict with
        | error cause => exact .inr ⟨rfl, fun hOk => by cases hOk⟩
        | ok g =>
          refine .inl ⟨[.acquire .pipeline, .resetPipeline profile.rate, .release .pipeline,
            .install g profile.format], .activate profile consumer, rfl, ?_, rfl⟩
          simp [Action.isInert]
      case activate profile consumer =>
        cases hPerform
        rw [Stream.activate]
        dsimp only
        rw [hTold { s.control with
          activation := s.control.activation + 1
          stopPending := false
          profile := some profile
          consumer := some consumer } rfl]
        exact .inl ⟨[], .openSource _, rfl, List.forall_mem_nil _, rfl⟩
      case openSource activation =>
        have hActive : s.control.state.isActive = true := hMeets rfl
        cases hPerform
        rw [Stream.openSource]
        rcases s.source.start activation with ⟨source, result⟩
        cases result with
        | ok => exact .inr ⟨rfl, fun _ => hActive⟩
        | error cause =>
          refine .inl ⟨[.uninstall], .revert cause, rfl, ?_, rfl⟩
          simp [Action.isInert]
      case revert cause =>
        cases hPerform
        rw [Stream.revert]
        dsimp only
        rw [hTold { s.control with consumer := none } rfl]
        exact .inl ⟨[], .finish (.error cause), rfl, List.forall_mem_nil _, rfl⟩
      case finish result =>
        cases hPerform
        cases result with
        | ok => cases hx
        | error cause => exact .inr ⟨rfl, fun hOk => by cases hOk⟩
      all_goals cases hx
  · cases hNil

namespace Machine

variable {m m' m₀ : Machine} {i k : ThreadId} {action x : Action} {rest : List Action} {e : Effect}
  {events : List Event}

/-- Thread `k` is on the way to `outcome` of a restart: the start is going on, or is back and has
ended as it says. -/
def Rises (m : Machine) (k : ThreadId) (outcome : Action) : Prop :=
  (m.agenda k = [outcome] ∧ (m.last k = .ok () → m.stream.control.state.isActive = true)) ∨
    ∃ start, m.agenda k = start ++ [.release .restart, outcome] ∧
      Decided m.stream.control (m.last k) start

/-- Every restart that is to be carried through is on its way. -/
def Rising (m : Machine) : Prop := ∀ k, ∀ x ∈ m.agenda k, x.isOutcome = true → m.Rises k x

theorem Fresh.rising (h : m.Fresh) : m.Rising := by
  intro k x hx hOutcome
  have hNone := h.forall_mem (p := fun x => !x.isOutcome) (by rintro (_ | _) <;> rfl) k x hx
  simp [hOutcome] at hNone

/-- The thread goes on with its restart. -/
theorem Rising.moved_own (hRising : m.Rising) (h : m.Composed)
    (hMoved : m.Moved i action rest e m') (hPerform : action.perform i (m.last i) m.stream = some e)
    (hLast : m'.last i = e.result.getD (m.last i)) (hx : x ∈ m'.agenda i)
    (hOutcome : x.isOutcome = true) : m'.Rises i x := by
  rw [hMoved.own] at hx
  rcases List.mem_append.mp hx with hNext | hRest
  · -- The restart goes on to start the stream.
    have hStems := (h.toLocked.advances hMoved).stems x hNext
    cases x
    case endRestart =>
      cases action
      case checkPending budget vigil limit profile consumer =>
        cases hPerform
        obtain rfl : rest = [] := hMoved.fits h.toLocked
        have hOwn := hMoved.own
        rcases m.stream.checkPending_cases (m.last i) budget vigil limit profile consumer with
          ⟨_, _, n, hBack⟩ | ⟨_, _, hStart⟩
        · rw [hBack] at hNext
          rcases List.mem_append.mp hNext with hTell | hWatch
          · cases (Notice.isRenewal_of_mem_tellAll hTell).1
          · simp at hWatch
        · rw [hStart] at hNext hOwn
          simp only [Action.start, List.cons_append, List.nil_append, List.mem_cons, reduceCtorEq,
            List.not_mem_nil, or_false, false_or] at hNext
          rw [hNext]
          refine .inr ⟨[.acquire .restart, .checkStart profile consumer], hOwn,
            .inl ⟨[.acquire .restart], _, rfl, ?_, rfl⟩⟩
          simp
      all_goals cases hStems
    all_goals cases hOutcome
  · have hBefore := hRising i x (hMoved.agenda ▸ List.mem_cons_of_mem _ hRest) hOutcome
    have hQuiet : m.stream.control.quiet = true := h.quiet i x
      (hMoved.agenda ▸ List.mem_cons_of_mem _ hRest) (Action.isRenewal_of_isOutcome hOutcome)
    rcases hBefore with ⟨hAlone, _⟩ | ⟨start, hAgenda, hDecided⟩
    · obtain ⟨_, rfl⟩ := List.cons.inj (hMoved.agenda.symm.trans hAlone)
      cases hRest
    · cases start with
      | nil =>
        obtain ⟨rfl, rfl⟩ := List.cons.inj (hMoved.agenda.symm.trans hAgenda)
        have hOwn := hMoved.own
        cases hPerform
        refine .inl ⟨hOwn, ?_⟩
        rw [hLast, hMoved.stream]
        rcases hDecided with ⟨pre, y, hNil, _⟩ | ⟨_, hActive⟩
        · simp at hNil
        · exact hActive
      | cons a start =>
        rw [List.cons_append] at hAgenda
        obtain ⟨rfl, rfl⟩ := List.cons.inj (hMoved.agenda.symm.trans hAgenda)
        refine .inr ⟨e.next ++ start, ?_, ?_⟩
        · rw [hMoved.own, List.append_assoc]
        · rw [hLast, hMoved.stream]
          exact hDecided.of_perform h.calm hQuiet (fun hInert => (h.meets hMoved hInert).1)
            hPerform

/-- Others leave it to the thread that has the restart in hand. -/
theorem Rising.moved_other (hRising : m.Rising) (h : m.Composed)
    (hMoved : m.Moved i action rest e m')
    (hLasts : ∀ j, j ≠ i → j < m.threads.length → m'.last j = m.last j) (hk : k ≠ i)
    (hx : x ∈ m'.agenda k) (hOutcome : x.isOutcome = true) : m'.Rises k x := by
  have hRenewal := Action.isRenewal_of_isOutcome hOutcome
  rcases hMoved.others k hk with hSame | ⟨_, hSpawned⟩
  · rw [hSame] at hx
    obtain ⟨last, hPerform⟩ := hMoved.performs
    have hHolds := (h.sound k).owed_pos hx (Action.isUnderway_of_isRenewal hRenewal)
    have hGuarded := h.toLocked.isGuarded_eq_false hHolds (Ne.symm hk) hMoved.agenda
    have hActive (hBefore : m.last k = .ok () → m.stream.control.state.isActive = true) :
        m'.last k = .ok () → m'.stream.control.state.isActive = true := by
      rw [hLasts k hk (lt_length_of_agenda (List.ne_nil_of_mem hx)), hMoved.stream]
      intro hOk
      rcases (Action.drift_of_perform hGuarded hPerform).1 with hKept | ⟨_, hStreaming⟩
      · rw [hKept]
        exact hBefore hOk
      · rw [hStreaming]
        rfl
    rcases hRising k x hx hOutcome with ⟨hAlone, hBefore⟩ | ⟨start, hAgenda, hDecided⟩
    · exact .inl ⟨hSame.trans hAlone, hActive hBefore⟩
    · exact .inr ⟨start, hSame.trans hAgenda, hDecided.imp_right fun ⟨hNil, hBefore⟩ =>
        ⟨hNil, hActive hBefore⟩⟩
  · have hBegets := ((h.toLocked.advances hMoved).spawned _ hSpawned).2.2
    cases (Action.harmless_of_begets (List.all_eq_true.mp hBegets x hx)).1.symm.trans hRenewal

theorem Rising.step (hRising : m.Rising) (h : m.Composed) (hStep : m.step? i = some m') :
    m'.Rising := by
  obtain ⟨action, rest, e, hMoved, hPerform, hLast, hLasts⟩ := moved_and_last_of_step hStep
  intro k x hx hOutcome
  by_cases hk : k = i
  · subst hk
    exact hRising.moved_own h hMoved hPerform hLast hx hOutcome
  · exact hRising.moved_other h hMoved hLasts hk hx hOutcome

/-- A restart that is carried through leaves the stream active. -/
theorem Rising.isActive {budget : Budget} {vigil : Vigil} {limit : Nat} {profile : Profile}
    {consumer : ConsumerId} (hRising : m.Rising)
    (hAgenda : m.agenda k = [.endRestart budget vigil limit profile consumer])
    (hStep : m.step? k = some m') : m'.stream.control.state.isActive = true := by
  obtain ⟨action, rest, e, hMoved, hPerform, _⟩ := moved_and_last_of_step hStep
  obtain ⟨rfl, rfl⟩ := List.cons.inj (hMoved.agenda.symm.trans hAgenda)
  cases hPerform
  rw [hMoved.stream]
  have hControl := m.stream.control_endRestart (m.last k) budget vigil limit profile consumer
  rcases hRising k _ (hAgenda ▸ List.mem_cons_self) rfl with ⟨_, hActive⟩ | ⟨start, hOther, _⟩
  · cases hLast : m.last k with
    | ok =>
      rw [hLast] at hControl
      rw [hControl]
      exact hActive hLast
    | error cause =>
      rw [hLast] at hControl
      rw [hControl, Stream.hold_eq]
      rfl
  · have hLength := congrArg List.length (hAgenda.symm.trans hOther)
    simp at hLength

end Machine

end LidarSweep

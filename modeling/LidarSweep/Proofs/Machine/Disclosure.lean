import LidarSweep.Proofs.Machine.Rising

/-!
# What restarts and failures tell listeners

A thread that has the restart lock in hand either goes on with its operation, or has only to tell
of it before it lets go of the lock (`Machine.Closing`).  A restart tells listeners nothing until it
is over, so what it tells them is one state at most; and a failure tells them nothing but that.
-/

namespace LidarSweep

/-- What thread `k` told listener `i`. -/
def toldBy (k : ThreadId) (i : Nat) (events : List Event) : List StreamState :=
  told i (events.filter fun event => event.thread = k)

theorem toldBy_concat (k : ThreadId) (i : Nat) (events : List Event) (event : Event) :
    toldBy k i (events ++ [event]) =
      toldBy k i events ++ if event.thread = k then (event.action.news? i).toList else [] := by
  rw [toldBy, List.filter_append, told_append]
  congr 1
  by_cases hOwn : event.thread = k
  · rw [if_pos hOwn, List.filter_cons_of_pos (by simpa using hOwn)]
    exact told_concat i [] event
  · rw [if_neg hOwn, List.filter_cons_of_neg (by simpa using hOwn)]
    rfl

/-- The restart lock is in hand as long as it is to be let go of. -/
theorem owed_of_isInert {pre rest : List Action} (h : ∀ x ∈ pre, x.isInert = true) :
    0 < owed (pre ++ .release .restart :: rest) :=
  owed_of_ne_acquire (fun x hx => by rintro rfl; cases h _ hx) rest

namespace Machine

variable {m m' m₀ : Machine} {i k : ThreadId} {action x : Action} {rest : List Action} {e : Effect}
  {p : StreamState} {events : List Event} {listener : Nat} {states : List StreamState}

/-- Thread `k` has only to tell of what it has done under the restart lock, or has let go of the
lock; then it has told the listener `states`. -/
def Closing (m : Machine) (k : ThreadId) (listener : Nat) (events : List Event)
    (states : List StreamState) : Prop :=
  (∃ pre rest, m.agenda k = pre ++ .release .restart :: rest ∧ (∀ x ∈ pre, x.isInert = true) ∧
      owed rest = 0 ∧ toldBy k listener events ++ news listener pre = states) ∨
    owed (m.agenda k) = 0 ∧ toldBy k listener events = states

/-- What others do is not told by thread `k`. -/
theorem toldBy_of_ne (hk : i ≠ k) (events : List Event) (listener : Nat) :
    toldBy k listener (events ++ [{ action, before := m.stream, thread := i, rest }]) =
      toldBy k listener events := by
  rw [toldBy_concat, if_neg hk, List.append_nil]

/-- What a thread does adds to what it told. -/
theorem toldBy_of_own (events : List Event) (listener : Nat) :
    toldBy k listener (events ++ [{ action, before := m.stream, thread := k, rest }]) =
      toldBy k listener events ++ (action.news? listener).toList := by
  rw [toldBy_concat, if_pos rfl]

/-- Who has something before it stays where it is while others move. -/
theorem Moved.agenda_of_owed (hMoved : m.Moved i action rest e m') (hk : i ≠ k)
    (hHolds : 0 < owed (m.agenda k)) : m'.agenda k = m.agenda k := by
  refine hMoved.agenda_of_ne (Ne.symm hk) (lt_length_of_agenda fun hNone => ?_)
  rw [hNone] at hHolds
  cases hHolds

theorem Closing.moved (hClosing : m.Closing k listener events states) (h : m.Composed)
    (hMoved : m.Moved i action rest e m') (hHolds : 0 < owed (m.agenda k)) :
    m'.Closing k listener (events ++ [{ action, before := m.stream, thread := i, rest }])
      states := by
  rcases hClosing with ⟨pre, rest', hAgenda, hInert, hFree, hStates⟩ | ⟨hFree, _⟩
  · by_cases hk : i = k
    · subst hk
      obtain ⟨last, hPerform⟩ := hMoved.performs
      cases pre with
      | nil =>
        obtain ⟨rfl, rfl⟩ := List.cons.inj (hMoved.agenda.symm.trans hAgenda)
        have hOwn := hMoved.own
        cases hPerform
        refine .inr ⟨?_, ?_⟩
        · rw [hOwn]
          exact hFree
        · rw [toldBy_of_own]
          exact hStates
      | cons a pre =>
        obtain ⟨rfl, rfl⟩ := List.cons.inj (hMoved.agenda.symm.trans hAgenda)
        have hNext := Action.next_of_isInert (hInert _ List.mem_cons_self) h.calm hPerform
        refine .inl ⟨pre, rest', ?_, fun x hx => hInert x (List.mem_cons_of_mem _ hx), hFree, ?_⟩
        · rw [hMoved.own, hNext]
          rfl
        · rw [toldBy_of_own, List.append_assoc, ← news_cons]
          exact hStates
    · refine .inl ⟨pre, rest', (hMoved.agenda_of_owed hk hHolds).trans hAgenda, hInert, hFree, ?_⟩
      rw [toldBy_of_ne hk]
      exact hStates
  · omega

/-- A thread that begins to tell of what it did is closing. -/
theorem closing_of_next {pre rest' : List Action}
    (hAgenda : m.agenda k = pre ++ .release .restart :: rest')
    (hPre : ∀ x ∈ pre, x.isInert = true) (hFree : owed rest' = 0)
    (hNone : toldBy k listener events = []) :
    m.Closing k listener events (news listener pre) :=
  .inl ⟨pre, rest', hAgenda, hPre, hFree, by rw [hNone, List.nil_append]⟩

/-- What a closing thread has told so far is part of what it tells. -/
theorem Closing.length_told_le (h : m.Closing k listener events states) :
    (toldBy k listener events).length ≤ states.length := by
  rcases h with ⟨pre, _, _, _, _, rfl⟩ | ⟨_, rfl⟩
  · rw [List.length_append]
    exact Nat.le_add_right _ _
  · exact Nat.le_refl _

/-- Without the lock, a closing thread has told all it had to. -/
theorem Closing.told_eq (h : m.Closing k listener events states) (hFree : owed (m.agenda k) = 0) :
    toldBy k listener events = states := by
  rcases h with ⟨pre, rest, hAgenda, hInert, _⟩ | ⟨_, hStates⟩
  · have hHolds : 0 < owed (pre ++ .release .restart :: rest) := owed_of_isInert hInert
    rw [← hAgenda] at hHolds
    omega
  · exact hStates

/-! ### Restarts -/

/-- Thread `k` is in the middle of a restart, and tells nobody. -/
def Hiding (m : Machine) (k : ThreadId) : Prop :=
  (∀ x ∈ m.agenda k, x.tells = false) ∧
    ((∃ budget vigil limit, m.agenda k = [.beginRestart budget vigil limit]) ∨
      ∃ x ∈ m.agenda k, x.isRenewal = true)

/-- Thread `k` has told nothing yet of its restart, or has only to tell of it. -/
def Restarting (m : Machine) (k : ThreadId) (listener : Nat) (events : List Event) : Prop :=
  m.Hiding k ∧ toldBy k listener events = [] ∨
    ∃ states, states.length ≤ 1 ∧ m.Closing k listener events states

/-- A step that does not show the stream to listeners is hidden. -/
theorem Hiding.moved_of_not_mutes (hHiding : m.Hiding k) (h : m.Composed)
    (hMoved : m.Moved k action rest e m') (hMutes : action.mutes = false) : m'.Hiding k := by
  obtain ⟨hTells, hWhere⟩ := hHiding
  obtain ⟨last, hPerform⟩ := hMoved.performs
  have hRenewal : ∃ x ∈ rest, x.isRenewal = true := by
    rcases hWhere with ⟨budget, vigil, limit, hBegin⟩ | ⟨x, hx, hRenewal⟩
    · obtain ⟨rfl, _⟩ := List.cons.inj (hMoved.agenda.symm.trans hBegin)
      cases hMutes
    · rw [hMoved.agenda] at hx
      rcases List.mem_cons.mp hx with rfl | hRest
      · cases (Action.mutes_of_isRenewal hRenewal).symm.trans hMutes
      · exact ⟨x, hRest, hRenewal⟩
  have hNotLoud : ¬ action.IsLoud m.stream.control e.stream.control :=
    Action.not_isLoud_of_quiet (h.toLocked.quiet_rest hMoved hRenewal) hMutes
  have hSilent :=
    (Action.announces_of_perform (h.toLocked.advances hMoved).stems hPerform).2 hNotLoud
  obtain ⟨x, hx, hTrue⟩ := hRenewal
  refine ⟨fun y hy => ?_, .inr ⟨x, ?_, hTrue⟩⟩
  · rw [hMoved.own] at hy
    rcases List.mem_append.mp hy with hNext | hRest
    · exact hSilent y hNext
    · exact hTells y (hMoved.agenda ▸ List.mem_cons_of_mem _ hRest)
  · rw [hMoved.own]
    exact List.mem_append_right _ hx

/-- The watcher begins a restart, or has none to begin. -/
theorem restarting_of_beginRestart {budget : Budget} {vigil : Vigil} {limit : Nat}
    (h : m.Composed) (hMoved : m.Moved k (.beginRestart budget vigil limit) rest e m')
    (hNone : toldBy k listener events = []) : m'.Restarting k listener events := by
  obtain ⟨last, hPerform⟩ := hMoved.performs
  obtain ⟨rfl, _⟩ := hMoved.fits h.toLocked
  have hOwn := hMoved.own
  cases hPerform
  rw [Stream.beginRestart_eq, List.append_nil] at hOwn
  cases hRenewal : m.stream.renewal? vigil with
  | none =>
    rw [hRenewal] at hOwn
    have hBack : m'.agenda k = [] ++ .release .restart :: [.watch budget] := hOwn
    exact .inr ⟨[], Nat.zero_le 1, closing_of_next hBack (List.forall_mem_nil _) rfl hNone⟩
  | some renewal =>
    obtain ⟨profile, consumer⟩ := renewal
    rw [hRenewal] at hOwn
    have hBegun : m'.agenda k =
        [.halt .stopped, .checkPending budget vigil limit profile consumer] := hOwn
    refine .inl ⟨⟨?_, .inr ⟨_, hBegun ▸ List.mem_cons_of_mem _ List.mem_cons_self, rfl⟩⟩, hNone⟩
    simp [hBegun, Action.tells]

/-- A restart that has stopped the stream goes on, or a stop that was asked for is told of. -/
theorem restarting_of_checkPending {budget : Budget} {vigil : Vigil} {limit : Nat}
    {profile : Profile} {consumer : ConsumerId} (h : m.Composed)
    (hMoved : m.Moved k (.checkPending budget vigil limit profile consumer) rest e m')
    (hNone : toldBy k listener events = []) : m'.Restarting k listener events := by
  obtain ⟨last, hPerform⟩ := hMoved.performs
  obtain rfl : rest = [] := hMoved.fits h.toLocked
  have hOwn := hMoved.own
  cases hPerform
  rcases m.stream.checkPending_cases last budget vigil limit profile consumer with
    ⟨_, _, n, hNext⟩ | ⟨_, _, hNext⟩
  · rw [hNext, List.append_nil] at hOwn
    exact .inr ⟨_, length_news_tellAll listener n,
      closing_of_next hOwn (fun x hx => Notice.isInert_of_mem_tellAll hx) rfl hNone⟩
  · rw [hNext, List.append_nil] at hOwn
    have hGoesOn : m'.agenda k = [.acquire .restart, .checkStart profile consumer,
        .release .restart, .endRestart budget vigil limit profile consumer] := hOwn
    refine .inl ⟨⟨?_, .inr ⟨.endRestart budget vigil limit profile consumer, ?_, rfl⟩⟩, hNone⟩
    all_goals simp [hGoesOn, Action.tells]

/-- Where a restart is over, its outcome is told of. -/
theorem restarting_of_endRestart {budget : Budget} {vigil : Vigil} {limit : Nat}
    {profile : Profile} {consumer : ConsumerId} (h : m.Composed)
    (hMoved : m.Moved k (.endRestart budget vigil limit profile consumer) rest e m')
    (hNone : toldBy k listener events = []) : m'.Restarting k listener events := by
  obtain ⟨last, hPerform⟩ := hMoved.performs
  obtain rfl : rest = [] := hMoved.fits h.toLocked
  have hOwn := hMoved.own
  cases hPerform
  obtain ⟨n, hNext⟩ : ∃ n, (m.stream.endRestart last budget vigil limit profile consumer).next =
      Notice.tellAll n ++ [.release .restart, .reckon (budget.retries + 1) limit] := by
    by_cases hSame : (m.stream.endRestart last budget vigil limit profile
        consumer).stream.control.state = vigil.state
    · exact ⟨none, congrArg (· ++ _) (if_pos hSame)⟩
    · exact ⟨_, congrArg (· ++ _) (if_neg hSame)⟩
  rw [hNext, List.append_nil] at hOwn
  exact .inr ⟨_, length_news_tellAll listener n,
    closing_of_next hOwn (fun x hx => Notice.isInert_of_mem_tellAll hx) rfl hNone⟩

/-- A restart is hidden until it is over. -/
theorem Hiding.moved (hHiding : m.Hiding k) (h : m.Composed) (hMoved : m.Moved k action rest e m')
    (hNone : toldBy k listener events = []) : m'.Restarting k listener events := by
  by_cases hMutes : action.mutes = true
  · cases action
    case beginRestart => exact restarting_of_beginRestart h hMoved hNone
    case checkPending => exact restarting_of_checkPending h hMoved hNone
    case endRestart => exact restarting_of_endRestart h hMoved hNone
    all_goals cases hMutes
  · exact .inl ⟨hHiding.moved_of_not_mutes h hMoved (Bool.not_eq_true _ ▸ hMutes), hNone⟩

theorem Restarting.moved (hRestarting : m.Restarting k listener events) (h : m.Composed)
    (hMoved : m.Moved i action rest e m') (hHolds : 0 < owed (m.agenda k)) :
    m'.Restarting k listener
      (events ++ [{ action, before := m.stream, thread := i, rest }]) := by
  rcases hRestarting with ⟨hHiding, hNone⟩ | ⟨states, hLength, hClosing⟩
  · by_cases hk : i = k
    · subst hk
      have hThere : action ∈ m.agenda i := hMoved.agenda ▸ List.mem_cons_self
      refine hHiding.moved h hMoved ?_
      rw [toldBy_of_own, hNone, Action.news_of_tells (hHiding.1 action hThere)]
      rfl
    · refine .inl ⟨?_, (toldBy_of_ne hk events listener).trans hNone⟩
      rw [Hiding, hMoved.agenda_of_owed hk hHolds]
      exact hHiding
  · exact .inr ⟨states, hLength, hClosing.moved h hMoved hHolds⟩

theorem Restarting.length_told_le (h : m.Restarting k listener events) :
    (toldBy k listener events).length ≤ 1 := by
  rcases h with ⟨_, hNone⟩ | ⟨states, hLength, hClosing⟩
  · rw [hNone]
    exact Nat.zero_le _
  · exact hClosing.length_told_le.trans hLength

/-! ### Failures -/

/-- Thread `k` makes the stream fail, and tells nobody before it has. -/
def Failing (m : Machine) (k : ThreadId) : Prop :=
  m.stream.control.quiet = false ∧ ∃ pre rest, m.agenda k = pre ++ .release .restart :: rest ∧
    owed rest = 0 ∧ (∀ x ∈ pre, x.tells = false ∧ (x.isInert = true ∨ x.fails = true)) ∧
    ∃ x ∈ pre, x.fails = true

/-- Thread `k` is about to give up a stream, is in the middle of it, or has only to tell of it. -/
def GivingUp (m : Machine) (k : ThreadId) (listener : Nat) (isActive : Bool)
    (events : List Event) : Prop :=
  (m.stream.control.quiet = false ∧ m.stream.control.state.isActive = isActive ∧
      toldBy k listener events = [] ∧ ∃ rest, owed rest = 0 ∧
        m.agenda k = .beginHalt .failed :: .release .restart :: rest) ∨
    (isActive = true ∧ m.Failing k ∧ toldBy k listener events = []) ∨
    m.Closing k listener events (if isActive then [.error] else [])

/-- When a failing stream is settled, that it has failed is all that is left to be told. -/
theorem closing_of_settle {result : Except Error Unit} {pre : List Action} (h : m.Composed)
    (hMoved : m.Moved k (.settle .failed result) (pre ++ .release .restart :: rest) e m')
    (hQuiet : m.stream.control.quiet = false) (hFree : owed rest = 0)
    (hBehind : ∀ y ∈ pre, y.tells = false ∧ (y.isInert = true ∨ y.fails = true))
    (hThere : listener < m.stream.control.listeners.length)
    (hNone : toldBy k listener events = []) : m'.Closing k listener events [.error] := by
  obtain ⟨last, hPerform⟩ := hMoved.performs
  obtain ⟨hStopping, hBare⟩ := h.meets hMoved rfl
  have hState : e.stream.control.state = .error := by
    cases hPerform
    rw [m.stream.control_settle]
    rfl
  have hLoud : (Action.settle .failed result).IsLoud m.stream.control e.stream.control := by
    refine ⟨hQuiet, ?_⟩
    rw [hState, show m.stream.control.state = .stopping from hStopping]
    decide
  have hInert : ∀ y ∈ pre, y.isInert = true := fun y hy => by
    refine (hBehind y hy).2.resolve_right fun hTrue => ?_
    cases (hBare y (List.mem_append_left _ hy)).symm.trans
      (Action.isTimed_of_settles (Action.settles_of_fails hTrue))
  obtain ⟨l, hNext, hl⟩ :=
    (Action.announces_of_perform (h.toLocked.advances hMoved).stems hPerform).1 hLoud
  have hNews : news listener (e.next ++ pre) = [.error] := by
    have hLength := Action.length_listeners_of_perform hPerform
    rw [news_append, hNext, news_append, news_tellAll, news_of_tells hl,
      news_of_tells fun y hy => (hBehind y hy).1, if_pos (hLength ▸ hThere), hState]
    rfl
  have hOver : ∀ y ∈ e.next ++ pre, y.isInert = true := by
    refine List.forall_mem_append.mpr ⟨fun y hy => ?_, hInert⟩
    cases hPerform
    rcases List.mem_append.mp hy with hTell | hConclude
    · exact Notice.isInert_of_mem_tellAll hTell
    · rw [List.mem_singleton.mp hConclude]
      rfl
  have hOwn := hMoved.own
  rw [← List.append_assoc] at hOwn
  rw [← hNews]
  exact closing_of_next hOwn hOver hFree hNone

/-- A failure fails the stream, and then tells of it. -/
theorem Failing.moved (hFailing : m.Failing k) (h : m.Composed)
    (hMoved : m.Moved k action rest e m') (hThere : listener < m.stream.control.listeners.length)
    (hNone : toldBy k listener events = []) :
    m'.Failing k ∨ m'.Closing k listener events [.error] := by
  obtain ⟨hQuiet, pre, rest', hAgenda, hFree, hPre, x, hx, hFails⟩ := hFailing
  obtain ⟨last, hPerform⟩ := hMoved.performs
  have hMutes : action.mutes = false := by
    refine Action.mutes_of_fits (hMoved.fits h.toLocked) ?_
    rintro rfl
    have hLength := congrArg List.length (hMoved.agenda.symm.trans hAgenda)
    have hPos := List.length_pos_of_mem hx
    simp only [List.length_cons, List.length_nil, List.length_append] at hLength
    omega
  have hQuiet' : m'.stream.control.quiet = false := (hMoved.quiet_eq hMutes).trans hQuiet
  cases pre with
  | nil => cases hx
  | cons a pre =>
    rw [List.cons_append] at hAgenda
    obtain ⟨rfl, rfl⟩ := List.cons.inj (hMoved.agenda.symm.trans hAgenda)
    have hBehind : ∀ y ∈ pre, y.tells = false ∧ (y.isInert = true ∨ y.fails = true) := fun y hy =>
      hPre y (List.mem_cons_of_mem _ hy)
    rcases (hPre action List.mem_cons_self).2 with hInert | hFatal
    · refine .inl ⟨hQuiet', pre, rest', ?_, hFree, hBehind, x, ?_, hFails⟩
      · rw [hMoved.own, Action.next_of_isInert hInert h.calm hPerform]
        rfl
      · rcases List.mem_cons.mp hx with rfl | hLater
        · cases x <;> first | (cases hInert; done) | cases hFails
        · exact hLater
    · cases action
      case closeSource ending =>
        obtain rfl : ending = .failed := of_decide_eq_true hFatal
        cases hPerform
        obtain ⟨result, hNext⟩ := m.stream.next_closeSource .failed
        have hOwn := hMoved.own
        rw [hNext, ← List.append_assoc] at hOwn
        refine .inl ⟨hQuiet', _, rest', hOwn, hFree, List.forall_mem_append.mpr ⟨?_, hBehind⟩,
          .settle .failed result, by simp, rfl⟩
        simp [Action.tells, Action.isInert, Action.fails]
      case settle ending result =>
        obtain rfl : ending = .failed := of_decide_eq_true hFatal
        exact .inr (closing_of_settle h hMoved hQuiet hFree hBehind hThere hNone)
      all_goals cases hFatal

theorem GivingUp.moved_own {isActive : Bool} (hGiving : m.GivingUp k listener isActive events)
    (h : m.Composed) (hMoved : m.Moved k action rest e m') (hHolds : 0 < owed (m.agenda k))
    (hThere : listener < m.stream.control.listeners.length) :
    m'.GivingUp k listener isActive
      (events ++ [{ action, before := m.stream, thread := k, rest }]) := by
  have hNone (hTells : action.tells = false) (hBefore : toldBy k listener events = []) :
      toldBy k listener (events ++ [{ action, before := m.stream, thread := k, rest }]) = [] := by
    rw [toldBy_of_own, hBefore, Action.news_of_tells hTells]
    rfl
  rcases hGiving with ⟨hQuiet, hActive, hBefore, rest', hFree, hAgenda⟩ |
    ⟨hActive, hFailing, hBefore⟩ | hClosing
  · obtain ⟨rfl, rfl⟩ := List.cons.inj (hMoved.agenda.symm.trans hAgenda)
    obtain ⟨last, hPerform⟩ := hMoved.performs
    have hQuiet' : m'.stream.control.quiet = false := (hMoved.quiet_eq rfl).trans hQuiet
    have hSteady : m.stream.control.state ≠ .stopping := h.not_stopping_of_beginHalt hMoved
    have hOwn := hMoved.own
    cases hPerform
    rcases m.stream.beginHalt_cases .failed with ⟨hOver, _, hNil⟩ | ⟨hGoing, _, _⟩
    · rw [hNil] at hOwn
      have hEnded : isActive = false := by
        rw [← hActive]
        rcases hOver with hState | hState <;> rw [hState] <;> rfl
      rw [hEnded]
      have hBack : m'.agenda k = [] ++ .release .restart :: rest' := hOwn
      exact .inr (.inr (closing_of_next hBack (List.forall_mem_nil _) hFree (hNone rfl hBefore)))
    · have hBegun : m'.agenda k = [.closeSource .failed] ++ .release .restart :: rest' := by
        rw [hOwn, Stream.beginHalt, if_neg hGoing]
        rfl
      have hWas : isActive = true := by
        rw [not_or] at hGoing
        rw [← hActive]
        generalize m.stream.control.state = state at hSteady hGoing
        cases state <;> first
          | rfl | exact absurd rfl hGoing.1 | exact absurd rfl hGoing.2 | exact absurd rfl hSteady
      refine .inr (.inl ⟨hWas, ⟨hQuiet', _, rest', hBegun, hFree, ?_, _, List.mem_cons_self, rfl⟩,
        hNone rfl hBefore⟩)
      simp [Action.tells, Action.fails]
  · have hTells : action.tells = false := by
      obtain ⟨_, pre, rest', hAgenda, _, hPre, x, hx, _⟩ := hFailing
      cases pre with
      | nil => cases hx
      | cons a pre =>
        obtain ⟨rfl, _⟩ := List.cons.inj (hMoved.agenda.symm.trans hAgenda)
        exact (hPre action List.mem_cons_self).1
    have hNow := hNone hTells hBefore
    subst hActive
    exact .inr ((hFailing.moved h hMoved hThere hNow).imp_left fun hStill => ⟨rfl, hStill, hNow⟩)
  · exact .inr (.inr (hClosing.moved h hMoved hHolds))

/-- Others can neither fail the stream nor help it. -/
theorem GivingUp.moved_other {isActive : Bool} (hGiving : m.GivingUp k listener isActive events)
    (h : m.Composed) (hMoved : m.Moved i action rest e m') (hHolds : 0 < owed (m.agenda k))
    (hk : i ≠ k) :
    m'.GivingUp k listener isActive
      (events ++ [{ action, before := m.stream, thread := i, rest }]) := by
  obtain ⟨last, hPerform⟩ := hMoved.performs
  have hGuarded := h.toLocked.isGuarded_eq_false hHolds hk hMoved.agenda
  have hSame := hMoved.agenda_of_owed hk hHolds
  have hQuiet (hBefore : m.stream.control.quiet = false) : m'.stream.control.quiet = false :=
    (hMoved.quiet_eq (Action.mutes_of_isGuarded hGuarded)).trans hBefore
  rcases hGiving with ⟨hBefore, hActive, hNone, hBegin⟩ | ⟨hActive, ⟨hBefore, hFailing⟩, hNone⟩ |
    hClosing
  · refine .inl ⟨hQuiet hBefore, ?_, (toldBy_of_ne hk events listener).trans hNone,
      hSame ▸ hBegin⟩
    rw [hMoved.stream]
    rcases (Action.drift_of_perform hGuarded hPerform).1 with hKept | ⟨hWas, hState⟩
    · rwa [hKept]
    · rw [hState, ← hActive, hWas]
      rfl
  · exact .inr (.inl ⟨hActive, ⟨hQuiet hBefore, hSame ▸ hFailing⟩,
      (toldBy_of_ne hk events listener).trans hNone⟩)
  · exact .inr (.inr (hClosing.moved h hMoved hHolds))

/-- Who has given up has told of the failure, if there was one. -/
theorem GivingUp.told_eq {isActive : Bool} (hGiving : m.GivingUp k listener isActive events)
    (h : m.Composed) (hFree : owed (m.agenda k) = 0) :
    toldBy k listener events = if isActive then [.error] else [] := by
  rcases hGiving with ⟨_, _, _, rest, _, hAgenda⟩ |
    ⟨_, ⟨_, pre, rest, hAgenda, _, _, x, hx, hFails⟩, _⟩ | hClosing
  · rw [hAgenda] at hFree
    cases hFree
  · have hHolds := (h.sound k).owed_pos (x := x) (hAgenda ▸ List.mem_append_left _ hx)
      (Action.isUnderway_of_settles (Action.settles_of_fails hFails))
    omega
  · exact hClosing.told_eq hFree

/-! ### Histories -/

theorem Composed.holds (h : m.Composed) (hHeld : m.stream.locks.isHeldBy .restart k = true) :
    0 < owed (m.agenda k) := by
  rw [← h.owed]
  exact (Locks.isHeldBy_iff h.firm).mp hHeld

theorem Restarting.of_attended (hRestarting : m.Restarting k listener []) (h : m.Composed)
    (hPath : Attended m events m')
    (hHeld : ∀ event ∈ events, event.before.locks.isHeldBy .restart k = true) :
    m'.Composed ∧ m'.Restarting k listener events := by
  induction hPath using Attended.induct with
  | here => exact ⟨h, hRestarting⟩
  | change x _ ih => exact ⟨(ih hHeld).1.amid x, (ih hHeld).2⟩
  | join hPassive _ ih => exact ⟨(ih hHeld).1.joined hPassive, (ih hHeld).2⟩
  | step _ _ hMoved _ _ ih =>
    obtain ⟨h', hRestarting'⟩ := ih fun event he => hHeld event (List.mem_append_left _ he)
    have hHolds := h'.holds (hHeld _ (List.mem_append_right _ List.mem_cons_self))
    exact ⟨h'.moved hMoved, hRestarting'.moved h' hMoved hHolds⟩

theorem GivingUp.of_attended {isActive : Bool} (hGiving : m.GivingUp k listener isActive [])
    (h : m.Composed) (hThere : listener < m.stream.control.listeners.length)
    (hPath : Attended m events m')
    (hHeld : ∀ event ∈ events, event.before.locks.isHeldBy .restart k = true) :
    m'.Composed ∧ listener < m'.stream.control.listeners.length ∧
      m'.GivingUp k listener isActive events := by
  induction hPath using Attended.induct with
  | here => exact ⟨h, hThere, hGiving⟩
  | change x _ ih => exact ⟨(ih hHeld).1.amid x, (ih hHeld).2⟩
  | @join _ m₁ l hPassive _ ih =>
    obtain ⟨h', hThere', hGiving'⟩ := ih hHeld
    refine ⟨h'.joined hPassive, ?_, hGiving'⟩
    show listener < (m₁.stream.control.listeners ++ [l]).length
    rw [List.length_append]
    omega
  | @step _ _ _ i _ _ _ _ _ hMoved _ _ ih =>
    obtain ⟨h', hThere', hGiving'⟩ := ih fun event he => hHeld event (List.mem_append_left _ he)
    have hHolds := h'.holds (hHeld _ (List.mem_append_right _ List.mem_cons_self))
    obtain ⟨last, hPerform⟩ := hMoved.performs
    refine ⟨h'.moved hMoved, ?_, ?_⟩
    · rw [hMoved.stream, Action.length_listeners_of_perform hPerform]
      exact hThere'
    · by_cases hk : i = k
      · subst hk
        exact hGiving'.moved_own h' hMoved hHolds hThere'
      · exact hGiving'.moved_other h' hMoved hHolds hk

theorem Rising.of_attended (hFresh : m₀.Fresh) (hCalm : m₀.stream.IsCalm)
    (hPath : Attended m₀ events m) : m.Composed ∧ m.Rising := by
  induction hPath using Attended.induct with
  | here => exact ⟨hFresh.composed hCalm, hFresh.rising⟩
  | change x _ ih => exact ⟨ih.1.amid x, ih.2⟩
  | join hPassive _ ih => exact ⟨ih.1.joined hPassive, ih.2⟩
  | step _ hStep hMoved _ _ ih => exact ⟨ih.1.moved hMoved, ih.2.step ih.1 hStep⟩

/-- Where a failure is about to begin, no restart hides the stream. -/
theorem Informed.quiet_of_beginHalt {ending : Ending} (h : Informed events m p)
    (hAgenda : m.agenda k = .beginHalt ending :: rest)
    (hRest : ∀ x ∈ rest, x.isRenewal = false) : m.stream.control.quiet = false := by
  cases hQuiet : m.stream.control.quiet with
  | false => rfl
  | true =>
    obtain ⟨_, j, x, hx, hRenewal⟩ := h.shown.muted hQuiet
    have hHolds := h.composed.depth_pos hAgenda rfl
    rw [h.composed.owed] at hHolds
    by_cases hj : j = k
    · rw [hj, hAgenda] at hx
      rcases List.mem_cons.mp hx with rfl | hLater
      · cases hRenewal
      · cases (hRest x hLater).symm.trans hRenewal
    · have hFree := h.composed.toLocked.owed_eq_zero hHolds hj
      have hUnderway := (h.composed.sound j).not_isUnderway hFree hx
      cases (Action.harmless_of_not_isUnderway hUnderway).1.symm.trans hRenewal

/-- **What listeners are told.**  Let no listener stop the stream, and every thread tell listeners
what it has to before another one moves on.  Then what a listener is told since it came is a chain
of changes, none to the state before; and whenever nothing is under way, the last of them is the
state of the stream.  A restart tells it of one state at most.  If the restart is carried through it
leaves the stream active, and a thread that gives up an active stream tells the listener just that
it has failed; of one that has been stopped meanwhile there is nothing to tell.  And what a listener
is told it hears: if no other writes it down, it is what has been written down. -/
theorem told_of_attended (hFresh : m₀.Fresh) (hCalm : m₀.stream.IsCalm)
    (hQuiet : m₀.stream.control.quiet = false) (hPath : Attended m₀ events m) (listener : Nat) :
    (told listener events).IsChain (fun a b => a ≠ b ∧ a.mayBecome b = true) ∧
    (m.stream.locks.holder .restart = none → (∀ k, ∀ x ∈ m.agenda k, x.tells = false) →
      ∀ state ∈ (told listener events).getLast?, state = m.stream.control.state) ∧
    (∀ k budget vigil limit, m.agenda k = [.beginRestart budget vigil limit] →
      ∀ later m', Attended m later m' →
        (∀ event ∈ later, event.before.locks.isHeldBy .restart k = true) →
        (toldBy k listener later).length ≤ 1) ∧
    (∀ k budget vigil limit profile consumer,
      m.agenda k = [.endRestart budget vigil limit profile consumer] →
        ∀ m', m.step? k = some m' → m'.stream.control.state.isActive = true) ∧
    (∀ k budget,
      m.agenda k = [.beginHalt .failed, .release .restart, .reportHalt, .watch budget] →
      listener < m.stream.control.listeners.length → ∀ later m', Attended m later m' →
        (∀ event ∈ later, event.before.locks.isHeldBy .restart k = true) →
        m'.stream.locks.isHeldBy .restart k = false →
        toldBy k listener later = if m.stream.control.state.isActive then [.error] else []) ∧
    (IsOnlyKeeper listener events →
      m.stream.journal.states = m₀.stream.journal.states ++ told listener events) := by
  obtain ⟨p, hInformed⟩ := Informed.of_attended hFresh hCalm hQuiet hPath
  obtain ⟨hComposed, hRising⟩ := Rising.of_attended hFresh hCalm hPath
  refine ⟨?_, fun hFree hTold => hInformed.last_told hFree hTold listener,
    fun k budget vigil limit hAgenda later m' hLater hHeld => ?_,
    fun k budget vigil limit profile consumer hAgenda m' hStep => hRising.isActive hAgenda hStep,
    fun k budget hAgenda hThere later m' hLater hHeld hFree => ?_, hPath.states_eq_told⟩
  · obtain ⟨k, _, hHeard⟩ := hInformed.heard
    have hChain := (List.isChain_append.mp (hHeard listener).1.chain).1
    exact hChain.imp fun a b hEdge => ⟨StreamState.ne_of_mayBecome hEdge, hEdge⟩
  · have hHiding : m.Hiding k := by
      refine ⟨?_, .inl ⟨budget, vigil, limit, hAgenda⟩⟩
      simp [hAgenda, Action.tells]
    have hRestarting : m.Restarting k listener [] := .inl ⟨hHiding, rfl⟩
    exact (hRestarting.of_attended hComposed hLater hHeld).2.length_told_le
  · have hShown := hInformed.quiet_of_beginHalt hAgenda (by simp [Action.isRenewal])
    have hGiving : m.GivingUp k listener m.stream.control.state.isActive [] :=
      .inl ⟨hShown, rfl, rfl, _, rfl, hAgenda⟩
    obtain ⟨hComposed', _, hGiving'⟩ := hGiving.of_attended hComposed hThere hLater hHeld
    refine hGiving'.told_eq hComposed' ?_
    rw [← hComposed'.owed]
    refine Nat.eq_zero_of_not_pos fun hPos => ?_
    cases hFree.symm.trans ((Locks.isHeldBy_iff hComposed'.firm).mpr hPos)

open Assembler (pairBytes)

/-- A consumer that stops the stream at its first frame, and a watcher that gives up after one
restart. -/
def busy (work : List (List Request)) : Machine :=
  begin { stopperSetup with config := { recovery := { maxRestarts := 1 } } }.stream work

theorem fresh_busy (work : List (List Request)) :
    (busy work).Fresh ∧ (busy work).stream.IsCalm ∧ (busy work).stream.control.quiet = false :=
  ⟨fresh_begin rfl rfl work, nofun, rfl⟩

/-- The thread holds the restart lock all along. -/
def holdsAll (k : ThreadId) (events : List Event) : Bool :=
  events.all (·.before.locks.isHeldBy .restart k)

/-- Thread `k` is to begin a restart. -/
def isRestarting (m : Machine) (k : ThreadId) : Bool :=
  match m.agenda k with
  | [.beginRestart _ _ _] => true
  | _ => false

theorem agenda_of_isRestarting (h : m.isRestarting k = true) :
    ∃ budget vigil limit, m.agenda k = [.beginRestart budget vigil limit] := by
  unfold isRestarting at h
  split at h
  next budget vigil limit hAgenda => exact ⟨budget, vigil, limit, hAgenda⟩
  · cases h

/-- Thread `k` is to give up. -/
def isGivingUp (m : Machine) (k : ThreadId) : Bool :=
  match m.agenda k with
  | [.beginHalt .failed, .release .restart, .reportHalt, .watch _] => true
  | _ => false

theorem agenda_of_isGivingUp (h : m.isGivingUp k = true) :
    ∃ budget, m.agenda k =
      [.beginHalt .failed, .release .restart, .reportHalt, .watch budget] := by
  unfold isGivingUp at h
  split at h
  next budget hAgenda => exact ⟨budget, hAgenda⟩
  · cases h

/-- A caller starts the stream, packets come, and a watcher is set to work. -/
def audience : Machine := busy
  [[.start pairProfile 7], [.inject (pairBytes 0 1), .inject (pairBytes 0 2)], [.employ]]

/-- The same without packets. -/
def silence : Machine := busy [[.start pairProfile 7], [.employ]]

/-- A listener comes and writes down what it hears. The stream is started and streams, and a restart
of it finds that the consumer has asked for a stop; and where no packet comes at all, the watcher
gives up. -/
theorem told_of_attended_pair :
    (∃ past a later b, Attended audience past a ∧ a.isRestarting 3 = true ∧ Attended a later b ∧
      told 0 (past ++ later) = [.starting, .streaming, .stopped] ∧
      (told 0 (past ++ later)).IsChain (fun a b => a ≠ b ∧ a.mayBecome b = true) ∧
      b.stream.control.state = .stopped ∧ (toldBy 3 0 later).length ≤ 1 ∧
      b.stream.journal.states = told 0 (past ++ later)) ∧
    ∃ past a later b, Attended silence past a ∧ a.isGivingUp 2 = true ∧ Attended a later b ∧
      told 0 past = [.starting] ∧ toldBy 2 0 later = [.error] := by
  have hPassive : Listener.IsPassive { keeps := true } := nofun
  constructor
  · obtain ⟨hFresh, hCalm, hQuiet⟩ := fresh_busy
      [[.start pairProfile 7], [.inject (pairBytes 0 1), .inject (pairBytes 0 2)], [.employ]]
    have hAttends : (audience.joined { keeps := true }).attends
        [.go 2 1, .go 0 10, .go 3 1, .go 1 14, .go 3 2, .pass 3000000000, .go 3 3]
        (fun past a => a.isRestarting 3 && a.attends [.go 3 4, .go 1 3, .go 3 9] fun later b =>
          holdsAll 3 later && decide (told 0 (past ++ later) = [.starting, .streaming, .stopped]) &&
            decide (IsOnlyKeeper 0 (past ++ later)) && b.rests) = true := by
      decide +kernel
    obtain ⟨past, a, hPast, hComposed, hCheck⟩ :=
      exists_of_attends ((hFresh.composed hCalm).joined hPassive) hAttends
    obtain ⟨hBegin, hLeads⟩ := Bool.and_eq_true_iff.mp hCheck
    obtain ⟨later, b, hLater, _, hCheck'⟩ := exists_of_attends hComposed hLeads
    simp only [Bool.and_eq_true, decide_eq_true_eq, holdsAll, List.all_eq_true] at hCheck'
    obtain ⟨⟨⟨hHeld, hTold⟩, hKeeper⟩, hRests⟩ := hCheck'
    obtain ⟨budget, vigil, limit, hAgenda⟩ := agenda_of_isRestarting hBegin
    have hPath := (Attended.here.join hPassive).trans hPast
    obtain ⟨_, _, hRestart, _⟩ := told_of_attended hFresh hCalm hQuiet hPath 0
    obtain ⟨hChain, hLast, _, _, _, hHeard⟩ :=
      told_of_attended hFresh hCalm hQuiet (hPath.trans hLater) 0
    obtain ⟨hFree, hNone⟩ := free_of_rests hRests
    refine ⟨past, a, later, b, hPath, hBegin, hLater, hTold, hChain, Eq.symm ?_,
      hRestart 3 budget vigil limit hAgenda later b hLater hHeld, hHeard hKeeper⟩
    refine hLast hFree hNone .stopped ?_
    rw [List.nil_append, hTold]
    rfl
  · obtain ⟨hFresh, hCalm, hQuiet⟩ := fresh_busy [[.start pairProfile 7], [.employ]]
    have hAttends : (silence.joined { keeps := true }).attends
        [.go 1 1, .go 0 10, .go 2 1, .pass 5000000000, .go 2 27]
        (fun past a => a.isGivingUp 2 && decide (told 0 past = [.starting]) &&
          a.stream.control.state.isActive && decide (0 < a.stream.control.listeners.length) &&
            a.attends [.go 2 9] fun later b =>
              holdsAll 2 later && !b.stream.locks.isHeldBy .restart 2) = true := by
      decide +kernel
    obtain ⟨past, a, hPast, hComposed, hCheck⟩ :=
      exists_of_attends ((hFresh.composed hCalm).joined hPassive) hAttends
    simp only [Bool.and_eq_true, decide_eq_true_eq] at hCheck
    obtain ⟨⟨⟨⟨hGives, hTold⟩, hActive⟩, hThere⟩, hLeads⟩ := hCheck
    obtain ⟨later, b, hLater, _, hCheck'⟩ := exists_of_attends hComposed hLeads
    simp only [Bool.and_eq_true, Bool.not_eq_true', holdsAll, List.all_eq_true] at hCheck'
    obtain ⟨budget, hAgenda⟩ := agenda_of_isGivingUp hGives
    have hPath := (Attended.here.join hPassive).trans hPast
    obtain ⟨_, _, _, _, hGiveUp, _⟩ := told_of_attended hFresh hCalm hQuiet hPath 0
    have hError := hGiveUp 2 budget hAgenda hThere later b hLater hCheck'.1 hCheck'.2
    rw [if_pos hActive] at hError
    exact ⟨past, a, later, b, hPath, hGives, hLater, hTold, hError⟩

end Machine

end LidarSweep

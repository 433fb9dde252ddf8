import LidarSweep.Proofs.Machine.Stop
import LidarSweep.Proofs.Recovery.Tally

/-!
# What stands behind giving up

A watcher counts its attempts for itself, and begins anew only where it happens to look: at a stream
that is not active, or at one with a frame since. So if it has looked at the stream while that was
over, all the attempts it counts against a later start were made after that start
(`Machine.attempts_of_error`). A stop and a start between two looks it does not see: then it goes on
with what it has counted and decided as if there had been none (`Machine.attempts_outlive_stop`).
-/

namespace LidarSweep

namespace Action

/-- Whether the action is part of giving the stream up. -/
def givesUp : Action → Bool
  | halt ending | beginHalt ending | closeSource ending | settle ending _ => ending = .failed
  | _ => false

/-- Whether the action is the watcher's, or part of its giving the stream up. -/
def ofWatcher (action : Action) : Bool := action.isWatching || action.givesUp

/-- Whether the watcher looks at the stream here. -/
def isLook : Action → Bool
  | watch _ => true
  | _ => false

/-- Whether the stream fails here. -/
def isFailure : Action → Bool
  | settle ending _ => ending = .failed
  | _ => false

/-- The attempts that are allowed, where the watcher reads it: when no frame has come in time. A
watcher that is woken before reads nothing. -/
def allowance? (s : Stream) : Action → Option Nat
  | awaitFrame _ vigil =>
    if s.control.wakes = vigil.wakes ∧ vigil.deadlineNs ≤ s.now then
      some s.control.recovery.maxRestarts.toNat
    else none
  | _ => none

/-- What stands behind an action of a watcher: so many attempts, and one of these limits. -/
def Backed (attempts : Nat) (limits : List Nat) : Action → Prop
  | watch budget | awaitWake budget _ | awaitFrame budget _ => budget.retries ≤ attempts
  | stall budget _ limit | beginRestart budget _ limit | checkPending budget _ limit _ _
  | endRestart budget _ limit _ _ => budget.retries ≤ attempts ∧ limit ∈ limits
  | reckon retries limit => retries ≤ attempts ∧ limit ∈ limits
  | halt ending | beginHalt ending | closeSource ending | settle ending _ =>
    ending = .failed → ∃ limit ∈ limits, limit ≤ attempts
  | _ => True

variable {action x : Action} {attempts attempts' : Nat} {limits limits' : List Nat}

theorem Backed.mono (h : x.Backed attempts limits) (hMore : attempts ≤ attempts')
    (hLimits : limits ⊆ limits') : x.Backed attempts' limits' := by
  cases x
  case watch | awaitWake | awaitFrame => exact Nat.le_trans h hMore
  case stall | beginRestart | checkPending | endRestart | reckon =>
    exact ⟨Nat.le_trans h.1 hMore, hLimits h.2⟩
  case halt | beginHalt | closeSource | settle =>
    intro hFailed
    obtain ⟨limit, hMem, hLe⟩ := h hFailed
    exact ⟨limit, hLimits hMem, Nat.le_trans hLe hMore⟩
  all_goals trivial

theorem backed_of_not_ofWatcher (h : x.ofWatcher = false) : x.Backed attempts limits := by
  cases x
  case halt | beginHalt | closeSource | settle =>
    rintro rfl
    cases h
  case watch | awaitWake | awaitFrame | stall | beginRestart | checkPending | endRestart | reckon =>
    cases h
  all_goals trivial

theorem backed_of_begets (h : action.begets x = true) : x.Backed attempts limits := by
  rcases eq_of_begets h with ⟨_, _, _, rfl⟩ | ⟨budget, hRetries, rfl⟩
  · trivial
  · exact Nat.le_trans (Nat.le_of_eq hRetries) (Nat.zero_le _)

/-- A watcher's actions come of a watcher's actions. -/
theorem ofWatcher_of_stemsFrom (h : action.stemsFrom x = true) (hx : x.ofWatcher = true) :
    action.ofWatcher = true := by
  have hWatching (h : action.isWatching = true) : action.ofWatcher = true := by
    rw [ofWatcher, h, Bool.true_or]
  cases x
  case watch | awaitWake | awaitFrame | stall | reckon => exact hWatching h
  case beginRestart | checkPending | endRestart => cases action <;> first | rfl | cases h
  case halt | beginHalt | closeSource | settle =>
    obtain rfl := of_decide_eq_true hx
    cases action <;> first | rfl | exact h | (cases of_decide_eq_true h; rfl) | cases h
  all_goals cases hx

end Action

theorem Notice.backed_tellAll (n : Option Notice) {attempts : Nat} {limits : List Nat} :
    ∀ x ∈ Notice.tellAll n, x.Backed attempts limits := by
  intro x hx
  obtain ⟨_, _, _, rfl⟩ := Notice.eq_tell_of_mem_tellAll hx
  trivial

namespace Stream

variable (s : Stream) {budget : Budget} {vigil : Vigil} {limit attempts : Nat} {limits : List Nat}
  {e : Effect} {ending : Ending}

theorem review_retries_le (c : Control) (budget : Budget) :
    (review c budget).retries ≤ budget.retries := by
  unfold review
  split
  · exact Nat.le_refl _
  · split
    · exact Nat.zero_le _
    · exact Nat.le_refl _
  · exact Nat.zero_le _

theorem backed_watch (h : budget.retries ≤ attempts) :
    ∀ x ∈ (s.watch budget).next, x.Backed attempts limits := by
  have hReview := Nat.le_trans (review_retries_le s.control budget) h
  unfold watch
  dsimp only
  split
  · exact List.forall_mem_nil _
  · split
    · exact List.forall_mem_singleton.mpr hReview
    · exact List.forall_mem_singleton.mpr hReview

theorem backed_awaitWake {wakes : Nat} (hOwn : budget.retries ≤ attempts)
    (h : s.awaitWake? budget wakes = some e) : ∀ x ∈ e.next, x.Backed attempts limits := by
  unfold awaitWake? at h
  split at h
  · cases h
  · cases h
    exact List.forall_mem_singleton.mpr hOwn

/-- The watcher reads here how many attempts are allowed, unless it has been woken. -/
theorem backed_awaitFrame (hOwn : budget.retries ≤ attempts)
    (h : s.awaitFrame? budget vigil = some e) :
    ∀ x ∈ e.next,
      x.Backed attempts (limits ++ ((Action.awaitFrame budget vigil).allowance? s).toList) := by
  unfold awaitFrame? at h
  split at h
  · cases h
    exact List.forall_mem_singleton.mpr hOwn
  next hSame =>
    split at h
    · cases h
    next hDue =>
      cases h
      have hStall : s.control.wakes = vigil.wakes ∧ vigil.deadlineNs ≤ s.now :=
        ⟨Decidable.not_not.mp hSame, Nat.not_lt.mp hDue⟩
      rw [Action.allowance?, if_pos hStall]
      exact List.forall_mem_singleton.mpr ⟨hOwn, List.mem_append_right _ List.mem_cons_self⟩

theorem backed_stall (h : budget.retries ≤ attempts ∧ limit ∈ limits) :
    ∀ x ∈ (s.stall budget vigil limit).next, x.Backed attempts limits := by
  unfold stall
  split
  · exact List.forall_mem_singleton.mpr h.1
  · exact List.forall_mem_cons.mpr ⟨trivial, List.forall_mem_singleton.mpr h⟩

theorem backed_beginRestart (h : budget.retries ≤ attempts ∧ limit ∈ limits) :
    ∀ x ∈ (s.beginRestart budget vigil limit).next, x.Backed attempts limits := by
  rw [beginRestart_eq]
  cases s.renewal? vigil with
  | none => exact List.forall_mem_cons.mpr ⟨trivial, List.forall_mem_singleton.mpr h.1⟩
  | some renewal => exact List.forall_mem_cons.mpr ⟨nofun, List.forall_mem_singleton.mpr h⟩

theorem backed_checkPending {result : Except Error Unit} {profile : Profile} {consumer : ConsumerId}
    (h : budget.retries ≤ attempts ∧ limit ∈ limits) :
    ∀ x ∈ (s.checkPending result budget vigil limit profile consumer).next,
      x.Backed attempts limits := by
  rcases s.checkPending_cases result budget vigil limit profile consumer with
    ⟨_, _, n, hNext⟩ | ⟨_, _, hNext⟩
  · rw [hNext]
    exact List.forall_mem_append.mpr ⟨Notice.backed_tellAll n,
      List.forall_mem_cons.mpr ⟨trivial, List.forall_mem_singleton.mpr h.1⟩⟩
  · rw [hNext]
    refine List.forall_mem_append.mpr ⟨fun x hx => ?_, List.forall_mem_singleton.mpr h⟩
    have hStart : (Action.start profile consumer).all (!·.ofWatcher) = true := rfl
    exact Action.backed_of_not_ofWatcher (by simpa using List.all_eq_true.mp hStart x hx)

/-- The attempt that ends here counts. -/
theorem backed_endRestart {result : Except Error Unit} {profile : Profile} {consumer : ConsumerId}
    (h : budget.retries ≤ attempts ∧ limit ∈ limits) :
    ∀ x ∈ (s.endRestart result budget vigil limit profile consumer).next,
      x.Backed (attempts + 1) limits := by
  have hTells (c : Control) : ∀ x ∈ (if c.state = vigil.state then [] else Notice.tellAll c.notice),
      x.Backed (attempts + 1) limits := by
    split
    · exact List.forall_mem_nil _
    · exact Notice.backed_tellAll _
  exact List.forall_mem_append.mpr ⟨hTells _, List.forall_mem_cons.mpr
    ⟨trivial, List.forall_mem_singleton.mpr ⟨Nat.succ_le_succ h.1, h.2⟩⟩⟩

theorem backed_reckon {retries : Nat} (h : retries ≤ attempts ∧ limit ∈ limits) :
    ∀ x ∈ (s.reckon retries limit).next, x.Backed attempts limits := by
  unfold reckon
  dsimp only
  split
  next hSpent =>
    exact List.forall_mem_cons.mpr ⟨fun _ => ⟨limit, h.2, Nat.le_trans hSpent h.1⟩,
      List.forall_mem_cons.mpr ⟨trivial, List.forall_mem_singleton.mpr h.1⟩⟩
  · exact List.forall_mem_singleton.mpr h.1

theorem backed_halt {me : ThreadId} (h : s.halt? me ending = some e)
    (hOwn : ending = .failed → ∃ limit ∈ limits, limit ≤ attempts) :
    ∀ x ∈ e.next, x.Backed attempts limits := by
  rcases s.halt_cases h with ⟨locks, _, rfl⟩ | ⟨_, ⟨_, rfl⟩ | ⟨_, rfl⟩⟩
  · exact List.forall_mem_cons.mpr ⟨hOwn, List.forall_mem_singleton.mpr trivial⟩
  · exact List.forall_mem_nil _
  · exact List.forall_mem_nil _

theorem backed_beginHalt (h : ending = .failed → ∃ limit ∈ limits, limit ≤ attempts) :
    ∀ x ∈ (s.beginHalt ending).next, x.Backed attempts limits := by
  unfold beginHalt
  split
  · exact List.forall_mem_nil _
  · refine List.forall_mem_append.mpr ⟨?_, List.forall_mem_singleton.mpr h⟩
    split
    · exact Notice.backed_tellAll _
    · exact List.forall_mem_nil _

theorem backed_closeSource (h : ending = .failed → ∃ limit ∈ limits, limit ≤ attempts) :
    ∀ x ∈ (s.closeSource ending).next, x.Backed attempts limits :=
  List.forall_mem_cons.mpr ⟨trivial, List.forall_mem_cons.mpr ⟨trivial,
    List.forall_mem_cons.mpr ⟨trivial, List.forall_mem_singleton.mpr h⟩⟩⟩

theorem backed_settle {result : Except Error Unit} :
    ∀ x ∈ (s.settle ending result).next, x.Backed attempts limits :=
  List.forall_mem_append.mpr ⟨Notice.backed_tellAll _, List.forall_mem_singleton.mpr trivial⟩

end Stream

/-- **What a watcher does next is backed by what it does now**, by the attempt that ends here, and
by the limit that it reads here. -/
theorem Action.backed_of_perform {action : Action} {me : ThreadId} {last : Except Error Unit}
    {s : Stream} {e : Effect} {attempts : Nat} {limits : List Nat}
    (hOwn : action.Backed attempts limits) (h : action.perform me last s = some e)
    (hStems : ∀ x ∈ e.next, action.stemsFrom x = true) :
    ∀ x ∈ e.next, x.Backed (attempts + (Deed.isAttempt ⟨action, s⟩).toNat)
      (limits ++ (action.allowance? s).toList) := by
  cases hWatcher : action.ofWatcher with
  | false =>
    refine fun x hx => backed_of_not_ofWatcher (Bool.eq_false_iff.mpr fun hOf => ?_)
    cases hWatcher.symm.trans (ofWatcher_of_stemsFrom (hStems x hx) hOf)
  | true =>
    cases action
    case awaitFrame => exact s.backed_awaitFrame hOwn h
    all_goals refine (?_ : ∀ x ∈ e.next, x.Backed _ (limits ++ []))
    all_goals rw [List.append_nil]
    case watch => cases h; exact s.backed_watch hOwn
    case awaitWake => exact s.backed_awaitWake hOwn h
    case stall => cases h; exact s.backed_stall hOwn
    case beginRestart => cases h; exact s.backed_beginRestart hOwn
    case checkPending => cases h; exact s.backed_checkPending hOwn
    case endRestart => cases h; exact s.backed_endRestart hOwn
    case reckon => cases h; exact s.backed_reckon hOwn
    case halt => exact s.backed_halt h hOwn
    case beginHalt => cases h; exact s.backed_beginHalt hOwn
    case closeSource => cases h; exact s.backed_closeSource hOwn
    case settle => cases h; exact s.backed_settle
    all_goals cases hWatcher

/-- Only the watcher's giving up makes a stream fail. -/
theorem Action.error_of_perform {action : Action} {me : ThreadId} {last : Except Error Unit}
    {s : Stream} {e : Effect} (h : action.perform me last s = some e)
    (hError : e.stream.control.state = .error) :
    s.control.state = .error ∧ action.isActivation = false ∨ action.isFailure = true := by
  cases steering_of_perform h with
  | still hAlike hMay =>
    refine .inl ⟨hAlike.state ▸ hError, ?_⟩
    cases action <;> first | rfl | cases hMay
  | @settled ending _ _ hControl =>
    rw [hControl] at hError
    cases ending with
    | stopped => cases hError
    | failed => exact .inr rfl
  | deferred _ hControl | muted hControl | unmuted hControl | restarted hControl =>
    rw [hControl] at hError
    exact .inl ⟨hError, rfl⟩
  | activated hControl | reverted hControl | halting _ hControl _ | confirmed _ hControl
  | held hControl =>
    rw [hControl] at hError
    cases hError

/-- The attempts of thread `w`. -/
def attempts (w : ThreadId) (events : List Event) : Nat :=
  events.countP fun e => e.thread = w ∧ e.isAttempt = true

/-- How many attempts were allowed, as often as thread `w` read it at a stall. -/
def allowances (w : ThreadId) (events : List Event) : List Nat :=
  events.filterMap fun e => if e.thread = w then e.action.allowance? e.before else none

theorem attempts_append (w : ThreadId) (events events' : List Event) :
    attempts w (events ++ events') = attempts w events + attempts w events' :=
  List.countP_append

theorem allowances_append (w : ThreadId) (events events' : List Event) :
    allowances w (events ++ events') = allowances w events ++ allowances w events' :=
  List.filterMap_append

theorem attempts_singleton_self (event : Event) :
    attempts event.thread [event] = event.isAttempt.toNat := by
  cases h : event.isAttempt <;> simp [attempts, h]

theorem allowances_singleton_self (event : Event) :
    allowances event.thread [event] = (event.action.allowance? event.before).toList := by
  cases h : event.action.allowance? event.before <;> simp [allowances, h]

/-- A start is no attempt, and nothing is read in it. -/
theorem Event.bare_of_isActivation (event : Event) (h : event.action.isActivation = true)
    (w : ThreadId) : attempts w [event] = 0 ∧ allowances w [event] = [] := by
  obtain ⟨⟨action, before⟩, thread, rest⟩ := event
  cases action
  case activate =>
    exact ⟨by simp [attempts, Deed.isAttempt], by simp [allowances, Action.allowance?]⟩
  all_goals cases h

namespace Machine

variable {m m' a b c : Machine} {i : ThreadId} {action : Action} {rest : List Action} {e : Effect}
  {events : List Event}

/-- Everything before a watcher is backed by what it has done and read since. -/
def Backed (m : Machine) (events : List Event) : Prop :=
  ∀ k, ∀ x ∈ m.agenda k, x.Backed (attempts k events) (allowances k events)

theorem Backed.moved (hBacked : m.Backed events) (h : m.Locked)
    (hMoved : m.Moved i action rest e m') :
    m'.Backed (events ++ [{ action, before := m.stream, thread := i, rest }]) := by
  obtain ⟨last, hPerform⟩ := hMoved.performs
  intro k x hx
  rw [attempts_append, allowances_append]
  have hKept (hOld : x ∈ m.agenda k) := (hBacked k x hOld).mono
    (Nat.le_add_right _ (attempts k [{ action, before := m.stream, thread := i, rest }]))
    (List.subset_append_left _
      (allowances k [{ action, before := m.stream, thread := i, rest }]))
  rcases h.mem_moved hMoved hx with ⟨rfl, hNext⟩ | hOld | hBegets
  · have hOwn := hBacked k action (hMoved.agenda ▸ List.mem_cons_self)
    have hNew := Action.backed_of_perform hOwn hPerform (h.advances hMoved).stems x hNext
    rwa [attempts_singleton_self ⟨⟨action, m.stream⟩, k, rest⟩,
      allowances_singleton_self ⟨⟨action, m.stream⟩, k, rest⟩]
  · exact hKept hOld
  · exact Action.backed_of_begets hBegets

/-- Where a stream has failed since it was started last, a watcher has made as many attempts as it
read to be allowed. -/
theorem Backed.of_path (hBacked : b.Backed []) (h : b.Locked) (hPath : Path b events c) :
    c.Locked ∧ c.Backed events ∧
      (c.stream.control.state = .error →
        (∃ w, ∃ limit ∈ allowances w events, limit ≤ attempts w events) ∨
          ∀ event ∈ events, event.action.isActivation = false) := by
  induction hPath using Path.induct with
  | here => exact ⟨h, hBacked, fun _ => .inr (List.forall_mem_nil _)⟩
  | change x _ ih => exact ⟨ih.1.amid x, ih.2⟩
  | @step events m m' i action rest e _ hMoved _ ih =>
    obtain ⟨hLocked, hBacked', hFailed⟩ := ih
    refine ⟨hLocked.moved hMoved, hBacked'.moved hLocked hMoved, fun hError => ?_⟩
    have hLater (w : ThreadId) (hDone : ∃ limit ∈ allowances w events, limit ≤ attempts w events) :
        ∃ limit ∈ allowances w (events ++ [{ action, before := m.stream, thread := i, rest }]),
          limit ≤ attempts w (events ++ [{ action, before := m.stream, thread := i, rest }]) := by
      obtain ⟨limit, hMem, hLe⟩ := hDone
      rw [attempts_append, allowances_append]
      exact ⟨limit, List.mem_append_left _ hMem, Nat.le_trans hLe (Nat.le_add_right _ _)⟩
    obtain ⟨last, hPerform⟩ := hMoved.performs
    rcases Action.error_of_perform hPerform (hMoved.stream ▸ hError) with ⟨hBefore, hNot⟩ | hFailure
    · refine (hFailed hBefore).imp (fun ⟨w, hDone⟩ => ⟨w, hLater w hDone⟩) fun hNone => ?_
      exact List.forall_mem_append.mpr ⟨hNone, List.forall_mem_singleton.mpr hNot⟩
    · refine .inl ⟨i, hLater i ?_⟩
      have hOwn := hBacked' i action (hMoved.agenda ▸ List.mem_cons_self)
      cases action
      case settle => exact hOwn (of_decide_eq_true hFailure)
      all_goals cases hFailure

/-! ### A look at a stream that is over -/

end Machine

/-- Whether a watcher with this before it has forgotten all attempts, and noticed nothing since. -/
def Action.isAtRest : Action → Bool
  | watch budget | awaitWake budget _ => budget.retries = 0
  | _ => false

theorem Action.backed_of_isAtRest {x : Action} (h : x.isAtRest = true) : x.Backed 0 [] := by
  cases x
  case watch | awaitWake => exact Nat.le_of_eq (of_decide_eq_true h)
  all_goals cases h

namespace Stream

variable {s : Stream} {budget : Budget}

theorem review_of_over {c : Control} (hOver : c.state.isActive = false) :
    (review c budget).retries = 0 := by
  unfold review
  cases hState : c.state with
  | starting | streaming =>
    rw [hState] at hOver
    cases hOver
  | stopped | stopping | error => rfl

theorem rests_watch (hOver : s.control.state.isActive = false) :
    ∀ x ∈ (s.watch budget).next, x.isAtRest = true := by
  unfold watch
  dsimp only
  split
  · exact List.forall_mem_nil _
  · cases hPatience : patience? s.control with
    | none => exact List.forall_mem_singleton.mpr (decide_eq_true (review_of_over hOver))
    | some timeoutMs => cases hOver.symm.trans (isActive_of_patience hPatience)

end Stream

/-- While the stream is over, a watcher at rest stays so. -/
theorem Action.rests_of_perform {action : Action} {me : ThreadId} {last : Except Error Unit}
    {s : Stream} {e : Effect} (hOver : s.control.state.isActive = false)
    (hOwn : action.isAtRest = true ∨ action.isLook = true)
    (h : action.perform me last s = some e) : ∀ x ∈ e.next, x.isAtRest = true := by
  cases action
  case watch budget =>
    cases h
    exact Stream.rests_watch hOver
  case awaitWake budget wakes =>
    rw [perform, Stream.awaitWake?] at h
    split at h
    · cases h
    · cases h
      exact List.forall_mem_singleton.mpr (hOwn.resolve_right Bool.false_ne_true)
  all_goals rcases hOwn with hRest | hLook <;> contradiction

namespace Machine

/-- There is a thread `k`, and it is a watcher at rest, or it is done. -/
structure RestsAt (m : Machine) (k : ThreadId) : Prop where
  there : k < m.threads.length
  rests : ∀ x ∈ m.agenda k, x.isAtRest = true

/-- A watcher that has looked at a stream that is over rests until a start. -/
theorem restsAt_of_path (h : a.Locked) (hPath : Path a events b)
    (hOver : ∀ event ∈ events, event.before.control.state.isActive = false) :
    b.Locked ∧ ∀ event ∈ events, event.action.isLook = true → b.RestsAt event.thread := by
  induction hPath using Path.induct with
  | here => exact ⟨h, List.forall_mem_nil _⟩
  | change x _ ih =>
    obtain ⟨hLocked, hRests⟩ := ih hOver
    refine ⟨hLocked.amid x, fun event he hLook => ?_⟩
    exact ⟨(hRests event he hLook).there, (hRests event he hLook).rests⟩
  | @step events m m' i action rest e _ hMoved _ ih =>
    obtain ⟨hOld, hNow⟩ := List.forall_mem_append.mp hOver
    obtain ⟨hLocked, hRests⟩ := ih hOld
    obtain ⟨last, hPerform⟩ := hMoved.performs
    have hThere : i < m.threads.length :=
      lt_length_of_agenda (hMoved.agenda ▸ List.cons_ne_nil _ _)
    -- Nothing comes after what a watcher has before it.
    have hOwn (hWatcher : action.isAtRest = true ∨ action.isLook = true) : m'.RestsAt i := by
      have hAlone : rest = [] := by
        have hFits := hMoved.fits hLocked
        cases action
        case watch | awaitWake => exact hFits
        all_goals rcases hWatcher with hRest | hLook <;> contradiction
      refine ⟨Nat.lt_of_lt_of_le hThere hMoved.grows, ?_⟩
      rw [hMoved.own, hAlone, List.append_nil]
      exact Action.rests_of_perform (hNow _ List.mem_cons_self) hWatcher hPerform
    refine ⟨hLocked.moved hMoved, List.forall_mem_append.mpr
      ⟨fun event he hLook => ?_, List.forall_mem_singleton.mpr fun hLook => hOwn (.inr hLook)⟩⟩
    have hRest := hRests event he hLook
    by_cases hThread : event.thread = i
    · rw [hThread] at hRest ⊢
      exact hOwn (.inl (hRest.rests action (hMoved.agenda ▸ List.mem_cons_self)))
    · refine ⟨Nat.lt_of_lt_of_le hRest.there hMoved.grows, ?_⟩
      rw [hMoved.agenda_of_ne hThread hRest.there]
      exact hRest.rests

/-- Every watcher that there is has looked at the stream in these events. -/
def HaveLooked (m : Machine) (events : List Event) : Prop :=
  ∀ k, (∃ x ∈ m.agenda k, x.ofWatcher = true) →
    ∃ event ∈ events, event.thread = k ∧ event.action.isLook = true

/-- **A stream fails only after as many attempts as were allowed** at a stall since its start, made
since its start, if every watcher that there is at the start has looked at it since it was last
active. -/
theorem attempts_of_error {m₀ : Machine} {past idle later : List Event} {start : Event}
    (hFresh : m₀.Fresh) (hPast : Path m₀ past a) (hIdle : Path a idle b)
    (hOver : ∀ event ∈ idle, event.before.control.state.isActive = false)
    (hLooked : b.HaveLooked idle) (hStart : start.IsCallersStart) (hRun : Path b (start :: later) c)
    (hError : c.stream.control.state = .error) :
    ∃ w, ∃ limit ∈ allowances w later, limit ≤ attempts w later := by
  obtain ⟨hLocked, hRests⟩ :=
    restsAt_of_path (hFresh.orderly.of_path hPast).toLocked hIdle hOver
  have hBacked : b.Backed [] := by
    intro k x hx
    cases hWatcher : x.ofWatcher with
    | false => exact Action.backed_of_not_ofWatcher hWatcher
    | true =>
      obtain ⟨event, he, rfl, hLook⟩ := hLooked k ⟨x, hx, hWatcher⟩
      exact Action.backed_of_isAtRest ((hRests event he hLook).rests x hx)
  obtain ⟨_, _, hFailed⟩ := hBacked.of_path hLocked hRun
  rcases hFailed hError with ⟨w, limit, hMem, hLe⟩ | hNone
  · rw [← List.singleton_append] at hMem hLe
    obtain ⟨hAttempts, hAllowances⟩ := start.bare_of_isActivation hStart.1 w
    rw [allowances_append, hAllowances, List.nil_append] at hMem
    rw [attempts_append, hAttempts, Nat.zero_add] at hLe
    exact ⟨w, limit, hMem, hLe⟩
  · cases (hNone start List.mem_cons_self).symm.trans hStart.1

/-- A caller starts, stops and starts again a stream without packets that may be restarted `limit`
times, and a watcher is set to work. -/
def hasty (limit : UInt32) : Machine :=
  begin { pairSetup with config := { recovery := { maxRestarts := limit } } }.stream
    [[.start pairProfile 7, .stop, .start pairProfile 7], [.employ]]

/-- Whether every watcher has. -/
def haveLooked (m : Machine) (events : List Event) : Bool :=
  (List.range m.threads.length).all fun k =>
    !(m.agenda k).any Action.ofWatcher ||
      events.any fun event => event.thread == k && event.action.isLook

theorem HaveLooked.of_check {m : Machine} {events : List Event}
    (h : m.haveLooked events = true) : m.HaveLooked events := by
  intro k ⟨x, hx, hWatcher⟩
  have hThere := lt_length_of_agenda (List.ne_nil_of_mem hx)
  have hEither := List.all_eq_true.mp h k (List.mem_range.mpr hThere)
  rw [List.any_eq_true.mpr ⟨x, hx, hWatcher⟩, Bool.not_true, Bool.false_or] at hEither
  simpa using hEither

/-- The watcher sees the stopped stream; then it is started, and given up after one attempt. -/
theorem attempts_of_error_pair :
    ∃ past a idle b start later c, Path (hasty 1) past a ∧ Path a idle b ∧
      Path b (start :: later) c ∧ start.IsCallersStart ∧ c.stream.control.state = .error ∧
      ∃ w, ∃ limit ∈ allowances w later, limit ≤ attempts w later := by
  have hLeads : (hasty 1).leads [.go 1 1] (fun _ a =>
      a.leads [.go 2 1, .go 0 6] fun idle b =>
        idle.all (!·.before.control.state.isActive) && b.haveLooked idle &&
          b.leads [.go 0 3, .go 2 2, .pass 5000000000, .go 2 35] fun run c =>
            run.head?.any (fun start =>
              start.action.isActivation && start.rest.all (!·.isRenewal)) &&
              c.stream.control.state == .error) = true := by
    decide +kernel
  obtain ⟨past, a, hPast, hLeads⟩ := exists_of_leads hLeads
  obtain ⟨idle, b, hIdle, hCheck⟩ := exists_of_leads hLeads
  simp only [Bool.and_eq_true, List.all_eq_true, Bool.not_eq_true'] at hCheck
  obtain ⟨⟨hOver, hLooked⟩, hLeads⟩ := hCheck
  obtain ⟨run, c, hRun, hCheck⟩ := exists_of_leads hLeads
  simp only [Bool.and_eq_true, Option.any_eq_true, List.all_eq_true, Bool.not_eq_true',
    beq_iff_eq] at hCheck
  obtain ⟨⟨start, hHead, hStart⟩, hError⟩ := hCheck
  obtain ⟨later, rfl⟩ := List.head?_eq_some_iff.mp hHead
  exact ⟨past, a, idle, b, start, later, c, hPast, hIdle, hRun, hStart, hError,
    attempts_of_error (fresh_begin rfl rfl _) hPast hIdle hOver (.of_check hLooked) hStart hRun
      hError⟩

/-! ### A stop that is not seen -/

/-- After a caller's start a stream has failed with no more than so many attempts, while `limit` of
them were allowed. -/
def FailsAfter (m₀ : Machine) (limit : UInt32) (made : Nat) : Prop :=
  ∃ past start later c, Path m₀ (past ++ start :: later) c ∧ start.IsCallersStart ∧
    c.stream.control.state = .error ∧ later.countP (·.isAttempt) = made ∧
    ∀ event ∈ later, event.before.control.recovery.maxRestarts = limit

/-- Whether it does so after a start that is event `n`. -/
def failsAfter (limit : UInt32) (made n : Nat) (events : List Event) (c : Machine) : Bool :=
  match events.drop n with
  | start :: later =>
    start.action.isActivation && start.rest.all (!·.isRenewal) &&
      c.stream.control.state == .error && later.countP (·.isAttempt) == made &&
      later.all (·.before.control.recovery.maxRestarts == limit)
  | [] => false

theorem FailsAfter.of_leads {m₀ : Machine} {limit : UInt32} {made : Nat} (cues : List Cue) (n : Nat)
    (h : m₀.leads cues (failsAfter limit made n) = true) : FailsAfter m₀ limit made := by
  obtain ⟨events, c, hPath, hCheck⟩ := exists_of_leads h
  unfold failsAfter at hCheck
  split at hCheck
  next start later hDrop =>
    simp only [Bool.and_eq_true, List.all_eq_true, Bool.not_eq_true', beq_iff_eq] at hCheck
    obtain ⟨⟨⟨hStart, hError⟩, hMade⟩, hLimit⟩ := hCheck
    rw [← List.take_append_drop n events, hDrop] at hPath
    exact ⟨_, start, later, c, hPath, hStart, hError, hMade, hLimit⟩
  · cases hCheck

/-- **A stop and a start that a watcher does not see** leave it with the attempts it has spent, and
with the decision it has taken, on the activation before. -/
theorem attempts_outlive_stop : FailsAfter (hasty 2) 2 1 ∧ FailsAfter (hasty 1) 1 0 := by
  constructor
  · refine .of_leads [.go 1 1, .go 0 9, .go 2 1, .pass 5000000000, .go 2 27, .go 0 18, .go 2 2,
      .pass 5000000000, .go 2 35] 53 ?_
    decide +kernel
  · refine .of_leads [.go 1 1, .go 0 9, .go 2 1, .pass 5000000000, .go 2 26, .go 0 18, .go 2 9]
      52 ?_
    decide +kernel

end Machine

end LidarSweep

import LidarSweep.Proofs.Machine.Stop

/-!
# What assemblers are fed with

A packet is checked once, where it comes in, and then goes to whatever assembler there is. As long
as no start puts in another between the two, each assembler is fed with packets of one activation,
the one that it was put in for, and its frames are made of these (`Machine.fed_by_one`). A start in
between makes an old packet part of a new frame (`Machine.fed_by_two`).
-/

namespace LidarSweep

namespace Action

/-- Whether the action puts an assembler in, or is about to begin the activation that it is for. -/
def launches : Action → Bool
  | install _ _ | activate _ _ => true
  | _ => false

/-- Whether the action may come before one that launches. -/
def prepares : Action → Bool
  | acquire lock | release lock => lock = .pipeline
  | resetPipeline _ | install _ _ => true
  | _ => false

def isInstall : Action → Bool
  | install _ _ => true
  | _ => false

def isIngest : Action → Bool
  | ingest _ _ => true
  | _ => false

/-- The activation that the action has a packet of, or is to bring packets of. -/
def carries? : Action → Option Nat
  | openSource activation | play activation _ _ | receive activation _ | ingest activation _ =>
    some activation
  | _ => none

/-- Whether the action is about the assembler or the source. -/
def supplies : Action → Bool
  | install _ _ | uninstall | retire | ingest _ _ | openSource _ | closeSource _ => true
  | _ => false

theorem launches_of_isInstall {action : Action} (h : action.isInstall = true) :
    action.launches = true := by
  cases action <;> first | rfl | cases h

theorem launches_of_isActivation {action : Action} (h : action.isActivation = true) :
    action.launches = true := by
  cases action <;> first | rfl | cases h

end Action

namespace Stream

variable (s : Stream)

theorem receiver_openSource {activation activation' : Nat}
    (h : (s.openSource activation).stream.source.receiver = some activation') :
    s.source.receiver = some activation' ∨ activation = activation' := by
  have hStart : s.source.start activation = (s.source, .error (.source .refusedToStart)) ∨
      (s.source.start activation).1.receiver = some activation ∧
        (s.source.start activation).2 = .ok () := by
    unfold ManualSource.start
    split
    · exact .inl rfl
    · exact .inr ⟨rfl, rfl⟩
  unfold openSource at h
  generalize s.source.start activation = begun at h hStart
  obtain ⟨source, result⟩ := begun
  rcases hStart with hRefused | ⟨hReceiver, hOk⟩
  · cases hRefused
    exact .inl h
  · cases hOk
    exact .inr (Option.some.inj (hReceiver.symm.trans h))

theorem receiver_closeSource (ending : Ending) :
    (s.closeSource ending).stream.source.receiver = none := by
  unfold closeSource ManualSource.stop
  dsimp only
  split <;> rfl

end Stream

/-- An action that is not about them leaves assembler and source as they are. -/
theorem Action.supplied_of_perform {action : Action} {me : ThreadId} {last : Except Error Unit}
    {s : Stream} {e : Effect} (hAction : action.supplies = false)
    (h : action.perform me last s = some e) :
    e.stream.assembler = s.assembler ∧ e.stream.source = s.source := by
  have hApart : action.touches .assembler = false ∧ action.touches .source = false := by
    cases action <;> first | exact ⟨rfl, rfl⟩ | cases hAction
  exact ⟨same_of_perform .assembler hApart.1 h, same_of_perform .source hApart.2 h⟩

/-- Only a start puts an assembler in. -/
theorem Action.assembler_of_perform {action : Action} {me : ThreadId} {last : Except Error Unit}
    {s : Stream} {e : Effect} (hAction : action.isInstall = false)
    (h : action.perform me last s = some e) (hSome : e.stream.assembler.isSome = true) :
    s.assembler.isSome = true := by
  by_cases hTouches : action.touches .assembler = true
  · cases action
    case install => cases hAction
    case uninstall | retire =>
      cases h
      cases hSome
    case ingest activation packet =>
      cases h
      unfold Stream.ingest at hSome
      cases hAssembler : s.assembler with
      | none =>
        rw [hAssembler] at hSome
        rwa [hAssembler] at hSome
      | some a => rfl
    all_goals cases hTouches
  · have hSame : e.stream.assembler = s.assembler :=
      same_of_perform .assembler (Bool.eq_false_iff.mpr hTouches) h
    rwa [hSame] at hSome

/-- Only where it is started does a source get a receiver. -/
theorem Action.receiver_of_perform {action : Action} {me : ThreadId} {last : Except Error Unit}
    {s : Stream} {e : Effect} {activation : Nat} (h : action.perform me last s = some e)
    (hReceiver : e.stream.source.receiver = some activation) :
    s.source.receiver = some activation ∨ action = .openSource activation := by
  by_cases hTouches : action.touches .source = true
  · cases action
    case openSource =>
      cases h
      exact (s.receiver_openSource hReceiver).imp_right (congrArg openSource)
    case closeSource ending =>
      cases h
      cases (s.receiver_closeSource ending).symm.trans hReceiver
    all_goals cases hTouches
  · have hSame : e.stream.source = s.source :=
      same_of_perform .source (Bool.eq_false_iff.mpr hTouches) h
    rw [hSame] at hReceiver
    exact .inl hReceiver

/-- Whether an activation may begin here. -/
def Action.renews : Action → Bool
  | activate _ _ | endRestart _ _ _ _ _ => true
  | _ => false

theorem Action.isActivation_of_not_renews {action : Action} (h : action.renews = false) :
    action.isActivation = false := by
  cases action <;> first | rfl | cases h

/-- Nothing else begins an activation, or makes a stream active. -/
theorem Action.lapses_of_perform {action : Action} {me : ThreadId} {last : Except Error Unit}
    {s : Stream} {e : Effect} (hAction : action.renews = false)
    (h : action.perform me last s = some e) :
    e.stream.control.activation = s.control.activation ∧
      (e.stream.control.state.isActive = true → s.control.state.isActive = true) := by
  cases steering_of_perform h with
  | still hAlike _ => exact ⟨hAlike.activation, fun hActive => hAlike.state ▸ hActive⟩
  | deferred _ hControl | muted hControl | unmuted hControl =>
    rw [hControl]
    exact ⟨rfl, id⟩
  | confirmed hActive hControl =>
    rw [hControl]
    exact ⟨rfl, fun _ => hActive⟩
  | reverted hControl | halting _ hControl _ =>
    rw [hControl]
    exact ⟨rfl, nofun⟩
  | @settled ending _ _ hControl =>
    rw [hControl]
    cases ending
    all_goals exact ⟨rfl, nofun⟩
  | activated | restarted | held => cases hAction

/-- Activations are counted up. -/
theorem Action.activation_le_of_perform {action : Action} {me : ThreadId}
    {last : Except Error Unit} {s : Stream} {e : Effect} (h : action.perform me last s = some e) :
    s.control.activation ≤ e.stream.control.activation := by
  cases steering_of_perform h with
  | still hAlike _ => exact Nat.le_of_eq hAlike.activation.symm
  | activated hControl | held hControl =>
    rw [hControl]
    exact Nat.le_succ _
  | confirmed _ hControl =>
    rw [hControl]
    exact Nat.le_refl _
  | reverted hControl | settled hControl | halting _ hControl _ | deferred _ hControl
  | muted hControl | unmuted hControl | restarted hControl => rw [hControl]

/-! ### Agendas -/

/-- Nothing happens between an assembler's being put in and the activation that it is for, and a
checked packet is taken in at once. -/
def Tidy : List Action → Prop
  | [] => True
  | action :: rest =>
    ((∃ x ∈ rest, x.launches = true) → action.prepares = true) ∧
      (rest.head?.any Action.isActivation = true → action.isInstall = true) ∧
      (∀ x ∈ rest, x.isIngest = false) ∧ Tidy rest

namespace Tidy

variable {action x : Action} {agenda l rest : List Action}

theorem append (hNew : Tidy l) (hRest : Tidy rest)
    (hPlain : ∀ x ∈ rest, x.launches = false ∧ x.isIngest = false) : Tidy (l ++ rest) := by
  induction l with
  | nil => exact hRest
  | cons action l ih =>
    obtain ⟨hPrepares, hInstall, hIngest, hTidy⟩ := hNew
    refine ⟨?_, ?_, ?_, ih hTidy⟩
    · rintro ⟨x, hx, hLaunches⟩
      rcases List.mem_append.mp hx with hMem | hMem
      · exact hPrepares ⟨x, hMem, hLaunches⟩
      · cases (hPlain x hMem).1.symm.trans hLaunches
    · intro hHead
      cases l with
      | nil =>
        obtain ⟨x, hx, hActivation⟩ := (Option.any_eq_true _ _).mp hHead
        cases (hPlain x (List.mem_of_head? hx)).1.symm.trans
          (Action.launches_of_isActivation hActivation)
      | cons y l => exact hInstall hHead
    · intro x hx
      exact (List.mem_append.mp hx).elim (hIngest x) fun hMem => (hPlain x hMem).2

theorem of_plain (hPlain : ∀ x ∈ l, x.launches = false ∧ x.isIngest = false) : Tidy l := by
  have hTidy : Tidy ([] ++ l) := by
    induction l with
    | nil => trivial
    | cons x l ih =>
      have hRest := fun y hy => hPlain y (List.mem_cons_of_mem _ hy)
      refine append (l := [x]) ⟨?_, nofun, List.forall_mem_nil _, trivial⟩ (ih hRest) hRest
      rintro ⟨y, hy, _⟩
      cases hy
  exact hTidy

/-- A thread that is to launch something has the restart lock. -/
theorem owed_pos (hTidy : Tidy agenda) (hSound : Sound agenda) (hx : x ∈ agenda)
    (hLaunches : x.launches = true) : 0 < owed agenda := by
  induction agenda with
  | nil => cases hx
  | cons action rest ih =>
    rcases List.mem_cons.mp hx with rfl | hRest
    · refine Action.owed_of_isGuarded hSound.1 ?_
      cases x <;> first | rfl | cases hLaunches
    · have hPos := ih hTidy.2.2.2 hSound.2 hRest
      have hPrepares := hTidy.1 ⟨x, hRest, hLaunches⟩
      cases action
      case acquire lock | release lock =>
        obtain rfl := of_decide_eq_true hPrepares
        exact hPos
      case resetPipeline | install => exact hPos
      all_goals cases hPrepares

end Tidy

theorem Action.next_of_prepares {action : Action} {me : ThreadId} {last : Except Error Unit}
    {s : Stream} {e : Effect} (hPrepares : action.prepares = true)
    (h : action.perform me last s = some e) : e.next = [] ∧ e.stream.control = s.control := by
  cases action
  case acquire lock =>
    obtain ⟨locks, _, rfl⟩ := Option.map_eq_some_iff.mp h
    exact ⟨rfl, rfl⟩
  case release | resetPipeline | install =>
    cases h
    exact ⟨rfl, rfl⟩
  all_goals cases hPrepares

/-- A start is let in only where the stream is not active. -/
theorem Stream.next_checkStart (s : Stream) (profile : Profile) (consumer : ConsumerId) :
    (s.checkStart profile consumer).next = [] ∨
      s.control.state.isActive = false ∧ ∃ g, (s.checkStart profile consumer).next =
        [.acquire .pipeline, .resetPipeline profile.rate, .release .pipeline,
          .install g profile.format, .activate profile consumer] := by
  cases hStart : s.control.canStart with
  | false =>
    have hRefused : s.admission profile = (.error (.invalidState
        s!"cannot start {s.streamType.label} stream while {s.control.state.label}"), s.table) := by
      rw [admission, hStart]
      rfl
    exact .inl (by rw [checkStart, hRefused])
  | true =>
    unfold checkStart
    rcases s.admission profile with ⟨verdict, table⟩
    cases verdict with
    | error e => exact .inl rfl
    | ok g =>
      refine .inr ⟨?_, g, rfl⟩
      rcases of_decide_eq_true hStart with hState | hState
      all_goals
        rw [hState]
        rfl

theorem Stream.carries_play (s : Stream) {activation index due : Nat} {e : Effect} {x : Action}
    (h : s.play? activation index due = some e) (hx : x ∈ e.next) :
    x.carries? = some activation := by
  unfold play? at h
  split at h
  · cases h
    cases hx
  · split at h
    · cases h
    · split at h
      · cases h
        cases hx
      · split at h
        · cases h
          cases hx
        · cases h
          rcases List.mem_cons.mp hx with rfl | hPlay
          · rfl
          · cases List.mem_singleton.mp hPlay
            rfl

theorem Stream.carries_offer (s : Stream) {packet : List UInt8} {x : Action}
    (hx : x ∈ (s.offer packet).next) : x.carries? = s.source.receiver := by
  unfold offer at hx
  cases hReceiver : s.source.receiver with
  | none =>
    rw [hReceiver] at hx
    cases hx
  | some activation =>
    rw [hReceiver] at hx
    cases List.mem_singleton.mp hx
    rfl

/-- What an action puts on the agenda is tidy. -/
theorem Action.tidy_of_perform {action : Action} {me : ThreadId} {last : Except Error Unit}
    {s : Stream} {e : Effect} (h : action.perform me last s = some e)
    (hStems : ∀ x ∈ e.next, action.stemsFrom x = true) : Tidy e.next := by
  cases action
  case checkStart profile consumer =>
    cases h
    rcases s.next_checkStart profile consumer with hNext | ⟨_, g, hNext⟩
    · exact (congrArg Tidy hNext).mpr trivial
    · refine (congrArg Tidy hNext).mpr ?_
      simp [Tidy, Action.launches, Action.prepares, Action.isActivation, Action.isInstall,
        Action.isIngest]
  case receive activation packet =>
    cases h
    unfold Stream.receive
    dsimp only
    split
    · refine ⟨?_, nofun, List.forall_mem_nil _, trivial⟩
      rintro ⟨x, hx, _⟩
      cases hx
    · trivial
  all_goals
    refine .of_plain fun x hx => ?_
    have hStem := hStems x hx
    cases x
    case install | activate | ingest => cases hStem
    all_goals exact ⟨rfl, rfl⟩

/-- Packets are of an activation that began here, or that the source or this thread had them of. -/
theorem Action.carries_of_perform {action x : Action} {me : ThreadId} {last : Except Error Unit}
    {s : Stream} {e : Effect} {activation : Nat} (h : action.perform me last s = some e)
    (hx : x ∈ e.next) (hStem : action.stemsFrom x = true)
    (hCarries : x.carries? = some activation) :
    action.carries? = some activation ∨ s.source.receiver = some activation ∨
      action.isActivation = true ∧ activation = s.control.activation + 1 := by
  cases x
  case openSource =>
    obtain rfl := Option.some.inj hCarries
    cases action
    case activate profile consumer =>
      cases h
      unfold Stream.activate at hx
      rcases List.mem_append.mp hx with hTell | hOpen
      · cases Action.isStop_of_mem_tellAll hTell
      · cases List.mem_singleton.mp hOpen
        rw [Control.transition_fst]
        exact .inr (.inr ⟨rfl, rfl⟩)
    all_goals cases hStem
  case play =>
    cases action
    case play => exact .inl ((s.carries_play h hx).symm.trans hCarries)
    all_goals cases hStem
  case receive =>
    cases action
    case offer =>
      cases h
      exact .inr (.inl ((s.carries_offer hx).symm.trans hCarries))
    case play => exact .inl ((s.carries_play h hx).symm.trans hCarries)
    all_goals cases hStem
  case ingest =>
    obtain rfl := Option.some.inj hCarries
    cases action
    case receive activation' packet =>
      cases h
      unfold Stream.receive at hx
      dsimp only at hx
      split at hx
      · cases List.mem_singleton.mp hx
        exact .inl rfl
      · cases hx
    all_goals cases hStem
  all_goals cases hCarries

/-! ### What happens to an assembler -/

/-- What can be said of the assembler that was put in last, and of packets on their way to it. -/
structure Supply where
  /-- The activations that starts have begun -/
  begun : List Nat := []
  /-- The activation that the assembler was put in for -/
  activation : Option Nat := none
  /-- The threads that have checked a packet since -/
  checked : List ThreadId := []
  /-- The activations of the packets that it has taken in -/
  fed : List Nat := []
  /-- Whether every packet was checked after the assembler that took it in had been put in -/
  isPrompt : Bool := true

namespace Supply

def after (u : Supply) (event : Event) : Supply :=
  match event.action with
  | .install _ _ => { u with
      activation := some (event.before.control.activation + 1)
      checked := []
      fed := [] }
  | .activate _ _ => { u with begun := (event.before.control.activation + 1) :: u.begun }
  | .receive _ _ => { u with checked := event.thread :: u.checked }
  | .ingest activation _ =>
    if event.before.assembler.isSome then { u with
      fed := activation :: u.fed
      isPrompt := u.isPrompt && u.checked.contains event.thread }
    else u
  | _ => u

variable (u : Supply) {event : Event}

theorem begun_after (h : event.action.isActivation = false) : (u.after event).begun = u.begun := by
  obtain ⟨⟨action, before⟩, thread, rest⟩ := event
  cases action
  case activate => cases h
  case ingest =>
    dsimp only [after]
    split <;> rfl
  all_goals rfl

theorem activation_after (h : event.action.isInstall = false) :
    (u.after event).activation = u.activation := by
  obtain ⟨⟨action, before⟩, thread, rest⟩ := event
  cases action
  case install => cases h
  case ingest =>
    dsimp only [after]
    split <;> rfl
  all_goals rfl

theorem begun_subset_after (event : Event) : u.begun ⊆ (u.after event).begun := by
  cases h : event.action.isActivation with
  | false =>
    rw [u.begun_after h]
    exact List.Subset.refl _
  | true =>
    obtain ⟨⟨action, before⟩, thread, rest⟩ := event
    cases action
    case activate => exact List.subset_cons_self _ _
    all_goals cases h

/-- Who has checked a packet since the assembler was put in has done so before, or does it now. -/
theorem mem_checked_after {k : ThreadId} (h : k ∈ (u.after event).checked) :
    event.action.isInstall = false ∧ (k ∈ u.checked ∨ k = event.thread) := by
  obtain ⟨⟨action, before⟩, thread, rest⟩ := event
  cases action
  case install => cases h
  case receive => exact ⟨rfl, (List.mem_cons.mp h).symm⟩
  case ingest =>
    dsimp only [after] at h
    split at h <;> exact ⟨rfl, .inl h⟩
  all_goals exact ⟨rfl, .inl h⟩

end Supply

/-- What these events have come to. -/
def supply (events : List Event) : Supply := events.foldl Supply.after {}

theorem supply_concat (events : List Event) (event : Event) :
    supply (events ++ [event]) = (supply events).after event := List.foldl_append

theorem isPrompt_of_append {events later : List Event}
    (h : (supply (events ++ later)).isPrompt = true) : (supply events).isPrompt = true := by
  unfold supply at h ⊢
  rw [List.foldl_append] at h
  generalize events.foldl Supply.after {} = u at h ⊢
  induction later generalizing u with
  | nil => exact h
  | cons event later ih =>
    have hNext := ih (u.after event) h
    obtain ⟨⟨action, before⟩, thread, rest⟩ := event
    cases action
    case ingest =>
      dsimp only [Supply.after] at hNext
      split at hNext
      · exact (Bool.and_eq_true_iff.mp hNext).1
      · exact hNext
    all_goals exact hNext

/-- A frame goes on its way for the activation of the packet that completed it. -/
theorem Stream.of_mem_ingest (s : Stream) {activation activation' : Nat} {packet : List UInt8}
    {frame : Frame} (h : .deliver activation' frame ∈ (s.ingest activation packet).next) :
    activation = activation' ∧ s.assembler.isSome = true := by
  unfold ingest at h
  split at h
  · cases h
  next a hAssembler =>
    rw [hAssembler]
    refine ⟨?_, rfl⟩
    dsimp only at h
    split at h
    · cases h
    · simp only [List.mem_cons, List.not_mem_nil, or_false, reduceCtorEq, Action.deliver.injEq,
        false_or] at h
      exact h.1.symm

namespace Machine

variable {m₀ m m' : Machine} {i : ThreadId} {action : Action} {rest : List Action} {e : Effect}
  {u : Supply} {events : List Event}

/-- How a machine stands when it has come to this supply. -/
structure Supplied (m : Machine) (u : Supply) : Prop where
  begun : ∀ n ∈ u.begun, n ≤ m.stream.control.activation
  /-- An activation that a start has begun has the assembler that was put in for it. -/
  current : m.stream.control.state.isActive = true → m.stream.control.activation ∈ u.begun →
    m.stream.assembler.isSome = true → u.activation = some m.stream.control.activation
  tidy : ∀ k, Tidy (m.agenda k)
  /-- Until the activation begins, the stream is not active, -/
  idle : ∀ k, (∃ x ∈ m.agenda k, x.launches = true) → m.stream.control.state.isActive = false
  /-- and the assembler is for the activation that is about to begin. -/
  launched : ∀ k, (m.agenda k).head?.any Action.isActivation = true →
    u.activation = some (m.stream.control.activation + 1)
  carried : ∀ k, ∀ x ∈ m.agenda k, ∀ activation, x.carries? = some activation →
    activation ∈ u.begun
  received : ∀ activation, m.stream.source.receiver = some activation → activation ∈ u.begun
  /-- A packet that was checked since the assembler was put in is of the activation that that is
  for. -/
  pending : m.stream.assembler.isSome = true → ∀ k ∈ u.checked, ∀ activation packet,
    .ingest activation packet ∈ m.agenda k → u.activation = some activation
  fed : u.isPrompt = true → ∀ activation ∈ u.fed, u.activation = some activation

namespace Supplied

/-- What another thread has before it was there before, or is the beginning of a new thread. -/
theorem mem_others (h : m.Locked) (hMoved : m.Moved i action rest e m') {k : ThreadId}
    (hk : k ≠ i) : m'.agenda k = m.agenda k ∨ ∀ x ∈ m'.agenda k, action.begets x = true :=
  (hMoved.others k hk).imp_right fun hNew =>
    List.all_eq_true.mp ((h.advances hMoved).spawned _ hNew.2).2.2

theorem tidy_own (hSup : m.Supplied u) (hMoved : m.Moved i action rest e m') :
    Tidy (action :: rest) :=
  hMoved.agenda ▸ hSup.tidy i

theorem plain_of_begets {x : Action} (h : action.begets x = true) :
    x.launches = false ∧ x.isIngest = false := by
  rcases Action.eq_of_begets h with ⟨_, _, _, rfl⟩ | ⟨_, _, rfl⟩
  · exact ⟨rfl, rfl⟩
  · exact ⟨rfl, rfl⟩

/-- While a thread is to launch something, the others leave state and activation as they are. -/
theorem lapses_other (hSup : m.Supplied u) (h : m.Locked) (hMoved : m.Moved i action rest e m')
    {k : ThreadId} (hk : k ≠ i) (hLaunches : ∃ x ∈ m.agenda k, x.launches = true) :
    action.isInstall = false ∧ m'.stream.control.activation = m.stream.control.activation ∧
      m'.stream.control.state.isActive = false := by
  obtain ⟨last, hPerform⟩ := hMoved.performs
  have hIdle := hSup.idle k hLaunches
  obtain ⟨x, hx, hLaunch⟩ := hLaunches
  have hGuarded := h.isGuarded_eq_false ((hSup.tidy k).owed_pos (h.sound k) hx hLaunch) (Ne.symm hk)
    hMoved.agenda
  have hRenews : action.renews = false := by
    cases action
    case activate | endRestart => cases hGuarded
    all_goals rfl
  obtain ⟨hActivation, hActive⟩ := Action.lapses_of_perform hRenews hPerform
  rw [hMoved.stream]
  refine ⟨?_, hActivation, Bool.eq_false_iff.mpr fun hTrue => ?_⟩
  · cases action
    case install => cases hGuarded
    all_goals rfl
  · cases hIdle.symm.trans (hActive hTrue)

theorem tidy_moved (hSup : m.Supplied u) (h : m.Locked) (hMoved : m.Moved i action rest e m')
    (k : ThreadId) : Tidy (m'.agenda k) := by
  obtain ⟨last, hPerform⟩ := hMoved.performs
  by_cases hk : k = i
  · subst hk
    obtain ⟨hPrepares, _, hIngest, hRest⟩ := hSup.tidy_own hMoved
    rw [hMoved.own]
    by_cases hLaunches : ∃ x ∈ rest, x.launches = true
    · rw [(Action.next_of_prepares (hPrepares hLaunches) hPerform).1]
      exact hRest
    · refine (Action.tidy_of_perform hPerform (h.advances hMoved).stems).append hRest fun x hx =>
        ⟨?_, hIngest x hx⟩
      exact Bool.eq_false_iff.mpr fun hTrue => hLaunches ⟨x, hx, hTrue⟩
  · rcases mem_others h hMoved hk with hSame | hNew
    · rw [hSame]
      exact hSup.tidy k
    · exact .of_plain fun x hx => plain_of_begets (hNew x hx)

/-- Only a start that is let in puts something on the agenda that launches. -/
theorem next_of_launches (h : m.Locked) (hMoved : m.Moved i action rest e m')
    (hLaunches : ∃ x ∈ e.next, x.launches = true) :
    m'.stream.control.state.isActive = false ∧ e.next.head?.any Action.isActivation = false := by
  obtain ⟨last, hPerform⟩ := hMoved.performs
  obtain ⟨x, hx, hLaunch⟩ := hLaunches
  have hStem := (h.advances hMoved).stems x hx
  rw [hMoved.stream]
  cases action
  case checkStart profile consumer =>
    rw [Action.control_of_perform rfl hPerform]
    cases hPerform
    rcases m.stream.next_checkStart profile consumer with hNone | ⟨hOver, g, hNext⟩
    · rw [hNone] at hx
      cases hx
    · exact ⟨hOver, by rw [hNext]; rfl⟩
  all_goals
    cases x
    case install | activate => cases hStem
    all_goals cases hLaunch

theorem idle_moved (hSup : m.Supplied u) (h : m.Locked) (hMoved : m.Moved i action rest e m')
    (k : ThreadId) (hLaunches : ∃ x ∈ m'.agenda k, x.launches = true) :
    m'.stream.control.state.isActive = false := by
  obtain ⟨last, hPerform⟩ := hMoved.performs
  obtain ⟨x, hx, hLaunch⟩ := hLaunches
  by_cases hk : k = i
  · subst hk
    rw [hMoved.own] at hx
    rcases List.mem_append.mp hx with hNext | hRest
    · exact (next_of_launches h hMoved ⟨x, hNext, hLaunch⟩).1
    · have hPrepares := (hSup.tidy_own hMoved).1 ⟨x, hRest, hLaunch⟩
      rw [hMoved.stream, (Action.next_of_prepares hPrepares hPerform).2]
      exact hSup.idle k ⟨x, hMoved.agenda ▸ List.mem_cons_of_mem _ hRest, hLaunch⟩
  · rcases mem_others h hMoved hk with hSame | hNew
    · exact (hSup.lapses_other h hMoved hk ⟨x, hSame ▸ hx, hLaunch⟩).2.2
    · cases (plain_of_begets (hNew x hx)).1.symm.trans hLaunch

theorem launches_of_head {agenda : List Action}
    (h : agenda.head?.any Action.isActivation = true) : ∃ x ∈ agenda, x.launches = true := by
  obtain ⟨x, hx, hActivation⟩ := (Option.any_eq_true _ _).mp h
  exact ⟨x, List.mem_of_head? hx, Action.launches_of_isActivation hActivation⟩

theorem launched_moved (hSup : m.Supplied u) (h : m.Locked) (hMoved : m.Moved i action rest e m')
    (k : ThreadId) (hHead : (m'.agenda k).head?.any Action.isActivation = true) :
    (u.after { action, before := m.stream, thread := i, rest }).activation =
      some (m'.stream.control.activation + 1) := by
  obtain ⟨last, hPerform⟩ := hMoved.performs
  by_cases hk : k = i
  · subst hk
    rw [hMoved.own] at hHead
    cases hNext : e.next with
    | nil =>
      rw [hNext, List.nil_append] at hHead
      have hInstall := (hSup.tidy_own hMoved).2.1 hHead
      cases action
      case install =>
        cases hPerform
        rw [hMoved.stream]
        rfl
      all_goals cases hInstall
    | cons x next =>
      rw [hNext] at hHead
      have hOwn : e.next.head?.any Action.isActivation = true := hNext ▸ hHead
      cases (next_of_launches h hMoved (launches_of_head hOwn)).2.symm.trans hOwn
  · rcases mem_others h hMoved hk with hSame | hNew
    · rw [hSame] at hHead
      obtain ⟨hInstall, hActivation, _⟩ :=
        hSup.lapses_other h hMoved hk (launches_of_head hHead)
      rw [u.activation_after hInstall, hActivation]
      exact hSup.launched k hHead
    · obtain ⟨x, hx, hLaunch⟩ := launches_of_head hHead
      cases (plain_of_begets (hNew x hx)).1.symm.trans hLaunch

theorem begun_moved (hSup : m.Supplied u) (hMoved : m.Moved i action rest e m') :
    ∀ n ∈ (u.after { action, before := m.stream, thread := i, rest }).begun,
      n ≤ m'.stream.control.activation := by
  obtain ⟨last, hPerform⟩ := hMoved.performs
  rw [hMoved.stream]
  intro n hn
  by_cases hRenews : action.renews = true
  · cases action
    case activate =>
      cases hPerform
      rw [m.stream.control_activate]
      rcases List.mem_cons.mp hn with rfl | hOld
      · exact Nat.le_refl _
      · exact Nat.le_succ_of_le (hSup.begun n hOld)
    case endRestart =>
      cases hPerform
      rw [m.stream.control_endRestart]
      have hOld := hSup.begun n hn
      cases last with
      | ok => exact hOld
      | error cause =>
        rw [Stream.hold_eq]
        exact Nat.le_succ_of_le hOld
    all_goals cases hRenews
  · rw [(Action.lapses_of_perform (Bool.not_eq_true _ ▸ hRenews) hPerform).1]
    rw [u.begun_after (Action.isActivation_of_not_renews (Bool.not_eq_true _ ▸ hRenews))] at hn
    exact hSup.begun n hn

theorem current_moved (hSup : m.Supplied u) (hMoved : m.Moved i action rest e m')
    (hActive : m'.stream.control.state.isActive = true)
    (hBegun : m'.stream.control.activation ∈
      (u.after { action, before := m.stream, thread := i, rest }).begun)
    (hSome : m'.stream.assembler.isSome = true) :
    (u.after { action, before := m.stream, thread := i, rest }).activation =
      some m'.stream.control.activation := by
  obtain ⟨last, hPerform⟩ := hMoved.performs
  rw [hMoved.stream] at hActive hBegun hSome ⊢
  by_cases hRenews : action.renews = true
  · cases action
    case activate profile consumer =>
      cases hPerform
      rw [m.stream.control_activate]
      exact hSup.launched i (hMoved.agenda ▸ rfl)
    case endRestart =>
      have hSupplied := Action.supplied_of_perform rfl hPerform
      rw [hSupplied.1] at hSome
      cases hPerform
      rw [m.stream.control_endRestart] at hActive hBegun ⊢
      cases last with
      | ok => exact hSup.current hActive hBegun hSome
      | error cause =>
        -- No start has begun the activation of a stream that could not be started.
        rw [Stream.hold_eq] at hBegun
        have hLe : m.stream.control.activation + 1 ≤ m.stream.control.activation :=
          hSup.begun _ hBegun
        omega
    all_goals cases hRenews
  · obtain ⟨hActivation, hBefore⟩ :=
      Action.lapses_of_perform (Bool.not_eq_true _ ▸ hRenews) hPerform
    rw [hActivation] at hBegun ⊢
    rw [u.begun_after (Action.isActivation_of_not_renews (Bool.not_eq_true _ ▸ hRenews))] at hBegun
    cases hInstall : action.isInstall with
    | true =>
      have hLaunch : ∃ x ∈ m.agenda i, x.launches = true :=
        ⟨action, hMoved.agenda ▸ List.mem_cons_self, Action.launches_of_isInstall hInstall⟩
      cases (hSup.idle i hLaunch).symm.trans (hBefore hActive)
    | false =>
      rw [u.activation_after hInstall]
      exact hSup.current (hBefore hActive) hBegun
        (Action.assembler_of_perform hInstall hPerform hSome)

theorem carried_moved (hSup : m.Supplied u) (h : m.Locked) (hMoved : m.Moved i action rest e m')
    (k : ThreadId) (x : Action) (hx : x ∈ m'.agenda k) (activation : Nat)
    (hCarries : x.carries? = some activation) :
    activation ∈ (u.after { action, before := m.stream, thread := i, rest }).begun := by
  obtain ⟨last, hPerform⟩ := hMoved.performs
  have hOld (hBegun : activation ∈ u.begun) :
      activation ∈ (u.after { action, before := m.stream, thread := i, rest }).begun :=
    u.begun_subset_after _ hBegun
  have hOwn (hCarries : action.carries? = some activation) :=
    hOld (hSup.carried i action (hMoved.agenda ▸ List.mem_cons_self) activation hCarries)
  rcases h.mem_moved hMoved hx with ⟨_, hNext⟩ | hBefore | hBegets
  · rcases Action.carries_of_perform hPerform hNext ((h.advances hMoved).stems x hNext) hCarries
      with hCarried | hReceived | ⟨hActivation, rfl⟩
    · exact hOwn hCarried
    · exact hOld (hSup.received activation hReceived)
    · cases action
      case activate => exact List.mem_cons_self
      all_goals cases hActivation
  · exact hOld (hSup.carried k x hBefore activation hCarries)
  · cases x
    case play =>
      cases action
      case openSource =>
        obtain rfl := of_decide_eq_true hBegets
        exact hOwn hCarries
      all_goals cases hBegets
    case watch => cases hCarries
    all_goals cases hBegets

theorem received_moved (hSup : m.Supplied u) (hMoved : m.Moved i action rest e m')
    (activation : Nat) (hReceiver : m'.stream.source.receiver = some activation) :
    activation ∈ (u.after { action, before := m.stream, thread := i, rest }).begun := by
  obtain ⟨last, hPerform⟩ := hMoved.performs
  rw [hMoved.stream] at hReceiver
  refine u.begun_subset_after _ ?_
  rcases Action.receiver_of_perform hPerform hReceiver with hSame | rfl
  · exact hSup.received activation hSame
  · exact hSup.carried i _ (hMoved.agenda ▸ List.mem_cons_self) activation rfl

theorem pending_moved (hSup : m.Supplied u) (h : m.Locked) (hMoved : m.Moved i action rest e m')
    (hSome : m'.stream.assembler.isSome = true) (k : ThreadId)
    (hk : k ∈ (u.after { action, before := m.stream, thread := i, rest }).checked)
    (activation : Nat) (packet : List UInt8) (hx : .ingest activation packet ∈ m'.agenda k) :
    (u.after { action, before := m.stream, thread := i, rest }).activation = some activation := by
  obtain ⟨last, hPerform⟩ := hMoved.performs
  obtain ⟨hInstall, hChecked⟩ := u.mem_checked_after hk
  rw [hMoved.stream] at hSome
  have hBefore := Action.assembler_of_perform hInstall hPerform hSome
  rw [u.activation_after hInstall]
  by_cases hOwn : k = i
  · subst hOwn
    rw [hMoved.own] at hx
    rcases List.mem_append.mp hx with hNext | hRest
    · have hStem := (h.advances hMoved).stems _ hNext
      cases action
      case receive activation' packet' =>
        have hBegun := hSup.carried k _ (hMoved.agenda ▸ List.mem_cons_self) activation' rfl
        cases hPerform
        unfold Stream.receive at hNext
        dsimp only at hNext
        split at hNext
        next hCurrent =>
          cases List.mem_singleton.mp hNext
          obtain ⟨rfl, hActive⟩ := of_decide_eq_true hCurrent
          exact hSup.current hActive hBegun hBefore
        · cases hNext
      all_goals cases hStem
    · cases (hSup.tidy_own hMoved).2.2.1 _ hRest
  · rcases mem_others h hMoved hOwn with hSame | hNew
    · exact hSup.pending hBefore k (hChecked.resolve_right hOwn) activation packet (hSame ▸ hx)
    · cases (plain_of_begets (hNew _ hx)).2

theorem fed_moved (hSup : m.Supplied u) (hMoved : m.Moved i action rest e m')
    (hPrompt : (u.after { action, before := m.stream, thread := i, rest }).isPrompt = true) :
    ∀ activation ∈ (u.after { action, before := m.stream, thread := i, rest }).fed,
      (u.after { action, before := m.stream, thread := i, rest }).activation = some activation := by
  cases action
  case install => exact List.forall_mem_nil _
  case ingest activation packet =>
    dsimp only [Supply.after] at hPrompt ⊢
    split at hPrompt
    next hSome =>
      rw [if_pos hSome]
      obtain ⟨hBefore, hChecked⟩ := Bool.and_eq_true_iff.mp hPrompt
      refine List.forall_mem_cons.mpr ⟨?_, hSup.fed hBefore⟩
      exact hSup.pending hSome i (List.contains_iff_mem.mp hChecked) activation packet
        (hMoved.agenda ▸ List.mem_cons_self)
    next hNone =>
      rw [if_neg hNone]
      exact hSup.fed hPrompt
  all_goals exact hSup.fed hPrompt

/-- **Every step keeps what can be said of the assembler true.** -/
theorem moved (hSup : m.Supplied u) (h : m.Locked) (hMoved : m.Moved i action rest e m') :
    m'.Supplied (u.after { action, before := m.stream, thread := i, rest }) where
  begun := hSup.begun_moved hMoved
  current := hSup.current_moved hMoved
  tidy := hSup.tidy_moved h hMoved
  idle := hSup.idle_moved h hMoved
  launched := hSup.launched_moved h hMoved
  carried := hSup.carried_moved h hMoved
  received := hSup.received_moved hMoved
  pending := hSup.pending_moved h hMoved
  fed := hSup.fed_moved hMoved

theorem amid (hSup : m.Supplied u) (x : Circumstances) : (m.amid x).Supplied u :=
  ⟨hSup.begun, hSup.current, hSup.tidy, hSup.idle, hSup.launched, hSup.carried, hSup.received,
    hSup.pending, hSup.fed⟩

end Supplied

theorem Fresh.supplied (h : m.Fresh) (hIdle : m.stream.source.receiver = none) :
    m.Supplied {} := by
  have hPlain (k : ThreadId) (x : Action) (hx : x ∈ m.agenda k) :
      x.launches = false ∧ x.isIngest = false ∧ x.carries? = none := by
    have hAll := h.forall_mem (p := fun x => !x.launches && !x.isIngest && x.carries?.isNone)
      (by rintro (_ | _) <;> rfl) k x hx
    simpa [and_assoc] using hAll
  refine ⟨nofun, fun _ hBegun => ?_, fun k => ?_, fun k ⟨x, hx, hLaunch⟩ => ?_, fun k hHead => ?_,
    fun k x hx activation hCarries => ?_, fun activation hReceiver => ?_, fun _ _ hk => ?_,
    fun _ => nofun⟩
  · cases hBegun
  · exact .of_plain fun x hx => ⟨(hPlain k x hx).1, (hPlain k x hx).2.1⟩
  · cases (hPlain k x hx).1.symm.trans hLaunch
  · obtain ⟨x, hx, hLaunch⟩ := Supplied.launches_of_head hHead
    cases (hPlain k x hx).1.symm.trans hLaunch
  · cases (hPlain k x hx).2.2.symm.trans hCarries
  · cases hIdle.symm.trans hReceiver
  · cases hk

theorem Supplied.of_path (hSup : m₀.Supplied {}) (h : m₀.Locked) (hPath : Path m₀ events m) :
    m.Locked ∧ m.Supplied (supply events) := by
  induction hPath using Path.induct with
  | here => exact ⟨h, hSup⟩
  | change x _ ih => exact ⟨ih.1.amid x, ih.2.amid x⟩
  | step _ hMoved _ ih =>
    obtain ⟨hLocked, hBefore⟩ := ih
    rw [supply_concat]
    exact ⟨hLocked.moved hMoved, hBefore.moved hLocked hMoved⟩

/-! ### Frames -/

/-- The frame was completed in these events, by a packet of this activation and by an assembler that
had been fed with such packets only. -/
def CompletedIn (events : List Event) (activation : Nat) (frame : Frame) : Prop :=
  ∃ earlier event later packet, events = earlier ++ event :: later ∧
    event.action = .ingest activation packet ∧
    .deliver activation frame ∈ (event.before.ingest activation packet).next ∧
    ∀ other ∈ (supply earlier).fed, other = activation

/-- A packet of this activation completes the frame here. -/
def Completes (event : Event) (activation : Nat) (frame : Frame) : Prop :=
  ∃ packet, event.action = .ingest activation packet ∧
    .deliver activation frame ∈ (event.before.ingest activation packet).next

/-- A frame on its way to a delivery was completed by a packet. -/
theorem exists_completes (h : m₀.Locked)
    (hNone : ∀ k activation frame, .deliver activation frame ∉ m₀.agenda k)
    (hPath : Path m₀ events m) {k : ThreadId} {activation : Nat} {frame : Frame}
    (hDeliver : .deliver activation frame ∈ m.agenda k) :
    ∃ event ∈ events, Completes event activation frame := by
  suffices hAll : m.Locked ∧ ∀ k, .deliver activation frame ∈ m.agenda k →
      ∃ event ∈ events, Completes event activation frame from hAll.2 k hDeliver
  clear hDeliver
  induction hPath using Path.induct with
  | here => exact ⟨h, fun k hx => absurd hx (hNone k activation frame)⟩
  | change x _ ih => exact ⟨ih.1.amid x, ih.2⟩
  | @step events m m' i action rest e _ hMoved hReached ih =>
    clear hReached
    obtain ⟨hLocked, hBefore⟩ := ih
    refine ⟨hLocked.moved hMoved, fun k hx => ?_⟩
    rcases hLocked.mem_moved hMoved hx with ⟨_, hNext⟩ | hOld | hBegets
    · obtain ⟨last, hPerform⟩ := hMoved.performs
      have hStem := (hLocked.advances hMoved).stems _ hNext
      cases action
      case ingest activation' packet =>
        cases hPerform
        obtain ⟨rfl, _⟩ := m.stream.of_mem_ingest hNext
        exact ⟨_, List.mem_append_right _ List.mem_cons_self, packet, rfl, hNext⟩
      all_goals cases hStem
    · obtain ⟨event, he, hCompletes⟩ := hBefore k hOld
      exact ⟨event, List.mem_append_left _ he, hCompletes⟩
    · cases hBegets

/-- **Frames of one activation.**  As long as no start puts another assembler in between a packet's
check and its being taken in, an assembler takes in packets of the activation only that it was put
in for, and a frame that comes to a delivery was made of packets of its own activation only. -/
theorem fed_by_one (hFresh : m₀.Fresh) (hIdle : m₀.stream.source.receiver = none)
    (hPath : Path m₀ events m) (hPrompt : (supply events).isPrompt = true) :
    (∀ activation ∈ (supply events).fed, (supply events).activation = some activation) ∧
      ∀ k activation frame, .deliver activation frame ∈ m.agenda k →
        CompletedIn events activation frame := by
  have hSup := hFresh.supplied hIdle
  have hLocked := hFresh.orderly.toLocked
  refine ⟨(hSup.of_path hLocked hPath).2.fed hPrompt, fun k activation frame hDeliver => ?_⟩
  have hNone : ∀ k activation frame, .deliver activation frame ∉ m₀.agenda k := by
    intro k activation frame hx
    obtain ⟨requests, hRequests⟩ := hFresh.requests k
    rw [hRequests] at hx
    obtain ⟨r, _, hr⟩ := List.mem_flatMap.mp hx
    cases r <;> simp [Request.actions, Action.start, Action.stop, Action.discard] at hr
  obtain ⟨event, he, packet, hIngest, hCompletes⟩ :=
    exists_completes hLocked hNone hPath hDeliver
  obtain ⟨earlier, later, rfl⟩ := List.append_of_mem he
  refine ⟨earlier, event, later, packet, rfl, hIngest, hCompletes, ?_⟩
  rw [← List.singleton_append, ← List.append_assoc] at hPath hPrompt
  obtain ⟨m₁, hBefore, _⟩ := hPath.of_append
  have hFed := (hSup.of_path hLocked hBefore).2.fed (isPrompt_of_append hPrompt)
  have hSome : event.before.assembler.isSome = true :=
    (event.before.of_mem_ingest hCompletes).2
  rw [supply_concat, Supply.after, hIngest] at hFed
  dsimp only at hFed
  rw [if_pos hSome] at hFed
  obtain ⟨hOwn, hOthers⟩ := List.forall_mem_cons.mp hFed
  exact fun other hOther => Option.some.inj ((hOthers other hOther).symm.trans hOwn)

open Assembler (pairBytes)

/-- A caller starts a stream, stops it and starts it again, and two others hand in a block each. -/
def crossed : Machine :=
  begin pairSetup.stream
    [[.start pairProfile 7, .stop, .start pairProfile 7], [.inject (pairBytes 0 1)],
      [.inject (pairBytes 1 2)]]

/-- A frame that the thread is about to deliver, with its activation. -/
def delivery? (m : Machine) (k : ThreadId) : Option (Nat × Frame) :=
  match m.agenda k with
  | .deliver activation frame :: _ => some (activation, frame)
  | _ => none

theorem mem_of_delivery {k : ThreadId} {activation : Nat} {frame : Frame}
    (h : m.delivery? k = some (activation, frame)) : .deliver activation frame ∈ m.agenda k := by
  unfold delivery? at h
  split at h
  next hAgenda =>
    cases h
    rw [hAgenda]
    exact List.mem_cons_self
  · cases h

/-- Two blocks of the first activation make a frame of it. -/
theorem fed_by_one_pair :
    ∃ events m frame, Path crossed events m ∧ .deliver 1 frame ∈ m.agenda 2 ∧
      (supply events).fed = [1, 1] ∧ (supply events).activation = some 1 ∧
      CompletedIn events 1 frame := by
  have hLeads : crossed.leads [.go 0 9, .go 1 3, .go 2 4] (fun events m =>
      (m.delivery? 2).any (fun (activation, _) => activation == 1) &&
        (supply events).fed == [1, 1] && (supply events).isPrompt) = true := by
    decide +kernel
  obtain ⟨events, m, hPath, hCheck⟩ := exists_of_leads hLeads
  simp only [Bool.and_eq_true, Option.any_eq_true, beq_iff_eq] at hCheck
  obtain ⟨⟨⟨⟨activation, frame⟩, hDelivery, rfl⟩, hFed⟩, hPrompt⟩ := hCheck
  have hDeliver := mem_of_delivery hDelivery
  obtain ⟨hOne, hFrames⟩ := fed_by_one (fresh_begin rfl rfl _) rfl hPath hPrompt
  refine ⟨events, m, frame, hPath, hDeliver, hFed, hOne 1 ?_, hFrames 2 1 frame hDeliver⟩
  rw [hFed]
  exact List.mem_cons_self

/-- **A packet that a start overtakes** between its check and its being taken in is taken in by the
assembler of the next activation, and is part of a frame that is delivered in it. -/
theorem fed_by_two :
    ∃ events m, Path crossed events m ∧ (supply events).activation = some 2 ∧
      (supply events).fed = [2, 1] ∧ m.stream.control.activation = 2 ∧
      m.stream.control.stats.delivered = 1 := by
  have hLeads : crossed.leads [.go 0 9, .go 1 2, .go 0 18, .go 1 1, .go 2 9] (fun events m =>
      (supply events).activation == some 2 && (supply events).fed == [2, 1] &&
        m.stream.control.activation == 2 && m.stream.control.stats.delivered == 1) = true := by
    decide +kernel
  obtain ⟨events, m, hPath, hCheck⟩ := exists_of_leads hLeads
  simp only [Bool.and_eq_true, beq_iff_eq] at hCheck
  obtain ⟨⟨⟨hActivation, hFed⟩, hCurrent⟩, hDelivered⟩ := hCheck
  exact ⟨events, m, hPath, hActivation, hFed, hCurrent, hDelivered⟩

end Machine

end LidarSweep

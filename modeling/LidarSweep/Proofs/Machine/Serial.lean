import LidarSweep.Proofs.Machine.Pace

/-!
# One frame at a time

On a serial path no thread moves while another has a frame on its way; so every run of one operation
after another is serial.  Between the moves the stream may be seen to: time passes, the device
changes its mode, recorders, processors, consumers and listeners come and go, and while the stream
is not active the parts that stamp and check times are replaced by others of their kind.

`Machine.Pacing` is what holds all along, and `Machine.paced_of_serial` what it comes to for the
frames that consumers get in one activation.
-/

namespace LidarSweep

/-- The stream has been seen to, but it was neither started nor stopped, and no packet came in. -/
structure Stream.Upkept (s s' : Stream) : Prop where
  state : s'.control.state = s.control.state
  activation : s'.control.activation = s.control.activation
  quiet : s'.control.quiet = s.control.quiet
  locks : s'.locks = s.locks
  assembler : s'.assembler = s.assembler
  receiver : s'.source.receiver = s.source.receiver
  standard : s'.pipeline.IsStandard
  timing : s.control.state.isActive = true →
    s'.pipeline.deviceTiming = s.pipeline.deviceTiming ∧
      s'.pipeline.globalTiming = s.pipeline.globalTiming ∧ s'.pipeline.gaps = s.pipeline.gaps

theorem Stream.upkept_amid {s : Stream} (h : s.pipeline.IsStandard) (x : Circumstances) :
    s.Upkept (s.amid x) := ⟨rfl, rfl, rfl, rfl, rfl, rfl, h, fun _ => ⟨rfl, rfl, rfl⟩⟩

theorem Stream.Upkept.bides {s s' : Stream} (h : s.Upkept s') : s.Bides s' where
  activation := h.activation
  active hActive := h.state ▸ hActive
  passed hActive frame hPassed := by
    obtain ⟨_, hGlobal, hGaps⟩ := h.timing (h.state ▸ hActive)
    obtain ⟨⟨offset, hClock, hShifted⟩, gaps, last, hSome, hLast⟩ := hPassed
    exact ⟨⟨offset, hGlobal.trans hClock, hShifted⟩, gaps, last, hGaps.trans hSome, hLast⟩
  assembler _ a ha := h.assembler ▸ ha

/-- The frame that a consumer gets here, if it does so in activation `n`. -/
def Event.frame? (n : Nat) (event : Event) : Option Frame :=
  match event.action with
  | .consume _ _ frame => if event.before.control.activation = n then some frame else none
  | _ => none

/-- The frames that consumers get in activation `n`. -/
def framesOf (n : Nat) (events : List Event) : List Frame := events.filterMap (Event.frame? n)

theorem framesOf_concat (n : Nat) (events : List Event) (event : Event) :
    framesOf n (events ++ [event]) = framesOf n events ++ (event.frame? n).toList := by
  rw [framesOf, List.filterMap_append, List.filterMap_cons]
  cases event.frame? n <;> rfl

theorem framesOf_concat_of_not_isHandover {event : Event} (h : event.action.isHandover = false)
    (n : Nat) (events : List Event) : framesOf n (events ++ [event]) = framesOf n events := by
  obtain ⟨⟨action, before⟩, thread, rest⟩ := event
  rw [framesOf_concat]
  cases action
  case consume => cases h
  all_goals exact List.append_nil _

/-- Stages are made ready only for an activation that is about to begin. -/
def Primed : List Action → Prop
  | [] => True
  | action :: rest => (action.readies = true → ∃ x ∈ rest, x.launches = true) ∧ Primed rest

namespace Primed

variable {agenda l rest : List Action}

theorem append (h : Primed l) (hRest : Primed rest) : Primed (l ++ rest) := by
  induction l with
  | nil => exact hRest
  | cons x l ih =>
    refine ⟨fun hReadies => ?_, ih h.2⟩
    obtain ⟨y, hy, hLaunches⟩ := h.1 hReadies
    exact ⟨y, List.mem_append_left _ hy, hLaunches⟩

theorem of_plain (h : ∀ x ∈ agenda, x.readies = false) : Primed agenda := by
  induction agenda with
  | nil => trivial
  | cons x agenda ih =>
    refine ⟨fun hReadies => ?_, ih fun y hy => h y (List.mem_cons_of_mem _ hy)⟩
    cases (h x List.mem_cons_self).symm.trans hReadies

end Primed

theorem Action.primed_of_perform {action : Action} {me : ThreadId} {last : Except Error Unit}
    {s : Stream} {e : Effect} (h : action.perform me last s = some e)
    (hStems : ∀ x ∈ e.next, action.stemsFrom x = true) : Primed e.next := by
  cases action
  case checkStart profile consumer =>
    cases h
    rcases s.next_checkStart profile consumer with hNext | ⟨_, g, hNext⟩
    · exact (congrArg Primed hNext).mpr trivial
    · refine (congrArg Primed hNext).mpr ?_
      simp [Primed, Action.readies, Action.launches]
  all_goals
    refine .of_plain fun x hx => ?_
    have hStem := hStems x hx
    cases x
    case resetPipeline => cases hStem
    all_goals rfl

/-- While it waits, a thread is given nothing but what it has to wait for. -/
theorem Action.isWait_of_perform {action : Action} {me : ThreadId} {last : Except Error Unit}
    {s : Stream} {e : Effect} (hWait : action.isWait = true)
    (h : action.perform me last s = some e) : ∀ x ∈ e.next, x.isWait = true := by
  by_cases hStop : action.isStop = true
  · exact fun x hx => isWait_of_isStop (isStop_of_perform hStop h x hx)
  · cases action
    case acquire lock =>
      obtain ⟨locks, _, rfl⟩ := Option.map_eq_some_iff.mp h
      exact List.forall_mem_nil _
    case release lock =>
      cases h
      exact List.forall_mem_nil _
    all_goals exact absurd hWait hStop

namespace Machine

variable {m₀ m m' : Machine} {events : List Event} {i k : ThreadId} {action : Action}
  {rest : List Action} {e : Effect} {n : Nat}

/-- The thread has no frame on its way. -/
def IsEmptyHanded (m : Machine) (k : ThreadId) : Prop :=
  (m.agenda k).any Action.bearsFrame = false

/-- Nobody is given a frame by what another does. -/
theorem Locked.isEmptyHanded_moved (h : m.Locked) (hMoved : m.Moved i action rest e m')
    (hk : k ≠ i) (hEmpty : m.IsEmptyHanded k) : m'.IsEmptyHanded k := by
  rcases hMoved.others k hk with hSame | ⟨_, hSpawned⟩
  · rwa [IsEmptyHanded, hSame]
  · rw [IsEmptyHanded, List.any_eq_false]
    intro x hx
    have hBegets := List.all_eq_true.mp ((h.advances hMoved).spawned _ hSpawned).2.2 x hx
    rcases Action.eq_of_begets hBegets with ⟨_, _, _, rfl⟩ | ⟨_, _, rfl⟩ <;>
      exact Bool.false_ne_true

/-- What happens on a machine from `m₀` on, if no thread moves while another has a frame on its
way. -/
inductive Serial (m₀ : Machine) : List Event → Machine → Prop where
  | here : Serial m₀ [] m₀
  | upkeep {events : List Event} {m : Machine} {s : Stream} (hUpkept : m.stream.Upkept s)
      (hPath : Serial m₀ events m) : Serial m₀ events { m with stream := s }
  | step {events : List Event} {m m' : Machine} {i : ThreadId} {action : Action}
      {rest : List Action} (hPath : Serial m₀ events m) (hAgenda : m.agenda i = action :: rest)
      (hAlone : ∀ k, k ≠ i → m.IsEmptyHanded k) (hStep : m.step? i = some m') :
      Serial m₀ (events ++ [{ action, before := m.stream, thread := i, rest }]) m'

/-- How a machine stands on which frames come one at a time. -/
structure Pacing (events : List Event) (m : Machine) : Prop where
  locked : m.Locked
  supplied : m.Supplied (supply events)
  primed : ∀ k, Primed (m.agenda k)
  standard : m.stream.pipeline.IsStandard
  /-- Nothing has come of activations that are still to begin. -/
  future : ∀ n, m.stream.control.activation < n → framesOf n events = []
  paced : ∀ n, Paced (framesOf n events)
  past : m.stream.control.state.isActive = true →
    ∀ f ∈ framesOf m.stream.control.activation events, m.stream.IsPast f
  bears : ∀ k, Bears (framesOf m.stream.control.activation events) m.stream (m.agenda k)

theorem Supplied.upkept {u : Supply} (h : m.Supplied u) {s : Stream}
    (hUpkept : m.stream.Upkept s) : Supplied { m with stream := s } u where
  begun n hn := hUpkept.activation.symm ▸ h.begun n hn
  current hActive hBegun hSome := by
    rw [hUpkept.activation] at hBegun ⊢
    exact h.current (hUpkept.state ▸ hActive) hBegun (hUpkept.assembler ▸ hSome)
  tidy := h.tidy
  idle k hLaunches := hUpkept.state.symm ▸ h.idle k hLaunches
  launched k hHead := hUpkept.activation.symm ▸ h.launched k hHead
  carried := h.carried
  received activation hReceiver := h.received activation (hUpkept.receiver ▸ hReceiver)
  pending hSome := h.pending (hUpkept.assembler ▸ hSome)
  fed := h.fed

namespace Pacing

theorem upkept (h : Pacing events m) {s : Stream} (hUpkept : m.stream.Upkept s) :
    Pacing events { m with stream := s } := by
  have hBides := hUpkept.bides
  refine ⟨⟨h.locked.sound, fun k => ?_, ?_, fun k x hx hRenewal => ?_⟩, ?_, h.primed,
    hUpkept.standard, fun n hn => h.future n (hUpkept.activation ▸ hn), h.paced,
    fun hActive f hf => ?_, fun k => ?_⟩
  · exact (congrArg (fun locks : Locks => locks.depth .restart k) hUpkept.locks).trans
      (h.locked.owed k)
  · exact hUpkept.locks.symm ▸ h.locked.firm
  · exact hUpkept.quiet.trans (h.locked.quiet k x hx hRenewal)
  · exact h.supplied.upkept hUpkept
  · exact hBides.isPast hActive (h.past (hBides.active hActive) f (hBides.activation ▸ hf))
  · exact hBides.activation.symm ▸ (h.bears k).bides hBides

/-- Stages are made ready and assemblers put in only while the stream is not active. -/
theorem inactive (h : Pacing events m) (hAgenda : m.agenda i = action :: rest)
    (hAction : action.readies = true ∨ action.isInstall = true) :
    m.stream.control.state.isActive = false := by
  refine h.supplied.idle i ?_
  rcases hAction with hReadies | hInstall
  · obtain ⟨x, hx, hLaunches⟩ := (hAgenda ▸ h.primed i : Primed (action :: rest)).1 hReadies
    exact ⟨x, hAgenda ▸ List.mem_cons_of_mem _ hx, hLaunches⟩
  · exact ⟨action, hAgenda ▸ List.mem_cons_self, Action.launches_of_isInstall hInstall⟩

/-- Unless a packet or a frame moves on, the stream bides, or a new activation begins. -/
theorem bides_moved (h : Pacing events m) (hMoved : m.Moved i action rest e m')
    (hEventful : action.isIngest = false ∧ action.isProcess = false) :
    m.stream.Bides m'.stream ∨
      m'.stream.control.activation = m.stream.control.activation + 1 := by
  obtain ⟨last, hPerform⟩ := hMoved.performs
  rw [hMoved.stream]
  by_cases hStirs : action.stirs = true
  · cases action
    case ingest => cases hEventful.1
    case process => cases hEventful.2
    case resetPipeline | install =>
      have hInactive := h.inactive hMoved.agenda (by first | exact .inl rfl | exact .inr rfl)
      cases hPerform
      refine .inl ⟨rfl, id, fun hActive => ?_, fun hActive => ?_⟩
      all_goals cases hInactive.symm.trans hActive
    case activate profile consumer =>
      cases hPerform
      exact .inr (by rw [m.stream.control_activate])
    case endRestart budget vigil limit profile consumer =>
      have hPipeline := Action.pipeline_of_perform rfl hPerform
      have hAssembler := Action.mem_assembler_of_perform rfl rfl hPerform
      cases hPerform
      cases last with
      | ok => exact .inl ⟨rfl, id, fun _ _ => hPipeline ▸ id, fun _ => hAssembler⟩
      | error cause =>
        refine .inr ?_
        rw [m.stream.control_endRestart]
        dsimp only
        rw [Stream.hold_eq]
    all_goals cases hStirs
  · exact .inl (Action.bides_of_perform (Bool.not_eq_true _ ▸ hStirs) hPerform)

theorem primed_moved (h : Pacing events m) (hMoved : m.Moved i action rest e m') (k : ThreadId) :
    Primed (m'.agenda k) := by
  obtain ⟨last, hPerform⟩ := hMoved.performs
  by_cases hk : k = i
  · subst hk
    have hRest := (hMoved.agenda ▸ h.primed k : Primed (action :: rest)).2
    rw [hMoved.own]
    exact (Action.primed_of_perform hPerform (h.locked.advances hMoved).stems).append hRest
  · rcases Supplied.mem_others h.locked hMoved hk with hSame | hNew
    · exact hSame ▸ h.primed k
    · refine .of_plain fun x hx => ?_
      have hBegets := hNew x hx
      cases x
      case resetPipeline => cases hBegets
      all_goals rfl

/-- What is known of the action that a thread is about to take. -/
theorem due (h : Pacing events m) (hAgenda : m.agenda i = action :: rest) :
    action.Due (framesOf m.stream.control.activation events) m.stream :=
  (hAgenda ▸ h.bears i : Bears _ m.stream (action :: rest)).1

theorem standard_moved (h : Pacing events m) (hMoved : m.Moved i action rest e m') :
    m'.stream.pipeline.IsStandard := by
  obtain ⟨last, hPerform⟩ := hMoved.performs
  rw [hMoved.stream]
  by_cases hStages : action.stages = true
  · cases action
    case resetPipeline rate =>
      cases hPerform
      exact h.standard.reset _ rate
    case process n profile consumer frame =>
      have hDue := h.due hMoved.agenda
      cases hPerform
      exact (Stream.bears_process h.standard hDue h.past (h.paced _)).1.standard
    all_goals cases hStages
  · rw [Action.pipeline_of_perform (Bool.not_eq_true _ ▸ hStages) hPerform]
    exact h.standard

/-- What a thread has before it besides its next action has frames on their way only if that is
something to wait for. -/
theorem plain_rest (h : Pacing events m) (hMoved : m.Moved i action rest e m')
    (hWait : action.isWait = false) : rest.any Action.bearsFrame = false := by
  obtain ⟨_, hFirst, _⟩ := (hMoved.agenda ▸ h.bears i : Bears _ m.stream (action :: rest))
  exact Bool.eq_false_iff.mpr fun hBears => by cases hWait.symm.trans (hFirst hBears)

theorem paced_moved (h : Pacing events m) (hMoved : m.Moved i action rest e m') (n : Nat) :
    Paced (framesOf n (events ++ [{ action, before := m.stream, thread := i, rest }])) := by
  have hDue := h.due hMoved.agenda
  cases action
  case consume profile consumer frame =>
    rw [framesOf_concat]
    dsimp only [Event.frame?]
    split
    next hNow => exact hNow ▸ hDue.1
    · rw [Option.toList_none, List.append_nil]
      exact h.paced n
  all_goals
    rw [framesOf_concat_of_not_isHandover rfl]
    exact h.paced n

theorem past_moved (h : Pacing events m) (hMoved : m.Moved i action rest e m')
    (hActive : m'.stream.control.state.isActive = true) :
    ∀ f ∈ framesOf m'.stream.control.activation
      (events ++ [{ action, before := m.stream, thread := i, rest }]), m'.stream.IsPast f := by
  obtain ⟨last, hPerform⟩ := hMoved.performs
  have hDue := h.due hMoved.agenda
  intro f hf
  cases action
  case consume profile consumer frame =>
    have hBides : m.stream.Bides m'.stream := hMoved.stream ▸ Action.bides_of_perform rfl hPerform
    rw [hBides.activation, framesOf_concat] at hf
    refine hBides.isPast hActive ?_
    rcases List.mem_append.mp hf with hOld | hNew
    · exact h.past (hBides.active hActive) f hOld
    · dsimp only [Event.frame?] at hNew
      rw [if_pos rfl] at hNew
      obtain rfl := List.mem_singleton.mp hNew
      exact hDue.2 (hBides.active hActive)
  case process n profile consumer frame =>
    have hControl := Action.control_of_perform rfl hPerform
    cases hPerform
    have hKeeps := (Stream.bears_process h.standard hDue h.past (h.paced _)).1
    rw [hMoved.stream] at hActive hf ⊢
    rw [hControl] at hActive
    rw [hControl, framesOf_concat_of_not_isHandover rfl] at hf
    have hPast := h.past hActive f hf
    refine ⟨hKeeps.passed f hPast.passed, fun a ha => hPast.numbered a ?_⟩
    exact Action.mem_assembler_of_perform rfl rfl
      (rfl : (Action.process n profile consumer frame).perform i last m.stream = some _) a ha
  case ingest n packet =>
    have hControl := Action.control_of_perform rfl hPerform
    cases hPerform
    rw [hMoved.stream] at hActive hf ⊢
    rw [hControl] at hActive
    rw [hControl, framesOf_concat_of_not_isHandover rfl] at hf
    exact (Stream.bears_ingest packet h.past).2 f (h.past hActive f hf)
  all_goals
    rw [framesOf_concat_of_not_isHandover rfl] at hf
    rcases h.bides_moved hMoved ⟨rfl, rfl⟩ with hBides | hNext
    · rw [hBides.activation] at hf
      exact hBides.isPast hActive (h.past (hBides.active hActive) f hf)
    · rw [h.future _ (hNext ▸ Nat.lt_succ_self _)] at hf
      cases hf

theorem bears_moved (h : Pacing events m) (hMoved : m.Moved i action rest e m') :
    Bears (framesOf m'.stream.control.activation
      (events ++ [{ action, before := m.stream, thread := i, rest }])) m'.stream
      (m'.agenda i) := by
  obtain ⟨last, hPerform⟩ := hMoved.performs
  have hDue := h.due hMoved.agenda
  rw [hMoved.own]
  by_cases hWait : action.isWait = true
  · -- The frame on its way, if there is one, is still to wait.
    have hBides : m.stream.Bides m'.stream :=
      hMoved.stream ▸ Action.bides_of_perform (Action.stirs_of_isWait hWait) hPerform
    have hFrames : framesOf m'.stream.control.activation
        (events ++ [{ action, before := m.stream, thread := i, rest }]) =
          framesOf m.stream.control.activation events := by
      rw [hBides.activation]
      refine framesOf_concat_of_not_isHandover ?_ _ _
      cases action <;> first | rfl | cases hWait
    obtain ⟨_, _, hRest⟩ := (hMoved.agenda ▸ h.bears i : Bears _ m.stream (action :: rest))
    rw [hFrames]
    exact (hRest.bides hBides).append_wait (Action.isWait_of_perform hWait hPerform)
  · refine Bears.append_plain ?_ (h.plain_rest hMoved (Bool.not_eq_true _ ▸ hWait))
    rw [hMoved.stream]
    cases action
    case deliver n frame =>
      cases hPerform
      have hActivation := (m.stream.alike_deliver n frame).activation
      rw [hActivation, framesOf_concat_of_not_isHandover rfl]
      exact Stream.bears_deliver hDue
    case process n profile consumer frame =>
      rw [Action.control_of_perform rfl hPerform, framesOf_concat_of_not_isHandover rfl]
      cases hPerform
      exact (Stream.bears_process h.standard hDue h.past (h.paced _)).2
    case confirm n profile consumer frame =>
      have hBides : m.stream.Bides e.stream := Action.bides_of_perform rfl hPerform
      cases hPerform
      rw [hBides.activation, framesOf_concat_of_not_isHandover rfl]
      exact Stream.bears_confirm hDue
    case ingest n packet =>
      rw [Action.control_of_perform rfl hPerform, framesOf_concat_of_not_isHandover rfl]
      cases hPerform
      exact (Stream.bears_ingest packet h.past).1
    case consume profile consumer frame =>
      cases hPerform
      exact .of_plain Stream.bearsFrame_consume
    case dropFrame cause =>
      cases hPerform
      exact .of_plain rfl
    all_goals exact .of_plain (Action.isUneventful_of_perform rfl hPerform).next

theorem future_moved (h : Pacing events m) (hMoved : m.Moved i action rest e m') (n : Nat)
    (hn : m'.stream.control.activation < n) :
    framesOf n (events ++ [{ action, before := m.stream, thread := i, rest }]) = [] := by
  obtain ⟨last, hPerform⟩ := hMoved.performs
  have hLe : m.stream.control.activation ≤ m'.stream.control.activation := by
    rw [hMoved.stream]
    exact Action.activation_le_of_perform hPerform
  have hOld := h.future n (Nat.lt_of_le_of_lt hLe hn)
  cases action
  case consume profile consumer frame =>
    have hNot : m.stream.control.activation ≠ n := by omega
    rw [framesOf_concat, hOld]
    dsimp only [Event.frame?]
    rw [if_neg hNot]
    rfl
  all_goals
    rw [framesOf_concat_of_not_isHandover rfl]
    exact hOld

/-- **Every move keeps the pace.** -/
theorem moved (h : Pacing events m) (hMoved : m.Moved i action rest e m')
    (hAlone : ∀ k, k ≠ i → m.IsEmptyHanded k) :
    Pacing (events ++ [{ action, before := m.stream, thread := i, rest }]) m' where
  locked := h.locked.moved hMoved
  supplied := by
    rw [supply_concat]
    exact h.supplied.moved h.locked hMoved
  primed := h.primed_moved hMoved
  standard := h.standard_moved hMoved
  future := h.future_moved hMoved
  paced := h.paced_moved hMoved
  past := h.past_moved hMoved
  bears k := by
    by_cases hk : k = i
    · subst hk
      exact h.bears_moved hMoved
    · exact .of_plain (h.locked.isEmptyHanded_moved hMoved hk (hAlone k hk))

theorem of_serial (h : Pacing [] m₀) (hPath : Serial m₀ events m) : Pacing events m := by
  induction hPath with
  | here => exact h
  | upkeep hUpkept _ ih => exact ih.upkept hUpkept
  | step _ hAgenda hAlone hStep ih =>
    obtain ⟨_, _, _, hMoved⟩ := moved_of_step hStep
    obtain ⟨rfl, rfl⟩ := List.cons.inj (hAgenda.symm.trans hMoved.agenda)
    exact ih.moved hMoved hAlone

end Pacing

theorem Fresh.plain (h : m₀.Fresh) (k : ThreadId) :
    ∀ x ∈ m₀.agenda k, x.bearsFrame = false ∧ x.readies = false := by
  have hAll := h.forall_mem (p := fun x => !x.bearsFrame && !x.readies)
    (by rintro (_ | _) <;> rfl) k
  simpa using hAll

theorem Fresh.isEmptyHanded (h : m₀.Fresh) (k : ThreadId) : m₀.IsEmptyHanded k := by
  rw [IsEmptyHanded, List.any_eq_false]
  exact fun x hx => Bool.eq_false_iff.mp (h.plain k x hx).1

theorem Fresh.pacing (h : m₀.Fresh) (hIdle : m₀.stream.source.receiver = none)
    (hStandard : m₀.stream.pipeline.IsStandard) : Pacing [] m₀ where
  locked := h.orderly.toLocked
  supplied := h.supplied hIdle
  primed k := .of_plain fun x hx => (h.plain k x hx).2
  standard := hStandard
  future _ _ := rfl
  paced _ := paced_nil
  past _ := List.forall_mem_nil _
  bears k := .of_plain (h.isEmptyHanded k)

/-- **The frames of one activation come in order.**  Whatever packets come in at whatever times,
whatever mode the device is in, and whatever recorders and processors let pass: as long as frames
come one at a time and the parts that stamp and check times stay the built-in ones, the frames that
consumers get in one activation have strictly growing numbers, device times and global times, and
the same offset between their two times. -/
theorem paced_of_serial (hFresh : m₀.Fresh) (hIdle : m₀.stream.source.receiver = none)
    (hStandard : m₀.stream.pipeline.IsStandard) (hPath : Serial m₀ events m) (n : Nat) :
    ((framesOf n events).Pairwise fun f g =>
        f.sequence < g.sequence ∧ f.deviceUs < g.deviceUs ∧ f.globalUs < g.globalUs) ∧
      ∃ offset, ∀ f ∈ framesOf n events, f.globalUs = f.deviceUs + offset := by
  have hPacing := Pacing.of_serial (hFresh.pacing hIdle hStandard) hPath
  exact ⟨(hPacing.paced n).rises, (hPacing.paced n).shifted⟩

/-- What one thread does by itself is serial. -/
theorem serial_of_alone (hFresh : m₀.Fresh) (hIdle : m₀.stream.source.receiver = none)
    (hStandard : m₀.stream.pipeline.IsStandard) (hPath : Path m₀ events m)
    (hOwn : ∀ event ∈ events, event.thread = i) : Serial m₀ events m := by
  suffices hAll : Serial m₀ events m ∧ ∀ k, k ≠ i → m.IsEmptyHanded k from hAll.1
  induction hPath with
  | here => exact ⟨.here, fun k _ => hFresh.isEmptyHanded k⟩
  | change x _ ih =>
    obtain ⟨hSerial, hAlone⟩ := ih hOwn
    have hPacing := Pacing.of_serial (hFresh.pacing hIdle hStandard) hSerial
    exact ⟨.upkeep (Stream.upkept_amid hPacing.standard x) hSerial, hAlone⟩
  | step _ hAgenda hStep ih =>
    obtain ⟨hSerial, hAlone⟩ := ih fun event he => hOwn event (List.mem_append_left _ he)
    obtain rfl := hOwn _ (List.mem_append_right _ List.mem_cons_self)
    obtain ⟨_, _, _, hMoved⟩ := moved_of_step hStep
    have hLocked := (Pacing.of_serial (hFresh.pacing hIdle hStandard) hSerial).locked
    exact ⟨hSerial.step hAgenda hAlone hStep, fun k hk =>
      hLocked.isEmptyHanded_moved hMoved hk (hAlone k hk)⟩

open Assembler (pairBytes)

/-- A gap of more than a frame period is too long, the recorder fails at its second call, and the
processor takes all points away. -/
def lossyStages : Pipeline where
  gaps := some (.new 1)
  recorder := some {
    stage.act := fun call _ => if call = 2 then .error (.panic "disk full") else .ok () }
  processor := some (.constant fun frame => .ok (.keep (frame.withData [])))

theorem isStandard_lossyStages : lossyStages.IsStandard := by
  refine ⟨⟨_, rfl⟩, ⟨_, rfl⟩, rfl, fun stage hStage call frame processed hOk frame' hFrame => ?_⟩
  cases hStage
  cases hOk
  cases hFrame
  exact ⟨[], rfl⟩

/-- A caller starts a stream and hands in three sweeps. -/
def lossy : Machine :=
  begin { pairSetup.stream with pipeline := lossyStages, wall := fun ns => 1000000 + ns / 1000 }
    [[.start pairProfile 7, .inject (pairBytes 0 1), .inject (pairBytes 0 2),
      .inject (pairBytes 1 1), .inject (pairBytes 1 2), .inject (pairBytes 2 1),
      .inject (pairBytes 2 2)]]

/-- The second sweep is lost, but it is the one that keeps the gap before the third short. -/
theorem paced_of_serial_lossy :
    lossy.stream.pipeline.IsStandard ∧ ∃ events m, Serial lossy events m ∧
      (framesOf 1 events).map (fun f => (f.sequence, f.deviceUs, f.globalUs)) =
        [(0, 10000, 1010000), (2, 110000, 1110000)] ∧
      ((framesOf 1 events).Pairwise fun f g =>
        f.sequence < g.sequence ∧ f.deviceUs < g.deviceUs ∧ f.globalUs < g.globalUs) ∧
      ∃ offset, ∀ f ∈ framesOf 1 events, f.globalUs = f.deviceUs + offset := by
  have hLeads : lossy.leads [.go 0 9, .pass 10000000, .go 0 14, .pass 50000000, .go 0 13,
      .pass 50000000, .go 0 14] (fun events _ => events.all (·.thread == 0) &&
        (framesOf 1 events).map (fun f => (f.sequence, f.deviceUs, f.globalUs)) ==
          [(0, 10000, 1010000), (2, 110000, 1110000)]) = true := by
    decide +kernel
  obtain ⟨events, m, hPath, hCheck⟩ := exists_of_leads hLeads
  simp only [Bool.and_eq_true, List.all_eq_true, beq_iff_eq] at hCheck
  obtain ⟨hOwn, hFrames⟩ := hCheck
  have hFresh : lossy.Fresh := fresh_begin rfl rfl _
  have hSerial := serial_of_alone hFresh rfl isStandard_lossyStages hPath hOwn
  exact ⟨isStandard_lossyStages, events, m, hSerial, hFrames,
    paced_of_serial hFresh rfl isStandard_lossyStages hSerial 1⟩

end Machine

end LidarSweep

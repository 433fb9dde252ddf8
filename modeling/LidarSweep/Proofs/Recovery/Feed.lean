import LidarSweep.Proofs.Recovery.Tally

/-!
# Packets that are not answered

Where neither the consumer nor the processor ever asks for anything, a packet has no say in what
becomes of the stream but one: the frame that it may complete makes the stream streaming and wakes
the watcher. All that a thread does about the packet is for the profile and the consumer that the
stream was started with.
-/

namespace LidarSweep

/-- Asks for nothing, ever. -/
def Stage.Undemanding (c : Stage Conduct) : Prop :=
  ∀ call frame list, c.act call frame = .errands list → list = []

namespace Pipeline

variable {p : Pipeline}

/-- The processor, if there is one, never stops the stream. -/
def NeverStops (p : Pipeline) : Prop :=
  ∀ stage, p.processor = some stage → ∀ call frame frame',
    stage.act call frame ≠ .ok (.stopThen frame')

theorem NeverStops.of_processor {p' : Pipeline} (h : p.NeverStops)
    (hSame : p'.processor = p.processor) : p'.NeverStops := fun stage hStage =>
  h stage (hSame ▸ hStage)

theorem processor_andThen {α β : Type} {step : Pipeline × Except Error α}
    {next : Pipeline → α → Pipeline × Except Error β} {x : Option (Stage _)}
    (hStep : step.1.processor = x) (hNext : ∀ q a, (next q a).1.processor = q.processor) :
    (andThen step next).1.processor = x := by
  obtain ⟨q, _ | a⟩ := step
  · exact hStep
  · exact (hNext q a).trans hStep

theorem processor_stampDevice (p : Pipeline) (frame : Frame) :
    (p.stampDevice frame).1.processor = p.processor := by
  unfold stampDevice
  split
  rfl

theorem processor_stampGlobal (wallUs : Nat) (p : Pipeline) (frame : Frame) :
    (p.stampGlobal wallUs frame).1.processor = p.processor := by
  unfold stampGlobal
  split
  rfl

theorem processor_checkTiming (mode : SyncMode) (p : Pipeline) (frame : Frame) :
    (p.checkTiming mode frame).1.processor = p.processor := by
  unfold checkTiming
  split <;> rfl

theorem processor_record (p : Pipeline) (frame : Frame) :
    (p.record frame).1.processor = p.processor := by
  unfold record
  split
  · rfl
  · dsimp only
    split <;> rfl

theorem NeverStops.process (h : p.NeverStops) (frame : Frame) :
    (p.process frame).1.NeverStops ∧ ∀ frame', (p.process frame).2 ≠ .ok (.stopThen frame') := by
  unfold Pipeline.process
  cases hProcessor : p.processor with
  | none => exact ⟨h, nofun⟩
  | some stage =>
    refine ⟨fun stage' hStage => ?_, fun frame' hStop => ?_⟩
    · cases hStage
      exact h stage hProcessor
    · refine h stage hProcessor (stage.calls + 1) frame frame' ?_
      dsimp only [Stage.call] at hStop
      cases hAct : stage.act (stage.calls + 1) frame with
      | error fault =>
        rw [hAct] at hStop
        cases hStop
      | ok processed =>
        rw [hAct] at hStop
        cases hStop
        rfl

/-- No frame comes out of the stages with the word to stop. -/
theorem NeverStops.run (h : p.NeverStops) (wallUs : Nat) (mode : SyncMode) (profile : Profile)
    (frame : Frame) :
    (p.run wallUs mode profile frame).1.NeverStops ∧
      ∀ frame', (p.run wallUs mode profile frame).2 ≠ .ok (.stopThen frame') := by
  have hStages : (andThen (andThen (andThen (andThen (annotate profile p frame) stampDevice)
      (stampGlobal wallUs)) (checkTiming mode)) record).1.processor = p.processor :=
    processor_andThen (processor_andThen (processor_andThen (processor_andThen rfl
      processor_stampDevice) (processor_stampGlobal wallUs)) (processor_checkTiming mode))
      processor_record
  unfold Pipeline.run
  generalize andThen (andThen (andThen (andThen (annotate profile p frame) stampDevice)
      (stampGlobal wallUs)) (checkTiming mode)) record = step at hStages
  obtain ⟨q, _ | frame₁⟩ := step
  · exact ⟨h.of_processor hStages, nofun⟩
  · exact (h.of_processor hStages).process frame₁

end Pipeline

/-- The stream is as its caller started it: for this profile and this consumer, with nothing asked
for since, and nobody who would ask. -/
structure Stream.Devoted (s : Stream) (recovery : RecoveryConfig) (profile : Profile)
    (consumer : ConsumerId) : Prop where
  recovery : s.control.recovery = recovery
  kept : s.control.shutdown = false
  pending : s.control.stopPending = false
  profile : s.control.profile = some profile
  consumer : ∀ c, s.control.consumer = some c → c = consumer
  undemanding : s.consumer.Undemanding
  neverStops : s.pipeline.NeverStops

/-- Whether the action belongs to what is done about a packet, for this profile and consumer. -/
def Action.feeds (profile : Profile) (consumer : ConsumerId) : Action → Bool
  | process _ p c _ | confirm _ p c _ | consume p c _ => p = profile ∧ c = consumer
  | offer _ | receive _ _ | ingest _ _ | deliver _ _ | dropFrame _ | acquire _ | release _
  | tell _ _ _ => true
  | _ => false

/-- What becomes of a stream by deeds about a packet. -/
structure Feed (deeds : List Deed) (s s' : Stream) : Prop where
  activation : s'.control.activation = s.control.activation
  /-- A frame wakes the watcher; else nothing that it waits for has changed. -/
  course : deeds.any Deed.delivers = false ∧ s'.control.state = s.control.state ∧
      s'.control.wakes = s.control.wakes ∨
    deeds.any Deed.delivers = true ∧ s.control.state.isActive = true ∧
      s'.control.state = .streaming ∧ s.control.wakes < s'.control.wakes

namespace Feed

variable {s s' s'' : Stream} {deeds deeds' : List Deed}

theorem of_control (h : s'.control = s.control) (hNone : deeds.any Deed.delivers = false) :
    Feed deeds s s' :=
  ⟨congrArg _ h, .inl ⟨hNone, congrArg _ h, congrArg _ h⟩⟩

theorem trans (h : Feed deeds s s') (h' : Feed deeds' s' s'') : Feed (deeds ++ deeds') s s'' := by
  refine ⟨h'.activation.trans h.activation, ?_⟩
  rw [List.any_append]
  rcases h.course with ⟨hNone, hState, hWakes⟩ | ⟨hSome, hActive, hState, hWakes⟩
  · rw [hNone, Bool.false_or, ← hState, ← hWakes]
    exact h'.course
  · rw [hSome, Bool.true_or]
    rcases h'.course with ⟨_, hState', hWakes'⟩ | ⟨_, _, hState', hWakes'⟩
    · exact .inr ⟨rfl, hActive, hState'.trans hState, hWakes' ▸ hWakes⟩
    · exact .inr ⟨rfl, hActive, hState', Nat.lt_trans hWakes hWakes'⟩

end Feed

namespace Stream.Devoted

variable {s s' : Stream} {recovery : RecoveryConfig} {profile : Profile} {consumer : ConsumerId}

theorem of_same (h : s.Devoted recovery profile consumer) (hControl : s'.control = s.control)
    (hPipeline : s'.pipeline = s.pipeline) (hConsumer : s'.consumer = s.consumer) :
    s'.Devoted recovery profile consumer where
  recovery := hControl ▸ h.recovery
  kept := hControl ▸ h.kept
  pending := hControl ▸ h.pending
  profile := hControl ▸ h.profile
  consumer := hControl ▸ h.consumer
  undemanding := hConsumer ▸ h.undemanding
  neverStops := hPipeline ▸ h.neverStops

theorem core_iff : s.core.Devoted recovery profile consumer ↔ s.Devoted recovery profile consumer :=
  ⟨fun ⟨h₁, h₂, h₃, h₄, h₅, h₆, h₇⟩ => ⟨h₁, h₂, h₃, h₄, h₅, h₆, h₇⟩,
    fun ⟨h₁, h₂, h₃, h₄, h₅, h₆, h₇⟩ => ⟨h₁, h₂, h₃, h₄, h₅, h₆, h₇⟩⟩

end Stream.Devoted

/-- What one action about a packet makes of a devoted stream. -/
structure Effect.Feeds (e : Effect) (recovery : RecoveryConfig) (profile : Profile)
    (consumer : ConsumerId) (action : Action) (s : Stream) : Prop where
  next : ∀ x ∈ e.next, x.feeds profile consumer = true
  devoted : e.stream.Devoted recovery profile consumer
  calm : e.stream.IsCalm
  feed : Feed [⟨action, s⟩] s e.stream

theorem Notice.feeds_of_mem_tellAll {n : Option Notice} {x : Action} (h : x ∈ Notice.tellAll n)
    (profile : Profile) (consumer : ConsumerId) : x.feeds profile consumer = true := by
  obtain ⟨_, _, _, rfl⟩ := Notice.eq_tell_of_mem_tellAll h
  rfl

namespace Stream

variable {s : Stream} {recovery : RecoveryConfig} {profile : Profile} {consumer : ConsumerId}

theorem feeds_ingest (h : s.Devoted recovery profile consumer) (hCalm : s.IsCalm)
    (activation : Nat) (packet : List UInt8) :
    (s.ingest activation packet).Feeds recovery profile consumer (.ingest activation packet) s := by
  unfold ingest
  split
  · exact ⟨List.forall_mem_nil _, h, hCalm, .of_control rfl rfl⟩
  · dsimp only
    split
    · exact ⟨List.forall_mem_nil _, h.of_same rfl rfl rfl, hCalm, .of_control rfl rfl⟩
    · exact ⟨List.all_eq_true.mp rfl, h.of_same rfl rfl rfl, hCalm, .of_control rfl rfl⟩

theorem feeds_deliver (h : s.Devoted recovery profile consumer) (hCalm : s.IsCalm)
    (activation : Nat) (frame : Frame) :
    (s.deliver activation frame).Feeds recovery profile consumer (.deliver activation frame) s := by
  unfold deliver
  split
  · next p c hProfile hConsumer _ =>
    cases hProfile.symm.trans h.profile
    obtain rfl := h.consumer c hConsumer
    refine ⟨List.all_eq_true.mp ?_, h, hCalm, .of_control rfl rfl⟩
    simp [Action.feeds]
  · exact ⟨List.forall_mem_nil _,
      ⟨h.recovery, h.kept, h.pending, h.profile, h.consumer, h.undemanding, h.neverStops⟩, hCalm,
      rfl, .inl ⟨rfl, rfl, rfl⟩⟩

theorem feeds_process (h : s.Devoted recovery profile consumer) (hCalm : s.IsCalm)
    (activation : Nat) (frame : Frame) :
    (s.process activation profile consumer frame).Feeds recovery profile consumer
      (.process activation profile consumer frame) s := by
  obtain ⟨hNever, hVerdict⟩ := h.neverStops.run (s.wall s.now) s.device.syncMode profile frame
  unfold process
  rcases hRun : s.pipeline.run (s.wall s.now) s.device.syncMode profile frame with
    ⟨pipeline, verdict⟩
  rw [hRun] at hNever hVerdict
  have hDevoted : Devoted { s with pipeline } recovery profile consumer :=
    ⟨h.recovery, h.kept, h.pending, h.profile, h.consumer, h.undemanding, hNever⟩
  cases verdict with
  | error e => exact ⟨List.all_eq_true.mp rfl, hDevoted, hCalm, .of_control rfl rfl⟩
  | ok processed =>
    cases processed with
    | swallow => exact ⟨List.all_eq_true.mp rfl, hDevoted, hCalm, .of_control rfl rfl⟩
    | keep frame' =>
      refine ⟨List.all_eq_true.mp ?_, hDevoted, hCalm, .of_control rfl rfl⟩
      simp [Action.feeds]
    | stopThen frame' => exact absurd rfl (hVerdict frame')

theorem feeds_confirm (h : s.Devoted recovery profile consumer) (hCalm : s.IsCalm)
    (activation : Nat) (frame : Frame) :
    (s.confirm activation profile consumer frame).Feeds recovery profile consumer
      (.confirm activation profile consumer frame) s := by
  unfold confirm
  split
  case isTrue hCurrent =>
    have hFields := s.control.countDelivered.transition_fst .streaming
    refine ⟨fun x hx => ?_, ?_, ?_, ?_, .inr ⟨?_, (of_decide_eq_true hCurrent).2, ?_, ?_⟩⟩
    · rcases List.mem_append.mp hx with hTell | hConsume
      · exact Notice.feeds_of_mem_tellAll hTell profile consumer
      · obtain rfl := List.mem_singleton.mp hConsume
        simp [Action.feeds]
    · dsimp only [Control.wake]
      rw [hFields]
      exact ⟨h.recovery, h.kept, h.pending, h.profile, h.consumer, h.undemanding, h.neverStops⟩
    · exact Stream.isCalm_transition (c := s.control.countDelivered) hCalm rfl .streaming
    · dsimp only [Control.wake]
      rw [hFields]
      rfl
    · simpa [Deed.delivers] using hCurrent
    · dsimp only [Control.wake]
      rw [hFields]
    · dsimp only [Control.wake, Control.transition]
      split
      · exact Nat.lt_succ_self _
      · exact Nat.lt_succ_of_lt (Nat.lt_succ_self _)
  case isFalse hLate =>
    refine ⟨List.forall_mem_nil _,
      ⟨h.recovery, h.kept, h.pending, h.profile, h.consumer, h.undemanding, h.neverStops⟩, hCalm,
      rfl, .inl ⟨?_, rfl, rfl⟩⟩
    simpa [Deed.delivers] using hLate

theorem feeds_consume (h : s.Devoted recovery profile consumer) (hCalm : s.IsCalm)
    (frame : Frame) :
    (s.consume profile consumer frame).Feeds recovery profile consumer
      (.consume profile consumer frame) s := by
  have hAct := h.undemanding (s.consumer.calls + 1) frame
  unfold consume
  dsimp only [Stage.call]
  split
  next list hList =>
    obtain rfl := hAct list hList
    refine ⟨?_, ⟨h.recovery, h.kept, h.pending, h.profile, h.consumer, h.undemanding,
      h.neverStops⟩, hCalm, .of_control rfl rfl⟩
    unfold request
    split <;> exact List.forall_mem_nil _
  next =>
    exact ⟨List.forall_mem_nil _, ⟨h.recovery, h.kept, h.pending, h.profile, h.consumer,
      h.undemanding, h.neverStops⟩, hCalm, .of_control rfl rfl⟩

theorem feeds_dropFrame (h : s.Devoted recovery profile consumer) (hCalm : s.IsCalm)
    (cause : Error) :
    (s.dropFrame cause).Feeds recovery profile consumer (.dropFrame cause) s := by
  unfold dropFrame
  dsimp only
  split
  all_goals
    exact ⟨List.forall_mem_nil _,
      ⟨h.recovery, h.kept, h.pending, h.profile, h.consumer, h.undemanding, h.neverStops⟩, hCalm,
      rfl, .inl ⟨rfl, rfl, rfl⟩⟩

theorem feeds_tell (h : s.Devoted recovery profile consumer) (hCalm : s.IsCalm)
    (listener : Nat) (state : StreamState) (shown : Option Profile) :
    (s.tell listener state shown).Feeds recovery profile consumer
      (.tell listener state shown) s := by
  obtain ⟨s', hTell, hCore, _, hCalm'⟩ := Stream.tell_of_isCalm hCalm listener state shown
  obtain ⟨listeners, _, _, _, hEq, _, _⟩ := s.tell_eq listener state shown
  have hControl : s'.control = { s.control with listeners } :=
    congrArg (·.stream.control) (hTell.symm.trans hEq)
  rw [hTell]
  refine ⟨List.forall_mem_nil _, Devoted.core_iff.mp (hCore ▸ Devoted.core_iff.mpr h), hCalm',
    ?_, .inl ⟨rfl, ?_, ?_⟩⟩
  all_goals
    rw [hControl]

end Stream

/-- **One action about a packet**, on a devoted stream. -/
theorem Action.feeds_of_perform {action : Action} {me : ThreadId} {last : Except Error Unit}
    {s : Stream} {e : Effect} {recovery : RecoveryConfig} {profile : Profile}
    {consumer : ConsumerId} (hFeeds : action.feeds profile consumer = true)
    (hDevoted : s.Devoted recovery profile consumer) (hCalm : s.IsCalm)
    (h : action.perform me last s = some e) : e.Feeds recovery profile consumer action s := by
  cases action
  case acquire lock =>
    obtain ⟨locks, _, rfl⟩ := Option.map_eq_some_iff.mp h
    exact ⟨List.forall_mem_nil _, hDevoted.of_same rfl rfl rfl, hCalm, .of_control rfl rfl⟩
  case release lock =>
    cases h
    exact ⟨List.forall_mem_nil _, hDevoted.of_same rfl rfl rfl, hCalm, .of_control rfl rfl⟩
  case offer packet =>
    cases h
    unfold Stream.offer
    split
    · exact ⟨List.forall_mem_nil _, hDevoted, hCalm, .of_control rfl rfl⟩
    · exact ⟨List.all_eq_true.mp rfl, hDevoted, hCalm, .of_control rfl rfl⟩
  case receive activation packet =>
    cases h
    refine ⟨?_, hDevoted, hCalm, .of_control rfl rfl⟩
    unfold Stream.receive
    dsimp only
    split
    · exact List.all_eq_true.mp rfl
    · exact List.forall_mem_nil _
  case ingest => cases h; exact Stream.feeds_ingest hDevoted hCalm _ _
  case deliver => cases h; exact Stream.feeds_deliver hDevoted hCalm _ _
  case process activation p c frame =>
    obtain ⟨rfl, rfl⟩ := of_decide_eq_true hFeeds
    cases h
    exact Stream.feeds_process hDevoted hCalm activation frame
  case confirm activation p c frame =>
    obtain ⟨rfl, rfl⟩ := of_decide_eq_true hFeeds
    cases h
    exact Stream.feeds_confirm hDevoted hCalm activation frame
  case consume p c frame =>
    obtain ⟨rfl, rfl⟩ := of_decide_eq_true hFeeds
    cases h
    exact Stream.feeds_consume hDevoted hCalm frame
  case dropFrame => cases h; exact Stream.feeds_dropFrame hDevoted hCalm _
  case tell => cases h; exact Stream.feeds_tell hDevoted hCalm _ _ _
  all_goals cases hFeeds

/-- **A thread's turn about a packet**, on a devoted stream. -/
theorem Turn.feed {me : ThreadId} {t t' : Thread} {s s' : Stream} {deeds : List Deed}
    {recovery : RecoveryConfig} (profile : Profile) (consumer : ConsumerId)
    (h : Turn me t s deeds t' s') (hAgenda : ∀ x ∈ t.agenda, x.feeds profile consumer = true)
    (hDevoted : s.Devoted recovery profile consumer) (hCalm : s.IsCalm) :
    (∀ d ∈ deeds, d.action.feeds profile consumer = true) ∧
      s'.Devoted recovery profile consumer ∧ Feed deeds s s' := by
  induction h with
  | stay => exact ⟨List.forall_mem_nil _, hDevoted, .of_control rfl rfl⟩
  | @step t s action rest e deeds t' s' hList _ hPerform _ _ ih =>
    rw [hList] at hAgenda
    have hOwn := hAgenda action List.mem_cons_self
    obtain ⟨hNext, hDevoted', hCalm', hFeed⟩ :=
      Action.feeds_of_perform hOwn hDevoted hCalm hPerform
    have hAgenda' : ∀ x ∈ (t.advance e).agenda, x.feeds profile consumer = true := by
      intro x hx
      rw [Thread.advance, hList] at hx
      rcases List.mem_append.mp hx with hNew | hRest
      · exact hNext x hNew
      · exact hAgenda x (List.mem_cons_of_mem _ hRest)
    obtain ⟨hDeeds, hDevoted'', hFeed'⟩ := ih hAgenda' hDevoted' hCalm'
    refine ⟨fun d hd => ?_, hDevoted'', hFeed.trans hFeed'⟩
    rcases List.mem_cons.mp hd with rfl | hLater
    · exact hOwn
    · exact hDeeds d hLater

end LidarSweep

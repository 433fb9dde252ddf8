import LidarSweep.Proofs.Stream.Footprint

/-!
# Actions that do nothing to frames

Six kinds of action deal with frames: they complete one, bring it on its way, count it, or hand it
over. All the others are uneventful: counters and frames handed over stay as they are, no frame is
set on its way, and the stream does not begin to stream. This holds of every action, on whatever
thread and in whatever state.
-/

namespace LidarSweep

/-- The frames handed to consumers, in order. -/
def Journal.frames (j : Journal) : List Frame :=
  j.consumed.filterMap fun entry =>
    match entry with
    | .frame _ frame => some frame
    | _ => none

namespace Action

/-- Whether the action deals with a frame, or may complete one. -/
def isEventful : Action → Bool
  | ingest _ _ | deliver _ _ | process _ _ _ _ | confirm _ _ _ _ | dropFrame _ | consume _ _ _ =>
    true
  | _ => false

/-- Whether the action has a frame on its way. -/
def bearsFrame : Action → Bool
  | deliver _ _ | process _ _ _ _ | confirm _ _ _ _ | dropFrame _ | consume _ _ _ => true
  | _ => false

end Action

/-- Frames have nothing to do with this effect. -/
structure Effect.IsUneventful (e : Effect) (s : Stream) : Prop where
  delivered : e.stream.control.stats.delivered = s.control.stats.delivered
  dropped : e.stream.control.stats.dropped = s.control.stats.dropped
  late : e.stream.control.stats.late = s.control.stats.late
  frames : e.stream.journal.frames = s.journal.frames
  next : e.next.any Action.bearsFrame = false
  streaming : e.stream.control.state = .streaming →
    s.control.state = .streaming ∧ e.stream.control.activation = s.control.activation

namespace Effect.IsUneventful

variable {e : Effect} {s : Stream}

theorem of_kept (hStats : e.stream.control.stats = s.control.stats)
    (hState : e.stream.control.state = s.control.state)
    (hActivation : e.stream.control.activation = s.control.activation)
    (hFrames : e.stream.journal.frames = s.journal.frames)
    (hNext : e.next.any Action.bearsFrame = false) : e.IsUneventful s where
  delivered := by rw [hStats]
  dropped := by rw [hStats]
  late := by rw [hStats]
  frames := hFrames
  next := hNext
  streaming hStreaming := ⟨hState ▸ hStreaming, hActivation⟩

theorem of_control (hControl : e.stream.control = s.control)
    (hFrames : e.stream.journal.frames = s.journal.frames)
    (hNext : e.next.any Action.bearsFrame = false) : e.IsUneventful s :=
  of_kept (congrArg _ hControl) (congrArg _ hControl) (congrArg _ hControl) hFrames hNext

theorem of_transition {c : Control} {target : StreamState}
    (hControl : e.stream.control = (c.transition target).1) (hStats : c.stats = s.control.stats)
    (hTarget : target ≠ .streaming) (hFrames : e.stream.journal.frames = s.journal.frames)
    (hNext : e.next.any Action.bearsFrame = false) : e.IsUneventful s where
  delivered := by rw [hControl, Control.transition_fst, hStats]
  dropped := by rw [hControl, Control.transition_fst, hStats]
  late := by rw [hControl, Control.transition_fst, hStats]
  frames := hFrames
  next := hNext
  streaming hStreaming := by
    rw [hControl, Control.transition_fst] at hStreaming
    exact absurd hStreaming hTarget

end Effect.IsUneventful

theorem Notice.bearsFrame_tellAll (n : Option Notice) :
    (Notice.tellAll n).any Action.bearsFrame = false := by
  rw [List.any_eq_false]
  intro action hAction
  obtain ⟨_, _, _, rfl⟩ := Notice.eq_tell_of_mem_tellAll hAction
  exact Bool.false_ne_true

theorem Notice.bearsFrame_unless (c : Prop) [Decidable c] (n : Option Notice) :
    (if c then [] else Notice.tellAll n).any Action.bearsFrame = false := by
  split
  · rfl
  · exact bearsFrame_tellAll n

theorem Stream.bearsFrame_request (s : Stream) {agenda : List Action}
    (h : agenda.any Action.bearsFrame = false) :
    (s.request agenda).any Action.bearsFrame = false := by
  unfold request
  split
  · rfl
  · exact h

theorem Journal.frames_addConsumed (j : Journal) (entry : ConsumerEntry) :
    (j.addConsumed entry).frames = j.frames ++ (match entry with
      | .frame _ frame => [frame]
      | _ => []) := by
  unfold addConsumed frames
  rw [List.filterMap_append]
  cases entry <;> rfl

namespace Stream

open Effect.IsUneventful

variable (s : Stream)

theorem isUneventful_checkStart (profile : Profile) (consumer : ConsumerId) :
    (s.checkStart profile consumer).IsUneventful s := by
  unfold checkStart
  rcases s.admission profile with ⟨verdict, table⟩
  cases verdict with
  | error e => exact of_control rfl rfl rfl
  | ok g => exact of_control rfl rfl rfl

theorem isUneventful_activate (profile : Profile) (consumer : ConsumerId) :
    (s.activate profile consumer).IsUneventful s := by
  refine of_transition rfl rfl (by decide) rfl ?_
  dsimp only [activate]
  rw [List.any_append, Notice.bearsFrame_tellAll]
  rfl

theorem isUneventful_openSource (activation : Nat) :
    (s.openSource activation).IsUneventful s := by
  unfold openSource
  rcases s.source.start activation with ⟨source, result⟩
  cases result with
  | ok => exact of_control rfl rfl rfl
  | error e => exact of_control rfl rfl rfl

theorem isUneventful_revert (cause : Error) : (s.revert cause).IsUneventful s := by
  refine of_transition rfl rfl (by decide) rfl ?_
  dsimp only [revert]
  rw [List.any_append, Notice.bearsFrame_tellAll]
  rfl

theorem isUneventful_halt {me : ThreadId} {ending : Ending} {e : Effect}
    (h : s.halt? me ending = some e) : e.IsUneventful s := by
  rcases s.halt_cases h with ⟨locks, _, rfl⟩ | ⟨_, ⟨_, rfl⟩ | ⟨_, rfl⟩⟩
  · exact of_control rfl rfl rfl
  · exact of_control rfl rfl rfl
  · exact of_kept rfl rfl rfl rfl rfl

theorem isUneventful_beginHalt (ending : Ending) : (s.beginHalt ending).IsUneventful s := by
  unfold beginHalt
  split
  · exact of_control rfl rfl rfl
  · refine of_transition rfl rfl (by decide) rfl ?_
    dsimp only
    rw [List.any_append]
    split
    · rw [Notice.bearsFrame_tellAll]
      rfl
    · rfl

theorem isUneventful_closeSource (ending : Ending) : (s.closeSource ending).IsUneventful s := by
  unfold closeSource
  rcases s.source.stop with ⟨source, result⟩
  cases result with
  | ok => exact of_control rfl rfl rfl
  | error e => exact of_control rfl rfl rfl

theorem isUneventful_settle (ending : Ending) (result : Except Error Unit) :
    (s.settle ending result).IsUneventful s := by
  refine of_transition rfl rfl (by cases ending <;> decide) rfl ?_
  dsimp only [settle]
  rw [List.any_append, Notice.bearsFrame_tellAll]
  rfl

theorem isUneventful_conclude (ending : Ending) (result : Except Error Unit) :
    (s.conclude ending result).IsUneventful s := by
  cases ending with
  | stopped => exact of_control rfl rfl rfl
  | failed => exact of_control rfl rfl rfl

theorem isUneventful_reportHalt (result : Except Error Unit) :
    (s.reportHalt result).IsUneventful s := by
  cases result with
  | ok => exact of_control rfl rfl rfl
  | error e => exact of_control rfl rfl rfl

theorem isUneventful_tell (listener : Nat) (state : StreamState) (profile : Option Profile) :
    (s.tell listener state profile).IsUneventful s := by
  obtain ⟨_, _, _, next, hTell, _, hNext⟩ := s.tell_eq listener state profile
  rw [hTell]
  refine of_kept rfl rfl rfl rfl ?_
  rcases hNext with rfl | rfl
  · rfl
  · exact bearsFrame_request _ rfl

theorem isUneventful_offer (packet : List UInt8) : (s.offer packet).IsUneventful s := by
  unfold offer
  cases s.source.receiver with
  | none => exact of_control rfl rfl rfl
  | some activation => exact of_control rfl rfl rfl

theorem isUneventful_play {activation index dueNs : Nat} {e : Effect}
    (h : s.play? activation index dueNs = some e) : e.IsUneventful s := by
  unfold play? at h
  split at h
  · cases h
    exact of_control rfl rfl rfl
  · split at h
    · cases h
    · split at h
      · cases h
        exact of_control rfl rfl rfl
      · split at h
        · cases h
          exact of_control rfl rfl rfl
        · cases h
          exact of_control rfl rfl rfl

theorem isUneventful_receive (activation : Nat) (packet : List UInt8) :
    (s.receive activation packet).IsUneventful s := by
  refine of_control rfl rfl ?_
  dsimp only [receive]
  split <;> rfl

theorem isUneventful_consumed {entry : ConsumerEntry}
    (h : ∀ consumer frame, entry ≠ .frame consumer frame) :
    Effect.IsUneventful { stream := s.consumed entry } s := by
  refine of_control rfl ?_ rfl
  dsimp only [consumed]
  rw [Journal.frames_addConsumed]
  cases entry with
  | frame consumer frame => exact absurd rfl (h consumer frame)
  | stopped result => exact List.append_nil _
  | started result => exact List.append_nil _

theorem isUneventful_configure (recovery : RecoveryConfig) :
    (s.configure recovery).IsUneventful s := by
  refine of_kept rfl rfl rfl rfl ?_
  dsimp only [configure]
  split <;> rfl

theorem isUneventful_employ : s.employ.IsUneventful s := by
  unfold employ
  split
  · exact of_control rfl rfl rfl
  · exact of_control rfl rfl rfl

theorem isUneventful_watch (budget : Budget) : (s.watch budget).IsUneventful s := by
  unfold watch
  dsimp only
  split
  · exact of_control rfl rfl rfl
  · split
    · exact of_control rfl rfl rfl
    · exact of_control rfl rfl rfl

theorem isUneventful_awaitWake {budget : Budget} {wakes : Nat} {e : Effect}
    (h : s.awaitWake? budget wakes = some e) : e.IsUneventful s := by
  unfold awaitWake? at h
  split at h
  · cases h
  · cases h
    exact of_control rfl rfl rfl

theorem isUneventful_awaitFrame {budget : Budget} {vigil : Vigil} {e : Effect}
    (h : s.awaitFrame? budget vigil = some e) : e.IsUneventful s := by
  unfold awaitFrame? at h
  split at h
  · cases h
    exact of_control rfl rfl rfl
  · split at h
    · cases h
    · cases h
      exact of_control rfl rfl rfl

theorem isUneventful_stall (budget : Budget) (vigil : Vigil) (limit : Nat) :
    (s.stall budget vigil limit).IsUneventful s := by
  unfold stall
  split
  · exact of_control rfl rfl rfl
  · exact of_control rfl rfl rfl

theorem isUneventful_beginRestart (budget : Budget) (vigil : Vigil) (limit : Nat) :
    (s.beginRestart budget vigil limit).IsUneventful s := by
  unfold beginRestart
  dsimp only
  split
  · exact of_control rfl rfl rfl
  · split
    · exact of_kept rfl rfl rfl rfl rfl
    · exact of_control rfl rfl rfl

theorem isUneventful_checkPending (result : Except Error Unit) (budget : Budget) (vigil : Vigil)
    (limit : Nat) (profile : Profile) (consumer : ConsumerId) :
    (s.checkPending result budget vigil limit profile consumer).IsUneventful s := by
  cases result
  all_goals
    dsimp only [checkPending]
    split
    · refine of_kept rfl rfl rfl rfl ?_
      dsimp only
      rw [List.any_append, Notice.bearsFrame_tellAll]
      rfl
    · exact of_control rfl rfl rfl

theorem isUneventful_endRestart (result : Except Error Unit) (budget : Budget) (vigil : Vigil)
    (limit : Nat) (profile : Profile) (consumer : ConsumerId) :
    (s.endRestart result budget vigil limit profile consumer).IsUneventful s := by
  have hNext : (s.endRestart result budget vigil limit profile consumer).next.any
      Action.bearsFrame = false := by
    dsimp only [endRestart]
    rw [List.any_append, Notice.bearsFrame_unless]
    rfl
  cases result with
  | ok => exact ⟨rfl, rfl, rfl, rfl, hNext, fun hStreaming => ⟨hStreaming, rfl⟩⟩
  | error e =>
    have hControl : (s.endRestart (.error e) budget vigil limit profile consumer).stream.control =
        { hold s.control profile consumer with quiet := false } := rfl
    rw [hold_eq] at hControl
    refine ⟨by rw [hControl], by rw [hControl], by rw [hControl], rfl, hNext, fun hStreaming => ?_⟩
    rw [hControl] at hStreaming
    cases hStreaming

theorem isUneventful_reckon (retries limit : Nat) : (s.reckon retries limit).IsUneventful s := by
  unfold reckon
  dsimp only
  split
  · exact of_control rfl rfl rfl
  · exact of_control rfl rfl rfl

end Stream

/-- **An action that is not about a frame is uneventful.** -/
theorem Action.isUneventful_of_perform {action : Action} {me : ThreadId}
    {last : Except Error Unit} {s : Stream} {e : Effect} (hAction : action.isEventful = false)
    (h : action.perform me last s = some e) : e.IsUneventful s := by
  cases action
  case acquire lock =>
    obtain ⟨locks, _, rfl⟩ := Option.map_eq_some_iff.mp h
    exact .of_control rfl rfl rfl
  case release | finish | sleep | pass | resetPipeline | install | uninstall | retire | abandon |
      hearStopped =>
    cases h
    exact .of_control rfl rfl rfl
  case shutDown =>
    cases h
    exact .of_kept rfl rfl rfl rfl rfl
  case await ready deadline =>
    rw [perform] at h
    split at h
    · cases h
      exact .of_control rfl rfl rfl
    · cases h
  case checkStart => cases h; exact s.isUneventful_checkStart _ _
  case activate => cases h; exact s.isUneventful_activate _ _
  case openSource => cases h; exact s.isUneventful_openSource _
  case revert => cases h; exact s.isUneventful_revert _
  case halt => exact s.isUneventful_halt h
  case beginHalt => cases h; exact s.isUneventful_beginHalt _
  case closeSource => cases h; exact s.isUneventful_closeSource _
  case settle => cases h; exact s.isUneventful_settle _ _
  case conclude => cases h; exact s.isUneventful_conclude _ _
  case reportHalt => cases h; exact s.isUneventful_reportHalt _
  case tell => cases h; exact s.isUneventful_tell _ _ _
  case offer => cases h; exact s.isUneventful_offer _
  case play => exact s.isUneventful_play h
  case receive => cases h; exact s.isUneventful_receive _ _
  case ingest | deliver | process | confirm | dropFrame | consume => cases hAction
  case seeStopped | seeStarted =>
    cases h
    refine s.isUneventful_consumed ?_
    rintro _ _ ⟨⟩
  case configure => cases h; exact s.isUneventful_configure _
  case employ => cases h; exact s.isUneventful_employ
  case watch => cases h; exact s.isUneventful_watch _
  case awaitWake => exact s.isUneventful_awaitWake h
  case awaitFrame => exact s.isUneventful_awaitFrame h
  case stall => cases h; exact s.isUneventful_stall _ _ _
  case beginRestart => cases h; exact s.isUneventful_beginRestart _ _ _
  case checkPending => cases h; exact s.isUneventful_checkPending _ _ _ _ _ _
  case endRestart => cases h; exact s.isUneventful_endRestart _ _ _ _ _ _
  case reckon => cases h; exact s.isUneventful_reckon _ _

end LidarSweep

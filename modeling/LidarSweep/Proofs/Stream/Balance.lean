import LidarSweep.Proofs.Stream.Turn
import LidarSweep.Proofs.Stream.Uneventful

/-!
# What becomes of frames

A frame that an assembler completes is delivered, dropped, late, or swallowed by the processor, and
until then an action has it on its way. `Balance` are the books on that, and every action keeps
them: none is forgotten, and none is counted twice.
-/

namespace LidarSweep

namespace Deed

/-- Whether the deed completes a frame. -/
def emits (d : Deed) : Bool :=
  match d.action, d.before.assembler with
  | .ingest _ packet, some a => (a.ingest d.before.now packet).2.frame?.isSome
  | _, _ => false

/-- Whether the deed is the processor's taking a frame away. -/
def swallows (d : Deed) : Bool :=
  match d.action with
  | .process _ profile _ frame =>
    let s := d.before
    match (s.pipeline.run (s.wall s.now) s.device.syncMode profile frame).2 with
    | .ok .swallow => true
    | _ => false
  | _ => false

/-- The deed counts a frame of this activation as delivered. -/
def Delivers (d : Deed) (activation : Nat) : Prop :=
  ∃ profile consumer frame, d.action = .confirm activation profile consumer frame ∧
    d.before.control.isCurrent activation = true

end Deed

namespace Action

/-- Whether the action has a frame on its way that no counter has counted. -/
def isInFlight : Action → Bool
  | deliver _ _ | process _ _ _ _ | confirm _ _ _ _ | dropFrame _ => true
  | _ => false

/-- Whether the action hands over a frame that counts as delivered. -/
def isHandover : Action → Bool
  | consume _ _ _ => true
  | _ => false

theorem bearsFrame_eq (action : Action) :
    action.bearsFrame = (action.isInFlight || action.isHandover) := by
  cases action <;> rfl

/-- An agenda without frames has none in flight and none to hand over. -/
theorem countP_of_bare {agenda : List Action} (h : agenda.any bearsFrame = false) :
    agenda.countP isInFlight = 0 ∧ agenda.countP isHandover = 0 := by
  rw [List.any_eq_false] at h
  refine ⟨List.countP_eq_zero.mpr fun action hAction => ?_,
    List.countP_eq_zero.mpr fun action hAction => ?_⟩
  all_goals
    have hBare := h action hAction
    rw [bearsFrame_eq, Bool.or_eq_true, not_or] at hBare
  · exact hBare.1
  · exact hBare.2

end Action

/-- Frames that a counter has counted. -/
def Stream.counted (s : Stream) : Nat :=
  s.control.stats.delivered + s.control.stats.dropped + s.control.stats.late

/-- What an action does to the books: a frame that it has in flight, or completes, is counted or
swallowed or still in flight, and a frame that it counts as delivered is handed over. -/
structure Effect.Settles (e : Effect) (action : Action) (s : Stream) : Prop where
  emitted : e.stream.counted + (Deed.swallows ⟨action, s⟩).toNat +
      e.next.countP Action.isInFlight =
    s.counted + (Deed.emits ⟨action, s⟩).toNat + action.isInFlight.toNat
  handed : e.stream.journal.frames.length + e.next.countP Action.isHandover +
      s.control.stats.delivered =
    s.journal.frames.length + action.isHandover.toNat + e.stream.control.stats.delivered

namespace Stream

variable (s : Stream)

theorem emits_ingest (activation : Nat) (packet : List UInt8) :
    Deed.emits ⟨.ingest activation packet, s⟩ =
      match s.assembler with
      | some a => (a.ingest s.now packet).2.frame?.isSome
      | none => false := by
  unfold Deed.emits
  cases s.assembler <;> rfl

theorem settles_ingest (activation : Nat) (packet : List UInt8) :
    (s.ingest activation packet).Settles (.ingest activation packet) s := by
  have hEmits := s.emits_ingest activation packet
  unfold ingest
  cases hAssembler : s.assembler with
  | none =>
    rw [hAssembler] at hEmits
    exact ⟨by rw [hEmits]; rfl, rfl⟩
  | some a =>
    dsimp only
    cases hFrame : (a.ingest s.now packet).2.frame? with
    | none =>
      simp only [hAssembler, hFrame] at hEmits
      exact ⟨by rw [hEmits]; rfl, rfl⟩
    | some frame =>
      simp only [hAssembler, hFrame] at hEmits
      exact ⟨by rw [hEmits]; rfl, rfl⟩

theorem settles_deliver (activation : Nat) (frame : Frame) :
    (s.deliver activation frame).Settles (.deliver activation frame) s := by
  unfold deliver
  split
  · exact ⟨rfl, rfl⟩
  · exact ⟨rfl, rfl⟩

theorem settles_process (activation : Nat) (profile : Profile) (consumer : ConsumerId)
    (frame : Frame) :
    (s.process activation profile consumer frame).Settles
      (.process activation profile consumer frame) s := by
  have hSwallows : Deed.swallows ⟨.process activation profile consumer frame, s⟩ =
      match (s.pipeline.run (s.wall s.now) s.device.syncMode profile frame).2 with
      | .ok .swallow => true
      | _ => false := rfl
  unfold process
  rcases hRun : s.pipeline.run (s.wall s.now) s.device.syncMode profile frame with
    ⟨pipeline, verdict⟩
  rw [hRun] at hSwallows
  dsimp only
  cases verdict with
  | error e => exact ⟨by rw [hSwallows]; rfl, rfl⟩
  | ok processed =>
    cases processed with
    | swallow => exact ⟨by rw [hSwallows]; rfl, rfl⟩
    | keep frame => exact ⟨by rw [hSwallows]; rfl, rfl⟩
    | stopThen frame =>
      have hStop : (request { s with pipeline } Action.stop).any Action.bearsFrame = false :=
        bearsFrame_request _ rfl
      obtain ⟨hInFlight, hHandover⟩ := Action.countP_of_bare hStop
      dsimp only
      refine ⟨?_, ?_⟩
      · rw [hSwallows, List.countP_append, hInFlight]
        rfl
      · rw [List.countP_append, hHandover]
        rfl

theorem control_dropFrame (cause : Error) :
    (s.dropFrame cause).stream.control = s.control.countDropped := by
  unfold dropFrame
  dsimp only
  split <;> rfl

theorem settles_dropFrame (cause : Error) : (s.dropFrame cause).Settles (.dropFrame cause) s := by
  have hControl := s.control_dropFrame cause
  have hFrames : (s.dropFrame cause).stream.journal.frames = s.journal.frames := by
    unfold dropFrame
    dsimp only
    split <;> rfl
  refine ⟨?_, by rw [hControl, hFrames]; rfl⟩
  rw [counted, hControl]
  show s.control.stats.delivered + (s.control.stats.dropped + 1) + s.control.stats.late + 0 + 0 =
    s.control.stats.delivered + s.control.stats.dropped + s.control.stats.late + 0 + 1
  omega

theorem settles_confirm (activation : Nat) (profile : Profile) (consumer : ConsumerId)
    (frame : Frame) :
    (s.confirm activation profile consumer frame).Settles
      (.confirm activation profile consumer frame) s := by
  unfold confirm
  split
  · obtain ⟨hInFlight, hHandover⟩ := Action.countP_of_bare
      (Notice.bearsFrame_tellAll (s.control.countDelivered.transition .streaming).2)
    have hStats : (s.control.countDelivered.transition .streaming).1.stats =
        s.control.countDelivered.stats := by rw [Control.transition_fst]
    dsimp only
    constructor
    · rw [List.countP_append, hInFlight, counted]
      dsimp only [Control.wake]
      rw [hStats]
      show s.control.stats.delivered + 1 + s.control.stats.dropped + s.control.stats.late + 0 + 0 =
        s.control.stats.delivered + s.control.stats.dropped + s.control.stats.late + 0 + 1
      omega
    · rw [List.countP_append, hHandover]
      dsimp only [Control.wake]
      rw [hStats]
      show s.journal.frames.length + 1 + s.control.stats.delivered =
        s.journal.frames.length + 0 + (s.control.stats.delivered + 1)
      omega
  · exact ⟨rfl, rfl⟩

theorem bearsFrame_errands (profile : Profile) (consumer : ConsumerId) (list : List Errand) :
    (list.flatMap (Errand.actions profile consumer)).any Action.bearsFrame = false := by
  rw [List.any_eq_false]
  intro action hAction
  obtain ⟨errand, _, hErrand⟩ := List.mem_flatMap.mp hAction
  have hBare : (errand.actions profile consumer).any Action.bearsFrame = false := by
    cases errand <;> rfl
  exact List.any_eq_false.mp hBare action hErrand

theorem settles_consume (profile : Profile) (consumer : ConsumerId) (frame : Frame) :
    (s.consume profile consumer frame).Settles (.consume profile consumer frame) s := by
  unfold consume
  rcases s.consumer.call frame with ⟨stage, conduct⟩
  have hFrames : (Stream.consumed { s with consumer := stage }
      (.frame consumer frame)).journal.frames.length = s.journal.frames.length + 1 := by
    show (s.journal.addConsumed _).frames.length = _
    rw [Journal.frames_addConsumed, List.length_append]
    rfl
  cases conduct with
  | errands list =>
    obtain ⟨hInFlight, hHandover⟩ := Action.countP_of_bare (bearsFrame_request
      (Stream.consumed { s with consumer := stage } (.frame consumer frame))
      (bearsFrame_errands profile consumer list))
    dsimp only
    exact ⟨by rw [hInFlight]; rfl, by rw [hHandover, hFrames]; rfl⟩
  | panic reason =>
    refine ⟨rfl, ?_⟩
    show (Stream.consumed { s with consumer := stage }
      (.frame consumer frame)).journal.frames.length + 0 + s.control.stats.delivered =
        s.journal.frames.length + 1 + s.control.stats.delivered
    rw [hFrames]

end Stream

theorem Effect.IsUneventful.settles {e : Effect} {action : Action} {s : Stream}
    (h : e.IsUneventful s) (hAction : action.isEventful = false) : e.Settles action s := by
  obtain ⟨hInFlight, hHandover⟩ := Action.countP_of_bare h.next
  have hBare : Deed.emits ⟨action, s⟩ = false ∧ Deed.swallows ⟨action, s⟩ = false ∧
      action.isInFlight = false ∧ action.isHandover = false := by
    cases action <;> first | exact ⟨rfl, rfl, rfl, rfl⟩ | cases hAction
  obtain ⟨hEmits, hSwallows, hOwn, hOwn'⟩ := hBare
  constructor
  · rw [Stream.counted, h.delivered, h.dropped, h.late, hInFlight, hEmits, hSwallows, hOwn]
    rfl
  · rw [h.frames, h.delivered, hHandover, hOwn']
    rfl

theorem Action.settles_of_perform {action : Action} {me : ThreadId} {last : Except Error Unit}
    {s : Stream} {e : Effect} (h : action.perform me last s = some e) : e.Settles action s := by
  by_cases hAction : action.isEventful = true
  · cases action
    case ingest => cases h; exact s.settles_ingest _ _
    case deliver => cases h; exact s.settles_deliver _ _
    case process => cases h; exact s.settles_process _ _ _ _
    case confirm => cases h; exact s.settles_confirm _ _ _ _
    case dropFrame => cases h; exact s.settles_dropFrame _
    case consume => cases h; exact s.settles_consume _ _ _
    all_goals cases hAction
  · rw [Bool.not_eq_true] at hAction
    exact (isUneventful_of_perform hAction h).settles hAction

/-- The books on frames: what was done so far, and what is still on the agenda of the thread. -/
structure Balance (past : List Deed) (s : Stream) (agenda : List Action) : Prop where
  emitted : past.countP Deed.emits =
    s.counted + past.countP Deed.swallows + agenda.countP Action.isInFlight
  handed : s.journal.frames.length + agenda.countP Action.isHandover = s.control.stats.delivered

namespace Balance

variable {past : List Deed} {s : Stream} {me : ThreadId}

theorem countP_cons_toNat {α : Type} (p : α → Bool) (a : α) (l : List α) :
    (a :: l).countP p = l.countP p + (p a).toNat := by
  rw [List.countP_cons]
  cases p a <;> rfl

theorem step {action : Action} {rest : List Action} {last : Except Error Unit} {e : Effect}
    (h : Balance past s (action :: rest)) (hPerform : action.perform me last s = some e) :
    Balance (past ++ [⟨action, s⟩]) e.stream (e.next ++ rest) := by
  obtain ⟨hEmitted, hHanded⟩ := h
  obtain ⟨hEmitted', hHanded'⟩ := Action.settles_of_perform hPerform
  rw [countP_cons_toNat] at hEmitted hHanded
  constructor
  · simp only [List.countP_append, countP_cons_toNat, List.countP_nil]
    omega
  · rw [List.countP_append]
    omega

/-- Agendas without frames are alike to the books. -/
theorem of_bare {agenda agenda' : List Action} (h : Balance past s agenda)
    (hBare : agenda.any Action.bearsFrame = false)
    (hBare' : agenda'.any Action.bearsFrame = false) : Balance past s agenda' := by
  obtain ⟨hEmitted, hHanded⟩ := h
  obtain ⟨hInFlight, hHandover⟩ := Action.countP_of_bare hBare
  obtain ⟨hInFlight', hHandover'⟩ := Action.countP_of_bare hBare'
  constructor
  · rw [hEmitted, hInFlight, hInFlight']
  · rw [← hHanded, hHandover, hHandover']

/-- Whatever a thread does in its turn, the books balance. -/
theorem turn {t t' : Thread} {s' : Stream} {deeds : List Deed} (h : Balance past s t.agenda)
    (hTurn : Turn me t s deeds t' s') : Balance (past ++ deeds) s' t'.agenda := by
  induction hTurn generalizing past with
  | stay => rwa [List.append_nil]
  | @step t s action rest e deeds t' s' hAgenda _ hPerform _ _ ih =>
    rw [hAgenda] at h
    have hNext : (t.advance e).agenda = e.next ++ rest := by
      rw [Thread.advance, hAgenda]
      rfl
    have hRest := ih (hNext ▸ h.step hPerform)
    rwa [List.append_assoc] at hRest

end Balance

/-- A thread at rest has no frame on its way. -/
theorem Thread.bearsFrame_of_isResting {t : Thread} (hRest : t.isResting = true) :
    t.agenda.any Action.bearsFrame = false := by
  unfold isResting at hRest
  split at hRest
  · next hAgenda => rw [hAgenda]; rfl
  · next action hAgenda =>
    rw [hAgenda]
    cases action <;> first | rfl | cases hRest
  · cases hRest

/-! ### When a stream streams -/

namespace Stream

variable (s : Stream)

theorem state_deliver (activation : Nat) (frame : Frame) :
    (s.deliver activation frame).stream.control.state = s.control.state ∧
      (s.deliver activation frame).stream.control.activation = s.control.activation := by
  unfold deliver
  split <;> exact ⟨rfl, rfl⟩

theorem activation_confirm (activation : Nat) (profile : Profile) (consumer : ConsumerId)
    (frame : Frame) :
    (s.confirm activation profile consumer frame).stream.control.activation =
      s.control.activation := by
  unfold confirm
  split
  · dsimp only [Control.wake]
    rw [Control.transition_fst]
    rfl
  · rfl

end Stream

/-- A stream begins to stream only when a frame of its activation is delivered. -/
theorem Action.streaming_of_perform {action : Action} {me : ThreadId}
    {last : Except Error Unit} {s : Stream} {e : Effect}
    (h : action.perform me last s = some e) (hStreaming : e.stream.control.state = .streaming) :
    s.control.state = .streaming ∧ e.stream.control.activation = s.control.activation ∨
      Deed.Delivers ⟨action, s⟩ e.stream.control.activation := by
  by_cases hTouches : action.touches .control = true
  · cases action
    case deliver activation frame =>
      cases h
      obtain ⟨hState, hActivation⟩ := s.state_deliver activation frame
      exact .inl ⟨hState ▸ hStreaming, hActivation⟩
    case confirm activation profile consumer frame =>
      cases h
      by_cases hCurrent : s.control.isCurrent activation = true
      · right
        rw [s.activation_confirm, (of_decide_eq_true hCurrent).1]
        exact ⟨profile, consumer, frame, rfl, hCurrent⟩
      · have hLate : s.confirm activation profile consumer frame = {
            stream := { s with control := s.control.countLate } } := if_neg hCurrent
        rw [hLate] at hStreaming ⊢
        exact .inl ⟨hStreaming, rfl⟩
    case dropFrame cause =>
      cases h
      rw [s.control_dropFrame] at hStreaming ⊢
      exact .inl ⟨hStreaming, rfl⟩
    case activate | revert | halt | beginHalt | settle | shutDown | tell | configure |
        beginRestart | checkPending | endRestart =>
      exact .inl ((isUneventful_of_perform rfl h).streaming hStreaming)
    all_goals cases hTouches
  · rw [control_of_perform (Bool.eq_false_iff.mpr hTouches) h] at hStreaming ⊢
    exact .inl ⟨hStreaming, rfl⟩

end LidarSweep

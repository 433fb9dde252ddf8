import LidarSweep.Proofs.Machine.Steering

/-!
# What the counters count

Of all actions only the end of a restart adds to the attempts, only a confirmed frame to the frames
delivered, and only a consumer that is called to the frames handed over. So the counters say how
many such deeds a thread has done in its turn.
-/

namespace LidarSweep

namespace Deed

/-- Whether the deed ends an attempt to restart the stream. -/
def isAttempt (d : Deed) : Bool :=
  match d.action with
  | .endRestart _ _ _ _ _ => true
  | _ => false

/-- Whether the deed counts a frame as delivered. -/
def delivers (d : Deed) : Bool :=
  match d.action with
  | .confirm activation _ _ _ => d.before.control.isCurrent activation
  | _ => false

end Deed

/-- What an action adds to the counters. -/
structure Effect.Tallies (e : Effect) (action : Action) (s : Stream) : Prop where
  attempts : e.stream.control.stats.attempts =
    s.control.stats.attempts + (Deed.isAttempt ⟨action, s⟩).toNat
  delivered : e.stream.control.stats.delivered =
    s.control.stats.delivered + (Deed.delivers ⟨action, s⟩).toNat
  handed : e.stream.journal.frames.length = s.journal.frames.length + action.isHandover.toNat

namespace Stream

variable (s : Stream)

theorem frames_ingest (activation : Nat) (packet : List UInt8) :
    (s.ingest activation packet).stream.journal.frames = s.journal.frames := by
  unfold ingest
  split
  · rfl
  · dsimp only
    split <;> rfl

theorem frames_deliver (activation : Nat) (frame : Frame) :
    (s.deliver activation frame).stream.journal.frames = s.journal.frames := by
  unfold deliver
  split <;> rfl

theorem frames_process (activation : Nat) (profile : Profile) (consumer : ConsumerId)
    (frame : Frame) :
    (s.process activation profile consumer frame).stream.journal.frames = s.journal.frames := by
  unfold process
  dsimp only
  split <;> rfl

theorem frames_confirm (activation : Nat) (profile : Profile) (consumer : ConsumerId)
    (frame : Frame) :
    (s.confirm activation profile consumer frame).stream.journal.frames = s.journal.frames := by
  unfold confirm
  split <;> rfl

theorem frames_dropFrame (cause : Error) :
    (s.dropFrame cause).stream.journal.frames = s.journal.frames := by
  unfold dropFrame
  dsimp only
  split <;> rfl

theorem frames_consume (profile : Profile) (consumer : ConsumerId) (frame : Frame) :
    (s.consume profile consumer frame).stream.journal.frames = s.journal.frames ++ [frame] := by
  have hFrames := s.journal.frames_addConsumed (.frame consumer frame)
  unfold consume
  dsimp only
  split
  · exact hFrames
  · exact hFrames

theorem delivered_confirm (activation : Nat) (profile : Profile) (consumer : ConsumerId)
    (frame : Frame) :
    (s.confirm activation profile consumer frame).stream.control.stats.delivered =
      s.control.stats.delivered + (s.control.isCurrent activation).toNat := by
  rcases s.confirm_cases activation profile consumer frame with
    ⟨hCurrent, _, hControl⟩ | ⟨hLate, hEffect⟩
  · rw [hCurrent, hControl]
    rfl
  · rw [hLate, hEffect]
    rfl

end Stream

/-- The frames handed over, after an action. -/
theorem Action.frames_of_perform {action : Action} {me : ThreadId} {last : Except Error Unit}
    {s : Stream} {e : Effect} (h : action.perform me last s = some e) :
    e.stream.journal.frames.length = s.journal.frames.length + action.isHandover.toNat := by
  by_cases hAction : action.isEventful = true
  · cases action
    case ingest => cases h; exact congrArg _ (s.frames_ingest _ _)
    case deliver => cases h; exact congrArg _ (s.frames_deliver _ _)
    case process => cases h; exact congrArg _ (s.frames_process _ _ _ _)
    case confirm => cases h; exact congrArg _ (s.frames_confirm _ _ _ _)
    case dropFrame => cases h; exact congrArg _ (s.frames_dropFrame _)
    case consume profile consumer frame =>
      cases h
      rw [s.frames_consume, List.length_append]
      rfl
    all_goals cases hAction
  · rw [Bool.not_eq_true] at hAction
    have hNot : action.isHandover = false := by
      cases action <;> first | rfl | cases hAction
    rw [(isUneventful_of_perform hAction h).frames, hNot]
    rfl

theorem Action.attempts_of_perform {action : Action} {me : ThreadId} {last : Except Error Unit}
    {s : Stream} {e : Effect} (h : action.perform me last s = some e) :
    e.stream.control.stats.attempts =
      s.control.stats.attempts + (Deed.isAttempt ⟨action, s⟩).toNat := by
  cases steering_of_perform h with
  | still hAlike hMay =>
    have hNot : Deed.isAttempt ⟨action, s⟩ = false := by
      cases action <;> first | rfl | cases hMay
    rw [hAlike.attempts, hNot]
    rfl
  | activated hControl | reverted hControl | settled hControl | halting _ hControl _
  | deferred _ hControl | confirmed _ hControl | muted hControl | unmuted hControl =>
    rw [hControl]
    rfl
  | restarted hControl =>
    rw [hControl]
    exact Nat.add_right_comm _ 1 _
  | held hControl =>
    rw [hControl]
    exact (Nat.add_assoc _ _ 1).symm

/-- **Each counter counts what it is named for.** -/
theorem Action.tallies_of_perform {action : Action} {me : ThreadId} {last : Except Error Unit}
    {s : Stream} {e : Effect} (h : action.perform me last s = some e) : e.Tallies action s := by
  refine ⟨attempts_of_perform h, ?_, frames_of_perform h⟩
  by_cases hAction : action.isEventful = true
  · cases action
    case confirm => cases h; exact s.delivered_confirm _ _ _ _
    case ingest | deliver | process | dropFrame | consume =>
      exact (alike_of_perform rfl h).delivered
    all_goals cases hAction
  · rw [Bool.not_eq_true] at hAction
    have hNot : Deed.delivers ⟨action, s⟩ = false := by
      cases action <;> first | rfl | cases hAction
    rw [(isUneventful_of_perform hAction h).delivered, hNot]
    rfl

/-- **A turn's deeds, by the counters.** -/
theorem Turn.tally {me : ThreadId} {t t' : Thread} {s s' : Stream} {deeds : List Deed}
    (h : Turn me t s deeds t' s') :
    s'.control.stats.attempts = s.control.stats.attempts + deeds.countP Deed.isAttempt ∧
      s'.control.stats.delivered = s.control.stats.delivered + deeds.countP Deed.delivers ∧
      s'.journal.frames.length = s.journal.frames.length + deeds.countP (·.action.isHandover) := by
  induction h with
  | stay => exact ⟨rfl, rfl, rfl⟩
  | step _ _ hPerform _ _ ih =>
    obtain ⟨hAttempts, hDelivered, hHanded⟩ := ih
    obtain ⟨hAttempts', hDelivered', hHanded'⟩ := Action.tallies_of_perform hPerform
    simp only [Balance.countP_cons_toNat]
    refine ⟨?_, ?_, ?_⟩ <;> omega

end LidarSweep

import LidarSweep.Proofs.Stream.Standing

/-!
# What goes on in an activation besides its packets

An activation that is over does not come back: a stop or a halt leaves it stopped, and a start or a
restart counts one on.  So whatever a consumer asks for while it is handed a frame, and whatever
callers and the watcher do between two packets, either the activation is over by then, or it all
came to nothing, and the stream is as it was for the packets to come (`untouched_done`,
`untouched_handed`).
-/

namespace LidarSweep

namespace Stream

/-- Nothing that a packet meets on its way has changed, and no frame was handed over. -/
structure Untouched (s s' : Stream) : Prop where
  assembler : s'.assembler = s.assembler
  pipeline : s'.pipeline = s.pipeline
  activation : s'.control.activation = s.control.activation
  state : s'.control.state = s.control.state
  profile : s'.control.profile = s.control.profile
  stats : s'.control.stats = s.control.stats
  frames : s'.journal.frames = s.journal.frames

variable {s s' s'' : Stream} {n : Nat}

theorem Untouched.refl (s : Stream) : s.Untouched s := ⟨rfl, rfl, rfl, rfl, rfl, rfl, rfl⟩

theorem Untouched.trans (h : s.Untouched s') (h' : s'.Untouched s'') : s.Untouched s'' where
  assembler := h'.assembler.trans h.assembler
  pipeline := h'.pipeline.trans h.pipeline
  activation := h'.activation.trans h.activation
  state := h'.state.trans h.state
  profile := h'.profile.trans h.profile
  stats := h'.stats.trans h.stats
  frames := h'.frames.trans h.frames

theorem Untouched.of_core (h : s.core.Untouched s'.core) : s.Untouched s' :=
  ⟨h.assembler, h.pipeline, h.activation, h.state, h.profile, h.stats, h.frames⟩

theorem Untouched.isCurrent (h : s.Untouched s') (n : Nat) :
    s'.control.isCurrent n = s.control.isCurrent n := by
  rw [Control.isCurrent, Control.isCurrent, h.activation, h.state]

theorem untouched_consumed (s : Stream) {entry : ConsumerEntry}
    (h : ∀ consumer frame, entry ≠ .frame consumer frame) : s.Untouched (s.consumed entry) :=
  ⟨rfl, rfl, rfl, rfl, rfl, rfl, (s.isUneventful_consumed h).frames⟩

theorem untouched_amid (s : Stream) (x : Circumstances) : s.Untouched (s.amid x) :=
  ⟨rfl, rfl, rfl, rfl, rfl, rfl, rfl⟩

theorem not_isCurrent_of_lt (h : n < s.control.activation) : ¬ s.control.isCurrent n = true := by
  intro hCurrent
  obtain ⟨hSame, _⟩ := of_decide_eq_true hCurrent
  omega

theorem not_isCurrent_of_stopped (h : s.control.state = .stopped) :
    ¬ s.control.isCurrent n = true := by
  intro hCurrent
  obtain ⟨_, hActive⟩ := of_decide_eq_true hCurrent
  rw [h] at hActive
  cases hActive

/-! ### Halts -/

theorem activation_halted (s : Stream) (ending : Ending) :
    (s.halted ending).control.activation = s.control.activation := by
  unfold halted
  split <;> rfl

theorem untouched_halted {ending : Ending} (h : (s.halted ending).control.isCurrent n = true) :
    s.Untouched (s.halted ending) := by
  unfold halted at h ⊢
  split at h
  next hOver =>
    rw [if_pos hOver]
    exact .refl s
  next =>
    -- Both endings are states in which nothing is active.
    obtain ⟨_, hActive⟩ := of_decide_eq_true h
    cases ending <;> cases hActive

/-- A stream that is stopped is not confirmed to be streaming. -/
theorem not_isCurrent_confirmed_stopped (s : Stream) (activation : Nat) (profile : Profile)
    (consumer : ConsumerId) (frame : Frame) :
    ¬ ((s.halted .stopped).confirmed activation profile consumer frame).control.isCurrent n =
      true := by
  have hState := Poised.state_halted_stopped s
  rw [confirmed, if_neg (not_isCurrent_of_stopped hState)]
  exact not_isCurrent_of_stopped hState

/-! ### Starts -/

variable {profile : Profile} {consumer : ConsumerId}

/-- A start that is refused changes nothing but the geometry cache, and any other counts on. -/
theorem started_cases (s : Stream) (profile : Profile) (consumer : ConsumerId) :
    (s.Untouched (s.started profile consumer).1 ∧ ∃ e, (s.started profile consumer).2 = .error e) ∨
      (s.started profile consumer).1.control.activation = s.control.activation + 1 := by
  unfold started
  split
  next e table _ => exact .inl ⟨⟨rfl, rfl, rfl, rfl, rfl, rfl, rfl⟩, e, rfl⟩
  next g table _ =>
    refine .inr ?_
    dsimp only
    split <;> rfl

theorem activation_le_started (s : Stream) (profile : Profile) (consumer : ConsumerId) :
    s.control.activation ≤ (s.started profile consumer).1.control.activation := by
  rcases s.started_cases profile consumer with ⟨hRefused, _⟩ | hBegun
  · exact Nat.le_of_eq hRefused.activation.symm
  · omega

theorem untouched_started (hLater : n ≤ s.control.activation)
    (h : (s.started profile consumer).1.control.isCurrent n = true) :
    s.Untouched (s.started profile consumer).1 := by
  rcases s.started_cases profile consumer with ⟨hRefused, _⟩ | hBegun
  · exact hRefused
  · exact absurd h (not_isCurrent_of_lt (by omega))

/-! ### What a consumer asks for -/

theorem activation_le_errand (s : Stream) (profile : Profile) (consumer : ConsumerId)
    (e : Errand) : s.control.activation ≤ (errand profile consumer s e).control.activation := by
  cases e with
  | stop => exact Nat.le_of_eq (s.activation_halted .stopped).symm
  | start => exact s.activation_le_started _ _
  | awaitStopping => exact Nat.le_refl _

theorem untouched_errand (hLater : n ≤ s.control.activation) {e : Errand}
    (h : (errand profile consumer s e).control.isCurrent n = true) :
    s.Untouched (errand profile consumer s e) := by
  cases e with
  | stop =>
    have hHalted : s.Untouched (s.halted .stopped) := untouched_halted h
    exact hHalted.trans (untouched_consumed _ nofun)
  | start profile? consumer? =>
    have hStarted : s.Untouched (s.started (profile?.getD profile) (consumer?.getD consumer)).1 :=
      untouched_started hLater h
    exact hStarted.trans (untouched_consumed _ nofun)
  | awaitStopping => exact .refl s

theorem untouched_errands (hLater : n ≤ s.control.activation) {list : List Errand}
    (h : (list.foldl (errand profile consumer) s).control.isCurrent n = true) :
    s.Untouched (list.foldl (errand profile consumer) s) := by
  induction list generalizing s with
  | nil => exact .refl s
  | cons e list ih =>
    rw [List.foldl_cons] at h ⊢
    have hRest := ih (Nat.le_trans hLater (s.activation_le_errand profile consumer e)) h
    rw [hRest.isCurrent] at h
    exact (untouched_errand hLater h).trans hRest

/-- A consumer that leaves the activation going has only got its frame. -/
theorem untouched_handed {frame : Frame} (hLater : n ≤ s.control.activation)
    (h : (s.handed profile consumer frame).control.isCurrent n = true) :
    Untouched (consumed { s with consumer := (s.consumer.call frame).1 } (.frame consumer frame))
      (s.handed profile consumer frame) := by
  have hCalled : n ≤ (consumed { s with consumer := (s.consumer.call frame).1 }
    (.frame consumer frame)).control.activation := hLater
  unfold handed at h ⊢
  dsimp only at h ⊢
  split at h
  next => exact untouched_errands hCalled h
  next => exact .refl _

/-! ### Operations -/

/-- A restart that has begun leaves no activation as it was. -/
theorem not_isCurrent_renewed (hLater : n ≤ s.control.activation) :
    ¬ (s.renewed profile consumer).control.isCurrent n = true := by
  have hSame := activation_halted { s with control := { s.control with quiet := true } } .stopped
  have hState := Poised.state_halted_stopped { s with control := { s.control with quiet := true } }
  unfold renewed
  dsimp only
  generalize halted { s with control := { s.control with quiet := true } } .stopped = s₁
    at hSame hState
  dsimp only at hSame
  split
  · exact not_isCurrent_of_stopped hState
  · have hCases := s₁.started_cases profile consumer
    have hLe := s₁.activation_le_started profile consumer
    split
    next s₂ hStart =>
      rw [hStart] at hCases
      rcases hCases with ⟨_, e, hError⟩ | hBegun
      · cases hError
      · exact not_isCurrent_of_lt (s := { s₂ with control := _ }) (by dsimp only at hBegun ⊢; omega)
    next s₂ e hStart =>
      rw [hStart] at hLe
      exact not_isCurrent_of_lt (s := { s₂ with control := _ }) (by dsimp only at hLe ⊢; omega)

theorem untouched_restarted {vigil : Vigil} (hLater : n ≤ s.control.activation)
    (h : (s.restarted vigil).control.isCurrent n = true) : s.Untouched (s.restarted vigil) := by
  unfold restarted at h ⊢
  split at h
  next profile consumer _ => exact absurd h (not_isCurrent_renewed hLater)
  next => exact .refl s

/-- **What is done besides packets comes to nothing**, as long as the activation goes on. -/
theorem untouched_done {op : Operation} (hOther : ∀ packet, op ≠ .inject packet)
    (hLater : n ≤ s.control.activation) (h : (op.done s).control.isCurrent n = true) :
    s.Untouched (op.done s) := by
  cases op with
  | start profile consumer => exact untouched_started hLater h
  | stop => exact untouched_halted h
  | inject packet => exact absurd rfl (hOther packet)
  | restart budget vigil limit => exact untouched_restarted hLater h
  | giveUp => exact untouched_halted h

end Stream

end LidarSweep

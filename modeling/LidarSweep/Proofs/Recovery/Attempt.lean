import LidarSweep.Proofs.Recovery.Bout
import LidarSweep.Proofs.Stream.Standing

/-!
# What a stall comes to

A devoted stream that has stalled is restarted once, with the profile and the consumer that it has,
whether that works or not. If that was the last attempt it had, it is given up in the same bout.
-/

namespace LidarSweep

namespace Stream

variable {s : Stream} {recovery : RecoveryConfig} {profile : Profile} {consumer : ConsumerId}

theorem stats_halted (s : Stream) (ending : Ending) :
    (s.halted ending).control.stats = s.control.stats := by
  unfold halted
  split <;> rfl

theorem journal_halted (s : Stream) (ending : Ending) : (s.halted ending).journal = s.journal := by
  unfold halted
  split <;> rfl

theorem Devoted.halted (h : s.Devoted recovery profile consumer) (ending : Ending) :
    (s.halted ending).Devoted recovery profile consumer := by
  unfold Stream.halted
  split
  · exact h
  · exact ⟨h.recovery, h.kept, h.pending, h.profile, nofun, h.undemanding, h.neverStops⟩

/-- A start, worked or not: it is for the profile and consumer that it was asked for. -/
structure Begun (s : Stream) (result : Except Error Unit) (s' : Stream) : Prop where
  starting : result = .ok () → s'.control.state = .starting
  stats : s'.control.stats = s.control.stats
  journal : s'.journal = s.journal

theorem Devoted.started (h : s.Devoted recovery profile consumer) :
    (s.started profile consumer).1.Devoted recovery profile consumer ∧
      Begun s (s.started profile consumer).2 (s.started profile consumer).1 := by
  have hPipeline : (s.pipeline.reset s.now profile.rate).NeverStops :=
    h.neverStops.of_processor rfl
  unfold Stream.started
  split
  · exact ⟨⟨h.recovery, h.kept, h.pending, h.profile, h.consumer, h.undemanding, h.neverStops⟩,
      nofun, rfl, rfl⟩
  · dsimp only
    split
    · refine ⟨⟨h.recovery, h.kept, rfl, rfl, ?_, h.undemanding, hPipeline⟩, fun _ => rfl, rfl, rfl⟩
      rintro c hc
      exact (Option.some.inj hc).symm
    · exact ⟨⟨h.recovery, h.kept, rfl, rfl, nofun, h.undemanding, hPipeline⟩, nofun, rfl, rfl⟩

/-- A stream after one attempt to restart it. -/
structure Renewed (s s' : Stream) : Prop where
  starting : s'.control.state = .starting
  attempts : s'.control.stats.attempts = s.control.stats.attempts + 1
  delivered : s'.control.stats.delivered = s.control.stats.delivered
  journal : s'.journal = s.journal

theorem Devoted.renewed (h : s.Devoted recovery profile consumer) :
    (s.renewed profile consumer).Devoted recovery profile consumer ∧
      Renewed s (s.renewed profile consumer) := by
  have hQuiet : Devoted { s with control := { s.control with quiet := true } }
      recovery profile consumer :=
    ⟨h.recovery, h.kept, h.pending, h.profile, h.consumer, h.undemanding, h.neverStops⟩
  have hStopped := hQuiet.halted .stopped
  have hStats := stats_halted { s with control := { s.control with quiet := true } } .stopped
  have hJournal := journal_halted { s with control := { s.control with quiet := true } } .stopped
  unfold Stream.renewed
  generalize Stream.halted { s with control := { s.control with quiet := true } } .stopped = s₁
    at hStopped hStats hJournal
  dsimp only
  rw [if_neg (Bool.eq_false_iff.mp hStopped.pending)]
  obtain ⟨hDevoted, hBegun⟩ := hStopped.started
  generalize s₁.started profile consumer = begun at hDevoted hBegun
  obtain ⟨s₂, result⟩ := begun
  have hSame : s₂.control.stats = s.control.stats := hBegun.stats.trans hStats
  have hDelivered : s₂.control.stats.delivered = s.control.stats.delivered := by rw [hSame]
  cases result with
  | ok =>
    refine ⟨⟨hDevoted.recovery, hDevoted.kept, hDevoted.pending, hDevoted.profile,
      hDevoted.consumer, hDevoted.undemanding, hDevoted.neverStops⟩, hBegun.starting rfl, ?_,
      hDelivered, hBegun.journal.trans hJournal⟩
    show s₂.control.stats.recoveries + 1 + s₂.control.stats.failedRecoveries = _
    rw [hSame]
    exact Nat.add_right_comm _ 1 _
  | error e =>
    refine ⟨⟨hDevoted.recovery, hDevoted.kept, hDevoted.pending, rfl, ?_, hDevoted.undemanding,
      hDevoted.neverStops⟩, rfl, ?_, hDelivered, hBegun.journal.trans hJournal⟩
    · rintro c hc
      exact (Option.some.inj hc).symm
    · show s₂.control.stats.recoveries + (s₂.control.stats.failedRecoveries + 1) = _
      rw [hSame]
      exact (Nat.add_assoc _ _ 1).symm

end Stream

/-- Both checks are on, and there are attempts to make. -/
structure RecoveryConfig.IsFull (c : RecoveryConfig) : Prop where
  restarts : 0 < c.maxRestarts
  noStream : 0 < c.noStreamMs
  interrupt : 0 < c.interruptMs

theorem RecoveryConfig.IsFull.isEnabled {c : RecoveryConfig} (h : c.IsFull) :
    c.isEnabled = true := by
  simp [RecoveryConfig.isEnabled, h.restarts, h.noStream]

namespace Stream

/-- With both checks on, the watcher is patient just while the stream is active. -/
theorem exists_patience {c : Control} (hFull : c.recovery.IsFull)
    (hActive : c.state.isActive = true) : ∃ timeoutMs, patience? c = some timeoutMs := by
  unfold patience? RecoveryConfig.noStream? RecoveryConfig.interrupt?
  cases hState : c.state with
  | starting => exact ⟨_, if_pos hFull.noStream⟩
  | streaming => exact ⟨_, if_pos hFull.interrupt⟩
  | stopped | stopping | error =>
    rw [hState] at hActive
    cases hActive

/-- Without a frame since the last attempt the watcher notes nothing new. -/
theorem review_of_mark {c : Control} {budget : Budget} (hActive : c.state.isActive = true)
    (hMark : c.stats.delivered ≤ budget.mark) : review c budget = budget := by
  unfold review
  cases hState : c.state with
  | starting => rfl
  | streaming => exact if_neg (Nat.not_lt.mpr hMark)
  | stopped | stopping | error =>
    rw [hState] at hActive
    cases hActive

theorem patience_of_over {c : Control} (hOver : c.state.isActive = false) : patience? c = none := by
  unfold patience?
  cases hState : c.state with
  | starting | streaming =>
    rw [hState] at hOver
    cases hOver
  | stopped | stopping | error => rfl

end Stream

/-! ### The bouts -/

section Bouts

variable {w : ThreadId} {t : Thread} {s : Stream} {recovery : RecoveryConfig} {profile : Profile}
  {consumer : ConsumerId} {budget : Budget} {vigil : Vigil}

/-- A watcher that looks at an active stream notes what it sees and waits for a frame. -/
theorem Bout.of_look (hDevoted : s.Devoted recovery profile consumer) (hFull : recovery.IsFull)
    (hActive : s.control.state.isActive = true) (hAgenda : t.agenda = [.watch budget]) :
    ∃ deeds t' vigil, Bout w t s deeds t' s ∧
      t'.agenda = [.awaitFrame (Stream.review s.control budget) vigil] ∧
      vigil.state = s.control.state ∧ vigil.activation = s.control.activation ∧
      vigil.wakes = s.control.wakes := by
  obtain ⟨agenda, last, taken⟩ := t
  obtain rfl : agenda = _ := hAgenda
  have hFull' := hDevoted.recovery.symm ▸ hFull
  obtain ⟨timeoutMs, hPatience⟩ := Stream.exists_patience hFull' hActive
  have hPerform : (Action.watch budget).perform w last s = some {
      stream := s
      next := [.awaitFrame (Stream.review s.control budget) {
        state := s.control.state
        activation := s.control.activation
        wakes := s.control.wakes
        timeoutMs
        deadlineNs := s.now + timeoutMs * 1000000 }] } := by
    dsimp only [Action.perform, Stream.watch]
    rw [hDevoted.kept, hFull'.isEnabled, hPatience]
    rfl
  exact ⟨_, _, _, .look rfl hPerform, rfl, rfl, rfl, rfl⟩

/-- One that looks at a stream that is over falls asleep. -/
theorem Bout.of_look_over (hDevoted : s.Devoted recovery profile consumer)
    (hFull : recovery.IsFull) (hOver : s.control.state.isActive = false)
    (hAgenda : t.agenda = [.watch budget]) :
    ∃ deeds t' wakes, Bout w t s deeds t' s ∧
      t'.agenda = [.awaitWake (Stream.review s.control budget) wakes] := by
  obtain ⟨agenda, last, taken⟩ := t
  obtain rfl : agenda = _ := hAgenda
  have hFull' := hDevoted.recovery.symm ▸ hFull
  have hPerform : (Action.watch budget).perform w last s = some {
      stream := s
      next := [.awaitWake (Stream.review s.control budget) s.control.wakes] } := by
    dsimp only [Action.perform, Stream.watch]
    rw [hDevoted.kept, hFull'.isEnabled, Stream.patience_of_over hOver]
    rfl
  exact ⟨_, _, _, .look rfl hPerform, rfl⟩

/-- The stream has not changed since the watcher looked at it, and no frame has come in time. -/
structure Stream.Stalled (s : Stream) (vigil : Vigil) : Prop where
  state : s.control.state = vigil.state
  activation : s.control.activation = vigil.activation
  wakes : s.control.wakes = vigil.wakes
  due : vigil.deadlineNs ≤ s.now

theorem awaitFrame_of_stalled (h : s.Stalled vigil) {last : Except Error Unit} :
    (Action.awaitFrame budget vigil).perform w last s = some {
      stream := s
      next := [.stall budget vigil s.control.recovery.maxRestarts.toNat] } := by
  dsimp only [Action.perform, Stream.awaitFrame?]
  rw [if_neg (not_not_intro h.wakes), if_neg (Nat.not_lt.mpr h.due)]

/-- A stall of a device that waits for triggers is no stall. -/
theorem Bout.of_triggered (hAgenda : t.agenda = [.awaitFrame budget vigil]) (h : s.Stalled vigil)
    (hTriggered : s.device.syncMode.isTriggered = true) :
    ∃ deeds t', Bout w t s deeds t' s ∧ t'.agenda = [.watch budget] := by
  obtain ⟨agenda, last, taken⟩ := t
  obtain rfl : agenda = _ := hAgenda
  have hStall {limit : Nat} : (Action.stall budget vigil limit).perform w last s =
      some { stream := s, next := [.watch budget] } := by
    dsimp only [Action.perform, Stream.stall]
    rw [if_pos hTriggered]
  exact ⟨_, _, .wake rfl (.step rfl rfl (awaitFrame_of_stalled h) rfl
    (.step rfl rfl hStall rfl (.stay _ s))) rfl, rfl⟩

/-- A watcher that is woken looks again. -/
theorem Bout.of_woken (hAgenda : t.agenda = [.awaitFrame budget vigil])
    (hWoken : s.control.wakes ≠ vigil.wakes) :
    ∃ deeds t', Bout w t s deeds t' s ∧ t'.agenda = [.watch budget] := by
  obtain ⟨agenda, last, taken⟩ := t
  obtain rfl : agenda = _ := hAgenda
  have hAwait : (Action.awaitFrame budget vigil).perform w last s =
      some { stream := s, next := [.watch budget] } := if_pos hWoken
  exact ⟨_, _, .wake rfl (.step rfl rfl hAwait rfl (.stay _ s)) rfl, rfl⟩

theorem Bout.of_asleep {wakes : Nat} (hAgenda : t.agenda = [.awaitWake budget wakes])
    (hWoken : s.control.wakes ≠ wakes) :
    ∃ deeds t', Bout w t s deeds t' s ∧ t'.agenda = [.watch budget] := by
  obtain ⟨agenda, last, taken⟩ := t
  obtain rfl : agenda = _ := hAgenda
  have hAwait : (Action.awaitWake budget wakes).perform w last s =
      some { stream := s, next := [.watch budget] } := if_neg hWoken
  exact ⟨_, _, .wake rfl (.step rfl rfl hAwait rfl (.stay _ s)) rfl, rfl⟩

/-- A devoted stream that has stalled is restarted with what it has. -/
theorem renewal_of_stalled (hStanding : s.Standing) (hDevoted : s.Devoted recovery profile consumer)
    (hActive : s.control.state.isActive = true) (h : s.Stalled vigil) :
    s.renewal? vigil = some (profile, consumer) := by
  unfold Stream.renewal?
  rw [hDevoted.kept, h.state, h.activation, hDevoted.profile]
  cases hConsumer : s.control.consumer with
  | none => exact absurd hConsumer (hStanding.active hActive).2.1
  | some c =>
    obtain rfl := hDevoted.consumer c hConsumer
    simp

/-- What the stream is like when the watcher has made an attempt and reckoned with it. -/
structure Answered (s : Stream) (recovery : RecoveryConfig) (profile : Profile)
    (consumer : ConsumerId) (budget : Budget) (t' : Thread) (s' : Stream) : Prop where
  standing : s'.Standing
  devoted : s'.Devoted recovery profile consumer
  attempts : s'.control.stats.attempts = s.control.stats.attempts + 1
  delivered : s'.control.stats.delivered = s.control.stats.delivered
  frames : s'.journal.frames = s.journal.frames
  state : s'.control.state =
    if recovery.maxRestarts.toNat ≤ budget.retries + 1 then .error else .starting
  agenda : t'.agenda = [.watch ⟨budget.retries + 1, s.control.stats.delivered⟩]

/-- The watcher's turn from the stall to where it reckons with the attempt. -/
theorem exists_attempt (hStanding : s.Standing) (hDevoted : s.Devoted recovery profile consumer)
    (hActive : s.control.state.isActive = true) (hAgenda : t.agenda = [.awaitFrame budget vigil])
    (h : s.Stalled vigil) (hFree : s.device.syncMode.isTriggered = false) :
    ∃ deeds t' s', Turn w t s deeds t' s' ∧
      t'.agenda = [.reckon (budget.retries + 1) recovery.maxRestarts.toNat] ∧ s'.Standing ∧
      s'.Devoted recovery profile consumer ∧ s.core.Renewed s'.core := by
  obtain ⟨agenda, last, taken⟩ := t
  obtain rfl : agenda = _ := hAgenda
  obtain ⟨text, hStall⟩ : ∃ text,
      (Action.stall budget vigil s.control.recovery.maxRestarts.toNat).perform w last s = some {
        stream := s.warn text
        next := [.acquire .restart,
          .beginRestart budget vigil s.control.recovery.maxRestarts.toNat] } := by
    dsimp only [Action.perform, Stream.stall]
    rw [if_neg (Bool.eq_false_iff.mp hFree)]
    exact ⟨_, rfl⟩
  have hPoised := Stream.Poised.core_iff.mpr hStanding.toPoised
  have hRenewal : s.core.renewal? vigil = some (profile, consumer) :=
    (renewal_of_stalled hStanding hDevoted hActive h : s.renewal? vigil = _)
  have hFreeFor : s.locks.FreeFor w := hStanding.free ▸ Locks.freeFor_none w
  obtain ⟨last', hMoves⟩ := Moves.restart hFreeFor
    hPoised.toReady budget vigil s.control.recovery.maxRestarts.toNat [] last
  obtain ⟨deeds, s', taken', hTurn, hCore, hLocks, hCalm⟩ :=
    hMoves (s.warn text) taken rfl rfl hStanding.calm
  obtain ⟨hDevoted', hRenewed⟩ := (Stream.Devoted.core_iff.mpr hDevoted).renewed
  have hPoised' := hPoised.restarted vigil
  have hRest : s.core.rest budget vigil s.control.recovery.maxRestarts.toNat =
      .reckon (budget.retries + 1) recovery.maxRestarts.toNat := by
    rw [Stream.rest, hRenewal, hDevoted.recovery]
    exact if_neg (Bool.eq_false_iff.mp hDevoted.pending)
  have hEnd : s'.core = s.core.renewed profile consumer := by
    rw [hCore, Stream.restarted, hRenewal]
  refine ⟨_, _, s', .step rfl rfl (awaitFrame_of_stalled h) rfl (.step rfl rfl hStall rfl hTurn),
    congrArg (fun action => [action]) hRest, ⟨?_, hLocks.trans hStanding.free, hCalm⟩, ?_, ?_⟩
  · exact Stream.Poised.core_iff.mp (hCore ▸ hPoised')
  · exact Stream.Devoted.core_iff.mp (hEnd ▸ hDevoted')
  · exact hEnd ▸ hRenewed

/-- The watcher's turn when it has spent all attempts. -/
theorem exists_giveUp (hStanding : s.Standing) (hDevoted : s.Devoted recovery profile consumer)
    (hState : s.control.state = .starting) (budget : Budget) (last : Except Error Unit)
    (taken : Nat) :
    ∃ deeds t' s', Turn w ⟨[.halt .failed, .reportHalt, .watch budget], last, taken⟩ s deeds t' s' ∧
      t'.agenda = [.watch budget] ∧ s'.Standing ∧ s'.Devoted recovery profile consumer ∧
      s'.control.state = .error ∧ s'.control.stats = s.control.stats ∧
      s'.journal.frames = s.journal.frames := by
  have hPoised := Stream.Poised.core_iff.mpr hStanding.toPoised
  have hFreeFor : s.locks.FreeFor w := hStanding.free ▸ Locks.freeFor_none w
  have hHalts : Moves w ⟨[.halt .failed, .reportHalt, .watch budget], s.core, s.locks, last⟩
      ⟨[.reportHalt, .watch budget], s.core.halted .failed, s.locks, s.core.haltResult .failed⟩ :=
    .halt hFreeFor hPoised.steady
  have hMoves := hHalts.trans .reportHalt
  obtain ⟨deeds, s', taken', hTurn, hCore, hLocks, hCalm⟩ := hMoves s taken rfl rfl hStanding.calm
  have hOver : s.core.isOver .failed = false := by
    rw [Stream.isOver, show s.core.control.state = .starting from hState]
    rfl
  have hHalted := hPoised.halted .failed
  refine ⟨_, _, s', hTurn, rfl, ⟨?_, hLocks.trans hStanding.free, hCalm⟩, ?_, ?_, ?_, ?_⟩
  · exact Stream.Poised.core_iff.mp (hCore ▸ hHalted)
  · refine Stream.Devoted.core_iff.mp (hCore ▸ ?_)
    exact (Stream.Devoted.core_iff.mpr hDevoted).halted .failed
  · show s'.core.control.state = .error
    rw [hCore, Stream.halted, if_neg (Bool.eq_false_iff.mp hOver)]
    rfl
  · show s'.core.control.stats = s.core.control.stats
    rw [hCore, Stream.stats_halted]
  · show s'.core.journal.frames = s.core.journal.frames
    rw [hCore, Stream.journal_halted]

/-- **A stall is answered with one attempt**, and the last one with giving up. -/
theorem Bout.of_stall (hStanding : s.Standing) (hDevoted : s.Devoted recovery profile consumer)
    (hActive : s.control.state.isActive = true) (hAgenda : t.agenda = [.awaitFrame budget vigil])
    (h : s.Stalled vigil) (hFree : s.device.syncMode.isTriggered = false) :
    ∃ deeds t' s', Bout w t s deeds t' s' ∧
      Answered s recovery profile consumer budget t' s' := by
  obtain ⟨deeds, ⟨agenda, last, taken⟩, s₁, hTurn, hReckon, hStanding₁, hDevoted₁, hRenewed⟩ :=
    exists_attempt (w := w) hStanding hDevoted hActive hAgenda h hFree
  obtain rfl : agenda = _ := hReckon
  have hAwaits : t.awaits = true := by rw [Thread.awaits, hAgenda]
  have hDelivered : s₁.control.stats.delivered = s.control.stats.delivered := hRenewed.delivered
  have hFrames : s₁.core.journal.frames = s.core.journal.frames := by rw [hRenewed.journal]
  by_cases hSpent : recovery.maxRestarts.toNat ≤ budget.retries + 1
  · obtain ⟨text, hPerform⟩ : ∃ text, (Action.reckon (budget.retries + 1)
        recovery.maxRestarts.toNat).perform w last s₁ = some {
          stream := s₁.fail text
          next := [.halt .failed, .reportHalt,
            .watch ⟨budget.retries + 1, s₁.control.stats.delivered⟩] } := by
      dsimp only [Action.perform, Stream.reckon]
      rw [if_pos hSpent]
      exact ⟨_, rfl⟩
    have hFailed : (s₁.fail text).Standing :=
      ⟨hStanding₁.toPoised.of_posture rfl, hStanding₁.free, hStanding₁.calm⟩
    obtain ⟨deeds', t', s', hTurn', hRest, hStanding', hDevoted', hState, hStats, hFrames'⟩ :=
      exists_giveUp (w := w) hFailed (hDevoted₁.of_same rfl rfl rfl) hRenewed.starting
        ⟨budget.retries + 1, s₁.control.stats.delivered⟩ last taken
    refine ⟨_, t', s', .attempt hAwaits hTurn rfl hPerform hTurn' hRest, hStanding', hDevoted',
      ?_, ?_, hFrames'.trans hFrames, ?_, ?_⟩
    · rw [hStats]
      exact hRenewed.attempts
    · rw [hStats]
      exact hDelivered
    · rw [if_pos hSpent, hState]
    · rw [hRest, hDelivered]
  · have hPerform : (Action.reckon (budget.retries + 1)
        recovery.maxRestarts.toNat).perform w last s₁ = some {
          stream := s₁
          next := [.watch ⟨budget.retries + 1, s₁.control.stats.delivered⟩] } := by
      dsimp only [Action.perform, Stream.reckon]
      rw [if_neg hSpent]
    refine ⟨_, _, s₁, .attempt hAwaits hTurn rfl hPerform (.stay _ s₁) rfl, hStanding₁, hDevoted₁,
      hRenewed.attempts, hDelivered, hFrames, ?_, ?_⟩
    · rw [if_neg hSpent]
      exact hRenewed.starting
    · rw [← hDelivered]
      rfl

end Bouts

end LidarSweep

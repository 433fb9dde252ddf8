import LidarSweep.Proofs.Stream.Delivery

/-!
# Restarts, done

What one restart by the watcher comes to when no other thread moves: nothing if the stream has
changed since the watcher looked, else a new activation, or a stream that is held as starting.
-/

namespace LidarSweep

namespace Stream

/-- The stream after a restart with the profile and consumer that it had. -/
def renewed (s : Stream) (profile : Profile) (consumer : ConsumerId) : Stream :=
  let s := halted { s with control := { s.control with quiet := true } } .stopped
  if s.control.stopPending then { s with control := { s.control with quiet := false } }
  else
    match s.started profile consumer with
    | (s, .ok ()) =>
      { s with control := { s.control with
          quiet := false
          stats := { s.control.stats with recoveries := s.control.stats.recoveries + 1 } } }
    | (s, .error _) =>
      { s with control := { s.control with
          profile := some profile
          consumer := some consumer
          activation := s.control.activation + 1
          state := .starting
          quiet := false
          stats := { s.control.stats with
            failedRecoveries := s.control.stats.failedRecoveries + 1 } } }

/-- What the stream is restarted with, unless it has changed since the watcher looked. -/
def renewal? (s : Stream) (vigil : Vigil) : Option (Profile × ConsumerId) :=
  if s.control.shutdown || s.control.state ≠ vigil.state ||
      s.control.activation ≠ vigil.activation then none
  else
    match s.control.profile, s.control.consumer with
    | some profile, some consumer => some (profile, consumer)
    | _, _ => none

def restarted (s : Stream) (vigil : Vigil) : Stream :=
  match s.renewal? vigil with
  | some (profile, consumer) => s.renewed profile consumer
  | none => s

/-- Where the watcher comes to rest after a restart: it reckons with another attempt, or there was
none. -/
def rest (s : Stream) (budget : Budget) (vigil : Vigil) (limit : Nat) : Action :=
  match s.renewal? vigil with
  | some _ =>
    if s.control.stopPending then .watch budget else .reckon (budget.retries + 1) limit
  | none => .watch budget

theorem isPause_rest (s : Stream) (budget : Budget) (vigil : Vigil) (limit : Nat) :
    (s.rest budget vigil limit).isPause = true := by
  unfold rest
  split
  · split <;> rfl
  · rfl

theorem stopPending_halted (s : Stream) (ending : Ending) :
    (s.halted ending).control.stopPending = s.control.stopPending := by
  unfold halted
  split <;> rfl

theorem beginRestart_eq (s : Stream) (budget : Budget) (vigil : Vigil) (limit : Nat) :
    s.beginRestart budget vigil limit =
      match s.renewal? vigil with
      | some (profile, consumer) => {
          stream := { s with control := { s.control with quiet := true } }
          next := Action.stop ++ [.checkPending budget vigil limit profile consumer] }
      | none => { stream := s, next := [.release .restart, .watch budget] } := by
  unfold beginRestart renewal?
  dsimp only
  split
  · rfl
  · cases s.control.profile with
    | none => rfl
    | some profile =>
      cases s.control.consumer with
      | none => rfl
      | some consumer => rfl

/-- A restart begins where the stream is as the watcher saw it. -/
theorem state_of_beginRestart {s : Stream} {budget budget' : Budget} {vigil vigil' : Vigil}
    {limit limit' : Nat} {profile : Profile} {consumer : ConsumerId}
    (h : .checkPending budget' vigil' limit' profile consumer ∈
      (s.beginRestart budget vigil limit).next) : s.control.state = vigil.state := by
  refine Decidable.of_not_not fun hChanged => ?_
  have hNone : s.renewal? vigil = none := by
    rw [renewal?, if_pos]
    simp [hChanged]
  rw [beginRestart_eq, hNone] at h
  simp at h

end Stream

namespace Moves

variable {me : ThreadId} {rest : List Action} {c : Stream} {locks : Locks}
  {last : Except Error Unit} {profile : Profile} {consumer : ConsumerId} {budget : Budget}
  {vigil : Vigil} {limit : Nat}

theorem checkPending_of_pending (hPending : c.control.stopPending = true) :
    Moves me ⟨.checkPending budget vigil limit profile consumer :: rest, c, locks, last⟩
      ⟨.release .restart :: .watch budget :: rest,
        { c with control := { c.control with quiet := false } }, locks, last⟩ := by
  refine act rfl ?_
  rintro s rfl rfl hCalm
  cases last
  all_goals
    dsimp only [Action.perform, Stream.checkPending]
    rw [if_pos (by exact hPending)]
    refine ⟨_, rfl, rfl, hCalm, ?_⟩
    rw [List.append_assoc]
    exact tellAll _

theorem checkPending (hPending : c.control.stopPending = false) :
    Moves me ⟨.checkPending budget vigil limit profile consumer :: rest, c, locks, last⟩
      ⟨Action.start profile consumer ++ .endRestart budget vigil limit profile consumer :: rest,
        c, locks, last⟩ := by
  refine act rfl ?_
  rintro s rfl rfl hCalm
  cases last
  all_goals
    dsimp only [Action.perform, Stream.checkPending]
    rw [if_neg (Bool.eq_false_iff.mp (by exact hPending))]
    exact ⟨_, rfl, rfl, hCalm, refl _⟩

theorem endRestart_of_ok :
    Moves me ⟨.endRestart budget vigil limit profile consumer :: rest, c, locks, .ok ()⟩
      ⟨.release .restart :: .reckon (budget.retries + 1) limit :: rest,
        { c with control := { c.control with
            quiet := false
            stats := { c.control.stats with recoveries := c.control.stats.recoveries + 1 } } },
        locks, .ok ()⟩ := by
  refine act rfl ?_
  rintro s rfl rfl hCalm
  refine ⟨_, rfl, rfl, hCalm, ?_⟩
  dsimp only [Stream.endRestart]
  rw [List.append_assoc]
  split
  · exact refl _
  · exact tellAll _

theorem endRestart_of_error {e : Error} :
    Moves me ⟨.endRestart budget vigil limit profile consumer :: rest, c, locks, .error e⟩
      ⟨.release .restart :: .reckon (budget.retries + 1) limit :: rest,
        { c with control := { c.control with
            profile := some profile
            consumer := some consumer
            activation := c.control.activation + 1
            state := .starting
            quiet := false
            stats := { c.control.stats with
              failedRecoveries := c.control.stats.failedRecoveries + 1 } } },
        locks, .error e⟩ := by
  refine act rfl ?_
  rintro s rfl rfl hCalm
  refine ⟨_, rfl, rfl, ?_, ?_⟩
  · show ∀ l ∈ (Stream.hold s.control profile consumer).listeners, l.IsPassive
    rw [Stream.hold_eq]
    exact hCalm
  · have hCore : (s.endRestart (.error e) budget vigil limit profile consumer).stream.core =
        Stream.core { s with
          control := { Stream.hold s.control profile consumer with quiet := false } } := rfl
    rw [hCore, Stream.hold_eq]
    dsimp only [Stream.endRestart]
    rw [List.append_assoc]
    split
    · exact refl _
    · exact tellAll _

/-- What a restart does once it has begun. -/
theorem renew (hFree : locks.FreeFor me) (hReady : c.Ready) (profile : Profile)
    (consumer : ConsumerId) (budget : Budget) (vigil : Vigil) (limit : Nat) (rest : List Action)
    (last : Except Error Unit) :
    ∃ last', Moves me
      ⟨Action.stop ++ .checkPending budget vigil limit profile consumer :: rest,
        { c with control := { c.control with quiet := true } }, locks, last⟩
      ⟨.release .restart ::
          (if c.control.stopPending then .watch budget else .reckon (budget.retries + 1) limit) ::
          rest,
        c.renewed profile consumer, locks, last'⟩ := by
  have hBegun : Stream.Ready { c with control := { c.control with quiet := true } } :=
    ⟨hReady.steady, hReady.feed, hReady.reached, hReady.polite⟩
  have hStopped := hBegun.halted .stopped
  have hSame := Stream.stopPending_halted { c with control := { c.control with quiet := true } }
    .stopped
  unfold Stream.renewed
  dsimp only at hSame ⊢
  by_cases hPending : c.control.stopPending = true
  · rw [if_pos hPending, if_pos (hSame.trans hPending)]
    exact ⟨_, (halt hFree hBegun.steady).trans (checkPending_of_pending (hSame.trans hPending))⟩
  · have hNone := hSame.trans (Bool.eq_false_iff.mpr hPending)
    rw [if_neg hPending, if_neg (Bool.eq_false_iff.mp hNone)]
    rcases hStart : (Stream.halted { c with control := { c.control with quiet := true } }
      .stopped).started profile consumer with ⟨c', result⟩
    refine ⟨result, (halt hFree hBegun.steady).trans
      ((checkPending hNone).trans ((start hFree hStopped.feed).trans ?_))⟩
    rw [hStart]
    cases result with
    | ok => exact endRestart_of_ok
    | error e => exact endRestart_of_error

theorem beginRestart (hFree : locks.FreeFor me) (hReady : c.Ready) (budget : Budget)
    (vigil : Vigil) (limit : Nat) (rest : List Action) (last : Except Error Unit) :
    ∃ last', Moves me ⟨.beginRestart budget vigil limit :: rest, c, locks, last⟩
      ⟨.release .restart :: c.rest budget vigil limit :: rest, c.restarted vigil, locks,
        last'⟩ := by
  unfold Stream.restarted Stream.rest
  rcases hRenewal : c.renewal? vigil with _ | ⟨profile, consumer⟩
  · refine ⟨last, act rfl ?_⟩
    rintro s rfl rfl hCalm
    have hBegin := s.beginRestart_eq budget vigil limit
    rw [show s.renewal? vigil = none from hRenewal] at hBegin
    exact ⟨_, congrArg some hBegin, rfl, hCalm, refl _⟩
  · obtain ⟨last', hMoves⟩ := renew hFree hReady profile consumer budget vigil limit rest last
    refine ⟨last', act rfl ?_⟩
    rintro s rfl rfl hCalm
    have hBegin := s.beginRestart_eq budget vigil limit
    rw [show s.renewal? vigil = some (profile, consumer) from hRenewal] at hBegin
    exact ⟨_, congrArg some hBegin, rfl, hCalm, hMoves⟩

/-- **What a restart comes to**, up to the watcher's next pause. -/
theorem restart (hFree : locks.FreeFor me) (hReady : c.Ready) (budget : Budget) (vigil : Vigil)
    (limit : Nat) (rest : List Action) (last : Except Error Unit) :
    ∃ last', Moves me
      ⟨.acquire .restart :: .beginRestart budget vigil limit :: rest, c, locks, last⟩
      ⟨c.rest budget vigil limit :: rest, c.restarted vigil, locks, last'⟩ := by
  obtain ⟨locks', hFree', hRelease, hAcquire⟩ := acquire hFree .restart
  obtain ⟨last', hMoves⟩ := beginRestart hFree' hReady budget vigil limit rest last
  exact ⟨last', (hAcquire _ _ _).trans (hMoves.trans (hRelease ▸ release _))⟩

end Moves

end LidarSweep

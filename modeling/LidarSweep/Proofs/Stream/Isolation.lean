import LidarSweep.Proofs.Stream.Activation
import LidarSweep.Proofs.Stream.Untouched
import LidarSweep.Proofs.Stream.Verdict

/-!
# Failures that cost one frame each

Between an assembler and the recorder there is one way for all frames of an activation (`Lane`).
What recorder, processor and consumer do about a frame changes nothing on it, so what comes out of
it is told by the packets that are offered, and when (`along`).  From there on a frame is on its
own.  Two runs of an activation that are offered the same packets, where the recorder or the
processor of the second fails on some frames, therefore differ in those frames and in nothing else
(`failures_isolated`).
-/

namespace LidarSweep

/-! ### The way to the recorder -/

/-- A packet, and the time, the wall clock and the sync mode at which it is offered. -/
structure Offering where
  packet : List UInt8
  now : Nat
  wallUs : Nat
  mode : SyncMode
  deriving DecidableEq

/-- An assembler and the stages before the recorder. -/
structure Lane where
  assembler : Assembler
  stages : Pipeline

namespace Lane

/-- A packet is taken in, and the frame that it may complete gets its times, or fails. -/
def offer (profile : Profile) (lane : Lane) (o : Offering) : Lane × Option (Except Error Frame) :=
  let (assembler, outcome) := lane.assembler.ingest o.now o.packet
  match outcome.frame? with
  | none => ({ lane with assembler }, none)
  | some frame =>
    let (stages, timed) := lane.stages.front o.wallUs o.mode profile frame
    ({ assembler, stages := stages.timing }, some timed)

def after (profile : Profile) (lane : Lane) (offerings : List Offering) : Lane :=
  offerings.foldl (fun lane o => (lane.offer profile o).1) lane

/-- What became of the frames that were completed. -/
def timed (profile : Profile) (lane : Lane) : List Offering → List (Except Error Frame)
  | [] => []
  | o :: rest => (lane.offer profile o).2.toList ++ timed profile (lane.offer profile o).1 rest

theorem after_concat (profile : Profile) (lane : Lane) (offerings : List Offering) (o : Offering) :
    lane.after profile (offerings ++ [o]) = ((lane.after profile offerings).offer profile o).1 := by
  rw [after, List.foldl_append]
  rfl

theorem timed_concat (profile : Profile) (lane : Lane) (offerings : List Offering) (o : Offering) :
    lane.timed profile (offerings ++ [o]) = lane.timed profile offerings ++
      ((lane.after profile offerings).offer profile o).2.toList := by
  induction offerings generalizing lane with
  | nil => exact List.append_nil _
  | cons first rest ih =>
    rw [List.cons_append, timed, timed, ih, List.append_assoc]
    rfl

end Lane

namespace Pipeline

/-- The frame that goes on to the consumer, if the frame got to the recorder and on. -/
def handsOn? (p : Pipeline) (timed : Except Error Frame) : Option Frame :=
  timed.toOption.bind p.delivers?

/-- Whether the frame counts as dropped. -/
def drops (p : Pipeline) : Except Error Frame → Bool
  | .ok frame => !(p.verdict frame).isOk
  | .error _ => true

theorem handsOn?_ok {p : Pipeline} {frame : Frame} {verdict : Except StageFault Processed}
    (h : p.verdict frame = verdict) :
    p.handsOn? (.ok frame) = verdict.toOption.bind Processed.frame? := by
  rw [← h]
  rfl

theorem drops_ok {p : Pipeline} {frame : Frame} {verdict : Except StageFault Processed}
    (h : p.verdict frame = verdict) : p.drops (.ok frame) = !verdict.isOk := by
  rw [← h]
  rfl

theorem Persists.drops {p q : Pipeline} (h : p.Persists q) : q.drops = p.drops := by
  funext timed
  cases timed with
  | ok frame => rw [Pipeline.drops, Pipeline.drops, h.verdict]
  | error e => rfl

theorem Persists.handsOn? {p q : Pipeline} (h : p.Persists q) : q.handsOn? = p.handsOn? := by
  funext timed
  rw [Pipeline.handsOn?, Pipeline.handsOn?, h.delivers?]

end Pipeline

/-- What is picked out of a list that has grown by one. -/
theorem filterMap_concat {α β : Type} (f : α → Option β) (xs : List α) (x : α) :
    (xs ++ [x]).filterMap f = xs.filterMap f ++ (f x).toList := by
  rw [List.filterMap_append]
  cases hNew : f x with
  | none => rw [List.filterMap_cons_none hNew, List.filterMap_nil, Option.toList_none]
  | some y => rw [List.filterMap_cons_some hNew, List.filterMap_nil, Option.toList_some]

/-! ### One packet -/

namespace Stream

def offering (s : Stream) (packet : List UInt8) : Offering :=
  ⟨packet, s.now, s.wall s.now, s.device.syncMode⟩

/-- What the stages before the recorder make of the frame that a packet completes. -/
def timed? (s : Stream) (packet : List UInt8) : Option (Except Error Frame) :=
  match s.assembler, s.control.profile with
  | some a, some profile => (a.ingest s.now packet).2.frame?.map fun frame =>
      (s.pipeline.front (s.wall s.now) s.device.syncMode profile frame).2
  | _, _ => none

variable {s s' : Stream} {a : Assembler} {profile : Profile} {packet : List UInt8} {n : Nat}

/-- A packet takes the stream along its lane, and the frame that comes out is recorded, processed
and handed over, or is dropped. -/
structure Carries (s : Stream) (a : Assembler) (profile : Profile) (packet : List UInt8)
    (s' : Stream) : Prop where
  timed : s.timed? packet = (Lane.offer profile ⟨a, s.pipeline.timing⟩ (s.offering packet)).2
  assembler : s'.assembler =
    some (Lane.offer profile ⟨a, s.pipeline.timing⟩ (s.offering packet)).1.assembler
  stages : s'.pipeline.timing =
    (Lane.offer profile ⟨a, s.pipeline.timing⟩ (s.offering packet)).1.stages
  persists : s.pipeline.Persists s'.pipeline
  profile : s'.control.profile = some profile
  frames : s'.journal.frames =
    s.journal.frames ++ (s.timed? packet).toList.filterMap s.pipeline.handsOn?
  dropped : s'.control.stats.dropped =
    s.control.stats.dropped + (s.timed? packet).toList.countP s.pipeline.drops
  streaming : s'.control.state = .streaming ↔ s.control.state = .streaming ∨
    (s.timed? packet).toList.filterMap s.pipeline.handsOn? ≠ []

/-- While an activation goes on, its packets are ingested. -/
theorem offered_of_isCurrent (hConsistent : s.Consistent) (hCurrent : s.control.isCurrent n = true)
    (hAssembler : s.assembler = some a) (packet : List UInt8) :
    s.offered packet = s.ingested n packet := by
  obtain ⟨hSame, hActive⟩ := of_decide_eq_true hCurrent
  obtain ⟨-, -, ⟨-, hReceiver⟩ | ⟨-, -, hNone⟩⟩ := hConsistent.active hActive
  · rw [offered, hReceiver, hSame]
    exact if_pos hCurrent
  · rw [hAssembler] at hNone
    cases hNone

theorem Carries.untouched {s₁ : Stream} (h : s.Carries a profile packet s₁)
    (hUntouched : s₁.Untouched s') : s.Carries a profile packet s' where
  timed := h.timed
  assembler := hUntouched.assembler.trans h.assembler
  stages := by rw [hUntouched.pipeline]; exact h.stages
  persists := by rw [hUntouched.pipeline]; exact h.persists
  profile := hUntouched.profile.trans h.profile
  frames := hUntouched.frames.trans h.frames
  dropped := by rw [hUntouched.stats]; exact h.dropped
  streaming := by rw [hUntouched.state]; exact h.streaming

theorem Carries.of_core (h : s.core.Carries a profile packet s'.core) :
    s.Carries a profile packet s' :=
  ⟨h.timed, h.assembler, h.stages, h.persists, h.profile, h.frames, h.dropped, h.streaming⟩

/-- A packet that completes no frame is the assembler's alone. -/
theorem carries_of_none (hAssembler : s.assembler = some a)
    (hProfile : s.control.profile = some profile) (hSteady : s.pipeline.IsSteady)
    (hFrame : (a.ingest s.now packet).2.frame? = none) :
    s.Carries a profile packet { s with assembler := some (a.ingest s.now packet).1 } := by
  have hTimed : s.timed? packet = none := by
    simp only [timed?, hAssembler, hProfile, hFrame]
    rfl
  have hOffer : Lane.offer profile ⟨a, s.pipeline.timing⟩ (s.offering packet) =
      (⟨(a.ingest s.now packet).1, s.pipeline.timing⟩, none) := by
    simp only [Lane.offer, offering, hFrame]
  refine ⟨?_, ?_, ?_, .refl hSteady, hProfile, ?_, ?_, ?_⟩
  · rw [hTimed, hOffer]
  · rw [hOffer]
  · rw [hOffer]
  · rw [hTimed]
    exact (List.append_nil _).symm
  · rw [hTimed]
    rfl
  · rw [hTimed]
    simp

/-- A packet that completes a frame, of which the stages before the recorder make `timed`. -/
theorem carries_of_some {frame : Frame} {timed : Except Error Frame}
    (hAssembler : s.assembler = some a) (hProfile : s.control.profile = some profile)
    (hFrame : (a.ingest s.now packet).2.frame? = some frame)
    (hFront : (s.pipeline.front (s.wall s.now) s.device.syncMode profile frame).2 = timed)
    (hIngested : s'.assembler = some (a.ingest s.now packet).1)
    (hStages : s'.pipeline.timing =
      (s.pipeline.front (s.wall s.now) s.device.syncMode profile frame).1.timing)
    (hPersists : s.pipeline.Persists s'.pipeline) (hSame : s'.control.profile = some profile)
    (hFrames : s'.journal.frames = s.journal.frames ++ (s.pipeline.handsOn? timed).toList)
    (hDropped : s'.control.stats.dropped =
      s.control.stats.dropped + (s.pipeline.drops timed).toNat)
    (hStreaming : s'.control.state = .streaming ↔
      s.control.state = .streaming ∨ (s.pipeline.handsOn? timed).isSome = true) :
    s.Carries a profile packet s' := by
  have hTimed : s.timed? packet = some timed := by
    simp only [timed?, hAssembler, hProfile, hFrame, Option.map_some, hFront]
  have hOffer : Lane.offer profile ⟨a, s.pipeline.timing⟩ (s.offering packet) =
      (⟨(a.ingest s.now packet).1,
        (s.pipeline.front (s.wall s.now) s.device.syncMode profile frame).1.timing⟩,
        some timed) := by
    rw [Pipeline.timing_front, ← hFront, ← Pipeline.snd_front]
    simp only [Lane.offer, offering, hFrame]
  have hHanded : [timed].filterMap s.pipeline.handsOn? = (s.pipeline.handsOn? timed).toList :=
    filterMap_concat s.pipeline.handsOn? [] timed
  refine ⟨?_, ?_, ?_, hPersists, hSame, ?_, ?_, ?_⟩
  · rw [hTimed, hOffer]
  · rw [hOffer]
    exact hIngested
  · rw [hOffer]
    exact hStages
  · rw [hTimed, Option.toList_some, hHanded]
    exact hFrames
  · rw [hTimed, Option.toList_some, hDropped]
    cases hDrops : s.pipeline.drops timed <;> simp [hDrops]
  · rw [hTimed, Option.toList_some, hHanded, hStreaming]
    cases s.pipeline.handsOn? timed <;> simp

/-- A frame that is not handed on leaves no more than a count. -/
theorem carries_of_lost {frame : Frame} {timed : Except Error Frame} {q : Pipeline}
    {control : Control} (hAssembler : s.assembler = some a)
    (hProfile : s.control.profile = some profile)
    (hFrame : (a.ingest s.now packet).2.frame? = some frame)
    (hFront : (s.pipeline.front (s.wall s.now) s.device.syncMode profile frame).2 = timed)
    (hStages : q.timing =
      (s.pipeline.front (s.wall s.now) s.device.syncMode profile frame).1.timing)
    (hPersists : s.pipeline.Persists q) (hLost : s.pipeline.handsOn? timed = none)
    (hSame : control.profile = s.control.profile) (hState : control.state = s.control.state)
    (hDropped : control.stats.dropped =
      s.control.stats.dropped + (s.pipeline.drops timed).toNat) :
    s.Carries a profile packet
      { s with assembler := some (a.ingest s.now packet).1, pipeline := q, control } := by
  refine carries_of_some hAssembler hProfile hFrame hFront rfl hStages hPersists
    (hSame.trans hProfile) ?_ hDropped ?_
  · rw [hLost]
    exact (List.append_nil _).symm
  · rw [hLost, ← hState]
    exact (or_iff_left nofun).symm

/-- **What a packet comes to** in an activation that it does not end. -/
theorem carries_offered (hConsistent : s.Consistent) (hCurrent : s.control.isCurrent n = true)
    (hAssembler : s.assembler = some a) (hProfile : s.control.profile = some profile)
    (hSteady : s.pipeline.IsSteady)
    (hStill : (s.offered packet).control.isCurrent n = true) :
    s.Carries a profile packet (s.offered packet) := by
  obtain ⟨hSame, hActive⟩ := of_decide_eq_true hCurrent
  obtain ⟨consumer, hConsumer⟩ :=
    Option.ne_none_iff_exists'.mp (hConsistent.active hActive).2.1
  have hOffered := offered_of_isCurrent hConsistent hCurrent hAssembler packet
  rw [hOffered] at hStill ⊢
  simp only [ingested, hAssembler] at hStill ⊢
  cases hFrame : (a.ingest s.now packet).2.frame? with
  | none =>
    exact carries_of_none hAssembler hProfile hSteady hFrame
  | some frame =>
    obtain ⟨q, hPersists, hTiming, hEnd⟩ :=
      Pipeline.run_of_isSteady hSteady (s.wall s.now) s.device.syncMode profile frame
    simp only [hFrame, delivered, hProfile, hConsumer, hCurrent, processed] at hStill ⊢
    rcases hEnd with ⟨e, hFront, hRun⟩ | ⟨timed, hFront, ⟨fault, e, hVerdict, hRun⟩ |
      ⟨processed, hVerdict, hRun⟩⟩
    · rw [hRun]
      exact carries_of_lost hAssembler hProfile hFrame hFront hTiming hPersists rfl rfl rfl rfl
    · rw [hRun]
      refine carries_of_lost hAssembler hProfile hFrame hFront hTiming hPersists ?_ rfl rfl ?_
      · exact Pipeline.handsOn?_ok hVerdict
      · rw [Pipeline.drops_ok hVerdict]
        rfl
    · have hKept := Pipeline.drops_ok hVerdict
      have hHanded := Pipeline.handsOn?_ok hVerdict
      rw [hRun] at hStill ⊢
      cases processed with
      | swallow =>
        refine carries_of_lost hAssembler hProfile hFrame hFront hTiming hPersists hHanded rfl rfl
          ?_
        rw [hKept]
        rfl
      | keep frame' =>
        simp only [confirmed, hCurrent, if_true] at hStill ⊢
        refine Carries.untouched ?_ (untouched_handed (Nat.le_of_eq hSame.symm) hStill)
        refine carries_of_some hAssembler hProfile hFrame hFront rfl hTiming hPersists hProfile ?_
          ?_ ?_
        · rw [hHanded]
          exact Journal.frames_addConsumed s.journal (.frame consumer frame')
        · rw [hKept]
          rfl
        · rw [hHanded]
          exact iff_of_true rfl (.inr rfl)
      | stopThen frame' =>
        -- A processor that stops the stream has ended the activation.
        exact absurd hStill (not_isCurrent_confirmed_stopped _ n profile consumer frame')

end Stream

/-! ### One run -/

namespace Episode

def offering? (e : Episode) : Option Offering :=
  match e.operation with
  | .inject packet => some (e.before.offering packet)
  | _ => none

/-- What the stages before the recorder made of the frame that was completed in the episode. -/
def timed? (e : Episode) : Option (Except Error Frame) :=
  match e.operation with
  | .inject packet => e.before.timed? packet
  | _ => none

/-- The frame that came to the recorder. -/
def presented? (e : Episode) : Option Frame := e.timed?.bind Except.toOption

/-- The lane of the activation that begins in the episode. -/
def lane (start : Episode) (profile : Profile) (g : Geometry) : Lane :=
  ⟨.new g profile.format, start.after.pipeline.timing⟩

/-- Without a packet there is nothing for the lane. -/
theorem offering?_of_other {e : Episode} (h : ∀ packet, e.operation ≠ .inject packet) :
    e.offering? = none ∧ e.timed? = none := by
  obtain ⟨_, op, _, _, _⟩ := e
  cases op with
  | inject packet => exact absurd rfl (h packet)
  | start profile consumer => exact ⟨rfl, rfl⟩
  | stop => exact ⟨rfl, rfl⟩
  | restart budget vigil limit => exact ⟨rfl, rfl⟩
  | giveUp => exact ⟨rfl, rfl⟩

theorem offering?_of_inject {e : Episode} {packet : List UInt8}
    (h : e.operation = .inject packet) :
    e.offering? = some (e.before.offering packet) ∧ e.timed? = e.before.timed? packet := by
  rw [offering?, timed?, h]
  exact ⟨rfl, rfl⟩

/-- A start with which an activation goes on has started the source. -/
theorem Begins.core {start : Episode} {profile : Profile} {g : Geometry}
    (hBegins : start.Begins profile g)
    (hCore : start.after.core = start.operation.done start.before.core)
    (hCurrent : start.after.control.isCurrent start.launches = true) :
    ∃ table source consumer, start.after.core =
      { start.before.core.begun profile table with
        source
        assembler := some (.new g profile.format)
        control := { (start.before.core.begun profile table).control with
          consumer := some consumer, state := .starting } } := by
  obtain ⟨⟨consumer, hStart⟩, hOk⟩ := hBegins
  rcases hAdmission : start.before.admission profile with ⟨verdict, table⟩
  rw [hAdmission] at hOk
  obtain rfl : verdict = .ok g := hOk
  have hAdmitted : start.before.core.admission profile = (.ok g, table) := hAdmission
  rw [hStart] at hCore
  simp only [Operation.done, Stream.started, hAdmitted] at hCore
  split at hCore
  next source _ => exact ⟨table, source, consumer, hCore⟩
  next source e _ =>
    have hState : start.after.core.control.state = .stopped := by rw [hCore]
    have hActive : start.after.core.control.state.isActive = true := (of_decide_eq_true hCurrent).2
    rw [hState] at hActive
    cases hActive

end Episode

/-- A run whose latest activation begins in the episode `start` and goes on in those after it. -/
structure Activation (u : Setup) (past : List Episode) (start : Episode) (later : List Episode)
    (s : Stream) (profile : Profile) (g : Geometry) : Prop where
  run : Sequential u.stream (past ++ start :: later) s
  begins : start.Begins profile g
  current : ∀ e ∈ start :: later, e.after.control.isCurrent start.launches = true

/-- An activation so far, and the stream after it: it is where its lane is, and what was handed over
and what was dropped is told by the frames that the lane has given. -/
structure Along (profile : Profile) (g : Geometry) (start : Episode) (later : List Episode)
    (s : Stream) : Prop where
  assembler : s.assembler =
    some ((start.lane profile g).after profile (later.filterMap Episode.offering?)).assembler
  stages : s.pipeline.timing =
    ((start.lane profile g).after profile (later.filterMap Episode.offering?)).stages
  timed : later.filterMap Episode.timed? =
    (start.lane profile g).timed profile (later.filterMap Episode.offering?)
  persists : start.after.pipeline.Persists s.pipeline
  bears : s.control.profile = some profile
  handed : later.flatMap Episode.handed =
    (later.filterMap Episode.timed?).filterMap start.after.pipeline.handsOn?
  dropped : s.control.stats.dropped = start.before.control.stats.dropped +
    (later.filterMap Episode.timed?).countP start.after.pipeline.drops
  streaming : s.control.state = .streaming ↔ later.flatMap Episode.handed ≠ []

namespace Along

variable {profile : Profile} {g : Geometry} {start e : Episode} {later : List Episode}
  {s s' : Stream}

theorem untouched (h : Along profile g start later s) (hUntouched : s.Untouched s') :
    Along profile g start later s' where
  assembler := hUntouched.assembler.trans h.assembler
  stages := by rw [hUntouched.pipeline]; exact h.stages
  timed := h.timed
  persists := by rw [hUntouched.pipeline]; exact h.persists
  bears := hUntouched.profile.trans h.bears
  handed := h.handed
  dropped := by rw [hUntouched.stats]; exact h.dropped
  streaming := by rw [hUntouched.state]; exact h.streaming

theorem of_core (h : Along profile g start later s.core) : Along profile g start later s :=
  ⟨h.assembler, h.stages, h.timed, h.persists, h.bears, h.handed, h.dropped, h.streaming⟩

/-- An episode without a packet. -/
theorem still (h : Along profile g start later e.before)
    (hOther : ∀ packet, e.operation ≠ .inject packet) (hUntouched : e.before.Untouched e.after) :
    Along profile g start (later ++ [e]) e.after := by
  obtain ⟨hNoOffering, hNoTimed⟩ := Episode.offering?_of_other hOther
  have hOffering : (later ++ [e]).filterMap Episode.offering? =
      later.filterMap Episode.offering? := by
    rw [filterMap_concat, hNoOffering, Option.toList_none, List.append_nil]
  have hTimed : (later ++ [e]).filterMap Episode.timed? = later.filterMap Episode.timed? := by
    rw [filterMap_concat, hNoTimed, Option.toList_none, List.append_nil]
  have hHanded : (later ++ [e]).flatMap Episode.handed = later.flatMap Episode.handed := by
    have hNone : e.handed = [] := Episode.handed_of_frames (by
      rw [List.append_nil]
      exact hUntouched.frames)
    rw [flatMap_handed_concat, hNone, List.append_nil]
  have hSame := h.untouched hUntouched
  refine ⟨?_, ?_, ?_, hSame.persists, hSame.bears, ?_, ?_, ?_⟩
  · rw [hOffering]
    exact hSame.assembler
  · rw [hOffering]
    exact hSame.stages
  · rw [hTimed, hOffering]
    exact hSame.timed
  · rw [hHanded, hTimed]
    exact hSame.handed
  · rw [hTimed]
    exact hSame.dropped
  · rw [hHanded]
    exact hSame.streaming

/-- An episode with a packet. -/
theorem carry (h : Along profile g start later e.before) {packet : List UInt8}
    (hInject : e.operation = .inject packet) {a : Assembler}
    (hAssembler : e.before.assembler = some a)
    (hCarries : e.before.Carries a profile packet e.after) :
    Along profile g start (later ++ [e]) e.after := by
  have hLane : (⟨a, e.before.pipeline.timing⟩ : Lane) =
      (start.lane profile g).after profile (later.filterMap Episode.offering?) := by
    obtain rfl := Option.some.inj (hAssembler.symm.trans h.assembler)
    rw [h.stages]
  obtain ⟨hOffered, hCompleted⟩ := Episode.offering?_of_inject hInject
  have hOffering : (later ++ [e]).filterMap Episode.offering? =
      later.filterMap Episode.offering? ++ [e.before.offering packet] := by
    rw [filterMap_concat, hOffered, Option.toList_some]
  have hTimed : (later ++ [e]).filterMap Episode.timed? =
      later.filterMap Episode.timed? ++ (e.before.timed? packet).toList := by
    rw [filterMap_concat, hCompleted]
  have hHanded : e.handed =
      (e.before.timed? packet).toList.filterMap start.after.pipeline.handsOn? := by
    rw [← h.persists.handsOn?]
    exact Episode.handed_of_frames hCarries.frames
  have hPersists : start.after.pipeline.Persists e.after.pipeline :=
    h.persists.trans hCarries.persists
  have hDropped := hCarries.dropped
  have hStreaming := hCarries.streaming
  rw [h.persists.drops] at hDropped
  rw [h.persists.handsOn?, ← hHanded] at hStreaming
  have hAfter := Lane.after_concat profile (start.lane profile g)
    (later.filterMap Episode.offering?) (e.before.offering packet)
  rw [← hOffering, ← hLane] at hAfter
  refine ⟨?_, ?_, ?_, hPersists, hCarries.profile, ?_, ?_, ?_⟩
  · rw [hAfter]
    exact hCarries.assembler
  · rw [hAfter]
    exact hCarries.stages
  · rw [hTimed, hOffering, Lane.timed_concat, ← h.timed, ← hLane, hCarries.timed]
  · rw [flatMap_handed_concat, hTimed, List.filterMap_append, ← h.handed, hHanded]
  · rw [hDropped, h.dropped, hTimed, List.countP_append, Nat.add_assoc]
  · rw [hStreaming, h.streaming, flatMap_handed_concat]
    simp [or_comm, imp_iff_not_or]

/-- An activation that has just begun, with its source started. -/
theorem begin (hBegins : start.Begins profile g)
    (hCore : start.after.core = start.operation.done start.before.core)
    (hCurrent : start.after.control.isCurrent start.launches = true)
    (hSteady : start.after.pipeline.IsSteady) : Along profile g start [] start.after := by
  obtain ⟨table, source, consumer, hAfter⟩ := hBegins.core hCore hCurrent
  have hLaunched : Along profile g start [] start.after.core := by
    refine ⟨?_, rfl, rfl, .refl hSteady, ?_, rfl, ?_, ?_⟩
    · rw [hAfter]
      rfl
    · rw [hAfter]
      rfl
    · rw [hAfter]
      rfl
    · rw [hAfter]
      exact iff_of_false nofun fun hNone => hNone rfl
  exact hLaunched.of_core

end Along

namespace Activation

variable {u : Setup} {past later : List Episode} {start : Episode} {s : Stream}
  {profile : Profile} {g : Geometry}

/-- What one operation preserves, while the activation goes on. -/
theorem along_operate {e : Episode} (h : Along profile g start later e.before)
    (hStanding : e.before.Standing)
    (hBefore : e.before.control.isCurrent start.launches = true)
    (hAfter : e.after.control.isCurrent start.launches = true)
    (hCore : e.after.core = e.operation.done e.before.core) :
    Along profile g start (later ++ [e]) e.after := by
  have hLater : start.launches ≤ e.before.core.control.activation :=
    Nat.le_of_eq (of_decide_eq_true hBefore).1.symm
  have hStill : (e.operation.done e.before.core).control.isCurrent start.launches = true := by
    rw [← hCore]
    exact hAfter
  by_cases hInject : ∃ packet, e.operation = .inject packet
  · obtain ⟨packet, hInject⟩ := hInject
    have hConsistent := (Stream.Poised.core_iff.mpr hStanding.toPoised).toConsistent
    rw [hInject] at hStill hCore
    obtain ⟨a, hAssembler⟩ : ∃ a, e.before.assembler = some a := ⟨_, h.assembler⟩
    have hCarries : e.before.core.Carries a profile packet e.after.core := by
      rw [hCore]
      exact Stream.carries_offered (n := start.launches) hConsistent hBefore hAssembler h.bears
        h.persists.steady hStill
    exact h.carry hInject hAssembler hCarries.of_core
  · have hOther : ∀ packet, e.operation ≠ .inject packet := fun packet hIs => hInject ⟨packet, hIs⟩
    have hUntouched := Stream.untouched_done hOther hLater hStill
    rw [← hCore] at hUntouched
    exact h.still hOther hUntouched.of_core

/-- **An activation goes along its lane**, whatever else goes on in it. -/
theorem along (h : Activation u past start later s profile g)
    (hSteady : start.after.pipeline.IsSteady) :
    Along profile g start later s ∧ s.control.isCurrent start.launches = true := by
  obtain ⟨hRun, hBegins, hCurrent⟩ := h
  generalize hEpisodes : past ++ start :: later = episodes at hRun
  -- A run grows at its end: the last episode is the start, or one of those after it.
  induction hRun generalizing later with
  | begin => simp at hEpisodes
  | change x _ ih =>
    obtain ⟨hAlong, hStill⟩ := ih hCurrent hEpisodes
    exact ⟨hAlong.untouched (Stream.untouched_amid _ x), hStill⟩
  | @operate episodes s s' deeds t me op hRun hTurn hRest ih =>
    have hStanding := hRun.standing
    have hCore := (Sequential.done_of_turn hStanding hTurn hRest).1
    rcases List.eq_nil_or_concat' later with rfl | ⟨earlier, e, rfl⟩
    · obtain ⟨-, hStart⟩ := List.append_inj' hEpisodes rfl
      obtain rfl := List.singleton_inj.mp hStart
      have hNow := hCurrent _ List.mem_cons_self
      exact ⟨.begin hBegins hCore hNow hSteady, hNow⟩
    · have hSplit : (past ++ start :: earlier) ++ [e] = episodes ++ [⟨me, op, s, deeds, s'⟩] := by
        simpa using hEpisodes
      obtain ⟨hEarlier, hLast⟩ := List.append_inj' hSplit rfl
      obtain rfl := List.singleton_inj.mp hLast
      have hOld : ∀ e ∈ start :: earlier, e.after.control.isCurrent start.launches = true := by
        intro e he
        rw [← List.cons_append] at hCurrent
        exact hCurrent e (List.mem_append_left _ he)
      obtain ⟨hAlong, hBefore⟩ := ih hOld hEarlier
      have hNow := hCurrent _ (List.mem_cons_of_mem _ (List.mem_append_right _ List.mem_cons_self))
      exact ⟨along_operate hAlong hStanding hBefore hNow hCore, hNow⟩

end Activation

/-! ### Two runs -/

/-- How two runs of an activation differ if the recorder or the processor of the second one fails on
some frames, of those that come to the recorder; `p` is the pipeline of the first. -/
structure Isolated (failing : Frame → Bool) (p : Pipeline) (start : Episode) (later : List Episode)
    (s : Stream) (start' : Episode) (later' : List Episode) (s' : Stream) : Prop where
  presented : later'.filterMap Episode.presented? = later.filterMap Episode.presented?
  /-- The first run hands on the frames that pass. -/
  handed : later.flatMap Episode.handed =
    (later.filterMap Episode.presented?).filterMap p.delivers?
  /-- The second one hands on the same, but none of those that its parts fail on. -/
  spared : later'.flatMap Episode.handed =
    ((later.filterMap Episode.presented?).filter (!failing ·)).filterMap p.delivers?
  /-- It drops so many frames more as the first one delivered or swallowed of those. -/
  dropped : s'.control.stats.dropped + start.before.control.stats.dropped =
    s.control.stats.dropped + start'.before.control.stats.dropped +
      (later.filterMap Episode.presented?).countP fun frame =>
        failing frame && (p.verdict frame).isOk
  assembled : s'.assemblerStats = s.assemblerStats
  streaming : s.control.state = .streaming ↔ later.flatMap Episode.handed ≠ []
  alike : s'.control.state = .streaming ↔ later'.flatMap Episode.handed ≠ []

theorem Pipeline.filterMap_handsOn? (p : Pipeline) (timed : List (Except Error Frame)) :
    timed.filterMap p.handsOn? = (timed.filterMap Except.toOption).filterMap p.delivers? :=
  List.filterMap_filterMap.symm

theorem filterMap_presented? (episodes : List Episode) :
    episodes.filterMap Episode.presented? =
      (episodes.filterMap Episode.timed?).filterMap Except.toOption := by
  rw [List.filterMap_filterMap]
  rfl

namespace Pipeline.Disturbs

variable {failing : Frame → Bool} {p q : Pipeline}

theorem delivers?_eq (h : Disturbs failing p q) (frame : Frame) :
    q.delivers? frame = if !failing frame then p.delivers? frame else none := by
  cases hFailing : failing frame with
  | false =>
    rw [delivers?, h.verdict_of_spared hFailing]
    rfl
  | true =>
    obtain ⟨fault, hFault⟩ := h.verdict_of_failing hFailing
    rw [delivers?, hFault]
    rfl

/-- A frame counts as dropped for one run more if it is one to fail on and would have passed. -/
theorem countP_drops (h : Disturbs failing p q) (timed : List (Except Error Frame)) :
    timed.countP q.drops = timed.countP p.drops +
      (timed.filterMap Except.toOption).countP fun frame =>
        failing frame && (p.verdict frame).isOk := by
  induction timed with
  | nil => rfl
  | cons result rest ih =>
    cases result with
    | error e =>
      rw [List.countP_cons_of_pos rfl, List.countP_cons_of_pos rfl, ih]
      show _ = _ + 1 + (rest.filterMap Except.toOption).countP _
      omega
    | ok frame =>
      have hMore : (.ok frame :: rest).filterMap Except.toOption =
          frame :: rest.filterMap Except.toOption := rfl
      have hCount : (q.drops (.ok frame)).toNat = (p.drops (.ok frame)).toNat +
          (failing frame && (p.verdict frame).isOk).toNat := by
        cases hFailing : failing frame with
        | false =>
          rw [drops, drops, h.verdict_of_spared hFailing]
          rfl
        | true =>
          obtain ⟨fault, hFault⟩ := h.verdict_of_failing hFailing
          rw [drops, drops, hFault]
          cases (p.verdict frame).isOk <;> rfl
      rw [hMore, Balance.countP_cons_toNat, Balance.countP_cons_toNat, Balance.countP_cons_toNat,
        ih]
      omega

end Pipeline.Disturbs

/-- **A failure costs one frame.**  Two runs of an activation are offered the same packets at the
same times, under the same wall clock and sync modes, and recorder and processor do the same with a
frame at every call.  If they differ only in that the recorder or the processor of the second run
fails on the frames of a set, then the second run hands over what the first one does, but for those
frames, and counts each of them as dropped that the first one did not; all else is the same. -/
theorem failures_isolated {u u' : Setup} {past past' later later' : List Episode}
    {start start' : Episode} {s s' : Stream} {profile : Profile} {g : Geometry}
    {failing : Frame → Bool} (h : Activation u past start later s profile g)
    (h' : Activation u' past' start' later' s' profile g)
    (hSame : later'.filterMap Episode.offering? = later.filterMap Episode.offering?)
    (hDisturbs : Pipeline.Disturbs failing start.after.pipeline start'.after.pipeline) :
    Isolated failing start.after.pipeline start later s start' later' s' := by
  obtain ⟨hAlong, -⟩ := h.along hDisturbs.steady
  obtain ⟨hAlong', -⟩ := h'.along hDisturbs.alike
  -- Both go along one lane, since recorder and processor are no part of it.
  have hLane : start'.lane profile g = start.lane profile g := by
    rw [Episode.lane, Episode.lane, hDisturbs.timing]
  have hTimed : later'.filterMap Episode.timed? = later.filterMap Episode.timed? := by
    rw [hAlong'.timed, hAlong.timed, hLane, hSame]
  refine ⟨?_, ?_, ?_, ?_, ?_, hAlong.streaming, hAlong'.streaming⟩
  · rw [filterMap_presented?, filterMap_presented?, hTimed]
  · rw [hAlong.handed, filterMap_presented?, Pipeline.filterMap_handsOn?]
  · have hDelivers : start'.after.pipeline.delivers? = fun frame =>
        if !failing frame then start.after.pipeline.delivers? frame else none :=
      funext hDisturbs.delivers?_eq
    rw [List.filterMap_filter, ← hDelivers, hAlong'.handed, hTimed, filterMap_presented?,
      Pipeline.filterMap_handsOn?]
  · rw [hAlong'.dropped, hAlong.dropped, hTimed, hDisturbs.countP_drops, filterMap_presented?]
    omega
  · rw [Stream.assemblerStats, Stream.assemblerStats, hAlong'.assembler, hAlong.assembler, hLane,
      hSame]

/-! ### Two sweeps, the first of which fails -/

open Assembler (pairRow pairBytes)

/-- A start and two sweeps, a block at a time. -/
def twoSweeps : List (ThreadId × Operation) :=
  pairWork ++ [(1, .inject (pairBytes 1 1)), (2, .inject (pairBytes 1 2))]

/-- A processor that breaks off at the first frame of an activation. -/
def breakingOff : Stage (Except StageFault Processed) :=
  .constant fun frame =>
    if frame.sequence = 0 then .error (.panic "at the first frame") else .ok (.keep frame)

/-- The packet that is offered in a step of a trace. -/
def offeredIn : ThreadId × Operation × Stream × Stream → Option Offering
  | (_, .inject packet, before, _) => some (before.offering packet)
  | _ => none

/-- A run of two sweeps in which the activation goes on. -/
theorem exists_activation (u : Setup)
    (hAdmission : (u.stream.admission pairProfile).1 = .ok pairRow.geometry)
    (hCurrent : (Operation.trace u.stream.core twoSweeps).all
      (fun step => step.2.2.2.control.isCurrent 1) = true) :
    ∃ start later s, Activation u [] start later s pairProfile pairRow.geometry ∧
      later.filterMap Episode.offering? =
        (Operation.trace u.stream.core twoSweeps).tail.filterMap offeredIn ∧
      start.after.pipeline = u.pipeline.reset 0 pairRow.rate ∧
      s.core = twoSweeps.foldl (fun c w => w.2.done c) u.stream.core := by
  obtain ⟨episodes, s, hRun, hMap, hCore⟩ := Sequential.exists_of_trace u twoSweeps
  obtain ⟨start, later, rfl, hStart, hLater⟩ := List.map_eq_cons_iff.mp hMap
  simp only [Prod.mk.injEq] at hStart
  obtain ⟨-, hOp, hBefore, hAfter⟩ := hStart
  have hFirst : start.launches = 1 := congrArg (fun c : Stream => c.control.activation + 1) hBefore
  have hBegins : start.Begins pairProfile pairRow.geometry := by
    refine ⟨⟨7, hOp⟩, ?_⟩
    show (start.before.core.admission pairProfile).1 = .ok pairRow.geometry
    rw [hBefore]
    exact hAdmission
  have hGoesOn : ∀ e ∈ start :: later, e.after.control.isCurrent start.launches = true := by
    intro e he
    rw [hFirst]
    exact List.all_eq_true.mp hCurrent _ (hMap ▸ List.mem_map_of_mem he)
  have hDone : start.after.core = start.operation.done start.before.core := by
    rw [hAfter, hOp, hBefore]
  obtain ⟨table, source, consumer, hLaunched⟩ :=
    hBegins.core hDone (hGoesOn start List.mem_cons_self)
  refine ⟨start, later, s, ⟨hRun, hBegins, hGoesOn⟩, ?_, ?_, hCore⟩
  · have hOffered : offeredIn ∘ (fun e : Episode =>
        (e.thread, e.operation, e.before.core, e.after.core)) = Episode.offering? := by
      funext e
      obtain ⟨_, op, before, _, after⟩ := e
      cases op <;> rfl
    rw [← hMap, List.map_cons, List.tail_cons, List.filterMap_map, hOffered]
  · show start.after.core.pipeline = _
    rw [hLaunched, hBefore]
    rfl

theorem disturbs_breakingOff (now : Nat) (rate : ScanRate) :
    Pipeline.Disturbs (fun frame => frame.sequence == 0) (Pipeline.reset {} now rate)
      (Pipeline.reset { processor := some breakingOff } now rate) := by
  refine ⟨⟨nofun, nofun⟩, ⟨nofun, ?_⟩, rfl, ?_, ?_⟩
  · rintro stage ⟨⟩ k k' frame
    rfl
  · intro frame hSpared
    exact ⟨rfl, if_neg (by simpa using hSpared)⟩
  · intro frame hFailing
    exact .inr ⟨_, if_pos (by simpa using hFailing)⟩

/-- The first frame of the second run is dropped, and nothing else is different. -/
theorem failures_isolated_twoSweeps :
    ∃ start later s start' later' s',
      Activation pairSetup [] start later s pairProfile pairRow.geometry ∧
      Activation { pairSetup with pipeline := { processor := some breakingOff } } [] start' later'
        s' pairProfile pairRow.geometry ∧
      later'.filterMap Episode.offering? = later.filterMap Episode.offering? ∧
      Pipeline.Disturbs (fun frame => frame.sequence == 0) start.after.pipeline
        start'.after.pipeline ∧
      s.control.stats.delivered = 2 ∧ s'.control.stats.delivered = 1 ∧
      Isolated (fun frame => frame.sequence == 0) start.after.pipeline start later s start' later'
        s' := by
  have hOk : ∀ verdict : Except Error Geometry,
      verdict.toOption = some pairRow.geometry → verdict = .ok pairRow.geometry := by
    rintro (e | g) hSome
    · cases hSome
    · cases hSome
      rfl
  obtain ⟨start, later, s, h, hOfferings, hPipeline, hCore⟩ := exists_activation pairSetup
    (hOk _ (by decide +kernel)) (by decide +kernel)
  obtain ⟨start', later', s', h', hOfferings', hPipeline', hCore'⟩ := exists_activation
    { pairSetup with pipeline := { processor := some breakingOff } }
    (hOk _ (by decide +kernel)) (by decide +kernel)
  have hSame : later'.filterMap Episode.offering? = later.filterMap Episode.offering? := by
    rw [hOfferings, hOfferings']
    decide +kernel
  have hDisturbs : Pipeline.Disturbs (fun frame => frame.sequence == 0) start.after.pipeline
      start'.after.pipeline := by
    rw [hPipeline, hPipeline']
    exact disturbs_breakingOff 0 pairRow.rate
  have hDelivered : s.control.stats.delivered = 2 := by
    show s.core.control.stats.delivered = 2
    rw [hCore]
    decide +kernel
  have hDelivered' : s'.control.stats.delivered = 1 := by
    show s'.core.control.stats.delivered = 1
    rw [hCore']
    decide +kernel
  exact ⟨start, later, s, start', later', s', h, h', hSame, hDisturbs, hDelivered, hDelivered',
    failures_isolated h h' hSame hDisturbs⟩

end LidarSweep

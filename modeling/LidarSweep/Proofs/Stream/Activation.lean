import LidarSweep.Proofs.Stream.Stages
import LidarSweep.Proofs.Stream.Standing

/-!
# The frames of an activation

Every frame that an assembler completes is accounted for, once (`frames_accounted_for`).  Where
nothing on the way can fail a frame, and consumers do no more than stop the stream, the frames of an
activation are those of an assembler that is made for it and offered the packets that came in while
it was active, and nothing else: no block of another activation gets into them (`Apart`).
-/

namespace LidarSweep

/-- If these bytes are a packet, its header gives all of the metadata. -/
def IsReadable (keys : List MetadataKey) (packet : List UInt8) : Prop :=
  ∀ p, Packet.decode packet = .ok p → ∃ metadata, MetadataKey.values keys p.header = .ok metadata

theorem isReadable_of_decode {keys : List MetadataKey} {packet : List UInt8} {p : Packet}
    {metadata : Metadata} (hDecode : Packet.decode packet = .ok p)
    (hKeys : MetadataKey.values keys p.header = .ok metadata) : IsReadable keys packet := by
  intro p' hDecode'
  obtain rfl := Except.ok.inj (hDecode.symm.trans hDecode')
  exact ⟨metadata, hKeys⟩

/-- The consumer asks for nothing but stops. -/
def Stage.OnlyStops (stage : Stage Conduct) : Prop :=
  ∀ call frame list, stage.act call frame = .errands list → ∀ e ∈ list, e = .stop

namespace Stream

variable {s s' s'' : Stream}

/-- What a stop leaves as it was: either it all was over before, or the assembler is gone. -/
structure Stays (s s' : Stream) : Prop where
  frames : s'.journal.frames = s.journal.frames
  activation : s'.control.activation = s.control.activation
  pipeline : s'.pipeline = s.pipeline
  now : s'.now = s.now
  act : s'.consumer.act = s.consumer.act
  assembler : s'.assembler = s.assembler ∧ s'.control.state = s.control.state ∨
    s'.assembler = none ∧ s'.control.state.isActive = false

theorem Stays.refl (s : Stream) : s.Stays s := ⟨rfl, rfl, rfl, rfl, rfl, .inl ⟨rfl, rfl⟩⟩

theorem Stays.trans (h : s.Stays s') (h' : s'.Stays s'') : s.Stays s'' where
  frames := h'.frames.trans h.frames
  activation := h'.activation.trans h.activation
  pipeline := h'.pipeline.trans h.pipeline
  now := h'.now.trans h.now
  act := h'.act.trans h.act
  assembler := by
    rcases h'.assembler with ⟨hAssembler, hState⟩ | hGone
    · rcases h.assembler with ⟨hAssembler', hState'⟩ | ⟨hNone, hInactive⟩
      · exact .inl ⟨hAssembler.trans hAssembler', hState.trans hState'⟩
      · exact .inr ⟨hAssembler.trans hNone, hState ▸ hInactive⟩
    · exact .inr hGone

theorem stays_halted (s : Stream) (ending : Ending) : s.Stays (s.halted ending) := by
  unfold halted
  split
  · exact .refl s
  · exact ⟨rfl, rfl, rfl, rfl, rfl, .inr ⟨rfl, by cases ending <;> rfl⟩⟩

theorem stays_consumed (s : Stream) {entry : ConsumerEntry}
    (h : ∀ consumer frame, entry ≠ .frame consumer frame) : s.Stays (s.consumed entry) :=
  ⟨(s.isUneventful_consumed h).frames, rfl, rfl, rfl, rfl, .inl ⟨rfl, rfl⟩⟩

/-- A consumer that only stops the stream adds its frame to the journal and nothing more. -/
theorem stays_handed (hStops : s.consumer.OnlyStops) (profile : Profile) (consumer : ConsumerId)
    (frame : Frame) :
    Stays (consumed { s with consumer := (s.consumer.call frame).1 } (.frame consumer frame))
      (s.handed profile consumer frame) := by
  unfold handed
  dsimp only
  split
  next list hConduct =>
    refine List.foldlRecOn list _ (.refl _) fun s' hs' e he => hs'.trans ?_
    obtain rfl := hStops _ _ _ hConduct e he
    exact (s'.stays_halted .stopped).trans (stays_consumed _ nofun)
  · exact .refl _

/-- A packet is taken in: the assembler has seen it, and the frame that it may have completed is
handed over with its times and metadata. -/
structure Takes (s : Stream) (a : Assembler) (packet : List UInt8) (s' : Stream) : Prop where
  activation : s'.control.activation = s.control.activation
  now : s'.now = s.now
  act : s'.consumer.act = s.consumer.act
  assembler : s'.assembler = some (a.ingest s.now packet).1
  plain : s'.pipeline.IsPlain
  punctual : s'.pipeline.IsPunctual s.now
  keys : s'.pipeline.keys = s.pipeline.keys
  frames : ∃ handed, s'.journal.frames = s.journal.frames ++ handed ∧
    handed.map Frame.bare = (a.ingest s.now packet).2.frame?.toList

/-- An active stream with plain stages takes in each packet; then its consumer may stop it. -/
theorem exists_takes {a : Assembler} {packet : List UInt8} (hConsistent : s.Consistent)
    (hPlain : s.pipeline.IsPlain) (hPunctual : s.pipeline.IsPunctual s.now)
    (hStops : s.consumer.OnlyStops) (hActive : s.control.state.isActive = true)
    (hAssembler : s.assembler = some a) (hReadable : IsReadable s.pipeline.keys packet) :
    ∃ s', s.Takes a packet s' ∧ s'.Stays (s.offered packet) := by
  obtain ⟨hProfile, hConsumer, hFed⟩ := hConsistent.active hActive
  obtain ⟨profile, hProfile⟩ := Option.ne_none_iff_exists'.mp hProfile
  obtain ⟨consumer, hConsumer⟩ := Option.ne_none_iff_exists'.mp hConsumer
  have hReceiver : s.source.receiver = some s.control.activation := by
    rcases hFed with ⟨_, hReceiver⟩ | ⟨_, _, hNone⟩
    · exact hReceiver
    · cases hAssembler.symm.trans hNone
  have hCurrent : s.control.isCurrent s.control.activation = true :=
    decide_eq_true ⟨rfl, hActive⟩
  rw [offered, hReceiver]
  dsimp only
  rw [received, if_pos hCurrent, ingested, hAssembler]
  dsimp only
  cases hFrame : (a.ingest s.now packet).2.frame? with
  | none =>
    refine ⟨{ s with assembler := some (a.ingest s.now packet).1 },
      ⟨rfl, rfl, rfl, rfl, hPlain, hPunctual, rfl, [], ?_, ?_⟩, .refl _⟩
    · exact (List.append_nil _).symm
    · rw [hFrame]
      rfl
  | some frame =>
    obtain ⟨p, data, hDecode, hFields⟩ := Assembler.frame?_ingest hFrame
    obtain ⟨metadata, hMetadata⟩ := hReadable p hDecode
    obtain ⟨pipeline, frame', hRun, hPlain', hPunctual', hKeys, hBare⟩ :=
      Pipeline.run_of_isPlain frame hPlain (by rw [hFields]; exact hPunctual)
        (by rw [hFields]; exact hMetadata) (s.wall s.now) s.device.syncMode profile
    dsimp only
    simp only [delivered, hProfile, hConsumer, hCurrent, processed, hRun, confirmed, if_true]
    refine ⟨_, ⟨?_, ?_, ?_, ?_, ?_, ?_, ?_, [frame'], ?_, ?_⟩,
      stays_handed (by exact hStops) profile consumer frame'⟩
    · rfl
    · rfl
    · rfl
    · rfl
    · exact hPlain'
    · rw [hFields] at hPunctual'
      exact hPunctual'
    · exact hKeys
    · exact Journal.frames_addConsumed s.journal (.frame consumer frame')
    · rw [hFrame, List.map_singleton, hBare, hFields]
      rfl

/-- A start that is refused leaves the stream as it was. -/
theorem stays_started_of_error {profile : Profile} {e : Error} {table : GeometryTable}
    (h : s.admission profile = (.error e, table)) (consumer : ConsumerId) :
    s.Stays (s.started profile consumer).1 := by
  rw [started, h]
  exact ⟨rfl, rfl, rfl, rfl, rfl, .inl ⟨rfl, rfl⟩⟩

/-- A stream in a new activation, with an assembler for it. -/
def launched (s : Stream) (profile : Profile) (g : Geometry) : Stream :=
  { s with
    pipeline := s.pipeline.reset s.now profile.rate
    assembler := some (.new g profile.format)
    control := { s.control with activation := s.control.activation + 1, state := .starting } }

/-- A start that passes the checks launches the stream; it is stopped again if the source
refuses. -/
theorem stays_started_of_ok {profile : Profile} {g : Geometry} {table : GeometryTable}
    (h : s.admission profile = (.ok g, table)) (consumer : ConsumerId) :
    (s.launched profile g).Stays (s.started profile consumer).1 := by
  rw [started, h]
  dsimp only
  split
  · exact ⟨rfl, rfl, rfl, rfl, rfl, .inl ⟨rfl, rfl⟩⟩
  · exact ⟨rfl, rfl, rfl, rfl, rfl, .inr ⟨rfl, rfl⟩⟩

end Stream

/-! ### What episodes say about an activation -/

/-- An operation of a caller, and not of the watcher. -/
def Operation.isCaller : Operation → Bool
  | start _ _ | stop | inject _ => true
  | restart _ _ _ | giveUp => false

theorem Operation.bearsFrame_agenda (op : Operation) :
    op.agenda.any Action.bearsFrame = false := by
  cases op <;> rfl

namespace Episode

/-- The frames handed to consumers in the episode. -/
def handed (e : Episode) : List Frame :=
  e.after.journal.frames.drop e.before.journal.frames.length

/-- The packet injected in the episode, if the stream is then active in activation `n`. -/
def input? (n : Nat) (e : Episode) : Option Assembler.Input :=
  match e.operation with
  | .inject packet =>
    if e.before.control.isCurrent n then some (.packet e.before.now packet) else none
  | _ => none

theorem input?_of_isActive {e : Episode} {packet : List UInt8}
    (hInject : e.operation = .inject packet) (hActive : e.before.control.state.isActive = true)
    (n : Nat) :
    e.input? n =
      if e.before.control.activation = n then some (.packet e.before.now packet) else none := by
  rw [input?, hInject]
  dsimp only
  rw [Control.isCurrent]
  simp [hActive]

/-- A start passes all checks, and an activation begins with this profile and geometry. -/
def Begins (e : Episode) (profile : Profile) (g : Geometry) : Prop :=
  (∃ consumer, e.operation = .start profile consumer) ∧ (e.before.admission profile).1 = .ok g

/-- The number of the activation that begins in the episode, if one does. -/
def launches (e : Episode) : Nat := e.before.control.activation + 1

theorem not_begins {e : Episode} (h : ∀ profile consumer, e.operation ≠ .start profile consumer)
    (profile : Profile) (g : Geometry) : ¬ e.Begins profile g := by
  rintro ⟨⟨consumer, hStart⟩, _⟩
  exact h profile consumer hStart

end Episode

/-- The frames handed to consumers in activation `n`. -/
def handedIn (n : Nat) (episodes : List Episode) : List Frame :=
  episodes.flatMap fun e => if e.before.control.activation = n then e.handed else []

/-- The packets injected while the stream was active in activation `n`. -/
def injectedIn (n : Nat) (episodes : List Episode) : List Assembler.Input :=
  episodes.filterMap (·.input? n)

theorem handedIn_concat (n : Nat) (episodes : List Episode) (e : Episode) :
    handedIn n (episodes ++ [e]) =
      handedIn n episodes ++ if e.before.control.activation = n then e.handed else [] := by
  rw [handedIn, List.flatMap_append, List.flatMap_singleton]
  rfl

theorem injectedIn_concat (n : Nat) (episodes : List Episode) (e : Episode) :
    injectedIn n (episodes ++ [e]) = injectedIn n episodes ++ (e.input? n).toList := by
  rw [injectedIn, List.filterMap_append]
  cases h : e.input? n <;> simp [injectedIn, h]

/-- A later activation has seen nothing yet. -/
theorem injectedIn_eq_nil {n : Nat} {episodes : List Episode}
    (h : ∀ e ∈ episodes, e.before.control.activation < n) :
    handedIn n episodes = [] ∧ injectedIn n episodes = [] := by
  constructor
  · refine List.flatMap_eq_nil_iff.mpr fun e he => if_neg (h e he).ne
  · refine List.filterMap_eq_nil_iff.mpr fun e he => ?_
    unfold Episode.input?
    split
    · exact if_neg fun hCurrent => (h e he).ne (of_decide_eq_true hCurrent).1
    · rfl

theorem flatMap_handed_concat (episodes : List Episode) (e : Episode) :
    (episodes ++ [e]).flatMap Episode.handed = episodes.flatMap Episode.handed ++ e.handed := by
  rw [List.flatMap_append, List.flatMap_singleton]

/-! ### The invariant -/

/-- The activations of a run follow one another, up to activation `n`, and frames are handed over
in those only that a start began. -/
structure Ordered (episodes : List Episode) (n : Nat) : Prop where
  earlier : ∀ e ∈ episodes, e.before.control.activation ≤ n
  launched : ∀ e ∈ episodes, ∀ profile g, e.Begins profile g → e.launches ≤ n
  successive : episodes.Pairwise fun e later => ∀ profile g, e.Begins profile g →
    e.launches ≤ later.before.control.activation
  origin : ∀ e ∈ episodes, e.handed ≠ [] → ∃ e' ∈ episodes, ∃ profile g,
    e'.Begins profile g ∧ e'.launches = e.before.control.activation

theorem ordered_nil : Ordered [] 0 where
  earlier := List.forall_mem_nil _
  launched := List.forall_mem_nil _
  successive := .nil
  origin := List.forall_mem_nil _

theorem Ordered.concat {episodes : List Episode} {e : Episode} {n : Nat}
    (h : Ordered episodes e.before.control.activation) (hLater : e.before.control.activation ≤ n)
    (hLaunches : ∀ profile g, e.Begins profile g → e.launches ≤ n)
    (hOrigin : e.handed ≠ [] → ∃ e' ∈ episodes, ∃ profile g,
      e'.Begins profile g ∧ e'.launches = e.before.control.activation) :
    Ordered (episodes ++ [e]) n where
  earlier := List.forall_mem_append.mpr ⟨fun e' he' => (h.earlier e' he').trans hLater,
    List.forall_mem_singleton.mpr hLater⟩
  launched := List.forall_mem_append.mpr
    ⟨fun e' he' profile g hBegins => (h.launched e' he' profile g hBegins).trans hLater,
      List.forall_mem_singleton.mpr hLaunches⟩
  successive := by
    refine List.pairwise_append.mpr ⟨h.successive, List.pairwise_singleton _ _, fun e' he' => ?_⟩
    exact List.forall_mem_singleton.mpr (h.launched e' he')
  origin := by
    intro e' he' hHanded
    obtain ⟨e₀, he₀, hLaunch⟩ : ∃ e₀ ∈ episodes, ∃ profile g,
        e₀.Begins profile g ∧ e₀.launches = e'.before.control.activation := by
      rcases List.mem_append.mp he' with hOld | hNew
      · exact h.origin e' hOld hHanded
      · obtain rfl := List.mem_singleton.mp hNew
        exact hOrigin hHanded
    exact ⟨e₀, List.mem_append_left _ he₀, hLaunch⟩

/-- A run so far, and the stream after it: the stages are still plain, every activation has handed
over what an assembler of its own makes of its packets, and the present assembler is that of the
present activation. -/
structure Faithful (u : Setup) (episodes : List Episode) (s : Stream) : Prop
    extends Ordered episodes s.control.activation where
  plain : s.pipeline.IsPlain
  keys : s.pipeline.keys = u.pipeline.keys
  act : s.consumer.act = u.consumer.act
  punctual : s.control.state.isActive = true → s.pipeline.IsPunctual s.now
  fed : s.control.state.isActive = true → s.assembler ≠ none
  present : ∀ a, s.assembler = some a →
    (∃ e ∈ episodes, ∃ profile g, e.Begins profile g ∧ e.launches = s.control.activation) ∧
    ∀ e ∈ episodes, ∀ profile g, e.Begins profile g → e.launches = s.control.activation →
      a = (Assembler.new g profile.format).after (injectedIn s.control.activation episodes)
  frames : ∀ e ∈ episodes, ∀ profile g, e.Begins profile g →
    (handedIn e.launches episodes).map Frame.bare =
      (Assembler.new g profile.format).frames (injectedIn e.launches episodes)
  journal : s.journal.frames = episodes.flatMap Episode.handed

namespace Faithful

variable {u : Setup} {episodes : List Episode} {s s' : Stream} {e : Episode}

theorem new (u : Setup) (hPlain : u.pipeline.IsPlain) : Faithful u [] u.stream where
  toOrdered := ordered_nil
  plain := hPlain
  keys := rfl
  act := rfl
  punctual hActive := absurd hActive Bool.false_ne_true
  fed hActive := absurd hActive Bool.false_ne_true
  present _ hSome := absurd hSome (Option.some_ne_none _).symm
  frames := List.forall_mem_nil _
  journal := rfl

theorem stays (h : Faithful u episodes s) (hStays : s.Stays s') : Faithful u episodes s' := by
  obtain ⟨hFrames, hActivation, hPipeline, hNow, hAct, hAssembler⟩ := hStays
  have hActive : s'.control.state.isActive = true →
      s'.assembler = s.assembler ∧ s'.control.state = s.control.state := by
    rcases hAssembler with hSame | ⟨_, hInactive⟩
    · exact fun _ => hSame
    · intro hActive
      rw [hInactive] at hActive
      cases hActive
  refine ⟨hActivation ▸ h.toOrdered, hPipeline ▸ h.plain, hPipeline ▸ h.keys, hAct.trans h.act,
    fun hNew => ?_, fun hNew => ?_, fun a hSome => ?_, h.frames, hFrames.trans h.journal⟩
  · rw [hPipeline, hNow]
    exact h.punctual ((hActive hNew).2 ▸ hNew)
  · rw [(hActive hNew).1]
    exact h.fed ((hActive hNew).2 ▸ hNew)
  · rw [hActivation]
    rcases hAssembler with ⟨hSame, _⟩ | ⟨hNone, _⟩
    · exact h.present a (hSame ▸ hSome)
    · cases hNone.symm.trans hSome

/-- Time may pass and the surroundings change. -/
theorem amid (h : Faithful u episodes s) (x : Circumstances) : Faithful u episodes (s.amid x) :=
  { h with punctual := fun hActive => (h.punctual hActive).mono (Nat.le_add_right _ _) }

theorem mem_of_begins {e' : Episode} {profile : Profile} {g : Geometry}
    (hNot : ∀ profile g, ¬ e.Begins profile g) (h : e' ∈ episodes ++ [e])
    (hBegins : e'.Begins profile g) : e' ∈ episodes := by
  rcases List.mem_append.mp h with hOld | hNew
  · exact hOld
  · rw [List.mem_singleton.mp hNew] at hBegins
    exact absurd hBegins (hNot profile g)

/-- Nothing is taken in and nothing handed over in the episode, for any activation. -/
theorem concat_of_idle (episodes : List Episode) (hHanded : e.handed = [])
    (hInput : ∀ n, e.input? n = none) (n : Nat) :
    handedIn n (episodes ++ [e]) = handedIn n episodes ∧
      injectedIn n (episodes ++ [e]) = injectedIn n episodes := by
  rw [handedIn_concat, injectedIn_concat, hHanded, hInput, ite_self]
  exact ⟨List.append_nil _, List.append_nil _⟩

/-- An episode in which nothing begins and nothing is taken in. -/
theorem still (h : Faithful u episodes e.before) (hHanded : e.handed = [])
    (hInput : ∀ n, e.input? n = none) (hNot : ∀ profile g, ¬ e.Begins profile g) :
    Faithful u (episodes ++ [e]) e.before := by
  have hSame := concat_of_idle episodes hHanded hInput
  have hOrdered : Ordered (episodes ++ [e]) e.before.control.activation :=
    h.concat (Nat.le_refl _) (fun profile g hBegins => absurd hBegins (hNot profile g))
      (absurd hHanded)
  refine { h with toOrdered := hOrdered, present := ?_, frames := ?_, journal := ?_ }
  · intro a hSome
    obtain ⟨⟨e₀, he₀, hLaunch⟩, hAll⟩ := h.present a hSome
    refine ⟨⟨e₀, List.mem_append_left _ he₀, hLaunch⟩, fun e' he' profile g hBegins hNumber => ?_⟩
    rw [(hSame _).2]
    exact hAll e' (mem_of_begins hNot he' hBegins) profile g hBegins hNumber
  · intro e' he' profile g hBegins
    rw [(hSame _).1, (hSame _).2]
    exact h.frames e' (mem_of_begins hNot he' hBegins) profile g hBegins
  · rw [flatMap_handed_concat, hHanded, List.append_nil]
    exact h.journal

/-- An episode in which an activation begins. -/
theorem launch (h : Faithful u episodes e.before) (hHanded : e.handed = []) {profile : Profile}
    {g : Geometry} (hBegins : e.Begins profile g) :
    Faithful u (episodes ++ [e]) (e.before.launched profile g) := by
  obtain ⟨⟨consumer, hStart⟩, hAdmission⟩ := hBegins
  have hInput : ∀ n, e.input? n = none := fun n => by rw [Episode.input?, hStart]
  have hSame := concat_of_idle episodes hHanded hInput
  have hNone := injectedIn_eq_nil (n := e.launches) fun e' he' =>
    Nat.lt_succ_of_le (h.earlier e' he')
  have hOrdered : Ordered (episodes ++ [e]) e.launches :=
    h.concat (Nat.le_succ _) (fun _ _ _ => Nat.le_refl _) (absurd hHanded)
  have hOnly : ∀ profile' g', e.Begins profile' g' → profile' = profile ∧ g' = g := by
    rintro profile' g' ⟨⟨consumer', hStart'⟩, hAdmission'⟩
    obtain ⟨rfl, _⟩ := Operation.start.inj (hStart'.symm.trans hStart)
    exact ⟨rfl, Except.ok.inj (hAdmission'.symm.trans hAdmission)⟩
  refine ⟨hOrdered, h.plain.reset _ _, h.keys, h.act, fun _ => Pipeline.isPunctual_reset _ _ _,
    nofun, ?_, ?_, ?_⟩
  · intro a hSome
    obtain rfl := Option.some.inj hSome
    refine ⟨⟨e, List.mem_append_right _ (List.mem_singleton_self e), profile, g,
      ⟨⟨consumer, hStart⟩, hAdmission⟩, rfl⟩, fun e' he' profile' g' hBegins' hNumber => ?_⟩
    rcases List.mem_append.mp he' with hOld | hNew
    · have hEarlier := h.launched e' hOld profile' g' hBegins'
      rw [hNumber] at hEarlier
      exact absurd hEarlier (Nat.not_succ_le_self _)
    · rw [List.mem_singleton.mp hNew] at hBegins'
      obtain ⟨rfl, rfl⟩ := hOnly profile' g' hBegins'
      rw [(hSame _).2]
      show _ = (Assembler.new _ _).after (injectedIn e.launches episodes)
      rw [hNone.2]
      rfl
  · intro e' he' profile' g' hBegins'
    rw [(hSame _).1, (hSame _).2]
    rcases List.mem_append.mp he' with hOld | hNew
    · exact h.frames e' hOld profile' g' hBegins'
    · rw [List.mem_singleton.mp hNew, hNone.1, hNone.2]
      rfl
  · rw [flatMap_handed_concat, hHanded, List.append_nil]
    exact h.journal

/-- An episode in which an active stream takes in a packet. -/
theorem take (h : Faithful u episodes e.before) {packet : List UInt8}
    (hInject : e.operation = .inject packet) (hActive : e.before.control.state.isActive = true)
    {a : Assembler} (hAssembler : e.before.assembler = some a)
    (hTakes : e.before.Takes a packet s)
    (hHanded : e.handed.map Frame.bare = (a.ingest e.before.now packet).2.frame?.toList)
    (hJournal : s.journal.frames = e.before.journal.frames ++ e.handed) :
    Faithful u (episodes ++ [e]) s := by
  obtain ⟨⟨e₀, he₀, hLaunch⟩, hAll⟩ := h.present a hAssembler
  have hNot := Episode.not_begins (e := e) fun profile consumer hStart => by
    cases hStart.symm.trans hInject
  have hInput := Episode.input?_of_isActive hInject hActive
  -- The packet is the last of its activation, and the other activations do not change.
  have hHere : injectedIn e.before.control.activation (episodes ++ [e]) =
      injectedIn e.before.control.activation episodes ++ [.packet e.before.now packet] := by
    rw [injectedIn_concat, hInput, if_pos rfl]
    rfl
  have hFed : ∀ e' ∈ episodes, ∀ profile g, e'.Begins profile g →
      e'.launches = e.before.control.activation →
      (Assembler.new g profile.format).after
          (injectedIn e.before.control.activation (episodes ++ [e])) =
        (a.ingest e.before.now packet).1 := by
    intro e' he' profile g hBegins hNumber
    rw [hHere, Assembler.after_concat, ← hAll e' he' profile g hBegins hNumber]
    rfl
  have hOrdered : Ordered (episodes ++ [e]) e.before.control.activation :=
    h.concat (Nat.le_refl _) (fun profile g hBegins => absurd hBegins (hNot profile g))
      fun _ => ⟨e₀, he₀, hLaunch⟩
  refine ⟨hTakes.activation ▸ hOrdered, hTakes.plain, hTakes.keys.trans h.keys,
    hTakes.act.trans h.act, fun _ => ?_, fun _ => ?_, ?_, ?_, ?_⟩
  · rw [hTakes.now]
    exact hTakes.punctual
  · rw [hTakes.assembler]
    exact Option.some_ne_none _
  · intro a' hSome
    rw [hTakes.assembler] at hSome
    obtain rfl := Option.some.inj hSome
    rw [hTakes.activation]
    refine ⟨⟨e₀, List.mem_append_left _ he₀, hLaunch⟩, fun e' he' profile g hBegins hNumber => ?_⟩
    exact (hFed e' (mem_of_begins hNot he' hBegins) profile g hBegins hNumber).symm
  · intro e' he' profile g hBegins
    have hOld := mem_of_begins hNot he' hBegins
    have hFrames := h.frames e' hOld profile g hBegins
    rw [handedIn_concat]
    by_cases hNumber : e'.launches = e.before.control.activation
    · rw [hNumber] at hFrames ⊢
      rw [if_pos rfl, hHere, List.map_append, hFrames, hHanded, Assembler.frames_concat,
        ← hAll e' hOld profile g hBegins hNumber]
      rfl
    · rw [if_neg (Ne.symm hNumber), List.append_nil, injectedIn_concat, hInput,
        if_neg (Ne.symm hNumber), Option.toList_none, List.append_nil]
      exact hFrames
  · rw [flatMap_handed_concat, hJournal, h.journal]

end Faithful

/-! ### Runs -/

theorem Episode.handed_of_frames {e : Episode} {frames : List Frame}
    (h : e.after.journal.frames = e.before.journal.frames ++ frames) : e.handed = frames := by
  rw [handed, h, List.drop_left]

theorem Stream.Stays.of_core {s s' : Stream} (h : s.core.Stays s'.core) : s.Stays s' :=
  ⟨h.frames, h.activation, h.pipeline, h.now, h.act, h.assembler⟩

theorem Stream.Stays.after_core {s s' : Stream} (h : s.Stays s'.core) : s.Stays s' :=
  ⟨h.frames, h.activation, h.pipeline, h.now, h.act, h.assembler⟩

theorem Stream.Takes.of_core {s s' : Stream} {a : Assembler} {packet : List UInt8}
    (h : s.core.Takes a packet s') : s.Takes a packet s' :=
  ⟨h.activation, h.now, h.act, h.assembler, h.plain, h.punctual, h.keys, h.frames⟩

/-- A stream that is over takes no packets. -/
theorem Stream.offered_of_inactive {s : Stream} (h : s.Poised false)
    (hInactive : s.control.state.isActive = false) (packet : List UInt8) :
    s.offered packet = s := by
  have hOver : s.control.canStart = true := by
    have hSteady := h.steady
    unfold Control.canStart
    cases hState : s.control.state <;> simp_all [StreamState.isActive]
  rw [offered, (h.idle hOver).2.2]

namespace Faithful

variable {u : Setup} {episodes : List Episode} {s s' : Stream} {op : Operation} {me : ThreadId}
  {deeds : List Deed}

theorem idle (h : Faithful u episodes s) (hStays : s.Stays s')
    (hInput : ∀ n, Episode.input? n ⟨me, op, s, deeds, s'⟩ = none)
    (hNot : ∀ profile g, ¬ Episode.Begins ⟨me, op, s, deeds, s'⟩ profile g) :
    Faithful u (episodes ++ [⟨me, op, s, deeds, s'⟩]) s' := by
  have hHanded : Episode.handed ⟨me, op, s, deeds, s'⟩ = [] :=
    Episode.handed_of_frames (by rw [List.append_nil]; exact hStays.frames)
  exact (h.still (e := ⟨me, op, s, deeds, s'⟩) hHanded hInput hNot).stays hStays

theorem start (h : Faithful u episodes s) {profile : Profile} {consumer : ConsumerId}
    (hCore : s'.core = (s.core.started profile consumer).1) :
    Faithful u (episodes ++ [⟨me, .start profile consumer, s, deeds, s'⟩]) s' := by
  rcases hAdmission : s.admission profile with ⟨verdict, table⟩
  cases verdict with
  | error e =>
    have hStays : s.core.Stays s'.core :=
      hCore ▸ Stream.stays_started_of_error (s := s.core) hAdmission consumer
    refine h.idle hStays.of_core (fun _ => rfl) ?_
    rintro profile' g ⟨⟨consumer', hStart⟩, hOk⟩
    obtain ⟨rfl, _⟩ := Operation.start.inj hStart
    rw [hAdmission] at hOk
    cases hOk
  | ok g =>
    have hStays : (s.launched profile g).core.Stays s'.core :=
      hCore ▸ Stream.stays_started_of_ok (s := s.core) hAdmission consumer
    have hHanded : Episode.handed ⟨me, .start profile consumer, s, deeds, s'⟩ = [] :=
      Episode.handed_of_frames (by rw [List.append_nil]; exact hStays.frames)
    exact (h.launch (e := ⟨me, .start profile consumer, s, deeds, s'⟩) hHanded
      ⟨⟨consumer, rfl⟩, by rw [hAdmission]⟩).stays hStays.of_core

theorem inject (h : Faithful u episodes s) (hStanding : s.Standing)
    (hStops : u.consumer.OnlyStops) {packet : List UInt8}
    (hReadable : IsReadable u.pipeline.keys packet) (hCore : s'.core = s.core.offered packet) :
    Faithful u (episodes ++ [⟨me, .inject packet, s, deeds, s'⟩]) s' := by
  have hPoised := Stream.Poised.core_iff.mpr hStanding.toPoised
  cases hActive : s.control.state.isActive with
  | false =>
    rw [Stream.offered_of_inactive hPoised hActive] at hCore
    refine h.idle (Stream.Stays.of_core (hCore ▸ .refl _)) (fun n => ?_) (Episode.not_begins nofun)
    rw [Episode.input?, Control.isCurrent]
    simp [hActive]
  | true =>
    obtain ⟨a, hAssembler⟩ := Option.ne_none_iff_exists'.mp (h.fed hActive)
    have hStops' : s.consumer.OnlyStops := by
      unfold Stage.OnlyStops
      rw [h.act]
      exact hStops
    obtain ⟨mid, hTakes, hStays⟩ := Stream.exists_takes hPoised.toConsistent h.plain
      (h.punctual hActive) hStops' hActive hAssembler (h.keys ▸ hReadable)
    rw [← hCore] at hStays
    obtain ⟨handed, hFrames, hBare⟩ := hTakes.frames
    have hHanded : Episode.handed ⟨me, .inject packet, s, deeds, s'⟩ = handed :=
      Episode.handed_of_frames (hStays.frames.trans hFrames)
    exact (h.take (e := ⟨me, .inject packet, s, deeds, s'⟩) rfl hActive hAssembler hTakes.of_core
      (hHanded ▸ hBare) (hHanded ▸ hFrames)).stays hStays.after_core

/-- What one operation of a caller preserves. -/
theorem operate (h : Faithful u episodes s) (hStanding : s.Standing)
    (hCore : s'.core = op.done s.core) (hCaller : op.isCaller = true)
    (hStops : u.consumer.OnlyStops)
    (hReadable : ∀ packet, op = .inject packet → IsReadable u.pipeline.keys packet) :
    Faithful u (episodes ++ [⟨me, op, s, deeds, s'⟩]) s' := by
  cases op with
  | start profile consumer => exact h.start hCore
  | stop =>
    have hStays : s.core.Stays s'.core := hCore ▸ s.core.stays_halted .stopped
    exact h.idle hStays.of_core (fun _ => rfl) (Episode.not_begins nofun)
  | inject packet => exact h.inject hStanding hStops (hReadable packet rfl) hCore
  | restart => cases hCaller
  | giveUp => cases hCaller

end Faithful

/-- Nothing in the run can fail a frame: stages are plain, packets are readable, and only callers
work on the stream, with a consumer that asks for nothing but stops. -/
structure Untroubled (u : Setup) (episodes : List Episode) : Prop where
  plain : u.pipeline.IsPlain
  stops : u.consumer.OnlyStops
  callers : ∀ e ∈ episodes, e.operation.isCaller = true
  readable : ∀ e ∈ episodes, ∀ packet, e.operation = .inject packet →
    IsReadable u.pipeline.keys packet

/-- Activations do not share frames or packets. -/
structure Apart (episodes : List Episode) (s : Stream) : Prop where
  journal : s.journal.frames = episodes.flatMap Episode.handed
  /-- The frames of an activation are those of a new assembler for its profile that is offered the
  packets injected while the activation was active. -/
  frames : ∀ e ∈ episodes, ∀ profile g, e.Begins profile g →
    (handedIn e.launches episodes).map Frame.bare =
      (Assembler.new g profile.format).frames (injectedIn e.launches episodes)
  numbered : ∀ e ∈ episodes, ∀ profile g, e.Begins profile g →
    (handedIn e.launches episodes).map Frame.sequence =
      List.range (handedIn e.launches episodes).length
  /-- After a start, no episode is of an earlier activation. -/
  successive : episodes.Pairwise fun e later => ∀ profile g, e.Begins profile g →
    e.launches ≤ later.before.control.activation
  origin : ∀ e ∈ episodes, e.handed ≠ [] → ∃ e' ∈ episodes, ∃ profile g,
    e'.Begins profile g ∧ e'.launches = e.before.control.activation

open Assembler (pairBytes pairPacket)

namespace Sequential

variable {u : Setup} {episodes : List Episode} {s : Stream}

theorem faithful (hRun : Sequential u.stream episodes s) (hUntroubled : Untroubled u episodes) :
    Faithful u episodes s := by
  induction hRun with
  | begin => exact .new u hUntroubled.plain
  | change x _ ih => exact (ih hUntroubled).amid x
  | @operate episodes s s' deeds t me op hRun hTurn hRest ih =>
    obtain ⟨hPlain, hStops, hCallers, hReadable⟩ := hUntroubled
    have hOld := ih ⟨hPlain, hStops, fun e he => hCallers e (List.mem_append_left _ he),
      fun e he => hReadable e (List.mem_append_left _ he)⟩
    have hNew := List.mem_append_right episodes
      (List.mem_singleton_self (⟨me, op, s, deeds, s'⟩ : Episode))
    exact hOld.operate hRun.standing (done_of_turn hRun.standing hTurn hRest).1 (hCallers _ hNew)
      hStops (hReadable _ hNew)

theorem apart (hRun : Sequential u.stream episodes s) (hUntroubled : Untroubled u episodes) :
    Apart episodes s := by
  have hFaithful := hRun.faithful hUntroubled
  refine ⟨hFaithful.journal, hFaithful.frames, fun e he profile g hBegins => ?_,
    hFaithful.successive, hFaithful.origin⟩
  have hFrames := hFaithful.frames e he profile g hBegins
  have hBare : (handedIn e.launches episodes).map Frame.sequence =
      ((handedIn e.launches episodes).map Frame.bare).map Frame.sequence := by
    rw [List.map_map]
    rfl
  have hLength : (handedIn e.launches episodes).length =
      ((Assembler.new g profile.format).frames (injectedIn e.launches episodes)).length := by
    rw [← hFrames, List.length_map]
  rw [hBare, hFrames, Assembler.sequence_frames, hLength, List.range_eq_range']
  rfl

/-- The books balance between operations, when no frame is on its way. -/
theorem balance (hRun : Sequential u.stream episodes s) :
    Balance (episodes.flatMap Episode.deeds) s [] := by
  induction hRun with
  | begin => exact ⟨rfl, rfl⟩
  | change x _ ih => exact ⟨ih.emitted, ih.handed⟩
  | @operate episodes s s' deeds t me op _ hTurn hRest ih =>
    have hBegun : Balance (episodes.flatMap Episode.deeds) s op.agenda :=
      ih.of_bare rfl op.bearsFrame_agenda
    rw [List.flatMap_append, List.flatMap_singleton]
    exact (hBegun.turn hTurn).of_bare (t.bearsFrame_of_isResting hRest) rfl

/-- **Every frame is accounted for, once**: in every sequential run the frames that assemblers
completed are those delivered, dropped, late, and swallowed by the processor, and consumers were
called once for each frame that counts as delivered.  In a run without trouble, activations are
apart besides. -/
theorem frames_accounted_for (hRun : Sequential u.stream episodes s) :
    ((episodes.flatMap Episode.deeds).countP Deed.emits =
        s.control.stats.delivered + s.control.stats.dropped + s.control.stats.late +
          (episodes.flatMap Episode.deeds).countP Deed.swallows ∧
      s.journal.frames.length = s.control.stats.delivered) ∧
    (Untroubled u episodes → Apart episodes s) :=
  ⟨⟨hRun.balance.emitted, hRun.balance.handed⟩, hRun.apart⟩

theorem untroubled_of_pairWork
    (hMap : episodes.map (fun e => (e.thread, e.operation)) = pairWork) :
    Untroubled pairSetup episodes := by
  have hWork : ∀ e ∈ episodes, e.operation = .start pairProfile 7 ∨
      e.operation = .inject (pairBytes 0 1) ∨ e.operation = .inject (pairBytes 0 2) := by
    intro e he
    have hMem : (e.thread, e.operation) ∈ pairWork := hMap ▸ List.mem_map_of_mem he
    simp only [pairWork, List.mem_cons, List.not_mem_nil, Prod.mk.injEq, or_false] at hMem
    exact hMem.imp And.right (Or.imp And.right And.right)
  refine ⟨⟨rfl, rfl, rfl, nofun, nofun⟩, ?_, ?_, ?_⟩
  · intro call frame list h
    cases h
    exact nofun
  · intro e he
    rcases hWork e he with hOp | hOp | hOp
    all_goals
      rw [hOp]
      rfl
  · intro e he packet hInject
    rcases hWork e he with hOp | hOp | hOp
    · cases hInject.symm.trans hOp
    · cases hInject.symm.trans hOp
      exact isReadable_of_decode (p := pairPacket 0 1) rfl rfl
    · cases hInject.symm.trans hOp
      exact isReadable_of_decode (p := pairPacket 0 2) rfl rfl

theorem frames_accounted_for_pair :
    ∃ episodes s, Sequential pairSetup.stream episodes s ∧
      episodes.map (fun e => (e.thread, e.operation)) = pairWork ∧
      s.journal.frames.length = 1 ∧
      ∃ e ∈ episodes, ∃ profile g, e.Begins profile g ∧ handedIn e.launches episodes ≠ [] ∧
        (handedIn e.launches episodes).map Frame.bare =
          (Assembler.new g profile.format).frames (injectedIn e.launches episodes) := by
  obtain ⟨episodes, s, hRun, hMap, hCore⟩ := exists_of_operations pairSetup pairWork
  have hDelivered : s.control.stats.delivered = 1 := by
    show s.core.control.stats.delivered = 1
    rw [hCore]
    decide +kernel
  obtain ⟨⟨_, hCalled⟩, hApart⟩ := frames_accounted_for hRun
  obtain ⟨hJournal, hFrames, _, _, hOrigin⟩ := hApart (untroubled_of_pairWork hMap)
  rw [hDelivered] at hCalled
  obtain ⟨e, he, hHanded⟩ : ∃ e ∈ episodes, e.handed ≠ [] := by
    by_contra hNone
    have hEmpty : ∀ e ∈ episodes, e.handed = [] := fun e he =>
      by_contra fun hHanded => hNone ⟨e, he, hHanded⟩
    rw [hJournal, List.flatMap_eq_nil_iff.mpr hEmpty] at hCalled
    cases hCalled
  obtain ⟨e', he', profile, g, hBegins, hNumber⟩ := hOrigin e he hHanded
  refine ⟨episodes, s, hRun, hMap, hCalled, e', he', profile, g, hBegins, ?_,
    hFrames e' he' profile g hBegins⟩
  intro hNone
  have hSome := List.flatMap_eq_nil_iff.mp hNone e he
  rw [if_pos hNumber.symm] at hSome
  exact hHanded hSome

end Sequential

end LidarSweep

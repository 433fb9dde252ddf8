import LidarSweep.Proofs.Machine.Supply
import LidarSweep.Proofs.Stream.Timing

/-!
# Frames of one activation, in order

As long as no thread moves while another has a frame on its way, and the parts that stamp and check
times are the built-in ones and are not replaced while the stream is active, the frames that
consumers get in one activation have growing numbers and growing times, and one offset between
their two times (`Machine.paced_of_serial`).  Frames may be lost at every stage, and all else about
the stream may change at any time.

What carries this through a run is what is known of the one frame on its way (`Action.Due`), and
that an active stream is past every frame of its activation (`Stream.IsPast`).
-/

namespace LidarSweep

namespace Action

/-- Whether the action is about the stages. -/
def stages : Action → Bool
  | resetPipeline _ | process _ _ _ _ => true
  | _ => false

/-- Whether the action makes the stages ready for an activation. -/
def readies : Action → Bool
  | resetPipeline _ => true
  | _ => false

def isProcess : Action → Bool
  | process _ _ _ _ => true
  | _ => false

/-- Whether the action may bring the stream on to another frame or another activation. -/
def stirs : Action → Bool
  | activate _ _ | endRestart _ _ _ _ _ | resetPipeline _ | install _ _ | ingest _ _
  | process _ _ _ _ => true
  | _ => false

/-- Whether a frame on its way may have to wait for this on its own thread: for the stages, or for a
stop that a processor or a listener has asked for. -/
def isWait : Action → Bool
  | acquire .pipeline | release .pipeline => true
  | action => action.isStop

theorem stirs_of_isWait {action : Action} (h : action.isWait = true) : action.stirs = false := by
  cases action <;> first | rfl | cases h

theorem isWait_of_isStop {action : Action} (h : action.isStop = true) : action.isWait = true := by
  unfold isWait
  split
  · rfl
  · rfl
  · exact h

theorem bearsFrame_of_isWait {action : Action} (h : action.isWait = true) :
    action.bearsFrame = false := by
  cases action <;> first | rfl | cases h

end Action

/-- An action that is not about the stages leaves them as they are. -/
theorem Action.pipeline_of_perform {action : Action} {me : ThreadId} {last : Except Error Unit}
    {s : Stream} {e : Effect} (hAction : action.stages = false)
    (h : action.perform me last s = some e) : e.stream.pipeline = s.pipeline := by
  refine same_of_perform .pipeline ?_ h
  cases action <;> first | rfl | cases hAction

/-- Nothing but a start puts an assembler in, and nothing but a packet changes it. -/
theorem Action.mem_assembler_of_perform {action : Action} {me : ThreadId}
    {last : Except Error Unit} {s : Stream} {e : Effect} (hInstall : action.isInstall = false)
    (hIngest : action.isIngest = false) (h : action.perform me last s = some e) :
    ∀ a ∈ e.stream.assembler, a ∈ s.assembler := by
  intro a ha
  by_cases hTouches : action.touches .assembler = true
  · cases action
    case install => cases hInstall
    case ingest => cases hIngest
    case uninstall | retire =>
      cases h
      cases ha
    all_goals cases hTouches
  · have hSame : e.stream.assembler = s.assembler :=
      same_of_perform .assembler (Bool.eq_false_iff.mpr hTouches) h
    rwa [hSame] at ha

/-! ### Frames that are past -/

/-- Numbers and times of the frames grow, and global times differ from device times by the same
offset. -/
structure Paced (frames : List Frame) : Prop where
  rises : frames.Pairwise fun f g =>
    f.sequence < g.sequence ∧ f.deviceUs < g.deviceUs ∧ f.globalUs < g.globalUs
  shifted : ∃ offset, ∀ f ∈ frames, f.globalUs = f.deviceUs + offset

theorem paced_nil : Paced [] := ⟨.nil, 0, nofun⟩

/-- A frame comes next that has passed the same stages. -/
theorem Paced.concat {frames : List Frame} {frame : Frame} {p : Pipeline} (h : Paced frames)
    (hPassed : ∀ f ∈ frames, p.Passed f) (hLast : p.Passed frame)
    (hLater : ∀ f ∈ frames, f.sequence < frame.sequence ∧ f.deviceUs < frame.deviceUs) :
    Paced (frames ++ [frame]) := by
  obtain ⟨offset, hClock, hGlobal⟩ := hLast.shifted
  have hSame (f : Frame) (hf : f ∈ frames) : f.globalUs = f.deviceUs + offset := by
    obtain ⟨offset', hClock', hGlobal'⟩ := (hPassed f hf).shifted
    cases hClock.symm.trans hClock'
    exact hGlobal'
  refine ⟨List.pairwise_append.mpr ⟨h.rises, List.pairwise_singleton _ _, ?_⟩, offset, ?_⟩
  · intro f hf g hg
    obtain rfl := List.mem_singleton.mp hg
    obtain ⟨hSequence, hDevice⟩ := hLater f hf
    refine ⟨hSequence, hDevice, ?_⟩
    rw [hSame f hf, hGlobal]
    exact Nat.add_lt_add_right hDevice offset
  · exact List.forall_mem_append.mpr ⟨hSame, List.forall_mem_singleton.mpr hGlobal⟩

namespace Stream

/-- What is still to come of this stream comes after the frame. -/
structure IsPast (s : Stream) (frame : Frame) : Prop where
  passed : s.pipeline.Passed frame
  numbered : ∀ a ∈ s.assembler, frame.sequence < a.sequence

/-- From `s` to `s'` the stream has perhaps become inactive, but it has not moved on. -/
structure Bides (s s' : Stream) : Prop where
  activation : s'.control.activation = s.control.activation
  active : s'.control.state.isActive = true → s.control.state.isActive = true
  passed : s'.control.state.isActive = true →
    ∀ frame, s.pipeline.Passed frame → s'.pipeline.Passed frame
  assembler : s'.control.state.isActive = true → ∀ a ∈ s'.assembler, a ∈ s.assembler

namespace Bides

variable {s s' : Stream} {frame : Frame}

theorem isPast (h : s.Bides s') (hActive : s'.control.state.isActive = true)
    (hPast : s.IsPast frame) : s'.IsPast frame where
  passed := h.passed hActive frame hPast.passed
  numbered a ha := hPast.numbered a (h.assembler hActive a ha)

theorem isCurrent (h : s.Bides s') {n : Nat} (hCurrent : s'.control.isCurrent n = true) :
    s.control.isCurrent n = true := by
  obtain ⟨hSame, hActive⟩ := of_decide_eq_true hCurrent
  exact decide_eq_true ⟨h.activation.symm.trans hSame, h.active hActive⟩

end Bides

end Stream

theorem Action.bides_of_perform {action : Action} {me : ThreadId} {last : Except Error Unit}
    {s : Stream} {e : Effect} (hAction : action.stirs = false)
    (h : action.perform me last s = some e) : s.Bides e.stream := by
  have hPlain : action.renews = false ∧ action.stages = false ∧ action.isInstall = false ∧
      action.isIngest = false := by
    cases action <;> first | exact ⟨rfl, rfl, rfl, rfl⟩ | cases hAction
  obtain ⟨hRenews, hStages, hInstall, hIngest⟩ := hPlain
  obtain ⟨hActivation, hActive⟩ := lapses_of_perform hRenews h
  refine ⟨hActivation, hActive, fun _ frame hPassed => ?_, fun _ =>
    mem_assembler_of_perform hInstall hIngest h⟩
  rwa [pipeline_of_perform hStages h]

/-! ### The frame on its way -/

/-- What is known of a frame on its way, where `frames` came before it in the activation. A frame
that is no longer current will not be handed over, unless it is at the consumer's door. -/
def Action.Due (frames : List Frame) (s : Stream) : Action → Prop
  | deliver n frame | process n _ _ frame => s.control.isCurrent n = true →
    (∀ f ∈ frames, f.sequence < frame.sequence) ∧ ∀ a ∈ s.assembler, frame.sequence < a.sequence
  | confirm n _ _ frame => s.control.isCurrent n = true → Paced (frames ++ [frame]) ∧ s.IsPast frame
  | consume _ _ frame =>
    Paced (frames ++ [frame]) ∧ (s.control.state.isActive = true → s.IsPast frame)
  | _ => True

/-- There is one frame on its way at most, and nothing but stops and locks comes before it. -/
def Bears (frames : List Frame) (s : Stream) : List Action → Prop
  | [] => True
  | action :: rest =>
    action.Due frames s ∧ (rest.any Action.bearsFrame = true → action.isWait = true) ∧
      Bears frames s rest

theorem Action.due_of_not_bearsFrame {action : Action} (h : action.bearsFrame = false)
    (frames : List Frame) (s : Stream) : action.Due frames s := by
  cases action <;> trivial

theorem Action.Due.bides {action : Action} {frames : List Frame} {s s' : Stream}
    (h : action.Due frames s) (hBides : s.Bides s') : action.Due frames s' := by
  cases action
  case deliver | process =>
    intro hCurrent
    have hActive := (of_decide_eq_true hCurrent).2
    obtain ⟨hBefore, hNext⟩ := h (hBides.isCurrent hCurrent)
    exact ⟨hBefore, fun a ha => hNext a (hBides.assembler hActive a ha)⟩
  case confirm =>
    intro hCurrent
    obtain ⟨hPaced, hPast⟩ := h (hBides.isCurrent hCurrent)
    exact ⟨hPaced, hBides.isPast (of_decide_eq_true hCurrent).2 hPast⟩
  case consume =>
    exact ⟨h.1, fun hActive => hBides.isPast hActive (h.2 (hBides.active hActive))⟩
  all_goals exact trivial

namespace Bears

variable {frames : List Frame} {s s' : Stream} {agenda l rest : List Action}

theorem of_plain (h : agenda.any Action.bearsFrame = false) : Bears frames s agenda := by
  induction agenda with
  | nil => trivial
  | cons action rest ih =>
    rw [List.any_cons, Bool.or_eq_false_iff] at h
    refine ⟨action.due_of_not_bearsFrame h.1 frames s, fun hRest => ?_, ih h.2⟩
    cases h.2.symm.trans hRest

theorem bides (h : Bears frames s agenda) (hBides : s.Bides s') : Bears frames s' agenda := by
  induction agenda with
  | nil => trivial
  | cons action rest ih => exact ⟨h.1.bides hBides, h.2.1, ih h.2.2⟩

theorem append_wait (h : Bears frames s rest) (hWait : ∀ x ∈ l, x.isWait = true) :
    Bears frames s (l ++ rest) := by
  induction l with
  | nil => exact h
  | cons x l ih =>
    have hOwn := hWait x List.mem_cons_self
    exact ⟨x.due_of_not_bearsFrame (Action.bearsFrame_of_isWait hOwn) frames s, fun _ => hOwn,
      ih fun y hy => hWait y (List.mem_cons_of_mem _ hy)⟩

theorem append_plain (h : Bears frames s l) (hRest : rest.any Action.bearsFrame = false) :
    Bears frames s (l ++ rest) := by
  induction l with
  | nil => exact of_plain hRest
  | cons x l ih =>
    obtain ⟨hDue, hFirst, hLater⟩ := h
    refine ⟨hDue, fun (hBears : (l ++ rest).any Action.bearsFrame = true) => hFirst ?_, ih hLater⟩
    rwa [List.any_append, hRest, Bool.or_false] at hBears

/-- A frame on its way, and what may come before it. -/
theorem singleton {action : Action} (h : action.Due frames s) : Bears frames s [action] :=
  ⟨h, nofun, trivial⟩

end Bears

namespace Stream

variable {s : Stream} {frames : List Frame} {frame : Frame} {activation : Nat} {profile : Profile}
  {consumer : ConsumerId}

/-- The assembler goes on to the next number with every frame. -/
theorem bears_ingest (packet : List UInt8)
    (hPast : s.control.state.isActive = true → ∀ f ∈ frames, s.IsPast f) :
    Bears frames (s.ingest activation packet).stream (s.ingest activation packet).next ∧
      ∀ f, s.IsPast f → (s.ingest activation packet).stream.IsPast f := by
  rw [ingest]
  cases hAssembler : s.assembler with
  | none => exact ⟨trivial, fun _ => id⟩
  | some a =>
    have hSequence := Assembler.sequence_ingest a s.now packet
    have hKept (f : Frame) (hf : s.IsPast f) : f.sequence < (a.ingest s.now packet).1.sequence :=
      Nat.lt_of_lt_of_le (hf.numbered a hAssembler) (hSequence ▸ Nat.le_add_right _ _)
    dsimp only
    cases hFrame : (a.ingest s.now packet).2.frame? with
    | none =>
      refine ⟨trivial, fun f hf => ⟨hf.passed, fun b hb => ?_⟩⟩
      obtain rfl := Option.some.inj hb
      exact hKept f hf
    | some frame =>
      obtain ⟨p, data, _, hParts⟩ := Assembler.frame?_ingest hFrame
      rw [hFrame] at hSequence
      have hOwn : frame.sequence = a.sequence := by rw [hParts]
      have hDue : (Action.deliver activation frame).Due frames
          ({ s with assembler := some (a.ingest s.now packet).1 }.log
            (a.ingest s.now packet).2.log) := by
        intro hCurrent
        refine ⟨fun f hf => ?_, fun b hb => ?_⟩
        · rw [hOwn]
          exact (hPast (of_decide_eq_true hCurrent).2 f hf).numbered a hAssembler
        · obtain rfl := Option.some.inj hb
          rw [hOwn, hSequence]
          exact Nat.lt_succ_self _
      refine ⟨?_, fun f hf => ⟨hf.passed, fun b hb => ?_⟩⟩
      · have hRelease : List.any [.release .delivery] Action.bearsFrame = false := rfl
        exact ((Bears.singleton hDue).append_plain hRelease).append_wait (l := [.acquire .delivery])
          (List.forall_mem_singleton.mpr rfl)
      · obtain rfl := Option.some.inj hb
        exact hKept f hf

/-- A frame that passes the stages comes after all that were handed over in its activation. -/
theorem bears_process (hStandard : s.pipeline.IsStandard)
    (h : (Action.process activation profile consumer frame).Due frames s)
    (hPast : s.control.state.isActive = true → ∀ f ∈ frames, s.IsPast f) (hPaced : Paced frames) :
    s.pipeline.Keeps (s.process activation profile consumer frame).stream.pipeline ∧
      Bears frames (s.process activation profile consumer frame).stream
        (s.process activation profile consumer frame).next := by
  have hRun := Pipeline.run_of_isStandard profile frame hStandard (s.wall s.now) s.device.syncMode
  rw [process]
  generalize s.pipeline.run (s.wall s.now) s.device.syncMode profile frame = run at hRun
  obtain ⟨p, verdict⟩ := run
  have hConfirm (a : Frame) (ha : s.pipeline.Succeeds frame p a) :
      (Action.confirm activation profile consumer a).Due frames { s with pipeline := p } := by
    intro hCurrent
    have hBefore := hPast (of_decide_eq_true hCurrent).2
    obtain ⟨hNumber, hNext⟩ := h hCurrent
    refine ⟨hPaced.concat (fun f hf => hRun.keeps.passed f (hBefore f hf).passed) ha.passed
      fun f hf => ⟨?_, ha.later f (hBefore f hf).passed⟩, ha.passed, fun b hb => ?_⟩
    · rw [ha.sequence]
      exact hNumber f hf
    · rw [ha.sequence]
      exact hNext b hb
  have hStop (l : List Action) (hl : ∀ x ∈ l, x.isWait = true) (a : Frame)
      (ha : s.pipeline.Succeeds frame p a) : Bears frames { s with pipeline := p }
        (l ++ [.release .pipeline, .confirm activation profile consumer a]) :=
    Bears.append_wait (Bears.append_wait (.singleton (hConfirm a ha)) (l := [.release .pipeline])
      (List.forall_mem_singleton.mpr rfl)) hl
  cases verdict with
  | error e =>
    exact ⟨hRun.keeps, Bears.append_wait (.singleton trivial) (l := [.release .pipeline])
      (List.forall_mem_singleton.mpr rfl)⟩
  | ok processed =>
    cases processed with
    | swallow => exact ⟨hRun.keeps, .of_plain rfl⟩
    | keep a => exact ⟨hRun.keeps, hStop [] (List.forall_mem_nil _) a (hRun.post _ rfl a rfl)⟩
    | stopThen a =>
      refine ⟨hRun.keeps, hStop _ (fun x hx => ?_) a (hRun.post _ rfl a rfl)⟩
      rw [request] at hx
      split at hx
      · cases hx
      · obtain rfl := List.mem_singleton.mp hx
        rfl

theorem bears_deliver (h : (Action.deliver activation frame).Due frames s) :
    Bears frames (s.deliver activation frame).stream (s.deliver activation frame).next := by
  rw [deliver]
  split
  next profile consumer _ _ _ =>
    have hProcess : (Action.process activation profile consumer frame).Due frames s := h
    exact (Bears.singleton hProcess).append_wait (l := [.acquire .pipeline])
      (List.forall_mem_singleton.mpr rfl)
  · trivial

theorem bears_confirm (h : (Action.confirm activation profile consumer frame).Due frames s) :
    Bears frames (s.confirm activation profile consumer frame).stream
      (s.confirm activation profile consumer frame).next := by
  rw [confirm]
  split
  next hCurrent =>
    obtain ⟨hPaced, hPast⟩ := h hCurrent
    refine Bears.append_wait (.singleton ⟨hPaced, fun _ => ⟨hPast.passed, hPast.numbered⟩⟩) ?_
    exact fun x hx => Action.isWait_of_isStop (Action.isStop_of_mem_tellAll hx)
  · trivial

/-- A frame that is handed over is no longer on its way. -/
theorem bearsFrame_consume :
    (s.consume profile consumer frame).next.any Action.bearsFrame = false := by
  simp only [consume]
  split
  · exact bearsFrame_request _ (bearsFrame_errands profile consumer _)
  · rfl

end Stream

end LidarSweep

import LidarSweep.Stream.Machine

/-!
# What an action leaves alone

Threads work together on seven parts of a stream: its geometry table, its source, its control block,
its assembler, its stages, its locks and what its listeners heard. Most actions change one of them
or none, and the others are after it what they were before (`Action.same_of_perform`). So whoever
follows one part through a run needs to look at few kinds of action.
-/

namespace LidarSweep

/-- A part of a stream that threads work on together. -/
inductive Part where
  | table | source | control | assembler | pipeline | locks | heard
  deriving DecidableEq

/-- The part is the same in both streams. -/
def Part.Same (s s' : Stream) : Part → Prop
  | table => s'.table = s.table
  | source => s'.source = s.source
  | control => s'.control = s.control
  | assembler => s'.assembler = s.assembler
  | pipeline => s'.pipeline = s.pipeline
  | locks => s'.locks = s.locks
  | heard => s'.journal.heard = s.journal.heard

theorem Part.same_of_eq {s s' : Stream} (h : s' = s) (part : Part) : part.Same s s' := by
  subst h
  cases part <;> rfl

/-- Whether the action may change the part. -/
def Action.touches : Action → Part → Bool
  | checkStart _ _, .table => true
  | openSource _, .source | closeSource _, .source => true
  | activate _ _, .control | revert _, .control | halt _, .control | beginHalt _, .control
  | settle _ _, .control | shutDown, .control | tell _ _ _, .control | deliver _ _, .control
  | confirm _ _ _ _, .control | dropFrame _, .control | configure _, .control
  | beginRestart _ _ _, .control | checkPending _ _ _ _ _, .control
  | endRestart _ _ _ _ _, .control => true
  | install _ _, .assembler | uninstall, .assembler | retire, .assembler
  | ingest _ _, .assembler => true
  | resetPipeline _, .pipeline | process _ _ _ _, .pipeline => true
  | acquire _, .locks | release _, .locks | halt _, .locks => true
  | tell _ _ _, .heard | hearStopped, .heard => true
  | _, _ => false

namespace Stream

variable (s : Stream)

theorem stream_play {activation index dueNs : Nat} {e : Effect}
    (h : s.play? activation index dueNs = some e) : e.stream = s := by
  unfold play? at h
  split at h
  · cases h
    rfl
  · split at h
    · cases h
    · split at h
      · cases h
        rfl
      · split at h
        · cases h
          rfl
        · cases h
          rfl

theorem stream_awaitWake {budget : Budget} {wakes : Nat} {e : Effect}
    (h : s.awaitWake? budget wakes = some e) : e.stream = s := by
  unfold awaitWake? at h
  split at h
  · cases h
  · cases h
    rfl

theorem stream_awaitFrame {budget : Budget} {vigil : Vigil} {e : Effect}
    (h : s.awaitFrame? budget vigil = some e) : e.stream = s := by
  unfold awaitFrame? at h
  split at h
  · cases h
    rfl
  · split at h
    · cases h
    · cases h
      rfl

/-- A halt waits for the restart lock, or leaves the matter to another out of a delivery. -/
theorem halt_cases {me : ThreadId} {ending : Ending} {e : Effect}
    (h : s.halt? me ending = some e) :
    (∃ locks, s.locks.acquire? .restart me = some locks ∧
      e = { stream := { s with locks }, next := [.beginHalt ending, .release .restart] }) ∨
    s.locks.isHeldBy .delivery me = true ∧
      (s.control.state = ending.state ∧ e = { stream := s, result := some (.ok ()) } ∨
        s.control.state = .stopping ∧
          e = {
            stream := { s with control := { s.control with stopPending := true } }
            result := some (.ok ()) }) := by
  unfold halt? at h
  dsimp only at h
  split at h
  case isTrue hDelivery =>
    split at h
    case isTrue hEnded =>
      cases h
      exact .inr ⟨hDelivery, .inl ⟨hEnded, rfl⟩⟩
    case isFalse =>
      split at h
      case isTrue hStopping =>
        cases h
        exact .inr ⟨hDelivery, .inr ⟨hStopping, rfl⟩⟩
      case isFalse =>
        obtain ⟨locks, hAcquire, rfl⟩ := Option.map_eq_some_iff.mp h
        exact .inl ⟨locks, hAcquire, rfl⟩
  case isFalse =>
    obtain ⟨locks, hAcquire, rfl⟩ := Option.map_eq_some_iff.mp h
    exact .inl ⟨locks, hAcquire, rfl⟩

/-- Telling a listener changes what listeners are, what they heard and the log, and at most has the
stream stopped. -/
theorem tell_eq (listener : Nat) (state : StreamState) (profile : Option Profile) :
    ∃ listeners heard log next,
      s.tell listener state profile = {
        stream := { s with
          control := { s.control with listeners }
          journal := { s.journal with heard, log } }
        next } ∧
      listeners.length = s.control.listeners.length ∧
      (next = [] ∨ next = s.request (Action.stop ++ [.hearStopped])) := by
  unfold tell
  cases s.control.listeners[listener]? with
  | none => exact ⟨_, _, _, [], rfl, rfl, .inl rfl⟩
  | some l =>
    dsimp only
    rcases l.hear state with ⟨l', reaction⟩
    have hLength : (s.control.listeners.set listener l').length = s.control.listeners.length :=
      List.length_set
    cases l.keeps
    all_goals
      rcases reaction with _ | _ | _ | reason
      case none | some.note | some.panic => exact ⟨_, _, _, [], rfl, hLength, .inl rfl⟩
      case some.stop => exact ⟨_, _, _, _, rfl, hLength, .inr rfl⟩

end Stream

/-- **An action changes nothing but what it touches.** -/
theorem Action.same_of_perform {action : Action} {me : ThreadId} {last : Except Error Unit}
    {s : Stream} {e : Effect} (part : Part) (hPart : action.touches part = false)
    (h : action.perform me last s = some e) : part.Same s e.stream := by
  cases action
  case play => exact Part.same_of_eq (s.stream_play h) part
  case awaitWake => exact Part.same_of_eq (s.stream_awaitWake h) part
  case awaitFrame => exact Part.same_of_eq (s.stream_awaitFrame h) part
  case acquire lock =>
    obtain ⟨locks, _, rfl⟩ := Option.map_eq_some_iff.mp h
    cases part <;> first | rfl | cases hPart
  case await ready deadline =>
    rw [perform] at h
    split at h
    · cases h
      exact Part.same_of_eq rfl part
    · cases h
  case halt ending =>
    rcases s.halt_cases h with ⟨locks, _, rfl⟩ | ⟨_, ⟨_, rfl⟩ | ⟨_, rfl⟩⟩ <;>
      cases part <;> first | rfl | cases hPart
  case tell listener state profile =>
    cases h
    obtain ⟨_, _, _, _, hTell, _, _⟩ := s.tell_eq listener state profile
    rw [hTell]
    cases part <;> first | rfl | cases hPart
  case checkStart profile consumer =>
    cases h
    unfold Stream.checkStart
    rcases s.admission profile with ⟨verdict, table⟩
    cases verdict <;> cases part <;> first | rfl | cases hPart
  case openSource activation =>
    cases h
    unfold Stream.openSource
    rcases s.source.start activation with ⟨source, result⟩
    cases result <;> cases part <;> first | rfl | cases hPart
  case closeSource ending =>
    cases h
    unfold Stream.closeSource
    rcases s.source.stop with ⟨source, result⟩
    cases result <;> cases part <;> first | rfl | cases hPart
  case conclude ending result =>
    cases h
    cases ending <;> cases part <;> rfl
  case reportHalt =>
    cases h
    cases last <;> cases part <;> rfl
  case ingest | watch =>
    cases h
    dsimp only [Stream.ingest, Stream.watch]
    split
    · cases part <;> rfl
    · split <;> cases part <;> first | rfl | cases hPart
  case dropFrame cause =>
    cases h
    dsimp only [Stream.dropFrame]
    split <;> split <;> cases part <;> first | rfl | cases hPart
  case beginRestart budget vigil limit =>
    cases h
    dsimp only [Stream.beginRestart]
    split
    · exact Part.same_of_eq rfl part
    · split <;> cases part <;> first | rfl | cases hPart
  case checkPending =>
    cases h
    cases last
    all_goals
      dsimp only [Stream.checkPending]
      split <;> cases part <;> first | rfl | cases hPart
  case endRestart =>
    cases h
    cases last <;> cases part <;> first | rfl | cases hPart
  case beginHalt | offer | deliver | process | confirm | consume | employ | stall | reckon =>
    cases h
    dsimp only [Stream.beginHalt, Stream.offer, Stream.deliver, Stream.process, Stream.confirm,
      Stream.consume, Stream.employ, Stream.stall, Stream.reckon]
    split <;> cases part <;> first | rfl | cases hPart
  -- What is left writes its fields without looking at anything.
  all_goals
    cases h
    cases part <;> first | rfl | cases hPart

theorem Action.control_of_perform {action : Action} {me : ThreadId} {last : Except Error Unit}
    {s : Stream} {e : Effect} (hControl : action.touches .control = false)
    (h : action.perform me last s = some e) : e.stream.control = s.control :=
  same_of_perform .control hControl h

end LidarSweep

import LidarSweep.Proofs.Machine.Effort
import LidarSweep.Proofs.Machine.Muted
import LidarSweep.Proofs.Machine.Uncounted
import LidarSweep.Proofs.Stream.Standing

/-!
# Starting afresh

A stream that can be started may have been started, stopped, refused or given up before; a start
sees nothing of that. On a stream that was never started (`Stream.unstarted`) it would be turned
down for the same reason, or be admitted and leave behind the same but for numbers and counts
(`Machine.Repeats`). So a start that was refused is as if it had not been, whatever refused it
(`Machine.refused_start`).

A listener that stops the stream when it is told that it starts gets in between. What it is told
then is another matter (`Machine.refused_start_curtailed`).
-/

namespace LidarSweep

/-- The stages before a first start. Parts supplied from outside are what they are. -/
def Pipeline.unused (p : Pipeline) : Pipeline :=
  { p with
    deviceTiming :=
      match p.deviceTiming with
      | .receipt _ => .receipt {}
      | .supplied stage => .supplied stage
    globalTiming :=
      match p.globalTiming with
      | .host _ => .host {}
      | .supplied stage => .supplied stage
    gaps := p.gaps.map fun gaps => .new gaps.maxPeriods }

theorem Pipeline.reset_unused (p : Pipeline) (now : Nat) (rate : ScanRate) :
    p.unused.reset now rate = p.reset now rate := by
  obtain ⟨keys, deviceTiming, globalTiming, gaps, recorder, processor⟩ := p
  cases deviceTiming <;> cases globalTiming <;> cases gaps <;> rfl

namespace Stream

variable {s u : Stream}

/-- A stream that was never started, where this one is. -/
def unstarted (s : Stream) : Stream :=
  { s with
    source := { s.source with receiver := none, starts := 0 }
    control := {
      recovery := s.control.recovery
      shutdown := s.control.shutdown
      listeners := s.control.listeners }
    assembler := none
    lastStats := {}
    pipeline := s.pipeline.unused }

/-- As configured, a stream was never started. -/
theorem unstarted_new (streamType : StreamType) (device : Device) (table : GeometryTable)
    (config : Config) :
    (Stream.new streamType device table config).unstarted =
      .new streamType device table config := by
  unfold unstarted Pipeline.unused Stream.new
  dsimp only
  split <;> rfl

/-- Two streams that a start finds the same, and between which it leaves nothing different but what
counts on. -/
structure AlikeAtStart (s u : Stream) : Prop where
  admission : ∀ profile, u.admission profile = s.admission profile
  activate : ∀ profile consumer g table locks,
    (({ u with table }.prepared profile g locks).activate profile consumer).uncounted =
      (({ s with table }.prepared profile g locks).activate profile consumer).uncounted

theorem AlikeAtStart.symm (h : s.AlikeAtStart u) : u.AlikeAtStart s where
  admission profile := (h.admission profile).symm
  activate profile consumer g table locks := (h.activate profile consumer g table locks).symm

/-- **A start does not see what was before**, wherever it can begin. -/
theorem alikeAtStart_unstarted (hStart : s.control.canStart = true)
    (hReceiver : s.source.receiver = none) (hLoud : s.control.quiet = false) :
    s.AlikeAtStart s.unstarted where
  admission profile := by
    unfold Stream.admission
    rw [hStart, show s.unstarted.control.canStart = true from rfl]
    rfl
  activate profile consumer g table locks := by
    have hChange := Control.ne_starting_of_canStart hStart
    have hPipeline := s.pipeline.reset_unused s.now profile.rate
    dsimp only [Stream.activate, Control.transition, prepared, unstarted]
    rw [if_neg hChange, if_neg (by decide), hPipeline]
    dsimp only [Effect.uncounted, uncounted, Control.uncounted, Control.wake]
    rw [hReceiver, hLoud, List.map_append, List.map_append]
    rfl

end Stream

namespace Machine

variable {m : Machine} {i : ThreadId} {s u : Stream}

/-- What thread `i` does in one go from `m` on, it does from `m'` on too: it ends alike, listeners
are told the same, and either both streams are left as they were, or nothing is different any more
but what counts on. -/
def Repeats (i : ThreadId) (rest : List Action) (m m' : Machine) : Prop :=
  ∀ events b, OneGo i rest m events b → ∃ events' b', OneGo i rest m' events' b' ∧
    b'.last i = b.last i ∧ (∀ l, told l events' = told l events) ∧
    (b.stream = m.stream ∧ b'.stream = m'.stream ∨ b'.uncounted = b.uncounted)

variable {rest : List Action} {profile : Profile} {consumer : ConsumerId}
  {last : Except Error Unit} {taken : Nat} {events : List Event} {b : Machine}

/-- From where a start activates, it goes the same way in streams between which its activation
leaves nothing different but what counts on. -/
theorem OneGo.activate_alike (hThere : i < m.threads.length)
    (hEffect : (u.activate profile consumer).uncounted = (s.activate profile consumer).uncounted)
    (h : OneGo i rest
      (m.seat i ⟨[.activate profile consumer, .release .restart] ++ rest, last, taken⟩ s)
      events b) :
    ∃ events' b', OneGo i rest
        (m.seat i ⟨[.activate profile consumer, .release .restart] ++ rest, last, taken⟩ u)
        events' b' ∧
      b'.uncounted = b.uncounted ∧
      events'.map (·.action.unnumbered) = events.map (·.action.unnumbered) := by
  let active (s : Stream) : Machine := m.seat i
    ⟨(s.activate profile consumer).next ++ ([.release .restart] ++ rest), last, taken⟩
    (s.activate profile consumer).stream
  have hActivate (s : Stream) : Reaches i rest
      (m.seat i ⟨.activate profile consumer :: ([.release .restart] ++ rest), last, taken⟩ s)
      [.activate profile consumer] (active s) := .act hThere rfl rfl
  obtain ⟨first, hFirst, hIff⟩ := hActivate s
  obtain ⟨first', hFirst', hIff'⟩ := hActivate u
  obtain ⟨later, rfl, hLater⟩ := (hIff events b).mp h
  have hAlike : (active u).uncounted = (active s).uncounted := by
    have hNext : (u.activate profile consumer).next.map Action.unnumbered =
        (s.activate profile consumer).next.map Action.unnumbered := congrArg Effect.next hEffect
    have hStream : (u.activate profile consumer).stream.uncounted =
        (s.activate profile consumer).stream.uncounted := congrArg Effect.stream hEffect
    simp only [active, uncounted_seat, Thread.unnumbered, List.map_append, hNext, hStream]
  have hLate : ∀ x ∈ (s.activate profile consumer).next ++ [.release .restart],
      x.isLate = true := by
    refine List.forall_mem_append.mpr ⟨List.forall_mem_append.mpr ⟨fun _ hx => ?_, ?_⟩, ?_⟩
    · exact Action.isLate_of_mem_tellAll hx
    · simp [Action.isLate]
    · simp [Action.isLate]
  obtain ⟨later', b', hLater', hEnd, hSame⟩ := hLater.alike hAlike
    (by rw [agenda_seat hThere, List.append_assoc])
    (by rw [agenda_seat hThere, ← List.append_assoc]) hLate
  have hActed {first : List Event} (hFirst : first.map (·.action) = [.activate profile consumer]) :
      first.map (·.action.unnumbered) = [.activate profile consumer] :=
    List.map_map.symm.trans (congrArg (List.map Action.unnumbered) hFirst)
  refine ⟨first' ++ later', b', (hIff' _ _).mpr ⟨later', rfl, hLater'⟩, hEnd, ?_⟩
  rw [List.map_append, List.map_append, hActed hFirst, hActed hFirst', hSame]

/-- A start that is turned down in both streams. -/
theorem repeats_of_error (hThere : i < m.threads.length) (hOpen : s.locks.IsOpen .restart i)
    (hLocks : u.locks = s.locks) {e : Error} (hError : (s.admission profile).1 = .error e)
    (hSame : u.admission profile = s.admission profile) :
    Repeats i rest (m.seat i ⟨Action.start profile consumer ++ rest, last, taken⟩ s)
      (m.seat i ⟨Action.start profile consumer ++ rest, last, taken⟩ u) := by
  have hDown {s : Stream} (hOpen : s.locks.IsOpen .restart i)
      (hError : (s.admission profile).1 = .error e) :=
    (Reaches.turned_down hThere hOpen (Prod.ext hError (Stream.admission_snd hError)) consumer rest
      last taken).oneGo (agenda_seat hThere _ _)
  obtain ⟨first, hFirst, hGo⟩ := hDown hOpen hError
  obtain ⟨first', hFirst', hGo'⟩ := hDown (hLocks ▸ hOpen) (hSame ▸ hError)
  intro events b hGoes
  obtain ⟨rfl, rfl⟩ := hGo.unique hGoes
  refine ⟨first', _, hGo', ?_, fun l => ?_, .inl ⟨rfl, rfl⟩⟩
  · rw [last_seat hThere, last_seat hThere]
  · rw [← news_map_action, ← news_map_action, hFirst, hFirst']

/-- A start that is admitted to both streams. -/
theorem repeats_of_ok (hThere : i < m.threads.length) {restart : Locks}
    (hRestart : s.locks.acquire? .restart i = some restart) (hLocks : u.locks = s.locks)
    (hAlike : s.AlikeAtStart u) {g : Geometry} {table : GeometryTable}
    (hAdmission : s.admission profile = (.ok g, table)) :
    Repeats i rest (m.seat i ⟨Action.start profile consumer ++ rest, last, taken⟩ s)
      (m.seat i ⟨Action.start profile consumer ++ rest, last, taken⟩ u) := by
  intro events b hGo
  have hEnter := Reaches.admit hThere hRestart hAdmission consumer rest last taken
  cases hPipeline : restart.acquire? .pipeline i with
  | none =>
    -- The stages are at work, and neither start gets past them in one go.
    obtain ⟨_, _, hIff⟩ := hEnter
    obtain ⟨_, _, hWaits⟩ := (hIff events b).mp hGo
    refine absurd hWaits (not_oneGo hThere [.resetPipeline profile.rate, .release .pipeline,
      .install g profile.format, .activate profile consumer, .release .restart] ?_)
    rw [Action.perform, hPipeline]
    rfl
  | some pipeline =>
    have hPrepare (s : Stream) (hPipeline : s.locks.acquire? .pipeline i = some pipeline) :=
      Reaches.prepare (m := m) hThere hPipeline profile consumer g rest last taken
    have hEnter' := Reaches.admit hThere (hLocks ▸ hRestart)
      ((hAlike.admission profile).trans hAdmission) consumer rest last taken
    obtain ⟨first, hFirst, hIff⟩ := hEnter.trans (hPrepare _ hPipeline)
    obtain ⟨first', hFirst', hIff'⟩ := hEnter'.trans (hPrepare _ hPipeline)
    obtain ⟨later, rfl, hLater⟩ := (hIff events b).mp hGo
    obtain ⟨later', b', hLater', hEnd, hSame⟩ :=
      hLater.activate_alike hThere (hAlike.activate profile consumer g table _)
    refine ⟨_, b', (hIff' _ b').mpr ⟨later', rfl, hLater'⟩, ?_, fun l => ?_, .inr hEnd⟩
    · rw [← last_uncounted, hEnd, last_uncounted]
    · rw [told_append, told_append, told_of_unnumbered hSame, ← news_map_action l first,
        ← news_map_action l first', hFirst, hFirst']

/-- A start that finds two streams the same repeats in one what it does in the other. -/
theorem repeats_of_alikeAtStart (hThere : i < m.threads.length) (hFirm : s.locks.IsFirm .restart)
    (hLocks : u.locks = s.locks) (hAlike : s.locks.IsOpen .restart i → s.AlikeAtStart u) :
    Repeats i rest (m.seat i ⟨Action.start profile consumer ++ rest, last, taken⟩ s)
      (m.seat i ⟨Action.start profile consumer ++ rest, last, taken⟩ u) := by
  cases hRestart : s.locks.acquire? .restart i with
  | none =>
    intro events b hWaits
    refine absurd hWaits (not_oneGo hThere [.checkStart profile consumer, .release .restart] ?_)
    rw [Action.perform, hRestart]
    rfl
  | some restart =>
    have hOpen : s.locks.IsOpen .restart i := hFirm.isOpen hRestart
    rcases hAdmission : s.admission profile with ⟨e | g, table⟩
    · exact repeats_of_error hThere hOpen hLocks (congrArg Prod.fst hAdmission)
        ((hAlike hOpen).admission profile)
    · exact repeats_of_ok hThere hRestart hLocks (hAlike hOpen) hAdmission

/-- The machine as it would be had its stream never been started. -/
def afresh (m : Machine) : Machine := { m with stream := m.stream.unstarted }

variable {m₀ a : Machine} {past : List Event}

theorem not_isRenewal_of_start (hCaller : ∀ x ∈ rest, x.isRenewal = false) :
    ∀ x ∈ Action.start profile consumer ++ rest, x.isRenewal = false :=
  List.forall_mem_append.mpr ⟨by simp [Action.start, Action.isRenewal], hCaller⟩

/-- A caller that may start the stream finds no restart under way, so listeners are told. -/
theorem Fresh.loud_of_isOpen (h : m₀.Fresh) (hIdle : m₀.stream.source.receiver = none)
    (hLoud : m₀.stream.control.quiet = false) (hPath : Path m₀ events m)
    (hOpen : m.stream.locks.IsOpen .restart i) (hCaller : ∀ x ∈ m.agenda i, x.isRenewal = false) :
    m.stream.control.quiet = false := by
  have hMuted : m₀.Muted := fun hQuiet => by cases hLoud.symm.trans hQuiet
  have hLocked := ((h.regular hIdle).of_path hPath).toLocked
  exact (hMuted.of_path hPath).quiet_of_isOpen hLocked hOpen hCaller

/-- **Where a stream can be started and its source is idle, a caller's start goes as on a stream
that was never started.** -/
theorem Fresh.repeats_afresh (h : m₀.Fresh) (hIdle : m₀.stream.source.receiver = none)
    (hLoud : m₀.stream.control.quiet = false) (hPath : Path m₀ events m)
    (hAgenda : m.agenda i = Action.start profile consumer ++ rest)
    (hCaller : ∀ x ∈ rest, x.isRenewal = false) (hStart : m.stream.control.canStart = true)
    (hReceiver : m.stream.source.receiver = none) :
    Repeats i rest m m.afresh ∧ Repeats i rest m.afresh m := by
  have hFirm := ((h.regular hIdle).of_path hPath).toLocked.firm
  have hAlike (hOpen : m.stream.locks.IsOpen .restart i) :
      m.stream.AlikeAtStart m.stream.unstarted :=
    Stream.alikeAtStart_unstarted hStart hReceiver
      (h.loud_of_isOpen hIdle hLoud hPath hOpen (hAgenda ▸ not_isRenewal_of_start hCaller))
  obtain ⟨last, taken, hThere, hSeat⟩ := exists_seat hAgenda (List.cons_ne_nil _ _)
  let t : Thread := ⟨Action.start profile consumer ++ rest, last, taken⟩
  have hSeat : m.seat i t m.stream = m := hSeat
  have hSeat' : m.seat i t m.stream.unstarted = m.afresh :=
    congrArg (Machine.mk _) (congrArg Machine.threads hSeat)
  have hThen : Repeats i rest (m.seat i t m.stream) (m.seat i t m.stream.unstarted) :=
    repeats_of_alikeAtStart hThere hFirm rfl hAlike
  have hBack : Repeats i rest (m.seat i t m.stream.unstarted) (m.seat i t m.stream) :=
    repeats_of_alikeAtStart hThere hFirm rfl fun hOpen => (hAlike hOpen).symm
  rw [hSeat, hSeat'] at hThen hBack
  exact ⟨hThen, hBack⟩

/-! ### Starts that are refused -/

/-- No stop has overtaken the start of a source. -/
def NoneOvertaken (events : List Event) : Prop := ∀ k n, ¬ Overtaken events k (.openSource n)

/-- What a start comes to that began at `a` and that nothing but the source refuses, when thread `i`
is back from it at `b`.  `past` is what was before the start. -/
structure TakenBack (past : List Event) (a : Machine) (i : ThreadId) (events : List Event)
    (b : Machine) : Prop where
  last : b.last i = .error (.source .refusedToStart)
  down : b.stream.IsDown
  /-- If no listener stops the stream on being told that it starts, each is told that, and then that
  it is stopped. -/
  told : a.stream.Spared .starting → ∀ l < a.stream.control.listeners.length,
    toldBy i l events = [.starting, .stopped]
  /-- If no stop overtook an earlier start, the source is idle, -/
  idle : NoneOvertaken past → b.stream.source.receiver = none
  /-- and until a stop overtakes another start, starts go as on a stream that was never started. -/
  afresh : NoneOvertaken past → ∀ later d j profile consumer rest, Path b later d →
    NoneOvertaken later → d.agenda j = Action.start profile consumer ++ rest →
    (∀ x ∈ rest, x.isRenewal = false) → d.stream.control.canStart = true →
    Repeats j rest d d.afresh ∧ Repeats j rest d.afresh d

/-- Behind a start stands no other start that has begun, and no halt. -/
theorem Regular.clear_of_start {u : Supply} (h : m.Regular u)
    (hAgenda : m.agenda i = Action.start profile consumer ++ rest) :
    ∀ x ∈ rest, x.opens = false ∧ x.settles = false := by
  intro x hx
  obtain ⟨_, hWoven⟩ : Woven (Action.start profile consumer ++ rest) :=
    hAgenda ▸ h.interwoven.woven i
  have hBound := hWoven.not_isBound rfl (List.mem_append_right [.release .restart] hx)
  refine ⟨Bool.eq_false_iff.mpr fun hOpens => ?_, Bool.eq_false_iff.mpr fun hSettles => ?_⟩
  · cases hBound.symm.trans (Action.isBound_of_opens hOpens)
  · cases hBound.symm.trans (Action.isBound_of_settles hSettles)

/-- Where the stream can be started and no stop has overtaken a start, the source is idle. -/
theorem Heeding.receiver_eq (h : Heeding events m) (hStart : m.stream.control.canStart = true)
    (hNone : NoneOvertaken events) : m.stream.source.receiver = none := by
  cases hReceiver : m.stream.source.receiver with
  | none => rfl
  | some n =>
    obtain ⟨k, hOver⟩ := h.started (.inl hStart) n hReceiver
    exact absurd hOver (hNone k n)

/-- A start that is let in may yet be taken back. -/
theorem retreating_of_admission (hThere : i < a.threads.length)
    (hStart : a.stream.control.canStart = true) (hLoud : a.stream.control.quiet = false)
    (profile : Profile) (consumer : ConsumerId) (g : Geometry) (table : GeometryTable)
    (locks : Locks) (rest : List Action) (last : Except Error Unit) (taken : Nat) :
    Retreating a i rest [] (a.seat i ⟨Action.onset profile consumer g ++ rest, last, taken⟩
      { a.stream with table, locks }) where
  stage := by
    let pre : List Action := [.acquire .pipeline, .resetPipeline profile.rate, .release .pipeline,
      .install g profile.format]
    refine ⟨pre ++ [.activate profile consumer], [], agenda_seat hThere _ _, ?_, fun _ l _ => rfl⟩
    exact .ready hStart (by simp [pre, Action.prepares])
  spared := id
  audience := rfl
  loud := hLoud
  idle := id

/-- What a start comes to whose thread is back. -/
theorem Retreated.takenBack {first : List Event} (h : Retreated a i events b) (hFresh : m₀.Fresh)
    (hIdle : m₀.stream.source.receiver = none) (hLoud : m₀.stream.control.quiet = false)
    (hPast : Path m₀ past a) (hStart : a.stream.control.canStart = true)
    (hPath : Path a (first ++ events) b) (hFirst : ∀ l, toldBy i l first = []) :
    TakenBack past a i (first ++ events) b where
  last := h.last
  down := h.down
  told hSpared l hl := by
    rw [toldBy_append, hFirst, List.nil_append]
    exact h.told hSpared l hl
  idle hNone := h.idle ((hFresh.abiding_of_path hIdle hPast).toHeeding.receiver_eq hStart hNone)
  afresh hNone later d j profile consumer rest hLater hNoneLater hAgenda hCaller hMay := by
    have hReg := hFresh.regular hIdle
    have hReceiver :=
      h.idle ((hFresh.abiding_of_path hIdle hPast).toHeeding.receiver_eq hStart hNone)
    have hHeeding := (heeding_of_idle hReceiver h.clear).of_path hReg (hPast.trans hPath) hLater
    exact hFresh.repeats_afresh hIdle hLoud ((hPast.trans hPath).trans hLater) hAgenda hCaller hMay
      (hHeeding.receiver_eq hMay hNoneLater)

/-- **A refused start.**  A start that something stands against is turned down with the first of
these things, tells nobody, and leaves the stream as it was.  One that nothing stands against is let
in; if then the source refuses, the start is taken back, whatever others do and listeners ask for
meanwhile.  It gets through in one go where the stages are at rest, and nobody delivers a frame or
no listener stops the stream on being told of the start. -/
theorem refused_start (hFresh : m₀.Fresh) (hIdle : m₀.stream.source.receiver = none)
    (hLoud : m₀.stream.control.quiet = false) (hTable : m₀.stream.table.IsFaithful)
    (hPath : Path m₀ past a) (hAgenda : a.agenda i = Action.start profile consumer ++ rest)
    (hCaller : ∀ x ∈ rest, x.isRenewal = false) (hOpen : a.stream.locks.IsOpen .restart i) :
    (∀ e, a.stream.objection? profile = some e → ∃ events b, OneGo i rest a events b ∧
      b.last i = .error e ∧ b.stream = a.stream ∧ ∀ l, told l events = []) ∧
    (a.stream.objection? profile = none → ∃ first a', a.stride i 2 = some (first, a') ∧
      (∀ events b, Path a' events b → Returns i rest events b →
        (∀ event ∈ events, event.thread = i → ∀ n, event.action = .openSource n →
          event.before.source.refusesStart = true) →
        TakenBack past a i (first ++ events) b) ∧
      ∀ meanwhile c, Path a' meanwhile c → (∀ event ∈ meanwhile, event.thread ≠ i) →
        c.stream.source.refusesStart = true → c.stream.locks.IsOpen .pipeline i →
        (a.stream.Spared .starting ∨ c.stream.locks.IsOpen .delivery i) →
        ∃ events b, OneGo i rest c events b ∧
          TakenBack past a i (first ++ (meanwhile ++ events)) b) := by
  have hFaithful := isFaithful_of_path hTable hPath
  have hReg := hFresh.regular hIdle
  obtain ⟨last, taken, hThere, hSeat⟩ := exists_seat hAgenda (List.cons_ne_nil _ _)
  refine ⟨fun e hObjection => ?_, fun hNone => ?_⟩
  · have hDown := Reaches.turned_down hThere hOpen
      (Stream.admission_of_objection hFaithful hObjection) consumer rest last taken
    rw [hSeat] at hDown
    obtain ⟨events, hActs, hGo⟩ := hDown.oneGo (agenda_seat hThere _ _)
    refine ⟨events, _, hGo, last_seat hThere _ _, rfl, fun l => ?_⟩
    rw [← news_map_action, hActs]
    rfl
  · obtain ⟨g, table, hAdmission⟩ := Stream.admission_of_none hFaithful hNone
    obtain ⟨locks, hAcquire, _⟩ := hOpen.acquire
    obtain ⟨first, hStride, hFirst⟩ :=
      stride_start hThere hAcquire hAdmission consumer rest last taken
    rw [hSeat] at hStride
    have hEnter := Path.of_stride hStride
    have hStart := Stream.canStart_of_admission hAdmission
    have hBegun := retreating_of_admission hThere hStart
      (hFresh.loud_of_isOpen hIdle hLoud hPath hOpen (hAgenda ▸ not_isRenewal_of_start hCaller))
      profile consumer g table locks rest last taken
    have hRest := (hReg.of_path hPath).clear_of_start hAgenda
    have hBack {events : List Event} {b : Machine} (hPath' : Path _ events b)
        (hReturns : Returns i rest events b)
        (hRefuses : ∀ event ∈ events, event.thread = i → ∀ n, event.action = .openSource n →
          event.before.source.refusesStart = true) : TakenBack past a i (first ++ events) b :=
      (hReturns.retreated hReg (hPath.trans hEnter) hBegun hRest hPath' hRefuses).takenBack hFresh
        hIdle hLoud hPath hStart (hEnter.trans hPath') hFirst
    refine ⟨first, _, hStride, fun events b => hBack,
      fun meanwhile c hMeanwhile hOthers hRefuses hPipeline hDelivery => ?_⟩
    have hOn := hBegun.of_others hReg (hPath.trans hEnter) hMeanwhile hOthers
    obtain ⟨events, b, hGo, hAll⟩ := hOn.exists_oneGo hReg ((hPath.trans hEnter).trans hMeanwhile)
      hRest hRefuses hPipeline hDelivery
    refine ⟨events, b, hGo, hBack (hMeanwhile.trans hGo.path) (hGo.returns ?_ hOthers)
      fun event he hThread _ _ => ?_⟩
    · obtain ⟨front, _, hFront, _⟩ := hOn.stage
      intro hSame
      have hLength := congrArg List.length (hFront.symm.trans hSame)
      rw [List.length_append, List.length_cons] at hLength
      omega
    · rcases List.mem_append.mp he with hOther | hOwn
      · exact absurd hThread (hOthers event hOther)
      · exact hAll event hOwn

/-- A caller starts a stream with one profile after another. Its source refuses, and a listener
hears of it. -/
def refusing (l : Listener) (profiles : List Profile) : Machine :=
  begin { pairSetup.stream.addListener l with source := { refusesStart := true } }
    [profiles.map (.start · 7)]

theorem fresh_refusing (l : Listener) (profiles : List Profile) : (refusing l profiles).Fresh :=
  fresh_begin rfl rfl _

theorem isOpen_of_fresh (h : m.Fresh) (lock : Lock) (i : ThreadId) :
    m.stream.locks.IsOpen lock i :=
  Locks.isOpen_of_none (by rw [h.free])

/-- A profile of another stream. -/
def strayProfile : Profile := { pairProfile with streamType := .depth }

/-- A caller starts a stream whose source refuses, and a listener stops the stream when it is told
that it starts. -/
def refusingCurtailed : Machine := refusing { plan := [(.starting, .stop)] } [pairProfile]

theorem noneOvertaken_nil : NoneOvertaken [] := by
  rintro k n ⟨event, hEvent, _⟩
  cases hEvent

theorem refused_start_pair :
    (∃ events b, OneGo 0 [] (refusing {} [strayProfile]) events b ∧
      b.last 0 = .error (.configuration (.wrongStreamType strayProfile .lidar)) ∧
      b.stream = (refusing {} [strayProfile]).stream ∧ told 0 events = []) ∧
    (∃ first c events b, (refusing {} [pairProfile, pairProfile]).stride 0 2 = some (first, c) ∧
      OneGo 0 (Action.start pairProfile 7) c events b ∧
      b.last 0 = .error (.source .refusedToStart) ∧ b.stream.IsDown ∧
      b.stream.source.receiver = none ∧ toldBy 0 0 (first ++ events) = [.starting, .stopped] ∧
      Repeats 0 [] b b.afresh ∧ Repeats 0 [] b.afresh b) ∧
    ∃ first c events b, refusingCurtailed.stride 0 2 = some (first, c) ∧
      OneGo 0 [] c events b ∧ b.last 0 = .error (.source .refusedToStart) ∧ b.stream.IsDown := by
  refine ⟨?_, ?_, ?_⟩
  · have hAgenda : (refusing {} [strayProfile]).agenda 0 = Action.start strayProfile 7 ++ [] := rfl
    obtain ⟨hDown, _⟩ := refused_start (fresh_refusing {} [strayProfile]) rfl rfl
      (GeometryTable.isFaithful_ofRows _) .here hAgenda (List.forall_mem_nil _)
      (isOpen_of_fresh (fresh_refusing _ _) .restart 0)
    obtain ⟨events, b, hGo, hLast, hSame, hTold⟩ := hDown _ rfl
    exact ⟨events, b, hGo, hLast, hSame, hTold 0⟩
  · have hAgenda : (refusing {} [pairProfile, pairProfile]).agenda 0 =
        Action.start pairProfile 7 ++ Action.start pairProfile 7 := rfl
    obtain ⟨_, hAdmitted⟩ := refused_start (fresh_refusing {} [pairProfile, pairProfile]) rfl rfl
      (GeometryTable.isFaithful_ofRows _) .here hAgenda
      (by simp [Action.start, Action.isRenewal])
      (isOpen_of_fresh (fresh_refusing _ _) .restart 0)
    obtain ⟨first, c, hStride, _, hRefused⟩ := hAdmitted rfl
    obtain ⟨hRefuses, hPipeline⟩ : c.stream.source.refusesStart = true ∧
        c.stream.locks.holder .pipeline = none := by
      cases hStride
      exact ⟨rfl, rfl⟩
    have hSpared : (refusing {} [pairProfile, pairProfile]).stream.Spared .starting :=
      List.forall_mem_singleton.mpr (List.forall_mem_nil _)
    obtain ⟨events, b, hGo, hBack⟩ := hRefused [] c .here (List.forall_mem_nil _) hRefuses
      (Locks.isOpen_of_none hPipeline) (.inl hSpared)
    have hStart : b.stream.control.canStart = true := by
      rw [Control.canStart, hBack.down.stopped]
      rfl
    exact ⟨first, c, events, b, hStride, hGo, hBack.last, hBack.down, hBack.idle noneOvertaken_nil,
      hBack.told hSpared 0 Nat.one_pos, hBack.afresh noneOvertaken_nil [] b 0 pairProfile 7 [] .here
        noneOvertaken_nil hGo.agenda_back (List.forall_mem_nil _) hStart⟩
  · have hAgenda : refusingCurtailed.agenda 0 = Action.start pairProfile 7 ++ [] := rfl
    obtain ⟨_, hAdmitted⟩ := refused_start (fresh_refusing _ _) rfl rfl
      (GeometryTable.isFaithful_ofRows _) .here hAgenda (List.forall_mem_nil _)
      (isOpen_of_fresh (fresh_refusing _ _) .restart 0)
    obtain ⟨first, c, hStride, _, hRefused⟩ := hAdmitted rfl
    obtain ⟨hRefuses, hPipeline, hDelivery⟩ : c.stream.source.refusesStart = true ∧
        c.stream.locks.holder .pipeline = none ∧ c.stream.locks.holder .delivery = none := by
      cases hStride
      exact ⟨rfl, rfl, rfl⟩
    obtain ⟨events, b, hGo, hBack⟩ := hRefused [] c .here (List.forall_mem_nil _) hRefuses
      (Locks.isOpen_of_none hPipeline) (.inr (Locks.isOpen_of_none hDelivery))
    exact ⟨first, c, events, b, hStride, hGo, hBack.last, hBack.down⟩

/-- **What a refused start does not promise.** A listener that stops the stream when it is told that
it starts is told of the stop too, though nothing but the source is against the start. -/
theorem refused_start_curtailed :
    refusingCurtailed.Fresh ∧ refusingCurtailed.agenda 0 = Action.start pairProfile 7 ∧
      refusingCurtailed.stream.objection? pairProfile = none ∧
      refusingCurtailed.stream.source.refusesStart = true ∧
      (∃ events b, OneGo 0 [] refusingCurtailed events b ∧ (b.last 0).toBool = false ∧
        told 0 events = [.starting, .stopping, .stopped]) ∧
      ¬ ∃ events b, OneGo 0 [] refusingCurtailed events b ∧
        told 0 events = [.starting, .stopped] := by
  have hStride : ((refusingCurtailed.stride 0 25).any fun done => (done.2.agenda 0).isEmpty &&
      !(done.2.last 0).toBool && told 0 done.1 == [.starting, .stopping, .stopped]) = true := by
    decide +kernel
  obtain ⟨⟨events, b⟩, hStride, hCheck⟩ := (Option.any_eq_true _ _).mp hStride
  simp only [Bool.and_eq_true, List.isEmpty_iff, Bool.not_eq_true', beq_iff_eq] at hCheck
  obtain ⟨⟨hDone, hFails⟩, hTold⟩ := hCheck
  have hGo := OneGo.of_stride hStride hDone
  refine ⟨fresh_refusing _ _, rfl, rfl, rfl, ⟨events, b, hGo, hFails, hTold⟩, ?_⟩
  rintro ⟨events', b', hGo', hTold'⟩
  obtain ⟨rfl, rfl⟩ := hGo.unique hGo'
  cases hTold.symm.trans hTold'

end Machine

end LidarSweep

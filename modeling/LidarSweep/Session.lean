import LidarSweep.Config.Document
import LidarSweep.Session.Opening
import LidarSweep.Stream.Schedule

/-!
# Sessions

A session opens a source, starts a stream on it, and shows one frame after another, until it has
shown as many as were asked for, its time is up, or the stream has failed for good. Time is the
stream's own; an outer layer may let it pass at the pace of a real clock.
-/

namespace LidarSweep

open CommandLine (Arguments Refusal)

structure Session where
  arguments : Arguments
  machine : Machine
  /-- Frames shown -/
  shown : Nat := 0
  /-- The part of the journal that has been told -/
  told : Journal := {}
  /-- When the session is to end, in nanoseconds -/
  deadlineNs : Option Nat := none

/-- How a session ended. -/
structure Outcome where
  exitCode : Nat := 0
  cause : Option Error := none
  announcements : List Announcement := []
  /-- The records to be written, once there is a place for them -/
  recording : Option (List Record) := none

namespace Session

/-- More steps than any wait for a frame takes. -/
def patience : Nat := 1000000000

/-- The longest wait for a frame before the session looks around. -/
def pollNs : Nat := 200000000

/-- The greatest number of seconds that a clock can be ahead of now. -/
def horizon : Nat := 0x8000000000000000 - 0x100000000

/-- Time since the session began. -/
def now (s : Session) : Nat := s.machine.stream.now

/-- The records to be written so far, once there is a place for them. -/
def recording? (s : Session) : Option (List Record) := s.machine.stream.recording?

/-- What the stream has said and reported since it was last asked. -/
def news (s : Session) : Session × List Announcement :=
  let journal := s.machine.stream.journal
  let new := journal.since s.told
  let states := new.heard.filterMap fun
    | .state state profile => some (Announcement.state state profile)
    | _ => none
  ({ s with told := journal }, new.log.map Announcement.logged ++ states)

/-- Lets the caller do something, and tells what came of it. -/
def call (s : Session) (agenda : List Action) : Session × List Announcement :=
  news { s with machine := s.machine.call patience agenda }

/-- Reads the configuration file, if one is named. -/
def readConfig (env : Surroundings) (a : Arguments) : Except Error Config :=
  match a.config with
  | none => .ok {}
  | some path =>
    match env.file? path with
    | none => .error (.io s!"cannot read {path}")
    | some bytes =>
      match String.fromUTF8? ⟨bytes.toArray⟩ with
      | some document => Config.ofText document
      | none => .error (.json "invalid unicode code point")

def gate? (a : Arguments) : Except Error (Option RangeGate) :=
  if a.minRange.isSome || a.maxRange.isSome then
    (RangeGate.make (a.minRange.getD 0) (a.maxRange.getD Single.maximum)).map some
  else .ok none

/-- A session that is ready to start, or how it ended before. -/
def prepare (env : Surroundings) (a : Arguments) : Outcome ⊕ (Session × List Announcement) :=
  let opened : Except Error (Stream × Announcement) := do
    let config ← readConfig env a
    let device ← Device.make a.modelCode a.syncMode
    let opened ← Opened.make env a device .builtIn
    let stream := Stream.new a.streamType device .builtIn config
    let stream := {
      stream.addListener { keeps := true } with
      feed := opened.feed
      wall := fun ns => env.wallUs + ns / 1000 }
    return (stream, opened.announcement)
  match opened with
  | .error e => .inl { exitCode := 1, cause := some e }
  | .ok (stream, announcement) =>
    if !a.record.all env.canWrite then
      .inl {
        exitCode := 1
        cause := some (.io "cannot write the recording")
        announcements := [announcement] }
    else
      let recorder : Option Recorder := a.record.map fun _ => { stage := .constant fun _ => .ok () }
      match gate? a with
      | .error e => .inl {
          exitCode := 1
          cause := some e
          announcements := [announcement]
          recording := recorder.map (·.kept) }
      | .ok gate =>
        let stream := { stream with
          pipeline := { stream.pipeline with recorder, processor := gate.map (·.processor) } }
        let machine := Machine.ofStream stream
        let machine :=
          if stream.control.recovery.isEnabled then machine.call patience [.employ] else machine
        .inr ({ arguments := a, machine }, [announcement])

/-- Starts the stream. -/
def start (s : Session) : Session × List Announcement × Except Error Unit :=
  let a := s.arguments
  let (s, news) := s.call (Action.start ⟨a.streamType, a.format, a.rate⟩ 0)
  ({ s with deadlineNs := a.duration.map fun seconds => s.now + seconds * 1000000000 },
    news, s.machine.caller.last)

/-- Whether the end that was asked for is beyond what a clock can show. -/
def isBeyondClock (s : Session) : Bool := s.arguments.duration.any (· ≥ horizon)

/-- Whether the session is over, and what it says to that. -/
def isOver (s : Session) : Bool × List Announcement :=
  if s.isBeyondClock then (true, [])
  else if s.arguments.frames.any (· ≤ s.shown) then (true, [])
  else if s.deadlineNs.any (· ≤ s.now) then (true, [])
  else if s.machine.stream.control.state = .error then (true, [.streamFailed])
  else (false, [])

/-- Shows the next frame, if there is one. -/
def showNext (s : Session) : Session × List Announcement :=
  match s.machine.stream.journal.consumed[s.shown]? with
  | some (.frame _ frame) => ({ s with shown := s.shown + 1 }, [.frame frame])
  | _ => (s, [])

/-- Waits for the next frame, and shows it if it comes soon. -/
def advance (s : Session) : Session × List Announcement :=
  let shown := s.shown
  let ready (stream : Stream) : Bool := stream.journal.consumed.length > shown
  let (s, news) := s.call [.await ready (some (s.now + pollNs))]
  let (s, frame) := s.showNext
  (s, news ++ frame)

/-- Time has come to `ns`, and a socket has brought these packets. -/
def receive (s : Session) (ns : Nat) (packets : List (List UInt8)) :
    Session × List Announcement :=
  let (s, news) := { s with machine := s.machine.passTo ns }.call (packets.map .offer)
  let (s, frame) := s.showNext
  (s, news ++ frame)

/-- Stops the stream and takes leave of it. -/
def finish (s : Session) : Outcome :=
  let (s, stopping) := s.call Action.stop
  let result := s.machine.caller.last
  let stream := s.machine.stream
  let (s, leaving) := s.call Action.discard
  match result with
  | .error e => {
      exitCode := 1
      cause := some e
      announcements := stopping ++ leaving
      recording := s.recording? }
  | .ok () => {
      exitCode := if s.isBeyondClock then 101 else 0
      announcements := stopping ++
        [.streamSummary stream.control.stats, .assemblerSummary stream.assemblerStats] ++
        leaving ++ s.recording?.toList.map fun records => .recorded records.length
      recording := s.recording? }

/-- Shows frames until the session is over. -/
def follow (fuel : Nat) (s : Session) : Session × List Announcement :=
  match fuel with
  | 0 => (s, [])
  | fuel + 1 =>
    let (isOver, last) := s.isOver
    if isOver then (s, last)
    else
      let (s, news) := s.advance
      let (s, rest) := follow fuel s
      (s, news ++ rest)

/-- A whole session of at most `fuel` rounds. -/
def run (fuel : Nat) (env : Surroundings) (a : Arguments) : Outcome :=
  match prepare env a with
  | .inl outcome => outcome
  | .inr (s, opening) =>
    let (s, starting, result) := s.start
    let say (before : List Announcement) (outcome : Outcome) : Outcome :=
      { outcome with announcements := opening ++ starting ++ before ++ outcome.announcements }
    match result with
    | .error e => say [] { exitCode := 1, cause := some e, recording := s.recording? }
    | .ok () =>
      let (s, following) := s.follow fuel
      say following s.finish

end Session

/-- The exit code of a command line that is not carried out. -/
def CommandLine.Refusal.exitCode : Refusal → Nat
  | .help | .version => 0
  | _ => 2

end LidarSweep

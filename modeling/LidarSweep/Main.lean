import LidarSweep.Session
import Std.Async.Timer
import Std.Async.UDP

/-!
# The program

Reads the files that a session needs, lets the session's time pass at the pace of the clock, prints
what it says, and writes the recording.
-/

namespace LidarSweep.Program

open CommandLine (Arguments Refusal)
open Std.Async (Async Selectable Selector)
open Std.Async.UDP (Socket)

def usage : String := "usage: lidar-sweep [OPTIONS] [TARGET]"

def version : String := "lidar-sweep 1.0.0"

def levelName (a : Announcement) : String := (lowerAscii a.level.label).toUpper

def say (a : Arguments) (announcements : List Announcement) : IO Unit :=
  for announcement in announcements do
    if announcement.isShown a.logLevel then
      IO.println s!"{levelName announcement} {announcement.text}"

def readFile? (path : String) : IO (Option (List UInt8)) := do
  try return some (← IO.FS.readBinFile path).toList
  catch _ => return none

def address (e : Endpoint) : Std.Net.SocketAddress :=
  let long (last : UInt16) : Std.Net.SocketAddress :=
    .v6 { addr := .ofParts 0 0 0 0 0 0 0 last, port := e.port }
  match e.host with
  | .numbered n =>
    let byte (k : UInt32) : UInt8 := (n >>> k).toUInt8
    .v4 { addr := .ofParts (byte 24) (byte 16) (byte 8) (byte 0), port := e.port }
  | .everyLong => long 0
  | .ownLong => long 1

/-- A socket that listens there, if that can be had. -/
def listen? (e : Endpoint) : IO (Option Socket) := do
  try
    let socket ← Socket.mk
    socket.bind (address e)
    return some socket
  catch _ => return none

def socketFor? (a : Arguments) : IO (Option Socket) :=
  match a.source, Endpoint.ofText? (a.target.getD Opened.usualAddress) with
  | .udp, some e => listen? e
  | _, _ => return none

/-- The next datagram, if it comes soon. -/
def nextDatagram (socket : Socket) : Async (List (List UInt8)) := do
  Selectable.one #[
    .case (socket.recvSelector 65536) fun (bytes, _) => return [bytes.toList],
    .case (← Selector.sleep (.ofNat (Session.pollNs / 1000000))) fun _ => return []]

/-- Holds on until so much time has passed since `begun`. -/
def waitFor (begun ns : Nat) : IO Unit := do
  let passed := (← IO.monoNanosNow) - begun
  if passed < ns then IO.sleep (UInt32.ofNat ((ns - passed) / 1000000))

def writeRecording (a : Arguments) (outcome : Outcome) : IO Unit := do
  if let (some path, some records) := (a.record, outcome.recording) then
    IO.FS.writeBinFile path ⟨(Recording.encode records).toArray⟩

/-- Goes through the rounds of a session that has started. -/
def follow (s : Session) (socket? : Option Socket) (begun : Nat) : IO Session := do
  let mut s := s
  repeat
    let (isOver, last) := s.isOver
    if isOver then
      say s.arguments last
      break
    let (next, news) ←
      match socket? with
      | some socket =>
        let packets ← (nextDatagram socket).block
        pure (s.receive ((← IO.monoNanosNow) - begun) packets)
      | none =>
        let (next, news) := s.advance
        waitFor begun next.now
        pure (next, news)
    say s.arguments news
    s := next
  return s

/-- Carries out a session. -/
def carryOut (a : Arguments) : IO Outcome := do
  let config ← match a.config with
    | some path => readFile? path
    | none => pure none
  let target ← match a.source, a.target with
    | .pcap, some path => readFile? path
    | _, _ => pure none
  let socket? ← socketFor? a
  let wall ← Std.Time.Timestamp.now
  let surroundings (canWrite : Bool) : Surroundings := {
    file? := fun path =>
      if some path = a.config then config else if some path = a.target then target else none
    canWrite := fun _ => canWrite
    canListen := fun _ => socket?.isSome
    wallUs := (wall.toNanosecondsSinceUnixEpoch.toInt / 1000).toNat }
  let isToWrite :=
    match Session.prepare (surroundings true) a with
    | .inl outcome => outcome.recording.isSome
    | .inr _ => a.record.isSome
  let canWrite ←
    if isToWrite then
      try
        writeRecording a { recording := some [] }
        pure true
      catch _ => pure false
    else pure true
  match Session.prepare (surroundings canWrite) a with
  | .inl outcome =>
    say a outcome.announcements
    return outcome
  | .inr (s, opening) =>
    say a opening
    let begun ← IO.monoNanosNow
    let (s, starting, result) := s.start
    say a starting
    match result with
    | .error e => return { exitCode := 1, cause := some e, recording := s.recording? }
    | .ok () =>
      let s ← follow s socket? begun
      let outcome := s.finish
      say a outcome.announcements
      return outcome

end LidarSweep.Program

open LidarSweep in
/-- Runs the program. -/
def main (args : List String) : IO UInt32 := do
  match CommandLine.Arguments.parse args with
  | .error refusal =>
    match refusal with
    | .help => IO.println Program.usage
    | .version => IO.println Program.version
    | _ => IO.eprintln s!"error: {refusal.ident}\n{Program.usage}"
    return UInt32.ofNat refusal.exitCode
  | .ok a =>
    let outcome ← Program.carryOut a
    Program.writeRecording a outcome
    if let some cause := outcome.cause then IO.eprintln s!"Error: {cause.describe}"
    return UInt32.ofNat outcome.exitCode

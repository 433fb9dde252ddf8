import LidarSweep.CommandLine.Grammar
import LidarSweep.Profile
import LidarSweep.Single.Decimal
import LidarSweep.SyncMode
import LidarSweep.Text.Integer

/-!
# Arguments of the program

Which source to read, what the device and the stream are like, what to do with the frames, and when
to end.
-/

namespace LidarSweep.CommandLine

/-- Where packets come from. -/
inductive SourceKind where
  /-- Made-up sweeps at the configured rate -/
  | synthetic
  | udp
  /-- A capture file -/
  | pcap
  deriving DecidableEq, Repr

/-- The name in diagnostics. -/
def SourceKind.ident : SourceKind → String
  | synthetic => "Synthetic"
  | udp => "Udp"
  | pcap => "Pcap"

instance : Named SourceKind where
  values := [.synthetic, .udp, .pcap]
  name
    | .synthetic => "synthetic"
    | .udp => "udp"
    | .pcap => "pcap"

/-- The least severe lines that are still shown. -/
inductive LogLevel where
  | off
  | error
  | warn
  | info
  | debug
  | trace
  deriving DecidableEq, Repr

namespace LogLevel

def label : LogLevel → String
  | off => "off"
  | error => "error"
  | warn => "warn"
  | info => "info"
  | debug => "debug"
  | trace => "trace"

def all : List LogLevel := [off, error, warn, info, debug, trace]

/-- How much is shown, from nothing on. -/
def rank : LogLevel → Nat
  | off => 0
  | error => 1
  | warn => 2
  | info => 3
  | debug => 4
  | trace => 5

/-- A rank, or a name in any case; nothing at all means errors. -/
def ofText? (text : String) : Option LogLevel :=
  let byRank : Option LogLevel :=
    match Integer.unsigned UInt64.size text with
    | .ok n => all.find? fun level => level.rank == n
    | .error _ => none
  byRank.or <|
    if text == "" then some error
    else all.find? fun level => level.label == lowerAscii text

end LogLevel

structure Arguments where
  source : SourceKind := .synthetic
  /-- Address to listen on, or capture file -/
  target : Option String := none
  /-- Port to keep of a capture -/
  port : UInt16 := 6699
  modelCode : UInt16 := 0x0101
  streamType : StreamType := .lidar
  rate : ScanRate := .hz10
  format : Format := .scan
  syncMode : SyncMode := .freeRun
  config : Option String := none
  record : Option String := none
  /-- Nearest range to keep, in millimetres -/
  minRange : Option Float32 := none
  /-- Farthest range to keep, in millimetres -/
  maxRange : Option Float32 := none
  frames : Option Nat := none
  /-- Seconds -/
  duration : Option Nat := none
  logLevel : LogLevel := .info

namespace Arguments

/-- A model code, hexadecimal behind `0x`. -/
def readModelCode (text : String) : Except Refusal UInt16 :=
  let code :=
    match text.toList with
    | '0' :: 'x' :: hex | '0' :: 'X' :: hex => Integer.ofDigits 16 UInt16.size hex
    | _ => Integer.unsigned UInt16.size text
  match code with
  | .ok n => .ok (UInt16.ofNat n)
  | .error fault =>
    .error (.valueValidation (some s!"invalid model code {text}: {fault.message}"))

def choice {α : Type} [Named α] (text : String) : Except Refusal α :=
  match Named.ofName? text false with
  | some value => .ok value
  | none => .error .invalidValue

def readable {α : Type} : Option α → Except Refusal α
  | some value => .ok value
  | none => .error (.valueValidation none)

def readCount (text : String) : Except Refusal Nat :=
  readable (Integer.unsigned UInt64.size text).toOption

/-- A path has at least one character. -/
def readPath (text : String) : Except Refusal String :=
  if text == "" then .error .invalidValue else .ok text

def grammar : Grammar Arguments where
  options := [
    ⟨"source", fun s a => (choice s).map fun source => { a with source }⟩,
    ⟨"port", fun s a => (readable (Integer.nonNegative? UInt16.size s)).map fun n =>
      { a with port := UInt16.ofNat n }⟩,
    ⟨"model-code", fun s a => (readModelCode s).map fun modelCode => { a with modelCode }⟩,
    ⟨"stream-type", fun s a => (choice s).map fun streamType => { a with streamType }⟩,
    ⟨"rate", fun s a => (choice s).map fun rate => { a with rate }⟩,
    ⟨"format", fun s a => (choice s).map fun format => { a with format }⟩,
    ⟨"sync-mode", fun s a => (choice s).map fun syncMode => { a with syncMode }⟩,
    ⟨"config", fun s a => (readPath s).map fun path => { a with config := some path }⟩,
    ⟨"record", fun s a => (readPath s).map fun path => { a with record := some path }⟩,
    ⟨"min-range", fun s a => (readable (Single.ofText? s)).map fun x =>
      { a with minRange := some x }⟩,
    ⟨"max-range", fun s a => (readable (Single.ofText? s)).map fun x =>
      { a with maxRange := some x }⟩,
    ⟨"frames", fun s a => (readCount s).map fun n => { a with frames := some n }⟩,
    ⟨"duration", fun s a => (readCount s).map fun n => { a with duration := some n }⟩,
    ⟨"rust-log", fun s a => (readable (LogLevel.ofText? s)).map fun logLevel =>
      { a with logLevel }⟩]
  operand s a := { a with target := some s }

/-- Reads a command line without the program's name. -/
def parse (args : List String) : Except Refusal Arguments := grammar.parse {} args

end Arguments

end LidarSweep.CommandLine

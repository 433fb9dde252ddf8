import LidarSweep.Capture
import LidarSweep.Geometry.Table
import LidarSweep.Packet.Builder
import LidarSweep.Session.Announcement
import LidarSweep.Source.Endpoint

/-!
# Opening a source of packets

The synthetic source plays the same sweeps over and over at the pace of the sweep rate; a capture is
played once at that pace; a socket brings what comes.
-/

namespace LidarSweep

open CommandLine (Arguments)

/-- What a session can reach outside of itself. -/
structure Surroundings where
  /-- The content of a file, if it can be read -/
  file? : String → Option (List UInt8)
  /-- Whether a file can be written there -/
  canWrite : String → Bool
  canListen : Endpoint → Bool := Endpoint.isCommon
  /-- The wall clock when the session begins, in microseconds -/
  wallUs : Nat := 0

/-- A source, and what is said on opening it. -/
structure Opened where
  /-- What it plays by itself; nothing for a socket -/
  feed : Option Replay
  announcement : Announcement

namespace Opened

/-- Sweeps that the synthetic source plays before it begins again. -/
def syntheticSweeps : Nat := 8

/-- Where a socket listens if nothing else is asked for. -/
def usualAddress : String := "0.0.0.0:6699"

def synthetic (a : Arguments) (g : Geometry) (intervalNs : Nat) : Opened :=
  let builder := (Builder.new a.modelCode a.rate a.format).withSyncCode a.syncMode.code
  let packets :=
    (List.range syntheticSweeps).flatMap fun i => builder.sweep g (UInt32.ofNat i)
  { feed := some { packets, looping := true, intervalNs }
    announcement := .synthetic g.blocks intervalNs }

def socket (env : Surroundings) (a : Arguments) : Except Error Opened :=
  let address := a.target.getD usualAddress
  match Endpoint.ofText? address with
  | some e =>
    if env.canListen e then .ok { feed := none, announcement := .listening address }
    else .error (.io s!"cannot listen on {address}")
  | none => .error (.io s!"invalid socket address {address}")

def capture (env : Surroundings) (a : Arguments) (intervalNs : Nat) : Except Error Opened := do
  let some path := a.target | throw (.configuration .captureNotNamed)
  let some bytes := env.file? path | throw (.io s!"cannot read {path}")
  let packets ← Capture.payloads bytes (some a.port)
  if packets.isEmpty then throw (.configuration (.nothingForPort a.port path))
  return {
    feed := some { packets, intervalNs }
    announcement := .replaying packets.length path }

/-- Opens the source for a device. The configuration has to be one that the table knows. -/
def make (env : Surroundings) (a : Arguments) (device : Device) (table : GeometryTable) :
    Except Error Opened := do
  let g ← (table.resolve ⟨device.model, a.rate, a.format⟩ device.workMode).1
  let intervalNs := a.rate.periodNs / g.blocks.toNat
  match a.source with
  | .synthetic => return synthetic a g intervalNs
  | .udp => socket env a
  | .pcap => capture env a intervalNs

end Opened

end LidarSweep

/-!
# Replayed packets

A replay delivers a list of packets in order, once or over and over. Whoever receives a packet may
stop it; the packet then still counts as delivered.
-/

namespace LidarSweep

structure Replay where
  packets : List (List UInt8)
  looping : Bool := false
  /-- Time from one packet to the next, in nanoseconds -/
  intervalNs : Nat := 0
  /-- Packets delivered over all runs -/
  delivered : Nat := 0

namespace Replay

/-- The packet at position `i` of a run, if the run gets that far. -/
def packet? (r : Replay) (i : Nat) : Option (List UInt8) :=
  if r.looping then r.packets[i % r.packets.length]? else r.packets[i]?

/-- The first `n` packets of a run, fewer when the run ends before. -/
def first (r : Replay) (n : Nat) : List (List UInt8) :=
  (List.range n).filterMap r.packet?

/-- A run that its receiver stops at the `n`-th packet, or that comes to its end. -/
def run (r : Replay) (n : Nat) : Replay × List (List UInt8) :=
  let got := r.first n
  ({ r with delivered := r.delivered + got.length }, got)

end Replay

end LidarSweep

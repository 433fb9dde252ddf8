import LidarSweep.Proofs.Assembler.Step
import Mathlib.Data.List.Induction

/-!
# An assembler at work

An assembler is offered packets and is reset now and then, in any order (`Input`). `after` is the
assembler that a list of inputs leaves behind and `frames` what came of them; `accepted` are the
packets that were not dropped. `suitedSince` does not look at the assembler at all: it is the list
of the packets that suit the stream, since the latest reset.
-/

namespace LidarSweep

/-- Whether a packet was put into a frame. -/
def Ingest.isTaken (i : Ingest) : Bool :=
  match i.verdict with
  | .dropped _ => false
  | _ => true

theorem Ingest.isTaken_of_frame? {i : Ingest} (h : i.frame? ≠ none) : i.isTaken = true := by
  unfold Ingest.frame? at h
  unfold Ingest.isTaken
  cases hVerdict : i.verdict with
  | dropped reason => simp [hVerdict] at h
  | accepted => rfl
  | completed frame => rfl

namespace Assembler

/-- What happens to an assembler. -/
inductive Input where
  /-- A packet comes in at time `now` -/
  | packet (now : Nat) (bytes : List UInt8)
  | reset

def feed (a : Assembler) : Input → Assembler
  | .packet now bytes => (a.ingest now bytes).1
  | .reset => a.reset

def frameOf? (a : Assembler) : Input → Option Frame
  | .packet now bytes => (a.ingest now bytes).2.frame?
  | .reset => none

/-- The packet of an input, unless it is dropped. -/
def acceptedOf? (a : Assembler) : Input → Option Packet
  | .packet now bytes =>
    if (a.ingest now bytes).2.isTaken then (Packet.decode bytes).toOption else none
  | .reset => none

/-- The assembler after inputs, one after another. -/
def after (a : Assembler) (inputs : List Input) : Assembler := inputs.foldl feed a

/-- Input after input: the frame that it completes, and the assembler after it. -/
def steps (a : Assembler) : List Input → List (Option Frame × Assembler)
  | [] => []
  | i :: is => (a.frameOf? i, a.feed i) :: steps (a.feed i) is

/-- The frames that inputs complete, in order. -/
def frames (a : Assembler) : List Input → List Frame
  | [] => []
  | i :: is => (a.frameOf? i).toList ++ frames (a.feed i) is

/-- The packets among inputs that are not dropped, in order. -/
def accepted (a : Assembler) : List Input → List Packet
  | [] => []
  | i :: is => (a.acceptedOf? i).toList ++ accepted (a.feed i) is

variable {a : Assembler} {inputs : List Input} {i : Input}

theorem after_concat : a.after (inputs ++ [i]) = (a.after inputs).feed i := by
  rw [after, List.foldl_append]
  rfl

theorem after_append (a : Assembler) (is js : List Input) :
    a.after (is ++ js) = (a.after is).after js := List.foldl_append

theorem steps_append (a : Assembler) (is js : List Input) :
    a.steps (is ++ js) = a.steps is ++ (a.after is).steps js := by
  induction is generalizing a with
  | nil => rfl
  | cons i is ih =>
    rw [List.cons_append, steps, ih, steps, List.cons_append]
    rfl

theorem frames_concat :
    a.frames (inputs ++ [i]) = a.frames inputs ++ ((a.after inputs).frameOf? i).toList := by
  induction inputs generalizing a with
  | nil => simp [frames, after]
  | cons j inputs ih =>
    rw [List.cons_append, frames, ih, frames, List.append_assoc]
    rfl

theorem accepted_concat :
    a.accepted (inputs ++ [i]) = a.accepted inputs ++ ((a.after inputs).acceptedOf? i).toList := by
  induction inputs generalizing a with
  | nil => simp [accepted, after]
  | cons j inputs ih =>
    rw [List.cons_append, accepted, ih, accepted, List.append_assoc]
    rfl

theorem sequence_after (a : Assembler) (inputs : List Input) :
    (a.after inputs).sequence = a.sequence + (a.frames inputs).length := by
  induction inputs using List.reverseRecOn with
  | nil => rfl
  | append_singleton inputs i ih =>
    rw [after_concat, frames_concat, List.length_append, ← Nat.add_assoc, ← ih]
    cases i with
    | packet now bytes => exact sequence_ingest (a.after inputs) now bytes
    | reset => rfl

theorem sequence_frames (a : Assembler) (inputs : List Input) :
    (a.frames inputs).map Frame.sequence =
      List.range' a.sequence (a.frames inputs).length := by
  induction inputs using List.reverseRecOn with
  | nil => rfl
  | append_singleton inputs i ih =>
    have hNext := sequence_after a inputs
    rw [frames_concat, List.map_append, ih]
    cases hFrame : (a.after inputs).frameOf? i with
    | none => simp
    | some frame =>
      have hNumber : frame.sequence = (a.after inputs).sequence := by
        cases i with
        | packet now bytes =>
          obtain ⟨p, data, _, rfl⟩ := frame?_ingest hFrame
          rfl
        | reset => cases hFrame
      rw [List.length_append, Option.toList_some, List.length_singleton, List.range'_concat,
        List.map_singleton, hNumber, hNext, Nat.one_mul]

/-! ### The packets that count -/

/-- The packets that suit the stream, since the latest reset. -/
def suitedSince (g : Geometry) (format : Format) (inputs : List Input) : List Packet :=
  inputs.foldl (fun ps i =>
    match i with
    | .packet _ bytes => ps ++ (Packet.suited? g format bytes).toList
    | .reset => []) []

@[simp] theorem suitedSince_nil (g : Geometry) (format : Format) : suitedSince g format [] = [] :=
  rfl

@[simp] theorem suitedSince_reset (g : Geometry) (format : Format) :
    suitedSince g format (inputs ++ [.reset]) = [] := by
  rw [suitedSince, List.foldl_append]
  rfl

@[simp] theorem suitedSince_packet (g : Geometry) (format : Format) (now : Nat)
    (bytes : List UInt8) :
    suitedSince g format (inputs ++ [.packet now bytes]) =
      suitedSince g format inputs ++ (Packet.suited? g format bytes).toList := by
  rw [suitedSince, List.foldl_append]
  rfl

theorem exists_of_mem_suitedSince {g : Geometry} {format : Format} {p : Packet}
    (h : p ∈ suitedSince g format inputs) :
    ∃ bytes, Packet.suited? g format bytes = some p := by
  induction inputs using List.reverseRecOn with
  | nil => simp at h
  | append_singleton inputs i ih =>
    cases i with
    | packet now bytes =>
      rw [suitedSince_packet, List.mem_append] at h
      rcases h with hOld | hNew
      · exact ih hOld
      · exact ⟨bytes, Option.mem_toList.mp hNew⟩
    | reset => simp at h

/-- Packets with the times at which they come in, and no reset. -/
def offered (packets : List (Nat × List UInt8)) : List Input :=
  packets.map fun q => .packet q.1 q.2

theorem offered_append (ps qs : List (Nat × List UInt8)) :
    offered (ps ++ qs) = offered ps ++ offered qs := List.map_append

theorem suitedSince_offered (g : Geometry) (format : Format)
    (packets : List (Nat × List UInt8)) :
    suitedSince g format (offered packets) =
      packets.filterMap fun q => Packet.suited? g format q.2 := by
  induction packets using List.reverseRecOn with
  | nil => rfl
  | append_singleton packets q ih =>
    rw [offered_append, List.filterMap_append, ← ih]
    simp only [offered, List.map_cons, List.map_nil, suitedSince_packet]
    cases hq : Packet.suited? g format q.2 <;> simp [hq]

end Assembler

end LidarSweep

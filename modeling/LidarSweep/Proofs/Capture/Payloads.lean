import LidarSweep.Capture
import LidarSweep.Proofs.Capture.Datagram
import LidarSweep.Proofs.Capture.Legacy

/-!
# The payloads of a capture

A capture that was written in the legacy format and cut off gives the payloads of the records that
were not cut into, and of any bytes the datagrams with a port are those of all datagrams that have
it.

Both are told of any parsers.  The first needs them to keep to the formats (`Reader.ReadsLegacy`,
`Parsers.ReadsFrames`), and is an induction on the records; the second needs nothing of them, since
what is made of a packet has no say in how the reader goes on (`Reader.collect_bind`).
-/

namespace LidarSweep.Capture

open LegacyCapture

/-! ### What is made of packets -/

namespace Reader

variable {α β : Type} {r : Reader} {mode : r.Mode}

/-- To sift what is made of the packets, the reader need not be asked again. -/
theorem collect_bind (f : List UInt8 → Option α) (g : α → Option β) (mode : r.Mode)
    (bs : List UInt8) :
    r.collect (fun packet => (f packet).bind g) mode bs =
      (r.collect f mode bs).map (·.filterMap g) := by
  induction hLength : bs.length using Nat.strongRecOn generalizing bs mode with
  | ind length ih =>
    cases hNext : r.next mode bs with
    | finished => rw [collect_of_finished hNext, collect_of_finished hNext]; rfl
    | broken e => rw [collect_of_broken hNext, collect_of_broken hNext]; rfl
    | block size packet mode' =>
      have hSize := r.size_spec hNext
      have hShorter : (bs.drop size).length < length := by
        rw [List.length_drop]
        omega
      have hFirst : (packet.bind fun packet => (f packet).bind g).toList =
          (packet.bind f).toList.filterMap g := by
        rw [← Option.bind_assoc]
        cases packet.bind f with
        | none => rfl
        | some a => cases hOne : g a <;> simp [hOne]
      rw [collect_of_block hNext, collect_of_block hNext, ih _ hShorter mode' _ rfl, hFirst]
      cases r.collect f mode' (bs.drop size) with
      | error e => rfl
      | ok found => simp only [Except.map, List.filterMap_append]

theorem gather_bind (f : List UInt8 → Option α) (g : α → Option β) (bs : List UInt8) :
    r.gather (fun packet => (f packet).bind g) bs = (r.gather f bs).map (·.filterMap g) := by
  rw [gather, gather]
  cases r.start bs with
  | error e => rfl
  | ok mode => exact collect_bind f g mode bs

theorem ReadsRecords.finished_nil (h : r.ReadsRecords mode) : r.next mode [] = .finished :=
  h.cut ⟨0, 0, 0, [], by decide⟩ (Nat.zero_lt_succ _)

end Reader

/-! ### A capture of datagrams -/

/-- A frame with a datagram, and when it was captured. -/
structure Sighting where
  seconds : UInt32
  /-- Micro- or nanoseconds -/
  fraction : UInt32
  frame : UdpFrame

namespace Sighting

def record (s : Sighting) : Record where
  seconds := s.seconds
  fraction := s.fraction
  sent := UInt32.ofNat s.frame.encode.length
  data := s.frame.encode
  length_data := by
    have hTotal := s.frame.total_le
    have hPadding := s.frame.padding_le
    rw [s.frame.length_encode, UdpFrame.total, UInt32.size]
    omega

/-- Each sighting with the position behind the last byte of its record, the first one written from
`start` on. -/
def layout : Nat → List Sighting → List (Sighting × Nat)
  | _, [] => []
  | start, s :: sightings =>
    (s, start + s.record.encode.length) :: layout (start + s.record.encode.length) sightings

/-- The sightings whose records lie wholly within the first `c` bytes of their capture. -/
def wholeWithin (c : Nat) (sightings : List Sighting) : List Sighting :=
  ((layout FileHeader.size sightings).filter (·.2 ≤ c)).map (·.1)

theorem le_of_mem_layout {start : Nat} {sightings : List Sighting} {entry : Sighting × Nat}
    (h : entry ∈ layout start sightings) : start ≤ entry.2 := by
  induction sightings generalizing start with
  | nil => cases h
  | cons s sightings ih =>
    rcases List.mem_cons.mp h with rfl | hLater
    · exact Nat.le_add_right _ _
    · have hNext := ih hLater
      omega

def encodeAll (h : LittleHeader) (sightings : List Sighting) : List UInt8 :=
  h.encode ++ sightings.flatMap (·.record.encode)

/-- A sighting of a datagram in a frame of nothing but zeros otherwise. -/
def plain (port : UInt16) (payload padding : List UInt8) (hPayload : payload.length ≤ 65507)
    (hPadding : padding.length ≤ 46) : Sighting where
  seconds := 0
  fraction := 0
  frame := {
    targetStation := .replicate 6 0, sourceStation := .replicate 6 0, service := 0
    identification := 0, dontFragment := true, timeToLive := 64, headerChecksum := 0
    sourceAddress := 0, targetAddress := 0, options := [], sourcePort := port, targetPort := 40000
    checksum := 0, payload, padding, options_words := rfl, options_le := Nat.zero_le _
    total_le := Nat.add_le_add_left hPayload 28, padding_le := hPadding }

end Sighting

theorem isInBlocks_encode_append (h : LittleHeader) (rest : List UInt8) :
    isInBlocks (h.encode ++ rest) = false := by
  have hFront : (h.encode ++ rest).take 4 = Bytes.ofLittle 4 h.magic := rfl
  rw [isInBlocks, hFront, LittleHeader.magic]
  cases h.nanoseconds <;> rfl

/-- Reading `c` bytes of records that were written from `start` on. -/
theorem Reader.ReadsRecords.collect_take {α : Type} {r : Reader} {mode : r.Mode}
    (h : r.ReadsRecords mode) (f : List UInt8 → Option α) (sightings : List Sighting)
    (start c : Nat) :
    r.collect f mode ((sightings.flatMap (·.record.encode)).take c) =
      .ok (((Sighting.layout start sightings).filter (·.2 ≤ start + c)).filterMap
        fun entry => f entry.1.frame.encode) := by
  induction sightings generalizing start c with
  | nil =>
    rw [List.flatMap_nil, List.take_nil, collect_of_finished h.finished_nil]
    rfl
  | cons s sightings ih =>
    rw [List.flatMap_cons, List.take_append, Sighting.layout]
    by_cases hWhole : s.record.encode.length ≤ c
    · -- The first record is whole, and the others begin behind it.
      have hLater := ih (start + s.record.encode.length) (c - s.record.encode.length)
      have hBound : start + s.record.encode.length + (c - s.record.encode.length) = start + c := by
        omega
      have hKept : ((s, start + s.record.encode.length) ::
          Sighting.layout (start + s.record.encode.length) sightings).filter
            (·.2 ≤ start + c) = (s, start + s.record.encode.length) ::
              (Sighting.layout (start + s.record.encode.length) sightings).filter
                (·.2 ≤ start + c) :=
        List.filter_cons_of_pos (decide_eq_true (Nat.add_le_add_left hWhole start))
      rw [List.take_of_length_le hWhole, collect_of_block (h.whole s.record _), List.drop_left,
        hLater, hBound, hKept, Option.bind_some, List.filterMap_cons]
      change Except.map ((f s.frame.encode).toList ++ ·) _ = _
      cases f s.frame.encode <;> rfl
    · -- The first record is cut into, and all the others end behind the cut.
      have hCut : c < s.record.encode.length := Nat.lt_of_not_le hWhole
      have hNone : ((s, start + s.record.encode.length) ::
          Sighting.layout (start + s.record.encode.length) sightings).filter
            (·.2 ≤ start + c) = [] := by
        rw [List.filter_eq_nil_iff]
        intro entry hEntry
        have hBehind : start + s.record.encode.length ≤ entry.2 := by
          rcases List.mem_cons.mp hEntry with rfl | hLater
          · exact Nat.le_refl _
          · exact Sighting.le_of_mem_layout hLater
        simp only [decide_eq_true_eq]
        omega
      have hBeyond : c - s.record.encode.length = 0 := Nat.sub_eq_zero_of_le (Nat.le_of_lt hCut)
      rw [hBeyond, List.take_zero, List.append_nil, collect_of_finished (h.cut s.record hCut),
        hNone]
      rfl

/-! ### Datagrams and their payloads -/

namespace Parsers

variable {p : Parsers}

/-- The parsers find the datagrams that frames carry. -/
def ReadsFrames (p : Parsers) : Prop := ∀ f : UdpFrame, p.datagram? f.encode = some f.datagram

theorem matchesPort_some (d : Datagram) (port : UInt16) :
    d.matchesPort (some port) =
      decide (d.sourcePort = port.toNat ∨ d.targetPort = port.toNat) := by
  rw [Datagram.matchesPort, Bool.decide_or]
  rfl

/-- A frame's datagram, if there is something in it. -/
def carried? (p : Parsers) (frame : List UInt8) : Option Datagram :=
  (p.datagram? frame).bind fun d => if d.payload.isEmpty then none else some d

/-- The datagrams in a capture that have something in them, whatever their ports. -/
def datagrams (p : Parsers) (bs : List UInt8) : Except Error (List Datagram) :=
  (p.reader bs).gather p.carried? bs

theorem payload?_eq (p : Parsers) (port : Option UInt16) (frame : List UInt8) :
    p.payload? port frame =
      (p.carried? frame).bind fun d => if d.matchesPort port then some d.payload else none := by
  rw [payload?, carried?, Option.bind_assoc]
  cases p.datagram? frame with
  | none => rfl
  | some d =>
    rw [Option.bind_some, Option.bind_some]
    by_cases hEmpty : d.payload.isEmpty = true
    · rw [if_pos hEmpty, hEmpty, Bool.not_true, Bool.and_false]
      rfl
    · rw [if_neg hEmpty, eq_false_of_ne_true hEmpty, Bool.not_false, Bool.and_true]
      rfl

/-- A port only sifts the datagrams of a capture. -/
theorem payloads_eq (p : Parsers) (bs : List UInt8) (port : Option UInt16) :
    p.payloads bs port =
      (p.datagrams bs).map fun ds => (ds.filter (·.matchesPort port)).map (·.payload) := by
  have hSift : p.payload? port = fun frame =>
      (p.carried? frame).bind fun d => if d.matchesPort port then some d.payload else none :=
    funext (p.payload?_eq port)
  rw [payloads, hSift, Reader.gather_bind, datagrams]
  congr 1
  funext ds
  rw [← List.filterMap_eq_map, List.filterMap_filter]
  rfl

theorem payload?_encode (h : p.ReadsFrames) (f : UdpFrame) :
    p.payload? none f.encode = if f.payload ≠ [] then some f.payload else none := by
  rw [payload?, h f, Option.bind_some]
  cases hPayload : f.payload <;> simp [UdpFrame.datagram, Datagram.matchesPort, hPayload]

theorem filterMap_payload (sightings : List Sighting) :
    (sightings.filterMap fun s => if s.frame.payload ≠ [] then some s.frame.payload else none) =
      (sightings.map (·.frame.payload)).filter (· ≠ []) := by
  induction sightings with
  | nil => rfl
  | cons s sightings ih =>
    by_cases hPayload : s.frame.payload = [] <;> simpa [hPayload] using ih

theorem payloads_take (hContainer : p.legacy.ReadsLegacy) (hFrames : p.ReadsFrames)
    (h : LittleHeader) (sightings : List Sighting) {c : Nat} (hBehind : FileHeader.size ≤ c) :
    p.payloads ((Sighting.encodeAll h sightings).take c) none =
      .ok (((Sighting.wholeWithin c sightings).map (·.frame.payload)).filter (· ≠ [])) := by
  have hBytes : (Sighting.encodeAll h sightings).take c =
      h.encode ++ (sightings.flatMap (·.record.encode)).take (c - FileHeader.size) := by
    rw [Sighting.encodeAll, List.take_append, h.length_encode,
      List.take_of_length_le (by rwa [h.length_encode])]
  have hReader : p.reader ((Sighting.encodeAll h sightings).take c) = p.legacy := by
    rw [hBytes, reader, isInBlocks_encode_append]
    rfl
  obtain ⟨mode, mode', hStart, hNext, hRecords⟩ := hContainer h
    ((sightings.flatMap (·.record.encode)).take (c - FileHeader.size))
  have hBound : FileHeader.size + (c - FileHeader.size) = c := Nat.add_sub_cancel' hBehind
  rw [payloads, hReader, hBytes, Reader.gather, hStart]
  change p.legacy.collect (p.payload? none) mode _ = _
  rw [Reader.collect_of_block hNext, List.drop_left' h.length_encode,
    hRecords.collect_take _ sightings FileHeader.size, hBound]
  simp only [Option.bind_none, Option.toList_none, List.nil_append, Except.map, Except.ok.injEq,
    payload?_encode hFrames]
  rw [← filterMap_payload, Sighting.wholeWithin, List.filterMap_map]
  rfl

/-- **The payloads of a capture.**  Of datagrams that were written as a capture, which was cut off
anywhere behind its file header, the payloads come out of those that were not cut into, in order and
without the empty ones.  And of whatever bytes, asking for a port fails just where asking for none
does; otherwise the payloads are those of the datagrams that have the port. -/
theorem payloads_of_traffic (hContainer : p.legacy.ReadsLegacy) (hFrames : p.ReadsFrames) :
    (∀ (h : LittleHeader) (sightings : List Sighting) (c : Nat), FileHeader.size ≤ c →
      p.payloads ((Sighting.encodeAll h sightings).take c) none =
        .ok (((Sighting.wholeWithin c sightings).map (·.frame.payload)).filter (· ≠ []))) ∧
    ∀ (bs : List UInt8) (port : UInt16),
      (∀ e, p.payloads bs (some port) = .error e ↔ p.payloads bs none = .error e) ∧
      ∀ found, p.payloads bs none = .ok found →
        ∃ ds, p.datagrams bs = .ok ds ∧ found = ds.map (·.payload) ∧
          p.payloads bs (some port) = .ok ((ds.filter fun d =>
            d.sourcePort = port.toNat ∨ d.targetPort = port.toNat).map (·.payload)) := by
  constructor
  · intro h sightings c hBehind
    exact payloads_take hContainer hFrames h sightings hBehind
  · intro bs port
    rw [payloads_eq, payloads_eq]
    cases hFound : p.datagrams bs with
    | error e => exact ⟨fun _ => Iff.rfl, fun _ hOk => (nomatch hOk)⟩
    | ok ds =>
      refine ⟨fun _ => ⟨fun hError => (nomatch hError), fun hError => (nomatch hError)⟩, ?_⟩
      intro found hOk
      refine ⟨ds, rfl, ?_, ?_⟩
      · rw [← Except.ok.inj hOk]
        exact congrArg (List.map _) (List.filter_eq_self.mpr fun _ _ => rfl)
      · exact congrArg (fun kept => Except.ok (List.map _ kept))
          (List.filter_congr fun d _ => matchesPort_some d port)

/-- A padded datagram, an empty one and one whose last byte is missing. -/
theorem payloads_of_traffic_cut :
    let sightings : List Sighting :=
      [.plain 2368 [1, 2] (.replicate 16 7) (by decide) (by decide),
        .plain 2368 [] (.replicate 18 7) (by decide) (by decide),
        .plain 2369 [9] [] (by decide) (by decide)]
    let bs := (Sighting.encodeAll default sightings).take 234
    parsers.legacy.ReadsLegacy ∧ parsers.ReadsFrames ∧ FileHeader.size ≤ 234 ∧
      Capture.payloads bs none = .ok [[1, 2]] ∧
      ∃ ds, parsers.datagrams bs = .ok ds ∧ [[1, 2]] = ds.map (·.payload) ∧
        Capture.payloads bs (some 2369) = .ok ((ds.filter fun d =>
          d.sourcePort = 2369 ∨ d.targetPort = 2369).map (·.payload)) := by
  intro sightings bs
  have hContainer : parsers.legacy.ReadsLegacy := reader_readsLegacy
  have hFrames : parsers.ReadsFrames := UdpFrame.datagram?_encode
  have hBehind : FileHeader.size ≤ 234 := by decide
  obtain ⟨hCut, hPort⟩ := payloads_of_traffic hContainer hFrames
  have hWhole : ((Sighting.wholeWithin 234 sightings).map (·.frame.payload)).filter (· ≠ []) =
      [[1, 2]] := by decide
  have hNone : Capture.payloads bs none = .ok [[1, 2]] := by
    rw [← hWhole]
    exact hCut default sightings 234 hBehind
  exact ⟨hContainer, hFrames, hBehind, hNone, (hPort bs 2369).2 _ hNone⟩

end Parsers

end LidarSweep.Capture

import LidarSweep.Packet.Builder
import LidarSweep.Proofs.Checked
import LidarSweep.Stream.Pipeline

/-!
# Two times that advance together

The device time of a frame is measured from an origin and its global time is that much after an
offset.  Neither is known before the first frame comes: the origin may be its receipt, and the
offset is fixed by the first frame that is not before the origin.  From then on both stay as they
are, and a frame before the origin leaves the clocks as they are too (`stamp_of_lt`).  So the times
of all frames are by one origin and one offset that can be told from the frames that come
(`stampAll_eq`), and a frame that fails could as well not have come.

In the whole pipeline frames come to the clocks once their metadata is told, and the stages behind
leave the clocks alone.  So there the frames get the same times (`pass_of_passages`).

A time in microseconds since an origin is a thousandth of 64 bits and the wall clock keeps to 63, so
the two fit together.
-/

namespace LidarSweep

/-- A frame that comes in, and the wall clock then, in microseconds.  The wall clock reaches half of
its word in the year 294247. -/
structure Arrival where
  frame : Frame
  wallUs : Nat
  receipt_lt : frame.receiptNs < UInt64.size
  wall_lt : wallUs < 9223372036854775808

namespace Arrival

/-- Whole microseconds from an origin on. -/
def since (a : Arrival) (origin : Nat) : Nat := (a.frame.receiptNs - origin) / 1000

/-- What becomes of a frame by an origin and an offset. -/
def stampedBy (origin offset : Nat) (a : Arrival) : Except Error Frame :=
  if a.frame.receiptNs < origin then
    .error (.stage .timestamp
      (Error.timestampAnomaly (.beforeStart a.frame.receiptNs origin)).message)
  else .ok { a.frame with deviceUs := a.since origin, globalUs := a.since origin + offset }

variable {a : Arrival} {origin offset : Nat}

theorem stampedBy_of_lt (h : a.frame.receiptNs < origin) :
    a.stampedBy origin offset = .error (.stage .timestamp
      (Error.timestampAnomaly (.beforeStart a.frame.receiptNs origin)).message) := if_pos h

theorem stampedBy_of_le (h : origin ≤ a.frame.receiptNs) :
    a.stampedBy origin offset =
      .ok { a.frame with deviceUs := a.since origin, globalUs := a.since origin + offset } :=
  if_neg (Nat.not_lt.mpr h)

/-- A frame with times is one that came at the origin or after it. -/
theorem stampedBy_eq_ok {f : Frame} (h : a.stampedBy origin offset = .ok f) :
    f = { a.frame with deviceUs := a.since origin, globalUs := a.since origin + offset } := by
  by_cases hEarly : a.frame.receiptNs < origin
  · rw [stampedBy_of_lt hEarly] at h
    cases h
  · rw [stampedBy_of_le (Nat.le_of_not_lt hEarly)] at h
    exact (Except.ok.inj h).symm

end Arrival

/-- Where times are measured from, once these frames have come. -/
def ReceiptClock.originFor (clock : ReceiptClock) (arrivals : List Arrival) : Nat :=
  clock.originNs.getD ((arrivals.head?.map (·.frame.receiptNs)).getD 0)

/-- What the host clock adds, once these frames have come. -/
def HostClock.offsetFor (host : HostClock) (origin : Nat) (arrivals : List Arrival) : Nat :=
  host.offsetUs.getD
    (((arrivals.find? fun a => origin ≤ a.frame.receiptNs).map
      fun a => a.wallUs - a.since origin).getD 0)

namespace Pipeline

def withClocks (p : Pipeline) (clock : ReceiptClock) (host : HostClock) : Pipeline :=
  { p with deviceTiming := .receipt clock, globalTiming := .host host }

/-- A frame gets its two times. -/
def stamp (p : Pipeline) (a : Arrival) : Pipeline × Except Error Frame :=
  andThen (p.stampDevice a.frame) (stampGlobal a.wallUs)

/-- What becomes of frames that get their times one after another. -/
def stampAll (p : Pipeline) : List Arrival → List (Except Error Frame)
  | [] => []
  | a :: rest => (p.stamp a).2 :: (p.stamp a).1.stampAll rest

variable {p : Pipeline} {clock : ReceiptClock} {host : HostClock} {a : Arrival} {origin : Nat}

/-! ### One frame -/

/-- Without an origin the first frame is one. -/
theorem stamp_first (p : Pipeline) (host : HostClock) (a : Arrival) :
    (p.withClocks ⟨none⟩ host).stamp a = (p.withClocks ⟨some a.frame.receiptNs⟩ host).stamp a := rfl

/-- **A frame before the origin changes nothing.** -/
theorem stamp_of_lt (h : a.frame.receiptNs < origin) (offset : Nat) :
    (p.withClocks ⟨some origin⟩ host).stamp a =
      (p.withClocks ⟨some origin⟩ host, a.stampedBy origin offset) := by
  rw [Arrival.stampedBy_of_lt h]
  simp only [stamp, stampDevice, withClocks, ReceiptClock.stamp, Option.getD_some, if_pos h]
  rfl

/-- A frame from the origin on fixes the offset, if none is fixed. -/
theorem stamp_of_le (h : origin ≤ a.frame.receiptNs) {offset : Nat}
    (hOffset : host.offsetUs.getD (a.wallUs - a.since origin) = offset) :
    (p.withClocks ⟨some origin⟩ host).stamp a =
      (p.withClocks ⟨some origin⟩ ⟨some offset⟩, a.stampedBy origin offset) := by
  rw [Arrival.stampedBy_of_le h, ← hOffset]
  simp only [stamp, stampDevice, withClocks, ReceiptClock.stamp, Option.getD_some,
    if_neg (Nat.not_lt.mpr h)]
  rfl

/-- The origin stays, whatever becomes of the frame. -/
theorem exists_clocks_stamp (p : Pipeline) (clock : ReceiptClock) (host : HostClock) (a : Arrival) :
    ∃ host', ((p.withClocks clock host).stamp a).1 =
      p.withClocks ⟨some (clock.originNs.getD a.frame.receiptNs)⟩ host' := by
  obtain ⟨_ | origin⟩ := clock
  · rw [stamp_first, stamp_of_le (Nat.le_refl _) rfl]
    exact ⟨_, rfl⟩
  · by_cases hEarly : a.frame.receiptNs < origin
    · rw [stamp_of_lt hEarly 0]
      exact ⟨_, rfl⟩
    · rw [stamp_of_le (Nat.le_of_not_lt hEarly) rfl]
      exact ⟨_, rfl⟩

/-! ### One frame after another -/

theorem stampAll_first (p : Pipeline) (host : HostClock) (a : Arrival) (rest : List Arrival) :
    (p.withClocks ⟨none⟩ host).stampAll (a :: rest) =
      (p.withClocks ⟨some a.frame.receiptNs⟩ host).stampAll (a :: rest) := rfl

theorem stampAll_of_origin (p : Pipeline) (host : HostClock) (origin : Nat)
    (arrivals : List Arrival) :
    (p.withClocks ⟨some origin⟩ host).stampAll arrivals =
      arrivals.map (Arrival.stampedBy origin (host.offsetFor origin arrivals)) := by
  induction arrivals generalizing host with
  | nil => rfl
  | cons a rest ih =>
    rw [stampAll, List.map_cons]
    by_cases hEarly : a.frame.receiptNs < origin
    · have hSkipped : host.offsetFor origin (a :: rest) = host.offsetFor origin rest := by
        rw [HostClock.offsetFor, List.find?_cons_of_neg (by simpa using hEarly)]
        rfl
      rw [stamp_of_lt hEarly (host.offsetFor origin (a :: rest)), ih, hSkipped]
    · have hLate := Nat.le_of_not_lt hEarly
      have hFixed : host.offsetUs.getD (a.wallUs - a.since origin) =
          host.offsetFor origin (a :: rest) := by
        rw [HostClock.offsetFor, List.find?_cons_of_pos (by simpa using hLate)]
        rfl
      rw [stamp_of_le hLate hFixed, ih]
      rfl

theorem stampAll_eq (p : Pipeline) (clock : ReceiptClock) (host : HostClock)
    (arrivals : List Arrival) :
    (p.withClocks clock host).stampAll arrivals =
      arrivals.map (Arrival.stampedBy (clock.originFor arrivals)
        (host.offsetFor (clock.originFor arrivals) arrivals)) := by
  obtain ⟨_ | origin⟩ := clock
  · cases arrivals with
    | nil => rfl
    | cons a rest => rw [stampAll_first, stampAll_of_origin]; rfl
  · exact stampAll_of_origin p host origin arrivals

/-- **A frame before the origin could as well not have come.** -/
theorem stampAll_eraseIdx (p : Pipeline) (clock : ReceiptClock) (host : HostClock)
    {arrivals : List Arrival} {i : Nat} (hMem : arrivals[i]? = some a)
    (hEarly : a.frame.receiptNs < clock.originFor arrivals) :
    (p.withClocks clock host).stampAll (arrivals.eraseIdx i) =
      ((p.withClocks clock host).stampAll arrivals).eraseIdx i := by
  induction arrivals generalizing clock host i with
  | nil => cases hMem
  | cons b rest ih =>
    cases i with
    | zero =>
      cases hMem
      obtain ⟨_ | origin⟩ := clock
      · exact absurd hEarly (Nat.lt_irrefl _)
      · have hBefore : a.frame.receiptNs < origin := hEarly
        rw [List.eraseIdx_cons_zero, stampAll, stamp_of_lt hBefore 0, List.eraseIdx_cons_zero]
    | succ i =>
      obtain ⟨host', hClocks⟩ := exists_clocks_stamp p clock host b
      rw [List.eraseIdx_cons_succ, stampAll, stampAll, List.eraseIdx_cons_succ, hClocks,
        ih ⟨some (clock.originNs.getD b.frame.receiptNs)⟩ host' hMem hEarly]

end Pipeline

/-! ### Among the other stages -/

/-- A frame that comes to the whole pipeline, and the wall clock then. -/
structure Passage where
  profile : Profile
  mode : SyncMode
  frame : Frame
  wallUs : Nat
  receipt_lt : frame.receiptNs < UInt64.size
  wall_lt : wallUs < 9223372036854775808

/-- The frame as it comes to the clocks, if its metadata can be told. -/
def Passage.arrival? (keys : List MetadataKey) (x : Passage) : Option Arrival :=
  match MetadataKey.values keys x.frame.header with
  | .ok metadata => some {
      frame := { x.frame with profile := some x.profile, metadata }
      wallUs := x.wallUs
      receipt_lt := x.receipt_lt
      wall_lt := x.wall_lt }
  | .error _ => none

namespace Pipeline

variable {p q : Pipeline} {clock : ReceiptClock} {host : HostClock} {x : Passage} {a : Arrival}

def pass (p : Pipeline) (x : Passage) : Pipeline × Except Error Processed :=
  p.run x.wallUs x.mode x.profile x.frame

def passAll (p : Pipeline) (passages : List Passage) : Pipeline :=
  passages.foldl (fun p x => (p.pass x).1) p

/-- What becomes of a frame once the clocks are done with it. -/
def leaveClocks (mode : SyncMode) (step : Pipeline × Except Error Frame) :
    Pipeline × Except Error Processed :=
  andThen (andThen (andThen step (checkTiming mode)) record) process

/-- The same clocks, and the same metadata. -/
structure SameClocks (p q : Pipeline) : Prop where
  keys : q.keys = p.keys
  device : q.deviceTiming = p.deviceTiming
  global : q.globalTiming = p.globalTiming

theorem SameClocks.andThen {α β : Type} {step : Pipeline × Except Error α}
    {next : Pipeline → α → Pipeline × Except Error β} (h : SameClocks p step.1)
    (hNext : ∀ p x, SameClocks p (next p x).1) : SameClocks p (andThen step next).1 := by
  obtain ⟨q, e | x⟩ := step
  · exact h
  · have hLater := hNext q x
    exact ⟨hLater.keys.trans h.keys, hLater.device.trans h.device, hLater.global.trans h.global⟩

theorem sameClocks_checkTiming (mode : SyncMode) (p : Pipeline) (frame : Frame) :
    SameClocks p (p.checkTiming mode frame).1 := by
  unfold checkTiming
  split <;> exact ⟨rfl, rfl, rfl⟩

theorem sameClocks_record (p : Pipeline) (frame : Frame) : SameClocks p (p.record frame).1 := by
  unfold record
  split
  · exact ⟨rfl, rfl, rfl⟩
  · dsimp only
    split <;> exact ⟨rfl, rfl, rfl⟩

theorem sameClocks_process (p : Pipeline) (frame : Frame) : SameClocks p (p.process frame).1 := by
  unfold process
  split <;> exact ⟨rfl, rfl, rfl⟩

/-- The stages behind the clocks leave them as they are. -/
theorem sameClocks_leaveClocks (mode : SyncMode) (step : Pipeline × Except Error Frame) :
    SameClocks step.1 (leaveClocks mode step).1 := by
  have hSame : SameClocks step.1 step.1 := ⟨rfl, rfl, rfl⟩
  exact ((hSame.andThen (sameClocks_checkTiming mode)).andThen sameClocks_record).andThen
    sameClocks_process

/-- A frame whose metadata cannot be told changes nothing. -/
theorem pass_of_none (h : x.arrival? p.keys = none) : (p.pass x).1 = p := by
  unfold Passage.arrival? at h
  unfold pass run annotate
  cases hValues : MetadataKey.values p.keys x.frame.header with
  | ok metadata =>
    rw [hValues] at h
    cases h
  | error e => rfl

theorem pass_of_some (h : x.arrival? p.keys = some a) :
    p.pass x = leaveClocks x.mode (p.stamp a) := by
  unfold Passage.arrival? at h
  unfold pass run annotate
  cases hValues : MetadataKey.values p.keys x.frame.header with
  | ok metadata =>
    rw [hValues] at h
    cases h
    rfl
  | error e =>
    rw [hValues] at h
    cases h

/-- A frame that comes to the clocks makes of them what it makes of them alone. -/
theorem exists_clocks_pass (h : x.arrival? p.keys = some a) (clock : ReceiptClock)
    (host : HostClock) :
    ∃ (q : Pipeline) (clock' : ReceiptClock) (host' : HostClock), q.keys = p.keys ∧
      ((p.withClocks clock host).pass x).1 = q.withClocks clock' host' ∧
      ((p.withClocks clock host).stamp a).1 = p.withClocks clock' host' := by
  obtain ⟨host', hStamp⟩ := exists_clocks_stamp p clock host a
  have hSame := sameClocks_leaveClocks x.mode ((p.withClocks clock host).stamp a)
  rw [← pass_of_some (p := p.withClocks clock host) h, hStamp] at hSame
  refine ⟨((p.withClocks clock host).pass x).1, _, host', hSame.keys, ?_, hStamp⟩
  generalize ((p.withClocks clock host).pass x).1 = q at hSame
  obtain ⟨keys, device, global, gaps, recorder, processor⟩ := q
  obtain ⟨-, rfl, rfl⟩ := hSame
  rfl

/-- **In the whole pipeline every frame gets the times that it gets from the clocks alone**, and
goes on with them. -/
theorem pass_of_passages (clock : ReceiptClock) (host : HostClock) (past later : List Passage)
    (h : x.arrival? p.keys = some a) {arrivals : List Arrival}
    (hArrivals : (past ++ x :: later).filterMap (Passage.arrival? p.keys) = arrivals) :
    ∃ q, ((p.withClocks clock host).passAll past).pass x =
      leaveClocks x.mode (q, a.stampedBy (clock.originFor arrivals)
        (host.offsetFor (clock.originFor arrivals) arrivals)) := by
  subst hArrivals
  induction past generalizing p clock host with
  | nil =>
    rw [List.nil_append, List.filterMap_cons_some h]
    refine ⟨((p.withClocks clock host).stamp a).1, ?_⟩
    have hStamped := stampAll_eq p clock host (a :: later.filterMap (Passage.arrival? p.keys))
    rw [stampAll, List.map_cons] at hStamped
    rw [← (List.cons.inj hStamped).1]
    exact pass_of_some (p := p.withClocks clock host) h
  | cons y past ih =>
    rw [List.cons_append]
    cases hy : y.arrival? p.keys with
    | none =>
      rw [List.filterMap_cons_none hy]
      have hSkipped : ((p.withClocks clock host).pass y).1 = p.withClocks clock host :=
        pass_of_none (p := p.withClocks clock host) hy
      rw [passAll, List.foldl_cons, hSkipped]
      exact ih clock host h
    | some b =>
      rw [List.filterMap_cons_some hy]
      obtain ⟨q, clock', host', hKeys, hPass, hStamp⟩ := exists_clocks_pass hy clock host
      have hLater := ih clock' host' (p := q) (hKeys ▸ h)
      rw [hKeys] at hLater
      rw [passAll, List.foldl_cons, hPass]
      -- The clocks would have gone on to the same times alone.
      have hWhole := stampAll_eq p clock host
        (b :: (past ++ x :: later).filterMap (Passage.arrival? p.keys))
      rw [stampAll, List.map_cons, hStamp, stampAll_eq] at hWhole
      have hTimes := List.map_inj_left.mp (List.cons.inj hWhole).2 a
        (List.mem_filterMap.mpr ⟨x, List.mem_append_right _ List.mem_cons_self, h⟩)
      rw [← hTimes]
      exact hLater

end Pipeline

/-! ### The times of all frames -/

/-- Times of frames by one origin and one offset. -/
structure Timeline (origin offset : Nat) (arrivals : List Arrival)
    (results : List (Except Error Frame)) : Prop where
  stamped : results = arrivals.map (Arrival.stampedBy origin offset)
  fits : ∀ f, .ok f ∈ results → Checked.add? UInt64.size f.deviceUs offset = some f.globalUs
  monotone : ∀ f g, .ok f ∈ results → .ok g ∈ results → f.receiptNs ≤ g.receiptNs →
    f.deviceUs ≤ g.deviceUs ∧ f.globalUs ≤ g.globalUs
  parallel : ∀ f g, .ok f ∈ results → .ok g ∈ results →
    (g.globalUs : Int) - f.globalUs = (g.deviceUs : Int) - f.deviceUs

/-- The wall clock bounds the offset that is taken from it. -/
theorem HostClock.offsetFor_lt (origin : Nat) (arrivals : List Arrival) :
    (⟨none⟩ : HostClock).offsetFor origin arrivals < 9223372036854775808 := by
  rw [offsetFor, Option.getD_none]
  cases arrivals.find? fun a => origin ≤ a.frame.receiptNs with
  | none => exact (by decide : 0 < 9223372036854775808)
  | some a => exact Nat.lt_of_le_of_lt (Nat.sub_le _ _) a.wall_lt

theorem Arrival.since_le (a : Arrival) (origin : Nat) : a.since origin ≤ 18446744073709551 := by
  have hReceipt := a.receipt_lt
  have hRange : UInt64.size = 18446744073709551616 := rfl
  rw [since]
  omega

/-- Frames that are stamped by an origin and an offset below 63 bits. -/
theorem timeline_map {origin offset : Nat} (h : offset < 9223372036854775808)
    (arrivals : List Arrival) :
    Timeline origin offset arrivals (arrivals.map (Arrival.stampedBy origin offset)) := by
  have hTimes : ∀ f, .ok f ∈ arrivals.map (Arrival.stampedBy origin offset) →
      ∃ a : Arrival, f.receiptNs = a.frame.receiptNs ∧ f.deviceUs = a.since origin ∧
        f.globalUs = f.deviceUs + offset := by
    intro f hMem
    obtain ⟨a, -, hOk⟩ := List.mem_map.mp hMem
    rw [Arrival.stampedBy_eq_ok hOk]
    exact ⟨a, rfl, rfl, rfl⟩
  refine ⟨rfl, fun f hf => ?_, fun f g hf hg hLe => ?_, fun f g hf hg => ?_⟩
  · obtain ⟨a, -, hDevice, hGlobal⟩ := hTimes f hf
    have hSince := a.since_le origin
    have hRange : UInt64.size = 18446744073709551616 := rfl
    rw [hGlobal, Checked.add?_of_lt (by omega)]
  · obtain ⟨a, hReceipt, hDevice, hGlobal⟩ := hTimes f hf
    obtain ⟨b, hReceipt', hDevice', hGlobal'⟩ := hTimes g hg
    rw [hReceipt, hReceipt'] at hLe
    have hSince : a.since origin ≤ b.since origin :=
      Nat.div_le_div_right (Nat.sub_le_sub_right hLe origin)
    omega
  · obtain ⟨-, -, -, hGlobal⟩ := hTimes f hf
    obtain ⟨-, -, -, hGlobal'⟩ := hTimes g hg
    omega

/-- **Times advance together.**  With built-in clocks that were reset, whatever the origin or if
there is none yet, the frames that come one after another get their times by one origin and one
offset: the offset is fixed by the first frame that is not before the origin, and is zero if the
wall clock is behind that frame's device time.  A frame fails exactly if it is before the origin,
and could then as well not have come.  If it is in the whole pipeline that these frames come to the
clocks, each goes on there with just these times. -/
theorem stampAll_timeline (p : Pipeline) (clock : ReceiptClock) (host : HostClock)
    (arrivals : List Arrival) :
    Timeline (clock.originFor arrivals) (host.reset.offsetFor (clock.originFor arrivals) arrivals)
        arrivals ((p.withClocks clock host.reset).stampAll arrivals) ∧
      (∀ i a, arrivals[i]? = some a → a.frame.receiptNs < clock.originFor arrivals →
        (p.withClocks clock host.reset).stampAll (arrivals.eraseIdx i) =
          ((p.withClocks clock host.reset).stampAll arrivals).eraseIdx i) ∧
      ∀ past x later a, (past ++ x :: later).filterMap (Passage.arrival? p.keys) = arrivals →
        x.arrival? p.keys = some a →
          ∃ q, ((p.withClocks clock host.reset).passAll past).pass x =
            Pipeline.leaveClocks x.mode (q, a.stampedBy (clock.originFor arrivals)
              (host.reset.offsetFor (clock.originFor arrivals) arrivals)) := by
  refine ⟨?_, fun i a hMem hEarly => p.stampAll_eraseIdx clock host.reset hMem hEarly,
    fun past x later a hArrivals h => ?_⟩
  · rw [Pipeline.stampAll_eq]
    exact timeline_map (HostClock.offsetFor_lt _ _) arrivals
  · exact Pipeline.pass_of_passages clock host.reset past later h hArrivals

/-- A frame that says nothing but when it came. -/
def Passage.bare (receiptNs wallUs : UInt16) : Passage where
  profile := ⟨.lidar, .scan, .hz10⟩
  mode := .freeRun
  frame := {
    format := .scan, data := [], receiptNs := receiptNs.toNat, sequence := 0
    header := (Builder.new 1 .hz10 .scan).template }
  wallUs := wallUs.toNat
  receipt_lt := Nat.lt_trans receiptNs.toNat_lt (by decide)
  wall_lt := Nat.lt_trans wallUs.toNat_lt (by decide)

/-- A frame before the origin, one whose device time the wall clock is behind, and a later one. -/
def latecomers : List Passage := [.bare 3000 50, .bare 5999 0, .bare 9000 70]

/-- The first of them fails and could as well not have come, the second fixes an offset of zero, and
the third one goes on with its times. -/
theorem stampAll_timeline_latecomers :
    let arrivals := latecomers.filterMap (Passage.arrival? MetadataKey.all)
    let p := Pipeline.withClocks {} ⟨some 4000⟩ {}
    (p.stampAll arrivals).map (fun result => result.toOption.map fun f =>
        (f.deviceUs, f.globalUs)) = [none, some (1, 1), some (5, 5)] ∧
      Timeline 4000 0 arrivals (p.stampAll arrivals) ∧
      p.stampAll (arrivals.eraseIdx 0) = (p.stampAll arrivals).eraseIdx 0 ∧
      ∃ a q, Passage.arrival? MetadataKey.all (.bare 9000 70) = some a ∧
        (p.passAll (latecomers.take 2)).pass (.bare 9000 70) =
          Pipeline.leaveClocks .freeRun
            (q, .ok { a.frame with deviceUs := 5, globalUs := 5 }) := by
  intro arrivals p
  obtain ⟨hTimeline, hErase, hPass⟩ := stampAll_timeline {} ⟨some 4000⟩ {} arrivals
  have hOrigin : (⟨some 4000⟩ : ReceiptClock).originFor arrivals = 4000 := rfl
  have hOffset : (HostClock.reset {}).offsetFor 4000 arrivals = 0 := by decide
  have hReaches : (Passage.arrival? MetadataKey.all (.bare 9000 70)).map (·.frame.receiptNs) =
      some 9000 := by decide
  obtain ⟨a, ha, hReceipt⟩ := Option.map_eq_some_iff.mp hReaches
  have hStamped : a.stampedBy 4000 0 = .ok { a.frame with deviceUs := 5, globalUs := 5 } := by
    rw [Arrival.stampedBy, Arrival.since, hReceipt]
    rfl
  obtain ⟨q, hQ⟩ := hPass (latecomers.take 2) (.bare 9000 70) [] a rfl ha
  rw [hOrigin, hOffset] at hTimeline hQ
  rw [hStamped] at hQ
  exact ⟨by decide, hTimeline, hErase 0 _ rfl (by decide), a, q, ha, hQ⟩

end LidarSweep

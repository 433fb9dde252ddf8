import LidarSweep.Clock.GapCheck
import LidarSweep.Proofs.Checked
import Mathlib.Data.List.Induction

/-!
# What a check of gaps remembers

Of all the times that were checked, a check of gaps remembers the greatest since the latest reset,
whether it passed or not, and of the resets the rate of the latest (`Remembers`).  That is enough to
tell what the next time comes to (`check_cases`).  A time that is no greater changes nothing, and a
greater one is remembered even if it does not pass; so a gap that is too long costs one frame, and
the times that pass grow.
-/

namespace LidarSweep

/-- A frame takes no longer than a fifth of a second. -/
theorem ScanRate.periodUs_le (rate : ScanRate) : rate.periodUs ≤ 200000 := by
  cases rate <;> decide

namespace GapCheck

variable {c : GapCheck} {time : Nat} {mode : SyncMode}

/-! ### One time -/

/-- A time passes if it is the first, or later than the latest by no more than the gap that is
allowed.  It is remembered unless there was one as late. -/
theorem check_cases (c : GapCheck) (time : Nat) (mode : SyncMode) :
    (c.lastUs = none ∧ c.check time mode = ({ c with lastUs := some time }, .ok ())) ∨
    (∃ last e, c.lastUs = some last ∧ time ≤ last ∧ c.check time mode = (c, .error e)) ∨
    ∃ last, c.lastUs = some last ∧ last < time ∧
      c.check time mode = ({ c with lastUs := some time },
        if mode.isTriggered ∨ c.maxPeriods = 0 ∨ time - last ≤ c.periodUs * c.maxPeriods then .ok ()
        else .error (.timestampAnomaly (.gap (time - last) c.maxPeriods))) := by
  unfold check
  cases hLast : c.lastUs with
  | none => exact Or.inl ⟨rfl, rfl⟩
  | some last =>
    refine Or.inr ?_
    dsimp only
    by_cases hSame : time = last
    · rw [if_pos hSame]
      exact Or.inl ⟨last, _, rfl, Nat.le_of_eq hSame, rfl⟩
    · by_cases hBack : time < last
      · rw [if_neg hSame, if_pos hBack]
        exact Or.inl ⟨last, _, rfl, Nat.le_of_lt hBack, rfl⟩
      · have hLater : last < time := by omega
        rw [if_neg hSame, if_neg hBack]
        refine Or.inr ⟨last, rfl, hLater, ?_⟩
        by_cases hTriggered : mode.isTriggered = true
        · rw [if_pos hTriggered, if_pos (Or.inl hTriggered)]
        · rw [if_neg hTriggered]
          by_cases hGap : c.maxPeriods > 0 ∧ time - last > c.periodUs * c.maxPeriods
          · rw [if_pos hGap, if_neg (not_or.mpr ⟨hTriggered, by omega⟩)]
          · rw [if_neg hGap, if_pos (Or.inr (by omega))]

/-- The baseline never goes back. -/
theorem lastUs_check {last : Nat} (h : c.lastUs = some last) (time : Nat) (mode : SyncMode) :
    ∃ last', (c.check time mode).1.lastUs = some last' ∧ last ≤ last' := by
  rcases c.check_cases time mode with ⟨hNone, -⟩ | ⟨_, e, -, -, hCheck⟩ | ⟨_, hLast, hLater, hCheck⟩
  · rw [h] at hNone
    cases hNone
  · rw [hCheck]
    exact ⟨last, h, Nat.le_refl _⟩
  · obtain rfl := Option.some.inj (h.symm.trans hLast)
    rw [hCheck]
    exact ⟨time, rfl, Nat.le_of_lt hLater⟩

/-- A time that passes the check is the new baseline, beyond the old one. -/
theorem lastUs_of_check_ok (h : (c.check time mode).2 = .ok ()) :
    (c.check time mode).1.lastUs = some time ∧ ∀ last ∈ c.lastUs, last < time := by
  rcases c.check_cases time mode with ⟨hNone, hCheck⟩ | ⟨_, e, -, -, hCheck⟩ |
    ⟨last, hLast, hLater, hCheck⟩
  · rw [hCheck, hNone]
    exact ⟨rfl, nofun⟩
  · rw [hCheck] at h
    cases h
  · rw [hCheck, hLast]
    exact ⟨rfl, fun last' hLast' => Option.some.inj hLast' ▸ hLater⟩

/-- The times that pass, of times that are checked one after another. -/
def passing (c : GapCheck) : List (Nat × SyncMode) → List Nat
  | [] => []
  | (time, mode) :: rest =>
    match c.check time mode with
    | (c, .ok _) => time :: passing c rest
    | (c, .error _) => passing c rest

theorem lt_of_mem_passing {checks : List (Nat × SyncMode)} {last : Nat}
    (hLast : c.lastUs = some last) (h : time ∈ c.passing checks) : last < time := by
  induction checks generalizing c last with
  | nil => cases h
  | cons q rest ih =>
    obtain ⟨last', hLast', hLe⟩ := lastUs_check hLast q.1 q.2
    have hLater : ∀ v, (c.check q.1 q.2).2 = .ok v → last < q.1 := fun _ hPass =>
      (lastUs_of_check_ok hPass).2 last hLast
    simp only [passing] at h
    split at h
    case h_1 c' v hCheck =>
      rw [hCheck] at hLast' hLater
      rcases List.mem_cons.mp h with rfl | hRest
      · exact hLater v rfl
      · exact Nat.lt_of_le_of_lt hLe (ih hLast' hRest)
    case h_2 c' e hCheck =>
      rw [hCheck] at hLast'
      exact Nat.lt_of_le_of_lt hLe (ih hLast' h)

/-- **The times that pass grow.** -/
theorem pairwise_passing (c : GapCheck) (checks : List (Nat × SyncMode)) :
    (c.passing checks).Pairwise (· < ·) := by
  induction checks generalizing c with
  | nil => exact List.Pairwise.nil
  | cons q rest ih =>
    simp only [passing]
    split
    case h_1 c' v hCheck =>
      have hPass : (c.check q.1 q.2).2 = .ok () := by rw [hCheck]
      have hLast := (lastUs_of_check_ok hPass).1
      rw [hCheck] at hLast
      exact List.pairwise_cons.mpr ⟨fun _ hLater => lt_of_mem_passing hLast hLater, ih c'⟩
    case h_2 c' e hCheck => exact ih c'

/-! ### Numbers of 64 bits -/

/-- The check in words of 64 bits. -/
def check? (c : GapCheck) (time : Nat) (mode : SyncMode) :
    Option (GapCheck × Except Error Unit) :=
  match c.lastUs with
  | none => some ({ c with lastUs := some time }, .ok ())
  | some last =>
    if time = last then some (c, .error (.timestampAnomaly (.duplicate time)))
    else if time < last then some (c, .error (.timestampAnomaly (.backwards last time)))
    else do
      let gap ← Checked.sub? time last
      let limit ← Checked.mul? UInt64.size c.periodUs c.maxPeriods
      return ({ c with lastUs := some time },
        if mode.isTriggered then .ok ()
        else if c.maxPeriods > 0 ∧ gap > limit then
          .error (.timestampAnomaly (.gap gap c.maxPeriods))
        else .ok ())

theorem check?_eq (h : c.periodUs * c.maxPeriods < UInt64.size) (time : Nat) (mode : SyncMode) :
    c.check? time mode = some (c.check time mode) := by
  unfold check? check
  cases c.lastUs with
  | none => rfl
  | some last =>
    dsimp only
    by_cases hSame : time = last
    · rw [if_pos hSame, if_pos hSame]
    · by_cases hBack : time < last
      · rw [if_neg hSame, if_pos hBack, if_neg hSame, if_pos hBack]
      · rw [if_neg hSame, if_neg hBack, if_neg hSame, if_neg hBack, Checked.sub?_of_le (by omega),
          Checked.mul?_of_lt h]
        rfl

/-! ### Any calls -/

/-- What is asked of a check of gaps. -/
inductive Call where
  | check (time : Nat) (mode : SyncMode)
  | reset (rate : ScanRate)

def answer (c : GapCheck) : Call → GapCheck
  | .check time mode => (c.check time mode).1
  | .reset rate => c.reset rate

/-- The check after calls, one after another. -/
def after (c : GapCheck) (calls : List Call) : GapCheck := calls.foldl answer c

/-- The times that were checked since the latest reset, whether they passed or not. -/
def timesSince (calls : List Call) : List Nat :=
  calls.foldl (fun times call =>
    match call with
    | .check time _ => times ++ [time]
    | .reset _ => []) []

/-- The rate of the latest reset. -/
def rateOf (calls : List Call) : ScanRate :=
  calls.foldl (fun rate call =>
    match call with
    | .check _ _ => rate
    | .reset rate => rate) default

variable {calls : List Call} {periods : Nat}

theorem after_concat (call : Call) : c.after (calls ++ [call]) = (c.after calls).answer call := by
  rw [after, List.foldl_append]
  rfl

theorem after_append (c : GapCheck) (calls later : List Call) :
    c.after (calls ++ later) = (c.after calls).after later := List.foldl_append

theorem timesSince_check :
    timesSince (calls ++ [.check time mode]) = timesSince calls ++ [time] := by
  rw [timesSince, List.foldl_append]
  rfl

theorem timesSince_reset (rate : ScanRate) : timesSince (calls ++ [.reset rate]) = [] := by
  rw [timesSince, List.foldl_append]
  rfl

theorem rateOf_check (time : Nat) (mode : SyncMode) :
    rateOf (calls ++ [.check time mode]) = rateOf calls := by
  rw [rateOf, List.foldl_append]
  rfl

theorem rateOf_reset (rate : ScanRate) : rateOf (calls ++ [.reset rate]) = rate := by
  rw [rateOf, List.foldl_append]
  rfl

/-- The limit, the rate of the latest reset, and the greatest time since. -/
structure Remembers (periods : Nat) (calls : List Call) (c : GapCheck) : Prop where
  maxPeriods : c.maxPeriods = periods
  periodUs : c.periodUs = (rateOf calls).periodUs
  lastUs : c.lastUs = (timesSince calls).max?

theorem max?_concat_of_le {times : List Nat} {last : Nat} (h : times.max? = some last)
    (hLe : time ≤ last) : (times ++ [time]).max? = some last := by
  obtain ⟨hMem, hMax⟩ := List.max?_eq_some_iff.mp h
  refine List.max?_eq_some_iff.mpr ⟨List.mem_append_left _ hMem, fun t ht => ?_⟩
  rcases List.mem_append.mp ht with hOld | hNew
  · exact hMax t hOld
  · exact List.mem_singleton.mp hNew ▸ hLe

theorem max?_concat_of_lt {times : List Nat} (h : ∀ last ∈ times.max?, last < time) :
    (times ++ [time]).max? = some time := by
  refine List.max?_eq_some_iff.mpr ⟨by simp, fun t ht => ?_⟩
  rcases List.mem_append.mp ht with hOld | hNew
  · obtain ⟨last, hLast⟩ : ∃ last, times.max? = some last := by
      rw [← Option.isSome_iff_exists, Option.isSome_iff_ne_none, ne_eq, List.max?_eq_none_iff]
      exact List.ne_nil_of_mem hOld
    have hMax := (List.max?_eq_some_iff.mp hLast).2 t hOld
    exact Nat.le_of_lt (Nat.lt_of_le_of_lt hMax (h last hLast))
  · exact Nat.le_of_eq (List.mem_singleton.mp hNew)

theorem Remembers.check (h : Remembers periods calls c) (time : Nat) (mode : SyncMode) :
    Remembers periods (calls ++ [.check time mode]) (c.check time mode).1 := by
  obtain ⟨hPeriods, hPeriod, hLast⟩ := h
  rw [← rateOf_check time mode] at hPeriod
  rcases c.check_cases time mode with ⟨hNone, hCheck⟩ | ⟨last, e, hSome, hLe, hCheck⟩ |
    ⟨last, hSome, hLater, hCheck⟩
  · rw [hCheck]
    refine ⟨hPeriods, hPeriod, ?_⟩
    rw [timesSince_check, max?_concat_of_lt (by rw [← hLast, hNone]; exact nofun)]
  · rw [hCheck]
    refine ⟨hPeriods, hPeriod, ?_⟩
    rw [timesSince_check, max?_concat_of_le (hLast.symm.trans hSome) hLe, hSome]
  · rw [hCheck]
    refine ⟨hPeriods, hPeriod, ?_⟩
    rw [timesSince_check, max?_concat_of_lt]
    rw [← hLast, hSome]
    exact fun last' hLast' => Option.some.inj hLast' ▸ hLater

/-- **All that is remembered.** -/
theorem remembers_after (periods : Nat) (calls : List Call) :
    Remembers periods calls ((new periods).after calls) := by
  induction calls using List.reverseRecOn with
  | nil => exact ⟨rfl, rfl, rfl⟩
  | append_singleton calls call ih =>
    rw [after_concat]
    cases call with
    | check time mode => exact ih.check time mode
    | reset rate => exact ⟨ih.maxPeriods, by rw [rateOf_reset]; rfl, by rw [timesSince_reset]; rfl⟩

/-- What passes, from what is remembered. -/
theorem Remembers.check_ok_iff (h : Remembers periods calls c) (time : Nat) (mode : SyncMode) :
    (c.check time mode).2 = .ok () ↔ ∀ last ∈ (timesSince calls).max?, last < time ∧
      (mode.isTriggered ∨ periods = 0 ∨ time - last ≤ (rateOf calls).periodUs * periods) := by
  rw [← h.lastUs, ← h.periodUs, ← h.maxPeriods]
  rcases c.check_cases time mode with ⟨hNone, hCheck⟩ | ⟨last, e, hLast, hLe, hCheck⟩ |
    ⟨last, hLast, hLater, hCheck⟩
  · rw [hCheck, hNone]
    exact ⟨fun _ => nofun, fun _ => rfl⟩
  · rw [hCheck, hLast]
    refine ⟨nofun, fun hPass => ?_⟩
    have := (hPass last rfl).1
    omega
  · rw [hCheck, hLast]
    constructor
    · intro hPass last' hLast'
      obtain rfl := Option.some.inj hLast'
      refine ⟨hLater, ?_⟩
      by_contra hLong
      rw [if_neg hLong] at hPass
      cases hPass
    · exact fun hPass => if_pos (hPass last rfl).2

/-- A time that is no later than the latest changes nothing. -/
theorem Remembers.check_of_le (h : Remembers periods calls c) {last : Nat}
    (hLast : (timesSince calls).max? = some last) (hLe : time ≤ last) (mode : SyncMode) :
    (c.check time mode).1 = c := by
  rw [← h.lastUs] at hLast
  rcases c.check_cases time mode with ⟨hNone, -⟩ | ⟨_, e, -, -, hCheck⟩ | ⟨_, hSome, hLater, -⟩
  · rw [hLast] at hNone
    cases hNone
  · rw [hCheck]
  · obtain rfl := Option.some.inj (hSome.symm.trans hLast)
    omega

/-- A time that is later is remembered, whether it passes or not. -/
theorem Remembers.check_of_lt (h : Remembers periods calls c)
    (hLater : ∀ last ∈ (timesSince calls).max?, last < time) (mode : SyncMode) :
    (c.check time mode).1 = { c with lastUs := some time } := by
  rw [← h.lastUs] at hLater
  rcases c.check_cases time mode with ⟨-, hCheck⟩ | ⟨last, e, hLast, hLe, -⟩ | ⟨_, -, -, hCheck⟩
  · rw [hCheck]
  · have := hLater last hLast
    omega
  · rw [hCheck]

/-- The product of the limit has its place in 64 bits. -/
theorem Remembers.limit_lt {periods : UInt32} (h : Remembers periods.toNat calls c) :
    c.periodUs * c.maxPeriods < UInt64.size := by
  have hPeriods : periods.toNat ≤ 4294967295 := Nat.le_of_lt_succ periods.toNat_lt
  rw [h.maxPeriods, h.periodUs]
  calc (rateOf calls).periodUs * periods.toNat
      ≤ 200000 * 4294967295 := Nat.mul_le_mul (ScanRate.periodUs_le _) hPeriods
    _ < UInt64.size := by decide

/-- **A check of gaps is told by its history**: the greatest time since the latest reset, whether
it passed or not, and the rate of that reset.  A time passes if there was none, or if it is later,
by no more than the gap that is allowed unless the device waits for triggers or there is no limit.
So the times that pass grow; a time that is no later might as well not have been checked; and one
that is later leaves what it would have left had it passed. -/
theorem check_after (periods : UInt32) (calls : List Call) :
    let start := new periods.toNat
    let c := start.after calls
    let latest := (timesSince calls).max?
    (∀ time mode,
      ((c.check time mode).2 = .ok () ↔ ∀ last ∈ latest, last < time ∧
        (mode.isTriggered ∨ periods = 0 ∨
          time - last ≤ (rateOf calls).periodUs * periods.toNat)) ∧
      c.check? time mode = some (c.check time mode)) ∧
    (∀ checks, (c.passing checks).Pairwise (· < ·)) ∧
    (∀ time mode later, (∃ last ∈ latest, time ≤ last) →
      start.after (calls ++ .check time mode :: later) = start.after (calls ++ later)) ∧
    ∀ time mode mode' later, (∀ last ∈ latest, last < time) →
      start.after (calls ++ .check time mode :: later) =
        start.after (calls ++ .check time mode' :: later) := by
  intro start c latest
  have h : Remembers periods.toNat calls c := remembers_after periods.toNat calls
  refine ⟨fun time mode => ⟨?_, check?_eq h.limit_lt time mode⟩, c.pairwise_passing, ?_, ?_⟩
  · have hNoLimit : periods.toNat = 0 ↔ periods = 0 := UInt32.toNat_inj (b := 0)
    rw [h.check_ok_iff, hNoLimit]
  · rintro time mode later ⟨last, hLast, hLe⟩
    rw [after_append, after_append]
    exact congrArg (fun c => c.after later) (h.check_of_le hLast hLe mode)
  · intro time mode mode' later hLater
    rw [after_append, after_append]
    exact congrArg (fun c => c.after later)
      ((h.check_of_lt hLater mode).trans (h.check_of_lt hLater mode').symm)

/-- A second's silence where two frames are allowed, with a backward time behind it: the next frame
passes. -/
theorem check_after_silence :
    (new 2).after [.check 100000 .freeRun, .check 1100000 .freeRun, .check 0 .freeRun] =
        (new 2).after [.check 100000 .freeRun, .check 1100000 .hardwareTriggering] ∧
      (((new 2).after [.check 100000 .freeRun]).check 1100000 .freeRun).2 ≠ .ok () ∧
      (((new 2).after [.check 100000 .freeRun, .check 1100000 .freeRun]).check 1200000
        .freeRun).2 = .ok () := by
  obtain ⟨hGap, -, -, hKept⟩ := check_after 2 [.check 100000 .freeRun]
  obtain ⟨hNext, -, hBack, -⟩ :=
    check_after 2 [.check 100000 .freeRun, .check 1100000 .freeRun]
  refine ⟨?_, ?_, ?_⟩
  · exact (hBack 0 .freeRun [] ⟨1100000, rfl, by decide⟩).trans
      (hKept 1100000 .freeRun .hardwareTriggering [] fun last hLast => by
        obtain rfl := Option.some.inj hLast
        decide)
  · intro hPass
    exact absurd ((hGap 1100000 .freeRun).1.mp hPass 100000 rfl) (by decide)
  · refine (hNext 1200000 .freeRun).1.mpr fun last hLast => ?_
    obtain rfl := Option.some.inj hLast
    decide

end GapCheck

end LidarSweep

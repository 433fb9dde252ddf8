import LidarSweep.Proofs.Machine.Calm

/-!
# Where listeners come in between

Listeners are told in the middle of starts, halts and deliveries.  What the thread has to do then
stands behind the notices on its agenda, and nothing but stops gets in front of it (`Woven`).

A delivery holds its lock until the consumer has the frame.  A halt takes that lock and lets go of
it at once, and from then on until it settles the state it waits for nobody (`Nested`).  So an
agenda tells how often its thread holds the delivery lock (`lent`), as it does for the restart
lock.
-/

namespace LidarSweep

/-! ### What stops get in front of -/

namespace Action

/-- Whether nothing but stops gets in front of the action once it is on an agenda. -/
def isBound : Action → Bool
  | beginHalt _ | closeSource _ | settle _ _ | openSource _ | revert _ | consume _ _ _
  | checkPending _ _ _ _ _ => true
  | _ => false

/-- Whether the action may stand in front of a bound one. -/
def isInFront : Action → Bool
  | uninstall => true
  | action => action.isStop

theorem isInFront_iff {action : Action} :
    action.isInFront = true ↔ action = .uninstall ∨ action.isStop = true := by
  cases action <;> simp [isInFront, isStop]

theorem le_owes_of_isInFront {action : Action} (h : action.isInFront = true) (n : Nat) :
    n ≤ action.owes n := by
  rcases isInFront_iff.mp h with rfl | hStop
  · exact Nat.le_refl n
  · exact le_owes_of_isStop hStop n

theorem isBound_of_settles {action : Action} (h : action.settles = true) :
    action.isBound = true := by
  cases action <;> first | rfl | cases h

theorem isGuarded_of_settles {action : Action} (h : action.settles = true) :
    action.isGuarded = true := by
  cases action <;> first | rfl | cases h

theorem isBound_of_stops {action : Action} (h : action.stops = true) : action.isBound = true := by
  cases action <;> first | rfl | cases h

/-- What stands in front of a bound action puts nothing but stops there. -/
theorem isStop_of_isInFront {action : Action} {me : ThreadId} {last : Except Error Unit}
    {s : Stream} {e : Effect} (hFront : action.isInFront = true)
    (h : action.perform me last s = some e) : ∀ x ∈ e.next, x.isStop = true := by
  rcases isInFront_iff.mp hFront with rfl | hStop
  · cases h
    exact List.forall_mem_nil _
  · exact isStop_of_perform hStop h

end Action

/-- Nothing but stops stands in front of what they may interrupt. -/
def Woven : List Action → Prop
  | [] => True
  | action :: rest => ((∃ x ∈ rest, x.isBound = true) → action.isInFront = true) ∧ Woven rest

namespace Woven

variable {action x : Action} {agenda l rest : List Action}

theorem append (hNew : Woven l) (hRest : Woven rest)
    (hFront : (∃ x ∈ rest, x.isBound = true) → ∀ y ∈ l, y.isInFront = true) :
    Woven (l ++ rest) := by
  induction l with
  | nil => exact hRest
  | cons action l ih =>
    obtain ⟨hOwn, hNew⟩ := hNew
    refine ⟨?_, ih hNew fun hBound y hy => hFront hBound y (List.mem_cons_of_mem _ hy)⟩
    rintro ⟨x, hx, hBound⟩
    rcases List.mem_append.mp hx with hMem | hMem
    · exact hOwn ⟨x, hMem, hBound⟩
    · exact hFront ⟨x, hMem, hBound⟩ action List.mem_cons_self

theorem of_loose (h : ∀ x ∈ l, x.isBound = false) : Woven l := by
  induction l with
  | nil => trivial
  | cons action l ih =>
    refine ⟨?_, ih fun x hx => h x (List.mem_cons_of_mem _ hx)⟩
    rintro ⟨x, hx, hBound⟩
    cases (h x (List.mem_cons_of_mem _ hx)).symm.trans hBound

theorem append_singleton (h : ∀ y ∈ l, y.isInFront = true) (x : Action) : Woven (l ++ [x]) := by
  induction l with
  | nil => exact ⟨fun ⟨_, hx, _⟩ => (List.not_mem_nil hx).elim, trivial⟩
  | cons action l ih =>
    exact ⟨fun _ => h action List.mem_cons_self, ih fun y hy => h y (List.mem_cons_of_mem _ hy)⟩

/-- Behind an action that does not stand in front of others nothing is bound. -/
theorem not_isBound (h : Woven (action :: rest)) (hFront : action.isInFront = false)
    (hx : x ∈ rest) : x.isBound = false := by
  cases hBound : x.isBound with
  | false => rfl
  | true => cases (h.1 ⟨x, hx, hBound⟩).symm.trans hFront

/-- A thread that a stop has interrupted in a start or halt still holds the restart lock. -/
theorem owed_pos (h : Woven agenda) (hSound : Sound agenda) (hx : x ∈ agenda)
    (hBound : x.isBound = true) (hGuarded : x.isGuarded = true) : 0 < owed agenda := by
  induction agenda with
  | nil => cases hx
  | cons action rest ih =>
    rcases List.mem_cons.mp hx with rfl | hRest
    · exact Action.owed_of_isGuarded hSound.1 hGuarded
    · have hFront := h.1 ⟨x, hRest, hBound⟩
      exact Nat.lt_of_lt_of_le (ih h.2 hSound.2 hRest) (Action.le_owes_of_isInFront hFront _)

end Woven

theorem Notice.isInFront_of_mem_tellAll {n : Option Notice} {x : Action}
    (h : x ∈ Notice.tellAll n) : x.isInFront = true :=
  Action.isInFront_iff.mpr (.inr (Action.isStop_of_mem_tellAll h))

namespace Stream

variable (s : Stream)

theorem woven_openSource (activation : Nat) : Woven (s.openSource activation).next := by
  rcases s.next_openSource activation with hNext | ⟨cause, hNext⟩
  · rw [hNext]
    trivial
  · rw [hNext]
    refine Woven.append_singleton (l := [.uninstall]) (fun y hy => ?_) _
    obtain rfl := List.mem_singleton.mp hy
    rfl

theorem woven_beginHalt (ending : Ending) : Woven (s.beginHalt ending).next := by
  unfold beginHalt
  split
  · trivial
  · refine Woven.append_singleton (fun y hy => ?_) _
    split at hy
    · exact Notice.isInFront_of_mem_tellAll hy
    · cases hy

theorem woven_closeSource (ending : Ending) : Woven (s.closeSource ending).next := by
  obtain ⟨result, hNext⟩ := s.next_closeSource ending
  rw [hNext]
  exact Woven.append_singleton (l := [.acquire .delivery, .release .delivery, .retire])
    (List.all_eq_true.mp rfl) _

theorem woven_confirm (activation : Nat) (profile : Profile) (consumer : ConsumerId)
    (frame : Frame) : Woven (s.confirm activation profile consumer frame).next := by
  unfold confirm
  split
  · exact Woven.append_singleton (fun y hy => Notice.isInFront_of_mem_tellAll hy) _
  · trivial

theorem woven_beginRestart (budget : Budget) (vigil : Vigil) (limit : Nat) :
    Woven (s.beginRestart budget vigil limit).next := by
  rw [beginRestart_eq]
  cases s.renewal? vigil with
  | none =>
    refine .of_loose fun x hx => ?_
    simp only [List.mem_cons, List.not_mem_nil, or_false] at hx
    rcases hx with rfl | rfl <;> rfl
  | some renewal => exact Woven.append_singleton (l := Action.stop) (List.all_eq_true.mp rfl) _

end Stream

/-- What an action puts on the agenda is woven. -/
theorem Action.woven_of_perform {action : Action} {me : ThreadId} {last : Except Error Unit}
    {s : Stream} {e : Effect} (h : action.perform me last s = some e)
    (hStems : ∀ x ∈ e.next, action.stemsFrom x = true) : Woven e.next := by
  cases action
  case activate profile consumer =>
    cases h
    exact Woven.append_singleton (fun y hy => Notice.isInFront_of_mem_tellAll hy) _
  case openSource => cases h; exact s.woven_openSource _
  case halt ending =>
    rcases s.halt_cases h with ⟨locks, _, rfl⟩ | ⟨_, ⟨_, rfl⟩ | ⟨_, rfl⟩⟩
    · refine ⟨?_, ?_, trivial⟩
      · rintro ⟨x, hx, hBound⟩
        obtain rfl := List.mem_singleton.mp hx
        cases hBound
      · rintro ⟨x, hx, _⟩
        cases hx
    · trivial
    · trivial
  case beginHalt => cases h; exact s.woven_beginHalt _
  case closeSource => cases h; exact s.woven_closeSource _
  case confirm => cases h; exact s.woven_confirm _ _ _ _
  case beginRestart => cases h; exact s.woven_beginRestart _ _ _
  all_goals
    refine .of_loose fun x hx => ?_
    have hStem := hStems x hx
    cases x
    case beginHalt | closeSource | settle | openSource | revert | consume | checkPending =>
      cases hStem
    all_goals rfl

/-- **Every action leaves a woven agenda woven.** -/
theorem Woven.of_perform {action : Action} {me : ThreadId} {last : Except Error Unit} {s : Stream}
    {e : Effect} {rest : List Action} (hWoven : Woven (action :: rest))
    (h : action.perform me last s = some e) (hStems : ∀ x ∈ e.next, action.stemsFrom x = true) :
    Woven (e.next ++ rest) :=
  (Action.woven_of_perform h hStems).append hWoven.2 fun hBound y hy =>
    Action.isInFront_iff.mpr (.inr <| Action.isStop_of_isInFront (hWoven.1 hBound) h y hy)

/-! ### The delivery lock -/

/-- How often a thread holds the delivery lock before this action, if it holds it `n` times after
it. -/
def Action.lends : Action → Nat → Nat
  | acquire .delivery, n => n - 1
  | release .delivery, n => n + 1
  | _, n => n

/-- How often a thread with this agenda holds the delivery lock. -/
def lent (agenda : List Action) : Nat := agenda.foldr Action.lends 0

theorem lent_cons (action : Action) (rest : List Action) :
    lent (action :: rest) = action.lends (lent rest) := rfl

theorem lent_append_of_idle {l rest : List Action} (h : ∀ x ∈ l, ∀ n, x.lends n = n) :
    lent (l ++ rest) = lent rest := by
  induction l with
  | nil => rfl
  | cons x l ih =>
    rw [List.cons_append, lent_cons, h x List.mem_cons_self,
      ih fun y hy => h y (List.mem_cons_of_mem _ hy)]

/-- Whether the thread is about to let go of the delivery lock. -/
def isReleasing : List Action → Bool
  | .release .delivery :: _ => true
  | _ => false

/-- Whether the thread has waited for the delivery lock and is about to settle how a halt ends. -/
def isCleared : List Action → Bool
  | .settle _ _ :: _ | .retire :: .settle _ _ :: _
  | .release .delivery :: .retire :: .settle _ _ :: _ => true
  | _ => false

namespace Action

/-- Whether the action takes the delivery lock, lets go of it or comes after that in a halt. -/
def clears : Action → Bool
  | acquire .delivery | release .delivery | retire => true
  | _ => false

/-- Whether the action is part of neither a delivery nor the end of a halt. -/
def isApart : Action → Bool
  | acquire .delivery | release .delivery | retire | settle _ _ | deliver _ _ | process _ _ _ _
  | confirm _ _ _ _ | consume _ _ _ => false
  | _ => true

/-- Whether `rest` may come after an action of a delivery. -/
def Nests (rest : List Action) : Action → Prop
  | acquire .delivery =>
    isReleasing rest = true ∨
      ∃ activation frame rest', rest = deliver activation frame :: rest' ∧
        isReleasing rest' = true
  | deliver _ _ => isReleasing rest = true
  | process _ _ _ _ | confirm _ _ _ _ | consume _ _ _ => 0 < lent rest
  | _ => True

/-- Before a thread is about to settle a halt, it has waited for the delivery lock. -/
def Clears (rest : List Action) (action : Action) : Prop :=
  isCleared rest = true →
    action.clears = true ∧ (isCleared (action :: rest) = true ∨ action = acquire .delivery)

end Action

/-- The actions of deliveries and halts are where they belong. -/
def Nested : List Action → Prop
  | [] => True
  | action :: rest => action.Nests rest ∧ action.Clears rest ∧ Nested rest

theorem lent_of_isReleasing {rest : List Action} (h : isReleasing rest = true) : 0 < lent rest := by
  unfold isReleasing at h
  split at h
  · exact Nat.succ_pos _
  · cases h

/-- Whoever takes the delivery lock lets go of it later. -/
theorem lent_of_acquire {rest : List Action} (h : (Action.acquire .delivery).Nests rest) :
    0 < lent rest := by
  rcases h with hReleasing | ⟨activation, frame, rest', rfl, hReleasing⟩
  · exact lent_of_isReleasing hReleasing
  · have hLater : 0 < lent rest' := lent_of_isReleasing hReleasing
    exact hLater

theorem settles_of_isCleared {agenda : List Action} (h : isCleared agenda = true) :
    ∃ x ∈ agenda, x.settles = true := by
  unfold isCleared at h
  split at h
  · exact ⟨_, List.mem_cons_self, rfl⟩
  · exact ⟨_, List.mem_cons_of_mem _ List.mem_cons_self, rfl⟩
  · exact ⟨_, List.mem_cons_of_mem _ (List.mem_cons_of_mem _ List.mem_cons_self), rfl⟩
  · cases h

theorem isCleared_release {rest : List Action} (h : isCleared rest = false) :
    isCleared (.release .delivery :: rest) = false := by
  cases hCleared : isCleared (.release .delivery :: rest) with
  | false => rfl
  | true =>
    unfold isCleared at hCleared
    split at hCleared
    next hEq => cases hEq
    next hEq => cases hEq
    next hEq =>
      obtain rfl := (List.cons.inj hEq).2
      cases h
    · cases hCleared

namespace Action

variable {action : Action} {rest : List Action}

theorem clears_of_not_isCleared (h : isCleared rest = false) : action.Clears rest := fun hCleared =>
  absurd hCleared (Bool.eq_false_iff.mp h)

theorem isCleared_of_isApart (h : action.isApart = true) : isCleared (action :: rest) = false := by
  cases action
  case release lock =>
    cases lock
    case delivery => cases h
    all_goals rfl
  all_goals first | rfl | cases h

theorem nests_of_isApart (h : action.isApart = true) : action.Nests rest := by
  cases action
  case acquire lock =>
    cases lock
    case delivery => cases h
    all_goals trivial
  all_goals trivial

theorem lends_of_isApart (h : action.isApart = true) (n : Nat) : action.lends n = n := by
  cases action
  case acquire lock | release lock =>
    cases lock
    case delivery => cases h
    all_goals rfl
  all_goals rfl

end Action

namespace Nested

variable {action x : Action} {agenda l rest : List Action}

/-- Where other actions come in, no halt is about to be settled. -/
theorem append_apart (hRest : Nested rest) (hCleared : isCleared rest = false)
    (h : ∀ x ∈ l, x.isApart = true) : Nested (l ++ rest) := by
  suffices hAll : Nested (l ++ rest) ∧ isCleared (l ++ rest) = false from hAll.1
  induction l with
  | nil => exact ⟨hRest, hCleared⟩
  | cons x l ih =>
    obtain ⟨hLater, hNot⟩ := ih fun y hy => h y (List.mem_cons_of_mem _ hy)
    have hApart := h x List.mem_cons_self
    exact ⟨⟨Action.nests_of_isApart hApart, Action.clears_of_not_isCleared hNot, hLater⟩,
      Action.isCleared_of_isApart hApart⟩

theorem cons (hRest : Nested rest) (hNests : action.Nests rest)
    (hCleared : isCleared rest = false) : Nested (action :: rest) :=
  ⟨hNests, Action.clears_of_not_isCleared hCleared, hRest⟩

/-- A thread that has a frame for the consumer holds the delivery lock, and still does when it has
let go of it once. -/
theorem lent_pos (h : Nested agenda) (hWoven : Woven agenda) {profile : Profile}
    {consumer : ConsumerId} {frame : Frame} (hx : .consume profile consumer frame ∈ agenda) :
    0 < lent agenda ∧ (isReleasing agenda = true → 1 < lent agenda) := by
  induction agenda with
  | nil => cases hx
  | cons action rest ih =>
    rw [lent_cons]
    rcases List.mem_cons.mp hx with rfl | hRest
    · exact ⟨h.1, fun hTrue => by cases hTrue⟩
    · obtain ⟨hPos, hMore⟩ := ih h.2.2 hWoven.2 hRest
      have hFront := hWoven.1 ⟨_, hRest, rfl⟩
      cases action
      case acquire lock =>
        cases lock
        case delivery =>
          refine ⟨Nat.sub_pos_of_lt ?_, fun hTrue => by cases hTrue⟩
          rcases h.1 with hReleasing | ⟨activation, frame', rest', rfl, _⟩
          · exact hMore hReleasing
          · rcases List.mem_cons.mp hRest with hEq | hRest'
            · cases hEq
            · cases hWoven.2.1 ⟨_, hRest', rfl⟩
        all_goals exact ⟨hPos, fun hTrue => by cases hTrue⟩
      case release lock =>
        cases lock
        case delivery => exact ⟨Nat.succ_pos _, fun _ => Nat.succ_lt_succ hPos⟩
        all_goals exact ⟨hPos, fun hTrue => by cases hTrue⟩
      all_goals exact ⟨hPos, fun hTrue => by cases hTrue⟩

end Nested

/-- Whether the action takes the delivery lock or lets go of it. -/
def Action.turns : Action → Bool
  | acquire .delivery | release .delivery => true
  | _ => false

theorem Action.lends_of_not_turns {action : Action} (h : action.turns = false) (n : Nat) :
    action.lends n = n := by
  cases action
  case acquire lock | release lock =>
    cases lock
    case delivery => cases h
    all_goals rfl
  all_goals rfl

namespace Stream

variable (s : Stream) {rest : List Action}

/-- A packet puts a delivery on the agenda, or nothing. -/
theorem next_ingest (activation : Nat) (packet : List UInt8) :
    (s.ingest activation packet).next = [] ∨
      ∃ frame, (s.ingest activation packet).next =
        [.acquire .delivery, .deliver activation frame, .release .delivery] := by
  unfold ingest
  split
  · exact .inl rfl
  · dsimp only
    split
    · exact .inl rfl
    · exact .inr ⟨_, rfl⟩

theorem nested_ingest (hRest : Nested rest) (hCleared : isCleared rest = false) (activation : Nat)
    (packet : List UInt8) : Nested ((s.ingest activation packet).next ++ rest) := by
  rcases s.next_ingest activation packet with hNext | ⟨frame, hNext⟩
  · rw [hNext]
    exact hRest
  · rw [hNext]
    have hRelease : Nested (.release .delivery :: rest) := hRest.cons trivial hCleared
    have hDeliver : Nested (.deliver activation frame :: .release .delivery :: rest) :=
      hRelease.cons rfl (isCleared_release hCleared)
    exact hDeliver.cons (.inr ⟨activation, frame, _, rfl, rfl⟩) rfl

theorem nested_closeSource (hRest : Nested rest) (hCleared : isCleared rest = false)
    (ending : Ending) : Nested ((s.closeSource ending).next ++ rest) := by
  obtain ⟨result, hNext⟩ := s.next_closeSource ending
  rw [hNext]
  have hSettle : Nested (.settle ending result :: rest) := hRest.cons trivial hCleared
  exact ⟨.inl rfl, fun _ => ⟨rfl, .inr rfl⟩, trivial, fun _ => ⟨rfl, .inl rfl⟩, trivial,
    fun _ => ⟨rfl, .inl rfl⟩, hSettle⟩

theorem nested_deliver (hRest : Nested rest) (hCleared : isCleared rest = false)
    (hLent : 0 < lent rest) (activation : Nat) (frame : Frame) :
    Nested ((s.deliver activation frame).next ++ rest) := by
  unfold deliver
  split
  next profile consumer _ _ _ =>
    have hProcess : Nested (.process activation profile consumer frame :: rest) :=
      hRest.cons hLent hCleared
    exact hProcess.append_apart (l := [.acquire .pipeline]) rfl (List.all_eq_true.mp rfl)
  · exact hRest

theorem nested_process (hRest : Nested rest) (hCleared : isCleared rest = false)
    (hLent : 0 < lent rest) (activation : Nat) (profile : Profile) (consumer : ConsumerId)
    (frame : Frame) : Nested ((s.process activation profile consumer frame).next ++ rest) := by
  have hConfirm (frame : Frame) : Nested (.confirm activation profile consumer frame :: rest) :=
    hRest.cons hLent hCleared
  unfold process
  rcases s.pipeline.run (s.wall s.now) s.device.syncMode profile frame with ⟨pipeline, verdict⟩
  dsimp only
  split
  next cause =>
    exact hRest.append_apart (l := [.release .pipeline, .dropFrame cause]) hCleared
      (List.all_eq_true.mp rfl)
  · exact hRest.append_apart (l := [.release .pipeline]) hCleared (List.all_eq_true.mp rfl)
  next frame =>
    exact (hConfirm frame).append_apart (l := [.release .pipeline]) rfl (List.all_eq_true.mp rfl)
  next frame =>
    rw [List.append_assoc]
    refine Nested.append_apart ?_ rfl fun x hx => ?_
    · exact (hConfirm frame).append_apart (l := [.release .pipeline]) rfl
        (List.all_eq_true.mp rfl)
    · unfold request at hx
      split at hx
      · cases hx
      · obtain rfl := List.mem_singleton.mp hx
        rfl

theorem nested_confirm (hRest : Nested rest) (hCleared : isCleared rest = false)
    (hLent : 0 < lent rest) (activation : Nat) (profile : Profile) (consumer : ConsumerId)
    (frame : Frame) : Nested ((s.confirm activation profile consumer frame).next ++ rest) := by
  unfold confirm
  split
  · have hConsume : Nested (.consume profile consumer frame :: rest) := hRest.cons hLent hCleared
    rw [List.append_assoc]
    refine hConsume.append_apart rfl fun x hx => ?_
    obtain ⟨i, state, told, rfl⟩ := Notice.eq_tell_of_mem_tellAll hx
    rfl
  · exact hRest

end Stream

namespace Action

variable {action : Action} {me : ThreadId} {last : Except Error Unit} {s : Stream} {e : Effect}
  {rest : List Action}

/-- Who takes the delivery lock, lets go of it or retires the assembler has nothing more to do. -/
theorem next_of_clears (hClears : action.clears = true) (h : action.perform me last s = some e) :
    e.next = [] := by
  cases action
  case acquire lock =>
    obtain ⟨locks, _, rfl⟩ := Option.map_eq_some_iff.mp h
    rfl
  case release | retire =>
    cases h
    rfl
  all_goals cases hClears

/-- Whether the action may put others on the agenda that are part of a delivery or the end of a
halt. -/
def nests : Action → Bool
  | closeSource _ | ingest _ _ | deliver _ _ | process _ _ _ _ | confirm _ _ _ _ => true
  | _ => false

theorem isApart_of_stemsFrom {x : Action} (hNests : action.nests = false)
    (h : action.stemsFrom x = true) : x.isApart = true := by
  cases x
  case acquire lock | release lock =>
    cases lock
    case delivery => cases action <;> first | (cases h; done) | cases hNests
    all_goals rfl
  case retire | settle | deliver | process | confirm | consume =>
    cases action <;> first | (cases h; done) | cases hNests
  all_goals rfl

/-- What an action that is not about the delivery lock puts on the agenda leaves that lock as it
is. -/
theorem lent_of_perform (hTurns : action.turns = false) (h : action.perform me last s = some e)
    (hStems : ∀ x ∈ e.next, action.stemsFrom x = true) :
    lent (e.next ++ rest) = lent (action :: rest) := by
  rw [lent_cons, lends_of_not_turns hTurns]
  cases action
  case ingest activation packet =>
    cases h
    rcases s.next_ingest activation packet with hNext | ⟨frame, hNext⟩
    · rw [hNext]
      rfl
    · rw [hNext]
      exact Nat.add_sub_cancel _ 1
  case closeSource ending =>
    cases h
    obtain ⟨result, hNext⟩ := s.next_closeSource ending
    rw [hNext]
    exact Nat.add_sub_cancel _ 1
  all_goals
    refine lent_append_of_idle fun x hx => lends_of_not_turns ?_
    have hStem := hStems x hx
    cases x
    case acquire lock | release lock =>
      cases lock
      case delivery => cases hStem
      all_goals rfl
    all_goals rfl

end Action

/-- **Every action leaves a nested agenda nested.** -/
theorem Nested.of_perform {action : Action} {me : ThreadId} {last : Except Error Unit} {s : Stream}
    {e : Effect} {rest : List Action} (hNested : Nested (action :: rest))
    (h : action.perform me last s = some e) (hStems : ∀ x ∈ e.next, action.stemsFrom x = true) :
    Nested (e.next ++ rest) := by
  obtain ⟨hNests, hClears, hRest⟩ := hNested
  cases hCleared : isCleared rest with
  | true =>
    rw [Action.next_of_clears (hClears hCleared).1 h]
    exact hRest
  | false =>
    by_cases hMay : action.nests = true
    · cases action
      case closeSource => cases h; exact s.nested_closeSource hRest hCleared _
      case ingest => cases h; exact s.nested_ingest hRest hCleared _ _
      case deliver =>
        cases h
        exact s.nested_deliver hRest hCleared (lent_of_isReleasing hNests) _ _
      case process => cases h; exact s.nested_process hRest hCleared hNests _ _ _ _
      case confirm => cases h; exact s.nested_confirm hRest hCleared hNests _ _ _ _
      all_goals cases hMay
    · exact hRest.append_apart hCleared fun x hx =>
        Action.isApart_of_stemsFrom (Bool.not_eq_true _ ▸ hMay) (hStems x hx)

theorem isCleared_cons {x : Action} {rest : List Action} (h : isCleared (x :: rest) = true) :
    (∃ ending result, x = .settle ending result) ∨ x = .retire ∨ x = .release .delivery := by
  cases x
  case settle ending result => exact .inl ⟨ending, result, rfl⟩
  case retire => exact .inr (.inl rfl)
  case release lock =>
    cases lock
    case delivery => exact .inr (.inr rfl)
    all_goals cases h
  all_goals cases h

/-- A halt is about to be settled only where it was before, or has just got the delivery lock. -/
theorem Nested.isCleared_of_perform {action : Action} {me : ThreadId} {last : Except Error Unit}
    {s : Stream} {e : Effect} {rest : List Action} (hNested : Nested (action :: rest))
    (h : action.perform me last s = some e) (hStems : ∀ x ∈ e.next, action.stemsFrom x = true)
    (hCleared : isCleared (e.next ++ rest) = true) :
    isCleared (action :: rest) = true ∨ action = .acquire .delivery := by
  cases hNext : e.next with
  | nil =>
    rw [hNext] at hCleared
    exact (hNested.2.1 hCleared).2
  | cons x next =>
    -- What begins with the end of a halt is put on no agenda.
    rw [hNext, List.cons_append] at hCleared
    have hStem := hStems x (hNext ▸ List.mem_cons_self)
    rcases isCleared_cons hCleared with ⟨ending, result, rfl⟩ | rfl | rfl
    all_goals
      cases action
      case closeSource =>
        cases h
        cases hNext
      case ingest activation packet =>
        first
        | cases hStem; done
        | cases h
          rcases s.next_ingest activation packet with hNone | ⟨frame, hSome⟩
          · cases hNone.symm.trans hNext
          · cases hSome.symm.trans hNext
      all_goals cases hStem

/-! ### Who has a frame for the consumer -/

/-- Whether the action lets go of the delivery lock, unless a frame goes on its way. -/
def Action.parts : Action → Bool
  | release .delivery | deliver _ _ => true
  | _ => false

/-- The thread holds the delivery lock for longer than it takes to let go of it. -/
def Serving : List Action → Prop
  | .release .delivery :: rest => 0 < lent rest
  | .deliver _ _ :: rest => 1 < lent rest
  | agenda => 0 < lent agenda

namespace Serving

variable {action : Action} {agenda rest : List Action}

theorem lent_pos (h : Serving agenda) : 0 < lent agenda := by
  unfold Serving at h
  split at h
  · exact Nat.succ_pos _
  · exact Nat.lt_of_succ_lt h
  · exact h

theorem of_lent (hParts : action.parts = false) (h : 0 < lent (action :: rest)) :
    Serving (action :: rest) := by
  unfold Serving
  split
  next hEq =>
    cases (List.cons.inj hEq).1
    cases hParts
  next hEq =>
    cases (List.cons.inj hEq).1
    cases hParts
  · exact h

/-- A thread that has a frame for the consumer serves it. -/
theorem of_consume (hNested : Nested agenda) (hWoven : Woven agenda) {profile : Profile}
    {consumer : ConsumerId} {frame : Frame} (hx : .consume profile consumer frame ∈ agenda) :
    Serving agenda := by
  obtain ⟨hPos, hMore⟩ := hNested.lent_pos hWoven hx
  unfold Serving
  split
  · exact Nat.lt_of_succ_lt_succ (hMore rfl)
  next activation frame' rest =>
    rcases List.mem_cons.mp hx with hEq | hRest
    · cases hEq
    · cases hWoven.1 ⟨_, hRest, rfl⟩
  · exact hPos

/-- A thread comes to serve a consumer only by delivering a frame of the current activation. -/
theorem of_perform {me : ThreadId} {last : Except Error Unit} {s : Stream} {e : Effect}
    (hNested : Nested (action :: rest)) (h : action.perform me last s = some e)
    (hStems : ∀ x ∈ e.next, action.stemsFrom x = true) (hServing : Serving (e.next ++ rest)) :
    Serving (action :: rest) ∨
      ∃ activation frame, action = .deliver activation frame ∧
        s.control.isCurrent activation = true := by
  by_cases hTurns : action.turns = true
  · left
    cases action
    case acquire lock =>
      cases lock
      case delivery =>
        obtain ⟨locks, _, rfl⟩ := Option.map_eq_some_iff.mp h
        refine of_lent rfl (Nat.sub_pos_of_lt ?_)
        rcases hNested.1 with hReleasing | ⟨activation, frame, rest', rfl, _⟩
        · unfold isReleasing at hReleasing
          split at hReleasing
          · exact Nat.succ_lt_succ hServing
          · cases hReleasing
        · exact hServing
      all_goals cases hTurns
    case release lock =>
      cases lock
      case delivery =>
        cases h
        exact hServing.lent_pos
      all_goals cases hTurns
    all_goals cases hTurns
  · rw [Bool.not_eq_true] at hTurns
    have hLent : lent (e.next ++ rest) = lent (action :: rest) :=
      Action.lent_of_perform hTurns h hStems
    cases hParts : action.parts with
    | false => exact .inl (of_lent hParts (hLent ▸ hServing.lent_pos))
    | true =>
      cases action
      case release lock =>
        cases lock
        case delivery => cases hTurns
        all_goals cases hParts
      case deliver activation frame =>
        cases hCurrent : s.control.isCurrent activation with
        | true => exact .inr ⟨activation, frame, rfl, hCurrent⟩
        | false =>
          cases h
          have hLate : (s.deliver activation frame).next = [] := by
            unfold Stream.deliver
            rw [hCurrent]
            split
            · next hFalse => cases hFalse
            · rfl
          rw [hLate] at hServing
          have hReleasing : isReleasing rest = true := hNested.1
          unfold isReleasing at hReleasing
          split at hReleasing
          · exact .inl (Nat.succ_lt_succ hServing)
          · cases hReleasing
      all_goals cases hParts

end Serving

end LidarSweep

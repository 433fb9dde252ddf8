import LidarSweep.Proofs.Machine.Path

/-!
# Agendas and the restart lock

An agenda tells by itself how often its thread holds the restart lock (`owed`), and which part of it
will be done before the thread lets go of that lock (`held`). In a sound agenda every action is
where it belongs: starts, halts and restarts stand under the lock, nothing that a listener or a
consumer may ask for stands where it could be undone by the operation around it, and the watcher's
own actions come last. Every action leaves a sound agenda sound.
-/

namespace LidarSweep

namespace Action

/-- How often a thread holds the restart lock before this action, if it holds it `n` times after
it. -/
def owes : Action → Nat → Nat
  | acquire .restart, n => n - 1
  | release .restart, n | beginRestart _ _ _, n | checkPending _ _ _ _ _, n
  | endRestart _ _ _ _ _, n => n + 1
  | _, n => n

/-- Only a thread that takes the restart lock holds it less often before than after. -/
theorem le_owes {action : Action} (h : action ≠ .acquire .restart) (n : Nat) :
    n ≤ action.owes n := by
  cases action
  case acquire lock =>
    cases lock
    case restart => exact absurd rfl h
    all_goals exact Nat.le_refl n
  case release lock =>
    cases lock
    case restart => exact Nat.le_succ n
    all_goals exact Nat.le_refl n
  case beginRestart | checkPending | endRestart => exact Nat.le_succ n
  all_goals exact Nat.le_refl n

/-- Whether the action is on the way of a start or restart to an active stream. -/
def revives : Action → Bool
  | checkStart _ _ | activate _ _ | beginRestart _ _ _ | endRestart _ _ _ _ _ => true
  | _ => false

/-- Whether the action belongs to a restart whose own halt has begun. -/
def isRenewal : Action → Bool
  | checkPending _ _ _ _ _ | endRestart _ _ _ _ _ => true
  | _ => false

/-- Whether the action is on the way of a halt that has begun. -/
def settles : Action → Bool
  | closeSource _ | settle _ _ => true
  | _ => false

/-- Whether the action makes the stream fail. -/
def fails : Action → Bool
  | closeSource ending | settle ending _ => ending = .failed
  | _ => false

/-- Whether the action is part of an operation that goes on as long as the restart lock is held. -/
def isUnderway (action : Action) : Bool := action.isRenewal || action.settles

/-- Whether the action is the watcher's. -/
def isWatching : Action → Bool
  | watch _ | awaitWake _ _ | awaitFrame _ _ | stall _ _ _ | beginRestart _ _ _
  | checkPending _ _ _ _ _ | endRestart _ _ _ _ _ | reckon _ _ => true
  | _ => false

/-- Whether a thread that `cause` sets to work may begin with this. -/
def begets (cause : Action) : Action → Bool
  | play activation _ _ =>
    match cause with
    | openSource activation' => activation = activation'
    | _ => false
  | watch budget => budget.retries = 0
  | _ => false

/-- Whether listeners may be told of what the action does. -/
def isPublic : Action → Bool
  | activate _ _ | revert _ | beginHalt _ | settle _ _ | confirm _ _ _ _ | checkPending _ _ _ _ _
  | endRestart _ _ _ _ _ => true
  | _ => false

/-- Whether this action may have been put on an agenda by `cause`. Nothing is said of actions that
neither change the state of a stream or tell of it, nor bring packets and frames on, nor are the
watcher's. -/
def stemsFrom (cause : Action) : Action → Bool
  | tell _ _ _ => cause.isPublic
  | checkStart _ _ =>
    match cause with
    | consume _ _ _ | checkPending _ _ _ _ _ => true
    | _ => false
  | resetPipeline _ | install _ _ | activate _ _ =>
    match cause with
    | checkStart _ _ => true
    | _ => false
  | openSource _ =>
    match cause with
    | activate _ _ => true
    | _ => false
  | uninstall | revert _ =>
    match cause with
    | openSource _ => true
    | _ => false
  | receive _ _ =>
    match cause with
    | offer _ | play _ _ _ => true
    | _ => false
  | play _ _ _ =>
    match cause with
    | play _ _ _ => true
    | _ => false
  | ingest _ _ =>
    match cause with
    | receive _ _ => true
    | _ => false
  | deliver _ _ =>
    match cause with
    | ingest _ _ => true
    | _ => false
  | acquire .delivery | release .delivery =>
    match cause with
    | ingest _ _ | closeSource _ => true
    | _ => false
  | process _ _ _ _ =>
    match cause with
    | deliver _ _ => true
    | _ => false
  | confirm _ _ _ _ =>
    match cause with
    | process _ _ _ _ => true
    | _ => false
  | consume _ _ _ =>
    match cause with
    | confirm _ _ _ _ => true
    | _ => false
  | halt ending =>
    match cause with
    | reckon _ _ => true
    | _ => ending = .stopped
  | beginHalt ending =>
    match cause with
    | halt ending' => ending = ending'
    | _ => false
  | closeSource ending =>
    match cause with
    | beginHalt ending' => ending = ending'
    | _ => false
  | retire =>
    match cause with
    | closeSource _ => true
    | _ => false
  | settle ending _ =>
    match cause with
    | closeSource ending' => ending = ending'
    | _ => false
  | checkPending _ _ _ _ _ =>
    match cause with
    | beginRestart _ _ _ => true
    | _ => false
  | endRestart _ _ _ _ _ =>
    match cause with
    | checkPending _ _ _ _ _ => true
    | _ => false
  | beginRestart _ _ _ =>
    match cause with
    | stall _ _ _ => true
    | _ => false
  | watch _ | awaitWake _ _ | awaitFrame _ _ | stall _ _ _ | reckon _ _ => cause.isWatching
  | _ => true

theorem settles_of_fails {action : Action} (h : action.fails = true) : action.settles = true := by
  cases action <;> first | rfl | cases h

theorem isUnderway_of_isRenewal {action : Action} (h : action.isRenewal = true) :
    action.isUnderway = true := by rw [isUnderway, h, Bool.true_or]

theorem isUnderway_of_settles {action : Action} (h : action.settles = true) :
    action.isUnderway = true := by rw [isUnderway, h, Bool.or_true]

/-- A new thread begins with playing packets or with watching. -/
theorem eq_of_begets {cause x : Action} (h : cause.begets x = true) :
    (∃ activation index dueNs, x = .play activation index dueNs) ∨
      ∃ budget : Budget, budget.retries = 0 ∧ x = .watch budget := by
  cases x
  case play => exact .inl ⟨_, _, _, rfl⟩
  case watch => exact .inr ⟨_, of_decide_eq_true h, rfl⟩
  all_goals cases h

end Action

/-- How often a thread with this agenda holds the restart lock: as often as it is still to release
it, less what it is still to acquire. -/
def owed (agenda : List Action) : Nat := agenda.foldr Action.owes 0

/-- The part of an agenda that is done before the thread has let go of the restart lock. -/
def held : List Action → List Action
  | [] => []
  | action :: rest => if 0 < owed (action :: rest) then action :: held rest else []

theorem owed_cons (action : Action) (rest : List Action) :
    owed (action :: rest) = action.owes (owed rest) := rfl

theorem owed_append_of_idle {l rest : List Action} (h : ∀ x ∈ l, ∀ n, x.owes n = n) :
    owed (l ++ rest) = owed rest := by
  induction l with
  | nil => rfl
  | cons x l ih =>
    rw [List.cons_append, owed_cons, h x List.mem_cons_self,
      ih fun y hy => h y (List.mem_cons_of_mem _ hy)]

theorem held_of_owed {action : Action} {rest : List Action} (h : 0 < owed (action :: rest)) :
    held (action :: rest) = action :: held rest := if_pos h

theorem held_eq_nil {agenda : List Action} (h : owed agenda = 0) : held agenda = [] := by
  cases agenda with
  | nil => rfl
  | cons action rest => exact if_neg (by omega)

theorem mem_of_mem_held {x : Action} {agenda : List Action} (h : x ∈ held agenda) : x ∈ agenda := by
  induction agenda with
  | nil => cases h
  | cons action rest ih =>
    rw [held] at h
    split at h
    · rcases List.mem_cons.mp h with rfl | hRest
      · exact List.mem_cons_self
      · exact List.mem_cons_of_mem _ (ih hRest)
    · cases h

theorem mem_held_append {x : Action} {l rest : List Action} (h : x ∈ held (l ++ rest)) :
    x ∈ l ∨ x ∈ held rest := by
  induction l with
  | nil => exact .inr h
  | cons action l ih =>
    rw [List.cons_append, held] at h
    split at h
    · rcases List.mem_cons.mp h with rfl | hRest
      · exact .inl List.mem_cons_self
      · exact (ih hRest).imp (List.mem_cons_of_mem _) id
    · cases h

/-- A thread that holds the lock has the first thing before it to do under the lock. -/
theorem mem_held_of_owed {action : Action} {rest : List Action} (h : 0 < owed (action :: rest)) :
    action ∈ held (action :: rest) := by
  rw [held_of_owed h]
  exact List.mem_cons_self

theorem mem_held_cons {x action : Action} {rest : List Action} (hOwed : 0 < owed (action :: rest))
    (h : x ∈ held rest) : x ∈ held (action :: rest) := by
  rw [held_of_owed hOwed]
  exact List.mem_cons_of_mem _ h

/-- A thread that does not take the lock before it is to let go of it holds it already. -/
theorem owed_of_ne_acquire {pre : List Action} (h : ∀ x ∈ pre, x ≠ .acquire .restart)
    (rest : List Action) : 0 < owed (pre ++ .release .restart :: rest) := by
  induction pre with
  | nil => exact Nat.succ_pos _
  | cons action pre ih =>
    have hRest := ih fun x hx => h x (List.mem_cons_of_mem _ hx)
    exact Nat.lt_of_lt_of_le hRest (Action.le_owes (h action List.mem_cons_self) _)

/-- Nothing that is to be done under the lock takes a stopped stream out of that state. -/
def Tame (agenda : List Action) : Prop :=
  ∀ x ∈ held agenda, x.revives = false ∧ x.fails = false

theorem tame_of_owed {agenda : List Action} (h : owed agenda = 0) : Tame agenda := by
  intro x hx
  rw [held_eq_nil h] at hx
  cases hx

theorem Tame.append {l rest : List Action} (h : Tame rest)
    (hNew : ∀ x ∈ l, x.revives = false ∧ x.fails = false) : Tame (l ++ rest) := fun x hx =>
  (mem_held_append hx).elim (hNew x) (h x)

theorem Tame.cons {action : Action} {rest : List Action} (h : Tame rest)
    (hRevives : action.revives = false) (hFails : action.fails = false) :
    Tame (action :: rest) := by
  refine Tame.append (l := [action]) h fun x hx => ?_
  obtain rfl := List.mem_singleton.mp hx
  exact ⟨hRevives, hFails⟩

/-- Whether `rest` may come after an action. -/
def Action.Fits (rest : List Action) : Action → Prop
  | acquire .restart => 0 < owed rest ∧ ((∃ x ∈ rest, x.isUnderway = true) → 1 < owed rest)
  | checkStart _ _ | activate _ _ | openSource _ | revert _ =>
    0 < owed rest ∧ (Tame rest ∨ ∃ x ∈ rest, x.isRenewal = true)
  | resetPipeline _ | install _ _ | uninstall | retire => 0 < owed rest
  | halt _ | tell _ _ _ => Tame rest
  | beginHalt _ | closeSource _ | settle _ _ => 0 < owed rest ∧ Tame rest
  | offer _ | play _ _ _ | receive _ _ | ingest _ _ | deliver _ _ | process _ _ _ _
  | confirm _ _ _ _ | consume _ _ _ => owed rest = 0
  | watch _ | awaitWake _ _ | reckon _ _ | checkPending _ _ _ _ _ | endRestart _ _ _ _ _ =>
    rest = []
  | awaitFrame _ vigil | stall _ vigil _ | beginRestart _ vigil _ =>
    rest = [] ∧ vigil.state.isActive = true
  | _ => True

/-- Every action of the agenda is where it belongs. -/
def Sound : List Action → Prop
  | [] => True
  | action :: rest => action.Fits rest ∧ Sound rest

namespace Sound

variable {rest : List Action} {x : Action}

/-- A thread in the middle of an operation holds the lock. -/
theorem owed_pos {agenda : List Action} (h : Sound agenda) (hx : x ∈ agenda)
    (hUnderway : x.isUnderway = true) : 0 < owed agenda := by
  induction agenda with
  | nil => cases hx
  | cons action rest ih =>
    obtain ⟨hFits, hRest⟩ := h
    rw [owed_cons]
    rcases List.mem_cons.mp hx with rfl | hLater
    · cases x with
      | closeSource | settle => exact hFits.1
      | checkPending | endRestart => exact Nat.succ_pos _
      | _ => cases hUnderway
    · have hPos := ih hRest hLater
      cases action with
      | acquire lock =>
        cases lock with
        | restart => exact Nat.sub_pos_of_lt (hFits.2 ⟨x, hLater, hUnderway⟩)
        | delivery | pipeline => exact hPos
      | release lock =>
        cases lock with
        | restart => exact Nat.succ_pos _
        | delivery | pipeline => exact hPos
      | beginRestart | checkPending | endRestart => exact Nat.succ_pos _
      | _ => exact hPos

theorem mem_held {agenda : List Action} (h : Sound agenda) (hx : x ∈ agenda)
    (hUnderway : x.isUnderway = true) : x ∈ held agenda := by
  induction agenda with
  | nil => cases hx
  | cons action rest ih =>
    rw [held_of_owed (h.owed_pos hx hUnderway)]
    rcases List.mem_cons.mp hx with rfl | hLater
    · exact List.mem_cons_self
    · exact List.mem_cons_of_mem _ (ih h.2 hLater)

/-- Outside the lock there is no operation to go on with. -/
theorem not_isUnderway {agenda : List Action} (h : Sound agenda) (hOwed : owed agenda = 0)
    (hx : x ∈ agenda) : x.isUnderway = false := by
  cases hUnderway : x.isUnderway with
  | false => rfl
  | true =>
    have hPos := h.owed_pos hx hUnderway
    omega

theorem tellAll (hRest : Sound rest) (hTame : Tame rest) (n : Option Notice) :
    Sound (Notice.tellAll n ++ rest) ∧ Tame (Notice.tellAll n ++ rest) := by
  cases n with
  | none => exact ⟨hRest, hTame⟩
  | some n =>
    simp only [Notice.tellAll, Notice.tell]
    induction List.range n.listeners with
    | nil => exact ⟨hRest, hTame⟩
    | cons i is ih => exact ⟨⟨ih.2, ih.1⟩, ih.2.cons rfl rfl⟩

theorem stop (hRest : Sound rest) (hTame : Tame rest) : Sound (Action.stop ++ rest) :=
  ⟨hTame, hRest⟩

/-- A start outside the lock. -/
theorem start (hRest : Sound rest) (hOwed : owed rest = 0) (profile : Profile)
    (consumer : ConsumerId) : Sound (Action.start profile consumer ++ rest) := by
  refine ⟨⟨Nat.succ_pos _, fun hUnderway => ?_⟩, ⟨Nat.succ_pos _, .inl ?_⟩, trivial, hRest⟩
  · obtain ⟨x, hx, hTrue⟩ := hUnderway
    rcases List.mem_cons.mp hx with rfl | hx
    · cases hTrue
    rcases List.mem_cons.mp hx with rfl | hx
    · cases hTrue
    · cases hTrue.symm.trans (hRest.not_isUnderway hOwed hx)
  · exact (tame_of_owed hOwed).cons rfl rfl

end Sound

theorem owed_tellAll (n : Option Notice) (rest : List Action) :
    owed (Notice.tellAll n ++ rest) = owed rest := by
  refine owed_append_of_idle fun x hx => ?_
  obtain ⟨_, _, _, rfl⟩ := Notice.eq_tell_of_mem_tellAll hx
  exact fun _ => rfl

theorem owed_request (s : Stream) {agenda rest : List Action}
    (h : owed (agenda ++ rest) = owed rest) : owed (s.request agenda ++ rest) = owed rest := by
  unfold Stream.request
  split
  · rfl
  · exact h

theorem Sound.request {s : Stream} {agenda rest : List Action} (hRest : Sound rest)
    (h : Sound (agenda ++ rest)) : Sound (s.request agenda ++ rest) := by
  unfold Stream.request
  split
  · exact hRest
  · exact h

/-- What a consumer asks for leaves the lock as it was. -/
theorem errands_fit (profile : Profile) (consumer : ConsumerId) (list : List Errand)
    {rest : List Action} (hRest : Sound rest) (hOwed : owed rest = 0) :
    Sound (list.flatMap (Errand.actions profile consumer) ++ rest) ∧
      owed (list.flatMap (Errand.actions profile consumer) ++ rest) = 0 := by
  induction list with
  | nil => exact ⟨hRest, hOwed⟩
  | cons e list ih =>
    obtain ⟨hSound, hFree⟩ := ih
    rw [List.flatMap_cons, List.append_assoc]
    cases e with
    | stop => exact ⟨⟨tame_of_owed (by exact hFree), trivial, hSound⟩, hFree⟩
    | start =>
      have hSeen : Sound (.seeStarted ::
          (list.flatMap (Errand.actions profile consumer) ++ rest)) := ⟨trivial, hSound⟩
      refine ⟨hSeen.start hFree _ _, ?_⟩
      exact (Nat.add_sub_cancel _ 1).trans hFree
    | awaitStopping => exact ⟨⟨trivial, hSound⟩, hFree⟩

/-- What code from outside asks for is sound, and done without the lock in hand. -/
theorem requests_fit (requests : List Request) :
    Sound (requests.flatMap Request.actions) ∧ owed (requests.flatMap Request.actions) = 0 := by
  induction requests with
  | nil => exact ⟨trivial, rfl⟩
  | cons r requests ih =>
    obtain ⟨hSound, hFree⟩ := ih
    rw [List.flatMap_cons]
    cases r with
    | start profile consumer =>
      exact ⟨hSound.start hFree profile consumer, (Nat.add_sub_cancel _ 1).trans hFree⟩
    | stop => exact ⟨⟨tame_of_owed hFree, hSound⟩, hFree⟩
    | inject packet => exact ⟨⟨hFree, hSound⟩, hFree⟩
    | configure recovery => exact ⟨⟨trivial, hSound⟩, hFree⟩
    | employ => exact ⟨⟨trivial, hSound⟩, hFree⟩
    | discard =>
      exact ⟨⟨trivial, tame_of_owed (by exact hFree), trivial, trivial, trivial, hSound⟩, hFree⟩

end LidarSweep

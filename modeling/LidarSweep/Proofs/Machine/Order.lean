import LidarSweep.Proofs.Machine.Steering

/-!
# What the restart lock puts in order

However the steps of threads interleave, all agendas stay sound and the restart lock is in as many
hands as they say; so whoever starts, halts or restarts the stream does so alone. A stream that is
stopping is in the hands of a thread that will settle it and will not revive it
(`Machine.Orderly`, kept by every step).
-/

namespace LidarSweep

namespace Locks

variable {ls ls' : Locks} {lock other : Lock} {me k : ThreadId}

/-- How often thread `me` holds a lock. -/
def depth (ls : Locks) (lock : Lock) (me : ThreadId) : Nat :=
  match ls.holder lock with
  | some hold => if hold.owner = me then hold.depth else 0
  | none => 0

/-- Nobody holds a lock zero times. -/
def IsFirm (ls : Locks) (lock : Lock) : Prop := ∀ hold, ls.holder lock = some hold → 0 < hold.depth

theorem holder_set_of_ne (ls : Locks) (hOther : other ≠ lock) (hold : Option Hold) :
    (ls.set lock hold).holder other = ls.holder other := if_neg hOther

theorem depth_of_some {hold : Hold} (h : ls.holder lock = some hold) (k : ThreadId) :
    ls.depth lock k = if hold.owner = k then hold.depth else 0 := by rw [depth, h]

theorem depth_of_none (h : ls.holder lock = none) (k : ThreadId) : ls.depth lock k = 0 := by
  rw [depth, h]

theorem depth_congr (h : ls'.holder lock = ls.holder lock) (k : ThreadId) :
    ls'.depth lock k = ls.depth lock k := by rw [depth, depth, h]

theorem isFirm_set_some (ls : Locks) (owner : ThreadId) (n : Nat) :
    (ls.set lock (some ⟨owner, n + 1⟩)).IsFirm lock := by
  intro hold hHold
  rw [holder_set_self] at hHold
  cases hHold
  exact Nat.succ_pos n

/-- Who holds a lock is its owner. -/
theorem exists_of_depth (h : 0 < ls.depth lock me) :
    ∃ n, ls.holder lock = some ⟨me, n + 1⟩ ∧ ls.depth lock me = n + 1 := by
  cases hHolder : ls.holder lock with
  | none =>
    rw [depth_of_none hHolder] at h
    cases h
  | some hold =>
    obtain ⟨owner, depth⟩ := hold
    have hDepth := depth_of_some hHolder me
    by_cases hOwner : owner = me
    · rw [if_pos hOwner] at hDepth
      subst hOwner
      cases depth with
      | zero =>
        rw [hDepth] at h
        cases h
      | succ n => exact ⟨n, rfl, hDepth⟩
    · rw [hDepth, if_neg hOwner] at h
      cases h

/-- Only one thread holds a lock. -/
theorem depth_unique (h : 0 < ls.depth lock me) (h' : 0 < ls.depth lock k) : k = me := by
  obtain ⟨n, hHolder, _⟩ := exists_of_depth h
  obtain ⟨n', hHolder', _⟩ := exists_of_depth h'
  cases hHolder.symm.trans hHolder'
  rfl

theorem depth_eq_zero (h : 0 < ls.depth lock me) (hOther : k ≠ me) : ls.depth lock k = 0 :=
  Nat.eq_zero_of_not_pos fun hPos => hOther (depth_unique h hPos)

theorem isHeldBy_iff (hFirm : ls.IsFirm lock) :
    ls.isHeldBy lock me = true ↔ 0 < ls.depth lock me := by
  unfold isHeldBy depth
  cases hHolder : ls.holder lock with
  | none => simp
  | some hold =>
    have hPos := hFirm hold hHolder
    dsimp only
    split
    next hOwner => simp [hOwner, hPos]
    next hOwner => simp [hOwner]

theorem acquire?_depth (h : ls.acquire? lock me = some ls') :
    ls'.depth lock me = ls.depth lock me + 1 ∧
      (∀ k, k ≠ me → ls'.depth lock k = ls.depth lock k) ∧
      (∀ other, other ≠ lock → ls'.holder other = ls.holder other) ∧ ls'.IsFirm lock := by
  unfold acquire? at h
  cases hHolder : ls.holder lock with
  | none =>
    rw [hHolder] at h
    cases h
    refine ⟨?_, fun k hOther => ?_, fun _ hLock => holder_set_of_ne _ hLock _,
      isFirm_set_some _ _ _⟩
    · rw [depth_of_some (holder_set_self _ _ _), if_pos rfl, depth_of_none hHolder]
    · rw [depth_of_some (holder_set_self _ _ _), if_neg (Ne.symm hOther), depth_of_none hHolder]
  | some hold =>
    obtain ⟨owner, depth⟩ := hold
    rw [hHolder] at h
    dsimp only at h
    split at h
    next hOwner =>
      cases h
      subst hOwner
      refine ⟨?_, fun k hOther => ?_, fun _ hLock => holder_set_of_ne _ hLock _,
        isFirm_set_some _ _ _⟩
      · rw [depth_of_some (holder_set_self _ _ _), depth_of_some hHolder, if_pos rfl, if_pos rfl]
      · rw [depth_of_some (holder_set_self _ _ _), depth_of_some hHolder, if_neg (Ne.symm hOther),
          if_neg (Ne.symm hOther)]
    · cases h

/-- A lock has one holder. -/
theorem eq_of_isHeldBy (h : ls.isHeldBy lock me = true) (h' : ls.isHeldBy lock k = true) :
    me = k := by
  unfold isHeldBy at h h'
  cases hHolder : ls.holder lock with
  | none =>
    rw [hHolder] at h
    cases h
  | some hold =>
    rw [hHolder] at h h'
    exact (eq_of_beq h).symm.trans (eq_of_beq h')

theorem isHeldBy_set_of_ne (ls : Locks) (hOther : other ≠ lock) (hold : Option Hold) :
    (ls.set lock hold).isHeldBy other k = ls.isHeldBy other k := by
  rw [isHeldBy, isHeldBy, holder_set_of_ne ls hOther]

theorem isHeldBy_acquire? (h : ls.acquire? lock me = some ls') (hOther : k ≠ me)
    (hNot : ls.isHeldBy other k = false) : ls'.isHeldBy other k = false := by
  obtain ⟨n, rfl⟩ : ∃ n, ls' = ls.set lock (some ⟨me, n⟩) := by
    unfold acquire? at h
    split at h
    · cases h
      exact ⟨1, rfl⟩
    · split at h
      · cases h
        exact ⟨_, rfl⟩
      · cases h
  by_cases hLock : other = lock
  · subst hLock
    rw [isHeldBy, holder_set_self]
    exact beq_false_of_ne (Ne.symm hOther)
  · rwa [isHeldBy_set_of_ne _ hLock]

theorem isHeldBy_release (hNot : ls.isHeldBy other k = false) :
    (ls.release lock).isHeldBy other k = false := by
  unfold release
  by_cases hLock : other = lock
  · subst hLock
    split
    next owner n hHolder =>
      rw [isHeldBy, hHolder] at hNot
      rw [isHeldBy, holder_set_self]
      exact hNot
    · rw [isHeldBy, holder_set_self]
  · split <;> rwa [isHeldBy_set_of_ne _ hLock]

theorem holder_release_of_ne (ls : Locks) (hOther : other ≠ lock) :
    (ls.release lock).holder other = ls.holder other := by
  unfold release
  split <;> exact holder_set_of_ne _ hOther _

theorem release_depth (h : 0 < ls.depth lock me) :
    (ls.release lock).depth lock me + 1 = ls.depth lock me ∧
      (∀ k, k ≠ me → (ls.release lock).depth lock k = ls.depth lock k) ∧
      (ls.release lock).IsFirm lock := by
  obtain ⟨n, hHolder, hDepth⟩ := exists_of_depth h
  have hZero (k : ThreadId) (hOther : k ≠ me) := depth_eq_zero h hOther
  unfold release
  rw [hHolder, hDepth]
  cases n with
  | zero =>
    refine ⟨?_, fun k hOther => ?_, fun hold hHold => ?_⟩
    · rw [depth_of_none (holder_set_self _ _ _)]
    · rw [depth_of_none (holder_set_self _ _ _), hZero k hOther]
    · rw [holder_set_self] at hHold
      cases hHold
  | succ n =>
    refine ⟨?_, fun k hOther => ?_, isFirm_set_some _ _ _⟩
    · rw [depth_of_some (holder_set_self _ _ _), if_pos rfl]
    · rw [depth_of_some (holder_set_self _ _ _), if_neg (Ne.symm hOther), hZero k hOther]

end Locks

/-- What a step does for the one who takes it, as far as the restart lock goes. -/
structure Effect.Advances (e : Effect) (s : Stream) (me : ThreadId) (action : Action)
    (rest : List Action) : Prop where
  sound : Sound (e.next ++ rest)
  own : e.stream.locks.depth .restart me = owed (e.next ++ rest)
  others : ∀ k, k ≠ me → e.stream.locks.depth .restart k = s.locks.depth .restart k
  firm : e.stream.locks.IsFirm .restart
  spawned : ∀ agenda ∈ e.spawned, Sound agenda ∧ owed agenda = 0 ∧ agenda.all action.begets = true
  stems : ∀ x ∈ e.next, action.stemsFrom x = true

theorem Action.advances_of_perform {action : Action} {me : ThreadId} {last : Except Error Unit}
    {s : Stream} {e : Effect} {rest : List Action} (hSound : Sound (action :: rest))
    (hOwed : s.locks.depth .restart me = owed (action :: rest)) (hFirm : s.locks.IsFirm .restart)
    (hQuiet : (∃ x ∈ rest, x.isRenewal = true) → s.control.quiet = true)
    (h : action.perform me last s = some e) : e.Advances s me action rest := by
  obtain ⟨hFits, hRest⟩ := hSound
  -- A lock that is not the restart lock does not count.
  have hOther (locks : Locks) (hOwed : s.locks.depth .restart me = owed rest)
      (hSame : locks.holder .restart = s.locks.holder .restart) :
      Effect.Advances { stream := { s with locks } } s me action rest :=
    ⟨hRest, (Locks.depth_congr hSame _).trans hOwed, fun k _ => Locks.depth_congr hSame k,
      fun hold hHold => hFirm hold (hSame ▸ hHold), nofun, List.forall_mem_nil _⟩
  by_cases hLocks : action.locks = true
  · cases action
    case acquire lock =>
      obtain ⟨locks, hAcquire, rfl⟩ := Option.map_eq_some_iff.mp h
      obtain ⟨hOwn, hOthers, hSame, hFirm'⟩ := Locks.acquire?_depth hAcquire
      cases lock
      case restart =>
        have hMore : owed rest - 1 + 1 = owed rest := Nat.sub_add_cancel hFits.1
        refine ⟨hRest, ?_, hOthers, hFirm', nofun, List.forall_mem_nil _⟩
        rw [hOwn, hOwed]
        exact hMore
      case delivery => exact hOther locks hOwed (hSame _ nofun)
      case pipeline => exact hOther locks hOwed (hSame _ nofun)
    case release lock =>
      cases h
      cases lock
      case restart =>
        have hMore : s.locks.depth .restart me = owed rest + 1 := hOwed
        obtain ⟨hOwn, hOthers, hFirm'⟩ :=
          Locks.release_depth (hMore ▸ Nat.succ_pos _ : 0 < s.locks.depth .restart me)
        exact ⟨hRest, Nat.succ.inj (hOwn.trans hMore), hOthers, hFirm', nofun,
          List.forall_mem_nil _⟩
      case delivery => exact hOther _ hOwed (Locks.holder_release_of_ne _ nofun)
      case pipeline => exact hOther _ hOwed (Locks.holder_release_of_ne _ nofun)
    case halt ending =>
      rcases s.halt_cases h with ⟨locks, hAcquire, rfl⟩ | ⟨_, ⟨_, rfl⟩ | ⟨_, rfl⟩⟩
      · obtain ⟨hOwn, hOthers, _, hFirm'⟩ := Locks.acquire?_depth hAcquire
        refine ⟨⟨⟨Nat.succ_pos _, Tame.cons hFits rfl rfl⟩, trivial, hRest⟩, ?_, hOthers, hFirm',
          nofun, List.all_eq_true.mp (by cases ending <;> rfl : List.all
            [.beginHalt ending, .release .restart] (halt ending).stemsFrom = true)⟩
        rw [hOwn, hOwed]
        rfl
      · exact ⟨hRest, hOwed, fun _ _ => rfl, hFirm, nofun, List.forall_mem_nil _⟩
      · exact ⟨hRest, hOwed, fun _ _ => rfl, hFirm, nofun, List.forall_mem_nil _⟩
    all_goals cases hLocks
  · have hFollows := follows_of_perform (Bool.not_eq_true _ ▸ hLocks) hRest hFits hQuiet h
    refine ⟨hFollows.sound, ?_, fun k _ => ?_, ?_, hFollows.spawned,
      List.all_eq_true.mp hFollows.stems⟩
    · rw [hFollows.locks, hFollows.owed, hOwed]
    · rw [hFollows.locks]
    · rw [hFollows.locks]
      exact hFirm

namespace Machine

variable {m m' : Machine} {i j : ThreadId} {action : Action} {rest : List Action} {e : Effect}

/-- The locks are as the agendas say, and the agendas are sound. -/
structure Locked (m : Machine) : Prop where
  sound : ∀ k, Sound (m.agenda k)
  owed : ∀ k, m.stream.locks.depth .restart k = owed (m.agenda k)
  firm : m.stream.locks.IsFirm .restart
  /-- Listeners are told nothing while a restart is under way. -/
  quiet : ∀ k x, x ∈ m.agenda k → x.isRenewal = true → m.stream.control.quiet = true

theorem Moved.sound (hMoved : m.Moved i action rest e m') (h : m.Locked) :
    Sound (action :: rest) :=
  hMoved.agenda ▸ h.sound i

theorem Moved.fits (hMoved : m.Moved i action rest e m') (h : m.Locked) : action.Fits rest :=
  (hMoved.sound h).1

/-- Only a restart hides the stream from listeners, or shows it again. -/
theorem Moved.quiet_eq (hMoved : m.Moved i action rest e m') (hMutes : action.mutes = false) :
    m'.stream.control.quiet = m.stream.control.quiet := by
  obtain ⟨last, hPerform⟩ := hMoved.performs
  rw [hMoved.stream, Action.quiet_of_perform hMutes hPerform]

/-- Nobody gets a lock by what another does. -/
theorem Moved.isHeldBy_of_ne (hMoved : m.Moved i action rest e m') {lock : Lock} {k : ThreadId}
    (hOther : k ≠ i) (hNot : m.stream.locks.isHeldBy lock k = false) :
    m'.stream.locks.isHeldBy lock k = false := by
  obtain ⟨last, hPerform⟩ := hMoved.performs
  rw [hMoved.stream]
  by_cases hLocks : action.locks = true
  · cases action
    case acquire =>
      obtain ⟨locks, hAcquire, rfl⟩ := Option.map_eq_some_iff.mp hPerform
      exact Locks.isHeldBy_acquire? hAcquire hOther hNot
    case release =>
      cases hPerform
      exact Locks.isHeldBy_release hNot
    case halt =>
      rcases m.stream.halt_cases hPerform with ⟨locks, hAcquire, rfl⟩ | ⟨_, ⟨_, rfl⟩ | ⟨_, rfl⟩⟩
      · exact Locks.isHeldBy_acquire? hAcquire hOther hNot
      · exact hNot
      · exact hNot
    all_goals cases hLocks
  · rwa [Action.locks_of_perform (Bool.not_eq_true _ ▸ hLocks) hPerform]

/-- Thread `j` has a stream in hand that is not active, and will not make it so. -/
structure Waning (m : Machine) (j : ThreadId) : Prop where
  holds : 0 < LidarSweep.owed (m.agenda j)
  inactive : m.stream.control.state.isActive = false
  settles : m.stream.control.state = .stopping → ∃ x ∈ m.agenda j, x.settles = true
  tame : ∀ x ∈ held (m.agenda j), x.revives = false

/-- A machine that threads work on one after another, as far as starts, halts and restarts go. -/
structure Orderly (m : Machine) : Prop extends m.Locked where
  waning : m.stream.control.state = .stopping → ∃ j, m.Waning j

theorem Fresh.orderly (h : m.Fresh) : m.Orderly := by
  have hFit (k : ThreadId) : Sound (m.agenda k) ∧ LidarSweep.owed (m.agenda k) = 0 := by
    obtain ⟨requests, hRequests⟩ := h.requests k
    rw [hRequests]
    exact requests_fit requests
  refine ⟨⟨fun k => (hFit k).1, fun k => ?_, fun hold hHold => ?_, fun k x hx hRenewal => ?_⟩,
    fun hStopping => ?_⟩
  · rw [(hFit k).2, h.free]
    rfl
  · rw [h.free] at hHold
    cases hHold
  · cases (Action.isUnderway_of_isRenewal hRenewal).symm.trans
      ((hFit k).1.not_isUnderway (hFit k).2 hx)
  · cases hStopping.symm.trans h.stopped

namespace Locked

/-- Who stands before a guarded action holds the restart lock. -/
theorem depth_pos (h : m.Locked) (hAgenda : m.agenda i = action :: rest)
    (hGuarded : action.isGuarded = true) : 0 < m.stream.locks.depth .restart i := by
  rw [h.owed, hAgenda]
  exact Action.owed_of_isGuarded (hAgenda ▸ h.sound i : Sound (action :: rest)).1 hGuarded

/-- While a thread holds the restart lock no other gets to a guarded action. -/
theorem isGuarded_eq_false (h : m.Locked) (hHolds : 0 < LidarSweep.owed (m.agenda j)) (hij : i ≠ j)
    (hAgenda : m.agenda i = action :: rest) : action.isGuarded = false := by
  cases hGuarded : action.isGuarded with
  | false => rfl
  | true =>
    exact absurd (Locks.depth_unique (h.owed j ▸ hHolds) (h.depth_pos hAgenda hGuarded)) hij

theorem owed_eq_zero (h : m.Locked) (hHolds : 0 < LidarSweep.owed (m.agenda j)) (hij : i ≠ j) :
    LidarSweep.owed (m.agenda i) = 0 := by
  rw [← h.owed]
  exact Locks.depth_eq_zero (h.owed j ▸ hHolds) hij

theorem quiet_rest (h : m.Locked) (hMoved : m.Moved i action rest e m') :
    (∃ x ∈ rest, x.isRenewal = true) → m.stream.control.quiet = true := by
  rintro ⟨x, hx, hRenewal⟩
  exact h.quiet i x (hMoved.agenda ▸ List.mem_cons_of_mem _ hx) hRenewal

theorem advances (h : m.Locked) (hMoved : m.Moved i action rest e m') :
    e.Advances m.stream i action rest := by
  obtain ⟨last, hPerform⟩ := hMoved.performs
  have hOwed := h.owed i
  rw [hMoved.agenda] at hOwed
  exact Action.advances_of_perform (hMoved.sound h) hOwed h.firm (h.quiet_rest hMoved) hPerform

/-- The agenda of a thread that does not move is the same, or it is that of a new thread. -/
theorem others (h : m.Locked) (hMoved : m.Moved i action rest e m') {k : ThreadId}
    (hOther : k ≠ i) :
    m'.agenda k = m.agenda k ∨
      m.agenda k = [] ∧ Sound (m'.agenda k) ∧ LidarSweep.owed (m'.agenda k) = 0 :=
  (hMoved.others k hOther).imp id fun hNew =>
    have hSpawned := (h.advances hMoved).spawned _ hNew.2
    ⟨agenda_of_length_le hNew.1, hSpawned.1, hSpawned.2.1⟩

/-- What a thread has before it after a move is new, or stood there before and behind the action,
or is the beginning of a new thread. -/
theorem mem_moved_behind (h : m.Locked) (hMoved : m.Moved i action rest e m') {k : ThreadId}
    {x : Action} (hx : x ∈ m'.agenda k) :
    k = i ∧ x ∈ e.next ∨ (x ∈ m.agenda k ∧ (k = i → x ∈ rest)) ∨
      action.begets x = true ∧ e.spawned ≠ [] := by
  by_cases hk : k = i
  · subst hk
    rw [hMoved.own] at hx
    rcases List.mem_append.mp hx with hNext | hRest
    · exact .inl ⟨rfl, hNext⟩
    · exact .inr (.inl ⟨hMoved.agenda ▸ List.mem_cons_of_mem _ hRest, fun _ => hRest⟩)
  · rcases hMoved.others k hk with hSame | ⟨_, hSpawned⟩
    · exact .inr (.inl ⟨hSame ▸ hx, fun hEq => absurd hEq hk⟩)
    · have hBegets := List.all_eq_true.mp ((h.advances hMoved).spawned _ hSpawned).2.2 x hx
      exact .inr (.inr ⟨hBegets, List.ne_nil_of_mem hSpawned⟩)

theorem mem_moved (h : m.Locked) (hMoved : m.Moved i action rest e m') {k : ThreadId} {x : Action}
    (hx : x ∈ m'.agenda k) : k = i ∧ x ∈ e.next ∨ x ∈ m.agenda k ∨ action.begets x = true :=
  (h.mem_moved_behind hMoved hx).imp_right (Or.imp And.left And.left)

theorem amid (h : m.Locked) (x : Circumstances) : (m.amid x).Locked :=
  ⟨h.sound, h.owed, h.firm, h.quiet⟩

/-- Every step keeps the locks as the agendas say. -/
theorem moved (h : m.Locked) (hMoved : m.Moved i action rest e m') : m'.Locked := by
  have hAdvances := h.advances hMoved
  obtain ⟨last, hPerform⟩ := hMoved.performs
  have hAgenda (k : ThreadId) : Sound (m'.agenda k) ∧
      m'.stream.locks.depth .restart k = LidarSweep.owed (m'.agenda k) := by
    rw [hMoved.stream]
    by_cases hk : k = i
    · subst hk
      rw [hMoved.own]
      exact ⟨hAdvances.sound, hAdvances.own⟩
    · rw [hAdvances.others k hk, h.owed k]
      rcases h.others hMoved hk with hSame | ⟨hNone, hSound, hOwed⟩
      · rw [hSame]
        exact ⟨h.sound k, rfl⟩
      · rw [hNone, hOwed]
        exact ⟨hSound, rfl⟩
  refine ⟨fun k => (hAgenda k).1, fun k => (hAgenda k).2, ?_, fun k x hx hRenewal => ?_⟩
  · rw [hMoved.stream]
    exact hAdvances.firm
  by_cases hk : k = i
  · subst hk
    rw [hMoved.own] at hx
    rcases List.mem_append.mp hx with hNext | hRest
    · rw [hMoved.stream]
      exact Action.quiet_of_isRenewal hPerform hNext hRenewal (hAdvances.stems x hNext)
        (h.quiet k action (hMoved.agenda ▸ List.mem_cons_self))
    · rw [hMoved.quiet_eq (Action.mutes_of_fits (hMoved.fits h) (List.ne_nil_of_mem hRest))]
      exact h.quiet k x (hMoved.agenda ▸ List.mem_cons_of_mem _ hRest) hRenewal
  · have hUnderway := Action.isUnderway_of_isRenewal hRenewal
    rcases h.others hMoved hk with hSame | ⟨_, hSound, hOwed⟩
    · rw [hSame] at hx
      have hGuarded := h.isGuarded_eq_false ((h.sound k).owed_pos hx hUnderway) (Ne.symm hk)
        hMoved.agenda
      rw [hMoved.quiet_eq (Action.mutes_of_isGuarded hGuarded)]
      exact h.quiet k x hx hRenewal
    · cases hUnderway.symm.trans (hSound.not_isUnderway hOwed hx)

end Locked

/-- Whoever waning streams are in the hands of keeps them so until the lock is free; then they have
come to their end. -/
theorem Waning.moved (hWaning : m.Waning j) (h : m.Locked) (hMoved : m.Moved i action rest e m')
    (hPending : i = j → action.isRenewal = true → m.stream.control.stopPending = true) :
    m'.Waning j ∨
      LidarSweep.owed (m'.agenda j) = 0 ∧ m'.stream.control.state.isActive = false ∧
        m'.stream.control.state ≠ .stopping := by
  obtain ⟨last, hPerform⟩ := hMoved.performs
  by_cases hij : i = j
  · subst hij
    have hAgenda := hMoved.agenda
    have hHolds := hWaning.holds
    rw [hAgenda] at hHolds
    have hTame := hWaning.tame
    rw [hAgenda] at hTame
    have hFits := (hAgenda ▸ h.sound i : Sound (action :: rest)).1
    have hRevives := hTame action (mem_held_of_owed hHolds)
    obtain ⟨hInactive, hStopping⟩ :=
      Action.wanes_of_perform hRevives hWaning.inactive hPerform
    have hSettles (hStop : e.stream.control.state = .stopping) :
        ∃ x ∈ m'.agenda i, x.settles = true := by
      rw [hMoved.own]
      rcases hStopping hStop with ⟨x, hx, hSettles⟩ | ⟨hBefore, hNot⟩
      · exact ⟨x, List.mem_append_left _ hx, hSettles⟩
      · obtain ⟨x, hx, hSettles⟩ := hWaning.settles hBefore
        rw [hAgenda] at hx
        rcases List.mem_cons.mp hx with rfl | hRest
        · cases hSettles.symm.trans hNot
        · exact ⟨x, List.mem_append_right _ hRest, hSettles⟩
    rw [hMoved.stream]
    rcases Nat.eq_zero_or_pos (LidarSweep.owed (m'.agenda i)) with hFree | hHolds'
    · refine .inr ⟨hFree, hInactive, fun hStop => ?_⟩
      obtain ⟨x, hx, hSettles⟩ := hSettles hStop
      cases (Action.isUnderway_of_settles hSettles).symm.trans
        (((h.moved hMoved).sound i).not_isUnderway hFree hx)
    · refine .inl ⟨hHolds', hMoved.stream ▸ hInactive, hMoved.stream ▸ hSettles, fun x hx => ?_⟩
      rw [hMoved.own] at hx
      rcases mem_held_append hx with hNext | hRest
      · exact Action.revives_of_stems hFits hHolds hRevives (hPending rfl) hPerform hNext
          ((h.advances hMoved).stems x hNext)
      · exact hTame x (mem_held_cons hHolds hRest)
  · have hGuarded := h.isGuarded_eq_false hWaning.holds hij hMoved.agenda
    have hState : m'.stream.control.state = m.stream.control.state := by
      rw [hMoved.stream]
      rcases (Action.drift_of_perform hGuarded hPerform).1 with hSame | ⟨hActive, _⟩
      · exact hSame
      · cases hActive.symm.trans hWaning.inactive
    have hAgenda : m'.agenda j = m.agenda j := by
      refine hMoved.agenda_of_ne (Ne.symm hij) (lt_length_of_agenda fun hNone => ?_)
      have hHolds := hWaning.holds
      rw [hNone] at hHolds
      cases hHolds
    refine .inl ⟨?_, ?_, ?_, ?_⟩
    · exact hAgenda ▸ hWaning.holds
    · exact hState ▸ hWaning.inactive
    · exact hAgenda ▸ hState ▸ hWaning.settles
    · exact hAgenda ▸ hWaning.tame

namespace Orderly

/-- **Every step leaves an orderly machine orderly.** -/
theorem moved (h : m.Orderly) (hMoved : m.Moved i action rest e m') : m'.Orderly := by
  have hLocked := h.toLocked.moved hMoved
  refine ⟨hLocked, fun hStopping => ?_⟩
  obtain ⟨last, hPerform⟩ := hMoved.performs
  have hSound := hMoved.agenda ▸ h.sound i
  rcases Action.stopping_of_perform hPerform (hMoved.stream ▸ hStopping) with
    hBefore | ⟨ending, rfl, hClose⟩
  · obtain ⟨j, hWaning⟩ := h.waning hBefore
    obtain ⟨x, hx, hSettles⟩ := hWaning.settles hBefore
    -- A restart does not go on before its halt is over.
    have hNot (hij : i = j) : action.isRenewal = false := by
      subst hij
      rw [hMoved.agenda] at hx
      cases action
      case checkPending | endRestart =>
        obtain rfl : rest = [] := hSound.1
        obtain rfl := List.mem_singleton.mp hx
        cases hSettles
      all_goals rfl
    have hPending (hij : i = j) (hRenewal : action.isRenewal = true) :
        m.stream.control.stopPending = true := by
      cases hRenewal.symm.trans (hNot hij)
    rcases hWaning.moved h.toLocked hMoved hPending with hKept | ⟨_, _, hOver⟩
    · exact ⟨j, hKept⟩
    · exact absurd hStopping hOver
  · have hMem : .closeSource ending ∈ m'.agenda i :=
      hMoved.own ▸ List.mem_append_left _ hClose
    refine ⟨i, (hLocked.sound i).owed_pos hMem rfl, hStopping ▸ rfl, fun _ => ⟨_, hMem, rfl⟩,
      fun x hx => ?_⟩
    rw [hMoved.own] at hx
    rcases mem_held_append hx with hNext | hRest
    · exact Action.revives_of_stems hSound.1 hSound.1.1 rfl nofun hPerform hNext
        ((h.toLocked.advances hMoved).stems x hNext)
    · exact (hSound.1.2 x hRest).1

theorem amid (h : m.Orderly) (x : Circumstances) : (m.amid x).Orderly :=
  ⟨h.toLocked.amid x, fun hStopping =>
    (h.waning hStopping).imp fun _ hWaning =>
      ⟨hWaning.holds, hWaning.inactive, hWaning.settles, hWaning.tame⟩⟩

theorem of_path {m₀ : Machine} {events : List Event} (h : m₀.Orderly) (hPath : Path m₀ events m) :
    m.Orderly := by
  induction hPath using Path.induct with
  | here => exact h
  | change x _ ih => exact ih.amid x
  | step _ hMoved _ ih => exact ih.moved hMoved

end Orderly

end Machine

end LidarSweep

import LidarSweep.Proofs.Machine.Audience

/-!
# What listeners are told

Threads tell listeners of what they have done before any other thread moves on, and listeners may
join at any time (`Machine.Attended`).  Then what a listener is told is a chain of changes, and it
ends with what is believed of the stream (`Heard`).
-/

namespace LidarSweep

/-- The state that listener `i` is told of here. -/
def Action.news? (i : Nat) : Action → Option StreamState
  | tell listener state _ => if listener = i then some state else none
  | _ => none

/-- What listener `i` is still to be told. -/
def news (i : Nat) (agenda : List Action) : List StreamState := agenda.filterMap (Action.news? i)

/-- What listener `i` was told. -/
def told (i : Nat) (events : List Event) : List StreamState :=
  events.filterMap fun event => event.action.news? i

theorem Action.news_of_tells {action : Action} (h : action.tells = false) (i : Nat) :
    action.news? i = none := by
  cases action <;> first | rfl | cases h

theorem news_append (i : Nat) (l rest : List Action) :
    news i (l ++ rest) = news i l ++ news i rest := List.filterMap_append

theorem told_append (i : Nat) (events later : List Event) :
    told i (events ++ later) = told i events ++ told i later := List.filterMap_append

theorem news_of_tells {agenda : List Action} (h : ∀ x ∈ agenda, x.tells = false) (i : Nat) :
    news i agenda = [] :=
  List.filterMap_eq_nil_iff.mpr fun x hx => Action.news_of_tells (h x hx) i

theorem news_cons (i : Nat) (action : Action) (rest : List Action) :
    news i (action :: rest) = (action.news? i).toList ++ news i rest := by
  rw [news, List.filterMap_cons]
  cases action.news? i <;> rfl

/-- What an event adds to what a listener was told. -/
theorem told_concat (i : Nat) (events : List Event) (event : Event) :
    told i (events ++ [event]) = told i events ++ (event.action.news? i).toList := by
  rw [told_append, told, told, List.filterMap_cons]
  cases event.action.news? i <;> rfl

/-- Of a notice every listener that there was is told once. -/
theorem news_tell (i : Nat) (n : Notice) :
    news i n.tell = if i < n.listeners then [n.state] else [] := by
  rw [news, Notice.tell, List.filterMap_map]
  generalize n.listeners = count
  induction count with
  | zero => rfl
  | succ count ih =>
    rw [List.range_succ, List.filterMap_append, ih]
    by_cases hLast : count = i
    · subst hLast
      simp [Action.news?]
    · have hLess : i < count + 1 ↔ i < count := by omega
      simp [Action.news?, hLast, hLess]

theorem news_tellAll (i : Nat) (c : Control) :
    news i (Notice.tellAll c.notice) = if i < c.listeners.length then [c.state] else [] := by
  rw [Control.notice]
  split
  case isTrue hNone => rw [List.isEmpty_iff.mp hNone]; rfl
  case isFalse => exact news_tell i _

/-- Nobody is told of a notice twice. -/
theorem length_news_tellAll (i : Nat) (n : Option Notice) :
    (news i (Notice.tellAll n)).length ≤ 1 := by
  cases n with
  | none => exact Nat.zero_le _
  | some n =>
    rw [Notice.tellAll, news_tell]
    split <;> simp

/-- Listeners are not sent away. -/
theorem Action.length_listeners_of_perform {action : Action} {me : ThreadId}
    {last : Except Error Unit} {s : Stream} {e : Effect}
    (h : action.perform me last s = some e) :
    e.stream.control.listeners.length = s.control.listeners.length := by
  by_cases hTells : action.tells = true
  · cases action
    case tell listener state profile =>
      cases h
      obtain ⟨_, _, _, _, hTell, hLength, _⟩ := s.tell_eq listener state profile
      rw [hTell]
      exact hLength
    all_goals cases hTells
  · rw [listeners_of_perform (Bool.eq_false_iff.mpr hTells) h]

/-! ### What listeners write down -/

/-- The state that was heard of. -/
def ListenerEntry.state? : ListenerEntry → Option StreamState
  | .state told _ => some told
  | .noted _ | .stopped _ => none

/-- The states that listeners heard of. -/
def Journal.states (j : Journal) : List StreamState := j.heard.filterMap ListenerEntry.state?

/-- Whether there is such a listener and it writes down what it hears. -/
def Stream.keeps (s : Stream) (listener : Nat) : Bool :=
  s.control.listeners[listener]?.any (·.keeps)

/-- The listener that is told something here. -/
def Action.listener? : Action → Option Nat
  | tell listener _ _ => some listener
  | _ => none

/-- The state that a listener writes down here. -/
def Action.kept? (s : Stream) : Action → Option StreamState
  | tell listener state _ => if s.keeps listener then some state else none
  | _ => none

theorem Journal.states_addHeard (j : Journal) (entry : ListenerEntry) :
    (j.addHeard entry).states = j.states ++ entry.state?.toList := by
  rw [states, addHeard, List.filterMap_append, List.filterMap_cons]
  cases entry.state? <;> rfl

/-- A listener that is told of a state writes it down, before it does anything else. -/
theorem Stream.states_tell (s : Stream) (listener : Nat) (state : StreamState)
    (profile : Option Profile) :
    (s.tell listener state profile).stream.journal.states =
      s.journal.states ++ (if s.keeps listener then [state] else []) := by
  unfold tell keeps
  cases s.control.listeners[listener]? with
  | none => exact (List.append_nil _).symm
  | some l =>
    dsimp only
    generalize hSaid : (if l.keeps then s.heard (.state state profile) else s) = said
    have hHeard : said.journal.states = s.journal.states ++ (if l.keeps then [state] else []) := by
      subst hSaid
      cases l.keeps with
      | false => exact (List.append_nil _).symm
      | true => exact s.journal.states_addHeard (.state state profile)
    rw [Option.any_some, ← hHeard]
    -- Whatever it does then, it hears of no other state in between.
    rcases l.hear state with ⟨l', _ | _ | _ | reason⟩
    case some.note => exact (said.journal.states_addHeard (.noted state)).trans (List.append_nil _)
    all_goals rfl

/-- **Listeners write down what they are told**, and nothing else adds to the states they heard
of. -/
theorem Action.states_of_perform {action : Action} {me : ThreadId} {last : Except Error Unit}
    {s : Stream} {e : Effect} (h : action.perform me last s = some e) :
    e.stream.journal.states = s.journal.states ++ (action.kept? s).toList := by
  cases hTouches : action.touches .heard with
  | false =>
    have hSame : e.stream.journal.heard = s.journal.heard := same_of_perform .heard hTouches h
    have hNone : action.kept? s = none := by
      cases action <;> first | rfl | cases hTouches
    rw [Journal.states, hSame, hNone]
    exact (List.append_nil _).symm
  | true =>
    cases action
    case tell listener state profile =>
      cases h
      rw [s.states_tell, kept?]
      split <;> rfl
    case hearStopped =>
      cases h
      exact s.journal.states_addHeard (.stopped last)
    all_goals cases hTouches

/-- A listener was told `states`, each a change of the one before, and believes the last one. -/
structure Heard (p : StreamState) (states : List StreamState) : Prop where
  chain : states.IsChain fun a b => a.mayBecome b = true
  last : ∀ state ∈ states.getLast?, state = p

theorem Heard.nil (p : StreamState) : Heard p [] := ⟨.nil, nofun⟩

/-- A listener is told of a change. -/
theorem Heard.concat {p p' : StreamState} {states : List StreamState} (h : Heard p states)
    (hEdge : p.mayBecome p' = true) : Heard p' (states ++ [p']) := by
  refine ⟨List.isChain_append.mpr ⟨h.chain, .singleton _, fun a ha b hb => ?_⟩,
    fun state hLast => ?_⟩
  · obtain rfl := h.last a ha
    cases hb
    exact hEdge
  · rw [List.getLast?_concat] at hLast
    cases hLast
    rfl

/-! ### Telling comes first -/

/-- What is to be told stands before everything else. -/
def TellsFirst (agenda : List Action) : Prop :=
  agenda.Pairwise fun x y => y.tells = true → x.tells = true

theorem tellsFirst_of_tells {agenda : List Action} (h : ∀ x ∈ agenda, x.tells = false) :
    TellsFirst agenda := by
  induction agenda with
  | nil => exact .nil
  | cons x agenda ih =>
    refine .cons (fun y hy hTells => ?_) (ih fun y hy => h y (List.mem_cons_of_mem _ hy))
    cases (h y (List.mem_cons_of_mem _ hy)).symm.trans hTells

theorem TellsFirst.not_tells_rest {action : Action} {rest : List Action}
    (h : TellsFirst (action :: rest)) (hTells : action.tells = false) :
    ∀ x ∈ rest, x.tells = false := by
  intro x hx
  cases hTrue : x.tells with
  | false => rfl
  | true => cases hTells.symm.trans (List.rel_of_pairwise_cons h hx hTrue)

theorem tellsFirst_tellAll {l : List Action} (h : ∀ x ∈ l, x.tells = false) (n : Option Notice) :
    TellsFirst (Notice.tellAll n ++ l) := by
  have hTell : ∀ x ∈ Notice.tellAll n, x.tells = true := by
    intro x hx
    obtain ⟨_, _, _, rfl⟩ := Notice.eq_tell_of_mem_tellAll hx
    rfl
  refine List.pairwise_append.mpr ⟨.imp_of_mem (fun hx _ _ _ => hTell _ hx)
    (List.pairwise_of_forall (R := fun _ _ => True) fun _ _ => trivial), tellsFirst_of_tells h,
    fun x hx _ _ _ => hTell x hx⟩

namespace Machine

variable {m m' m₀ : Machine} {i k : ThreadId} {action x : Action} {rest : List Action} {e : Effect}
  {p p' : StreamState} {events : List Event}

/-- A listener joins the others. -/
def joined (m : Machine) (l : Listener) : Machine := { m with stream := m.stream.addListener l }

/-- What happens on a machine from `m₀` on while listeners come to it that never stop the stream,
and every thread has told listeners what it has to before another one moves on. -/
inductive Attended (m₀ : Machine) : List Event → Machine → Prop where
  | here : Attended m₀ [] m₀
  | change {events : List Event} {m : Machine} (x : Circumstances) (hPath : Attended m₀ events m) :
      Attended m₀ events (m.amid x)
  | join {events : List Event} {m : Machine} {l : Listener} (hPassive : l.IsPassive)
      (hPath : Attended m₀ events m) : Attended m₀ events (m.joined l)
  | step {events : List Event} {m m' : Machine} {i : ThreadId} {action : Action}
      {rest : List Action} (hPath : Attended m₀ events m) (hAgenda : m.agenda i = action :: rest)
      (hFirst : ∀ k, k ≠ i → ∀ x ∈ m.agenda k, x.tells = false) (hStep : m.step? i = some m') :
      Attended m₀ (events ++ [{ action, before := m.stream, thread := i, rest }]) m'

/-- What holds at first, whoever joins, and is kept by every change and every move holds all
along. -/
@[elab_as_elim]
theorem Attended.induct {motive : ∀ events m, Attended m₀ events m → Prop}
    (here : motive [] m₀ .here)
    (change : ∀ {events m} (x : Circumstances) (hPath : Attended m₀ events m),
      motive events m hPath → motive events (m.amid x) (hPath.change x))
    (join : ∀ {events m l} (hPassive : l.IsPassive) (hPath : Attended m₀ events m),
      motive events m hPath → motive events (m.joined l) (hPath.join hPassive))
    (step : ∀ {events m m' i action rest e} (hPath : Attended m₀ events m)
      (_ : m.step? i = some m') (_ : m.Moved i action rest e m')
      (_ : ∀ k, k ≠ i → ∀ x ∈ m.agenda k, x.tells = false)
      (hNext : Attended m₀ (events ++ [{ action, before := m.stream, thread := i, rest }]) m'),
      motive events m hPath → motive _ m' hNext)
    {events : List Event} {m : Machine} (h : Attended m₀ events m) : motive events m h := by
  induction h with
  | here => exact here
  | change x hPath ih => exact change x hPath ih
  | join hPassive hPath ih => exact join hPassive hPath ih
  | step hPath hAgenda hFirst hStep ih =>
    obtain ⟨_, _, _, hMoved⟩ := moved_of_step hStep
    obtain ⟨rfl, rfl⟩ := List.cons.inj (hAgenda.symm.trans hMoved.agenda)
    exact step hPath hStep hMoved hFirst _ ih

theorem Attended.trans {m₁ : Machine} {later : List Event} (h : Attended m₀ events m₁)
    (h' : Attended m₁ later m) : Attended m₀ (events ++ later) m := by
  induction h' with
  | here => rwa [List.append_nil]
  | change x _ ih => exact ih.change x
  | join hPassive _ ih => exact ih.join hPassive
  | step _ hAgenda hFirst hStep ih =>
    rw [← List.append_assoc]
    exact ih.step hAgenda hFirst hStep

/-- What listeners heard of is what the threads told those of them that write it down. -/
theorem Attended.states_eq (h : Attended m₀ events m) :
    m.stream.journal.states = m₀.stream.journal.states ++
      events.filterMap fun event => event.action.kept? event.before := by
  induction h using Attended.induct with
  | here => exact (List.append_nil _).symm
  | change _ _ ih => exact ih
  | join _ _ ih => exact ih
  | @step events m m' i action rest e _ _ hMoved _ _ ih =>
    obtain ⟨last, hPerform⟩ := hMoved.performs
    rw [hMoved.stream, Action.states_of_perform hPerform, ih, List.filterMap_append,
      List.append_assoc, List.filterMap_cons]
    cases action.kept? m.stream <;> rfl

/-- Of all that are told something just this listener writes it down. -/
def IsOnlyKeeper (listener : Nat) (events : List Event) : Prop :=
  ∀ event ∈ events, ∀ k ∈ event.action.listener?, event.before.keeps k = true ↔ k = listener

instance (listener : Nat) (events : List Event) : Decidable (IsOnlyKeeper listener events) :=
  inferInstanceAs (Decidable (∀ event ∈ events, ∀ k ∈ event.action.listener?, _))

/-- **What a listener that writes it down was told is what was heard.** -/
theorem Attended.states_eq_told (h : Attended m₀ events m) {listener : Nat}
    (hKeeps : IsOnlyKeeper listener events) :
    m.stream.journal.states = m₀.stream.journal.states ++ told listener events := by
  have hSame : ∀ event ∈ events, event.action.kept? event.before = event.action.news? listener := by
    intro event he
    cases hAction : event.action
    case tell k state profile =>
      have hOnly : event.before.keeps k = true ↔ k = listener :=
        hKeeps event he k (by rw [hAction]; rfl)
      rw [Action.kept?, Action.news?]
      split
      next hKept => rw [if_pos (hOnly.mp hKept)]
      next hNot => rw [if_neg fun hListener => hNot (hOnly.mpr hListener)]
    all_goals rfl
  rw [h.states_eq, told, List.filterMap_congr hSame]

/-- A listener that joins does not change what threads do. -/
theorem Composed.joined (h : m.Composed) {l : Listener} (hPassive : l.IsPassive) :
    (m.joined l).Composed where
  sound := h.sound
  owed := h.owed
  firm := h.firm
  quiet := h.quiet
  waning hStopping := (h.waning hStopping).imp fun _ hWaning =>
    ⟨hWaning.holds, hWaning.inactive, hWaning.settles, hWaning.tame⟩
  calm l' hl' := by
    rcases List.mem_append.mp hl' with hOld | hNew
    · exact h.calm l' hOld
    · rw [List.mem_singleton.mp hNew]
      exact hPassive
  timely k := (h.timely k).drift (.inl rfl)
  renews k x hx hResumption := (h.renews k x hx hResumption).imp id
    (Or.imp (fun ⟨pre, hPre⟩ => ⟨pre, hPre⟩) id)

/-- The agenda of a thread that does not move has nothing new to tell. -/
theorem Locked.not_tells_moved (h : m.Locked) (hMoved : m.Moved i action rest e m') (hk : k ≠ i)
    (hBefore : ∀ x ∈ m.agenda k, x.tells = false) : ∀ x ∈ m'.agenda k, x.tells = false := by
  rcases hMoved.others k hk with hSame | ⟨_, hSpawned⟩
  · rwa [hSame]
  · intro x hx
    have hBegets := ((h.advances hMoved).spawned _ hSpawned).2.2
    have hBegotten := List.all_eq_true.mp hBegets x hx
    rcases Action.eq_of_begets hBegotten with ⟨_, _, _, rfl⟩ | ⟨_, _, rfl⟩ <;> rfl

/-- What listeners were told in a history, and are still to be told, makes them believe `p`. -/
structure Informed (events : List Event) (m : Machine) (p : StreamState) : Prop where
  composed : m.Composed
  shown : m.Shown p
  first : ∀ k, TellsFirst (m.agenda k)
  /-- One thread may still have something to tell. -/
  heard : ∃ k, (∀ j, j ≠ k → ∀ x ∈ m.agenda j, x.tells = false) ∧
    ∀ listener, Heard p (told listener events ++ news listener (m.agenda k)) ∧
      (m.stream.control.listeners.length ≤ listener →
        told listener events ++ news listener (m.agenda k) = [])

/-- A fresh machine has told listeners nothing, and they take the stream to be stopped. -/
theorem Fresh.informed (h : m.Fresh) (hCalm : m.stream.IsCalm)
    (hQuiet : m.stream.control.quiet = false) : Informed [] m m.stream.control.state := by
  have hMute (k : ThreadId) : ∀ x ∈ m.agenda k, x.tells = false := fun x hx =>
    (h.bare k x hx).2.2.1
  refine ⟨h.composed hCalm, .open h.orderly.toLocked hQuiet (fun _ => rfl)
    (fun hStopping _ => hStopping) fun k x hx hFails => ?_, fun k => tellsFirst_of_tells (hMute k),
    0, fun j _ => hMute j, fun listener => ?_⟩
  · cases (h.bare k x hx).2.2.2.symm.trans hFails
  · rw [news_of_tells (hMute 0)]
    exact ⟨.nil _, fun _ => rfl⟩

namespace Informed

theorem amid (h : Informed events m p) (x : Circumstances) : Informed events (m.amid x) p where
  composed := h.composed.amid x
  shown := ⟨h.shown.plain, h.shown.stopping, h.shown.failing, h.shown.muted, h.shown.vigil⟩
  first := h.first
  heard := h.heard

/-- Who joins late was told nothing. -/
theorem joined (h : Informed events m p) {l : Listener} (hPassive : l.IsPassive) :
    Informed events (m.joined l) p where
  composed := h.composed.joined hPassive
  shown := ⟨h.shown.plain, h.shown.stopping, h.shown.failing, h.shown.muted, h.shown.vigil⟩
  first := h.first
  heard := by
    obtain ⟨k, hOthers, hHeard⟩ := h.heard
    refine ⟨k, hOthers, fun listener => ⟨(hHeard listener).1, fun hLate => (hHeard listener).2 ?_⟩⟩
    have hMore : (m.stream.control.listeners ++ [l]).length ≤ listener := hLate
    rw [List.length_append] at hMore
    omega

/-- If no other thread has anything to tell, the one that moves has. -/
theorem heard_of_first (h : Informed events m p)
    (hFirst : ∀ k, k ≠ i → ∀ x ∈ m.agenda k, x.tells = false) (listener : Nat) :
    Heard p (told listener events ++ news listener (m.agenda i)) ∧
      (m.stream.control.listeners.length ≤ listener →
        told listener events ++ news listener (m.agenda i) = []) := by
  obtain ⟨k, hOthers, hHeard⟩ := h.heard
  by_cases hk : k = i
  · exact hk ▸ hHeard listener
  · have hElse := hHeard listener
    rw [news_of_tells (hFirst k hk)] at hElse
    rwa [news_of_tells (hOthers i (Ne.symm hk))]

/-- Another one is told. -/
theorem moved_of_tells (h : Informed events m p) (hMoved : m.Moved i action rest e m')
    (hFirst : ∀ k, k ≠ i → ∀ x ∈ m.agenda k, x.tells = false) (hTells : action.tells = true) :
    Informed (events ++ [{ action, before := m.stream, thread := i, rest }]) m' p := by
  obtain ⟨last, hPerform⟩ := hMoved.performs
  have hOwn : m'.agenda i = rest := by
    have hInert : action.isInert = true := by cases action <;> first | rfl | cases hTells
    rw [hMoved.own, Action.next_of_isInert hInert h.composed.calm hPerform]
    rfl
  obtain ⟨p', hShown, _, hSilent⟩ := h.shown.moved h.composed hMoved
  obtain rfl : p' = p := hSilent fun hLoud => by
    cases action <;> first | exact hLoud | cases hTells
  refine ⟨h.composed.moved hMoved, hShown, fun k => ?_, i, fun j hj =>
    h.composed.toLocked.not_tells_moved hMoved hj (hFirst j hj), fun listener => ?_⟩
  · by_cases hk : k = i
    · subst hk
      rw [hOwn]
      exact (hMoved.agenda ▸ h.first k : TellsFirst (action :: rest)).of_cons
    · exact tellsFirst_of_tells (h.composed.toLocked.not_tells_moved hMoved hk (hFirst k hk))
  · have hBefore := h.heard_of_first hFirst listener
    rw [hMoved.agenda, news_cons, ← List.append_assoc] at hBefore
    rw [told_concat, hOwn, hMoved.stream, Action.length_listeners_of_perform hPerform]
    exact hBefore

/-- Something is done that may be told of. -/
theorem moved_of_not_tells (h : Informed events m p) (hMoved : m.Moved i action rest e m')
    (hFirst : ∀ k, k ≠ i → ∀ x ∈ m.agenda k, x.tells = false) (hTells : action.tells = false) :
    ∃ p', Informed (events ++ [{ action, before := m.stream, thread := i, rest }]) m' p' := by
  obtain ⟨last, hPerform⟩ := hMoved.performs
  have hRest : ∀ x ∈ rest, x.tells = false :=
    (hMoved.agenda ▸ h.first i : TellsFirst (action :: rest)).not_tells_rest hTells
  have hOthers (k : ThreadId) (hk : k ≠ i) :=
    h.composed.toLocked.not_tells_moved hMoved hk (hFirst k hk)
  have hBefore (listener : Nat) : Heard p (told listener events) ∧
      (m.stream.control.listeners.length ≤ listener → told listener events = []) := by
    have hHeard := h.heard_of_first hFirst listener
    rwa [hMoved.agenda, news_cons, Action.news_of_tells hTells, news_of_tells hRest,
      Option.toList_none, List.append_nil, List.append_nil] at hHeard
  have hTold (listener : Nat) : told listener (events ++
      [{ action, before := m.stream, thread := i, rest }]) = told listener events := by
    rw [told_concat, Action.news_of_tells hTells, Option.toList_none, List.append_nil]
  obtain ⟨hAnnounces, hIsSilent⟩ :=
    Action.announces_of_perform (h.composed.toLocked.advances hMoved).stems hPerform
  obtain ⟨p', hShown, hLoud, hSilent⟩ := h.shown.moved h.composed hMoved
  rw [hMoved.stream] at hLoud hSilent
  have hComposed := h.composed.moved hMoved
  have hLength := Action.length_listeners_of_perform hPerform
  have hFits (hOwn : TellsFirst (m'.agenda i)) (k : ThreadId) : TellsFirst (m'.agenda k) := by
    by_cases hk : k = i
    · exact hk ▸ hOwn
    · exact tellsFirst_of_tells (hOthers k hk)
  refine ⟨p', hComposed, hShown, hFits ?_, i, hOthers, fun listener => ?_⟩
  all_goals rw [hMoved.own]
  all_goals by_cases hIsLoud : action.IsLoud m.stream.control e.stream.control
  · obtain ⟨l, hNext, hl⟩ := hAnnounces hIsLoud
    rw [hNext, List.append_assoc]
    exact tellsFirst_tellAll (List.forall_mem_append.mpr ⟨hl, hRest⟩) _
  · exact tellsFirst_of_tells (List.forall_mem_append.mpr ⟨hIsSilent hIsLoud, hRest⟩)
  · obtain ⟨l, hNext, hl⟩ := hAnnounces hIsLoud
    obtain ⟨rfl, hEdge⟩ := hLoud hIsLoud
    rw [hTold, hNext, news_append, news_append, news_tellAll, news_of_tells hl,
      news_of_tells hRest, List.append_nil, List.append_nil, hMoved.stream, hLength]
    by_cases hThere : listener < m.stream.control.listeners.length
    · rw [if_pos hThere]
      exact ⟨(hBefore listener).1.concat hEdge, fun hLate => absurd hThere (Nat.not_lt.mpr hLate)⟩
    · rw [if_neg hThere, (hBefore listener).2 (Nat.not_lt.mp hThere)]
      exact ⟨.nil _, fun _ => rfl⟩
  · rw [hTold, news_append, news_of_tells (hIsSilent hIsLoud), news_of_tells hRest,
      List.append_nil, List.append_nil, hMoved.stream, hLength, hSilent hIsLoud]
    exact hBefore listener

theorem moved (h : Informed events m p) (hMoved : m.Moved i action rest e m')
    (hFirst : ∀ k, k ≠ i → ∀ x ∈ m.agenda k, x.tells = false) :
    ∃ p', Informed (events ++ [{ action, before := m.stream, thread := i, rest }]) m' p' := by
  cases hTells : action.tells with
  | true => exact ⟨p, h.moved_of_tells hMoved hFirst hTells⟩
  | false => exact h.moved_of_not_tells hMoved hFirst hTells

/-- What listeners are told makes them believe something true. -/
theorem of_attended (h : m₀.Fresh) (hCalm : m₀.stream.IsCalm)
    (hQuiet : m₀.stream.control.quiet = false) (hPath : Attended m₀ events m) :
    ∃ p, Informed events m p := by
  induction hPath using Attended.induct with
  | here => exact ⟨_, h.informed hCalm hQuiet⟩
  | change x _ ih =>
    obtain ⟨p, hInformed⟩ := ih
    exact ⟨p, hInformed.amid x⟩
  | join hPassive _ ih =>
    obtain ⟨p, hInformed⟩ := ih
    exact ⟨p, hInformed.joined hPassive⟩
  | step _ _ hMoved hFirst _ ih =>
    obtain ⟨p, hInformed⟩ := ih
    exact hInformed.moved hMoved hFirst

/-- When nothing is under way and nothing is left to tell, listeners know the state. -/
theorem last_told (h : Informed events m p) (hFree : m.stream.locks.holder .restart = none)
    (hTold : ∀ k, ∀ x ∈ m.agenda k, x.tells = false) (listener : Nat) :
    ∀ state ∈ (told listener events).getLast?, state = m.stream.control.state := by
  have hOwed (k : ThreadId) : owed (m.agenda k) = 0 := by
    rw [← h.composed.owed, Locks.depth_of_none hFree]
  have hBelieved : p = m.stream.control.state := by
    refine h.shown.plain ?_ fun hStopping => ?_
    · cases hQuiet : m.stream.control.quiet with
      | false => rfl
      | true =>
        obtain ⟨_, k, x, hx, hRenewal⟩ := h.shown.muted hQuiet
        have hUnderway := (h.composed.sound k).not_isUnderway (hOwed k) hx
        cases (Action.harmless_of_not_isUnderway hUnderway).1.symm.trans hRenewal
    · obtain ⟨k, hWaning⟩ := h.composed.waning hStopping
      have hHolds := hWaning.holds
      rw [hOwed k] at hHolds
      cases hHolds
  obtain ⟨k, _, hHeard⟩ := h.heard
  have hLast := (hHeard listener).1.last
  rwa [news_of_tells (hTold k), List.append_nil, hBelieved] at hLast

end Informed

/-! ### Histories to order -/

/-- Whether no thread but `i` has anything to tell. -/
def hushes (m : Machine) (i : ThreadId) : Bool :=
  (List.range m.threads.length).all fun k => k == i || (m.agenda k).all fun x => !x.tells

theorem not_tells_of_hushes (h : m.hushes i = true) (hk : k ≠ i) :
    ∀ x ∈ m.agenda k, x.tells = false := by
  intro x hx
  have hThere := lt_length_of_agenda (List.ne_nil_of_mem hx)
  have hOther := List.all_eq_true.mp h k (List.mem_range.mpr hThere)
  simp only [Bool.or_eq_true, beq_iff_eq, hk, false_or, List.all_eq_true,
    Bool.not_eq_true'] at hOther
  exact hOther x hx

/-- Nothing is under way, and nothing is left to tell. -/
def rests (m : Machine) : Bool :=
  (m.stream.locks.holder .restart).isNone &&
    (List.range m.threads.length).all fun k => (m.agenda k).all fun x => !x.tells

theorem free_of_rests (h : m.rests = true) : m.stream.locks.holder .restart = none ∧
    ∀ k, ∀ x ∈ m.agenda k, x.tells = false := by
  obtain ⟨hFree, hTold⟩ := Bool.and_eq_true_iff.mp h
  refine ⟨Option.isNone_iff_eq_none.mp hFree, fun k x hx => ?_⟩
  have hThere := lt_length_of_agenda (List.ne_nil_of_mem hx)
  have hAll := List.all_eq_true.mp (List.all_eq_true.mp hTold k (List.mem_range.mpr hThere)) x hx
  rwa [Bool.not_eq_true'] at hAll

/-- What happens as ordered, if listeners are told in time. -/
def attend (m : Machine) : List Cue → Option (List Event × Machine)
  | [] => some ([], m)
  | .go i n :: cues =>
    if m.hushes i then
      (m.stride i n).bind fun (events, m') =>
        (m'.attend cues).map fun (later, m'') => (events ++ later, m'')
    else none
  | .pass ns :: cues => (m.wait ns).attend cues

theorem Attended.of_stride {n : Nat} (h : m.Composed)
    (hFirst : ∀ k, k ≠ i → ∀ x ∈ m.agenda k, x.tells = false)
    (hStride : m.stride i n = some (events, m')) : Attended m events m' ∧ m'.Composed := by
  induction n generalizing m events with
  | zero =>
    cases hStride
    exact ⟨.here, h⟩
  | succ n ih =>
    rw [stride] at hStride
    split at hStride
    next action rest m₁ hAgenda hStep =>
      obtain ⟨⟨later, m₂⟩, hLater, hEq⟩ := Option.map_eq_some_iff.mp hStride
      cases hEq
      obtain ⟨action', rest', e, hMoved⟩ := moved_of_step hStep
      obtain ⟨hRest, h'⟩ := ih (h.moved hMoved)
        (fun k hk => h.toLocked.not_tells_moved hMoved hk (hFirst k hk)) hLater
      exact ⟨(Attended.here.step hAgenda hFirst hStep).trans hRest, h'⟩
    · cases hStride

theorem Attended.of_attend {cues : List Cue} (h : m.Composed)
    (hAttend : m.attend cues = some (events, m')) : Attended m events m' ∧ m'.Composed := by
  induction cues generalizing m events with
  | nil =>
    cases hAttend
    exact ⟨.here, h⟩
  | cons cue cues ih =>
    cases cue with
    | go i n =>
      rw [attend] at hAttend
      split at hAttend
      case isTrue hHush =>
        obtain ⟨⟨first, m₁⟩, hFirst, hRest⟩ := Option.bind_eq_some_iff.mp hAttend
        obtain ⟨⟨later, m₂⟩, hLater, hEq⟩ := Option.map_eq_some_iff.mp hRest
        cases hEq
        obtain ⟨hStart, h₁⟩ := of_stride h (fun k hk => not_tells_of_hushes hHush hk) hFirst
        obtain ⟨hEnd, h₂⟩ := ih h₁ hLater
        exact ⟨hStart.trans hEnd, h₂⟩
      · cases hAttend
    | pass ns =>
      obtain ⟨hEnd, h₂⟩ := ih (h.amid _) hAttend
      exact ⟨(Attended.here.change _).trans hEnd, h₂⟩

/-- Whether the cues can be followed in time, and lead to where the check holds. -/
def attends (m : Machine) (cues : List Cue) (check : List Event → Machine → Bool) : Bool :=
  (m.attend cues).any fun (events, m') => check events m'

theorem exists_of_attends {cues : List Cue} {check : List Event → Machine → Bool} (h : m.Composed)
    (hAttends : m.attends cues check = true) :
    ∃ events m', Attended m events m' ∧ m'.Composed ∧ check events m' = true := by
  obtain ⟨⟨events, m'⟩, hAttend, hCheck⟩ := (Option.any_eq_true _ _).mp hAttends
  obtain ⟨hPath, h'⟩ := Attended.of_attend h hAttend
  exact ⟨events, m', hPath, h', hCheck⟩

end Machine

end LidarSweep

import LidarSweep.Proofs.Machine.Agenda
import LidarSweep.Proofs.Stream.Footprint

/-!
# What actions put on agendas

An action that is not itself about a lock leaves all locks as they are, and what it puts on the
agenda keeps the agenda sound and the restart lock in as many hands as before
(`Action.follows_of_perform`). A new thread begins without the lock.
-/

namespace LidarSweep

/-- What an action does to locks and agendas. -/
structure Effect.Follows (e : Effect) (s : Stream) (action : Action) (rest : List Action) :
    Prop where
  locks : e.stream.locks = s.locks
  owed : owed (e.next ++ rest) = owed (action :: rest)
  sound : Sound (e.next ++ rest)
  spawned : ∀ agenda ∈ e.spawned,
    Sound agenda ∧ LidarSweep.owed agenda = 0 ∧ agenda.all action.begets = true
  stems : e.next.all action.stemsFrom = true

theorem Notice.stemsFrom_tellAll (n : Option Notice) {action : Action}
    (h : action.isPublic = true) : (Notice.tellAll n).all action.stemsFrom = true := by
  rw [List.all_eq_true]
  intro x hx
  obtain ⟨_, _, _, rfl⟩ := Notice.eq_tell_of_mem_tellAll hx
  exact h

theorem Stream.stemsFrom_request (s : Stream) {agenda : List Action} {action : Action}
    (h : agenda.all action.stemsFrom = true) :
    (s.request agenda).all action.stemsFrom = true := by
  unfold request
  split
  · rfl
  · exact h

namespace Effect.Follows

variable {e : Effect} {s : Stream} {action : Action} {rest : List Action}

theorem of_nil (hRest : Sound rest)
    (hOwed : LidarSweep.owed rest = LidarSweep.owed (action :: rest))
    (hLocks : e.stream.locks = s.locks) (hNext : e.next = []) (hSpawned : e.spawned = []) :
    e.Follows s action rest where
  locks := hLocks
  owed := by rw [hNext]; exact hOwed
  sound := by rw [hNext]; exact hRest
  spawned := by rw [hSpawned]; exact nofun
  stems := by rw [hNext]; rfl

theorem of_next (next : List Action) (hSound : Sound (next ++ rest))
    (hOwed : LidarSweep.owed (next ++ rest) = LidarSweep.owed (action :: rest))
    (hStems : next.all action.stemsFrom = true) (hLocks : e.stream.locks = s.locks)
    (hNext : e.next = next) (hSpawned : e.spawned = []) :
    e.Follows s action rest where
  locks := hLocks
  owed := by rw [hNext]; exact hOwed
  sound := by rw [hNext]; exact hSound
  spawned := by rw [hSpawned]; exact nofun
  stems := by rw [hNext]; exact hStems

/-- Listeners are told first. -/
theorem of_tells {n : Option Notice} (next : List Action) (hSound : Sound (next ++ rest))
    (hTame : Tame (next ++ rest))
    (hOwed : LidarSweep.owed (next ++ rest) = LidarSweep.owed (action :: rest))
    (hPublic : action.isPublic = true) (hStems : next.all action.stemsFrom = true)
    (hLocks : e.stream.locks = s.locks) (hNext : e.next = Notice.tellAll n ++ next)
    (hSpawned : e.spawned = []) : e.Follows s action rest := by
  refine of_next (Notice.tellAll n ++ next) ?_ ?_ ?_ hLocks hNext hSpawned
  · rw [List.append_assoc]
    exact (hSound.tellAll hTame n).1
  · rw [List.append_assoc, owed_tellAll]
    exact hOwed
  · rw [List.all_append, Notice.stemsFrom_tellAll n hPublic, hStems]
    rfl

end Effect.Follows

theorem Control.notice_of_quiet {c : Control} (h : c.quiet = true) (target : StreamState) :
    (c.transition target).2 = none := by
  unfold transition
  split
  · rfl
  · exact if_pos h

namespace Stream

open Effect.Follows

variable (s : Stream) {rest : List Action}

/-- In a restart, listeners are told nothing of a transition; otherwise they are told, and what they
ask for has its place before a tame rest. -/
theorem follows_transition {e : Effect} {action x : Action} {c : Control} {target : StreamState}
    (hRest : Sound rest) (hFits : Tame rest ∨ ∃ x ∈ rest, x.isRenewal = true)
    (hQuiet : (∃ x ∈ rest, x.isRenewal = true) → c.quiet = true)
    (hx : x.Fits rest) (hIdle : ∀ n, x.owes n = n ∧ action.owes n = n)
    (hRevives : x.revives = false) (hFails : x.fails = false) (hPublic : action.isPublic = true)
    (hStems : action.stemsFrom x = true)
    (hLocks : e.stream.locks = s.locks)
    (hNext : e.next = Notice.tellAll (c.transition target).2 ++ [x]) (hSpawned : e.spawned = []) :
    e.Follows s action rest := by
  have hOwed : owed (x :: rest) = owed (action :: rest) := by
    rw [owed_cons, owed_cons, (hIdle _).1, (hIdle _).2]
  have hAll : [x].all action.stemsFrom = true := by rw [List.all_cons, hStems]; rfl
  rcases hFits with hTame | hRenewal
  · exact of_tells [x] ⟨hx, hRest⟩ (hTame.cons hRevives hFails) hOwed hPublic hAll
      hLocks hNext hSpawned
  · rw [Control.notice_of_quiet (hQuiet hRenewal)] at hNext
    exact of_next [x] ⟨hx, hRest⟩ hOwed hAll hLocks hNext hSpawned

theorem follows_checkStart {profile : Profile} {consumer : ConsumerId} (hRest : Sound rest)
    (hFits : (Action.checkStart profile consumer).Fits rest) :
    (s.checkStart profile consumer).Follows s (.checkStart profile consumer) rest := by
  unfold checkStart
  rcases s.admission profile with ⟨verdict, table⟩
  cases verdict with
  | error e => exact of_nil hRest rfl rfl rfl rfl
  | ok g =>
    exact of_next [.acquire .pipeline, .resetPipeline profile.rate, .release .pipeline,
      .install g profile.format, .activate profile consumer]
      ⟨trivial, hFits.1, trivial, hFits.1, hFits, hRest⟩ rfl rfl rfl rfl rfl

theorem follows_activate {profile : Profile} {consumer : ConsumerId} (hRest : Sound rest)
    (hFits : (Action.activate profile consumer).Fits rest)
    (hQuiet : (∃ x ∈ rest, x.isRenewal = true) → s.control.quiet = true) :
    (s.activate profile consumer).Follows s (.activate profile consumer) rest :=
  s.follows_transition (x := .openSource _) hRest hFits.2 (by exact hQuiet) hFits
    (fun _ => ⟨rfl, rfl⟩) rfl rfl rfl rfl rfl rfl rfl

theorem follows_openSource {activation : Nat} (hRest : Sound rest)
    (hFits : (Action.openSource activation).Fits rest) :
    (s.openSource activation).Follows s (.openSource activation) rest := by
  unfold openSource
  rcases s.source.start activation with ⟨source, result⟩
  cases result with
  | ok =>
    refine ⟨rfl, rfl, hRest, fun agenda hAgenda => ?_, rfl⟩
    dsimp only at hAgenda
    split at hAgenda
    · obtain rfl := List.mem_singleton.mp hAgenda
      exact ⟨⟨rfl, trivial⟩, rfl, by simp [Action.begets]⟩
    · cases hAgenda
  | error e =>
    exact of_next [.uninstall, .revert e] ⟨hFits.1, hFits, hRest⟩ rfl rfl rfl rfl rfl

theorem follows_revert {cause : Error} (hRest : Sound rest)
    (hFits : (Action.revert cause).Fits rest)
    (hQuiet : (∃ x ∈ rest, x.isRenewal = true) → s.control.quiet = true) :
    (s.revert cause).Follows s (.revert cause) rest :=
  s.follows_transition (x := .finish _) hRest hFits.2 (by exact hQuiet) trivial
    (fun _ => ⟨rfl, rfl⟩) rfl rfl rfl rfl rfl rfl rfl

theorem follows_beginHalt {ending : Ending} (hRest : Sound rest)
    (hFits : (Action.beginHalt ending).Fits rest) :
    (s.beginHalt ending).Follows s (.beginHalt ending) rest := by
  unfold beginHalt
  split
  · exact of_nil hRest rfl rfl rfl rfl
  · cases ending with
    | stopped =>
      exact of_tells [.closeSource .stopped] ⟨hFits, hRest⟩ (hFits.2.cons rfl rfl) rfl rfl rfl
        rfl rfl rfl
    | failed => exact of_next [.closeSource .failed] ⟨hFits, hRest⟩ rfl rfl rfl rfl rfl

theorem follows_closeSource {ending : Ending} (hRest : Sound rest)
    (hFits : (Action.closeSource ending).Fits rest) :
    (s.closeSource ending).Follows s (.closeSource ending) rest := by
  have hNext (result : Except Error Unit) : Sound ([.acquire .delivery, .release .delivery,
      .retire, .settle ending result] ++ rest) :=
    ⟨trivial, trivial, hFits.1, hFits, hRest⟩
  have hStems (result : Except Error Unit) :
      [.acquire .delivery, .release .delivery, .retire, .settle ending result].all
        (Action.closeSource ending).stemsFrom = true := by
    cases ending <;> rfl
  unfold closeSource
  rcases s.source.stop with ⟨source, result⟩
  cases result with
  | ok => exact of_next _ (hNext _) rfl (hStems _) rfl rfl rfl
  | error e => exact of_next _ (hNext _) rfl (hStems _) rfl rfl rfl

theorem follows_settle {ending : Ending} {result : Except Error Unit} (hRest : Sound rest)
    (hFits : (Action.settle ending result).Fits rest) :
    (s.settle ending result).Follows s (.settle ending result) rest :=
  of_tells [.conclude ending result] ⟨trivial, hRest⟩ (hFits.2.cons rfl rfl) rfl rfl rfl rfl
    rfl rfl

theorem follows_tell {listener : Nat} {state : StreamState} {profile : Option Profile}
    (hRest : Sound rest) (hFits : (Action.tell listener state profile).Fits rest) :
    (s.tell listener state profile).Follows s (.tell listener state profile) rest := by
  obtain ⟨_, _, _, next, hTell, _, hNext⟩ := s.tell_eq listener state profile
  rw [hTell]
  rcases hNext with rfl | rfl
  · exact of_nil hRest rfl rfl rfl rfl
  · have hStop : Sound (Action.stop ++ [.hearStopped] ++ rest) :=
      ⟨Tame.cons hFits rfl rfl, trivial, hRest⟩
    exact of_next _ (hRest.request hStop) (owed_request _ rfl) (stemsFrom_request _ rfl) rfl rfl rfl

theorem follows_offer {packet : List UInt8} (hRest : Sound rest)
    (hFits : (Action.offer packet).Fits rest) :
    (s.offer packet).Follows s (.offer packet) rest := by
  unfold offer
  cases s.source.receiver with
  | none => exact of_nil hRest rfl rfl rfl rfl
  | some activation =>
    exact of_next [.receive activation packet] ⟨hFits, hRest⟩ rfl rfl rfl rfl rfl

theorem follows_play {activation index dueNs : Nat} {e : Effect} (hRest : Sound rest)
    (hFits : (Action.play activation index dueNs).Fits rest)
    (h : s.play? activation index dueNs = some e) :
    e.Follows s (.play activation index dueNs) rest := by
  unfold play? at h
  split at h
  · cases h
    exact of_nil hRest rfl rfl rfl rfl
  · split at h
    · cases h
    · split at h
      · cases h
        exact of_nil hRest rfl rfl rfl rfl
      next feed _ =>
        split at h
        · cases h
          exact of_nil hRest rfl rfl rfl rfl
        next packet _ =>
          cases h
          exact of_next [.receive activation packet,
            .play activation (index + 1) (s.now + feed.intervalNs)] ⟨hFits, hFits, hRest⟩
            rfl rfl rfl rfl rfl

theorem follows_receive {activation : Nat} {packet : List UInt8} (hRest : Sound rest)
    (hFits : (Action.receive activation packet).Fits rest) :
    (s.receive activation packet).Follows s (.receive activation packet) rest := by
  unfold receive
  split
  · exact of_next [.ingest activation packet] ⟨hFits, hRest⟩ rfl rfl rfl rfl rfl
  · exact of_nil hRest rfl rfl rfl rfl

theorem follows_ingest {activation : Nat} {packet : List UInt8} (hRest : Sound rest)
    (hFits : (Action.ingest activation packet).Fits rest) :
    (s.ingest activation packet).Follows s (.ingest activation packet) rest := by
  unfold ingest
  split
  · exact of_nil hRest rfl rfl rfl rfl
  · dsimp only
    split
    · exact of_nil hRest rfl rfl rfl rfl
    · next frame _ =>
      exact of_next [.acquire .delivery, .deliver activation frame, .release .delivery]
        ⟨trivial, hFits, trivial, hRest⟩ rfl rfl rfl rfl rfl

theorem follows_deliver {activation : Nat} {frame : Frame} (hRest : Sound rest)
    (hFits : (Action.deliver activation frame).Fits rest) :
    (s.deliver activation frame).Follows s (.deliver activation frame) rest := by
  unfold deliver
  split
  · next profile consumer _ _ _ =>
    exact of_next [.acquire .pipeline, .process activation profile consumer frame]
      ⟨trivial, hFits, hRest⟩ rfl rfl rfl rfl rfl
  · exact of_nil hRest rfl rfl rfl rfl

theorem follows_process {activation : Nat} {profile : Profile} {consumer : ConsumerId}
    {frame : Frame} (hRest : Sound rest)
    (hFits : (Action.process activation profile consumer frame).Fits rest) :
    (s.process activation profile consumer frame).Follows s
      (.process activation profile consumer frame) rest := by
  unfold process
  rcases s.pipeline.run (s.wall s.now) s.device.syncMode profile frame with ⟨pipeline, verdict⟩
  dsimp only
  cases verdict with
  | error e =>
    exact of_next [.release .pipeline, .dropFrame e] ⟨trivial, trivial, hRest⟩
      rfl rfl rfl rfl rfl
  | ok processed =>
    cases processed with
    | swallow => exact of_next [.release .pipeline] ⟨trivial, hRest⟩ rfl rfl rfl rfl rfl
    | keep frame =>
      exact of_next [.release .pipeline, .confirm activation profile consumer frame]
        ⟨trivial, hFits, hRest⟩ rfl rfl rfl rfl rfl
    | stopThen frame =>
      have hLater : Sound ([.release .pipeline, .confirm activation profile consumer frame] ++
          rest) := ⟨trivial, hFits, hRest⟩
      refine of_next (request { s with pipeline } Action.stop ++
        [.release .pipeline, .confirm activation profile consumer frame]) ?_ ?_ ?_
        rfl rfl rfl
      · rw [List.append_assoc]
        exact hLater.request (hLater.stop (tame_of_owed (by exact hFits)))
      · rw [List.append_assoc]
        exact owed_request _ rfl
      · rw [List.all_append, stemsFrom_request _ rfl]
        rfl

theorem follows_dropFrame {cause : Error} (hRest : Sound rest) :
    (s.dropFrame cause).Follows s (.dropFrame cause) rest := by
  unfold dropFrame
  refine of_nil hRest rfl ?_ rfl rfl
  dsimp only
  split <;> rfl

theorem follows_confirm {activation : Nat} {profile : Profile} {consumer : ConsumerId}
    {frame : Frame} (hRest : Sound rest)
    (hFits : (Action.confirm activation profile consumer frame).Fits rest) :
    (s.confirm activation profile consumer frame).Follows s
      (.confirm activation profile consumer frame) rest := by
  unfold confirm
  split
  · exact of_tells [.consume profile consumer frame] ⟨hFits, hRest⟩
      (tame_of_owed (by exact hFits)) rfl rfl rfl rfl rfl rfl
  · exact of_nil hRest rfl rfl rfl rfl

theorem stemsFrom_errands (profile : Profile) (consumer : ConsumerId) (frame : Frame)
    (list : List Errand) : (list.flatMap (Errand.actions profile consumer)).all
      (Action.consume profile consumer frame).stemsFrom = true := by
  rw [List.all_flatMap, List.all_eq_true]
  intro errand _
  cases errand <;> rfl

theorem follows_consume {profile : Profile} {consumer : ConsumerId} {frame : Frame}
    (hRest : Sound rest) (hFits : (Action.consume profile consumer frame).Fits rest) :
    (s.consume profile consumer frame).Follows s (.consume profile consumer frame) rest := by
  unfold consume
  rcases s.consumer.call frame with ⟨stage, conduct⟩
  cases conduct with
  | errands list =>
    obtain ⟨hSound, hOwed⟩ := errands_fit profile consumer list hRest hFits
    exact of_next _ (hRest.request hSound) (owed_request _ (hOwed.trans (Eq.symm hFits)))
      (stemsFrom_request _ (stemsFrom_errands profile consumer frame list)) rfl rfl rfl
  | panic reason => exact of_nil hRest rfl rfl rfl rfl

theorem follows_configure {recovery : RecoveryConfig} (hRest : Sound rest) :
    (s.configure recovery).Follows s (.configure recovery) rest := by
  unfold configure
  split
  · exact of_next [.employ] ⟨trivial, hRest⟩ rfl rfl rfl rfl rfl
  · exact of_next [.await _ _] ⟨trivial, hRest⟩ rfl rfl rfl rfl rfl

theorem follows_employ (hRest : Sound rest) : s.employ.Follows s .employ rest := by
  unfold employ
  split
  · exact of_nil hRest rfl rfl rfl rfl
  · refine ⟨rfl, rfl, hRest, fun agenda hAgenda => ?_, rfl⟩
    obtain rfl := List.mem_singleton.mp hAgenda
    exact ⟨⟨rfl, trivial⟩, rfl, rfl⟩

/-! ### The watcher, whose agenda ends with its own actions -/

theorem isActive_of_patience {c : Control} {timeoutMs : Nat} (h : patience? c = some timeoutMs) :
    c.state.isActive = true := by
  unfold patience? at h
  split at h
  · next hState => rw [hState]; rfl
  · next hState => rw [hState]; rfl
  · cases h

theorem follows_watch {budget : Budget} : (s.watch budget).Follows s (.watch budget) [] := by
  unfold watch
  dsimp only
  split
  · exact of_nil trivial rfl rfl rfl rfl
  · split
    · exact of_next [.awaitWake _ _] ⟨rfl, trivial⟩ rfl rfl rfl rfl rfl
    · next timeoutMs hPatience =>
      exact of_next [.awaitFrame _ _] ⟨⟨rfl, isActive_of_patience hPatience⟩, trivial⟩
        rfl rfl rfl rfl rfl

theorem follows_awaitWake {budget : Budget} {wakes : Nat} {e : Effect}
    (h : s.awaitWake? budget wakes = some e) : e.Follows s (.awaitWake budget wakes) [] := by
  unfold awaitWake? at h
  split at h
  · cases h
  · cases h
    exact of_next [.watch budget] ⟨rfl, trivial⟩ rfl rfl rfl rfl rfl

theorem follows_awaitFrame {budget : Budget} {vigil : Vigil} {e : Effect}
    (hActive : vigil.state.isActive = true) (h : s.awaitFrame? budget vigil = some e) :
    e.Follows s (.awaitFrame budget vigil) [] := by
  unfold awaitFrame? at h
  split at h
  · cases h
    exact of_next [.watch budget] ⟨rfl, trivial⟩ rfl rfl rfl rfl rfl
  · split at h
    · cases h
    · cases h
      exact of_next [.stall budget vigil _] ⟨⟨rfl, hActive⟩, trivial⟩ rfl rfl rfl rfl rfl

theorem follows_stall {budget : Budget} {vigil : Vigil} {limit : Nat}
    (hActive : vigil.state.isActive = true) :
    (s.stall budget vigil limit).Follows s (.stall budget vigil limit) [] := by
  unfold stall
  split
  · exact of_next [.watch budget] ⟨rfl, trivial⟩ rfl rfl rfl rfl rfl
  · refine of_next [.acquire .restart, .beginRestart budget vigil limit]
      ⟨⟨Nat.zero_lt_one, ?_⟩, ⟨rfl, hActive⟩, trivial⟩ rfl rfl rfl rfl rfl
    rintro ⟨x, hx, hUnderway⟩
    obtain rfl := List.mem_singleton.mp hx
    cases hUnderway

theorem follows_beginRestart {budget : Budget} {vigil : Vigil} {limit : Nat} :
    (s.beginRestart budget vigil limit).Follows s (.beginRestart budget vigil limit) [] := by
  rw [beginRestart_eq]
  cases s.renewal? vigil with
  | none =>
    exact of_next [.release .restart, .watch budget] ⟨trivial, rfl, trivial⟩
      rfl rfl rfl rfl rfl
  | some renewal =>
    obtain ⟨profile, consumer⟩ := renewal
    refine of_next [.halt .stopped, .checkPending budget vigil limit profile consumer]
      ⟨fun x hx => ?_, rfl, trivial⟩ rfl rfl rfl rfl rfl
    obtain rfl := List.mem_singleton.mp (mem_of_mem_held hx)
    exact ⟨rfl, rfl⟩

/-- The start of a restart has the lock in hand already. -/
theorem sound_start_of_restart (budget : Budget) (vigil : Vigil) (limit : Nat) (profile : Profile)
    (consumer : ConsumerId) :
    Sound (Action.start profile consumer ++
      [.endRestart budget vigil limit profile consumer]) :=
  ⟨⟨Nat.two_pos, fun _ => Nat.one_lt_two⟩,
    ⟨Nat.two_pos, .inr ⟨_, List.mem_cons_of_mem _ List.mem_cons_self, rfl⟩⟩, trivial, rfl, trivial⟩

theorem follows_checkPending {result : Except Error Unit} {budget : Budget} {vigil : Vigil}
    {limit : Nat} {profile : Profile} {consumer : ConsumerId} :
    (s.checkPending result budget vigil limit profile consumer).Follows s
      (.checkPending budget vigil limit profile consumer) [] := by
  have hBack : Sound [.release .restart, .watch budget] ∧
      Tame [.release .restart, .watch budget] := by
    refine ⟨⟨trivial, rfl, trivial⟩, fun x hx => ?_⟩
    rcases List.mem_cons.mp (mem_of_mem_held hx) with rfl | hx
    · exact ⟨rfl, rfl⟩
    · obtain rfl := List.mem_singleton.mp hx
      exact ⟨rfl, rfl⟩
  cases result
  all_goals
    dsimp only [checkPending]
    split
    · exact of_tells [.release .restart, .watch budget] hBack.1 hBack.2 rfl rfl rfl rfl rfl rfl
    · refine of_next (Action.start profile consumer ++
        [.endRestart budget vigil limit profile consumer]) ?_ rfl rfl rfl rfl rfl
      rw [List.append_nil]
      exact sound_start_of_restart budget vigil limit profile consumer

theorem follows_endRestart {result : Except Error Unit} {budget : Budget} {vigil : Vigil}
    {limit : Nat} {profile : Profile} {consumer : ConsumerId} :
    (s.endRestart result budget vigil limit profile consumer).Follows s
      (.endRestart budget vigil limit profile consumer) [] := by
  have hBack (retries : Nat) : Sound [.release .restart, .reckon retries limit] ∧
      Tame [.release .restart, .reckon retries limit] := by
    refine ⟨⟨trivial, rfl, trivial⟩, fun x hx => ?_⟩
    rcases List.mem_cons.mp (mem_of_mem_held hx) with rfl | hx
    · exact ⟨rfl, rfl⟩
    · obtain rfl := List.mem_singleton.mp hx
      exact ⟨rfl, rfl⟩
  have hTells (e : Effect) (hLocks : e.stream.locks = s.locks)
      (hNext : e.next = (if e.stream.control.state = vigil.state then []
        else Notice.tellAll { e.stream.control with quiet := false }.notice) ++
          [.release .restart, .reckon (budget.retries + 1) limit]) (hSpawned : e.spawned = []) :
      e.Follows s (.endRestart budget vigil limit profile consumer) [] := by
    split at hNext
    · exact of_next [.release .restart, .reckon _ limit] (hBack _).1 rfl rfl hLocks
        hNext hSpawned
    · exact of_tells [.release .restart, .reckon _ limit] (hBack _).1 (hBack _).2 rfl rfl
        rfl hLocks hNext hSpawned
  cases result with
  | ok => exact hTells _ rfl rfl rfl
  | error e => exact hTells _ rfl rfl rfl

theorem follows_reckon {retries limit : Nat} :
    (s.reckon retries limit).Follows s (.reckon retries limit) [] := by
  unfold reckon
  dsimp only
  split
  · exact of_next [.halt .failed, .reportHalt, .watch _]
      ⟨tame_of_owed rfl, trivial, rfl, trivial⟩ rfl rfl rfl rfl rfl
  · exact of_next [.watch _] ⟨rfl, trivial⟩ rfl rfl rfl rfl rfl

end Stream

/-- Whether the action itself takes a lock or lets go of one. -/
def Action.locks : Action → Bool
  | acquire _ | release _ | halt _ => true
  | _ => false

theorem Action.locks_of_perform {action : Action} {me : ThreadId} {last : Except Error Unit}
    {s : Stream} {e : Effect} (hAction : action.locks = false)
    (h : action.perform me last s = some e) : e.stream.locks = s.locks := by
  refine same_of_perform .locks ?_ h
  cases action <;> first | rfl | cases hAction

/-- **What an action puts on an agenda fits there.** -/
theorem Action.follows_of_perform {action : Action} {me : ThreadId} {last : Except Error Unit}
    {s : Stream} {e : Effect} {rest : List Action} (hAction : action.locks = false)
    (hRest : Sound rest) (hFits : action.Fits rest)
    (hQuiet : (∃ x ∈ rest, x.isRenewal = true) → s.control.quiet = true)
    (h : action.perform me last s = some e) : e.Follows s action rest := by
  cases action
  case acquire | release | halt => cases hAction
  case finish | pass | resetPipeline | install | uninstall | retire | abandon | shutDown |
      hearStopped | seeStopped | seeStarted =>
    cases h
    exact .of_nil hRest rfl rfl rfl rfl
  case sleep ns =>
    cases h
    exact .of_next [.await _ _] ⟨trivial, hRest⟩ rfl rfl rfl rfl rfl
  case await ready deadline =>
    rw [perform] at h
    split at h
    · cases h
      exact .of_nil hRest rfl rfl rfl rfl
    · cases h
  case conclude ending result =>
    cases h
    cases ending <;> exact .of_nil hRest rfl rfl rfl rfl
  case reportHalt =>
    cases h
    cases last <;> exact .of_nil hRest rfl rfl rfl rfl
  case checkStart => cases h; exact s.follows_checkStart hRest hFits
  case activate => cases h; exact s.follows_activate hRest hFits hQuiet
  case openSource => cases h; exact s.follows_openSource hRest hFits
  case revert => cases h; exact s.follows_revert hRest hFits hQuiet
  case beginHalt => cases h; exact s.follows_beginHalt hRest hFits
  case closeSource => cases h; exact s.follows_closeSource hRest hFits
  case settle => cases h; exact s.follows_settle hRest hFits
  case tell => cases h; exact s.follows_tell hRest hFits
  case offer => cases h; exact s.follows_offer hRest hFits
  case play => exact s.follows_play hRest hFits h
  case receive => cases h; exact s.follows_receive hRest hFits
  case ingest => cases h; exact s.follows_ingest hRest hFits
  case deliver => cases h; exact s.follows_deliver hRest hFits
  case process => cases h; exact s.follows_process hRest hFits
  case confirm => cases h; exact s.follows_confirm hRest hFits
  case dropFrame => cases h; exact s.follows_dropFrame hRest
  case consume => cases h; exact s.follows_consume hRest hFits
  case configure => cases h; exact s.follows_configure hRest
  case employ => cases h; exact s.follows_employ hRest
  case watch => cases h; obtain rfl := hFits; exact s.follows_watch
  case awaitWake => obtain rfl := hFits; exact s.follows_awaitWake h
  case awaitFrame => obtain ⟨rfl, hActive⟩ := hFits; exact s.follows_awaitFrame hActive h
  case stall => cases h; obtain ⟨rfl, hActive⟩ := hFits; exact s.follows_stall hActive
  case beginRestart => cases h; obtain ⟨rfl, _⟩ := hFits; exact s.follows_beginRestart
  case checkPending => cases h; obtain rfl := hFits; exact s.follows_checkPending
  case endRestart => cases h; obtain rfl := hFits; exact s.follows_endRestart
  case reckon => cases h; obtain rfl := hFits; exact s.follows_reckon

end LidarSweep

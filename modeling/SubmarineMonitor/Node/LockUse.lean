import Mathlib.Algebra.Order.BigOperators.Group.Finset
import Mathlib.Data.Fintype.EquivFin
import SubmarineMonitor.Foundation.LockOrder
import SubmarineMonitor.Node.Log
import SubmarineMonitor.Node.ObjectDetection
import SubmarineMonitor.Node.QueryRun
import SubmarineMonitor.Node.Rounds
import SubmarineMonitor.Node.Routing

/-!
# The node does not deadlock

Four tasks share three mutexes and take each of them with `osWaitForever`. `Configuration` keeps its
own while it writes a line to the card, so two are held at a time, and nobody holds another one
while he takes that of the configuration.

What a function does with the mutexes is read off its model: which frames are committed, whether the
day has changed, whether the mode has. `comm_send` and the callbacks that use it wait for nothing.

`lnc_rounds_complete` says that the tasks never block one another for good: the rounds under way are
over within thirty operations on the mutexes, in whatever order the tasks run.

## From functions to operations

For each function there is the list of what it does with the mutexes, in order, computed from the
same arguments as its model: `configuration_on_frame` takes the card's mutex within its own only for
a frame that is committed, `log_write` takes it twice on a new day, `monitor_task` reports a change
of mode only when there is one. So the lists cannot drift from the models unnoticed. `LockOrder`
knows only lists of operations, an order of the locks, and tasks that take them.

## What the bound is

Thirty is the sum of the longest rounds of the four tasks. The theorem is not about fairness:
whichever task the scheduler picks among those that can go on, the total of operations still to come
goes down, and as long as it is not zero one of them can.

## What is left out

The queues and semaphores, which nobody waits for while he holds a mutex: `comm_send` puts with a
time-out of zero. The delays within a search of the card, which end by themselves. Interrupts, which
take no mutex.
-/

open LockOrder Machine

namespace SubmarineMonitor

/-! ### The mutexes -/

/-- The mutexes of the node. -/
inductive LncLock
  /-- `g_config.lock`. -/
  | config
  /-- `latest_lock` of `Monitor`. -/
  | latest
  /-- `s_sd_lock`. -/
  | sd
  deriving DecidableEq

instance : Fintype LncLock where
  elems := {.config, .latest, .sd}
  complete l := by cases l <;> simp

/-- The order in which they are taken. -/
def LncLock.rank : LncLock → ℕ
  | .config => 0
  | .latest => 1
  | .sd => 2

theorem LncLock.rank_injective : Function.Injective LncLock.rank := by
  decide

instance : PartialOrder LncLock :=
  PartialOrder.lift LncLock.rank LncLock.rank_injective

theorem LncLock.config_lt_sd : LncLock.config < .sd :=
  show (0 : ℕ) < 2 from Nat.two_pos

/-! ### What the functions do with them -/

/-- `SDFatFS_SaveString`, `SDFatFS_ForEachLine` and `SDFatFS_DeleteFile`, whatever FatFs answers. -/
def sdFatFsLocks : List (Op LncLock) :=
  [.acquire .sd, .release .sd]

/-- `write_events_file`, for each of the events. -/
def writeEventsFileLocks : List (Op LncLock) :=
  sdFatFsLocks

/-- `log_write`. -/
def logWriteLocks (l : Log) (r : RtcReading) : List (Op LncLock) :=
  if slotOf r ≠ l.lastWrittenDay then sdFatFsLocks ++ sdFatFsLocks else sdFatFsLocks

/-- `config_get_limits`. -/
def configGetLimitsLocks : List (Op LncLock) :=
  [.acquire .config, .release .config]

/-- What `configuration_on_frame` calls. -/
def ConfigCall.locks : ConfigCall → List (Op LncLock)
  | .eventConfigChanged _ => writeEventsFileLocks
  | .commSend _ => []

/-- `configuration_on_frame`. -/
def configurationOnFrameLocks (c : Config) (f : Option TlvFrame) (eraseOk : Bool) (programs : ℕ) :
    List (Op LncLock) :=
  match f with
  | none => []
  | some f =>
    .acquire .config ::
      (configurationOnFrame c (some f) eraseOk programs).2.flatMap ConfigCall.locks ++
        [.release .config]

/-- `log_on_frame`. -/
def logOnFrameLocks (f : Option TlvFrame) : List (Op LncLock) :=
  match f.bind queryRangeOfFrame with
  | none => []
  | some _ => logSlots.flatMap fun _ ↦ sdFatFsLocks

/-- `event_on_frame`. -/
def eventOnFrameLocks (f : Option TlvFrame) : List (Op LncLock) :=
  match f.bind queryRangeOfFrame with
  | none => []
  | some _ => sdFatFsLocks

/-- `comm_route_frame`. `init_on_frame` uses the clocks and `comm_send`. -/
def commRouteFrameLocks (c : Config) (f : TlvFrame) (eraseOk : Bool) (programs : ℕ) :
    List (Op LncLock) :=
  match commRouteFrame f with
  | some .configuration => configurationOnFrameLocks c (some f) eraseOk programs
  | some .log => logOnFrameLocks (some f)
  | some .event => eventOnFrameLocks (some f)
  | some .init | none => []

/-- The critical sections of `monitor_task` and of `monitor_get_latest`. -/
def latestLocks : List (Op LncLock) :=
  [.acquire .latest, .release .latest]

/-- A turn of the loop of `monitor_task`. -/
def monitorTaskLocks (m : Monitor) (l : Log) (limits : ConfigLimits) (sensors : Sensors)
    (r : RtcReading) : List (Op LncLock) :=
  let (m, data) := monitorSample m sensors
  configGetLimitsLocks ++
    (if classifyMode limits data ≠ m.mode then writeEventsFileLocks else []) ++
    logWriteLocks l r ++ latestLocks

/-- A turn of the loop of `objdet_task`. -/
def objdetTaskLocks (present : Bool) (flags : ObjdetFlags) : List (Op LncLock) :=
  let detected := flags.edge && !present
  (if detected then writeEventsFileLocks else []) ++
    if flags.timeout && (present || detected) then writeEventsFileLocks else []

/-! ### The tasks -/

/-- The tasks that take mutexes. -/
inductive LncTask
  | monitor
  | keepAlive
  | objDet
  | commRx
  deriving DecidableEq

instance : Fintype LncTask where
  elems := {.monitor, .keepAlive, .objDet, .commRx}
  complete t := by cases t <;> simp

/-- What one of them is doing, with all that it may find when it does it. -/
inductive LncRound
  | monitor (m : Monitor) (l : Log) (limits : ConfigLimits) (sensors : Sensors) (r : RtcReading)
  | keepAlive
  | objDet (present : Bool) (flags : ObjdetFlags)
  | frame (c : Config) (f : TlvFrame) (eraseOk : Bool) (programs : ℕ)

/-- Who does it. -/
def LncRound.task : LncRound → LncTask
  | .monitor .. => .monitor
  | .keepAlive => .keepAlive
  | .objDet .. => .objDet
  | .frame .. => .commRx

/-- What it does with the mutexes. -/
def LncRound.locks : LncRound → List (Op LncLock)
  | .monitor m l limits sensors r => monitorTaskLocks m l limits sensors r
  | .keepAlive => latestLocks
  | .objDet present flags => objdetTaskLocks present flags
  | .frame c f eraseOk programs => commRouteFrameLocks c f eraseOk programs

/-- The rounds that are begun are rounds of the tasks that begin them. -/
def LncBegins (_ : State LncTask LncLock) : Action LncTask LncLock → Prop
  | .begin t round => ∃ r : LncRound, r.task = t ∧ r.locks = round
  | .next _ => True

/-! ### They are in order -/

/-- A mutex by itself. -/
theorem ordered_single (l : LncLock) : Ordered [] [.acquire l, .release l] := by
  have hnone : Ordered [] ([] : List (Op LncLock)) := rfl
  exact hnone.under fun _ hk ↦ absurd hk List.not_mem_nil

theorem ordered_logWriteLocks (l : Log) (r : RtcReading) : Ordered [] (logWriteLocks l r) := by
  rw [logWriteLocks]
  split_ifs
  · exact (ordered_single .sd).trans (ordered_single .sd)
  · exact ordered_single .sd

theorem ordered_configCallLocks (call : ConfigCall) : Ordered [] call.locks := by
  cases call with
  | eventConfigChanged => exact ordered_single .sd
  | commSend => exact rfl

/-- A commit takes the card's mutex under that of the configuration. -/
theorem ordered_configurationOnFrameLocks (c : Config) (f : Option TlvFrame) (eraseOk : Bool)
    (programs : ℕ) : Ordered [] (configurationOnFrameLocks c f eraseOk programs) := by
  obtain _ | f := f
  · exact rfl
  refine Ordered.under (.flatMap ordered_configCallLocks _) fun k hk ↦ ?_
  obtain ⟨call, -, hk⟩ := List.mem_flatMap.1 hk
  cases call with
  | eventConfigChanged description =>
    obtain rfl : k = .sd := by
      simpa [ConfigCall.locks, writeEventsFileLocks, sdFatFsLocks] using hk
    exact LncLock.config_lt_sd
  | commSend => exact absurd hk List.not_mem_nil

theorem ordered_commRouteFrameLocks (c : Config) (f : TlvFrame) (eraseOk : Bool) (programs : ℕ) :
    Ordered [] (commRouteFrameLocks c f eraseOk programs) := by
  rw [commRouteFrameLocks]
  split
  · exact ordered_configurationOnFrameLocks c (some f) eraseOk programs
  · rw [logOnFrameLocks]
    split
    · exact rfl
    · exact .flatMap (fun _ ↦ ordered_single .sd) logSlots
  · rw [eventOnFrameLocks]
    split
    · exact rfl
    · exact ordered_single .sd
  · exact rfl
  · exact rfl

/-- **Every round takes its mutexes in order.** -/
theorem LncRound.ordered (r : LncRound) : Ordered [] r.locks := by
  have hif : ∀ (p : Prop) [Decidable p], Ordered [] (if p then writeEventsFileLocks else []) := by
    intro p _
    split_ifs
    · exact ordered_single .sd
    · exact rfl
  cases r with
  | monitor m l limits sensors r =>
    exact (((ordered_single .config).trans (hif _)).trans (ordered_logWriteLocks l r)).trans
      (ordered_single .latest)
  | keepAlive => exact ordered_single .latest
  | objDet present flags => exact (hif _).trans (hif _)
  | frame c f eraseOk programs => exact ordered_commRouteFrameLocks c f eraseOk programs

/-! ### They are short -/

/-- The most operations on mutexes in one round. -/
def LncTask.most : LncTask → ℕ
  | .monitor => 10
  | .keepAlive => 2
  | .objDet => 4
  | .commRx => 14

theorem length_configurationOnFrameLocks (c : Config) (f : Option TlvFrame) (eraseOk : Bool)
    (programs : ℕ) : (configurationOnFrameLocks c f eraseOk programs).length ≤ 4 := by
  obtain _ | f := f
  · exact Nat.zero_le 4
  rw [configurationOnFrameLocks]
  rcases configurationOnFrame_cases c (some f) eraseOk programs with h | h
  · obtain h | ⟨limits, description, -, h⟩ := h
    all_goals
      rw [h]
      exact Nat.le_of_ble_eq_true rfl
  · rw [h]
    exact Nat.le_of_ble_eq_true rfl

theorem LncRound.length_locks (r : LncRound) : r.locks.length ≤ r.task.most := by
  have hif : ∀ (p : Prop) [Decidable p], (if p then writeEventsFileLocks else []).length ≤ 2 := by
    intro p _
    split_ifs
    · exact le_rfl
    · exact Nat.zero_le 2
  cases r with
  | monitor m l limits sensors r =>
    have hmode := hif
      (classifyMode limits (monitorSample m sensors).2 ≠ (monitorSample m sensors).1.mode)
    have hlog : (logWriteLocks l r).length ≤ 4 := by
      rw [logWriteLocks]
      split_ifs
      · exact le_rfl
      · exact Nat.le_of_ble_eq_true rfl
    simp only [locks, monitorTaskLocks, List.length_append, task, LncTask.most]
    have hrest : configGetLimitsLocks.length = 2 ∧ latestLocks.length = 2 := ⟨rfl, rfl⟩
    omega
  | keepAlive => exact le_rfl
  | objDet present flags =>
    simp only [locks, objdetTaskLocks, List.length_append]
    exact Nat.add_le_add (hif _) (hif _)
  | frame c f eraseOk programs =>
    rw [locks, commRouteFrameLocks]
    split
    · exact (length_configurationOnFrameLocks c (some f) eraseOk programs).trans
        (Nat.le_of_ble_eq_true rfl)
    · rw [logOnFrameLocks]
      split
      · exact Nat.zero_le _
      · exact le_rfl
    · rw [eventOnFrameLocks]
      split
      · exact Nat.zero_le _
      · exact Nat.le_of_ble_eq_true rfl
    · exact Nat.zero_le _
    · exact Nat.zero_le _

variable {s s' : State LncTask LncLock}

/-- No task has more left to do than its longest round. -/
theorem length_rest_le (h : Reaches step LncBegins start s) (t : LncTask) :
    (s.rest t).length ≤ t.most := by
  refine h.invariant (I := fun s ↦ ∀ t, (s.rest t).length ≤ t.most) (fun _ ↦ Nat.zero_le _) ?_ t
  intro s s' a hs hok ha u
  cases a with
  | begin t round =>
    obtain ⟨r, rfl, rfl⟩ := hok
    dsimp only [LockOrder.step] at ha
    split at ha
    · obtain rfl := Option.some.inj ha
      show (Function.update s.rest r.task r.locks u).length ≤ u.most
      rw [Function.update_apply]
      split_ifs with hu
      · rw [hu]
        exact r.length_locks
      · exact hs u
    · cases ha
  | next t =>
    obtain ⟨op, ops, hrest, hrest', -⟩ := step_next ha
    rw [hrest', Function.update_apply]
    split_ifs with hu
    · have hmost := hs u
      rw [hu, hrest, List.length_cons] at hmost
      rw [hu]
      omega
    · exact hs u

/-- **The tasks never block one another for good.** Whatever rounds they are in the middle of,
within thirty more operations on the mutexes all of these are over and all mutexes are free. Until
then one of the tasks can go on, in whatever order they have gone on so far. -/
theorem lnc_rounds_complete (h : Reaches step LncBegins start s) {ts : List LncTask}
    (hrun : exec step s (ts.map .next) = some s') :
    work s ≤ 30 ∧ (ts.length < work s → ∃ t s'', step s' (.next t) = some s'') ∧
      (ts.length = work s → (∀ t, s'.rest t = []) ∧ ∀ l, s'.owner l = none) := by
  have hadmits : Reaches step Admits start s := by
    refine h.mono fun s a ha ↦ ?_
    cases a with
    | begin t round =>
      obtain ⟨r, -, rfl⟩ := ha
      exact r.ordered
    | next t => exact ha
  refine ⟨?_, (inOrder_of_reaches hadmits).completes hrun⟩
  calc work s = ∑ t, (s.rest t).length := rfl
    _ ≤ ∑ t, LncTask.most t := Finset.sum_le_sum fun t _ ↦ length_rest_le h t
    _ = 30 := rfl

/-- A round of the monitor on a new day. -/
def newDayRound : LncRound :=
  .monitor monitorCreate logCreate defaultLimits ⟨4095, 255, .noResponse⟩ ⟨26, 1, 1, 4, 0, 0, 0⟩

/-- A bound that is set. -/
def commitRound : LncRound :=
  .frame ⟨defaultLimits, .erased⟩ ⟨tlvTagSetHumNormal, 1, some [10]⟩ true 3

/-- The tasks in an order that ends both. -/
def commitOrder : List LncTask :=
  [.monitor, .commRx, .commRx, .commRx] ++ List.replicate 6 .monitor

/-- The commit has the configuration's mutex and waits for the card, which the monitor has; ten
operations later both rounds are over. -/
theorem lnc_rounds_complete_commit :
    ∃ s s' : State LncTask LncLock,
      (s.owner .sd = some .monitor ∧ s.owner .config = some .commRx ∧
          step s (.next .commRx) = none) ∧
        exec step s (commitOrder.map .next) = some s' ∧
        (∀ t, s'.rest t = []) ∧ ∀ l, s'.owner l = none := by
  let ok : Action LncTask LncLock → Bool := fun a ↦
    match a with
    | .begin t round =>
      decide ((t, round) ∈ [newDayRound, commitRound].map fun r ↦ (r.task, r.locks))
    | .next _ => true
  have hrun : ((exec (guarded step fun _ a ↦ ok a = true) start
      ([.begin .monitor newDayRound.locks, .next .monitor, .next .monitor, .next .monitor,
        .begin .commRx commitRound.locks, .next .commRx])).bind fun s ↦
          (exec step s (commitOrder.map .next)).map fun _ ↦
            ((s.owner .sd, s.owner .config), (step s (.next .commRx)).isNone, work s)) =
      some ((some .monitor, some .commRx), true, 10) := by decide +kernel
  obtain ⟨s, hexec, hrest⟩ := Option.bind_eq_some_iff.1 hrun
  obtain ⟨s', hexec', hfound⟩ := Option.map_eq_some_iff.1 hrest
  obtain ⟨howners, hfound⟩ := Prod.mk.inj hfound
  obtain ⟨hwaits, hwork⟩ := Prod.mk.inj hfound
  obtain ⟨hsd, hconfig⟩ := Prod.mk.inj howners
  have hbegins : Reaches step LncBegins start s := by
    refine (reaches_of_exec hexec).mono fun s a ha ↦ ?_
    cases a with
    | begin t round =>
      obtain ⟨r, -, hr⟩ := List.mem_map.1 (of_decide_eq_true ha)
      obtain ⟨htask, hlocks⟩ := Prod.mk.inj hr
      exact ⟨r, htask, hlocks⟩
    | next t => trivial
  exact ⟨s, s', ⟨hsd, hconfig, Option.isNone_iff_eq_none.1 hwaits⟩, hexec',
    (lnc_rounds_complete hbegins hexec').2.2 hwork.symm⟩

end SubmarineMonitor

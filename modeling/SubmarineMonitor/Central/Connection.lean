import SubmarineMonitor.Foundation.Lifetimes

/-!
# The objects of the central computer's program

`main` makes the log, the database, the server for the ground station, the live log and a
connection; the operator may replace the connection any number of times. Two kinds of threads use
these objects: the server's, and the receiving thread of each `Communication`, which calls the
handlers that were registered with it. Constructors, reads and commands may throw at any time, and
what has been made by then is destroyed on the way out.

`main_lifetimes` says that the order in which all this is taken down is right: whatever the operator
does and whatever fails, in no interleaving does a thread touch an object that is gone. The order is
not written down anywhere in one place. It follows from the order of the declarations in `main` and
in `struct Connection`, which C++ destroys in reverse, from the destructors that join a thread, and
from the three calls of `reset()` in `switch_transport`, which repeat the order of `~Connection`.

## Scripts

What `main` does is a script (`Lifetimes`): for every run, the operations on objects and threads in
the order of the program (`mainScript`). The menu is a recursion over what the operator chooses, and
a connection is named by a number, so that the objects of an old and a new one are told apart. A
handler is registered where the code registers it, behind the start of the thread: from then on the
thread may touch what the handler has captured (`Op.grant`).

## What is left out

Only lifetimes are asked about. Whether a `join` comes back is another question: the thread that is
told to end may be in a `::send` that blocks without a time-out, towards a ground station or a node
that takes nothing, and then `main` waits with it. What the objects do to each other inside, and the
locks that they take, are modelled where they belong (`Central.Communication`,
`Central.GsLinkServer`, `Node.LockUse`); the launched log window is another process.
-/

open Lifetimes Machine

namespace SubmarineMonitor

/-! ### Objects and threads -/

/-- The objects; those of a connection by its number. -/
inductive CcObject
  | log
  | dca
  | gsLink
  | liveLog
  | transport (n : ℕ)
  | comm (n : ℕ)
  | mgmt (n : ℕ)
  deriving DecidableEq

/-- The threads. -/
inductive CcThread
  /-- `accept_thread_` of `GsLinkServer`. -/
  | accept
  /-- `rx_thread_` of a `Communication`. -/
  | rx (n : ℕ)
  deriving DecidableEq

abbrev CcOp := Op CcObject CcThread

/-! ### Connections -/

/-- How `connect_uart` or `connect_tcp` ends. -/
inductive ConnectOutcome
  /-- The transport's constructor throws. -/
  | noTransport
  /-- The constructor of `Communication` throws when it starts its thread. -/
  | noThread
  /-- `get_config` throws. -/
  | getConfigThrows
  | connected
  deriving DecidableEq

/-- A call of `ManagementCommand`. -/
def mgmtCall (n : ℕ) : List CcOp :=
  [.touch (.mgmt n), .touch .log, .touch (.comm n), .touch (.transport n)]

/-- `~Communication`. -/
def destroyComm (n : ℕ) : List CcOp :=
  [.touch (.comm n), .stop (.rx n), .join (.rx n), .destroy (.comm n)]

/-- `~Connection`, or the three `reset()` of `switch_transport`: `comm`, `mgmt`, `transport`. -/
def destroyConnection (n : ℕ) : List CcOp :=
  destroyComm n ++ [.destroy (.mgmt n), .destroy (.transport n)]

/-- `Communication(*c.transport)`, `set_log_handler`, `ManagementCommand(*c.comm, log)`, which
registers itself, and `get_config`. -/
def makeConnection (n : ℕ) : List CcOp :=
  [.make (.comm n), .spawn (.rx n) [.comm n, .transport n],
    .touch (.comm n), .grant (.rx n) .liveLog, .grant (.rx n) .dca,
    .make (.mgmt n), .touch (.comm n), .grant (.rx n) (.mgmt n), .grant (.rx n) .log] ++ mgmtCall n

/-- `connect_uart` and `connect_tcp`. -/
def connect (n : ℕ) : ConnectOutcome → List CcOp
  | .noTransport => []
  | .noThread => [.make (.transport n), .destroy (.transport n)]
  | .getConfigThrows => .make (.transport n) :: makeConnection n ++ destroyConnection n
  | .connected => .make (.transport n) :: makeConnection n

/-- The connection there is afterwards. -/
def connection (n : ℕ) : ConnectOutcome → Option ℕ
  | .connected => some n
  | .noTransport | .noThread | .getConfigThrows => none

/-- The connection, if any, is destroyed. -/
def destroyIfAny : Option ℕ → List CcOp
  | none => []
  | some n => destroyConnection n

/-! ### The menu -/

/-- What the operator chooses, and how it goes. -/
inductive MenuChoice
  /-- Options 1 and 5 to 14. -/
  | command (throws : Bool)
  /-- Options 2 and 3. -/
  | showStored (throws : Bool)
  /-- Option 4, given up before the old connection is. -/
  | cancelSwitch
  /-- Option 4, with something that is no `host:port`. -/
  | switchNowhere
  /-- Option 4. -/
  | switchTransport (outcome : ConnectOutcome)
  deriving DecidableEq

/-- The head of the menu, with the limits of the connection (`conn.mgmt->thresholds()`). -/
def menuHead : Option ℕ → List CcOp
  | none => []
  | some k => [.touch (.mgmt k)]

/-- `run_menu`, from here to an exception or to its end, which is logged: what it does, and the
connection it leaves. `n` is the next connection's number. -/
def runMenu (n : ℕ) (conn : Option ℕ) : List MenuChoice → List CcOp × Option ℕ
  | [] => (menuHead conn ++ [.touch .log], conn)
  | .command throws :: choices =>
    match conn with
    -- not connected
    | none => runMenu n none choices
    | some k =>
      if throws then (menuHead (some k) ++ mgmtCall k, some k)
      else
        let (ops, conn) := runMenu n (some k) choices
        (menuHead (some k) ++ (mgmtCall k ++ ops), conn)
  | .showStored throws :: choices =>
    if throws then (menuHead conn ++ [.touch .dca], conn)
    else
      let (ops, conn') := runMenu n conn choices
      (menuHead conn ++ .touch .dca :: ops, conn')
  | .cancelSwitch :: choices =>
    let (ops, conn') := runMenu n conn choices
    (menuHead conn ++ ops, conn')
  | .switchNowhere :: choices =>
    let (ops, conn') := runMenu n none choices
    (menuHead conn ++ (destroyIfAny conn ++ ops), conn')
  | .switchTransport outcome :: choices =>
    let (ops, conn') := runMenu (n + 1) (connection n outcome) choices
    (menuHead conn ++ (destroyIfAny conn ++ connect n outcome ++ .touch .log :: ops), conn')

/-! ### The program -/

/-- How far `main` gets. -/
inductive CcRun
  /-- A constructor throws. -/
  | noLog
  | noDca
  | noGsLink
  /-- The live log cannot be opened. -/
  | noLiveLog
  /-- The arguments are wrong. -/
  | usage
  | connecting (outcome : ConnectOutcome) (choices : List MenuChoice)

/-- `~GsLinkServer`. -/
def destroyGsLink : List CcOp :=
  [.touch .gsLink, .stop .accept, .join .accept, .destroy .gsLink]

/-- What `main` has made when it connects. -/
def makeCentral : List CcOp :=
  [.make .log, .make .dca, .make .gsLink, .spawn .accept [.gsLink, .dca], .make .liveLog]

/-- And how it is destroyed, on every way out. -/
def destroyCentral : List CcOp :=
  .destroy .liveLog :: destroyGsLink ++ [.destroy .dca, .destroy .log]

/-- `main`. -/
def mainScript : CcRun → List CcOp
  | .noLog => []
  | .noDca => [.make .log, .destroy .log]
  | .noGsLink => [.make .log, .make .dca, .destroy .dca, .destroy .log]
  | .noLiveLog | .usage => makeCentral ++ destroyCentral
  | .connecting outcome choices =>
    match connection 0 outcome with
    | none => makeCentral ++ connect 0 outcome ++ destroyCentral
    | some k =>
      let (ops, conn) := runMenu 1 (some k) choices
      makeCentral ++ connect 0 outcome ++ .touch .log :: ops ++ destroyIfAny conn ++ destroyCentral

/-! ### It is in order -/

/-- What there is behind the constructors of `main`, with this connection. -/
structure Running (conn : Option ℕ) (w : World CcObject CcThread) : Prop where
  alive : ∀ o, w.alive o = match o with
    | .log | .dca | .gsLink | .liveLog => true
    | .transport n | .comm n | .mgmt n => decide (conn = some n)
  started : ∀ t, w.started t = match t with
    | .accept => true
    | .rx n => decide (conn = some n)
  uses : ∀ o, w.uses .accept o = decide (o = .gsLink ∨ o = .dca)

/-- Nothing is left. -/
def Gone (w : World CcObject CcThread) : Prop :=
  (∀ o, w.alive o = false) ∧ ∀ t, w.started t = false

variable {w : World CcObject CcThread} {conn : Option ℕ}

theorem safe_mgmtCall {k : ℕ} (h : Running (some k) w) :
    Safe (Running (some k)) (mgmtCall k) w := by
  simp [mgmtCall, Op.Ok, Op.effect, h.alive, h]

/-- Each handler is registered when all that it uses is there. -/
theorem safe_makeConnection (h : Running none w) (n : ℕ) :
    Safe (Running (some n)) (.make (.transport n) :: makeConnection n) w := by
  refine (safe_iff _).2 ⟨?_, fun o ↦ ?_, fun t ↦ ?_, fun o ↦ ?_⟩
  · simp [makeConnection, mgmtCall, Op.Ok, Op.effect, h.alive, h.started, Function.update_apply]
  · cases o <;> simp [makeConnection, mgmtCall, Op.effect, h.alive, Function.update_apply, eq_comm]
  · cases t <;>
      simp [makeConnection, mgmtCall, Op.effect, h.started, Function.update_apply, eq_comm]
  · simp [makeConnection, mgmtCall, Op.effect, h.uses]

/-- With the receiving thread joined, nobody else uses the objects of the connection. -/
theorem Running.uses_eq_false {k : ℕ} (h : Running (some k) w) {o : CcObject}
    (ho : o = .comm k ∨ o = .mgmt k ∨ o = .transport k) (t : CcThread)
    (ht : Function.update w.started (.rx k) false t = true) : w.uses t o = false := by
  rw [Function.update_apply] at ht
  split_ifs at ht with hk
  cases t with
  | accept =>
    rw [h.uses]
    rcases ho with rfl | rfl | rfl <;> simp
  | rx n =>
    rw [h.started] at ht
    exact absurd (congrArg CcThread.rx (Option.some.inj (of_decide_eq_true ht)).symm) hk

/-- The receiving thread has ended before anything that it uses is destroyed. -/
theorem safe_destroyConnection {k : ℕ} (h : Running (some k) w) :
    Safe (Running none) (destroyConnection k) w := by
  refine (safe_iff _).2 ⟨?_, fun o ↦ ?_, fun t ↦ ?_, fun o ↦ ?_⟩
  · have hcomm := h.uses_eq_false (.inl rfl)
    have hmgmt := h.uses_eq_false (.inr (.inl rfl))
    have htransport := h.uses_eq_false (.inr (.inr rfl))
    simpa [destroyConnection, destroyComm, Op.Ok, Op.effect, h.alive, h.started]
      using ⟨hcomm, hmgmt, htransport⟩
  · cases o <;>
      simp [destroyConnection, destroyComm, Op.effect, h.alive, Function.update_apply, eq_comm]
  · cases t <;>
      simp [destroyConnection, destroyComm, Op.effect, h.started, Function.update_apply, eq_comm]
  · simp [destroyConnection, destroyComm, Op.effect, h.uses]

theorem safe_destroyIfAny (h : Running conn w) : Safe (Running none) (destroyIfAny conn) w := by
  cases conn with
  | none => exact h
  | some k => exact safe_destroyConnection h

/-- However connecting ends. -/
theorem safe_connect (h : Running none w) (n : ℕ) (outcome : ConnectOutcome) :
    Safe (Running (connection n outcome)) (connect n outcome) w := by
  cases outcome with
  | noTransport => exact h
  | noThread =>
    refine (safe_iff _).2 ⟨?_, fun o ↦ ?_, h.started, h.uses⟩
    · have huses : ∀ t, w.started t = true → w.uses t (.transport n) = false := by
        intro t ht
        cases t with
        | accept => simp [h.uses]
        | rx k => simp [h.started] at ht
      simpa [connect, Op.Ok, Op.effect, h.alive] using huses
    · cases o <;> simp [connect, connection, Op.effect, h.alive, Function.update_apply]
  | getConfigThrows =>
    exact (safe_append _ _).2 ((safe_makeConnection h n).mono fun _ ↦ safe_destroyConnection)
  | connected => exact safe_makeConnection h n

/-- A turn of the menu that begins with its head. -/
theorem safe_menuHead {Q : World CcObject CcThread → Prop} {ops : List CcOp} (h : Running conn w)
    (hops : ∀ w, Running conn w → Safe Q ops w) : Safe Q (menuHead conn ++ ops) w := by
  cases conn with
  | none => exact hops w h
  | some k => exact ⟨by simp [Op.Ok, h.alive], hops w h⟩

/-- Any choices at the menu. -/
theorem safe_runMenu (h : Running conn w) (n : ℕ) (choices : List MenuChoice) :
    Safe (Running (runMenu n conn choices).2) (runMenu n conn choices).1 w := by
  induction choices generalizing n conn w with
  | nil => exact safe_menuHead h fun w hw ↦ ⟨hw.alive .log, hw⟩
  | cons choice choices ih =>
    cases choice with
    | command throws =>
      rcases conn with _ | k
      · exact ih h n
      · rw [runMenu]
        split_ifs
        · exact safe_menuHead h fun w hw ↦ safe_mgmtCall hw
        · refine safe_menuHead h fun w hw ↦ (safe_append _ _).2 ?_
          exact (safe_mgmtCall hw).mono fun _ hw' ↦ ih hw' n
    | showStored throws =>
      rw [runMenu]
      split_ifs
      · exact safe_menuHead h fun w hw ↦ ⟨hw.alive .dca, hw⟩
      · exact safe_menuHead h fun w hw ↦ ⟨hw.alive .dca, ih hw n⟩
    | cancelSwitch => exact safe_menuHead h fun w hw ↦ ih hw n
    | switchNowhere =>
      refine safe_menuHead h fun w hw ↦ (safe_append _ _).2 ?_
      exact (safe_destroyIfAny hw).mono fun _ hw' ↦ ih hw' n
    | switchTransport outcome =>
      refine safe_menuHead h fun w hw ↦ (safe_append _ _).2 ((safe_append _ _).2 ?_)
      refine (safe_destroyIfAny hw).mono fun _ hw' ↦ ?_
      exact (safe_connect hw' n outcome).mono fun _ hw'' ↦ ⟨hw''.alive .log, ih hw'' (n + 1)⟩

theorem safe_makeCentral : Safe (Running none) makeCentral .empty := by
  refine (safe_iff _).2 ⟨?_, fun o ↦ ?_, fun t ↦ ?_, fun o ↦ ?_⟩
  · simp [makeCentral, Op.Ok, Op.effect, World.empty]
  · cases o <;> simp [makeCentral, Op.effect, World.empty]
  · cases t <;> simp [makeCentral, Op.effect, World.empty]
  · simp [makeCentral, Op.effect]

/-- The server's thread has ended before the database is destroyed. -/
theorem safe_destroyCentral (h : Running none w) : Safe Gone destroyCentral w := by
  have hnone : ∀ t, Function.update w.started .accept false t = false := by
    intro t
    cases t with
    | accept => exact Function.update_self _ _ _
    | rx n => simp [h.started]
  refine (safe_iff _).2 ⟨?_, fun o ↦ ?_, fun t ↦ ?_⟩
  · have hlive : ∀ t, w.started t = true → w.uses t .liveLog = false := by
      intro t ht
      cases t with
      | accept => simp [h.uses]
      | rx n => simp [h.started] at ht
    simpa [destroyCentral, destroyGsLink, Op.Ok, Op.effect, h.alive, h.started, hnone] using hlive
  · cases o <;> simp [destroyCentral, destroyGsLink, Op.effect, h.alive]
  · simpa [destroyCentral, destroyGsLink, Op.effect] using hnone t

/-- **The program is in order**, however it goes. -/
theorem safe_mainScript (run : CcRun) : Safe Gone (mainScript run) .empty := by
  have hcentral : Safe Gone (makeCentral ++ destroyCentral) .empty :=
    (safe_append _ _).2 (safe_makeCentral.mono fun _ ↦ safe_destroyCentral)
  cases run with
  | noLog => exact ⟨fun _ ↦ rfl, fun _ ↦ rfl⟩
  | noDca =>
    refine (safe_iff _).2 ⟨?_, fun o ↦ ?_, fun _ ↦ rfl⟩
    · simp [mainScript, Op.Ok, Op.effect, World.empty]
    · cases o <;> simp [mainScript, Op.effect, World.empty]
  | noGsLink =>
    refine (safe_iff _).2 ⟨?_, fun o ↦ ?_, fun _ ↦ rfl⟩
    · simp [mainScript, Op.Ok, Op.effect, World.empty]
    · cases o <;> simp [mainScript, Op.effect, World.empty]
  | noLiveLog | usage => exact hcentral
  | connecting outcome choices =>
    have hconnect : Safe (Running (connection 0 outcome)) (makeCentral ++ connect 0 outcome)
        .empty :=
      (safe_append _ _).2 (safe_makeCentral.mono fun _ hw ↦ safe_connect hw 0 outcome)
    rw [mainScript]
    split
    · rename_i hnone
      rw [hnone] at hconnect
      exact (safe_append _ _).2 (hconnect.mono fun _ ↦ safe_destroyCentral)
    · rename_i k hsome
      rw [hsome] at hconnect
      dsimp only
      rw [List.append_assoc, List.append_assoc]
      refine (safe_append _ _).2 (hconnect.mono fun _ hw ↦ ⟨hw.alive .log, ?_⟩)
      refine (safe_append _ _).2 ((safe_runMenu hw 1 choices).mono fun _ hw' ↦ ?_)
      exact (safe_append _ _).2 ((safe_destroyIfAny hw').mono fun _ ↦ safe_destroyCentral)

/-- **No thread touches an object that is gone.** Whatever the operator chooses, and whichever
constructors, commands and reads throw, in any interleaving of `main` with the server's thread and
the receiving threads: whoever touches an object finds it there, and nothing is destroyed that
somebody may still touch. When `main` has returned, every object is destroyed and every thread is
joined. -/
theorem main_lifetimes (run : CcRun) {s : State CcObject CcThread}
    (h : Reaches step (fun _ _ ↦ True) (start (mainScript run)) s) :
    Sound s ∧ (s.rest = [] → Gone s.world) :=
  sound_of_reaches (safe_mainScript run) h

/-- Connected, and switched to another transport. -/
def switchRun : CcRun :=
  .connecting .connected [.switchTransport .connected]

/-- While the old connection is taken down, a last frame is handed to its `ManagementCommand`. -/
theorem main_lifetimes_switch :
    ∃ s s' : State CcObject CcThread, s.world.stopped (.rx 0) = true ∧
      step s (.touch (.rx 0) (.mgmt 0)) = some s' ∧ s.world.alive (.mgmt 0) = true := by
  have hrun : (exec (guarded step fun _ _ ↦ True) (start (mainScript switchRun))
      (List.replicate 23 .main)).map (fun s ↦
        (s.world.stopped (.rx 0), (step s (.touch (.rx 0) (.mgmt 0))).isSome)) =
      some (true, true) := by decide +kernel
  obtain ⟨s, hexec, hfound⟩ := Option.map_eq_some_iff.1 hrun
  obtain ⟨hstopped, htouch⟩ := Prod.mk.inj hfound
  obtain ⟨s', htouch⟩ := Option.isSome_iff_exists.1 htouch
  exact ⟨s, s', hstopped, htouch,
    (main_lifetimes switchRun (reaches_of_exec hexec)).1.threads _ _ _ htouch⟩

/-- With `mgmt` destroyed first, a frame would be handed to what is gone. -/
example : ((exec step (start (makeCentral ++ connect 0 .connected ++ [.destroy (.mgmt 0)]))
    (List.replicate 20 .main)).map fun s ↦
      ((step s (.touch (.rx 0) (.mgmt 0))).isSome, s.world.alive (.mgmt 0))) =
    some (true, false) := by decide +kernel

end SubmarineMonitor

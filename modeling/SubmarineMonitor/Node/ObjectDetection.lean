import Mathlib.Data.Option.Basic
import SubmarineMonitor.Foundation.Machine

/-!
# Object detection

Presence by recency: a confirmed burst of infrared edges makes the object present and starts the
ten-second countdown again, and the countdown's timeout makes it absent. Both happen in interrupt
context and only set thread flags; `objdet_task` takes all pending flags at once and acts on them
later, first on the burst and then on the timeout.

`outcome` is the value `present` comes to have if no further interrupt occurs. The task's steps
leave it alone, a timeout makes it false, and a burst makes it true under exactly one condition,
`Undisturbed`: that is why `present_iff_burst` holds of the runs that meet the condition at every
burst, and why a burst that does not meet it is lost, `burst_settles`.

## Interrupts, flags and the task

Three things can move: an edge, the timeout of TIM5, and the task. An interrupt is one step, as no
task runs inside it; the task takes its flags in one step and acts on each of them in another, so an
interrupt may come in between. `osThreadFlagsWait` takes all flags that are pending, and the code
looks at the burst first: with both pending, an object appears and disappears in one turn.

## What an outcome is

`outcome` is defined on every state, by running the task in thought until nothing is pending. A step
of the task leaves it alone, which is what makes it a good measure: to know what the module
believes, one looks at what the interrupts have made of it, and the interleaving drops out.

## What is left out

The countdown itself: TIM5 is reset by a burst, and its timeout may come at any time, also directly
behind a reset, so the statements hold whatever the ten seconds are. The events that the task
reports are recorded as a list of calls; what they do is `Node.Event`. How a burst is recognised
among edges is `Node.EdgeFilter`.
-/

open Machine

namespace SubmarineMonitor

/-! ### The module -/

/-- `BURST_WINDOW_MS`. -/
def burstWindowMs : UInt32 := 60

/-- `BURST_THRESHOLD`. -/
def burstThreshold : UInt32 := 80

/-- `MIN_EDGE_SPACING_US`. -/
def minEdgeSpacingUs : UInt32 := 300

/-- `struct ObjectDetection`, less the task handle. -/
structure ObjectDetection where
  present : Bool
  /-- TIM2 timestamp of the last accepted edge. -/
  lastEdgeUs : UInt32
  /-- `HAL_GetTick()` of the current candidate burst's first edge. -/
  burstFirstEdgeTick : UInt32
  /-- Edges seen so far in that candidate burst. -/
  burstEdgeCount : UInt32
  deriving DecidableEq

/-- The state `objdet_create` leaves. -/
def objdetCreate : ObjectDetection :=
  ⟨false, 0, 0, 0⟩

/-- What a call of `objdet_on_edge` does besides writing `g_objdet`. -/
structure EdgeEffect where
  /-- TIM5's counter is set to zero. -/
  resetTim5 : Bool
  /-- `OBJDET_FLAG_EDGE` is set. -/
  setEdge : Bool
  deriving DecidableEq

/-- `objdet_on_edge` with TIM2 at `nowUs` and the tick at `nowTick`. -/
def objdetOnEdge (o : ObjectDetection) (nowUs nowTick : UInt32) : ObjectDetection × EdgeEffect :=
  -- TIM2 was zeroed or has wrapped: a new baseline, and nothing else
  if nowUs < o.lastEdgeUs then ({ o with lastEdgeUs := nowUs }, ⟨false, false⟩)
  else if nowUs - o.lastEdgeUs < minEdgeSpacingUs then (o, ⟨false, false⟩)
  else
    let o := { o with lastEdgeUs := nowUs }
    let o :=
      if nowTick - o.burstFirstEdgeTick > burstWindowMs then
        { o with burstFirstEdgeTick := nowTick, burstEdgeCount := 1 }
      else { o with burstEdgeCount := o.burstEdgeCount + 1 }
    if o.burstEdgeCount < burstThreshold then (o, ⟨false, false⟩)
    else (o, ⟨true, !o.present⟩)

/-- A set of thread flags: `OBJDET_FLAG_EDGE` and `OBJDET_FLAG_TIMEOUT`. -/
structure ObjdetFlags where
  edge : Bool
  timeout : Bool
  deriving DecidableEq

/-- Where `objdet_task` stands. -/
inductive ObjdetPc
  /-- In `osThreadFlagsWait`. -/
  | wait
  /-- Before the first `if`, with the local `flags`. -/
  | onEdge (flags : ObjdetFlags)
  /-- Before the second. -/
  | onTimeout (flags : ObjdetFlags)
  deriving DecidableEq

/-- A call into Event. -/
inductive ObjectEvent
  | objectDetected
  | objectCleared
  deriving DecidableEq

/-- The two interrupts that presence is about. -/
inductive ObjdetInterrupt
  /-- A call of `objdet_on_edge` that resets TIM5. -/
  | burst
  /-- A call of `objdet_on_timeout`. -/
  | timeout
  deriving DecidableEq

/-- The module, its pending flags and its task. -/
structure Objdet where
  o : ObjectDetection
  flags : ObjdetFlags
  pc : ObjdetPc
  /-- The calls made to Event. -/
  events : List ObjectEvent
  /-- The most recent interrupt, which no step of the code looks at. -/
  recent : Option ObjdetInterrupt
  deriving DecidableEq

/-- After `objdet_create`. -/
def objdetStart : Objdet :=
  ⟨objdetCreate, ⟨false, false⟩, .wait, [], none⟩

/-- Who moves next. -/
inductive ObjdetAction
  | edge (nowUs nowTick : UInt32)
  | timeout
  | task

/-- The next step of `objdet_task`. -/
def objdetTaskStep (s : Objdet) : Option Objdet :=
  match s.pc with
  | .wait =>
    if s.flags.edge || s.flags.timeout then
      some { s with flags := ⟨false, false⟩, pc := .onEdge s.flags }
    else none
  | .onEdge flags =>
    if flags.edge && !s.o.present then
      some { s with
        o := { s.o with present := true }, events := s.events ++ [.objectDetected],
        pc := .onTimeout flags }
    else some { s with pc := .onTimeout flags }
  | .onTimeout flags =>
    if flags.timeout && s.o.present then
      some { s with
        o := { s.o with present := false }, events := s.events ++ [.objectCleared], pc := .wait }
    else some { s with pc := .wait }

/-- **The module** under any interleaving of interrupts and task. -/
def objdetStep (s : Objdet) : ObjdetAction → Option Objdet
  | .edge nowUs nowTick =>
    let (o, effect) := objdetOnEdge s.o nowUs nowTick
    some { s with
      o := o
      flags := { s.flags with edge := s.flags.edge || effect.setEdge }
      recent := if effect.resetTim5 then some .burst else s.recent }
  | .timeout =>
    some { s with flags := { s.flags with timeout := true }, recent := some .timeout }
  | .task => objdetTaskStep s

/-! ### What an edge can do -/

/-- **What a call of `objdet_on_edge` can do**: it leaves `present` alone, and sets the flag exactly
when it confirms a burst while the object is absent. -/
theorem objdetOnEdge_cases (o : ObjectDetection) (nowUs nowTick : UInt32) :
    (objdetOnEdge o nowUs nowTick).1.present = o.present ∧
      (objdetOnEdge o nowUs nowTick).2.setEdge =
        ((objdetOnEdge o nowUs nowTick).2.resetTim5 && !o.present) := by
  simp only [objdetOnEdge]
  split_ifs <;> simp

theorem objdetStep_edge (s : Objdet) (nowUs nowTick : UInt32) :
    objdetStep s (.edge nowUs nowTick) = some { s with
      o := (objdetOnEdge s.o nowUs nowTick).1
      flags := { s.flags with
        edge := s.flags.edge || (objdetOnEdge s.o nowUs nowTick).2.setEdge }
      recent := if (objdetOnEdge s.o nowUs nowTick).2.resetTim5 then some .burst else s.recent } :=
  rfl

/-! ### What the task will make of it -/

namespace Objdet

/-- `present` after the task has finished with the flags it holds. -/
def afterTurn (s : Objdet) : Bool :=
  match s.pc with
  | .wait => s.o.present
  | .onEdge flags => if flags.timeout then false else flags.edge || s.o.present
  | .onTimeout flags => if flags.timeout then false else s.o.present

/-- `present` after the task has dealt with everything, if no further interrupt occurs. -/
def outcome (s : Objdet) : Bool :=
  if s.flags.timeout then false else s.flags.edge || s.afterTurn

/-- No flag is pending and the task is back waiting. -/
def Settled (s : Objdet) : Prop :=
  s.flags = ⟨false, false⟩ ∧ s.pc = .wait

instance (s : Objdet) : Decidable s.Settled :=
  inferInstanceAs (Decidable (_ ∧ _))

/-- The task has taken a timeout it has not acted on yet. -/
def holdsTimeout (s : Objdet) : Bool :=
  match s.pc with
  | .wait => false
  | .onEdge flags => flags.timeout
  | .onTimeout flags => flags.timeout

/-- A burst would be noticed: no timeout is pending; and if the object is present and no burst is
pending, the task holds no timeout either. -/
def Undisturbed (s : Objdet) : Prop :=
  s.flags.timeout = false ∧
    (s.o.present = true → s.flags.edge = false → s.holdsTimeout = false)

instance (s : Objdet) : Decidable s.Undisturbed :=
  inferInstanceAs (Decidable (_ ∧ (_ → _ → _)))

variable {s s' : Objdet} {nowUs nowTick : UInt32}

theorem outcome_of_settled (h : s.Settled) : s.outcome = s.o.present := by
  obtain ⟨hflags, hpc⟩ := h
  simp [outcome, afterTurn, hflags, hpc]

/-- The task's own steps decide nothing. -/
theorem outcome_task (h : objdetStep s .task = some s') : s'.outcome = s.outcome := by
  obtain ⟨o, flags, pc, events, recent⟩ := s
  replace h : objdetTaskStep ⟨o, flags, pc, events, recent⟩ = some s' := h
  rw [objdetTaskStep] at h
  cases pc with
  | wait =>
    -- the flags move from pending to taken
    dsimp only at h
    split at h
    · obtain rfl := Option.some.inj h
      rfl
    · cases h
  | onEdge taken =>
    dsimp only at h
    split at h
    all_goals
      rename_i hif
      obtain rfl := Option.some.inj h
      obtain ⟨edge, timeout⟩ := taken
      obtain ⟨present, _, _, _⟩ := o
      revert hif
      cases edge <;> cases present <;> simp [outcome, afterTurn]
  | onTimeout taken =>
    dsimp only at h
    split at h
    all_goals
      rename_i hif
      obtain rfl := Option.some.inj h
      obtain ⟨edge, timeout⟩ := taken
      obtain ⟨present, _, _, _⟩ := o
      revert hif
      cases timeout <;> cases present <;> simp [outcome, afterTurn]

theorem outcome_timeout (h : objdetStep s .timeout = some s') : s'.outcome = false := by
  obtain rfl := Option.some.inj h
  rfl

/-- An edge that confirms no burst changes nothing that matters here. -/
theorem outcome_edge (hreset : (objdetOnEdge s.o nowUs nowTick).2.resetTim5 = false)
    (h : objdetStep s (.edge nowUs nowTick) = some s') :
    s'.outcome = s.outcome ∧ s'.recent = s.recent := by
  obtain ⟨hpresent, hset⟩ := objdetOnEdge_cases s.o nowUs nowTick
  rw [objdetStep_edge] at h
  obtain rfl := Option.some.inj h
  rw [hreset, Bool.false_and] at hset
  simp [outcome, afterTurn, hpresent, hset, hreset]

/-- **A burst takes effect exactly when it is undisturbed.** -/
theorem outcome_burst (hreset : (objdetOnEdge s.o nowUs nowTick).2.resetTim5 = true)
    (h : objdetStep s (.edge nowUs nowTick) = some s') :
    (s'.outcome = true ↔ s.Undisturbed) ∧ s'.recent = some .burst := by
  obtain ⟨hpresent, hset⟩ := objdetOnEdge_cases s.o nowUs nowTick
  rw [objdetStep_edge] at h
  obtain rfl := Option.some.inj h
  rw [hreset, Bool.true_and] at hset
  refine ⟨?_, by simp [hreset]⟩
  simp only [outcome, afterTurn, Undisturbed, holdsTimeout, hpresent, hset]
  -- what is pending, against where the task stands
  obtain ⟨⟨present, _, _, _⟩, ⟨edge, timeout⟩, pc, events, recent⟩ := s
  cases pc <;> cases present <;> cases edge <;> cases timeout <;> simp

/-! ### Presence and the last interrupt -/

/-- The task's steps are not interrupts. -/
theorem recent_task (h : objdetStep s .task = some s') : s'.recent = s.recent := by
  replace h : objdetTaskStep s = some s' := h
  rw [objdetTaskStep] at h
  split at h
  · split at h
    · obtain rfl := Option.some.inj h
      rfl
    · cases h
  · split at h <;> (obtain rfl := Option.some.inj h; rfl)
  · split at h <;> (obtain rfl := Option.some.inj h; rfl)

/-- A burst that is confirmed is undisturbed. -/
def BurstUndisturbed (s : Objdet) : ObjdetAction → Prop
  | .edge nowUs nowTick =>
    (objdetOnEdge s.o nowUs nowTick).2.resetTim5 = true → s.Undisturbed
  | .timeout => True
  | .task => True

instance (s : Objdet) (a : ObjdetAction) : Decidable (s.BurstUndisturbed a) :=
  match a with
  | .edge _ _ => inferInstanceAs (Decidable (_ → _))
  | .timeout => inferInstanceAs (Decidable True)
  | .task => inferInstanceAs (Decidable True)

/-- What is going to be agrees with the last interrupt. -/
theorem outcome_step {a : ObjdetAction} (h : s.outcome = true ↔ s.recent = some .burst)
    (hok : s.BurstUndisturbed a) (hstep : objdetStep s a = some s') :
    s'.outcome = true ↔ s'.recent = some .burst := by
  cases a with
  | edge nowUs nowTick =>
    rcases hreset : (objdetOnEdge s.o nowUs nowTick).2.resetTim5 with _ | _
    · obtain ⟨houtcome, hrecent⟩ := outcome_edge hreset hstep
      rw [houtcome, hrecent, h]
    · obtain ⟨houtcome, hrecent⟩ := outcome_burst hreset hstep
      exact ⟨fun _ ↦ hrecent, fun _ ↦ houtcome.2 (hok hreset)⟩
  | timeout =>
    have houtcome := outcome_timeout hstep
    obtain rfl := Option.some.inj hstep
    rw [houtcome]
    exact ⟨(nomatch ·), (nomatch ·)⟩
  | task => rw [outcome_task hstep, recent_task hstep, h]

/-- **Presence by recency**, in every run in which every confirmed burst is undisturbed: whenever no
flag is pending and the task is back waiting, the object is present exactly if the most recent
interrupt was a confirmed burst. -/
theorem present_iff_burst (h : Reaches objdetStep BurstUndisturbed objdetStart s)
    (hs : s.Settled) : s.o.present = true ↔ s.recent = some .burst := by
  have houtcome : s.outcome = true ↔ s.recent = some .burst :=
    h.invariant ⟨(nomatch ·), (nomatch ·)⟩ outcome_step
  rw [← outcome_of_settled hs, houtcome]

/-- Eighty edges, 300 microseconds apart, from a time in microseconds and in ticks. -/
def burstFrom (us tick : UInt32) : List ObjdetAction :=
  (List.range 80).map fun k ↦
    .edge (us + 300 * (k + 1).toUInt32) (tick + ((k + 1) * 3 / 10).toUInt32)

/-- A burst, and one turn of the task: the object is present. -/
theorem present_iff_burst_first :
    ∃ s, Reaches objdetStep BurstUndisturbed objdetStart s ∧ s.Settled ∧
      s.recent = some .burst ∧ s.o.present = true := by
  have hrun : ((exec (guarded objdetStep BurstUndisturbed) objdetStart
      (burstFrom 0 0 ++ [.task, .task, .task])).map fun s ↦
        decide (s.Settled ∧ s.recent = some .burst)) = some true := by
    decide +kernel
  obtain ⟨s, hexec, hs⟩ := Option.map_eq_some_iff.1 hrun
  obtain ⟨hsettled, hrecent⟩ := of_decide_eq_true hs
  have hreaches := reaches_of_exec hexec
  exact ⟨s, hreaches, hsettled, hrecent, (present_iff_burst hreaches hsettled).2 hrecent⟩

/-- **A burst right after the countdown ran out is lost.** The object is present and the timeout's
flag is set; before the task runs, a second burst is confirmed, which sets no flag because the
object is still present. The task then clears it, and it stays absent though the burst came last. -/
theorem present_missed :
    ∃ s, exec objdetStep objdetStart (burstFrom 0 0 ++ [.task, .task, .task, .timeout] ++
        burstFrom 10024000 10024 ++ [.task, .task, .task]) = some s ∧
      s.Settled ∧ s.recent = some .burst ∧ s.o.present = false := by
  have hrun : ((exec objdetStep objdetStart (burstFrom 0 0 ++ [.task, .task, .task, .timeout] ++
      burstFrom 10024000 10024 ++ [.task, .task, .task])).map fun s ↦
        decide (s.Settled ∧ s.recent = some .burst ∧ s.o.present = false)) = some true := by
    decide +kernel
  obtain ⟨s, hexec, hs⟩ := Option.map_eq_some_iff.1 hrun
  exact ⟨s, hexec, of_decide_eq_true hs⟩

/-- Only the task moves. -/
def TaskOnly : ObjdetAction → Prop
  | .task => True
  | _ => False

/-- **A disturbed burst is lost**: if nothing but the task moves after a confirmed burst, it settles
with the object present exactly if the burst was undisturbed. -/
theorem burst_settles {t : Objdet} (hreset : (objdetOnEdge s.o nowUs nowTick).2.resetTim5 = true)
    (hburst : objdetStep s (.edge nowUs nowTick) = some s')
    (h : Reaches objdetStep (fun _ a ↦ TaskOnly a) s' t) (ht : t.Settled) :
    t.recent = some .burst ∧ (t.o.present = true ↔ s.Undisturbed) := by
  obtain ⟨houtcome, hrecent⟩ := outcome_burst hreset hburst
  have hkept : t.outcome = s'.outcome ∧ t.recent = s'.recent := by
    refine h.invariant (I := fun t ↦ t.outcome = s'.outcome ∧ t.recent = s'.recent) ⟨rfl, rfl⟩ ?_
    rintro u u' (_ | _ | _) ⟨hu, hu'⟩ honly hstep
    · exact honly.elim
    · exact honly.elim
    · exact ⟨(outcome_task hstep).trans hu, (recent_task hstep).trans hu'⟩
  refine ⟨hkept.2.trans hrecent, ?_⟩
  rw [← outcome_of_settled ht, hkept.1, houtcome]

end Objdet

end SubmarineMonitor

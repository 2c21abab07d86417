import SubmarineMonitor.Foundation.Mutex
import SubmarineMonitor.Node.Config

/-!
# The limits, read and written by several tasks

`comm_rx_task` stores the limits of a `SET_*` frame one field at a time while `monitor_task` copies
the whole structure, byte after byte. Each of them holds `g_config.lock` meanwhile. Here every store
and every byte of a copy is a step of its own.

`config_snapshot` says what the lock gives: whatever the interleaving, a copy of the limits is the
limits after a whole number of frames, those whose handling released the lock before the copy did,
and never a mix of old and new fields; and the frames do what `configuration_on_frame` does to them
one after another.

## The grain of the steps

C promises nothing about a copy of a structure or about the order in which other tasks see two
stores, so a step is as small as it can be: the store of one field, or one byte of a copy. The save
to flash is a single step, since nobody else touches the page. The lock comes from
`Foundation.Mutex`, which knows nothing of a configuration; what is shown here is that each
function, run by itself, does in one piece what `Node.Config` says (`configEffect_of_completes`),
and that is all the library needs to put the pieces in a row.

## What is left out

The order in which waiting tasks get the lock, and the priorities: any order is allowed, which
includes that of the scheduler. Nothing is said about how long a reader waits (that it is not for
ever is `Node.LockUse`). The event that a commit reports, a line on the card written under the same
lock, is recorded as a call.
-/

open Machine Mutex

namespace SubmarineMonitor

/-! ### Reading and writing -/

/-- A function that works under `g_config.lock`. -/
inductive ConfigOp
  /-- `config_get_limits`. -/
  | getLimits
  /-- `configuration_on_frame`, on a frame that is not NULL. -/
  | onFrame (f : TlvFrame)

/-- What it makes known. -/
inductive ConfigResult
  | limits (copy : ConfigLimits)
  /-- What it called besides the flash. -/
  | calls (calls : List ConfigCall)

/-- Where it stands, between `osMutexAcquire` and `osMutexRelease`. -/
inductive ConfigPc
  /-- In `copy = g_config.limits`. -/
  | copy (copied : List UInt8)
  /-- Before the `switch`. -/
  | dispatch (f : TlvFrame)
  /-- Before the store of the upper end of a range. -/
  | setMax (set : ConfigLimits → ConfigLimits) (description : String)
  /-- Before the `config_flash_save` of `commit`. -/
  | save (description : String)
  /-- Before the `event_config_changed` of `commit`. -/
  | report (description : String)
  /-- Filling in the reply to `TLV_TAG_GET_CONFIG`. -/
  | reply (copied : List UInt8)

/-- How the flash answers a save. -/
structure FlashAnswer where
  eraseOk : Bool
  programs : ℕ

/-- The limits with these bytes in memory. -/
def ConfigLimits.ofBytes (bytes : List UInt8) : ConfigLimits :=
  .read (fun i ↦ bytes.getD i 0) 0

/-- The first step of a `SET_TEMP_*` case: the store of the lower end. -/
def storeMin (c : Config) (f : TlvFrame) (setMin setMax : ConfigLimits → Int16 → ConfigLimits)
    (description : String) : (ConfigPc ⊕ ConfigResult) × Config :=
  match f.value with
  | some (min :: max :: _) =>
    if f.len = 2 then
      (.inl (.setMax (fun l ↦ setMax l max.toInt8.toInt16) description),
        { c with limits := setMin c.limits min.toInt8.toInt16 })
    else (.inr (.calls []), c)
  | _ => (.inr (.calls []), c)

/-- The store of a `SET_*` case with a lower bound. -/
def storeBound (c : Config) (f : TlvFrame) (set : ConfigLimits → UInt8 → ConfigLimits)
    (description : String) : (ConfigPc ⊕ ConfigResult) × Config :=
  match f.value with
  | some (min :: _) =>
    if f.len = 1 then (.inl (.save description), { c with limits := set c.limits min })
    else (.inr (.calls []), c)
  | _ => (.inr (.calls []), c)

/-- The `switch` of `configuration_on_frame`, up to the first store. -/
def configDispatch (c : Config) (f : TlvFrame) : (ConfigPc ⊕ ConfigResult) × Config :=
  if f.tag = tlvTagSetTempNormal then
    storeMin c f (fun l min ↦ { l with tempNormalMin := min })
      (fun l max ↦ { l with tempNormalMax := max }) "temp normal range"
  else if f.tag = tlvTagSetTempWarning then
    storeMin c f (fun l min ↦ { l with tempWarningMin := min })
      (fun l max ↦ { l with tempWarningMax := max }) "temp warning range"
  else if f.tag = tlvTagSetHumNormal then
    storeBound c f (fun l min ↦ { l with humidityNormalMin := min }) "humidity normal bound"
  else if f.tag = tlvTagSetHumWarning then
    storeBound c f (fun l min ↦ { l with humidityWarningMin := min }) "humidity warning bound"
  else if f.tag = tlvTagSetLightNormal then
    storeBound c f (fun l min ↦ { l with lightNormalMin := min }) "light normal bound"
  else if f.tag = tlvTagSetLightWarning then
    storeBound c f (fun l min ↦ { l with lightWarningMin := min }) "light warning bound"
  else if f.tag = tlvTagSetBattNormal then
    storeBound c f (fun l min ↦ { l with batteryNormalMin := min }) "battery normal bound"
  else if f.tag = tlvTagSetBattWarning then
    storeBound c f (fun l min ↦ { l with batteryWarningMin := min }) "battery warning bound"
  else if f.tag = tlvTagGetConfig then (.inl (.reply []), c)
  else (.inr (.calls []), c)

/-- The next step under the lock. -/
def configBody (pc : ConfigPc) (c : Config) (answer : FlashAnswer) :
    (ConfigPc ⊕ ConfigResult) × Config :=
  match pc with
  | .copy copied =>
    match c.limits.bytes[copied.length]? with
    | some byte => (.inl (.copy (copied ++ [byte])), c)
    | none => (.inr (.limits (.ofBytes copied)), c)
  | .dispatch f => configDispatch c f
  | .setMax set description => (.inl (.save description), { c with limits := set c.limits })
  | .save description =>
    (.inl (.report description),
      { c with page := (configFlashSave c.page answer.eraseOk answer.programs c.limits).1 })
  | .report description => (.inr (.calls [.eventConfigChanged description]), c)
  | .reply copied =>
    match c.limits.bytes[copied.length]? with
    | some byte => (.inl (.reply (copied ++ [byte])), c)
    | none => (.inr (.calls [.commSend ⟨false, tlvTagConfigReply, some copied, 14⟩]), c)

/-- Where a function begins. -/
def ConfigOp.start : ConfigOp → ConfigPc
  | .getLimits => .copy []
  | .onFrame f => .dispatch f

/-! ### A function by itself -/

/-- What it does as one step. -/
def ConfigEffect : Effect Config ConfigOp ConfigResult := fun op c c' r ↦
  match op with
  | .getLimits => c' = c ∧ r = .limits c.limits
  | .onFrame f => ∃ eraseOk programs calls,
      configurationOnFrame c (some f) eraseOk programs = (c', calls) ∧ r = .calls calls

theorem ofBytes_bytes (l : ConfigLimits) : ConfigLimits.ofBytes l.bytes = l := by
  obtain ⟨_, _, _, _, _, _, _, _, _, _⟩ := l
  simp only [ConfigLimits.ofBytes, ConfigLimits.read, ConfigLimits.mk.injEq]
  exact ⟨int16OfBytes_int16Bytes _, int16OfBytes_int16Bytes _, int16OfBytes_int16Bytes _,
    int16OfBytes_int16Bytes _, rfl, rfl, rfl, rfl, rfl, rfl⟩

/-- What the first step of a handler says about the whole of it. -/
def FirstStep (c : Config) (f : TlvFrame) (r : (ConfigPc ⊕ ConfigResult) × Config) : Prop :=
  (r = (.inr (.calls []), c) ∧ ∀ eraseOk programs,
      configurationOnFrame c (some f) eraseOk programs = (c, [])) ∨
    (r = (.inl (.reply []), c) ∧ f.tag = tlvTagGetConfig) ∨
    (∃ set description limits, r = (.inl (.setMax set description), { c with limits := limits }) ∧
      ∀ eraseOk programs, configurationOnFrame c (some f) eraseOk programs =
        commit { c with limits := set limits } eraseOk programs description) ∨
    ∃ description limits, r = (.inl (.save description), { c with limits := limits }) ∧
      ∀ eraseOk programs, configurationOnFrame c (some f) eraseOk programs =
        commit { c with limits := limits } eraseOk programs description

variable {c c' t t' : Config} {f : TlvFrame} {op : ConfigOp} {j j' : ConfigPc} {r : ConfigResult}
  {answer : FlashAnswer} {copied : List UInt8}

theorem firstStep_storeMin {setMin setMax : ConfigLimits → Int16 → ConfigLimits}
    {description : String} (h : ∀ eraseOk programs,
      configurationOnFrame c (some f) eraseOk programs = setTempRange c f eraseOk programs
        (fun l min max ↦ setMax (setMin l min) max) description) :
    FirstStep c f (storeMin c f setMin setMax description) := by
  simp only [setTempRange] at h
  rw [storeMin]
  split
  · rename_i min max rest hvalue
    simp only [hvalue] at h
    split
    · rename_i hlen
      simp only [hlen, if_true] at h
      exact .inr (.inr (.inl ⟨_, _, _, rfl, h⟩))
    · rename_i hlen
      simp only [hlen, if_false] at h
      exact .inl ⟨rfl, h⟩
  · rename_i hvalue
    refine .inl ⟨rfl, fun eraseOk programs ↦ ?_⟩
    rw [h]
    split
    · rename_i heq
      exact absurd heq (hvalue _ _ _)
    · rfl

theorem firstStep_storeBound {set : ConfigLimits → UInt8 → ConfigLimits} {description : String}
    (h : ∀ eraseOk programs, configurationOnFrame c (some f) eraseOk programs =
      setBound c f eraseOk programs set description) :
    FirstStep c f (storeBound c f set description) := by
  simp only [setBound] at h
  rw [storeBound]
  split
  · rename_i min rest hvalue
    simp only [hvalue] at h
    split
    · rename_i hlen
      simp only [hlen, if_true] at h
      exact .inr (.inr (.inr ⟨_, _, rfl, h⟩))
    · rename_i hlen
      simp only [hlen, if_false] at h
      exact .inl ⟨rfl, h⟩
  · rename_i hvalue
    refine .inl ⟨rfl, fun eraseOk programs ↦ ?_⟩
    rw [h]
    split
    · rename_i heq
      exact absurd heq (hvalue _ _)
    · rfl

/-- The handler and its steps take the same branch. -/
theorem firstStep_configDispatch (c : Config) (f : TlvFrame) :
    FirstStep c f (configDispatch c f) := by
  obtain ⟨tag, len, value⟩ := f
  rw [configDispatch]
  refine iteInduction (fun htag ↦ ?_) fun h₁ ↦ ?_
  · obtain rfl : tag = _ := htag
    exact firstStep_storeMin fun _ _ ↦ rfl
  refine iteInduction (fun htag ↦ ?_) fun h₂ ↦ ?_
  · obtain rfl : tag = _ := htag
    exact firstStep_storeMin fun _ _ ↦ rfl
  refine iteInduction (fun htag ↦ ?_) fun h₃ ↦ ?_
  · obtain rfl : tag = _ := htag
    exact firstStep_storeBound fun _ _ ↦ rfl
  refine iteInduction (fun htag ↦ ?_) fun h₄ ↦ ?_
  · obtain rfl : tag = _ := htag
    exact firstStep_storeBound fun _ _ ↦ rfl
  refine iteInduction (fun htag ↦ ?_) fun h₅ ↦ ?_
  · obtain rfl : tag = _ := htag
    exact firstStep_storeBound fun _ _ ↦ rfl
  refine iteInduction (fun htag ↦ ?_) fun h₆ ↦ ?_
  · obtain rfl : tag = _ := htag
    exact firstStep_storeBound fun _ _ ↦ rfl
  refine iteInduction (fun htag ↦ ?_) fun h₇ ↦ ?_
  · obtain rfl : tag = _ := htag
    exact firstStep_storeBound fun _ _ ↦ rfl
  refine iteInduction (fun htag ↦ ?_) fun h₈ ↦ ?_
  · obtain rfl : tag = _ := htag
    exact firstStep_storeBound fun _ _ ↦ rfl
  refine iteInduction (fun htag ↦ ?_) fun h₉ ↦ ?_
  · exact .inr (.inl ⟨rfl, htag⟩)
  · refine .inl ⟨rfl, fun eraseOk programs ↦ ?_⟩
    rw [configurationOnFrame, if_neg h₁, if_neg h₂, if_neg h₃, if_neg h₄, if_neg h₅, if_neg h₆,
      if_neg h₇, if_neg h₈, if_neg h₉]

/-- Where a function has got to that began at `c`. -/
inductive ConfigProgress (op : ConfigOp) (c : Config) : Config → ConfigPc → Prop
  | copy {copied : List UInt8} (hop : op = .getLimits) (hcopied : copied <+: c.limits.bytes) :
      ConfigProgress op c c (.copy copied)
  | dispatch {f : TlvFrame} (hop : op = .onFrame f) : ConfigProgress op c c (.dispatch f)
  | reply {f : TlvFrame} {copied : List UInt8} (hop : op = .onFrame f)
      (htag : f.tag = tlvTagGetConfig) (hcopied : copied <+: c.limits.bytes) :
      ConfigProgress op c c (.reply copied)
  | setMax {f : TlvFrame} {limits : ConfigLimits} {set : ConfigLimits → ConfigLimits}
      {description : String} (hop : op = .onFrame f)
      (h : ∀ eraseOk programs, configurationOnFrame c (some f) eraseOk programs =
        commit { c with limits := set limits } eraseOk programs description) :
      ConfigProgress op c { c with limits := limits } (.setMax set description)
  | save {f : TlvFrame} {limits : ConfigLimits} {description : String} (hop : op = .onFrame f)
      (h : ∀ eraseOk programs, configurationOnFrame c (some f) eraseOk programs =
        commit { c with limits := limits } eraseOk programs description) :
      ConfigProgress op c { c with limits := limits } (.save description)
  | report {f : TlvFrame} {t : Config} {eraseOk : Bool} {programs : ℕ} {description : String}
      (hop : op = .onFrame f)
      (h : configurationOnFrame c (some f) eraseOk programs =
        (t, [.eventConfigChanged description])) :
      ConfigProgress op c t (.report description)

/-- One byte more of a copy, or all of it. -/
theorem copied_step {bytes : List UInt8} (h : copied <+: bytes) :
    (∃ byte, bytes[copied.length]? = some byte ∧ copied ++ [byte] <+: bytes) ∨
      bytes[copied.length]? = none ∧ copied = bytes := by
  obtain ⟨rest, rfl⟩ := h
  rw [List.getElem?_append_right le_rfl, Nat.sub_self]
  obtain _ | ⟨byte, rest⟩ := rest
  · exact .inr ⟨rfl, (List.append_nil _).symm⟩
  · exact .inl ⟨byte, rfl, rest, by rw [List.append_assoc, List.singleton_append]⟩

theorem ConfigProgress.step (h : ConfigProgress op c t j)
    (hstep : configBody j t answer = (.inl j', t')) : ConfigProgress op c t' j' := by
  cases h with
  | copy hop hcopied =>
    rw [configBody] at hstep
    rcases copied_step hcopied with ⟨byte, hbyte, hmore⟩ | ⟨hnone, -⟩
    · rw [hbyte] at hstep
      cases hstep
      exact .copy hop hmore
    · rw [hnone] at hstep
      cases hstep
  | reply hop htag hcopied =>
    rw [configBody] at hstep
    rcases copied_step hcopied with ⟨byte, hbyte, hmore⟩ | ⟨hnone, -⟩
    · rw [hbyte] at hstep
      cases hstep
      exact .reply hop htag hmore
    · rw [hnone] at hstep
      cases hstep
  | @dispatch f hop =>
    have hstep' : configDispatch c f = (.inl j', t') := hstep
    rcases firstStep_configDispatch c f with ⟨hr, -⟩ | ⟨hr, htag⟩ |
      ⟨set, description, limits, hr, h⟩ | ⟨description, limits, hr, h⟩
    · rw [hr] at hstep'
      cases hstep'
    · rw [hr] at hstep'
      cases hstep'
      exact .reply hop htag (List.nil_prefix)
    · rw [hr] at hstep'
      cases hstep'
      exact .setMax hop h
    · rw [hr] at hstep'
      cases hstep'
      exact .save hop h
  | setMax hop h =>
    cases hstep
    exact .save hop h
  | save hop h =>
    cases hstep
    exact .report hop (h answer.eraseOk answer.programs)
  | report hop h => cases hstep

/-- **A function by itself** does its effect. -/
theorem configEffect_of_completes (h : Completes configBody ConfigOp.start op c t r) :
    ConfigEffect op c t r := by
  obtain ⟨t', j, answer, hwithin, hlast⟩ := h
  have hprogress : ConfigProgress op c t' j := by
    clear hlast
    induction hwithin with
    | start =>
      cases op with
      | getLimits => exact .copy rfl List.nil_prefix
      | onFrame f => exact .dispatch rfl
    | step answer _ hstep ih => exact ih.step hstep
  cases hprogress with
  | copy hop hcopied =>
    subst hop
    rw [configBody] at hlast
    rcases copied_step hcopied with ⟨byte, hbyte, -⟩ | ⟨hnone, rfl⟩
    · rw [hbyte] at hlast
      cases hlast
    · rw [hnone] at hlast
      cases hlast
      exact ⟨rfl, by rw [ofBytes_bytes]⟩
  | reply hop htag hcopied =>
    subst hop
    rw [configBody] at hlast
    rcases copied_step hcopied with ⟨byte, hbyte, -⟩ | ⟨hnone, rfl⟩
    · rw [hbyte] at hlast
      cases hlast
    · rw [hnone] at hlast
      cases hlast
      exact ⟨true, 0, _, configurationOnFrame_get htag true 0, rfl⟩
  | @dispatch f hop =>
    subst hop
    have hlast' : configDispatch c f = (.inr r, t) := hlast
    rcases firstStep_configDispatch c f with ⟨hr, h⟩ | ⟨hr, -⟩ | ⟨_, _, _, hr, -⟩ | ⟨_, _, hr, -⟩
    all_goals
      rw [hr] at hlast'
      cases hlast'
    exact ⟨true, 0, [], h true 0, rfl⟩
  | setMax hop h => cases hlast
  | save hop h => cases hlast
  | report hop h =>
    subst hop
    cases hlast
    exact ⟨_, _, _, h, rfl⟩

/-! ### All of them -/

/-- What a frame makes of the limits. -/
def limitsOnFrame (l : ConfigLimits) (f : TlvFrame) : ConfigLimits :=
  (configurationOnFrame ⟨l, .erased⟩ (some f) true 0).1.limits

theorem limits_setTempRange (c : Config) (f : TlvFrame) (eraseOk : Bool) (programs : ℕ)
    (set : ConfigLimits → Int16 → Int16 → ConfigLimits) (description : String) :
    (setTempRange c f eraseOk programs set description).1.limits =
      (setTempRange ⟨c.limits, .erased⟩ f true 0 set description).1.limits := by
  rw [setTempRange, setTempRange]
  split
  · split <;> rfl
  · rfl

theorem limits_setBound (c : Config) (f : TlvFrame) (eraseOk : Bool) (programs : ℕ)
    (set : ConfigLimits → UInt8 → ConfigLimits) (description : String) :
    (setBound c f eraseOk programs set description).1.limits =
      (setBound ⟨c.limits, .erased⟩ f true 0 set description).1.limits := by
  rw [setBound, setBound]
  split
  · split <;> rfl
  · rfl

/-- What becomes of the limits does not depend on the flash. -/
theorem limits_configurationOnFrame (c : Config) (f : TlvFrame) (eraseOk : Bool) (programs : ℕ) :
    (configurationOnFrame c (some f) eraseOk programs).1.limits = limitsOnFrame c.limits f := by
  rw [limitsOnFrame, configurationOnFrame, configurationOnFrame]
  split_ifs
  all_goals first
    | exact limits_setTempRange ..
    | exact limits_setBound ..
    | rfl

/-- The frames that have been handled. -/
def handled {ι : Type*} (log : List (Done ι ConfigOp ConfigResult)) : List TlvFrame :=
  log.filterMap fun d ↦
    match d.op with
    | .onFrame f => some f
    | .getLimits => none

/-- Every copy is the limits after the frames handled before it. -/
def CopiesWhole {ι : Type*} (l : ConfigLimits) (log : List (Done ι ConfigOp ConfigResult)) : Prop :=
  ∀ (n : ℕ) (d : Done ι ConfigOp ConfigResult), log[n]? = some d → d.op = .getLimits →
    d.result = .limits ((handled (log.take n)).foldl limitsOnFrame l)

theorem copiesWhole_of_serial {ι : Type*} {log : List (Done ι ConfigOp ConfigResult)}
    (h : Serial ConfigEffect c log c') :
    c'.limits = (handled log).foldl limitsOnFrame c.limits ∧ CopiesWhole c.limits log := by
  induction h with
  | nil => exact ⟨rfl, nofun⟩
  | @snoc log s s' d _ hd ih =>
    obtain ⟨hlimits, hcopies⟩ := ih
    obtain ⟨i, op, r⟩ := d
    constructor
    · cases op with
      | getLimits =>
        obtain ⟨rfl, -⟩ := hd
        rw [hlimits, handled, handled, List.filterMap_append]
        exact congrArg (List.foldl limitsOnFrame c.limits) (List.append_nil _).symm
      | onFrame f =>
        obtain ⟨eraseOk, programs, calls, hcalls, -⟩ := hd
        have hframe := limits_configurationOnFrame s f eraseOk programs
        rw [hcalls] at hframe
        rw [handled, List.filterMap_append, List.foldl_append]
        exact hframe.trans (congrArg (limitsOnFrame · f) hlimits)
    · intro n d' hn hop
      rcases Nat.lt_or_ge n log.length with hlt | hge
      · rw [List.getElem?_append_left hlt] at hn
        rw [List.take_append_of_le_length hlt.le]
        exact hcopies n d' hn hop
      · rw [List.getElem?_append_right hge, List.getElem?_singleton] at hn
        split at hn
        · rename_i hzero
          obtain rfl : n = log.length := by omega
          obtain rfl := Option.some.inj hn
          obtain rfl : op = .getLimits := hop
          obtain ⟨-, rfl⟩ := hd
          rw [List.take_left, ← hlimits]
        · cases hn

/-- **No copy of the limits is torn**, in any interleaving of any number of readers with the
handling of any frames, and however the flash answers: a copy is the limits after the frames handled
before it, each frame as a whole; and whenever the lock is free the limits are those after all
frames handled. -/
theorem config_snapshot {ι : Type*} [DecidableEq ι] {log : List (Done ι ConfigOp ConfigResult)}
    {s : State ι Config ConfigOp ConfigPc ConfigResult}
    (h : Reaches (logged (Mutex.step configBody ConfigOp.start) completed) (fun _ _ ↦ True)
      (idle c, []) (s, log)) :
    CopiesWhole c.limits log ∧
      (s.owner = none → s.shared.limits = (handled log).foldl limitsOnFrame c.limits) := by
  obtain ⟨c', hserial, hc⟩ := serializable h
  obtain ⟨-, hserial'⟩ := hserial.refine (I := fun _ ↦ True) trivial fun _ hd ↦
    ⟨trivial, configEffect_of_completes hd⟩
  obtain ⟨hlimits, hcopies⟩ := copiesWhole_of_serial hserial'
  refine ⟨hcopies, fun hfree ↦ ?_⟩
  rw [hc.free hfree]
  exact hlimits

/-- A range is stored between two copies, and its handler waits for the end of the first. -/
def rangeSchedule : List (Action ℕ ConfigOp FlashAnswer) :=
  let copying := List.replicate 15 (.work 1 ⟨true, 0⟩)
  [.call 1 .getLimits, .acquire 1, .call 0 (.onFrame ⟨tlvTagSetTempNormal, 2, some [5, 9]⟩)] ++
    copying ++ [.release 1, .acquire 0, .call 1 .getLimits] ++
    List.replicate 4 (.work 0 ⟨true, 3⟩) ++ [.release 0, .acquire 1] ++ copying ++ [.release 1]

theorem config_snapshot_range :
    ∃ (s : State ℕ Config ConfigOp ConfigPc ConfigResult)
      (log : List (Done ℕ ConfigOp ConfigResult)),
      s.shared.limits = { defaultLimits with tempNormalMin := 5, tempNormalMax := 9 } ∧
      log.map Done.thread = [1, 0, 1] ∧ CopiesWhole defaultLimits log := by
  have hrun : (exec (guarded (logged (Mutex.step configBody ConfigOp.start) completed)
      fun _ _ ↦ True) (idle ⟨defaultLimits, .erased⟩, []) rangeSchedule).map (fun s ↦
        (s.1.shared.limits, s.2.map Done.thread)) =
      some ({ defaultLimits with tempNormalMin := 5, tempNormalMax := 9 }, [1, 0, 1]) := by
    decide +kernel
  obtain ⟨⟨s, log⟩, hexec, hfound⟩ := Option.map_eq_some_iff.1 hrun
  obtain ⟨hlimits, hlog⟩ := Prod.mk.inj hfound
  exact ⟨s, log, hlimits, hlog, (config_snapshot (reaches_of_exec hexec)).1⟩

end SubmarineMonitor

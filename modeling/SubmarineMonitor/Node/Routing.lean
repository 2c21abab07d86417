import SubmarineMonitor.Node.Config
import SubmarineMonitor.Protocol.Handler

/-!
# Frames on their way to the configuration

`comm_rx_task` feeds the bytes it is given to the receiver and passes each frame to
`comm_route_frame`, which hands it to the module that its tag belongs to. Only
`configuration_on_frame` touches the limits or their flash page, so to the configuration the task is
`feedTo (routeToConfig ..)`.

A frame is taken by what it says (`readsMessage_routeToConfig`); a `SET_*` frame of a wrong length is
not taken at all (`configurationOnFrame_of_len_ne`); and a save whose flash operations succeed leaves
the page holding what is in RAM (`saved_commit`).

## One module touches the limits

Frames of nine tags go to `configuration_on_frame`; the others leave the limits and their page
alone, whatever they do elsewhere. So for a question about the limits the receive side is a fold of
`routeToConfig` over the frames that the receiver finishes, and the library of `Protocol.Handler`
says that the fold depends on what the frames say, not on how the bytes were cut.

The dispatch itself is a function to an enumeration, `commRouteFrame`, so that other questions about
routing (which module gets a frame, in `Node.Receive`; which mutexes are taken, in `Node.LockUse`)
are asked of the same definition.

## What is left out

The weak placeholders: all four modules are linked. How long a handler takes is left open here; that
the bytes which come in meanwhile may be lost is `Node.Receive`. Successful flash operations are an
assumption of `saved_commit` alone.
-/

namespace SubmarineMonitor

/-! ### Routing -/

/-- The modules that frames go to. -/
inductive LncModule
  | configuration
  | init
  | log
  | event
  deriving DecidableEq

/-- `comm_route_frame`, the module whose `*_on_frame` it calls. -/
def commRouteFrame (f : TlvFrame) : Option LncModule :=
  if f.tag = tlvTagSetTempNormal ∨ f.tag = tlvTagSetTempWarning ∨ f.tag = tlvTagSetHumNormal ∨
      f.tag = tlvTagSetHumWarning ∨ f.tag = tlvTagSetLightNormal ∨
      f.tag = tlvTagSetLightWarning ∨ f.tag = tlvTagSetBattNormal ∨
      f.tag = tlvTagSetBattWarning ∨ f.tag = tlvTagGetConfig then some .configuration
  else if f.tag = tlvTagGetTime ∨ f.tag = tlvTagTimeSyncReply then some .init
  else if f.tag = tlvTagQueryData then some .log
  else if f.tag = tlvTagQueryEvents then some .event
  else none

/-- What a routed frame does to the configuration. -/
def routeToConfig (eraseOk : Bool) (programs : ℕ) (c : Config) (f : TlvFrame) : Config :=
  if commRouteFrame f = some .configuration then
    (configurationOnFrame c (some f) eraseOk programs).1
  else c

/-! ### What is read of a frame -/

variable {c : Config} {f : TlvFrame} {eraseOk : Bool} {programs : ℕ}

theorem setTempRange_of_len_ne {set : ConfigLimits → Int16 → Int16 → ConfigLimits}
    {description : String} (h : f.len ≠ 2) :
    setTempRange c f eraseOk programs set description = (c, []) := by
  rw [setTempRange]
  split
  · exact if_neg h
  · rfl

theorem setBound_of_len_ne {set : ConfigLimits → UInt8 → ConfigLimits} {description : String}
    (h : f.len ≠ 1) : setBound c f eraseOk programs set description = (c, []) := by
  rw [setBound]
  split
  · exact if_neg h
  · rfl

theorem setTempRange_frame (c : Config) (f : TlvFrame)
    (set : ConfigLimits → Int16 → Int16 → ConfigLimits) (description : String) :
    setTempRange c f eraseOk programs set description =
      setTempRange c f.message.frame eraseOk programs set description := by
  obtain ⟨tag, len, value⟩ := f
  rcases eq_or_ne len 2 with rfl | hlen
  · rcases value with _ | _ | ⟨min, _ | ⟨max, rest⟩⟩ <;> rfl
  · rw [setTempRange_of_len_ne hlen]
    exact (setTempRange_of_len_ne hlen).symm

theorem setBound_frame (c : Config) (f : TlvFrame) (set : ConfigLimits → UInt8 → ConfigLimits)
    (description : String) :
    setBound c f eraseOk programs set description =
      setBound c f.message.frame eraseOk programs set description := by
  obtain ⟨tag, len, value⟩ := f
  rcases eq_or_ne len 1 with rfl | hlen
  · rcases value with _ | _ | ⟨min, rest⟩ <;> rfl
  · rw [setBound_of_len_ne hlen]
    exact (setBound_of_len_ne hlen).symm

/-- `configuration_on_frame` looks at nothing behind the value. -/
theorem configurationOnFrame_frame (c : Config) (f : TlvFrame) :
    configurationOnFrame c (some f) eraseOk programs =
      configurationOnFrame c (some f.message.frame) eraseOk programs := by
  simp only [configurationOnFrame, ← setTempRange_frame, ← setBound_frame]
  rfl

theorem readsMessage_routeToConfig : ReadsMessage (routeToConfig eraseOk programs) := by
  intro c f
  rw [routeToConfig, configurationOnFrame_frame]
  rfl

/-! ### Frames of a wrong length -/

/-- The length of the payload that goes with a `SET_*` tag. -/
def setPayloadLen (tag : UInt8) : Option UInt8 :=
  if tag = tlvTagSetTempNormal ∨ tag = tlvTagSetTempWarning then some 2
  else if tag = tlvTagSetHumNormal ∨ tag = tlvTagSetHumWarning ∨ tag = tlvTagSetLightNormal ∨
      tag = tlvTagSetLightWarning ∨ tag = tlvTagSetBattNormal ∨ tag = tlvTagSetBattWarning then
    some 1
  else none

/-- **A `SET_*` frame of another length does nothing.** -/
theorem configurationOnFrame_of_len_ne {len : UInt8} (htag : setPayloadLen f.tag = some len)
    (hlen : f.len ≠ len) : configurationOnFrame c (some f) eraseOk programs = (c, []) := by
  have htemp : f.len ≠ 2 →
      f.tag = tlvTagSetTempNormal ∨ f.tag = tlvTagSetTempWarning →
        configurationOnFrame c (some f) eraseOk programs = (c, []) := by
    rintro h (htag | htag)
    all_goals
      simp only [configurationOnFrame, htag, setTempRange_of_len_ne h]
      rfl
  have hbound : f.len ≠ 1 → f.tag = tlvTagSetHumNormal ∨ f.tag = tlvTagSetHumWarning ∨
      f.tag = tlvTagSetLightNormal ∨ f.tag = tlvTagSetLightWarning ∨
      f.tag = tlvTagSetBattNormal ∨ f.tag = tlvTagSetBattWarning →
        configurationOnFrame c (some f) eraseOk programs = (c, []) := by
    rintro h (htag | htag | htag | htag | htag | htag)
    all_goals
      simp only [configurationOnFrame, htag, setBound_of_len_ne h]
      rfl
  rw [setPayloadLen] at htag
  split_ifs at htag with h₁ h₂
  · obtain rfl : 2 = len := Option.some.inj htag
    exact htemp hlen h₁
  · obtain rfl : 1 = len := Option.some.inj htag
    exact hbound hlen h₂

/-! ### RAM and flash -/

/-- Flash holds a valid record, of the limits that are in RAM. -/
structure Config.Saved (c : Config) : Prop where
  magic : [c.page 0, c.page 1, c.page 2, c.page 3] = configMagic
  limits : ConfigLimits.read c.page 4 = c.limits

/-- What is saved is loaded, and loading it does not write. -/
theorem Config.Saved.load (h : c.Saved) (eraseOk : Bool) (programs : ℕ) :
    configFlashLoad c.page eraseOk programs = (c.limits, c.page) := by
  rw [configFlashLoad, if_pos h.magic, h.limits]

/-- **A save that succeeds** leaves the limits in flash. -/
theorem saved_configFlashSave (page : FlashPage) (limits : ConfigLimits) (hprograms : 3 ≤ programs) :
    (Config.mk limits (configFlashSave page true programs limits).1).Saved := by
  have hpage := configFlashSave_apply page programs limits
  rw [Nat.min_eq_left hprograms] at hpage
  generalize (configFlashSave page true programs limits).1 = p at hpage
  refine ⟨?_, ConfigLimits.ext ?_ ?_ ?_ ?_ ?_ ?_ ?_ ?_ ?_ ?_⟩
  · simp only [hpage]
    rfl
  all_goals
    simp [ConfigLimits.read, hpage, configFlashData, configMagic, ConfigLimits.bytes, int16Bytes]

theorem saved_commit (c : Config) (hprograms : 3 ≤ programs) (description : String) :
    (commit c true programs description).1.Saved :=
  saved_configFlashSave c.page c.limits hprograms

/-! ### What a frame does -/

/-- What a frame leaves: everything as it was, or other limits, committed. -/
def LeavesOrCommits (c : Config) (eraseOk : Bool) (programs : ℕ) (r : Config × List ConfigCall) :
    Prop :=
  r.1 = c ∨ ∃ limits description, r = commit { c with limits := limits } eraseOk programs description

/-- **No frame changes the limits without committing them.** -/
theorem leavesOrCommits_configurationOnFrame (c : Config) (f : Option TlvFrame) :
    LeavesOrCommits c eraseOk programs (configurationOnFrame c f eraseOk programs) := by
  rcases configurationOnFrame_cases c f eraseOk programs with
    (hignored | ⟨limits, description, -, hset⟩) | hreply
  · exact .inl (congrArg Prod.fst hignored)
  · exact .inr ⟨limits, description, hset⟩
  · exact .inl (congrArg Prod.fst hreply)

/-- RAM and flash stay in agreement, as long as flash works. -/
theorem Config.Saved.configurationOnFrame (h : c.Saved) (f : Option TlvFrame)
    (hprograms : 3 ≤ programs) :
    (SubmarineMonitor.configurationOnFrame c f true programs).1.Saved := by
  rcases leavesOrCommits_configurationOnFrame c f with hsame | ⟨limits, description, hcommit⟩
  · rwa [hsame]
  · rw [hcommit]
    exact saved_commit _ hprograms description

end SubmarineMonitor

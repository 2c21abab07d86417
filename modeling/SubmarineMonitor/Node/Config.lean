import SubmarineMonitor.Foundation.Bytes
import SubmarineMonitor.Foundation.Flash
import SubmarineMonitor.Node.Communication

/-!
# Configuration

The ten limits, the record that keeps them in flash, and the dispatch of the frames that set and
get them, after `config.c`. Both ends of every payload are little-endian.

The flash page is addressed from `CONFIG_FLASH_ADDR`. A save erases it and programs the record one
double word at a time; `programs` is the number of `HAL_FLASH_Program` calls that succeed before
one fails or the power does, so every `programs` is a way for a save to end.

## Memory

The limits are a structure here and fourteen bytes in flash. `ConfigLimits.bytes` and
`ConfigLimits.read` go from the one to the other, with the layout of the packed record: the magic
first, no padding, each temperature in two bytes. What the code does with a cast of a pointer into
flash is `read`, at offset four.

## How a save can end

Every result of the HAL is an argument. `eraseOk` is that of the erase, and without it the page is
left alone. Behind a successful erase the old record is gone in any case, and `programs` says how
many of the three double words are stored: a failed `HAL_FLASH_Program` and a loss of power come to
the same. `commit` ignores the result of the save and reports the change all the same, and
`configFlashLoad_save` lists what the next boot can find.

## What is left out

`HAL_FLASH_Unlock` and `HAL_FLASH_Lock`, which fail only when the flash is used wrongly. The lock
around `limits` (`Node.ConfigAccess`), the reboots (`Node.ConfigLife`), and what becomes of the
calls that a frame leads to: a call into the event module is recorded with its text, a reply as the
arguments of its `comm_send`.
-/

namespace SubmarineMonitor

/-! ### The limits -/

/-- `config_limits_t`. -/
@[ext]
structure ConfigLimits where
  tempNormalMin : Int16
  tempNormalMax : Int16
  tempWarningMin : Int16
  tempWarningMax : Int16
  humidityNormalMin : UInt8
  humidityWarningMin : UInt8
  lightNormalMin : UInt8
  lightWarningMin : UInt8
  batteryNormalMin : UInt8
  batteryWarningMin : UInt8
  deriving DecidableEq

/-- `DEFAULT_LIMITS`. -/
def defaultLimits : ConfigLimits where
  tempNormalMin := 15
  tempNormalMax := 27
  tempWarningMin := 10
  tempWarningMax := 30
  humidityNormalMin := 30
  humidityWarningMin := 20
  lightNormalMin := 40
  lightWarningMin := 20
  batteryNormalMin := 40
  batteryWarningMin := 20

/-- The two bytes of an `int16_t` in memory. -/
def int16Bytes (x : Int16) : List UInt8 :=
  [x.toUInt16.lo, x.toUInt16.hi]

/-- The `int16_t` with these bytes in memory. -/
def int16OfBytes (lo hi : UInt8) : Int16 :=
  (UInt16.join hi lo).toInt16

@[simp]
theorem int16OfBytes_int16Bytes (x : Int16) :
    int16OfBytes x.toUInt16.lo x.toUInt16.hi = x := by
  rw [int16OfBytes, UInt16.join_hi_lo, Int16.toInt16_toUInt16]

namespace ConfigLimits

/-- The limits as they lie in memory: fourteen bytes, no padding. -/
def bytes (l : ConfigLimits) : List UInt8 :=
  int16Bytes l.tempNormalMin ++ int16Bytes l.tempNormalMax ++ int16Bytes l.tempWarningMin ++
    int16Bytes l.tempWarningMax ++
    [l.humidityNormalMin, l.humidityWarningMin, l.lightNormalMin, l.lightWarningMin,
      l.batteryNormalMin, l.batteryWarningMin]

/-- The limits that lie at an offset of a page. -/
def read (page : FlashPage) (addr : ℕ) : ConfigLimits where
  tempNormalMin := int16OfBytes (page addr) (page (addr + 1))
  tempNormalMax := int16OfBytes (page (addr + 2)) (page (addr + 3))
  tempWarningMin := int16OfBytes (page (addr + 4)) (page (addr + 5))
  tempWarningMax := int16OfBytes (page (addr + 6)) (page (addr + 7))
  humidityNormalMin := page (addr + 8)
  humidityWarningMin := page (addr + 9)
  lightNormalMin := page (addr + 10)
  lightWarningMin := page (addr + 11)
  batteryNormalMin := page (addr + 12)
  batteryWarningMin := page (addr + 13)

theorem length_bytes (l : ConfigLimits) : l.bytes.length = 14 :=
  rfl

end ConfigLimits

/-! ### Flash -/

/-- `CONFIG_MAGIC`, as it lies in memory. -/
def configMagic : List UInt8 :=
  [0x46, 0x4E, 0x4F, 0x43]

/-- `config_flash_data_t`: the magic and the limits, packed. -/
def configFlashData (limits : ConfigLimits) : List UInt8 :=
  configMagic ++ limits.bytes

/-- `flash_write_bytes`. -/
def flashWriteBytes (page : FlashPage) (addr : ℕ) (data : List UInt8) (programs : ℕ) :
    FlashPage × Bool :=
  FlashPage.writeWords 8 page addr data 0 ((data.length + 7) / 8) programs

/-- `config_flash_save`. `eraseOk` is whether `HAL_FLASHEx_Erase` succeeds. -/
def configFlashSave (page : FlashPage) (eraseOk : Bool) (programs : ℕ) (limits : ConfigLimits) :
    FlashPage × Bool :=
  if eraseOk then flashWriteBytes .erased 0 (configFlashData limits) programs else (page, false)

/-- `config_flash_load`: the limits loaded, and the page afterwards. Without the magic, the defaults
are loaded and saved. -/
def configFlashLoad (page : FlashPage) (eraseOk : Bool) (programs : ℕ) :
    ConfigLimits × FlashPage :=
  if [page 0, page 1, page 2, page 3] = configMagic then (.read page 4, page)
  else (defaultLimits, (configFlashSave page eraseOk programs defaultLimits).1)

/-! ### Frames -/

/-- What `config.c` keeps: the limits in RAM, and the page. -/
structure Config where
  limits : ConfigLimits
  page : FlashPage

/-- `config_create`. -/
def configCreate (page : FlashPage) (eraseOk : Bool) (programs : ℕ) : Config :=
  let (limits, page) := configFlashLoad page eraseOk programs
  ⟨limits, page⟩

/-- What a frame makes `configuration_on_frame` call besides the flash. -/
inductive ConfigCall
  | eventConfigChanged (description : String)
  | commSend (args : SendArgs)
  deriving DecidableEq

/-- `commit`: save the limits in RAM and report the change. -/
def commit (c : Config) (eraseOk : Bool) (programs : ℕ) (description : String) :
    Config × List ConfigCall :=
  ({ c with page := (configFlashSave c.page eraseOk programs c.limits).1 },
    [.eventConfigChanged description])

/-- A `SET_TEMP_*` case: the two signed bytes of the payload, widened. -/
def setTempRange (c : Config) (f : TlvFrame) (eraseOk : Bool) (programs : ℕ)
    (set : ConfigLimits → Int16 → Int16 → ConfigLimits) (description : String) :
    Config × List ConfigCall :=
  match f.value with
  | some (min :: max :: _) =>
    if f.len = 2 then
      commit { c with limits := set c.limits min.toInt8.toInt16 max.toInt8.toInt16 } eraseOk
        programs description
    else (c, [])
  | _ => (c, [])

/-- A `SET_*` case with a lower bound: the byte of the payload. -/
def setBound (c : Config) (f : TlvFrame) (eraseOk : Bool) (programs : ℕ)
    (set : ConfigLimits → UInt8 → ConfigLimits) (description : String) :
    Config × List ConfigCall :=
  match f.value with
  | some (min :: _) =>
    if f.len = 1 then
      commit { c with limits := set c.limits min } eraseOk programs description
    else (c, [])
  | _ => (c, [])

/-- The `TLV_TAG_CONFIG_REPLY` payload, `config_reply_payload_t`: field for field the limits. -/
def configReplyPayload (limits : ConfigLimits) : List UInt8 :=
  limits.bytes

/-- `configuration_on_frame`: the state afterwards and what was called, in order. -/
def configurationOnFrame (c : Config) (f : Option TlvFrame) (eraseOk : Bool) (programs : ℕ) :
    Config × List ConfigCall :=
  match f with
  | none => (c, [])
  | some f =>
    if f.tag = tlvTagSetTempNormal then
      setTempRange c f eraseOk programs
        (fun l min max ↦ { l with tempNormalMin := min, tempNormalMax := max })
        "temp normal range"
    else if f.tag = tlvTagSetTempWarning then
      setTempRange c f eraseOk programs
        (fun l min max ↦ { l with tempWarningMin := min, tempWarningMax := max })
        "temp warning range"
    else if f.tag = tlvTagSetHumNormal then
      setBound c f eraseOk programs (fun l min ↦ { l with humidityNormalMin := min })
        "humidity normal bound"
    else if f.tag = tlvTagSetHumWarning then
      setBound c f eraseOk programs (fun l min ↦ { l with humidityWarningMin := min })
        "humidity warning bound"
    else if f.tag = tlvTagSetLightNormal then
      setBound c f eraseOk programs (fun l min ↦ { l with lightNormalMin := min })
        "light normal bound"
    else if f.tag = tlvTagSetLightWarning then
      setBound c f eraseOk programs (fun l min ↦ { l with lightWarningMin := min })
        "light warning bound"
    else if f.tag = tlvTagSetBattNormal then
      setBound c f eraseOk programs (fun l min ↦ { l with batteryNormalMin := min })
        "battery normal bound"
    else if f.tag = tlvTagSetBattWarning then
      setBound c f eraseOk programs (fun l min ↦ { l with batteryWarningMin := min })
        "battery warning bound"
    else if f.tag = tlvTagGetConfig then
      (c, [.commSend ⟨false, tlvTagConfigReply, some (configReplyPayload c.limits), 14⟩])
    else (c, [])

/-! ### What a frame can do -/

/-- What a `SET_*` frame makes of the limits, and how it is reported. -/
inductive Edits (l : ConfigLimits) : ConfigLimits → String → Prop
  | tempNormal (min max : Int8) :
    Edits l { l with tempNormalMin := min.toInt16, tempNormalMax := max.toInt16 } "temp normal range"
  | tempWarning (min max : Int8) :
    Edits l { l with tempWarningMin := min.toInt16, tempWarningMax := max.toInt16 }
      "temp warning range"
  | humidityNormal (min : UInt8) : Edits l { l with humidityNormalMin := min } "humidity normal bound"
  | humidityWarning (min : UInt8) :
    Edits l { l with humidityWarningMin := min } "humidity warning bound"
  | lightNormal (min : UInt8) : Edits l { l with lightNormalMin := min } "light normal bound"
  | lightWarning (min : UInt8) : Edits l { l with lightWarningMin := min } "light warning bound"
  | batteryNormal (min : UInt8) : Edits l { l with batteryNormalMin := min } "battery normal bound"
  | batteryWarning (min : UInt8) : Edits l { l with batteryWarningMin := min } "battery warning bound"

/-- A frame is ignored, or it changes the limits and commits them. -/
def IgnoredOrSet (c : Config) (eraseOk : Bool) (programs : ℕ) (r : Config × List ConfigCall) : Prop :=
  r = (c, []) ∨ ∃ limits description, Edits c.limits limits description ∧
    r = commit { c with limits := limits } eraseOk programs description

theorem ignoredOrSet_setTempRange (c : Config) (f : TlvFrame) (eraseOk : Bool) (programs : ℕ)
    {set : ConfigLimits → Int16 → Int16 → ConfigLimits} {description : String}
    (h : ∀ min max : Int8, Edits c.limits (set c.limits min.toInt16 max.toInt16) description) :
    IgnoredOrSet c eraseOk programs (setTempRange c f eraseOk programs set description) := by
  rw [setTempRange]
  split
  · split
    · exact .inr ⟨_, _, h _ _, rfl⟩
    · exact .inl rfl
  · exact .inl rfl

theorem ignoredOrSet_setBound (c : Config) (f : TlvFrame) (eraseOk : Bool) (programs : ℕ)
    {set : ConfigLimits → UInt8 → ConfigLimits} {description : String}
    (h : ∀ min : UInt8, Edits c.limits (set c.limits min) description) :
    IgnoredOrSet c eraseOk programs (setBound c f eraseOk programs set description) := by
  rw [setBound]
  split
  · split
    · exact .inr ⟨_, _, h _, rfl⟩
    · exact .inl rfl
  · exact .inl rfl

/-- A request is answered with the current limits. -/
theorem configurationOnFrame_get {c : Config} {f : TlvFrame} (hf : f.tag = tlvTagGetConfig)
    (eraseOk : Bool) (programs : ℕ) :
    configurationOnFrame c (some f) eraseOk programs =
      (c, [.commSend ⟨false, tlvTagConfigReply, some (configReplyPayload c.limits), 14⟩]) := by
  obtain ⟨tag, len, value⟩ := f
  obtain rfl : tag = tlvTagGetConfig := hf
  rfl

/-- **What a frame that is no request can do.** -/
theorem ignoredOrSet_configurationOnFrame (c : Config) {f : TlvFrame} (hf : f.tag ≠ tlvTagGetConfig)
    (eraseOk : Bool) (programs : ℕ) :
    IgnoredOrSet c eraseOk programs (configurationOnFrame c (some f) eraseOk programs) := by
  dsimp only [configurationOnFrame]
  refine iteInduction (motive := IgnoredOrSet c eraseOk programs)
    (fun _ ↦ ignoredOrSet_setTempRange c f _ _ .tempNormal) fun _ ↦ ?_
  refine iteInduction (motive := IgnoredOrSet c eraseOk programs)
    (fun _ ↦ ignoredOrSet_setTempRange c f _ _ .tempWarning) fun _ ↦ ?_
  refine iteInduction (motive := IgnoredOrSet c eraseOk programs)
    (fun _ ↦ ignoredOrSet_setBound c f _ _ .humidityNormal) fun _ ↦ ?_
  refine iteInduction (motive := IgnoredOrSet c eraseOk programs)
    (fun _ ↦ ignoredOrSet_setBound c f _ _ .humidityWarning) fun _ ↦ ?_
  refine iteInduction (motive := IgnoredOrSet c eraseOk programs)
    (fun _ ↦ ignoredOrSet_setBound c f _ _ .lightNormal) fun _ ↦ ?_
  refine iteInduction (motive := IgnoredOrSet c eraseOk programs)
    (fun _ ↦ ignoredOrSet_setBound c f _ _ .lightWarning) fun _ ↦ ?_
  refine iteInduction (motive := IgnoredOrSet c eraseOk programs)
    (fun _ ↦ ignoredOrSet_setBound c f _ _ .batteryNormal) fun _ ↦ ?_
  refine iteInduction (motive := IgnoredOrSet c eraseOk programs)
    (fun _ ↦ ignoredOrSet_setBound c f _ _ .batteryWarning) fun _ ↦ ?_
  rw [if_neg hf]
  exact .inl rfl

/-- **Everything a frame can do**: nothing, a reply, or a change that is committed. -/
theorem configurationOnFrame_cases (c : Config) (f : Option TlvFrame) (eraseOk : Bool)
    (programs : ℕ) :
    IgnoredOrSet c eraseOk programs (configurationOnFrame c f eraseOk programs) ∨
      configurationOnFrame c f eraseOk programs =
        (c, [.commSend ⟨false, tlvTagConfigReply, some (configReplyPayload c.limits), 14⟩]) := by
  obtain _ | f := f
  · exact .inl (.inl rfl)
  · by_cases hf : f.tag = tlvTagGetConfig
    · exact .inr (configurationOnFrame_get hf eraseOk programs)
    · exact .inl (ignoredOrSet_configurationOnFrame c hf eraseOk programs)

/-! ### What a save leaves behind -/

/-- The page after a save whose erase succeeded, whole or cut short. -/
theorem configFlashSave_apply (page : FlashPage) (programs : ℕ) (limits : ConfigLimits) (i : ℕ) :
    (configFlashSave page true programs limits).1 i =
      if i < 8 * min 3 programs then (configFlashData limits).getD i 0xFF else 0xFF := by
  have hwords : ((configFlashData limits).length + 7) / 8 = 3 := by
    rw [configFlashData, List.length_append, ConfigLimits.length_bytes]
    rfl
  rw [configFlashSave, if_pos rfl, flashWriteBytes, hwords, FlashPage.writeWords_apply]
  simp only [Nat.zero_le, true_and, Nat.zero_add, Nat.sub_zero]
  rfl

/-- What the limits in flash read as when only `programs` double words were stored: the first holds
the magic and the normal temperature range, the third the battery bounds. Erased fields read as
`-1` and `255`. -/
def ConfigLimits.torn (l : ConfigLimits) : ℕ → ConfigLimits
  | 1 => ⟨l.tempNormalMin, l.tempNormalMax, -1, -1, 255, 255, 255, 255, 255, 255⟩
  | 2 => { l with batteryNormalMin := 255, batteryWarningMin := 255 }
  | _ => l

/-- **What is loaded after a save, whole or cut short**: the defaults if nothing was stored, and
otherwise what the stored double words and the erased rest spell. -/
theorem configFlashLoad_save (page : FlashPage) (eraseOk : Bool) (programs programs' : ℕ)
    (limits : ConfigLimits) :
    (configFlashLoad (configFlashSave page true programs limits).1 eraseOk programs').1 =
      if programs = 0 then defaultLimits else limits.torn programs := by
  have hpage := configFlashSave_apply page programs limits
  generalize (configFlashSave page true programs limits).1 = p at hpage
  obtain _ | n := programs
  · -- nothing but erased bytes: no magic
    have hnone : [p 0, p 1, p 2, p 3] ≠ configMagic := by
      simp only [hpage, Nat.min_zero, Nat.mul_zero, Nat.not_lt_zero, if_false]
      decide
    rw [configFlashLoad, if_neg hnone, if_pos rfl]
  · have hmagic : [p 0, p 1, p 2, p 3] = configMagic := by
      simp only [hpage]
      rw [if_pos (by omega), if_pos (by omega), if_pos (by omega), if_pos (by omega)]
      rfl
    rw [configFlashLoad, if_pos hmagic, if_neg (Nat.succ_ne_zero n)]
    have herased : int16OfBytes 0xFF 0xFF = -1 := by decide
    obtain _ | _ | n := n
    all_goals
      apply ConfigLimits.ext <;>
        simp [ConfigLimits.read, ConfigLimits.torn, hpage, configFlashData, configMagic,
          ConfigLimits.bytes, int16Bytes, herased]

end SubmarineMonitor

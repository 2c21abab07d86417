import SubmarineMonitor.Node.Config

/-!
# Management commands

The threshold half of the central computer's `ManagementCommand`: the eight setters, the pieces of
`get_config`, and what `on_frame` makes of a `TLV_TAG_CONFIG_REPLY`. A method returns the object
afterwards, the frames it sends, and its own result.

On the wire a temperature limit is an `int16_t`, and here it is kept as an `int8_t`. Nothing is lost
as long as the limits are `Narrow`, which every limit is that a setter or the defaults put there.

## What a method returns

A method changes the object, sends frames, writes lines and returns a value. The frames are a list
in the result, since what becomes of them is not the method's business; the lines are kept in the
object, where the log would be. `comm_.send` is taken to return. When it throws, as it does on a
broken transport, a setter is left before it writes its line, and nothing else of it has happened.

`get_config` is cut into the part before its first `unlock`, the sending, and the wait, and
`on_frame` into the part before its critical section and that section, because these are the places
where other threads come in. `Central.GetConfig` is the machine made of the pieces.

## Numbers

The arguments of a setter are an `int8_t` or a `uint8_t`, so the conditions are on machine integers
and the messages print them as numbers. The reply carries 16 bits for each temperature, and
`thresholdsOfReply` narrows them as the assignment in the source does, modulo 256. Whether that
loses anything is a question about the node's limits; `Narrow` is the answer, and it is proved for
the node and not assumed of it.

## What is left out

The menu in front of the setters, and `get_time`. The other tags of `on_frame` are in
`Central.Communication`, as operations that may throw, and the answer to a request for the time is
in `Central.TimeSync`.
-/

namespace SubmarineMonitor

/-- The frame a link delivers for a tag and a payload. -/
def linkFrame (tag : UInt8) (payload : List UInt8) : TlvFrame :=
  ⟨tag, payload.length.toUInt8, if payload = [] then none else some payload⟩

/-! ### The object -/

/-- `ManagementCommand::Thresholds`. -/
structure Thresholds where
  tempNormalMin : Option Int8
  tempNormalMax : Option Int8
  tempWarningMin : Option Int8
  tempWarningMax : Option Int8
  humidityNormalMin : Option UInt8
  humidityWarningMin : Option UInt8
  lightNormalMin : Option UInt8
  lightWarningMin : Option UInt8
  batteryNormalMin : Option UInt8
  batteryWarningMin : Option UInt8
  deriving DecidableEq

/-- `ManagementCommand`, less the two references it holds. -/
structure ManagementCommand where
  thresholds : Thresholds
  configReplyPending : Bool
  /-- The lines handed to `log_.write`. -/
  log : List String
  deriving DecidableEq

/-- A new object. -/
def managementCommandCreate : ManagementCommand :=
  ⟨⟨none, none, none, none, none, none, none, none, none, none⟩, false, []⟩

namespace ManagementCommand

/-- `log_.write`. -/
def logWrite (m : ManagementCommand) (line : String) : ManagementCommand :=
  { m with log := m.log ++ [line] }

/-! ### The setters -/

/-- `send_temp_range`. -/
def sendTempRange (m : ManagementCommand) (tag : UInt8) (label : String) (min max : Int8) :
    ManagementCommand × List TlvFrame × Bool :=
  if min > max then
    (m.logWrite ("rejected " ++ label ++ ": min=" ++ toString min.toInt ++ " > max=" ++
      toString max.toInt), [], false)
  else
    (m.logWrite ("sent " ++ label ++ " min=" ++ toString min.toInt ++ " max=" ++
      toString max.toInt), [linkFrame tag [min.toUInt8, max.toUInt8]], true)

/-- `send_bound`. -/
def sendBound (m : ManagementCommand) (tag : UInt8) (label : String) (min : UInt8) :
    ManagementCommand × List TlvFrame × Bool :=
  if min > 100 then
    (m.logWrite ("rejected " ++ label ++ ": min=" ++ toString min.toNat ++ " > 100"), [], false)
  else
    (m.logWrite ("sent " ++ label ++ " min=" ++ toString min.toNat), [linkFrame tag [min]], true)

def setTempNormal (m : ManagementCommand) (min max : Int8) :=
  m.sendTempRange tlvTagSetTempNormal "SET_TEMP_NORMAL" min max

def setTempWarning (m : ManagementCommand) (min max : Int8) :=
  m.sendTempRange tlvTagSetTempWarning "SET_TEMP_WARNING" min max

def setHumidityNormal (m : ManagementCommand) (min : UInt8) :=
  m.sendBound tlvTagSetHumNormal "SET_HUM_NORMAL" min

def setHumidityWarning (m : ManagementCommand) (min : UInt8) :=
  m.sendBound tlvTagSetHumWarning "SET_HUM_WARNING" min

def setLightNormal (m : ManagementCommand) (min : UInt8) :=
  m.sendBound tlvTagSetLightNormal "SET_LIGHT_NORMAL" min

def setLightWarning (m : ManagementCommand) (min : UInt8) :=
  m.sendBound tlvTagSetLightWarning "SET_LIGHT_WARNING" min

def setBatteryNormal (m : ManagementCommand) (min : UInt8) :=
  m.sendBound tlvTagSetBattNormal "SET_BATT_NORMAL" min

def setBatteryWarning (m : ManagementCommand) (min : UInt8) :=
  m.sendBound tlvTagSetBattWarning "SET_BATT_WARNING" min

/-- A call of one of the setters. -/
inductive SetterCall
  | tempNormal (min max : Int8)
  | tempWarning (min max : Int8)
  | humidityNormal (min : UInt8)
  | humidityWarning (min : UInt8)
  | lightNormal (min : UInt8)
  | lightWarning (min : UInt8)
  | batteryNormal (min : UInt8)
  | batteryWarning (min : UInt8)
  deriving DecidableEq

/-- Make the call. -/
def runSetter (m : ManagementCommand) : SetterCall → ManagementCommand × List TlvFrame × Bool
  | .tempNormal min max => m.setTempNormal min max
  | .tempWarning min max => m.setTempWarning min max
  | .humidityNormal min => m.setHumidityNormal min
  | .humidityWarning min => m.setHumidityWarning min
  | .lightNormal min => m.setLightNormal min
  | .lightWarning min => m.setLightWarning min
  | .batteryNormal min => m.setBatteryNormal min
  | .batteryWarning min => m.setBatteryWarning min

/-! ### `get_config` and its reply -/

/-- `get_config` up to its first `unlock`. -/
def getConfigBegin (m : ManagementCommand) : ManagementCommand :=
  { m with configReplyPending := true }

/-- `get_config` from there to its second `lock`. -/
def getConfigSend (m : ManagementCommand) : ManagementCommand × List TlvFrame :=
  (m.logWrite "sent GET_CONFIG", [linkFrame tlvTagGetConfig []])

/-- The thresholds a `config_reply_payload_t` carries: each `int16_t` is narrowed to `int8_t`. -/
def thresholdsOfReply (f : TlvFrame) : Option Thresholds :=
  match f.value with
  | some (a₀ :: a₁ :: b₀ :: b₁ :: c₀ :: c₁ :: d₀ :: d₁ :: hn :: hw :: ln :: lw :: bn :: bw :: _) =>
    if f.len = 14 then
      some {
        tempNormalMin := some (int16OfBytes a₀ a₁).toInt8
        tempNormalMax := some (int16OfBytes b₀ b₁).toInt8
        tempWarningMin := some (int16OfBytes c₀ c₁).toInt8
        tempWarningMax := some (int16OfBytes d₀ d₁).toInt8
        humidityNormalMin := some hn
        humidityWarningMin := some hw
        lightNormalMin := some ln
        lightWarningMin := some lw
        batteryNormalMin := some bn
        batteryWarningMin := some bw }
    else none
  | _ => none

/-- `on_frame`, the `TLV_TAG_CONFIG_REPLY` case, up to its critical section. Nothing is returned for
a frame it does not take for a reply. -/
def onConfigReply (m : ManagementCommand) (f : TlvFrame) : Option ManagementCommand :=
  (thresholdsOfReply f).map fun thresholds ↦
    { m with thresholds := thresholds }.logWrite "LNC reports current config (CONFIG_REPLY)"

/-- `on_frame`, the critical section of that case. -/
def onConfigReplyDone (m : ManagementCommand) : ManagementCommand :=
  { m with configReplyPending := false }

/-! ### Setters -/

variable {m : ManagementCommand}

theorem sendTempRange_spec (m : ManagementCommand) {tag : UInt8} (label : String) (min max : Int8)
    (htag : tag ≠ tlvTagGetConfig) :
    (m.sendTempRange tag label min max).1.thresholds = m.thresholds ∧
      (m.sendTempRange tag label min max).1.configReplyPending = m.configReplyPending ∧
      ∀ f ∈ (m.sendTempRange tag label min max).2.1, f.tag ≠ tlvTagGetConfig := by
  rw [sendTempRange]
  split
  · exact ⟨rfl, rfl, nofun⟩
  · exact ⟨rfl, rfl, by simpa [linkFrame] using htag⟩

theorem sendBound_spec (m : ManagementCommand) {tag : UInt8} (label : String) (min : UInt8)
    (htag : tag ≠ tlvTagGetConfig) :
    (m.sendBound tag label min).1.thresholds = m.thresholds ∧
      (m.sendBound tag label min).1.configReplyPending = m.configReplyPending ∧
      ∀ f ∈ (m.sendBound tag label min).2.1, f.tag ≠ tlvTagGetConfig := by
  rw [sendBound]
  split
  · exact ⟨rfl, rfl, nofun⟩
  · exact ⟨rfl, rfl, by simpa [linkFrame] using htag⟩

/-- A setter sends at most one frame, with the tag it is about. -/
theorem runSetter_spec (m : ManagementCommand) (call : SetterCall) :
    (m.runSetter call).1.thresholds = m.thresholds ∧
      (m.runSetter call).1.configReplyPending = m.configReplyPending ∧
      ∀ f ∈ (m.runSetter call).2.1, f.tag ≠ tlvTagGetConfig := by
  cases call with
  | tempNormal min max => exact sendTempRange_spec m _ min max (by decide)
  | tempWarning min max => exact sendTempRange_spec m _ min max (by decide)
  | humidityNormal min => exact sendBound_spec m _ min (by decide)
  | humidityWarning min => exact sendBound_spec m _ min (by decide)
  | lightNormal min => exact sendBound_spec m _ min (by decide)
  | lightWarning min => exact sendBound_spec m _ min (by decide)
  | batteryNormal min => exact sendBound_spec m _ min (by decide)
  | batteryWarning min => exact sendBound_spec m _ min (by decide)

end ManagementCommand

/-! ### Limits and thresholds -/

/-- The temperatures fit in an `int8_t`. -/
structure ConfigLimits.Narrow (l : ConfigLimits) : Prop where
  normalMin : l.tempNormalMin.toInt8.toInt16 = l.tempNormalMin
  normalMax : l.tempNormalMax.toInt8.toInt16 = l.tempNormalMax
  warningMin : l.tempWarningMin.toInt8.toInt16 = l.tempWarningMin
  warningMax : l.tempWarningMax.toInt8.toInt16 = l.tempWarningMax

/-- All ten thresholds are present, and numerically equal to the limits. -/
structure Thresholds.Shows (t : Thresholds) (l : ConfigLimits) : Prop where
  tempNormalMin : t.tempNormalMin.map Int8.toInt = some l.tempNormalMin.toInt
  tempNormalMax : t.tempNormalMax.map Int8.toInt = some l.tempNormalMax.toInt
  tempWarningMin : t.tempWarningMin.map Int8.toInt = some l.tempWarningMin.toInt
  tempWarningMax : t.tempWarningMax.map Int8.toInt = some l.tempWarningMax.toInt
  humidityNormalMin : t.humidityNormalMin = some l.humidityNormalMin
  humidityWarningMin : t.humidityWarningMin = some l.humidityWarningMin
  lightNormalMin : t.lightNormalMin = some l.lightNormalMin
  lightWarningMin : t.lightWarningMin = some l.lightWarningMin
  batteryNormalMin : t.batteryNormalMin = some l.batteryNormalMin
  batteryWarningMin : t.batteryWarningMin = some l.batteryWarningMin

theorem narrow_defaultLimits : defaultLimits.Narrow :=
  ⟨by decide, by decide, by decide, by decide⟩

/-- Narrow limits that were saved, whole or in part, are loaded as narrow limits. -/
theorem narrow_configFlashLoad_save {l : ConfigLimits} (h : l.Narrow) (page : FlashPage)
    (eraseOk : Bool) (programs programs' : ℕ) :
    (configFlashLoad (configFlashSave page true programs l).1 eraseOk programs').1.Narrow := by
  rw [configFlashLoad_save]
  split
  · exact narrow_defaultLimits
  · -- an erased temperature reads as `-1`
    have herased : (-1 : Int16).toInt8.toInt16 = -1 := by decide
    rw [ConfigLimits.torn.eq_def]
    split
    · exact ⟨h.normalMin, h.normalMax, herased, herased⟩
    · exact ⟨h.normalMin, h.normalMax, h.warningMin, h.warningMax⟩
    · exact h

/-- The reply to a `GET_CONFIG`. -/
def configReply (l : ConfigLimits) : TlvFrame :=
  linkFrame tlvTagConfigReply (configReplyPayload l)

/-- **A reply shows the limits it was made from.** -/
theorem thresholdsOfReply_configReply {l : ConfigLimits} (h : l.Narrow) :
    ∃ t, ManagementCommand.thresholdsOfReply (configReply l) = some t ∧ t.Shows l := by
  have hwide : ∀ {x : Int16}, x.toInt8.toInt16 = x → x.toInt8.toInt = x.toInt := by
    intro x hx
    rw [← Int8.toInt_toInt16, hx]
  refine ⟨_, rfl, ?_⟩
  constructor
  all_goals simp only [int16OfBytes_int16Bytes, Option.map_some]
  · rw [hwide h.normalMin]
  · rw [hwide h.normalMax]
  · rw [hwide h.warningMin]
  · rw [hwide h.warningMax]

end SubmarineMonitor

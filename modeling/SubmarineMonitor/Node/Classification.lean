import SubmarineMonitor.Node.Config
import SubmarineMonitor.Node.Monitor

/-!
# Classifying a measurement

How `monitor.c` turns one round's readings into a mode: each sensor into a tier by its own limits,
then the worst tier of the four.

A temperature has two ranges, and nothing in the classification relates them to each other: outside
both is an error, wherever that is. Whether a temperature farther from the normal range is at least
as bad as a nearer one is therefore a question about the limits, and `classifyRange_graded_iff`
answers it: there must be no gap between the two ranges.

## Integers

C promotes both operands to `int` before it compares them, so readings and limits are compared as
integers: a temperature by the value of its `int16_t`, a percentage by that of its `uint8_t`.
Nothing can wrap, and the statements need no bounds.

## What is not assumed of the limits

`config.c` stores whatever range a frame carries. It does not look whether the lower end is above
the upper one, nor whether the warning range reaches around the normal range. An empty range is
therefore a value of `ConfigLimits` like any other, and `Proper` is a hypothesis where it matters,
not a field. What the defaults happen to satisfy is never used.

## What is left out

`classify_mode` fetches the limits with `config_get_limits`; here they are an argument, and that a
copy is never a torn one is shown where the lock is (`Node.ConfigAccess`). Where the readings come
from is the business of `Node.Rounds`.
-/

namespace SubmarineMonitor

/-! ### Tiers -/

/-- `sensor_tier_t`. -/
inductive SensorTier
  | normal
  | warning
  | error
  deriving DecidableEq

/-- How bad a tier is: the value of the enumerator. -/
def SensorTier.severity : SensorTier → ℕ
  | .normal => 0
  | .warning => 1
  | .error => 2

/-- `classify_range`. -/
def classifyRange (value normalMin normalMax warningMin warningMax : ℤ) : SensorTier :=
  if normalMin ≤ value ∧ value ≤ normalMax then .normal
  else if warningMin ≤ value ∧ value ≤ warningMax then .warning
  else .error

/-- `classify_lower_bound`. -/
def classifyLowerBound (value normalMin warningMin : ℤ) : SensorTier :=
  if normalMin ≤ value then .normal
  else if warningMin ≤ value then .warning
  else .error

/-! ### Modes -/

/-- How bad a mode is: the value of the enumerator. -/
def MonitorMode.severity : MonitorMode → ℤ
  | .unknown => -1
  | .normal => 0
  | .warning => 1
  | .error => 2

/-- The tier of a temperature. -/
def ConfigLimits.tempTier (limits : ConfigLimits) (temp : Int16) : SensorTier :=
  classifyRange temp.toInt limits.tempNormalMin.toInt limits.tempNormalMax.toInt
    limits.tempWarningMin.toInt limits.tempWarningMax.toInt

/-- `classify_mode`, given what `config_get_limits` returns. -/
def classifyMode (limits : ConfigLimits) (data : MonitorMeasurement) : MonitorMode :=
  let temp := limits.tempTier data.tempC
  let hum := classifyLowerBound data.humidityPct.toNat limits.humidityNormalMin.toNat
    limits.humidityWarningMin.toNat
  let light := classifyLowerBound data.lightPct.toNat limits.lightNormalMin.toNat
    limits.lightWarningMin.toNat
  let batt := classifyLowerBound data.batteryPct.toNat limits.batteryNormalMin.toNat
    limits.batteryWarningMin.toNat
  if temp = .error ∨ hum = .error ∨ light = .error ∨ batt = .error then .error
  else if temp = .warning ∨ hum = .warning ∨ light = .warning ∨ batt = .warning then .warning
  else .normal

/-- The worst of the three tiers that are not about the temperature. -/
def restSeverity (limits : ConfigLimits) (data : MonitorMeasurement) : ℕ :=
  max (classifyLowerBound data.humidityPct.toNat limits.humidityNormalMin.toNat
      limits.humidityWarningMin.toNat).severity
    (max (classifyLowerBound data.lightPct.toNat limits.lightNormalMin.toNat
        limits.lightWarningMin.toNat).severity
      (classifyLowerBound data.batteryPct.toNat limits.batteryNormalMin.toNat
        limits.batteryWarningMin.toNat).severity)

/-- **The mode is the worst tier.** -/
theorem severity_classifyMode (limits : ConfigLimits) (data : MonitorMeasurement) :
    (classifyMode limits data).severity =
      max (limits.tempTier data.tempC).severity (restSeverity limits data) := by
  rw [classifyMode, restSeverity]
  generalize limits.tempTier data.tempC = temp
  generalize classifyLowerBound data.humidityPct.toNat _ _ = hum
  generalize classifyLowerBound data.lightPct.toNat _ _ = light
  generalize classifyLowerBound data.batteryPct.toNat _ _ = batt
  cases temp <;> cases hum <;> cases light <;> cases batt <;> rfl

/-! ### Gradedness -/

section Ranges

variable {normalMin normalMax warningMin warningMax : ℤ}

/-- Without a gap between the ranges, what lies between a value and the normal range is in no worse a
tier than that value. -/
theorem severity_classifyRange_le (habove : warningMin ≤ normalMax + 1)
    (hbelow : normalMin ≤ warningMax + 1) {a b : ℤ} (hlo : min a normalMin ≤ b)
    (hhi : b ≤ max a normalMax) :
    (classifyRange b normalMin normalMax warningMin warningMax).severity ≤
      (classifyRange a normalMin normalMax warningMin warningMax).severity := by
  simp only [classifyRange]
  split_ifs
  all_goals simp only [SensorTier.severity]
  all_goals omega

/-- A gap above the normal range: its first value is an error, and the warning range lies behind. -/
theorem severity_classifyRange_gap_above (hw : warningMin ≤ warningMax)
    (hgap : normalMax + 1 < warningMin) :
    (classifyRange warningMin normalMin normalMax warningMin warningMax).severity <
      (classifyRange (normalMax + 1) normalMin normalMax warningMin warningMax).severity := by
  have hwarning : classifyRange warningMin normalMin normalMax warningMin warningMax = .warning := by
    rw [classifyRange, if_neg (by omega), if_pos ⟨le_rfl, hw⟩]
  have herror : classifyRange (normalMax + 1) normalMin normalMax warningMin warningMax = .error := by
    rw [classifyRange, if_neg (by omega), if_neg (by omega)]
  rw [hwarning, herror]
  decide

/-- A gap below the normal range. -/
theorem severity_classifyRange_gap_below (hw : warningMin ≤ warningMax)
    (hgap : warningMax < normalMin - 1) :
    (classifyRange warningMax normalMin normalMax warningMin warningMax).severity <
      (classifyRange (normalMin - 1) normalMin normalMax warningMin warningMax).severity := by
  have hwarning : classifyRange warningMax normalMin normalMax warningMin warningMax = .warning := by
    rw [classifyRange, if_neg (by omega), if_pos ⟨hw, le_rfl⟩]
  have herror : classifyRange (normalMin - 1) normalMin normalMax warningMin warningMax = .error := by
    rw [classifyRange, if_neg (by omega), if_neg (by omega)]
  rw [hwarning, herror]
  decide

end Ranges

namespace ConfigLimits

/-- **The classification is graded in temperature**: with the other readings fixed, a temperature
between another one and the normal range, both ends included, is never classified as more severe. -/
def Graded (limits : ConfigLimits) : Prop :=
  ∀ (data : MonitorMeasurement) (a b : Int16),
    min a.toInt limits.tempNormalMin.toInt ≤ b.toInt →
      b.toInt ≤ max a.toInt limits.tempNormalMax.toInt →
        (classifyMode limits { data with tempC := b }).severity ≤
          (classifyMode limits { data with tempC := a }).severity

/-- The two temperature ranges overlap or adjoin. -/
def NoGap (limits : ConfigLimits) : Prop :=
  limits.tempWarningMin.toInt ≤ limits.tempNormalMax.toInt + 1 ∧
    limits.tempNormalMin.toInt ≤ limits.tempWarningMax.toInt + 1

instance (limits : ConfigLimits) : Decidable limits.NoGap :=
  inferInstanceAs (Decidable (_ ∧ _))

/-- Neither temperature range is empty. -/
structure Proper (limits : ConfigLimits) : Prop where
  normal : limits.tempNormalMin.toInt ≤ limits.tempNormalMax.toInt
  warning : limits.tempWarningMin.toInt ≤ limits.tempWarningMax.toInt

/-- With the best of the other readings, the mode is as bad as the temperature. -/
theorem tempTier_le_of_graded {limits : ConfigLimits} (h : limits.Graded) {a b : Int16}
    (hlo : min a.toInt limits.tempNormalMin.toInt ≤ b.toInt)
    (hhi : b.toInt ≤ max a.toInt limits.tempNormalMax.toInt) :
    (limits.tempTier b).severity ≤ (limits.tempTier a).severity := by
  have hbest : ∀ m w : UInt8, classifyLowerBound (255 : UInt8).toNat m.toNat w.toNat = .normal := by
    intro m w
    have hm : m.toNat ≤ 255 := Nat.le_of_lt_succ m.toNat_lt
    exact if_pos (Int.ofNat_le.2 hm)
  have hrest : ∀ t, restSeverity limits ⟨t, 255, 255, 255⟩ = 0 := by
    intro t
    simp only [restSeverity, hbest]
    rfl
  have hmode := h ⟨a, 255, 255, 255⟩ a b hlo hhi
  rw [severity_classifyMode, severity_classifyMode, hrest, hrest] at hmode
  simpa using hmode

/-- **Graded means without a gap.** -/
theorem graded_iff_noGap {limits : ConfigLimits} (h : limits.Proper) :
    limits.Graded ↔ limits.NoGap := by
  constructor
  · intro hgraded
    have hwl := limits.tempWarningMin.toInt_lt
    have hwl' := limits.tempWarningMax.le_toInt
    have hnl := limits.tempNormalMax.le_toInt
    have hnl' := limits.tempNormalMin.toInt_lt
    have hn := h.normal
    constructor
    · by_contra hgap
      have hb : (Int16.ofInt (limits.tempNormalMax.toInt + 1)).toInt =
          limits.tempNormalMax.toInt + 1 := Int16.toInt_ofInt_of_le (by omega) (by omega)
      have hle := tempTier_le_of_graded hgraded (a := limits.tempWarningMin)
        (b := Int16.ofInt (limits.tempNormalMax.toInt + 1)) (by omega) (by omega)
      rw [tempTier, tempTier, hb] at hle
      exact (severity_classifyRange_gap_above h.warning (by omega)).not_ge hle
    · by_contra hgap
      have hb : (Int16.ofInt (limits.tempNormalMin.toInt - 1)).toInt =
          limits.tempNormalMin.toInt - 1 := Int16.toInt_ofInt_of_le (by omega) (by omega)
      have hle := tempTier_le_of_graded hgraded (a := limits.tempWarningMax)
        (b := Int16.ofInt (limits.tempNormalMin.toInt - 1)) (by omega) (by omega)
      rw [tempTier, tempTier, hb] at hle
      exact (severity_classifyRange_gap_below h.warning (by omega)).not_ge hle
  · rintro ⟨habove, hbelow⟩ data a b hlo hhi
    have htemp := severity_classifyRange_le habove hbelow hlo hhi
    rw [severity_classifyMode, severity_classifyMode]
    exact_mod_cast max_le_max htemp le_rfl

end ConfigLimits

end SubmarineMonitor

import SubmarineMonitor.Node.Config

/-!
# Loading after an interrupted save

The record is validated by its magic alone, and the magic lies in the double word that is programmed
*first*. So a save that is cut short after one or two of its three double words leaves a record that
passes the check with fields that were never written, and `config_flash_load` takes them for limits.

`configFlashLoad_cut_iff` says exactly when the loader still yields a complete record: when nothing
or everything was stored, or when the erased bytes happen to be what the record should have held.

## What is asked

The page holds a whole record of the old limits, a save of new ones begins, and power fails behind
any number of double words. What the next boot loads is one of four things: the defaults, one of two
mixtures of new limits and erased bytes, or the new limits. The old ones come back only where a
mixture happens to spell them. A record of eighteen bytes takes three double words, and the erased
bytes read as `-1` and `255`.

The condition is about the limits and the cut, not about what is loaded. It says which fields have
to agree, and with what. Both directions are proved, so a change of the layout that moves the magic
to the end, or adds a checksum, makes one of them fail at once and shows which.

## What is left out

A double word is stored as a whole or not at all, as the flash promises with its own error
correction. A cut during the erase itself is not among the cases: the page is then erased in part,
and what it reads as is not documented.
-/

namespace SubmarineMonitor

namespace ConfigLimits

/-- Every field behind the first double word is what erased flash reads as. -/
def TailErased (l : ConfigLimits) : Prop :=
  l.tempWarningMin = -1 ∧ l.tempWarningMax = -1 ∧ l.humidityNormalMin = 255 ∧
    l.humidityWarningMin = 255 ∧ l.lightNormalMin = 255 ∧ l.lightWarningMin = 255 ∧
    l.batteryNormalMin = 255 ∧ l.batteryWarningMin = 255

/-- The two fields of the third double word are what erased flash reads as. -/
def BatteryErased (l : ConfigLimits) : Prop :=
  l.batteryNormalMin = 255 ∧ l.batteryWarningMin = 255

/-- The fields of the first double word agree. -/
def AgreeNormal (l l' : ConfigLimits) : Prop :=
  l.tempNormalMin = l'.tempNormalMin ∧ l.tempNormalMax = l'.tempNormalMax

/-- The fields of the first two double words agree. -/
def AgreeUpToBattery (l l' : ConfigLimits) : Prop :=
  AgreeNormal l l' ∧ l.tempWarningMin = l'.tempWarningMin ∧
    l.tempWarningMax = l'.tempWarningMax ∧ l.humidityNormalMin = l'.humidityNormalMin ∧
    l.humidityWarningMin = l'.humidityWarningMin ∧ l.lightNormalMin = l'.lightNormalMin ∧
    l.lightWarningMin = l'.lightWarningMin

end ConfigLimits

/-- The save of `new` over `old` is not cut where it shows: after none or all three of the double
words, or where the bytes not yet written are those of `new` or, with what was written, of `old`. -/
def CutHarmless (old new : ConfigLimits) : (programs : ℕ) → Prop
  | 0 => True
  | 1 => new.TailErased ∨ old.TailErased ∧ old.AgreeNormal new
  | 2 => new.BatteryErased ∨ old.BatteryErased ∧ old.AgreeUpToBattery new
  | _ + 3 => True

/-- **When an interrupted save goes unnoticed.** With `old` stored in flash, a save of `new` that
ends after any number of double words leaves a page from which the next boot loads `old`, `new` or
the defaults exactly when the cut is harmless. -/
theorem configFlashLoad_cut_iff (page : FlashPage) (old new : ConfigLimits) (programs : ℕ)
    (eraseOk : Bool) (programs' : ℕ) :
    ((configFlashLoad (configFlashSave (configFlashSave page true 3 old).1 true programs new).1
          eraseOk programs').1 = old ∨
      (configFlashLoad (configFlashSave (configFlashSave page true 3 old).1 true programs new).1
          eraseOk programs').1 = new ∨
      (configFlashLoad (configFlashSave (configFlashSave page true 3 old).1 true programs new).1
          eraseOk programs').1 = defaultLimits) ↔
      CutHarmless old new programs := by
  rw [configFlashLoad_save]
  match programs with
  | 0 => exact iff_of_true (.inr (.inr rfl)) trivial
  | 1 =>
    have hdefault : new.torn 1 ≠ defaultLimits := by
      intro h
      have hhum : (255 : UInt8) = 30 := congrArg ConfigLimits.humidityNormalMin h
      exact absurd hhum (by decide)
    have hnew : new.torn 1 = new ↔ new.TailErased := by
      simp [ConfigLimits.ext_iff, ConfigLimits.torn, ConfigLimits.TailErased, eq_comm]
    have hold : new.torn 1 = old ↔ old.TailErased ∧ old.AgreeNormal new := by
      simp only [ConfigLimits.ext_iff, ConfigLimits.torn, ConfigLimits.TailErased,
        ConfigLimits.AgreeNormal, eq_comm]
      tauto
    rw [if_neg (Nat.succ_ne_zero 0), hold, hnew, CutHarmless]
    tauto
  | 2 =>
    have hdefault : new.torn 2 ≠ defaultLimits := by
      intro h
      have hbatt : (255 : UInt8) = 40 := congrArg ConfigLimits.batteryNormalMin h
      exact absurd hbatt (by decide)
    have hnew : new.torn 2 = new ↔ new.BatteryErased := by
      simp [ConfigLimits.ext_iff, ConfigLimits.torn, ConfigLimits.BatteryErased, eq_comm]
    have hold : new.torn 2 = old ↔ old.BatteryErased ∧ old.AgreeUpToBattery new := by
      simp only [ConfigLimits.ext_iff, ConfigLimits.torn, ConfigLimits.BatteryErased,
        ConfigLimits.AgreeUpToBattery, ConfigLimits.AgreeNormal, eq_comm]
      tauto
    rw [if_neg (Nat.succ_ne_zero 1), hold, hnew, CutHarmless]
    tauto
  | n + 3 =>
    refine iff_of_true (.inr (.inl ?_)) trivial
    rw [if_neg (Nat.succ_ne_zero _)]
    rfl

/-- The limits after the operator set the normal temperature range to 16–26 °C. -/
def retunedLimits : ConfigLimits :=
  { defaultLimits with tempNormalMin := 16, tempNormalMax := 26 }

/-- **A torn record is loaded.** The power fails after the first double word of a save over the
defaults: the next boot takes the magic for a complete record and loads the new normal range with
warning limits of `-1` and lower bounds of 255, which is neither of the two nor the defaults. -/
theorem configFlashLoad_torn :
    ∃ loaded, (configFlashLoad (configFlashSave (configFlashSave .erased true 3 defaultLimits).1
        true 1 retunedLimits).1 true 3).1 = loaded ∧
      loaded = ⟨16, 26, -1, -1, 255, 255, 255, 255, 255, 255⟩ ∧
      ¬(loaded = defaultLimits ∨ loaded = retunedLimits ∨ loaded = defaultLimits) :=
  ⟨_, configFlashLoad_save .., rfl, by decide⟩

end SubmarineMonitor

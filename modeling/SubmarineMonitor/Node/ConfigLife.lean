import SubmarineMonitor.Foundation.Machine
import SubmarineMonitor.Node.Routing

/-!
# The configuration over reboots

A node's life, from an erased page on: frames that `configuration_on_frame` handles, and boots, which
forget what is in RAM and run `config_create`. A boot begins a session, and of each session its loaded
limits are kept beside the limits that are, or at its end were, in RAM.

As long as every flash operation succeeds, a session begins with what the one before it ended with, and
the first one with the defaults (`configLife_remembers`).

## Sessions

A session begins with a boot and lasts until the next. Its loaded limits are history: no step looks
at them, and they are what the statement is about. There is no action for a loss of power: it is a
frame whose save stores fewer double words than there are, followed by a boot, or a boot alone. The
bytes of the page are the only thing that a boot takes over.

## What is assumed

`FlashWorks` asks that the erase succeeds and that all three double words of a record are stored, at
every boot and every frame. Without it the conclusion fails, and `Node.ConfigRecovery` says exactly
when. It is a guard on the actions, not on the states: every state that such a run reaches is
covered.

## What is left out

Between its frames a session also reads the limits (`config_get_limits`). That changes nothing, so
it is no action of this machine.
-/

open Machine

namespace SubmarineMonitor

/-- From one boot to the next. -/
structure ConfigSession where
  /-- What `config_create` loaded. -/
  loaded : ConfigLimits
  /-- What is in RAM, at last. -/
  limits : ConfigLimits
  deriving DecidableEq

/-- The page, and the sessions up to now, the current one first. -/
structure ConfigLife where
  page : FlashPage
  sessions : List ConfigSession

/-- An erased page, before the first boot. -/
def configUnbooted : ConfigLife :=
  ⟨.erased, []⟩

/-- What happens next, and how the flash operations of it end. -/
inductive ConfigLifeAction
  | boot (eraseOk : Bool) (programs : ℕ)
  | frame (f : Option TlvFrame) (eraseOk : Bool) (programs : ℕ)

/-- A boot, or a frame of the current session. -/
def configLifeStep (life : ConfigLife) : ConfigLifeAction → Option ConfigLife
  | .boot eraseOk programs =>
    let c := configCreate life.page eraseOk programs
    some ⟨c.page, ⟨c.limits, c.limits⟩ :: life.sessions⟩
  | .frame f eraseOk programs =>
    match life.sessions with
    | [] => none
    | session :: earlier =>
      let c := (configurationOnFrame ⟨session.limits, life.page⟩ f eraseOk programs).1
      some ⟨c.page, { session with limits := c.limits } :: earlier⟩

/-- Every HAL call succeeds: the erase, and the three double words of a record. -/
def ConfigLife.FlashWorks (_ : ConfigLife) : ConfigLifeAction → Prop
  | .boot eraseOk programs => eraseOk = true ∧ 3 ≤ programs
  | .frame _ eraseOk programs => eraseOk = true ∧ 3 ≤ programs

/-- Every boot loads what was in RAM before it, the first one the defaults. -/
structure ConfigLife.Remembers (life : ConfigLife) : Prop where
  later : life.sessions.IsChain fun later earlier ↦ later.loaded = earlier.limits
  first : ∀ session ∈ life.sessions.getLast?, session.loaded = defaultLimits

/-- What a boot finds: an erased page, or the limits in RAM. -/
structure ConfigLife.Ready (life : ConfigLife) : Prop extends life.Remembers where
  unbooted : life.sessions = [] → life.page = .erased
  saved : ∀ session ∈ life.sessions.head?, (Config.mk session.limits life.page).Saved

theorem ready_configUnbooted : configUnbooted.Ready where
  later := .nil
  first := fun _ h ↦ by cases h
  unbooted := fun _ ↦ rfl
  saved := fun _ h ↦ by cases h

variable {life life' : ConfigLife} {programs : ℕ}

/-- A boot from an erased page loads and saves the defaults. -/
theorem configCreate_erased (hprograms : 3 ≤ programs) :
    ∃ page, configCreate .erased true programs = ⟨defaultLimits, page⟩ ∧
      (Config.mk defaultLimits page).Saved := by
  have hmagic : ¬[FlashPage.erased 0, FlashPage.erased 1, FlashPage.erased 2,
      FlashPage.erased 3] = configMagic := by decide
  refine ⟨(configFlashSave .erased true programs defaultLimits).1, ?_,
    saved_configFlashSave _ _ hprograms⟩
  rw [configCreate, configFlashLoad, if_neg hmagic]

/-- Another one loads what is in RAM, and leaves the page alone. -/
theorem configCreate_of_saved {c : Config} (h : c.Saved) (eraseOk : Bool) (programs : ℕ) :
    configCreate c.page eraseOk programs = c := by
  rw [configCreate, h.load]

theorem ConfigLife.Ready.boot (h : life.Ready) (hprograms : 3 ≤ programs) :
    ∀ life' ∈ configLifeStep life (.boot true programs), life'.Ready := by
  rintro _ ⟨⟩
  obtain ⟨page, sessions⟩ := life
  cases sessions with
  | nil =>
    obtain rfl : page = .erased := h.unbooted rfl
    obtain ⟨page, hcreate, hsaved⟩ := configCreate_erased hprograms
    rw [hcreate]
    refine ⟨⟨.singleton _, ?_⟩, (fun h ↦ by cases h), ?_⟩
    · rintro _ ⟨⟩
      rfl
    · rintro _ ⟨⟩
      exact hsaved
  | cons session earlier =>
    have hsaved := h.saved session rfl
    rw [configCreate_of_saved hsaved]
    refine ⟨⟨List.isChain_cons_cons.2 ⟨rfl, h.later⟩, ?_⟩, (fun h ↦ by cases h), ?_⟩
    · rw [List.getLast?_cons_cons]
      exact h.first
    · rintro _ ⟨⟩
      exact hsaved

theorem ConfigLife.Ready.frame (h : life.Ready) (f : Option TlvFrame) (hprograms : 3 ≤ programs) :
    ∀ life' ∈ configLifeStep life (.frame f true programs), life'.Ready := by
  intro life' hstep
  obtain ⟨page, sessions⟩ := life
  cases sessions with
  | nil => cases hstep
  | cons session earlier =>
    cases hstep
    -- the session stays where it is in the list, with the same `loaded`
    refine ⟨⟨?_, ?_⟩, (fun h ↦ by cases h), ?_⟩
    · rw [List.isChain_cons]
      exact List.isChain_cons.1 h.later
    · cases earlier with
      | nil =>
        rintro _ ⟨⟩
        exact h.first session rfl
      | cons =>
        rw [List.getLast?_cons_cons]
        exact h.first
    · rintro _ ⟨⟩
      exact (h.saved session rfl).configurationOnFrame f hprograms

theorem ready_of_reaches (h : Reaches configLifeStep ConfigLife.FlashWorks configUnbooted life) :
    life.Ready := by
  refine h.invariant ready_configUnbooted ?_
  rintro s s' a hs hworks hstep
  cases a with
  | boot eraseOk programs =>
    obtain ⟨rfl, hprograms⟩ := hworks
    exact hs.boot hprograms s' hstep
  | frame f eraseOk programs =>
    obtain ⟨rfl, hprograms⟩ := hworks
    exact hs.frame f hprograms s' hstep

/-- **The limits outlast a reboot.** In every run of frames and boots from an erased page whose flash
operations succeed, each boot loads the limits that were in RAM at the end of the session before it,
and the first boot loads the defaults. -/
theorem configLife_remembers
    (h : Reaches configLifeStep ConfigLife.FlashWorks configUnbooted life) : life.Remembers :=
  (ready_of_reaches h).toRemembers

instance (life : ConfigLife) (a : ConfigLifeAction) : Decidable (life.FlashWorks a) :=
  match a with
  | .boot _ _ | .frame _ _ _ => inferInstanceAs (Decidable (_ ∧ _))

/-- Two boots, and in between the humidity bound is set to 35. -/
def humidityActions : List ConfigLifeAction :=
  [.boot true 3, .frame (some ⟨tlvTagSetHumNormal, 1, some [35]⟩) true 3, .boot true 3]

/-- The second boot loads what was set. -/
theorem configLife_remembers_humidity :
    ∃ life,
      exec (guarded configLifeStep ConfigLife.FlashWorks) configUnbooted humidityActions =
          some life ∧
        life.Remembers ∧ life.sessions.map ConfigSession.loaded =
          [{ defaultLimits with humidityNormalMin := 35 }, defaultLimits] := by
  have hrun : ((exec (guarded configLifeStep ConfigLife.FlashWorks) configUnbooted
      humidityActions).map fun life ↦ life.sessions.map ConfigSession.loaded) =
        some [{ defaultLimits with humidityNormalMin := 35 }, defaultLimits] := by
    decide +kernel
  obtain ⟨life, hlife, hloaded⟩ := Option.map_eq_some_iff.1 hrun
  exact ⟨life, hlife, configLife_remembers (reaches_of_exec hlife), hloaded⟩

end SubmarineMonitor

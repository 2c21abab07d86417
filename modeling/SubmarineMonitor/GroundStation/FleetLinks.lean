import SubmarineMonitor.GroundStation.Fleet

/-!
# What the calls do to the fleet

The links of a fleet are mirrored lists over the places of its submarines. Each operation is related
to the one on mirrored lists that it carries out: linking to `Mirrored.link`, and the loop of
`endMission` over the peers to `Mirrored.leave`.

`Effect` says once what a call can do: nothing, add a submarine, rewrite one of them, end a mission,
or make a link. Every invariant is proved from it.

## Two levels

On the lower level are vectors of places inside objects inside a vector. On the upper one is a
function from places to lists, for which `Foundation.Mirrored` has two operations. The two are
connected by an equation for each operation: the lists behind the call are the operation's, on the
lists before it. The equations need little of the invariant. Linking needs that both submarines are
combat submarines, and ending a mission that the lists are mirrored, since its loop visits only the
lists of the peers it knows.

The loop changes the lists of other objects while it walks over its own. No list that it walks over
is one that it writes, as nobody is its own peer; the translation walks over the list as it was at
the beginning, and that is the same for this reason.

## What a call can do

`Effect` has the calls sorted by what they do and not by their names. Setters, assignments and
messages are one kind, with `Rewrites` for what they may change; a call that is refused is another
one, with nothing changed. `effect_of_perform` is the only proof that goes through all calls, and
the invariants, the counts and the statements on single calls are proved from it.

## What is left out

What the setters write. `Rewrites` says only what the invariants ask for: the serial number, the
links and the past missions stay, and a submarine is assigned just when it has a mission, if it was
so before.
-/

open Mirrored

namespace SubmarineMonitor.Fleet

/-! ### One submarine -/

namespace Submarine

@[simp] theorem onLinks_serialNumber (g : List ℕ → List ℕ) (s : Submarine) :
    (s.onLinks g).serialNumber = s.serialNumber := by
  rw [onLinks]
  split <;> rfl

@[simp] theorem onLinks_assigned (g : List ℕ → List ℕ) (s : Submarine) :
    (s.onLinks g).assigned = s.assigned := by
  rw [onLinks]
  split <;> rfl

theorem onLinks_onLinks (g g' : List ℕ → List ℕ) (s : Submarine) :
    (s.onLinks g).onLinks g' = s.onLinks (g' ∘ g) := by
  obtain ⟨_, _, _, _, _ | _⟩ := s <;> rfl

/-- The list is not written where it would not change. -/
theorem onLinks_eq_self {g : List ℕ → List ℕ} {s : Submarine}
    (h : g s.linkedSubmarines = s.linkedSubmarines) : s.onLinks g = s := by
  obtain ⟨serialNumber, name, assigned, received, _ | c⟩ := s
  · rfl
  · have hc : g c.linkedSubmarines = c.linkedSubmarines := h
    simp only [onLinks, hc]

/-- The combat part of a submarine, but for its links. -/
theorem combat?_onLinks (g : List ℕ → List ℕ) (s : Submarine) :
    (s.onLinks g).combat? =
      s.combat?.map fun c ↦ { c with linkedSubmarines := g c.linkedSubmarines } := by
  obtain ⟨_, _, _, _, _ | _⟩ := s <;> rfl

theorem linkedSubmarines_eq (s : Submarine) :
    s.linkedSubmarines = (s.combat?.map CombatSubmarine.linkedSubmarines).getD [] := by
  obtain ⟨_, _, _, _, _ | _⟩ := s <;> rfl

/-- Writing a list that an absent one passes too. -/
theorem linkedSubmarines_onLinks {g : List ℕ → List ℕ} {s : Submarine}
    (h : s.combat?.isSome ∨ g [] = []) :
    (s.onLinks g).linkedSubmarines = g s.linkedSubmarines := by
  obtain ⟨_, _, _, _, _ | _⟩ := s
  · have hg : g [] = [] := h.resolve_left (by simp [combat?])
    exact hg.symm
  · rfl

/-- A submarine behind the end of its mission. -/
def ended (s : Submarine) : Submarine :=
  match s.type with
  | .research _ => { s with assigned := false }
  | .combat c =>
    { s with assigned := false, type := .combat { c.archive with linkedSubmarines := [] } }

theorem linkedSubmarines_ended (s : Submarine) : s.ended.linkedSubmarines = [] := by
  obtain ⟨_, _, _, _, _ | _⟩ := s <;> rfl

end Submarine

/-! ### The links of the fleet -/

namespace FleetManager

variable {f : FleetManager}

theorem linkedSubmarines_of_some {i : ℕ} {s : Submarine} (h : f.submarines[i]? = some s) :
    f.linkedSubmarines i = s.linkedSubmarines := by
  rw [linkedSubmarines, h]

theorem linkedSubmarines_of_none {i : ℕ} (h : f.submarines[i]? = none) :
    f.linkedSubmarines i = [] := by
  rw [linkedSubmarines, h]

/-- Whoever has a link is a combat submarine of the fleet. -/
theorem isSome_combat?_of_mem {i j : ℕ} (h : j ∈ f.linkedSubmarines i) : (f.combat? i).isSome := by
  rw [linkedSubmarines] at h
  split at h
  · cases h
  · rename_i s hs
    rw [combat?, hs, Option.bind_some]
    rw [Submarine.linkedSubmarines_eq] at h
    cases hc : s.combat? with
    | none =>
      rw [hc] at h
      cases h
    | some c => rfl

theorem getElem?_onLinks (i j : ℕ) (g : List ℕ → List ℕ) :
    (f.onLinks i g).submarines[j]? =
      f.submarines[j]?.map fun s ↦ if i = j then s.onLinks g else s := by
  rw [onLinks, List.getElem?_modify]
  rfl

theorem linkedSubmarines_onLinks {i : ℕ} {g : List ℕ → List ℕ} (h : (f.combat? i).isSome) :
    (f.onLinks i g).linkedSubmarines = Function.update f.linkedSubmarines i
      (g (f.linkedSubmarines i)) := by
  obtain ⟨c, hc⟩ := Option.isSome_iff_exists.1 h
  obtain ⟨s, hs, hsc⟩ := Option.bind_eq_some_iff.1 hc
  funext j
  rcases eq_or_ne j i with rfl | hj
  · rw [Function.update_self, linkedSubmarines_of_some hs]
    refine (linkedSubmarines_of_some (s := s.onLinks g) ?_).trans
      (Submarine.linkedSubmarines_onLinks (.inl (by rw [hsc, Option.isSome_some])))
    rw [getElem?_onLinks, hs, Option.map_some, if_pos rfl]
  · rw [Function.update_of_ne hj, linkedSubmarines, getElem?_onLinks]
    simp only [if_neg hj.symm, Option.map_id']
    rfl

theorem isSome_combat?_onLinks (i j : ℕ) (g : List ℕ → List ℕ) :
    ((f.onLinks i g).combat? j).isSome = (f.combat? j).isSome := by
  rw [combat?, combat?, getElem?_onLinks]
  cases f.submarines[j]? with
  | none => rfl
  | some s =>
    rw [Option.map_some, Option.bind_some, Option.bind_some]
    split
    · rw [Submarine.combat?_onLinks, Option.isSome_map]
    · rfl

/-- **`linkSubmarine` makes a link of mirrored lists.** -/
theorem linkedSubmarines_linkSubmarine {i j : ℕ} (hi : (f.combat? i).isSome)
    (hj : (f.combat? j).isSome) (hij : i ≠ j) :
    ((f.onLinks i (· ++ [j])).onLinks j (· ++ [i])).linkedSubmarines =
      link f.linkedSubmarines i j := by
  rw [linkedSubmarines_onLinks (by rwa [isSome_combat?_onLinks]), linkedSubmarines_onLinks hi,
    Function.update_of_ne hij.symm]
  rfl

/-! ### The end of a mission -/

/-- The loop over the peers takes the submarine out of the list of each. -/
theorem getElem?_unlinkPeers (this j : ℕ) (peers : List ℕ) :
    (f.unlinkPeers this peers).submarines[j]? =
      f.submarines[j]?.map fun s ↦
        if j ∈ peers then s.onLinks (List.filter (· ≠ this)) else s := by
  induction peers generalizing f with
  | nil => simp [unlinkPeers]
  | cons peer peers ih =>
    have hfold : f.unlinkPeers this (peer :: peers) =
        (f.onLinks peer (List.filter (· ≠ this))).unlinkPeers this peers := rfl
    have htwice : (List.filter (· ≠ this) ∘ List.filter (· ≠ this)) =
        (List.filter (· ≠ this) : List ℕ → List ℕ) := by
      funext l
      rw [Function.comp_apply, List.filter_filter]
      simp only [Bool.and_self]
    rw [hfold, ih, getElem?_onLinks, Option.map_map]
    congr 1
    funext s
    rcases eq_or_ne peer j with rfl | hne
    · simp only [Function.comp_apply, if_true, List.mem_cons_self]
      split
      · rw [Submarine.onLinks_onLinks, htwice]
      · rfl
    · simp only [Function.comp_apply, if_neg hne, List.mem_cons, hne.symm, false_or]

/-- The fleet without the mission of one submarine, and without its links. -/
def ended (f : FleetManager) (this : ℕ) : FleetManager :=
  ⟨f.submarines.mapIdx fun j s ↦
    if j = this then s.ended else s.onLinks (List.filter (· ≠ this))⟩

theorem getElem?_ended (this j : ℕ) :
    (f.ended this).submarines[j]? = f.submarines[j]?.map fun s ↦
      if j = this then s.ended else s.onLinks (List.filter (· ≠ this)) := by
  rw [ended, List.getElem?_mapIdx]

/-- **The loop reaches every list that has the submarine.** A list the loop does not visit does not
have it, since the links are mirrored. -/
theorem endMission_of_combat (h : Mirrored f.linkedSubmarines) {this : ℕ} {s : Submarine}
    {c : CombatSubmarine} (hs : f.submarines[this]? = some s) (hc : s.type = .combat c)
    (hassigned : s.assigned = true) : f.endMission this s = (f.ended this, true) := by
  have hlinks : f.linkedSubmarines this = c.linkedSubmarines := by
    rw [linkedSubmarines_of_some hs, Submarine.linkedSubmarines, hc]
  have hlt : this < f.submarines.length := (List.getElem?_eq_some_iff.1 hs).1
  have hbase : s.endMission = ({ s with assigned := false }, true) := if_pos hassigned
  rw [endMission, hbase, hc]
  simp only
  refine Prod.ext (congrArg FleetManager.mk (List.ext_getElem? fun j ↦ ?_)) rfl
  change ((_ : FleetManager).onLinks this _).submarines[j]? = (f.ended this).submarines[j]?
  rw [getElem?_onLinks, getElem?_unlinkPeers, getElem?_ended, set]
  rcases eq_or_ne j this with rfl | hj
  · have hself : j ∉ c.linkedSubmarines := hlinks ▸ h.irrefl j
    simp only [List.getElem?_set_self hlt, hs, Option.map_some, if_true, if_neg hself,
      Submarine.ended, hc]
    rfl
  · rw [List.getElem?_set_ne hj.symm]
    cases hjs : f.submarines[j]? with
    | none => rfl
    | some t =>
      simp only [Option.map_some, if_neg hj, if_neg hj.symm]
      split
      · rfl
      · rename_i hmem
        rw [Submarine.onLinks_eq_self]
        rw [← linkedSubmarines_of_some hjs]
        exact h.filter_eq_self (hlinks ▸ hmem)

theorem linkedSubmarines_ended (f : FleetManager) (this : ℕ) :
    (f.ended this).linkedSubmarines = leave f.linkedSubmarines this := by
  funext j
  have hj := getElem?_ended (f := f) this j
  cases hs : f.submarines[j]? with
  | none =>
    rw [hs] at hj
    rw [linkedSubmarines_of_none hj, leave, linkedSubmarines_of_none hs]
    split <;> rfl
  | some s =>
    rw [hs, Option.map_some] at hj
    rw [linkedSubmarines_of_some hj, leave, linkedSubmarines_of_some hs]
    split
    · exact Submarine.linkedSubmarines_ended s
    · exact Submarine.linkedSubmarines_onLinks (.inr rfl)

end FleetManager

/-! ### Rewriting one submarine -/

/-- What a call that is not about links or the end of a combat mission does to the submarine it is
made on. -/
structure Submarine.Rewrites (s s' : Submarine) : Prop where
  serialNumber : s'.serialNumber = s.serialNumber
  linked : s'.linkedSubmarines = s.linkedSubmarines
  combat : ∀ c', s'.combat? = some c' → ∃ c, s.combat? = some c ∧
    c'.missionHistory = c.missionHistory ∧ (s.assigned = true → s'.assigned = true) ∧
    ((s.assigned = true ↔ c.currentMission.isSome) →
      (s'.assigned = true ↔ c'.currentMission.isSome))

namespace Submarine

variable {s : Submarine}

theorem Rewrites.refl (s : Submarine) : s.Rewrites s :=
  ⟨rfl, rfl, fun c hc ↦ ⟨c, hc, rfl, id, id⟩⟩

theorem setName_rewrites (s : Submarine) (name : List UInt8) : s.Rewrites (s.setName name).1 := by
  rw [setName]
  split
  · exact .refl s
  · exact ⟨rfl, rfl, fun c hc ↦ ⟨c, hc, rfl, id, id⟩⟩

theorem receiveMessage_rewrites (s : Submarine) (m : Message) : s.Rewrites (s.receiveMessage m) :=
  ⟨rfl, rfl, fun c hc ↦ ⟨c, hc, rfl, id, id⟩⟩

theorem type_of_research? {r : ResearchSubmarine} (h : s.research? = some r) :
    s.type = .research r := by
  obtain ⟨_, _, _, _, _ | _⟩ := s
  · exact congrArg SubmarineType.research (Option.some.inj h)
  · cases h

theorem type_of_combat? {c : CombatSubmarine} (h : s.combat? = some c) : s.type = .combat c := by
  obtain ⟨_, _, _, _, _ | _⟩ := s
  · cases h
  · exact congrArg SubmarineType.combat (Option.some.inj h)

/-- A research submarine has no links and no mission to keep. -/
theorem rewrites_of_research {r r' : ResearchSubmarine} (h : s.type = .research r)
    (assigned : Bool) : s.Rewrites { s with type := .research r', assigned := assigned } where
  serialNumber := rfl
  linked := by
    rw [linkedSubmarines, linkedSubmarines, h]
  combat c' hc' := by cases hc'

/-- A combat submarine whose mission is written, or written anew. -/
theorem rewrites_of_combat {c : CombatSubmarine} (h : s.combat? = some c) {assigned : Bool}
    (hassigned : s.assigned = true → assigned = true) {m : Option Mission}
    (hm : (s.assigned = true ↔ c.currentMission.isSome) → (assigned = true ↔ m.isSome)) :
    s.Rewrites { s with type := .combat { c with currentMission := m }, assigned := assigned } where
  serialNumber := rfl
  linked := by
    rw [linkedSubmarines, linkedSubmarines, type_of_combat? h]
  combat c' hc' := by
    obtain rfl := Option.some.inj hc'
    exact ⟨c, h, rfl, hassigned, hm⟩

end Submarine

theorem ResearchSubmarine.assignMission_rewrites {s : Submarine} {r : ResearchSubmarine}
    (h : s.research? = some r) (topic : List UInt8) (researchers : List (List UInt8)) :
    s.Rewrites (ResearchSubmarine.assignMission s topic researchers).1 := by
  rw [assignMission]
  split
  · exact .refl s
  · exact Submarine.rewrites_of_research (Submarine.type_of_research? h) true

theorem ResearchSubmarine.setResearchTopic_rewrites {s : Submarine} {r : ResearchSubmarine}
    (h : s.research? = some r) (topic : List UInt8) :
    s.Rewrites (r.setResearchTopic s topic).1 := by
  rw [setResearchTopic]
  split
  · exact .refl s
  · exact Submarine.rewrites_of_research (Submarine.type_of_research? h) s.assigned

theorem CombatSubmarine.assignMission_rewrites {s : Submarine} {c : CombatSubmarine}
    (h : s.combat? = some c) (description commanderName : List UInt8) (personnelCount : ℤ) :
    s.Rewrites (c.assignMission s description commanderName personnelCount).1 := by
  rw [assignMission]
  split
  · exact .refl s
  · exact Submarine.rewrites_of_combat h (fun _ ↦ rfl) fun _ ↦ by simp

theorem CombatSubmarine.setMission_rewrites {s : Submarine} {c : CombatSubmarine} {m : Mission}
    (h : s.combat? = some c) (hm : c.currentMission = some m) (m' : Mission × Bool) :
    s.Rewrites (c.setMission s m').1 := by
  refine Submarine.rewrites_of_combat h id fun hiff ↦ hiff.trans ?_
  rw [hm, Option.isSome_some, Option.isSome_some]

/-! ### What a call can do -/

/-- The effect of a call on a fleet, with what it returns. -/
inductive Effect (f : FleetManager) (call : Call) : FleetManager → Bool → Prop
  | refused : Effect f call f false
  | added {s : Submarine} (hcall : ∀ k, call ≠ .endMission k) (hserial : s.serialNumber ≠ [])
      (hnew : ∀ t ∈ f.submarines, t.serialNumber ≠ s.serialNumber)
      (hlinked : s.linkedSubmarines = []) (hassigned : s.assigned = false)
      (hcombat : ∀ c, s.combat? = some c → c.currentMission = none ∧ c.missionHistory = []) :
      Effect f call ⟨f.submarines ++ [s]⟩ true
  | rewritten {i : ℕ} {s s' : Submarine} {b : Bool}
      (hcall : ∀ k, call = .endMission k → k = i ∧ f.combat? i = none)
      (hs : f.submarines[i]? = some s) (h : s.Rewrites s') : Effect f call (f.set i s') b
  | ended {i : ℕ} {s : Submarine} {c : CombatSubmarine} (hcall : call = .endMission i)
      (hs : f.submarines[i]? = some s) (hc : s.combat? = some c) (hassigned : s.assigned = true) :
      Effect f call (f.ended i) true
  | linked {i j : ℕ} (hcall : call = .linkSubmarine i j) (hi : (f.combat? i).isSome)
      (hj : (f.combat? j).isSome) (hij : i ≠ j) (hnew : j ∉ f.linkedSubmarines i) :
      Effect f call ((f.onLinks i (· ++ [j])).onLinks j (· ++ [i])) true

namespace FleetManager

variable {f f' : FleetManager} {call : Call} {b : Bool}

theorem effect_add {serialNumber name : List UInt8} {type : SubmarineType}
    (hlinked : ∀ c, type = .combat c →
      c.linkedSubmarines = [] ∧ c.currentMission = none ∧ c.missionHistory = [])
    (hcall : ∀ k, call ≠ .endMission k) :
    Effect f call (f.add serialNumber name type).1 (f.add serialNumber name type).2 := by
  rw [add]
  split
  · exact .refused
  · rename_i h
    simp only [not_or, Bool.not_eq_true, hasSerial, findBySerial, List.findIdx?_isSome,
      List.any_eq_false, decide_eq_true_eq] at h
    refine .added hcall h.1 h.2.2 ?_ rfl fun c hc ↦ ?_
    · cases type with
      | research r => rfl
      | combat c => exact (hlinked c rfl).1
    · exact (hlinked c (Submarine.type_of_combat? hc)).2

theorem effect_onSubmarine {i : ℕ} {g : Submarine → Option (Submarine × Bool)}
    (hcall : ∀ k, call ≠ .endMission k) (hg : ∀ s r, g s = some r → s.Rewrites r.1)
    (h : f.onSubmarine i g = some (f', b)) : Effect f call f' b := by
  obtain ⟨s, hs, h⟩ := Option.bind_eq_some_iff.1 h
  obtain ⟨r, hr, h⟩ := Option.bind_eq_some_iff.1 h
  obtain ⟨rfl, rfl⟩ := Prod.ext_iff.1 (Option.some.inj h)
  exact .rewritten (fun k hk ↦ absurd hk (hcall k)) hs (hg s r hr)

theorem effect_onResearch {i : ℕ} {g : Submarine → ResearchSubmarine → Submarine × Bool}
    (hcall : ∀ k, call ≠ .endMission k)
    (hg : ∀ (s : Submarine) r, s.research? = some r → s.Rewrites (g s r).1)
    (h : f.onResearch i g = some (f', b)) : Effect f call f' b := by
  refine effect_onSubmarine hcall (fun s r hr ↦ ?_) h
  obtain ⟨r', hr', rfl⟩ := Option.map_eq_some_iff.1 hr
  exact hg s r' hr'

theorem effect_onCombat {i : ℕ} {g : Submarine → CombatSubmarine → Submarine × Bool}
    (hcall : ∀ k, call ≠ .endMission k)
    (hg : ∀ (s : Submarine) c, s.combat? = some c → s.Rewrites (g s c).1)
    (h : f.onCombat i g = some (f', b)) : Effect f call f' b := by
  refine effect_onSubmarine hcall (fun s r hr ↦ ?_) h
  obtain ⟨c, hc, rfl⟩ := Option.map_eq_some_iff.1 hr
  exact hg s c hc

theorem effect_onMission {i : ℕ} {g : Mission → Mission × Bool}
    (hcall : ∀ k, call ≠ .endMission k) (h : f.onMission i g = some (f', b)) :
    Effect f call f' b := by
  refine effect_onSubmarine hcall (fun s r hr ↦ ?_) h
  obtain ⟨c, hc, hr⟩ := Option.bind_eq_some_iff.1 hr
  obtain ⟨m, hm, hr⟩ := Option.bind_eq_some_iff.1 hr
  obtain rfl := Option.some.inj hr
  exact CombatSubmarine.setMission_rewrites hc hm _

/-- A mission that is not running is not ended. -/
theorem endMission_of_not_assigned {i : ℕ} {s : Submarine} (h : s.assigned = false) :
    f.endMission i s = (f, false) := by
  rw [endMission, Submarine.endMission, h]
  rfl

theorem effect_endMission (hf : Mirrored f.linkedSubmarines) {i : ℕ} {s : Submarine}
    (hs : f.submarines[i]? = some s) :
    Effect f (.endMission i) (f.endMission i s).1 (f.endMission i s).2 := by
  rcases Bool.eq_false_or_eq_true s.assigned with hassigned | hassigned
  · cases htype : s.type with
    | research r =>
      have hend : f.endMission i s = (f.set i { s with assigned := false }, true) := by
        rw [endMission, Submarine.endMission, if_pos hassigned, htype]
      have hcombat : f.combat? i = none := by
        rw [combat?, hs, Option.bind_some, Submarine.combat?, htype]
      rw [hend]
      refine .rewritten (fun k hk ↦ ⟨(Call.endMission.inj hk).symm, hcombat⟩) hs ?_
      have hrewrites : s.Rewrites { s with type := .research r, assigned := false } :=
        Submarine.rewrites_of_research htype false
      rwa [← htype] at hrewrites
    | combat c =>
      rw [endMission_of_combat hf hs htype hassigned]
      exact .ended rfl hs (by rw [Submarine.combat?, htype]) hassigned
  · rw [endMission_of_not_assigned hassigned]
    exact .refused

/-- **What a call can do.** -/
theorem effect_of_perform (hf : Mirrored f.linkedSubmarines)
    (h : f.perform call = some (f', b)) : Effect f call f' b := by
  cases call with
  | addResearchSubmarine serialNumber name =>
    obtain ⟨rfl, rfl⟩ := Prod.ext_iff.1 (Option.some.inj h)
    exact effect_add (fun c hc ↦ by cases hc) fun _ ↦ Call.noConfusion
  | addCombatSubmarine serialNumber name host port =>
    obtain ⟨rfl, rfl⟩ := Prod.ext_iff.1 (Option.some.inj h)
    refine effect_add (fun c hc ↦ ?_) fun _ ↦ Call.noConfusion
    obtain rfl := SubmarineType.combat.inj hc
    exact ⟨rfl, rfl, rfl⟩
  | setName i name =>
    refine effect_onSubmarine (fun _ ↦ Call.noConfusion) (fun s r hr ↦ ?_) h
    obtain rfl := Option.some.inj hr
    exact s.setName_rewrites name
  | assignResearch i topic researchers =>
    exact effect_onResearch (fun _ ↦ Call.noConfusion)
      (fun _ _ hr ↦ ResearchSubmarine.assignMission_rewrites hr topic researchers) h
  | setResearchTopic i topic =>
    exact effect_onResearch (fun _ ↦ Call.noConfusion)
      (fun _ _ hr ↦ ResearchSubmarine.setResearchTopic_rewrites hr topic) h
  | setResearchers i researchers =>
    exact effect_onResearch (fun _ ↦ Call.noConfusion) (fun s _ hr ↦
      Submarine.rewrites_of_research (Submarine.type_of_research? hr) s.assigned) h
  | assignCombat i description commanderName personnelCount =>
    exact effect_onCombat (fun _ ↦ Call.noConfusion) (fun _ _ hc ↦
      CombatSubmarine.assignMission_rewrites hc description commanderName personnelCount) h
  | setDescription i description => exact effect_onMission (fun _ ↦ Call.noConfusion) h
  | setCommanderName i commanderName => exact effect_onMission (fun _ ↦ Call.noConfusion) h
  | setPersonnelCount i personnelCount => exact effect_onMission (fun _ ↦ Call.noConfusion) h
  | endMission i =>
    obtain ⟨s, hs, hend⟩ := Option.map_eq_some_iff.1 h
    have heffect := effect_endMission hf hs
    rwa [hend] at heffect
  | linkSubmarine i j =>
    obtain ⟨ci, hi, h⟩ := Option.bind_eq_some_iff.1 h
    obtain ⟨cj, hj, h⟩ := Option.bind_eq_some_iff.1 h
    obtain ⟨rfl, rfl⟩ := Prod.ext_iff.1 (Option.some.inj h)
    rw [linkSubmarine]
    split
    · exact .refused
    · rename_i hnot
      rw [not_or, isLinkedTo, List.contains_iff_mem] at hnot
      exact .linked rfl (by rw [hi, Option.isSome_some]) (by rw [hj, Option.isSome_some])
        (Ne.symm hnot.1) hnot.2
  | sendMessage i j content =>
    obtain ⟨ci, hi, h⟩ := Option.bind_eq_some_iff.1 h
    obtain ⟨cj, hj, h⟩ := Option.bind_eq_some_iff.1 h
    obtain ⟨r, hr, h⟩ := Option.bind_eq_some_iff.1 h
    obtain ⟨rfl, rfl⟩ := Prod.ext_iff.1 (Option.some.inj h)
    rw [sendMessage]
    split
    · exact .rewritten (fun k hk ↦ Call.noConfusion hk) hr (r.receiveMessage_rewrites _)
    · exact .refused

end FleetManager

end SubmarineMonitor.Fleet

import SubmarineMonitor.GroundStation.FleetLinks

/-!
# Every fleet that the calls can make

Whatever is called in whatever order, the fleet stays `Consistent`: its serial numbers tell the
submarines apart, the links are mirrored, and a combat submarine is assigned just when it has a
mission (`fleet_consistent`). So the end of a mission takes away the links of that submarine and no
others (`endMission_exact`).

Linking asks nothing about missions. Two submarines that are linked share a mission as long as only
submarines on a mission are linked (`linked_onMission`).

## One invariant

`Consistent` is the conjunction that the calls keep. Its parts need one another: the end of a
mission keeps the links mirrored only because they were, and the count of past missions is right
only because a submarine on a mission has one. So they are proved together, from the one description
of what a call can do (`Effect` in `GroundStation.FleetLinks`), by cases on its five kinds and not
on the calls.

`Origin` says for a submarine behind a call where it was before. The statements about a single
submarine go through it, as the fleet behind a call may have one submarine more.

## What is promised and what is not

`fleet_sound` is what the operator may rely on in every fleet. That linked submarines share a
mission is not among it. The header of the class describes links that way, and the code links any
two combat submarines; so it holds in the runs in which links are made on missions only, and
`linked_without_mission` is a run in which it does not.

`endMission_exact` has both outcomes of the call, and what has not changed: the lists of all other
submarines, but for the one that left.

## What is left out

Submarines are never removed, so no invariant speaks of that. Texts may be anything that the checks
for emptiness let through.
-/

open Machine Mirrored

namespace SubmarineMonitor.Fleet

/-- The invariant of a fleet and the record of its calls. -/
structure Record.Consistent (r : Record) : Prop where
  serial_ne : ∀ s ∈ r.fleet.submarines, s.serialNumber ≠ []
  serial_nodup : (r.fleet.submarines.map Submarine.serialNumber).Nodup
  mirrored : Mirrored r.fleet.linkedSubmarines
  mission : ∀ {i : ℕ} {s : Submarine} {c : CombatSubmarine}, r.fleet.submarines[i]? = some s →
    s.combat? = some c → (s.assigned = true ↔ c.currentMission.isSome)
  /-- Every mission that ended is in the history. -/
  history : ∀ {i : ℕ} {s : Submarine} {c : CombatSubmarine}, r.fleet.submarines[i]? = some s →
    s.combat? = some c → c.missionHistory.length = r.missionsEnded i
  /-- No mission has ended of a submarine that is not there yet. -/
  calls_lt : ∀ {i : ℕ}, (Call.endMission i, true) ∈ r.calls → i < r.fleet.submarines.length

/-! ### Writing and adding submarines -/

namespace FleetManager

variable {f : FleetManager}

theorem getElem?_set {i : ℕ} {s : Submarine} (hs : f.submarines[i]? = some s) (s' : Submarine)
    (j : ℕ) : (f.set i s').submarines[j]? = if i = j then some s' else f.submarines[j]? := by
  rw [set, List.getElem?_set, if_pos (List.getElem?_eq_some_iff.1 hs).1]

theorem linkedSubmarines_set {i : ℕ} {s s' : Submarine} (hs : f.submarines[i]? = some s)
    (h : s'.linkedSubmarines = s.linkedSubmarines) :
    (f.set i s').linkedSubmarines = f.linkedSubmarines := by
  funext j
  rw [linkedSubmarines, linkedSubmarines, getElem?_set hs]
  rcases eq_or_ne i j with rfl | hij
  · rw [if_pos rfl, hs]
    exact h
  · rw [if_neg hij]

theorem linkedSubmarines_append {s : Submarine} (h : s.linkedSubmarines = []) :
    (FleetManager.mk (f.submarines ++ [s])).linkedSubmarines = f.linkedSubmarines := by
  funext j
  rw [linkedSubmarines, linkedSubmarines]
  rcases Nat.lt_trichotomy j f.submarines.length with hj | rfl | hj
  · rw [List.getElem?_append_left hj]
  · rw [List.getElem?_concat_length, List.getElem?_eq_none (Nat.le_refl _)]
    exact h
  · rw [List.getElem?_eq_none (by simpa using Nat.succ_le_of_lt hj),
      List.getElem?_eq_none (Nat.le_of_lt hj)]

/-- What is at a place behind the addition of a submarine. -/
theorem getElem?_append_eq_some {s t : Submarine} {j : ℕ}
    (h : (f.submarines ++ [s])[j]? = some t) :
    f.submarines[j]? = some t ∨ j = f.submarines.length ∧ t = s := by
  rcases Nat.lt_or_ge j f.submarines.length with hj | hj
  · rw [List.getElem?_append_left hj] at h
    exact .inl h
  · rw [List.getElem?_append_right hj, List.getElem?_singleton] at h
    split at h
    · exact .inr ⟨by omega, (Option.some.inj h).symm⟩
    · cases h

/-- Serial numbers are never rewritten. -/
theorem map_serialNumber_onLinks (i : ℕ) (g : List ℕ → List ℕ) :
    (f.onLinks i g).submarines.map Submarine.serialNumber =
      f.submarines.map Submarine.serialNumber := by
  refine List.ext_getElem? fun j ↦ ?_
  rw [List.getElem?_map, List.getElem?_map, getElem?_onLinks, Option.map_map]
  congr 1
  funext s
  rw [Function.comp_apply]
  split
  · exact Submarine.onLinks_serialNumber g s
  · rfl

end FleetManager

/-! ### Behind the end of a mission -/

theorem CombatSubmarine.currentMission_archive (c : CombatSubmarine) :
    c.archive.currentMission = none := by
  rw [archive]
  split
  · assumption
  · rfl

theorem CombatSubmarine.missionHistory_archive {c : CombatSubmarine} {m : Mission}
    (h : c.currentMission = some m) : c.archive.missionHistory = c.missionHistory ++ [m] := by
  rw [archive, h]

theorem Submarine.serialNumber_ended (s : Submarine) : s.ended.serialNumber = s.serialNumber := by
  obtain ⟨_, _, _, _, _ | _⟩ := s <;> rfl

theorem Submarine.assigned_ended (s : Submarine) : s.ended.assigned = false := by
  obtain ⟨_, _, _, _, _ | _⟩ := s <;> rfl

theorem Submarine.combat?_ended {s : Submarine} {c : CombatSubmarine} (h : s.combat? = some c) :
    s.ended.combat? = some { c.archive with linkedSubmarines := [] } := by
  rw [ended, Submarine.type_of_combat? h]
  rfl

/-! ### Before and behind a call -/

namespace FleetManager

variable {f f' : FleetManager} {call : Call} {b : Bool}

theorem map_serialNumber_ended (this : ℕ) :
    (f.ended this).submarines.map Submarine.serialNumber =
      f.submarines.map Submarine.serialNumber := by
  refine List.ext_getElem? fun j ↦ ?_
  rw [List.getElem?_map, List.getElem?_map, getElem?_ended, Option.map_map]
  congr 1
  funext s
  rw [Function.comp_apply]
  split
  · exact s.serialNumber_ended
  · exact Submarine.onLinks_serialNumber _ s

/-- A call keeps the serial numbers, or adds a new one. -/
theorem map_serialNumber_of_effect (h : Effect f call f' b) :
    f'.submarines.map Submarine.serialNumber = f.submarines.map Submarine.serialNumber ∨
    ∃ serial : List UInt8, serial ≠ [] ∧ serial ∉ f.submarines.map Submarine.serialNumber ∧
      f'.submarines.map Submarine.serialNumber =
        f.submarines.map Submarine.serialNumber ++ [serial] := by
  cases h with
  | refused => exact .inl rfl
  | @added s hcall hserial hnew hlinked hassigned hcombat =>
    refine .inr ⟨s.serialNumber, hserial, fun hmem ↦ ?_, List.map_append⟩
    obtain ⟨t, ht, heq⟩ := List.mem_map.1 hmem
    exact hnew t ht heq
  | @rewritten i s s' b hcall hs h =>
    refine .inl (List.ext_getElem? fun j ↦ ?_)
    rw [List.getElem?_map, List.getElem?_map, getElem?_set hs]
    rcases eq_or_ne i j with rfl | hij
    · rw [if_pos rfl, hs, Option.map_some, Option.map_some, h.serialNumber]
    · rw [if_neg hij]
  | ended hcall hs hc hassigned => exact .inl (map_serialNumber_ended _)
  | linked hcall hi hj hij hnew =>
    exact .inl ((map_serialNumber_onLinks _ _).trans (map_serialNumber_onLinks _ _))

/-- No submarine is ever removed. -/
theorem length_le_of_effect (h : Effect f call f' b) :
    f.submarines.length ≤ f'.submarines.length := by
  have hmap : ∀ g : FleetManager, g.submarines.length =
      (g.submarines.map Submarine.serialNumber).length := fun g ↦ (List.length_map _).symm
  rw [hmap, hmap]
  rcases map_serialNumber_of_effect h with heq | ⟨serial, -, -, heq⟩
  · exact heq ▸ Nat.le_refl _
  · rw [heq, List.length_append]
    exact Nat.le_add_right _ _

/-- A mission is ended of a submarine of the fleet. -/
theorem lt_of_effect {k : ℕ} (h : Effect f (.endMission k) f' true) : k < f.submarines.length := by
  cases h with
  | added hcall hserial hnew hlinked hassigned hcombat => exact absurd rfl (hcall k)
  | rewritten hcall hs h => exact (hcall k rfl).1 ▸ (List.getElem?_eq_some_iff.1 hs).1
  | ended hcall hs hc hassigned =>
    exact Call.endMission.inj hcall ▸ (List.getElem?_eq_some_iff.1 hs).1
  | linked hcall hi hj hij hnew => cases hcall

theorem mirrored_of_effect (hf : Mirrored f.linkedSubmarines) (h : Effect f call f' b) :
    Mirrored f'.linkedSubmarines := by
  cases h with
  | refused => exact hf
  | added hcall hserial hnew hlinked hassigned hcombat => rwa [linkedSubmarines_append hlinked]
  | rewritten hcall hs h => rwa [linkedSubmarines_set hs h.linked]
  | ended hcall hs hc hassigned =>
    rw [linkedSubmarines_ended]
    exact hf.left _
  | linked hcall hi hj hij hnew =>
    rw [linkedSubmarines_linkSubmarine hi hj hij]
    exact hf.linked hij hnew

/-- Where a combat submarine of the fleet was before the call. -/
inductive Origin (f : FleetManager) (call : Call) (b : Bool) (k : ℕ) (s' : Submarine)
    (c' : CombatSubmarine) : Prop
  | added (hk : k = f.submarines.length) (hcall : ∀ i, call ≠ .endMission i)
      (hassigned : s'.assigned = false) (hmission : c'.currentMission = none)
      (hhistory : c'.missionHistory = [])
  | ended {s : Submarine} {c : CombatSubmarine} (hcall : call = .endMission k) (hb : b = true)
      (hs : f.submarines[k]? = some s) (hc : s.combat? = some c) (hassigned : s.assigned = true)
      (hs' : s' = s.ended)
  | kept {s : Submarine} {c : CombatSubmarine} (hcall : call = .endMission k → b = false)
      (hs : f.submarines[k]? = some s) (hc : s.combat? = some c)
      (hhistory : c'.missionHistory = c.missionHistory)
      (hassigned : s.assigned = true → s'.assigned = true)
      (hmission : (s.assigned = true ↔ c.currentMission.isSome) →
        (s'.assigned = true ↔ c'.currentMission.isSome))

/-- Writing a list of links keeps the rest of a combat submarine. -/
theorem eq_some_of_onLinks {i k : ℕ} {g : List ℕ → List ℕ} {s' : Submarine} {c' : CombatSubmarine}
    (hs' : (f.onLinks i g).submarines[k]? = some s') (hc' : s'.combat? = some c') :
    ∃ s c, f.submarines[k]? = some s ∧ s.combat? = some c ∧ s'.assigned = s.assigned ∧
      c'.currentMission = c.currentMission ∧ c'.missionHistory = c.missionHistory := by
  rw [getElem?_onLinks] at hs'
  obtain ⟨s, hs, rfl⟩ := Option.map_eq_some_iff.1 hs'
  split at hc'
  · rename_i hik
    rw [Submarine.combat?_onLinks] at hc'
    obtain ⟨c, hc, rfl⟩ := Option.map_eq_some_iff.1 hc'
    exact ⟨s, c, hs, hc, by rw [if_pos hik, Submarine.onLinks_assigned], rfl, rfl⟩
  · rename_i hik
    exact ⟨s, c', hs, hc', by rw [if_neg hik], rfl, rfl⟩

theorem origin_of_effect (h : Effect f call f' b) {k : ℕ} {s' : Submarine} {c' : CombatSubmarine}
    (hs' : f'.submarines[k]? = some s') (hc' : s'.combat? = some c') :
    Origin f call b k s' c' := by
  cases h with
  | refused => exact .kept (fun _ ↦ rfl) hs' hc' rfl id id
  | @added s hcall hserial hnew hlinked hassigned hcombat =>
    rcases getElem?_append_eq_some hs' with hs | ⟨hk, rfl⟩
    · exact .kept (fun hk ↦ absurd hk (hcall k)) hs hc' rfl id id
    · exact .added hk hcall hassigned (hcombat c' hc').1 (hcombat c' hc').2
  | @rewritten i s t b hcall hs h =>
    rw [getElem?_set hs] at hs'
    split at hs'
    · rename_i hik
      obtain rfl := hik
      obtain rfl := Option.some.inj hs'
      obtain ⟨c, hc, hhistory, hassigned, hmission⟩ := h.combat c' hc'
      refine .kept (fun hk ↦ ?_) hs hc hhistory hassigned hmission
      have hnone := (hcall i hk).2
      rw [combat?, hs, Option.bind_some, hc] at hnone
      cases hnone
    · rename_i hik
      exact .kept (fun hk ↦ absurd (hcall k hk).1.symm hik) hs' hc' rfl id id
  | @ended i s c hcall hs hc hassigned =>
    rw [getElem?_ended] at hs'
    obtain ⟨t, ht, rfl⟩ := Option.map_eq_some_iff.1 hs'
    split at hc'
    · rename_i hki
      obtain rfl := hki
      obtain rfl := Option.some.inj (ht.symm.trans hs)
      exact .ended hcall rfl ht hc hassigned (if_pos rfl)
    · rename_i hki
      rw [Submarine.combat?_onLinks] at hc'
      obtain ⟨d, hd, rfl⟩ := Option.map_eq_some_iff.1 hc'
      have hcall' : call = .endMission k → true = false := fun hk ↦
        absurd (Call.endMission.inj (hk.symm.trans hcall)) hki
      refine .kept hcall' ht hd rfl ?_ ?_
      all_goals
        rw [if_neg hki, Submarine.onLinks_assigned]
        exact id
  | @linked i j hcall hi hj hij hnew =>
    obtain ⟨t, d, ht, hd, ha, hm, hh⟩ := eq_some_of_onLinks hs' hc'
    obtain ⟨s, c, hs, hc, ha', hm', hh'⟩ := eq_some_of_onLinks ht hd
    refine .kept (fun hk ↦ ?_) hs hc (hh.trans hh') ?_ ?_
    · rw [hcall] at hk
      cases hk
    · rw [ha, ha']
      exact id
    · rw [ha, ha', hm, hm']
      exact id

end FleetManager

/-! ### The invariant -/

namespace Record

variable {r r' : Record} {call : Call}

theorem consistent_fleetStart : fleetStart.Consistent where
  serial_ne _ hs := absurd hs List.not_mem_nil
  serial_nodup := List.nodup_nil
  mirrored := Mirrored.empty
  mission hs := by cases hs
  history hs := by cases hs
  calls_lt h := absurd h List.not_mem_nil

/-- Read a step off the call it makes. -/
theorem effect_of_step (h : fleetStep r call = some r') (hr : Mirrored r.fleet.linkedSubmarines) :
    ∃ b, Effect r.fleet call r'.fleet b ∧ r'.calls = r.calls ++ [(call, b)] := by
  obtain ⟨⟨f', b⟩, hperform, rfl⟩ := Option.map_eq_some_iff.1 h
  exact ⟨b, FleetManager.effect_of_perform hr hperform, rfl⟩

/-- The count behind one more call. -/
theorem missionsEnded_of_calls {b : Bool} (h : r'.calls = r.calls ++ [(call, b)]) (k : ℕ) :
    r'.missionsEnded k = r.missionsEnded k + if call = .endMission k ∧ b = true then 1 else 0 := by
  rw [missionsEnded, missionsEnded, h, List.count_append, List.count_singleton]
  simp only [beq_iff_eq, Prod.mk.injEq]

/-- **Every call keeps the fleet consistent.** -/
theorem Consistent.step (hr : r.Consistent) (h : fleetStep r call = some r') : r'.Consistent := by
  obtain ⟨b, heffect, hcalls⟩ := effect_of_step h hr.mirrored
  have hserials := FleetManager.map_serialNumber_of_effect heffect
  have hne : [] ∉ r.fleet.submarines.map Submarine.serialNumber := fun hmem ↦ by
    obtain ⟨s, hs, hnil⟩ := List.mem_map.1 hmem
    exact hr.serial_ne s hs hnil
  refine ⟨fun s hs hnil ↦ ?_, ?_, FleetManager.mirrored_of_effect hr.mirrored heffect, ?_, ?_, ?_⟩
  · have hmem : [] ∈ r'.fleet.submarines.map Submarine.serialNumber :=
      List.mem_map.2 ⟨s, hs, hnil⟩
    rcases hserials with heq | ⟨serial, hserial, -, heq⟩
    · exact hne (heq ▸ hmem)
    · rw [heq, List.mem_append, List.mem_singleton] at hmem
      exact hmem.elim hne fun hs ↦ hserial hs.symm
  · rcases hserials with heq | ⟨serial, -, hnew, heq⟩
    · rw [heq]
      exact hr.serial_nodup
    · rw [heq]
      exact hr.serial_nodup.append (List.nodup_singleton _) (List.disjoint_singleton.2 hnew)
  · intro k s' c' hs' hc'
    cases FleetManager.origin_of_effect heffect hs' hc' with
    | added hk hcall hassigned hmission hhistory => simp [hassigned, hmission]
    | ended hcall hb hs hc hassigned heq =>
      obtain rfl := heq
      obtain rfl := Option.some.inj (hc'.symm.trans (Submarine.combat?_ended hc))
      simp [Submarine.assigned_ended, CombatSubmarine.currentMission_archive]
    | kept hcall hs hc hhistory hassigned hmission => exact hmission (hr.mission hs hc)
  · intro k s' c' hs' hc'
    rw [missionsEnded_of_calls hcalls]
    cases FleetManager.origin_of_effect heffect hs' hc' with
    | added hk hcall hassigned hmission hhistory =>
      have hzero : r.missionsEnded k = 0 := List.count_eq_zero.2 fun hmem ↦
        Nat.lt_irrefl _ (hk ▸ hr.calls_lt hmem)
      rw [hhistory, hzero, if_neg fun h ↦ hcall k h.1]
      rfl
    | ended hcall hb hs hc hassigned heq =>
      obtain rfl := heq
      obtain rfl := Option.some.inj (hc'.symm.trans (Submarine.combat?_ended hc))
      obtain ⟨m, hm⟩ := Option.isSome_iff_exists.1 ((hr.mission hs hc).1 hassigned)
      rw [if_pos ⟨hcall, hb⟩, CombatSubmarine.missionHistory_archive hm, List.length_append,
        List.length_singleton, hr.history hs hc]
    | kept hcall hs hc hhistory hassigned hmission =>
      rw [hhistory, hr.history hs hc, if_neg fun h ↦ by simp [hcall h.1] at h]
      rfl
  · intro k hmem
    have hle := FleetManager.length_le_of_effect heffect
    rw [hcalls, List.mem_append, List.mem_singleton] at hmem
    rcases hmem with hmem | hmem
    · exact Nat.lt_of_lt_of_le (hr.calls_lt hmem) hle
    · obtain ⟨rfl, rfl⟩ := Prod.ext_iff.1 hmem
      exact Nat.lt_of_lt_of_le (FleetManager.lt_of_effect heffect) hle

/-- Under any condition on the calls. -/
theorem consistent_of_reaches {ok : Record → Call → Prop} (h : Reaches fleetStep ok fleetStart r) :
    r.Consistent :=
  h.invariant consistent_fleetStart fun hr _ hstep ↦ hr.step hstep

end Record

/-! ### What holds of every fleet -/

/-- Serial numbers that tell the submarines apart find them. -/
theorem FleetManager.findBySerial_eq_some {f : FleetManager}
    (h : (f.submarines.map Submarine.serialNumber).Nodup) (serialNumber : List UInt8) (i : ℕ) :
    f.findBySerial serialNumber = some i ↔
      ∃ s, f.submarines[i]? = some s ∧ s.serialNumber = serialNumber := by
  rw [findBySerial, List.findIdx?_eq_some_iff_getElem]
  constructor
  · rintro ⟨hi, hserial, -⟩
    exact ⟨_, List.getElem?_eq_getElem hi, of_decide_eq_true hserial⟩
  · rintro ⟨s, hs, rfl⟩
    obtain ⟨hi, rfl⟩ := List.getElem?_eq_some_iff.1 hs
    refine ⟨hi, decide_eq_true rfl, fun j hj heq ↦ ?_⟩
    -- an earlier one with this serial number would be a second one
    have hjlt : j < f.submarines.length := Nat.lt_trans hj hi
    have hpair := List.pairwise_iff_getElem.1 h j i (by simpa using hjlt) (by simpa using hi) hj
    rw [List.getElem_map, List.getElem_map] at hpair
    exact hpair (of_decide_eq_true heq)

/-- What the operator of a fleet relies on. -/
structure Record.Sound (r : Record) : Prop where
  serial_ne : ∀ s ∈ r.fleet.submarines, s.serialNumber ≠ []
  serial_distinct : ∀ {i j : ℕ} {s t : Submarine}, r.fleet.submarines[i]? = some s →
    r.fleet.submarines[j]? = some t → i ≠ j → s.serialNumber ≠ t.serialNumber
  findBySerial_iff : ∀ serialNumber i, r.fleet.findBySerial serialNumber = some i ↔
    ∃ s, r.fleet.submarines[i]? = some s ∧ s.serialNumber = serialNumber
  linked_symm : ∀ {i j : ℕ}, j ∈ r.fleet.linkedSubmarines i → i ∈ r.fleet.linkedSubmarines j
  linked_irrefl : ∀ i, i ∉ r.fleet.linkedSubmarines i
  linked_nodup : ∀ i, (r.fleet.linkedSubmarines i).Nodup
  /-- Only combat submarines of the fleet are linked. -/
  linked_combat : ∀ {i j : ℕ}, j ∈ r.fleet.linkedSubmarines i → (r.fleet.combat? j).isSome
  assigned_iff : ∀ {i : ℕ} {s : Submarine} {c : CombatSubmarine},
    r.fleet.submarines[i]? = some s → s.combat? = some c →
    (s.assigned = true ↔ c.currentMission.isSome)
  history_length : ∀ {i : ℕ} {s : Submarine} {c : CombatSubmarine},
    r.fleet.submarines[i]? = some s → s.combat? = some c →
    c.missionHistory.length = r.missionsEnded i

theorem Record.Consistent.sound {r : Record} (h : r.Consistent) : r.Sound where
  serial_ne := h.serial_ne
  serial_distinct {i j s t} hs ht hij heq := by
    have hfind := (FleetManager.findBySerial_eq_some h.serial_nodup t.serialNumber i).2 ⟨s, hs, heq⟩
    have hfind' := (FleetManager.findBySerial_eq_some h.serial_nodup _ j).2 ⟨t, ht, rfl⟩
    exact hij (Option.some.inj (hfind.symm.trans hfind'))
  findBySerial_iff := FleetManager.findBySerial_eq_some h.serial_nodup
  linked_symm := h.mirrored.symm
  linked_irrefl := h.mirrored.irrefl
  linked_nodup := h.mirrored.nodup
  linked_combat hij := FleetManager.isSome_combat?_of_mem (h.mirrored.symm hij)
  assigned_iff := h.mission
  history_length := h.history

/-- **Every fleet is sound**, whatever was called and in whatever order. -/
theorem fleet_sound {r : Record} (h : Reaches fleetStep (fun _ _ ↦ True) fleetStart r) : r.Sound :=
  (Record.consistent_of_reaches h).sound

/-- Two combat submarines on a mission are linked, exchange a message, and one of them ends it. -/
def sharedMission : List Call :=
  [.addCombatSubmarine [0x41] [0x61] [] 5001, .addCombatSubmarine [0x42] [0x62] [] 5002,
    .assignCombat 0 [0x70] [0x63] 4, .assignCombat 1 [0x70] [0x63] 7, .linkSubmarine 0 1,
    .sendMessage 1 0 [0x68], .endMission 1]

theorem fleet_sound_sharedMission :
    ∃ r, Reaches fleetStep (fun _ _ ↦ True) fleetStart r ∧ r.calls.length = 7 ∧ r.Sound := by
  have hexec : exec (guarded fleetStep fun _ _ ↦ True) fleetStart sharedMission = some _ := rfl
  have hreaches := reaches_of_exec hexec
  exact ⟨_, hreaches, rfl, fleet_sound hreaches⟩

/-! ### Linked submarines and their missions -/

/-- `isAssigned()`, and a current mission, of a combat submarine of the fleet. -/
def FleetManager.hasMission (f : FleetManager) (i : ℕ) : Bool :=
  match f.submarines[i]? with
  | none => false
  | some s => s.assigned && s.combat?.any fun c ↦ c.currentMission.isSome

/-- A link that is made is one between two submarines that are on a mission. -/
def Record.LinksMissions (r : Record) : Call → Prop
  | .linkSubmarine i j =>
    j = i ∨ r.fleet.isLinkedTo i j = true ∨
      r.fleet.hasMission i = true ∧ r.fleet.hasMission j = true
  | _ => True

theorem FleetManager.hasMission_iff {f : FleetManager} {i : ℕ} :
    f.hasMission i = true ↔ ∃ s c, f.submarines[i]? = some s ∧ s.combat? = some c ∧
      s.assigned = true ∧ c.currentMission.isSome := by
  rw [hasMission]
  constructor
  · intro h
    split at h
    · cases h
    · rename_i s hs
      rw [Bool.and_eq_true, Option.any_eq_true] at h
      obtain ⟨hassigned, c, hc, hmission⟩ := h
      exact ⟨s, c, hs, hc, hassigned, hmission⟩
  · rintro ⟨s, c, hs, hc, hassigned, hmission⟩
    rw [hs]
    simp [hassigned, hc, hmission]

/-- A link was there before the call, or the call made it. -/
theorem FleetManager.mem_of_effect {f f' : FleetManager} {call : Call} {b : Bool}
    (h : Effect f call f' b) {i j : ℕ} (hmem : j ∈ f'.linkedSubmarines i) :
    j ∈ f.linkedSubmarines i ∧ (call = .endMission i → b = false) ∨
    ∃ k l, call = .linkSubmarine k l ∧ k ≠ l ∧ l ∉ f.linkedSubmarines k ∧
      (f.combat? k).isSome ∧ (f.combat? l).isSome ∧ (i = k ∧ j = l ∨ i = l ∧ j = k) := by
  cases h with
  | refused => exact .inl ⟨hmem, fun _ ↦ rfl⟩
  | added hcall hserial hnew hlinked hassigned hcombat =>
    rw [linkedSubmarines_append hlinked] at hmem
    exact .inl ⟨hmem, fun hk ↦ absurd hk (hcall i)⟩
  | rewritten hcall hs h =>
    rw [linkedSubmarines_set hs h.linked] at hmem
    refine .inl ⟨hmem, fun hk ↦ ?_⟩
    -- a research submarine has no links
    have hcombat := isSome_combat?_of_mem hmem
    obtain ⟨rfl, hnone⟩ := hcall i hk
    rw [hnone] at hcombat
    cases hcombat
  | ended hcall hs hc hassigned =>
    rw [linkedSubmarines_ended, mem_leave] at hmem
    exact .inl ⟨hmem.2.2, fun hk ↦ absurd (Call.endMission.inj (hk.symm.trans hcall)) hmem.1⟩
  | @linked k l hcall hk hl hkl hnew =>
    rw [linkedSubmarines_linkSubmarine hk hl hkl, mem_link hkl] at hmem
    rcases hmem with hmem | hnew'
    · refine .inl ⟨hmem, fun hend ↦ ?_⟩
      rw [hcall] at hend
      cases hend
    · exact .inr ⟨k, l, hcall, hkl, hnew, hk, hl, hnew'⟩

/-- A combat submarine that still has a link has its mission still. -/
theorem Record.Consistent.hasMission_step {r r' : Record} {call : Call} {b : Bool}
    (hr' : r'.Consistent) (heffect : Effect r.fleet call r'.fleet b)
    {k : ℕ} (hk : r.fleet.hasMission k = true) (hcall : call = .endMission k → b = false)
    {j : ℕ} (hj : j ∈ r'.fleet.linkedSubmarines k) : r'.fleet.hasMission k = true := by
  obtain ⟨s, c, hs, hc, hassigned, -⟩ := FleetManager.hasMission_iff.1 hk
  obtain ⟨c', hc'⟩ := Option.isSome_iff_exists.1 (FleetManager.isSome_combat?_of_mem hj)
  obtain ⟨s', hs', hc'⟩ := Option.bind_eq_some_iff.1 hc'
  have hassigned' : s'.assigned = true := by
    cases FleetManager.origin_of_effect heffect hs' hc' with
    | added hnew hcall' hassigned' hmission hhistory =>
      exact absurd hnew (Nat.ne_of_lt (List.getElem?_eq_some_iff.1 hs).1)
    | ended hend hb ht hd ht' heq =>
      rw [hcall hend] at hb
      cases hb
    | kept hcall' ht hd hhistory hkeep hmission =>
      obtain rfl := Option.some.inj (ht.symm.trans hs)
      exact hkeep hassigned
  exact FleetManager.hasMission_iff.2
    ⟨s', c', hs', hc', hassigned', (hr'.mission hs' hc').1 hassigned'⟩

/-- **Linked submarines are on a mission**, both of them, as long as only submarines on a mission
are linked. -/
theorem linked_hasMission {r : Record} (h : Reaches fleetStep Record.LinksMissions fleetStart r)
    {i j : ℕ} (hij : j ∈ r.fleet.linkedSubmarines i) :
    r.fleet.hasMission i = true ∧ r.fleet.hasMission j = true := by
  have key : r.Consistent ∧
      ∀ i j, j ∈ r.fleet.linkedSubmarines i → r.fleet.hasMission i = true := by
    refine h.invariant (I := fun r ↦ r.Consistent ∧
      ∀ i j, j ∈ r.fleet.linkedSubmarines i → r.fleet.hasMission i = true)
      ⟨Record.consistent_fleetStart, fun i j hj ↦ (by cases hj)⟩ ?_
    intro r r' call ⟨hr, hlinked⟩ hok hstep
    have hr' := hr.step hstep
    obtain ⟨b, heffect, -⟩ := Record.effect_of_step hstep hr.mirrored
    refine ⟨hr', fun i j hj ↦ ?_⟩
    rcases FleetManager.mem_of_effect heffect hj with ⟨hold, hcall⟩ | hnew
    · exact hr'.hasMission_step heffect (hlinked i j hold) hcall hj
    · -- the link is made by this call, so both are on a mission
      obtain ⟨k, l, rfl, hkl, hnot, -, -, hends⟩ := hnew
      have hboth : r.fleet.hasMission k = true ∧ r.fleet.hasMission l = true := by
        rcases hok with heq | hlinkedTo | hboth
        · exact absurd heq.symm hkl
        · exact absurd (List.contains_iff_mem.1 hlinkedTo) hnot
        · exact hboth
      rcases hends with ⟨rfl, rfl⟩ | ⟨rfl, rfl⟩
      · exact hr'.hasMission_step heffect hboth.1 Call.noConfusion hj
      · exact hr'.hasMission_step heffect hboth.2 Call.noConfusion hj
  exact ⟨key.2 i j hij, key.2 j i (key.1.mirrored.symm hij)⟩

instance Record.decidableLinksMissions (r : Record) (call : Call) :
    Decidable (r.LinksMissions call) :=
  match call with
  | .linkSubmarine i j => inferInstanceAs (Decidable (j = i ∨ r.fleet.isLinkedTo i j = true ∨
      r.fleet.hasMission i = true ∧ r.fleet.hasMission j = true))
  | .addResearchSubmarine .. | .addCombatSubmarine .. | .setName .. | .assignResearch ..
  | .setResearchTopic .. | .setResearchers .. | .assignCombat .. | .setDescription ..
  | .setCommanderName .. | .setPersonnelCount .. | .endMission .. | .sendMessage .. =>
    .isTrue trivial

/-- The two submarines before the end of the shared mission. -/
theorem linked_hasMission_sharedMission :
    ∃ r, Reaches fleetStep Record.LinksMissions fleetStart r ∧ 1 ∈ r.fleet.linkedSubmarines 0 ∧
      r.fleet.hasMission 0 = true ∧ r.fleet.hasMission 1 = true := by
  have hexec : exec (guarded fleetStep Record.LinksMissions) fleetStart
      (sharedMission.take 6) = some _ := rfl
  have hreaches := reaches_of_exec hexec
  exact ⟨_, hreaches, by decide, linked_hasMission hreaches (by decide)⟩

/-- **Two submarines without a mission can be linked.** -/
theorem linked_without_mission :
    ¬∀ r, Reaches fleetStep (fun _ _ ↦ True) fleetStart r → ∀ i j,
      j ∈ r.fleet.linkedSubmarines i →
        r.fleet.hasMission i = true ∧ r.fleet.hasMission j = true := by
  intro h
  have hexec : exec (guarded fleetStep fun _ _ ↦ True) fleetStart
      [.addCombatSubmarine [0x41] [0x61] [] 5001, .addCombatSubmarine [0x42] [0x62] [] 5002,
        .linkSubmarine 0 1] = some _ := rfl
  exact absurd (h _ (reaches_of_exec hexec) 0 1 (by decide)).1 (by decide)

/-! ### The end of a mission -/

/-- **The end of a mission takes away the links of that submarine**, and no others. -/
theorem endMission_exact {r : Record} (h : Reaches fleetStep (fun _ _ ↦ True) fleetStart r) {i : ℕ}
    {s : Submarine} {c : CombatSubmarine} (hs : r.fleet.submarines[i]? = some s)
    (hc : s.combat? = some c) {f' : FleetManager} {b : Bool}
    (hcall : r.fleet.perform (.endMission i) = some (f', b)) :
    (b = true →
      (∀ k, i ∉ f'.linkedSubmarines k) ∧ f'.linkedSubmarines i = [] ∧
      (∀ k, k ≠ i →
        f'.linkedSubmarines k = (r.fleet.linkedSubmarines k).filter (· ≠ i)) ∧
      (∃ m, c.currentMission = some m ∧ f'.submarines[i]? = some { s with
        assigned := false
        type := .combat { c with
          currentMission := none
          missionHistory := c.missionHistory ++ [m]
          linkedSubmarines := [] } }) ∧
      ∀ k, k ≠ i → f'.submarines[k]? =
        r.fleet.submarines[k]?.map (Submarine.onLinks (List.filter (· ≠ i)))) ∧
    (b = false → f' = r.fleet) := by
  have hr := Record.consistent_of_reaches h
  obtain ⟨t, ht, hend⟩ := Option.map_eq_some_iff.1 hcall
  obtain rfl := Option.some.inj (ht.symm.trans hs)
  have htype := Submarine.type_of_combat? hc
  rcases Bool.eq_false_or_eq_true t.assigned with hassigned | hassigned
  · obtain ⟨m, hm⟩ := Option.isSome_iff_exists.1 ((hr.mission hs hc).1 hassigned)
    rw [FleetManager.endMission_of_combat hr.mirrored hs htype hassigned] at hend
    obtain ⟨rfl, rfl⟩ := Prod.ext_iff.1 hend
    refine ⟨fun _ ↦ ⟨fun k hk ↦ ?_, ?_, fun k hk ↦ ?_, ⟨m, hm, ?_⟩, fun k hk ↦ ?_⟩,
      fun hfalse ↦ (by cases hfalse)⟩
    · rw [FleetManager.linkedSubmarines_ended, mem_leave] at hk
      exact hk.2.1 rfl
    · rw [FleetManager.linkedSubmarines_ended, leave_self]
    · rw [FleetManager.linkedSubmarines_ended, leave_of_ne hk]
    · rw [FleetManager.getElem?_ended, hs, Option.map_some, if_pos rfl, Submarine.ended, htype]
      simp only [CombatSubmarine.archive, hm]
    · rw [FleetManager.getElem?_ended]
      simp only [if_neg hk]
  · rw [FleetManager.endMission_of_not_assigned hassigned] at hend
    obtain ⟨rfl, rfl⟩ := Prod.ext_iff.1 hend
    exact ⟨fun htrue ↦ (by cases htrue), fun _ ↦ rfl⟩

/-- The two submarines while they share the mission. -/
def sharing : Record :=
  (exec fleetStep fleetStart (sharedMission.take 6)).getD fleetStart

/-- The second of them. -/
def secondSharing : CombatSubmarine :=
  ⟨some ⟨[0x70], [0x63], 7⟩, [], [0], ⟨[], 5002⟩⟩

/-- When the second one ends the mission, the first one has no link left. -/
theorem endMission_exact_sharing :
    sharing.fleet.linkedSubmarines 0 = [1] ∧
      ∃ f', sharing.fleet.perform (.endMission 1) = some (f', true) ∧
        f'.linkedSubmarines 0 = [] := by
  have hexec : exec (guarded fleetStep fun _ _ ↦ True) fleetStart (sharedMission.take 6) =
      some sharing := rfl
  have hs : sharing.fleet.submarines[1]? =
      some ⟨[0x42], [0x62], true, [], .combat secondSharing⟩ := rfl
  have hcall : sharing.fleet.perform (.endMission 1) = some (_, true) := rfl
  have hexact := endMission_exact (c := secondSharing) (reaches_of_exec hexec) hs rfl hcall
  exact ⟨rfl, _, hcall, (hexact.1 rfl).2.2.1 0 (by decide)⟩

end SubmarineMonitor.Fleet

import SubmarineMonitor.Foundation.WindowCounter
import SubmarineMonitor.Node.ObjectDetection

/-!
# The two filters before a detection

`objdet_on_edge` lets an edge through if it comes late enough after the last one let through, and
counts those that are in a window anchored at the first of them. Here the calls come one after
another from `objdet_create`, at any times; `present` belongs to the task and may change between any
two calls.

The two filters are taken apart: which edges are accepted depends on the readings of TIM2 alone
(`acceptedEdges`), and the rest of the state is a `WindowCounter` of the accepted ones, up to the
wrap of its counter (`countsAs_afterEdges`). So no burst is seen where there is none
(`no_false_burst`), and one that is there is seen just when no window ends among its edges
(`burst_seen_iff`).

## Two clocks that tell different times

The spacing is measured in microseconds with TIM2, the window in milliseconds with the tick. The two
readings of a call are taken as they come: TIM2 is zeroed some eighty times in each round of the
temperature sensor, so no order is assumed of its readings, and `no_false_burst` holds for arbitrary
ones. The ticks are assumed not to go back, and not to start over within the calls that are looked
at, which is after 49.7 days.

## Places

An edge is told from another by its place in the list of calls, so two calls with the same readings
are two edges. `acceptedEdges` keeps the places, and a burst is a set of places, not of readings.

## What is left out

Calls do not overlap: the interrupt does not interrupt itself. What the task makes of the flag, and
when, is `Node.ObjectDetection`; here `present` is an argument of each call.
-/

open WindowCounter

namespace SubmarineMonitor

/-! ### Calls -/

/-- A call of `objdet_on_edge`: what TIM2 and `HAL_GetTick` read, and what `present` is by then. -/
structure Edge where
  nowUs : UInt32
  nowTick : UInt32
  present : Bool
  deriving DecidableEq

/-- The call. -/
def onEdge (o : ObjectDetection) (e : Edge) : ObjectDetection × EdgeEffect :=
  objdetOnEdge { o with present := e.present } e.nowUs e.nowTick

/-- The state after some calls. -/
def afterEdges (o : ObjectDetection) (es : List Edge) : ObjectDetection :=
  es.foldl (fun o e ↦ (onEdge o e).1) o

/-- The ticks do not go back, nor wrap. -/
def TicksSorted (es : List Edge) : Prop :=
  es.Pairwise fun d e ↦ d.nowTick ≤ e.nowTick

instance (es : List Edge) : Decidable (TicksSorted es) :=
  inferInstanceAs (Decidable (List.Pairwise _ es))

namespace Edge

/-- At least `MIN_EDGE_SPACING_US` above the baseline. -/
def Spaced (e : Edge) (baseline : UInt32) : Prop :=
  baseline.toNat + minEdgeSpacingUs.toNat ≤ e.nowUs.toNat

instance (e : Edge) (baseline : UInt32) : Decidable (e.Spaced baseline) :=
  inferInstanceAs (Decidable (_ ≤ _))

/-- The baseline that the edge leaves. -/
def nextBaseline (e : Edge) (baseline : UInt32) : UInt32 :=
  if e.nowUs < baseline ∨ e.Spaced baseline then e.nowUs else baseline

end Edge

/-- The edges that pass the TIM2 spacing check, with their places, which start at `n`. -/
def acceptedEdges (n : ℕ) (baseline : UInt32) : List Edge → List (ℕ × Edge)
  | [] => []
  | e :: es =>
    if e.Spaced baseline then (n, e) :: acceptedEdges (n + 1) (e.nextBaseline baseline) es
    else acceptedEdges (n + 1) (e.nextBaseline baseline) es

/-- The tick of an accepted edge. -/
def edgeTick (p : ℕ × Edge) : ℕ :=
  p.2.nowTick.toNat

/-! ### What a call does -/

variable {o : ObjectDetection} {e : Edge} {baseline : UInt32}

theorem Edge.Spaced.le (h : e.Spaced baseline) : baseline ≤ e.nowUs :=
  UInt32.le_iff_toNat_le.2 (Nat.le_of_add_right_le h)

theorem Edge.Spaced.nextBaseline_eq (h : e.Spaced baseline) :
    e.nextBaseline baseline = e.nowUs :=
  if_pos (.inr h)

/-- The comparison of the code, which subtracts. -/
theorem Edge.sub_lt_iff (h : baseline ≤ e.nowUs) :
    e.nowUs - baseline < minEdgeSpacingUs ↔ ¬e.Spaced baseline := by
  rw [UInt32.lt_iff_toNat_lt, UInt32.toNat_sub_of_le _ _ h, Spaced, Nat.not_le]
  have hle := UInt32.le_iff_toNat_le.1 h
  omega

/-- An edge that comes too early, or behind a reset of TIM2. -/
theorem onEdge_of_not_spaced (h : ¬e.Spaced o.lastEdgeUs) :
    onEdge o e = (⟨e.present, e.nextBaseline o.lastEdgeUs, o.burstFirstEdgeTick,
      o.burstEdgeCount⟩, ⟨false, false⟩) := by
  rw [onEdge, objdetOnEdge, Edge.nextBaseline]
  split
  · rename_i hlt
    rw [if_pos (.inl hlt)]
  · rename_i hge
    rw [if_pos ((Edge.sub_lt_iff (UInt32.not_lt.1 hge)).2 h), if_neg (not_or.2 ⟨hge, h⟩)]

/-- An accepted edge. -/
theorem onEdge_of_spaced (h : e.Spaced o.lastEdgeUs) :
    onEdge o e =
      let c : ObjectDetection :=
        if e.nowTick - o.burstFirstEdgeTick > burstWindowMs then
          ⟨e.present, e.nowUs, e.nowTick, 1⟩
        else ⟨e.present, e.nowUs, o.burstFirstEdgeTick, o.burstEdgeCount + 1⟩
      (c, if c.burstEdgeCount < burstThreshold then ⟨false, false⟩ else ⟨true, !e.present⟩) := by
  have hfast : ¬e.nowUs - o.lastEdgeUs < minEdgeSpacingUs := fun hlt ↦
    (Edge.sub_lt_iff h.le).1 hlt h
  rw [onEdge, objdetOnEdge, if_neg (UInt32.not_lt.2 h.le), if_neg hfast]
  simp only
  split_ifs <;> rfl

/-! ### The counter -/

/-- The module counts as a counter does, up to the wrap of `burst_edge_count`. -/
structure CountsAs (o : ObjectDetection) (c : WindowCounter) : Prop where
  first : o.burstFirstEdgeTick.toNat = c.first
  count : o.burstEdgeCount.toNat = c.count % UInt32.size

theorem countsAs_objdetCreate : CountsAs objdetCreate ⟨0, 0⟩ :=
  ⟨rfl, rfl⟩

/-- The end of the window, as the code compares. -/
theorem CountsAs.window_iff {c : WindowCounter} (h : CountsAs o c)
    (hfirst : c.first ≤ e.nowTick.toNat) :
    e.nowTick - o.burstFirstEdgeTick > burstWindowMs ↔
      c.first + burstWindowMs.toNat < e.nowTick.toNat := by
  have hle : o.burstFirstEdgeTick ≤ e.nowTick := UInt32.le_iff_toNat_le.2 (h.first ▸ hfirst)
  rw [gt_iff_lt, UInt32.lt_iff_toNat_lt, UInt32.toNat_sub_of_le _ _ hle, h.first]
  omega

/-- **An accepted edge is counted**, and is a burst when the counter says so. -/
theorem CountsAs.onEdge {c : WindowCounter} (h : CountsAs o c) (hfirst : c.first ≤ e.nowTick.toNat)
    (hs : e.Spaced o.lastEdgeUs) (n : ℕ) :
    CountsAs (onEdge o e).1 (next burstWindowMs.toNat edgeTick c (n, e)) ∧
    (SubmarineMonitor.onEdge o e).2 =
      if (next burstWindowMs.toNat edgeTick c (n, e)).count % UInt32.size < burstThreshold.toNat then
        ⟨false, false⟩
      else ⟨true, !e.present⟩ := by
  rw [onEdge_of_spaced hs]
  rcases Nat.lt_or_ge (c.first + burstWindowMs.toNat) (edgeTick (n, e)) with hlt | hle
  · simp only [if_pos ((h.window_iff hfirst).2 hlt), next_of_lt hlt]
    exact ⟨⟨rfl, rfl⟩, rfl⟩
  · have hopen : ¬e.nowTick - o.burstFirstEdgeTick > burstWindowMs := fun hgt ↦
      Nat.not_lt.2 hle ((h.window_iff hfirst).1 hgt)
    have hcount : (o.burstEdgeCount + 1).toNat = (c.count + 1) % UInt32.size := by
      rw [UInt32.toNat_add, h.count, UInt32.toNat_one, Nat.mod_add_mod]
    simp only [if_neg hopen, next_of_le hle]
    refine ⟨⟨h.first, hcount⟩, if_congr ?_ rfl rfl⟩
    rw [UInt32.lt_iff_toNat_lt, hcount]

theorem CountsAs.of_not_spaced {c : WindowCounter} (h : CountsAs o c)
    (hs : ¬e.Spaced o.lastEdgeUs) :
    CountsAs (SubmarineMonitor.onEdge o e).1 c := by
  rw [onEdge_of_not_spaced hs]
  exact ⟨h.first, h.count⟩

/-- The baseline is the same whether the edge is counted or not. -/
theorem lastEdgeUs_onEdge (o : ObjectDetection) (e : Edge) :
    (onEdge o e).1.lastEdgeUs = e.nextBaseline o.lastEdgeUs := by
  rcases em (e.Spaced o.lastEdgeUs) with hs | hs
  · rw [onEdge_of_spaced hs, hs.nextBaseline_eq]
    simp only
    split_ifs <;> rfl
  · rw [onEdge_of_not_spaced hs]

theorem afterEdges_cons (o : ObjectDetection) (e : Edge) (es : List Edge) :
    afterEdges o (e :: es) = afterEdges (onEdge o e).1 es :=
  rfl

theorem afterEdges_append (o : ObjectDetection) (es es' : List Edge) :
    afterEdges o (es ++ es') = afterEdges (afterEdges o es) es' :=
  List.foldl_append ..

/-- **The state is a counter of the accepted edges.** -/
theorem countsAs_afterEdges {c : WindowCounter} {es : List Edge} (h : CountsAs o c)
    (hfirst : ∀ e ∈ es, c.first ≤ e.nowTick.toNat) (hsorted : TicksSorted es) (n : ℕ) :
    CountsAs (afterEdges o es)
      (run burstWindowMs.toNat edgeTick c (acceptedEdges n o.lastEdgeUs es)) := by
  induction es generalizing o c n with
  | nil => exact h
  | cons e es ih =>
    obtain ⟨hle, hsorted⟩ := List.pairwise_cons.1 hsorted
    have hlater : ∀ d ∈ es, e.nowTick.toNat ≤ d.nowTick.toNat := fun d hd ↦
      UInt32.le_iff_toNat_le.1 (hle d hd)
    have hfirst' : ∀ d ∈ es, c.first ≤ d.nowTick.toNat := fun d hd ↦
      hfirst d (List.mem_cons_of_mem e hd)
    rw [afterEdges_cons, acceptedEdges, ← lastEdgeUs_onEdge]
    rcases em (e.Spaced o.lastEdgeUs) with hs | hs
    · rw [if_pos hs, run_cons]
      refine ih (h.onEdge (hfirst e List.mem_cons_self) hs n).1 (fun d hd ↦ ?_) hsorted (n + 1)
      rw [next]
      split
      · exact hlater d hd
      · exact hfirst' d hd
    · rw [if_neg hs]
      exact ih (h.of_not_spaced hs) hfirst' hsorted (n + 1)

/-! ### Places of accepted edges -/

theorem acceptedEdges_append (n : ℕ) (o : ObjectDetection) (es es' : List Edge) :
    acceptedEdges n o.lastEdgeUs (es ++ es') = acceptedEdges n o.lastEdgeUs es ++
      acceptedEdges (n + es.length) (afterEdges o es).lastEdgeUs es' := by
  induction es generalizing n o with
  | nil => rfl
  | cons e es ih =>
    rw [List.cons_append, acceptedEdges, acceptedEdges, ← lastEdgeUs_onEdge, ih,
      afterEdges_cons, List.length_cons, Nat.add_right_comm, Nat.add_assoc n]
    split
    · rw [List.cons_append]
    · rfl

/-- What it means to be accepted. -/
theorem of_mem_acceptedEdges {n k : ℕ} {d : Edge} {es : List Edge}
    (h : (k, d) ∈ acceptedEdges n o.lastEdgeUs es) :
    n ≤ k ∧ es[k - n]? = some d ∧ d.Spaced (afterEdges o (es.take (k - n))).lastEdgeUs := by
  induction es generalizing n o with
  | nil => cases h
  | cons e es ih =>
    rw [acceptedEdges, ← lastEdgeUs_onEdge] at h
    have hrest : (k, d) ∈ acceptedEdges (n + 1) (onEdge o e).1.lastEdgeUs es →
        n ≤ k ∧ (e :: es)[k - n]? = some d ∧
          d.Spaced (afterEdges o ((e :: es).take (k - n))).lastEdgeUs := by
      intro hmem
      obtain ⟨hle, hget, hspaced⟩ := ih hmem
      have hk : k - n = k - (n + 1) + 1 := by omega
      rw [hk, List.getElem?_cons_succ, List.take_succ_cons, afterEdges_cons]
      exact ⟨by omega, hget, hspaced⟩
    split at h
    · rename_i hs
      rcases List.mem_cons.1 h with heq | h
      · obtain ⟨rfl, rfl⟩ := Prod.ext_iff.1 heq
        rw [Nat.sub_self]
        exact ⟨Nat.le_refl _, rfl, hs⟩
      · exact hrest h
    · exact hrest h

theorem acceptedEdges_sublist (n : ℕ) (baseline : UInt32) (es : List Edge) :
    ((acceptedEdges n baseline es).map Prod.snd).Sublist es := by
  induction es generalizing n baseline with
  | nil => exact List.Sublist.refl _
  | cons e es ih =>
    rw [acceptedEdges]
    split
    · exact (ih _ _).cons_cons e
    · exact (ih _ _).cons e

/-- The ticks of the accepted edges do not go back either. -/
theorem edgeTick_pairwise {es : List Edge} (h : TicksSorted es) (n : ℕ) (baseline : UInt32) :
    ((acceptedEdges n baseline es).map edgeTick).Pairwise (· ≤ ·) := by
  have hmap : (acceptedEdges n baseline es).map edgeTick =
      ((acceptedEdges n baseline es).map Prod.snd).map fun e ↦ e.nowTick.toNat := by
    rw [List.map_map]
    rfl
  rw [hmap, List.pairwise_map]
  exact (h.sublist (acceptedEdges_sublist n baseline es)).imp UInt32.le_iff_toNat_le.1

/-- The places go up. -/
theorem places_acceptedEdges (n : ℕ) (baseline : UInt32) (es : List Edge) :
    ((acceptedEdges n baseline es).map Prod.fst).Pairwise (· < ·) := by
  have hle : ∀ (es : List Edge) (n : ℕ) (baseline : UInt32),
      ∀ k ∈ (acceptedEdges n baseline es).map Prod.fst, n ≤ k := by
    intro es n baseline k hk
    obtain ⟨⟨k, d⟩, hp, rfl⟩ := List.mem_map.1 hk
    exact (of_mem_acceptedEdges (o := ⟨false, baseline, 0, 0⟩) hp).1
  induction es generalizing n baseline with
  | nil => exact List.Pairwise.nil
  | cons e es ih =>
    rw [acceptedEdges]
    split
    · rw [List.map_cons, List.pairwise_cons]
      exact ⟨fun k hk ↦ hle es (n + 1) _ k hk, ih _ _⟩
    · exact ih _ _

/-! ### The call at the end -/

theorem TicksSorted.of_append_left {es es' : List Edge} (h : TicksSorted (es ++ es')) :
    TicksSorted es :=
  (List.pairwise_append.1 h).1

/-- Nothing that comes later has an earlier tick. -/
theorem TicksSorted.le_last {es : List Edge} (h : TicksSorted (es ++ [e])) {d : Edge}
    (hd : d ∈ es) : d.nowTick.toNat ≤ e.nowTick.toNat :=
  UInt32.le_iff_toNat_le.1 ((List.pairwise_append.1 h).2.2 d hd e List.mem_cons_self)

/-- An accepted edge is the last of the accepted ones. -/
theorem acceptedEdges_concat {es : List Edge} (hs : e.Spaced (afterEdges o es).lastEdgeUs) (n : ℕ) :
    acceptedEdges n o.lastEdgeUs (es ++ [e]) =
      acceptedEdges n o.lastEdgeUs es ++ [(n + es.length, e)] := by
  rw [acceptedEdges_append, acceptedEdges, if_pos hs]
  rfl

/-- **An accepted edge is a burst** when the counter of the accepted edges up to it says so. -/
theorem effect_of_spaced {c : WindowCounter} {es : List Edge} (h : CountsAs o c)
    (hfirst : ∀ d ∈ es ++ [e], c.first ≤ d.nowTick.toNat) (hsorted : TicksSorted (es ++ [e]))
    (hs : e.Spaced (afterEdges o es).lastEdgeUs) (n : ℕ) :
    (onEdge (afterEdges o es) e).2 =
      if (run burstWindowMs.toNat edgeTick c (acceptedEdges n o.lastEdgeUs (es ++ [e]))).count
          % UInt32.size < burstThreshold.toNat then ⟨false, false⟩
      else ⟨true, !e.present⟩ := by
  have hcounts := countsAs_afterEdges h (fun d hd ↦ hfirst d (List.mem_append_left _ hd))
    hsorted.of_append_left n
  have hle : (run burstWindowMs.toNat edgeTick c (acceptedEdges n o.lastEdgeUs es)).first ≤
      e.nowTick.toNat := by
    refine first_run_le (hfirst e (List.mem_append_right _ List.mem_cons_self)) fun p hp ↦ ?_
    exact hsorted.le_last ((acceptedEdges_sublist n o.lastEdgeUs es).subset
      (List.mem_map_of_mem hp))
  rw [acceptedEdges_concat hs, run_append]
  exact (hcounts.onEdge hle hs _).2

/-- The state read as a counter. -/
theorem countsAs_self (o : ObjectDetection) :
    CountsAs o ⟨o.burstFirstEdgeTick.toNat, o.burstEdgeCount.toNat⟩ :=
  ⟨rfl, (Nat.mod_eq_of_lt o.burstEdgeCount.toNat_lt).symm⟩

/-- The window that is open was not opened later. -/
theorem burstFirstEdgeTick_le {before es : List Edge} (hsorted : TicksSorted (before ++ es))
    {d : Edge} (hd : d ∈ es) :
    (afterEdges objdetCreate before).burstFirstEdgeTick.toNat ≤ d.nowTick.toNat := by
  have hcounts := countsAs_afterEdges countsAs_objdetCreate (fun _ _ ↦ Nat.zero_le _)
    hsorted.of_append_left 0
  rw [hcounts.first]
  refine first_run_le (Nat.zero_le _) fun p hp ↦ UInt32.le_iff_toNat_le.1 ?_
  exact (List.pairwise_append.1 hsorted).2.2 _
    ((acceptedEdges_sublist 0 _ before).subset (List.mem_map_of_mem hp)) d hd

/-! ### No false burst -/

/-- The edges of a list at these places were accepted, within `BURST_WINDOW_MS` of each other. -/
structure IsBurst (es : List Edge) (places : List ℕ) : Prop where
  /-- No place is named twice. -/
  increasing : places.Pairwise (· < ·)
  /-- Each is a reading at least `MIN_EDGE_SPACING_US` above the baseline of its time. -/
  accepted : ∀ k ∈ places, ∃ d, es[k]? = some d ∧
    (afterEdges objdetCreate (es.take k)).lastEdgeUs.toNat + minEdgeSpacingUs.toNat ≤
      d.nowUs.toNat
  together : ∀ k ∈ places, ∀ l ∈ places, ∀ d d', es[k]? = some d → es[l]? = some d' →
    d.nowTick.toNat ≤ d'.nowTick.toNat + burstWindowMs.toNat

/-- A call that has an effect accepts its edge and finds `BURST_THRESHOLD` of them in the window. -/
theorem le_count_of_effect {es : List Edge} {e : Edge} (hsorted : TicksSorted (es ++ [e]))
    (heffect : (onEdge (afterEdges objdetCreate es) e).2.resetTim5 = true ∨
      (onEdge (afterEdges objdetCreate es) e).2.setEdge = true) :
    e.Spaced (afterEdges objdetCreate es).lastEdgeUs ∧
      burstThreshold.toNat ≤ (run burstWindowMs.toNat edgeTick ⟨0, 0⟩
        (acceptedEdges 0 objdetCreate.lastEdgeUs (es ++ [e]))).count := by
  have hspaced : e.Spaced (afterEdges objdetCreate es).lastEdgeUs := by
    by_contra hnot
    rw [onEdge_of_not_spaced hnot] at heffect
    simp at heffect
  refine ⟨hspaced, ?_⟩
  by_contra hlt
  rw [effect_of_spaced countsAs_objdetCreate (fun _ _ ↦ Nat.zero_le _) hsorted hspaced 0,
    if_pos (Nat.lt_of_le_of_lt (Nat.mod_le _ _) (Nat.not_le.1 hlt))] at heffect
  simp at heffect

/-- What is accepted among the first calls stands at its place in the list. -/
theorem place_of_mem_acceptedEdges {es : List Edge} {k l : ℕ} {d : Edge}
    (hl : (l, d) ∈ acceptedEdges 0 objdetCreate.lastEdgeUs (es.take (k + 1))) :
    l ≤ k ∧ es[l]? = some d ∧ d.Spaced (afterEdges objdetCreate (es.take l)).lastEdgeUs := by
  obtain ⟨-, hd, hspaced⟩ := of_mem_acceptedEdges hl
  rw [Nat.sub_zero] at hd hspaced
  have hlk : l < k + 1 := by
    have hlt := (List.getElem?_eq_some_iff.1 hd).1
    rw [List.length_take] at hlt
    omega
  rw [List.getElem?_take_of_lt hlk] at hd
  rw [List.take_take, Nat.min_eq_left (Nat.le_of_lt hlk)] at hspaced
  exact ⟨Nat.le_of_lt_succ hlk, hd, hspaced⟩

/-- **No false burst.** Whatever TIM2 reads, a call that resets TIM5 or sets the flag is the last of
at least `BURST_THRESHOLD` edges of a burst. -/
theorem no_false_burst {es : List Edge} (hsorted : TicksSorted es) {k : ℕ} {e : Edge}
    (he : es[k]? = some e)
    (hburst : (onEdge (afterEdges objdetCreate (es.take k)) e).2.resetTim5 = true ∨
      (onEdge (afterEdges objdetCreate (es.take k)) e).2.setEdge = true) :
    ∃ places, IsBurst es places ∧ burstThreshold.toNat ≤ places.length ∧ k ∈ places ∧
      ∀ l ∈ places, l ≤ k := by
  have hk : k < es.length := (List.getElem?_eq_some_iff.1 he).1
  have htake : es.take (k + 1) = es.take k ++ [e] := by
    rw [List.take_add_one, he, Option.toList_some]
  have hlength : (es.take k).length = k := List.length_take_of_le (Nat.le_of_lt hk)
  have hsorted' : TicksSorted (es.take k ++ [e]) :=
    htake ▸ hsorted.sublist (List.take_sublist _ _)
  obtain ⟨hspaced, hcount⟩ := le_count_of_effect hsorted' hburst
  -- the events of the window are the last of the accepted edges
  obtain ⟨s, hsuffix, hs, hwindow⟩ := exists_suffix_run (c := ⟨0, 0⟩) (w := burstWindowMs.toNat) []
    rfl (fun _ hp ↦ absurd hp List.not_mem_nil) (List.pairwise_cons.2 ⟨fun _ _ ↦ Nat.zero_le _,
      edgeTick_pairwise hsorted' 0 objdetCreate.lastEdgeUs⟩)
  rw [List.nil_append] at hsuffix
  have hget : ∀ {l : ℕ} {d : Edge}, (l, d) ∈ s → l ≤ k ∧ es[l]? = some d ∧
      d.Spaced (afterEdges objdetCreate (es.take l)).lastEdgeUs := fun hl ↦
    place_of_mem_acceptedEdges (by rw [htake]; exact hsuffix.subset hl)
  refine ⟨s.map Prod.fst, ⟨?_, fun l hl ↦ ?_, fun l hl l' hl' d d' hd hd' ↦ ?_⟩, ?_, ?_,
    fun l hl ↦ ?_⟩
  · exact (places_acceptedEdges 0 _ _).sublist (hsuffix.sublist.map _)
  · obtain ⟨⟨l, d⟩, hp, rfl⟩ := List.mem_map.1 hl
    exact ⟨d, (hget hp).2⟩
  · obtain ⟨⟨l, a⟩, hp, rfl⟩ := List.mem_map.1 hl
    obtain ⟨⟨l', a'⟩, hp', rfl⟩ := List.mem_map.1 hl'
    obtain rfl := Option.some.inj (hd.symm.trans (hget hp).2.1)
    obtain rfl := Option.some.inj (hd'.symm.trans (hget hp').2.1)
    exact Nat.le_trans (hwindow _ hp).2 (Nat.add_le_add_right (hwindow _ hp').1 _)
  · rw [List.length_map, hs]
    exact hcount
  · rw [acceptedEdges_concat hspaced, Nat.zero_add, hlength, List.suffix_concat_iff] at hsuffix
    rcases hsuffix with rfl | ⟨t, rfl, -⟩
    · -- an empty suffix is no burst
      rw [List.length_nil] at hs
      rw [← hs] at hcount
      cases hcount
    · exact List.mem_map.2 ⟨(k, e), List.mem_append_right _ List.mem_cons_self, rfl⟩
  · obtain ⟨⟨l, d⟩, hp, rfl⟩ := List.mem_map.1 hl
    exact (hget hp).1

/-- The `i`-th edge of a click that starts at this tick. -/
def clickEdge (start i : ℕ) : Edge :=
  ⟨UInt32.ofNat (1000 * start + 562 * i), UInt32.ofNat (start + 562 * i / 1000), false⟩

/-- `n` edges of a click, from the `i`-th on. -/
def click (start i n : ℕ) : List Edge :=
  (List.range' i n).map (clickEdge start)

/-- A click right behind the start is a burst with its eightieth edge. -/
theorem no_false_burst_click :
    ∃ places, IsBurst (click 10 0 80) places ∧ 80 ≤ places.length ∧ 79 ∈ places ∧
      ∀ l ∈ places, l ≤ 79 :=
  no_false_burst (by decide +kernel) (e := clickEdge 10 79) rfl (.inl (by decide +kernel))

/-! ### Bursts that are seen -/

/-- The edge resets TIM5, and sets the flag if the object is absent. -/
def EdgeEffect.Detects (effect : EdgeEffect) (e : Edge) : Prop :=
  effect.resetTim5 = true ∧ (e.present = false → effect.setEdge = true)

instance (effect : EdgeEffect) (e : Edge) : Decidable (effect.Detects e) :=
  inferInstanceAs (Decidable (_ ∧ (_ → _)))

/-- What the counter has to say for a detection. -/
theorem detects_ite {n : ℕ} (e : Edge) :
    (if n < burstThreshold.toNat then (⟨false, false⟩ : EdgeEffect)
      else ⟨true, !e.present⟩).Detects e ↔ burstThreshold.toNat ≤ n := by
  split
  · rename_i hlt
    exact iff_of_false (fun h ↦ by cases h.1) (Nat.not_le.2 hlt)
  · rename_i hge
    exact iff_of_true ⟨rfl, fun h ↦ by rw [h]; rfl⟩ (Nat.not_lt.1 hge)

/-- **When the counter comes to `BURST_THRESHOLD`** with as many events within `BURST_WINDOW_MS`: the
first of them starts a window, or the window that is open stays open until the last, and the count
does not overflow. -/
theorem threshold_le_count_iff {c : WindowCounter} {b : ℕ × Edge} {rest : List (ℕ × Edge)} {t : ℕ}
    (hc : c.count < UInt32.size) (hcount : rest.length + 1 = burstThreshold.toNat)
    (hpairs : ((b :: rest).map edgeTick).Pairwise (· ≤ ·))
    (hmem : ∀ p ∈ b :: rest, edgeTick p ≤ t) (hlast : ∃ p ∈ rest, edgeTick p = t)
    (hwithin : t ≤ edgeTick b + burstWindowMs.toNat) :
    burstThreshold.toNat ≤ (run burstWindowMs.toNat edgeTick c (b :: rest)).count % UInt32.size ↔
      c.first + burstWindowMs.toNat < edgeTick b ∨
      t ≤ c.first + burstWindowMs.toNat ∧ c.count + burstThreshold.toNat < UInt32.size := by
  rcases Nat.lt_or_ge (c.first + burstWindowMs.toNat) (edgeTick b) with hnew | hold
  · -- the first event starts the window
    have hopen : ∀ p ∈ rest, edgeTick p ≤ edgeTick b + burstWindowMs.toNat := fun p hp ↦
      Nat.le_trans (hmem p (List.mem_cons_of_mem _ hp)) hwithin
    rw [run_cons, next_of_lt hnew, run_of_open (c := ⟨edgeTick b, 1⟩) hopen]
    refine iff_of_true ?_ (.inl hnew)
    rw [Nat.add_comm, hcount]
    exact Nat.le_of_eq (Nat.mod_eq_of_lt (by decide)).symm
  · rcases Nat.lt_or_ge (c.first + burstWindowMs.toNat) t with hclosed | hopen
    · -- the window ends among the events, and the first one is not counted any more
      obtain ⟨p, hp, rfl⟩ := hlast
      have hlater := count_run_cons_le hold hpairs ⟨p, hp, hclosed⟩
      refine iff_of_false (fun hle ↦ ?_) (fun h ↦ ?_)
      · have hmod := Nat.mod_le (run burstWindowMs.toNat edgeTick c (b :: rest)).count UInt32.size
        omega
      · omega
    · -- every event is counted in the window that was open before
      have hall : ∀ p ∈ b :: rest, edgeTick p ≤ c.first + burstWindowMs.toNat := fun p hp ↦
        Nat.le_trans (hmem p hp) hopen
      rw [run_of_open hall, List.length_cons, hcount]
      have hthreshold : burstThreshold.toNat = 80 := rfl
      have hsize : UInt32.size = 4294967296 := rfl
      dsimp only
      rw [hsize] at hc ⊢
      omega

/-- **When a burst is seen.** Of `BURST_THRESHOLD` accepted edges within `BURST_WINDOW_MS` the last
one is a detection if the first of them starts a window, or if the window it falls in is open until
the last. -/
theorem burst_seen_iff {before mid : List Edge} {first last : Edge}
    (hsorted : TicksSorted (before ++ (first :: mid ++ [last])))
    (hfirst : first.Spaced (afterEdges objdetCreate before).lastEdgeUs)
    (hlast : last.Spaced (afterEdges objdetCreate (before ++ first :: mid)).lastEdgeUs)
    (hcount : (acceptedEdges 0 (afterEdges objdetCreate before).lastEdgeUs
      (first :: mid ++ [last])).length = burstThreshold.toNat)
    (hwithin : last.nowTick.toNat ≤ first.nowTick.toNat + burstWindowMs.toNat) :
    (onEdge (afterEdges objdetCreate (before ++ first :: mid)) last).2.Detects last ↔
      (afterEdges objdetCreate before).burstFirstEdgeTick.toNat + burstWindowMs.toNat <
        first.nowTick.toNat ∨
      last.nowTick.toNat ≤
        (afterEdges objdetCreate before).burstFirstEdgeTick.toNat + burstWindowMs.toNat ∧
      (afterEdges objdetCreate before).burstEdgeCount.toNat + burstThreshold.toNat < UInt32.size := by
  have hburst : TicksSorted (first :: mid ++ [last]) := (List.pairwise_append.1 hsorted).2.1
  have hanchor : ∀ d ∈ first :: mid ++ [last],
      (afterEdges objdetCreate before).burstFirstEdgeTick.toNat ≤ d.nowTick.toNat :=
    fun _ hd ↦ burstFirstEdgeTick_le hsorted hd
  rw [afterEdges_append] at hlast ⊢
  generalize afterEdges objdetCreate before = o at *
  rw [effect_of_spaced (countsAs_self o) hanchor hburst hlast 0, detects_ite]
  have hmem : ∀ p ∈ acceptedEdges 0 o.lastEdgeUs (first :: mid ++ [last]),
      edgeTick p ≤ last.nowTick.toNat := by
    intro p hp
    have hd := (acceptedEdges_sublist 0 _ _).subset (List.mem_map_of_mem hp)
    rcases List.mem_append.1 hd with hd | hd
    · exact hburst.le_last hd
    · exact Nat.le_of_eq (congrArg (fun d : Edge ↦ d.nowTick.toNat) (List.mem_singleton.1 hd))
  have hpairs := edgeTick_pairwise hburst 0 o.lastEdgeUs
  have hend : ((first :: mid).length, last) ∈
      acceptedEdges 0 o.lastEdgeUs (first :: mid ++ [last]) := by
    rw [acceptedEdges_concat hlast, Nat.zero_add]
    exact List.mem_append_right _ List.mem_cons_self
  -- the accepted edges are the first one and those that follow
  rw [List.cons_append, acceptedEdges, if_pos hfirst] at hcount hmem hpairs hend ⊢
  have hlastRest := (List.mem_cons.1 hend).resolve_left fun heq ↦ by cases heq
  exact threshold_le_count_iff (c := ⟨_, _⟩) o.burstEdgeCount.toNat_lt hcount hpairs hmem
    ⟨_, hlastRest, rfl⟩ hwithin

/-- A single edge, one second behind the start. -/
def strayEdge : Edge :=
  ⟨1000000, 1000, false⟩

/-- A click a tenth of a second behind the stray edge. -/
theorem burst_seen_iff_click :
    (onEdge (afterEdges objdetCreate ([strayEdge] ++ clickEdge 1100 0 :: click 1100 1 78))
      (clickEdge 1100 79)).2.Detects (clickEdge 1100 79) := by
  have hsorted : TicksSorted ([strayEdge] ++
      (clickEdge 1100 0 :: click 1100 1 78 ++ [clickEdge 1100 79])) := by decide +kernel
  exact (burst_seen_iff hsorted (by decide +kernel) (by decide +kernel) (by decide +kernel)
    (by decide +kernel)).2 (.inl (by decide +kernel))

/-- **A click that is not seen**: it starts 40 ms behind a stray edge, whose window ends in the
middle of it. -/
theorem burst_unseen :
    ¬∀ (before mid : List Edge) (first last : Edge),
      TicksSorted (before ++ (first :: mid ++ [last])) →
      first.Spaced (afterEdges objdetCreate before).lastEdgeUs →
      last.Spaced (afterEdges objdetCreate (before ++ first :: mid)).lastEdgeUs →
      (acceptedEdges 0 (afterEdges objdetCreate before).lastEdgeUs
        (first :: mid ++ [last])).length = burstThreshold.toNat →
      last.nowTick.toNat ≤ first.nowTick.toNat + burstWindowMs.toNat →
      (onEdge (afterEdges objdetCreate (before ++ first :: mid)) last).2.Detects last := by
  intro h
  have hseen := h [strayEdge] (click 1040 1 78) (clickEdge 1040 0) (clickEdge 1040 79)
    (by decide +kernel) (by decide +kernel) (by decide +kernel) (by decide +kernel)
    (by decide +kernel)
  exact absurd hseen (by decide +kernel)

end SubmarineMonitor

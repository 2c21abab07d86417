import SubmarineMonitor.Node.EdgeFilter
import Mathlib.Data.List.Chain

/-!
# Noise that comes too fast

Edges that each come less than `MIN_EDGE_SPACING_US` after the one before cannot be a signal. The
spacing check compares with the last accepted edge and not with the last edge, though, so of such
noise it accepts an edge at least every two spacings (`acceptedEdges_isChain`), and
`BURST_THRESHOLD` of these fit in a window. The noise is ignored just as long as it is short
(`noise_ignored_iff`).

## What counts as noise here

The reason given in the code for the spacing check is that a demodulated signal cannot change twice
within 300 microseconds. So noise is a run of edges of which each comes less than that after the one
before it. TIM2 must not be zeroed within such a run, otherwise an edge that comes behind the reset
is rejected for another reason; and the ticks have to fit to TIM2, since a window is measured in one
clock and the spacing in the other (`TicksConsistent`).

## Why an equivalence

That such noise is ignored is not true of the code, and how far it is not depends on what the module
has seen before: a window may be open, with a number of edges in it. `noise_ignored_iff` therefore
counts in that window and behind it, from any state that any calls lead to, with the wrap of the
counter kept. It is the exact line between noise that is ignored and noise that is taken for an
object.
-/

open WindowCounter

namespace SubmarineMonitor

/-- TIM2 does not go back, and every edge comes less than `MIN_EDGE_SPACING_US` after the one before
it. -/
def IsNoise (es : List Edge) : Prop :=
  es.IsChain fun d e ↦
    d.nowUs ≤ e.nowUs ∧ e.nowUs.toNat < d.nowUs.toNat + minEdgeSpacingUs.toNat

/-- The ticks are those of a clock of milliseconds that runs along with TIM2. -/
def TicksConsistent (es : List Edge) : Prop :=
  es.Pairwise fun d e ↦
    1000 * e.nowTick.toNat + d.nowUs.toNat < 1000 * d.nowTick.toNat + e.nowUs.toNat + 1000 ∧
    1000 * d.nowTick.toNat + e.nowUs.toNat < 1000 * e.nowTick.toNat + d.nowUs.toNat + 1000

/-! ### What is accepted of noise -/

/-- The reading of TIM2 at an accepted edge. -/
def edgeUs (p : ℕ × Edge) : ℕ :=
  p.2.nowUs.toNat

/-- After any edge the baseline is less than a spacing below it. -/
theorem Edge.nextBaseline_near (e : Edge) (baseline : UInt32) :
    (e.nextBaseline baseline).toNat ≤ e.nowUs.toNat ∧
      e.nowUs.toNat < (e.nextBaseline baseline).toNat + minEdgeSpacingUs.toNat := by
  have hpos : 0 < minEdgeSpacingUs.toNat := by decide
  rw [nextBaseline]
  split
  · omega
  · rename_i hnot
    rw [not_or, UInt32.not_lt, UInt32.le_iff_toNat_le, Spaced] at hnot
    omega

/-- **Of noise an edge is accepted at least every two spacings**. -/
theorem acceptedEdges_isChain {d : Edge} {es : List Edge} (hnoise : IsNoise (d :: es))
    {baseline : UInt32} (hle : baseline.toNat ≤ d.nowUs.toNat)
    (hlt : d.nowUs.toNat < baseline.toNat + minEdgeSpacingUs.toNat) (n : ℕ) :
    (baseline.toNat :: (acceptedEdges n baseline es).map edgeUs).IsChain
      fun x y ↦ y ≤ x + 2 * minEdgeSpacingUs.toNat := by
  induction es generalizing d baseline n with
  | nil => exact .singleton _
  | cons e es ih =>
    obtain ⟨⟨hde, hnear⟩, hrest⟩ := List.isChain_cons_cons.1 hnoise
    have hge : baseline ≤ e.nowUs :=
      UInt32.le_iff_toNat_le.2 (Nat.le_trans hle (UInt32.le_iff_toNat_le.1 hde))
    obtain ⟨hle', hlt'⟩ := e.nextBaseline_near baseline
    have hchain := ih hrest hle' hlt' (n + 1)
    rw [acceptedEdges]
    split
    · rename_i hs
      rw [hs.nextBaseline_eq] at hchain ⊢
      rw [List.map_cons]
      refine List.isChain_cons_cons.2 ⟨?_, hchain⟩
      change e.nowUs.toNat ≤ _
      omega
    · rename_i hs
      have hsame : e.nextBaseline baseline = baseline :=
        if_neg (not_or.2 ⟨UInt32.not_lt.2 hge, hs⟩)
      rw [hsame] at hchain ⊢
      exact hchain

/-- A chain with bounded steps does not get far. -/
theorem le_of_isChain {g x : ℕ} {xs : List ℕ} (h : (x :: xs).IsChain fun a b ↦ b ≤ a + g) {y : ℕ}
    (hy : y ∈ xs) : y ≤ x + g * xs.length := by
  induction xs generalizing x with
  | nil => cases hy
  | cons z zs ih =>
    obtain ⟨hz, hzs⟩ := List.isChain_cons_cons.1 h
    rw [List.length_cons, Nat.mul_succ]
    rcases List.mem_cons.1 hy with rfl | hy
    · omega
    · have hy := ih hzs hy
      omega

/-- `BURST_THRESHOLD` edges that are accepted of noise fit in a window. -/
theorem edgeTick_le_of_noise {baseline : UInt32} {es : List Edge} (hnoise : IsNoise es)
    (hticks : TicksConsistent es) {ps qs : List (ℕ × Edge)} {p : ℕ × Edge}
    (hsplit : acceptedEdges 0 baseline es = ps ++ p :: qs) {q : ℕ × Edge}
    (hq : q ∈ qs.take (burstThreshold.toNat - 1)) :
    edgeTick q ≤ edgeTick p + burstWindowMs.toNat := by
  have hchain : ((acceptedEdges 0 baseline es).map edgeUs).IsChain
      fun x y ↦ y ≤ x + 2 * minEdgeSpacingUs.toNat := by
    cases es with
    | nil => exact .nil
    | cons d es =>
      obtain ⟨hle, hlt⟩ := d.nextBaseline_near baseline
      have hrest := acceptedEdges_isChain hnoise hle hlt 1
      rw [acceptedEdges]
      split
      · rename_i hs
        rw [hs.nextBaseline_eq] at hrest ⊢
        exact hrest
      · exact hrest.tail
  have hpairs : (acceptedEdges 0 baseline es).Pairwise fun p q ↦
      1000 * edgeTick q + edgeUs p < 1000 * edgeTick p + edgeUs q + 1000 :=
    List.pairwise_map.1 ((hticks.sublist (acceptedEdges_sublist 0 baseline es)).imp And.left)
  rw [hsplit] at hchain hpairs
  rw [List.map_append] at hchain
  have htake : (edgeUs p :: (qs.take (burstThreshold.toNat - 1)).map edgeUs).IsChain
      fun x y ↦ y ≤ x + 2 * minEdgeSpacingUs.toNat :=
    hchain.right_of_append.prefix ((List.take_prefix burstThreshold.toNat (p :: qs)).map edgeUs)
  have hfar := le_of_isChain htake (List.mem_map_of_mem hq)
  have hlength : ((qs.take (burstThreshold.toNat - 1)).map edgeUs).length ≤ 79 := by
    rw [List.length_map]
    exact List.length_take_le _ _
  have hclock := (List.pairwise_cons.1 (List.pairwise_append.1 hpairs).2.1).1 q
    (List.mem_of_mem_take hq)
  have hspacing : minEdgeSpacingUs.toNat = 300 := rfl
  have hwindow : burstWindowMs.toNat = 60 := rfl
  rw [hspacing] at hfar
  omega

/-! ### What is counted of noise -/

/-- Every accepted edge is the end of some calls. -/
theorem exists_call {es : List Edge} (o : ObjectDetection) (n : ℕ) {m : ℕ}
    (hm : m < (acceptedEdges n o.lastEdgeUs es).length) :
    ∃ pre e post, es = pre ++ e :: post ∧ e.Spaced (afterEdges o pre).lastEdgeUs ∧
      acceptedEdges n o.lastEdgeUs (pre ++ [e]) =
        (acceptedEdges n o.lastEdgeUs es).take (m + 1) := by
  induction es generalizing o n m with
  | nil => cases hm
  | cons e es ih =>
    rw [acceptedEdges, ← lastEdgeUs_onEdge] at hm ⊢
    have hlater : ∀ m < (acceptedEdges (n + 1) (onEdge o e).1.lastEdgeUs es).length,
        ∃ pre d post, e :: es = e :: pre ++ d :: post ∧
          d.Spaced (afterEdges o (e :: pre)).lastEdgeUs ∧
          acceptedEdges (n + 1) (onEdge o e).1.lastEdgeUs (pre ++ [d]) =
            (acceptedEdges (n + 1) (onEdge o e).1.lastEdgeUs es).take (m + 1) := by
      intro m hm
      obtain ⟨pre, d, post, rfl, hspaced, htake⟩ := ih (onEdge o e).1 (n + 1) hm
      exact ⟨pre, d, post, rfl, hspaced, htake⟩
    split at hm
    · rename_i hs
      rw [if_pos hs]
      cases m with
      | zero =>
        refine ⟨[], e, es, rfl, hs, ?_⟩
        rw [List.nil_append, acceptedEdges, if_pos hs]
        rfl
      | succ m =>
        obtain ⟨pre, d, post, heq, hspaced, htake⟩ := hlater m (Nat.lt_of_succ_lt_succ hm)
        refine ⟨e :: pre, d, post, heq, hspaced, ?_⟩
        rw [List.cons_append, acceptedEdges, if_pos hs, ← lastEdgeUs_onEdge, htake,
          List.take_succ_cons]
    · rename_i hs
      rw [if_neg hs]
      obtain ⟨pre, d, post, heq, hspaced, htake⟩ := hlater m hm
      refine ⟨e :: pre, d, post, heq, hspaced, ?_⟩
      rw [List.cons_append, acceptedEdges, if_neg hs, ← lastEdgeUs_onEdge, htake]

/-- No call of these resets TIM5 or sets the flag. -/
def Ignored (o : ObjectDetection) (es : List Edge) : Prop :=
  ∀ pre e post, es = pre ++ e :: post →
    (onEdge (afterEdges o pre) e).2.resetTim5 = false ∧
      (onEdge (afterEdges o pre) e).2.setEdge = false

/-- What the counter has to say of a call that does nothing. -/
theorem ignored_ite {n : ℕ} (e : Edge) :
    ((if n < burstThreshold.toNat then (⟨false, false⟩ : EdgeEffect)
        else ⟨true, !e.present⟩).resetTim5 = false ∧
      (if n < burstThreshold.toNat then (⟨false, false⟩ : EdgeEffect)
        else ⟨true, !e.present⟩).setEdge = false) ↔ n < burstThreshold.toNat := by
  split
  · rename_i hlt
    exact iff_of_true ⟨rfl, rfl⟩ hlt
  · rename_i hge
    exact iff_of_false (fun h ↦ by cases h.1) hge

/-- **Calls are ignored** as long as the counter stays below the threshold. -/
theorem ignored_iff {o : ObjectDetection} {es : List Edge} {c : WindowCounter} (h : CountsAs o c)
    (hfirst : ∀ d ∈ es, c.first ≤ d.nowTick.toNat) (hsorted : TicksSorted es) :
    Ignored o es ↔ ∀ m < (acceptedEdges 0 o.lastEdgeUs es).length,
      (run burstWindowMs.toNat edgeTick c
        ((acceptedEdges 0 o.lastEdgeUs es).take (m + 1))).count % UInt32.size <
          burstThreshold.toNat := by
  have heffect : ∀ {pre : List Edge} {e : Edge} {post : List Edge}, es = pre ++ e :: post →
      e.Spaced (afterEdges o pre).lastEdgeUs →
      ((onEdge (afterEdges o pre) e).2.resetTim5 = false ∧
        (onEdge (afterEdges o pre) e).2.setEdge = false ↔
      (run burstWindowMs.toNat edgeTick c
        (acceptedEdges 0 o.lastEdgeUs (pre ++ [e]))).count % UInt32.size < burstThreshold.toNat) := by
    rintro pre e post rfl hs
    have hsub : (pre ++ [e]).Sublist (pre ++ e :: post) :=
      List.Sublist.append_left ((List.nil_sublist post).cons_cons e) pre
    rw [effect_of_spaced h (fun d hd ↦ hfirst d (hsub.subset hd)) (hsorted.sublist hsub) hs 0]
    exact ignored_ite e
  constructor
  · intro hignored m hm
    obtain ⟨pre, e, post, heq, hs, htake⟩ := exists_call o 0 hm
    rw [← htake]
    exact (heffect heq hs).1 (hignored pre e post heq)
  · intro hcounts pre e post heq
    rcases em (e.Spaced (afterEdges o pre).lastEdgeUs) with hs | hs
    · rw [heffect heq hs]
      -- the accepted edges up to here are the first ones of all
      have hsplit : acceptedEdges 0 o.lastEdgeUs es = acceptedEdges 0 o.lastEdgeUs (pre ++ [e]) ++
          acceptedEdges (0 + (pre ++ [e]).length) (afterEdges o (pre ++ [e])).lastEdgeUs post := by
        rw [← acceptedEdges_append, List.append_assoc, List.singleton_append, ← heq]
      have hlength := congrArg List.length (acceptedEdges_concat hs 0)
      rw [List.length_append, List.length_singleton] at hlength
      have hcount := hcounts (acceptedEdges 0 o.lastEdgeUs pre).length (by
        rw [hsplit, List.length_append]
        omega)
      rwa [← hlength, hsplit, List.take_left] at hcount
    · rw [onEdge_of_not_spaced hs]
      exact ⟨rfl, rfl⟩

/-! ### How much noise is ignored -/

/-- The accepted edges that fall in the window the module has open. -/
def inWindow (o : ObjectDetection) (es : List Edge) : List (ℕ × Edge) :=
  (acceptedEdges 0 o.lastEdgeUs es).filter fun p ↦
    edgeTick p ≤ o.burstFirstEdgeTick.toNat + burstWindowMs.toNat

/-- The accepted edges behind it. -/
def behindWindow (o : ObjectDetection) (es : List Edge) : List (ℕ × Edge) :=
  (acceptedEdges 0 o.lastEdgeUs es).filter fun p ↦
    o.burstFirstEdgeTick.toNat + burstWindowMs.toNat < edgeTick p

theorem inWindow_append_behindWindow {o : ObjectDetection} {es : List Edge}
    (hsorted : TicksSorted es) :
    inWindow o es ++ behindWindow o es = acceptedEdges 0 o.lastEdgeUs es :=
  filter_append_filter _ (edgeTick_pairwise hsorted 0 _)

section Counts

variable {c : WindowCounter} {early late : List (ℕ × Edge)}
  (hearly : ∀ p ∈ early, edgeTick p ≤ c.first + burstWindowMs.toNat)

include hearly

/-- As long as the window is open. -/
theorem count_run_take {m : ℕ} (hm : m < early.length) (late : List (ℕ × Edge)) :
    (run burstWindowMs.toNat edgeTick c ((early ++ late).take (m + 1))).count =
      c.count + m + 1 := by
  rw [List.take_append_of_le_length hm, run_of_open fun p hp ↦ hearly p (List.mem_of_mem_take hp)]
  simp only [List.length_take_of_le (Nat.succ_le_of_lt hm), Nat.add_assoc]

/-- Behind the window the count starts anew. -/
theorem run_behind {p : ℕ × Edge} (hp : c.first + burstWindowMs.toNat < edgeTick p)
    (ps : List (ℕ × Edge)) :
    run burstWindowMs.toNat edgeTick c (early ++ p :: ps) =
      run burstWindowMs.toNat edgeTick ⟨edgeTick p, 1⟩ ps := by
  rw [run_append, run_of_open hearly, run_cons,
    next_of_lt (c := ⟨c.first, c.count + early.length⟩) hp]

/-- Where the count reaches the threshold, of edges that fall in the window and of edges behind it
that are together as long as they are not too many. -/
theorem counts_lt_iff (hlate : ∀ p ∈ late, c.first + burstWindowMs.toNat < edgeTick p)
    (hclose : ∀ p ps, late = p :: ps → ∀ q ∈ ps.take (burstThreshold.toNat - 1),
      edgeTick q ≤ edgeTick p + burstWindowMs.toNat) :
    (∀ m < (early ++ late).length, (run burstWindowMs.toNat edgeTick c
      ((early ++ late).take (m + 1))).count % UInt32.size < burstThreshold.toNat) ↔
    (∀ i < early.length, (c.count + i + 1) % UInt32.size < burstThreshold.toNat) ∧
      late.length < burstThreshold.toNat := by
  have hthreshold : burstThreshold.toNat = 80 := rfl
  constructor
  · intro hcounts
    constructor
    · intro i hi
      rw [← count_run_take hearly hi late]
      exact hcounts i (by rw [List.length_append]; omega)
    · by_contra hmany
      obtain ⟨p, ps, rfl⟩ := List.exists_cons_of_ne_nil (l := late) (by
        rintro rfl
        exact hmany (by decide))
      -- the first of the late edges starts a window, and the next 79 fall in it
      rw [List.length_cons, hthreshold] at hmany
      have hcount := hcounts (early.length + 79)
        (by rw [List.length_append, List.length_cons]; omega)
      have htake : (early ++ p :: ps).take (early.length + 79 + 1) = early ++ p :: ps.take 79 := by
        rw [Nat.add_assoc, List.take_length_add_append, List.take_succ_cons]
      have hopen : run burstWindowMs.toNat edgeTick ⟨edgeTick p, 1⟩ (ps.take 79) =
          ⟨edgeTick p, 1 + (ps.take 79).length⟩ :=
        run_of_open (c := ⟨edgeTick p, 1⟩) (hclose p ps rfl)
      rw [htake, run_behind hearly (hlate p List.mem_cons_self), hopen,
        List.length_take_of_le (by omega), hthreshold] at hcount
      exact absurd hcount (Nat.lt_irrefl 80)
  · rintro ⟨hcounts, hfew⟩ m hm
    rcases Nat.lt_or_ge m early.length with hlt | hge
    · rw [count_run_take hearly hlt late]
      exact hcounts m hlt
    · -- only late edges are counted
      rw [List.length_append] at hm
      cases late with
      | nil => exact absurd hm (Nat.not_lt.2 hge)
      | cons p ps =>
        obtain ⟨k, rfl⟩ := Nat.exists_eq_add_of_le hge
        have htake : (early ++ p :: ps).take (early.length + k + 1) = early ++ p :: ps.take k := by
          rw [Nat.add_assoc, List.take_length_add_append, List.take_succ_cons]
        rw [htake, run_behind hearly (hlate p List.mem_cons_self)]
        have hcount : (run burstWindowMs.toNat edgeTick ⟨edgeTick p, 1⟩ (ps.take k)).count ≤
            1 + (ps.take k).length := count_run_le _ _
        have hlength := List.length_take_le' k ps
        rw [List.length_cons] at hfew
        exact Nat.lt_of_le_of_lt (Nat.mod_le _ _) (by omega)

end Counts

/-- **When noise is ignored**, behind any calls: the counter stays below `BURST_THRESHOLD` in the
window that is open, and fewer edges than that are accepted behind it. -/
theorem noise_ignored_iff {before noise : List Edge} (hsorted : TicksSorted (before ++ noise))
    (hnoise : IsNoise noise) (hticks : TicksConsistent noise) :
    Ignored (afterEdges objdetCreate before) noise ↔
      (∀ i < (inWindow (afterEdges objdetCreate before) noise).length,
        ((afterEdges objdetCreate before).burstEdgeCount.toNat + i + 1) % UInt32.size <
          burstThreshold.toNat) ∧
      (behindWindow (afterEdges objdetCreate before) noise).length < burstThreshold.toNat := by
  have hsorted' : TicksSorted noise := (List.pairwise_append.1 hsorted).2.1
  have hanchor : ∀ d ∈ noise,
      (afterEdges objdetCreate before).burstFirstEdgeTick.toNat ≤ d.nowTick.toNat :=
    fun _ hd ↦ burstFirstEdgeTick_le hsorted hd
  generalize afterEdges objdetCreate before = o at *
  have hsplit := inWindow_append_behindWindow (o := o) hsorted'
  rw [ignored_iff (countsAs_self o) hanchor hsorted', ← hsplit]
  refine counts_lt_iff (c := ⟨_, _⟩) (fun p hp ↦ ?_) (fun p hp ↦ ?_) fun p ps hlate q hq ↦ ?_
  · exact of_decide_eq_true (List.mem_filter.1 hp).2
  · exact of_decide_eq_true (List.mem_filter.1 hp).2
  · rw [hlate] at hsplit
    exact edgeTick_le_of_noise hnoise hticks hsplit.symm hq

/-- Noise with an edge every 200 microseconds. -/
def fastNoise (n : ℕ) : List Edge :=
  (List.range n).map fun i ↦
    ⟨UInt32.ofNat (100000 + 200 * i), UInt32.ofNat (100 + 200 * i / 1000), false⟩

instance (es : List Edge) : Decidable (IsNoise es) :=
  inferInstanceAs (Decidable (List.IsChain _ es))

instance (es : List Edge) : Decidable (TicksConsistent es) :=
  inferInstanceAs (Decidable (List.Pairwise _ es))

/-- The readings of its edges, for a fifth of a second. -/
theorem toNat_fastNoise {i n : ℕ} (hi : i ∈ List.range n) (hn : n ≤ 1000) :
    (UInt32.ofNat (100000 + 200 * i)).toNat = 100000 + 200 * i ∧
      (UInt32.ofNat (100 + 200 * i / 1000)).toNat = 100 + 200 * i / 1000 := by
  have hsize : UInt32.size = 4294967296 := rfl
  have hlt := List.mem_range.1 hi
  exact ⟨UInt32.toNat_ofNat_of_lt' (by omega), UInt32.toNat_ofNat_of_lt' (by omega)⟩

theorem ticksSorted_fastNoise {n : ℕ} (hn : n ≤ 1000) : TicksSorted (fastNoise n) := by
  refine List.pairwise_map.2 (List.pairwise_lt_range.imp_of_mem fun {i j} hi hj hlt ↦ ?_)
  rw [UInt32.le_iff_toNat_le, (toNat_fastNoise hi hn).2, (toNat_fastNoise hj hn).2]
  omega

theorem ticksConsistent_fastNoise {n : ℕ} (hn : n ≤ 1000) : TicksConsistent (fastNoise n) := by
  refine List.pairwise_map.2 (List.pairwise_lt_range.imp_of_mem fun {i j} hi hj hlt ↦ ?_)
  dsimp only
  rw [(toNat_fastNoise hi hn).1, (toNat_fastNoise hi hn).2, (toNat_fastNoise hj hn).1,
    (toNat_fastNoise hj hn).2]
  omega

/-- Ten milliseconds of it are ignored. -/
theorem noise_ignored_iff_short : Ignored objdetCreate (fastNoise 50) := by
  have hsorted : TicksSorted ([] ++ fastNoise 50) := ticksSorted_fastNoise (by decide)
  exact (noise_ignored_iff hsorted (by decide +kernel) (ticksConsistent_fastNoise (by decide))).2
    ⟨by decide +kernel, by decide +kernel⟩

/-- **Thirty-two milliseconds of it are a burst.** -/
theorem noise_detected :
    ¬∀ es, TicksSorted es → IsNoise es → TicksConsistent es → Ignored objdetCreate es := by
  intro h
  have hignored := h (fastNoise 159) (ticksSorted_fastNoise (by decide)) (by decide +kernel)
    (ticksConsistent_fastNoise (by decide)) (fastNoise 158) ⟨131600, 131, false⟩ []
    (by decide +kernel)
  exact absurd hignored.1 (by decide +kernel)

end SubmarineMonitor

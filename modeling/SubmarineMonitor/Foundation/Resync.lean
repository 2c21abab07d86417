import SubmarineMonitor.Foundation.Framing
import Mathlib.Data.Nat.Find

/-!
# Finding the way back into a framed stream

A scanner that is somewhere inside a segment takes whatever comes next for the rest of it. If the
stream that follows consists of segments and shows the sync pair only where they begin, the damage
is bounded: the interrupted segment ends after at most as many symbols as a tag, a length symbol and
the longest body, and from there on nothing is lost but the segment it ended in.

`scan_wire` is that statement. It rests on two facts: what a scanner inside a segment can do is end
the segment or run out of symbols (`scan_busy`), and what is left of the stream after any cut is
some sync-free symbols followed by whole segments (`exists_boundary`).

## What is assumed of the stream

That the sync pair stands only at heads is a condition on the whole stream, across the borders of
segments as well. It is decidable, since it speaks of the positions of one list. A format without
escapes cannot promise it, because a body may contain anything; what can be said without it is only
that the scanner accounts for every symbol.

## The bound

The pending segment ends after at most the missing part of its header and the longest body. It is
stated as *every segment that begins at `m + 2` or later*, with `m` the longest body and two for the
tag and the length; a scanner that has seen more of the header is back earlier.

Where the pending segment ends, some segment of the stream is cut in two as a rule. Its rest has no
sync pair, so it is junk, and the scanner is outside a segment when the next head comes. Both facts
are about the stream alone, and the scanner enters only through what it does on junk and on whole
segments.

`scan_wire` also says of the one extra segment where it began: among the symbols that were pending.
Without that it could be any segment at all.
-/

namespace FrameFormat

variable {α : Type*} {F : FrameFormat α}

/-! ### Streams of segments -/

/-- Segments on the wire, one after another. -/
def wire (ss : List (Segment F)) : List α :=
  ss.flatMap Segment.bytes

/-- Where segment `j` of a stream begins. -/
def offset (ss : List (Segment F)) (j : ℕ) : ℕ :=
  (wire (ss.take j)).length

/-- The sync pair occurs only where a segment begins. -/
def SyncedAtHeads (ss : List (Segment F)) : Prop :=
  ∀ i, [F.sync0, F.sync1] <+: (wire ss).drop i → ∃ j < ss.length, i = offset ss j

variable {ss : List (Segment F)}

theorem wire_append (ss ts : List (Segment F)) : wire (ss ++ ts) = wire ss ++ wire ts :=
  List.flatMap_append

theorem wire_take_append_drop (ss : List (Segment F)) (j : ℕ) :
    wire (ss.take j) ++ wire (ss.drop j) = wire ss := by
  rw [← wire_append, List.take_append_drop]

theorem offset_length (ss : List (Segment F)) : offset ss ss.length = (wire ss).length := by
  rw [offset, List.take_length]

theorem offset_le_length (ss : List (Segment F)) (j : ℕ) : offset ss j ≤ (wire ss).length := by
  rw [← wire_take_append_drop ss j, List.length_append]
  exact Nat.le_add_right _ _

theorem offset_mono {j k : ℕ} (h : j ≤ k) : offset ss j ≤ offset ss k := by
  have hle := offset_le_length (ss.take k) j
  rwa [offset, List.take_take, Nat.min_eq_left h] at hle

/-- A stream of segments is assembled from them, with no junk in between. -/
theorem assemble_wire (g : List α) (ss : List (Segment F)) :
    assemble g (ss.map fun s ↦ (s, [])) = g ++ wire ss := by
  rw [assemble, wire, List.flatMap_map]
  simp

/-- **What a cut leaves.** Behind any cut of such a stream come sync-free symbols and then the
segments that begin there or later. -/
theorem exists_boundary (hss : SyncedAtHeads ss) {a b : List α} (h : wire ss = a ++ b) :
    ∃ (k : ℕ) (g : List α), b = g ++ wire (ss.drop k) ∧ F.SyncFree g ∧
      ∀ j, a.length ≤ offset ss j → k ≤ j := by
  have hlast : ∃ k, a.length ≤ offset ss k := by
    refine ⟨ss.length, ?_⟩
    rw [offset_length, h, List.length_append]
    exact Nat.le_add_right _ _
  classical
  set k := Nat.find hlast with hk
  have hle : a.length ≤ offset ss k := Nat.find_spec hlast
  have hleast : ∀ j, a.length ≤ offset ss j → k ≤ j := fun j hj ↦ Nat.find_min' hlast hj
  have hdrop : b = (wire (ss.take k)).drop a.length ++ wire (ss.drop k) := by
    rw [← List.drop_append_of_le_length hle, wire_take_append_drop, h, List.drop_left]
  refine ⟨k, _, hdrop, ?_, hleast⟩
  -- a sync pair in between would be the head of an earlier segment
  rintro ⟨x, y, hxy⟩
  have hlen := congrArg List.length hxy
  rw [List.length_drop] at hlen
  simp only [List.length_append, List.length_cons, List.length_nil] at hlen
  have hpair : [F.sync0, F.sync1] <+: (wire ss).drop (a.length + x.length) := by
    rw [h, ← List.drop_drop, List.drop_left, hdrop, ← hxy, List.append_assoc, List.append_assoc,
      List.drop_left]
    exact List.prefix_append _ _
  obtain ⟨j, -, hj⟩ := hss _ hpair
  have hmono : offset ss k ≤ offset ss j := offset_mono (hleast j (by omega))
  rw [offset] at hmono
  omega

section Scan

variable [DecidableEq α]

instance (ss : List (Segment F)) : Decidable (SyncedAtHeads ss) :=
  decidable_of_iff (∀ i < (wire ss).length, [F.sync0, F.sync1] <+: (wire ss).drop i →
      ∃ j < ss.length, i = offset ss j) <| by
    refine ⟨fun h i hi ↦ h i ?_ hi, fun h i _ ↦ h i⟩
    by_contra hlong
    rw [List.drop_of_length_le (Nat.not_lt.1 hlong)] at hi
    simp at hi

/-! ### Inside a segment -/

omit [DecidableEq α] in
/-- Too little is pending outside a segment for a sync pair. -/
theorem Pending.Idle.syncFree {p : Pending F} (hp : p.Idle) : F.SyncFree (p.bytes ++ []) := by
  intro hpair
  have hle := hpair.length_le
  rcases hp with rfl | rfl <;> simp [Pending.bytes] at hle

/-- A scanner outside a segment. -/
theorem scan_idle {p : Pending F} (hp : p.Idle) {g : List α} (hg : F.SyncFree (p.bytes ++ g))
    (ss : List (Segment F)) : segments (scan p (g ++ wire ss)).2 = ss := by
  have hblocks : ∀ x ∈ ss.map fun s ↦ (s, ([] : List α)), F.SyncFree x.2 := by simp [SyncFree]
  obtain ⟨-, hsegments, -⟩ := scan_blocks hp hg hblocks
  rw [assemble_wire, List.map_map] at hsegments
  exact hsegments.trans (List.map_id ss)

/-- A symbol that comes while a segment is pending either leaves it pending or ends it. -/
theorem step_busy {p : Pending F} (hp : ¬p.Idle) (b : α) :
    (¬(step p b).1.Idle ∧ (step p b).2 = []) ∨ ∃ s, step p b = (.hunt, [.segment s]) := by
  cases p with
  | hunt => exact absurd (.inl rfl) hp
  | sync => exact absurd (.inr rfl) hp
  | tag => exact .inl ⟨by simp [step, Pending.Idle], rfl⟩
  | len t => exact .inl ⟨by simp [step, Pending.Idle], rfl⟩
  | body t l acc h =>
    rw [step]
    split_ifs
    · exact .inl ⟨by simp [Pending.Idle], rfl⟩
    · exact .inr ⟨_, rfl⟩

/-- **What a scanner inside a segment does**: it stays inside it, or ends it somewhere. -/
theorem scan_busy {p : Pending F} (hp : ¬p.Idle) (bs : List α) :
    (¬(scan p bs).1.Idle ∧ (scan p bs).2 = []) ∨
      ∃ a b s, bs = a ++ b ∧ a ≠ [] ∧ scan p a = (.hunt, [.segment s]) := by
  induction bs generalizing p with
  | nil => exact .inl ⟨hp, rfl⟩
  | cons c bs ih =>
    rcases step_busy hp c with ⟨hp', hnone⟩ | ⟨s, hs⟩
    · have hcons : ∀ as : List α, scan p (c :: as) = scan (step p c).1 as := by
        intro as
        rw [scan_cons, hnone, List.nil_append]
      rw [hcons]
      rcases ih hp' with hstay | ⟨a, b, s, rfl, -, hscan⟩
      · exact .inl hstay
      · exact .inr ⟨c :: a, b, s, rfl, List.cons_ne_nil _ _, by rw [hcons, hscan]⟩
    · refine .inr ⟨[c], bs, s, rfl, List.cons_ne_nil _ _, ?_⟩
      rw [scan_cons, hs]
      rfl

omit [DecidableEq α] in
/-- A pending segment has its sync pair. -/
theorem Pending.two_le_length_bytes {p : Pending F} (hp : ¬p.Idle) : 2 ≤ p.bytes.length := by
  cases p with
  | hunt => exact absurd (.inl rfl) hp
  | sync => exact absurd (.inr rfl) hp
  | tag | len t | body t l acc h => simp [Pending.bytes]

omit [DecidableEq α] in
/-- What is pending is less than the longest segment. -/
theorem Pending.length_bytes_lt (p : Pending F) {m : ℕ} (hm : ∀ l, F.bodyLength l ≤ m) :
    p.bytes.length < m + 4 := by
  cases p with
  | hunt | sync | tag | len t => simp [Pending.bytes]
  | body t l acc h =>
    have hl := hm l
    simp only [Pending.bytes, List.length_cons]
    omega

omit [DecidableEq α] in
/-- The segments among some items take their place among their bytes. -/
theorem length_wire_segments_le (items : List (Item F)) :
    (wire (segments items)).length ≤ (items.flatMap Item.bytes).length := by
  induction items with
  | nil => exact le_rfl
  | cons i items ih =>
    rw [List.flatMap_cons, List.length_append]
    cases i with
    | junk b => exact ih.trans (Nat.le_add_left _ _)
    | segment s =>
      rw [segments_segment_cons, wire, List.flatMap_cons, List.length_append, Item.bytes]
      exact Nat.add_le_add_left ih _

omit [DecidableEq α] in
theorem length_bytes_le_of_mem_segments {items : List (Item F)} {s : Segment F}
    (h : s ∈ segments items) : s.bytes.length ≤ (items.flatMap Item.bytes).length := by
  obtain ⟨before, after, hsplit⟩ := List.append_of_mem h
  have hle := length_wire_segments_le items
  rw [hsplit, wire_append, wire, wire, List.flatMap_cons, List.length_append,
    List.length_append] at hle
  omega

/-- **A stream of segments shows its last one at its very end.** What is scanned before that are some
of the segments in front of it. -/
theorem exists_segments_take {a b : List α} (h : wire ss = a ++ b) (hb : b ≠ []) :
    ∃ k < ss.length, segments (scan (.hunt : Pending F) a).2 = ss.take k := by
  have hall := scan_idle (.inl rfl) (Pending.Idle.syncFree (.inl rfl)) ss
  rw [List.nil_append, h, scan_append, segments_append] at hall
  refine ⟨(segments (scan (.hunt : Pending F) a).2).length, ?_, ?_⟩
  · by_contra hlong
    -- all segments would be among the bytes in front of the cut
    have hlength := congrArg List.length hall
    rw [List.length_append] at hlength
    have hnil : segments (scan (scan (.hunt : Pending F) a).1 b).2 = [] :=
      List.eq_nil_of_length_eq_zero (by omega)
    rw [hnil, List.append_nil] at hall
    have hle := length_wire_segments_le (scan (.hunt : Pending F) a).2
    have hbytes := congrArg List.length (scan_bytes (.hunt : Pending F) a)
    have hpos := List.length_pos_of_ne_nil hb
    have hzero : (Pending.hunt : Pending F).bytes.length = 0 := rfl
    rw [hall, h, List.length_append] at hle
    rw [List.length_append, List.length_append] at hbytes
    omega
  · rw [← hall, List.take_left]

/-- The segment that ends the pending one consists of what was pending and what it took. -/
theorem bytes_of_scan {p : Pending F} {a : List α} {s : Segment F}
    (h : scan p a = (.hunt, [.segment s])) : s.bytes = p.bytes ++ a := by
  have hbytes := scan_bytes p a
  rw [h] at hbytes
  simpa [Item.bytes, Pending.bytes] using hbytes

/-- A segment that arrives while another is pending is lost, unless it repeats the first sync symbol
inside. -/
theorem not_mem_segments_of_busy {p : Pending F} (hp : ¬p.Idle) {s : Segment F}
    (hs : F.sync0 ∉ s.bytes.drop 2) : s ∉ segments (scan p s.bytes).2 := by
  intro hmem
  rcases scan_busy hp s.bytes with ⟨-, hnone⟩ | ⟨a, b, t, hab, hne, hscan⟩
  · rw [hnone] at hmem
    cases hmem
  · obtain ⟨c, a, rfl⟩ := List.exists_cons_of_ne_nil hne
    rw [hab, scan_append, hscan, List.singleton_append, segments_segment_cons] at hmem
    rcases List.mem_cons.1 hmem with rfl | hmem
    · -- it would have to be the rest of itself
      have hbytes := bytes_of_scan hscan
      obtain rfl : F.sync0 = c := (List.cons.inj hab).1
      apply hs
      rw [hbytes, List.drop_append_of_le_length (Pending.two_le_length_bytes hp)]
      exact List.mem_append_right _ List.mem_cons_self
    · -- too few symbols are left for it
      have hle : s.bytes.length ≤ ((scan (.hunt : Pending F) b).2.flatMap Item.bytes).length :=
        length_bytes_le_of_mem_segments hmem
      have hbytes := congrArg List.length (scan_bytes (.hunt : Pending F) b)
      have hlen := congrArg List.length hab
      have hzero : (Pending.hunt : Pending F).bytes.length = 0 := rfl
      simp only [List.length_append, List.length_cons] at hbytes hlen
      omega

/-! ### Behind it -/

/-- **Resynchronisation.** Whatever is pending, a stream of segments that shows the sync pair only at
their heads is scanned into at most one segment that ends the pending one, and then a final part of
the stream's own segments; with bodies of at most `m` symbols, every segment beginning at `m + 2` or
later is among them. -/
theorem scan_wire (p : Pending F) (hss : SyncedAtHeads ss) {m : ℕ}
    (hm : ∀ l, F.bodyLength l ≤ m) :
    ∃ (first : List (Segment F)) (k : ℕ), segments (scan p (wire ss)).2 = first ++ ss.drop k ∧
      first.length ≤ 1 ∧
      (∀ s ∈ first, 2 ≤ p.bytes.length ∧ ∃ a ≠ [], a <+: wire ss ∧ s.bytes = p.bytes ++ a) ∧
      ∀ j < ss.length, m + 2 ≤ offset ss j → k ≤ j := by
  by_cases hp : p.Idle
  · have hall := scan_idle hp hp.syncFree ss
    rw [List.nil_append] at hall
    exact ⟨[], 0, hall, Nat.zero_le 1, by simp, fun j _ _ ↦ Nat.zero_le j⟩
  · have htwo := Pending.two_le_length_bytes hp
    have hlong := p.length_bytes_lt hm
    rcases scan_busy hp (wire ss) with ⟨-, hnone⟩ | ⟨a, b, s, hab, hne, hscan⟩
    · -- the stream is over before the segment is, and so was shorter than it
      have hbytes := scan_bytes p (wire ss)
      rw [hnone, List.flatMap_nil, List.nil_append] at hbytes
      have hlen := (scan p (wire ss)).1.length_bytes_lt hm
      rw [hbytes, List.length_append] at hlen
      refine ⟨[], ss.length, by simp [hnone], Nat.zero_le 1, by simp, fun j _ hj ↦ ?_⟩
      have hle := offset_le_length ss j
      omega
    · have hbytes := bytes_of_scan hscan
      have htaken : a.length ≤ m + 2 := by
        have hlen := congrArg List.length hbytes
        have hl := hm s.len
        rw [Segment.length_bytes, List.length_append] at hlen
        omega
      obtain ⟨k, g, rfl, hfree, hleast⟩ := exists_boundary hss hab
      refine ⟨[s], k, ?_, le_rfl, ?_, fun j _ hj ↦ hleast j (htaken.trans hj)⟩
      · rw [hab, scan_append, hscan, segments_append, scan_idle (.inl rfl) hfree]
        rfl
      · intro t ht
        obtain rfl := List.mem_singleton.1 ht
        exact ⟨htwo, a, hne, hab ▸ List.prefix_append _ _, hbytes⟩

end Scan

end FrameFormat

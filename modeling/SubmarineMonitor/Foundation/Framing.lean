import Mathlib.Algebra.GroupWithZero.Nat
import Mathlib.Data.List.Infix
import SubmarineMonitor.Foundation.Mealy

/-!
# Framed streams

What a receiver for a sync-word/length-prefixed serial format *ought* to compute, over an arbitrary
alphabet and for an arbitrary rule reading the body length off the length symbol. No checksum
appears here: whether a complete segment is any good is the client's business.

A stream is cut into **items** — junk symbols and complete segments — by the scanner `step`. Its
state `Pending` is the unfinished end of the stream, and carries the bound that keeps it unfinished,
so that no invariant about it has to be maintained by hand.

Two theorems are what everything downstream uses:

* `scan_bytes`: every scanned symbol is accounted for exactly once, either in an emitted item or in
  the pending end;
* `scan_blocks`: on a stream assembled from segments separated by sync-free junk, the scanner
  emits exactly those segments, whatever their bodies contain.

## Why no checksum

A scanner knows where a segment ends from the length symbol alone. If it looked at a checksum, it
could go back and hunt inside a segment that failed; a receiver that forgets what it has read
cannot. Leaving the check to the client makes the scanner a description of what is possible without
going back, and the client's verdict a function of complete segments.

## The pending end

`Pending` is a type with one constructor for each place in a segment. Inside the body it carries the
symbols received so far and a proof that some are missing, so the scanner has no case for a body
that is full. The scan of a stream is a fold over it. `scan_bytes` makes *accounted for* a matter of
lists and not of positions.

`SyncFree` is about a run of symbols alone. A run whose last symbol is the first of the sync pair is
free of it, and joins with what follows; that is why the statements put the pending symbols in front
of the junk.
-/

/-- A framed format: two distinct sync symbols, a tag, a length symbol, and a nonempty body whose
length the length symbol determines. -/
structure FrameFormat (α : Type*) where
  /-- First sync symbol. -/
  sync0 : α
  /-- Second sync symbol. -/
  sync1 : α
  /-- The two differ, so a repeated first symbol is never a sync pair. -/
  sync_ne : sync0 ≠ sync1
  /-- How many symbols follow a given length symbol. -/
  bodyLength : α → ℕ
  /-- Every segment has a body. -/
  bodyLength_pos : ∀ l, 0 < bodyLength l

namespace FrameFormat

variable {α : Type*}

/-- A complete segment of the format. -/
@[ext]
structure Segment (F : FrameFormat α) where
  /-- The tag symbol. -/
  tag : α
  /-- The length symbol. -/
  len : α
  /-- What follows the length symbol. -/
  body : List α
  /-- The body is as long as the length symbol says. -/
  body_length : body.length = F.bodyLength len

/-- What the scanner cuts a stream into. -/
inductive Item (F : FrameFormat α)
  | junk (b : α)
  | segment (s : Segment F)

/-- The unfinished end of a stream. -/
inductive Pending (F : FrameFormat α)
  | hunt
  | sync
  | tag
  | len (t : α)
  | body (t l : α) (acc : List α) (unfinished : acc.length < F.bodyLength l)

variable {F : FrameFormat α}

/-- A segment on the wire. -/
def Segment.bytes (s : Segment F) : List α :=
  F.sync0 :: F.sync1 :: s.tag :: s.len :: s.body

@[simp]
theorem Segment.length_bytes (s : Segment F) : s.bytes.length = F.bodyLength s.len + 4 := by
  simp [bytes, s.body_length]

/-- An item on the wire. -/
def Item.bytes : Item F → List α
  | .junk b => [b]
  | .segment s => s.bytes

/-- The segment an item is, if it is one. -/
def Item.segment? : Item F → Option (Segment F)
  | .junk _ => none
  | .segment s => some s

/-- Whether an item is junk. -/
def Item.isJunk : Item F → Bool
  | .junk _ => true
  | .segment _ => false

/-- The symbols the pending end has consumed. -/
def Pending.bytes : Pending F → List α
  | .hunt => []
  | .sync => [F.sync0]
  | .tag => [F.sync0, F.sync1]
  | .len t => [F.sync0, F.sync1, t]
  | .body t l acc _ => F.sync0 :: F.sync1 :: t :: l :: acc

/-- The segments among a list of items, in order. -/
def segments (items : List (Item F)) : List (Segment F) :=
  items.filterMap Item.segment?

/-- The number of junk symbols among a list of items. -/
def junkCount (items : List (Item F)) : ℕ :=
  items.countP Item.isJunk

@[simp] theorem segments_nil : segments ([] : List (Item F)) = [] := rfl

@[simp] theorem junkCount_nil : junkCount ([] : List (Item F)) = 0 := rfl

@[simp]
theorem segments_append (a b : List (Item F)) : segments (a ++ b) = segments a ++ segments b :=
  List.filterMap_append

@[simp]
theorem junkCount_append (a b : List (Item F)) :
    junkCount (a ++ b) = junkCount a + junkCount b :=
  List.countP_append

@[simp]
theorem segments_junk_cons (b : α) (items : List (Item F)) :
    segments (.junk b :: items) = segments items :=
  rfl

@[simp]
theorem segments_segment_cons (s : Segment F) (items : List (Item F)) :
    segments (.segment s :: items) = s :: segments items :=
  rfl

@[simp]
theorem junkCount_junk_cons (b : α) (items : List (Item F)) :
    junkCount (.junk b :: items) = junkCount items + 1 :=
  List.countP_cons_of_pos rfl

@[simp]
theorem junkCount_segment_cons (s : Segment F) (items : List (Item F)) :
    junkCount (.segment s :: items) = junkCount items :=
  List.countP_cons_of_neg (by simp [Item.isJunk])

@[simp]
theorem segments_map_junk (bs : List α) : segments (bs.map (Item.junk (F := F))) = [] := by
  induction bs with
  | nil => rfl
  | cons b bs ih => rw [List.map_cons, segments_junk_cons, ih]

@[simp]
theorem junkCount_map_junk (bs : List α) :
    junkCount (bs.map (Item.junk (F := F))) = bs.length := by
  induction bs with
  | nil => rfl
  | cons b bs ih => rw [List.map_cons, junkCount_junk_cons, ih, List.length_cons]

/-- The pending end is a proper initial part of some segment. -/
theorem Pending.exists_segment [Inhabited α] (p : Pending F) :
    ∃ (s : Segment F) (rest : List α), rest ≠ [] ∧ s.bytes = p.bytes ++ rest := by
  have fill : ∀ (l : α) (acc : List α), acc.length ≤ F.bodyLength l →
      (acc ++ List.replicate (F.bodyLength l - acc.length) default).length = F.bodyLength l := by
    intro l acc h
    rw [List.length_append, List.length_replicate]
    omega
  have start := fill default [] (Nat.zero_le _)
  cases p with
  | hunt => exact ⟨⟨default, default, _, start⟩, _, by simp, rfl⟩
  | sync => exact ⟨⟨default, default, _, start⟩, _, by simp, rfl⟩
  | tag => exact ⟨⟨default, default, _, start⟩, _, by simp, rfl⟩
  | len t => exact ⟨⟨t, default, _, start⟩, _, by simp, rfl⟩
  | body t l acc h =>
    refine ⟨⟨t, l, _, fill l acc h.le⟩, List.replicate (F.bodyLength l - acc.length) default, ?_,
      rfl⟩
    rw [Ne, List.replicate_eq_nil_iff]
    omega

section Scan

variable [DecidableEq α]

/-- One step of the scanner: the new pending end and the items this symbol completes. -/
def step (p : Pending F) (b : α) : Pending F × List (Item F) :=
  match p with
  | .hunt => if b = F.sync0 then (.sync, []) else (.hunt, [.junk b])
  | .sync =>
    if b = F.sync1 then (.tag, [])
    else if b = F.sync0 then (.sync, [.junk F.sync0])
    else (.hunt, [.junk F.sync0, .junk b])
  | .tag => (.len b, [])
  | .len t => (.body t b [] (F.bodyLength_pos b), [])
  | .body t l acc h =>
    if h' : acc.length + 1 < F.bodyLength l then
      (.body t l (acc ++ [b]) (by simpa using h'), [])
    else
      (.hunt, [.segment ⟨t, l, acc ++ [b],
        (List.length_append).trans (Nat.le_antisymm h (Nat.not_lt.1 h'))⟩])

/-- Scan a whole stream. -/
def scan (p : Pending F) (bs : List α) : Pending F × List (Item F) :=
  Mealy.run step p bs

/-- One step loses nothing: the consumed symbols are those emitted and those still pending. -/
theorem step_bytes (p : Pending F) (b : α) :
    ((step p b).2.flatMap Item.bytes) ++ (step p b).1.bytes = p.bytes ++ [b] := by
  cases p with
  | hunt => simp only [step]; split_ifs with h <;> simp [Item.bytes, Pending.bytes, h]
  | sync =>
    simp only [step]
    split_ifs with h₁ h₀
    · simp [Pending.bytes, h₁]
    · simp [Item.bytes, Pending.bytes, h₀]
    · simp [Item.bytes, Pending.bytes]
  | tag => rfl
  | len t => rfl
  | body t l acc h =>
    simp only [step]
    split_ifs <;> simp [Item.bytes, Segment.bytes, Pending.bytes]

/-- A step that completes a segment completes nothing else, and starts anew. -/
theorem step_of_segments_eq_cons {p : Pending F} {b : α} {s : Segment F} {rest : List (Segment F)}
    (h : segments (step p b).2 = s :: rest) : step p b = (.hunt, [.segment s]) := by
  cases p with
  | hunt => simp only [step] at h; split_ifs at h <;> simp at h
  | sync => simp only [step] at h; split_ifs at h <;> simp at h
  | tag => cases h
  | len t => cases h
  | body t l acc hlt =>
    simp only [step] at h ⊢
    split_ifs at h ⊢
    · cases h
    · obtain ⟨rfl, -⟩ := List.cons.inj h
      rfl

/-- **Every symbol is accounted for exactly once**: in an emitted item or in the pending end. -/
theorem scan_bytes (p : Pending F) (bs : List α) :
    ((scan p bs).2.flatMap Item.bytes) ++ (scan p bs).1.bytes = p.bytes ++ bs := by
  induction bs generalizing p with
  | nil => simp [scan]
  | cons b bs ih =>
    rw [scan, Mealy.run_cons, List.flatMap_append, List.append_assoc]
    have h := ih (step p b).1
    rw [scan] at h
    rw [h, ← List.append_assoc, step_bytes, List.append_assoc, List.singleton_append]

theorem scan_append (p : Pending F) (as bs : List α) :
    scan p (as ++ bs) =
      ((scan (scan p as).1 bs).1, (scan p as).2 ++ (scan (scan p as).1 bs).2) :=
  Mealy.run_append p as bs

theorem scan_cons (p : Pending F) (b : α) (bs : List α) :
    scan p (b :: bs) =
      ((scan (step p b).1 bs).1, (step p b).2 ++ (scan (step p b).1 bs).2) :=
  rfl

/-! ### Segments

A body is collected by counting, never by looking for markers, so its contents are arbitrary. -/

/-- A body that is not yet complete keeps the segment pending. -/
theorem scan_body_unfinished {t l : α} {acc : List α} {h : acc.length < F.bodyLength l}
    {rest : List α} (hrest : (acc ++ rest).length < F.bodyLength l) :
    scan (.body t l acc h) rest = (.body t l (acc ++ rest) hrest, []) := by
  induction rest generalizing acc with
  | nil => simp [scan]
  | cons b rest ih =>
    have hmore : acc.length + 1 < F.bodyLength l := by
      simp only [List.length_append, List.length_cons] at hrest
      omega
    have hstep : step (.body t l acc h) b =
        (.body t l (acc ++ [b]) (by simpa using hmore), []) := dif_pos hmore
    have hrest' : ((acc ++ [b]) ++ rest).length < F.bodyLength l := by simpa using hrest
    rw [scan_cons, hstep, ih hrest']
    simp

/-- A body that comes to its full length completes the segment. -/
theorem scan_body_complete {t l : α} {acc : List α} {h : acc.length < F.bodyLength l}
    {rest : List α} (hrest : (acc ++ rest).length = F.bodyLength l) :
    scan (.body t l acc h) rest = (.hunt, [.segment ⟨t, l, acc ++ rest, hrest⟩]) := by
  induction rest generalizing acc with
  | nil => simp only [List.append_nil] at hrest; omega
  | cons b rest ih =>
    rw [scan_cons]
    by_cases hmore : acc.length + 1 < F.bodyLength l
    · have hstep : step (.body t l acc h) b =
          (.body t l (acc ++ [b]) (by simpa using hmore), []) := dif_pos hmore
      rw [hstep, ih (by simpa using hrest)]
      simp
    · -- the last symbol of the body
      have hnil : rest = [] := by
        simp only [List.length_append, List.length_cons] at hrest
        exact List.eq_nil_of_length_eq_zero (by omega)
      subst hnil
      simp [step, hmore, scan]

/-! ### Junk

Between segments nothing is pending, except perhaps a lone first sync symbol that may or may not
turn out to begin a segment. -/

/-- Nothing is pending but perhaps a lone first sync symbol. -/
def Pending.Idle (p : Pending F) : Prop :=
  p = .hunt ∨ p = .sync

/-- No sync pair occurs in a run of symbols. -/
def SyncFree (F : FrameFormat α) (g : List α) : Prop :=
  ¬[F.sync0, F.sync1] <:+: g

instance (g : List α) : Decidable (F.SyncFree g) :=
  inferInstanceAs (Decidable (¬_))

omit [DecidableEq α] in
theorem SyncFree.of_cons {b : α} {g : List α} (h : F.SyncFree (b :: g)) : F.SyncFree g :=
  fun hg ↦ h (hg.trans (List.suffix_cons b g).isInfix)

omit [DecidableEq α] in
theorem SyncFree.ne_sync1 {b : α} {g : List α} (h : F.SyncFree (F.sync0 :: b :: g)) :
    b ≠ F.sync1 := by
  rintro rfl
  exact h (List.prefix_append [F.sync0, F.sync1] g).isInfix

/-- Scanning sync-free junk emits only junk, and leaves pending only a trailing first sync
symbol. -/
theorem scan_junk {p : Pending F} (hp : p.Idle) {g : List α} (hg : F.SyncFree (p.bytes ++ g)) :
    (scan p g).1.Idle ∧ segments (scan p g).2 = [] ∧
      junkCount (scan p g).2 + (scan p g).1.bytes.length = p.bytes.length + g.length ∧
      ((scan p g).1 = .sync ↔ (p.bytes ++ g).getLast? = some F.sync0) := by
  induction g generalizing p with
  | nil =>
    rcases hp with rfl | rfl
    · exact ⟨.inl rfl, rfl, rfl, by simp [scan, Pending.bytes]⟩
    · exact ⟨.inr rfl, rfl, rfl, by simp [scan, Pending.bytes]⟩
  | cons b g ih =>
    have hlast : ∀ {c : α}, c ≠ F.sync0 →
        ((scan (.hunt : Pending F) g).1 = .sync ↔ g.getLast? = some F.sync0) →
        ((scan (.hunt : Pending F) g).1 = .sync ↔ (c :: g).getLast? = some F.sync0) := by
      intro c hc h
      rw [h, List.getLast?_cons]
      cases g.getLast? <;> simp [hc]
    rw [scan_cons]
    rcases hp with rfl | rfl
    · by_cases hb : b = F.sync0
      · have hstep : step (.hunt : Pending F) b = (.sync, []) := if_pos hb
        obtain ⟨h₁, h₂, h₃, h₄⟩ := ih (p := .sync) (.inr rfl) (by subst hb; exact hg)
        rw [hstep]
        refine ⟨h₁, h₂, ?_, by subst hb; exact h₄⟩
        simp only [Pending.bytes, List.length_cons, List.length_nil, List.nil_append] at h₃ ⊢
        omega
      · have hstep : step (.hunt : Pending F) b = (.hunt, [.junk b]) := if_neg hb
        obtain ⟨h₁, h₂, h₃, h₄⟩ := ih (p := .hunt) (.inl rfl) (SyncFree.of_cons hg)
        rw [hstep]
        refine ⟨h₁, h₂, ?_, hlast hb h₄⟩
        simp only [Pending.bytes, List.length_cons, List.length_nil, List.singleton_append,
          junkCount_junk_cons] at h₃ ⊢
        omega
    · have hb₁ : b ≠ F.sync1 := SyncFree.ne_sync1 hg
      by_cases hb : b = F.sync0
      · -- `s0 s0`: the first is junk after all, the second may still begin a segment
        have hstep : step (.sync : Pending F) b = (.sync, [.junk F.sync0]) := by
          rw [step, if_neg hb₁, if_pos hb]
        obtain ⟨h₁, h₂, h₃, h₄⟩ := ih (p := .sync) (.inr rfl)
          (by subst hb; exact SyncFree.of_cons hg)
        rw [hstep]
        refine ⟨h₁, h₂, ?_, by subst hb; simpa [Pending.bytes] using h₄⟩
        simp only [Pending.bytes, List.length_cons, List.length_nil, List.singleton_append,
          junkCount_junk_cons] at h₃ ⊢
        omega
      · have hstep : step (.sync : Pending F) b = (.hunt, [.junk F.sync0, .junk b]) := by
          rw [step, if_neg hb₁, if_neg hb]
        obtain ⟨h₁, h₂, h₃, h₄⟩ := ih (p := .hunt) (.inl rfl)
          (SyncFree.of_cons (SyncFree.of_cons hg))
        rw [hstep]
        refine ⟨h₁, h₂, ?_, ?_⟩
        · simp only [Pending.bytes, List.length_cons, List.length_nil, List.cons_append,
            List.nil_append, junkCount_junk_cons] at h₃ ⊢
          omega
        · rw [hlast hb h₄]
          simp [Pending.bytes]

/-! ### Assembled streams -/

/-- A segment met between segments is emitted whole, after whatever was pending before it. -/
theorem scan_segment {p : Pending F} (hp : p.Idle) (s : Segment F) :
    scan p s.bytes = (.hunt, p.bytes.map .junk ++ [.segment s]) := by
  have hbody : scan (.body s.tag s.len [] (F.bodyLength_pos s.len)) s.body =
      (.hunt, [.segment s]) := @scan_body_complete _ F _ s.tag s.len [] _ s.body s.body_length
  have hheader : ∀ q : Pending F, q = .sync → scan q (F.sync1 :: s.tag :: s.len :: s.body) =
      (.hunt, [.segment s]) := by
    rintro q rfl
    have hstep : step (.sync : Pending F) F.sync1 = (.tag, []) := if_pos rfl
    have htag : step (.tag : Pending F) s.tag = (.len s.tag, []) := rfl
    have hlen : step (.len s.tag : Pending F) s.len =
        (.body s.tag s.len [] (F.bodyLength_pos s.len), []) := rfl
    rw [scan_cons, hstep, scan_cons, htag, scan_cons, hlen, hbody]
    rfl
  rw [Segment.bytes, scan_cons]
  rcases hp with rfl | rfl
  · have hstep : step (.hunt : Pending F) F.sync0 = (.sync, []) := if_pos rfl
    rw [hstep, hheader _ rfl]
    rfl
  · have hstep : step (.sync : Pending F) F.sync0 = (.sync, [.junk F.sync0]) := by
      rw [step, if_neg F.sync_ne, if_pos rfl]
    rw [hstep, hheader _ rfl]
    rfl

/-- A stream assembled from a leading junk run and segments, each followed by a junk run. -/
def assemble (g₀ : List α) (blocks : List (Segment F × List α)) : List α :=
  g₀ ++ blocks.flatMap fun x ↦ x.1.bytes ++ x.2

/-- The junk run an assembled stream ends with. -/
def lastRun (g₀ : List α) (blocks : List (Segment F × List α)) : List α :=
  (blocks.getLast?.map Prod.snd).getD g₀

/-- The total length of the junk runs of an assembled stream. -/
def junkLength (g₀ : List α) (blocks : List (Segment F × List α)) : ℕ :=
  g₀.length + (blocks.map fun x ↦ x.2.length).sum

/-- **An assembled stream is cut where it was assembled.** From between segments, scanning emits
exactly the segments it was assembled from; the junk emitted is all the junk there is, less a
trailing first sync symbol, which is still pending. -/
theorem scan_blocks {p : Pending F} (hp : p.Idle) {g₀ : List α}
    (hg₀ : F.SyncFree (p.bytes ++ g₀)) {blocks : List (Segment F × List α)}
    (hblocks : ∀ x ∈ blocks, F.SyncFree x.2) :
    (scan p (assemble g₀ blocks)).1.Idle ∧
      segments (scan p (assemble g₀ blocks)).2 = blocks.map Prod.fst ∧
      junkCount (scan p (assemble g₀ blocks)).2 + (scan p (assemble g₀ blocks)).1.bytes.length =
        p.bytes.length + junkLength g₀ blocks ∧
      ((scan p (assemble g₀ blocks)).1 = .sync ↔
        (lastRun (p.bytes ++ g₀) blocks).getLast? = some F.sync0) := by
  obtain ⟨h₁, h₂, h₃, h₄⟩ := scan_junk hp hg₀
  rw [assemble, scan_append]
  generalize scan p g₀ = r at h₁ h₂ h₃ h₄
  induction blocks generalizing p g₀ r with
  | nil => exact ⟨h₁, by simp [scan, h₂], by simp [scan, junkLength, h₃], h₄⟩
  | cons x blocks ih =>
    obtain ⟨s, g⟩ := x
    have hg : F.SyncFree ((.hunt : Pending F).bytes ++ g) := hblocks _ List.mem_cons_self
    obtain ⟨k₁, k₂, k₃, k₄⟩ := scan_junk (p := .hunt) (.inl rfl) hg
    obtain ⟨i₁, i₂, i₃, i₄⟩ := ih (p := .hunt) (.inl rfl) hg
      (fun y hy ↦ hblocks y (List.mem_cons_of_mem _ hy)) _ k₁ k₂ k₃ k₄
    simp only [List.flatMap_cons, List.append_assoc]
    rw [scan_append, scan_segment h₁, scan_append]
    refine ⟨i₁, ?_, ?_, ?_⟩
    · simpa [h₂, segments_map_junk] using i₂
    · simp only [junkLength, Pending.bytes, List.length_nil, junkCount_append, junkCount_map_junk,
        junkCount_segment_cons, junkCount_nil, List.map_cons, List.sum_cons] at i₃ h₃ ⊢
      omega
    · rw [i₄]
      cases blocks <;> simp [lastRun, Pending.bytes, List.getLast?_cons]

end Scan

end FrameFormat

import SubmarineMonitor.Protocol.Receiver

/-!
# What is in the receiver's memory

The receiver's fields in every state it can reach, on any stream: the index stays inside the value
array, the array begins with the value bytes received for the current frame, and the running
checksum is that of everything received for it. The refinement relation says most of this; what it
leaves open is the index behind the value, and the index is all that tells how much of the array
belongs to the frame.

The index is cleared by the length byte, not by the sync pair. Between the two it still counts the
value bytes of the frame before, so the array holds what it holds up to the index only from the
length byte on (`not_stored_everywhere`).

## Why it is separate

The refinement is about what goes in and out, and for that the relation `Tracks` may stay silent
about everything that is dead. Questions about memory safety are about all of it: an index that is
dead today may be used as an index tomorrow. `IndexOk` is the invariant that closes the gap. It is
an implication from the state, since the index means nothing in the states before the length byte,
and it is preserved by every byte whatever the relation says.

`tlvReceiverFeedByte_idx` is an inversion of the switch for the index only: three branches touch it
or need it, the others are in states where nothing is claimed. The invariant is read off that, by
cases on the branch, and from a step to a stream by the run rule of `Foundation.Mealy`.

## Any memory

The receiver's array is static memory that nobody clears, and for the statements it may hold
anything: `receiverAfter` begins with an arbitrary receiver that is then initialised. What the array
begins with is said from the length byte on, and only for as many bytes as the index counts. What
stands behind them is what earlier frames left; the frame that is delivered has exactly its own
value bytes in front (`receiverAfter_sound`), and `Protocol.Handler` is about the handlers that look
no further.

## What is left out

A receiver whose state byte has been overwritten from outside. The default branch would reset it,
and no code of the repository writes to the field.
-/

open FrameFormat

namespace SubmarineMonitor

/-! ### What was received for the current frame -/

/-- The value bytes received for the current frame. -/
def valueReceived : Pending tlvFormat → List UInt8
  | .body _ l acc _ => acc.take l.toNat
  | _ => []

/-- What the checksum covers of the current frame: tag, length and the value bytes, as far as they
were received. -/
def coveredReceived : Pending tlvFormat → List UInt8
  | .len t => [t]
  | .body t l acc _ => t :: l :: acc.take l.toNat
  | _ => []

/-- The states of the receiver, `ST_*`. -/
def receiverStates : List UInt8 :=
  [stSof0, stSof1, stTag, stLen, stValue, stCrcHi, stCrcLo]

/-! ### The index -/

/-- The index is below the length while value bytes are expected, and at the length afterwards. -/
structure TlvReceiver.IndexOk (recv : TlvReceiver) : Prop where
  value : recv.state = stValue → recv.idx < recv.len
  crc : recv.state = stCrcHi ∨ recv.state = stCrcLo → recv.idx = recv.len

/-- Outside these states nothing is said. -/
theorem TlvReceiver.IndexOk.of_state {recv : TlvReceiver} (st : UInt8) (h : recv.state = st)
    (hst : st ∈ [stSof0, stSof1, stTag, stLen]) : recv.IndexOk := by
  have hne : st ≠ stValue ∧ st ≠ stCrcHi ∧ st ≠ stCrcLo := by
    simp only [List.mem_cons, List.not_mem_nil, or_false] at hst
    rcases hst with rfl | rfl | rfl | rfl <;> decide
  rw [← h] at hne
  exact ⟨fun hvalue ↦ absurd hvalue hne.1,
    fun hcrc ↦ hcrc.elim (absurd · hne.2.1) (absurd · hne.2.2)⟩

/-- The next index, which does not wrap. -/
theorem toNat_idx_succ {idx len : UInt8} (h : idx < len) : (idx + 1).toNat = idx.toNat + 1 := by
  rw [UInt8.lt_iff_toNat_lt] at h
  have hlen : len.toNat < 256 := len.toNat_lt
  rw [UInt8.toNat_add, UInt8.toNat_one]
  exact Nat.mod_eq_of_lt (by omega)

/-- **What a byte does to the index**: the length byte clears it, a value byte moves it on, the
first byte of the checksum leaves it, and otherwise the state is one where it does not count. -/
theorem tlvReceiverFeedByte_idx {recv next : TlvReceiver} {byte : UInt8}
    (h : (tlvReceiverFeedByte recv byte).1 = next) :
    next.state ∈ [stSof0, stSof1, stTag, stLen] ∨
    (next.idx = 0 ∧ next.len = byte ∧ next.state = if byte = 0 then stCrcHi else stValue) ∨
    (recv.state = stValue ∧ next.idx = recv.idx + 1 ∧ next.len = recv.len ∧
      next.state = if recv.idx + 1 ≥ recv.len then stCrcHi else stValue) ∨
    (recv.state = stCrcHi ∧ next.idx = recv.idx ∧ next.len = recv.len ∧
      next.state = stCrcLo) := by
  have hsof0 : stSof0 ∈ [stSof0, stSof1, stTag, stLen] := by decide
  have hsof1 : stSof1 ∈ [stSof0, stSof1, stTag, stLen] := by decide
  have htag : stTag ∈ [stSof0, stSof1, stTag, stLen] := by decide
  have hlen : stLen ∈ [stSof0, stSof1, stTag, stLen] := by decide
  subst h
  rw [tlvReceiverFeedByte]
  by_cases h₀ : recv.state = stSof0
  · rw [if_pos h₀]
    left
    split
    · exact hsof1
    · show recv.state ∈ _
      rwa [h₀]
  rw [if_neg h₀]
  by_cases h₁ : recv.state = stSof1
  · rw [if_pos h₁]
    left
    split_ifs
    · exact htag
    · show recv.state ∈ _
      rwa [h₁]
    · exact hsof0
  rw [if_neg h₁]
  by_cases h₂ : recv.state = stTag
  · rw [if_pos h₂]
    exact .inl hlen
  rw [if_neg h₂]
  by_cases h₃ : recv.state = stLen
  · rw [if_pos h₃]
    exact .inr (.inl ⟨rfl, rfl, rfl⟩)
  rw [if_neg h₃]
  by_cases h₄ : recv.state = stValue
  · rw [if_pos h₄, h₄]
    exact .inr (.inr (.inl ⟨rfl, rfl, rfl, rfl⟩))
  rw [if_neg h₄]
  by_cases h₅ : recv.state = stCrcHi
  · rw [if_pos h₅]
    exact .inr (.inr (.inr ⟨h₅, rfl, rfl, rfl⟩))
  rw [if_neg h₅]
  left
  split
  · dsimp only
    split
    · exact hsof0
    · exact hsof0
  · exact hsof0

/-- **A byte keeps the index in its place.** -/
theorem TlvReceiver.IndexOk.feedByte {recv : TlvReceiver} (h : recv.IndexOk) (byte : UInt8) :
    (tlvReceiverFeedByte recv byte).1.IndexOk := by
  have hne : stCrcHi ≠ stValue ∧ stCrcLo ≠ stValue := by decide
  have hnot : ¬(stValue = stCrcHi ∨ stValue = stCrcLo) := by decide
  have hidx := tlvReceiverFeedByte_idx (rfl : (tlvReceiverFeedByte recv byte).1 = _)
  obtain hearly | ⟨hidx, hlen, hstate⟩ | ⟨hvalue, hidx, hlen, hstate⟩ |
    ⟨hcrc, hidx, hlen, hstate⟩ := hidx
  · exact .of_state _ rfl hearly
  · constructor
    · -- an empty value is complete at once
      intro hvalue
      rw [hidx, hlen, UInt8.pos_iff_ne_zero]
      rintro rfl
      exact hne.1 (hstate.symm.trans hvalue)
    · intro hcrc
      rw [hidx, hlen]
      by_contra hbyte
      rw [if_neg (Ne.symm hbyte)] at hstate
      exact hnot (hstate ▸ hcrc)
  · have hlt := h.value hvalue
    have hnext := toNat_idx_succ hlt
    rw [UInt8.lt_iff_toNat_lt] at hlt
    constructor
    · intro hmore
      rw [hidx, hlen]
      by_contra hlast
      rw [if_pos (UInt8.not_lt.1 hlast)] at hstate
      exact hne.1 (hstate.symm.trans hmore)
    · intro hcrc
      rw [hidx, hlen]
      by_contra hmore
      have hroom : ¬recv.idx + 1 ≥ recv.len := by
        rw [ge_iff_le, UInt8.le_iff_toNat_le, hnext]
        rw [← UInt8.toNat_inj, hnext] at hmore
        omega
      rw [if_neg hroom] at hstate
      exact hnot (hstate ▸ hcrc)
  · constructor
    · exact fun hvalue ↦ absurd (hstate.symm.trans hvalue) hne.2
    · intro _
      rw [hidx, hlen]
      exact h.crc (.inl hcrc)

/-- **After any stream** the index is in its place. -/
theorem TlvReceiver.IndexOk.trace {recv : TlvReceiver} (h : recv.IndexOk) (data : List UInt8) :
    (tlvReceiverTrace recv data).1.IndexOk := by
  induction data generalizing recv with
  | nil => exact h
  | cons byte data ih =>
    rw [tlvReceiverTrace_cons]
    exact ih (h.feedByte byte)

/-! ### The fields in every state -/

/-- What the receiver's fields say about the pending bytes. -/
structure TlvReceiver.Sound (recv : TlvReceiver) (p : Pending tlvFormat) : Prop where
  /-- The default branch is not taken. -/
  state : recv.state ∈ receiverStates
  /-- The next store is inside the array, and the index does not wrap. -/
  idx : recv.state = stValue → recv.idx.toNat < recv.len.toNat ∧ recv.idx.toNat < 255 ∧
    (recv.idx + 1).toNat = recv.idx.toNat + 1
  /-- From the length byte on, the array holds the value bytes received. -/
  stored : recv.state = stValue ∨ recv.state = stCrcHi ∨ recv.state = stCrcLo →
    recv.value.toList.take recv.idx.toNat = valueReceived p
  /-- From the sync pair on, the checksum is that of what was received of the frame. -/
  crcCalc : recv.state ∈ [stTag, stLen, stValue, stCrcHi, stCrcLo] →
    recv.crcCalc = tlvCrc16 (coveredReceived p)

/-- In the states that hunt for a frame and read its tag and length, only the checksum counts. -/
theorem TlvReceiver.Sound.of_state {recv : TlvReceiver} {p : Pending tlvFormat} (st : UInt8)
    (h : recv.state = st) (hst : st ∈ [stSof0, stSof1, stTag, stLen])
    (hcrc : st ∈ [stTag, stLen] → recv.crcCalc = tlvCrc16 (coveredReceived p)) : recv.Sound p := by
  subst h
  simp only [List.mem_cons, List.not_mem_nil, or_false] at hst hcrc
  have hne : recv.state ≠ stValue ∧ recv.state ≠ stCrcHi ∧ recv.state ≠ stCrcLo := by
    rcases hst with h | h | h | h <;> rw [h] <;> decide
  refine ⟨?_, fun hvalue ↦ absurd hvalue hne.1, ?_, ?_⟩
  · rcases hst with h | h | h | h <;> rw [h] <;> decide
  · rintro (hvalue | hhi | hlo)
    · exact absurd hvalue hne.1
    · exact absurd hhi hne.2.1
    · exact absurd hlo hne.2.2
  · intro hmem
    simp only [List.mem_cons, List.not_mem_nil, or_false] at hmem
    rcases hmem with htag | hlen | hvalue | hhi | hlo
    · exact hcrc (.inl htag)
    · exact hcrc (.inr hlen)
    · exact absurd hvalue hne.1
    · exact absurd hhi hne.2.1
    · exact absurd hlo hne.2.2

/-- Behind the length byte the array holds the value bytes, as many as the index says. -/
theorem TlvReceiver.InFrame.sound {recv : TlvReceiver} {t l : UInt8} {v acc : List UInt8}
    {hlt : acc.length < tlvFormat.bodyLength l} (h : recv.InFrame t l v)
    (hstate : recv.state ∈ [stValue, stCrcHi, stCrcLo]) (hindex : recv.IndexOk)
    (hidx : recv.idx.toNat = v.length) (hacc : acc.take l.toNat = v) :
    recv.Sound (.body t l acc hlt) := by
  refine ⟨?_, ?_, fun _ ↦ ?_, fun _ ↦ ?_⟩
  · exact List.drop_subset 4 receiverStates hstate
  · intro hvalue
    have hlt := hindex.value hvalue
    have hnext := toNat_idx_succ hlt
    have hlen : recv.len.toNat < 256 := recv.len.toNat_lt
    rw [UInt8.lt_iff_toNat_lt] at hlt
    exact ⟨hlt, by omega, hnext⟩
  · show recv.value.toList.take recv.idx.toNat = acc.take l.toNat
    rw [hidx, hacc, h.stored]
  · show recv.crcCalc = tlvCrc16 (t :: l :: acc.take l.toNat)
    rw [hacc, h.crcCalc]

/-- **The refinement relation and the index** say it all. -/
theorem Tracks.sound {recv : TlvReceiver} {p : Pending tlvFormat} (h : Tracks recv p)
    (hindex : recv.IndexOk) : recv.Sound p := by
  cases p with
  | hunt => exact .of_state stSof0 h (by decide) fun hmem ↦ absurd hmem (by decide)
  | sync => exact .of_state stSof1 h (by decide) fun hmem ↦ absurd hmem (by decide)
  | tag => exact .of_state stTag h.1 (by decide) fun _ ↦ h.2
  | len t => exact .of_state stLen h.1 (by decide) fun _ ↦ h.2.2
  | body t l acc hlt =>
    rcases h with ⟨hstate, hval, hidx, hin⟩ | ⟨hstate, hval, hin⟩ |
      ⟨hstate, v, c, rfl, hval, -, hin⟩
    · refine hin.sound (by rw [hstate]; decide) hindex hidx (List.take_of_length_le hval.le)
    · -- the value is complete, and the index says so
      have hidx : recv.idx.toNat = acc.length := by
        rw [hindex.crc (.inl hstate), hin.len, hval]
      exact hin.sound (by rw [hstate]; decide) hindex hidx (List.take_of_length_le hval.le)
    · have hidx : recv.idx.toNat = v.length := by
        rw [hindex.crc (.inr hstate), hin.len, hval]
      exact hin.sound (by rw [hstate]; decide) hindex hidx (by rw [← hval, List.take_left])

/-! ### Any stream -/

/-- The receiver after a stream, whatever its memory held before it was initialised. -/
def receiverAfter (memory : TlvReceiver) (data : List UInt8) : TlvReceiver :=
  (tlvReceiverTrace (tlvReceiverInit memory) data).1

/-- The frame that a stream leaves unfinished. -/
def pendingAfter (data : List UInt8) : Pending tlvFormat :=
  (scan .hunt data).1

/-- The pending bytes are the end of the stream. -/
theorem pendingAfter_bytes (data : List UInt8) : (pendingAfter data).bytes <:+ data :=
  ⟨_, scan_bytes (.hunt : Pending tlvFormat) data⟩

theorem tracks_receiverAfter (memory : TlvReceiver) (data : List UInt8) :
    Tracks (receiverAfter memory data) (pendingAfter data) := by
  have hinit : Tracks (tlvReceiverInit memory) .hunt := rfl
  exact (tlvReceiverTrace_refines hinit data).1

theorem indexOk_receiverAfter (memory : TlvReceiver) (data : List UInt8) :
    (receiverAfter memory data).IndexOk := by
  have hinit : (tlvReceiverInit memory).IndexOk := .of_state stSof0 rfl (by decide)
  exact hinit.trace data

/-- What `TLV_OK` comes with: the frame that the byte completes, and exactly its value bytes. -/
theorem Tracks.delivered {recv : TlvReceiver} {p : Pending tlvFormat} (h : Tracks recv p)
    {byte : UInt8} (hok : (tlvReceiverFeedByte recv byte).2.1 = .ok) :
    ∃ (frame : TlvFrame) (s : TlvSegment),
      (tlvReceiverFeedByte recv byte).2.2 = some frame ∧ s.bytes = p.bytes ++ [byte] ∧
      frame.message = s.message := by
  obtain ⟨-, hresult, -⟩ := tlvReceiverFeedByte_refines h byte
  rw [hok] at hresult
  rw [verdict] at hresult
  split at hresult
  · cases hresult
  rename_i s rest hsegments
  have hstep := step_of_segments_eq_cons hsegments
  have hbytes := step_bytes p byte
  rw [hstep] at hbytes
  rw [TlvSegment.verdict] at hresult
  split at hresult
  · obtain ⟨frame, hframe, hmessage⟩ :=
      Option.map_eq_some_iff.1 (congrArg Prod.snd hresult)
    refine ⟨frame, s, hframe, ?_, hmessage⟩
    rw [← hbytes]
    simp [Item.bytes, Pending.bytes]
  · cases hresult

/-- **What is in the receiver's memory after any stream.** The state is one of the seven; while
value bytes are stored the index is inside the array and does not wrap; from the length byte on the
array begins with exactly the value bytes received for the current frame; the checksum is that of
what was received of it; and a frame that is delivered has exactly its own value bytes behind its
pointer. -/
theorem receiverAfter_sound (memory : TlvReceiver) (data : List UInt8) :
    (pendingAfter data).bytes <:+ data ∧
    (receiverAfter memory data).Sound (pendingAfter data) ∧
    ∀ byte, (tlvReceiverFeedByte (receiverAfter memory data) byte).2.1 = .ok →
      ∃ (frame : TlvFrame) (s : TlvSegment),
        (tlvReceiverFeedByte (receiverAfter memory data) byte).2.2 = some frame ∧
        s.bytes = (pendingAfter data).bytes ++ [byte] ∧ frame.message = s.message ∧
        s.value.length = frame.len.toNat := by
  have htracks := tracks_receiverAfter memory data
  refine ⟨pendingAfter_bytes data, htracks.sound (indexOk_receiverAfter memory data), ?_⟩
  intro byte hok
  obtain ⟨frame, s, hframe, hbytes, hmessage⟩ := htracks.delivered hok
  have hlen : frame.len = s.len := congrArg Message.len hmessage
  exact ⟨frame, s, hframe, hbytes, hmessage, by rw [s.length_value, hlen]⟩

/-- Behind the sync pair of a second frame the index still counts the value byte of the first. -/
theorem not_stored_everywhere :
    ¬∀ (memory : TlvReceiver) (data : List UInt8),
      (receiverAfter memory data).value.toList.take (receiverAfter memory data).idx.toNat =
        valueReceived (pendingAfter data) := by
  intro h
  have hstale := h default [0xA5, 0x5A, 1, 1, 0x42, 0, 0, 0xA5, 0x5A]
  revert hstale
  decide +kernel

end SubmarineMonitor

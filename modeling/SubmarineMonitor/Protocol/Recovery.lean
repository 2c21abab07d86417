import SubmarineMonitor.Foundation.Resync
import SubmarineMonitor.Protocol.RoundTrip

/-!
# Recovering after an interruption

A receiver that was cut off inside a frame takes the bytes that come next for the rest of it. How
much that can cost is settled by the scanner (`FrameFormat.scan_wire`); here it is said about the
receiver and the frames that the encoder writes. The longest frame has 255 value bytes and two
checksum bytes behind its header, so the frame in progress is over, for better or worse, by the time
259 bytes have arrived.

## What can be lost, and what can be made up

Between the interruption and the first frame that is seen whole, the receiver may do three things.
It may swallow frames whole, since a length byte of 255 makes it count through them. It may deliver
a message that nobody sent, if the bytes that end its count happen to be the checksum of what it
collected; at most one, because behind it the receiver is hunting. And it may begin a frame inside a
frame, if the sync pair stands in a value; the condition on the concatenation excludes that, and
without it there is no bound, as values could continue the mistake for ever.

The bound is 259 and not 261. The two sync bytes of the frame in progress have been seen, so at most
the tag, the length, the value and the checksum are still to come.

## How it is proved

The scanner is followed through the frames, with the place where its pending bytes began kept beside
it; that is `Foundation.Resync`, for any format. A pending frame that began before the first byte is
the one in progress; later ones begin where a frame begins, by the condition.
`exists_outgoing_of_pending` says which message a frame in progress may be, and where it began, and
it is used by the other users of recovery as well.

## What is left out

How the interruption came about; what the receiver has seen before is the arbitrary `history`. The
node loses bytes while a handler runs, and the bound is used there (`Node.Receive`). The receiver of
the central computer may be in the middle of a frame when its link is opened again, and what that
does to the first frame behind it is in `Central.Communication`.
-/

open FrameFormat

namespace SubmarineMonitor

/-- A body is at most the longest value and the checksum. -/
theorem bodyLength_le (l : UInt8) : tlvFormat.bodyLength l ≤ tlvMaxValue + tlvCrcSize :=
  Nat.add_le_add_right (Nat.le_of_lt_succ l.toNat_lt) _

/-- Messages on the wire are their segments on the wire. -/
theorem wire_map_segment (sent : List Outgoing) :
    wire (sent.map Outgoing.segment) = sent.flatMap Outgoing.bytes :=
  List.flatMap_map _ _ _

theorem offset_map_segment (sent : List Outgoing) (j : ℕ) :
    offset (sent.map Outgoing.segment) j = ((sent.take j).flatMap Outgoing.bytes).length := by
  rw [offset, ← List.map_take, wire_map_segment]

/-- The sync pair stands only where a frame begins. -/
theorem syncedAtHeads_map_segment (sent : List Outgoing) :
    SyncedAtHeads (sent.map Outgoing.segment) ↔
      ∀ i, [tlvSof0, tlvSof1] <+: (sent.flatMap Outgoing.bytes).drop i →
        ∃ j < sent.length, i = ((sent.take j).flatMap Outgoing.bytes).length := by
  simp only [SyncedAtHeads, wire_map_segment, List.length_map, offset_map_segment]
  rfl

/-- Every message's frame is delivered as that message. -/
theorem messages_map_segment (sent : List Outgoing) :
    ((sent.map Outgoing.segment).filter fun s ↦ TlvSegment.Valid s).map TlvSegment.message =
      sent.map Outgoing.message := by
  have hvalid : ∀ s ∈ sent.map Outgoing.segment, decide (TlvSegment.Valid s) = true := by
    intro s hs
    obtain ⟨o, -, rfl⟩ := List.mem_map.1 hs
    exact decide_eq_true o.valid_segment
  rw [List.filter_eq_self.2 hvalid, List.map_map]
  exact List.map_congr_left fun o _ ↦ o.message_segment

/-- A valid frame that ends a pending one begins among the bytes seen before: it is an encoder's
frame, its first bytes (the sync pair at least) are the last of these, and the others come next. -/
theorem exists_outgoing_of_pending {history next : List UInt8} {s : TlvSegment}
    (hvalid : s.Valid)
    (hpending : 2 ≤ (scan (.hunt : Pending tlvFormat) history).1.bytes.length ∧
      ∃ b ≠ [], b <+: next ∧
        s.bytes = (scan (.hunt : Pending tlvFormat) history).1.bytes ++ b) :
    ∃ (o : Outgoing) (a b : List UInt8), s.message = o.message ∧ o.bytes = a ++ b ∧
      2 ≤ a.length ∧ a <:+ history ∧ b ≠ [] ∧ b <+: next := by
  obtain ⟨htwo, b, hne, hb, hbytes⟩ := hpending
  have hs : (Outgoing.ofSegment s).segment = s := Outgoing.segment_ofSegment hvalid
  refine ⟨Outgoing.ofSegment s, _, b, ?_, ?_, htwo, ?_, hne, hb⟩
  · rw [← Outgoing.message_segment, hs]
  · rw [Outgoing.bytes, hs, hbytes]
  · exact ⟨_, scan_bytes (.hunt : Pending tlvFormat) history⟩

/-- **Bounded recovery.** A receiver that has seen any bytes at all is fed frames in whose
concatenation the sync pair stands only where a frame begins. It delivers at most one message whose
frame began before them, and then the messages of a final part of these frames, in order; every
frame that begins at byte 259 or later is among them. -/
theorem feed_recovers (recv : TlvReceiver) (history : List UInt8) {sent : List Outgoing}
    (hsent : ∀ i, [tlvSof0, tlvSof1] <+: (sent.flatMap Outgoing.bytes).drop i →
      ∃ j < sent.length, i = ((sent.take j).flatMap Outgoing.bytes).length) :
    ∃ (first : List Message) (k : ℕ),
      (tlvReceiverFeed (tlvReceiverFeed (tlvReceiverInit recv) history).1
          (sent.flatMap Outgoing.bytes)).2.2.map TlvFrame.message =
        first ++ (sent.drop k).map Outgoing.message ∧
      first.length ≤ 1 ∧
      (∀ m ∈ first, ∃ (o : Outgoing) (a b : List UInt8), m = o.message ∧ o.bytes = a ++ b ∧
        2 ≤ a.length ∧ a <:+ history ∧ b ≠ [] ∧ b <+: sent.flatMap Outgoing.bytes) ∧
      ∀ j < sent.length, 259 ≤ ((sent.take j).flatMap Outgoing.bytes).length → k ≤ j := by
  obtain ⟨hstate, -, -⟩ := tlvReceiverFeed_eq (tlvReceiverInit recv) history
  obtain ⟨htracks, -, -⟩ := tlvReceiverTrace_refines (tracks_init recv) history
  rw [← hstate] at htracks
  set recv' := (tlvReceiverFeed (tlvReceiverInit recv) history).1
  obtain ⟨first, k, hsegments, hone, hfirst, hlate⟩ :=
    scan_wire (scan (.hunt : Pending tlvFormat) history).1
      ((syncedAtHeads_map_segment sent).2 hsent) bodyLength_le
  have hdelivered := trace_messages htracks (sent.flatMap Outgoing.bytes)
  rw [← wire_map_segment, hsegments, List.filter_append, List.map_append, ← List.map_drop,
    messages_map_segment, wire_map_segment] at hdelivered
  refine ⟨_, k, (tlvReceiverFeed_eq recv' _).2.1.trans hdelivered, ?_, ?_, fun j hj hoff ↦ ?_⟩
  · rw [List.length_map]
    exact (List.length_filter_le _ _).trans hone
  · intro m hm
    obtain ⟨s, hs, rfl⟩ := List.mem_map.1 hm
    obtain ⟨hmem, hvalid⟩ := List.mem_filter.1 hs
    rw [wire_map_segment] at hfirst
    exact exists_outgoing_of_pending (of_decide_eq_true hvalid) (hfirst s hmem)
  · exact hlate j (by rwa [List.length_map]) (by rwa [offset_map_segment])

/-- A frame of three value bytes breaks off behind its length: the next keep-alive is taken for the
rest of it, the one after that is delivered. -/
theorem feed_recovers_keepAlive :
    ∃ (first : List Message) (k : ℕ),
      (tlvReceiverFeed (tlvReceiverFeed (tlvReceiverInit default) [0xA5, 0x5A, 0x10, 0x03]).1
          ([keepAliveOutgoing, keepAliveOutgoing].flatMap Outgoing.bytes)).2.2.map
            TlvFrame.message =
        first ++ ([keepAliveOutgoing, keepAliveOutgoing].drop k).map Outgoing.message := by
  have hheads : SyncedAtHeads ([keepAliveOutgoing, keepAliveOutgoing].map Outgoing.segment) := by
    decide +kernel
  obtain ⟨first, k, h, -⟩ := feed_recovers default [0xA5, 0x5A, 0x10, 0x03]
    ((syncedAtHeads_map_segment _).1 hheads)
  exact ⟨first, k, h⟩

end SubmarineMonitor

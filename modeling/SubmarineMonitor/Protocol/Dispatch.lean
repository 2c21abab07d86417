import SubmarineMonitor.Foundation.Abortable
import SubmarineMonitor.Protocol.Recovery

/-!
# A receiver and its client

Whoever reads from a link feeds the bytes to a receiver and acts on each frame it finishes, until
something ends the feeding: an exception of a handler, or the answer that was waited for. `Session`
is the receiver with what its client has made of the frames so far, and the client is a step on
that, whose flag says that no further byte is looked at.

A client sees nothing but the messages that the receiver delivers (`dispatch_eq`), and these are the
frames in the bytes (`delivered_eq`), so a session is settled by the frames that arrive.

## Stopping in the middle

The flag of a client's step is *stop*: the loops in the source end in the middle of a chunk when a
handler throws or when the frame that was waited for has come, and the bytes behind it in the same
read are then gone, or are looked at later, as that loop has it. `Foundation.Abortable` is the fold
that can end early; `dispatch` is that fold over the bytes, and `dispatch_eq` says that it is the
same fold over the messages. What happened to the bytes behind the stopping place is not visible in
the messages, and so the statement about the receiver is made only for a feeding that went to the
end.

## Reads

A stream arrives in reads of any sizes up to that of the buffer, 256 bytes in each of the loops.
`CutInto` is that, without empty reads, since a read that returns nothing is a time-out or the end
of the connection and not a part of the stream.

## What is left out

Where the bytes come from: the link to the node, the link to the ground station and the query loop
of the latter have modules of their own, and the time that passes between two reads belongs there.
Frames are given to the client as messages, not as views into memory; `Protocol.Handler` is the form
for handlers that get the view.
-/

open Abortable FrameFormat

namespace SubmarineMonitor

/-- A receiver, and what its client has done with the frames so far. -/
structure Session (σ : Type*) where
  recv : TlvReceiver
  done : σ

variable {σ : Type*}

/-- One byte of a session. -/
def dispatchByte (client : σ → Message → σ × Bool) (s : Session σ) (byte : UInt8) :
    Session σ × Bool :=
  match tlvReceiverFeedByte s.recv byte with
  | (recv, .ok, some frame) =>
    let r := client s.done frame.message
    (⟨recv, r.1⟩, r.2)
  | (recv, _, _) => (⟨recv, s.done⟩, false)

/-- The bytes of one read. -/
def dispatch (client : σ → Message → σ × Bool) : Session σ → List UInt8 → Session σ × Bool :=
  Abortable.run (dispatchByte client)

/-- The reads in which a stream may arrive. -/
structure CutInto (data : List UInt8) (chunks : List (List UInt8)) : Prop where
  flatten : chunks.flatten = data
  /-- A read of nothing is a timeout. -/
  ne_nil : ∀ chunk ∈ chunks, chunk ≠ []
  /-- The size of the buffer. -/
  length_le : ∀ chunk ∈ chunks, chunk.length ≤ 256

/-! ### What the client sees -/

/-- The messages of the frames that a receiver finishes on these bytes. -/
def delivered (recv : TlvReceiver) (data : List UInt8) : List Message :=
  (tlvReceiverTrace recv data).2.filterMap Prod.snd

theorem delivered_cons (recv : TlvReceiver) (byte : UInt8) (data : List UInt8) :
    delivered recv (byte :: data) =
      ((tlvReceiverFeedByte recv byte).2.2.map TlvFrame.message).toList ++
        delivered (tlvReceiverFeedByte recv byte).1 data := by
  rw [delivered, tlvReceiverTrace_cons, delivered]
  cases (tlvReceiverFeedByte recv byte).2.2 <;> rfl

variable {client : σ → Message → σ × Bool}

/-- **Feeding is dispatching what is delivered**: what was done, and whether the feeding was ended,
is that of the frames finished, and if it was not ended the receiver has seen all bytes. -/
theorem dispatch_eq (s : Session σ) (data : List UInt8) :
    (dispatch client s data).1.done =
        (Abortable.run client s.done (delivered s.recv data)).1 ∧
      (dispatch client s data).2 =
        (Abortable.run client s.done (delivered s.recv data)).2 ∧
      ((dispatch client s data).2 = false →
        (dispatch client s data).1.recv = (tlvReceiverTrace s.recv data).1) := by
  rw [dispatch]
  induction data generalizing s with
  | nil => exact ⟨rfl, rfl, fun _ ↦ rfl⟩
  | cons byte data ih =>
    rw [tlvReceiverTrace_cons, delivered_cons]
    have hstatus := feedByte_status_of_frame s.recv byte
    generalize hr : tlvReceiverFeedByte s.recv byte = r at hstatus ⊢
    obtain ⟨recv, status, _ | frame⟩ := r
    · -- no frame: the client is not asked
      have hbyte : dispatchByte client s byte = (⟨recv, s.done⟩, false) := by
        rw [dispatchByte, hr]
        cases status <;> rfl
      rw [run_cons_of_not_abort (by rw [hbyte]), hbyte]
      exact ih ⟨recv, s.done⟩
    · obtain rfl : status = .ok := hstatus.resolve_left (Option.some_ne_none _)
      have hbyte : dispatchByte client s byte =
          (⟨recv, (client s.done frame.message).1⟩, (client s.done frame.message).2) := by
        rw [dispatchByte, hr]
      show _ = (Abortable.run _ _ (frame.message :: delivered recv data)).1 ∧
        _ = (Abortable.run _ _ (frame.message :: delivered recv data)).2 ∧ _
      by_cases hend : (client s.done frame.message).2 = true
      · rw [run_cons_of_abort (by rw [hbyte]; exact hend), hbyte, run_cons_of_abort hend]
        exact ⟨rfl, rfl, fun h ↦ by cases h⟩
      · rw [Bool.not_eq_true] at hend
        rw [run_cons_of_not_abort (by rw [hbyte]; exact hend), hbyte, run_cons_of_not_abort hend]
        exact ih ⟨recv, (client s.done frame.message).1⟩

/-- What follows the end of the feeding is not looked at. -/
theorem dispatch_append_of_end {s : Session σ} {as : List UInt8}
    (h : (dispatch client s as).2 = true) (bs : List UInt8) :
    dispatch client s (as ++ bs) = dispatch client s as :=
  run_append_of_abort h bs

theorem dispatch_append_of_not_end {s : Session σ} {as : List UInt8}
    (h : (dispatch client s as).2 = false) (bs : List UInt8) :
    dispatch client s (as ++ bs) = dispatch client (dispatch client s as).1 bs :=
  run_append_of_not_abort h bs

/-- Bytes that do not end the feeding may be fed in two parts. -/
theorem dispatch_append {s : Session σ} {as bs : List UInt8}
    (h : (dispatch client s (as ++ bs)).2 = false) :
    (dispatch client s as).2 = false ∧
      dispatch client s (as ++ bs) = dispatch client (dispatch client s as).1 bs := by
  have hfirst : (dispatch client s as).2 = false := not_abort_of_append h
  exact ⟨hfirst, dispatch_append_of_not_end hfirst bs⟩

/-! ### What is delivered -/

variable {recv : TlvReceiver} {p : Pending tlvFormat}

/-- What a receiver delivers is what the scanner finds, less the frames with a wrong checksum. -/
theorem delivered_eq (h : Tracks recv p) (data : List UInt8) :
    delivered recv data =
      ((segments (scan p data).2).filter fun s ↦ TlvSegment.Valid s).map TlvSegment.message :=
  trace_messages h data

/-- The frames in a stream. -/
def framesIn (data : List UInt8) : List Message :=
  ((segments (scan (.hunt : Pending tlvFormat) data).2).filter fun s ↦ TlvSegment.Valid s).map
    TlvSegment.message

/-- Frames that arrive at a receiver outside a frame are delivered. -/
theorem delivered_idle (h : Tracks recv p) (hp : p.Idle) (sent : List Outgoing) :
    delivered recv (sent.flatMap Outgoing.bytes) = sent.map Outgoing.message := by
  have hscan := scan_idle hp hp.syncFree (sent.map Outgoing.segment)
  rw [List.nil_append, wire_map_segment] at hscan
  rw [delivered_eq h, hscan, messages_map_segment]

/-- As long as a stream of frames is not over, its last frame is not delivered. -/
theorem exists_delivered_take (h : Tracks recv .hunt) {sent : List Outgoing} {a b : List UInt8}
    (hab : sent.flatMap Outgoing.bytes = a ++ b) (hb : b ≠ []) :
    ∃ k < sent.length, delivered recv a = (sent.take k).map Outgoing.message := by
  rw [← wire_map_segment] at hab
  obtain ⟨k, hk, hsegments⟩ := exists_segments_take hab hb
  rw [List.length_map] at hk
  refine ⟨k, hk, ?_⟩
  rw [delivered_eq h, hsegments, ← List.map_take, messages_map_segment]

/-- A client that only the last message can end goes on for as long as something is still to come.
-/
theorem dispatch_unfinished {s : Session σ} (h : Tracks s.recv .hunt) {sent : List Outgoing}
    (hclient : ∀ k < sent.length,
      (Abortable.run client s.done ((sent.take k).map Outgoing.message)).2 = false)
    {first rest : List (List UInt8)} (hcut : CutInto (sent.flatMap Outgoing.bytes) (first ++ rest))
    (hrest : rest ≠ []) : (dispatch client s first.flatten).2 = false := by
  obtain ⟨chunk, more, rfl⟩ := List.exists_cons_of_ne_nil hrest
  have hne : chunk ≠ [] := hcut.ne_nil chunk (List.mem_append_right _ List.mem_cons_self)
  have hsplit : sent.flatMap Outgoing.bytes = first.flatten ++ (chunk ++ more.flatten) := by
    rw [← hcut.flatten, List.flatten_append, List.flatten_cons]
  obtain ⟨k, hk, hdelivered⟩ := exists_delivered_take h hsplit (by simp [hne])
  rw [(dispatch_eq s first.flatten).2.1, hdelivered]
  exact hclient k hk

/-- With the last read, a client has been handed all messages. -/
theorem dispatch_last {s : Session σ} (h : Tracks s.recv .hunt) {sent : List Outgoing}
    {first : List (List UInt8)} {last : List UInt8}
    (hcut : CutInto (sent.flatMap Outgoing.bytes) (first ++ [last]))
    (hfirst : (dispatch client s first.flatten).2 = false) :
    (dispatch client (dispatch client s first.flatten).1 last).1.done =
        (Abortable.run client s.done (sent.map Outgoing.message)).1 ∧
      (dispatch client (dispatch client s first.flatten).1 last).2 =
        (Abortable.run client s.done (sent.map Outgoing.message)).2 := by
  have hall := dispatch_append_of_not_end hfirst last
  have hbytes := hcut.flatten
  rw [List.flatten_append, List.flatten_singleton] at hbytes
  obtain ⟨hdone, hend, -⟩ := @dispatch_eq _ client s (sent.flatMap Outgoing.bytes)
  rw [delivered_idle h (.inl rfl), ← hbytes, hall] at hdone hend
  exact ⟨hdone, hend⟩

/-- The scanner is outside a frame when the receiver waits for a sync byte. -/
theorem idle_iff (h : Tracks recv p) : p.Idle ↔ recv.state = stSof0 ∨ recv.state = stSof1 := by
  cases p with
  | hunt => exact ⟨fun _ ↦ .inl h, fun _ ↦ .inl rfl⟩
  | sync => exact ⟨fun _ ↦ .inr h, fun _ ↦ .inr rfl⟩
  | tag =>
    have hstate : recv.state = stTag := h.1
    rw [hstate]
    simp [Pending.Idle, stTag, stSof0, stSof1]
  | len t =>
    have hstate : recv.state = stLen := h.1
    rw [hstate]
    simp [Pending.Idle, stLen, stSof0, stSof1]
  | body t l acc hlt =>
    rcases h with ⟨hstate, -⟩ | ⟨hstate, -⟩ | ⟨hstate, -⟩ <;> rw [hstate] <;>
      simp [Pending.Idle, stValue, stCrcHi, stCrcLo, stSof0, stSof1]

/-- A frame that arrives at a receiver inside a frame is lost, unless it repeats the first sync
byte. -/
theorem message_not_mem_delivered (h : Tracks recv p) (hp : ¬p.Idle) {o : Outgoing}
    (ho : tlvSof0 ∉ o.bytes.drop 2) : o.message ∉ delivered recv o.bytes := by
  intro hmem
  rw [delivered_eq h] at hmem
  obtain ⟨s, hs, hmessage⟩ := List.mem_map.1 hmem
  obtain ⟨hs, hvalid⟩ := List.mem_filter.1 hs
  -- the segment found would be this frame itself
  have hsegment : s = o.segment := by
    have hs' := Outgoing.segment_ofSegment (of_decide_eq_true hvalid)
    rw [← hs', Outgoing.message_segment] at hmessage
    have hout : Outgoing.ofSegment s = o :=
      Outgoing.ext (congrArg Message.tag hmessage) (congrArg Message.value hmessage)
    rw [← hs', hout]
  rw [hsegment] at hs
  exact not_mem_segments_of_busy hp ho hs

end SubmarineMonitor

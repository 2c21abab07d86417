import SubmarineMonitor.Protocol.Dispatch

/-!
# A receiver and a frame handler

The loops that own a receiver have one shape on every computer: feed the next byte, and when it ends
a frame, hand the frame to a handler. `feedTo` is that loop, over a session whose `done` is whatever
the handler keeps.

A handler is given a `tlv_frame_t`, which points into the receiver's buffer. As long as it looks at
no more than the frame says (`ReadsMessage`), it makes of a stream what it makes of the messages in
it (`feedTo_eq`), and a stream in any chunks of the frames that were sent leaves what handling them
one after another leaves (`feedTo_chunks`).

## Why the view is kept

It would be simpler to give handlers messages. But the handlers in the source take the view, compare
its length with the size of a structure and lay the structure over the pointer, so that a handler
which forgot the comparison would read behind the value. That none of them does is a fact about them
and not about the types. So the handlers are translated on `TlvFrame`, and the theorems ask
`ReadsMessage` of them, which is proved for the routing of the node to its limits and for the ingest
of the central computer. Handlers that compare the pointer with NULL satisfy it too, because
`Message.frame` has NULL where the receiver's frame has.

## The session

`feedTo` has no stopping flag, unlike `dispatch`: it is for loops in which no handler ends the
feeding. Both rest on the same description of a byte, `delivered_cons`, which says what the client
or the handler gets to see of it.

The state `σ` is whatever the handler changes, so the same lemma serves the limits on the node and
the database of the central computer. For a question about one of them everything else is left out
of `σ`.

## What is left out

The receiver may be overrun: while a handler is busy, bytes that arrive are kept by the hardware or
lost. Here every byte of the chunks reaches the receiver. Which bytes do is the subject of
`Node.Receive`.
-/

namespace SubmarineMonitor

/-- A frame with this message, its value pointer NULL where the receiver's is. -/
def Message.frame (m : Message) : TlvFrame :=
  ⟨m.tag, m.len, if m.len > 0 then some m.value else none⟩

variable {σ : Type*}

/-- One byte, and the frame it ends. -/
def feedByteTo (handler : σ → TlvFrame → σ) (s : Session σ) (byte : UInt8) : Session σ :=
  match tlvReceiverFeedByte s.recv byte with
  | (recv, .ok, some frame) => ⟨recv, handler s.done frame⟩
  | (recv, _, _) => ⟨recv, s.done⟩

/-- The bytes of a chunk. -/
def feedTo (handler : σ → TlvFrame → σ) (s : Session σ) (data : List UInt8) : Session σ :=
  data.foldl (feedByteTo handler) s

/-- A handler reads of a frame what the frame says, and nothing behind it. -/
def ReadsMessage (handler : σ → TlvFrame → σ) : Prop :=
  ∀ s f, handler s f = handler s f.message.frame

variable {handler : σ → TlvFrame → σ}

/-- **What a stream leaves** is what the messages delivered leave. -/
theorem feedTo_eq (h : ReadsMessage handler) (s : Session σ) (data : List UInt8) :
    feedTo handler s data =
      ⟨(tlvReceiverTrace s.recv data).1,
        ((delivered s.recv data).map Message.frame).foldl handler s.done⟩ := by
  rw [feedTo]
  induction data generalizing s with
  | nil => rfl
  | cons byte data ih =>
    rw [List.foldl_cons, ih, tlvReceiverTrace_cons, delivered_cons]
    have hstatus := feedByte_status_of_frame s.recv byte
    rw [feedByteTo]
    generalize tlvReceiverFeedByte s.recv byte = r at hstatus ⊢
    obtain ⟨recv, status, _ | frame⟩ := r
    · cases status <;> rfl
    · obtain rfl : status = .ok := hstatus.resolve_left (Option.some_ne_none _)
      show (⟨_, List.foldl handler (handler s.done frame) _⟩ : Session σ) = _
      rw [h s.done frame]
      rfl

/-- Feeding the chunks is feeding their bytes. -/
theorem foldl_feedTo (s : Session σ) (chunks : List (List UInt8)) :
    chunks.foldl (feedTo handler) s = feedTo handler s chunks.flatten :=
  List.foldl_flatten.symm

/-- **What frames leave that arrive in any chunks** at a receiver that is hunting. -/
theorem feedTo_chunks (h : ReadsMessage handler) {s : Session σ} (hs : s.recv.state = stSof0)
    (sent : List Outgoing) {chunks : List (List UInt8)}
    (hchunks : chunks.flatten = sent.flatMap Outgoing.bytes) :
    (chunks.foldl (feedTo handler) s).done =
      (sent.map fun o ↦ o.message.frame).foldl handler s.done := by
  have htracks : Tracks s.recv .hunt := hs
  rw [foldl_feedTo, hchunks, feedTo_eq h, delivered_idle htracks (.inl rfl), List.map_map]
  rfl

end SubmarineMonitor

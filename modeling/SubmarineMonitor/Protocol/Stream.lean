import SubmarineMonitor.Protocol.Receiver

/-!
# What the receiver makes of a stream

Three statements about the streaming receiver, none of which opens its switch statement: each is a
fact about the scanner carried over by `tlvReceiverTrace_refines`.

* An arbitrary stream is cut into junk bytes, segments and an unfinished end, and every result
  and counter is read off that cut (`trace_partition`).
* On a stream assembled from frames with sync-free junk between them, however it is chunked, the
  frames delivered are the good ones among those it was assembled from (`feedChunks_assembled`).
* Fed a buffer on its own, the receiver decides what the block decoder decides
  (`feedUntil_iff_tlvDecode`).

## Streams that nobody promised anything about

The first statement has no hypothesis. Any list of bytes has one cut, and the receiver's results are
read off it; a frame that starts inside what was meant as another frame's value is an ordinary
segment of that cut. It does not say what the sender meant, and it cannot.

The second one assumes that the sync pair stands in none of the junk, alone or together with the
byte behind it. Values are free of that condition: inside a frame the receiver counts and does not
look for markers. Segments with wrong trailing bytes may be among those sent, as long as their
length byte is right, and the receiver passes over them without losing its place.

## What is counted

Junk is dropped as it is recognised. A byte `A5` at the very end may yet be the beginning of a
frame, so it is pending and not counted; when it turns out to be none, it is counted together with
the next byte. The statements say this of the end of the stream, where it shows.

## The decoder as a yardstick

`tlvReceiverFeedUntil` stops at the first result that is not `TLV_INCOMPLETE`, since the decoder
looks at one frame and not at what is behind. Where the decoder complains of the sync bytes the two
differ by design, as the receiver hunts on, and the statement is about the other buffers. The
receiver may have any history, as long as it is hunting.

## What is left out

Interrupted frames, which are `Protocol.Recovery`, and what is done with the frames, which is
`Protocol.Dispatch`.
-/

open FrameFormat

namespace SubmarineMonitor

theorem tracks_init (recv : TlvReceiver) : Tracks (tlvReceiverInit recv) .hunt :=
  rfl

/-! ### Reading a run off its items -/

theorem filterMap_itemVerdicts (items : List (Item tlvFormat)) :
    (items.flatMap itemVerdicts).filterMap Prod.snd =
      ((segments items).filter fun s ↦ TlvSegment.Valid s).map TlvSegment.message := by
  induction items with
  | nil => rfl
  | cons i items ih =>
    rw [List.flatMap_cons, List.filterMap_append, ih]
    cases i with
    | junk b => rfl
    | segment s =>
      by_cases hs : TlvSegment.Valid s <;>
        simp [itemVerdicts, TlvSegment.verdict, hs, List.filterMap_replicate_of_none]

@[simp]
theorem filterMap_pendingVerdicts (p : Pending tlvFormat) :
    (pendingVerdicts p).filterMap Prod.snd = [] := by
  simp [pendingVerdicts, List.filterMap_replicate_of_none]

/-- The messages a receiver in step with the scanner delivers are those of the valid segments. -/
theorem trace_messages {recv : TlvReceiver} {p : Pending tlvFormat} (h : Tracks recv p)
    (data : List UInt8) :
    (tlvReceiverTrace recv data).2.filterMap Prod.snd =
      ((segments (scan p data).2).filter fun s ↦ TlvSegment.Valid s).map TlvSegment.message := by
  obtain ⟨-, -, htrace⟩ := tlvReceiverTrace_refines h data
  have := congrArg (List.filterMap Prod.snd) htrace
  simpa [filterMap_itemVerdicts] using this

/-! ### Arbitrary streams -/

/-- **Every stream is accounted for.** Whatever bytes a fresh receiver is fed, they can be cut into
junk bytes, complete segments and a proper initial part of a segment, in such a way that the result
returned for each byte is what that cut says: `TLV_OK` with the segment's own message on the last
byte of each segment whose checksum is right, `TLV_ERR_CRC` on the last byte of each other segment,
and `TLV_INCOMPLETE` on every other byte. The counters count the two kinds of segments and the junk
bytes. -/
theorem trace_partition (recv : TlvReceiver) (data : List UInt8) :
    ∃ (items : List (Item tlvFormat)) (tail : List UInt8),
      data = items.flatMap Item.bytes ++ tail ∧
      (∃ (s : TlvSegment) (rest : List UInt8), rest ≠ [] ∧ s.bytes = tail ++ rest) ∧
      (tlvReceiverTrace (tlvReceiverInit recv) data).2 =
        items.flatMap itemVerdicts ++ List.replicate tail.length (.incomplete, none) ∧
      (tlvReceiverTrace (tlvReceiverInit recv) data).2.filterMap Prod.snd =
        ((segments items).filter fun s ↦ TlvSegment.Valid s).map TlvSegment.message ∧
      (tlvReceiverTrace (tlvReceiverInit recv) data).1.framesOk =
        UInt32.ofNat ((segments items).countP fun s ↦ TlvSegment.Valid s) ∧
      (tlvReceiverTrace (tlvReceiverInit recv) data).1.crcErrors =
        UInt32.ofNat ((segments items).countP fun s ↦ ¬TlvSegment.Valid s) ∧
      (tlvReceiverTrace (tlvReceiverInit recv) data).1.bytesDropped =
        UInt32.ofNat (junkCount items) := by
  obtain ⟨-, haccounts, htrace⟩ := tlvReceiverTrace_refines (tracks_init recv) data
  have hmessages := trace_messages (tracks_init recv) data
  have hbytes := scan_bytes (.hunt : Pending tlvFormat) data
  obtain ⟨s, rest, hrest, hs⟩ := (scan (.hunt : Pending tlvFormat) data).1.exists_segment
  refine ⟨(scan .hunt data).2, (scan .hunt data).1.bytes, hbytes.symm, ⟨s, rest, hrest, hs⟩,
    htrace, hmessages, ?_, ?_, ?_⟩
  · exact haccounts.framesOk.trans (UInt32.zero_add _)
  · exact haccounts.crcErrors.trans (UInt32.zero_add _)
  · exact haccounts.bytesDropped.trans (UInt32.zero_add _)

/-! ### Assembled streams -/

/-- **Frames survive junk and chunking.** A stream assembled from framed segments with sync-free
junk before, between and after them is fed to a fresh receiver in any chunks: what is delivered is
exactly the segments whose trailing bytes are right, in order and unaltered; the others are counted
as checksum errors, and what is counted as dropped is all the junk, less a final `A5` that is still
pending. Whatever the encoder wrote is among the delivered. -/
theorem feedChunks_assembled (recv : TlvReceiver) {g₀ : List UInt8}
    {blocks : List (TlvSegment × List UInt8)} {chunks : List (List UInt8)}
    (hg₀ : tlvFormat.SyncFree g₀) (hblocks : ∀ x ∈ blocks, tlvFormat.SyncFree x.2)
    (hchunks : chunks.flatten = assemble g₀ blocks) :
    (tlvReceiverFeedChunks (tlvReceiverInit recv) chunks).2 =
        ((blocks.map Prod.fst).filter fun s ↦ TlvSegment.Valid s).map TlvSegment.message ∧
      (tlvReceiverFeedChunks (tlvReceiverInit recv) chunks).1.framesOk =
        UInt32.ofNat ((blocks.map Prod.fst).countP fun s ↦ TlvSegment.Valid s) ∧
      (tlvReceiverFeedChunks (tlvReceiverInit recv) chunks).1.crcErrors =
        UInt32.ofNat ((blocks.map Prod.fst).countP fun s ↦ ¬TlvSegment.Valid s) ∧
      (tlvReceiverFeedChunks (tlvReceiverInit recv) chunks).1.bytesDropped =
        UInt32.ofNat (junkLength g₀ blocks -
          if (lastRun g₀ blocks).getLast? = some tlvSof0 then 1 else 0) ∧
      ∀ x ∈ blocks, (∃ tag value valueLen outCap,
        tlvEncode tag value valueLen outCap = .ok x.1.bytes) → TlvSegment.Valid x.1 := by
  obtain ⟨-, haccounts, -⟩ := tlvReceiverTrace_refines (tracks_init recv) (assemble g₀ blocks)
  have hmessages := trace_messages (tracks_init recv) (assemble g₀ blocks)
  obtain ⟨hidle, hsegments, hjunk, hlast⟩ :=
    scan_blocks (p := (.hunt : Pending tlvFormat)) (.inl rfl) hg₀ hblocks
  rw [tlvReceiverFeedChunks_eq, hchunks]
  dsimp only
  rw [hsegments] at hmessages
  refine ⟨hmessages, ?_, ?_, ?_, fun x _ ⟨_, _, _, _, hx⟩ ↦ valid_of_tlvEncode hx⟩
  · rw [← hsegments]
    exact haccounts.framesOk.trans (UInt32.zero_add _)
  · rw [← hsegments]
    exact haccounts.crcErrors.trans (UInt32.zero_add _)
  · refine (haccounts.bytesDropped.trans (UInt32.zero_add _)).trans (congrArg UInt32.ofNat ?_)
    have hpending : (scan (.hunt : Pending tlvFormat) (assemble g₀ blocks)).1.bytes.length =
        if (lastRun g₀ blocks).getLast? = some tlvSof0 then 1 else 0 := by
      have hlast' : (scan (.hunt : Pending tlvFormat) (assemble g₀ blocks)).1 = .sync ↔
          (lastRun g₀ blocks).getLast? = some tlvSof0 := hlast
      rcases hidle with h | h
      · rw [if_neg fun hc ↦ by simpa [h] using hlast'.2 hc, h]
        rfl
      · rw [if_pos (hlast'.1 h), h]
        rfl
    rw [hpending] at hjunk
    have hzero : (Pending.hunt : Pending tlvFormat).bytes.length = 0 := rfl
    omega

/-- The frame of a keep-alive message. -/
def keepAlive : TlvSegment :=
  TlvSegment.make 0x14 0 [] 0xD2 0xB8 rfl

/-- A keep-alive survives a lone sync byte before it and a damaged copy of itself after it. -/
theorem feedChunks_keepAlive :
    (tlvReceiverFeedChunks (tlvReceiverInit default)
      [[0xA5], [0xA5, 0x5A, 0x14], [0x00, 0xD2, 0xB8, 0xA5, 0x5A], [0x14, 0x00, 0xFF, 0xFF]]).2 =
        [⟨0x14, 0, []⟩] := by
  have hjunk : tlvFormat.SyncFree [0xA5] := by decide
  have hblocks : ∀ x ∈ [(keepAlive, ([] : List UInt8)),
      (TlvSegment.make 0x14 0 [] 0xFF 0xFF rfl, [])], tlvFormat.SyncFree x.2 := by decide
  have hchunks : [[0xA5], [0xA5, 0x5A, 0x14], [0x00, 0xD2, 0xB8, 0xA5, 0x5A],
      [0x14, 0x00, 0xFF, 0xFF]].flatten = assemble [0xA5] [(keepAlive, ([] : List UInt8)),
        (TlvSegment.make 0x14 0 [] 0xFF 0xFF rfl, [])] := rfl
  exact (feedChunks_assembled default hjunk hblocks hchunks).1.trans (by decide +kernel)

/-! ### The block decoder -/

/-- Feed a buffer byte by byte until the first result other than `TLV_INCOMPLETE`: the index of
that byte, the status, and the message stored to `*out`. -/
def tlvReceiverFeedUntil (recv : TlvReceiver) :
    List UInt8 → Option (ℕ × TlvStatus × Option Message)
  | [] => none
  | byte :: data =>
    match tlvReceiverFeedByte recv byte with
    | (recv, .incomplete, _) => (tlvReceiverFeedUntil recv data).map fun r ↦ (r.1 + 1, r.2)
    | (_, status, out) => some (0, status, out.map TlvFrame.message)

/-- A trace that never leaves `TLV_INCOMPLETE` has no first result. -/
theorem feedUntil_of_trace_incomplete {recv : TlvReceiver} {data : List UInt8} {n : ℕ}
    (h : (tlvReceiverTrace recv data).2 = List.replicate n (.incomplete, none)) :
    tlvReceiverFeedUntil recv data = none := by
  induction data generalizing recv n with
  | nil => rfl
  | cons byte data ih =>
    rw [tlvReceiverTrace_cons] at h
    obtain _ | n := n
    · cases h
    rw [List.replicate_succ, List.cons.injEq, Prod.mk.injEq] at h
    obtain ⟨⟨hstatus, -⟩, htrace⟩ := h
    rw [tlvReceiverFeedUntil]
    generalize tlvReceiverFeedByte recv byte = r at hstatus htrace
    obtain ⟨recv', status, out⟩ := r
    obtain rfl : status = .incomplete := hstatus
    show (tlvReceiverFeedUntil recv' data).map _ = none
    rw [ih htrace]
    rfl

/-- The first other result of a trace is the first result. -/
theorem feedUntil_of_trace {recv : TlvReceiver} {data : List UInt8} {n : ℕ} {status : TlvStatus}
    {out : Option Message} {more : List (TlvStatus × Option Message)}
    (hstatus : status ≠ .incomplete)
    (h : (tlvReceiverTrace recv data).2 =
      List.replicate n (.incomplete, none) ++ (status, out) :: more) :
    tlvReceiverFeedUntil recv data = some (n, status, out) := by
  induction data generalizing recv n with
  | nil => simp [tlvReceiverTrace] at h
  | cons byte data ih =>
    rw [tlvReceiverTrace_cons] at h
    rw [tlvReceiverFeedUntil]
    generalize tlvReceiverFeedByte recv byte = r at h
    obtain ⟨recv', st, o⟩ := r
    obtain _ | n := n
    · rw [List.replicate_zero, List.nil_append, List.cons.injEq, Prod.mk.injEq] at h
      obtain ⟨⟨rfl, rfl⟩, -⟩ := h
      cases st <;> first | exact absurd rfl hstatus | rfl
    · rw [List.replicate_succ, List.cons_append, List.cons.injEq, Prod.mk.injEq] at h
      obtain ⟨⟨rfl, -⟩, htrace⟩ := h
      show (tlvReceiverFeedUntil recv' data).map _ = _
      rw [ih htrace]
      rfl

/-- The frame the decoder points into its buffer says what the segment says. -/
theorem message_of_segment (s : TlvSegment) (rest : List UInt8) :
    TlvFrame.message ⟨s.tag, s.len, if s.len > 0 then some (s.body ++ rest) else none⟩ =
      TlvSegment.message s := by
  have hlen := TlvSegment.length_value s
  rw [TlvFrame.message, TlvSegment.message, Message.mk.injEq]
  refine ⟨rfl, rfl, ?_⟩
  show ((if s.len > 0 then some (s.body ++ rest) else none).getD []).take s.len.toNat = _
  by_cases hl : s.len > 0
  · rw [if_pos hl, Option.getD_some, TlvSegment.body_eq, List.append_assoc]
    exact List.take_left' hlen
  · have hzero : s.len.toNat = 0 := by
      rw [gt_iff_lt, UInt8.lt_iff_toNat_lt, UInt8.toNat_zero] at hl
      omega
    rw [if_neg hl, List.eq_nil_of_length_eq_zero (hlen.trans hzero), Option.getD_none,
      List.take_nil]

/-- A hunting receiver decides on a segment with its last byte, and then goes on. -/
theorem trace_segment {recv : TlvReceiver} (h : Tracks recv .hunt) (s : TlvSegment)
    (rest : List UInt8) :
    (tlvReceiverTrace recv (s.bytes ++ rest)).2 =
      List.replicate (s.bytes.length - 1) (.incomplete, none) ++ TlvSegment.verdict s ::
        ((scan .hunt rest).2.flatMap itemVerdicts ++ pendingVerdicts (scan .hunt rest).1) := by
  obtain ⟨-, -, htrace⟩ := tlvReceiverTrace_refines h (s.bytes ++ rest)
  rw [scan_append, scan_segment (.inl rfl)] at htrace
  simpa [pendingVerdicts, Pending.bytes, itemVerdicts] using htrace

/-- **The streaming receiver is the block decoder, one byte at a time.** On a buffer whose sync
bytes the decoder does not complain of, a receiver that is hunting for a frame, whatever it has
seen before, returns `TLV_OK` first at byte `k` with a message exactly when the decoder returns
`TLV_OK` with that message and `k + 1` bytes consumed, `TLV_ERR_CRC` first exactly when the
decoder does, and nothing but `TLV_INCOMPLETE` exactly when the decoder reports that. -/
theorem feedUntil_iff_tlvDecode {recv : TlvReceiver} {input : List UInt8}
    (hrecv : recv.state = stSof0) (hinput : (tlvDecode input).1 ≠ .errNoSof) :
    (∀ k m, tlvReceiverFeedUntil recv input = some (k, .ok, some m) ↔
        ∃ frame, tlvDecode input = (.ok, some (frame, k + 1)) ∧ frame.message = m) ∧
      ((∃ k out, tlvReceiverFeedUntil recv input = some (k, .errCrc, out)) ↔
        (tlvDecode input).1 = .errCrc) ∧
      (tlvReceiverFeedUntil recv input = none ↔ (tlvDecode input).1 = .incomplete) := by
  have htracks : Tracks recv .hunt := hrecv
  rcases tlvDecode_cases hinput with ⟨s, rest, rfl⟩ | ⟨hdec, hscan⟩
  · -- the buffer starts with a segment: both decide on its last byte
    have htrace := trace_segment htracks s rest
    have hpos : s.bytes.length - 1 + 1 = s.bytes.length := by
      rw [Segment.length_bytes]
      rfl
    rw [tlvDecode_segment]
    by_cases hs : TlvSegment.Valid s
    · have hverdict : TlvSegment.verdict s = (.ok, some (TlvSegment.message s)) := if_pos hs
      rw [hverdict] at htrace
      rw [feedUntil_of_trace (by simp) htrace, if_pos hs]
      have hmsg := message_of_segment s rest
      refine ⟨fun k m ↦ ⟨?_, ?_⟩, by simp, by simp⟩
      · rintro ⟨⟩
        exact ⟨_, by rw [hpos], hmsg⟩
      · rintro ⟨frame, hframe, rfl⟩
        simp only [Prod.mk.injEq, Option.some.injEq, true_and] at hframe
        obtain ⟨rfl, hk⟩ := hframe
        rw [← hpos, Nat.add_right_cancel_iff] at hk
        rw [hk, hmsg]
    · have hverdict : TlvSegment.verdict s = (.errCrc, none) := if_neg hs
      rw [hverdict] at htrace
      rw [feedUntil_of_trace (by simp) htrace, if_neg hs]
      simp
  · -- the buffer is the beginning of a segment: both wait
    obtain ⟨-, -, htrace⟩ := tlvReceiverTrace_refines htracks input
    rw [hscan] at htrace
    rw [feedUntil_of_trace_incomplete htrace, hdec]
    simp

/-- A keep-alive frame, handed over by a receiver that is hunting. -/
theorem feedUntil_keepAlive :
    tlvReceiverFeedUntil (tlvReceiverInit default) keepAlive.bytes =
      some (5, .ok, some ⟨0x14, 0, []⟩) := by
  have hdec : tlvDecode keepAlive.bytes = (.ok, some (⟨0x14, 0, none⟩, 6)) := by decide +kernel
  have hinput : (tlvDecode keepAlive.bytes).1 ≠ .errNoSof := by simp [hdec]
  exact ((feedUntil_iff_tlvDecode (show (tlvReceiverInit default).state = stSof0 from rfl)
    hinput).1 5 _).2
    ⟨_, hdec, rfl⟩

end SubmarineMonitor

import SubmarineMonitor.Protocol.Frame

/-!
# The streaming receiver

The byte-at-a-time state machine of `tlv.c`, translated branch for branch, and its refinement of
the abstract scanner of `FrameFormat`.

The receiver keeps seven `ST_*` states, an 8-bit index into a 255-byte array and a running
checksum; the scanner keeps the unfinished bytes themselves. `Tracks` relates the two, and
`tlvReceiverFeedByte_refines` is the one place where the switch statement is opened: a single byte
keeps the relation, returns what the items completed by that byte deserve (`verdict`), and moves
the three counters by what those items count for. Everything said about streams of bytes follows
from it and from facts about the scanner alone.

## The state as the source keeps it

`state` is a byte and not an enumeration of seven, so that the `default` branch, which resets the
receiver, has inputs. The index is a byte that wraps, and a store at index 255 would fall outside an
array of 255; the definition drops such a store, and that there is none is proved and not assumed.
The array keeps what it held when the receiver is initialised, since `tlv_receiver_init` does not
clear it.

The counters are 32-bit words that wrap. Statements about them are equations between words, so they
hold for streams of any length, and nobody has to assume that fewer than `2 ^ 32` bytes arrive.

## Refinement

The scanner of `Foundation.Framing` is a machine on lists, which cannot forget anything; the
receiver forgets the sync bytes at once and the value bytes when the next frame begins. `Tracks` is
a function from what is pending to what must be true of the receiver, one case for each way in which
a frame can be unfinished. It says nothing about fields whose content is dead in that state: in
`ST_TAG` the length is that of an older frame, and the relation leaves it open. That keeps the proof
of a step small, one branch of the switch for each case and no case for combinations that do not
arise.

## What is left out

NULL for the receiver, the output or the data. A frame given to the callback is a view of the
receiver's array, valid until the next byte; the callbacks are called at once, and `tlvReceiverFeed`
returns the views in the state in which they were made.
-/

open FrameFormat

namespace SubmarineMonitor

/-! ### The state machine -/

/-- `ST_SOF0`: hunting for a frame. -/
def stSof0 : UInt8 := 0

def stSof1 : UInt8 := 1

def stTag : UInt8 := 2

def stLen : UInt8 := 3

def stValue : UInt8 := 4

def stCrcHi : UInt8 := 5

def stCrcLo : UInt8 := 6

/-- `tlv_receiver_t`. -/
structure TlvReceiver where
  /-- Which byte of the frame is expected next. -/
  state : UInt8
  tag : UInt8
  len : UInt8
  /-- Value bytes collected so far. -/
  idx : UInt8
  /-- Checksum over the bytes seen so far. -/
  crcCalc : UInt16
  /-- Checksum read from the wire. -/
  crcRx : UInt16
  value : Vector UInt8 255
  framesOk : UInt32
  crcErrors : UInt32
  bytesDropped : UInt32

/-- A zeroed receiver. -/
instance : Inhabited TlvReceiver :=
  ⟨⟨stSof0, 0, 0, 0, 0, 0, Vector.replicate 255 0, 0, 0, 0⟩⟩

/-- `tlv_receiver_init`. The value array keeps whatever it held. -/
def tlvReceiverInit (recv : TlvReceiver) : TlvReceiver :=
  { recv with
    state := stSof0
    tag := 0
    len := 0
    idx := 0
    crcCalc := 0xFFFF
    crcRx := 0
    framesOk := 0
    crcErrors := 0
    bytesDropped := 0 }

/-- `tlv_receiver_feed_byte`: the new receiver, the status, and what was stored to `*out`. A store
past the end of the value array is dropped; `Tracks` shows that there never is one. -/
def tlvReceiverFeedByte (recv : TlvReceiver) (byte : UInt8) :
    TlvReceiver × TlvStatus × Option TlvFrame :=
  if recv.state = stSof0 then
    if byte = tlvSof0 then ({ recv with state := stSof1 }, .incomplete, none)
    else ({ recv with bytesDropped := recv.bytesDropped + 1 }, .incomplete, none)
  else if recv.state = stSof1 then
    if byte = tlvSof1 then
      ({ recv with crcCalc := 0xFFFF, state := stTag }, .incomplete, none)
    else if byte = tlvSof0 then
      -- `A5 A5 5A` is a valid start
      ({ recv with bytesDropped := recv.bytesDropped + 1 }, .incomplete, none)
    else
      ({ recv with bytesDropped := recv.bytesDropped + 2, state := stSof0 }, .incomplete, none)
  else if recv.state = stTag then
    ({ recv with tag := byte, crcCalc := tlvCrc16Update recv.crcCalc byte, state := stLen },
      .incomplete, none)
  else if recv.state = stLen then
    ({ recv with
        len := byte
        idx := 0
        crcCalc := tlvCrc16Update recv.crcCalc byte
        state := if byte = 0 then stCrcHi else stValue }, .incomplete, none)
  else if recv.state = stValue then
    let idx := recv.idx + 1
    ({ recv with
        value := recv.value.setIfInBounds recv.idx.toNat byte
        crcCalc := tlvCrc16Update recv.crcCalc byte
        idx := idx
        state := if idx ≥ recv.len then stCrcHi else recv.state }, .incomplete, none)
  else if recv.state = stCrcHi then
    ({ recv with crcRx := byte.toUInt16 <<< 8, state := stCrcLo }, .incomplete, none)
  else if recv.state = stCrcLo then
    let crcRx := recv.crcRx ||| byte.toUInt16
    let recv := { recv with crcRx := crcRx, state := stSof0 }
    if crcRx ≠ recv.crcCalc then
      ({ recv with crcErrors := recv.crcErrors + 1 }, .errCrc, none)
    else
      ({ recv with framesOk := recv.framesOk + 1 }, .ok,
        some ⟨recv.tag, recv.len, if recv.len > 0 then some recv.value.toList else none⟩)
  else (tlvReceiverInit recv, .incomplete, none)

/-- `tlv_receiver_feed`: the new receiver, the number of frames delivered, and the frames handed
to the callback, in order. -/
def tlvReceiverFeed (recv : TlvReceiver) : List UInt8 → TlvReceiver × ℕ × List TlvFrame
  | [] => (recv, 0, [])
  | byte :: data =>
    match tlvReceiverFeedByte recv byte with
    | (recv, .ok, some frame) =>
      let (recv, delivered, frames) := tlvReceiverFeed recv data
      (recv, delivered + 1, frame :: frames)
    | (recv, _, _) => tlvReceiverFeed recv data

/-- `tlv_receiver_feed_byte` as a machine emitting what it returns: the status, and the message
stored to `*out`. -/
def traceStep (recv : TlvReceiver) (byte : UInt8) :
    TlvReceiver × List (TlvStatus × Option Message) :=
  let r := tlvReceiverFeedByte recv byte
  (r.1, [(r.2.1, r.2.2.map TlvFrame.message)])

/-- What `tlv_receiver_feed_byte` returns for each byte of a stream. -/
def tlvReceiverTrace (recv : TlvReceiver) (data : List UInt8) :
    TlvReceiver × List (TlvStatus × Option Message) :=
  Mealy.run traceStep recv data

/-- Feeding the chunks one after another: the receiver reached and the messages delivered to the
callback, in order. -/
def tlvReceiverFeedChunks (recv : TlvReceiver) (chunks : List (List UInt8)) :
    TlvReceiver × List Message :=
  Mealy.run (fun recv chunk ↦
    let r := tlvReceiverFeed recv chunk
    (r.1, r.2.2.map TlvFrame.message)) recv chunks

/-! ### What a stream deserves -/

/-- What a complete segment deserves: its message if its checksum is right. -/
def TlvSegment.verdict (s : TlvSegment) : TlvStatus × Option Message :=
  if s.Valid then (.ok, some s.message) else (.errCrc, none)

/-- What the byte completing these items deserves. -/
def verdict (items : List (Item tlvFormat)) : TlvStatus × Option Message :=
  match segments items with
  | [] => (.incomplete, none)
  | s :: _ => TlvSegment.verdict s

/-- What the bytes of one item deserve, one by one: only the last byte of a segment completes
anything. -/
def itemVerdicts : Item tlvFormat → List (TlvStatus × Option Message)
  | .junk _ => [(.incomplete, none)]
  | .segment s => List.replicate (s.bytes.length - 1) (.incomplete, none) ++ [TlvSegment.verdict s]

/-- The counters of a receiver after it has seen these items. -/
structure Accounts (recv recv' : TlvReceiver) (items : List (Item tlvFormat)) : Prop where
  framesOk : recv'.framesOk =
    recv.framesOk + UInt32.ofNat ((segments items).countP fun s ↦ TlvSegment.Valid s)
  crcErrors : recv'.crcErrors =
    recv.crcErrors + UInt32.ofNat ((segments items).countP fun s ↦ ¬TlvSegment.Valid s)
  bytesDropped : recv'.bytesDropped = recv.bytesDropped + UInt32.ofNat (junkCount items)

/-- Nothing completed, no counter moved. -/
theorem Accounts.same {recv recv' : TlvReceiver} (hok : recv'.framesOk = recv.framesOk)
    (hcrc : recv'.crcErrors = recv.crcErrors) (hdrop : recv'.bytesDropped = recv.bytesDropped) :
    Accounts recv recv' [] :=
  ⟨hok.trans (UInt32.add_zero _).symm, hcrc.trans (UInt32.add_zero _).symm,
    hdrop.trans (UInt32.add_zero _).symm⟩

theorem Accounts.trans {recv recv' recv'' : TlvReceiver} {a b : List (Item tlvFormat)}
    (h₁ : Accounts recv recv' a) (h₂ : Accounts recv' recv'' b) : Accounts recv recv'' (a ++ b) := by
  constructor
  · rw [h₂.framesOk, h₁.framesOk, segments_append, List.countP_append, UInt32.ofNat_add,
      UInt32.add_assoc]
  · rw [h₂.crcErrors, h₁.crcErrors, segments_append, List.countP_append, UInt32.ofNat_add,
      UInt32.add_assoc]
  · rw [h₂.bytesDropped, h₁.bytesDropped, junkCount_append, UInt32.ofNat_add, UInt32.add_assoc]

/-! ### The refinement -/

/-- The receiver is inside a frame with this tag and length, has stored the value bytes `v`, and
its running checksum is that of tag, length and `v`. -/
structure TlvReceiver.InFrame (recv : TlvReceiver) (t l : UInt8) (v : List UInt8) : Prop where
  tag : recv.tag = t
  len : recv.len = l
  stored : recv.value.toList.take v.length = v
  crcCalc : recv.crcCalc = tlvCrc16 (t :: l :: v)

/-- **The refinement relation.** The receiver is where the pending bytes put it. -/
def Tracks (recv : TlvReceiver) : Pending tlvFormat → Prop
  | .hunt => recv.state = stSof0
  | .sync => recv.state = stSof1
  | .tag => recv.state = stTag ∧ recv.crcCalc = 0xFFFF
  | .len t => recv.state = stLen ∧ recv.tag = t ∧ recv.crcCalc = tlvCrc16 [t]
  | .body t l acc _ =>
    (recv.state = stValue ∧ acc.length < l.toNat ∧ recv.idx.toNat = acc.length ∧
      recv.InFrame t l acc) ∨
    (recv.state = stCrcHi ∧ acc.length = l.toNat ∧ recv.InFrame t l acc) ∨
    (recv.state = stCrcLo ∧ ∃ (v : List UInt8) (c : UInt8), acc = v ++ [c] ∧ v.length = l.toNat ∧
      recv.crcRx = c.toUInt16 <<< 8 ∧ recv.InFrame t l v)

/-- A byte's result against the scanner's: the relation is kept, the byte returns what the items it
completes deserve, and the counters move by what they count for. -/
structure Refines (recv : TlvReceiver) (r : TlvReceiver × TlvStatus × Option TlvFrame)
    (q : Pending tlvFormat × List (Item tlvFormat)) : Prop where
  tracks : Tracks r.1 q.1
  result : (r.2.1, r.2.2.map TlvFrame.message) = verdict q.2
  accounts : Accounts recv r.1 q.2

variable {recv : TlvReceiver}

theorem feedByte_hunt (h : Tracks recv .hunt) (byte : UInt8) :
    Refines recv (tlvReceiverFeedByte recv byte) (step .hunt byte) := by
  have hstate : recv.state = stSof0 := h
  rw [tlvReceiverFeedByte, if_pos hstate]
  by_cases hb : byte = tlvSof0
  · have hstep : step (.hunt : Pending tlvFormat) byte = (.sync, []) := if_pos hb
    rw [hstep, if_pos hb]
    exact ⟨rfl, rfl, .same rfl rfl rfl⟩
  · have hstep : step (.hunt : Pending tlvFormat) byte = (.hunt, [.junk byte]) := if_neg hb
    rw [hstep, if_neg hb]
    exact ⟨hstate, rfl, (UInt32.add_zero _).symm, (UInt32.add_zero _).symm, rfl⟩

theorem feedByte_sync (h : Tracks recv .sync) (byte : UInt8) :
    Refines recv (tlvReceiverFeedByte recv byte) (step .sync byte) := by
  have hstate : recv.state = stSof1 := h
  rw [tlvReceiverFeedByte, hstate, if_neg (by decide), if_pos rfl]
  by_cases hb₁ : byte = tlvSof1
  · have hstep : step (.sync : Pending tlvFormat) byte = (.tag, []) := if_pos hb₁
    rw [hstep, if_pos hb₁]
    exact ⟨⟨rfl, rfl⟩, rfl, .same rfl rfl rfl⟩
  by_cases hb₀ : byte = tlvSof0
  · have hstep : step (.sync : Pending tlvFormat) byte = (.sync, [.junk tlvSof0]) := by
      exact (if_neg hb₁).trans (if_pos hb₀)
    rw [hstep, if_neg hb₁, if_pos hb₀]
    exact ⟨rfl, rfl, (UInt32.add_zero _).symm, (UInt32.add_zero _).symm, rfl⟩
  · have hstep : step (.sync : Pending tlvFormat) byte =
        (.hunt, [.junk tlvSof0, .junk byte]) := by
      exact (if_neg hb₁).trans (if_neg hb₀)
    rw [hstep, if_neg hb₁, if_neg hb₀]
    exact ⟨rfl, rfl, (UInt32.add_zero _).symm, (UInt32.add_zero _).symm, rfl⟩

theorem feedByte_tag (h : Tracks recv .tag) (byte : UInt8) :
    Refines recv (tlvReceiverFeedByte recv byte) (step .tag byte) := by
  obtain ⟨hstate, hcrc⟩ := h
  rw [tlvReceiverFeedByte, hstate, if_neg (by decide), if_neg (by decide), if_pos rfl]
  exact ⟨⟨rfl, rfl, by rw [hcrc]; rfl⟩, rfl, .same rfl rfl rfl⟩

theorem feedByte_len {t : UInt8} (h : Tracks recv (.len t)) (byte : UInt8) :
    Refines recv (tlvReceiverFeedByte recv byte) (step (.len t) byte) := by
  obtain ⟨hstate, htag, hcrc⟩ := h
  have hin : ∀ st : UInt8, TlvReceiver.InFrame
      { recv with
        len := byte
        idx := 0
        crcCalc := tlvCrc16Update recv.crcCalc byte
        state := st } t byte [] := fun st ↦
    ⟨htag, rfl, rfl, by rw [hcrc, ← tlvCrc16_concat]; rfl⟩
  rw [tlvReceiverFeedByte, hstate, if_neg (by decide), if_neg (by decide), if_neg (by decide),
    if_pos rfl]
  refine ⟨?_, rfl, .same rfl rfl rfl⟩
  -- an empty value goes straight to the checksum
  by_cases hb : byte = 0
  · exact .inr (.inl ⟨if_pos hb, by rw [hb]; rfl, hin _⟩)
  · have hpos : 0 < byte.toNat := by
      rw [Nat.pos_iff_ne_zero]
      exact fun h0 ↦ hb (UInt8.toNat_inj.1 h0)
    exact .inl ⟨if_neg hb, hpos, rfl, hin _⟩

/-- Storing the next value byte extends what is stored. -/
theorem stored_set {value : Vector UInt8 255} {v : List UInt8} {byte : UInt8}
    (h : value.toList.take v.length = v) (hlt : v.length < 255) :
    (value.setIfInBounds v.length byte).toList.take (v ++ [byte]).length = v ++ [byte] := by
  have hlen : v.length < value.toList.length := by simpa using hlt
  rw [Vector.toList_setIfInBounds, List.length_append, List.length_singleton, List.take_add_one,
    List.take_set_of_le (Nat.le_refl _), h, List.getElem?_set_self hlen]
  rfl

/-- A completed frame delivers exactly the value bytes received for it. -/
theorem TlvReceiver.InFrame.message {t l : UInt8} {v : List UInt8} (h : recv.InFrame t l v)
    (hv : v.length = l.toNat) :
    TlvFrame.message ⟨recv.tag, recv.len, if recv.len > 0 then some recv.value.toList else none⟩ =
      ⟨t, l, v⟩ := by
  rw [TlvFrame.message, h.tag, h.len]
  by_cases hl : l > 0
  · simp only [hl, if_true, Option.getD_some, ← hv, h.stored]
  · have hzero : l.toNat = 0 := by
      rw [gt_iff_lt, UInt8.lt_iff_toNat_lt, UInt8.toNat_zero] at hl
      omega
    have hnil : v = [] := List.eq_nil_of_length_eq_zero (hv.trans hzero)
    simp [hl, hnil]

theorem feedByte_body {t l : UInt8} {acc : List UInt8} {hlt : acc.length < tlvFormat.bodyLength l}
    (h : Tracks recv (.body t l acc hlt)) (byte : UInt8) :
    Refines recv (tlvReceiverFeedByte recv byte) (step (.body t l acc hlt) byte) := by
  have hbody : tlvFormat.bodyLength l = l.toNat + 2 := rfl
  rcases h with ⟨hstate, hval, hidx, hin⟩ | ⟨hstate, hval, hin⟩ | ⟨hstate, v, c, rfl, hval, hrx, hin⟩
  · -- `ST_VALUE`
    have hmore : acc.length + 1 < tlvFormat.bodyLength l := by omega
    have hstep : step (.body t l acc hlt) byte =
        (.body t l (acc ++ [byte]) (by simpa using hmore), []) := dif_pos hmore
    have hl : l.toNat < 256 := l.toNat_lt
    have hnext : (recv.idx + 1).toNat = acc.length + 1 := by
      rw [UInt8.toNat_add, hidx, UInt8.toNat_one]
      exact Nat.mod_eq_of_lt (by omega)
    have hin' : ∀ st : UInt8, TlvReceiver.InFrame
        { recv with
          value := recv.value.setIfInBounds recv.idx.toNat byte
          crcCalc := tlvCrc16Update recv.crcCalc byte
          idx := recv.idx + 1
          state := st } t l (acc ++ [byte]) := fun st ↦
      ⟨hin.tag, hin.len, by
        rw [hidx]
        exact stored_set hin.stored (by omega), by
        rw [hin.crcCalc, ← tlvCrc16_concat, List.cons_append, List.cons_append]⟩
    rw [hstep, tlvReceiverFeedByte, hstate, if_neg (by decide), if_neg (by decide),
      if_neg (by decide), if_neg (by decide), if_pos rfl]
    refine ⟨?_, rfl, .same rfl rfl rfl⟩
    by_cases hlast : recv.idx + 1 ≥ recv.len
    · have hfull : l.toNat ≤ acc.length + 1 := by
        rw [hin.len, ge_iff_le, UInt8.le_iff_toNat_le, hnext] at hlast
        exact hlast
      exact .inr (.inl ⟨if_pos hlast, by
        rw [List.length_append, List.length_singleton]
        omega, hin' _⟩)
    · have hroom : acc.length + 1 < l.toNat := by
        rw [hin.len, ge_iff_le, UInt8.le_iff_toNat_le, hnext] at hlast
        omega
      exact .inl ⟨if_neg hlast, by simpa using hroom, by
        rw [List.length_append, List.length_singleton]
        exact hnext, hin' _⟩
  · -- `ST_CRC_HI`
    have hmore : acc.length + 1 < tlvFormat.bodyLength l := by omega
    have hstep : step (.body t l acc hlt) byte =
        (.body t l (acc ++ [byte]) (by simpa using hmore), []) := dif_pos hmore
    rw [hstep, tlvReceiverFeedByte, hstate, if_neg (by decide), if_neg (by decide),
      if_neg (by decide), if_neg (by decide), if_neg (by decide), if_pos rfl]
    exact ⟨.inr (.inr ⟨rfl, acc, byte, rfl, hval, rfl, hin.tag, hin.len, hin.stored, hin.crcCalc⟩),
      rfl, .same rfl rfl rfl⟩
  · -- `ST_CRC_LO`: the last byte of the segment
    have hdone : ¬(v ++ [c]).length + 1 < tlvFormat.bodyLength l := by
      rw [List.length_append, List.length_singleton]
      omega
    have hseg : (v ++ [c]) ++ [byte] = v ++ [c, byte] := by simp
    obtain ⟨s, hs, hstep⟩ : ∃ s : TlvSegment, s = TlvSegment.make t l v c byte hval ∧
        step (.body t l (v ++ [c]) hlt) byte = (.hunt, [.segment s]) := by
      refine ⟨_, rfl, ?_⟩
      rw [step, dif_neg hdone]
      simp [TlvSegment.make]
    have hvalid : TlvSegment.Valid s ↔ recv.crcRx ||| byte.toUInt16 = recv.crcCalc := by
      simp only [hs, TlvSegment.Valid, TlvSegment.crcRx, TlvSegment.crcCalc, TlvSegment.c1_make,
        TlvSegment.c2_make, TlvSegment.value_make, TlvSegment.tag_make, TlvSegment.len_make, hrx,
        hin.crcCalc]
    rw [hstep, tlvReceiverFeedByte, hstate, if_neg (by decide), if_neg (by decide),
      if_neg (by decide), if_neg (by decide), if_neg (by decide), if_neg (by decide), if_pos rfl]
    by_cases hok : recv.crcRx ||| byte.toUInt16 = recv.crcCalc
    · have hgood : TlvSegment.Valid s := hvalid.2 hok
      simp only [hok, ne_eq, not_true_eq_false, if_false]
      refine ⟨rfl, ?_, ?_, ?_, ?_⟩
      · have hmsg : TlvSegment.message s = ⟨t, l, v⟩ := by
          rw [hs, TlvSegment.message, TlvSegment.value_make]
          rfl
        have hframe := hin.message hval
        simp only [verdict, TlvSegment.verdict, segments_segment_cons, hgood, if_true, hmsg,
          Option.map_some, ← hframe]
      · simp [hgood]
      · simp [hgood]
      · simp
    · have hbad : ¬TlvSegment.Valid s := fun h ↦ hok (hvalid.1 h)
      simp only [hok, ne_eq, not_false_eq_true, if_true]
      refine ⟨rfl, ?_, ?_, ?_, ?_⟩
      · simp [verdict, TlvSegment.verdict, hbad]
      · simp [hbad]
      · simp [hbad]
      · simp

/-- **One byte.** Whatever the receiver has seen before, a byte keeps it in step with the scanner,
returns what the completed items deserve, and accounts for them. -/
theorem tlvReceiverFeedByte_refines {p : Pending tlvFormat} (h : Tracks recv p) (byte : UInt8) :
    Refines recv (tlvReceiverFeedByte recv byte) (step p byte) := by
  cases p with
  | hunt => exact feedByte_hunt h byte
  | sync => exact feedByte_sync h byte
  | tag => exact feedByte_tag h byte
  | len t => exact feedByte_len h byte
  | body t l acc hlt => exact feedByte_body h byte

/-! ### Runs -/

theorem tlvReceiverTrace_cons (recv : TlvReceiver) (byte : UInt8) (data : List UInt8) :
    tlvReceiverTrace recv (byte :: data) =
      ((tlvReceiverTrace (tlvReceiverFeedByte recv byte).1 data).1,
        ((tlvReceiverFeedByte recv byte).2.1,
          (tlvReceiverFeedByte recv byte).2.2.map TlvFrame.message) ::
          (tlvReceiverTrace (tlvReceiverFeedByte recv byte).1 data).2) :=
  rfl

/-- Pending bytes have deserved nothing yet. -/
def pendingVerdicts (p : Pending tlvFormat) : List (TlvStatus × Option Message) :=
  List.replicate p.bytes.length (.incomplete, none)

/-- One byte's verdict, placed after those of the pending bytes. -/
theorem step_verdicts (p : Pending tlvFormat) (byte : UInt8) :
    pendingVerdicts p ++ [verdict (step p byte).2] =
      (step p byte).2.flatMap itemVerdicts ++ pendingVerdicts (step p byte).1 := by
  cases p with
  | hunt => simp only [step]; split_ifs <;> rfl
  | sync => simp only [step]; split_ifs <;> rfl
  | tag => rfl
  | len t => rfl
  | body t l acc hlt =>
    simp only [step]
    split_ifs with h
    · simp [pendingVerdicts, Pending.bytes, verdict, List.replicate_succ']
    · have hlen : tlvFormat.bodyLength l = acc.length + 1 := by omega
      simp [pendingVerdicts, Pending.bytes, verdict, itemVerdicts, hlen]

/-- **A stream of bytes.** The receiver stays in step with the scanner, accounts for every item it
emits, and returns for each byte exactly what the item it belongs to deserves. -/
theorem tlvReceiverTrace_refines {p : Pending tlvFormat} (h : Tracks recv p) (data : List UInt8) :
    Tracks (tlvReceiverTrace recv data).1 (scan p data).1 ∧
      Accounts recv (tlvReceiverTrace recv data).1 (scan p data).2 ∧
      pendingVerdicts p ++ (tlvReceiverTrace recv data).2 =
        (scan p data).2.flatMap itemVerdicts ++ pendingVerdicts (scan p data).1 := by
  induction data generalizing recv p with
  | nil => exact ⟨h, .same rfl rfl rfl, by simp [tlvReceiverTrace, scan]⟩
  | cons byte data ih =>
    obtain ⟨htracks, hresult, haccounts⟩ := tlvReceiverFeedByte_refines h byte
    obtain ⟨ih₁, ih₂, ih₃⟩ := ih htracks
    rw [tlvReceiverTrace_cons, scan_cons]
    refine ⟨ih₁, haccounts.trans ih₂, ?_⟩
    calc pendingVerdicts p ++ (_ :: (tlvReceiverTrace (tlvReceiverFeedByte recv byte).1 data).2)
        = (pendingVerdicts p ++ [verdict (step p byte).2]) ++
            (tlvReceiverTrace (tlvReceiverFeedByte recv byte).1 data).2 := by
          rw [hresult, List.append_assoc, List.singleton_append]
      _ = (step p byte).2.flatMap itemVerdicts ++ (pendingVerdicts (step p byte).1 ++
            (tlvReceiverTrace (tlvReceiverFeedByte recv byte).1 data).2) := by
          rw [step_verdicts, List.append_assoc]
      _ = _ := by
          rw [ih₃, List.flatMap_append, List.append_assoc]

/-- Only `TLV_OK` comes with a frame. -/
theorem feedByte_status_of_frame (recv : TlvReceiver) (byte : UInt8) :
    (tlvReceiverFeedByte recv byte).2.2 = none ∨ (tlvReceiverFeedByte recv byte).2.1 = .ok := by
  rw [tlvReceiverFeedByte]
  dsimp only
  repeat' split
  all_goals first | exact .inl rfl | exact .inr rfl

/-- Feeding a buffer delivers the messages of the trace, and counts them. -/
theorem tlvReceiverFeed_eq (recv : TlvReceiver) (data : List UInt8) :
    (tlvReceiverFeed recv data).1 = (tlvReceiverTrace recv data).1 ∧
      (tlvReceiverFeed recv data).2.2.map TlvFrame.message =
        (tlvReceiverTrace recv data).2.filterMap Prod.snd ∧
      (tlvReceiverFeed recv data).2.1 = (tlvReceiverFeed recv data).2.2.length := by
  induction data generalizing recv with
  | nil => exact ⟨rfl, rfl, rfl⟩
  | cons byte data ih =>
    rw [tlvReceiverTrace_cons, tlvReceiverFeed]
    have hstatus := feedByte_status_of_frame recv byte
    generalize tlvReceiverFeedByte recv byte = r at hstatus
    obtain ⟨recv', status, _ | frame⟩ := r
    · simpa using ih recv'
    · obtain rfl : status = .ok := hstatus.resolve_left (by simp)
      obtain ⟨h₁, h₂, h₃⟩ := ih recv'
      exact ⟨h₁, by simp [h₂], by simp [h₃]⟩

/-- **Chunk boundaries do not matter**: feeding the chunks in turn is tracing their
concatenation. -/
theorem tlvReceiverFeedChunks_eq (recv : TlvReceiver) (chunks : List (List UInt8)) :
    tlvReceiverFeedChunks recv chunks =
      ((tlvReceiverTrace recv chunks.flatten).1,
        (tlvReceiverTrace recv chunks.flatten).2.filterMap Prod.snd) := by
  have hchunk : (fun recv chunk ↦ ((tlvReceiverFeed recv chunk).1,
      (tlvReceiverFeed recv chunk).2.2.map TlvFrame.message)) =
      Mealy.run fun recv byte ↦
        ((traceStep recv byte).1, (traceStep recv byte).2.filterMap Prod.snd) := by
    funext recv chunk
    obtain ⟨h₁, h₂, -⟩ := tlvReceiverFeed_eq recv chunk
    rw [Mealy.run_filterMap, h₁, h₂]
    rfl
  rw [tlvReceiverFeedChunks, hchunk, Mealy.run_run, Mealy.run_filterMap]
  rfl

end SubmarineMonitor

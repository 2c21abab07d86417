import SubmarineMonitor.Central.GsLinkServer

/-!
# The ground station's side of a query

`CentralComputer::query`: parse the range, send the request, and poll the connection until the end of
the records. The poll is bounded by `kMaxPollIterations` reads, whether they bring anything or not,
so a reply is complete just when it arrives in that many (`query_eq_lines_iff`), however few records
it has and however fast it comes.

## The loop

`query` opens a connection, writes the request and reads until it has the end of the records, has
read often enough, or an exception comes from the transport. `poll` has the number of reads that are
left as its recursion, so it is total by its form, and a reply is a list of what the reads return:
some bytes, nothing within the time-out, or an exception. A list that ends stands for a link that
has no more to say, and then every read times out.

A read of 256 bytes may hold several frames or a part of one. The frames behind the end frame in the
same read are not looked at. That is a session whose client stops (`Protocol.Dispatch`), as in the
server; client and server are translated separately, and meet in `query_answered`.

## Counting reads

The source means the bound for a computer that does not answer, and counts every read.
`query_eq_lines_iff` is about a server that answers completely, and asks for the number of reads in
which its bytes come. Whether that number is small depends on the network and not on the two
programs: the reply may come in one read or byte by byte.

## What is left out

The text of the system's error, which is an argument of the link. The time that a connection takes,
and the hundred milliseconds of a read. A connection that was refused is a link of its own, without
reads.
-/

open Abortable FrameFormat Text

namespace SubmarineMonitor

/-! ### The request -/

/-- The format `"%d-%d-%d %d:%d:%d"`. -/
def parseHalfFormat : List Directive :=
  [.signed, .char 0x2D, .signed, .char 0x2D, .signed, .space, .signed, .char 0x3A, .signed,
    .char 0x3A, .signed]

/-- `parse_half`. -/
def parseHalf (s : List UInt8) : Option Stamp :=
  match sscanf parseHalfFormat (cString s) with
  | [y, mo, d, h, mi, se] =>
    some ⟨(y - 2000).toUInt8, mo.toUInt8, d.toUInt8, h.toUInt8, mi.toUInt8, se.toUInt8⟩
  | _ => none

/-- The range that is sent for a start and an end. -/
def queryRange (start stop : List UInt8) : Option GsQueryRange := do
  let first ← parseHalf start
  let last ← parseHalf stop
  return ⟨first, last⟩

/-! ### The reply -/

/-- Whoever polled often enough gives up. -/
def noReply : List UInt8 :=
  ascii "(no reply -- central computer unreachable or unresponsive)"

def connectionFailed (what : List UInt8) : List UInt8 :=
  ascii "(connection failed: " ++ what ++ ascii ")"

def connectionLost : List UInt8 :=
  ascii "(connection lost -- results may be incomplete)"

def noRecords : List UInt8 :=
  ascii "(no records in range)"

def malformedRange : List UInt8 :=
  ascii "(malformed date/time -- expected YYYY-MM-DD HH:MM:SS)"

def encodeFailed : List UInt8 :=
  ascii "(internal error: failed to encode query)"

/-- A frame of the reply: the lines so far, and whether it was the last. -/
def takeRecord (lines : List (List UInt8)) (m : Message) : List (List UInt8) × Bool :=
  if m.tag = tlvTagGsRecord then (lines ++ [m.value], false)
  else if m.tag = tlvTagGsEnd then (lines, true)
  else (lines, false)

/-- What a `read` of the transport does. -/
inductive LinkRead
  | bytes (chunk : List UInt8)
  /-- It returns 0, after about 100 ms. -/
  | timeout
  /-- It throws, with this text. -/
  | failed (what : List UInt8)
  deriving DecidableEq

def kMaxPollIterations : ℕ :=
  50

/-- The loop of `query` with this many iterations left. A link that has no more to say times out. -/
def poll : ℕ → Session (List (List UInt8)) → List LinkRead → List (List UInt8)
  | 0, s, _ => s.done ++ [noReply]
  | n + 1, s, [] => poll n s []
  | n + 1, s, .timeout :: reads => poll n s reads
  | n + 1, s, .bytes chunk :: reads =>
    let r := dispatch takeRecord s chunk
    if r.2 then if r.1.done = [] then [noRecords] else r.1.done
    else poll n r.1 reads
  | _ + 1, s, .failed what :: _ =>
    if s.done = [] then [connectionFailed what] else s.done ++ [connectionLost]

/-- What the connection does. -/
inductive Link
  /-- The constructor of the transport or its `write` throws, with this text. -/
  | failed (what : List UInt8)
  /-- The request is written, and the reads do this. -/
  | opened (reads : List LinkRead)
  deriving DecidableEq

/-- Behind `tlv_receiver_init`. -/
def pollStart : Session (List (List UInt8)) :=
  ⟨tlvReceiverInit default, []⟩

/-- `CentralComputer::query`. -/
def query (tag : UInt8) (start stop : List UInt8) (link : Link) : List (List UInt8) :=
  match queryRange start stop with
  | none => [malformedRange]
  | some range =>
    match tlvEncode tag (some range.bytes) 12 tlvMaxFrame, link with
    | .error _, _ => [encodeFailed]
    | .ok _, .failed what => [connectionFailed what]
    | .ok _, .opened reads => poll kMaxPollIterations pollStart reads

/-! ### Polling -/

/-- A range that can be parsed is asked for. -/
theorem query_opened {start stop : List UInt8} (h : (queryRange start stop).isSome) (tag : UInt8)
    (reads : List LinkRead) :
    query tag start stop (.opened reads) = poll kMaxPollIterations pollStart reads := by
  obtain ⟨range, hrange⟩ := Option.isSome_iff_exists.1 h
  have hencode : tlvEncode tag (some range.bytes) 12 tlvMaxFrame = .ok (gsQuery tag range).bytes :=
    sendFrame_outgoing (gsQuery tag range)
  rw [query, hrange]
  simp only [hencode]

/-- Reads that do not bring the reply to its end are used up. -/
theorem poll_append {s : Session (List (List UInt8))} {chunks : List (List UInt8)}
    (h : (dispatch takeRecord s chunks.flatten).2 = false) (n : ℕ) (reads : List LinkRead) :
    poll (chunks.length + n) s (chunks.map .bytes ++ reads) =
      poll n (dispatch takeRecord s chunks.flatten).1 reads := by
  induction chunks generalizing s with
  | nil =>
    rw [List.length_nil, Nat.zero_add]
    rfl
  | cons chunk chunks ih =>
    rw [List.flatten_cons] at h ⊢
    obtain ⟨hchunk, hrest⟩ := dispatch_append h
    rw [hrest] at h ⊢
    rw [List.length_cons, Nat.add_right_comm, List.map_cons, List.cons_append, poll,
      if_neg (by simp [hchunk])]
    exact ih h

/-- Records are taken one by one. -/
theorem run_takeRecord (lines : List (List UInt8)) (records : List GsRecord) :
    Abortable.run takeRecord lines ((records.map GsRecord.outgoing).map Outgoing.message) =
      (lines ++ records.map GsRecord.line, false) := by
  induction records generalizing lines with
  | nil => simp
  | cons r records ih =>
    have hr : takeRecord lines r.outgoing.message = (lines ++ [r.line], false) := rfl
    rw [List.map_cons, List.map_cons, run_cons_of_not_abort (by rw [hr]), hr, ih]
    simp

/-- The end frame ends the reply. -/
theorem run_takeRecord_gsReplyFrames (records : List GsRecord) :
    Abortable.run takeRecord [] ((gsReplyFrames records).map Outgoing.message) =
      (records.map GsRecord.line, true) := by
  have hrecords := run_takeRecord [] records
  have hlines := congrArg Prod.fst hrecords
  have hend : ∀ lines, takeRecord lines gsEnd.message = (lines, true) := fun _ ↦ rfl
  rw [gsReplyFrames, List.map_append, run_append_of_not_abort (by rw [hrecords]), hlines,
    List.map_singleton, run_cons_of_abort (by rw [hend]), hend, List.nil_append]

/-- Nothing in front of the end frame does. -/
theorem run_takeRecord_take (records : List GsRecord) :
    ∀ k < (gsReplyFrames records).length, (Abortable.run takeRecord pollStart.done
      (((gsReplyFrames records).take k).map Outgoing.message)).2 = false := by
  intro k hk
  have hle : k ≤ records.length := by
    simp only [gsReplyFrames, List.length_append, List.length_map, List.length_singleton] at hk
    omega
  rw [gsReplyFrames, List.take_append_of_le_length (by rwa [List.length_map]), ← List.map_take,
    run_takeRecord]

/-- **A reply that comes in time is returned line by line.** -/
theorem poll_reply {records : List GsRecord} {reply : List UInt8}
    (hreply : gsReply records = .ok reply) {chunks : List (List UInt8)} (hcut : CutInto reply chunks)
    {n : ℕ} (hn : chunks.length ≤ n) (reads : List LinkRead) :
    poll n pollStart (chunks.map .bytes ++ reads) =
      if records = [] then [noRecords] else records.map GsRecord.line := by
  obtain rfl : _ = reply := Except.ok.inj ((gsReply_eq records).symm.trans hreply)
  have hne : chunks ≠ [] := by
    rintro rfl
    have hnil := hcut.flatten.symm
    simp [gsReplyFrames, Outgoing.bytes, Segment.bytes] at hnil
  have hlast := List.dropLast_append_getLast hne
  set first := chunks.dropLast
  set last := chunks.getLast hne
  rw [← hlast] at hcut hn
  have hfirst := dispatch_unfinished (tracks_init default) (run_takeRecord_take records) hcut
    (List.cons_ne_nil _ _)
  obtain ⟨hdone, hend⟩ := dispatch_last (tracks_init default) hcut hfirst
  have hall := run_takeRecord_gsReplyFrames records
  obtain ⟨k, rfl⟩ : ∃ k, n = first.length + (k + 1) := by
    rw [List.length_append, List.length_singleton] at hn
    exact ⟨n - first.length - 1, by omega⟩
  have hlines : (dispatch takeRecord (dispatch takeRecord pollStart first.flatten).1 last).1.done =
      records.map GsRecord.line := hdone.trans (congrArg Prod.fst hall)
  have hended : (dispatch takeRecord (dispatch takeRecord pollStart first.flatten).1 last).2 =
      true := hend.trans (congrArg Prod.snd hall)
  rw [← hlast, List.map_append, List.append_assoc, poll_append hfirst, List.map_singleton,
    List.singleton_append, poll, if_pos hended, hlines]
  simp only [List.map_eq_nil_iff]

/-- **A reply that takes longer is given up.** -/
theorem poll_reply_late {records : List GsRecord} {reply : List UInt8}
    (hreply : gsReply records = .ok reply) {chunks : List (List UInt8)} (hcut : CutInto reply chunks)
    {n : ℕ} (hn : n < chunks.length) (reads : List LinkRead) :
    noReply ∈ poll n pollStart (chunks.map .bytes ++ reads) := by
  obtain rfl : _ = reply := Except.ok.inj ((gsReply_eq records).symm.trans hreply)
  have hsplit := List.take_append_drop n chunks
  have hlength : (chunks.take n).length = n := List.length_take_of_le hn.le
  have hrest : chunks.drop n ≠ [] := by
    rw [Ne, List.drop_eq_nil_iff]
    omega
  rw [← hsplit] at hcut
  have hfirst := dispatch_unfinished (tracks_init default) (run_takeRecord_take records) hcut hrest
  have hpoll := poll_append hfirst 0 ((chunks.drop n).map .bytes ++ reads)
  rw [hlength, Nat.add_zero, ← List.append_assoc, ← List.map_append, hsplit] at hpoll
  rw [hpoll, poll]
  exact List.mem_append_right _ (List.mem_singleton.2 rfl)

/-- No record is mistaken for it. -/
theorem noReply_not_mem (records : List GsRecord) : noReply ∉ records.map GsRecord.line := by
  intro hmem
  obtain ⟨r, -, hr⟩ := List.mem_map.1 hmem
  have hhead := r.head?_line
  rw [hr] at hhead
  exact absurd hhead (by decide)

/-! ### Queries -/

/-- **The records come back just when they come in at most fifty reads.** -/
theorem query_eq_lines_iff {start stop : List UInt8} (hrange : (queryRange start stop).isSome)
    (tag : UInt8) {records : List GsRecord} (hrecords : records ≠ []) {reply : List UInt8}
    (hreply : gsReply records = .ok reply) {chunks : List (List UInt8)} (hcut : CutInto reply chunks)
    (reads : List LinkRead) :
    query tag start stop (.opened (chunks.map .bytes ++ reads)) = records.map GsRecord.line ↔
      chunks.length ≤ kMaxPollIterations := by
  rw [query_opened hrange]
  constructor
  · intro hlines
    by_contra hlate
    have hmem := poll_reply_late hreply hcut (Nat.lt_of_not_le hlate) reads
    rw [hlines] at hmem
    exact noReply_not_mem records hmem
  · intro hchunks
    rw [poll_reply hreply hcut hchunks, if_neg hrecords]

/-- Every frame of a reply may come in a read of its own. -/
theorem cutInto_gsReplyFrames (records : List GsRecord) :
    CutInto ((gsReplyFrames records).flatMap Outgoing.bytes)
      ((gsReplyFrames records).map Outgoing.bytes) where
  flatten := List.flatMap_def.symm
  ne_nil chunk hchunk := by
    obtain ⟨o, -, rfl⟩ := List.mem_map.1 hchunk
    exact List.cons_ne_nil _ _
  length_le chunk hchunk := by
    obtain ⟨o, ho, rfl⟩ := List.mem_map.1 hchunk
    rw [Outgoing.length_bytes]
    rcases List.mem_append.1 ho with ho | ho
    · obtain ⟨r, -, rfl⟩ := List.mem_map.1 ho
      have hline : r.outgoing.value.length ≤ 127 := r.length_line_le
      omega
    · obtain rfl := List.mem_singleton.1 ho
      decide

/-- The start of a day. -/
def dayStart : List UInt8 :=
  ascii "2024-05-01 00:00:00"

def dayStop : List UInt8 :=
  ascii "2024-05-01 23:59:59"

/-- An object was detected on that day. -/
def dayRecord : GsRecord :=
  .event ⟨ascii "2024-05-01 10:20:30", ascii "object_detected", []⟩

theorem isSome_queryRange_day : (queryRange dayStart dayStop).isSome := by
  decide +kernel

/-- One record and the end, in two reads. -/
theorem query_eq_lines_iff_day :
    query tlvTagGsQueryEvents dayStart dayStop
        (.opened (((gsReplyFrames [dayRecord]).map Outgoing.bytes).map .bytes ++ [])) =
      [dayRecord].map GsRecord.line :=
  (query_eq_lines_iff isSome_queryRange_day tlvTagGsQueryEvents (List.cons_ne_nil _ _)
    (gsReply_eq [dayRecord]) (cutInto_gsReplyFrames [dayRecord]) []).2 (by decide)

/-- Fifty records and the end, each in a read of its own. -/
theorem not_forall_query_eq_lines :
    ¬∀ (tag : UInt8) (start stop : List UInt8) (records : List GsRecord) (reply : List UInt8)
      (chunks : List (List UInt8)), (queryRange start stop).isSome → records ≠ [] →
      gsReply records = .ok reply → CutInto reply chunks →
      query tag start stop (.opened (chunks.map .bytes)) = records.map GsRecord.line := by
  intro h
  set records := List.replicate 50 dayRecord with hrecords
  have hcut := cutInto_gsReplyFrames records
  have hlong : kMaxPollIterations < ((gsReplyFrames records).map Outgoing.bytes).length := by
    simp [gsReplyFrames, hrecords, kMaxPollIterations]
  have hlines := h tlvTagGsQueryEvents dayStart dayStop records _ _ isSome_queryRange_day
    (by simp [hrecords]) (gsReply_eq records) hcut
  have hmem := poll_reply_late (gsReply_eq records) hcut hlong []
  rw [List.append_nil, ← query_opened isSome_queryRange_day tlvTagGsQueryEvents, hlines] at hmem
  exact noReply_not_mem records hmem

end SubmarineMonitor

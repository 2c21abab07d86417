import SubmarineMonitor.Central.CommandFidelity
import SubmarineMonitor.Central.Datetime
import SubmarineMonitor.Central.Ingest
import SubmarineMonitor.Node.QueryRun
import SubmarineMonitor.Node.Receive

/-!
# Queries typed in at the menu

Menu option 14 of the central computer: two timestamps and a choice are read, one or two queries go
down the line, the node searches its card, and what it answers is printed to the live log as it
comes in.

* `query_shown`: the live log shows at any moment a beginning of the lines asked for, in the order
  in which they were asked for and stored, each query's end behind its lines; and all of it once
  everything has arrived. The database does not notice.

## A tour in six parts

The menu reads two lines and a number and sends; the gateway passes the bytes on; the node's receive
task routes, and its handler searches the card; the transmitting task sends; the gateway passes that
on, and the central computer's thread prints. `QueryTrip` has a field for how far each part behind
the menu has got, and the relation between two neighbouring fields is that the second is a beginning
of what the first asks for. `Underway` is the conjunction of these; it is a condition on a moment
and says what has not gone wrong so far. `Over` says that every part has come to its end.

The condition contains that each answer found room in its queue and that nobody else sends
meanwhile. These are real restrictions: a query with many lines fills the queue faster than the line
empties it, and a keep-alive may come at any time. The run of the machine in which they fail is
`Node.QueryRun`.

## Lines

The texts shown are those stored, since a record carries the text of its line and the log handler
prints the payload; the end of a query is shown as a line of its own. Lines longer than an item are
refused by `comm_send`, so `StoredLine` carries the bound.

## What is left out

The file behind the live log, whose lines are flushed one by one, and writes to it that fail. Time:
nothing is said of how long the lines take to arrive.
-/

open Machine Text

namespace SubmarineMonitor

/-! ### The live log -/

/-- `describe_frame`. -/
def describeFrame (f : TlvFrame) : List UInt8 :=
  if f.tag = tlvTagKeepAlive then
    match f.value with
    | some (_ :: _ :: _ :: _ :: _ :: _ :: t₀ :: t₁ :: hum :: light :: batt :: mode :: _) =>
      if f.len = 12 then
        snprintf 160 (ascii "Keep-alive: temp=" ++ signed (int16OfBytes t₀ t₁).toInt ++
          ascii "C hum=" ++ decimal hum.toNat ++ ascii "% light=" ++ decimal light.toNat ++
          ascii "% batt=" ++ decimal batt.toNat ++ ascii "% mode=" ++ modeName mode)
      else ascii "Keep-alive (malformed)"
    | _ => ascii "Keep-alive (malformed)"
  else if f.tag = tlvTagModeChange then
    match f.value with
    | some (oldMode :: newMode :: t₀ :: t₁ :: hum :: light :: batt :: _) =>
      if f.len = 7 then
        snprintf 160 (ascii "Mode change: " ++ modeName oldMode ++ ascii " -> " ++
          modeName newMode ++ ascii " (temp=" ++ signed (int16OfBytes t₀ t₁).toInt ++
          ascii "C hum=" ++ decimal hum.toNat ++ ascii "% light=" ++ decimal light.toNat ++
          ascii "% batt=" ++ decimal batt.toNat ++ ascii "%)")
      else ascii "Mode change (malformed)"
    | _ => ascii "Mode change (malformed)"
  else if f.tag = tlvTagObjectDetected then ascii "Object detected"
  else if f.tag = tlvTagObjectCleared then ascii "Object cleared"
  else if f.tag = tlvTagQueryRecord then
    match f.value with
    | some text => text.take f.len.toNat
    | none => ascii "(empty query record)"
  else if f.tag = tlvTagQueryEnd then ascii "Query finished"
  else
    snprintf 160
      (ascii "(tag=0x" ++ hex2 f.tag ++ ascii " len=" ++ decimal f.len.toNat ++ ascii ")")

/-- The lines that the log handler writes for the frames that are routed. -/
def liveLines (ms : List Message) : List (List UInt8) :=
  (ms.filter fun m ↦ m.tag ∈ logTags).map fun m ↦ describeFrame m.frame

/-! ### The menu -/

/-- What is typed in for option 14: two timestamps, and behind them the number of a choice. -/
structure QueryEntry where
  startStr : List UInt8
  endStr : List UInt8
  which : ℤ

namespace ManagementCommand

/-- `query_data`. The range is a `query_range_payload_t`. -/
def queryData (m : ManagementCommand) (range : List UInt8) : ManagementCommand × List TlvFrame :=
  (m.logWrite "sent QUERY_DATA to LNC", [linkFrame tlvTagQueryData range])

/-- `query_events`. -/
def queryEvents (m : ManagementCommand) (range : List UInt8) : ManagementCommand × List TlvFrame :=
  (m.logWrite "sent QUERY_EVENTS to LNC", [linkFrame tlvTagQueryEvents range])

/-- `do_query_lnc_sd`. -/
def doQueryLncSd (m : ManagementCommand) (e : QueryEntry) : ManagementCommand × List TlvFrame :=
  match parseDatetime e.startStr, parseDatetime e.endStr with
  | some start, some stop =>
    let range := start.bytes ++ stop.bytes
    let data := if e.which = 1 ∨ e.which = 3 then m.queryData range else (m, [])
    let events := if e.which = 2 ∨ e.which = 3 then data.1.queryEvents range else (data.1, [])
    (events.1, data.2 ++ events.2)
  -- `bad date/time`
  | _, _ => (m, [])

/-- Option 14 time after time. -/
def doQueries (m : ManagementCommand) : List QueryEntry → ManagementCommand × List TlvFrame
  | [] => (m, [])
  | e :: es =>
    let first := m.doQueryLncSd e
    let rest := first.1.doQueries es
    (rest.1, first.2 ++ rest.2)

end ManagementCommand

/-! ### What is asked for -/

/-- The range of an entry whose timestamps can be read. -/
def QueryEntry.range (e : QueryEntry) : Option QueryRange :=
  match hstart : parseDatetime e.startStr, hstop : parseDatetime e.endStr with
  | some start, some stop =>
    some ⟨start, stop, (parseDatetime_spec hstart).1.twoDigit,
      (parseDatetime_spec hstop).1.twoDigit⟩
  | _, _ => none

/-- A query: its tag and its range. -/
abbrev Ask := UInt8 × QueryRange

/-- The queries of an entry. -/
def QueryEntry.asks (e : QueryEntry) : List Ask :=
  e.range.toList.flatMap fun r ↦
    (if e.which = 1 ∨ e.which = 3 then [(tlvTagQueryData, r)] else []) ++
      if e.which = 2 ∨ e.which = 3 then [(tlvTagQueryEvents, r)] else []

/-- The message of a query. -/
def Ask.outgoing (ask : Ask) : Outgoing :=
  ⟨ask.1, ask.2.payload, Nat.le_of_ble_eq_true rfl⟩

/-- The lines that are to appear for a query: the text of each line in range, and the end. -/
def Ask.lines (logs : UInt8 → List StoredLine) (events : List StoredLine) (ask : Ask) :
    List (List UInt8) :=
  ((searchedLines ask.1 logs events).filter fun l ↦ l.InRange ask.2).map StoredLine.text ++
    [ascii "Query finished"]

/-- The range is that of the two timestamps. -/
theorem QueryEntry.range_of_parse {e : QueryEntry} {start stop : Stamp}
    (hstart : parseDatetime e.startStr = some start) (hstop : parseDatetime e.endStr = some stop) :
    ∃ r : QueryRange, e.range = some r ∧ r.start = start ∧ r.stop = stop := by
  rw [QueryEntry.range]
  split
  · rename_i start' stop' hstart' hstop'
    exact ⟨_, rfl, Option.some.inj (hstart'.symm.trans hstart),
      Option.some.inj (hstop'.symm.trans hstop)⟩
  · rename_i hnone
    exact absurd hstop (hnone start stop hstart)

theorem QueryEntry.range_eq_none {e : QueryEntry}
    (h : ∀ start stop, parseDatetime e.startStr = some start → parseDatetime e.endStr ≠ some stop) :
    e.range = none := by
  rw [QueryEntry.range]
  split
  · rename_i start stop hstart hstop
    exact absurd hstop (h start stop hstart)
  · rfl

/-- What an entry sends are the messages of its queries. -/
theorem doQueryLncSd_frames (m : ManagementCommand) (e : QueryEntry) :
    (m.doQueryLncSd e).2 = e.asks.map fun ask ↦ ask.outgoing.message.frame := by
  rw [ManagementCommand.doQueryLncSd]
  split
  · rename_i start stop hstart hstop
    obtain ⟨r, hr, rfl, rfl⟩ := QueryEntry.range_of_parse hstart hstop
    rw [QueryEntry.asks, hr]
    by_cases hdata : e.which = 1 ∨ e.which = 3 <;> by_cases hevents : e.which = 2 ∨ e.which = 3 <;>
      simp only [hdata, hevents, if_true, if_false] <;> rfl
  · rename_i hnone
    rw [QueryEntry.asks, QueryEntry.range_eq_none hnone]
    rfl

/-- What option 14 sends, time after time, are the messages of all queries. -/
theorem doQueries_frames (m : ManagementCommand) (es : List QueryEntry) :
    (m.doQueries es).2 =
      (es.flatMap QueryEntry.asks).map fun ask ↦ ask.outgoing.message.frame := by
  induction es generalizing m with
  | nil => rfl
  | cons e es ih =>
    rw [ManagementCommand.doQueries, ih, doQueryLncSd_frames, List.flatMap_cons, List.map_append]

/-- `Communication::send` writes the frame of a message. -/
theorem communicationSend_outgoing (o : Outgoing) :
    communicationSend o.message.frame = .ok o.bytes := by
  have hencode : tlvEncode o.tag (some o.value) o.len tlvMaxFrame = .ok o.bytes :=
    o.tlvEncode_eq (Nat.add_le_add_right o.value_le 6)
  rw [← hencode]
  show tlvEncode o.tag (if o.len > 0 then some o.value else none) o.len tlvMaxFrame = _
  split
  · rfl
  · rename_i hlen
    -- a null pointer is read as little as an empty value
    have hzero : o.len = 0 := UInt8.toNat_inj.1 (Nat.le_zero.1 (UInt8.not_lt.1 hlen))
    simp [tlvEncode, hzero]

/-- On the line they are the frames of these messages. -/
theorem communicationSends_map (sent : List Outgoing) :
    communicationSends (sent.map fun o ↦ o.message.frame) = .ok (sent.flatMap Outgoing.bytes) := by
  have hall : (sent.map fun o ↦ o.message.frame).mapM communicationSend =
      .ok (sent.map Outgoing.bytes) := by
    induction sent with
    | nil => rfl
    | cons o sent ih =>
      rw [List.map_cons, List.mapM_cons, communicationSend_outgoing, ih]
      rfl
  rw [communicationSends, hall]
  rfl

/-! ### What the node sends for it -/

theorem Ask.carriedBy (ask : Ask) : ask.2.CarriedBy ask.outgoing.message.frame :=
  ⟨rfl, rfl⟩

theorem QueryEntry.tag_of_mem_asks {e : QueryEntry} {ask : Ask} (h : ask ∈ e.asks) :
    ask.1 = tlvTagQueryData ∨ ask.1 = tlvTagQueryEvents := by
  obtain ⟨r, -, hmem⟩ := List.mem_flatMap.1 h
  rcases List.mem_append.1 hmem with hmem | hmem <;> split_ifs at hmem
  · exact .inl (congrArg Prod.fst (List.mem_singleton.1 hmem))
  · cases hmem
  · exact .inr (congrArg Prod.fst (List.mem_singleton.1 hmem))
  · cases hmem

theorem StoredLine.length_text_le (l : StoredLine) : l.text.length ≤ tlvMaxValue := by
  have hlen := l.length_text
  have hfits := l.fits
  rw [tlvMaxValue]
  omega

/-- The message of a record. -/
def StoredLine.outgoing (l : StoredLine) : Outgoing :=
  ⟨tlvTagQueryRecord, l.text, l.length_text_le⟩

/-- The message of the end of a query. -/
def queryEndOutgoing : Outgoing :=
  ⟨tlvTagQueryEnd, [], Nat.zero_le _⟩

/-- The messages that answer a query. -/
def Ask.answer (logs : UInt8 → List StoredLine) (events : List StoredLine) (ask : Ask) :
    List Outgoing :=
  ((searchedLines ask.1 logs events).filter fun l ↦ l.InRange ask.2).map StoredLine.outgoing ++
    [queryEndOutgoing]

theorem frame_queryEndArgs : queryEndArgs.frame = .ok queryEndOutgoing.bytes := by
  decide +kernel

theorem frame_recordArgs (l : StoredLine) : l.recordArgs.frame = .ok l.outgoing.bytes := by
  have hencode : tlvEncode l.outgoing.tag (some l.outgoing.value) l.outgoing.len tlvMaxFrame =
      .ok l.outgoing.bytes := l.outgoing.tlvEncode_eq (Nat.add_le_add_right l.outgoing.value_le 6)
  rw [SendArgs.frame, ← hencode]
  rfl

/-- The frames of an answer are those of its messages. -/
theorem Ask.map_frame (logs : UInt8 → List StoredLine) (events : List StoredLine) (ask : Ask) :
    (queryAnswer (searchedLines ask.1 logs events) ask.2).map SendArgs.frame =
      (ask.answer logs events).map fun o ↦ .ok o.bytes := by
  rw [queryAnswer, Ask.answer, List.map_append, List.map_append, List.map_map, List.map_map]
  refine congrArg₂ (· ++ ·) ?_ ?_
  · exact List.map_congr_left fun l _ ↦ by simp only [Function.comp_apply, frame_recordArgs]
  · rw [List.map_singleton, List.map_singleton, frame_queryEndArgs]

/-- The routed queries are handed on in their order. -/
theorem routesOf_asks {asks : List Ask}
    (h : ∀ ask ∈ asks, ask.1 = tlvTagQueryData ∨ ask.1 = tlvTagQueryEvents) :
    (routesOf (asks.map fun ask ↦ ask.outgoing.message)).map Prod.snd =
      asks.map fun ask ↦ ask.outgoing.message := by
  induction asks with
  | nil => rfl
  | cons ask asks ih =>
    rw [List.forall_mem_cons] at h
    have hroute :
        ∃ module, commRoute ask.outgoing.message = some (module, ask.outgoing.message) := by
      obtain ⟨tag, range⟩ := ask
      rcases h.1 with htag | htag
      · obtain rfl : tag = _ := htag
        exact ⟨.log, rfl⟩
      · obtain rfl : tag = _ := htag
        exact ⟨.event, rfl⟩
    obtain ⟨module, hmodule⟩ := hroute
    rw [List.map_cons, routesOf, List.filterMap_cons_some hmodule, List.map_cons, ← routesOf,
      ih h.2]

/-! ### What is shown -/

/-- What is shown for a record is what it carries. -/
theorem describeFrame_record {o : Outgoing} (htag : o.tag = tlvTagQueryRecord)
    (hpos : o.len > 0) : describeFrame o.message.frame = o.value := by
  have hne : ∀ tag, tlvTagQueryRecord ≠ tag → ¬o.message.frame.tag = tag := by
    rintro _ hne rfl
    exact hne htag.symm
  have hvalue : o.message.frame.value = some o.value := if_pos hpos
  rw [describeFrame, if_neg (hne _ (by decide)), if_neg (hne _ (by decide)),
    if_neg (hne _ (by decide)), if_neg (hne _ (by decide)),
    if_pos (show o.message.frame.tag = _ from htag),
    hvalue]
  exact List.take_of_length_le o.toNat_len.ge

/-- A record is shown as the line it is. -/
theorem describeFrame_outgoing (l : StoredLine) :
    describeFrame l.outgoing.message.frame = l.text := by
  refine describeFrame_record rfl ?_
  have htext := l.length_text
  rw [gt_iff_lt, UInt8.lt_iff_toNat_lt, l.outgoing.toNat_len]
  show 0 < l.text.length
  omega

theorem liveLines_append (a b : List Message) :
    liveLines (a ++ b) = liveLines a ++ liveLines b := by
  rw [liveLines, List.filter_append, List.map_append]
  rfl

/-- The live log shows the lines asked for. -/
theorem Ask.liveLines_answer (logs : UInt8 → List StoredLine) (events : List StoredLine)
    (ask : Ask) :
    liveLines ((ask.answer logs events).map Outgoing.message) = ask.lines logs events := by
  rw [Ask.answer, Ask.lines, List.map_append, liveLines_append, List.map_map]
  refine congrArg₂ (· ++ ·) ?_ ?_
  · have hall : ∀ lines : List StoredLine,
        liveLines (lines.map (Outgoing.message ∘ StoredLine.outgoing)) =
          lines.map StoredLine.text := by
      intro lines
      induction lines with
      | nil => rfl
      | cons l lines ih =>
        have hlog : l.outgoing.message.tag ∈ logTags := (by decide : tlvTagQueryRecord ∈ logTags)
        rw [List.map_cons, List.map_cons, ← ih, ← describeFrame_outgoing l, liveLines,
          List.filter_cons_of_pos (by exact decide_eq_true hlog)]
        rfl
    exact hall _
  · decide

theorem liveLines_answers (logs : UInt8 → List StoredLine) (events : List StoredLine)
    (asks : List Ask) :
    liveLines ((asks.flatMap (Ask.answer logs events)).map Outgoing.message) =
      asks.flatMap (Ask.lines logs events) := by
  induction asks with
  | nil => rfl
  | cons ask asks ih =>
    rw [List.flatMap_cons, List.map_append, liveLines_append, ih, Ask.liveLines_answer,
      List.flatMap_cons]

theorem tag_of_mem_answers {logs : UInt8 → List StoredLine} {events : List StoredLine}
    {asks : List Ask} {m : Message}
    (h : m ∈ (asks.flatMap (Ask.answer logs events)).map Outgoing.message) :
    m.tag = tlvTagQueryRecord ∨ m.tag = tlvTagQueryEnd := by
  obtain ⟨o, ho, rfl⟩ := List.mem_map.1 h
  obtain ⟨ask, -, ho⟩ := List.mem_flatMap.1 ho
  rcases List.mem_append.1 ho with ho | ho
  · obtain ⟨l, -, rfl⟩ := List.mem_map.1 ho
    exact .inl rfl
  · rw [List.mem_singleton.1 ho]
    exact .inr rfl

/-- An answer adds nothing to the database. -/
theorem onFrames_answers {ms : List Message}
    (h : ∀ m ∈ ms, m.tag = tlvTagQueryRecord ∨ m.tag = tlvTagQueryEnd) (db : DataCollection)
    (now : ℕ → List UInt8) : db.onFrames now ms = db := by
  induction ms generalizing now with
  | nil => rfl
  | cons m ms ih =>
    rw [List.forall_mem_cons] at h
    have hne : ∀ tag, tlvTagQueryRecord ≠ tag → tlvTagQueryEnd ≠ tag → ¬m.frame.tag = tag := by
      rintro _ hrecord hend rfl
      rcases h.1 with htag | htag
      · exact hrecord htag.symm
      · exact hend htag.symm
    have hframe : db.onFrame (now 0) m.frame = db := by
      rw [DataCollection.onFrame, if_neg (hne _ (by decide) (by decide)),
        if_neg (hne _ (by decide) (by decide)), if_neg (hne _ (by decide) (by decide)),
        if_neg (hne _ (by decide) (by decide))]
    rw [DataCollection.onFrames, hframe, ite_self, ih h.2]

/-! ### There and back -/

/-- How far some queries have got, and what answers them. -/
structure QueryTrip where
  /-- What the gateway has done with the bytes of the central computer. -/
  down : List Gateway.TcpTurn
  /-- The receive side of the node. -/
  rx : CommRx
  /-- Its answering task and its transmit side. -/
  answering : QuerySystem
  /-- What the gateway has done with the bytes of the node. -/
  up : List Gateway.SerialTurn
  /-- What `rx_loop` has read. -/
  turns : List RxTurn

namespace QueryTrip

/-- The `comm_send` calls for the queries that the node has routed. -/
def todo (t : QueryTrip) (card : SdCard) : List SendArgs :=
  t.rx.routed.flatMap fun r ↦ routeQuery card r.2.frame

/-- What the node has put on the line. -/
def wire (t : QueryTrip) : List UInt8 :=
  t.answering.comm.sent.flatMap Transmission.frame

/-- The frames that the central computer has routed. -/
def routed (t : QueryTrip) : List Message :=
  (rxLoop (fun _ ↦ false) rxStart t.turns).1.done.routed

/-- The bytes `sent` are on their way or answered. Nothing has got lost so far: what has come out of
each part is a beginning of what was put into it, and each answer has found room in its queue. -/
structure Underway (card : SdCard) (sent : List UInt8) (t : QueryTrip) : Prop where
  down : Gateway.received t.down <+: sent
  listens : ∃ recv, Reaches commRxStep (fun _ _ ↦ True) (commRxCreate recv) t.rx
  kept : t.rx.kept <+: Gateway.tcpToSerial t.down
  answers : Reaches queryStep QuerySystem.Roomy (queryStart (t.todo card)) t.answering
  up : Gateway.concat (Gateway.chunksRead t.up) <+: t.wire
  full : ∀ chunk ∈ Gateway.chunksRead t.up, chunk.sent = chunk.bytes.length
  reads : SubmarineMonitor.received t.turns <+: Gateway.serialToTcp t.up

/-- Everything has arrived, and the node has nothing left to do. -/
structure Over (sent : List UInt8) (t : QueryTrip) : Prop where
  kept : t.rx.kept = sent
  handled : commRxStep t.rx .task = none
  answered : ∀ a, QuerySystem.Roomy t.answering a → queryStep t.answering a = none
  reads : SubmarineMonitor.received t.turns = t.wire

variable {card : SdCard} {logs : UInt8 → List StoredLine} {events : List StoredLine}
  {asks : List Ask} {t : QueryTrip}

/-- The calls that all queries ask for. -/
def allCalls (logs : UInt8 → List StoredLine) (events : List StoredLine) (asks : List Ask) :
    List SendArgs :=
  asks.flatMap fun ask ↦ queryAnswer (searchedLines ask.1 logs events) ask.2

theorem allCalls_eq (hcard : CardHolds card logs events)
    (htags : ∀ ask ∈ asks, ask.1 = tlvTagQueryData ∨ ask.1 = tlvTagQueryEvents) :
    (asks.map fun ask ↦ ask.outgoing.message).flatMap (fun m ↦ routeQuery card m.frame) =
      allCalls logs events asks := by
  rw [List.flatMap_map]
  exact List.flatMap_congr fun ask hask ↦ routeQuery_eq hcard ask.carriedBy (htags ask hask)

theorem todo_eq (t : QueryTrip) (card : SdCard) :
    t.todo card = (t.rx.routed.map Prod.snd).flatMap fun m ↦ routeQuery card m.frame := by
  rw [List.flatMap_map]
  rfl

/-- **The node is to do** a beginning of what is asked for, and all of it once all has been handled.
-/
theorem Underway.todo_prefix (hcard : CardHolds card logs events)
    (htags : ∀ ask ∈ asks, ask.1 = tlvTagQueryData ∨ ask.1 = tlvTagQueryEvents)
    (h : t.Underway card ((asks.map Ask.outgoing).flatMap Outgoing.bytes)) :
    t.todo card <+: allCalls logs events asks ∧
      (t.Over ((asks.map Ask.outgoing).flatMap Outgoing.bytes) →
        t.todo card = allCalls logs events asks) := by
  obtain ⟨recv, hrx⟩ := h.listens
  obtain ⟨fed, hfed⟩ := CommRx.exists_fed hrx ⟨[], CommRx.fed_create recv⟩
  have hsent : framesIn ((asks.map Ask.outgoing).flatMap Outgoing.bytes) =
      asks.map fun ask ↦ ask.outgoing.message := by
    rw [framesIn_flatMap_bytes, List.map_map]
    rfl
  rw [todo_eq, ← allCalls_eq hcard htags, ← routesOf_asks htags, ← hsent]
  constructor
  · obtain ⟨rest, hrest⟩ := (h.kept.trans (Gateway.tcpToSerial_isPrefix t.down)).trans h.down
    have hframes := framesIn_prefix t.rx.kept rest
    rw [hrest] at hframes
    exact ((hfed.routed_prefix.trans (hframes.filterMap _)).map _).flatMap _
  · intro hover
    rw [(hfed.of_drained (CommRx.drained_iff.2 hover.handled)).2, hover.kept]

/-- **On the line** is a beginning of the answers, and all of them once the node rests. -/
theorem Underway.wire_prefix (hcard : CardHolds card logs events)
    (htags : ∀ ask ∈ asks, ask.1 = tlvTagQueryData ∨ ask.1 = tlvTagQueryEvents)
    (hshort : ∀ ask ∈ asks, ∀ l ∈ searchedLines ask.1 logs events, l.InRange ask.2 →
      l.text.length ≤ commMaxValue)
    (h : t.Underway card ((asks.map Ask.outgoing).flatMap Outgoing.bytes)) :
    t.wire <+: (asks.flatMap (Ask.answer logs events)).flatMap Outgoing.bytes ∧
      (t.Over ((asks.map Ask.outgoing).flatMap Outgoing.bytes) →
        t.wire = (asks.flatMap (Ask.answer logs events)).flatMap Outgoing.bytes) := by
  obtain ⟨htodo, hall⟩ := h.todo_prefix hcard htags
  have hready : ∀ args ∈ t.todo card, args.Ready := by
    intro args hargs
    obtain ⟨ask, hask, hmem⟩ := List.mem_flatMap.1 (htodo.subset hargs)
    exact ready_queryAnswer (hshort ask hask) args hmem
  have hanswering : QuerySystem.Answering (t.todo card) t.answering :=
    h.answers.invariant (answering_start _) fun h hroom hstep ↦ h.step hready hroom hstep
  have hcalls : (allCalls logs events asks).map SendArgs.frame =
      ((asks.flatMap (Ask.answer logs events)).map Outgoing.bytes).map .ok := by
    rw [allCalls, List.map_flatMap, List.map_map, List.map_flatMap]
    exact List.flatMap_congr fun ask _ ↦ ask.map_frame logs events
  have hwire : t.answering.frames = (t.answering.comm.sent.map Transmission.frame).map .ok :=
    (List.map_map).symm
  have hinj : Function.Injective (Except.ok : List UInt8 → Except TlvStatus (List UInt8)) :=
    fun _ _ ↦ Except.ok.inj
  rw [wire, List.flatMap_def, List.flatMap_def]
  constructor
  · have hframes := (hanswering.frames_prefix hready).trans (htodo.map _)
    rw [hcalls, hwire, List.prefix_map_iff_of_injective hinj] at hframes
    exact hframes.flatten
  · intro hover
    have hframes := hanswering.frames_complete hready hover.answered
    rw [hall hover, hcalls, hwire, (List.map_injective_iff.2 hinj).eq_iff] at hframes
    rw [hframes]

end QueryTrip

/-- **What is asked for is shown.** Any number of entries are typed in, and the frames for them are
sent without an error. As long as nothing has got lost, the live log shows a beginning of the lines
that are asked for, query by query, the end of each behind its lines. Once everything has arrived it
shows them all. The database stays as it is. -/
theorem query_shown {card : SdCard} {logs : UInt8 → List StoredLine} {events : List StoredLine}
    (hcard : CardHolds card logs events) (es : List QueryEntry)
    (hshort : ∀ ask ∈ es.flatMap QueryEntry.asks, ∀ l ∈ searchedLines ask.1 logs events,
      l.InRange ask.2 → l.text.length ≤ commMaxValue) (m : ManagementCommand) :
    ∃ sent, communicationSends (m.doQueries es).2 = .ok sent ∧
      ∀ t : QueryTrip, t.Underway card sent →
        liveLines t.routed <+: (es.flatMap QueryEntry.asks).flatMap (Ask.lines logs events) ∧
        (t.Over sent →
          liveLines t.routed = (es.flatMap QueryEntry.asks).flatMap (Ask.lines logs events)) ∧
        ∀ (db : DataCollection) (now : ℕ → List UInt8), db.onFrames now t.routed = db := by
  have htags : ∀ ask ∈ es.flatMap QueryEntry.asks,
      ask.1 = tlvTagQueryData ∨ ask.1 = tlvTagQueryEvents := by
    intro ask hask
    obtain ⟨e, -, hask⟩ := List.mem_flatMap.1 hask
    exact QueryEntry.tag_of_mem_asks hask
  generalize hasks : es.flatMap QueryEntry.asks = asks at *
  refine ⟨(asks.map Ask.outgoing).flatMap Outgoing.bytes, ?_, fun t ht ↦ ?_⟩
  · have hframes : (m.doQueries es).2 =
        (asks.map Ask.outgoing).map fun o ↦ o.message.frame := by
      rw [doQueries_frames, hasks, List.map_map]
      rfl
    rw [hframes, communicationSends_map]
  · obtain ⟨hwire, hall⟩ := ht.wire_prefix hcard htags hshort
    have hlines := liveLines_answers logs events asks
    have hrouted : t.routed = framesIn (received t.turns) := routed_eq_framesIn t.turns
    have hpre : t.routed <+: (asks.flatMap (Ask.answer logs events)).map Outgoing.message := by
      obtain ⟨rest, hrest⟩ := ((ht.reads.trans
        (serialToTcp_of_full ht.full ▸ ht.up)).trans hwire)
      rw [hrouted, ← framesIn_flatMap_bytes, ← hrest]
      exact framesIn_prefix _ _
    refine ⟨?_, fun hover ↦ ?_, fun db now ↦ ?_⟩
    · rw [← hlines]
      exact (hpre.filter _).map _
    · rw [hrouted, hover.reads, hall hover, framesIn_flatMap_bytes, hlines]
    · exact onFrames_answers (fun m hm ↦ tag_of_mem_answers (hpre.subset hm)) db now

/-- The events of that second are asked for, behind an entry that cannot be read. -/
def newYearEntries : List QueryEntry :=
  [⟨ascii "yesterday", ascii "2026-01-01 00:00:00", 3⟩,
    ⟨ascii "2026-01-01 00:00:00", ascii "2026-01-01 00:00:00", 2⟩]

/-- The request on the line. -/
def newYearBytes : List UInt8 :=
  (Ask.outgoing (tlvTagQueryEvents, newYearQuery)).bytes

/-- The one matching event and the end of the query are shown. -/
theorem query_shown_newYear :
    ∃ t : QueryTrip, t.Underway (markCard 1) newYearBytes ∧
      liveLines t.routed = [markLine.text, ascii "Query finished"] := by
  let request := Ask.outgoing (tlvTagQueryEvents, newYearQuery)
  -- the node takes the request
  have hrx : (exec (guarded commRxStep fun _ _ ↦ True) (commRxCreate default)
      (.task :: CommRx.takesEach newYearBytes ++ [.task])).map (fun c ↦
        (c.routed, c.kept, (commRxStep c .task).isNone)) =
      some ([(.event, request.message)], newYearBytes, true) := by decide +kernel
  obtain ⟨rx, hrx, hfound⟩ := Option.map_eq_some_iff.1 hrx
  obtain ⟨hrouted, hfound⟩ := Prod.mk.inj hfound
  obtain ⟨hkept, hhandled⟩ := Prod.mk.inj hfound
  -- and answers it
  have hq : (exec (guarded queryStep QuerySystem.Roomy)
      (queryStart (routeQuery (markCard 1) request.message.frame))
      (List.replicate 6 .sender ++ List.replicate 10 (.task queryEndArgs.item))).map (fun q ↦
        (decide q.Settled, q.comm.sent.flatMap Transmission.frame)) =
      some (true, markLine.outgoing.bytes ++ queryEndOutgoing.bytes) := by decide +kernel
  obtain ⟨q, hq, hfound⟩ := Option.map_eq_some_iff.1 hq
  obtain ⟨hsettled, hwire⟩ := Prod.mk.inj hfound
  let answer := markLine.outgoing.bytes ++ queryEndOutgoing.bytes
  let chunk : Gateway.SerialChunk :=
    ⟨answer, answer.length, by decide +kernel, by decide +kernel, le_rfl⟩
  let down : List Gateway.TcpTurn := [.chunk newYearBytes [.wrote 5, .interrupted, .wrote 13]]
  have hdown : Gateway.tcpToSerial down = newYearBytes := by decide +kernel
  let t : QueryTrip := ⟨down, rx, q, [.chunk chunk], [.bytes chunk.bytes]⟩
  have hread : Gateway.chunksRead t.up = [chunk] := congrArg (chunk :: ·) (ite_self _)
  have hup : Gateway.concat (Gateway.chunksRead t.up) = answer := by
    rw [hread]
    exact List.append_nil _
  have hfull : ∀ other ∈ Gateway.chunksRead t.up, other.sent = other.bytes.length := by
    rw [hread]
    exact fun other hother ↦ by rw [List.mem_singleton.1 hother]
  have htodo : t.todo (markCard 1) = routeQuery (markCard 1) request.message.frame := by
    show rx.routed.flatMap _ = _
    rw [hrouted, List.flatMap_singleton]
  have hwire' : t.wire = answer := hwire
  have hreads : received t.turns = answer := List.append_nil _
  have hall : ∀ {a b : List UInt8}, a = b → a <+: b := fun h ↦ h ▸ List.prefix_rfl
  have hunderway : t.Underway (markCard 1) newYearBytes := {
    down := hall (List.append_nil _)
    listens := ⟨default, reaches_of_exec hrx⟩
    kept := hall (hkept.trans hdown.symm)
    answers := htodo ▸ reaches_of_exec hq
    up := hall (hup.trans hwire'.symm)
    full := hfull
    reads := hall (by rw [hreads, serialToTcp_of_full hfull, hup]) }
  have hover : t.Over newYearBytes := {
    kept := hkept
    handled := Option.isNone_iff_eq_none.1 hhandled
    answered := fun a _ ↦ (of_decide_eq_true hsettled).quiescent a
    reads := hreads.trans hwire'.symm }
  have hshort : ∀ ask ∈ newYearEntries.flatMap QueryEntry.asks,
      ∀ l ∈ searchedLines ask.1 (fun _ ↦ []) (List.replicate 1 markLine),
        l.InRange ask.2 → l.text.length ≤ commMaxValue := by
    intro ask _ l hl _
    have hmark : l = markLine := by
      rw [searchedLines] at hl
      split at hl
      · simp at hl
      · simpa using hl
    rw [hmark]
    decide +kernel
  obtain ⟨sent, hsent, hshown⟩ :=
    query_shown (cardHolds_markCard 1) newYearEntries hshort managementCommandCreate
  have hbytes : communicationSends (managementCommandCreate.doQueries newYearEntries).2 =
      .ok newYearBytes := by decide +kernel
  obtain rfl : newYearBytes = sent := Except.ok.inj (hbytes.symm.trans hsent)
  refine ⟨t, hunderway, ((hshown t hunderway).2.1 hover).trans ?_⟩
  decide +kernel

end SubmarineMonitor

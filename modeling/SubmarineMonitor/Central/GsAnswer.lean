import SubmarineMonitor.Central.GsLinkServer
import SubmarineMonitor.Central.Storage

/-!
# A query is answered from the tables

The request reaches `handle_client` in pieces, with timeouts between them and other bytes in front; its
two timestamps become texts, SQLite compares texts, each row becomes a line, a frame and bytes, and the
other side has nothing but the bytes. `GsRequest.answered_from_tables` follows the query all the way.

Only the frames in the stream matter (`handleClient_of_dispatch`), so the way it is cut plays no part
in the argument.

## One connection

The client sends one request and reads until the end frame; the server accepts one client at a time
and serves it before the next. So there is no interleaving, and the whole exchange is a function of
what arrives. In front of the request there may be junk without a sync pair and whole frames with
other tags, and `GsRequest` carries these as fields together with the range.

## From rows to lines

Each of the four translations on the way is a function proved about elsewhere: timestamps to text in
`Central.Storage`, the query in terms of the stamps there, rows to lines in `Central.GsLinkServer`,
frames in `Protocol.RoundTrip`. What is left is to compose them, and to see that a line fits in a
frame: `snprintf` cuts it behind 127 bytes.

`GsStore.Answers` is what connects the abstract store of the link server with tables: its two
queries return what the statements return on them. The witness uses a store that filters and sorts.

## What is left out

A client that goes away: the `send` throws, and the connection is closed without an end frame.
Changes of the tables while a reply is sent make no difference, as a query returns all its rows at
once.
-/

open Abortable FrameFormat

namespace SubmarineMonitor

/-! ### The two ends -/

/-- A request, and what a client sends in front of it. -/
structure GsRequest where
  tag : UInt8
  isQuery : tag = tlvTagGsQueryData ∨ tag = tlvTagGsQueryEvents
  range : GsQueryRange
  start_isDateTime : range.start.IsDateTime
  stop_isDateTime : range.stop.IsDateTime
  junk : List UInt8
  junk_syncFree : tlvFormat.SyncFree junk
  /-- Frames that are no queries, each with the junk behind it. -/
  before : List (Outgoing × List UInt8)
  before_tag : ∀ b ∈ before, b.1.tag ≠ tlvTagGsQueryData ∧ b.1.tag ≠ tlvTagGsQueryEvents
  before_syncFree : ∀ b ∈ before, tlvFormat.SyncFree b.2

/-- What arrives. -/
def GsRequest.bytes (q : GsRequest) : List UInt8 :=
  assemble q.junk (q.before.map (fun b ↦ (b.1.segment, b.2)) ++
    [((gsQuery q.tag q.range).segment, [])])

def GsRecord.timestamp : GsRecord → List UInt8
  | .measurement m => m.timestamp
  | .event ev => ev.timestamp

/-- The table that a query is about. -/
def DataCollection.gsRecords (db : DataCollection) (tag : UInt8) : List GsRecord :=
  if tag = tlvTagGsQueryData then db.measurements.map .measurement else db.events.map .event

/-- The queries are answered from these tables. -/
structure GsStore.Answers (store : GsStore) (db : DataCollection) : Prop where
  measurements : ∀ start stop, db.QueryMeasurements start stop (store.queryMeasurements start stop)
  events : ∀ start stop, db.QueryEvents start stop (store.queryEvents start stop)

/-! ### What the server makes of the stream -/

/-- The frames in what arrives are delivered, and nothing else. -/
theorem GsRequest.delivered_bytes (q : GsRequest) :
    delivered gsStart.recv q.bytes =
      q.before.map (fun b ↦ b.1.message) ++ [(gsQuery q.tag q.range).message] := by
  have hblocks : ∀ x ∈ q.before.map (fun b ↦ (b.1.segment, b.2)) ++
      [((gsQuery q.tag q.range).segment, [])], tlvFormat.SyncFree x.2 := by
    intro x hx
    rcases List.mem_append.1 hx with hx | hx
    · obtain ⟨b, hb, rfl⟩ := List.mem_map.1 hx
      exact q.before_syncFree b hb
    · have hnil : tlvFormat.SyncFree [] := by decide
      rw [List.mem_singleton.1 hx]
      exact hnil
  have hjunk : tlvFormat.SyncFree ((.hunt : Pending tlvFormat).bytes ++ q.junk) := q.junk_syncFree
  obtain ⟨-, hsegments, -⟩ := scan_blocks (.inl rfl) hjunk hblocks
  have hsent : (q.before.map (fun b ↦ (b.1.segment, b.2)) ++
      [((gsQuery q.tag q.range).segment, ([] : List UInt8))]).map Prod.fst =
        (q.before.map Prod.fst ++ [gsQuery q.tag q.range]).map Outgoing.segment := by
    simp
  refine (delivered_eq (tracks_init default) q.bytes).trans ?_
  rw [bytes, hsegments, hsent, messages_map_segment, List.map_append, List.map_map]
  rfl

/-! ### What the tables have to do with it -/

/-- The records are the rows of the table in the range. -/
theorem GsStore.Answers.selects {store : GsStore} {db : DataCollection} (h : store.Answers db)
    (tag : UInt8) (range : GsQueryRange) :
    Selects GsRecord.timestamp (timeUtilsFormat range.start) (timeUtilsFormat range.stop)
      (db.gsRecords tag) (store.records tag range) := by
  rw [GsStore.records, DataCollection.gsRecords]
  split_ifs
  · exact Selects.map GsRecord.measurement (h.measurements _ _)
  · exact Selects.map GsRecord.event (h.events _ _)

/-- **A query is answered with its rows.** However the request arrives, `handle_client` then returns,
and the other side receives one record for each row of the table in the range, in the order of their
timestamps and with their lines, and one end. -/
theorem GsRequest.answered_from_tables (q : GsRequest) {store : GsStore} {db : DataCollection}
    (hstore : store.Answers db) {turns : List GsTurn} (harrives : Arrives turns q.bytes) :
    ∃ (rows : List GsRecord) (sent : List UInt8),
      Selects GsRecord.timestamp (timeUtilsFormat q.range.start) (timeUtilsFormat q.range.stop)
          (db.gsRecords q.tag) rows ∧
        (∀ r ∈ rows, r.line.length ≤ 127) ∧
        (∀ more, handleClient store gsStart (turns ++ more) = some (.ok sent)) ∧
        ∀ recv, delivered (tlvReceiverInit recv) sent =
          rows.map (fun r ↦ ⟨tlvTagGsRecord, r.line.length.toUInt8, r.line⟩) ++
            [⟨tlvTagGsEnd, 0, []⟩] := by
  have hbefore : ∀ m ∈ q.before.map (fun b ↦ b.1.message),
      m.tag ≠ tlvTagGsQueryData ∧ m.tag ≠ tlvTagGsQueryEvents := by
    intro m hm
    obtain ⟨b, hb, rfl⟩ := List.mem_map.1 hm
    exact q.before_tag b hb
  have hreturns := handleClient_of_delivered store q.isQuery q.range hbefore q.delivered_bytes harrives
  rw [gsReply_eq] at hreturns
  refine ⟨store.records q.tag q.range, _, hstore.selects q.tag q.range,
    fun r _ ↦ r.length_line_le, hreturns, fun recv ↦ ?_⟩
  rw [delivered_idle (tracks_init recv) (.inl rfl), gsReplyFrames, List.map_append, List.map_map]
  rfl

/-! ### The rows of a midnight -/

/-- Queries that sort what they find. -/
def DataCollection.sortingStore (db : DataCollection) : GsStore where
  queryMeasurements start stop :=
    (db.measurements.filter fun r ↦ start ≤ r.timestamp ∧ r.timestamp ≤ stop).mergeSort
      fun r r' ↦ r.timestamp ≤ r'.timestamp
  queryEvents start stop :=
    (db.events.filter fun r ↦ start ≤ r.timestamp ∧ r.timestamp ≤ stop).mergeSort
      fun r r' ↦ r.timestamp ≤ r'.timestamp

theorem answers_sortingStore (db : DataCollection) : db.sortingStore.Answers db where
  measurements _ _ := .mergeSort ..
  events _ _ := .mergeSort ..

/-- A query for the measurements of a midnight, behind a frame of another kind and two stray bytes. -/
def midnightRequest : GsRequest where
  tag := tlvTagGsQueryData
  isQuery := .inl rfl
  range := ⟨saturdayLast, sundayFirst⟩
  start_isDateTime := isDateTime_saturdayLast
  stop_isDateTime := isDateTime_sundayFirst
  junk := [tlvSof0]
  junk_syncFree := by decide
  before := [(⟨tlvTagGetTime, [], Nat.zero_le _⟩, [tlvSof0])]
  before_tag := by decide
  before_syncFree := by decide

/-- The query arrives in two pieces, each after a timeout. -/
theorem answered_midnight :
    ∃ (rows : List GsRecord) (sent : List UInt8),
      Selects GsRecord.timestamp (timeUtilsFormat saturdayLast) (timeUtilsFormat sundayFirst)
          (midnightStore.gsRecords tlvTagGsQueryData) rows ∧
        handleClient midnightStore.sortingStore gsStart [.again, .bytes (midnightRequest.bytes.take 9),
          .again, .bytes (midnightRequest.bytes.drop 9)] = some (.ok sent) ∧
        delivered (tlvReceiverInit default) sent =
          rows.map (fun r ↦ ⟨tlvTagGsRecord, r.line.length.toUInt8, r.line⟩) ++
            [⟨tlvTagGsEnd, 0, []⟩] := by
  have harrives : Arrives [.again, .bytes (midnightRequest.bytes.take 9), .again,
      .bytes (midnightRequest.bytes.drop 9)] midnightRequest.bytes := by
    constructor
    · simp
    · simp [GsTurn.received]
  obtain ⟨rows, sent, hselects, -, hreturns, hdelivered⟩ :=
    midnightRequest.answered_from_tables (answers_sortingStore midnightStore) harrives
  exact ⟨rows, sent, hselects, hreturns [], hdelivered default⟩

end SubmarineMonitor

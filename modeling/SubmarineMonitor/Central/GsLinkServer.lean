import SubmarineMonitor.Central.DataCollection
import SubmarineMonitor.Protocol.Dispatch
import SubmarineMonitor.Protocol.Tags

/-!
# The link to the ground station

`GsLinkServer::handle_client`: one connection carries one query and its reply, a `TLV_TAG_GS_RECORD`
frame for each row and a `TLV_TAG_GS_END` frame behind them. The database is what its two queries
return; every `send` succeeds.

## The store as two functions

The server uses the database through two queries, and what these return is all it sees of it. So it
is translated over `GsStore`, a pair of arbitrary functions from two texts to rows, and the
statements here hold for any. What they return on tables is put in by `Central.GsAnswer`.

## The loop

`handle_client` feeds byte by byte. It ends when the flag is set, when the client is gone or `recv`
fails, on a query with the wrong length, and behind an answer. The first frame with a query's tag
decides; frames with other tags and damaged ones are passed over. That is a session whose client
stops (`Protocol.Dispatch`), with the turns of the loop around it. What has been sent is kept as an
`Except`, since `send_frame` throws when the frame cannot be encoded; `gsReply_eq` shows that this
never happens.

The lines are those of `snprintf` into 128 bytes, cut behind 127 of them, so that their length is a
byte.

## What is left out

Sends that fail or block. A send without a time-out can hold the thread for as long as the client
does not read. The accept loop, its time-out and the log lines on the console. The second copy of
`mode_name` is translated as a second definition, as in the source.
-/

open Abortable FrameFormat Text

namespace SubmarineMonitor

/-! ### Queries -/

/-- `GsQueryRange`. -/
structure GsQueryRange where
  start : Stamp
  stop : Stamp
  deriving DecidableEq

/-- The payload of a query. -/
def GsQueryRange.bytes (range : GsQueryRange) : List UInt8 :=
  [range.start.year, range.start.month, range.start.date, range.start.hour, range.start.min,
    range.start.sec, range.stop.year, range.stop.month, range.stop.date, range.stop.hour,
    range.stop.min, range.stop.sec]

/-- The range that a query asks for. -/
def gsQueryRange (m : Message) : Option GsQueryRange :=
  if m.len = 12 then
    match m.value with
    | [y₀, mo₀, d₀, h₀, mi₀, s₀, y₁, mo₁, d₁, h₁, mi₁, s₁] =>
      some ⟨⟨y₀, mo₀, d₀, h₀, mi₀, s₀⟩, ⟨y₁, mo₁, d₁, h₁, mi₁, s₁⟩⟩
    | _ => none
  else none

/-- A query, to be sent. -/
def gsQuery (tag : UInt8) (range : GsQueryRange) : Outgoing :=
  ⟨tag, range.bytes, (by decide : 12 ≤ 255)⟩

theorem gsQueryRange_message (tag : UInt8) (range : GsQueryRange) :
    gsQueryRange (gsQuery tag range).message = some range :=
  rfl

/-! ### Replies -/

/-- `mode_name`. -/
def gsModeName (mode : ℤ) : List UInt8 :=
  if mode = 0 then ascii "Normal"
  else if mode = 1 then ascii "Warning"
  else if mode = 2 then ascii "Error"
  else ascii "Unknown"

/-- A row of a query's result. -/
inductive GsRecord
  | measurement (m : MeasurementRow)
  | event (ev : EventRow)
  deriving DecidableEq

/-- The line sent for a row. -/
def GsRecord.line : GsRecord → List UInt8
  | .measurement m =>
    snprintf 128 (ascii "[" ++ cString m.timestamp ++ ascii "] temp=" ++ signed m.tempC ++
      ascii "C hum=" ++ signed m.humidityPct ++ ascii "% light=" ++ signed m.lightPct ++
      ascii "% batt=" ++ signed m.batteryPct ++ ascii "% mode=" ++ gsModeName m.mode)
  | .event ev =>
    snprintf 128 (ascii "[" ++ cString ev.timestamp ++ ascii "] " ++ cString ev.type ++ ascii ": " ++
      cString ev.description)

/-- `send_frame`. -/
def sendFrame (tag : UInt8) (value : Option (List UInt8)) (valueLen : UInt8) :
    Except TlvStatus (List UInt8) :=
  tlvEncode tag value valueLen tlvMaxFrame

/-- What is sent for these rows. -/
def gsReply : List GsRecord → Except TlvStatus (List UInt8)
  | [] => sendFrame tlvTagGsEnd none 0
  | r :: records => do
    let frame ← sendFrame tlvTagGsRecord (some r.line) r.line.length.toUInt8
    let rest ← gsReply records
    return frame ++ rest

/-- What `query_measurements` and `query_events` return for a start and an end. -/
structure GsStore where
  queryMeasurements : List UInt8 → List UInt8 → List MeasurementRow
  queryEvents : List UInt8 → List UInt8 → List EventRow

/-- The rows that answer a query. -/
def GsStore.records (store : GsStore) (tag : UInt8) (range : GsQueryRange) : List GsRecord :=
  let start := timeUtilsFormat range.start
  let stop := timeUtilsFormat range.stop
  if tag = tlvTagGsQueryData then (store.queryMeasurements start stop).map .measurement
  else (store.queryEvents start stop).map .event

/-- A frame that `handle_client` has received: what it sends, and whether it then returns. -/
def answerFrame (store : GsStore) (sent : Except TlvStatus (List UInt8)) (m : Message) :
    Except TlvStatus (List UInt8) × Bool :=
  if m.tag ≠ tlvTagGsQueryData ∧ m.tag ≠ tlvTagGsQueryEvents then (sent, false)
  else
    match gsQueryRange m with
    | none => (sent, true)
    | some range => (gsReply (store.records m.tag range), true)

/-- What one pass of the loop in `handle_client` finds. -/
inductive GsTurn
  /-- `stop_` is set. -/
  | stop
  /-- `recv` returns these bytes. -/
  | bytes (chunk : List UInt8)
  /-- `recv` returns 0. -/
  | closed
  /-- `recv` fails with `EAGAIN`, `EWOULDBLOCK` or `EINTR`. -/
  | again
  /-- `recv` fails otherwise. -/
  | failed
  deriving DecidableEq

/-- A connection just accepted. -/
def gsStart : Session (Except TlvStatus (List UInt8)) :=
  ⟨tlvReceiverInit default, .ok []⟩

/-- `handle_client`: what it has sent when the connection is closed, once it is. -/
def handleClient (store : GsStore) (s : Session (Except TlvStatus (List UInt8))) :
    List GsTurn → Option (Except TlvStatus (List UInt8))
  | [] => none
  | .bytes chunk :: turns =>
    let r := dispatch (answerFrame store) s chunk
    if r.2 then some r.1.done else handleClient store r.1 turns
  | .again :: turns => handleClient store s turns
  | .stop :: _ | .closed :: _ | .failed :: _ => some s.done

/-! ### What is sent -/

namespace GsRecord

theorem length_line_le (r : GsRecord) : r.line.length ≤ 127 := by
  cases r <;> exact List.length_take_le _ _

/-- A line begins with the timestamp's bracket. -/
theorem head?_line (r : GsRecord) : r.line.head? = some 0x5B := by
  cases r <;> rfl

/-- The record, to be sent. -/
def outgoing (r : GsRecord) : Outgoing :=
  ⟨tlvTagGsRecord, r.line, r.length_line_le.trans (by decide)⟩

end GsRecord

/-- The end of the records, to be sent. -/
def gsEnd : Outgoing :=
  ⟨tlvTagGsEnd, [], Nat.zero_le _⟩

/-- The frames of a reply. -/
def gsReplyFrames (records : List GsRecord) : List Outgoing :=
  records.map GsRecord.outgoing ++ [gsEnd]

theorem sendFrame_outgoing (o : Outgoing) : sendFrame o.tag (some o.value) o.len = .ok o.bytes :=
  o.tlvEncode_eq (Nat.add_le_add_right o.value_le 6)

/-- **The reply is its frames**: encoding never fails. -/
theorem gsReply_eq (records : List GsRecord) :
    gsReply records = .ok ((gsReplyFrames records).flatMap Outgoing.bytes) := by
  induction records with
  | nil =>
    have hend : sendFrame tlvTagGsEnd none 0 = .ok gsEnd.bytes := sendFrame_outgoing gsEnd
    rw [gsReply, hend]
    simp [gsReplyFrames]
  | cons r records ih =>
    have hr : sendFrame tlvTagGsRecord (some r.line) r.line.length.toUInt8 = .ok r.outgoing.bytes :=
      sendFrame_outgoing r.outgoing
    rw [gsReply, hr, ih]
    rfl

/-! ### Connections -/

/-- The bytes that a pass of the loop receives. -/
def GsTurn.received : GsTurn → List UInt8
  | .bytes chunk => chunk
  | _ => []

/-- Nothing but these bytes is received, in any pieces and with any timeouts. -/
structure Arrives (turns : List GsTurn) (data : List UInt8) : Prop where
  goesOn : ∀ t ∈ turns, t = .again ∨ ∃ chunk, t = .bytes chunk
  received : turns.flatMap GsTurn.received = data

/-- **How the stream is cut does not matter**: a stream that ends the feeding in one piece ends it in
any pieces, and the connection with it. -/
theorem handleClient_of_dispatch {store : GsStore} {s : Session (Except TlvStatus (List UInt8))}
    {turns : List GsTurn} {data : List UInt8} (harrives : Arrives turns data)
    (h : (dispatch (answerFrame store) s data).2 = true) (more : List GsTurn) :
    handleClient store s (turns ++ more) = some (dispatch (answerFrame store) s data).1.done := by
  obtain ⟨hgoesOn, rfl⟩ := harrives
  induction turns generalizing s with
  | nil => cases h
  | cons t turns ih =>
    have ih' := fun {s} ↦ @ih s fun t' ht' ↦ hgoesOn t' (List.mem_cons_of_mem t ht')
    rw [List.flatMap_cons] at h ⊢
    rcases hgoesOn t List.mem_cons_self with rfl | ⟨chunk, rfl⟩
    · exact ih' h
    · show (if (dispatch (answerFrame store) s chunk).2 = true then _ else _) = _
      rcases hend : (dispatch (answerFrame store) s chunk).2 with _ | _
      · have hrest := dispatch_append_of_not_end hend (turns.flatMap GsTurn.received)
        rw [if_neg (by simp)]
        exact hrest ▸ ih' (hrest ▸ h)
      · have hall := dispatch_append_of_end hend (turns.flatMap GsTurn.received)
        rw [if_pos rfl]
        exact congrArg (fun r ↦ some r.1.done) hall.symm

/-- Frames that are no queries are passed over. -/
theorem run_answerFrame_before (store : GsStore) (sent : Except TlvStatus (List UInt8))
    {before : List Message}
    (h : ∀ m ∈ before, m.tag ≠ tlvTagGsQueryData ∧ m.tag ≠ tlvTagGsQueryEvents)
    (rest : List Message) :
    run (answerFrame store) sent (before ++ rest) = run (answerFrame store) sent rest := by
  induction before with
  | nil => rfl
  | cons m before ih =>
    have hm : answerFrame store sent m = (sent, false) := if_pos (h m List.mem_cons_self)
    rw [List.cons_append, run_cons_of_not_abort (by rw [hm]), hm]
    exact ih fun m' hm' ↦ h m' (List.mem_cons_of_mem m hm')

/-- A query ends the session with its answer. -/
theorem answerFrame_query (store : GsStore) (sent : Except TlvStatus (List UInt8)) {tag : UInt8}
    (htag : tag = tlvTagGsQueryData ∨ tag = tlvTagGsQueryEvents) (range : GsQueryRange) :
    answerFrame store sent (gsQuery tag range).message =
      (gsReply (store.records tag range), true) := by
  rw [answerFrame, if_neg (fun h ↦ htag.elim h.1 h.2), gsQueryRange_message]
  rfl

/-- The first query in what arrives is answered. -/
theorem handleClient_of_delivered (store : GsStore) {tag : UInt8}
    (htag : tag = tlvTagGsQueryData ∨ tag = tlvTagGsQueryEvents) (range : GsQueryRange)
    {before : List Message} {data : List UInt8} {turns : List GsTurn}
    (hbefore : ∀ m ∈ before, m.tag ≠ tlvTagGsQueryData ∧ m.tag ≠ tlvTagGsQueryEvents)
    (hdelivered : delivered gsStart.recv data = before ++ [(gsQuery tag range).message])
    (harrives : Arrives turns data) (more : List GsTurn) :
    handleClient store gsStart (turns ++ more) = some (gsReply (store.records tag range)) := by
  have hquery := answerFrame_query store gsStart.done htag range
  obtain ⟨hdone, hend, -⟩ := @dispatch_eq _ (answerFrame store) gsStart data
  rw [hdelivered, run_answerFrame_before store _ hbefore, run_cons_of_abort (by rw [hquery]), hquery]
    at hdone hend
  rw [handleClient_of_dispatch harrives hend more, hdone]

end SubmarineMonitor

import SubmarineMonitor.Protocol.Reader
import SubmarineMonitor.Protocol.Writer

/-!
# Payloads there and back

What the writer puts into a buffer that is large enough, the reader gets out of it, field by field.
Both ends are known already: the writer holds the encoding of its fields, the reader decodes the
bytes it was given. What is left is that decoding an encoding gives the fields back, whatever stands
before and behind them.

## Two specifications meet

Neither machine is opened again. `putFields_spec` says that the writer's buffer begins with the
encoding of the fields, and `getFields_spec` that the reader returns the decoding of the payload
with zeros behind it. Between them is one induction over the fields, `decodeFields_encodeFields`, in
which the bytes in front are those that earlier calls have consumed. It has to be stated with them,
because a reader is never at the beginning for its second field.

## Done

`tlv_reader_done` tells whether a payload was read to its end without running over it: the flag is
still set and the cursor is at the end. It is true after the last field that has any bytes. An array
of length zero moves no cursor, so the statement says *no field with any bytes is left* and not *no
field is left*. That the reader is not done earlier is part of it; a reader that said so too soon
would accept a payload that is too long.

## What is left out

Fields that do not fit. The writer then holds a part of the encoding and its flag is cleared
(`putFields_spec`). A reader with other types than the writer's has a definite result as well, by
`getFields_spec`, about which there is nothing to say in general.
-/

open Region

namespace SubmarineMonitor

/-! ### Decoding an encoding -/

/-- The window on a piece of a payload is that piece. -/
theorem window_zeroExtended (front bs rest : List UInt8) :
    window (zeroExtended (front ++ (bs ++ rest))) front.length bs.length = bs := by
  apply List.ext_getElem (length_window _ _ _)
  intro i _ hi
  have hlow : front.length ≤ front.length + i := Nat.le_add_right _ _
  simp only [window, List.getElem_map, List.getElem_range]
  rw [zeroExtended, List.getD_eq_getElem?_getD, List.getElem?_append_right hlow,
    Nat.add_sub_cancel_left, List.getElem?_append_left hi, List.getElem?_eq_getElem hi,
    Option.getD_some]

/-- **An encoding decodes to its fields**, whatever stands before and behind it. -/
theorem decodeFields_encodeFields (front : List UInt8) (fields : List Field) (rest : List UInt8) :
    decodeFields (zeroExtended (front ++ (encodeFields fields ++ rest))) front.length
      (fields.map fun field ↦ field.val.type) = fields.map Subtype.val := by
  induction fields generalizing front with
  | nil => rfl
  | cons field fields ih =>
    have hbytes : encodeFields (field :: fields) = field.val.encode ++ encodeFields fields :=
      List.flatMap_cons
    have hfield :
        window (zeroExtended (front ++ (field.val.encode ++ (encodeFields fields ++ rest))))
          front.length field.val.type.size = field.val.encode := by
      rw [← Value.length_encode, window_zeroExtended]
    have hrest := ih (front ++ field.val.encode)
    rw [List.length_append, Value.length_encode, List.append_assoc] at hrest
    rw [hbytes, List.append_assoc, List.map_cons, List.map_cons, decodeFields, hfield,
      Value.decode_encode, hrest]

theorem length_encodeFields (fields : List Field) :
    (encodeFields fields).length = (fields.map fun field ↦ field.val.type.size).sum := by
  rw [encodeFields, List.length_flatMap]
  simp only [Value.length_encode]

/-! ### The reader behind the writer -/

/-- The calls that read these fields: of the same types, in the same order. -/
def ReadsBack (calls : List GetCall) (fields : List Field) : Prop :=
  calls.map GetCall.type = fields.map fun field ↦ field.val.type

theorem ReadsBack.requested_eq {calls : List GetCall} {fields : List Field}
    (h : ReadsBack calls fields) : requested calls = (encodeFields fields).length := by
  have hsizes := congrArg (List.map FieldType.size) h
  rw [List.map_map, List.map_map] at hsizes
  rw [length_encodeFields]
  exact congrArg List.sum hsizes

/-- Calls made up to some point read the fields up to that point, and leave the others. -/
theorem ReadsBack.split {before after : List GetCall} {fields : List Field}
    (h : ReadsBack (before ++ after) fields) :
    ReadsBack before (fields.take before.length) ∧ ReadsBack after (fields.drop before.length) := by
  rw [ReadsBack, List.map_append] at h
  constructor
  · rw [ReadsBack, List.map_take, ← h, ← List.length_map GetCall.type, List.take_left]
  · rw [ReadsBack, List.map_drop, ← h, ← List.length_map GetCall.type, List.drop_left]

/-- What was requested leaves nothing exactly when every call left asks for nothing. -/
theorem requested_eq_zero_iff (calls : List GetCall) :
    requested calls = 0 ↔ ∀ call ∈ calls, call.type.size = 0 := by
  rw [requested, List.sum_eq_zero_iff_forall_eq_nat]
  exact List.forall_mem_map

/-- The reader over what was written, after some of its calls. -/
theorem getFields_encodeFields {fields : List Field}
    (hlen : (encodeFields fields).length < UInt16.size) {before after : List GetCall}
    (h : ReadsBack (before ++ after) fields) :
    ∃ reader : TlvReader,
      getFields (tlvReaderInit (some (encodeFields fields))
          (UInt16.ofNat (encodeFields fields).length)) before =
        some ((fields.take before.length).map Subtype.val, reader) ∧
      (tlvReaderDone reader = true ↔ ∀ call ∈ after, call.type.size = 0) := by
  obtain ⟨hbefore, hafter⟩ := h.split
  have hpayload : encodeFields fields = encodeFields (fields.take before.length) ++
      encodeFields (fields.drop before.length) := by
    rw [← encodeFields_append, List.take_append_drop]
  have hnat : (UInt16.ofNat (encodeFields fields).length).toNat = (encodeFields fields).length :=
    UInt16.toNat_ofNat_of_lt' hlen
  have hbuf : ((some (encodeFields fields)).getD []).length =
      (UInt16.ofNat (encodeFields fields).length).toNat := hnat.symm
  have hvalues : decodeFields (zeroExtended (encodeFields fields)) 0
      (before.map GetCall.type) = (fields.take before.length).map Subtype.val := by
    rw [hbefore, hpayload]
    exact decodeFields_encodeFields [] _ _
  refine ⟨.after (some (encodeFields fields)) (UInt16.ofNat (encodeFields fields).length)
    (requested before), ?_, ?_⟩
  · rw [tlvReaderInit_eq_after hbuf, getFields_after hbuf, Nat.zero_add]
    exact congrArg (fun values ↦ some (values, _)) hvalues
  · -- nothing is left to read exactly when the calls that are left ask for nothing
    rw [tlvReaderDone_after, hnat, hbefore.requested_eq, ← requested_eq_zero_iff,
      hafter.requested_eq, hpayload, List.length_append]
    omega

variable {mem : List UInt8} {cap : UInt16}

/-- **What is written is read back.** Fields that fit are put into the buffer one after the other,
and the same sequence of types read from those bytes gives the same values; the reader is done
when, and only when, no field with any bytes is left. -/
theorem getFields_putFields (hmem : cap.toNat ≤ mem.length) {fields : List Field}
    (hfit : (encodeFields fields).length ≤ cap.toNat) {calls : List GetCall}
    (hcalls : ReadsBack calls fields) :
    ∃ (writer : TlvWriter) (buf : List UInt8),
      putFields (tlvWriterInit (some mem) cap) fields = some writer ∧
      tlvWriterOk writer = true ∧ writer.len.toNat = (encodeFields fields).length ∧
      writer.buf = some buf ∧
      (∃ reader : TlvReader,
        getFields (tlvReaderInit (some (buf.take writer.len.toNat)) writer.len) calls =
          some (fields.map Subtype.val, reader) ∧ tlvReaderDone reader = true) ∧
      ∀ before after : List GetCall, calls = before ++ after → ∃ reader : TlvReader,
        getFields (tlvReaderInit (some (buf.take writer.len.toNat)) writer.len) before =
          some ((fields.take before.length).map Subtype.val, reader) ∧
        (tlvReaderDone reader = true ↔ ∀ call ∈ after, call.type.size = 0) := by
  have hlen : (encodeFields fields).length < UInt16.size := Nat.lt_of_le_of_lt hfit cap.toNat_lt
  have hheld : putFields (tlvWriterInit (some mem) cap) fields =
      some ⟨some (overlay (encodeFields fields) mem), cap,
        UInt16.ofNat (encodeFields fields).length, true⟩ := by
    rw [putFields_init hmem, TlvWriter.holding_of_le hfit]
  have hnat : (UInt16.ofNat (encodeFields fields).length).toNat = (encodeFields fields).length :=
    UInt16.toNat_ofNat_of_lt' hlen
  refine ⟨_, _, hheld, rfl, hnat, rfl, ?_, ?_⟩
  · show ∃ reader, getFields (tlvReaderInit (some (List.take (UInt16.toNat _) _)) _) _ = _ ∧ _
    rw [hnat, take_overlay]
    have hall : ReadsBack (calls ++ []) fields := by rwa [List.append_nil]
    have hcount : calls.length = fields.length := by
      have h := congrArg List.length hcalls
      rwa [List.length_map, List.length_map] at h
    obtain ⟨reader, hget, hdone⟩ := getFields_encodeFields hlen hall
    rw [hcount, List.take_length] at hget
    exact ⟨reader, hget, hdone.2 fun _ h ↦ absurd h List.not_mem_nil⟩
  · intro before after heq
    show ∃ reader, getFields (tlvReaderInit (some (List.take (UInt16.toNat _) _)) _) _ = _ ∧ _
    rw [hnat, take_overlay]
    exact getFields_encodeFields hlen (heq ▸ hcalls)

/-- A negative temperature and an empty array, through a buffer of three bytes. -/
theorem getFields_putFields_negative :
    ∃ (writer : TlvWriter) (buf : List UInt8),
      putFields (tlvWriterInit (some [0, 0, 0]) 3)
        [⟨.i16 (-1250), by decide⟩, ⟨.bytes [], by decide⟩] = some writer ∧
      writer.buf = some buf ∧
      ∃ reader : TlvReader,
        getFields (tlvReaderInit (some (buf.take writer.len.toNat)) writer.len)
          [.i16, .bytes ⟨[], by decide⟩] = some ([.i16 (-1250), .bytes []], reader) ∧
        tlvReaderDone reader = true := by
  obtain ⟨writer, buf, hput, -, -, hbuf, hget, -⟩ :=
    @getFields_putFields [0, 0, 0] 3 (by decide)
      [⟨.i16 (-1250), by decide⟩, ⟨.bytes [], by decide⟩] (by decide)
      [.i16, .bytes ⟨[], by decide⟩] rfl
  exact ⟨writer, buf, hput, hbuf, hget⟩

end SubmarineMonitor

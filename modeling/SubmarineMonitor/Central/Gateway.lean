import Mathlib.Data.Int.Notation
import Mathlib.Data.List.Basic

/-!
# The gateway

`gateway.cpp` owns the serial port and passes its bytes on to a TCP client, in two loops that know
nothing of frames. A session is the list of turns of a loop; what the other thread, the signal
handler and the system do in a turn is part of it.

Towards the serial port every chunk goes through a loop that writes until all is gone, so the port
gets what the client sent, cut off at most at the end (`tcpToSerial_isPrefix`). Towards the client a
chunk is handed to one `send`, and what that leaves over is dropped: this direction is lossless just
when no `send` takes a part of its chunk (`lossless_iff`).

## Turns

A session is what happened in each turn: the flag was set, the read threw, nothing came within the
time-out, or a chunk came. The result of `send` is part of the turn of a chunk. So both loops are
functions of lists, without threads: the two directions share nothing but the flag, and the flag is
one of the things that can happen in a turn.

A chunk carries its bounds as fields. It is not empty, as a read of nothing is another turn; it is
at most as long as the buffer; and `send` takes no more than it is offered. What `send` returns is
otherwise arbitrary, negative numbers included.

## Two writers

`SerialPort::write` and `TcpTransport::write` loop until all bytes are out, and the one `::send` of
`serial_to_tcp` does not. On a blocking socket the system as a rule takes the whole chunk, and a
signal or a lack of memory may make it take less. The code compares the result with zero only.

## What is left out

`main`, which opens the port and accepts one client after another: between two sessions the bytes of
the port wait in the driver or are lost, and nothing is said about these. A `send` that blocks,
because the client does not read, is a turn that is not over.
-/

namespace SubmarineMonitor.Gateway

/-! ### From the serial port to the client -/

/-- A chunk that `SerialPort::read` stored in the buffer, and what `send` returned for it. -/
structure SerialChunk where
  bytes : List UInt8
  sent : ℤ
  bytes_ne : bytes ≠ []
  /-- The buffer's size. -/
  length_le : bytes.length ≤ 256
  /-- `send` takes no more than it is offered. -/
  sent_le : sent ≤ bytes.length

/-- A turn of `serial_to_tcp`. -/
inductive SerialTurn
  /-- `stop_flag` or `g_stop` is set. -/
  | stopped
  /-- The read throws. -/
  | readFailed
  /-- Nothing arrived within the timeout. -/
  | nothing
  | chunk (c : SerialChunk)

/-- `serial_to_tcp`: the bytes delivered to the client. -/
def serialToTcp : List SerialTurn → List UInt8
  | [] | .stopped :: _ | .readFailed :: _ => []
  | .nothing :: turns => serialToTcp turns
  | .chunk c :: turns =>
    if c.sent ≤ 0 then [] else c.bytes.take c.sent.toNat ++ serialToTcp turns

/-- The chunks read before the loop ends. -/
def chunksRead : List SerialTurn → List SerialChunk
  | [] | .stopped :: _ | .readFailed :: _ => []
  | .nothing :: turns => chunksRead turns
  | .chunk c :: turns => c :: if c.sent ≤ 0 then [] else chunksRead turns

/-- The concatenation of chunks. -/
def concat (cs : List SerialChunk) : List UInt8 :=
  cs.flatMap SerialChunk.bytes

/-- The chunks whose `send` did not fail. -/
def accepted (cs : List SerialChunk) : List SerialChunk :=
  cs.filter fun c ↦ 0 < c.sent

/-- What arrives is a prefix of what was read, and all of it but for a chunk whose `send` failed. -/
def Lossless (turns : List SerialTurn) : Prop :=
  serialToTcp turns <+: concat (chunksRead turns) ∧
    serialToTcp turns = concat (accepted (chunksRead turns))

/-- A failed `send` ends the session, so only the last chunk can have one. -/
theorem accepted_isPrefix (turns : List SerialTurn) :
    accepted (chunksRead turns) <+: chunksRead turns := by
  induction turns with
  | nil => exact List.prefix_rfl
  | cons turn turns ih =>
    cases turn with
    | stopped => exact List.prefix_rfl
    | readFailed => exact List.prefix_rfl
    | nothing => exact ih
    | chunk c =>
      rw [chunksRead]
      split
      · rename_i hfail
        rw [accepted, List.filter_cons_of_neg (by simpa using hfail)]
        exact List.nil_prefix
      · rename_i hsent
        rw [accepted, List.filter_cons_of_pos (by simpa using hsent)]
        exact List.cons_prefix_cons.2 ⟨rfl, ih⟩

/-- Each accepted chunk is delivered as far as `send` took it. -/
theorem serialToTcp_eq (turns : List SerialTurn) :
    serialToTcp turns =
      (accepted (chunksRead turns)).flatMap fun c ↦ c.bytes.take c.sent.toNat := by
  induction turns with
  | nil => rfl
  | cons turn turns ih =>
    cases turn with
    | stopped => rfl
    | readFailed => rfl
    | nothing => exact ih
    | chunk c =>
      rw [serialToTcp, chunksRead]
      split
      · rename_i hfail
        rw [accepted, List.filter_cons_of_neg (by simpa using hfail)]
        rfl
      · rename_i hsent
        rw [accepted, List.filter_cons_of_pos (by simpa using hsent), List.flatMap_cons, ih]
        rfl

/-- Parts of chunks make the whole only if each is the whole chunk. -/
theorem take_all_of_flatMap_eq {cs : List SerialChunk}
    (h : (cs.flatMap fun c ↦ c.bytes.take c.sent.toNat) = concat cs) :
    ∀ c ∈ cs, c.bytes.length ≤ c.sent.toNat := by
  have hle : ∀ cs : List SerialChunk,
      (cs.flatMap fun c ↦ c.bytes.take c.sent.toNat).length ≤ (concat cs).length := by
    intro cs
    induction cs with
    | nil => exact Nat.le_refl _
    | cons c cs ih =>
      have hc := List.length_take_le' c.sent.toNat c.bytes
      rw [concat] at ih ⊢
      rw [List.flatMap_cons, List.flatMap_cons, List.length_append, List.length_append]
      omega
  induction cs with
  | nil => exact fun c hc ↦ absurd hc List.not_mem_nil
  | cons c cs ih =>
    rw [concat, List.flatMap_cons, List.flatMap_cons] at h
    have hlength := congrArg List.length h
    rw [List.length_append, List.length_append, List.length_take] at hlength
    have hrest := hle cs
    rw [concat] at hrest
    -- neither part can be longer than it is
    have hc : c.bytes.length ≤ c.sent.toNat := by omega
    rw [List.take_of_length_le hc] at h
    intro d hd
    rcases List.mem_cons.1 hd with rfl | hd
    · exact hc
    · exact ih (List.append_cancel_left h) d hd

/-- **When the gateway is lossless** towards the client: every `send` that does not fail takes its
whole chunk. -/
theorem lossless_iff (turns : List SerialTurn) :
    Lossless turns ↔ ∀ c ∈ chunksRead turns, 0 < c.sent → c.sent = c.bytes.length := by
  constructor
  · rintro ⟨-, hall⟩ c hc hsent
    rw [serialToTcp_eq] at hall
    have hle := take_all_of_flatMap_eq hall c (List.mem_filter.2 ⟨hc, decide_eq_true hsent⟩)
    have hsent_le := c.sent_le
    omega
  · intro hfull
    have hall : serialToTcp turns = concat (accepted (chunksRead turns)) := by
      rw [serialToTcp_eq, concat]
      refine List.flatMap_congr fun c hc ↦ ?_
      obtain ⟨hmem, hsent⟩ := List.mem_filter.1 hc
      rw [hfull c hmem (of_decide_eq_true hsent), Int.toNat_natCast, List.take_length]
    refine ⟨?_, hall⟩
    obtain ⟨rest, hrest⟩ := accepted_isPrefix turns
    rw [hall]
    exact ⟨concat rest, by rw [concat, concat, concat, ← List.flatMap_append, hrest]⟩

/-- **A short `send` loses the rest of the chunk**, and what follows is delivered behind the gap. -/
theorem short_send :
    ∃ turns, ¬serialToTcp turns <+: concat (chunksRead turns) ∧ ¬Lossless turns := by
  let turns : List SerialTurn :=
    [.chunk ⟨[1, 2, 3], 2, by decide, by decide, by decide⟩,
      .chunk ⟨[4], 1, by decide, by decide, by decide⟩]
  have hgap : ¬serialToTcp turns <+: concat (chunksRead turns) := by decide
  exact ⟨turns, hgap, fun h ↦ hgap h.1⟩

/-! ### From the client to the serial port -/

/-- What a `write` or a `send` of a looping writer returns. -/
inductive WriteResult
  | wrote (n : ℕ)
  /-- `EINTR`. -/
  | interrupted
  /-- Any other error: the writer throws. -/
  | failed

/-- `SerialPort::write` and `TcpTransport::write`: the bytes that go out, and whether it returns. -/
def writeAll : List UInt8 → List WriteResult → List UInt8 × Bool
  | [], _ => ([], true)
  | _ :: _, [] => ([], false)
  | _ :: _, .failed :: _ => ([], false)
  | b :: bytes, .interrupted :: results => writeAll (b :: bytes) results
  | b :: bytes, .wrote n :: results =>
    let r := writeAll ((b :: bytes).drop n) results
    ((b :: bytes).take n ++ r.1, r.2)

/-- **A looping writer loses nothing**: it returns when everything is out. -/
theorem writeAll_spec (bytes : List UInt8) (results : List WriteResult) :
    (writeAll bytes results).1 <+: bytes ∧
      ((writeAll bytes results).2 = true → (writeAll bytes results).1 = bytes) := by
  induction results generalizing bytes with
  | nil =>
    cases bytes with
    | nil => exact ⟨List.prefix_rfl, fun _ ↦ rfl⟩
    | cons b bytes => exact ⟨List.nil_prefix, nofun⟩
  | cons result results ih =>
    cases bytes with
    | nil => exact ⟨List.prefix_rfl, fun _ ↦ rfl⟩
    | cons b bytes =>
      cases result with
      | failed => exact ⟨List.nil_prefix, nofun⟩
      | interrupted => exact ih (b :: bytes)
      | wrote n =>
        obtain ⟨hbegins, hdone⟩ := ih ((b :: bytes).drop n)
        rw [writeAll]
        refine ⟨?_, fun h ↦ ?_⟩
        · have happend := (List.prefix_append_right_inj ((b :: bytes).take n)).2 hbegins
          rwa [List.take_append_drop] at happend
        · dsimp only at h ⊢
          rw [hdone h, List.take_append_drop]

/-- A turn of `tcp_to_serial`. -/
inductive TcpTurn
  | stopped
  /-- The client has disconnected, or `recv` fails. -/
  | ended
  /-- Nothing arrived within the timeout, or a signal did. -/
  | nothing
  | chunk (bytes : List UInt8) (results : List WriteResult)

/-- `tcp_to_serial`: the bytes written to the serial port. -/
def tcpToSerial : List TcpTurn → List UInt8
  | [] | .stopped :: _ | .ended :: _ => []
  | .nothing :: turns => tcpToSerial turns
  | .chunk bytes results :: turns =>
    let w := writeAll bytes results
    if w.2 then w.1 ++ tcpToSerial turns else w.1

/-- The bytes received. -/
def received : List TcpTurn → List UInt8
  | [] => []
  | .chunk bytes _ :: turns => bytes ++ received turns
  | .stopped :: turns | .ended :: turns | .nothing :: turns => received turns

/-- **The serial port gets what the client sent**, up to where the session ends. -/
theorem tcpToSerial_isPrefix (turns : List TcpTurn) : tcpToSerial turns <+: received turns := by
  induction turns with
  | nil => exact List.prefix_rfl
  | cons turn turns ih =>
    cases turn with
    | stopped => exact List.nil_prefix
    | ended => exact List.nil_prefix
    | nothing => exact ih
    | chunk bytes results =>
      obtain ⟨hbegins, hdone⟩ := writeAll_spec bytes results
      rw [tcpToSerial, received]
      split
      · rename_i h
        rw [hdone h]
        exact (List.prefix_append_right_inj bytes).2 ih
      · exact hbegins.trans (List.prefix_append bytes _)

end SubmarineMonitor.Gateway

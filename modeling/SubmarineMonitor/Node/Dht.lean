import SubmarineMonitor.Foundation.Polling
import SubmarineMonitor.Node.Rounds
import SubmarineMonitor.Protocol.CrcRegister

/-!
# The temperature sensor on its wire

`DHT_Read` pulls the wire low for 18 ms, lets it go, and then tells the sensor's zeros from its ones
by how long the wire stays high. It does so by polling, with a timer that counts microseconds, while
interrupts and other tasks take the processor away between any two accesses.

The wire is a function of time and the accesses follow any pace (`Polling`), in cycles of the 80 MHz
clock. The counter has 32 bits; that it starts over after 71 minutes is left out, as the watchdog
bites after four seconds.

* `dhtRead_frame`: how far apart the accesses may lie for the reading to be what was sent.
* `dhtRead_returns`: whatever the wire does, `DHT_Read` is back in time, and a wire that has gone
  dead is reported.

## The start of the answer

A DHT11 answers 20 to 40 μs after the wire is let go, and `send_start_signal` waits 40 μs itself, so
the answer has as a rule begun when the node looks for the first time. Until then the pin is an
output that drives the wire high, and what the sensor does is not seen. An answer is therefore
counted from the release (`startRelease`), and shows on the wire from the end of
`send_start_signal` on (`DhtFrame.Shown`); the first of the three waits of `wait_for_response` may
find its level left already, and the second sees what remains of the response.

## What is assumed of the wire

Its levels change at once, and a level is what `HAL_GPIO_ReadPin` says it is: slopes, contact
bounce and the contention of two outputs are no part of this. The sensor's clock may be off by what
`DhtFrame.InTime` and `DhtBit.InTime` leave room for, and these conditions are sufficient, not
necessary.
-/

open Polling

namespace SubmarineMonitor

/-! ### The functions -/

/-- Cycles of the processor to one count of TIM2. -/
abbrev tim2Unit : ℕ := 80

/-- `delay_us`. Here and below, `t` is the time of the last access before, and a time that is
returned that of the last access made. -/
def delayUs (pace : ℕ → ℕ) (us t : ℕ) : ℕ :=
  let reset := next pace t
  waitCounter pace tim2Unit us reset reset

/-- `send_start_signal`, up to the access that lets the wire go. -/
def startRelease (pace : ℕ → ℕ) (t : ℕ) : ℕ :=
  let output := next pace t
  let low := next pace output
  next pace (delayUs pace 18000 low)

/-- `send_start_signal`. -/
def sendStartSignal (pace : ℕ → ℕ) (t : ℕ) : ℕ :=
  let high := startRelease pace t
  -- `set_pin_input`
  next pace (delayUs pace 40 high)

/-- Set the counter to zero and wait, for 100 μs at most, as long as the pin has the level. -/
def waitPin (line : ℕ → Bool) (pace : ℕ → ℕ) (level : Bool) (t : ℕ) : Bool × ℕ :=
  let reset := next pace t
  waitWhile line pace tim2Unit level 100 reset reset

/-- `wait_for_response`. -/
def waitForResponse (line : ℕ → Bool) (pace : ℕ → ℕ) (t : ℕ) : Bool × ℕ :=
  match waitPin line pace true t with
  | (false, t) => (false, t)
  | (true, t) =>
    match waitPin line pace false t with
    | (false, t) => (false, t)
    | (true, t) => waitPin line pace true t

/-- `read_bit`, and nothing for -1. -/
def readBit (line : ℕ → Bool) (pace : ℕ → ℕ) (t : ℕ) : Option Bool × ℕ :=
  match waitPin line pace false t with
  | (false, t) => (none, t)
  | (true, t) =>
    match waitPin line pace true t with
    | (false, t') => (none, t')
    | (true, t') =>
      let look := next pace t'
      (some (decide (counter tim2Unit (next pace t) look > 50)), look)

/-- `read_40_bits`, with so many bits still to come. -/
def readBits (line : ℕ → Bool) (pace : ℕ → ℕ) : ℕ → List UInt8 → ℕ → Option (List UInt8) × ℕ
  | 0, bytes, t => (some bytes, t)
  | n + 1, bytes, t =>
    match readBit line pace t with
    | (none, t) => (none, t)
    | (some bit, t) =>
      readBits line pace n (bytes.modify ((39 - n) / 8) fun b ↦ b <<< 1 ||| bit.toUInt8) t

/-- What `DHT_Read` makes of the five bytes. -/
def dhtResult (bytes : List UInt8) : DhtResult :=
  let sum := bytes.getD 0 0 + bytes.getD 1 0 + bytes.getD 2 0 + bytes.getD 3 0
  if sum ≠ bytes.getD 4 0 then .checksumError
  else .ok ⟨bytes.getD 0 0, bytes.getD 1 0, bytes.getD 2 0, bytes.getD 3 0⟩

/-- `DHT_Read` from where it is known whether there is a response. -/
def readAnswer (line : ℕ → Bool) (pace : ℕ → ℕ) : Bool × ℕ → DhtResult × ℕ
  | (false, t) => (.noResponse, t)
  | (true, t) =>
    match readBits line pace 40 [0, 0, 0, 0, 0] t with
    | (none, t) => (.noResponse, t)
    | (some bytes, t) => (dhtResult bytes, t)

/-- `DHT_Read`. -/
def dhtRead (line : ℕ → Bool) (pace : ℕ → ℕ) (t : ℕ) : DhtResult × ℕ :=
  readAnswer line pace (waitForResponse line pace (sendStartSignal pace t))

/-! ### What the sensor sends -/

/-- A bit on the wire: low and then high for so many cycles. -/
structure DhtBit where
  value : Bool
  low : ℕ
  high : ℕ

/-- A sensor's answer: how long after the release it answers, how long it then holds the wire low
and high, and its bits. -/
structure DhtFrame where
  respond : ℕ
  low : ℕ
  high : ℕ
  bits : List DhtBit

/-- The bit can be read with accesses so far apart. With a gap of 5 μs, a one lasts from 66 to 95
μs, a zero from 10 to 35. -/
structure DhtBit.InTime (gap : ℕ) (b : DhtBit) : Prop where
  low_ge : 3 * gap ≤ b.low
  low_le : b.low + gap ≤ 100 * tim2Unit
  zero : b.value = false → 2 * gap ≤ b.high ∧ b.high + 3 * gap ≤ 50 * tim2Unit
  one : b.value = true → 51 * tim2Unit + 3 * gap ≤ b.high ∧ b.high + gap ≤ 100 * tim2Unit

/-- The wire shows the bits from `s` until `e`. -/
def ShowsBits (line : ℕ → Bool) : ℕ → List DhtBit → ℕ → Prop
  | s, [], e => s = e
  | s, b :: bits, e =>
    Holds line false s (s + b.low) ∧ Holds line true (s + b.low) (s + b.low + b.high) ∧
      ShowsBits line (s + b.low + b.high) bits e

/-- The wire was let go at `release`, and from `s` on it shows the answer: before, the output of the
node drives it high, whatever the sensor does. It is held low behind the answer for two gaps. -/
structure DhtFrame.Shown (line : ℕ → Bool) (gap release s : ℕ) (f : DhtFrame) : Prop where
  idle : Holds line true s (release + f.respond)
  /-- The sensor may have answered before `s`. -/
  low : Holds line false (max s (release + f.respond)) (release + f.respond + f.low)
  high : Holds line true (release + f.respond + f.low) (release + f.respond + f.low + f.high)
  bits : ∃ e, ShowsBits line (release + f.respond + f.low + f.high) f.bits e ∧
    Holds line false e (e + 2 * gap)

/-- The answer can be read with accesses so far apart. With a gap of 5 μs, the sensor has 134 μs to
answer, and if it answers at once it holds the wire low for 65 μs at least. -/
structure DhtFrame.InTime (gap : ℕ) (f : DhtFrame) : Prop where
  respond_le : f.respond + gap ≤ 139 * tim2Unit
  /-- The response is not over by the time the node has waited for its own 40 μs. -/
  seen : 40 * tim2Unit + 5 * gap < f.respond + f.low
  low_ge : 2 * gap ≤ f.low
  low_le : f.low + gap ≤ 100 * tim2Unit
  high_ge : 2 * gap ≤ f.high
  high_le : f.high + gap ≤ 100 * tim2Unit
  bits : ∀ b ∈ f.bits, b.InTime gap

variable {line : ℕ → Bool} {pace : ℕ → ℕ} {gap s e t : ℕ}

/-! ### One level, one bit -/

theorem lt_waitPin {level left : Bool} {r : ℕ} (h : waitPin line pace level t = (left, r)) :
    t < r := by
  have hwait : next pace t < (waitPin line pace level t).2 := lt_waitWhile (next pace t)
  rw [h] at hwait
  exact (lt_next pace t).trans hwait

/-- A level that is left in time. -/
theorem waitPin_of_holds (hprompt : Prompt pace gap) {level : Bool} {d : ℕ}
    (hlevel : Holds line level s (s + d)) (hchange : Holds line (!level) (s + d) (s + d + 2 * gap))
    (hs : s ≤ t) (ht : t < s + d) (hlimit : d + gap ≤ 100 * tim2Unit) :
    ∃ r, waitPin line pace level t = (true, r) ∧ s + d ≤ r ∧ r < s + d + 2 * gap ∧
      next pace t < r := by
  have hreset := lt_next pace t
  have hnext := hprompt t
  exact waitWhile_of_holds hprompt hlevel hchange le_rfl (by omega) (by omega) (by omega)

/-- A level that is left in time, or has been left already. -/
theorem waitPin_of_left (hprompt : Prompt pace gap) {level : Bool} {d b : ℕ}
    (hlevel : Holds line level s d) (hchange : Holds line (!level) (max s d) b)
    (hsoon : s + 2 * gap < b) (hlong : d + 2 * gap ≤ b) (hlimit : d + gap ≤ s + 100 * tim2Unit) :
    ∃ r, waitPin line pace level s = (true, r) ∧ d ≤ r ∧ r < b := by
  rcases Nat.lt_or_ge s d with hyet | hleft
  · rw [Nat.max_eq_right hyet.le] at hchange
    obtain ⟨k, rfl⟩ := Nat.exists_eq_add_of_le hyet.le
    obtain ⟨r, hr, hfrom, hto, -⟩ := waitPin_of_holds hprompt hlevel (hchange.mono hlong) le_rfl
      hyet (by omega)
    exact ⟨r, hr, hfrom, by omega⟩
  · -- the first look finds the other level
    rw [Nat.max_eq_left hleft] at hchange
    have hreset := lt_next pace s
    have hread := lt_next pace (next pace s)
    have hreset' := hprompt s
    have hread' := hprompt (next pace s)
    have hline : line (next pace (next pace s)) = !level := hchange _ (by omega) (by omega)
    refine ⟨next pace (next pace s), waitWhile_of_left ?_, by omega, by omega⟩
    rw [hline]
    exact Bool.not_ne_self level

/-- **A bit is read as it was sent.** -/
theorem readBit_of_shown (hprompt : Prompt pace gap) {b : DhtBit} (hb : b.InTime gap)
    (hlow : Holds line false s (s + b.low))
    (hhigh : Holds line true (s + b.low) (s + b.low + b.high))
    (hnext : Holds line false (s + b.low + b.high) (s + b.low + b.high + 2 * gap))
    (hs : s ≤ t) (ht : t < s + 3 * gap) :
    ∃ r, readBit line pace t = (some b.value, r) ∧ s + b.low + b.high ≤ r ∧
      r < s + b.low + b.high + 3 * gap := by
  obtain ⟨hlowge, hlowle, hzero, hone⟩ := hb
  have hlast : 2 * gap ≤ b.high ∧ b.high + gap ≤ 100 * tim2Unit := by
    cases hvalue : b.value with
    | false =>
      have := hzero hvalue
      omega
    | true =>
      have := hone hvalue
      omega
  obtain ⟨r₀, hr₀, hfrom, hto, -⟩ := waitPin_of_holds hprompt hlow
    (hhigh.mono (by omega)) hs (by omega) hlowle
  obtain ⟨r₁, hr₁, hfrom', hto', hreset⟩ := waitPin_of_holds hprompt hhigh hnext hfrom (by omega)
    hlast.2
  have hstart := lt_next pace r₀
  have hstart' := hprompt r₀
  have hlook := lt_next pace r₁
  have hlook' := hprompt r₁
  refine ⟨next pace r₁, ?_, by omega, by omega⟩
  rw [readBit, hr₀]
  dsimp only
  rw [hr₁]
  -- what was counted lies between the two thresholds
  cases hvalue : b.value with
  | false =>
    have hcount : counter tim2Unit (next pace r₀) (next pace r₁) ≤ 50 := by
      have := hzero hvalue
      exact counter_le (by omega)
    simp [Nat.not_lt.2 hcount]
  | true =>
    have hcount : 50 < counter tim2Unit (next pace r₀) (next pace r₁) := by
      have := hone hvalue
      exact lt_counter (by omega)
    simp [hcount]

/-! ### Forty bits -/

/-- A byte that is shifted in bit by bit. -/
def shiftIn (byte : UInt8) (bits : List Bool) : UInt8 :=
  bits.foldl (fun byte bit ↦ byte <<< 1 ||| bit.toUInt8) byte

theorem shiftIn_byteBits (byte : UInt8) : shiftIn 0 (byteBits byte) = byte := by
  have hall : ∀ n : Fin 256, shiftIn 0 (byteBits (UInt8.ofNat n)) = UInt8.ofNat n := by
    decide +kernel
  have hbyte := hall ⟨byte.toNat, byte.toNat_lt⟩
  rwa [UInt8.ofNat_toNat] at hbyte

/-- The bytes that the bits are stored in, bit after bit. -/
def storeBits (bytes : List UInt8) : List Bool → List UInt8
  | [] => bytes
  | bit :: bits =>
    storeBits (bytes.modify ((39 - bits.length) / 8) fun b ↦ b <<< 1 ||| bit.toUInt8) bits

/-- **Bits are read as they were sent**, one after another. -/
theorem readBits_of_shown (hprompt : Prompt pace gap) {bits : List DhtBit} (bytes : List UInt8)
    (hbits : ∀ b ∈ bits, b.InTime gap) (hshown : ShowsBits line s bits e)
    (hend : Holds line false e (e + 2 * gap)) (hs : s ≤ t) (ht : t < s + 3 * gap) :
    ∃ r, readBits line pace bits.length bytes t =
      (some (storeBits bytes (bits.map DhtBit.value)), r) ∧ e ≤ r ∧ r < e + 3 * gap := by
  induction bits generalizing s t bytes with
  | nil =>
    obtain rfl : s = e := hshown
    exact ⟨t, rfl, hs, ht⟩
  | cons b bits ih =>
    obtain ⟨hlow, hhigh, hrest⟩ := hshown
    rw [List.forall_mem_cons] at hbits
    have hnext : Holds line false (s + b.low + b.high) (s + b.low + b.high + 2 * gap) := by
      obtain _ | ⟨b', bits⟩ := bits
      · obtain rfl : s + b.low + b.high = e := hrest
        exact hend
      · have hlow' := (hbits.2 b' (List.mem_cons_self ..)).low_ge
        exact hrest.1.mono (by omega)
    obtain ⟨r, hr, hfrom, hto⟩ := readBit_of_shown hprompt hbits.1 hlow hhigh hnext hs ht
    rw [List.length_cons, readBits, hr, List.map_cons, storeBits, List.length_map]
    exact ih _ hbits.2 hrest hfrom hto

/-- The node looks again 39 μs after the release at the earliest, and three gaps after its 40 μs at
the latest. -/
theorem sendStartSignal_bounds (hprompt : Prompt pace gap) (t : ℕ) :
    startRelease pace t + 39 * tim2Unit < sendStartSignal pace t ∧
      sendStartSignal pace t ≤ startRelease pace t + 40 * tim2Unit + 3 * gap := by
  set release := startRelease pace t with hrelease
  have hreset := lt_next pace release
  have hreset' := hprompt release
  have hwait : next pace release + 39 * tim2Unit < delayUs pace 40 release := lt_waitCounter
  have hwait' : delayUs pace 40 release ≤ next pace release + 40 * tim2Unit + gap :=
    waitCounter_le hprompt (Nat.le_add_right ..)
  have hinput : delayUs pace 40 release < sendStartSignal pace t := lt_next pace _
  have hinput' : sendStartSignal pace t ≤ delayUs pace 40 release + gap := hprompt _
  constructor <;> omega

/-- **An answer is read as it was sent**, bit by bit. -/
theorem dhtRead_of_shown (hprompt : Prompt pace gap) {f : DhtFrame} (hlen : f.bits.length = 40)
    (hf : f.InTime gap)
    (hshown : f.Shown line gap (startRelease pace t) (sendStartSignal pace t)) :
    ∃ r, dhtRead line pace t =
      (dhtResult (storeBits [0, 0, 0, 0, 0] (f.bits.map DhtBit.value)), r) := by
  obtain ⟨hidle, hlow, hhigh, e, hbits, hend⟩ := hshown
  obtain ⟨hrespond, hseen, hlowge, hlowle, hhighge, hhighle, hbitsle⟩ := hf
  obtain ⟨hearly, hlate⟩ := sendStartSignal_bounds hprompt t
  rw [dhtRead]
  generalize sendStartSignal pace t = s at *
  generalize startRelease pace t = release at *
  have hfirst : Holds line false (release + f.respond + f.low + f.high)
      (release + f.respond + f.low + f.high + 2 * gap) := by
    rcases hlist : f.bits with _ | ⟨b, bits⟩
    · rw [hlist] at hlen
      cases hlen
    · rw [hlist] at hbits hbitsle
      have hlow' := (hbitsle b (List.mem_cons_self ..)).low_ge
      exact hbits.1.mono (by omega)
  obtain ⟨r₀, hr₀, hfrom₀, hto₀⟩ := waitPin_of_left hprompt hidle hlow (by omega) (by omega)
    (by omega)
  -- what is left of the response
  have hrest : Holds line false r₀ (release + f.respond + f.low) := fun u hu hu' ↦ by
    have hs : s < r₀ := lt_waitPin hr₀
    exact hlow u (by omega) hu'
  obtain ⟨k, hk⟩ := Nat.exists_eq_add_of_le hto₀.le
  rw [hk] at hrest hhigh hfirst hbits
  obtain ⟨r₁, hr₁, hfrom₁, hto₁, -⟩ := waitPin_of_holds hprompt hrest (hhigh.mono (by omega)) le_rfl
    (by omega) (by omega)
  obtain ⟨r₂, hr₂, hfrom₂, hto₂, -⟩ := waitPin_of_holds hprompt hhigh hfirst hfrom₁ (by omega)
    hhighle
  obtain ⟨r, hr, -, -⟩ := readBits_of_shown hprompt [0, 0, 0, 0, 0] hbitsle hbits
    hend hfrom₂ (by omega)
  rw [hlen] at hr
  refine ⟨r, ?_⟩
  rw [waitForResponse, hr₀]
  dsimp only
  rw [hr₁]
  dsimp only
  rw [hr₂, readAnswer, hr]

/-! ### Five bytes -/

/-- The data and the checksum that a sensor sends. -/
structure DhtPacket where
  data : DhtData
  checksum : UInt8
  deriving DecidableEq

/-- The bytes in the order in which they are sent. -/
def DhtPacket.bytes (p : DhtPacket) : List UInt8 :=
  [p.data.humidityInt, p.data.humidityDec, p.data.temperatureInt, p.data.temperatureDec, p.checksum]

/-- The checksum is that of the data. -/
def DhtPacket.Right (p : DhtPacket) : Prop :=
  p.data.humidityInt + p.data.humidityDec + p.data.temperatureInt + p.data.temperatureDec =
    p.checksum

instance (p : DhtPacket) : Decidable p.Right :=
  inferInstanceAs (Decidable (_ = _))

/-- The bits in the order in which they are sent. -/
def DhtPacket.bits (p : DhtPacket) : List Bool :=
  bitsOf p.bytes

/-- Bits that belong to the same byte are shifted into it. -/
theorem storeBits_append {bytes : List UInt8} {bits rest : List Bool} {i : ℕ}
    (h : ∀ n, rest.length ≤ n → n < rest.length + bits.length → (39 - n) / 8 = i) :
    storeBits bytes (bits ++ rest) = storeBits (bytes.modify i fun b ↦ shiftIn b bits) rest := by
  induction bits generalizing bytes with
  | nil => exact congrArg (storeBits · rest) (List.modify_id i bytes).symm
  | cons bit bits ih =>
    have hi : (39 - (bits ++ rest).length) / 8 = i := by
      refine h _ ?_ ?_
      · simp
      · simp only [List.length_append, List.length_cons]
        omega
    rw [List.cons_append, storeBits, hi, ih fun n hle hlt ↦ h n hle (by
      rw [List.length_cons]
      omega), List.modify_modify_eq]
    rfl

theorem storeBits_bits (p : DhtPacket) : storeBits [0, 0, 0, 0, 0] p.bits = p.bytes := by
  simp only [DhtPacket.bits, bitsOf, DhtPacket.bytes, List.flatMap_cons, List.flatMap_nil]
  rw [storeBits_append (i := 0), storeBits_append (i := 1), storeBits_append (i := 2),
    storeBits_append (i := 3), storeBits_append (i := 4)]
  · simp [storeBits, shiftIn_byteBits]
  all_goals
    simp only [List.length_append, length_byteBits, List.length_nil]
    omega

theorem dhtResult_bytes (p : DhtPacket) :
    dhtResult p.bytes = if p.Right then .ok p.data else .checksumError := by
  by_cases h : p.Right
  · rw [if_pos h]
    exact if_neg (not_not.2 h)
  · rw [if_neg h]
    exact if_pos h

/-- The two differ in exactly one byte. -/
def DhtPacket.DifferInOne (p q : DhtPacket) : Prop :=
  q ≠ p ∧ ∃ i byte, q.bytes = p.bytes.set i byte

/-- **Damage to one byte is noticed.** -/
theorem DhtPacket.Right.not_of_differInOne {p q : DhtPacket} (hp : p.Right) (h : p.DifferInOne q) :
    ¬q.Right := by
  obtain ⟨⟨a, b, c, d⟩, sum⟩ := p
  obtain ⟨⟨a', b', c', d'⟩, sum'⟩ := q
  obtain ⟨hne, i, byte, hset⟩ := h
  intro hq
  simp only [DhtPacket.Right] at hp hq
  refine hne ?_
  simp only [DhtPacket.bytes] at hset
  rcases i with _ | _ | _ | _ | _ | i
  all_goals
    simp only [List.set_cons_zero, List.set_cons_succ, List.set_nil, List.cons.injEq,
      and_true] at hset
    obtain ⟨rfl, rfl, rfl, rfl, rfl⟩ := hset
    grind

/-- **What `DHT_Read` makes of an answer.** With at most `gap` cycles between two accesses, whatever
takes up the time, an answer whose levels last as they should is read exactly: its data if the
checksum is right, and otherwise an error. In particular an answer that has come in wrong in one of
its five bytes is never taken for a reading. -/
theorem dhtRead_frame (hprompt : Prompt pace gap) {f : DhtFrame} (hf : f.InTime gap)
    (hshown : f.Shown line gap (startRelease pace t) (sendStartSignal pace t)) {p : DhtPacket}
    (hp : f.bits.map DhtBit.value = p.bits) :
    (dhtRead line pace t).1 = (if p.Right then .ok p.data else .checksumError) ∧
      ∀ q : DhtPacket, q.Right → q.DifferInOne p → (dhtRead line pace t).1 = .checksumError := by
  have hlen : f.bits.length = 40 := by
    have hlength := congrArg List.length hp
    simpa [DhtPacket.bits, bitsOf, DhtPacket.bytes] using hlength
  obtain ⟨r, hr⟩ := dhtRead_of_shown hprompt hlen hf hshown
  rw [hp, storeBits_bits, dhtResult_bytes] at hr
  rw [hr]
  exact ⟨rfl, fun q hq hone ↦ if_neg (hq.not_of_differInOne hone)⟩

/-- A wire that has these levels for so long, one after another, and is low from then on. -/
def wireOf : List (Bool × ℕ) → ℕ → Bool
  | [], _ => false
  | (level, d) :: rest, t => if t < d then level else wireOf rest (t - d)

/-- The levels of an answer. -/
def DhtFrame.levels (f : DhtFrame) : List (Bool × ℕ) :=
  (true, f.respond) :: (false, f.low) :: (true, f.high) ::
    f.bits.flatMap fun b ↦ [(false, b.low), (true, b.high)]

/-- The first level, and the wire behind it. -/
theorem holds_of_wireOf {level : Bool} {d : ℕ} {rest : List (Bool × ℕ)}
    (h : ∀ u, line (s + u) = wireOf ((level, d) :: rest) u) :
    Holds line level s (s + d) ∧ ∀ u, line (s + d + u) = wireOf rest u := by
  constructor
  · intro t hs ht
    obtain ⟨u, rfl⟩ := Nat.exists_eq_add_of_le hs
    rw [h, wireOf, if_pos (by omega)]
  · intro u
    rw [Nat.add_assoc, h, wireOf, if_neg (by omega), Nat.add_sub_cancel_left]

theorem showsBits_of_wireOf {bits : List DhtBit}
    (h : ∀ u, line (s + u) = wireOf (bits.flatMap fun b ↦ [(false, b.low), (true, b.high)]) u) :
    ∃ e, ShowsBits line s bits e ∧ ∀ u, line (e + u) = false := by
  induction bits generalizing s with
  | nil => exact ⟨s, rfl, h⟩
  | cons b bits ih =>
    obtain ⟨hlow, hrest⟩ := holds_of_wireOf h
    obtain ⟨hhigh, hrest⟩ := holds_of_wireOf hrest
    obtain ⟨e, hshown, hend⟩ := ih hrest
    exact ⟨e, ⟨hlow, hhigh, hshown⟩, hend⟩

/-- Every answer can be shown. -/
theorem shown_wireOf (f : DhtFrame) (gap release s : ℕ) (hs : release ≤ s) :
    f.Shown (fun t ↦ wireOf f.levels (t - release)) gap release s := by
  generalize hdef : (fun t ↦ wireOf f.levels (t - release)) = line
  have hline : ∀ u, line (release + u) = wireOf f.levels u := fun u ↦ by
    rw [← hdef]
    exact congrArg (wireOf f.levels) (Nat.add_sub_cancel_left ..)
  obtain ⟨hidle, hrest⟩ := holds_of_wireOf hline
  obtain ⟨hlow, hrest⟩ := holds_of_wireOf hrest
  obtain ⟨hhigh, hrest⟩ := holds_of_wireOf hrest
  obtain ⟨e, hbits, hend⟩ := showsBits_of_wireOf hrest
  refine ⟨fun t ht ↦ hidle t (hs.trans ht), fun t ht ↦ hlow t ((Nat.le_max_right ..).trans ht), hhigh,
    e, hbits, fun t he _ ↦ ?_⟩
  obtain ⟨u, rfl⟩ := Nat.exists_eq_add_of_le he
  exact hend u

/-- 22 °C and 45 %, with the durations of the data sheet: the sensor answers after 30 μs, while the
node still waits. -/
def roomAnswer : DhtFrame where
  respond := 2400
  low := 6400
  high := 6400
  bits := (DhtPacket.bits ⟨⟨45, 0, 22, 0⟩, 67⟩).map fun value ↦
    ⟨value, 4000, if value then 5600 else 2160⟩

theorem inTime_roomAnswer : roomAnswer.InTime 400 where
  respond_le := by decide
  seen := by decide
  low_ge := by decide
  low_le := by decide
  high_ge := by decide
  high_le := by decide
  bits := by
    intro b hb
    obtain ⟨value, -, rfl⟩ := List.mem_map.1 hb
    cases value <;> constructor <;> simp [tim2Unit]

/-- Between one cycle and 5 μs between two accesses. -/
theorem prompt_mod : Prompt (fun t ↦ t % 400) 400 := fun t ↦ by
  rw [next]
  have := Nat.mod_lt t (by decide : 0 < 400)
  omega

/-- It is read at such a pace. -/
theorem dhtRead_frame_room :
    ∃ line, (dhtRead line (fun t ↦ t % 400) 0).1 = .ok ⟨45, 0, 22, 0⟩ := by
  have hbits : roomAnswer.bits.map DhtBit.value = DhtPacket.bits ⟨⟨45, 0, 22, 0⟩, 67⟩ := by
    rw [roomAnswer, List.map_map]
    exact List.map_id _
  have hrelease := (sendStartSignal_bounds prompt_mod 0).1
  refine ⟨_, (dhtRead_frame prompt_mod inTime_roomAnswer
    (shown_wireOf _ _ _ _ (Nat.le_of_add_right_le hrelease.le)) hbits).1.trans ?_⟩
  exact if_pos (by decide)

/-! ### Whatever the wire does -/

theorem delayUs_le (hprompt : Prompt pace gap) (us : ℕ) :
    delayUs pace us t ≤ t + us * tim2Unit + 2 * gap := by
  have hreset := hprompt t
  have hwait := waitCounter_le hprompt
    (Nat.le_add_right (next pace t) (us * tim2Unit))
  show waitCounter _ _ _ _ _ ≤ _
  omega

theorem sendStartSignal_le (hprompt : Prompt pace gap) :
    sendStartSignal pace t ≤ t + 18040 * tim2Unit + 8 * gap := by
  set low := next pace (next pace t) with hlow
  have houtput := hprompt t
  have hlow' := hprompt (next pace t)
  have hdelay : delayUs pace 18000 low ≤ _ := delayUs_le hprompt 18000
  have hhigh : startRelease pace t ≤ delayUs pace 18000 low + gap := hprompt _
  have hinput := (sendStartSignal_bounds hprompt t).2
  omega

/-- A wait comes back within 101 μs and three gaps. -/
theorem waitPin_le (hprompt : Prompt pace gap) {level left : Bool} {r : ℕ}
    (h : waitPin line pace level t = (left, r)) : r ≤ t + 101 * tim2Unit + 3 * gap := by
  have hreset := hprompt t
  have hpos : 0 < (100 + 1) * tim2Unit := by decide
  have hwait : (waitPin line pace level t).2 ≤ next pace t + (100 + 1) * tim2Unit + 2 * gap :=
    waitWhile_le hprompt (Nat.lt_add_of_pos_right hpos)
  rw [h] at hwait
  dsimp only at hwait
  omega

theorem waitForResponse_le (hprompt : Prompt pace gap) {ok : Bool} {r : ℕ}
    (h : waitForResponse line pace t = (ok, r)) : r ≤ t + 303 * tim2Unit + 9 * gap := by
  rw [waitForResponse] at h
  rcases h₀ : waitPin line pace true t with ⟨_ | _, r₀⟩
  all_goals
    have hle₀ := waitPin_le hprompt h₀
    rw [h₀] at h
    dsimp only at h
  · obtain ⟨-, rfl⟩ := Prod.mk.inj h
    omega
  rcases h₁ : waitPin line pace false r₀ with ⟨_ | _, r₁⟩
  all_goals
    have hle₁ := waitPin_le hprompt h₁
    rw [h₁] at h
    dsimp only at h
  · obtain ⟨-, rfl⟩ := Prod.mk.inj h
    omega
  have hle₂ := waitPin_le hprompt h
  omega

/-- What one call of `read_bit` has done. -/
theorem readBit_cases {bit : Option Bool} {r : ℕ} (h : readBit line pace t = (bit, r)) :
    (bit = none ∧ waitPin line pace false t = (false, r)) ∨
      ∃ r₀, waitPin line pace false t = (true, r₀) ∧
        ((bit = none ∧ waitPin line pace true r₀ = (false, r)) ∨
          ∃ r₁, waitPin line pace true r₀ = (true, r₁) ∧ r = next pace r₁) := by
  rw [readBit] at h
  rcases h₀ : waitPin line pace false t with ⟨_ | _, r₀⟩
  all_goals
    rw [h₀] at h
    dsimp only at h
  · obtain ⟨rfl, rfl⟩ := Prod.mk.inj h
    exact .inl ⟨rfl, rfl⟩
  rcases h₁ : waitPin line pace true r₀ with ⟨_ | _, r₁⟩
  all_goals
    rw [h₁] at h
    dsimp only at h
  · obtain ⟨rfl, rfl⟩ := Prod.mk.inj h
    exact .inr ⟨r₀, rfl, .inl ⟨rfl, h₁⟩⟩
  · obtain ⟨-, rfl⟩ := Prod.mk.inj h
    exact .inr ⟨r₀, rfl, .inr ⟨r₁, h₁, rfl⟩⟩

theorem readBit_le (hprompt : Prompt pace gap) {bit : Option Bool} {r : ℕ}
    (h : readBit line pace t = (bit, r)) : r ≤ t + 202 * tim2Unit + 7 * gap := by
  rcases readBit_cases h with ⟨-, h₀⟩ | ⟨r₀, h₀, ⟨-, h₁⟩ | ⟨r₁, h₁, rfl⟩⟩
  · have hle := waitPin_le hprompt h₀
    omega
  · have hle := waitPin_le hprompt h₀
    have hle' := waitPin_le hprompt h₁
    omega
  · have hle := waitPin_le hprompt h₀
    have hle' := waitPin_le hprompt h₁
    have hlook := hprompt r₁
    omega

theorem readBits_le (hprompt : Prompt pace gap) {n : ℕ} {bytes : List UInt8}
    {result : Option (List UInt8)} {r : ℕ} (h : readBits line pace n bytes t = (result, r)) :
    r ≤ t + n * (202 * tim2Unit + 7 * gap) := by
  induction n generalizing t bytes with
  | zero =>
    obtain ⟨-, rfl⟩ := Prod.mk.inj h
    exact Nat.le_add_right _ _
  | succ n ih =>
    rw [readBits] at h
    rw [Nat.succ_mul]
    rcases hbit : readBit line pace t with ⟨_ | bit, r₀⟩
    all_goals
      have hle := readBit_le hprompt hbit
      rw [hbit] at h
      dsimp only at h
    · obtain ⟨-, rfl⟩ := Prod.mk.inj h
      omega
    · have hrest := ih h
      omega

/-! ### A wire that has gone dead -/

/-- From `s` on the wire does not change any more. -/
def Dead (line : ℕ → Bool) (s : ℕ) : Prop :=
  ∃ level, ∀ t, s < t → line t = level

/-- Nobody waits for a level to end that the dead wire has. -/
theorem waitPin_of_dead {level : Bool} (hdead : ∀ u, s < u → line u = level) (hs : s ≤ t) {r : ℕ} :
    waitPin line pace level t ≠ (true, r) := by
  intro h
  have hlate := lt_next pace t
  have hstuck : (waitPin line pace level t).1 = false :=
    waitWhile_of_stuck fun u hu ↦ hdead u (by omega)
  rw [h] at hstuck
  cases hstuck

/-- The last bit is read soon after the wire has gone dead. -/
theorem readBit_of_dead (hprompt : Prompt pace gap) (hdead : Dead line s) {bit : Bool} {r : ℕ}
    (h : readBit line pace t = (some bit, r)) : t < s ∧ r ≤ s + 3 * gap := by
  obtain ⟨level, hdead⟩ := hdead
  rcases readBit_cases h with ⟨hnone, -⟩ | ⟨r₀, h₀, ⟨hnone, -⟩ | ⟨r₁, h₁, rfl⟩⟩
  · cases hnone
  · cases hnone
  have hr₀ := lt_waitPin h₀
  -- the second wait has begun before the wire went dead
  have hearly : r₀ ≤ s := by
    by_contra hlate
    cases level with
    | true => exact waitPin_of_dead hdead (Nat.le_of_not_le hlate) h₁
    | false => exact line_of_waitWhile h₀ (hdead r₀ (Nat.lt_of_not_le hlate))
  have hreset := hprompt r₀
  have hlook := hprompt r₁
  have hr₁ : r₁ ≤ s + 2 * gap := waitWhile_of_dead hprompt hdead (by omega) h₁
  omega

theorem readBits_of_dead (hprompt : Prompt pace gap) (hdead : Dead line s) {n : ℕ}
    {bytes result : List UInt8} {r : ℕ}
    (h : readBits line pace (n + 1) bytes t = (some result, r)) :
    r ≤ s + 3 * gap := by
  induction n generalizing t bytes with
  | zero =>
    rw [readBits] at h
    rcases hbit : readBit line pace t with ⟨_ | bit, r₀⟩
    all_goals
      rw [hbit] at h
      dsimp only at h
    · cases h
    · obtain ⟨-, rfl⟩ := Prod.mk.inj h
      exact (readBit_of_dead hprompt hdead hbit).2
  | succ n ih =>
    rw [readBits] at h
    rcases hbit : readBit line pace t with ⟨_ | bit, r₀⟩
    all_goals
      rw [hbit] at h
      dsimp only at h
    · cases h
    · exact ih h

/-- **`DHT_Read` is back** within 26.5 ms and 297 gaps, whatever the wire does: below 28 ms with
gaps of 5 μs. If the wire changes no more from some time on, then the reading is over within three
gaps from there, or it is reported that there is no response. -/
theorem dhtRead_returns (hprompt : Prompt pace gap) (line : ℕ → Bool) (t : ℕ) :
    (dhtRead line pace t).2 ≤ t + 26423 * tim2Unit + 297 * gap ∧
      ∀ s, Dead line s → (dhtRead line pace t).1 = .noResponse ∨
        (dhtRead line pace t).2 ≤ s + 3 * gap := by
  have hstart : sendStartSignal pace t ≤ _ := sendStartSignal_le hprompt
  rw [dhtRead]
  rcases hresponse : waitForResponse line pace (sendStartSignal pace t) with ⟨_ | _, r₀⟩
  all_goals
    have hle := waitForResponse_le hprompt hresponse
    rw [readAnswer]
  · exact ⟨by omega, fun s _ ↦ .inl rfl⟩
  rcases hbits : readBits line pace 40 [0, 0, 0, 0, 0] r₀ with ⟨_ | bytes, r⟩
  all_goals
    have hle' := readBits_le hprompt hbits
    dsimp only
  · exact ⟨by omega, fun s _ ↦ .inl rfl⟩
  · exact ⟨by omega, fun s hdead ↦ .inr (readBits_of_dead hprompt hdead hbits)⟩

/-- Without a sensor it is back within 28 ms. -/
theorem dhtRead_returns_silent :
    (dhtRead (fun _ ↦ true) (fun t ↦ t % 400) 0).2 ≤ 28 * 1000 * tim2Unit :=
  (dhtRead_returns prompt_mod (fun _ ↦ true) 0).1.trans (by decide)

end SubmarineMonitor

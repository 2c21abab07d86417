import Mathlib.Data.List.GetD
import Mathlib.Data.List.Range

/-!
# Flash pages

A page of flash memory as a map from offsets to bytes. Erasing sets every byte to `FF`; programming
stores one word. A record is written word by word, so a write that is cut short leaves a page whose
first words are the record's and whose remaining bytes are still erased: `writeWords_apply` says
exactly which byte is which, for any word size and any number of words that made it.

## Cut short

A budget of successful operations says how far a write gets. It may stand for a loss of power, for a
controller that refuses, or for a loop that ends on the first error. The word at which the write
stops is not stored at all; a word that is stored in part, as some memories have it, is not
described.

The result of `program` is the word itself, whatever was there. Real memory can only clear bits
without an erase, so this is right for a word that is erased, and programs erase first. A program
that does not would need another definition, and its theorems would not follow from these.

## Reading it off

`writeWords_apply` has all the parameters of the write and one offset, and says what the byte at
that offset is. It is the form in which questions come: a field that is read back after an
interrupted write lies in a stored word, in an erased one, or across the boundary of the two. No
page is ever compared with another one as a whole.

Positions and offsets are natural numbers; the size of a page is the user's business.
-/

/-- A flash page, by offset. -/
abbrev FlashPage := ℕ → UInt8

namespace FlashPage

/-- A page after an erase. -/
def erased : FlashPage :=
  fun _ ↦ 0xFF

/-- Store a word at an offset. -/
def program (page : FlashPage) (addr : ℕ) (word : List UInt8) : FlashPage :=
  fun i ↦ if addr ≤ i ∧ i < addr + word.length then word.getD (i - addr) 0xFF else page i

/-- The word of `w` bytes at position `i` of a record, padded with `FF` past the record's end. -/
def word (w : ℕ) (data : List UInt8) (i : ℕ) : List UInt8 :=
  (List.range w).map fun j ↦ data.getD (i + j) 0xFF

/-- Store `n` words of a record, from position `i` on, as long as the budget of successful
operations lasts: the page, and whether all of them were stored. -/
def writeWords (w : ℕ) (page : FlashPage) (addr : ℕ) (data : List UInt8) (i : ℕ) :
    (n budget : ℕ) → FlashPage × Bool
  | 0, _ => (page, true)
  | _ + 1, 0 => (page, false)
  | n + 1, budget + 1 =>
    writeWords w (page.program addr (word w data i)) (addr + w) data (i + w) n budget

theorem program_word_apply (w : ℕ) (page : FlashPage) (addr : ℕ) (data : List UInt8) (i j : ℕ) :
    page.program addr (word w data i) j =
      if addr ≤ j ∧ j < addr + w then data.getD (i + (j - addr)) 0xFF else page j := by
  have hlen : (word w data i).length = w := by simp [word]
  rw [program, hlen]
  refine ite_congr rfl (fun h ↦ ?_) fun _ ↦ rfl
  have hlt : j - addr < w := by omega
  rw [word, List.getD_eq_getElem _ _ (by simpa using hlt), List.getElem_map, List.getElem_range]

/-- **What a write leaves behind**, whole or cut short: the words that were stored, and otherwise
what was there. -/
theorem writeWords_apply (w : ℕ) (page : FlashPage) (addr : ℕ) (data : List UInt8) (i n budget j : ℕ) :
    (writeWords w page addr data i n budget).1 j =
      if addr ≤ j ∧ j < addr + w * min n budget then data.getD (i + (j - addr)) 0xFF
      else page j := by
  induction n generalizing page addr i budget with
  | zero =>
    rw [Nat.zero_min, Nat.mul_zero, if_neg (by omega)]
    rfl
  | succ n ih =>
    cases budget with
    | zero =>
      rw [Nat.min_zero, Nat.mul_zero, if_neg (by omega)]
      rfl
    | succ budget =>
      rw [writeWords, ih, program_word_apply, Nat.succ_min_succ, Nat.mul_succ]
      by_cases hfirst : j < addr + w
      · -- the first word; none of the later ones reaches back to it
        rw [if_neg (by omega)]
        exact if_congr (by omega) rfl rfl
      · rw [if_neg (fun h ↦ hfirst h.2) (c := addr ≤ j ∧ j < addr + w)]
        refine ite_congr (propext (by omega)) (fun h ↦ ?_) fun _ ↦ rfl
        rw [show i + w + (j - (addr + w)) = i + (j - addr) by omega]

end FlashPage

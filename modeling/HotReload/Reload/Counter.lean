/-!
# Counters

A *counter* lives in a word of 32 bits. What becomes of one that has to count further than its word
goes depends on how the program was built: with checked arithmetic the program stops, otherwise the
counter starts again at 0. So a counter remembers whether this has happened. Up to the first time,
programs of both kinds do the same.
-/

namespace HotReload

/-- What a program does about a counter that leaves its word. -/
inductive Arithmetic where
  /-- It stops. -/
  | checked
  /-- It goes on from 0. -/
  | wrapping
  deriving DecidableEq, Repr

/-- A **counter**: its word, and whether it has left the word before. -/
structure Counter where
  word : UInt32
  overflowed : Bool
  deriving DecidableEq, Repr, Inhabited

namespace Counter

/-- Counts nothing yet. -/
def zero : Counter := ⟨0, false⟩

/-- Counts one more. -/
def next (c : Counter) : Counter := ⟨c.word + 1, c.overflowed || c.word + 1 == 0⟩

/-- True if a program with this arithmetic has stopped. -/
def halts (arith : Arithmetic) (c : Counter) : Bool := arith == .checked && c.overflowed

/-- The counter that has counted to `n`. -/
def ofNat (n : Nat) : Counter := ⟨.ofNat n, decide (UInt32.size ≤ n)⟩

theorem ofNat_zero : ofNat 0 = zero := rfl

/-- **Counting is counting.** The word starts again exactly when the number no longer fits. -/
theorem next_ofNat (n : Nat) : (ofNat n).next = ofNat (n + 1) := by
  have hword : UInt32.ofNat n + 1 = UInt32.ofNat (n + 1) := (UInt32.ofNat_add n 1).symm
  have hover : (decide (UInt32.size ≤ n) || UInt32.ofNat (n + 1) == 0) =
      decide (UInt32.size ≤ n + 1) := by
    have hzero : UInt32.ofNat (n + 1) = 0 ↔ (n + 1) % UInt32.size = 0 := by
      rw [← UInt32.toNat_inj, UInt32.toNat_ofNat']
      rfl
    rw [Bool.eq_iff_iff, Bool.or_eq_true, decide_eq_true_eq, decide_eq_true_eq, beq_iff_eq, hzero]
    constructor
    · rintro (hn | hn)
      · omega
      · exact Nat.le_of_dvd (Nat.succ_pos n) (Nat.dvd_of_mod_eq_zero hn)
    · intro hn
      by_cases hsize : UInt32.size ≤ n
      · exact .inl hsize
      · -- this is the step over the end of the word
        have hlast : n + 1 = UInt32.size := by omega
        exact .inr (by rw [hlast, Nat.mod_self])
  rw [next, ofNat, hword, hover]
  rfl

theorem toNat_word_ofNat (n : Nat) : (ofNat n).word.toNat = n % UInt32.size := UInt32.toNat_ofNat'

/-- Where arithmetic is checked a program stops if there is more to count than a word can tell
apart. -/
theorem halts_ofNat (arith : Arithmetic) (n : Nat) :
    (ofNat n).halts arith = true ↔ arith = .checked ∧ UInt32.size ≤ n := by
  rw [halts, Bool.and_eq_true, beq_iff_eq]
  exact and_congr_right fun _ => decide_eq_true_iff

end Counter

end HotReload

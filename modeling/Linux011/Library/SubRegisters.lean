import Mathlib.Data.BitVec
import Mathlib.Logic.Function.Basic
import Mathlib.Tactic.Common

/-! The parts of a 32-bit register that instructions of 8 and 16 bits work on, and bytes of
memory that these instructions load and store. -/
namespace SubRegisters

section

variable {m n : Nat}

theorem extract_extract (x : BitVec n) (start start' : Nat) {len len' : Nat} (h : start' + len' ≤ len) :
    (x.extractLsb' start len).extractLsb' start' len' = x.extractLsb' (start + start') len' := by
  apply BitVec.eq_of_getLsbD_eq
  intro i hi
  simp only [BitVec.getLsbD_extractLsb', hi, show start' + i < len by omega, decide_true, Bool.true_and,
    Nat.add_assoc]

/-- A field within the lower part. -/
theorem extract_append_low (x : BitVec m) (y : BitVec n) (start len : Nat) (h : start + len ≤ n) :
    (x ++ y).extractLsb' start len = y.extractLsb' start len := by
  apply BitVec.eq_of_getLsbD_eq
  intro i hi
  simp only [BitVec.getLsbD_extractLsb', BitVec.getLsbD_append, if_pos (show start + i < n by omega)]

/-- A field within the upper part. -/
theorem extract_append_high (x : BitVec m) (y : BitVec n) (start len : Nat) :
    (x ++ y).extractLsb' (n + start) len = x.extractLsb' start len := by
  apply BitVec.eq_of_getLsbD_eq
  intro i hi
  simp only [BitVec.getLsbD_extractLsb', BitVec.getLsbD_append, if_neg (show ¬n + start + i < n by omega),
    show n + start + i - n = start + i by omega]

theorem extract_self (x : BitVec n) : x.extractLsb' 0 n = x :=
  BitVec.extractLsb'_eq_self

/-- A double word in its halves. -/
theorem upper_append_lower (x : BitVec 32) : x.extractLsb' 16 16 ++ x.extractLsb' 0 16 = x :=
  (BitVec.extractLsb'_append_extractLsb'_eq_extractLsb' rfl).trans (extract_self x)

end

section

variable (v : BitVec 32) (w : BitVec 16) (b : BitVec 8)

/-- `%dl`, `%al`. -/
def low : BitVec 8 := v.extractLsb' 0 8

/-- `%dh`, `%ah`. -/
def high : BitVec 8 := v.extractLsb' 8 8

/-- `%dx`, `%ax`. -/
def word : BitVec 16 := v.extractLsb' 0 16

/-- A store to the lowest byte, as to `al`. -/
def setLow : BitVec 32 := v.extractLsb' 8 24 ++ b

/-- A store to the byte above it, as to `ah`. -/
def setHigh : BitVec 32 := v.extractLsb' 16 16 ++ (b ++ low v)

/-- A store to the lower half, as to `ax`. -/
def setWord : BitVec 32 := v.extractLsb' 16 16 ++ w

@[simp] theorem low_setLow : low (setLow v b) = b :=
  (extract_append_low _ b 0 8 (Nat.le_refl 8)).trans (extract_self b)

@[simp] theorem high_setLow : high (setLow v b) = high v :=
  (extract_append_high _ b 0 8).trans (extract_extract v 8 0 (by decide))

@[simp] theorem low_setHigh : low (setHigh v b) = low v := by
  rw [low, setHigh, extract_append_low _ _ 0 8 (by decide), extract_append_low _ _ 0 8 (by decide), extract_self]

@[simp] theorem high_setHigh : high (setHigh v b) = b := by
  rw [high, setHigh, extract_append_low _ _ 8 8 (by decide)]
  exact (extract_append_high b (low v) 0 8).trans (extract_self b)

/-- A rotation by half the width brings the upper half down. -/
theorem low_rotate : low (v.rotateRight 16) = v.extractLsb' 16 8 := by
  apply BitVec.eq_of_getLsbD_eq
  intro i hi
  simp only [low, BitVec.getLsbD_rotateRight, BitVec.getLsbD_extractLsb']
  grind

/-- Behind `rorl $16` the byte above the lowest one is the highest one. -/
theorem high_rotate : high (v.rotateRight 16) = v.extractLsb' 24 8 := by
  apply BitVec.eq_of_getLsbD_eq
  intro i hi
  simp only [high, BitVec.getLsbD_rotateRight, BitVec.getLsbD_extractLsb']
  grind

/-- What `setWord` keeps of a shift by 16 are the two lower bytes, at the top. -/
theorem setWord_shift : setWord (v <<< 16) w = high v ++ low v ++ w := by
  apply BitVec.eq_of_getLsbD_eq
  intro i hi
  simp only [setWord, high, low, BitVec.getLsbD_append, BitVec.getLsbD_extractLsb', BitVec.getLsbD_shiftLeft]
  grind

end

section

variable {n : Nat} [NeZero n] (m : Fin n → BitVec 8) (i : Fin n)

def storeb (b : BitVec 8) : Fin n → BitVec 8 := Function.update m i b

/-- A half word, with its lower byte first. -/
def storew (w : BitVec 16) : Fin n → BitVec 8 :=
  storeb (storeb m i (w.extractLsb' 0 8)) (i + 1) (w.extractLsb' 8 8)

end

end SubRegisters

import Mathlib.Logic.Function.Basic
import Mathlib.Tactic.Common

/-! Little-endian 32-bit loads and stores over a flat byte memory, and the
block operations built from them. Nothing here knows which addresses are in
use; every frame lemma names the bytes that are left alone. -/
namespace ByteMemory

/-- One byte at each address. -/
abbrev Memory := Nat → BitVec 8

/-- A word, with its lowest byte first. -/
def load32 (m : Memory) (a : Nat) : BitVec 32 :=
  m (a + 3) ++ m (a + 2) ++ m (a + 1) ++ m a

/-- Its four bytes are written, and no other. -/
def store32 (m : Memory) (a : Nat) (v : BitVec 32) : Memory := fun b =>
  if b = a then v.extractLsb' 0 8
  else if b = a + 1 then v.extractLsb' 8 8
  else if b = a + 2 then v.extractLsb' 16 8
  else if b = a + 3 then v.extractLsb' 24 8
  else m b

/-- A word is read from its own four bytes only. -/
theorem load32_congr {m m' : Memory} {a : Nat}
    (h : ∀ b, a ≤ b → b < a + 4 → m' b = m b) : load32 m' a = load32 m a := by
  simp only [load32]
  rw [h a (by omega) (by omega), h (a + 1) (by omega) (by omega),
    h (a + 2) (by omega) (by omega), h (a + 3) (by omega) (by omega)]

theorem load32_zero {m : Memory} {a : Nat} (h : ∀ b, a ≤ b → b < a + 4 → m b = 0) :
    load32 m a = 0#32 := by
  simp only [load32]
  rw [h a (by omega) (by omega), h (a + 1) (by omega) (by omega),
    h (a + 2) (by omega) (by omega), h (a + 3) (by omega) (by omega)]
  rfl

/-- A store touches its own four bytes only. -/
theorem store32_outside (m : Memory) (a : Nat) (v : BitVec 32) {b : Nat}
    (h : b < a ∨ a + 4 ≤ b) : store32 m a v b = m b := by
  unfold store32
  rw [if_neg (by omega), if_neg (by omega), if_neg (by omega), if_neg (by omega)]

/-- Byte `k` of the word lands at `a + k`. -/
theorem store32_byte (m : Memory) (a : Nat) (v : BitVec 32) {k : Nat} (hk : k < 4) :
    store32 m a v (a + k) = v.extractLsb' (8 * k) 8 := by
  have hBytes : k = 0 ∨ k = 1 ∨ k = 2 ∨ k = 3 := by omega
  rcases hBytes with rfl | rfl | rfl | rfl <;> simp [store32]

/-- Byte `k` of the word comes from `a + k`. -/
theorem load32_byte (m : Memory) (a : Nat) {k : Nat} (hk : k < 4) :
    (load32 m a).extractLsb' (8 * k) 8 = m (a + k) := by
  have hBytes : k = 0 ∨ k = 1 ∨ k = 2 ∨ k = 3 := by omega
  apply BitVec.eq_of_getLsbD_eq
  intro i hi
  simp only [load32, BitVec.getLsbD_extractLsb', BitVec.getLsbD_append]
  rcases hBytes with rfl | rfl | rfl | rfl <;> simp [hi] <;> grind

/-- What was stored is read back. -/
@[simp] theorem load32_store32_same (m : Memory) (a : Nat) (v : BitVec 32) :
    load32 (store32 m a v) a = v := by
  have h0 := store32_byte m a v (k := 0) (by omega)
  rw [load32, store32_byte m a v (k := 1) (by omega), store32_byte m a v (k := 2) (by omega),
    store32_byte m a v (k := 3) (by omega), show store32 m a v a = v.extractLsb' 0 8 from h0]
  apply BitVec.eq_of_getLsbD_eq
  intro i hi
  simp only [BitVec.getLsbD_append, BitVec.getLsbD_extractLsb']
  split_ifs <;> simp <;> grind

/-- A store leaves every word alone that it does not overlap. -/
theorem load32_store32_of_disjoint (m : Memory) (v : BitVec 32) {a b : Nat}
    (h : b + 4 ≤ a ∨ a + 4 ≤ b) : load32 (store32 m a v) b = load32 m b := by
  apply load32_congr
  intro c hc hc'
  exact store32_outside m a v (by omega)

/-- `count` words of value `v`, stored at `a` and below. -/
def fillDown (m : Memory) (v : BitVec 32) : Nat → Nat → Memory
  | _, 0 => m
  | a, count + 1 => fillDown (store32 m a v) v (a - 4) count

/-- A filling touches its own words only. -/
theorem fillDown_outside (m : Memory) (v : BitVec 32) (a count : Nat) {b : Nat}
    (hFit : 4 * count ≤ a + 4) (h : b + 4 * count < a + 4 ∨ a + 4 ≤ b) :
    fillDown m v a count b = m b := by
  induction count generalizing m a with
  | zero => rfl
  | succ count ih =>
      cases count with
      | zero => exact store32_outside m a v (by omega)
      | succ count =>
          rw [fillDown, ih _ _ (by omega) (by omega)]
          exact store32_outside m a v (by omega)

/-- Filled with 0, each byte of the region is 0. -/
theorem fillDown_zero_inside (m : Memory) (a count : Nat) {b : Nat}
    (hFit : 4 * count ≤ a + 4) (hLow : a + 4 ≤ b + 4 * count) (hHigh : b < a + 4) :
    fillDown m 0 a count b = 0 := by
  induction count generalizing m a with
  | zero => omega
  | succ count ih =>
      rw [fillDown]
      by_cases hb : a ≤ b
      · have hStore : store32 m a 0 b = 0 := by
          simp only [store32]
          split_ifs <;> first | rfl | omega
        cases count with
        | zero => simpa only [fillDown] using hStore
        | succ count =>
            rw [fillDown_outside _ _ _ _ (by omega) (by omega)]
            exact hStore
      · exact ih _ _ (by omega) (by omega) (by omega)

/-- `count` words of value `v`, stored at `a` and above. -/
def fillUp (m : Memory) (v : BitVec 32) : Nat → Nat → Memory
  | _, 0 => m
  | a, count + 1 => fillUp (store32 m a v) v (a + 4) count

/-- A filling upwards touches its own words only. -/
theorem load32_fillUp_outside (m : Memory) (v : BitVec 32) (a count : Nat) {b : Nat}
    (h : b + 4 ≤ a ∨ a + 4 * count ≤ b) : load32 (fillUp m v a count) b = load32 m b := by
  induction count generalizing m a with
  | zero => rfl
  | succ count ih =>
      rw [fillUp, ih _ _ (by omega)]
      exact load32_store32_of_disjoint _ _ (by omega)

/-- Each word of the region has the value that it was filled with. -/
theorem load32_fillUp (m : Memory) (v : BitVec 32) (a count : Nat) {k : Nat} (hk : k < count) :
    load32 (fillUp m v a count) (a + 4 * k) = v := by
  induction count generalizing m a k with
  | zero => omega
  | succ count ih =>
      rw [fillUp]
      cases k with
      | zero => rw [load32_fillUp_outside _ _ _ _ (by omega), Nat.mul_zero, Nat.add_zero,
          load32_store32_same]
      | succ k =>
          have hIndex : a + 4 * (k + 1) = a + 4 + 4 * k := by omega
          rw [hIndex]
          exact ih _ _ (by omega)

/-- `count` words copied upwards from `source` to `target`. -/
def copyUp (m : Memory) : Nat → Nat → Nat → Memory
  | _, _, 0 => m
  | source, target, count + 1 =>
      copyUp (store32 m target (load32 m source)) (source + 4) (target + 4) count

/-- A copy touches its target only. -/
theorem copyUp_outside (m : Memory) (source target count : Nat) {b : Nat}
    (h : b < target ∨ target + 4 * count ≤ b) : copyUp m source target count b = m b := by
  induction count generalizing m source target with
  | zero => rfl
  | succ count ih =>
      rw [copyUp, ih _ _ _ (by omega)]
      exact store32_outside m target _ (by omega)

/-- A copy to lower addresses may overlap its source: every word is read before
the words written reach it. -/
theorem copyUp_inside (m : Memory) (source target count : Nat)
    (hOrder : source + 4 * count ≤ target ∨ target ≤ source)
    {k : Nat} (hk : k < 4 * count) :
    copyUp m source target count (target + k) = m (source + k) := by
  induction count generalizing m source target k with
  | zero => omega
  | succ count ih =>
      rw [copyUp]
      by_cases hFirst : k < 4
      · rw [copyUp_outside _ _ _ _ (by omega)]
        rw [store32_byte _ _ _ hFirst, load32_byte _ _ hFirst]
      · obtain ⟨j, rfl⟩ : ∃ j, k = j + 4 := ⟨k - 4, by omega⟩
        have h := ih (store32 m target (load32 m source)) (source + 4) (target + 4)
          (by omega) (k := j) (by omega)
        have hTarget : target + (j + 4) = target + 4 + j := by omega
        have hSource : source + (j + 4) = source + 4 + j := by omega
        rw [hTarget, h, hSource]
        exact store32_outside m target _ (by omega)

/-- A half word, with its lower byte first. -/
def store16 (m : Memory) (a : Nat) (v : BitVec 16) : Memory := fun b =>
  if b = a then v.extractLsb' 0 8
  else if b = a + 1 then v.extractLsb' 8 8
  else m b

/-- A store touches its own two bytes only. -/
theorem store16_outside (m : Memory) (a : Nat) (v : BitVec 16) {b : Nat}
    (h : b < a ∨ a + 2 ≤ b) : store16 m a v b = m b := by
  unfold store16
  rw [if_neg (by omega), if_neg (by omega)]

theorem store16_byte (m : Memory) (a : Nat) (v : BitVec 16) {k : Nat} (hk : k < 2) :
    store16 m a v (a + k) = v.extractLsb' (8 * k) 8 := by
  have hBytes : k = 0 ∨ k = 1 := by omega
  rcases hBytes with rfl | rfl <;> simp [store16]

/-- `count` half words of value `v`, stored at `a` and above. -/
def fillUp16 (m : Memory) (v : BitVec 16) : Nat → Nat → Memory
  | _, 0 => m
  | a, count + 1 => fillUp16 (store16 m a v) v (a + 2) count

theorem fillUp16_outside (m : Memory) (v : BitVec 16) (a count : Nat) {b : Nat}
    (h : b < a ∨ a + 2 * count ≤ b) : fillUp16 m v a count b = m b := by
  induction count generalizing m a with
  | zero => rfl
  | succ count ih =>
      rw [fillUp16, ih _ _ (by omega)]
      exact store16_outside m a v (by omega)

/-- Each half word of the region has the value that it was filled with. -/
theorem fillUp16_byte (m : Memory) (v : BitVec 16) (a count : Nat) {i k : Nat} (hi : i < count)
    (hk : k < 2) : fillUp16 m v a count (a + 2 * i + k) = v.extractLsb' (8 * k) 8 := by
  induction count generalizing m a i with
  | zero => omega
  | succ count ih =>
      rw [fillUp16]
      cases i with
      | zero =>
          rw [fillUp16_outside _ _ _ _ (by omega), Nat.mul_zero, Nat.add_zero]
          exact store16_byte m a v hk
      | succ i =>
          rw [show a + 2 * (i + 1) + k = a + 2 + 2 * i + k by omega]
          exact ih _ _ (by omega)

/-- A half word, with its lower byte first. -/
def load16 (m : Memory) (a : Nat) : BitVec 16 := m (a + 1) ++ m a

theorem load16_byte (m : Memory) (a : Nat) {k : Nat} (hk : k < 2) :
    (load16 m a).extractLsb' (8 * k) 8 = m (a + k) := by
  have hBytes : k = 0 ∨ k = 1 := by omega
  apply BitVec.eq_of_getLsbD_eq
  intro i hi
  simp only [load16, BitVec.getLsbD_extractLsb', BitVec.getLsbD_append]
  rcases hBytes with rfl | rfl <;> simp [hi]

/-- `count` half words copied upwards from `source` to `target`. -/
def copyUp16 (m : Memory) : Nat → Nat → Nat → Memory
  | _, _, 0 => m
  | source, target, count + 1 =>
      copyUp16 (store16 m target (load16 m source)) (source + 2) (target + 2) count

/-- A copy touches its target only. -/
theorem copyUp16_outside (m : Memory) (source target count : Nat) {b : Nat}
    (h : b < target ∨ target + 2 * count ≤ b) : copyUp16 m source target count b = m b := by
  induction count generalizing m source target with
  | zero => rfl
  | succ count ih =>
      rw [copyUp16, ih _ _ _ (by omega)]
      exact store16_outside m target _ (by omega)

/-- The target gets the source as it was, when no half word is written before it is read. -/
theorem copyUp16_inside (m : Memory) (source target count : Nat)
    (hOrder : source + 2 * count ≤ target ∨ target ≤ source)
    {k : Nat} (hk : k < 2 * count) :
    copyUp16 m source target count (target + k) = m (source + k) := by
  induction count generalizing m source target k with
  | zero => omega
  | succ count ih =>
      rw [copyUp16]
      by_cases hFirst : k < 2
      · rw [copyUp16_outside _ _ _ _ (by omega)]
        rw [store16_byte _ _ _ hFirst, load16_byte _ _ hFirst]
      · obtain ⟨j, rfl⟩ : ∃ j, k = j + 2 := ⟨k - 2, by omega⟩
        have h := ih (store16 m target (load16 m source)) (source + 2) (target + 2)
          (by omega) (k := j) (by omega)
        have hTarget : target + (j + 2) = target + 2 + j := by omega
        have hSource : source + (j + 2) = source + 2 + j := by omega
        rw [hTarget, h, hSource]
        exact store16_outside m target _ (by omega)

attribute [irreducible] load32 store32 fillDown fillUp copyUp store16 fillUp16 copyUp16

end ByteMemory

import Mathlib.Logic.Function.Basic
import Mathlib.Tactic.Common

/-! A circular buffer as the list of the elements that wait in it. The buffer is
given by its slots and two indices; one slot always stays free, so that equal
indices mean an empty buffer. -/
namespace Ring

variable {α : Type} {capacity head tail : Nat} {slots : Nat → α} {x : α} {xs : List α}

/-- `xs` waits in `slots`, the oldest element at `tail`, and `head` is the next
slot to be filled. -/
structure Holds (capacity : Nat) (slots : Nat → α) (head tail : Nat) (xs : List α) : Prop where
  room : xs.length < capacity
  tail_lt : tail < capacity
  head_eq : head = (tail + xs.length) % capacity
  slot : ∀ i y, xs[i]? = some y → slots ((tail + i) % capacity) = y

/-- One turn past the end is the only one that occurs. -/
theorem wrap {n : Nat} (h : n < 2 * capacity) :
    n % capacity = if n < capacity then n else n - capacity := by
  split_ifs with hn
  · exact Nat.mod_eq_of_lt hn
  · rw [Nat.mod_eq_sub_mod (by omega), Nat.mod_eq_of_lt (by omega)]

theorem Holds.head_lt (h : Holds capacity slots head tail xs) : head < capacity := by
  have hRoom := h.room
  rw [h.head_eq]
  exact Nat.mod_lt _ (by omega)

/-- With both indices on one slot the ring is empty, whatever the slots hold. -/
theorem Holds.of_empty (slots : Nat → α) (h : tail < capacity) :
    Holds capacity slots tail tail [] where
  room := by simp only [List.length_nil]; omega
  tail_lt := h
  head_eq := by rw [List.length_nil, Nat.add_zero, Nat.mod_eq_of_lt h]
  slot := by simp

/-- The distance of the indices is the number of elements. -/
theorem Holds.length_eq (h : Holds capacity slots head tail xs) :
    (head + capacity - tail) % capacity = xs.length := by
  have hRoom := h.room
  have hTail := h.tail_lt
  have hHead := h.head_eq
  rw [wrap (by omega)] at hHead
  split_ifs at hHead with hTurn
  · rw [wrap (by omega)]
    split_ifs <;> omega
  · rw [wrap (by omega)]
    split_ifs <;> omega

/-- The ring is empty exactly when the indices meet. -/
theorem Holds.empty_iff (h : Holds capacity slots head tail xs) : head = tail ↔ xs = [] := by
  have hTail := h.tail_lt
  have hLength := h.length_eq
  have hHead := h.head_lt
  rw [wrap (by omega)] at hLength
  rw [← List.length_eq_zero_iff]
  split_ifs at hLength <;> omega

/-- A new element goes behind the others. -/
theorem Holds.put (h : Holds capacity slots head tail xs) (hRoom : xs.length + 1 < capacity) :
    Holds capacity (Function.update slots head x) ((head + 1) % capacity) tail (xs ++ [x]) where
  room := by simpa using hRoom
  tail_lt := h.tail_lt
  head_eq := by
    rw [h.head_eq, Nat.mod_add_mod, List.length_append, List.length_singleton, Nat.add_assoc]
  slot := by
    intro i y hGet
    have hTail := h.tail_lt
    have hHead := h.head_eq
    rw [List.getElem?_append] at hGet
    split_ifs at hGet with hOld
    · have hNe : (tail + i) % capacity ≠ head := by
        rw [hHead, wrap (by omega), wrap (by omega)]
        split_ifs <;> omega
      rw [Function.update_of_ne hNe]
      exact h.slot i y hGet
    · rw [List.getElem?_singleton] at hGet
      split_ifs at hGet with hLast
      have hIndex : i = xs.length := by omega
      rw [hIndex, ← hHead, Function.update_self]
      exact Option.some.inj hGet

/-- The oldest element is the one at `tail`. -/
theorem Holds.slot_tail (h : Holds capacity slots head tail (x :: xs)) : slots tail = x := by
  have hSlot := h.slot 0 x rfl
  rwa [Nat.add_zero, Nat.mod_eq_of_lt h.tail_lt] at hSlot

/-- The oldest element goes first. -/
theorem Holds.get (h : Holds capacity slots head tail (x :: xs)) :
    Holds capacity slots head ((tail + 1) % capacity) xs where
  room := by
    have hRoom := h.room
    rw [List.length_cons] at hRoom
    omega
  tail_lt := Nat.mod_lt _ (Nat.zero_lt_of_lt h.tail_lt)
  head_eq := by
    rw [h.head_eq, List.length_cons, Nat.mod_add_mod]
    congr 1
    omega
  slot := by
    intro i y hGet
    rw [Nat.mod_add_mod, show tail + 1 + i = tail + (i + 1) by omega]
    exact h.slot (i + 1) y (by simpa using hGet)

end Ring

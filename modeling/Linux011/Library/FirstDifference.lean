import Mathlib.Algebra.Order.Ring.Int
import Mathlib.Data.List.Lex
import Mathlib.Tactic.Common

/-! The first place where two lists differ. It decides their lexicographic order, and with a
terminator behind both there is one unless the lists are equal. -/
namespace FirstDifference

variable {α : Type*} [DecidableEq α]

/-- The first place where two lists differ: what they have there. -/
def firstDifference : List α → List α → Option (α × α)
  | x :: xs, y :: ys => if x = y then firstDifference xs ys else some (x, y)
  | _, _ => none

section

variable {a b l l' : List α} {x y z : α} {n : Nat}

theorem firstDifference_cons_self : firstDifference (x :: l) (x :: l') = firstDifference l l' := if_pos rfl

theorem firstDifference_cons_of_ne (h : x ≠ y) : firstDifference (x :: l) (y :: l') = some (x, y) := if_neg h

/-- The other way round it is the same place. -/
theorem firstDifference_swap (l l' : List α) :
    firstDifference l' l = (firstDifference l l').map Prod.swap := by
  induction l generalizing l' with
  | nil => cases l' <;> rfl
  | cons x l ih =>
      cases l' with
      | nil => rfl
      | cons y l' =>
          by_cases h : x = y
          · rw [h, firstDifference_cons_self, firstDifference_cons_self, ih]
          · rw [firstDifference_cons_of_ne h, firstDifference_cons_of_ne (Ne.symm h)]
            rfl

/-- What is before the first difference is the same in both. -/
theorem firstDifference_eq_some (h : firstDifference l l' = some (x, y)) :
    x ≠ y ∧ ∃ before rest rest', l = before ++ x :: rest ∧ l' = before ++ y :: rest' := by
  induction l generalizing l' with
  | nil => cases l' <;> cases h
  | cons u l ih =>
      cases l' with
      | nil => cases h
      | cons v l' =>
          by_cases hSame : u = v
          · rw [hSame, firstDifference_cons_self] at h
            obtain ⟨hNe, before, rest, rest', rfl, rfl⟩ := ih h
            exact ⟨hNe, v :: before, rest, rest', by rw [hSame]; rfl, rfl⟩
          · rw [firstDifference_cons_of_ne hSame] at h
            obtain ⟨rfl, rfl⟩ := Prod.mk.inj (Option.some.inj h)
            exact ⟨hSame, [], l, l', rfl, rfl⟩

/-- Lists of one length that differ nowhere are equal. -/
theorem eq_of_firstDifference (h : firstDifference l l' = none) (hLength : l.length = l'.length) : l = l' := by
  induction l generalizing l' with
  | nil => exact (List.eq_nil_of_length_eq_zero hLength.symm).symm
  | cons x l ih =>
      cases l' with
      | nil => cases hLength
      | cons y l' =>
          by_cases hSame : x = y
          · rw [hSame, firstDifference_cons_self] at h
            rw [hSame, ih h (Nat.succ.inj hLength)]
          · rw [firstDifference_cons_of_ne hSame] at h
            cases h

theorem firstDifference_self (l : List α) : firstDifference l l = none := by
  induction l with
  | nil => rfl
  | cons x l ih => rw [firstDifference_cons_self, ih]

theorem firstDifference_map {β : Type*} [DecidableEq β] {f : α → β} (hf : Function.Injective f) (l l' : List α) :
    firstDifference (l.map f) (l'.map f) = (firstDifference l l').map (Prod.map f f) := by
  induction l generalizing l' with
  | nil => cases l' <;> rfl
  | cons x l ih =>
      cases l' with
      | nil => rfl
      | cons y l' =>
          by_cases h : x = y
          · rw [h, List.map_cons, List.map_cons, firstDifference_cons_self, firstDifference_cons_self, ih]
          · rw [List.map_cons, List.map_cons, firstDifference_cons_of_ne h,
              firstDifference_cons_of_ne fun hEq => h (hf hEq)]
            rfl

/-- With a terminator no list is a proper prefix of another one. -/
theorem firstDifference_terminated (ha : z ∉ a) (hb : z ∉ b) :
    firstDifference (a ++ [z]) (b ++ [z]) = none ↔ a = b := by
  induction a generalizing b with
  | nil =>
      cases b with
      | nil => simp [firstDifference]
      | cons y b => simpa [firstDifference] using fun h : z = y => absurd (h ▸ List.mem_cons_self) hb
  | cons x a ih =>
      have hx : x ≠ z := fun h => ha (h ▸ List.mem_cons_self)
      cases b with
      | nil => simp [firstDifference, hx]
      | cons y b =>
          by_cases h : x = y
          · rw [h, List.cons_append, List.cons_append, firstDifference_cons_self,
              ih (fun hMem => ha (List.mem_cons_of_mem _ hMem)) fun hMem => hb (List.mem_cons_of_mem _ hMem)]
            simp
          · rw [List.cons_append, List.cons_append, firstDifference_cons_of_ne h]
            simp [h]

/-- Cut off behind the terminators, or before: it is the same difference. -/
theorem firstDifference_take (ha : z ∉ a) (hb : z ∉ b) (n : Nat) :
    firstDifference ((a ++ [z]).take n) ((b ++ [z]).take n) =
      firstDifference (a.take n ++ [z]) (b.take n ++ [z]) := by
  induction n generalizing a b with
  | zero => simp [firstDifference]
  | succ n ih =>
      cases a with
      | nil =>
          cases b with
          | nil => simp
          | cons y b =>
              have hy : z ≠ y := fun h => hb (h ▸ List.mem_cons_self)
              simp [firstDifference, hy]
      | cons x a =>
          have hx : x ≠ z := fun h => ha (h ▸ List.mem_cons_self)
          cases b with
          | nil => simp [firstDifference, hx]
          | cons y b =>
              simp only [List.cons_append, List.take_succ_cons, firstDifference]
              rw [ih (fun hMem => ha (List.mem_cons_of_mem _ hMem)) fun hMem => hb (List.mem_cons_of_mem _ hMem)]

theorem firstDifference_of_take (ha : z ∉ a) (hb : z ∉ b)
    (h : firstDifference (a.take n ++ [z]) (b.take n ++ [z]) = some (x, y)) :
    firstDifference (a ++ [z]) (b ++ [z]) = some (x, y) := by
  rw [← firstDifference_take ha hb] at h
  generalize a ++ [z] = l at h
  generalize b ++ [z] = l' at h
  induction n generalizing l l' with
  | zero => cases h
  | succ n ih =>
      cases l with
      | nil => cases l' <;> cases h
      | cons u l =>
          cases l' with
          | nil => cases h
          | cons v l' =>
              rw [List.take_succ_cons, List.take_succ_cons] at h
              by_cases hSame : u = v
              · rw [hSame, firstDifference_cons_self] at h ⊢
                exact ih l l' h
              · rwa [firstDifference_cons_of_ne hSame] at h ⊢

/-- What is no prefix differs somewhere, if only from the terminator. -/
theorem exists_difference_of_not_prefix (hb : z ∉ b) (h : ¬b <+: a) :
    ∃ before x y rest rest', a ++ [z] = before ++ x :: rest ∧ b = before ++ y :: rest' ∧ x ≠ y := by
  induction b generalizing a with
  | nil => exact absurd List.nil_prefix h
  | cons y b ih =>
      cases a with
      | nil => exact ⟨[], z, y, [], b, rfl, rfl, fun hEq => hb (hEq ▸ List.mem_cons_self)⟩
      | cons x a =>
          by_cases hSame : x = y
          · have hRest : ¬b <+: a := fun hPrefix => h (by rw [hSame]; exact List.cons_prefix_cons.mpr ⟨rfl, hPrefix⟩)
            obtain ⟨before, u, v, rest, rest', hA, rfl, hNe⟩ := ih (fun hMem => hb (List.mem_cons_of_mem _ hMem)) hRest
            exact ⟨y :: before, u, v, rest, rest', by rw [List.cons_append, hA, hSame]; rfl, rfl, hNe⟩
          · exact ⟨[], x, y, a ++ [z], b, rfl, rfl, hSame⟩

end

section

variable [LT α] {a b l l' : List α} {x y z : α}

/-- The first difference decides the order. -/
theorem lt_iff_of_difference (hIrrefl : ∀ x : α, ¬x < x) (h : firstDifference l l' = some (x, y)) :
    l < l' ↔ x < y := by
  obtain ⟨hNe, before, rest, rest', rfl, rfl⟩ := firstDifference_eq_some h
  clear h
  induction before with
  | nil => simp [List.cons_lt_cons_iff, hNe]
  | cons u before ih => simpa [List.cons_lt_cons_iff, hIrrefl] using ih

omit [DecidableEq α] in

/-- The terminator is below everything else. -/
theorem terminated_lt_iff (hIrrefl : ∀ x : α, ¬x < x) (hLeast : ∀ x, x ≠ z → z < x ∧ ¬x < z) (ha : z ∉ a)
    (hb : z ∉ b) : a ++ [z] < b ++ [z] ↔ a < b := by
  induction a generalizing b with
  | nil =>
      cases b with
      | nil => simp [List.cons_lt_cons_iff, hIrrefl]
      | cons y b =>
          have hy : y ≠ z := fun h => hb (h ▸ List.mem_cons_self)
          simp [List.cons_lt_cons_iff, (hLeast y hy).1]
  | cons x a ih =>
      have hx : x ≠ z := fun h => ha (h ▸ List.mem_cons_self)
      cases b with
      | nil => simp [List.cons_lt_cons_iff, (hLeast x hx).2, hx]
      | cons y b =>
          rw [List.cons_append, List.cons_append, List.cons_lt_cons_iff, List.cons_lt_cons_iff,
            ih (fun hMem => ha (List.mem_cons_of_mem _ hMem)) fun hMem => hb (List.mem_cons_of_mem _ hMem)]

end

end FirstDifference

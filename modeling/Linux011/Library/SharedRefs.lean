import Mathlib.Data.Fintype.Card
import Mathlib.Data.Finset.Card
import Mathlib.Data.Fintype.Sum
import Mathlib.Tactic.Common

/-! Reference counting and copy-on-write permissions over an arbitrary set of
references. A reference names at most one object; a counter is exact when it
equals a fixed base plus the number of references that name the object. The
rules follow one reference at a time. -/
namespace SharedRefs

variable {Ref Obj : Type*}

section Counting

variable [Fintype Ref] [DecidableEq Obj]

def holders (refs : Ref → Option Obj) (o : Obj) : Finset Ref :=
  Finset.univ.filter fun r => refs r = some o

def count (refs : Ref → Option Obj) (o : Obj) : Nat := (holders refs o).card

@[simp] theorem mem_holders {refs : Ref → Option Obj} {o : Obj} {r : Ref} :
    r ∈ holders refs o ↔ refs r = some o := by
  simp [holders]

theorem count_eq_card {refs : Ref → Option Obj} {o : Obj} {p : Ref → Prop} [DecidablePred p]
    (h : ∀ r, refs r = some o ↔ p r) : count refs o = (Finset.univ.filter p).card :=
  congrArg Finset.card (Finset.filter_congr fun r _ => h r)

theorem count_pos {refs : Ref → Option Obj} {o : Obj} {r : Ref} (h : refs r = some o) :
    0 < count refs o :=
  Finset.card_pos.mpr ⟨r, mem_holders.mpr h⟩

theorem count_eq_zero {refs : Ref → Option Obj} {o : Obj} (h : ∀ r, refs r ≠ some o) :
    count refs o = 0 :=
  Finset.card_eq_zero.mpr (Finset.filter_eq_empty_iff.mpr fun r _ => h r)

theorem eq_of_count_le_one {refs : Ref → Option Obj} {o : Obj} (h : count refs o ≤ 1)
    {r r' : Ref} (hr : refs r = some o) (hr' : refs r' = some o) : r' = r :=
  Finset.card_le_one.mp h r' (mem_holders.mpr hr') r (mem_holders.mpr hr)

/-- Only the old and the new object of `r` see their count move. -/
theorem count_update [DecidableEq Ref] (refs : Ref → Option Obj) (r : Ref) (new : Option Obj)
    (o : Obj) :
    count (Function.update refs r new) o + (if refs r = some o then 1 else 0) =
      count refs o + (if new = some o then 1 else 0) := by
  have hCard (s : Finset Ref) : s.card = (s.erase r).card + if r ∈ s then 1 else 0 := by
    split_ifs with h
    · exact (Finset.card_erase_add_one h).symm
    · rw [Finset.erase_eq_of_notMem h, Nat.add_zero]
  have hErase : (holders (Function.update refs r new) o).erase r = (holders refs o).erase r := by
    ext x
    by_cases hx : x = r
    · simp [hx]
    · simp [hx]
  unfold count
  rw [hCard (holders (Function.update refs r new) o), hCard (holders refs o), hErase]
  simp only [mem_holders, Function.update_self]
  omega

/-- Counting does not depend on how references are named. -/
theorem count_equiv {Ref' : Type*} [Fintype Ref'] (e : Ref' ≃ Ref) (refs : Ref → Option Obj) (o : Obj) :
    count (fun r => refs (e r)) o = count refs o :=
  Finset.card_equiv e fun r => by simp

/-- Two kinds of references count separately. -/
theorem count_sum {Ref' : Type*} [Fintype Ref'] (refs : Ref ⊕ Ref' → Option Obj) (o : Obj) :
    count refs o = count (fun r => refs (.inl r)) o + count (fun r => refs (.inr r)) o := by
  have hLeft : (holders refs o).toLeft = holders (fun r => refs (.inl r)) o := by
    ext r
    simp
  have hRight : (holders refs o).toRight = holders (fun r => refs (.inr r)) o := by
    ext r
    simp
  rw [count, ← Finset.card_toLeft_add_card_toRight, hLeft, hRight, count, count]

/-- With at most one holder, counting is asking. -/
theorem count_of_unique {refs : Ref → Option Obj} {o : Obj}
    (h : ∀ r r', refs r = some o → refs r' = some o → r = r') [Decidable (∃ r, refs r = some o)] :
    count refs o = if ∃ r, refs r = some o then 1 else 0 := by
  split_ifs with hHeld
  · obtain ⟨r, hr⟩ := hHeld
    refine Nat.le_antisymm (Finset.card_le_one.mpr fun a ha b hb => ?_) (count_pos hr)
    exact h a b (mem_holders.mp ha) (mem_holders.mp hb)
  · exact count_eq_zero fun r hr => hHeld ⟨r, hr⟩

/-- No owner holds an object twice, so the count is at most the number of
owners. -/
theorem count_le_card {Owner : Type*} [Fintype Owner] (owner : Ref → Owner)
    {refs : Ref → Option Obj} {o : Obj}
    (h : ∀ r r', refs r = some o → refs r' = some o → owner r = owner r' → r = r') :
    count refs o ≤ Fintype.card Owner := by
  classical
  rw [count, ← Finset.card_univ]
  apply Finset.card_le_card_of_injOn owner (fun _ _ => Finset.mem_coe.mpr (Finset.mem_univ _))
  intro r hr r' hr' he
  exact h r r' (mem_holders.mp hr) (mem_holders.mp hr') he

/-- The counter of `o` is its base plus the references that name it. -/
def Exact (base counter : Obj → Nat) (refs : Ref → Option Obj) (o : Obj) : Prop :=
  counter o = base o + count refs o

theorem Exact.pos {base counter : Obj → Nat} {refs : Ref → Option Obj} {o : Obj} {r : Ref}
    (h : Exact base counter refs o) (hr : refs r = some o) : 0 < counter o := by
  have hCount := count_pos hr
  unfold Exact at h
  omega

theorem Exact.not_held {base counter : Obj → Nat} {refs : Ref → Option Obj} {o : Obj}
    (h : Exact base counter refs o) (hZero : counter o = 0) (r : Ref) : refs r ≠ some o := by
  intro hr
  have hPos := h.pos hr
  omega

/-- A counter of one leaves no room for a second reference. -/
theorem Exact.sole {base counter : Obj → Nat} {refs : Ref → Option Obj} {o : Obj} {r : Ref}
    (h : Exact base counter refs o) (hOne : counter o = 1) (hr : refs r = some o) :
    ∀ r', refs r' = some o → r' = r := by
  intro r' hr'
  have hCount := count_pos hr
  unfold Exact at h
  exact eq_of_count_le_one (by omega) hr hr'

/-- One reference changes its object: the counters must follow. -/
theorem Exact.update [DecidableEq Ref] {base counter counter' : Obj → Nat}
    {refs : Ref → Option Obj} {o : Obj} (h : Exact base counter refs o) (r : Ref)
    (new : Option Obj)
    (hCounter : counter' o + (if refs r = some o then 1 else 0) =
      counter o + (if new = some o then 1 else 0)) :
    Exact base counter' (Function.update refs r new) o := by
  have hCount := count_update refs r new o
  unfold Exact at h ⊢
  omega

end Counting

/-- A writable reference shares its object with no other reference in
`scope`. -/
def Exclusive (refs : Ref → Option Obj) (writable scope : Ref → Prop) : Prop :=
  ∀ r o, refs r = some o → writable r → ∀ r', scope r' → refs r' = some o → r' = r

variable {refs refs' : Ref → Option Obj} {writable writable' scope : Ref → Prop}

/-- Every later reference descends from an earlier one to the same object; a
reference that is still writable was so before and has no other descendant. -/
theorem Exclusive.descend (h : Exclusive refs writable scope) (source : Ref → Ref)
    (hSource : ∀ r o, scope r → refs' r = some o → scope (source r) ∧ refs (source r) = some o)
    (hKeep : ∀ r o, refs' r = some o → writable' r →
      refs r = some o ∧ writable r ∧ ∀ r', scope r' → refs' r' = some o → source r' = r → r' = r) :
    Exclusive refs' writable' scope := by
  intro r o hr hw r' hs hr'
  obtain ⟨hOld, hWritable, hOnly⟩ := hKeep r o hr hw
  obtain ⟨hScope, hFrom⟩ := hSource r' o hs hr'
  exact hOnly r' hs hr' (h r o hOld hWritable (source r') hScope hFrom)

/-- One reference changes its object and any permission: a writable new
reference needs an object that nothing else in scope names, and a new
reference in scope an object that nothing else may write. -/
theorem Exclusive.update [DecidableEq Ref] (h : Exclusive refs writable scope) (r : Ref)
    (new : Option Obj) (hOthers : ∀ r', r' ≠ r → writable' r' → writable r')
    (hSelf : writable' r → ∀ o, new = some o → ∀ r', scope r' → r' ≠ r → refs r' ≠ some o)
    (hShared : scope r → ∀ o, new = some o → ∀ r', r' ≠ r → writable' r' → refs r' ≠ some o) :
    Exclusive (Function.update refs r new) writable' scope := by
  intro a o ha hw b hs hb
  by_contra hne
  by_cases har : a = r
  · subst a
    rw [Function.update_self] at ha
    rw [Function.update_of_ne hne] at hb
    exact hSelf hw o ha b hs hne hb
  · rw [Function.update_of_ne har] at ha
    by_cases hbr : b = r
    · subst b
      rw [Function.update_self] at hb
      exact hShared hs o hb a har hw ha
    · rw [Function.update_of_ne hbr] at hb
      exact hne (h a o ha (hOthers a har hw) b hs hb)

end SharedRefs

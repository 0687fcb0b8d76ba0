import Linux011.Library.SharedRefs
import Linux011.Mm.Tables
import Mathlib.Data.Fintype.Sigma
import Mathlib.Data.Fintype.Sum
import Mathlib.Tactic.DeriveFintype

/-! The references that `mem_map` counts: page-table entries, page tables and
task structures. Which directory entries take part is a parameter. -/
namespace Linux011

open ByteMemory SharedRefs

inductive PageRef where
  | entry (d n : Fin 1024)
  | table (d : Fin 1024)
  | task (slot : Fin 64)
  deriving DecidableEq, Fintype

/-- The byte of `mem_map` that counts a page, if the page is managed. -/
def managed (page : BitVec 32) : Option Nat :=
  if lowMem ≤ page then some (mapNr page) else none

/-- The count that a page has in `mem_map`, if it has one. -/
theorem managed_eq_some {page : BitVec 32} {i : Nat} :
    managed page = some i ↔ lowMem ≤ page ∧ mapNr page = i := by
  unfold managed
  split_ifs with h <;> simp [h]

theorem managed_of_le {page : BitVec 32} (h : lowMem ≤ page) : managed page = some (mapNr page) :=
  if_pos h

theorem managed_of_lt {page : BitVec 32} (h : page < lowMem) : managed page = none :=
  if_neg (BitVec.not_le.mpr h)

theorem managed_pageAddr {i : Nat} (h : i < pagingPages) : managed (pageAddr i) = some i := by
  rw [managed_of_le (lowMem_le_pageAddr h), mapNr_pageAddr h]

/-- Count one more reference to a page, if it is managed. -/
def Mm.retain (mm : Mm) (page : BitVec 32) : Mm :=
  if lowMem ≤ page then mm.incr (mapNr page) else mm

/-- Count one reference less. -/
def Mm.release (mm : Mm) (page : BitVec 32) : Mm :=
  if lowMem ≤ page then mm.decr (mapNr page) else mm

section Counts

variable {mm : Mm} {page : BitVec 32}

@[simp] theorem Mm.retain_mem : (mm.retain page).mem = mm.mem := by
  unfold Mm.retain
  split_ifs <;> rfl

@[simp] theorem Mm.release_mem : (mm.release page).mem = mm.mem := by
  unfold Mm.release
  split_ifs <;> rfl

@[simp] theorem Mm.retain_highMemory : (mm.retain page).highMemory = mm.highMemory := by
  unfold Mm.retain
  split_ifs <;> rfl

@[simp] theorem Mm.release_highMemory : (mm.release page).highMemory = mm.highMemory := by
  unfold Mm.release
  split_ifs <;> rfl

/-- One more reference. -/
theorem Mm.retain_count (h : lowMem ≤ page → (mm.memMap (mapNr page)).toNat < 255) (j : Nat) :
    ((mm.retain page).memMap j).toNat = (mm.memMap j).toNat + if managed page = some j then 1 else 0 := by
  unfold Mm.retain
  by_cases hLow : lowMem ≤ page
  · have hLt := h hLow
    rw [if_pos hLow, managed_of_le hLow, Mm.incr]
    by_cases hj : j = mapNr page
    · subst j
      simp only [Function.update_self, BitVec.toNat_add, BitVec.toNat_ofNat, if_true]
      omega
    · simp [Function.update_of_ne hj, Ne.symm hj]
  · rw [if_neg hLow, managed_of_lt (BitVec.not_le.mp hLow)]
    simp

theorem Mm.retain_wrapped (h : lowMem ≤ page → (mm.memMap (mapNr page)).toNat < 255) :
    (mm.retain page).wrapped = mm.wrapped := by
  unfold Mm.retain
  split_ifs with hLow
  · have hLt := h hLow
    have hne : (mm.memMap (mapNr page) == 255#8) = false := by
      rw [beq_eq_false_iff_ne]
      intro he
      rw [he] at hLt
      simp at hLt
    simp only [Mm.incr, hne, Bool.or_false]
  · rfl

/-- One reference less. -/
theorem Mm.release_count (h : lowMem ≤ page → mm.memMap (mapNr page) ≠ 0#8) (j : Nat) :
    ((mm.release page).memMap j).toNat + (if managed page = some j then 1 else 0) =
      (mm.memMap j).toNat := by
  unfold Mm.release
  by_cases hLow : lowMem ≤ page
  · have hne := h hLow
    rw [if_pos hLow, managed_of_le hLow, Mm.decr]
    by_cases hj : j = mapNr page
    · subst j
      have hPos : 1 ≤ (mm.memMap (mapNr page)).toNat := by
        by_contra hZero
        exact hne (BitVec.eq_of_toNat_eq (by rw [BitVec.toNat_ofNat]; omega))
      simp only [Function.update_self, if_true]
      rw [BitVec.toNat_sub_of_le (by rw [BitVec.le_def]; exact hPos)]
      simp only [BitVec.toNat_ofNat]
      omega
    · simp [Function.update_of_ne hj, Ne.symm hj]
  · rw [if_neg hLow, managed_of_lt (BitVec.not_le.mp hLow)]
    simp

theorem Mm.release_wrapped (h : lowMem ≤ page → mm.memMap (mapNr page) ≠ 0#8) :
    (mm.release page).wrapped = mm.wrapped := by
  unfold Mm.release
  split_ifs with hLow
  · have hne : (mm.memMap (mapNr page) == 0#8) = false := beq_eq_false_iff_ne.mpr (h hLow)
    simp only [Mm.decr, hne, Bool.or_false]
  · rfl

/-- `free_page` on a page in use: nothing to do for a page below `lowMem`, a
panic at or above `HIGH_MEMORY`. -/
theorem freePage_eq (hHigh : page < lowMem ∨ page < mm.highMemory)
    (hUsed : lowMem ≤ page → mm.memMap (mapNr page) ≠ 0#8) :
    freePage mm page = .ok (mm.release page) := by
  unfold Mm.release
  by_cases hLow : lowMem ≤ page
  · rw [if_pos hLow]
    exact freePage_managed hLow (hHigh.resolve_left (BitVec.not_lt.mpr hLow)) (hUsed hLow)
  · rw [if_neg hLow]
    exact freePage_low (BitVec.not_le.mp hLow)

/-- A page that is taken has its first reference. -/
theorem Mm.takePage_count {i : Nat} (h : mm.memMap i = 0#8) (j : Nat) :
    ((mm.takePage i).memMap j).toNat = (mm.memMap j).toNat + if some i = some j then 1 else 0 := by
  by_cases hj : j = i
  · subst j
    simp [h]
  · simp [Function.update_of_ne hj, Ne.symm hj]

end Counts

theorem sameTables_of_mem {mm mm' : Mm} (h : mm'.mem = mm.mem) : SameTables mm mm' := by
  constructor
  · intro d _
    rw [Mm.pde, Mm.pde, Mm.load, Mm.load, h]
  · intro d _ _ n _
    rw [Mm.pte, Mm.pte, Mm.table, Mm.table, Mm.pde, Mm.pde, Mm.load, Mm.load, Mm.load, Mm.load, h]

open Classical in

/-- What each reference names: an entry or a table under a directory entry in
`scope`, or the task structure of a slot other than 0. -/
noncomputable def pageRefs (scope : Nat → Prop) (task : Nat → BitVec 32) (mm : Mm) :
    PageRef → Option Nat
  | .entry d n => if scope d ∧ mm.Maps d n (mm.pte d n) then managed (frame (mm.pte d n)) else none
  | .table d => if scope d ∧ Present (mm.pde d) then managed (mm.table d) else none
  | .task slot => if slot ≠ 0 ∧ task slot ≠ 0#32 then managed (task slot) else none

section Refs

variable {scope : Nat → Prop} {task : Nat → BitVec 32} {mm mm' : Mm} {d n : Fin 1024} {i : Nat}

/-- An entry refers to the page that it names. -/
theorem pageRefs_entry :
    pageRefs scope task mm (.entry d n) = some i ↔
      scope d ∧ ∃ e, mm.Maps d n e ∧ managed (frame e) = some i := by
  rw [pageRefs]
  split_ifs with h
  · constructor
    · intro hi
      exact ⟨h.1, _, h.2, hi⟩
    · rintro ⟨_, e, hMaps, hi⟩
      rw [hMaps.entry]
      exact hi
  · refine iff_of_false (by simp) ?_
    rintro ⟨hScope, e, hMaps, _⟩
    exact h ⟨hScope, by rw [hMaps.entry]; exact hMaps⟩

/-- A directory entry refers to its page table. -/
theorem pageRefs_table :
    pageRefs scope task mm (.table d) = some i ↔
      scope d ∧ Present (mm.pde d) ∧ managed (mm.table d) = some i := by
  rw [pageRefs]
  split_ifs with h
  · simp [h.1, h.2]
  · refine iff_of_false (by simp) ?_
    exact fun h' => h ⟨h'.1, h'.2.1⟩

/-- A slot refers to its task structure. -/
theorem pageRefs_task {slot : Fin 64} :
    pageRefs scope task mm (.task slot) = some i ↔
      slot ≠ 0 ∧ task slot ≠ 0#32 ∧ managed (task slot) = some i := by
  rw [pageRefs]
  split_ifs with h
  · simp [h.1, h.2]
  · refine iff_of_false (by simp) ?_
    exact fun h' => h ⟨h'.1, h'.2.1⟩

/-- Equal entries, up to bits that change neither presence nor the frame. -/
theorem pageRefs_congr (hDir : ∀ d < 1024, mm'.pde d = mm.pde d)
    (hMaps : ∀ d n i, scope d → ((∃ e, mm'.Maps d n e ∧ managed (frame e) = some i) ↔
      ∃ e, mm.Maps d n e ∧ managed (frame e) = some i)) :
    pageRefs scope task mm' = pageRefs scope task mm := by
  funext r
  apply Option.ext
  intro i
  cases r with
  | entry d n =>
      rw [pageRefs_entry, pageRefs_entry]
      exact and_congr_right fun hScope => hMaps d n i hScope
  | table d =>
      rw [pageRefs_table, pageRefs_table, Mm.table, Mm.table, hDir d d.isLt]
  | task slot => rw [pageRefs_task, pageRefs_task]

theorem pageRefs_sameTables (h : SameTables mm mm') :
    pageRefs scope task mm' = pageRefs scope task mm :=
  pageRefs_congr h.pde fun _ _ _ _ => by simp only [h.maps]

/-- One entry in scope is overwritten. -/
theorem pageRefs_setPte (hPaged : Paged mm) (hScope : scope d) (hPresent : Present (mm.pde d))
    (v : BitVec 32) :
    pageRefs scope task (mm.setPte d n v) =
      Function.update (pageRefs scope task mm) (.entry d n)
        (if Present v then managed (frame v) else none) := by
  funext r
  apply Option.ext
  intro i
  cases r with
  | entry d' n' =>
      rw [pageRefs_entry]
      simp only [hPaged.maps_setPte d.isLt hPresent n.isLt]
      by_cases hSame : d' = d ∧ n' = n
      · obtain ⟨rfl, rfl⟩ := hSame
        rw [Function.update_self]
        split_ifs with hv <;> simp [hScope, hv]
      · have hVal : ¬((d' : Nat) = d ∧ (n' : Nat) = n) := fun h => hSame ⟨Fin.ext h.1, Fin.ext h.2⟩
        rw [Function.update_of_ne (by simpa using hSame), pageRefs_entry]
        have hDrop (e : BitVec 32) : ((d' : Nat) = d ∧ (n' : Nat) = n ∧ e = v ∧ Present v) ↔ False :=
          iff_of_false (fun h => hVal ⟨h.1, h.2.1⟩) id
        simp only [hDrop, hVal, not_false_eq_true, true_and, false_or]
  | table d' =>
      rw [Function.update_of_ne (by simp), pageRefs_table, pageRefs_table,
        hPaged.pde_setPte d.isLt hPresent d'.isLt, hPaged.table_setPte d.isLt hPresent d'.isLt]
  | task slot =>
      rw [Function.update_of_ne (by simp), pageRefs_task, pageRefs_task]

/-- An entry out of scope is overwritten. -/
theorem pageRefs_setPte_outside (hPaged : Paged mm) (hScope : ¬scope d) (hPresent : Present (mm.pde d))
    (v : BitVec 32) : pageRefs scope task (mm.setPte d n v) = pageRefs scope task mm := by
  apply pageRefs_congr
  · intro d' hd'
    exact hPaged.pde_setPte d.isLt hPresent hd'
  · intro d' n' i hScope'
    have hne : d' ≠ d := by
      rintro rfl
      exact hScope hScope'
    simp only [hPaged.maps_setPte d.isLt hPresent n.isLt, hne, false_and, not_false_eq_true, true_and,
      false_or]

/-- One slot of the task table changes. -/
theorem pageRefs_task_update {slot : Fin 64} (hSlot : slot ≠ 0) (p : BitVec 32) :
    pageRefs scope (Function.update task slot p) mm =
      Function.update (pageRefs scope task mm) (.task slot) (if p ≠ 0#32 then managed p else none) := by
  funext r
  apply Option.ext
  intro i
  cases r with
  | entry d n => rw [Function.update_of_ne (by simp), pageRefs_entry, pageRefs_entry]
  | table d => rw [Function.update_of_ne (by simp), pageRefs_table, pageRefs_table]
  | task slot' =>
      rw [pageRefs_task]
      by_cases hSame : slot' = slot
      · subst slot'
        rw [Function.update_self, Function.update_self]
        split_ifs with hp <;> simp [hSlot, hp]
      · have hVal : (slot' : Nat) ≠ slot := fun h => hSame (Fin.ext h)
        rw [Function.update_of_ne hVal, Function.update_of_ne (by simpa using hSame), pageRefs_task]

/-- A directory entry changes while the table under it, before and after, has
no present entry. -/
theorem pageRefs_setPde (hPaged : Paged mm) (hScope : scope d) (v : BitVec 32)
    (hBefore : ∀ n e, ¬mm.Maps d n e) (hAfter : ∀ n e, ¬(mm.setPde d v).Maps d n e) :
    pageRefs scope task (mm.setPde d v) =
      Function.update (pageRefs scope task mm) (.table d)
        (if Present v then managed (frame v) else none) := by
  funext r
  apply Option.ext
  intro i
  cases r with
  | entry d' n' =>
      rw [Function.update_of_ne (by simp), pageRefs_entry, pageRefs_entry]
      by_cases hSame : d' = d
      · subst d'
        simp only [hBefore, hAfter]
      · have hVal : (d' : Nat) ≠ d := fun h => hSame (Fin.ext h)
        simp only [hPaged.maps_setPde_of_ne d.isLt hVal]
  | table d' =>
      rw [pageRefs_table, Mm.table, Mm.pde_setPde d'.isLt]
      by_cases hSame : d' = d
      · subst d'
        rw [Function.update_self]
        simp only [if_true]
        split_ifs with hv <;> simp [hScope, hv]
      · have hVal : (d' : Nat) ≠ d := fun h => hSame (Fin.ext h)
        rw [Function.update_of_ne (by simpa using hSame), pageRefs_table, if_neg hVal, Mm.table]
  | task slot =>
      rw [Function.update_of_ne (by simp), pageRefs_task, pageRefs_task]

end Refs

end Linux011

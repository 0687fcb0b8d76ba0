import Linux011.Mm.Memory

/-! The page directory and the page tables as the memory management unit reads
them: directory entry `d` at physical address `4 * d`, entry `n` of its table
at the frame that directory entry names. -/
namespace Linux011

open ByteMemory

/-- Entry `d` of the page directory, which lies at 0. -/
def Mm.pde (mm : Mm) (d : Nat) : BitVec 32 := mm.load (4 * d)

/-- The page table under it. -/
def Mm.table (mm : Mm) (d : Nat) : BitVec 32 := frame (mm.pde d)

/-- Entry `n` of that table. -/
def Mm.pte (mm : Mm) (d n : Nat) : BitVec 32 := mm.load ((mm.table d).toNat + 4 * n)

/-- `e` is a present entry, reached through a present directory entry. -/
structure Mm.Maps (mm : Mm) (d n : Nat) (e : BitVec 32) : Prop where
  dir : d < 1024
  index : n < 1024
  table : Present (mm.pde d)
  entry : mm.pte d n = e
  present : Present e

/-- No two directory entries share a table, no table lies in the directory's
own frame, and the mask `0xfffff00` of the C code finds every table. -/
structure Paged (mm : Mm) : Prop where
  range : ∀ d < 1024, Present (mm.pde d) → 4096 ≤ (mm.table d).toNat
  distinct : ∀ d < 1024, ∀ d' < 1024, Present (mm.pde d) → Present (mm.pde d') →
    mm.table d = mm.table d' → d = d'
  mask : ∀ d < 1024, Present (mm.pde d) → 0xfffff00#32 &&& mm.pde d = mm.table d

theorem Mm.Maps.unique {mm : Mm} {d n : Nat} {e e' : BitVec 32} (h : mm.Maps d n e)
    (h' : mm.Maps d n e') : e = e' :=
  h.entry.symm.trans h'.entry

theorem Mm.table_mod (mm : Mm) (d : Nat) : (mm.table d).toNat % 4096 = 0 := frame_mod _

/-- The layout is a matter of the directory alone. -/
theorem Paged.congr {mm mm' : Mm} (h : Paged mm) (hDir : ∀ d < 1024, mm'.pde d = mm.pde d) :
    Paged mm' where
  range := by
    intro d hd hPresent
    rw [Mm.table, hDir d hd] at *
    exact h.range d hd hPresent
  distinct := by
    intro d hd d' hd' hPresent hPresent' he
    rw [Mm.table, Mm.table, hDir d hd, hDir d' hd'] at he
    rw [hDir d hd] at hPresent
    rw [hDir d' hd'] at hPresent'
    exact h.distinct d hd d' hd' hPresent hPresent' he
  mask := by
    intro d hd hPresent
    rw [Mm.table, hDir d hd] at *
    exact h.mask d hd hPresent

theorem Mm.pde_congr {mm mm' : Mm} {d : Nat} (h : ∀ a, a < 4 * d + 4 → mm'.mem a = mm.mem a) :
    mm'.pde d = mm.pde d :=
  load32_congr fun b _ hb' => h b hb'

/-- Memory is equal on the directory and on the table under `d`. -/
theorem Mm.pte_congr {mm mm' : Mm} {d n : Nat} (hDir : mm'.pde d = mm.pde d) (hn : n < 1024)
    (h : ∀ a, (mm.table d).toNat ≤ a → a < (mm.table d).toNat + 4096 → mm'.mem a = mm.mem a) :
    mm'.pte d n = mm.pte d n := by
  rw [Mm.pte, Mm.pte, Mm.table, Mm.table, hDir]
  exact load32_congr fun b hb hb' => h b (by change (mm.table d).toNat + _ ≤ b at hb; omega)
    (by change b < (mm.table d).toNat + _ + _ at hb'; omega)

/-- `*pg_table = v` for entry `n` of the table under `d`. -/
def Mm.setPte (mm : Mm) (d n : Nat) (v : BitVec 32) : Mm := mm.store ((mm.table d).toNat + 4 * n) v

/-- `*dir = v` for directory entry `d`. -/
def Mm.setPde (mm : Mm) (d : Nat) (v : BitVec 32) : Mm := mm.store (4 * d) v

section Fields

variable (mm : Mm) (d n : Nat) (v : BitVec 32)

@[simp] theorem Mm.setPte_memMap : (mm.setPte d n v).memMap = mm.memMap := rfl
@[simp] theorem Mm.setPte_highMemory : (mm.setPte d n v).highMemory = mm.highMemory := rfl
@[simp] theorem Mm.setPte_wrapped : (mm.setPte d n v).wrapped = mm.wrapped := rfl
@[simp] theorem Mm.setPde_memMap : (mm.setPde d v).memMap = mm.memMap := rfl
@[simp] theorem Mm.setPde_highMemory : (mm.setPde d v).highMemory = mm.highMemory := rfl
@[simp] theorem Mm.setPde_wrapped : (mm.setPde d v).wrapped = mm.wrapped := rfl
@[simp] theorem Mm.incr_pde (i : Nat) : (mm.incr i).pde d = mm.pde d := rfl
@[simp] theorem Mm.decr_pde (i : Nat) : (mm.decr i).pde d = mm.pde d := rfl
@[simp] theorem Mm.incr_table (i : Nat) : (mm.incr i).table d = mm.table d := rfl
@[simp] theorem Mm.decr_table (i : Nat) : (mm.decr i).table d = mm.table d := rfl
@[simp] theorem Mm.incr_pte (i : Nat) : (mm.incr i).pte d n = mm.pte d n := rfl
@[simp] theorem Mm.decr_pte (i : Nat) : (mm.decr i).pte d n = mm.pte d n := rfl

end Fields

section Stores

variable {mm : Mm} {d n d' n' : Nat} {v : BitVec 32}

/-- A page table entry lies outside of the directory. -/
theorem Paged.pde_setPte (h : Paged mm) (hd : d < 1024) (hPresent : Present (mm.pde d))
    (hd' : d' < 1024) : (mm.setPte d n v).pde d' = mm.pde d' := by
  have hRange := h.range d hd hPresent
  exact load32_store32_of_disjoint _ _ (by omega)

theorem Paged.table_setPte (h : Paged mm) (hd : d < 1024) (hPresent : Present (mm.pde d))
    (hd' : d' < 1024) : (mm.setPte d n v).table d' = mm.table d' := by
  rw [Mm.table, Mm.table, h.pde_setPte hd hPresent hd']

/-- Tables are distinct frames, so one store reaches one entry. -/
theorem Paged.tables_apart (h : Paged mm) (hd : d < 1024) (hd' : d' < 1024)
    (hPresent : Present (mm.pde d)) (hPresent' : Present (mm.pde d')) (hne : d ≠ d') :
    (mm.table d).toNat + 4096 ≤ (mm.table d').toNat ∨ (mm.table d').toNat + 4096 ≤ (mm.table d).toNat := by
  have hTable : mm.table d ≠ mm.table d' := fun he => hne (h.distinct d hd d' hd' hPresent hPresent' he)
  have hNat : (mm.table d).toNat ≠ (mm.table d').toNat := fun he => hTable (BitVec.eq_of_toNat_eq he)
  have hMod := mm.table_mod d
  have hMod' := mm.table_mod d'
  omega

/-- Two entries are the same word only if they have the same place. -/
theorem Paged.pte_setPte (h : Paged mm) (hd : d < 1024) (hPresent : Present (mm.pde d))
    (hn : n < 1024) (hd' : d' < 1024) (hPresent' : Present (mm.pde d')) (hn' : n' < 1024) :
    (mm.setPte d n v).pte d' n' = if d' = d ∧ n' = n then v else mm.pte d' n' := by
  rw [Mm.pte, h.table_setPte hd hPresent hd']
  by_cases hSame : d' = d
  · subst d'
    by_cases hIndex : n' = n
    · subst n'
      simp only [and_self, if_true]
      exact load32_store32_same _ _ _
    · simp only [hIndex, and_false, if_false]
      exact load32_store32_of_disjoint _ _ (by omega)
  · simp only [hSame, false_and, if_false]
    have hApart := h.tables_apart hd hd' hPresent hPresent' (Ne.symm hSame)
    exact load32_store32_of_disjoint _ _ (by omega)

theorem Paged.setPte (h : Paged mm) (hd : d < 1024) (hPresent : Present (mm.pde d)) :
    Paged (mm.setPte d n v) :=
  h.congr fun _ ha => h.pde_setPte hd hPresent ha

/-- After one entry is written the present entries are the old ones, but for
that entry. -/
theorem Paged.maps_setPte (h : Paged mm) (hd : d < 1024) (hPresent : Present (mm.pde d))
    (hn : n < 1024) {e : BitVec 32} :
    (mm.setPte d n v).Maps d' n' e ↔
      (d' = d ∧ n' = n ∧ e = v ∧ Present v) ∨ (¬(d' = d ∧ n' = n) ∧ mm.Maps d' n' e) := by
  constructor
  · intro hMaps
    have hTable := hMaps.table
    rw [h.pde_setPte hd hPresent hMaps.dir] at hTable
    have hEntry := hMaps.entry
    rw [h.pte_setPte hd hPresent hn hMaps.dir hTable hMaps.index] at hEntry
    split_ifs at hEntry with hSame
    · exact Or.inl ⟨hSame.1, hSame.2, hEntry.symm, hEntry ▸ hMaps.present⟩
    · exact Or.inr ⟨hSame, hMaps.dir, hMaps.index, hTable, hEntry, hMaps.present⟩
  · rintro (⟨rfl, rfl, rfl, hv⟩ | ⟨hSame, hMaps⟩)
    · refine ⟨hd, hn, by rw [h.pde_setPte hd hPresent hd]; exact hPresent, ?_, hv⟩
      rw [h.pte_setPte hd hPresent hn hd hPresent hn]
      simp
    · refine ⟨hMaps.dir, hMaps.index, by rw [h.pde_setPte hd hPresent hMaps.dir]; exact hMaps.table, ?_,
        hMaps.present⟩
      rw [h.pte_setPte hd hPresent hn hMaps.dir hMaps.table hMaps.index, if_neg hSame]
      exact hMaps.entry

/-- A directory entry after a store to another one, or to itself. -/
theorem Mm.pde_setPde (hd' : d' < 1024) :
    (mm.setPde d v).pde d' = if d' = d then v else mm.pde d' := by
  by_cases hSame : d' = d
  · subst d'
    simp only [if_true]
    exact load32_store32_same _ _ _
  · simp only [hSame, if_false]
    exact load32_store32_of_disjoint _ _ (by omega)

theorem Mm.table_setPde_self (hd : d < 1024) : (mm.setPde d v).table d = frame v := by
  rw [Mm.table, Mm.pde_setPde hd, if_pos rfl]

theorem Mm.table_setPde_of_ne (hd' : d' < 1024) (hne : d' ≠ d) :
    (mm.setPde d v).table d' = mm.table d' := by
  rw [Mm.table, Mm.table, Mm.pde_setPde hd', if_neg hne]

/-- A new directory entry leaves the tables of the others alone. -/
theorem Paged.pte_setPde_of_ne (h : Paged mm) (hd : d < 1024) (hd' : d' < 1024) (hne : d' ≠ d)
    (hPresent' : Present (mm.pde d')) : (mm.setPde d v).pte d' n' = mm.pte d' n' := by
  have hRange := h.range d' hd' hPresent'
  rw [Mm.pte, Mm.table_setPde_of_ne hd' hne]
  exact load32_store32_of_disjoint _ _ (by omega)

/-- A directory entry may change to one that names a table of its own, or to an
absent one. -/
theorem Paged.setPde (h : Paged mm) (hd : d < 1024)
    (hRange : Present v → 4096 ≤ (frame v).toNat)
    (hFresh : Present v → ∀ a < 1024, a ≠ d → Present (mm.pde a) → mm.table a ≠ frame v)
    (hMask : Present v → 0xfffff00#32 &&& v = frame v) : Paged (mm.setPde d v) := by
  constructor
  · intro a ha hPresent
    by_cases hSame : a = d
    · subst a
      rw [Mm.pde_setPde hd, if_pos rfl] at hPresent
      rw [Mm.table_setPde_self hd]
      exact hRange hPresent
    · rw [Mm.pde_setPde ha, if_neg hSame] at hPresent
      rw [Mm.table_setPde_of_ne ha hSame]
      exact h.range a ha hPresent
  · intro a ha b hb hPresent hPresent' he
    rw [Mm.pde_setPde ha] at hPresent
    rw [Mm.pde_setPde hb] at hPresent'
    by_cases hA : a = d
    · by_cases hB : b = d
      · rw [hA, hB]
      · subst a
        rw [if_pos rfl] at hPresent
        rw [if_neg hB] at hPresent'
        rw [Mm.table_setPde_self hd, Mm.table_setPde_of_ne hb hB] at he
        exact absurd he.symm (hFresh hPresent b hb hB hPresent')
    · rw [if_neg hA] at hPresent
      by_cases hB : b = d
      · subst b
        rw [if_pos rfl] at hPresent'
        rw [Mm.table_setPde_self hd, Mm.table_setPde_of_ne ha hA] at he
        exact absurd he (hFresh hPresent' a ha hA hPresent)
      · rw [if_neg hB] at hPresent'
        rw [Mm.table_setPde_of_ne ha hA, Mm.table_setPde_of_ne hb hB] at he
        exact h.distinct a ha b hb hPresent hPresent' he
  · intro a ha hPresent
    by_cases hSame : a = d
    · subst a
      rw [Mm.pde_setPde hd, if_pos rfl] at hPresent ⊢
      rw [Mm.table_setPde_self hd]
      exact hMask hPresent
    · rw [Mm.pde_setPde ha, if_neg hSame] at hPresent ⊢
      rw [Mm.table_setPde_of_ne ha hSame]
      exact h.mask a ha hPresent

/-- The entries under the other directory entries stay. -/
theorem Paged.maps_setPde_of_ne (h : Paged mm) (hd : d < 1024) (hne : d' ≠ d) {e : BitVec 32} :
    (mm.setPde d v).Maps d' n' e ↔ mm.Maps d' n' e := by
  have hDir (hd' : d' < 1024) : (mm.setPde d v).pde d' = mm.pde d' := by
    rw [Mm.pde_setPde hd', if_neg hne]
  constructor
  · intro hMaps
    have hTable := hMaps.table
    rw [hDir hMaps.dir] at hTable
    exact ⟨hMaps.dir, hMaps.index, hTable,
      (h.pte_setPde_of_ne hd hMaps.dir hne hTable).symm.trans hMaps.entry, hMaps.present⟩
  · intro hMaps
    exact ⟨hMaps.dir, hMaps.index, by rw [hDir hMaps.dir]; exact hMaps.table,
      (h.pte_setPde_of_ne hd hMaps.dir hne hMaps.table).trans hMaps.entry, hMaps.present⟩

end Stores

/-- Two states with the same directory and the same entries under it. -/
structure SameTables (mm mm' : Mm) : Prop where
  pde : ∀ d < 1024, mm'.pde d = mm.pde d
  pte : ∀ d < 1024, Present (mm.pde d) → ∀ n < 1024, mm'.pte d n = mm.pte d n

namespace SameTables

variable {mm mm' : Mm}

theorem table (h : SameTables mm mm') {d : Nat} (hd : d < 1024) : mm'.table d = mm.table d := by
  rw [Mm.table, Mm.table, h.pde d hd]

theorem maps (h : SameTables mm mm') {d n : Nat} {e : BitVec 32} :
    mm'.Maps d n e ↔ mm.Maps d n e := by
  constructor
  · intro hMaps
    have hTable := hMaps.table
    rw [h.pde d hMaps.dir] at hTable
    exact ⟨hMaps.dir, hMaps.index, hTable,
      (h.pte d hMaps.dir hTable n hMaps.index).symm.trans hMaps.entry, hMaps.present⟩
  · intro hMaps
    exact ⟨hMaps.dir, hMaps.index, by rw [h.pde d hMaps.dir]; exact hMaps.table,
      (h.pte d hMaps.dir hMaps.table n hMaps.index).trans hMaps.entry, hMaps.present⟩

theorem paged (h : SameTables mm mm') (hPaged : Paged mm) : Paged mm' := hPaged.congr h.pde

/-- The same store on both sides. -/
theorem setPte (h : SameTables mm mm') (hPaged : Paged mm) {d n : Nat} (hd : d < 1024)
    (hPresent : Present (mm.pde d)) (hn : n < 1024) (v : BitVec 32) :
    SameTables (mm.setPte d n v) (mm'.setPte d n v) := by
  have hPaged' := h.paged hPaged
  have hPresent' : Present (mm'.pde d) := by rwa [h.pde d hd]
  constructor
  · intro a ha
    rw [hPaged'.pde_setPte hd hPresent' ha, hPaged.pde_setPte hd hPresent ha, h.pde a ha]
  · intro a ha hTable m hm
    rw [hPaged.pde_setPte hd hPresent ha] at hTable
    rw [hPaged'.pte_setPte hd hPresent' hn ha (by rwa [h.pde a ha]) hm,
      hPaged.pte_setPte hd hPresent hn ha hTable hm, h.pte a ha hTable m hm]

/-- Writing inside a frame that holds neither the directory nor a table. -/
theorem of_frame {base : Nat} (hLow : 4096 ≤ base) (hAligned : base % 4096 = 0)
    (hTable : ∀ d < 1024, Present (mm.pde d) → (mm.table d).toNat ≠ base)
    (hOutside : ∀ a, a < base ∨ base + 4096 ≤ a → mm'.mem a = mm.mem a) : SameTables mm mm' := by
  have hDir (d : Nat) (hd : d < 1024) : mm'.pde d = mm.pde d :=
    Mm.pde_congr fun a ha => hOutside a (by omega)
  refine ⟨hDir, ?_⟩
  intro d hd hPresent n hn
  have hMod := mm.table_mod d
  have hne := hTable d hd hPresent
  exact Mm.pte_congr (hDir d hd) hn fun a ha ha' => hOutside a (by omega)

end SameTables

end Linux011

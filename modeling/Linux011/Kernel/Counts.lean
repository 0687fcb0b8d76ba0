import Linux011.Kernel.OutOfMemory
import Mathlib.Data.Fintype.Prod

/-! The counts of `mem_map` in every reachable state, and the address spaces that the counts
are about; and what becomes of both in a fork without pages, or with its base misread. -/
namespace Linux011

open ByteMemory SharedRefs

section

variable {extMemK : BitVec 16} {image : Image} {k : Kernel} {forks : Nat}

def refEquiv : (Fin 1024 × Fin 1024) ⊕ Fin 1024 ⊕ Fin 64 ≃ PageRef where
  toFun := Sum.elim (fun r => .entry r.1 r.2) (Sum.elim .table .task)
  invFun := fun
    | .entry d n => .inl (d, n)
    | .table d => .inr (.inl d)
    | .task s => .inr (.inr s)
  left_inv := by rintro (⟨d, n⟩ | d | s) <;> rfl
  right_inv := by rintro (⟨d, n⟩ | d | s) <;> rfl

theorem count_pageRefs (refs : PageRef → Option Nat) (i : Nat) :
    count refs i = count (fun r : Fin 1024 × Fin 1024 => refs (.entry r.1 r.2)) i +
      (count (fun d => refs (.table d)) i + count (fun s => refs (.task s)) i) := by
  rw [← count_equiv refEquiv, count_sum, count_sum]
  rfl

/-- What boot puts into `mem_map` for the page at `f`. -/
def bootCount (extMemK : BitVec 16) (f : BitVec 32) : Nat :=
  if mainMemoryStart extMemK ≤ f ∧ f < memoryEnd extMemK then 0 else used.toNat

open Classical in

/-- The present entries in the address spaces of tasks 1 to 63 that name `f`. -/
noncomputable def entriesNaming (mm : Mm) (f : BitVec 32) : Nat :=
  (Finset.univ.filter fun r : Fin 1024 × Fin 1024 =>
    userDir r.1 ∧ ∃ e, mm.Maps r.1 r.2 e ∧ frame e = f).card

def IsPageTable (mm : Mm) (f : BitVec 32) : Prop :=
  ∃ d < 1024, userDir d ∧ Present (mm.pde d) ∧ mm.table d = f

def IsTaskPage (k : Kernel) (f : BitVec 32) : Prop := ∃ s, Occupied k s ∧ k.task s = f

/-- A page that `mem_map` counts: aligned, in `[LOW_MEM, 16MB)`. -/
structure Counted (f : BitVec 32) : Prop where
  low : lowMem ≤ f
  top : f.toNat < 0x1000000
  aligned : f.toNat % 4096 = 0

theorem Counted.index {f : BitVec 32} (h : Counted f) : mapNr f < pagingPages :=
  MmInvariant.mapNr_lt_of_top h.low h.top

theorem Counted.managed_iff {f page : BitVec 32} (h : Counted f) (hAligned : page.toNat % 4096 = 0) :
    managed page = some (mapNr f) ↔ page = f := by
  rw [managed_eq_some]
  constructor
  · rintro ⟨hLow, hSame⟩
    exact mapNr_injective hLow h.low hAligned h.aligned hSame
  · rintro rfl
    exact ⟨h.low, rfl⟩

theorem Counted.baseCount {f : BitVec 32} (h : Counted f) :
    baseCount extMemK (mapNr f) = bootCount extMemK f := by
  have hAddr : 0x100000 + 4096 * mapNr f = f.toNat := by
    rw [← pageAddr_toNat h.index, pageAddr_mapNr h.low h.aligned h.top]
  rw [Linux011.baseCount, bootCount, hAddr]
  rfl

open Classical in
theorem KernelInvariant.count_eq (h : KernelInvariant extMemK image k) {f : BitVec 32} (hf : Counted f) :
    (k.mm.memMap (mapNr f)).toNat = bootCount extMemK f + entriesNaming k.mm f +
      (if IsPageTable k.mm f then 1 else 0) + (if IsTaskPage k f then 1 else 0) := by
  have hEntries : count (fun r : Fin 1024 × Fin 1024 => userRefs k.task k.mm (.entry r.1 r.2)) (mapNr f) =
      entriesNaming k.mm f := by
    apply count_eq_card
    intro r
    rw [userRefs, pageRefs_entry]
    simp only [hf.managed_iff (frame_mod _)]
  have hTables : count (fun d : Fin 1024 => userRefs k.task k.mm (.table d)) (mapNr f) =
      if IsPageTable k.mm f then 1 else 0 := by
    rw [count_of_unique fun d d' hd hd' => PageRef.table.inj (h.mm.refs_unique _ _ hd hd' rfl)]
    refine if_congr ?_ rfl rfl
    simp only [userRefs, pageRefs_table, hf.managed_iff (Mm.table_mod _ _)]
    constructor
    · rintro ⟨d, hUser, hPresent, hTable⟩
      exact ⟨d, d.isLt, hUser, hPresent, hTable⟩
    · rintro ⟨d, hd, hUser, hPresent, hTable⟩
      exact ⟨⟨d, hd⟩, hUser, hPresent, hTable⟩
  have hTasks : count (fun s : Fin 64 => userRefs k.task k.mm (.task s)) (mapNr f) =
      if IsTaskPage k f then 1 else 0 := by
    rw [count_of_unique fun s s' hs hs' => PageRef.task.inj (h.mm.refs_unique _ _ hs hs' rfl)]
    refine if_congr ?_ rfl rfl
    constructor
    · rintro ⟨s, hs⟩
      obtain ⟨hne, hTask, hManaged⟩ := pageRefs_task.mp hs
      have hPos : 1 ≤ (s : Nat) := Nat.one_le_iff_ne_zero.mpr fun h0 => hne (Fin.ext h0)
      have hMain := h.mm.tasks.main s hPos s.isLt hTask
      exact ⟨s, ⟨hPos, s.isLt, hTask⟩, (hf.managed_iff hMain.aligned).mp hManaged⟩
    · rintro ⟨s, hs, rfl⟩
      refine ⟨⟨s, hs.lt⟩, pageRefs_task.mpr ⟨fun h0 => ?_, hs.task, managed_of_le hf.low⟩⟩
      have hPos := hs.pos
      have hZero : s = 0 := congrArg Fin.val h0
      omega
  rw [h.mm.count_eq hf.index, hf.baseCount, count_pageRefs, hEntries, hTables, hTasks]
  omega

/-- The directory holds the four boot tables and four tables for each task, all
different, and the segments of a task cover them; no fork that has what it needs can find
them otherwise. -/
theorem address_spaces_disjoint (run : Reaches extMemK image k forks) :
    (∀ d < 1024, Present (k.mm.pde d) →
        d < 4 ∨ ∃ s, Occupied k s ∧ 16 * s ≤ d ∧ d < 16 * s + 4) ∧
      (∀ s, Occupied k s → ∀ i < 4, Present (k.mm.pde (16 * s + i))) ∧
      (∀ d < 1024, ∀ d' < 1024, Present (k.mm.pde d) → Present (k.mm.pde d') →
        k.mm.table d = k.mm.table d' → d = d') ∧
      (∀ s, Occupied k s →
        (k.heap (k.task s)).ldt1.base = taskBase s ∧
          (k.heap (k.task s)).ldt2.base = taskBase s ∧
          getLimit (k.heap (k.task s)).ldt1 = getLimit (k.heap image.initTask).ldt1 ∧
          getLimit (k.heap (k.task s)).ldt2 = getLimit (k.heap image.initTask).ldt2) ∧
      ∀ s, Live k s → ∀ ram regs, ForkProvided ram { k with current := taskAddr image k s } →
        ∃ result k', sysFork ram regs { k with current := taskAddr image k s } = .ok (result, k') := by
  have h := run.inv
  refine ⟨?_, ?_, h.mm.dir.paged.distinct, ?_, ?_⟩
  · intro d hd hPresent
    by_cases hUser : userDir d
    · obtain ⟨hTask, hIndex⟩ := (h.shape d hd hUser).mp hPresent
      unfold userDir at hUser
      exact Or.inr ⟨d / 16, ⟨by omega, by omega, hTask⟩, by omega, by omega⟩
    · left
      by_contra hGap
      unfold userDir at hUser
      exact h.mm.dir.gap d (by omega) (by omega) hPresent
  · intro s hs i hi
    have hPos := hs.pos
    have hLt := hs.lt
    rw [h.shape _ (by omega) (by unfold userDir; omega), show (16 * s + i) / 16 = s by omega]
    exact ⟨hs.task, by omega⟩
  · intro s hs
    have hSegments := h.segments s hs
    exact ⟨hSegments.codeBase, hSegments.dataBase, hSegments.codeLimit.trans h.init.codeLimit.symm,
      hSegments.dataLimit.trans h.init.dataLimit.symm⟩
  · intro s hLive ram regs hProvided
    have hLive' : Live { k with current := taskAddr image k s } s :=
      hLive.imp_right fun hs => ⟨hs.pos, hs.lt, hs.task⟩
    obtain ⟨result, k', _, hRun⟩ := (h.set_current (taskAddr image k s)).sysFork regs hLive' rfl hProvided
    exact ⟨result, k', hRun⟩

end

theorem address_spaces_disjoint_child :
    ∃ k s, Occupied k s ∧ (∀ i < 4, Present (k.mm.pde (16 * s + i))) ∧
      (k.heap (k.task s)).ldt2.base = taskBase s := by
  obtain ⟨k, hRun, s, hs⟩ := child_reaches
  obtain ⟨_, hTables, _, hSegments, _⟩ := address_spaces_disjoint hRun
  exact ⟨k, s, hs, hTables s hs, (hSegments s hs).2.1⟩

/-- The first fork panics where the stray addresses of task 0 hold 7. -/
theorem address_spaces_stray : ¬∀ (extMemK : BitVec 16) (image : Image) (k : Kernel) (forks s : Nat)
    (regs : ForkFrame), Reaches extMemK image k forks → Live k s → 5 ≤ k.mm.freePages.card →
    sysFork k.ram regs { k with current := taskAddr image k s } ≠
      .error (.panic "copy_page_tables called with unaligned address") := by
  intro hAll
  have hRun := strayKernel_reaches
  have hPanic := strayKernel_panics zeroFrame
  have hCurrent : strayKernel.current = taskAddr strayImage strayKernel 0 := bootKernel_current _ _ _ _ _
  have hRoom : 485 ≤ strayKernel.mm.freePages.card :=
    hRun.inv.room (fun s hs => hs.task (bootKernel_task _ _ _ _ _ s)) (by decide)
  generalize strayKernel = k at *
  have hSame : { k with current := taskAddr strayImage k 0 } = k := by rw [← hCurrent]
  refine hAll 15360#16 strayImage k 0 0 zeroFrame hRun (Or.inl rfl) (by omega) ?_
  rw [hSame]
  exact hPanic

end Linux011

import Linux011.Mm.Init
import Mathlib.Data.Finset.Basic

/-! The allocator on its own: `get_free_page` and `free_page` called in any
order from the state that boot leaves, each page being freed only by a caller
that holds it. -/
namespace Linux011

open ByteMemory

/-- The memory manager and the pages handed out and not yet freed. -/
structure Pool where
  mm : Mm
  out : Finset (BitVec 32)

/-- A call of `get_free_page`, or one of `free_page` with a page that is out. -/
inductive PoolStep : Pool → Pool → Prop where
  | get {P : Pool} {page : BitVec 32} {mm : Mm} (call : getFreePage P.mm = .ok (page, mm)) :
      PoolStep P ⟨mm, if page = noPage then P.out else insert page P.out⟩
  | free {P : Pool} {page : BitVec 32} {mm : Mm} (held : page ∈ P.out)
      (call : freePage P.mm page = .ok mm) : PoolStep P ⟨mm, P.out.erase page⟩
  /-- Between two calls memory may hold anything. -/
  | write {P : Pool} (mem : Memory) : PoolStep P ⟨{ P.mm with mem := mem }, P.out⟩

/-- A history of such calls, from what `mem_init` leaves. -/
inductive PoolRun (extMemK : BitVec 16) : Pool → Prop where
  | boot (m : Memory) : PoolRun extMemK ⟨bootMm extMemK m, ∅⟩
  | step {P Q : Pool} (prior : PoolRun extMemK P) (last : PoolStep P Q) : PoolRun extMemK Q

/-- A page of `[main_memory_start, memory_end)`. -/
structure MainPage (extMemK : BitVec 16) (page : BitVec 32) : Prop where
  aligned : page.toNat % 4096 = 0
  low : (mainMemoryStart extMemK).toNat ≤ page.toNat
  high : page.toNat < (memoryEnd extMemK).toNat

/-- Main memory lies above 1MB. -/
theorem MainPage.lowMem_le {extMemK : BitVec 16} {page : BitVec 32} (h : MainPage extMemK page) :
    lowMem ≤ page := by
  rw [BitVec.le_def, lowMem_toNat]
  exact (memoryRange extMemK).low.trans h.low

theorem MainPage.mapNr_lt {extMemK : BitVec 16} {page : BitVec 32} (h : MainPage extMemK page) :
    mapNr page < pagingPages := by
  have hTop := (memoryRange extMemK).high
  have hHigh := h.high
  rw [mapNr_toNat h.lowMem_le, pagingPages_eq]
  omega

/-- A page of main memory is the one of its own count. -/
theorem MainPage.pageAddr_mapNr {extMemK : BitVec 16} {page : BitVec 32}
    (h : MainPage extMemK page) : pageAddr (mapNr page) = page := by
  have hTop := (memoryRange extMemK).high
  have hHigh := h.high
  exact Linux011.pageAddr_mapNr h.lowMem_le h.aligned (by omega)

/-- The pages of main memory are those that `mem_init` has set free. -/
theorem mainPage_pageAddr_iff {extMemK : BitVec 16} {i : Nat} (hi : i < pagingPages) :
    MainPage extMemK (pageAddr i) ↔ baseCount extMemK i = 0 := by
  have hAddr := pageAddr_toNat hi
  unfold baseCount
  split_ifs with h
  · simp only [iff_true]
    exact ⟨pageAddr_aligned hi, by omega, by omega⟩
  · refine iff_of_false (fun hMain => ?_) (by decide)
    exact h ⟨by have := hMain.low; omega, by have := hMain.high; omega⟩

/-- A count of `mem_map` is the count of boot, plus one while the page is
handed out. -/
structure PoolInv (extMemK : BitVec 16) (P : Pool) : Prop where
  high : P.mm.highMemory = memoryEnd extMemK
  main : ∀ page ∈ P.out, MainPage extMemK page
  counts : ∀ i < pagingPages, (P.mm.memMap i).toNat =
    baseCount extMemK i + if pageAddr i ∈ P.out then 1 else 0

namespace PoolInv

variable {extMemK : BitVec 16} {P : Pool}

theorem free_iff (h : PoolInv extMemK P) {i : Nat} (hi : i < pagingPages) :
    P.mm.memMap i = 0#8 ↔ MainPage extMemK (pageAddr i) ∧ pageAddr i ∉ P.out := by
  have hCount := h.counts i hi
  rw [mainPage_pageAddr_iff hi, ← BitVec.toNat_inj, BitVec.toNat_ofNat, hCount]
  split_ifs with hOut <;> simp [hOut]

/-- No page above `HIGH_MEMORY` is free. -/
theorem highInUse (h : PoolInv extMemK P) : P.mm.HighInUse := by
  have hRange := memoryRange extMemK
  refine ⟨by rw [h.high]; exact BitVec.le_def.mpr (hRange.low.trans hRange.ordered), ?_⟩
  intro i hi hAbove hFree
  have hMain := ((h.free_iff hi).mp hFree).1.high
  rw [pageAddr_toNat hi] at hMain
  rw [h.high] at hAbove
  omega

theorem boot (m : Memory) : PoolInv extMemK ⟨bootMm extMemK m, ∅⟩ where
  high := rfl
  main := by simp
  counts := by
    intro i hi
    simpa using bootMm_memMap extMemK m hi

/-- A page that is out can be released. -/
theorem freePage_eq (h : PoolInv extMemK P) {page : BitVec 32} (hOut : page ∈ P.out) :
    freePage P.mm page = .ok (P.mm.decr (mapNr page)) := by
  have hMain := h.main page hOut
  apply freePage_managed hMain.lowMem_le
  · rw [h.high, BitVec.lt_def]
    exact hMain.high
  · intro hZero
    have hFree := (h.free_iff hMain.mapNr_lt).mp hZero
    rw [hMain.pageAddr_mapNr] at hFree
    exact hFree.2 hOut

theorem get (h : PoolInv extMemK P) {i : Nat} (hi : i < pagingPages) (hFree : P.mm.memMap i = 0#8) :
    PoolInv extMemK ⟨P.mm.takePage i, insert (pageAddr i) P.out⟩ where
  high := h.high
  main := by
    intro page hPage
    rcases Finset.mem_insert.mp hPage with rfl | hPage
    · exact ((h.free_iff hi).mp hFree).1
    · exact h.main page hPage
  counts := by
    intro j hj
    obtain ⟨hMain, hOut⟩ := (h.free_iff hi).mp hFree
    by_cases hji : j = i
    · subst j
      simp [(mainPage_pageAddr_iff hi).mp hMain]
    · have hne : pageAddr j ≠ pageAddr i := by
        intro he
        exact hji (by rw [← mapNr_pageAddr hj, he, mapNr_pageAddr hi])
      simpa [Function.update_of_ne hji, Finset.mem_insert, hne] using h.counts j hj

theorem free (h : PoolInv extMemK P) {page : BitVec 32} (hOut : page ∈ P.out) :
    PoolInv extMemK ⟨P.mm.decr (mapNr page), P.out.erase page⟩ where
  high := h.high
  main := fun a ha => h.main a (Finset.mem_of_mem_erase ha)
  counts := by
    intro j hj
    have hMain := h.main page hOut
    have hCount := h.counts j hj
    by_cases hji : j = mapNr page
    · subst j
      rw [hMain.pageAddr_mapNr, if_pos hOut] at hCount
      simp only [Mm.decr, Function.update_self, hMain.pageAddr_mapNr, Finset.notMem_erase, if_false]
      rw [BitVec.toNat_sub_of_le (by rw [BitVec.le_def, hCount]; simp), hCount]
      simp
    · have hne : pageAddr j ≠ page := by
        intro he
        exact hji (by rw [← he, mapNr_pageAddr hj])
      simpa [Mm.decr, Function.update_of_ne hji, Finset.mem_erase, hne] using hCount

theorem step {Q : Pool} (h : PoolInv extMemK P) (last : PoolStep P Q) : PoolInv extMemK Q := by
  cases last with
  | @get page mm call =>
      rcases getFreePage_cases h.highInUse with ⟨_, hFull⟩ | ⟨i, hi, hFree, _, hTake⟩
      · obtain ⟨rfl, rfl⟩ := Prod.mk.inj (Except.ok.inj (call.symm.trans hFull))
        exact h
      · obtain ⟨rfl, rfl⟩ := Prod.mk.inj (Except.ok.inj (call.symm.trans hTake))
        simpa only [if_neg (pageAddr_ne_noPage hi)] using h.get hi hFree
  | @free page mm held call =>
      cases call.symm.trans (h.freePage_eq held)
      exact h.free held
  | write mem => exact ⟨h.high, h.main, h.counts⟩

end PoolInv

theorem PoolRun.inv {extMemK : BitVec 16} {P : Pool} (run : PoolRun extMemK P) :
    PoolInv extMemK P := by
  induction run with
  | boot m => exact PoolInv.boot m
  | step prior last ih => exact ih.step last

/-- What the next `get_free_page` owes its caller: 0 exactly when every page is handed
out, or else a cleared page that nobody holds, with nothing but that page and its
count touched. -/
structure GetContract (extMemK : BitVec 16) (P : Pool) (page : BitVec 32) (mm : Mm) : Prop where
  zero : page = 0#32 ↔ ∀ a, MainPage extMemK a → a ∈ P.out
  unchanged : page = 0#32 → mm = P.mm
  main : page ≠ 0#32 → MainPage extMemK page
  fresh : page ≠ 0#32 → page ∉ P.out
  cleared : page ≠ 0#32 → ∀ a, page.toNat ≤ a → a < page.toNat + 4096 → mm.mem a = 0
  frame : page ≠ 0#32 → ∀ a, a < page.toNat ∨ page.toNat + 4096 ≤ a → mm.mem a = P.mm.mem a
  counts : page ≠ 0#32 → ∀ i, i ≠ mapNr page → mm.memMap i = P.mm.memMap i
  high : page ≠ 0#32 → mm.highMemory = P.mm.highMemory

section

variable {extMemK : BitVec 16} {P : Pool}

/-- With no byte 0 in `mem_map` all pages are out. -/
theorem PoolInv.exhausted (h : PoolInv extMemK P) (hFull : ∀ i < pagingPages, P.mm.memMap i ≠ 0#8) :
    ∀ a, MainPage extMemK a → a ∈ P.out := by
  intro a hMain
  by_contra hOut
  apply hFull (mapNr a) hMain.mapNr_lt
  rw [h.free_iff hMain.mapNr_lt, hMain.pageAddr_mapNr]
  exact ⟨hMain, hOut⟩

theorem PoolInv.contract (h : PoolInv extMemK P) {i : Nat} (hi : i < pagingPages) (hFree : P.mm.memMap i = 0#8) :
    GetContract extMemK P (pageAddr i) (P.mm.takePage i) := by
  obtain ⟨hMain, hOut⟩ := (h.free_iff hi).mp hFree
  have hne := pageAddr_ne_zero hi
  refine ⟨iff_of_false hne fun hAll => hOut (hAll _ hMain), fun hZero => absurd hZero hne, fun _ => hMain,
    fun _ => hOut,
    fun _ a hLow hHigh => Mm.takePage_zero P.mm hi hLow hHigh, fun _ a ha => Mm.takePage_outside P.mm hi ha,
    fun _ j hj => ?_, fun _ => rfl⟩
  rw [mapNr_pageAddr hi] at hj
  exact Function.update_of_ne hj _ _

/-- After any history of calls freeing a held page cannot panic, and the next
`get_free_page` comes back; it keeps its contract exactly while some page is not handed
out. -/
theorem allocator_contract_iff (run : PoolRun extMemK P) :
    (∀ page ∈ P.out, ∃ mm, freePage P.mm page = .ok mm) ∧
      ∃ page mm, getFreePage P.mm = .ok (page, mm) ∧
        (GetContract extMemK P page mm ↔ ∃ a, MainPage extMemK a ∧ a ∉ P.out) := by
  have hInv := run.inv
  refine ⟨fun page hOut => ⟨_, hInv.freePage_eq hOut⟩, ?_⟩
  rcases getFreePage_cases hInv.highInUse with ⟨hFull, hCall⟩ | ⟨i, hi, hFree, _, hCall⟩
  · have hAll := hInv.exhausted hFull
    refine ⟨noPage, P.mm, hCall, iff_of_false (fun hContract => ?_) ?_⟩
    · exact noPage_ne_zero (hContract.zero.mpr hAll)
    · rintro ⟨a, hMain, hOut⟩
      exact hOut (hAll a hMain)
  · exact ⟨pageAddr i, P.mm.takePage i, hCall,
      iff_of_true (hInv.contract hi hFree) ⟨pageAddr i, (hInv.free_iff hi).mp hFree⟩⟩

end

/-- With 2MB of memory the first call hands out a page. -/
theorem allocator_contract_iff_boot : ∃ page mm, getFreePage (bootMm 1024#16 fun _ => 0) = .ok (page, mm) ∧
    GetContract 1024#16 ⟨bootMm 1024#16 fun _ => 0, ∅⟩ page mm := by
  obtain ⟨_, page, mm, hCall, hIff⟩ := allocator_contract_iff
    (PoolRun.boot fun _ => 0 : PoolRun 1024#16 _)
  have hMain : MainPage 1024#16 0x100000#32 := ⟨by decide, by decide, by decide⟩
  exact ⟨page, mm, hCall, hIff.mpr ⟨_, hMain, Finset.notMem_empty _⟩⟩

/-- A machine of 1MB has no page, and the first call returns 0xf00. -/
theorem allocator_exhausted : ∃ mm, getFreePage (bootMm 0#16 fun _ => 0) = .ok (0xf00#32, mm) ∧
    (∀ a, ¬MainPage 0#16 a) ∧ ¬GetContract 0#16 ⟨bootMm 0#16 fun _ => 0, ∅⟩ 0xf00#32 mm := by
  have hInv : PoolInv 0#16 ⟨bootMm 0#16 fun _ => 0, ∅⟩ := PoolInv.boot _
  have hNone (a : BitVec 32) : ¬MainPage 0#16 a := by
    intro hMain
    have hLow : 0x100000 ≤ a.toNat := hMain.low
    have hHigh : a.toNat < 0x100000 := hMain.high
    omega
  rcases getFreePage_cases hInv.highInUse with ⟨_, hCall⟩ | ⟨i, hi, hFree, _⟩
  · refine ⟨_, hCall, hNone, fun hContract => ?_⟩
    exact absurd (hContract.zero.mpr fun a hMain => absurd hMain (hNone a)) (by decide)
  · exact absurd ((hInv.free_iff hi).mp hFree).1 (hNone _)

end Linux011

import Linux011.Kernel.Invariant
import Mathlib.Order.Interval.Finset.Nat

/-! What `copy_process` does from a state of the invariant: with five free pages and its
bases read right it makes a child, with fewer pages it comes to the end of the pool. -/
namespace Linux011

open ByteMemory SharedRefs

/-- The child's task structure when `copy_mem` has moved its segments. -/
def placedTask (t : TaskStruct) (nr : Nat) : TaskStruct :=
  { t with ldt1 := setBase t.ldt1 (taskBase nr), ldt2 := setBase t.ldt2 (taskBase nr) }

/-- `get_base` reads both segments of the running task right. -/
structure BasesRead (ram : BitVec 32 → BitVec 8) (k : Kernel) : Prop where
  code : BaseRead ram (ldtAddr k.current + 8#32) (k.heap k.current).ldt1
  data : BaseRead ram (ldtAddr k.current + 16#32) (k.heap k.current).ldt2

/-- What a fork needs that fills a slot: a page for the task structure, one for each of
four page tables, and its bases. -/
structure Provided (ram : BitVec 32 → BitVec 8) (k : Kernel) : Prop extends BasesRead ram k where
  pages : 5 ≤ k.mm.freePages.card

theorem Kernel.setTask_setTask (k : Kernel) (p : BitVec 32) (t t' : TaskStruct) :
    (k.setTask p t).setTask p t' = k.setTask p t' := by
  simp only [Kernel.setTask, Function.update_idem]

section

variable {extMemK : BitVec 16} {image : Image} {ram : BitVec 32 → BitVec 8} {k k' : Kernel} {p nr : Nat}
  {regs : ForkFrame}

theorem Kernel.place_page {page : BitVec 32} (hPage : page ≠ noPage) (t : TaskStruct) :
    k.place page t = k.setTask page t :=
  if_neg hPage

theorem Kernel.reread_page {page : BitVec 32} (hPage : page ≠ noPage) : k.reread page = k := if_neg hPage

/-- `copy_mem` has moved the segments of the child. -/
def Kernel.withSegments (k : Kernel) (q : BitVec 32) (nr : Nat) : Kernel :=
  let k := k.place q { k.heap q with ldt1 := setBase (k.heap q).ldt1 (taskBase nr) }
  k.place q { k.heap q with ldt2 := setBase (k.heap q).ldt2 (taskBase nr) }

theorem Kernel.withSegments_page {q : BitVec 32} (hPage : q ≠ noPage) :
    k.withSegments q nr = k.setTask q (placedTask (k.heap q) nr) := by
  simp only [Kernel.withSegments, Kernel.place_page hPage, Kernel.setTask_heap, Function.update_self,
    Kernel.setTask_setTask]
  rfl

/-- `copy_mem` when the segments of the running task are those of slot `p`: no reachable
fork hits its panics. -/
theorem copyMem_withSegments {q : BitVec 32} {mm : Mm} (hSegments : Segments p (k.heap k.current))
    (hBases : BasesRead ram k)
    (hCopy : copyPageTables (k.withSegments q nr).mm (taskBase p) (taskBase nr) dataLimit = .ok (0#32, mm)) :
    copyMem ram nr q k = .ok (0#32, Kernel.reread { k.withSegments q nr with mm := mm } q) := by
  rw [copyMem]
  simp only [getBase_eq hBases.code, getBase_eq hBases.data, hSegments.codeBase, hSegments.dataBase,
    hSegments.codeLimit, hSegments.dataLimit]
  rw [if_neg (not_not.mpr rfl), if_neg (BitVec.lt_irrefl _)]
  exact (ok_bind hCopy _).trans (if_neg (not_not.mpr rfl))

theorem copyMem_ok {q : BitVec 32} {mm : Mm} (hSegments : Segments p (k.heap k.current)) (hBases : BasesRead ram k)
    (hPage : q ≠ noPage) (hCopy : copyPageTables k.mm (taskBase p) (taskBase nr) dataLimit = .ok (0#32, mm)) :
    copyMem ram nr q k = .ok (0#32, { k.setTask q (placedTask (k.heap q) nr) with mm := mm }) := by
  have hPlaced : k.withSegments q nr = k.setTask q (placedTask (k.heap q) nr) := Kernel.withSegments_page hPage
  have hCopied : copyPageTables (k.withSegments q nr).mm (taskBase p) (taskBase nr) dataLimit = .ok (0#32, mm) := by
    rw [hPlaced]
    exact hCopy
  rw [copyMem_withSegments hSegments hBases hCopied, hPlaced, Kernel.reread_page hPage]

/-- The state in which `copy_mem` is called. -/
def Kernel.withChild (k : Kernel) (nr : Nat) (page : BitVec 32) (mm : Mm) (regs : ForkFrame) : Kernel :=
  ({ k with mm := mm }.setSlot nr page).place page
    (childTask (k.heap k.current) nr page k.current k.lastPid regs)

theorem Kernel.withChild_page {page : BitVec 32} (hPage : page ≠ noPage) (mm : Mm) :
    k.withChild nr page mm regs = ({ k with mm := mm }.setSlot nr page).setTask page
      (childTask (k.heap k.current) nr page k.current k.lastPid regs) :=
  Kernel.place_page hPage _

theorem Kernel.withChild_current {page : BitVec 32} (hPage : page ≠ noPage) (mm : Mm) :
    (k.withChild nr page mm regs).current = k.current := by
  rw [Kernel.withChild_page hPage, Kernel.setTask_current, Kernel.setSlot_current]

theorem copyProcess_page {page : BitVec 32} {mm : Mm} (hCall : getFreePage k.mm = .ok (page, mm)) :
    copyProcess ram nr regs k = (copyMem ram nr page (k.withChild nr page mm regs)).bind fun (failed, k) =>
      if failed ≠ 0#32 then
        (freePage k.mm page).bind fun mm => .ok (-eagain, { k.setSlot nr 0#32 with mm := mm })
      else
        let k := k.setGdt (nr <<< 1 + firstTssEntry) (tssDesc (tssAddr page))
        let k := k.setGdt (nr <<< 1 + firstLdtEntry) (ldtDesc (ldtAddr page))
        .ok (k.lastPid, k) := by
  rw [copyProcess, hCall]
  simp only [bind, Except.bind, if_neg (getFreePage_ne_zero hCall)]
  rfl

/-- The end of `copy_process` behind a `copy_mem` that has returned 0. -/
theorem copyProcess_filled {page : BitVec 32} {mm : Mm} {K : Kernel} (hCall : getFreePage k.mm = .ok (page, mm))
    (hCopy : copyMem ram nr page (k.withChild nr page mm regs) = .ok (0#32, K)) :
    copyProcess ram nr regs k = .ok (K.lastPid, (K.setGdt (nr <<< 1 + firstTssEntry) (tssDesc (tssAddr page))).setGdt
      (nr <<< 1 + firstLdtEntry) (ldtDesc (ldtAddr page))) := by
  rw [copyProcess_page hCall, ok_bind hCopy]
  exact if_neg (not_not.mpr rfl)

/-- A fork from `p` into slot `nr` that succeeded. -/
structure ForkMade (extMemK : BitVec 16) (p nr : Nat) (regs : ForkFrame) (k k' : Kernel) : Prop where
  page : ∃ i, i < pagingPages ∧ k.mm.memMap i = 0#8 ∧ k'.task = Function.update k.task nr (pageAddr i) ∧
    k'.heap = Function.update k.heap (pageAddr i)
      (placedTask (childTask (k.heap k.current) nr (pageAddr i) k.current k.lastPid regs) nr) ∧
    k'.gdt = Function.update (Function.update k.gdt (2 * nr + firstTssEntry) (tssDesc (tssAddr (pageAddr i))))
      (2 * nr + firstLdtEntry) (ldtDesc (ldtAddr (pageAddr i)))
  current : k'.current = k.current
  lastPid : k'.lastPid = k.lastPid
  window : Window extMemK k'.task p nr (copyCount p) 4 k'.mm
  forking : Forking p nr k.mm k'.mm
  free : k'.mm.freePages ⊆ k.mm.freePages
  count : SourcesUsed p (copyCount p) k.mm → k.mm.freePages.card = k'.mm.freePages.card + 5

/-- Where a fork that finds too few pages comes to the end of the pool: after `t` tables. -/
structure ForkStops (p t : Nat) (mm : Mm) : Prop where
  count : SourcesUsed p (copyCount p) mm → mm.freePages.card - 1 = t
  bound : mm.freePages.card ≤ 1 + t * (copyCount p + 1)
  few : t < 4

/-- Some `get_free_page` of `copy_process` finds no page, the one for the task structure or
one for a page table. -/
def MemoryRunsOut (nr : Nat) (k : Kernel) : Prop :=
  ∃ page mm, getFreePage k.mm = .ok (page, mm) ∧ (page = noPage ∨
    ¬CopyPagesFound mm (k.heap k.current).ldt2.base (taskBase nr) (getLimit (k.heap k.current).ldt2))

theorem Live.lt (h : Live k p) : p < 64 := by
  rcases h with rfl | h
  · decide
  · exact h.lt

namespace KernelInvariant

theorem ready (h : KernelInvariant extMemK image k) (hLive : Live k p) (hNr : 1 ≤ nr ∧ nr < 64)
    (hEmpty : k.task nr = 0#32) : ForkReady p nr k.mm where
  parent := hLive.lt
  child := hNr
  apart := by
    rintro rfl
    rcases hLive with rfl | hOccupied
    · omega
    · exact hOccupied.task hEmpty
  fromDirs := by
    intro i hi
    rcases hLive with rfl | hOccupied
    · exact (h.mm.dir.boot (16 * 0 + i) (by omega)).1
    · have hPos := hOccupied.pos
      have hLt := hOccupied.lt
      rw [h.shape _ (by omega) (by unfold userDir; omega), show (16 * p + i) / 16 = p by omega]
      exact ⟨hOccupied.task, by omega⟩
  empty := by
    intro i hi
    rw [h.shape _ (by omega) (by unfold userDir; omega), show (16 * nr + i) / 16 = nr by omega]
    exact fun hPresent => hPresent.1 hEmpty

theorem segments_live (h : KernelInvariant extMemK image k) (hLive : Live k p) :
    Segments p (k.heap (taskAddr image k p)) := by
  unfold taskAddr
  rcases hLive with rfl | hOccupied
  · rw [if_pos rfl]
    exact h.init
  · have hPos := hOccupied.pos
    rw [if_neg (by omega)]
    exact h.segments p hOccupied

/-- A free page is nobody's task structure. -/
theorem page_fresh (h : KernelInvariant extMemK image k) {i : Nat} (hi : i < pagingPages)
    (hFree : k.mm.memMap i = 0#8) :
    image.initTask ≠ pageAddr i ∧ ∀ s, Occupied k s → k.task s ≠ pageAddr i := by
  constructor
  · intro he
    have hLow := image.low
    have hPage := lowMem_le_pageAddr hi
    rw [he] at hLow
    exact BitVec.not_lt.mpr hPage hLow
  · intro s hOccupied he
    apply h.mm.free_not_held hi hFree (.task ⟨s, hOccupied.lt⟩)
    rw [userRefs, pageRefs_task]
    refine ⟨fun h0 => ?_, hOccupied.task, ?_⟩
    · have hPos := hOccupied.pos
      have hZero : s = 0 := congrArg Fin.val h0
      omega
    · change managed (k.task s) = some i
      rw [he, managed_pageAddr hi]

theorem current_fresh (h : KernelInvariant extMemK image k) (hLive : Live k p) {i : Nat}
    (hi : i < pagingPages) (hFree : k.mm.memMap i = 0#8) : taskAddr image k p ≠ pageAddr i := by
  obtain ⟨hInit, hTask⟩ := h.page_fresh hi hFree
  unfold taskAddr
  rcases hLive with rfl | hOccupied
  · exact hInit
  · have hPos := hOccupied.pos
    rw [if_neg (by omega)]
    exact hTask p hOccupied

end KernelInvariant

section Child

variable {i : Nat}

theorem ForkReady.takePage {task : Nat → BitVec 32} {mm : Mm} (ready : ForkReady p nr mm)
    (h : MmInvariant extMemK task mm) (hi : i < pagingPages) (hFree : mm.memMap i = 0#8) :
    ForkReady p nr (mm.takePage i) := by
  have hTake := h.sameTables_takePage hi hFree
  have hParent := ready.parent
  have hChild := ready.child
  refine ⟨ready.parent, ready.child, ready.apart, ?_, ?_⟩
  · intro a ha
    rw [hTake.pde _ (by omega)]
    exact ready.fromDirs a ha
  · intro a ha
    rw [hTake.pde _ (by omega)]
    exact ready.empty a ha

variable (h : KernelInvariant extMemK image k) (hCurrent : k.current = taskAddr image k p)
  (hLive : Live k p) (hNr : 1 ≤ nr ∧ nr < 64) (hEmpty : k.task nr = 0#32) (hi : i < pagingPages)
  (hFree : k.mm.memMap i = 0#8)

include h hCurrent hLive hi hFree in

/-- The parent's structure is another one. -/
theorem KernelInvariant.heap_withChild :
    (k.withChild nr (pageAddr i) (k.mm.takePage i) regs).heap k.current = k.heap k.current := by
  have hFresh := h.current_fresh hLive hi hFree
  rw [← hCurrent] at hFresh
  rw [Kernel.withChild_page (pageAddr_ne_noPage hi), Kernel.setTask_heap, Function.update_of_ne hFresh,
    Kernel.setSlot_heap]

include h hCurrent hLive hi hFree in
theorem KernelInvariant.segments_withChild :
    Segments p ((k.withChild nr (pageAddr i) (k.mm.takePage i) regs).heap
      (k.withChild nr (pageAddr i) (k.mm.takePage i) regs).current) := by
  rw [Kernel.withChild_current (pageAddr_ne_noPage hi), h.heap_withChild hCurrent hLive hi hFree, hCurrent]
  exact h.segments_live hLive

include h hCurrent hLive hi hFree in
theorem KernelInvariant.bases_withChild (hBases : BasesRead ram k) :
    BasesRead ram (k.withChild nr (pageAddr i) (k.mm.takePage i) regs) := by
  have hPage := pageAddr_ne_noPage hi
  constructor
  · rw [Kernel.withChild_current hPage, h.heap_withChild hCurrent hLive hi hFree]
    exact hBases.code
  · rw [Kernel.withChild_current hPage, h.heap_withChild hCurrent hLive hi hFree]
    exact hBases.data

include h hNr hEmpty hi hFree in
theorem KernelInvariant.inv_withChild :
    MmInvariant extMemK (Function.update k.task nr (pageAddr i)) (k.mm.takePage i) :=
  h.mm.takeTask hNr.1 hNr.2 hEmpty hi hFree

include h hLive hNr hEmpty hi hFree in
theorem KernelInvariant.stops {t : Nat} {mm : Mm}
    (hCopied : DirsCopied extMemK (Function.update k.task nr (pageAddr i)) p nr (copyCount p) 0 t
      (k.mm.takePage i) mm) (ht : t < 4) (hNone : mm.freePages = ∅) : ForkStops p t k.mm := by
  have hMem : i ∈ k.mm.freePages := Mm.mem_freePages.mpr ⟨hi, hFree⟩
  have hErase := Finset.card_erase_add_one hMem
  have hTake : Forking p nr k.mm (k.mm.takePage i) :=
    Forking.of_sameTables (h.mm.sameTables_takePage hi hFree) rfl
  have hSub : (k.mm.takePage i).freePages ⊆ k.mm.freePages := by
    rw [Mm.freePages_takePage]
    exact Finset.erase_subset _ _
  have hApart := (h.ready hLive hNr hEmpty).apart
  constructor
  · intro hUsed
    have hCount := hCopied.used (hUsed.forking hApart hTake hSub)
    rw [Mm.freePages_takePage, hNone, Finset.card_empty] at hCount
    omega
  · have hBound := hCopied.bound
    rw [Mm.freePages_takePage, hNone, Finset.card_empty] at hBound
    omega
  · exact ht

include h hLive hNr hEmpty hi hFree in
theorem KernelInvariant.forkMade {mm : Mm}
    (hCopied : DirsCopied extMemK (Function.update k.task nr (pageAddr i)) p nr (copyCount p) 0 4
      (k.mm.takePage i) mm) :
    ForkMade extMemK p nr regs k
      ((({ (k.withChild nr (pageAddr i) (k.mm.takePage i) regs).setTask (pageAddr i)
            (placedTask ((k.withChild nr (pageAddr i) (k.mm.takePage i) regs).heap (pageAddr i)) nr) with
          mm := mm }).setGdt (nr <<< 1 + firstTssEntry) (tssDesc (tssAddr (pageAddr i)))).setGdt
        (nr <<< 1 + firstLdtEntry) (ldtDesc (ldtAddr (pageAddr i)))) := by
  have hTake : Forking p nr k.mm (k.mm.takePage i) :=
    Forking.of_sameTables (h.mm.sameTables_takePage hi hFree) rfl
  have hSub : (k.mm.takePage i).freePages ⊆ k.mm.freePages := by
    rw [Mm.freePages_takePage]
    exact Finset.erase_subset _ _
  rw [Kernel.withChild_page (pageAddr_ne_noPage hi)]
  refine ⟨⟨i, hi, hFree, rfl, ?_, ?_⟩, rfl, rfl, hCopied.window, hTake.trans hCopied.forking, ?_, ?_⟩
  · simp only [Kernel.setGdt_heap, Kernel.setTask_heap, Function.update_self, Function.update_idem,
      Kernel.setSlot_heap]
  · rw [show 2 * nr = nr <<< 1 by rw [Nat.shiftLeft_eq]; omega]
    rfl
  · exact hCopied.free.trans hSub
  · intro hUsed
    have hErase := Finset.card_erase_add_one (Mm.mem_freePages.mpr ⟨hi, hFree⟩)
    have hCount := hCopied.used (hUsed.forking (h.ready hLive hNr hEmpty).apart hTake hSub)
    rw [Mm.freePages_takePage] at hCount
    have hTotal : k.mm.freePages.card = mm.freePages.card + 5 := by omega
    exact hTotal

end Child

namespace KernelInvariant

/-- With no task in slots 1 to 63 the counts are those of boot. -/
theorem boot_count (h : KernelInvariant extMemK image k) (hNone : ∀ s, ¬Occupied k s) {i : Nat}
    (hi : i < pagingPages) : (k.mm.memMap i).toNat = baseCount extMemK i := by
  have hDir {d : Nat} (hd : d < 1024) (hUser : userDir d) : ¬Present (k.mm.pde d) := by
    intro hPresent
    have hTask := ((h.shape d hd hUser).mp hPresent).1
    unfold userDir at hUser
    exact hNone (d / 16) ⟨by omega, by omega, hTask⟩
  have hRefs (r : PageRef) : userRefs k.task k.mm r ≠ some i := by
    intro hr
    cases r with
    | entry d n =>
        obtain ⟨hUser, e, hMaps, _⟩ := pageRefs_entry.mp hr
        exact hDir hMaps.dir hUser hMaps.table
    | table d =>
        obtain ⟨hUser, hPresent, _⟩ := pageRefs_table.mp hr
        exact hDir d.isLt hUser hPresent
    | task s =>
        obtain ⟨hs, hTask, _⟩ := pageRefs_task.mp hr
        exact hNone s ⟨Nat.one_le_iff_ne_zero.mpr fun h0 => hs (Fin.ext h0), s.isLt, hTask⟩
  rw [h.mm.count_eq hi, count_eq_zero hRefs, Nat.add_zero]

/-- Up to 4MB the pages that task 0 shares with a child are not in main
memory. -/
theorem sourcesUsed_small (h : KernelInvariant extMemK image k)
    (hSmall : (memoryEnd extMemK).toNat ≤ 0x400000) : SourcesUsed 0 0xa0 k.mm := by
  intro i hi n hn e hMaps hLow hMem
  obtain ⟨hLt, hZero⟩ := Mm.mem_freePages.mp hMem
  have hBoot : i < 4 := by
    by_contra hGap
    exact h.mm.dir.gap (16 * 0 + i) (by omega) (by omega) hMaps.table
  obtain ⟨x, hIdentity, hFrame⟩ := h.mm.entries.identity (16 * 0 + i) (by omega) n hMaps.index
  obtain rfl := hMaps.unique hIdentity
  have hMain := h.mm.free_main hLt hZero
  rw [pageAddr_mapNr hLow (frame_mod e) (by omega)] at hMain
  have hHigh := hMain.high
  rw [BitVec.le_def, lowMem_toNat] at hLow
  omega

/-- Above 4MB the first fork finds more pages than it can use up. -/
theorem room (h : KernelInvariant extMemK image k) (hNone : ∀ s, ¬Occupied k s)
    (hBig : 0x400000 < (memoryEnd extMemK).toNat) : 485 ≤ k.mm.freePages.card := by
  have hStart := mainMemoryStart_toNat extMemK
  have hRange := memoryRange extMemK
  have hHigh := hRange.high
  have hSub : Finset.Ico (((mainMemoryStart extMemK).toNat - 0x100000) / 4096)
      (((mainMemoryStart extMemK).toNat - 0x100000) / 4096 + 485) ⊆ k.mm.freePages := by
    intro i hi
    rw [Finset.mem_Ico] at hi
    have hLt : i < pagingPages := by
      rw [pagingPages_eq]
      split_ifs at hStart <;> omega
    refine Mm.mem_freePages.mpr ⟨hLt, BitVec.eq_of_toNat_eq ?_⟩
    rw [h.boot_count hNone hLt, baseCount, if_pos (by split_ifs at hStart <;> omega)]
    rfl
  have hCard := Finset.card_le_card hSub
  rw [Nat.card_Ico] at hCard
  omega

/-- A fork that comes to the end of the pool has found fewer than five pages. -/
theorem stop_few (h : KernelInvariant extMemK image k) (hLive : Live k p) {t : Nat}
    (hStops : ForkStops p t k.mm) : k.mm.freePages.card < 5 := by
  have hFew := hStops.few
  have hBound := hStops.bound
  rcases hLive with rfl | hOccupied
  · by_cases hNone : ∀ s, ¬Occupied k s
    · by_cases hSmall : (memoryEnd extMemK).toNat ≤ 0x400000
      · have hCount := hStops.count (h.sourcesUsed_small hSmall)
        omega
      · have hRoom := h.room hNone (by omega)
        simp only [copyCount, if_true] at hBound
        omega
    · have hCount := hStops.count (h.windows (by simpa using hNone))
      omega
  · have hCount := hStops.count (h.mm.sourcesUsed hOccupied.pos _)
    omega

variable (regs) in

/-- A fork with its bases read right makes a child, or it runs out of memory. -/
theorem copyProcess_cases (h : KernelInvariant extMemK image k) (hCurrent : k.current = taskAddr image k p)
    (hLive : Live k p) (hNr : 1 ≤ nr ∧ nr < 64) (hEmpty : k.task nr = 0#32) (hBases : BasesRead ram k) :
    (¬MemoryRunsOut nr k ∧ ∃ k', ForkMade extMemK p nr regs k k' ∧
        Linux011.copyProcess ram nr regs k = .ok (k.lastPid, k')) ∨
      MemoryRunsOut nr k ∧ k.mm.freePages.card < 5 := by
  have hParent := h.segments_live hLive
  rw [← hCurrent] at hParent
  rcases getFreePage_cases h.mm.highInUse with ⟨hFull, hCall⟩ | ⟨i, hi, hFree, _, hCall⟩
  · have hNone := Mm.freePages_eq_empty.mpr hFull
    exact Or.inr ⟨⟨_, _, hCall, Or.inl rfl⟩, by rw [hNone, Finset.card_empty]; omega⟩
  · have hPage := pageAddr_ne_noPage hi
    have hReady := (h.ready hLive hNr hEmpty).takePage h.mm hi hFree
    rcases copyPageTables_cases hReady (h.inv_withChild hNr hEmpty hi hFree) with
      ⟨hFound, mm, hCopied, hCopy⟩ | ⟨hShort, t, mm, ht, hCopied, hNone⟩
    · refine Or.inl ⟨?_, _, h.forkMade hLive hNr hEmpty hi hFree hCopied, ?_⟩
      · rintro ⟨page, mm', hCall', hShort⟩
        obtain ⟨rfl, rfl⟩ := Prod.mk.inj (Except.ok.inj (hCall.symm.trans hCall'))
        rw [hParent.dataBase, hParent.dataLimit] at hShort
        exact hShort.elim hPage fun hNone => hNone hFound
      · have hMem : copyPageTables (k.withChild nr (pageAddr i) (k.mm.takePage i) regs).mm (taskBase p) (taskBase nr)
            dataLimit = .ok (0#32, mm) := by
          rw [Kernel.withChild_page hPage, Kernel.setTask_mm, Kernel.setSlot_mm]
          exact hCopy
        rw [copyProcess_filled hCall (copyMem_ok (h.segments_withChild hCurrent hLive hi hFree)
          (h.bases_withChild hCurrent hLive hi hFree hBases) hPage hMem), Kernel.withChild_page hPage]
        rfl
    · refine Or.inr ⟨⟨_, _, hCall, Or.inr ?_⟩,
        h.stop_few hLive (h.stops hLive hNr hEmpty hi hFree hCopied ht hNone)⟩
      rw [hParent.dataBase, hParent.dataLimit]
      exact hShort

variable (regs) in

/-- What `copy_process` does when it has what it needs. -/
theorem copyProcess (h : KernelInvariant extMemK image k) (hCurrent : k.current = taskAddr image k p)
    (hLive : Live k p) (hNr : 1 ≤ nr ∧ nr < 64) (hEmpty : k.task nr = 0#32) (hProvided : Provided ram k) :
    ∃ k', ForkMade extMemK p nr regs k k' ∧ Linux011.copyProcess ram nr regs k = .ok (k.lastPid, k') := by
  rcases h.copyProcess_cases regs hCurrent hLive hNr hEmpty hProvided.toBasesRead with ⟨_, hMade⟩ | ⟨_, hFew⟩
  · exact hMade
  · have hPages := hProvided.pages
    omega

end KernelInvariant

end

end Linux011

import Linux011.Mm.CopyWindow

/-! What `copy_page_tables` leaves of memory: it writes to the directory, to tables and to
pages that were free. -/
namespace Linux011

open ByteMemory SharedRefs

/-- The byte is in no table, nor in the directory. -/
structure Mm.OffTables (mm : Mm) (a : Nat) : Prop where
  dir : 4096 ≤ a
  table : ∀ d < 1024, Present (mm.pde d) → Outside (mm.table d).toNat 4096 a

/-- Nor on a free page. -/
structure Mm.Quiet (mm : Mm) (a : Nat) : Prop extends mm.OffTables a where
  pool : ∀ i < pagingPages, mm.memMap i = 0#8 → Outside (pageAddr i).toNat 4096 a

section

variable {extMemK : BitVec 16} {task : Nat → BitVec 32} {mm mm' : Mm} {p k nr t d size a x : Nat}

theorem Mm.OffTables.congr (h : mm.OffTables a) (hDir : ∀ d < 1024, Present (mm'.pde d) → mm'.pde d = mm.pde d) :
    mm'.OffTables a where
  dir := h.dir
  table := by
    intro d hd hPresent
    have hSame := hDir d hd hPresent
    rw [hSame] at hPresent
    rw [Mm.table, hSame]
    exact h.table d hd hPresent

theorem Window.copyTable_pde {count d : Nat} (h : Window extMemK task p nr count t mm) (ht : t < 4)
    (hi : i < pagingPages) (hFree : mm.memMap i = 0#8) (hd : d < 1024) :
    (copyPageTable count (mm.table (16 * p + t)).toNat (pageAddr i).toNat
      ((mm.takePage i).setPde (16 * nr + t) (pageAddr i ||| 7#32))).pde d =
        if d = 16 * nr + t then pageAddr i ||| 7#32 else mm.pde d := by
  have hChild := h.child
  have hParent := h.parent
  have hApart := h.apart
  have hFrom : ((mm.takePage i).setPde (16 * nr + t) (pageAddr i ||| 7#32)).table (16 * p + t) =
      mm.table (16 * p + t) := by
    rw [Mm.table, h.inv.installTable_pde hi hFree (by omega), if_neg (by omega), Mm.table]
  have hTo : ((mm.takePage i).setPde (16 * nr + t) (pageAddr i ||| 7#32)).table (16 * nr + t) = pageAddr i := by
    rw [Mm.table_setPde_self (by omega), frame_or_seven (pageAddr_aligned hi)]
  have hCopied := ((h.round ht hi hFree).copyPageTable (Nat.zero_le count)).dir d hd
  rw [hFrom, hTo, Nat.mul_zero, Nat.add_zero, Nat.add_zero, Nat.sub_zero, h.inv.installTable_pde hi hFree hd]
    at hCopied
  exact hCopied

/-- One round of the outer loop of `copy_page_tables`. -/
theorem Window.copyTable_quiet {i : Nat} (h : Window extMemK task p k nr t mm) (ht : t < 4) (hi : i < pagingPages)
    (hFree : mm.memMap i = 0#8) (hQuiet : mm.Quiet a) :
    let mm' := copyPageTable nr (mm.table (16 * p + t)).toNat (pageAddr i).toNat
      ((mm.takePage i).setPde (16 * k + t) (pageAddr i ||| 7#32))
    mm'.mem a = mm.mem a ∧ mm'.Quiet a := by
  intro mm'
  have hChild := h.child
  have hParent := h.parent
  have hLimit := h.limit
  have hPresent := h.fromDirs t ht
  have hTable := hQuiet.table _ (by omega) hPresent
  have hPage := hQuiet.pool i hi hFree
  have hDirByte := hQuiet.dir
  have hApart : (mm.table (16 * p + t)).toNat ≠ (pageAddr i).toNat := fun hSame =>
    h.inv.takePage_used hi hFree (by omega) hPresent (BitVec.eq_of_toNat_eq hSame)
  have hAligned := mm.table_mod (16 * p + t)
  have hAligned' := pageAddr_aligned hi
  unfold Outside at hTable hPage
  refine ⟨?_, ⟨hDirByte, fun d hd hThere => ?_⟩, fun j hj hZero => hQuiet.pool j hj ?_⟩
  · have hShared : TableShared nr (mm.table (16 * p + t)).toNat (pageAddr i).toNat
        ((mm.takePage i).setPde (16 * k + t) (pageAddr i ||| 7#32)) _ := copyPageTable_shared _ (by omega)
    refine (hShared.mem a (by unfold Outside; omega) (by unfold Outside; omega)).trans ?_
    rw [Mm.setPde, Mm.store_mem, store32_outside _ _ _ (by omega), mm.takePage_outside hi hPage]
  · have hEntry : mm'.pde d = _ := h.copyTable_pde ht hi hFree hd
    split_ifs at hEntry with hNew
    · rw [Mm.table, hEntry, frame_or_seven (pageAddr_aligned hi)]
      exact hPage
    · rw [hEntry] at hThere
      rw [Mm.table, hEntry]
      exact hQuiet.table d hd hThere
  · have hPool := (h.copyTable ht hi hFree).free (Mm.mem_freePages.mpr ⟨hj, hZero⟩)
    exact (Mm.mem_freePages.mp hPool).2

/-- The outer loop, as long as it finds its pages. -/
theorem Window.copyPageDirs_quiet {from_ r : BitVec 32} (h : Window extMemK task p k nr t mm) (hSize : t + size = 4)
    (hNr : (if from_ = 0#32 then 0xa0 else 1024) = nr) (hQuiet : mm.Quiet a)
    (hFound : PagesFound from_ size (4 * (16 * p + t)) (4 * (16 * k + t)) mm)
    (hCall : Linux011.copyPageDirs from_ size (4 * (16 * p + t)) (4 * (16 * k + t)) mm = .ok (r, mm')) :
    mm'.mem a = mm.mem a ∧ mm'.Quiet a := by
  induction size generalizing t mm with
  | zero =>
      obtain ⟨_, rfl⟩ := Prod.mk.inj (Except.ok.inj hCall)
      exact ⟨rfl, hQuiet⟩
  | succ size ih =>
      have hParent := h.parent
      have hTo : ¬1#32 &&& mm.load (4 * (16 * k + t)) ≠ 0#32 := h.todo t (by omega) (Nat.le_refl t)
      have hFrom : ¬1#32 &&& mm.load (4 * (16 * p + t)) = 0#32 := h.fromDirs t (by omega)
      have hMask : 0xfffff00#32 &&& mm.load (4 * (16 * p + t)) = mm.table (16 * p + t) :=
        h.inv.dir.paged.mask _ (by omega) (h.fromDirs t (by omega))
      rcases getFreePage_cases h.inv.highInUse with ⟨_, hPage⟩ | ⟨i, hi, hFree, _, hPage⟩
      · exact absurd hFound (not_pagesFound hFrom hPage)
      · have hLaterFound := ((pagesFound_page hFrom hPage).mp hFound).2
        rw [copyPageDirs_page hTo hFrom hPage (pageAddr_ne_zero hi), hNr, hMask] at hCall
        rw [hNr, hMask] at hLaterFound
        obtain ⟨hMem, hLater⟩ := h.copyTable_quiet (by omega) hi hFree hQuiet
        obtain ⟨hRest, hEnd⟩ := ih (h.copyTable (by omega) hi hFree).window (by omega) hLater hLaterFound hCall
        exact ⟨hRest.trans hMem, hEnd⟩

end

end Linux011

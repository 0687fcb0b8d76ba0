import Linux011.Kernel.OutOfMemory
import Linux011.Mm.Undo

/-! How much a fork by task 0 shares: the cut-off of `copy_page_tables` at 0xa0 entries
holds in every page table, and the number of tables comes from the segment limit. -/
namespace Linux011

open ByteMemory SharedRefs

/-- The directory of task 0 as `setup_paging` leaves it. -/
structure BootDirs (mm : Mm) : Prop where
  pde : ∀ d < 4, mm.pde d = BitVec.ofNat 32 (0x1000 * (d + 1) + 7)
  absent : ∀ d, 4 ≤ d → d < 16 → ¬Present (mm.pde d)

section

variable {mm mm' mid : Mm} {size f t nr : Nat}

theorem BootDirs.present (h : BootDirs mm) {d : Nat} (hd : d < 4) : Present (mm.pde d) := by
  rw [h.pde d hd, ofNat_or_seven]
  exact present_or_seven _

theorem BootDirs.table (h : BootDirs mm) {d : Nat} (hd : d < 4) : (mm.table d).toNat = 0x1000 * (d + 1) := by
  rw [Mm.table, h.pde d hd, frame_boot (by omega)]

theorem BootDirs.mask (h : BootDirs mm) {d : Nat} (hd : d < 4) : 0xfffff00#32 &&& mm.pde d = mm.table d := by
  have hAddr : (BitVec.ofNat 32 (0x1000 * (d + 1))).toNat = 0x1000 * (d + 1) := by
    rw [BitVec.toNat_ofNat]
    omega
  rw [Mm.table, h.pde d hd, ofNat_or_seven, mask_or_seven (by omega) (by omega), frame_or_seven (by omega)]

theorem BootDirs.congr (h : BootDirs mm) (hPde : ∀ d < 16, mm'.pde d = mm.pde d) : BootDirs mm' where
  pde d hd := (hPde d (by omega)).trans (h.pde d hd)
  absent d hd hd' := by
    rw [hPde d hd']
    exact h.absent d hd hd'

/-- What one round of the outer loop leaves of them that has a page for directory entry `t`. -/
structure BootRound (f : Nat) (mm mm' : Mm) : Prop where
  dirs : BootDirs mm'
  entry : ∀ d < 4, ∀ n < 1024, mm'.pte d n = if d = f ∧ n < 0xa0 then shareEntry (mm.pte d n) else mm.pte d n

theorem BootDirs.round (h : BootDirs mm) (hf : f < 4) (ht : 16 ≤ t ∧ t < 1024) {page : BitVec 32} {taken : Mm}
    (hCall : getFreePage mm = .ok (page, taken)) (hPage : page ≠ noPage) :
    BootRound f mm (copyPageTable 0xa0 (mm.table f).toNat page.toNat (taken.setPde t (page ||| 7#32))) := by
  obtain ⟨hNone | hLow, hTaken⟩ := getFreePage_low hCall
  · exact absurd hNone hPage
  rw [BitVec.le_def, lowMem_toNat] at hLow
  have hTable := h.table hf
  generalize hStart : taken.setPde t (page ||| 7#32) = start
  have hShared : TableShared 0xa0 (mm.table f).toNat page.toNat start
      (copyPageTable 0xa0 (mm.table f).toNat page.toNat start) := copyPageTable_shared start (by omega)
  -- the new table and its directory entry lie elsewhere
  have hBefore {x : Nat} (hx : x < 0x100000) (hDir : x < 64 ∨ 4096 ≤ x) : start.mem x = mm.mem x := by
    rw [← hStart]
    exact (store32_outside _ _ _ (by omega)).trans (hTaken x hx)
  have hPde (d : Nat) (hd : d < 16) :
      (copyPageTable 0xa0 (mm.table f).toNat page.toNat start).pde d = mm.pde d :=
    Mm.pde_congr fun x hx => (hShared.mem x (by unfold Outside; omega) (by unfold Outside; omega)).trans
      (hBefore (by omega) (by omega))
  refine ⟨h.congr hPde, fun d hd n hn => ?_⟩
  have hTable' := h.table hd
  have hSame : (copyPageTable 0xa0 (mm.table f).toNat page.toNat start).table d = mm.table d :=
    congrArg frame (hPde d (by omega))
  rw [Mm.pte, hSame]
  by_cases hIn : d = f ∧ n < 0xa0
  · obtain ⟨rfl, hIn⟩ := hIn
    rw [if_pos ⟨rfl, hIn⟩, hShared.source n hIn, Mm.pte]
    exact congrArg shareEntry (load32_congr fun x hx hx' => hBefore (by omega) (by omega))
  · rw [if_neg hIn]
    exact load32_congr fun x hx hx' =>
      (hShared.mem x (by unfold Outside; omega) (by unfold Outside; omega)).trans (hBefore (by omega) (by omega))

/-- The outer loop takes the write bit from the first 0xa0 entries of every table that
it comes to. -/
theorem BootDirs.copyPageDirs (h : BootDirs mm) (hFrom : f + size ≤ 16) (hTo : 16 ≤ t ∧ t + size ≤ 1024)
    (hFound : PagesFound 0#32 size (4 * f) (4 * t) mm)
    (hRun : copyPageDirs 0#32 size (4 * f) (4 * t) mm = .ok (0#32, mm')) :
    ∀ d < 4, ∀ n < 1024, mm'.pte d n =
      if f ≤ d ∧ d < f + size ∧ n < 0xa0 then shareEntry (mm.pte d n) else mm.pte d n := by
  induction size generalizing f t mm with
  | zero =>
      obtain ⟨_, rfl⟩ := Prod.mk.inj (Except.ok.inj hRun)
      exact fun d _ n _ => (if_neg (by omega)).symm
  | succ size ih =>
      intro d hd n hn
      by_cases hEmpty : Present (mm.pde t)
      · have hTaken : 1#32 &&& mm.load (4 * t) ≠ 0#32 := hEmpty
        rw [Linux011.copyPageDirs, if_pos hTaken] at hRun
        cases hRun
      · by_cases hf : f < 4
        · have hPresent : ¬1#32 &&& mm.load (4 * f) = 0#32 := h.present hf
          have hFree : ¬1#32 &&& mm.load (4 * t) ≠ 0#32 := hEmpty
          cases hCall : getFreePage mm with
          | error stop =>
              rw [Linux011.copyPageDirs, if_neg hFree, if_neg hPresent, hCall] at hRun
              cases hRun
          | ok result =>
              obtain ⟨page, taken⟩ := result
              obtain ⟨hPage, hLater⟩ := (pagesFound_page hPresent hCall).mp hFound
              rw [if_pos rfl, load_pde, h.mask hf] at hLater
              rw [copyPageDirs_page hFree hPresent hCall (getFreePage_ne_zero hCall), load_pde, h.mask hf] at hRun
              have hRound := h.round hf ⟨hTo.1, by omega⟩ hCall hPage
              have hRest := ih hRound.dirs (f := f + 1) (t := t + 1) (by omega) (by omega) hLater hRun d hd n hn
              rw [hRest, hRound.entry d hd n hn]
              split_ifs <;> first | rfl | omega
        · have hAbsent := h.absent f (by omega) (by omega)
          rw [copyPageDirs_absent hEmpty (not_not.mp hAbsent)] at hRun
          have hLater := (pagesFound_absent (not_not.mp hAbsent)).mp hFound
          rw [ih h (f := f + 1) (t := t + 1) (by omega) (by omega) hLater hRun d hd n hn, if_neg (by omega),
            if_neg (by omega)]

end

/-- The page tables of task 0 as `setup_paging` makes them, none yet for the child's
slot, and any pages free below `HIGH_MEMORY`. -/
structure FirstFork (nr : Nat) (mm : Mm) : Prop where
  child : 1 ≤ nr ∧ nr < 64
  dirs : BootDirs mm
  entry : ∀ d < 4, ∀ n < 1024, mm.pte d n = BitVec.ofNat 32 (0x1000 * (1024 * d + n) + 7)
  empty : ∀ i < 16, ¬Present (mm.pde (16 * nr + i))
  pool : mm.HighInUse

/-- The child has entries below 640KB only, no count but that of a new table has moved,
and task 0 can write wherever it could from `LOW_MEM` on. -/
structure SharesFirst640K (nr : Nat) (mm mm' : Mm) : Prop where
  low : ∀ i < 16, ∀ n e, mm'.Maps (16 * nr + i) n e → 0x400000 * i + 0x1000 * n < 0xa0000
  counts : ∀ j, mm'.memMap j = mm.memMap j ∨ mm.memMap j = 0#8 ∧ mm'.memMap j = 1#8 ∧
    ∃ i < 16, Present (mm'.pde (16 * nr + i)) ∧ mm'.table (16 * nr + i) = pageAddr j
  writable : ∀ d < 16, ∀ n e, mm.Maps d n e → lowMem ≤ frame e → Writable e → Writable (mm'.pte d n)

section

variable {mm mm' : Mm} {nr : Nat} {limit : BitVec 32}

theorem taskSize_toNat : taskSize.toNat = 0x4000000 := rfl

theorem FirstFork.copyPageTables_eq (h : FirstFork nr mm) (hHigh : limit ≤ taskSize) :
    copyPageTables mm 0#32 (taskBase nr) limit =
      copyPageDirs 0#32 (dirCount limit) (4 * 0) (4 * (16 * nr + 0)) mm := by
  rw [BitVec.le_def, taskSize_toNat] at hHigh
  have hFrom : ((0#32 >>> 20) &&& 0xffc#32).toNat = 4 * 0 := by decide
  rw [copyPageTables, if_neg (by simp [taskBase_aligned h.child.2]), shift_dirCount (by omega), hFrom,
    taskBase_dir h.child.2]

theorem FirstFork.pagesFound (h : FirstFork nr mm) (hHigh : limit ≤ taskSize)
    (hFound : CopyPagesFound mm 0#32 (taskBase nr) limit) :
    PagesFound 0#32 (dirCount limit) (4 * 0) (4 * (16 * nr + 0)) mm := by
  rw [BitVec.le_def, taskSize_toNat] at hHigh
  rwa [CopyPagesFound, shift_dirCount (by omega), taskBase_dir h.child.2] at hFound

/-- The page at 4MB is the first that a second table names. -/
theorem FirstFork.second_table (h : FirstFork nr mm) : Present (mm.pte 1 0) ∧ frame (mm.pte 1 0) = 0x400000#32 := by
  rw [h.entry 1 (by omega) 0 (by omega)]
  decide

/-- The entries of task 0 after the fork. -/
theorem FirstFork.entry_after (h : FirstFork nr mm) (hHigh : limit ≤ taskSize)
    (hFound : CopyPagesFound mm 0#32 (taskBase nr) limit)
    (hRun : copyPageTables mm 0#32 (taskBase nr) limit = .ok (0#32, mm')) {d n : Nat} (hd : d < 4) (hn : n < 1024) :
    mm'.pte d n = if d < dirCount limit ∧ n < 0xa0 then shareEntry (mm.pte d n) else mm.pte d n := by
  have hChild := h.child
  have hPages := h.pagesFound hHigh hFound
  rw [h.copyPageTables_eq hHigh] at hRun
  rw [BitVec.le_def, taskSize_toNat] at hHigh
  have hCount : dirCount limit ≤ 16 := by
    unfold dirCount
    omega
  have hEntry := h.dirs.copyPageDirs (by omega) (by omega) hPages hRun d hd n hn
  simpa only [Nat.zero_le, Nat.zero_add, true_and] using hEntry

/-- With a second directory entry in reach, task 0 can no longer write at 4MB. -/
theorem FirstFork.not_writable (h : FirstFork nr mm) (hHigh : limit ≤ taskSize) (hTwo : 0x400000#32 < limit)
    (hFound : CopyPagesFound mm 0#32 (taskBase nr) limit)
    (hRun : copyPageTables mm 0#32 (taskBase nr) limit = .ok (0#32, mm')) : ¬Writable (mm'.pte 1 0) := by
  rw [BitVec.lt_def, BitVec.toNat_ofNat] at hTwo
  have hCount : 1 < dirCount limit := by
    unfold dirCount
    omega
  obtain ⟨hPresent, hFrame⟩ := h.second_table
  rw [h.entry_after hHigh hFound hRun (by omega) (by omega), if_pos ⟨hCount, by omega⟩]
  exact not_writable_shareEntry hPresent (by rw [hFrame]; decide)

/-- Up to 4MB the copy has one table to make. -/
theorem FirstFork.one_table (h : FirstFork nr mm) (hHigh : limit ≤ taskSize) (hCount : dirCount limit = 1)
    (hFound : CopyPagesFound mm 0#32 (taskBase nr) limit)
    (hRun : copyPageTables mm 0#32 (taskBase nr) limit = .ok (0#32, mm')) :
    ∃ p < pagingPages, mm.memMap p = 0#8 ∧ Installed 0xa0 0 (16 * nr) p mm mm' := by
  have hChild := h.child
  have hTable := h.dirs.table (d := 0) (by omega)
  have hSource : SourceTable mm 0 := by
    refine ⟨by omega, fun hManaged => ?_, h.dirs.mask (by omega)⟩
    rw [BitVec.le_def, lowMem_toNat] at hManaged
    omega
  have hEmpty : ¬Present (mm.pde (16 * nr)) := h.empty 0 (by omega)
  have hPresent := h.dirs.present (d := 0) (by omega)
  have hPages := h.pagesFound hHigh hFound
  rw [hCount] at hPages
  rw [h.copyPageTables_eq hHigh, hCount] at hRun
  rcases getFreePage_cases h.pool with ⟨_, hCall⟩ | ⟨p, hp, hFree, _, hCall⟩
  · exact absurd hPages (not_pagesFound hPresent hCall)
  · have hStep := (copyPageDirs_install (if_pos rfl) hEmpty hPresent hSource.mask hp hCall).symm.trans hRun
    obtain ⟨_, rfl⟩ := Prod.mk.inj (Except.ok.inj hStep)
    exact ⟨p, hp, hFree, hSource.installed (by omega) (by omega) hp hFree⟩

/-- The entries of the first 640KB name no managed page. -/
theorem FirstFork.tableNames (h : FirstFork nr mm) (j : Nat) :
    mm.tableNames j 0xa0 (mm.table 0).toNat = 0 := by
  have hNone {n : Nat} (hn : n < 0xa0) : entryNames j (mm.load ((mm.table 0).toNat + 4 * n)) = 0 := by
    have hEntry : mm.load ((mm.table 0).toNat + 4 * n) = BitVec.ofNat 32 (0x1000 * (1024 * 0 + n) + 7) :=
      h.entry 0 (by omega) n (by omega)
    rw [hEntry, entryNames, managed_of_lt, if_neg (by simp)]
    rw [BitVec.lt_def, frame_boot (by omega), lowMem_toNat]
    omega
  exact Mm.tableNames_eq_zero fun n hn => hNone hn

theorem FirstFork.shares (h : FirstFork nr mm) (hLow : 0xa0000#32 ≤ limit) (hOne : limit ≤ 0x400000#32)
    (hFound : CopyPagesFound mm 0#32 (taskBase nr) limit)
    (hRun : copyPageTables mm 0#32 (taskBase nr) limit = .ok (0#32, mm')) : SharesFirst640K nr mm mm' := by
  have hChild := h.child
  rw [BitVec.le_def, BitVec.toNat_ofNat] at hLow hOne
  have hHigh : limit ≤ taskSize := by
    rw [BitVec.le_def, taskSize_toNat]
    omega
  have hDirs : dirCount limit = 1 := by
    unfold dirCount
    omega
  obtain ⟨p, hp, hFree, hInstalled⟩ := h.one_table hHigh hDirs hFound hRun
  have hPde : mm'.pde (16 * nr) = pageAddr p ||| 7#32 := by rw [hInstalled.pde _ (by omega), if_pos rfl]
  have hNew : mm'.table (16 * nr) = pageAddr p := by rw [Mm.table, hPde, frame_or_seven (pageAddr_aligned hp)]
  refine ⟨fun i hi n e hMaps => ?_, fun j => ?_, fun d hd n e hMaps hManaged hWrite => ?_⟩
  · have hThere := hMaps.table
    by_cases hFirst : i = 0
    · subst i
      have hTarget := hInstalled.target n hMaps.index
      have hEntry : mm'.load ((pageAddr p).toNat + 4 * n) = e := by
        rw [← hNew]
        exact hMaps.entry
      rw [hEntry] at hTarget
      by_cases hIn : n < 0xa0
      · omega
      · rw [if_neg fun hBoth => hIn hBoth.1] at hTarget
        exact absurd (hTarget ▸ hMaps.present) not_present_zero
    · rw [hInstalled.pde _ hMaps.dir, if_neg (by omega)] at hThere
      exact absurd hThere (h.empty i hi)
  · have hCount := hInstalled.count j
    rw [h.tableNames j, Nat.add_zero] at hCount
    by_cases hj : p = j
    · subst j
      rw [if_pos rfl, hFree] at hCount
      refine Or.inr ⟨hFree, BitVec.eq_of_toNat_eq (hCount (by decide)), 0, by omega, ?_, hNew⟩
      exact hPde ▸ present_or_seven _
    · rw [if_neg hj, Nat.add_zero] at hCount
      exact Or.inl (BitVec.eq_of_toNat_eq (hCount (Nat.le_of_lt_succ (mm.memMap j).isLt)))
  · have hd4 : d < 4 := by
      by_contra hAbove
      exact h.dirs.absent d (by omega) hd hMaps.table
    have hFrame : (frame e).toNat = 0x1000 * (1024 * d + n) := by
      rw [← hMaps.entry, h.entry d hd4 n hMaps.index, frame_boot (by have := hMaps.index; omega)]
    rw [BitVec.le_def, lowMem_toNat, hFrame] at hManaged
    rwa [h.entry_after hHigh hFound hRun hd4 hMaps.index, if_neg (by omega), hMaps.entry]

theorem FirstFork.shares_more (h : FirstFork nr mm) (hHigh : limit ≤ taskSize) (hTwo : 0x400000#32 < limit)
    (hFound : CopyPagesFound mm 0#32 (taskBase nr) limit)
    (hRun : copyPageTables mm 0#32 (taskBase nr) limit = .ok (0#32, mm')) : ¬SharesFirst640K nr mm mm' := by
  intro hShares
  obtain ⟨hPresent, hFrame⟩ := h.second_table
  have hMaps : mm.Maps 1 0 (mm.pte 1 0) := ⟨by omega, by omega, h.dirs.present (by omega), rfl, hPresent⟩
  have hWrite : Writable (mm.pte 1 0) := by
    rw [h.entry 1 (by omega) 0 (by omega)]
    decide
  exact h.not_writable hHigh hTwo hFound hRun (hShares.writable 1 (by omega) 0 _ hMaps (by rw [hFrame]; decide) hWrite)

/-- When the copy finds its pages, the cut-off at 640KB holds as long as the segment has
one page table. -/
theorem first_fork_shares_iff (h : FirstFork nr mm) (hLow : 0xa0000#32 ≤ limit) (hHigh : limit ≤ taskSize)
    (hFound : CopyPagesFound mm 0#32 (taskBase nr) limit)
    (hRun : copyPageTables mm 0#32 (taskBase nr) limit = .ok (0#32, mm')) :
    SharesFirst640K nr mm mm' ↔ limit ≤ 0x400000#32 := by
  constructor
  · intro hShares
    by_contra hTwo
    exact h.shares_more hHigh (BitVec.not_le.mp hTwo) hFound hRun hShares
  · exact fun hOne => h.shares hLow hOne hFound hRun

/-- With a free page the copy of one table succeeds. -/
theorem FirstFork.succeeds (h : FirstFork nr mm) (hHigh : limit ≤ taskSize) (hCount : dirCount limit = 1)
    (hFree : mm.freePages.Nonempty) : CopyPagesFound mm 0#32 (taskBase nr) limit ∧
      ∃ mm', copyPageTables mm 0#32 (taskBase nr) limit = .ok (0#32, mm') := by
  have hEmpty : ¬Present (mm.pde (16 * nr)) := h.empty 0 (by omega)
  have hPresent := h.dirs.present (d := 0) (by omega)
  rcases getFreePage_cases h.pool with ⟨hFull, _⟩ | ⟨p, hp, _, _, hCall⟩
  · obtain ⟨i, hi⟩ := hFree
    obtain ⟨hLt, hZero⟩ := Mm.mem_freePages.mp hi
    exact absurd hZero (hFull i hLt)
  · constructor
    · rw [BitVec.le_def, taskSize_toNat] at hHigh
      rw [CopyPagesFound, shift_dirCount (by omega), taskBase_dir h.child.2, hCount]
      exact (pagesFound_page hPresent hCall).mpr ⟨pageAddr_ne_noPage hp, trivial⟩
    · rw [h.copyPageTables_eq hHigh, hCount]
      exact ⟨_, copyPageDirs_install (if_pos rfl) hEmpty hPresent (h.dirs.mask (by omega)) hp hCall⟩

end

/-- Boot leaves such tables. -/
theorem bootMm_firstFork (extMemK : BitVec 16) (m : Memory) {nr : Nat} (hNr : 1 ≤ nr ∧ nr < 64) :
    FirstFork nr (bootMm extMemK m) where
  child := hNr
  dirs := by
    refine ⟨fun d hd => bootMm_pde extMemK m hd, fun d hd hd' => ?_⟩
    rw [bootMm_present extMemK m (by omega)]
    omega
  entry d hd n hn := bootMm_pte extMemK m hd hn
  empty i hi := by
    rw [bootMm_present extMemK m (by omega)]
    omega
  pool := (@bootMm_inv extMemK m (fun _ => 0#32) fun _ _ _ => rfl).highInUse

theorem smallKernel_firstFork (extMemK : BitVec 16) : FirstFork 1 (smallKernel extMemK).mm := by
  rw [smallKernel, bootKernel_mm]
  exact bootMm_firstFork extMemK _ (by omega)

theorem smallKernel_room : 485 ≤ (smallKernel 15360#16).mm.freePages.card :=
  (smallKernel_reaches 15360#16).inv.room (smallKernel_unoccupied 15360#16) (by decide)

/-- On a machine of 16MB the first fork copies four tables: task 0 loses the page at
4MB, and `do_wp_page` has only a panic for its write there. -/
theorem first_fork_shares_more : ∃ mm', FirstFork 1 (smallKernel 15360#16).mm ∧
    CopyPagesFound (smallKernel 15360#16).mm 0#32 (taskBase 1) dataLimit ∧
    copyPageTables (smallKernel 15360#16).mm 0#32 (taskBase 1) dataLimit = .ok (0#32, mm') ∧
    ¬SharesFirst640K 1 (smallKernel 15360#16).mm mm' ∧ ¬Writable (mm'.pte 1 0) ∧
    doWpPage mm' 0x400000#32 = .error (.panic "do_wp_page called for user space address") := by
  have hFork := smallKernel_firstFork 15360#16
  have hRoom := smallKernel_room
  have hInv := (smallKernel_reaches 15360#16).inv.mm
  generalize smallKernel 15360#16 = k at hFork hRoom hInv
  have hReady : ForkReady 0 1 k.mm := by
    refine ⟨by omega, by omega, by omega, fun i hi => ?_, hFork.empty⟩
    rw [Nat.mul_zero, Nat.zero_add]
    exact hFork.dirs.present hi
  rcases copyPageTables_cases hReady hInv with ⟨hFound, mm', _, hRun⟩ | ⟨_, t, mm', ht, hCopied, hNone⟩
  · have hLost := hFork.not_writable (by decide) (by decide) hFound hRun
    exact ⟨mm', hFork, hFound, hRun, hFork.shares_more (by decide) (by decide) hFound hRun, hLost,
      if_pos (by decide)⟩
  · have hBound := hCopied.bound
    rw [hNone, Finset.card_empty] at hBound
    simp only [copyCount, if_true] at hBound
    omega

theorem first_fork_shares_iff_640K : ∃ mm', copyPageTables (smallKernel 15360#16).mm 0#32 (taskBase 1) 0xa0000#32 =
      .ok (0#32, mm') ∧ (SharesFirst640K 1 (smallKernel 15360#16).mm mm' ↔ 0xa0000#32 ≤ 0x400000#32) := by
  have hFork := smallKernel_firstFork 15360#16
  have hRoom := smallKernel_room
  obtain ⟨hFound, mm', hRun⟩ := hFork.succeeds (show 0xa0000#32 ≤ taskSize by decide) (by decide)
    (Finset.card_pos.mp (by omega))
  exact ⟨mm', hRun, first_fork_shares_iff hFork (by decide) (by decide) hFound hRun⟩

end Linux011

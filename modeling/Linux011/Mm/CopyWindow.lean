import Linux011.Mm.TableLoops

/-! `copy_page_tables` between any two ranges of a page directory, of which only the
tables concerned are known. Directory entries are named by their index. -/
namespace Linux011

open ByteMemory SharedRefs

theorem load_pde (mm : Mm) (d : Nat) : mm.load (4 * d) = mm.pde d := rfl

/-- How many entries of the tables under `size` directory entries from `d` on name
page `j`. -/
def Mm.sourceNames (mm : Mm) (j : Nat) : Nat → Nat → Nat
  | 0, _ => 0
  | size + 1, d =>
      (if Present (mm.pde d) then mm.tableNames j 1024 (mm.table d).toNat else 0) + mm.sourceNames j size (d + 1)

/-- The same, with the directory entries themselves. -/
def Mm.windowNames (mm : Mm) (j : Nat) : Nat → Nat → Nat
  | 0, _ => 0
  | size + 1, d =>
      (if Present (mm.pde d) then mm.tableNames j 1024 (mm.table d).toNat else 0) + entryNames j (mm.pde d) +
        mm.windowNames j size (d + 1)

/-- A table that the loops may take their entries from: an allocated page or a table
below `lowMem`, and the mask `0xfffff00` finds it. -/
structure SourceTable (mm : Mm) (d : Nat) : Prop where
  range : 4096 ≤ (mm.table d).toNat
  used : lowMem ≤ mm.table d → mm.memMap (mapNr (mm.table d)) ≠ 0#8
  mask : 0xfffff00#32 &&& mm.pde d = mm.table d

/-- A page that is free is no such table. -/
theorem SourceTable.apart {mm : Mm} {d p : Nat} (h : SourceTable mm d) (hp : p < pagingPages)
    (hFree : mm.memMap p = 0#8) :
    (mm.table d).toNat + 4096 ≤ (pageAddr p).toNat ∨ (pageAddr p).toNat + 4096 ≤ (mm.table d).toNat := by
  have hne : (mm.table d).toNat ≠ (pageAddr p).toNat := by
    intro hSame
    have hPage : mm.table d = pageAddr p := BitVec.eq_of_toNat_eq hSame
    have hUsed := h.used (hPage ▸ lowMem_le_pageAddr hp)
    rw [hPage, mapNr_pageAddr hp] at hUsed
    exact hUsed hFree
  have hMod := mm.table_mod d
  have hMod' := pageAddr_aligned hp
  omega

/-- What one round of `copy_page_tables` leaves that has found page `p` for the table
of directory entry `t`. -/
structure Installed (nr f t p : Nat) (mm mm' : Mm) : Prop where
  high : mm'.highMemory = mm.highMemory
  pde : ∀ d < 1024, mm'.pde d = if d = t then pageAddr p ||| 7#32 else mm.pde d
  mem : ∀ x, 4096 ≤ x → Outside (mm.table f).toNat 4096 x → Outside (pageAddr p).toNat 4096 x → mm'.mem x = mm.mem x
  source : ∀ n < 1024, mm'.load ((mm.table f).toNat + 4 * n) =
    if n < nr then shareEntry (mm.load ((mm.table f).toNat + 4 * n)) else mm.load ((mm.table f).toNat + 4 * n)
  target : ∀ n < 1024, mm'.load ((pageAddr p).toNat + 4 * n) =
    if n < nr ∧ Present (mm.load ((mm.table f).toNat + 4 * n)) then
      mm.load ((mm.table f).toNat + 4 * n) &&& ~~~2#32 else 0#32
  count : ∀ j, (mm.memMap j).toNat + (if p = j then 1 else 0) + mm.tableNames j nr (mm.table f).toNat ≤ 255 →
    (mm'.memMap j).toNat =
      (mm.memMap j).toNat + (if p = j then 1 else 0) + mm.tableNames j nr (mm.table f).toNat

section

variable {mm mm' : Mm} {nr f t p : Nat}

/-- The state after the round. -/
def Mm.install (mm : Mm) (nr f t p : Nat) : Mm :=
  copyPageTable nr (mm.table f).toNat (pageAddr p).toNat ((mm.takePage p).setPde t (pageAddr p ||| 7#32))

theorem copyPageDirs_install {from_ : BitVec 32} {size : Nat} (hNr : (if from_ = 0#32 then 0xa0 else 1024) = nr)
    (hEmpty : ¬Present (mm.pde t)) (hPresent : Present (mm.pde f)) (hMask : 0xfffff00#32 &&& mm.pde f = mm.table f)
    (hp : p < pagingPages) (hCall : getFreePage mm = .ok (pageAddr p, mm.takePage p)) :
    copyPageDirs from_ (size + 1) (4 * f) (4 * t) mm =
      copyPageDirs from_ size (4 * (f + 1)) (4 * (t + 1)) (mm.install nr f t p) := by
  rw [copyPageDirs_page hEmpty hPresent hCall (pageAddr_ne_zero hp), hNr, load_pde, hMask]
  rfl

theorem pagesFound_install {from_ : BitVec 32} {size : Nat} (hNr : (if from_ = 0#32 then 0xa0 else 1024) = nr)
    (hPresent : Present (mm.pde f)) (hMask : 0xfffff00#32 &&& mm.pde f = mm.table f)
    (hCall : getFreePage mm = .ok (pageAddr p, mm.takePage p))
    (hFound : PagesFound from_ (size + 1) (4 * f) (4 * t) mm) :
    PagesFound from_ size (4 * (f + 1)) (4 * (t + 1)) (mm.install nr f t p) := by
  have hRest := ((pagesFound_page hPresent hCall).mp hFound).2
  rw [hNr, load_pde, hMask] at hRest
  exact hRest

theorem copyPageDirs_absent {from_ : BitVec 32} {size fromDir toDir : Nat}
    (hTo : ¬1#32 &&& mm.load toDir ≠ 0#32) (hFrom : 1#32 &&& mm.load fromDir = 0#32) :
    copyPageDirs from_ (size + 1) fromDir toDir mm = copyPageDirs from_ size (fromDir + 4) (toDir + 4) mm := by
  rw [copyPageDirs, if_neg hTo, if_pos hFrom]

theorem SourceTable.installed (h : SourceTable mm f) (ht : t < 1024) (hNr : nr ≤ 1024)
    (hp : p < pagingPages) (hFree : mm.memMap p = 0#8) : Installed nr f t p mm (mm.install nr f t p) := by
  have hApart := h.apart hp hFree
  have hRange := h.range
  have hAddr := pageAddr_toNat hp
  -- up to the copying loop only the page and the directory entry have changed
  have hBefore {x : Nat} (hx : 4096 ≤ x) (hPage : Outside (pageAddr p).toNat 4096 x) :
      ((mm.takePage p).setPde t (pageAddr p ||| 7#32)).mem x = mm.mem x :=
    (store32_outside _ _ _ (by omega)).trans (mm.takePage_outside hp hPage)
  have hSource {n : Nat} (hn : n < 1024) : ((mm.takePage p).setPde t (pageAddr p ||| 7#32)).load
      ((mm.table f).toNat + 4 * n) = mm.load ((mm.table f).toNat + 4 * n) :=
    load32_congr fun y hy hy' => hBefore (by omega) (by unfold Outside; omega)
  have hTarget {n : Nat} (hn : n < 1024) : ((mm.takePage p).setPde t (pageAddr p ||| 7#32)).load
      ((pageAddr p).toNat + 4 * n) = 0#32 := by
    rw [Mm.load, Mm.setPde, Mm.store_mem, load32_store32_of_disjoint _ _ (by omega)]
    exact load32_zero fun y hy hy' => mm.takePage_zero hp (by omega) (by omega)
  have hShared : TableShared nr (mm.table f).toNat (pageAddr p).toNat
      ((mm.takePage p).setPde t (pageAddr p ||| 7#32)) (mm.install nr f t p) :=
    copyPageTable_shared _ (by omega)
  have hLoop {x : Nat} (ha : Outside (mm.table f).toNat (4 * nr) x) (hb : Outside (pageAddr p).toNat (4 * nr) x) :
      (mm.install nr f t p).mem x = ((mm.takePage p).setPde t (pageAddr p ||| 7#32)).mem x :=
    hShared.mem x ha hb
  refine ⟨hShared.high, fun d hd => ?_, fun x hx ha hb => ?_, fun n hn => ?_, fun n hn => ?_, fun j hj => ?_⟩
  · have hPde : (mm.install nr f t p).pde d = ((mm.takePage p).setPde t (pageAddr p ||| 7#32)).pde d :=
      Mm.pde_congr fun y hy => hLoop (by unfold Outside; omega) (by unfold Outside; omega)
    have hTaken : (mm.takePage p).pde d = mm.pde d :=
      Mm.pde_congr fun y hy => mm.takePage_outside hp (by omega)
    rw [hPde, Mm.pde_setPde hd, hTaken]
  · unfold Outside at ha hb
    rw [hLoop (by unfold Outside; omega) (by unfold Outside; omega), hBefore hx hb]
  · by_cases hIn : n < nr
    · rw [if_pos hIn, ← hSource hn]
      exact hShared.source n hIn
    · rw [if_neg hIn, ← hSource hn]
      exact load32_congr fun y hy hy' => hLoop (by unfold Outside; omega) (by unfold Outside; omega)
  · by_cases hIn : n < nr
    · have hCopied := hShared.target n hIn
      rw [hSource hn, hTarget hn] at hCopied
      simp only [hIn, true_and]
      exact hCopied
    · rw [if_neg fun hBoth => hIn hBoth.1, ← hTarget hn]
      exact load32_congr fun y hy hy' => hLoop (by unfold Outside; omega) (by unfold Outside; omega)
  · have hNames : ((mm.takePage p).setPde t (pageAddr p ||| 7#32)).tableNames j nr (mm.table f).toNat =
        mm.tableNames j nr (mm.table f).toNat :=
      Mm.tableNames_congr fun n hn => by rw [hSource (by omega)]
    have hTaken : (((mm.takePage p).setPde t (pageAddr p ||| 7#32)).memMap j).toNat =
        (mm.memMap j).toNat + if p = j then 1 else 0 := by
      rw [Mm.setPde_memMap, Mm.takePage_count hFree]
      simp only [Option.some.injEq]
    have hCount := hShared.count j (by rw [hNames, hTaken]; exact hj)
    rw [hNames, hTaken] at hCount
    exact hCount

/-- A word of a source table is left alone or shared. -/
theorem Installed.word (h : Installed 1024 f t p mm mm') {d : Nat} (hd : SourceTable mm d) (hp : p < pagingPages)
    (hFree : mm.memMap p = 0#8) {n : Nat} (hn : n < 1024) :
    mm'.load ((mm.table d).toNat + 4 * n) = mm.load ((mm.table d).toNat + 4 * n) ∨
      mm'.load ((mm.table d).toNat + 4 * n) = shareEntry (mm.load ((mm.table d).toNat + 4 * n)) := by
  by_cases hSame : mm.table d = mm.table f
  · right
    rw [hSame, h.source n hn, if_pos hn]
  · left
    have hApart := hd.apart hp hFree
    have hne : (mm.table d).toNat ≠ (mm.table f).toNat := fun he => hSame (BitVec.eq_of_toNat_eq he)
    have hMod := mm.table_mod d
    have hMod' := mm.table_mod f
    have hRange := hd.range
    exact load32_congr fun y hy hy' =>
      h.mem y (by omega) (by unfold Outside; omega) (by unfold Outside; omega)

end

/-- Ranges of `size` directory entries, from `f` and from `t` on, between which a copy
may start. The last part keeps the counts from going round: a page may be named by
every entry, and a free page may become a table. -/
structure CopyReady (size f t : Nat) (mm : Mm) : Prop where
  source : f + size ≤ 1024
  target : t + size ≤ 1024
  apart : f + size ≤ t ∨ t + size ≤ f
  empty : ∀ i < size, ¬Present (mm.pde (t + i))
  tables : ∀ i < size, Present (mm.pde (f + i)) → SourceTable mm (f + i)
  pool : mm.HighInUse
  counts : ∀ j, (mm.memMap j).toNat + mm.sourceNames j size f + (if mm.memMap j = 0#8 then 1 else 0) ≤ 255

/-- Directory entry `t` has got the free page `p` for its table, with the entries of
the table under `f` without their write bits. -/
structure TableCopy (f t p : Nat) (mm mm' : Mm) : Prop where
  present : Present (mm.pde f)
  index : p < pagingPages
  free : mm.memMap p = 0#8
  below : (pageAddr p).toNat < mm.highMemory.toNat
  pde : mm'.pde t = pageAddr p ||| 7#32
  entry : ∀ n < 1024, mm'.load ((pageAddr p).toNat + 4 * n) =
    if Present (mm.load ((mm.table f).toNat + 4 * n)) then mm.load ((mm.table f).toNat + 4 * n) &&& ~~~2#32 else 0#32

/-- What a copy leaves that has found its pages. -/
structure WindowCopied (size f t : Nat) (mm mm' : Mm) : Prop where
  high : mm'.highMemory = mm.highMemory
  dir : ∀ d < 1024, d < t ∨ t + size ≤ d → mm'.pde d = mm.pde d
  fresh : ∀ i < size, mm'.pde (t + i) = mm.pde (t + i) ∨ ∃ p, TableCopy (f + i) (t + i) p mm mm'
  distinct : ∀ i < size, ∀ k < size, i ≠ k → Present (mm'.pde (t + i)) → Present (mm'.pde (t + k)) →
    mm'.table (t + i) ≠ mm'.table (t + k)
  mem : ∀ x, 4096 ≤ x → (∀ i < size, Present (mm.pde (f + i)) → Outside (mm.table (f + i)).toNat 4096 x) →
    (∀ p < pagingPages, mm.memMap p = 0#8 → Outside (pageAddr p).toNat 4096 x) → mm'.mem x = mm.mem x
  source : ∀ i < size, Present (mm.pde (f + i)) → ∀ n < 1024,
    mm'.load ((mm.table (f + i)).toNat + 4 * n) = mm.load ((mm.table (f + i)).toNat + 4 * n) ∨
      mm'.load ((mm.table (f + i)).toNat + 4 * n) = shareEntry (mm.load ((mm.table (f + i)).toNat + 4 * n))
  count : ∀ j, (mm'.memMap j).toNat = (mm.memMap j).toNat + mm'.windowNames j size t

section

variable {mm mm' mid : Mm} {size f t p : Nat}

theorem Mm.windowNames_absent {j : Nat} (h : ∀ i < size, ¬Present (mm.pde (t + i))) :
    mm.windowNames j size t = 0 := by
  induction size generalizing t with
  | zero => rfl
  | succ size ih =>
      have hFirst : ¬Present (mm.pde t) := h 0 (by omega)
      rw [Mm.windowNames, if_neg hFirst, entryNames_absent hFirst, ih fun i hi => ?_]
      rw [show t + 1 + i = t + (i + 1) by omega]
      exact h (i + 1) (by omega)

theorem CopyReady.refl (h : CopyReady size f t mm) : WindowCopied size f t mm mm where
  high := rfl
  dir := fun _ _ _ => rfl
  fresh := fun _ _ => Or.inl rfl
  distinct := fun i hi _ _ _ hPresent => absurd hPresent (h.empty i hi)
  mem := fun _ _ _ _ => rfl
  source := fun _ _ _ _ _ => Or.inl rfl
  count := fun j => by rw [Mm.windowNames_absent h.empty, Nat.add_zero]

/-- A source entry without a table is passed over. -/
theorem CopyReady.skip (h : CopyReady (size + 1) f t mm) (hAbsent : ¬Present (mm.pde f)) :
    CopyReady size (f + 1) (t + 1) mm := by
  have hSource := h.source
  have hTarget := h.target
  have hApart := h.apart
  refine ⟨by omega, by omega, by omega, fun i hi => ?_, fun i hi => ?_, h.pool, fun j => ?_⟩
  · rw [show t + 1 + i = t + (i + 1) by omega]
    exact h.empty (i + 1) (by omega)
  · rw [show f + 1 + i = f + (i + 1) by omega]
    exact h.tables (i + 1) (by omega)
  · have hCount := h.counts j
    rwa [Mm.sourceNames, if_neg hAbsent, Nat.zero_add] at hCount

theorem WindowCopied.skip (h : CopyReady (size + 1) f t mm) (hAbsent : ¬Present (mm.pde f))
    (hRest : WindowCopied size (f + 1) (t + 1) mm mm') : WindowCopied (size + 1) f t mm mm' := by
  have hTarget := h.target
  have hPde : mm'.pde t = mm.pde t := hRest.dir t (by omega) (by omega)
  have hEmpty : ¬Present (mm'.pde t) := by
    rw [hPde]
    exact h.empty 0 (by omega)
  refine ⟨hRest.high, fun d hd hOut => hRest.dir d hd (by omega), fun i hi => ?_, fun i hi k hk hne hi' hk' => ?_,
    fun x hx hTables hPages => ?_, fun i hi hPresent n hn => ?_, fun j => ?_⟩
  · cases i with
    | zero => exact Or.inl hPde
    | succ i =>
        have hFresh := hRest.fresh i (by omega)
        rwa [show t + 1 + i = t + (i + 1) by omega, show f + 1 + i = f + (i + 1) by omega] at hFresh
  · cases i with
    | zero => exact absurd hi' hEmpty
    | succ i =>
        cases k with
        | zero => exact absurd hk' hEmpty
        | succ k =>
            have hDistinct := hRest.distinct i (by omega) k (by omega) (by omega)
            rw [show t + 1 + i = t + (i + 1) by omega, show t + 1 + k = t + (k + 1) by omega] at hDistinct
            exact hDistinct hi' hk'
  · refine hRest.mem x hx (fun i hi => ?_) hPages
    rw [show f + 1 + i = f + (i + 1) by omega]
    exact hTables (i + 1) (by omega)
  · cases i with
    | zero => exact absurd hPresent hAbsent
    | succ i =>
        have hSource := hRest.source i (by omega)
        rw [show f + 1 + i = f + (i + 1) by omega] at hSource
        exact hSource hPresent n hn
  · rw [Mm.windowNames, if_neg hEmpty, entryNames_absent hEmpty, hRest.count j, Nat.add_zero, Nat.zero_add]

theorem CopyReady.count_install (h : CopyReady (size + 1) f t mm) (hPresent : Present (mm.pde f))
    (hFree : mm.memMap p = 0#8) (hMid : Installed 1024 f t p mm mid) (j : Nat) :
    (mid.memMap j).toNat =
      (mm.memMap j).toNat + (if p = j then 1 else 0) + mm.tableNames j 1024 (mm.table f).toNat := by
  have hCount := h.counts j
  rw [Mm.sourceNames, if_pos hPresent] at hCount
  refine hMid.count j ?_
  by_cases hj : p = j
  · subst j
    rw [if_pos hFree] at hCount
    rw [if_pos rfl]
    omega
  · rw [if_neg hj]
    omega

/-- The directory entries of the other rounds and their tables are the same. -/
theorem CopyReady.pde_install (h : CopyReady (size + 1) f t mm) (hMid : Installed 1024 f t p mm mid) {i : Nat}
    (hi : i < size) : mid.pde (f + 1 + i) = mm.pde (f + 1 + i) ∧ mid.pde (t + 1 + i) = mm.pde (t + 1 + i) := by
  have hSource := h.source
  have hTarget := h.target
  have hApart := h.apart
  constructor
  · rw [hMid.pde _ (by omega), if_neg (by omega)]
  · rw [hMid.pde _ (by omega), if_neg (by omega)]

theorem CopyReady.tables_succ (h : CopyReady (size + 1) f t mm) {i : Nat} (hi : i < size)
    (hPresent : Present (mm.pde (f + 1 + i))) : SourceTable mm (f + 1 + i) := by
  rw [show f + 1 + i = f + (i + 1) by omega] at hPresent ⊢
  exact h.tables (i + 1) (by omega) hPresent

theorem CopyReady.used_install (h : CopyReady (size + 1) f t mm) (hPresent : Present (mm.pde f))
    (hFree : mm.memMap p = 0#8) (hMid : Installed 1024 f t p mm mid) {j : Nat} (hZero : mid.memMap j = 0#8) :
    mm.memMap j = 0#8 ∧ p ≠ j := by
  have hCount := h.count_install hPresent hFree hMid j
  rw [hZero, BitVec.toNat_ofNat] at hCount
  refine ⟨BitVec.eq_of_toNat_eq (by rw [BitVec.toNat_ofNat]; omega), ?_⟩
  rintro rfl
  rw [if_pos rfl] at hCount
  omega

theorem CopyReady.sourceNames_install (h : CopyReady (size + 1) f t mm) (hMid : Installed 1024 f t p mm mid)
    (hp : p < pagingPages) (hFree : mm.memMap p = 0#8) (j : Nat) :
    mid.sourceNames j size (f + 1) = mm.sourceNames j size (f + 1) := by
  have hAll {n i : Nat} (hi : i + n ≤ size) :
      mid.sourceNames j n (f + 1 + i) = mm.sourceNames j n (f + 1 + i) := by
    induction n generalizing i with
    | zero => rfl
    | succ n ih =>
        have hPde := (h.pde_install hMid (show i < size by omega)).1
        have hTable : mid.table (f + 1 + i) = mm.table (f + 1 + i) := by rw [Mm.table, hPde, Mm.table]
        have hRest := ih (i := i + 1) (by omega)
        rw [show f + 1 + (i + 1) = f + 1 + i + 1 by omega] at hRest
        rw [Mm.sourceNames, Mm.sourceNames, hTable, hPde, hRest]
        by_cases hPresent : Present (mm.pde (f + 1 + i))
        · have hNames : mid.tableNames j 1024 (mm.table (f + 1 + i)).toNat =
              mm.tableNames j 1024 (mm.table (f + 1 + i)).toNat := by
            refine Mm.tableNames_congr fun m hm => ?_
            rcases hMid.word (h.tables_succ (by omega) hPresent) hp hFree hm with hSame | hShared
            · rw [hSame]
            · rw [hShared, entryNames_shareEntry]
          rw [if_pos hPresent, if_pos hPresent, hNames]
        · rw [if_neg hPresent, if_neg hPresent]
  exact hAll (i := 0) (by omega)

theorem CopyReady.next (h : CopyReady (size + 1) f t mm) (hPresent : Present (mm.pde f)) (hp : p < pagingPages)
    (hFree : mm.memMap p = 0#8) (hMid : Installed 1024 f t p mm mid) : CopyReady size (f + 1) (t + 1) mid := by
  have hSource := h.source
  have hTarget := h.target
  have hApart := h.apart
  refine ⟨by omega, by omega, by omega, fun i hi => ?_, fun i hi hThere => ?_, ⟨?_, fun j hj hAbove hZero => ?_⟩,
    fun j => ?_⟩
  · rw [(h.pde_install hMid hi).2, show t + 1 + i = t + (i + 1) by omega]
    exact h.empty (i + 1) (by omega)
  · have hPde := (h.pde_install hMid hi).1
    have hTable : mid.table (f + 1 + i) = mm.table (f + 1 + i) := by rw [Mm.table, hPde, Mm.table]
    rw [hPde] at hThere
    have hOld := h.tables_succ hi hThere
    refine ⟨by rw [hTable]; exact hOld.range, fun hLow hZero => ?_, by rw [hTable, hPde]; exact hOld.mask⟩
    rw [hTable] at hLow hZero
    exact hOld.used hLow (h.used_install hPresent hFree hMid hZero).1
  · rw [hMid.high]
    exact h.pool.1
  · rw [hMid.high] at hAbove
    exact h.pool.2 j hj hAbove (h.used_install hPresent hFree hMid hZero).1
  · have hCount := h.counts j
    have hNow := h.count_install hPresent hFree hMid j
    rw [Mm.sourceNames, if_pos hPresent] at hCount
    rw [h.sourceNames_install hMid hp hFree j]
    by_cases hj : p = j
    · subst j
      rw [if_pos hFree] at hCount
      rw [if_pos rfl] at hNow
      have hUsed : mid.memMap p ≠ 0#8 := fun hZero => by
        rw [hZero, BitVec.toNat_ofNat] at hNow
        omega
      rw [if_neg hUsed]
      omega
    · rw [if_neg hj] at hNow
      by_cases hZero : mid.memMap j = 0#8
      · rw [if_pos (h.used_install hPresent hFree hMid hZero).1] at hCount
        rw [if_pos hZero]
        omega
      · rw [if_neg hZero]
        omega

/-- Later rounds leave the page alone: it is in use, and no source table. -/
theorem WindowCopied.page (h : CopyReady (size + 1) f t mm) (hPresent : Present (mm.pde f)) (hp : p < pagingPages)
    (hFree : mm.memMap p = 0#8) (hMid : Installed 1024 f t p mm mid)
    (hRest : WindowCopied size (f + 1) (t + 1) mid mm') {n : Nat} (hn : n < 1024) :
    mm'.load ((pageAddr p).toNat + 4 * n) = mid.load ((pageAddr p).toNat + 4 * n) := by
  have hAddr := pageAddr_toNat hp
  refine load32_congr fun y hy hy' => hRest.mem y (by omega) (fun i hi hThere => ?_) fun q hq hZero => ?_
  · have hPde := (h.pde_install hMid hi).1
    rw [hPde] at hThere
    have hApart := (h.tables_succ hi hThere).apart hp hFree
    rw [Mm.table, hPde]
    change Outside (mm.table (f + 1 + i)).toNat 4096 y
    unfold Outside
    omega
  · have hne := (h.used_install hPresent hFree hMid hZero).2
    have hAddr' := pageAddr_toNat hq
    unfold Outside
    omega

/-- The words of the first source table at the end. -/
theorem WindowCopied.first (h : CopyReady (size + 1) f t mm) (hPresent : Present (mm.pde f))
    (hFree : mm.memMap p = 0#8) (hMid : Installed 1024 f t p mm mid)
    (hRest : WindowCopied size (f + 1) (t + 1) mid mm') {n : Nat} (hn : n < 1024) :
    mm'.load ((mm.table f).toNat + 4 * n) = shareEntry (mm.load ((mm.table f).toNat + 4 * n)) := by
  have hTable : SourceTable mm f := h.tables 0 (by omega) hPresent
  have hShared := hMid.source n hn
  rw [if_pos hn] at hShared
  by_cases hAgain : ∃ i < size, Present (mm.pde (f + 1 + i)) ∧ mm.table (f + 1 + i) = mm.table f
  · obtain ⟨i, hi, hThere, hSame⟩ := hAgain
    have hPde := (h.pde_install hMid hi).1
    have hSource := hRest.source i hi (by rwa [hPde]) n hn
    rw [show mid.table (f + 1 + i) = mm.table f by rw [Mm.table, hPde]; exact hSame, hShared, shareEntry_idem,
      or_self] at hSource
    exact hSource
  · rw [← hShared]
    refine load32_congr fun y hy hy' => hRest.mem y (by have := hTable.range; omega) (fun i hi hThere => ?_)
      fun q hq hZero => ?_
    · have hPde := (h.pde_install hMid hi).1
      rw [hPde] at hThere
      have hne : (mm.table (f + 1 + i)).toNat ≠ (mm.table f).toNat := fun hSame =>
        hAgain ⟨i, hi, hThere, BitVec.eq_of_toNat_eq hSame⟩
      have hMod := mm.table_mod (f + 1 + i)
      have hMod' := mm.table_mod f
      rw [Mm.table, hPde]
      change Outside (mm.table (f + 1 + i)).toNat 4096 y
      unfold Outside
      omega
    · have hApart := hTable.apart hq (h.used_install hPresent hFree hMid hZero).1
      unfold Outside
      omega

theorem TableCopy.before (h : CopyReady (size + 1) f t mm) (hPresent : Present (mm.pde f)) (hp : p < pagingPages)
    (hFree : mm.memMap p = 0#8) (hMid : Installed 1024 f t p mm mid) {i q : Nat} (hi : i < size)
    (hCopy : TableCopy (f + 1 + i) (t + 1 + i) q mid mm') : TableCopy (f + 1 + i) (t + 1 + i) q mm mm' := by
  have hPde := (h.pde_install hMid hi).1
  have hTable : mid.table (f + 1 + i) = mm.table (f + 1 + i) := by rw [Mm.table, hPde, Mm.table]
  have hThere : Present (mm.pde (f + 1 + i)) := hPde ▸ hCopy.present
  refine ⟨hThere, hCopy.index, (h.used_install hPresent hFree hMid hCopy.free).1, hMid.high ▸ hCopy.below, hCopy.pde,
    fun n hn => ?_⟩
  rw [hCopy.entry n hn, hTable]
  rcases hMid.word (h.tables_succ hi hThere) hp hFree hn with hSame | hShared
  · rw [hSame]
  · rw [hShared, shareEntry_clearWrite]
    simp only [present_shareEntry]

theorem WindowCopied.cons (h : CopyReady (size + 1) f t mm) (hPresent : Present (mm.pde f)) (hp : p < pagingPages)
    (hFree : mm.memMap p = 0#8) (hBelow : (pageAddr p).toNat < mm.highMemory.toNat)
    (hMid : Installed 1024 f t p mm mid) (hRest : WindowCopied size (f + 1) (t + 1) mid mm') :
    WindowCopied (size + 1) f t mm mm' := by
  have hTarget := h.target
  have hPde : mm'.pde t = pageAddr p ||| 7#32 := by
    rw [hRest.dir t (by omega) (by omega), hMid.pde t (by omega), if_pos rfl]
  have hTable : mm'.table t = pageAddr p := by rw [Mm.table, hPde, frame_or_seven (pageAddr_aligned hp)]
  have hEntry (n : Nat) (hn : n < 1024) :=
    (WindowCopied.page h hPresent hp hFree hMid hRest hn).trans (hMid.target n hn)
  -- a later target table is a page that was still free
  have hLater {i : Nat} (hi : i < size) (hThere : Present (mm'.pde (t + (i + 1)))) :
      mm'.table (t + (i + 1)) ≠ mm'.table t := by
    rw [show t + (i + 1) = t + 1 + i by omega] at hThere ⊢
    rcases hRest.fresh i hi with hSame | ⟨q, hCopy⟩
    · rw [hSame, (h.pde_install hMid hi).2, show t + 1 + i = t + (i + 1) by omega] at hThere
      exact absurd hThere (h.empty (i + 1) (by omega))
    · have hne := (h.used_install hPresent hFree hMid hCopy.free).2
      rw [hTable, Mm.table, hCopy.pde, frame_or_seven (pageAddr_aligned hCopy.index)]
      intro hSame
      rw [← mapNr_pageAddr hCopy.index, hSame, mapNr_pageAddr hp] at hne
      exact hne rfl
  refine ⟨hRest.high.trans hMid.high, fun d hd hOut => ?_, fun i hi => ?_, fun i hi k hk hne hi' hk' => ?_,
    fun x hx hTables hPages => ?_, fun i hi hThere n hn => ?_, fun j => ?_⟩
  · rw [hRest.dir d hd (by omega), hMid.pde d hd, if_neg (by omega)]
  · cases i with
    | zero =>
        refine Or.inr ⟨p, hPresent, hp, hFree, hBelow, hPde, fun n hn => ?_⟩
        have hCopied := hEntry n hn
        simp only [hn, true_and] at hCopied
        exact hCopied
    | succ i =>
        rw [show t + (i + 1) = t + 1 + i by omega, show f + (i + 1) = f + 1 + i by omega]
        rcases hRest.fresh i (by omega) with hSame | ⟨q, hCopy⟩
        · exact Or.inl (hSame.trans (h.pde_install hMid (by omega)).2)
        · exact Or.inr ⟨q, hCopy.before h hPresent hp hFree hMid (by omega)⟩
  · cases i with
    | zero =>
        cases k with
        | zero => exact absurd rfl hne
        | succ k => exact (hLater (by omega) hk').symm
    | succ i =>
        cases k with
        | zero => exact hLater (by omega) hi'
        | succ k =>
            have hDistinct := hRest.distinct i (by omega) k (by omega) (by omega)
            rw [show t + 1 + i = t + (i + 1) by omega, show t + 1 + k = t + (k + 1) by omega] at hDistinct
            exact hDistinct hi' hk'
  · have hOwn := hTables 0 (by omega) hPresent
    rw [hRest.mem x hx (fun i hi hThere => ?_) (fun q hq hZero => ?_), hMid.mem x hx hOwn (hPages p hp hFree)]
    · have hSame := (h.pde_install hMid hi).1
      rw [hSame, show f + 1 + i = f + (i + 1) by omega] at hThere
      rw [Mm.table, hSame, show f + 1 + i = f + (i + 1) by omega]
      exact hTables (i + 1) (by omega) hThere
    · exact hPages q hq (h.used_install hPresent hFree hMid hZero).1
  · cases i with
    | zero => exact Or.inr (WindowCopied.first h hPresent hFree hMid hRest hn)
    | succ i =>
        rw [show f + (i + 1) = f + 1 + i by omega] at hThere ⊢
        have hSame := (h.pde_install hMid (show i < size by omega)).1
        have hSource := hRest.source i (by omega) (by rwa [hSame]) n hn
        rw [show mid.table (f + 1 + i) = mm.table (f + 1 + i) by rw [Mm.table, hSame, Mm.table]] at hSource
        rcases hMid.word (h.tables_succ (by omega) hThere) hp hFree hn with hOld | hOld
        · rwa [hOld] at hSource
        · rw [hOld, shareEntry_idem, or_self] at hSource
          exact Or.inr hSource
  · have hNames : mm'.tableNames j 1024 (pageAddr p).toNat = mm.tableNames j 1024 (mm.table f).toNat := by
      refine Mm.tableNames_congr fun n hn => ?_
      rw [hEntry n hn]
      simp only [hn, true_and]
      split_ifs with hThere
      · rw [entryNames_clearWrite]
      · rw [entryNames_absent not_present_zero, entryNames_absent hThere]
    have hOwn : entryNames j (pageAddr p ||| 7#32) = if p = j then 1 else 0 := by
      rw [entryNames_present (present_or_seven _), frame_or_seven (pageAddr_aligned hp), managed_pageAddr hp]
      simp only [Option.some.injEq]
    rw [Mm.windowNames, hPde, if_pos (present_or_seven _), hOwn, hTable, hNames, hRest.count j,
      h.count_install hPresent hFree hMid j]
    omega

/-- The outer loop of `copy_page_tables`, as long as it finds its pages. -/
theorem CopyReady.copyPageDirs (h : CopyReady size f t mm) {from_ : BitVec 32} (hFrom : from_ ≠ 0#32)
    (hFound : PagesFound from_ size (4 * f) (4 * t) mm) :
    ∃ mm', copyPageDirs from_ size (4 * f) (4 * t) mm = .ok (0#32, mm') ∧ WindowCopied size f t mm mm' := by
  induction size generalizing f t mm with
  | zero => exact ⟨mm, rfl, h.refl⟩
  | succ size ih =>
      have hEmpty : ¬Present (mm.pde t) := h.empty 0 (by omega)
      have hTarget := h.target
      by_cases hPresent : Present (mm.pde f)
      · rcases getFreePage_cases h.pool with ⟨_, hCall⟩ | ⟨p, hp, hFree, hBelow, hCall⟩
        · exact absurd hFound (not_pagesFound hPresent hCall)
        · have hTable : SourceTable mm f := h.tables 0 (by omega) hPresent
          have hMid : Installed 1024 f t p mm (mm.install 1024 f t p) :=
            hTable.installed (by omega) (Nat.le_refl _) hp hFree
          obtain ⟨mm', hRun, hRest⟩ := ih (h.next hPresent hp hFree hMid)
            (pagesFound_install (if_neg hFrom) hPresent hTable.mask hCall hFound)
          refine ⟨mm', ?_, hRest.cons h hPresent hp hFree hBelow hMid⟩
          rw [copyPageDirs_install (if_neg hFrom) hEmpty hPresent hTable.mask hp hCall, hRun]
      · obtain ⟨mm', hRun, hRest⟩ := ih (h.skip hPresent) ((pagesFound_absent (not_not.mp hPresent)).mp hFound)
        exact ⟨mm', (copyPageDirs_absent hEmpty (not_not.mp hPresent)).trans hRun, hRest.skip h hPresent⟩

end

end Linux011

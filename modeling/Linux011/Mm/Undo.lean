import Linux011.Mm.CopyWindow
import Linux011.Mm.Fault

/-! `free_page_tables` undoes a `copy_page_tables` that has found its pages. -/
namespace Linux011

open ByteMemory SharedRefs

/-- A range of `size` directory entries that can be released: its tables are apart,
every page they name is managed or below `lowMem`, and every count covers what the
range names. -/
structure Releasable (size t : Nat) (mm : Mm) : Prop where
  inside : t + size ≤ 1024
  range : ∀ i < size, Present (mm.pde (t + i)) → 4096 ≤ (mm.table (t + i)).toNat
  mask : ∀ i < size, Present (mm.pde (t + i)) → 0xfffff00#32 &&& mm.pde (t + i) = mm.table (t + i)
  below : ∀ i < size, Present (mm.pde (t + i)) → mm.table (t + i) < lowMem ∨ mm.table (t + i) < mm.highMemory
  distinct : ∀ i < size, ∀ k < size, i ≠ k → Present (mm.pde (t + i)) → Present (mm.pde (t + k)) →
    mm.table (t + i) ≠ mm.table (t + k)
  frames : ∀ i < size, Present (mm.pde (t + i)) → ∀ n < 1024, Present (mm.pte (t + i) n) →
    frame (mm.pte (t + i) n) < lowMem ∨ frame (mm.pte (t + i) n) < mm.highMemory
  counts : ∀ j, mm.windowNames j size t ≤ (mm.memMap j).toNat

structure Released (size t : Nat) (mm mm' : Mm) : Prop where
  dir : ∀ d < 1024, mm'.pde d = if t ≤ d ∧ d < t + size ∧ Present (mm.pde d) then 0#32 else mm.pde d
  mem : ∀ x, 4096 ≤ x → (∀ i < size, Present (mm.pde (t + i)) → Outside (mm.table (t + i)).toNat 4096 x) →
    mm'.mem x = mm.mem x
  count : ∀ j, (mm'.memMap j).toNat + mm.windowNames j size t = (mm.memMap j).toNat

section

variable {mm mm' mid : Mm} {size f t : Nat}

/-- What one round of `free_page_tables` leaves that has found a table. -/
structure Emptied (t : Nat) (mm mm' : Mm) : Prop where
  high : mm'.highMemory = mm.highMemory
  pde : ∀ d < 1024, mm'.pde d = if d = t then 0#32 else mm.pde d
  mem : ∀ x, 4096 ≤ x → Outside (mm.table t).toNat 4096 x → mm'.mem x = mm.mem x
  count : ∀ j, (mm'.memMap j).toNat + mm.tableNames j 1024 (mm.table t).toNat + entryNames j (mm.pde t) =
    (mm.memMap j).toNat

theorem Releasable.round (h : Releasable (size + 1) t mm) (hPresent : Present (mm.pde t)) :
    ∃ mid, Emptied t mm mid ∧ freePageDirs (size + 1) (4 * t) mm = freePageDirs size (4 * (t + 1)) mid := by
  have hInside := h.inside
  have hRange : 4096 ≤ (mm.table t).toNat := h.range 0 (by omega) hPresent
  have hMask : 0xfffff00#32 &&& mm.pde t = mm.table t := h.mask 0 (by omega) hPresent
  have hCounts (j : Nat) : mm.tableNames j 1024 (mm.table t).toNat + entryNames j (mm.pde t) ≤ (mm.memMap j).toNat := by
    have hAll := h.counts j
    rw [Mm.windowNames, if_pos hPresent] at hAll
    omega
  have hFrames : ∀ n < 1024, Present (mm.load ((mm.table t).toNat + 4 * n)) →
      frame (mm.load ((mm.table t).toNat + 4 * n)) < lowMem ∨
        frame (mm.load ((mm.table t).toNat + 4 * n)) < mm.highMemory := h.frames 0 (by omega) hPresent
  obtain ⟨emptied, hRun, hTable⟩ := freePageTable_released mm hFrames fun j =>
    (Nat.le_add_right _ _).trans (hCounts j)
  have hPde {d : Nat} (hd : d < 1024) : emptied.pde d = mm.pde d :=
    Mm.pde_congr fun x hx => hTable.mem x (by unfold Outside; omega)
  have hUsed : lowMem ≤ mm.table t → emptied.memMap (mapNr (mm.table t)) ≠ 0#8 := by
    intro hLow hZero
    have hCount := hTable.count (mapNr (mm.table t))
    have hOne := hCounts (mapNr (mm.table t))
    rw [hZero, BitVec.toNat_ofNat] at hCount
    rw [entryNames_present hPresent, show frame (mm.pde t) = mm.table t from rfl, managed_of_le hLow,
      if_pos rfl] at hOne
    omega
  have hFree : freePage emptied (mm.table t) = .ok (emptied.release (mm.table t)) :=
    freePage_eq (by rw [hTable.high]; exact h.below 0 (by omega) hPresent) hUsed
  refine ⟨(emptied.release (mm.table t)).setPde t 0#32, ⟨?_, fun d hd => ?_, fun x hx hOut => ?_, fun j => ?_⟩, ?_⟩
  · exact Mm.release_highMemory.trans hTable.high
  · have hSame : (emptied.release (mm.table t)).pde d = mm.pde d := by
      rw [← hPde hd, Mm.pde, Mm.load, Mm.release_mem]
      rfl
    rw [Mm.pde_setPde hd, hSame]
  · rw [Mm.setPde, Mm.store_mem, store32_outside _ _ _ (by omega), Mm.release_mem]
    exact hTable.mem x hOut
  · have hCount := hTable.count j
    have hOwn := Mm.release_count hUsed j
    rw [entryNames_present hPresent]
    change ((emptied.release (mm.table t)).memMap j).toNat + _ +
      (if managed (mm.table t) = some j then 1 else 0) = _
    omega
  · refine @freePageDirs_ok _ _ mm emptied _ hPresent ?_ ?_
    · rw [load_pde, hMask]
      exact hRun
    · change freePage emptied (frame (emptied.pde t)) = _
      rw [hPde (by omega)]
      exact hFree

/-- The rest of the range is as it was. -/
theorem Releasable.rest (h : Releasable (size + 1) t mm) (hPresent : Present (mm.pde t)) (hMid : Emptied t mm mid)
    {i : Nat} (hi : i < size) : mid.pde (t + 1 + i) = mm.pde (t + 1 + i) ∧
      (Present (mm.pde (t + 1 + i)) → ∀ n < 1024, mid.pte (t + 1 + i) n = mm.pte (t + 1 + i) n) := by
  have hInside := h.inside
  have hPde : mid.pde (t + 1 + i) = mm.pde (t + 1 + i) := by rw [hMid.pde _ (by omega), if_neg (by omega)]
  refine ⟨hPde, fun hThere n hn => Mm.pte_congr hPde hn fun x hx hx' => ?_⟩
  rw [show t + 1 + i = t + (i + 1) by omega] at hThere hx hx'
  have hRange := h.range (i + 1) (by omega) hThere
  have hne : (mm.table (t + (i + 1))).toNat ≠ (mm.table t).toNat := fun hSame =>
    h.distinct (i + 1) (by omega) 0 (by omega) (by omega) hThere hPresent (BitVec.eq_of_toNat_eq hSame)
  have hMod := mm.table_mod (t + (i + 1))
  have hMod' := mm.table_mod t
  exact hMid.mem x (by omega) (by unfold Outside; omega)

theorem Releasable.windowNames_rest (h : Releasable (size + 1) t mm) (hPresent : Present (mm.pde t))
    (hMid : Emptied t mm mid) (j : Nat) : mid.windowNames j size (t + 1) = mm.windowNames j size (t + 1) := by
  have hAll {n i : Nat} (hi : i + n ≤ size) :
      mid.windowNames j n (t + 1 + i) = mm.windowNames j n (t + 1 + i) := by
    induction n generalizing i with
    | zero => rfl
    | succ n ih =>
        obtain ⟨hPde, hPte⟩ := h.rest hPresent hMid (show i < size by omega)
        have hTable : mid.table (t + 1 + i) = mm.table (t + 1 + i) := by rw [Mm.table, hPde, Mm.table]
        have hRest := ih (i := i + 1) (by omega)
        rw [show t + 1 + (i + 1) = t + 1 + i + 1 by omega] at hRest
        rw [Mm.windowNames, Mm.windowNames, hTable, hPde, hRest]
        by_cases hThere : Present (mm.pde (t + 1 + i))
        · have hNames : mid.tableNames j 1024 (mm.table (t + 1 + i)).toNat =
              mm.tableNames j 1024 (mm.table (t + 1 + i)).toNat := by
            refine Mm.tableNames_congr fun m hm => ?_
            have hEntry := hPte hThere m hm
            rw [Mm.pte, hTable] at hEntry
            rw [hEntry]
            rfl
          rw [if_pos hThere, if_pos hThere, hNames]
        · rw [if_neg hThere, if_neg hThere]
  exact hAll (i := 0) (by omega)

theorem Releasable.next (h : Releasable (size + 1) t mm) (hPresent : Present (mm.pde t)) (hMid : Emptied t mm mid) :
    Releasable size (t + 1) mid := by
  have hInside := h.inside
  have hIndex (i : Nat) : t + 1 + i = t + (i + 1) := by omega
  have hPde {i : Nat} (hi : i < size) : mid.pde (t + 1 + i) = mm.pde (t + (i + 1)) := by
    rw [(h.rest hPresent hMid hi).1, hIndex]
  have hTable {i : Nat} (hi : i < size) : mid.table (t + 1 + i) = mm.table (t + (i + 1)) := by
    rw [Mm.table, hPde hi, Mm.table]
  refine ⟨by omega, fun i hi hThere => ?_, fun i hi hThere => ?_, fun i hi hThere => ?_,
    fun i hi k hk hne hi' hk' => ?_, fun i hi hThere n hn hEntry => ?_, fun j => ?_⟩
  · rw [hPde hi] at hThere
    rw [hTable hi]
    exact h.range (i + 1) (by omega) hThere
  · rw [hPde hi] at hThere
    rw [hTable hi, hPde hi]
    exact h.mask (i + 1) (by omega) hThere
  · rw [hPde hi] at hThere
    rw [hTable hi, hMid.high]
    exact h.below (i + 1) (by omega) hThere
  · rw [hPde hi] at hi'
    rw [hPde hk] at hk'
    rw [hTable hi, hTable hk]
    exact h.distinct (i + 1) (by omega) (k + 1) (by omega) (by omega) hi' hk'
  · have hPte := (h.rest hPresent hMid hi).2 (by rw [hPde hi] at hThere; rwa [hIndex]) n hn
    rw [hPte, hIndex] at hEntry ⊢
    rw [hPde hi] at hThere
    rw [hMid.high]
    exact h.frames (i + 1) (by omega) hThere n hn hEntry
  · have hAll := h.counts j
    have hCount := hMid.count j
    rw [Mm.windowNames, if_pos hPresent] at hAll
    rw [h.windowNames_rest hPresent hMid j]
    omega

theorem Releasable.skip (h : Releasable (size + 1) t mm) (hAbsent : ¬Present (mm.pde t)) :
    Releasable size (t + 1) mm := by
  have hInside := h.inside
  have hIndex (i : Nat) : t + 1 + i = t + (i + 1) := by omega
  refine ⟨by omega, fun i hi => ?_, fun i hi => ?_, fun i hi => ?_, fun i hi k hk hne => ?_, fun i hi => ?_,
    fun j => ?_⟩
  · rw [hIndex]
    exact h.range (i + 1) (by omega)
  · rw [hIndex]
    exact h.mask (i + 1) (by omega)
  · rw [hIndex]
    exact h.below (i + 1) (by omega)
  · rw [hIndex, hIndex]
    exact h.distinct (i + 1) (by omega) (k + 1) (by omega) (by omega)
  · rw [hIndex]
    exact h.frames (i + 1) (by omega)
  · have hAll := h.counts j
    rwa [Mm.windowNames, if_neg hAbsent, entryNames_absent hAbsent, Nat.zero_add] at hAll

theorem releasedEntry_congr {d : Nat} (hne : d ≠ t) {e : BitVec 32} :
    (if t + 1 ≤ d ∧ d < t + 1 + size ∧ Present e then 0#32 else e) =
      if t ≤ d ∧ d < t + (size + 1) ∧ Present e then 0#32 else e := by
  have hFrom : t + 1 ≤ d ↔ t ≤ d := by omega
  have hTo : d < t + 1 + size ↔ d < t + (size + 1) := by omega
  simp only [hFrom, hTo]

/-- The outer loop of `free_page_tables`. -/
theorem Releasable.freePageDirs (h : Releasable size t mm) :
    ∃ mm', freePageDirs size (4 * t) mm = .ok mm' ∧ Released size t mm mm' := by
  induction size generalizing t mm with
  | zero =>
      refine ⟨mm, rfl, fun d _ => (if_neg (by omega)).symm, fun _ _ _ => rfl, fun j => ?_⟩
      rw [Mm.windowNames, Nat.add_zero]
  | succ size ih =>
      have hInside := h.inside
      by_cases hPresent : Present (mm.pde t)
      · obtain ⟨mid, hMid, hRun⟩ := h.round hPresent
        obtain ⟨mm', hRest, hReleased⟩ := ih (h.next hPresent hMid)
        refine ⟨mm', hRun.trans hRest, fun d hd => ?_, fun x hx hTables => ?_, fun j => ?_⟩
        · rw [hReleased.dir d hd, hMid.pde d hd]
          by_cases hHere : d = t
          · subst d
            rw [if_neg (by omega), if_pos rfl, if_pos ⟨Nat.le_refl _, by omega, hPresent⟩]
          · rw [if_neg hHere, releasedEntry_congr hHere]
        · rw [hReleased.mem x hx fun i hi hThere => ?_]
          · exact hMid.mem x hx (hTables 0 (by omega) hPresent)
          · have hPde := (h.rest hPresent hMid hi).1
            rw [hPde, show t + 1 + i = t + (i + 1) by omega] at hThere
            rw [Mm.table, hPde, show t + 1 + i = t + (i + 1) by omega]
            exact hTables (i + 1) (by omega) hThere
        · have hCount := hReleased.count j
          have hFirst := hMid.count j
          rw [h.windowNames_rest hPresent hMid j] at hCount
          rw [Mm.windowNames, if_pos hPresent]
          omega
      · obtain ⟨mm', hRest, hReleased⟩ := ih (h.skip hPresent)
        refine ⟨mm', (freePageDirs_absent (not_not.mp hPresent)).trans hRest, fun d hd => ?_,
          fun x hx hTables => ?_, fun j => ?_⟩
        · rw [hReleased.dir d hd]
          by_cases hHere : d = t
          · subst d
            rw [if_neg (by omega), if_neg fun hAll => hPresent hAll.2.2]
          · exact releasedEntry_congr hHere
        · refine hReleased.mem x hx fun i hi hThere => ?_
          rw [show t + 1 + i = t + (i + 1) by omega] at hThere ⊢
          exact hTables (i + 1) (by omega) hThere
        · rw [Mm.windowNames, if_neg hPresent, entryNames_absent hPresent, Nat.add_zero, Nat.zero_add]
          exact hReleased.count j

end

/-- How many directory entries the loops visit for `size` bytes. -/
def dirCount (size : BitVec 32) : Nat := (size.toNat + 0x3fffff) / 0x400000

/-- Directory entry `d` is one of those of the `size` bytes from `base` on. -/
def InRange (base size : BitVec 32) (d : Nat) : Prop := dirIndex base ≤ d ∧ d < dirIndex base + dirCount size

theorem and_offset_eq_zero {base : BitVec 32} : base &&& 0x3fffff#32 = 0#32 ↔ base.toNat % 0x400000 = 0 := by
  rw [← BitVec.toNat_inj, BitVec.toNat_and, BitVec.toNat_ofNat, BitVec.toNat_ofNat]
  exact Eq.congr (Nat.and_two_pow_sub_one_eq_mod _ 22) rfl

theorem shift_dirCount {size : BitVec 32} (hSize : size.toNat + 0x3fffff < 2 ^ 32) :
    ((size + 0x3fffff#32) >>> 22).toNat = dirCount size := by
  rw [BitVec.toNat_ushiftRight, BitVec.toNat_add, BitVec.toNat_ofNat, Nat.shiftRight_eq_div_pow, dirCount]
  omega

/-- Two aligned ranges below 4GB that do not meet, the target without a page table,
every page that the source names managed or below `lowMem`, and counts that do not go
round. Pages from `HIGH_MEMORY` on are in use, as `mem_init` leaves them. -/
structure UndoReady (from_ to_ size : BitVec 32) (mm : Mm) : Prop where
  fromAligned : from_ &&& 0x3fffff#32 = 0#32
  toAligned : to_ &&& 0x3fffff#32 = 0#32
  fromPos : from_ ≠ 0#32
  toPos : to_ ≠ 0#32
  fromEnd : from_.toNat + size.toNat ≤ 2 ^ 32
  toEnd : to_.toNat + size.toNat ≤ 2 ^ 32
  apart : from_.toNat + size.toNat ≤ to_.toNat ∨ to_.toNat + size.toNat ≤ from_.toNat
  empty : ∀ d < 1024, InRange to_ size d → ¬Present (mm.pde d)
  tables : ∀ d < 1024, InRange from_ size d → Present (mm.pde d) → SourceTable mm d
  frames : ∀ d n e, InRange from_ size d → mm.Maps d n e → frame e < lowMem ∨ frame e < mm.highMemory
  pool : mm.HighInUse
  counts : ∀ j, (mm.memMap j).toNat + mm.sourceNames j (dirCount size) (dirIndex from_) +
    (if mm.memMap j = 0#8 then 1 else 0) ≤ 255

/-- `mm` has come back in `mm2`, after `mm1`: all counts, all directory entries, except
that an entry under which `mm1` has a new table is 0 now, and all entries of the source
up to write bits of managed pages. -/
structure Undone (from_ to_ size : BitVec 32) (mm mm1 mm2 : Mm) : Prop where
  memMap : ∀ j, mm2.memMap j = mm.memMap j
  dir : ∀ d < 1024, mm2.pde d = mm.pde d ∨ InRange to_ size d ∧ Present (mm1.pde d) ∧ mm2.pde d = 0#32
  entry : ∀ d < 1024, InRange from_ size d → Present (mm.pde d) → ∀ n < 1024, mm2.pte d n = mm.pte d n ∨
    Present (mm.pte d n) ∧ lowMem ≤ frame (mm.pte d n) ∧ mm2.pte d n = mm.pte d n &&& ~~~2#32

section

variable {mm mm1 mm2 : Mm} {from_ to_ size : BitVec 32}

theorem UndoReady.bases (h : UndoReady from_ to_ size mm) :
    from_.toNat = 0x400000 * dirIndex from_ ∧ to_.toNat = 0x400000 * dirIndex to_ ∧ 0 < dirIndex from_ := by
  have hFrom := and_offset_eq_zero.mp h.fromAligned
  have hTo := and_offset_eq_zero.mp h.toAligned
  have hPos : from_.toNat ≠ 0 := fun h0 => h.fromPos (BitVec.eq_of_toNat_eq h0)
  unfold dirIndex
  omega

theorem UndoReady.copyReady (h : UndoReady from_ to_ size mm) :
    CopyReady (dirCount size) (dirIndex from_) (dirIndex to_) mm := by
  obtain ⟨hFrom, hTo, _⟩ := h.bases
  have hFromEnd := h.fromEnd
  have hToEnd := h.toEnd
  have hApart := h.apart
  have hCount : dirCount size = (size.toNat + 0x3fffff) / 0x400000 := rfl
  refine ⟨by omega, by omega, by omega, fun i hi => ?_, fun i hi => ?_, h.pool, h.counts⟩
  · exact h.empty _ (by omega) ⟨by omega, by omega⟩
  · exact h.tables _ (by omega) ⟨by omega, by omega⟩

theorem UndoReady.copyPageTables_eq (h : UndoReady from_ to_ size mm) :
    copyPageTables mm from_ to_ size =
      copyPageDirs from_ (dirCount size) (4 * dirIndex from_) (4 * dirIndex to_) mm := by
  obtain ⟨hFrom, _, hPos⟩ := h.bases
  have hEnd := h.fromEnd
  rw [copyPageTables, if_neg (by simp [h.fromAligned, h.toAligned]), shift_dirCount (by omega), dir_offset,
    dir_offset]

theorem UndoReady.freePageTables_eq (h : UndoReady from_ to_ size mm) :
    freePageTables mm1 to_ size = freePageDirs (dirCount size) (4 * dirIndex to_) mm1 := by
  obtain ⟨hFrom, _, hPos⟩ := h.bases
  have hEnd := h.fromEnd
  rw [freePageTables, if_neg (by simp [h.toAligned]), if_neg h.toPos, shift_dirCount (by omega), dir_offset]

/-- A directory entry of the target that is present after the copy has a new table. -/
theorem WindowCopied.tableCopy {count f t i : Nat} (h : WindowCopied count f t mm mm1)
    (hEmpty : ∀ i < count, ¬Present (mm.pde (t + i))) (hi : i < count) (hPresent : Present (mm1.pde (t + i))) :
    ∃ p, TableCopy (f + i) (t + i) p mm mm1 ∧ mm1.table (t + i) = pageAddr p := by
  rcases h.fresh i hi with hSame | ⟨p, hCopy⟩
  · rw [hSame] at hPresent
    exact absurd hPresent (hEmpty i hi)
  · exact ⟨p, hCopy, by rw [Mm.table, hCopy.pde, frame_or_seven (pageAddr_aligned hCopy.index)]⟩

theorem UndoReady.releasable (h : UndoReady from_ to_ size mm)
    (hCopied : WindowCopied (dirCount size) (dirIndex from_) (dirIndex to_) mm mm1) :
    Releasable (dirCount size) (dirIndex to_) mm1 := by
  have hReady := h.copyReady
  have hSource := hReady.source
  have hNew {i : Nat} (hi : i < dirCount size) := hCopied.tableCopy hReady.empty hi
  refine ⟨hReady.target, fun i hi hPresent => ?_, fun i hi hPresent => ?_, fun i hi hPresent => ?_,
    hCopied.distinct, fun i hi hPresent n hn hEntry => ?_, fun j => ?_⟩
  · obtain ⟨p, hCopy, hTable⟩ := hNew hi hPresent
    rw [hTable, pageAddr_toNat hCopy.index]
    omega
  · obtain ⟨p, hCopy, hTable⟩ := hNew hi hPresent
    have hIndex := hCopy.index
    rw [pagingPages_eq] at hIndex
    rw [hTable, hCopy.pde]
    exact mask_or_seven (pageAddr_aligned hCopy.index) (by rw [pageAddr_toNat hCopy.index]; omega)
  · obtain ⟨p, hCopy, hTable⟩ := hNew hi hPresent
    right
    rw [hTable, hCopied.high, BitVec.lt_def]
    exact hCopy.below
  · obtain ⟨p, hCopy, hTable⟩ := hNew hi hPresent
    have hLoad : mm1.pte (dirIndex to_ + i) n = mm1.load ((pageAddr p).toNat + 4 * n) := by rw [Mm.pte, hTable]
    rw [hLoad, hCopy.entry n hn] at hEntry ⊢
    split_ifs at hEntry ⊢ with hThere
    · rw [frame_clearWrite, hCopied.high]
      exact h.frames (dirIndex from_ + i) n _ ⟨by omega, by omega⟩ ⟨by omega, hn, hCopy.present, rfl, hThere⟩
    · exact absurd hEntry not_present_zero
  · have hCount := hCopied.count j
    omega

theorem UndoReady.undone (h : UndoReady from_ to_ size mm)
    (hCopied : WindowCopied (dirCount size) (dirIndex from_) (dirIndex to_) mm mm1)
    (hReleased : Released (dirCount size) (dirIndex to_) mm1 mm2) : Undone from_ to_ size mm mm1 mm2 := by
  have hReady := h.copyReady
  have hApart := hReady.apart
  have hNew {i : Nat} (hi : i < dirCount size) := hCopied.tableCopy hReady.empty hi
  refine ⟨fun j => ?_, fun d hd => ?_, fun d hd hRange hPresent n hn => ?_⟩
  · have hUp := hCopied.count j
    have hDown := hReleased.count j
    exact BitVec.eq_of_toNat_eq (by omega)
  · rw [hReleased.dir d hd]
    split_ifs with hThere
    · exact Or.inr ⟨⟨hThere.1, hThere.2.1⟩, hThere.2.2, rfl⟩
    · left
      by_cases hIn : dirIndex to_ ≤ d ∧ d < dirIndex to_ + dirCount size
      · rcases hCopied.fresh (d - dirIndex to_) (by omega) with hSame | ⟨p, hCopy⟩
        · rwa [show dirIndex to_ + (d - dirIndex to_) = d by omega] at hSame
        · have hPde := hCopy.pde
          rw [show dirIndex to_ + (d - dirIndex to_) = d by omega] at hPde
          exact absurd ⟨hIn.1, hIn.2, by rw [hPde]; exact present_or_seven _⟩ hThere
      · exact hCopied.dir d hd (by omega)
  · obtain ⟨hFirst, hLast⟩ := hRange
    obtain ⟨i, hi, rfl⟩ : ∃ i < dirCount size, d = dirIndex from_ + i := ⟨d - dirIndex from_, by omega, by omega⟩
    have hTable : SourceTable mm (dirIndex from_ + i) := hReady.tables i hi hPresent
    have hPde : mm2.pde (dirIndex from_ + i) = mm.pde (dirIndex from_ + i) := by
      rw [hReleased.dir _ hd, if_neg (by omega), hCopied.dir _ hd (by omega)]
    have hKept : mm2.load ((mm.table (dirIndex from_ + i)).toNat + 4 * n) =
        mm1.load ((mm.table (dirIndex from_ + i)).toNat + 4 * n) := by
      have hLow := hTable.range
      refine load32_congr fun y hy hy' => hReleased.mem y (by omega) fun k hk hThere => ?_
      obtain ⟨p, hCopy, hNewTable⟩ := hNew hk hThere
      have hFar := hTable.apart hCopy.index hCopy.free
      rw [hNewTable]
      unfold Outside
      omega
    have hEntry : mm2.pte (dirIndex from_ + i) n =
        mm1.load ((mm.table (dirIndex from_ + i)).toNat + 4 * n) := by
      rw [Mm.pte, Mm.table, hPde]
      exact hKept
    rw [hEntry]
    rcases hCopied.source i hi hPresent n hn with hSame | hShared
    · exact Or.inl hSame
    · by_cases hManaged : Present (mm.pte (dirIndex from_ + i) n) ∧ lowMem ≤ frame (mm.pte (dirIndex from_ + i) n)
      · exact Or.inr ⟨hManaged.1, hManaged.2, hShared.trans (shareEntry_managed hManaged.1 hManaged.2)⟩
      · exact Or.inl (hShared.trans (if_neg hManaged))

theorem UndoReady.pagesFound (h : UndoReady from_ to_ size mm) (hFound : CopyPagesFound mm from_ to_ size) :
    PagesFound from_ (dirCount size) (4 * dirIndex from_) (4 * dirIndex to_) mm := by
  obtain ⟨hFrom, _, hPos⟩ := h.bases
  have hEnd := h.fromEnd
  rwa [CopyPagesFound, shift_dirCount (by omega), dir_offset, dir_offset] at hFound

/-- Releasing the target undoes a copy that finds its pages. -/
theorem free_undoes_copy (h : UndoReady from_ to_ size mm) (hFound : CopyPagesFound mm from_ to_ size) :
    ∃ mm1 mm2, copyPageTables mm from_ to_ size = .ok (0#32, mm1) ∧
      freePageTables mm1 to_ size = .ok mm2 ∧ Undone from_ to_ size mm mm1 mm2 := by
  obtain ⟨mm1, hRun, hCopied⟩ := h.copyReady.copyPageDirs h.fromPos (h.pagesFound hFound)
  obtain ⟨mm2, hFree, hReleased⟩ := (h.releasable hCopied).freePageDirs
  exact ⟨mm1, mm2, h.copyPageTables_eq.trans hRun, h.freePageTables_eq.trans hFree, h.undone hCopied hReleased⟩

end

/-- Directory entry 1 has a table below `lowMem` that names page 0, directory entry 2
holds `v`, and page 1 is free. -/
def oneTable (v : BitVec 32) : Mm where
  mem := store32 (store32 (store32 (fun _ => 0) 4 0x1007#32) 8 v) 0x1000 0x100007#32
  memMap i := if i = 1 then 0#8 else 1#8
  highMemory := 0x102000#32
  wrapped := false

section

variable {v : BitVec 32}

theorem oneTable_pde_one : (oneTable v).pde 1 = 0x1007#32 := by
  rw [Mm.pde, Mm.load, oneTable, load32_store32_of_disjoint _ _ (by omega), load32_store32_of_disjoint _ _ (by omega)]
  exact load32_store32_same _ _ _

theorem oneTable_pde_two : (oneTable v).pde 2 = v := by
  rw [Mm.pde, Mm.load, oneTable, load32_store32_of_disjoint _ _ (by omega)]
  exact load32_store32_same _ _ _

theorem oneTable_table : (oneTable v).table 1 = 0x1000#32 := by
  rw [Mm.table, oneTable_pde_one]
  decide

theorem oneTable_load {x : Nat} (hx : 0x1004 ≤ x) : (oneTable v).load x = 0#32 := by
  rw [Mm.load, oneTable, load32_store32_of_disjoint _ _ (by omega), load32_store32_of_disjoint _ _ (by omega),
    load32_store32_of_disjoint _ _ (by omega)]
  exact load32_zero fun _ _ _ => rfl

theorem oneTable_names (j : Nat) : (oneTable v).sourceNames j 1 1 ≤ 1 := by
  have hRest {n a : Nat} (ha : 0x1004 ≤ a) : (oneTable v).tableNames j n a = 0 := by
    induction n generalizing a with
    | zero => rfl
    | succ n ih => rw [Mm.tableNames, oneTable_load ha, entryNames_absent not_present_zero, ih (by omega)]
  have hTable : (oneTable v).tableNames j 1024 0x1000 =
      entryNames j ((oneTable v).load 0x1000) + (oneTable v).tableNames j 1023 0x1004 := rfl
  have hOne : entryNames j ((oneTable v).load 0x1000) ≤ 1 := by
    rw [entryNames]
    split_ifs <;> omega
  rw [Mm.sourceNames, Mm.sourceNames, oneTable_pde_one, if_pos (by decide), oneTable_table]
  change (oneTable v).tableNames j 1024 0x1000 + 0 ≤ 1
  rw [hTable, hRest (Nat.le_refl _)]
  omega

theorem oneTable_pool : (oneTable v).HighInUse := by
  refine ⟨show lowMem ≤ 0x102000#32 by decide, fun i _ hAbove hZero => ?_⟩
  change 0x102000 ≤ 0x100000 + 4096 * i at hAbove
  have hOne : (if i = 1 then 0#8 else 1#8) = 0#8 := hZero
  rw [if_neg (by omega)] at hOne
  exact absurd hOne (by decide)

/-- Page 1 is there for its copy. -/
theorem oneTable_found : CopyPagesFound (oneTable v) 0x400000#32 0x800000#32 0x400000#32 := by
  have hPresent : Present ((oneTable v).pde 1) := by
    rw [oneTable_pde_one]
    decide
  rcases getFreePage_cases (oneTable_pool (v := v)) with ⟨hFull, _⟩ | ⟨p, hp, _, _, hCall⟩
  · exact absurd rfl (hFull 1 (by decide))
  · change PagesFound 0x400000#32 (0 + 1) (4 * 1) (4 * 2) (oneTable v)
    rw [pagesFound_page hPresent hCall]
    exact ⟨pageAddr_ne_noPage hp, trivial⟩

/-- A copy of that table from 4MB to 8MB may start. -/
theorem oneTable_ready (hv : ¬Present v) : UndoReady 0x400000#32 0x800000#32 0x400000#32 (oneTable v) := by
  have hOne {d : Nat} (hd : InRange 0x400000#32 0x400000#32 d) : d = 1 := by
    change 1 ≤ d ∧ d < 1 + 1 at hd
    omega
  refine ⟨by decide, by decide, by decide, by decide, by decide, by decide, by decide, fun d _ hd => ?_,
    fun d _ hd _ => ?_, fun d n e hd hMaps => ?_, oneTable_pool, fun j => ?_⟩
  · have hTwo : d = 2 := by
      change 2 ≤ d ∧ d < 2 + 1 at hd
      omega
    rw [hTwo, oneTable_pde_two]
    exact hv
  · rw [hOne hd]
    exact ⟨by rw [oneTable_table]; decide, by rw [oneTable_table]; exact fun hLow => absurd hLow (by decide),
      by rw [oneTable_table, oneTable_pde_one]; decide⟩
  · have hEntry := hMaps.entry
    rw [hOne hd, Mm.pte, oneTable_table] at hEntry
    have hFirst : n = 0 := by
      by_contra hn
      change (oneTable v).load (0x1000 + 4 * n) = e at hEntry
      rw [oneTable_load (by omega)] at hEntry
      exact not_present_zero (hEntry ▸ hMaps.present)
    have hSame : e = 0x100007#32 := by
      rw [← hEntry, hFirst]
      exact load32_store32_same _ _ _
    rw [hSame]
    exact Or.inr (show frame 0x100007#32 < 0x102000#32 by decide)
  · have hNames : (oneTable v).sourceNames j 1 1 ≤ 1 := oneTable_names j
    have hCount : ((oneTable v).memMap j).toNat ≤ 1 := by
      change (if j = 1 then 0#8 else 1#8).toNat ≤ 1
      split_ifs <;> decide
    change ((oneTable v).memMap j).toNat + (oneTable v).sourceNames j 1 1 + _ ≤ 255
    split_ifs <;> omega

/-- The page that the copy of that table takes stands in directory entry 2 then. -/
theorem oneTable_installed (hv : ¬Present v) {r : BitVec 32} {mm1 : Mm}
    (hRun : copyPageDirs 0x400000#32 1 (4 * 1) (4 * 2) (oneTable v) = .ok (r, mm1)) : Present (mm1.pde 2) := by
  have hReady : CopyReady 1 1 2 (oneTable v) := (oneTable_ready hv).copyReady
  have hPresent : Present ((oneTable v).pde 1) := by
    rw [oneTable_pde_one]
    decide
  have hTable : SourceTable (oneTable v) 1 := hReady.tables 0 (by omega) hPresent
  rcases getFreePage_cases (oneTable_pool (v := v)) with ⟨hFull, _⟩ | ⟨p, hp, hFree, _, hCall⟩
  · exact absurd rfl (hFull 1 (by decide))
  · rw [copyPageDirs_install (if_neg (by decide)) (hReady.empty 0 (by omega)) hPresent hTable.mask hp hCall,
      Linux011.copyPageDirs, Except.ok.injEq, Prod.mk.injEq] at hRun
    rw [← hRun.2, (hTable.installed (by omega) (Nat.le_refl _) hp hFree).pde 2 (by omega), if_pos rfl]
    exact present_or_seven _

end

/-- The copy of one table and back. -/
theorem free_undoes_copy_oneTable : ∃ mm1 mm2,
    copyPageTables (oneTable 0#32) 0x400000#32 0x800000#32 0x400000#32 = .ok (0#32, mm1) ∧
      freePageTables mm1 0x800000#32 0x400000#32 = .ok mm2 ∧ ∀ j, mm2.memMap j = (oneTable 0#32).memMap j := by
  obtain ⟨mm1, mm2, hCopy, hFree, hUndone⟩ := free_undoes_copy (oneTable_ready not_present_zero) oneTable_found
  exact ⟨mm1, mm2, hCopy, hFree, hUndone.memMap⟩

/-- An absent target entry other than 0, here 2, comes back as 0. -/
theorem undo_clears_absent : ¬∀ (mm : Mm) (from_ to_ size : BitVec 32), UndoReady from_ to_ size mm →
    CopyPagesFound mm from_ to_ size →
    ∃ r mm1 mm2, copyPageTables mm from_ to_ size = .ok (r, mm1) ∧ freePageTables mm1 to_ size = .ok mm2 ∧
      ∀ d < 1024, mm2.pde d = mm.pde d := by
  intro hAll
  have hTwo : ¬Present 2#32 := by decide
  have hReady := oneTable_ready hTwo
  obtain ⟨r, mm1, mm2, hCopy, hFree, hDir⟩ := hAll _ _ _ _ hReady oneTable_found
  obtain ⟨mm1', hRun, hCopied⟩ :=
    hReady.copyReady.copyPageDirs hReady.fromPos (hReady.pagesFound oneTable_found)
  obtain ⟨rfl, rfl⟩ := Prod.mk.inj (Except.ok.inj ((hCopy.symm.trans hReady.copyPageTables_eq).trans hRun))
  obtain ⟨mm2', hFree', hReleased⟩ := (hReady.releasable hCopied).freePageDirs
  obtain rfl := Except.ok.inj ((hFree.symm.trans hReady.freePageTables_eq).trans hFree')
  have hZero := hReleased.dir 2 (by omega)
  rw [if_pos ⟨by decide, by decide, oneTable_installed hTwo hRun⟩, hDir 2 (by omega), oneTable_pde_two] at hZero
  exact absurd hZero (by decide)

end Linux011

import Linux011.Mm.Boot
import Linux011.Mm.TableLoops

/-! `copy_page_tables` of the boot tables when no page is free: every round takes `noPage`
for the next table, and copies to the end of the page directory. -/
namespace Linux011

open ByteMemory SharedRefs

/-- The word that maps page `q` in a boot table. -/
def bootWord (q : Nat) : BitVec 32 := BitVec.ofNat 32 (0x1000 * q + 7)

theorem present_bootWord (q : Nat) : Present (bootWord q) := by
  rw [bootWord, ofNat_or_seven]
  exact present_or_seven _

theorem frame_bootWord {q : Nat} (h : q < 4096) : (frame (bootWord q)).toNat = 0x1000 * q := frame_boot (by omega)

/-- A boot word names the page whose number it has. -/
theorem entryNames_bootWord {q : Nat} (h : q < 4096) (j : Nat) :
    entryNames j (bootWord q) = if q = j + 256 then 1 else 0 := by
  have hFrame := frame_bootWord h
  rw [entryNames_present (present_bootWord q)]
  refine if_congr ?_ rfl rfl
  rw [managed_eq_some, BitVec.le_def, lowMem_toNat, hFrame]
  constructor
  · rintro ⟨hLow, hIndex⟩
    rw [mapNr_toNat (by rw [BitVec.le_def, lowMem_toNat, hFrame]; exact hLow), hFrame] at hIndex
    omega
  · rintro rfl
    refine ⟨by omega, ?_⟩
    rw [mapNr_toNat (by rw [BitVec.le_def, lowMem_toNat, hFrame]; omega), hFrame]
    omega

/-- Consecutive boot words name each page of a range once. -/
theorem tableNames_bootWords {mm : Mm} {nr a q : Nat} (hTop : q + nr ≤ 4096)
    (h : ∀ n < nr, mm.load (a + 4 * n) = bootWord (q + n)) (j : Nat) :
    mm.tableNames j nr a = if q ≤ j + 256 ∧ j + 256 < q + nr then 1 else 0 := by
  induction nr generalizing a q with
  | zero => rw [Mm.tableNames, if_neg (by omega)]
  | succ nr ih =>
      have hFirst : mm.load a = bootWord q := h 0 (by omega)
      have hRest : ∀ n < nr, mm.load (a + 4 + 4 * n) = bootWord (q + 1 + n) := fun n hn => by
        rw [show a + 4 + 4 * n = a + 4 * (n + 1) by omega, h (n + 1) (by omega), show q + 1 + n = q + (n + 1) by omega]
      rw [Mm.tableNames, hFirst, entryNames_bootWord (by omega), ih (by omega) hRest]
      split_ifs <;> omega

/-- The inner loop with its target before its source, which it may overlap, when all pages
named lie below `lowMem`: no word is written that is still to be read. -/
theorem copyPageTable_below {mm : Mm} {nr a b : Nat} (hOrder : b + 4 ≤ a)
    (hLow : ∀ n < nr, frame (mm.load (a + 4 * n)) < lowMem) :
    (copyPageTable nr a b mm).memMap = mm.memMap ∧ (copyPageTable nr a b mm).highMemory = mm.highMemory ∧
      ∀ x, Outside b (4 * nr) x → (copyPageTable nr a b mm).mem x = mm.mem x := by
  induction nr generalizing a b mm with
  | zero => exact ⟨rfl, rfl, fun _ _ => rfl⟩
  | succ nr ih =>
      have hFirst : ¬lowMem ≤ frame (mm.load a) := BitVec.not_le.mpr (hLow 0 (by omega))
      have hMap : (mm.shareWord a b).memMap = mm.memMap := by
        unfold Mm.shareWord
        dsimp only
        split_ifs <;> rfl
      have hMem (x : Nat) (hx : Outside b 4 x) : (mm.shareWord a b).mem x = mm.mem x := by
        unfold Mm.shareWord
        dsimp only
        split_ifs
        · exact store32_outside _ _ _ hx
        · rfl
      have hLater (n : Nat) : (mm.shareWord a b).load (a + 4 + 4 * n) = mm.load (a + 4 * (n + 1)) := by
        rw [show a + 4 * (n + 1) = a + 4 + 4 * n by omega]
        exact Mm.load_outside hMem (by omega)
      have hRest : ∀ n < nr, frame ((mm.shareWord a b).load (a + 4 + 4 * n)) < lowMem := fun n hn => by
        rw [hLater]
        exact hLow (n + 1) (by omega)
      obtain ⟨hMap', hHigh', hMem'⟩ := ih (b := b + 4) (by omega) hRest
      rw [copyPageTable_step]
      refine ⟨hMap'.trans hMap, hHigh'.trans (mm.shareWord_highMemory), fun x hx => ?_⟩
      unfold Outside at hx
      exact (hMem' x (by unfold Outside; omega)).trans (hMem x (by unfold Outside; omega))

/-- `t` rounds from an empty pool. Directory entries 16 to 19 have got `noPage`; the words
of boot table `t - 1` stand at the end of the directory, from the second round on; and
the first 160 pages of each table from the second on are counted. -/
structure Exhausted (t : Nat) (mm : Mm) : Prop where
  high : lowMem ≤ mm.highMemory
  boot : ∀ d < 4, mm.load (4 * d) = bootWord (d + 1)
  hung : ∀ d < 4, mm.load (4 * (16 + d)) = if d < t then noPage ||| 7#32 else 0#32
  todo : ∀ d < 4, t ≤ d → ∀ n < 0xa0, mm.load (0x1000 * (d + 1) + 4 * n) = bootWord (1024 * d + n)
  last : 2 ≤ t → ∀ n < 0xa0, mm.load (0xf00 + 4 * n) = bootWord (1024 * (t - 1) + n) &&& ~~~2#32
  count : ∀ j < pagingPages, (mm.memMap j).toNat =
    100 + if (j + 256) / 1024 < t ∧ (j + 256) % 1024 < 0xa0 then 1 else 0

section

variable {mm : Mm} {t : Nat}

theorem Exhausted.full (h : Exhausted t mm) : ∀ i < pagingPages, mm.memMap i ≠ 0#8 := fun i hi hZero => by
  have hCount := h.count i hi
  rw [hZero, BitVec.toNat_ofNat] at hCount
  omega

theorem Exhausted.page (h : Exhausted t mm) : getFreePage mm = .ok (noPage, mm) :=
  getFreePage_full ⟨h.high, fun i hi _ => h.full i hi⟩ h.full

theorem bootMm_exhausted {extMemK : BitVec 16} (hNone : (memoryEnd extMemK).toNat = 0x100000) (m : Memory) :
    Exhausted 0 (bootMm extMemK m) where
  high := BitVec.le_def.mpr (by rw [lowMem_toNat]; exact hNone.ge)
  boot := fun d hd => bootMm_pde extMemK m hd
  hung := fun d hd => by
    rw [if_neg (by omega)]
    exact bootMm_absent extMemK m (by omega) (by omega)
  todo := fun d hd _ n hn => by
    have hEntry := bootMm_pte extMemK m hd (show n < 1024 by omega)
    rwa [Mm.pte, bootMm_table extMemK m hd] at hEntry
  last := fun hTwo => absurd hTwo (by omega)
  count := fun j hj => by
    have hStart := (memoryRange extMemK).low
    rw [bootMm_memMap extMemK m hj, baseCount, if_neg (by omega), if_neg (by omega)]
    rfl

/-- The last 256 bytes of the directory do not matter. -/
theorem Exhausted.write {mm' : Mm} (h : Exhausted 0 mm) (hMap : mm'.memMap = mm.memMap)
    (hHigh : mm'.highMemory = mm.highMemory) (hMem : ∀ x, Outside 0xf00 0x100 x → mm'.mem x = mm.mem x) :
    Exhausted 0 mm' where
  high := hHigh ▸ h.high
  boot := fun d hd => (Mm.load_outside hMem (by omega)).trans (h.boot d hd)
  hung := fun d hd => (Mm.load_outside hMem (by omega)).trans (h.hung d hd)
  todo := fun d hd hLe n hn => (Mm.load_outside hMem (by omega)).trans (h.todo d hd hLe n hn)
  last := fun hTwo => absurd hTwo (by omega)
  count := fun j hj => by
    rw [hMap]
    exact h.count j hj

/-- The state after the next round, the state before it with its table hung. -/
theorem Exhausted.next {mid : Mm} (h : Exhausted t mm) (ht : t < 4)
    (hHigh : mid.highMemory = mm.highMemory)
    (hMem : ∀ x, Outside (0x1000 * (t + 1)) 0x280 x → Outside 0xf00 0x280 x →
      mid.mem x = (mm.store (4 * (16 + t)) (noPage ||| 7#32)).mem x)
    (hLast : 1 ≤ t → ∀ n < 0xa0, mid.load (0xf00 + 4 * n) = bootWord (1024 * t + n) &&& ~~~2#32)
    (hCount : ∀ j < pagingPages, (mid.memMap j).toNat = (mm.memMap j).toNat +
      if (j + 256) / 1024 = t ∧ (j + 256) % 1024 < 0xa0 then 1 else 0) : Exhausted (t + 1) mid := by
  have hLoad {x : Nat} (hx : x + 4 ≤ 0x1000 * (t + 1) ∨ 0x1000 * (t + 1) + 0x280 ≤ x)
      (hx' : x + 4 ≤ 0xf00 ∨ 0xf00 + 0x280 ≤ x) :
      mid.load x = (mm.store (4 * (16 + t)) (noPage ||| 7#32)).load x :=
    load32_congr fun y hy hy' => hMem y (by unfold Outside; omega) (by unfold Outside; omega)
  have hOther {x : Nat} (hx : x + 4 ≤ 4 * (16 + t) ∨ 4 * (16 + t) + 4 ≤ x) :
      (mm.store (4 * (16 + t)) (noPage ||| 7#32)).load x = mm.load x := load32_store32_of_disjoint _ _ (by omega)
  constructor
  · rw [hHigh]
    exact h.high
  · intro d hd
    rw [hLoad (by omega) (by omega), hOther (by omega)]
    exact h.boot d hd
  · intro d hd
    rw [hLoad (by omega) (by omega)]
    by_cases hSame : d = t
    · subst d
      rw [if_pos (by omega)]
      exact load32_store32_same _ _ _
    · rw [hOther (by omega), h.hung d hd]
      refine if_congr ?_ rfl rfl
      omega
  · intro d hd hLe n hn
    rw [hLoad (by omega) (by omega), hOther (by omega)]
    exact h.todo d hd (by omega) n hn
  · intro hTwo n hn
    rw [show t + 1 - 1 = t by omega]
    exact hLast (by omega) n hn
  · intro j hj
    rw [hCount j hj, h.count j hj]
    split_ifs <;> omega

/-- One round of the outer loop. -/
theorem Exhausted.round (h : Exhausted t mm) (ht : t < 4) (size : Nat) :
    ∃ mid, Exhausted (t + 1) mid ∧ copyPageDirs 0#32 (size + 1) (4 * t) (4 * (16 + t)) mm =
      copyPageDirs 0#32 size (4 * (t + 1)) (4 * (16 + (t + 1))) mid := by
  have hTo : ¬1#32 &&& mm.load (4 * (16 + t)) ≠ 0#32 := by
    rw [h.hung t ht, if_neg (by omega)]
    decide
  have hFrom : ¬1#32 &&& mm.load (4 * t) = 0#32 := by
    rw [h.boot t ht]
    exact present_bootWord _
  have hTable : (0xfffff00#32 &&& mm.load (4 * t)).toNat = 0x1000 * (t + 1) := by
    have hAll : ∀ t : Fin 4, (0xfffff00#32 &&& bootWord (t + 1)).toNat = 0x1000 * (t + 1) := by decide
    rw [h.boot t ht]
    exact hAll ⟨t, ht⟩
  rw [copyPageDirs_page hTo hFrom h.page noPage_ne_zero, hTable, if_pos rfl,
    show 4 * t + 4 = 4 * (t + 1) by omega, show 4 * (16 + t) + 4 = 4 * (16 + (t + 1)) by omega]
  refine ⟨_, ?_, rfl⟩
  have hWords (n : Nat) (hn : n < 0xa0) :
      (mm.store (4 * (16 + t)) (noPage ||| 7#32)).load (0x1000 * (t + 1) + 4 * n) = bootWord (1024 * t + n) := by
    rw [Mm.load, Mm.store_mem, load32_store32_of_disjoint _ _ (by omega)]
    exact h.todo t ht (Nat.le_refl t) n hn
  by_cases hFirst : t = 0
  · -- the first table overlaps its copy, and its pages are not counted
    subst t
    have hLow (n : Nat) (hn : n < 0xa0) :
        frame ((mm.store (4 * (16 + 0)) (noPage ||| 7#32)).load (0x1000 * (0 + 1) + 4 * n)) < lowMem := by
      rw [hWords n hn, BitVec.lt_def, frame_bootWord (by omega), lowMem_toNat]
      omega
    obtain ⟨hMap, hHigh, hMem⟩ := copyPageTable_below (b := 0xf00) (by omega) hLow
    refine h.next ht hHigh (fun x _ hx => hMem x hx) (fun hPos => absurd hPos (by omega)) fun j hj => ?_
    change ((copyPageTable 0xa0 (0x1000 * (0 + 1)) 0xf00 _).memMap j).toNat = _
    rw [hMap, Mm.store_memMap, if_neg (by omega), Nat.add_zero]
  · have hShared : TableShared 0xa0 (0x1000 * (t + 1)) 0xf00 (mm.store (4 * (16 + t)) (noPage ||| 7#32))
        (copyPageTable 0xa0 (0x1000 * (t + 1)) 0xf00 (mm.store (4 * (16 + t)) (noPage ||| 7#32))) :=
      copyPageTable_shared _ (by omega)
    have hNames (j : Nat) := tableNames_bootWords (q := 1024 * t) (by omega) hWords j
    refine h.next ht hShared.high hShared.mem (fun _ n hn => ?_) fun j hj => ?_
    · have hTarget := hShared.target n hn
      rw [hWords n hn, if_pos (present_bootWord _)] at hTarget
      exact hTarget
    · have hOld := h.count j hj
      have hRound := hShared.count j (by
        rw [hNames, Mm.store_memMap, hOld]
        split_ifs <;> omega)
      rw [hNames, Mm.store_memMap] at hRound
      refine hRound.trans (congrArg _ (if_congr ?_ rfl rfl))
      omega

/-- The whole copy. -/
theorem Exhausted.copyPageTables (h : Exhausted 0 mm) :
    ∃ mm', Exhausted 4 mm' ∧ copyPageTables mm 0#32 0x4000000#32 0x1000000#32 = .ok (0#32, mm') := by
  have hRun {size t : Nat} {mm : Mm} (h : Exhausted t mm) (hSize : t + size = 4) :
      ∃ mm', Exhausted 4 mm' ∧ copyPageDirs 0#32 size (4 * t) (4 * (16 + t)) mm = .ok (0#32, mm') := by
    induction size generalizing t mm with
    | zero =>
        obtain rfl : t = 4 := by omega
        exact ⟨mm, h, rfl⟩
    | succ size ih =>
        obtain ⟨mid, hMid, hStep⟩ := h.round (by omega) size
        obtain ⟨mm', hEnd, hRest⟩ := ih hMid (by omega)
        exact ⟨mm', hEnd, hStep.trans hRest⟩
  obtain ⟨mm', hEnd, hCall⟩ := hRun h (Nat.zero_add 4)
  refine ⟨mm', hEnd, ?_⟩
  rw [Linux011.copyPageTables, if_neg (by decide)]
  exact hCall

/-- The four directory entries make the directory their page table. -/
theorem Exhausted.maps (h : Exhausted 4 mm) {d n : Nat} (hd : d < 4) (hn : n < 1024)
    (hPresent : Present (mm.load (4 * n))) :
    mm.Maps (16 + d) n (mm.load (4 * n)) := by
  have hPde : mm.pde (16 + d) = noPage ||| 7#32 := (h.hung d hd).trans (if_pos hd)
  have hTable : (mm.table (16 + d)).toNat = 0 := by
    rw [Mm.table, hPde]
    decide
  refine ⟨by omega, hn, by rw [hPde]; exact present_or_seven _, ?_, hPresent⟩
  rw [Mm.pte, hTable, Nat.zero_add]

end

end Linux011

import Linux011.Mm.Basic
import Mathlib.Data.Nat.Find

/-! `get_free_page` of `mm/swap.c`, register by register, and what one call
does to memory and to `mem_map`. -/
namespace Linux011

open ByteMemory

/-- Registers left by `repne scasb`; `edi` is relative to `mem_map`. -/
structure Scasb where
  ecx : Nat
  edi : Int
  zf : Bool

/-- `std; repne; scasb`: compare `al` with the byte at `edi` and step down, at
most `ecx` times, stopping after the first equal byte. -/
def repneScasb (memMap : Nat → BitVec 8) (al : BitVec 8) : Nat → Int → Scasb
  | 0, edi => ⟨0, edi, false⟩
  | ecx + 1, edi =>
      if memMap edi.toNat = al then ⟨ecx, edi - 1, true⟩
      else repneScasb memMap al ecx (edi - 1)

/-- No byte is found, and `ecx` has come down to 0. -/
theorem repneScasb_miss {memMap : Nat → BitVec 8} {al : BitVec 8} {n : Nat}
    (h : ∀ i < n, memMap i ≠ al) :
    repneScasb memMap al n ((n : Int) - 1) = ⟨0, -1, false⟩ := by
  induction n with
  | zero => rfl
  | succ n ih =>
      have hIndex : ((n + 1 : Nat) : Int) - 1 = n := by omega
      rw [hIndex, repneScasb, if_neg (by simpa using h n (by omega))]
      exact ih fun i hi => h i (by omega)

/-- The scan stops at the highest equal byte; `ecx` is its index and `edi` has
already moved past it. -/
theorem repneScasb_hit {memMap : Nat → BitVec 8} {al : BitVec 8} {n i : Nat} (hi : i < n)
    (hEq : memMap i = al) (hLast : ∀ j, i < j → j < n → memMap j ≠ al) :
    repneScasb memMap al n ((n : Int) - 1) = ⟨i, (i : Int) - 1, true⟩ := by
  induction n with
  | zero => omega
  | succ n ih =>
      have hIndex : ((n + 1 : Nat) : Int) - 1 = n := by omega
      rw [hIndex, repneScasb]
      by_cases hn : i = n
      · subst i
        rw [if_pos (by simpa using hEq)]
      · rw [if_neg (by simpa using hLast n (by omega) (by omega))]
        exact ih (by omega) fun j hj hj' => hLast j hj (by omega)

/-- The address computed from `ecx` by `sall $12` and `addl LOW_MEM`. -/
def pageAddr (ecx : Nat) : BitVec 32 := (BitVec.ofNat 32 ecx <<< 12) + lowMem

/-- Take page `i`: mark its byte and clear its 1024 words from the top down. -/
def Mm.takePage (mm : Mm) (i : Nat) : Mm :=
  { mm with
    mem := fillDown mm.mem 0#32 ((pageAddr i).toNat + 4092) 1024
    memMap := Function.update mm.memMap i 1#8 }

/-- `eax` at the `scasb`, and behind it when no byte was found. The constraint of
the input 0 names no register, so nothing puts that 0 into `eax`: the build
brings `PAGING_PAGES` to `ecx` through `eax`, at the start of every round. -/
def noPage : BitVec 32 := BitVec.ofNat 32 pagingPages

/-- One `repeat:` after another. A round that finds a byte sets it, so after
`pagingPages + 1` rounds the loop never ends. -/
def getFreePageLoop : Nat → Mm → Except Stop (BitVec 32 × Mm)
  | 0, _ => .error .hang
  | fuel + 1, mm =>
      let scan := repneScasb mm.memMap (noPage.setWidth 8) pagingPages ((pagingPages : Int) - 1)
      let mm' := if scan.zf then
          { mm with
            memMap := Function.update mm.memMap (scan.edi + 1).toNat 1#8
            mem := fillDown mm.mem 0#32 ((pageAddr scan.ecx).toNat + 4092) 1024 }
        else mm
      let res := if scan.zf then pageAddr scan.ecx else noPage
      if mm.highMemory ≤ res then getFreePageLoop fuel mm' else .ok (res, mm')

/-- `get_free_page`. -/
def getFreePage (mm : Mm) : Except Stop (BitVec 32 × Mm) :=
  getFreePageLoop (pagingPages + 1) mm

/-- `al` is 0, so the scan looks for a free page as it should. -/
theorem noPage_low : noPage.setWidth 8 = 0#8 := by decide

theorem noPage_ne_zero : noPage ≠ 0#32 := by decide

theorem noPage_lt : noPage < lowMem := by decide

/-- Page `i` of the pool. -/
theorem pageAddr_toNat {i : Nat} (h : i < pagingPages) :
    (pageAddr i).toNat = 0x100000 + 4096 * i := by
  rw [pagingPages_eq] at h
  rw [pageAddr, BitVec.toNat_add, BitVec.toNat_shiftLeft, BitVec.toNat_ofNat, lowMem_toNat,
    Nat.shiftLeft_eq]
  omega

theorem pageAddr_aligned {i : Nat} (h : i < pagingPages) : (pageAddr i).toNat % 4096 = 0 := by
  rw [pageAddr_toNat h]
  omega

theorem lowMem_le_pageAddr {i : Nat} (h : i < pagingPages) : lowMem ≤ pageAddr i := by
  rw [BitVec.le_def, pageAddr_toNat h, lowMem_toNat]
  omega

/-- The index of a page of the pool names it. -/
theorem mapNr_pageAddr {i : Nat} (h : i < pagingPages) : mapNr (pageAddr i) = i := by
  rw [mapNr_toNat (lowMem_le_pageAddr h), pageAddr_toNat h]
  omega

theorem pageAddr_ne_zero {i : Nat} (h : i < pagingPages) : pageAddr i ≠ 0#32 := by
  intro h0
  have hNat := pageAddr_toNat h
  rw [h0, BitVec.toNat_ofNat] at hNat
  omega

theorem pageAddr_ne_noPage {i : Nat} (h : i < pagingPages) : pageAddr i ≠ noPage := fun hNone =>
  BitVec.not_lt.mpr (lowMem_le_pageAddr h) (hNone ▸ noPage_lt)

/-- A managed page is the one its index names. -/
theorem pageAddr_mapNr {a : BitVec 32} (h : lowMem ≤ a) (hAligned : a.toNat % 4096 = 0)
    (hTop : a.toNat < 0x1000000) : pageAddr (mapNr a) = a := by
  have hIndex := mapNr_toNat h
  rw [BitVec.le_def, lowMem_toNat] at h
  apply BitVec.eq_of_toNat_eq
  rw [pageAddr_toNat (by rw [pagingPages_eq]; omega)]
  omega

section Take

variable (mm : Mm) (i : Nat)

@[simp] theorem Mm.takePage_memMap : (mm.takePage i).memMap = Function.update mm.memMap i 1#8 := rfl
@[simp] theorem Mm.takePage_highMemory : (mm.takePage i).highMemory = mm.highMemory := rfl
@[simp] theorem Mm.takePage_wrapped : (mm.takePage i).wrapped = mm.wrapped := rfl

variable {i}

theorem Mm.takePage_outside (h : i < pagingPages) {a : Nat}
    (ha : a < (pageAddr i).toNat ∨ (pageAddr i).toNat + 4096 ≤ a) :
    (mm.takePage i).mem a = mm.mem a := by
  have hAddr := pageAddr_toNat h
  exact fillDown_outside _ _ _ _ (by omega) (by omega)

/-- A page that is handed out has been cleared. -/
theorem Mm.takePage_zero (h : i < pagingPages) {a : Nat} (hLow : (pageAddr i).toNat ≤ a)
    (hHigh : a < (pageAddr i).toNat + 4096) : (mm.takePage i).mem a = 0 := by
  have hAddr := pageAddr_toNat h
  exact fillDown_zero_inside _ _ _ (by omega) (by omega) (by omega)

end Take

/-- Memory ends above `LOW_MEM`, and every page from its end on is in use, so a
result is never rejected. -/
def Mm.HighInUse (mm : Mm) : Prop :=
  lowMem ≤ mm.highMemory ∧
    ∀ i < pagingPages, mm.highMemory.toNat ≤ 0x100000 + 4096 * i → mm.memMap i ≠ 0#8

/-- No page is free: neither 0 comes back, which the callers test for, nor a page. -/
theorem getFreePage_full {mm : Mm} (hHigh : mm.HighInUse)
    (h : ∀ i < pagingPages, mm.memMap i ≠ 0#8) : getFreePage mm = .ok (noPage, mm) := by
  have hScan : repneScasb mm.memMap (noPage.setWidth 8) pagingPages ((pagingPages : Int) - 1) =
      ⟨0, -1, false⟩ := by
    rw [noPage_low]
    exact repneScasb_miss h
  have hRes : ¬mm.highMemory ≤ noPage := fun hLe =>
    BitVec.not_lt.mpr (BitVec.le_trans hHigh.1 hLe) noPage_lt
  simp only [getFreePage, getFreePageLoop, hScan, Bool.false_eq_true, if_false, if_neg hRes]

/-- The highest free page is handed out. -/
theorem getFreePage_take {mm : Mm} (hHigh : mm.HighInUse) {i : Nat} (hi : i < pagingPages)
    (hFree : mm.memMap i = 0#8) (hLast : ∀ j, i < j → j < pagingPages → mm.memMap j ≠ 0#8) :
    getFreePage mm = .ok (pageAddr i, mm.takePage i) := by
  have hScan : repneScasb mm.memMap (noPage.setWidth 8) pagingPages ((pagingPages : Int) - 1) =
      ⟨i, (i : Int) - 1, true⟩ := by
    rw [noPage_low]
    exact repneScasb_hit hi hFree hLast
  have hRes : ¬mm.highMemory ≤ pageAddr i := by
    rw [BitVec.le_def, pageAddr_toNat hi]
    intro hLe
    exact hHigh.2 i hi hLe hFree
  have hIndex : ((i : Int) - 1 + 1).toNat = i := by omega
  simp only [getFreePage, getFreePageLoop, hScan, if_true, if_neg hRes, hIndex]
  rfl

/-- Everything one call can do: nothing is free and nothing happens, or it hands
out the highest free page. -/
theorem getFreePage_cases {mm : Mm} (hHigh : mm.HighInUse) :
    ((∀ i < pagingPages, mm.memMap i ≠ 0#8) ∧ getFreePage mm = .ok (noPage, mm)) ∨
    ∃ i, i < pagingPages ∧ mm.memMap i = 0#8 ∧ (pageAddr i).toNat < mm.highMemory.toNat ∧
      getFreePage mm = .ok (pageAddr i, mm.takePage i) := by
  by_cases hFull : ∀ i < pagingPages, mm.memMap i ≠ 0#8
  · exact Or.inl ⟨hFull, getFreePage_full hHigh hFull⟩
  · right
    push Not at hFull
    obtain ⟨k, hk, hZero⟩ := hFull
    let i := Nat.findGreatest (fun j => mm.memMap j = 0#8) (pagingPages - 1)
    have hi : i < pagingPages :=
      Nat.lt_of_le_of_lt (Nat.findGreatest_le _) (by rw [pagingPages_eq]; omega)
    have hFree : mm.memMap i = 0#8 :=
      Nat.findGreatest_spec (P := fun j => mm.memMap j = 0#8) (by omega : k ≤ pagingPages - 1) hZero
    have hLast : ∀ j, i < j → j < pagingPages → mm.memMap j ≠ 0#8 := fun j hj hj' =>
      Nat.findGreatest_is_greatest (P := fun j => mm.memMap j = 0#8) hj (by omega)
    refine ⟨i, hi, hFree, ?_, getFreePage_take hHigh hi hFree hLast⟩
    by_contra hNot
    rw [pageAddr_toNat hi] at hNot
    exact hHigh.2 i hi (by omega) hFree

theorem repneScasb_found {memMap : Nat → BitVec 8} {al : BitVec 8} {n : Nat} {edi : Int}
    (h : (repneScasb memMap al n edi).zf = true) : (repneScasb memMap al n edi).ecx < n := by
  induction n generalizing edi with
  | zero => cases h
  | succ n ih =>
      rw [repneScasb] at h ⊢
      split_ifs at h ⊢ with hEq
      · exact Nat.lt_succ_self n
      · exact Nat.lt_succ_of_lt (ih h)

/-- Whatever is found, nothing below 1MB is written. -/
theorem getFreePageLoop_low {fuel : Nat} {page : BitVec 32} {mm mm' : Mm}
    (hRun : getFreePageLoop fuel mm = .ok (page, mm')) :
    (page = noPage ∨ lowMem ≤ page) ∧ ∀ x < 0x100000, mm'.mem x = mm.mem x := by
  induction fuel generalizing mm with
  | zero => cases hRun
  | succ fuel ih =>
      rw [getFreePageLoop] at hRun
      by_cases hFound : (repneScasb mm.memMap (noPage.setWidth 8) pagingPages ((pagingPages : Int) - 1)).zf = true
      · have hIndex := repneScasb_found hFound
        have hAddr := pageAddr_toNat hIndex
        have hLow := lowMem_le_pageAddr hIndex
        simp only [if_pos hFound] at hRun
        split_ifs at hRun with hHigh
        · obtain ⟨hPage, hMem⟩ := ih hRun
          exact ⟨hPage, fun x hx => (hMem x hx).trans (fillDown_outside _ _ _ _ (by omega) (by omega))⟩
        · obtain ⟨rfl, rfl⟩ := Prod.mk.inj (Except.ok.inj hRun)
          exact ⟨Or.inr hLow, fun x hx => fillDown_outside _ _ _ _ (by omega) (by omega)⟩
      · simp only [if_neg hFound] at hRun
        split_ifs at hRun with hHigh
        · exact ih hRun
        · obtain ⟨rfl, rfl⟩ := Prod.mk.inj (Except.ok.inj hRun)
          exact ⟨Or.inl rfl, fun _ _ => rfl⟩

theorem getFreePage_low {mm mm' : Mm} {page : BitVec 32} (hRun : getFreePage mm = .ok (page, mm')) :
    (page = noPage ∨ lowMem ≤ page) ∧ ∀ x < 0x100000, mm'.mem x = mm.mem x :=
  getFreePageLoop_low hRun

/-- So what `copy_process` and `copy_page_tables` test for never comes. -/
theorem getFreePage_ne_zero {mm mm' : Mm} {page : BitVec 32} (hRun : getFreePage mm = .ok (page, mm')) :
    page ≠ 0#32 := by
  rintro rfl
  rcases (getFreePage_low hRun).1 with hNone | hLow
  · exact noPage_ne_zero hNone.symm
  · exact absurd hLow (by decide)

attribute [irreducible] getFreePage

end Linux011

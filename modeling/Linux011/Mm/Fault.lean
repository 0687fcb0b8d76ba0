import Linux011.Mm.Steps

/-! `un_wp_page` and `do_wp_page`: a write fault on a present, read-only entry
of a task while a page is free. -/
namespace Linux011

open ByteMemory SharedRefs

/-- The directory index and the table index of a linear address. -/
def dirIndex (address : BitVec 32) : Nat := address.toNat / 0x400000

def tableIndex (address : BitVec 32) : Nat := address.toNat / 0x1000 % 1024

theorem and_ffc_toNat (v : BitVec 32) : (v &&& 0xffc#32).toNat = 4 * (v.toNat / 4 % 1024) := by
  have hShift : v &&& 0xffc#32 = ((v >>> 2) &&& 0x3ff#32) <<< 2 := by
    apply BitVec.eq_of_getLsbD_eq
    intro i hi
    have hMask : ∀ i : Fin 32, (0xffc#32).getLsbD i = decide (2 ≤ i.val ∧ i.val < 12) := by decide
    have hLow : ∀ i : Fin 32, (0x3ff#32).getLsbD i = decide (i.val < 10) := by decide
    rw [BitVec.getLsbD_and, hMask ⟨i, hi⟩, BitVec.getLsbD_shiftLeft, BitVec.getLsbD_and,
      BitVec.getLsbD_ushiftRight, hLow ⟨i - 2, by omega⟩]
    by_cases h2 : i < 2
    · rw [decide_eq_false (by omega : ¬(2 ≤ i ∧ i < 12))]
      simp [h2]
    · rw [show 2 + (i - 2) = i by omega]
      by_cases h12 : i < 12
      · simp [hi, h2, h12, (by omega : 2 ≤ i), (by omega : i - 2 < 10)]
      · rw [decide_eq_false (by omega : ¬(2 ≤ i ∧ i < 12)), decide_eq_false (by omega : ¬i - 2 < 10)]
        simp
  have hAnd : (v >>> 2 &&& 0x3ff#32).toNat = v.toNat / 4 % 1024 := by
    rw [BitVec.toNat_and, BitVec.toNat_ushiftRight, Nat.shiftRight_eq_div_pow]
    exact Nat.and_two_pow_sub_one_eq_mod _ 10
  rw [hShift, BitVec.toNat_shiftLeft, hAnd, Nat.shiftLeft_eq]
  omega

theorem tableIndex_lt (address : BitVec 32) : tableIndex address < 1024 := by
  unfold tableIndex
  omega

theorem dir_offset (address : BitVec 32) :
    ((address >>> 20) &&& 0xffc#32).toNat = 4 * dirIndex address := by
  rw [and_ffc_toNat, BitVec.toNat_ushiftRight, Nat.shiftRight_eq_div_pow, dirIndex]
  omega

theorem table_offset (address : BitVec 32) :
    ((address >>> 10) &&& 0xffc#32).toNat = 4 * tableIndex address := by
  rw [and_ffc_toNat, BitVec.toNat_ushiftRight, Nat.shiftRight_eq_div_pow, tableIndex]
  omega

section

variable {extMemK : BitVec 16} {task : Nat → BitVec 32} {mm mm' : Mm} {d n : Nat} {e : BitVec 32}

/-- The private copy that the copying branch makes in the free page `i`. -/
def Mm.copyOnWrite (mm : Mm) (d n i : Nat) (e : BitVec 32) : Mm :=
  (((mm.takePage i).release (frame e)).copyPage (frame e) (pageAddr i)).setPte d n
    (pageAddr i ||| 7#32)

/-- What a handled fault on entry `e` does: the sole owner gets its write bit
back, everyone else gets a copy. -/
inductive FaultResult (mm : Mm) (d n : Nat) (e : BitVec 32) : Mm → Prop where
  | grant (low : lowMem ≤ frame e) (one : mm.memMap (mapNr (frame e)) = 1#8) :
      FaultResult mm d n e (mm.setPte d n (e ||| 2#32))
  | copy {i : Nat} (index : i < pagingPages) (free : mm.memMap i = 0#8)
      (shared : lowMem ≤ frame e → mm.memMap (mapNr (frame e)) ≠ 1#8) :
      FaultResult mm d n e (mm.copyOnWrite d n i e)

theorem MmInvariant.table_top (h : MmInvariant extMemK task mm) (hMaps : mm.Maps d n e) :
    4096 ≤ (mm.table d).toNat ∧ (mm.table d).toNat < 0x1000000 := by
  have hRange := h.dir.paged.range d hMaps.dir hMaps.table
  refine ⟨hRange, ?_⟩
  by_cases hUser : userDir d
  · have hHigh := (h.dir.main d hUser hMaps.dir hMaps.table).high
    have hTop := (memoryRange extMemK).high
    omega
  · by_cases hBoot : d < 4
    · have hTable := (h.dir.boot d hBoot).2
      omega
    · exact absurd hMaps.table (h.dir.gap d (by omega) (by unfold userDir at hUser; omega))

/-- Storing the new entry through the old pointer: the copy went to a free
page, which is no page table. -/
theorem MmInvariant.sameTables_copyPage (h : MmInvariant extMemK task mm) {i : Nat}
    (hi : i < pagingPages) (hFree : mm.memMap i = 0#8) (source : BitVec 32) {page : BitVec 32} :
    SameTables mm (((mm.takePage i).release page).copyPage source (pageAddr i)) := by
  apply h.sameTables_frame hi fun _ => h.free_not_held hi hFree _
  intro a ha
  rw [Mm.copyPage_outside _ _ _ ha, Mm.release_mem, mm.takePage_outside hi ha]

/-- The sole owner of a page gets its write bit back, with or without a free
page. -/
theorem unWpPage_grant (hMaps : mm.Maps d n e) (hLow : lowMem ≤ frame e)
    (hOne : mm.memMap (mapNr (frame e)) = 1#8) :
    unWpPage mm ((mm.table d).toNat + 4 * n) = .ok (mm.setPte d n (e ||| 2#32)) := by
  have hEntry : mm.load ((mm.table d).toNat + 4 * n) = e := hMaps.entry
  have hOld : 0xfffff000#32 &&& e = frame e := rfl
  rw [unWpPage]
  simp only [hEntry, hOld, hLow, hOne, and_self, if_true]
  rfl

/-- Everyone else gets what `get_free_page` returns, whether it is a page or
not. -/
theorem unWpPage_copy (hMaps : mm.Maps d n e) (hOne : ¬(lowMem ≤ frame e ∧ mm.memMap (mapNr (frame e)) = 1#8))
    {page : BitVec 32} (hCall : getFreePage mm = .ok (page, mm')) :
    unWpPage mm ((mm.table d).toNat + 4 * n) =
      .ok (((mm'.release (frame e)).copyPage (frame e) page).store ((mm.table d).toNat + 4 * n)
        (page ||| 7#32)) := by
  have hEntry : mm.load ((mm.table d).toNat + 4 * n) = e := hMaps.entry
  have hOld : 0xfffff000#32 &&& e = frame e := rfl
  rw [unWpPage]
  simp only [hEntry, hOld, if_neg hOne, hCall]
  rfl

theorem MmInvariant.unWpPage (h : MmInvariant extMemK task mm) (hMaps : mm.Maps d n e)
    (hFree : ∃ i < pagingPages, mm.memMap i = 0#8) :
    ∃ mm', FaultResult mm d n e mm' ∧ unWpPage mm ((mm.table d).toNat + 4 * n) = .ok mm' := by
  by_cases hOne : lowMem ≤ frame e ∧ mm.memMap (mapNr (frame e)) = 1#8
  · exact ⟨_, FaultResult.grant hOne.1 hOne.2, unWpPage_grant hMaps hOne.1 hOne.2⟩
  · obtain ⟨i, hi, hZero⟩ := hFree
    rcases getFreePage_cases h.highInUse with ⟨hFull, _⟩ | ⟨j, hj, hFreeJ, _, hCall⟩
    · exact absurd hZero (hFull i hi)
    · refine ⟨_, FaultResult.copy hj hFreeJ fun hLow hIs => hOne ⟨hLow, hIs⟩, ?_⟩
      have hCopied : SameTables mm (((mm.takePage j).release (frame e)).copyPage (frame e) (pageAddr j)) :=
        h.sameTables_copyPage hj hFreeJ (frame e)
      have hTable := hCopied.table hMaps.dir
      rw [unWpPage_copy hMaps hOne hCall, Mm.copyOnWrite, Mm.setPte, hTable]

theorem MmInvariant.doWpPage_eq (h : MmInvariant extMemK task mm) {address : BitVec 32}
    (hAddress : taskSize ≤ address) (hMaps : mm.Maps (dirIndex address) (tableIndex address) e) :
    doWpPage mm address =
      Linux011.unWpPage mm ((mm.table (dirIndex address)).toNat + 4 * tableIndex address) := by
  have hTop := (h.table_top hMaps).2
  have hIndex := tableIndex_lt address
  have hOffset := table_offset address
  have hDir : mm.load ((address >>> 20) &&& 0xffc#32).toNat = mm.pde (dirIndex address) := by
    rw [dir_offset]
    rfl
  have hPointer : (((address >>> 10) &&& 0xffc#32) + mm.table (dirIndex address)).toNat =
      (mm.table (dirIndex address)).toNat + 4 * tableIndex address := by
    rw [BitVec.toNat_add, hOffset]
    omega
  rw [doWpPage, if_neg (BitVec.not_lt.mpr hAddress)]
  simp only [hDir]
  change Linux011.unWpPage mm (((address >>> 10) &&& 0xffc#32) + mm.table (dirIndex address)).toNat = _
  rw [hPointer]

theorem MmInvariant.doWpPage (h : MmInvariant extMemK task mm) {address : BitVec 32}
    (hAddress : taskSize ≤ address) (hMaps : mm.Maps (dirIndex address) (tableIndex address) e)
    (hFree : ∃ i < pagingPages, mm.memMap i = 0#8) :
    ∃ mm', FaultResult mm (dirIndex address) (tableIndex address) e mm' ∧
      doWpPage mm address = .ok mm' := by
  obtain ⟨mm', hResult, hRun⟩ := h.unWpPage hMaps hFree
  exact ⟨mm', hResult, (h.doWpPage_eq hAddress hMaps).trans hRun⟩

/-- The reference of the faulting entry is the only one when the count is 1. -/
theorem MmInvariant.sole (h : MmInvariant extMemK task mm) (hUser : userDir d) (hMaps : mm.Maps d n e)
    (hLow : lowMem ≤ frame e) (hOne : mm.memMap (mapNr (frame e)) = 1#8) (r : PageRef)
    (hr : userRefs task mm r = some (mapNr (frame e))) :
    r = .entry ⟨d, hMaps.dir⟩ ⟨n, hMaps.index⟩ := by
  have hIndex := MmInvariant.mapNr_lt_of_top hLow (h.entries.top d n e hMaps)
  apply (h.counts.exact _ hIndex).sole (by simp only [hOne]; rfl) _ r hr
  rw [MmInvariant.entry_ref (d := ⟨d, hMaps.dir⟩) (n := ⟨n, hMaps.index⟩) hUser hMaps,
    managed_of_le hLow]

/-- A handled fault keeps the invariant. -/
theorem MmInvariant.fault (h : MmInvariant extMemK task mm) (hUser : userDir d) (hMaps : mm.Maps d n e)
    (hResult : FaultResult mm d n e mm') : MmInvariant extMemK task mm' := by
  cases hResult with
  | grant low one =>
      apply h.rewrite hMaps ((present_setWrite e).mpr hMaps.present) (frame_setWrite e)
        ((user_setWrite e).mpr (h.entries.user d n e hMaps))
      intro _ _
      refine ⟨low, fun r hNonEntry hr => ?_⟩
      rw [h.sole hUser hMaps low one r hr] at hNonEntry
      exact hNonEntry
  | @copy i index free _ =>
      apply h.move hUser hMaps index free _ (by simp) (by simp) (by simp)
      intro a ha
      rw [Mm.copyPage_outside _ _ _ ha, Mm.release_mem, mm.takePage_outside index ha]

/-- Only the faulting entry changes, and it becomes the writable and only
reference to its page. -/
theorem FaultResult.tables (h : MmInvariant extMemK task mm) (hUser : userDir d) (hMaps : mm.Maps d n e)
    (hResult : FaultResult mm d n e mm') :
    ∃ v, Present v ∧ lowMem ≤ frame v ∧
      (∀ r, r ≠ .entry ⟨d, hMaps.dir⟩ ⟨n, hMaps.index⟩ →
        userRefs task mm r ≠ some (mapNr (frame v))) ∧ SameTables (mm.setPte d n v) mm' := by
  cases hResult with
  | grant low one =>
      refine ⟨e ||| 2#32, (present_setWrite e).mpr hMaps.present, ?_, ?_, sameTables_of_mem rfl⟩
      · rw [frame_setWrite]
        exact low
      · rw [frame_setWrite]
        exact fun r hne hr => hne (h.sole hUser hMaps low one r hr)
  | @copy i index free _ =>
      have hFrame : frame (pageAddr i ||| 7#32) = pageAddr i := frame_or_seven (pageAddr_aligned index)
      refine ⟨pageAddr i ||| 7#32, present_or_seven _, ?_, ?_,
        (h.sameTables_copyPage index free (frame e)).setPte h.dir.paged hMaps.dir hMaps.table hMaps.index _⟩
      · rw [hFrame]
        exact lowMem_le_pageAddr index
      · rw [hFrame, mapNr_pageAddr index]
        exact fun r _ => h.free_not_held index free r

/-- The fault handler writes to the faulting entry and to a page that was
free. -/
theorem FaultResult.mem (h : MmInvariant extMemK task mm) (hMaps : mm.Maps d n e)
    (hResult : FaultResult mm d n e mm') {a : Nat}
    (hEntry : a < (mm.table d).toNat ∨ (mm.table d).toNat + 4096 ≤ a)
    (hFree : ∀ i < pagingPages, mm.memMap i = 0#8 → a < (pageAddr i).toNat ∨ (pageAddr i).toNat + 4096 ≤ a) :
    mm'.mem a = mm.mem a := by
  have hIndex := hMaps.index
  cases hResult with
  | grant low one => exact store32_outside _ _ _ (by omega)
  | @copy i index free _ =>
      have hCopied : SameTables mm (((mm.takePage i).release (frame e)).copyPage (frame e) (pageAddr i)) :=
        h.sameTables_copyPage index free (frame e)
      have hTable := hCopied.table hMaps.dir
      have hPage := hFree i index free
      rw [Mm.copyOnWrite, Mm.setPte, hTable, Mm.store_mem, store32_outside _ _ _ (by omega),
        Mm.copyPage_outside _ _ _ hPage, Mm.release_mem, mm.takePage_outside index hPage]

/-- A page in use stays in use. -/
theorem FaultResult.free (h : MmInvariant extMemK task mm) (hUser : userDir d) (hMaps : mm.Maps d n e)
    (hResult : FaultResult mm d n e mm') {i : Nat} (hi : i < pagingPages) (hFree : mm'.memMap i = 0#8) :
    mm.memMap i = 0#8 := by
  cases hResult with
  | grant low one => exact hFree
  | @copy j index free shared =>
      have hUsed : lowMem ≤ frame e → (mm.takePage j).memMap (mapNr (frame e)) ≠ 0#8 := by
        intro hLow
        have hHeld := h.release_used hUser hMaps hLow
        by_cases hSame : mapNr (frame e) = j
        · exact absurd (hSame ▸ free) hHeld
        · rwa [Mm.takePage_memMap, Function.update_of_ne hSame]
      have hCount := Mm.release_count hUsed i
      have hTake := mm.takePage_count free i
      have hZero : (((mm.takePage j).release (frame e)).memMap i).toNat = 0 := by
        rw [Mm.copyOnWrite, Mm.setPte_memMap, Mm.copyPage_memMap] at hFree
        rw [hFree, BitVec.toNat_ofNat]
      apply BitVec.eq_of_toNat_eq
      rw [BitVec.toNat_ofNat]
      split_ifs at hCount with hManaged
      · obtain ⟨hLow, rfl⟩ := managed_eq_some.mp hManaged
        have hHeld := h.release_used hUser hMaps hLow
        have hOne : (mm.memMap (mapNr (frame e))).toNat ≠ 1 := fun hIs =>
          shared hLow (BitVec.eq_of_toNat_eq hIs)
        have hPos : (mm.memMap (mapNr (frame e))).toNat ≠ 0 := fun hIs =>
          hHeld (BitVec.eq_of_toNat_eq hIs)
        omega
      · omega

end

end Linux011

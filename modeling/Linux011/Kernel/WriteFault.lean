import Linux011.Kernel.OutOfMemory

/-! A write fault is handled completely or not at all, unless the copying branch of
`un_wp_page` runs without a page. -/
namespace Linux011

open ByteMemory SharedRefs

/-- The faulting entry `e` now is `v`, a writable entry to a page of the managed
memory that holds what the old page held, and nothing else has changed. -/
structure Served (mm : Mm) (d n : Nat) (e v : BitVec 32) (mm' : Mm) : Prop where
  present : Present v
  user : User v
  writable : Writable v
  managed : lowMem ≤ frame v
  entry : mm'.pte d n = v
  content : ∀ b < 4096, mm'.mem ((frame v).toNat + b) = mm.mem ((frame e).toNat + b)
  /-- One reference moves from the old page to the new one. -/
  counts : ∀ i, (mm'.memMap i).toNat + (if Linux011.managed (frame e) = some i then 1 else 0) =
    (mm.memMap i).toNat + if Linux011.managed (frame v) = some i then 1 else 0
  dir : ∀ d' < 1024, mm'.pde d' = mm.pde d'
  entries : ∀ d' < 1024, Present (mm.pde d') → ∀ n' < 1024, ¬(d' = d ∧ n' = n) → mm'.pte d' n' = mm.pte d' n'
  memory : ∀ a, (a < (mm.table d).toNat + 4 * n ∨ (mm.table d).toNat + 4 * n + 4 ≤ a) →
    (a < (frame v).toNat ∨ (frame v).toNat + 4096 ≤ a) → mm'.mem a = mm.mem a
  low : ∀ a < lowMem.toNat, mm'.mem a = mm.mem a
  protect : ∀ d' n' e', userDir d' → mm'.Maps d' n' e' → Writable e' → lowMem ≤ frame e'

/-- The call returns with the fault served, or with everything as it was because
`get_free_page` has found no page. -/
def AllOrNothing (mm : Mm) (address e : BitVec 32) : Prop :=
  ∃ mm', doWpPage mm address = .ok mm' ∧
    ((∃ v, Served mm (dirIndex address) (tableIndex address) e v mm') ∨
      (∃ full, getFreePage mm = .ok (noPage, full)) ∧ mm' = mm)

section

variable {extMemK : BitVec 16} {image : Image} {k : Kernel} {task : Nat → BitVec 32} {mm mm' : Mm}
  {d n : Nat} {e : BitVec 32}

/-- The page of a sole owner holds no table. -/
theorem MmInvariant.sole_table (h : MmInvariant extMemK task mm) (hUser : userDir d) (hMaps : mm.Maps d n e)
    (hLow : lowMem ≤ frame e) (hOne : mm.memMap (mapNr (frame e)) = 1#8) : mm.table d ≠ frame e := by
  intro hSame
  have hRef : userRefs task mm (.table ⟨d, hMaps.dir⟩) = some (mapNr (frame e)) := by
    rw [MmInvariant.table_ref (d := ⟨d, hMaps.dir⟩) hUser hMaps.table]
    change managed (mm.table d) = _
    rw [hSame, managed_of_le hLow]
  exact absurd (h.sole hUser hMaps hLow hOne _ hRef) (by simp)

theorem MmInvariant.table_managed (h : MmInvariant extMemK task mm) (hUser : userDir d) (hMaps : mm.Maps d n e) :
    lowMem.toNat ≤ (mm.table d).toNat :=
  BitVec.le_def.mp (h.dir.main d hUser hMaps.dir hMaps.table).lowMem_le

theorem MmInvariant.served_grant (h : MmInvariant extMemK task mm) (hUser : userDir d) (hMaps : mm.Maps d n e)
    (hLow : lowMem ≤ frame e) (hOne : mm.memMap (mapNr (frame e)) = 1#8) :
    Served mm d n e (e ||| 2#32) (mm.setPte d n (e ||| 2#32)) := by
  have hPaged := h.dir.paged
  have hAfter := h.fault hUser hMaps (FaultResult.grant hLow hOne)
  have hTable := h.table_managed hUser hMaps
  have hIndex := hMaps.index
  have hOutside {a : Nat} (ha : a < (mm.table d).toNat + 4 * n ∨ (mm.table d).toNat + 4 * n + 4 ≤ a) :
      (mm.setPte d n (e ||| 2#32)).mem a = mm.mem a := store32_outside _ _ _ ha
  refine ⟨(present_setWrite e).mpr hMaps.present, (user_setWrite e).mpr (h.entries.user d n e hMaps),
    writable_setWrite e, by rwa [frame_setWrite], ?_, ?_, ?_, ?_, ?_, fun a ha _ => hOutside ha, ?_,
    hAfter.entries.lowReadOnly⟩
  · rw [hPaged.pte_setPte hMaps.dir hMaps.table hMaps.index hMaps.dir hMaps.table hMaps.index]
    simp
  · intro b hb
    rw [frame_setWrite]
    have hApart : (mm.table d).toNat ≠ (frame e).toNat := fun hSame =>
      h.sole_table hUser hMaps hLow hOne (BitVec.eq_of_toNat_eq hSame)
    have hMod := mm.table_mod d
    have hMod' := frame_mod e
    exact hOutside (by omega)
  · intro i
    rw [frame_setWrite]
    rfl
  · exact fun d' hd' => hPaged.pde_setPte hMaps.dir hMaps.table hd'
  · intro d' hd' hPresent n' hn' hOther
    rw [hPaged.pte_setPte hMaps.dir hMaps.table hMaps.index hd' hPresent hn', if_neg hOther]
  · exact fun a ha => hOutside (by omega)

theorem MmInvariant.served_copy (h : MmInvariant extMemK task mm) (hUser : userDir d) (hMaps : mm.Maps d n e)
    {i : Nat} (hi : i < pagingPages) (hFree : mm.memMap i = 0#8)
    (hShared : lowMem ≤ frame e → mm.memMap (mapNr (frame e)) ≠ 1#8) :
    Served mm d n e (pageAddr i ||| 7#32) (mm.copyOnWrite d n i e) := by
  have hPaged := h.dir.paged
  have hAfter := h.fault hUser hMaps (FaultResult.copy hi hFree hShared)
  have hCopied : SameTables mm (((mm.takePage i).release (frame e)).copyPage (frame e) (pageAddr i)) :=
    h.sameTables_copyPage hi hFree (frame e)
  have hTables : SameTables (mm.setPte d n (pageAddr i ||| 7#32)) (mm.copyOnWrite d n i e) :=
    hCopied.setPte hPaged hMaps.dir hMaps.table hMaps.index _
  have hFrame := frame_or_seven (pageAddr_aligned hi)
  have hAddr := pageAddr_toNat hi
  have hIndex := hMaps.index
  have hTable := h.table_managed hUser hMaps
  have hMod := mm.table_mod d
  have hMod' := frame_mod e
  have hTableApart : (mm.table d).toNat ≠ (pageAddr i).toNat := fun hSame =>
    h.takePage_used hi hFree hMaps.dir hMaps.table (BitVec.eq_of_toNat_eq hSame)
  have hFrameApart : (frame e).toNat ≠ (pageAddr i).toNat := by
    intro hSame
    have hPage : frame e = pageAddr i := BitVec.eq_of_toNat_eq hSame
    have hUsed := h.release_used hUser hMaps (hPage ▸ lowMem_le_pageAddr hi)
    rw [hPage, mapNr_pageAddr hi] at hUsed
    exact hUsed hFree
  have hPde {d' : Nat} (hd' : d' < 1024) : (mm.copyOnWrite d n i e).pde d' = mm.pde d' := by
    rw [hTables.pde d' hd', hPaged.pde_setPte hMaps.dir hMaps.table hd']
  have hPte {d' n' : Nat} (hd' : d' < 1024) (hPresent : Present (mm.pde d')) (hn' : n' < 1024) :
      (mm.copyOnWrite d n i e).pte d' n' = if d' = d ∧ n' = n then pageAddr i ||| 7#32 else mm.pte d' n' := by
    rw [hTables.pte d' hd' (by rwa [hPaged.pde_setPte hMaps.dir hMaps.table hd']) n' hn',
      hPaged.pte_setPte hMaps.dir hMaps.table hMaps.index hd' hPresent hn']
  have hStore {a : Nat} (ha : a < (mm.table d).toNat + 4 * n ∨ (mm.table d).toNat + 4 * n + 4 ≤ a) :
      (mm.copyOnWrite d n i e).mem a =
        (((mm.takePage i).release (frame e)).copyPage (frame e) (pageAddr i)).mem a := by
    rw [Mm.copyOnWrite, Mm.setPte, hCopied.table hMaps.dir, Mm.store_mem]
    exact store32_outside _ _ _ ha
  have hOutside {a : Nat} (ha : a < (mm.table d).toNat + 4 * n ∨ (mm.table d).toNat + 4 * n + 4 ≤ a)
      (hPage : a < (pageAddr i).toNat ∨ (pageAddr i).toNat + 4096 ≤ a) :
      (mm.copyOnWrite d n i e).mem a = mm.mem a := by
    rw [hStore ha, Mm.copyPage_outside _ _ _ hPage, Mm.release_mem, mm.takePage_outside hi hPage]
  refine ⟨present_or_seven _, user_or_seven _, writable_or_seven _, by rw [hFrame]; exact lowMem_le_pageAddr hi,
    ?_, ?_, ?_, fun d' hd' => hPde hd', ?_, ?_, ?_, hAfter.entries.lowReadOnly⟩
  · rw [hPte hMaps.dir hMaps.table hMaps.index, if_pos ⟨rfl, rfl⟩]
  · intro b hb
    rw [hFrame, hStore (by omega), Mm.copyPage_inside _ (by omega) hb, Mm.release_mem,
      mm.takePage_outside hi (by omega)]
  · intro j
    have hUsed : lowMem ≤ frame e → (mm.takePage i).memMap (mapNr (frame e)) ≠ 0#8 := by
      intro hLow
      rw [Mm.takePage_memMap, Function.update_apply]
      split_ifs
      · decide
      · exact h.release_used hUser hMaps hLow
    rw [hFrame, managed_pageAddr hi, ← Mm.takePage_count hFree j, ← Mm.release_count hUsed j]
    rfl
  · intro d' hd' hPresent n' hn' hOther
    rw [hPte hd' hPresent hn', if_neg hOther]
  · intro a ha hPage
    rw [hFrame] at hPage
    exact hOutside ha hPage
  · intro a ha
    rw [lowMem_toNat] at ha hTable
    exact hOutside (by omega) (by omega)

/-- Without a page the new entry is 0xf07 and names the page directory. -/
theorem MmInvariant.not_allOrNothing (h : MmInvariant extMemK task mm) {address : BitVec 32}
    (hAddress : taskSize ≤ address) (hMaps : mm.Maps (dirIndex address) (tableIndex address) e)
    (hReadOnly : ¬Writable e) (hFull : ∀ i < pagingPages, mm.memMap i ≠ 0#8)
    (hOne : ¬(lowMem ≤ frame e ∧ mm.memMap (mapNr (frame e)) = 1#8)) : ¬AllOrNothing mm address e := by
  rintro ⟨mm', hRun, hResult⟩
  rw [h.doWpPage_eq hAddress hMaps, unWpPage_copy hMaps hOne (getFreePage_full h.highInUse hFull),
    Except.ok.injEq] at hRun
  have hStored : mm'.load ((mm.table (dirIndex address)).toNat + 4 * tableIndex address) = 0xf07#32 := by
    rw [← hRun]
    exact load32_store32_same _ _ _
  rcases hResult with ⟨v, hServed⟩ | ⟨-, rfl⟩
  · have hEntry := hServed.entry
    rw [Mm.pte, Mm.table, hServed.dir _ hMaps.dir] at hEntry
    have hNew : v = 0xf07#32 := hEntry.symm.trans hStored
    have hManaged := hServed.managed
    rw [hNew] at hManaged
    exact absurd hManaged (by decide)
  · have hNew : e = 0xf07#32 := hMaps.entry.symm.trans hStored
    exact hReadOnly (hNew ▸ by decide)

theorem MmInvariant.allOrNothing_iff (h : MmInvariant extMemK task mm) {address : BitVec 32}
    (hAddress : taskSize ≤ address) (hMaps : mm.Maps (dirIndex address) (tableIndex address) e)
    (hReadOnly : ¬Writable e) :
    AllOrNothing mm address e ↔
      (lowMem ≤ frame e ∧ mm.memMap (mapNr (frame e)) = 1#8) ∨ ∃ i < pagingPages, mm.memMap i = 0#8 := by
  have hUser : userDir (dirIndex address) := by
    rw [BitVec.le_def, show taskSize.toNat = 0x4000000 by decide] at hAddress
    unfold userDir dirIndex
    omega
  constructor
  · intro hAll
    by_contra hNone
    push Not at hNone
    exact h.not_allOrNothing hAddress hMaps hReadOnly hNone.2 (fun hOne => hNone.1 hOne.1 hOne.2) hAll
  · rintro (⟨hLow, hOne⟩ | hFree)
    · exact ⟨_, (h.doWpPage_eq hAddress hMaps).trans (unWpPage_grant hMaps hLow hOne),
        Or.inl ⟨_, h.served_grant hUser hMaps hLow hOne⟩⟩
    · obtain ⟨mm', hResult, hRun⟩ := h.doWpPage hAddress hMaps hFree
      refine ⟨mm', hRun, Or.inl ?_⟩
      cases hResult with
      | grant low one => exact ⟨_, h.served_grant hUser hMaps low one⟩
      | copy index free shared => exact ⟨_, h.served_copy hUser hMaps index free shared⟩

/-- In every reachable state, for every read-only entry of a task: the fault is
handled completely or not at all if and only if the task is the sole owner of a
managed page, or a page is free. -/
theorem write_fault_iff {forks : Nat} (run : Reaches extMemK image k forks) {address : BitVec 32}
    (hAddress : taskSize ≤ address) (hMaps : k.mm.Maps (dirIndex address) (tableIndex address) e)
    (hReadOnly : ¬Writable e) :
    AllOrNothing k.mm address e ↔
      (lowMem ≤ frame e ∧ k.mm.memMap (mapNr (frame e)) = 1#8) ∨
        ∃ i < pagingPages, k.mm.memMap i = 0#8 :=
  run.inv.mm.allOrNothing_iff hAddress hMaps hReadOnly

/-- Up to 4MB the first fork by task 0 takes five pages. -/
theorem KernelInvariant.firstFork_small (h : KernelInvariant extMemK image k)
    (hSmall : (memoryEnd extMemK).toNat ≤ 0x400000) {nr : Nat} (hNr : 1 ≤ nr ∧ nr < 64) (hEmpty : k.task nr = 0#32)
    {ram : BitVec 32 → BitVec 8} {pid : BitVec 32} (hProvided : Provided ram (k.forking image 0 pid))
    (regs : ForkFrame) :
    ∃ k', ForkMade extMemK 0 nr regs (k.forking image 0 pid) k' ∧
      k.mm.freePages.card = k'.mm.freePages.card + 5 ∧
      Linux011.copyProcess ram nr regs (k.forking image 0 pid) = .ok (pid, k') := by
  obtain ⟨k', hMade, hCall⟩ := (h.forking 0 pid).copyProcess regs rfl (Or.inl rfl) hNr hEmpty hProvided
  exact ⟨k', hMade, hMade.count (h.sourcesUsed_small hSmall), hCall⟩

/-- The first page of a child of task 0 is page 0, read-only. -/
theorem Window.firstEntry {nr : Nat} (h : Window extMemK task 0 nr 0xa0 4 mm) :
    ∃ e, mm.Maps (16 * nr) 0 e ∧ ¬Writable e ∧ (frame e).toNat = 0 := by
  obtain ⟨x, hMaps, hFrame⟩ := h.inv.entries.identity 0 (by omega) 0 (by omega)
  refine ⟨x &&& ~~~2#32, (h.mirror.entry 0 (by omega) 0 _).mpr ⟨⟨by omega, by omega⟩, x, hMaps, rfl⟩,
    not_writable_clearWrite x, ?_⟩
  rw [frame_clearWrite]
  exact hFrame

end

/-- A small machine after its first fork: the child may fault on page 0. -/
theorem smallChild_reaches (extMemK : BitVec 16) (hSmall : (memoryEnd extMemK).toNat ≤ 0x400000)
    (hMany : 5 ≤ extMemK.toNat / 4) : ∃ k, Reaches extMemK smallImage k 1 ∧
      extMemK.toNat / 4 = k.mm.freePages.card + 5 ∧ ∃ address e, taskSize ≤ address ∧
        k.mm.Maps (dirIndex address) (tableIndex address) e ∧ ¬Writable e ∧ (frame e).toNat = 0 := by
  have hRun := smallKernel_reaches extMemK
  have hNone := smallKernel_task extMemK
  have hCard : (smallKernel extMemK).mm.freePages.card = extMemK.toNat / 4 := by
    rw [smallKernel_freePages hSmall, Finset.card_range]
  have hBases := smallKernel_bases extMemK
  generalize (smallKernel extMemK).ram = ram at hBases
  generalize smallKernel extMemK = k at hRun hNone hCard hBases
  obtain ⟨pid, hPid, ⟨hFull, _⟩ | ⟨nr, hNr, hEmpty, hCall⟩⟩ :=
    sysFork_cases ram zeroFrame { k with current := taskAddr smallImage k 0 }
  · exact absurd (hNone 1) (hFull 1 (by omega) (by omega))
  · have hRoom : 5 ≤ k.mm.freePages.card := by omega
    obtain ⟨k', hMade, hTaken, hCopy⟩ :=
      hRun.inv.firstFork_small hSmall hNr hEmpty ⟨hBases pid, hRoom⟩ zeroFrame
    have hProvided : ForkProvided ram { k with current := taskAddr smallImage k 0 } := fun _ =>
      ⟨⟨(hBases pid).code, (hBases pid).data⟩, hRoom⟩
    have hFork := Reaches.fork hRun (Or.inl rfl) hProvided (hCall.trans hCopy)
    rw [if_pos ⟨rfl, findPid_msb hPid⟩] at hFork
    obtain ⟨e, hMaps, hReadOnly, hFrame⟩ := hMade.window.firstEntry
    have hAddress : (BitVec.ofNat 32 (0x4000000 * nr)).toNat = 0x4000000 * nr := by
      rw [BitVec.toNat_ofNat]
      omega
    have hTable : tableIndex (BitVec.ofNat 32 (0x4000000 * nr)) = 0 := by
      rw [tableIndex, hAddress]
      omega
    have hDir : dirIndex (BitVec.ofNat 32 (0x4000000 * nr)) = 16 * nr := by
      rw [dirIndex, hAddress]
      omega
    refine ⟨k', hFork, hCard ▸ hTaken, BitVec.ofNat 32 (0x4000000 * nr), e, ?_, ?_, hReadOnly, hFrame⟩
    · rw [BitVec.le_def, hAddress, show taskSize.toNat = 0x4000000 by decide]
      omega
    · rwa [hDir, hTable]

/-- One page is left for the child. -/
theorem write_fault_iff_child : ∃ k address e, Reaches 24#16 smallImage k 1 ∧ AllOrNothing k.mm address e := by
  obtain ⟨k, hRun, hCount, address, e, hAddress, hMaps, hReadOnly, _⟩ :=
    smallChild_reaches 24#16 (by decide) (by decide)
  rw [show (24#16).toNat = 24 from rfl] at hCount
  obtain ⟨i, hi⟩ := Finset.card_pos.mp (show 0 < k.mm.freePages.card by omega)
  exact ⟨k, address, e, hRun, (write_fault_iff hRun hAddress hMaps hReadOnly).mpr
    (Or.inr ⟨i, Mm.mem_freePages.mp hi⟩)⟩

/-- No page is left for the child: page 0 is copied to 0xf00, over the end of the directory
and over `pg0`, and the entry becomes 0xf07, which names the directory as the child's page. -/
theorem write_fault_without_page : ¬∀ (extMemK : BitVec 16) (image : Image) (k : Kernel) (forks : Nat)
    (address e : BitVec 32), Reaches extMemK image k forks → taskSize ≤ address →
    k.mm.Maps (dirIndex address) (tableIndex address) e → ¬Writable e → AllOrNothing k.mm address e := by
  intro hAll
  obtain ⟨k, hRun, hCount, address, e, hAddress, hMaps, hReadOnly, hFrame⟩ :=
    smallChild_reaches 20#16 (by decide) (by decide)
  rw [show (20#16).toNat = 20 from rfl] at hCount
  have hNone : k.mm.freePages = ∅ := Finset.card_eq_zero.mp (by omega)
  refine hRun.inv.mm.not_allOrNothing hAddress hMaps hReadOnly (fun i hi hZero => ?_) (fun hOne => ?_)
    (hAll _ _ k _ address e hRun hAddress hMaps hReadOnly)
  · have hFree := Mm.mem_freePages.mpr ⟨hi, hZero⟩
    rw [hNone] at hFree
    exact absurd hFree (Finset.notMem_empty i)
  · have hLow := BitVec.le_def.mp hOne.1
    rw [hFrame, lowMem_toNat] at hLow
    omega

end Linux011

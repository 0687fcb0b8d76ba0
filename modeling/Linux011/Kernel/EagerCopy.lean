import Linux011.Kernel.AddressSpace
import Linux011.Kernel.Isolation
import Linux011.Kernel.TimeSharing
import Linux011.Library.Spaces

/-! Copying on write is copying at once: whatever pages the tasks share, each of them finds in its
memory what it has stored there, or else what its parent had at the fork. -/
namespace Linux011

open ByteMemory SharedRefs Spaces

/-- The byte is in no page table and in no task structure. -/
structure Kernel.Ordinary (k : Kernel) (a : Nat) : Prop extends k.mm.OffTables a where
  tasks : ∀ s, Occupied k s → Outside (k.task s).toNat 4096 a

section Quiet

variable {extMemK : BitVec 16} {image : Image} {task : Nat → BitVec 32} {k k' : Kernel} {mm mm' : Mm}
  {ram : BitVec 32 → BitVec 8} {regs : ForkFrame} {r e : BitVec 32} {p nr d n a : Nat}

/-- A page that a task's entry names is not free. -/
theorem MmInvariant.quiet (h : MmInvariant extMemK task mm) (hUser : userDir d) (hMaps : mm.Maps d n e)
    (hOff : mm.OffTables a) (hLow : (frame e).toNat ≤ a) (hHigh : a < (frame e).toNat + 4096) : mm.Quiet a where
  toOffTables := hOff
  pool := by
    intro i hi hFree
    have hMod := frame_mod e
    have hAligned := pageAddr_aligned hi
    have hOther : (frame e).toNat ≠ (pageAddr i).toNat := by
      intro hSame
      refine h.free_not_held hi hFree (.entry ⟨d, hMaps.dir⟩ ⟨n, hMaps.index⟩) ?_
      rw [MmInvariant.entry_ref (d := ⟨d, hMaps.dir⟩) (n := ⟨n, hMaps.index⟩) hUser hMaps,
        BitVec.eq_of_toNat_eq hSame, managed_pageAddr hi]
    unfold Outside
    omega

theorem MmInvariant.takePage_quiet {i : Nat} (h : MmInvariant extMemK task mm) (hi : i < pagingPages)
    (hFree : mm.memMap i = 0#8) (hQuiet : mm.Quiet a) :
    (mm.takePage i).mem a = mm.mem a ∧ (mm.takePage i).Quiet a := by
  refine ⟨mm.takePage_outside hi (hQuiet.pool i hi hFree), ?_, fun j hj hZero => hQuiet.pool j hj ?_⟩
  · exact hQuiet.congr fun d hd _ => (h.sameTables_takePage hi hFree).pde d hd
  · have hMem : j ∈ (mm.takePage i).freePages := Mm.mem_freePages.mpr ⟨hj, hZero⟩
    rw [Mm.freePages_takePage] at hMem
    exact (Mm.mem_freePages.mp (Finset.mem_of_mem_erase hMem)).2

theorem copyPageTables_quiet (ready : ForkReady p nr mm) (h : MmInvariant extMemK task mm) (hQuiet : mm.Quiet a)
    (hFound : CopyPagesFound mm (taskBase p) (taskBase nr) dataLimit)
    (hCall : copyPageTables mm (taskBase p) (taskBase nr) dataLimit = .ok (r, mm')) :
    mm'.mem a = mm.mem a ∧ mm'.Quiet a := by
  have hCount : (if taskBase p = 0#32 then 0xa0 else 1024) = copyCount p := by
    simp only [taskBase_zero_iff ready.parent, copyCount]
  have hSize : ((dataLimit + 0x3fffff#32) >>> 22).toNat = 4 := by decide
  have hAligned : ¬(taskBase p &&& 0x3fffff#32 ≠ 0#32 ∨ taskBase nr &&& 0x3fffff#32 ≠ 0#32) := by
    rw [taskBase_aligned ready.parent, taskBase_aligned ready.child.2]
    simp
  rw [copyPageTables, if_neg hAligned, hSize, taskBase_dir ready.parent, taskBase_dir ready.child.2] at hCall
  rw [CopyPagesFound, hSize, taskBase_dir ready.parent, taskBase_dir ready.child.2] at hFound
  exact (ready.window h).copyPageDirs_quiet (by omega) hCount hQuiet hFound hCall

/-- What is used and is no table is left alone by a fork. -/
theorem KernelInvariant.copyProcess_quiet (h : KernelInvariant extMemK image k)
    (hCurrent : k.current = taskAddr image k p) (hLive : Live k p) (hNr : 1 ≤ nr ∧ nr < 64)
    (hEmpty : k.task nr = 0#32) (hProvided : Provided ram k) (hQuiet : k.mm.Quiet a)
    (hCall : Linux011.copyProcess ram nr regs k = .ok (r, k')) :
    k'.mm.mem a = k.mm.mem a ∧ k'.mm.OffTables a := by
  obtain ⟨i, hi, hFree, hFound, hCopy⟩ := h.copyProcess_copied hCurrent hLive hNr hEmpty hProvided hCall
  obtain ⟨hTake, hTaken⟩ := h.mm.takePage_quiet hi hFree hQuiet
  obtain ⟨hMem, hLater⟩ := copyPageTables_quiet ((h.ready hLive hNr hEmpty).takePage h.mm hi hFree)
    (h.inv_withChild hNr hEmpty hi hFree) hTaken hFound hCopy
  exact ⟨hMem.trans hTake, hLater.toOffTables⟩

theorem KernelInvariant.sysFork_quiet (h : KernelInvariant extMemK image k)
    (hCurrent : k.current = taskAddr image k p) (hLive : Live k p) (hProvided : ForkProvided ram k)
    (hQuiet : k.mm.Quiet a) (hCall : Linux011.sysFork ram regs k = .ok (r, k')) :
    k'.mm.mem a = k.mm.mem a ∧ k'.mm.OffTables a := by
  obtain ⟨pid, _, ⟨_, hRun⟩ | ⟨nr, hNr, hEmpty, hRun⟩⟩ := sysFork_cases ram regs k
  · obtain ⟨_, rfl⟩ := Prod.mk.inj (Except.ok.inj (hCall.symm.trans hRun))
    exact ⟨rfl, hQuiet.toOffTables⟩
  · have hLive' : Live { k with lastPid := pid } p := hLive.imp_right fun hs => ⟨hs.pos, hs.lt, hs.task⟩
    have hQuiet' : ({ k with lastPid := pid } : Kernel).mm.Quiet a := hQuiet
    exact (h.set_lastPid pid).copyProcess_quiet hCurrent hLive' hNr hEmpty
      ((hProvided ⟨nr, hNr.1, hNr.2, hEmpty⟩).set_lastPid pid) hQuiet' (hRun.symm.trans hCall)

/-- The low memory behind the tables of task 0. -/
theorem MmInvariant.offTables_low (h : MmInvariant extMemK task mm) (hLow : 0x5000 ≤ a) (hHigh : a < 0x100000) :
    mm.OffTables a where
  dir := by omega
  table := by
    intro d hd hPresent
    unfold Outside
    by_cases hUser : userDir d
    · have hMain := BitVec.le_def.mp (h.dir.main d hUser hd hPresent).lowMem_le
      rw [lowMem_toNat] at hMain
      omega
    · by_cases hBoot : d < 4
      · have hTable := (h.dir.boot d hBoot).2
        omega
      · exact absurd hPresent (h.dir.gap d (by omega) (by unfold userDir at hUser; omega))

theorem Mm.OffTables.sameTables (h : mm.OffTables a) (v : BitVec 8) : SameTables mm (mm.storeByte a v) := by
  have hDirByte := h.dir
  have hOther {x : Nat} (hx : x ≠ a) : (mm.storeByte a v).mem x = mm.mem x := Function.update_of_ne hx _ _
  have hDir (d : Nat) (hd : d < 1024) : (mm.storeByte a v).pde d = mm.pde d :=
    Mm.pde_congr fun x hx => hOther (by omega)
  refine ⟨hDir, fun d hd hPresent n hn => ?_⟩
  have hTable := h.table d hd hPresent
  unfold Outside at hTable
  exact Mm.pte_congr (hDir d hd) hn fun x hx hx' => hOther (by omega)

end Quiet

/-- What the first child of task 0 knows of its memory: the first 640KB of each 4MB, less the page
tables, the task structures and the bytes in `data`. -/
noncomputable def firstBytes (data : Set Nat) (k : Kernel) (o : Nat) : Option (BitVec 8) :=
  open Classical in
  if o < 0x1000000 ∧ o % 0x400000 < 0xa0000 ∧ k.Ordinary o ∧ o ∉ data then some (k.mm.mem o) else none

/-- A fork by slot `s` from `k` to `k'`. -/
noncomputable def recordFork (data : Set Nat) (k k' : Kernel) (s : Nat) (past : List (Event Nat Nat (BitVec 8))) :
    List (Event Nat Nat (BitVec 8)) :=
  match started k k' with
  | none => past
  | some child => if s = 0 then .first child (firstBytes data k') :: past else .fork s child :: past

/-- The runs of `Reaches`, whose forks have what they need and whose write faults find a page, with
stores of the kernel and of task 0 to bytes in `data` in the low memory, and with the history of what
the other tasks store, by offsets in their segments. -/
inductive Recorded (extMemK : BitVec 16) (image : Image) (data : Set Nat) :
    Kernel → Nat → List (Event Nat Nat (BitVec 8)) → Prop where
  | boot (m : Memory) (heap : BitVec 32 → TaskStruct) (gdt : Nat → Desc) :
      Recorded extMemK image data (bootKernel extMemK image m heap gdt) 0 []
  | fork {k k' : Kernel} {forks s : Nat} {past : List (Event Nat Nat (BitVec 8))}
      {ram : BitVec 32 → BitVec 8} {regs : ForkFrame} {result : BitVec 32}
      (prior : Recorded extMemK image data k forks past) (live : Live k s)
      (provided : ForkProvided ram { k with current := taskAddr image k s })
      (call : sysFork ram regs { k with current := taskAddr image k s } = .ok (result, k')) :
      Recorded extMemK image data k' (if s = 0 ∧ result.msb = false then forks + 1 else forks)
        (recordFork data k k' s past)
  | fault {k : Kernel} {mm : Mm} {forks s : Nat} {past : List (Event Nat Nat (BitVec 8))} {address e : BitVec 32}
      (prior : Recorded extMemK image data k forks past) (live : Occupied k s) (inside : InSegment k s address)
      (maps : k.mm.Maps (dirIndex address) (tableIndex address) e) (readOnly : ¬Writable e)
      (free : ∃ i < pagingPages, k.mm.memMap i = 0#8) (call : doWpPage k.mm address = .ok mm) :
      Recorded extMemK image data { k with mm := mm } forks past
  | store {k : Kernel} {forks s : Nat} {past : List (Event Nat Nat (BitVec 8))} {address e : BitVec 32}
      (prior : Recorded extMemK image data k forks past) (live : Occupied k s) (inside : InSegment k s address)
      (writable : k.mm.UserWritable address e) (v : BitVec 8) :
      Recorded extMemK image data { k with mm := k.mm.storeByte (physical e address) v } forks
        (.store s (address.toNat - 0x4000000 * s) v :: past)
  | kernel {k : Kernel} {forks a : Nat} {past : List (Event Nat Nat (BitVec 8))}
      (prior : Recorded extMemK image data k forks past) (own : a ∈ data) (low : 0x5000 ≤ a) (high : a < 0x100000)
      (v : BitVec 8) : Recorded extMemK image data { k with mm := k.mm.storeByte a v } forks past

/-- Where entry `e` puts the byte at offset `o`. -/
def byteAt (e : BitVec 32) (o : Nat) : Nat := (frame e).toNat + o % 4096

/-- Slot `s` has `v` at offset `o`, in a byte that nothing but its stores will change. -/
structure Kernel.Finds (data : Set Nat) (k : Kernel) (s o : Nat) (v : BitVec 8) : Prop where
  inside : o < 0x1000000
  byte : ∃ e, k.mm.Maps (16 * s + o / 0x400000) (o / 4096 % 1024) e ∧ k.Ordinary (byteAt e o) ∧
    k.mm.mem (byteAt e o) = v ∧ (byteAt e o ∈ data → 0x100000 ≤ byteAt e o)

section Steps

variable {extMemK : BitVec 16} {image : Image} {data : Set Nat} {k k' : Kernel} {mm : Mm}
  {address e : BitVec 32} {v : BitVec 8} {p nr s o a forks : Nat} {past : List (Event Nat Nat (BitVec 8))}

theorem Kernel.Ordinary.congr (h : k.Ordinary a) (hDir : ∀ d < 1024, k'.mm.pde d = k.mm.pde d)
    (hTask : k'.task = k.task) : k'.Ordinary a where
  toOffTables := h.toOffTables.congr fun d hd _ => hDir d hd
  tasks := by
    rw [hTask]
    exact fun s hs => h.tasks s ⟨hs.pos, hs.lt, hTask ▸ hs.task⟩

/-- The entries and the tasks stay, and so does the byte. -/
theorem Kernel.Finds.sameTables (h : k.Finds data s o v) (hTables : SameTables k.mm k'.mm) (hTask : k'.task = k.task)
    (hMem : ∀ e, k.mm.Maps (16 * s + o / 0x400000) (o / 4096 % 1024) e → (byteAt e o ∈ data → 0x100000 ≤ byteAt e o) →
      k'.mm.mem (byteAt e o) = k.mm.mem (byteAt e o)) : k'.Finds data s o v := by
  obtain ⟨e, hMaps, hOrdinary, hByte, hData⟩ := h.byte
  exact ⟨h.inside, e, hTables.maps.mpr hMaps, hOrdinary.congr hTables.pde hTask, (hMem e hMaps hData).trans hByte,
    hData⟩

theorem byteAt_range (e : BitVec 32) (o : Nat) :
    (frame e).toNat ≤ byteAt e o ∧ byteAt e o < (frame e).toNat + 4096 := by
  unfold byteAt
  omega

theorem Kernel.Finds.quiet (hKernel : KernelInvariant extMemK image k) (hs : 1 ≤ s) (hInside : o < 0x1000000)
    (hMaps : k.mm.Maps (16 * s + o / 0x400000) (o / 4096 % 1024) e) (hOrdinary : k.Ordinary (byteAt e o)) :
    k.mm.Quiet (byteAt e o) :=
  hKernel.mm.quiet (by unfold userDir; omega) hMaps hOrdinary.toOffTables (byteAt_range e o).1 (byteAt_range e o).2

/-- The parent and the others behind a fork. -/
theorem Kernel.Finds.forking (h : k.Finds data s o v) (hKernel : KernelInvariant extMemK image k) (hs : Occupied k s)
    (hFork : Forking p nr k.mm k'.mm) (hOther : s ≠ nr)
    (hQuiet : ∀ a, k.mm.Quiet a → k'.mm.mem a = k.mm.mem a ∧ k'.mm.OffTables a)
    (hTask : k'.task = k.task ∨ ∃ i < pagingPages, k.mm.memMap i = 0#8 ∧
      k'.task = Function.update k.task nr (pageAddr i)) : k'.Finds data s o v := by
  obtain ⟨hInside, e, hMaps, hOrdinary, hByte, hData⟩ := h
  have hPlace := Finds.quiet hKernel hs.pos hInside hMaps hOrdinary
  obtain ⟨hMem, hOff⟩ := hQuiet _ hPlace
  have hOrdinary' : k'.Ordinary (byteAt e o) := by
    refine ⟨hOff, fun j hj => ?_⟩
    rcases hTask with hSame | ⟨i, hi, hFree, hNew⟩
    · rw [hSame]
      exact hOrdinary.tasks j ⟨hj.pos, hj.lt, hSame ▸ hj.task⟩
    · rw [hNew]
      by_cases hChild : j = nr
      · rw [hChild, Function.update_self]
        exact hPlace.pool i hi hFree
      · have hSlot := hj.task
        rw [hNew, Function.update_of_ne hChild] at hSlot
        rw [Function.update_of_ne hChild]
        exact hOrdinary.tasks j ⟨hj.pos, hj.lt, hSlot⟩
  refine ⟨hInside, ?_⟩
  rcases hFork.maps (by omega) hMaps with hSame | ⟨_, hShared⟩
  · exact ⟨e, hSame, hOrdinary', hMem.trans hByte, hData⟩
  · refine ⟨_, hShared, ?_⟩
    unfold byteAt
    rw [frame_shareEntry]
    exact ⟨hOrdinary', hMem.trans hByte, hData⟩

/-- The child finds what its parent finds. -/
theorem Kernel.Finds.child (h : k.Finds data s o v) (hWindow : Window extMemK k.task s nr 1024 4 k.mm) :
    k.Finds data nr o v := by
  obtain ⟨hInside, e, hMaps, hRest⟩ := h
  refine ⟨hInside, _, (hWindow.mirror.entry _ (by omega) _ _).mpr ⟨⟨hMaps.index, Or.inl (by omega)⟩, e, hMaps, rfl⟩, ?_⟩
  unfold byteAt
  rw [frame_clearWrite]
  exact hRest

/-- The child of task 0 finds the memory as it is. -/
theorem firstBytes_finds (hWindow : Window extMemK k.task 0 nr 0xa0 4 k.mm) (h : firstBytes data k o = some v) :
    k.Finds data nr o v := by
  unfold firstBytes at h
  split_ifs at h with hKnown
  obtain ⟨hInside, hWindowed, hOrdinary, hNot⟩ := hKnown
  obtain ⟨e, hMaps, hFrame⟩ := hWindow.inv.entries.identity (o / 0x400000) (by omega) (o / 4096 % 1024) (by omega)
  have hHere : byteAt (e &&& ~~~2#32) o = o := by
    unfold byteAt
    rw [frame_clearWrite, hFrame]
    omega
  rw [show o / 0x400000 = 16 * 0 + o / 0x400000 by omega] at hMaps
  refine ⟨hInside, _, (hWindow.mirror.entry _ (by omega) _ _).mpr ⟨⟨by omega, Or.inl (by omega)⟩, e, hMaps, rfl⟩, ?_⟩
  rw [hHere]
  exact ⟨hOrdinary, Option.some.inj h, fun hData => absurd hData hNot⟩

/-- The new entry names the page of the old one, or one that was free. -/
theorem FaultResult.servedFrame {task : Nat → BitVec 32} {mm mm' : Mm} {d n : Nat} (h : MmInvariant extMemK task mm)
    (hUser : userDir d) (hMaps : mm.Maps d n e) (hResult : FaultResult mm d n e mm') :
    ∃ w, Served mm d n e w mm' ∧
      (frame w = frame e ∨ ∃ i < pagingPages, mm.memMap i = 0#8 ∧ frame w = pageAddr i) := by
  cases hResult with
  | grant low one => exact ⟨_, h.served_grant hUser hMaps low one, Or.inl (frame_setWrite e)⟩
  | copy index free shared =>
      exact ⟨_, h.served_copy hUser hMaps index free shared,
        Or.inr ⟨_, index, free, frame_or_seven (pageAddr_aligned index)⟩⟩

/-- A page that was free is no table and no task structure. -/
theorem KernelInvariant.ordinary_free {i : Nat} (h : KernelInvariant extMemK image k) (hi : i < pagingPages)
    (hFree : k.mm.memMap i = 0#8) (hLow : (pageAddr i).toNat ≤ a) (hHigh : a < (pageAddr i).toNat + 4096) :
    k.Ordinary a := by
  have hAligned := pageAddr_aligned hi
  have hMain := BitVec.le_def.mp (h.mm.free_main hi hFree).lowMem_le
  rw [lowMem_toNat] at hMain
  refine ⟨⟨by omega, fun d hd hPresent => ?_⟩, fun s hs => ?_⟩
  · have hMod := k.mm.table_mod d
    have hOther : (k.mm.table d).toNat ≠ (pageAddr i).toNat := fun hSame =>
      h.mm.takePage_used hi hFree hd hPresent (BitVec.eq_of_toNat_eq hSame)
    unfold Outside
    omega
  · have hMod := (h.mm.tasks.main s hs.pos hs.lt hs.task).aligned
    have hOther : (k.task s).toNat ≠ (pageAddr i).toNat := fun hSame =>
      (h.page_fresh hi hFree).2 s hs (BitVec.eq_of_toNat_eq hSame)
    unfold Outside
    omega

/-- Copying a page copies what is found on it. -/
theorem Kernel.Finds.fault {d n : Nat} (h : k.Finds data s o v) (hKernel : KernelInvariant extMemK image k)
    (hs : Occupied k s) (hUser : userDir d) (hMaps : k.mm.Maps d n e) (hResult : FaultResult k.mm d n e mm) :
    ({ k with mm := mm } : Kernel).Finds data s o v := by
  obtain ⟨hInside, x, hHere, hOrdinary, hByte, hData⟩ := h
  obtain ⟨w, hServed, hFrame⟩ := hResult.servedFrame hKernel.mm hUser hMaps
  have hKept {b : Nat} (hb : k.Ordinary b) : ({ k with mm := mm } : Kernel).Ordinary b := hb.congr hServed.dir rfl
  have hTable : Present (mm.pde (16 * s + o / 0x400000)) := by
    rw [hServed.dir _ hHere.dir]
    exact hHere.table
  refine ⟨hInside, ?_⟩
  by_cases hSame : 16 * s + o / 0x400000 = d ∧ o / 4096 % 1024 = n
  · obtain ⟨rfl, rfl⟩ := hSame
    obtain rfl := hMaps.unique hHere
    have hContent : mm.mem (byteAt w o) = v := (hServed.content (o % 4096) (by omega)).trans hByte
    refine ⟨w, ⟨hMaps.dir, hMaps.index, hTable, hServed.entry, hServed.present⟩, ?_, hContent, ?_⟩
    · rcases hFrame with hOld | ⟨i, hi, hFree, hNew⟩
      · unfold byteAt
        rw [hOld]
        exact hKept hOrdinary
      · have hRange := byteAt_range w o
        rw [hNew] at hRange
        exact hKept (hKernel.ordinary_free hi hFree hRange.1 hRange.2)
    · intro _
      have hManaged := BitVec.le_def.mp hServed.managed
      rw [lowMem_toNat] at hManaged
      have hRange := byteAt_range w o
      omega
  · have hQuiet := Finds.quiet hKernel hs.pos hInside hHere hOrdinary
    have hMem := hResult.mem hKernel.mm hMaps (hQuiet.table d hMaps.dir hMaps.table) hQuiet.pool
    have hEntry := (hServed.entries _ hHere.dir hHere.table _ hHere.index hSame).trans hHere.entry
    exact ⟨x, ⟨hHere.dir, hHere.index, hTable, hEntry, hHere.present⟩, hKept hOrdinary, hMem.trans hByte, hData⟩

/-- The byte behind an offset of slot `s`. -/
theorem inSegment_byteAt (h : KernelInvariant extMemK image k) (hs : Occupied k s) (hInside : InSegment k s address) :
    ∃ o < 0x1000000, address.toNat = 0x4000000 * s + o ∧ address.toNat - 0x4000000 * s = o ∧
      dirIndex address = 16 * s + o / 0x400000 ∧ tableIndex address = o / 4096 % 1024 ∧
      physical e address = byteAt e o := by
  obtain ⟨hLow, hHigh⟩ := inSegment_toNat h hs hInside
  refine ⟨address.toNat - 0x4000000 * s, by omega, by omega, rfl, ?_, ?_, ?_⟩
  · unfold dirIndex
    omega
  · unfold tableIndex
    omega
  · unfold physical byteAt
    omega

section Store

variable (hKernel : KernelInvariant extMemK image k) (hIsolated : Isolated k.task k.mm) (hs : Occupied k s)
  (hInside : InSegment k s address) (hWritable : k.mm.UserWritable address e)

include hKernel hIsolated hs hInside hWritable

/-- What is stored is found. -/
theorem KernelInvariant.store_finds (w : BitVec 8) :
    ({ k with mm := k.mm.storeByte (physical e address) w } : Kernel).Finds data s
      (address.toNat - 0x4000000 * s) w := by
  have hUser := hKernel.user_of_inSegment hs hInside
  have hTables := hKernel.mm.sameTables_storeByte hUser hWritable.maps hWritable.writable address w
  obtain ⟨hLow, _, hTable, hTask⟩ := hKernel.writable_alone hIsolated hUser hWritable.maps hWritable.writable
  rw [BitVec.le_def, lowMem_toNat] at hLow
  obtain ⟨o, ho, _, hOffset, hDir, hIndex, hPlace⟩ := inSegment_byteAt (e := e) hKernel hs hInside
  have hRange := byteAt_range e o
  have hMod := frame_mod e
  have hOrdinary : k.Ordinary (byteAt e o) := by
    refine ⟨⟨by omega, fun d hd hPresent => ?_⟩, fun j hj => ?_⟩
    · have hAligned := k.mm.table_mod d
      have hOther : (k.mm.table d).toNat ≠ (frame e).toNat := fun hSame =>
        hTable d hd hPresent (BitVec.eq_of_toNat_eq hSame)
      unfold Outside
      omega
    · have hAligned := (hKernel.mm.tasks.main j hj.pos hj.lt hj.task).aligned
      have hOther : (k.task j).toNat ≠ (frame e).toNat := fun hSame => hTask j hj (BitVec.eq_of_toNat_eq hSame)
      unfold Outside
      omega
  rw [hPlace] at hTables
  have hMaps := hTables.maps.mpr hWritable.maps
  rw [hDir, hIndex] at hMaps
  rw [hOffset, hPlace]
  exact ⟨ho, e, hMaps, hOrdinary.congr hTables.pde rfl, Function.update_self .., fun _ => by omega⟩

/-- Nothing else is stored. -/
theorem Kernel.Finds.store {j b : Nat} (h : k.Finds data j b v) (hj : Occupied k j)
    (hOther : j ≠ s ∨ b ≠ address.toNat - 0x4000000 * s) (w : BitVec 8) :
    ({ k with mm := k.mm.storeByte (physical e address) w } : Kernel).Finds data j b v := by
  have hUser := hKernel.user_of_inSegment hs hInside
  have hTables := hKernel.mm.sameTables_storeByte hUser hWritable.maps hWritable.writable address w
  obtain ⟨_, hAlone, _⟩ := hKernel.writable_alone hIsolated hUser hWritable.maps hWritable.writable
  obtain ⟨o, ho, _, hOffset, hDir, hIndex, hPlace⟩ := inSegment_byteAt (e := e) hKernel hs hInside
  have hLimit := h.inside
  have hPos := hj.pos
  refine h.sameTables hTables rfl fun x hMaps _ => Function.update_of_ne (fun hSame => ?_) _ _
  rw [hPlace] at hSame
  have hFrame : frame x = frame e := by
    have hMod := frame_mod x
    have hMod' := frame_mod e
    unfold byteAt at hSame
    exact BitVec.eq_of_toNat_eq (by omega)
  obtain ⟨hBoth, hBoth'⟩ := hAlone _ _ x (by unfold userDir; omega) hMaps hFrame
  unfold byteAt at hSame
  rw [hFrame] at hSame
  rw [hDir] at hBoth
  rw [hIndex] at hBoth'
  rw [hOffset] at hOther
  omega

end Store

end Steps

theorem recordFork_none {k k' : Kernel} (hTask : k'.task = k.task) (data : Set Nat) (s : Nat)
    (past : List (Event Nat Nat (BitVec 8))) : recordFork data k k' s past = past := by
  rw [recordFork, started_none hTask]

/-- The invariant of a run and its history. Before the first successful fork by task 0 there is no
other task. -/
structure Told (extMemK : BitVec 16) (image : Image) (data : Set Nat) (k : Kernel) (forks : Nat)
    (past : List (Event Nat Nat (BitVec 8))) : Prop where
  kernel : KernelInvariant extMemK image k
  dirs : OpenDirs k.mm
  alone : forks = 0 → past = [] ∧ ∀ s, ¬Occupied k s
  isolated : forks ≤ 1 → Isolated k.task k.mm
  sees : forks ≤ 1 → Sees (Occupied k) (k.Finds data) past
  covers : forks ≤ 1 → Covers (Occupied k) past

namespace Told

variable {extMemK : BitVec 16} {image : Image} {data : Set Nat} {k k' : Kernel} {mm : Mm}
  {ram : BitVec 32 → BitVec 8} {regs : ForkFrame} {address e result : BitVec 32} {v : BitVec 8}
  {p nr s a forks : Nat} {past : List (Event Nat Nat (BitVec 8))}

theorem boot (m : Memory) (heap : BitVec 32 → TaskStruct) (gdt : Nat → Desc) :
    Told extMemK image data (bootKernel extMemK image m heap gdt) 0 [] where
  kernel := KernelInvariant.boot m heap gdt
  dirs := (AddressSpaces.boot m heap gdt).dirs
  alone := fun _ => ⟨rfl, fun s hs => hs.task (bootKernel_task extMemK image m heap gdt s)⟩
  isolated := fun _ => (Reaches.boot m heap gdt).isolated (Nat.zero_le 1)
  sees := fun _ => Sees.nil
  covers := fun _ => Covers.nil

/-- A step that starts no task and stores nothing that is told. -/
theorem quiet (h : Told extMemK image data k forks past) (hKernel : KernelInvariant extMemK image k')
    (hTask : k'.task = k.task) (hDirs : OpenDirs k'.mm) (hIsolated : Isolated k.task k.mm → Isolated k.task k'.mm)
    (hFinds : ∀ s, Occupied k s → ∀ o v, k.Finds data s o v → k'.Finds data s o v) :
    Told extMemK image data k' forks past := by
  have hOld {s : Nat} (hs : Occupied k' s) : Occupied k s := ⟨hs.pos, hs.lt, hTask ▸ hs.task⟩
  refine ⟨hKernel, hDirs, fun hNone => ⟨(h.alone hNone).1, fun s hs => (h.alone hNone).2 s (hOld hs)⟩, fun hFew => ?_,
    fun hFew => (h.sees hFew).mono (fun _ hs => hOld hs) fun s hs => hFinds s (hOld hs),
    fun hFew => (h.covers hFew).mono fun _ hs => hOld hs⟩
  rw [hTask]
  exact hIsolated (h.isolated hFew)

theorem fault (h : Told extMemK image data k forks past) (hs : Occupied k s) (hInside : InSegment k s address)
    (hMaps : k.mm.Maps (dirIndex address) (tableIndex address) e)
    (hFree : ∃ i < pagingPages, k.mm.memMap i = 0#8) (hCall : doWpPage k.mm address = .ok mm) :
    Told extMemK image data { k with mm := mm } forks past := by
  have hUser := h.kernel.user_of_inSegment hs hInside
  have hResult := h.kernel.faultResult hs hInside hMaps hFree hCall
  obtain ⟨w, hServed, _⟩ := hResult.servedFrame h.kernel.mm hUser hMaps
  exact h.quiet (h.kernel.fault hUser hMaps hResult) rfl (h.dirs.congr fun d hd => Or.inl (hServed.dir d hd))
    (fun hIsolated => hIsolated.fault h.kernel.mm hUser hMaps hResult)
    fun j hj o v hFinds => hFinds.fault h.kernel hj hUser hMaps hResult

/-- The kernel and task 0 store where no task is told what it finds. -/
theorem kernelStore (h : Told extMemK image data k forks past) (hOwn : a ∈ data) (hLow : 0x5000 ≤ a)
    (hHigh : a < 0x100000) (v : BitVec 8) : Told extMemK image data { k with mm := k.mm.storeByte a v } forks past := by
  have hTables : SameTables k.mm (k.mm.storeByte a v) := (h.kernel.mm.offTables_low hLow hHigh).sameTables v
  have hKernel : KernelInvariant extMemK image { k with mm := k.mm.storeByte a v } :=
    h.kernel.set_mm (h.kernel.mm.data hTables rfl rfl rfl) hTables.pde (fun _ _ _ _ hMaps => hTables.maps.mp hMaps)
      fun _ _ hFree => hFree
  refine h.quiet hKernel rfl (h.dirs.congr fun d hd => Or.inl (hTables.pde d hd))
    (fun hIsolated => hIsolated.congr hTables) fun s hs o w hFinds => ?_
  refine hFinds.sameTables hTables rfl fun x _ hData => Function.update_of_ne ?_ _ _
  rintro rfl
  exact absurd (hData hOwn) (by omega)

theorem store (h : Told extMemK image data k forks past) (hs : Occupied k s) (hInside : InSegment k s address)
    (hWritable : k.mm.UserWritable address e) (v : BitVec 8) :
    Told extMemK image data { k with mm := k.mm.storeByte (physical e address) v } forks
      (.store s (address.toNat - 0x4000000 * s) v :: past) := by
  have hUser := h.kernel.user_of_inSegment hs hInside
  have hTables := h.kernel.mm.sameTables_storeByte hUser hWritable.maps hWritable.writable address v
  refine ⟨h.kernel.store hs hInside hWritable v, h.dirs.congr fun d hd => Or.inl (hTables.pde d hd),
    fun hNone => absurd hs ((h.alone hNone).2 s), fun hFew => (h.isolated hFew).congr hTables, fun hFew => ?_,
    fun hFew => (h.covers hFew).store fun j hj => ⟨hj.pos, hj.lt, hj.task⟩⟩
  refine (h.sees hFew).store (fun j hj => ⟨hj.pos, hj.lt, hj.task⟩) (fun j hj b w hOther hFinds => ?_)
    (h.kernel.store_finds (h.isolated hFew) hs hInside hWritable v)
  exact hFinds.store h.kernel (h.isolated hFew) hs hInside hWritable hj hOther v

theorem fork (h : Told extMemK image data k forks past) (hLive : Live k s)
    (hProvided : ForkProvided ram { k with current := taskAddr image k s })
    (hCall : sysFork ram regs { k with current := taskAddr image k s } = .ok (result, k')) :
    Told extMemK image data k' (if s = 0 ∧ result.msb = false then forks + 1 else forks)
      (recordFork data k k' s past) := by
  have hLive' : Live { k with current := taskAddr image k s } s := hLive.imp_right fun hs => ⟨hs.pos, hs.lt, hs.task⟩
  have hBefore := h.kernel.set_current (taskAddr image k s)
  have hResult := h.kernel.forkResult hLive hProvided hCall
  have hKernel : KernelInvariant extMemK image k' := hBefore.fork hLive' rfl hResult
  have hDirs : OpenDirs k'.mm := h.dirs.congr (hBefore.sysFork_pde rfl hLive' hProvided hCall)
  have hQuiet (a : Nat) (ha : k.mm.Quiet a) : k'.mm.mem a = k.mm.mem a ∧ k'.mm.OffTables a :=
    hBefore.sysFork_quiet rfl hLive' hProvided ha hCall
  have hFail : ¬(s = 0 ∧ (-eagain).msb = false) := fun hMade => absurd hMade.2 (by decide)
  cases hResult with
  | noSlot _ _ =>
      rw [if_neg hFail, recordFork_none]
      · exact h.quiet hKernel rfl hDirs id fun _ _ _ _ hFinds =>
          hFinds.sameTables ⟨fun _ _ => rfl, fun _ _ _ _ _ => rfl⟩ rfl fun _ _ _ => rfl
      · rfl
  | @made nr k' _ search slot empty made =>
      obtain ⟨i, hi, hFree, hTask, _⟩ := made.page
      replace hTask : k'.task = Function.update k.task nr (pageAddr i) := hTask
      replace empty : k.task nr = 0#32 := empty
      have hOld {j : Nat} (hj : Occupied k' j) (hOther : j ≠ nr) : Occupied k j := by
        have hSlot := hj.task
        rw [hTask, Function.update_of_ne hOther] at hSlot
        exact ⟨hj.pos, hj.lt, hSlot⟩
      rw [recordFork, started_some slot.2 empty hTask (pageAddr_ne_zero hi)]
      dsimp only
      rcases hLive with rfl | hs
      · rw [if_pos ⟨rfl, findPid_msb search⟩, if_pos rfl]
        have hAlone (hFew : forks + 1 ≤ 1) (j : Nat) (hj : Occupied k' j) : j = nr := by
          by_contra hOther
          exact (h.alone (by omega)).2 j (hOld hj hOther)
        refine ⟨hKernel, hDirs, fun hNone => absurd hNone (by omega), fun hFew => ?_, fun hFew => ?_, fun hFew => ?_⟩
        · refine isolated_first (fun d hd hUser hPresent => ?_) made.window made.forking
          have hThere := ((h.kernel.shape d hd hUser).mp hPresent).1
          unfold userDir at hUser
          exact (h.alone (by omega)).2 (d / 16) ⟨by omega, by omega, hThere⟩
        · exact Sees.first (hAlone hFew) fun o v hKnown => firstBytes_finds made.window hKnown
        · rw [(h.alone (by omega)).1]
          exact Covers.first (hAlone hFew)
      · have hPos := hs.pos
        have hWindow := made.window
        rw [copyCount, if_neg (by omega)] at hWindow
        have hSurvives (j : Nat) (hj : Occupied k j) (hOther : j ≠ nr) (o : Nat) (v : BitVec 8)
            (hFinds : k.Finds data j o v) : k'.Finds data j o v :=
          hFinds.forking h.kernel hj made.forking hOther hQuiet (Or.inr ⟨i, hi, hFree, hTask⟩)
        rw [if_neg (by omega), if_neg (by omega)]
        refine ⟨hKernel, hDirs, fun hNone => absurd hs ((h.alone hNone).2 s),
          fun hFew => (h.isolated hFew).forked hPos hWindow made.forking, fun hFew => ?_,
          fun hFew => (h.covers hFew).fork hs fun j hj hOther => hOld hj hOther⟩
        exact (h.sees hFew).fork hs (fun j hj hOther => hOld hj hOther) hSurvives fun o v hFinds =>
          (hSurvives s hs made.window.apart o v hFinds).child hWindow

end Told

theorem Recorded.told {extMemK : BitVec 16} {image : Image} {data : Set Nat} {k : Kernel} {forks : Nat}
    {past : List (Event Nat Nat (BitVec 8))} (run : Recorded extMemK image data k forks past) :
    Told extMemK image data k forks past := by
  induction run with
  | boot m heap gdt => exact Told.boot m heap gdt
  | fork prior live provided call ih => exact ih.fork live provided call
  | fault prior live inside maps readOnly free call ih => exact ih.fault live inside maps free call
  | store prior live inside writable v ih => exact ih.store live inside writable v
  | kernel prior own low high v ih => exact ih.kernelStore own low high v

section Result

variable {extMemK : BitVec 16} {image : Image} {data : Set Nat} {k : Kernel} {s o forks : Nat} {v : BitVec 8}
  {past : List (Event Nat Nat (BitVec 8))}

/-- What is found is what ring 3 reads. -/
theorem Kernel.Finds.userByte (h : k.Finds data s o v) (hs : s < 64) (hKernel : KernelInvariant extMemK image k)
    (hDirs : OpenDirs k.mm) : k.mm.userByte (taskBase s + BitVec.ofNat 32 o) = some v := by
  obtain ⟨hInside, e, hMaps, _, hByte, _⟩ := h
  have hAddress : (taskBase s + BitVec.ofNat 32 o).toNat = 0x4000000 * s + o := by
    rw [BitVec.toNat_add, taskBase_toNat hs, BitVec.toNat_ofNat]
    omega
  have hDir : dirIndex (taskBase s + BitVec.ofNat 32 o) = 16 * s + o / 0x400000 := by
    unfold dirIndex
    omega
  have hTable : tableIndex (taskBase s + BitVec.ofNat 32 o) = o / 4096 % 1024 := by
    unfold tableIndex
    omega
  have hPhysical : physical e (taskBase s + BitVec.ofNat 32 o) = byteAt e o := by
    unfold physical byteAt
    omega
  rw [Mm.userByte, hDir, hTable, hMaps.entry, if_pos, hPhysical, hByte]
  exact ⟨hMaps.table, (hDirs _ hMaps.dir hMaps.table).1, hMaps.present, hKernel.mm.entries.user _ _ e hMaps⟩

/-- In every such run with at most one child of task 0, every other task reads in its memory what it would
read had each fork copied all of it at once. Of each task that is told which the first child starts
with: all that task 0 could give it but page tables, task structures and what is written on behind
its back. -/
theorem copy_on_write_is_copying (run : Recorded extMemK image data k forks past) (hForks : forks ≤ 1) :
    (∀ s, Occupied k s → ∀ o v, eager past s o = some v →
      k.mm.userByte (taskBase s + BitVec.ofNat 32 o) = some v) ∧
    ∀ s, Occupied k s → ∀ child bytes, .first child bytes ∈ past → ∀ o, (bytes o).isSome → (eager past s o).isSome :=
  ⟨fun s hs o v hTold => (run.told.sees hForks s hs o v hTold).userByte hs.lt run.told.kernel run.told.dirs,
    run.told.covers hForks⟩

end Result

theorem KernelInvariant.ordinary_low {extMemK : BitVec 16} {image : Image} {k : Kernel} {a : Nat}
    (h : KernelInvariant extMemK image k) (hLow : 0x5000 ≤ a) (hHigh : a < 0x100000) : k.Ordinary a where
  toOffTables := h.mm.offTables_low hLow hHigh
  tasks := by
    intro s hs
    have hMain := BitVec.le_def.mp (h.mm.tasks.main s hs.pos hs.lt hs.task).lowMem_le
    rw [lowMem_toNat] at hMain
    unfold Outside
    omega

/-- The first child of task 0 reads the byte at 0x6000. -/
theorem copy_on_write_is_copying_child : ∃ k s past, Recorded 15360#16 smallImage ∅ k 1 past ∧ Occupied k s ∧
    k.mm.userByte (taskBase s + 0x6000#32) = some (k.mm.mem 0x6000) := by
  have hRun : Recorded 15360#16 smallImage ∅ (smallKernel 15360#16) 0 [] := Recorded.boot _ _ _
  have hCurrent : (smallKernel 15360#16).current = taskAddr smallImage (smallKernel 15360#16) 0 :=
    bootKernel_current _ _ _ _ _
  have hNone := smallKernel_task 15360#16
  obtain ⟨ram, pid, k', nr, hNr, hPid, hProvided, hCall, hMade⟩ := smallKernel_child
  generalize smallKernel 15360#16 = k at hRun hCurrent hNone hProvided hCall hMade
  have hSame : { k with current := taskAddr smallImage k 0 } = k := by rw [← hCurrent]
  have hFork := Recorded.fork hRun (Or.inl rfl) (by rw [hSame]; exact hProvided) (by rw [hSame]; exact hCall)
  rw [if_pos ⟨rfl, hPid⟩] at hFork
  obtain ⟨i, hi, _, hTask, _⟩ := hMade.page
  replace hTask : k'.task = Function.update k.task nr (pageAddr i) := hTask
  have hChild : Occupied k' nr := by
    refine ⟨hNr.1, hNr.2, ?_⟩
    rw [hTask, Function.update_self]
    exact pageAddr_ne_zero hi
  refine ⟨k', nr, _, hFork, hChild, (copy_on_write_is_copying hFork (Nat.le_refl 1)).1 nr hChild 0x6000 _ ?_⟩
  rw [recordFork, started_some hNr.2 (hNone nr) hTask (pageAddr_ne_zero hi)]
  dsimp only
  rw [if_pos rfl, eager, Function.update_self, firstBytes, if_pos]
  exact ⟨by decide, by decide, hFork.told.kernel.ordinary_low (by decide) (by decide), Set.notMem_empty _⟩

end Linux011

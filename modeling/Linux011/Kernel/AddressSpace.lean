import Linux011.Kernel.Capacity
import Linux011.Kernel.WriteFault
import Linux011.Mm.Quiet

/-! What a task can reach of its 16MB in any run whose forks and write faults find their pages, and
how often the processor starts an access again before it gets through. -/
namespace Linux011

open ByteMemory SharedRefs

/-- The error code of the page fault that an access from ring 3 is, if it is one. Bit 0 is for a
translation that is there, bit 1 for a write and bit 2 for ring 3. -/
def Mm.faultCode (mm : Mm) (address : BitVec 32) (write : Bool) : Option (BitVec 32) :=
  let pde := mm.pde (dirIndex address)
  let pte := mm.pte (dirIndex address) (tableIndex address)
  if ¬(Present pde ∧ Present pte) then some (if write then 6#32 else 4#32)
  else if ¬(User pde ∧ User pte) ∨ write = true ∧ ¬(Writable pde ∧ Writable pte) then
    some (if write then 7#32 else 5#32)
  else none

/-- `page_fault` tests bit 0 of the error code; where it is clear nothing is called. -/
def pageFaultCall (errorCode address : BitVec 32) (mm : Mm) : Except Stop Mm :=
  if 1#32 &&& errorCode ≠ 0#32 then doWpPage mm address else .ok mm

/-- An access that is started again behind each page fault, until it gets through. -/
def Mm.access (address : BitVec 32) (write : Bool) : Nat → Mm → Except Stop Mm
  | 0, _ => .error .hang
  | fuel + 1, mm =>
      match mm.faultCode address write with
      | none => .ok mm
      | some errorCode => do
          let mm ← pageFaultCall errorCode address mm
          Mm.access address write fuel mm

/-- Ring 3 may write through every entry of the directory. -/
def OpenDirs (mm : Mm) : Prop := ∀ d < 1024, Present (mm.pde d) → User (mm.pde d) ∧ Writable (mm.pde d)

theorem OpenDirs.congr {mm mm' : Mm} (h : OpenDirs mm)
    (hDir : ∀ d < 1024, mm'.pde d = mm.pde d ∨ ∃ page, mm'.pde d = page ||| 7#32) : OpenDirs mm' := by
  intro d hd hPresent
  rcases hDir d hd with hSame | ⟨page, hNew⟩
  · rw [hSame] at hPresent ⊢
    exact h d hd hPresent
  · rw [hNew]
    exact ⟨user_or_seven page, writable_or_seven page⟩

section Directory

variable {extMemK : BitVec 16} {image : Image} {task : Nat → BitVec 32} {mm mm' : Mm} {p nr t i : Nat}
  {k k' : Kernel} {ram : BitVec 32 → BitVec 8} {regs : ForkFrame} {r : BitVec 32}

/-- The outer loop of `copy_page_tables` writes no other entries to the directory. -/
theorem Window.copyPageDirs_pde {from_ : BitVec 32} {size count : Nat} (h : Window extMemK task p nr count t mm)
    (hSize : t + size = 4) (hNr : (if from_ = 0#32 then 0xa0 else 1024) = count)
    (hFound : PagesFound from_ size (4 * (16 * p + t)) (4 * (16 * nr + t)) mm)
    (hCall : Linux011.copyPageDirs from_ size (4 * (16 * p + t)) (4 * (16 * nr + t)) mm = .ok (r, mm')) :
    ∀ d < 1024, mm'.pde d = mm.pde d ∨ ∃ page, mm'.pde d = page ||| 7#32 := by
  induction size generalizing t mm with
  | zero =>
      obtain ⟨_, rfl⟩ := Prod.mk.inj (Except.ok.inj hCall)
      exact fun d _ => Or.inl rfl
  | succ size ih =>
      have hParent := h.parent
      have hTo : ¬1#32 &&& mm.load (4 * (16 * nr + t)) ≠ 0#32 := h.todo t (by omega) (Nat.le_refl t)
      have hFrom : ¬1#32 &&& mm.load (4 * (16 * p + t)) = 0#32 := h.fromDirs t (by omega)
      have hMask : 0xfffff00#32 &&& mm.load (4 * (16 * p + t)) = mm.table (16 * p + t) :=
        h.inv.dir.paged.mask _ (by omega) (h.fromDirs t (by omega))
      rcases getFreePage_cases h.inv.highInUse with ⟨_, hPage⟩ | ⟨i, hi, hFree, _, hPage⟩
      · exact absurd hFound (not_pagesFound hFrom hPage)
      · rw [copyPageDirs_page hTo hFrom hPage (pageAddr_ne_zero hi), hNr, hMask] at hCall
        have hRest := ((pagesFound_page hFrom hPage).mp hFound).2
        rw [hNr, hMask] at hRest
        intro d hd
        rcases ih (h.copyTable (by omega) hi hFree).window (by omega) hRest hCall d hd with hSame | hNew
        · rw [hSame]
          rw [h.copyTable_pde (by omega) hi hFree hd]
          split_ifs
          · exact Or.inr ⟨_, rfl⟩
          · exact Or.inl rfl
        · exact Or.inr hNew

theorem copyPageTables_pde (ready : ForkReady p nr mm) (h : MmInvariant extMemK task mm)
    (hFound : CopyPagesFound mm (taskBase p) (taskBase nr) dataLimit)
    (hCall : copyPageTables mm (taskBase p) (taskBase nr) dataLimit = .ok (r, mm')) :
    ∀ d < 1024, mm'.pde d = mm.pde d ∨ ∃ page, mm'.pde d = page ||| 7#32 := by
  have hCount : (if taskBase p = 0#32 then 0xa0 else 1024) = copyCount p := by
    simp only [taskBase_zero_iff ready.parent, copyCount]
  have hSize : ((dataLimit + 0x3fffff#32) >>> 22).toNat = 4 := by decide
  have hAligned : ¬(taskBase p &&& 0x3fffff#32 ≠ 0#32 ∨ taskBase nr &&& 0x3fffff#32 ≠ 0#32) := by
    rw [taskBase_aligned ready.parent, taskBase_aligned ready.child.2]
    simp
  rw [copyPageTables, if_neg hAligned, hSize, taskBase_dir ready.parent, taskBase_dir ready.child.2] at hCall
  rw [CopyPagesFound, hSize, taskBase_dir ready.parent, taskBase_dir ready.child.2] at hFound
  exact (ready.window h).copyPageDirs_pde (by omega) hCount hFound hCall

/-- A fork that has what it needs takes a page for the task structure and copies tables. -/
theorem KernelInvariant.copyProcess_copied (h : KernelInvariant extMemK image k)
    (hCurrent : k.current = taskAddr image k p) (hLive : Live k p) (hNr : 1 ≤ nr ∧ nr < 64)
    (hEmpty : k.task nr = 0#32) (hProvided : Provided ram k)
    (hCall : Linux011.copyProcess ram nr regs k = .ok (r, k')) :
    ∃ i < pagingPages, k.mm.memMap i = 0#8 ∧
      CopyPagesFound (k.mm.takePage i) (taskBase p) (taskBase nr) dataLimit ∧
      copyPageTables (k.mm.takePage i) (taskBase p) (taskBase nr) dataLimit = .ok (0#32, k'.mm) := by
  have hPages := hProvided.pages
  rcases getFreePage_cases h.mm.highInUse with ⟨hFull, _⟩ | ⟨i, hi, hFree, _, hPage⟩
  · rw [Mm.freePages_eq_empty.mpr hFull, Finset.card_empty] at hPages
    omega
  · have hNone := pageAddr_ne_noPage hi
    have hReady := (h.ready hLive hNr hEmpty).takePage h.mm hi hFree
    rcases copyPageTables_cases hReady (h.inv_withChild hNr hEmpty hi hFree) with
      ⟨hFound, mm, _, hCopy⟩ | ⟨_, t, mm, ht, hCopied, hShort⟩
    · have hMem : copyPageTables (k.withChild nr (pageAddr i) (k.mm.takePage i) regs).mm (taskBase p) (taskBase nr)
          dataLimit = .ok (0#32, mm) := by
        rw [Kernel.withChild_page hNone, Kernel.setTask_mm, Kernel.setSlot_mm]
        exact hCopy
      rw [copyProcess_filled hPage (copyMem_ok (h.segments_withChild hCurrent hLive hi hFree)
        (h.bases_withChild hCurrent hLive hi hFree hProvided.toBasesRead) hNone hMem)] at hCall
      obtain ⟨_, rfl⟩ := Prod.mk.inj (Except.ok.inj hCall)
      exact ⟨i, hi, hFree, hFound, hCopy⟩
    · have hFew := h.stop_few hLive (h.stops hLive hNr hEmpty hi hFree hCopied ht hShort)
      omega

/-- A child's tables are entered with `| 7`. -/
theorem KernelInvariant.copyProcess_pde (h : KernelInvariant extMemK image k)
    (hCurrent : k.current = taskAddr image k p) (hLive : Live k p) (hNr : 1 ≤ nr ∧ nr < 64)
    (hEmpty : k.task nr = 0#32) (hProvided : Provided ram k)
    (hCall : Linux011.copyProcess ram nr regs k = .ok (r, k')) :
    ∀ d < 1024, k'.mm.pde d = k.mm.pde d ∨ ∃ page, k'.mm.pde d = page ||| 7#32 := by
  obtain ⟨i, hi, hFree, hFound, hCopy⟩ := h.copyProcess_copied hCurrent hLive hNr hEmpty hProvided hCall
  intro d hd
  rw [← (h.mm.sameTables_takePage hi hFree).pde d hd]
  exact copyPageTables_pde ((h.ready hLive hNr hEmpty).takePage h.mm hi hFree) (h.inv_withChild hNr hEmpty hi hFree)
    hFound hCopy d hd

theorem KernelInvariant.sysFork_pde (h : KernelInvariant extMemK image k)
    (hCurrent : k.current = taskAddr image k p) (hLive : Live k p) (hProvided : ForkProvided ram k)
    (hCall : Linux011.sysFork ram regs k = .ok (r, k')) :
    ∀ d < 1024, k'.mm.pde d = k.mm.pde d ∨ ∃ page, k'.mm.pde d = page ||| 7#32 := by
  obtain ⟨pid, _, ⟨_, hRun⟩ | ⟨nr, hNr, hEmpty, hRun⟩⟩ := sysFork_cases ram regs k
  · obtain ⟨_, rfl⟩ := Prod.mk.inj (Except.ok.inj (hCall.symm.trans hRun))
    exact fun d _ => Or.inl rfl
  · have hLive' : Live { k with lastPid := pid } p := hLive.imp_right fun hs => ⟨hs.pos, hs.lt, hs.task⟩
    exact (h.set_lastPid pid).copyProcess_pde hCurrent hLive' hNr hEmpty
      ((hProvided ⟨nr, hNr.1, hNr.2, hEmpty⟩).set_lastPid pid) (hRun.symm.trans hCall)

end Directory

/-- Every task has the first 640KB of each of its four tables. Task 0 has more, no other task
has. -/
structure AddressSpaces (k : Kernel) : Prop where
  full : ∀ s, Live k s → ∀ i < 4, ∀ n < 0xa0, ∃ e, k.mm.Maps (16 * s + i) n e
  narrow : Narrow k.mm
  dirs : OpenDirs k.mm

namespace AddressSpaces

variable {extMemK : BitVec 16} {image : Image} {mm : Mm} {p nr d n : Nat} {k k' : Kernel}
  {ram : BitVec 32 → BitVec 8} {regs : ForkFrame} {r e : BitVec 32}

theorem boot (m : Memory) (heap : BitVec 32 → TaskStruct) (gdt : Nat → Desc) :
    AddressSpaces (bootKernel extMemK image m heap gdt) where
  full := by
    rintro s (rfl | hs) i hi n hn
    · rw [bootKernel_mm]
      exact ⟨_, (bootMm_maps extMemK m).mpr ⟨by omega, by omega, rfl⟩⟩
    · exact absurd (bootKernel_task extMemK image m heap gdt s) hs.task
  narrow := Narrow.boot m heap gdt
  dirs := by
    intro d hd hPresent
    rw [bootKernel_mm] at hPresent ⊢
    rw [bootMm_pde extMemK m ((bootMm_present extMemK m hd).mp hPresent), ofNat_or_seven]
    exact ⟨user_or_seven _, writable_or_seven _⟩

theorem full_forking {mm' : Mm} (h : ∀ i < 4, ∀ n < 0xa0, ∃ e, mm.Maps (16 * p + i) n e) {q : Nat}
    (hOther : p ≠ nr) (hFork : Forking q nr mm mm') : ∀ i < 4, ∀ n < 0xa0, ∃ e, mm'.Maps (16 * p + i) n e := by
  intro i hi n hn
  obtain ⟨e, hMaps⟩ := h i hi n hn
  rcases hFork.maps (by omega) hMaps with hNew | ⟨_, hNew⟩
  · exact ⟨_, hNew⟩
  · exact ⟨_, hNew⟩

theorem fork (h : AddressSpaces k) (hKernel : KernelInvariant extMemK image k)
    (hCurrent : k.current = taskAddr image k p) (hLive : Live k p) (hProvided : ForkProvided ram k)
    (hResult : ForkResult extMemK p regs k r k') (hCall : sysFork ram regs k = .ok (r, k')) :
    AddressSpaces k' where
  full := by
    cases hResult with
    | noSlot _ _ => exact fun s hs => h.full s (hs.imp_right fun hs => ⟨hs.pos, hs.lt, hs.task⟩)
    | @made nr k' _ _ slot empty made =>
        obtain ⟨i, _, _, hTask, _⟩ := made.page
        have hApart : p ≠ nr := made.window.apart
        have hParent := full_forking (h.full p hLive) hApart made.forking
        intro s hs j hj n hn
        by_cases hSame : s = nr
        · -- the child has what its parent has, and from task 0 these pages only
          subst hSame
          obtain ⟨e, hMaps⟩ := hParent j hj n hn
          refine ⟨_, (made.window.mirror.entry j (by omega) n _).mpr ⟨⟨?_, Or.inl hj⟩, e, hMaps, rfl⟩⟩
          unfold copyCount
          split_ifs <;> omega
        · have hOld : Live k s := by
            refine hs.imp_right fun hs => ⟨hs.pos, hs.lt, ?_⟩
            have hSlot := hs.task
            rw [hTask, Function.update_of_ne hSame] at hSlot
            exact hSlot
          exact full_forking (h.full s hOld) hSame made.forking j hj n hn
  narrow := h.narrow.fork hResult
  dirs := h.dirs.congr (hKernel.sysFork_pde hCurrent hLive hProvided hCall)

/-- A step that keeps the directory and every entry that is there. -/
theorem set_mm (h : AddressSpaces k) (hDir : ∀ d < 1024, mm.pde d = k.mm.pde d)
    (hMaps : ∀ d n, (∃ e, mm.Maps d n e) ↔ ∃ e, k.mm.Maps d n e) : AddressSpaces { k with mm := mm } where
  full := fun s hs i hi n hn =>
    (hMaps _ n).mpr (h.full s (hs.imp_right fun hs => ⟨hs.pos, hs.lt, hs.task⟩) i hi n hn)
  narrow := by
    intro d n e hUser hNew
    obtain ⟨x, hOld⟩ := (hMaps d n).mp ⟨e, hNew⟩
    exact h.narrow d n x hUser hOld
  dirs := h.dirs.congr fun d hd => Or.inl (hDir d hd)

theorem fault (h : AddressSpaces k) (hKernel : KernelInvariant extMemK image k) (hUser : userDir d)
    (hMaps : k.mm.Maps d n e) (hResult : FaultResult k.mm d n e mm) : AddressSpaces { k with mm := mm } := by
  obtain ⟨v, hPresent, _, _, hTables⟩ := hResult.tables hKernel.mm hUser hMaps
  have hPaged := hKernel.mm.dir.paged
  refine h.set_mm (fun a ha => ?_) fun a m => ?_
  · rw [hTables.pde a ha, hPaged.pde_setPte hMaps.dir hMaps.table ha]
  · simp only [hTables.maps, hPaged.maps_setPte hMaps.dir hMaps.table hMaps.index]
    constructor
    · rintro ⟨x, ⟨rfl, rfl, _⟩ | ⟨_, hOld⟩⟩
      · exact ⟨e, hMaps⟩
      · exact ⟨x, hOld⟩
    · rintro ⟨x, hOld⟩
      by_cases hSame : a = d ∧ m = n
      · exact ⟨v, Or.inl ⟨hSame.1, hSame.2, rfl, hPresent⟩⟩
      · exact ⟨x, Or.inr ⟨hSame, hOld⟩⟩

end AddressSpaces

theorem Reaches.addressSpaces {extMemK : BitVec 16} {image : Image} {k : Kernel} {forks : Nat}
    (run : Reaches extMemK image k forks) : AddressSpaces k := by
  induction run with
  | boot m heap gdt => exact AddressSpaces.boot m heap gdt
  | @fork k k' forks s ram regs result prior live provided call ih =>
      have hLive : Live { k with current := taskAddr image k s } s :=
        live.imp_right fun hs => ⟨hs.pos, hs.lt, hs.task⟩
      have hSet : AddressSpaces { k with current := taskAddr image k s } :=
        ⟨fun s hs => ih.full s (hs.imp_right fun hs => ⟨hs.pos, hs.lt, hs.task⟩), ih.narrow, ih.dirs⟩
      exact hSet.fork (prior.inv.set_current _) rfl hLive provided (prior.inv.forkResult live provided call) call
  | fault prior live inside maps readOnly free call ih =>
      exact ih.fault prior.inv (prior.inv.user_of_inSegment live inside) maps
        (prior.inv.faultResult live inside maps free call)
  | @store k forks s address e prior live inside writable v ih =>
      have hTables := prior.inv.mm.sameTables_storeByte (prior.inv.user_of_inSegment live inside) writable.maps
        writable.writable address v
      exact ih.set_mm hTables.pde fun d n => exists_congr fun e => hTables.maps

section Access

variable {extMemK : BitVec 16} {image : Image} {mm mm' : Mm} {k : Kernel} {s forks : Nat} {address e v : BitVec 32}

theorem FaultResult.served {task : Nat → BitVec 32} {d n : Nat} (h : MmInvariant extMemK task mm) (hUser : userDir d)
    (hMaps : mm.Maps d n e) (hResult : FaultResult mm d n e mm') : ∃ v, Served mm d n e v mm' := by
  cases hResult with
  | grant low one => exact ⟨_, h.served_grant hUser hMaps low one⟩
  | copy index free shared => exact ⟨_, h.served_copy hUser hMaps index free shared⟩

theorem inSegment_toNat (h : KernelInvariant extMemK image k) (hs : Occupied k s) (hInside : InSegment k s address) :
    0x4000000 * s ≤ address.toNat ∧ address.toNat < 0x4000000 * s + 0x1000000 := by
  obtain ⟨offset, hLt, rfl⟩ := hInside
  have hSegments := h.segments s hs
  rw [hSegments.dataLimit, BitVec.lt_def, show dataLimit.toNat = 0x1000000 by decide] at hLt
  have hBase := taskBase_toNat hs.lt
  have hSlot := hs.lt
  rw [hSegments.dataBase, BitVec.toNat_add, hBase]
  omega

theorem Mm.faultCode_absent {write : Bool} (h : ¬Present (mm.pte (dirIndex address) (tableIndex address))) :
    mm.faultCode address write = some (if write then 6#32 else 4#32) :=
  if_pos fun hBoth => h hBoth.2

theorem Mm.faultCode_none {write : Bool} (hMaps : mm.Maps (dirIndex address) (tableIndex address) e)
    (hDir : User (mm.pde (dirIndex address)) ∧ Writable (mm.pde (dirIndex address))) (hUser : User e)
    (hWrite : write = true → Writable e) : mm.faultCode address write = none := by
  obtain rfl := hMaps.entry
  unfold Mm.faultCode
  rw [if_neg (not_not.mpr ⟨hMaps.table, hMaps.present⟩), if_neg]
  rintro (hNot | ⟨hWritten, hNot⟩)
  · exact hNot ⟨hDir.1, hUser⟩
  · exact hNot ⟨hDir.2, hWrite hWritten⟩

theorem Mm.faultCode_readOnly (hMaps : mm.Maps (dirIndex address) (tableIndex address) e) (hNot : ¬Writable e) :
    mm.faultCode address true = some 7#32 := by
  obtain rfl := hMaps.entry
  unfold Mm.faultCode
  rw [if_neg (not_not.mpr ⟨hMaps.table, hMaps.present⟩), if_pos (Or.inr ⟨rfl, fun hBoth => hNot hBoth.2⟩)]
  rfl

/-- The handler finds nothing to do, and the fault is there again. -/
theorem Mm.access_absent {write : Bool} (h : ¬Present (mm.pte (dirIndex address) (tableIndex address)))
    (fuel : Nat) : Mm.access address write fuel mm = .error .hang := by
  induction fuel with
  | zero => rfl
  | succ fuel ih =>
      have hSkip : pageFaultCall (if write then 6#32 else 4#32) address mm = .ok mm := by
        cases write <;> exact if_neg (by decide)
      rw [Mm.access, Mm.faultCode_absent h]
      change (pageFaultCall _ address mm).bind _ = _
      rw [hSkip]
      exact ih

theorem Mm.access_none {write : Bool} (h : mm.faultCode address write = none) (fuel : Nat) :
    Mm.access address write (fuel + 1) mm = .ok mm := by
  rw [Mm.access, h]

/-- In every such run a task other than task 0 has of its 16MB the first 640KB of each 4MB and nothing
else, whatever it and the others do. There an access gets through at the latest when it is started
the second time, with a page free for a write; elsewhere it is started again for ever, because
`page_fault` does nothing about a page that is not there. -/
theorem access_settles_iff (run : Reaches extMemK image k forks) (hs : Occupied k s)
    (hInside : InSegment k s address) (write : Bool)
    (hFree : write = true → ∃ i < pagingPages, k.mm.memMap i = 0#8) :
    (address.toNat % 0x400000 < 0xa0000 →
      ∃ mm, Mm.access address write 2 k.mm = .ok mm ∧ mm.faultCode address write = none) ∧
    (¬address.toNat % 0x400000 < 0xa0000 → ∀ fuel, Mm.access address write fuel k.mm = .error .hang) := by
  have hKernel := run.inv
  have hSpaces := run.addressSpaces
  have hUser := hKernel.user_of_inSegment hs hInside
  obtain ⟨hLow, hHigh⟩ := inSegment_toNat hKernel hs hInside
  have hPage : tableIndex address < 0xa0 ↔ address.toNat % 0x400000 < 0xa0000 := by
    unfold tableIndex
    omega
  have hDir : dirIndex address = 16 * s + (address.toNat / 0x400000 - 16 * s) := by
    unfold dirIndex
    omega
  refine ⟨fun hThere => ?_, fun hNot => ?_⟩
  · obtain ⟨e, hMaps⟩ := hSpaces.full s (Or.inr hs) (address.toNat / 0x400000 - 16 * s) (by omega) _ (hPage.mpr hThere)
    rw [← hDir] at hMaps
    have hOpen := hSpaces.dirs _ hMaps.dir hMaps.table
    have hUserEntry := hKernel.mm.entries.user _ _ e hMaps
    by_cases hReady : write = true → Writable e
    · have hNone := Mm.faultCode_none hMaps hOpen hUserEntry hReady
      exact ⟨k.mm, Mm.access_none hNone 1, hNone⟩
    · -- the write fault, and then the access again
      obtain ⟨rfl, hReadOnly⟩ := Classical.not_imp.mp hReady
      have hAddress : taskSize ≤ address := by
        rw [BitVec.le_def, show taskSize.toNat = 0x4000000 by decide]
        have hPos := hs.pos
        omega
      obtain ⟨mm, hResult, hRun⟩ := hKernel.mm.doWpPage hAddress hMaps (hFree rfl)
      obtain ⟨v, hServed⟩ := hResult.served hKernel.mm hUser hMaps
      have hTable : Present (mm.pde (dirIndex address)) := by
        rw [hServed.dir _ hMaps.dir]
        exact hMaps.table
      have hNone : mm.faultCode address true = none := by
        refine Mm.faultCode_none ⟨hMaps.dir, hMaps.index, hTable, hServed.entry, hServed.present⟩ ?_ hServed.user
          fun _ => hServed.writable
        rw [hServed.dir _ hMaps.dir]
        exact hOpen
      refine ⟨mm, ?_, hNone⟩
      have hCall : pageFaultCall 7#32 address k.mm = .ok mm := (if_pos (by decide)).trans hRun
      rw [Mm.access, Mm.faultCode_readOnly hMaps hReadOnly]
      change (pageFaultCall 7#32 address k.mm).bind _ = _
      rw [hCall]
      exact Mm.access_none hNone 0
  · refine fun fuel => Mm.access_absent (fun hPresent => hNot (hPage.mp ?_)) fuel
    obtain ⟨x, hFirst⟩ := hSpaces.full s (Or.inr hs) (address.toNat / 0x400000 - 16 * s) (by omega) 0 (by omega)
    rw [← hDir] at hFirst
    exact hSpaces.narrow _ _ _ hUser ⟨hFirst.dir, tableIndex_lt address, hFirst.table, rfl, hPresent⟩

/-- The first child of task 0: it reads its first byte, but behind its first 640KB there is nothing. -/
theorem access_settles_iff_child : ∃ k s, Reaches 15360#16 smallImage k 1 ∧ Occupied k s ∧
    (∃ mm, Mm.access (taskBase s) false 2 k.mm = .ok mm) ∧
      ∀ fuel, Mm.access (taskBase s + 0xa0000#32) false fuel k.mm = .error .hang := by
  obtain ⟨k, run, s, hs⟩ := child_reaches
  have hSegments := run.inv.segments s hs
  have hBase := taskBase_toNat hs.lt
  have hInside (offset : BitVec 32) (hOffset : offset < dataLimit) : InSegment k s (taskBase s + offset) := by
    refine ⟨offset, ?_, ?_⟩
    · rw [hSegments.dataLimit]
      exact hOffset
    · rw [hSegments.dataBase]
  have hFirst := hInside 0#32 (by decide)
  rw [BitVec.add_zero] at hFirst
  obtain ⟨mm, hRead, _⟩ := (access_settles_iff run hs hFirst false (by simp)).1 (by omega)
  refine ⟨k, s, run, hs, ⟨mm, hRead⟩,
    (access_settles_iff run hs (hInside 0xa0000#32 (by decide)) false (by simp)).2 ?_⟩
  have hSlot := hs.lt
  rw [BitVec.toNat_add, hBase, show (0xa0000#32).toNat = 0xa0000 by decide]
  omega

end Access

end Linux011

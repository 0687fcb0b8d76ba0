import Linux011.Kernel.ForkCases
import Linux011.Kernel.Pid
import Linux011.Mm.Fault

/-! Runs from boot: any task forks and finds what it needs, tasks 1 to 63 take write faults
while a page is free and store to pages they may write. Which task runs next is left open. -/
namespace Linux011

open ByteMemory SharedRefs

/-- The negative results of `copy_process` and `find_empty_process`. -/
def Failed (result : BitVec 32) : Prop := result.msb = true

/-- `address` is inside the data segment of slot `s`. -/
def InSegment (k : Kernel) (s : Nat) (address : BitVec 32) : Prop :=
  ∃ offset : BitVec 32, offset < getLimit (k.heap (k.task s)).ldt2 ∧
    address = (k.heap (k.task s)).ldt2.base + offset

/-- The physical address behind a linear one, through entry `e`. -/
def physical (e address : BitVec 32) : Nat := (frame e).toNat + address.toNat % 4096

/-- The processor lets user mode write: both levels are present, writable and
user. -/
structure Mm.UserWritable (mm : Mm) (address e : BitVec 32) : Prop where
  maps : mm.Maps (dirIndex address) (tableIndex address) e
  dirWritable : Writable (mm.pde (dirIndex address))
  dirUser : User (mm.pde (dirIndex address))
  writable : Writable e
  user : User e

def Mm.storeByte (mm : Mm) (a : Nat) (v : BitVec 8) : Mm :=
  { mm with mem := Function.update mm.mem a v }

/-- A fork either finds no empty slot or has what it needs. -/
def ForkProvided (ram : BitVec 32 → BitVec 8) (k : Kernel) : Prop :=
  (∃ nr, 1 ≤ nr ∧ nr < 64 ∧ k.task nr = 0#32) → Provided ram k

/-- A run from boot; the number counts the successful forks by task 0. -/
inductive Reaches (extMemK : BitVec 16) (image : Image) : Kernel → Nat → Prop where
  | boot (m : Memory) (heap : BitVec 32 → TaskStruct) (gdt : Nat → Desc) :
      Reaches extMemK image (bootKernel extMemK image m heap gdt) 0
  | fork {k k' : Kernel} {forks s : Nat} {ram : BitVec 32 → BitVec 8} {regs : ForkFrame} {result : BitVec 32}
      (prior : Reaches extMemK image k forks) (live : Live k s)
      (provided : ForkProvided ram { k with current := taskAddr image k s })
      (call : sysFork ram regs { k with current := taskAddr image k s } = .ok (result, k')) :
      Reaches extMemK image k' (if s = 0 ∧ result.msb = false then forks + 1 else forks)
  | fault {k : Kernel} {mm : Mm} {forks s : Nat} {address e : BitVec 32}
      (prior : Reaches extMemK image k forks) (live : Occupied k s) (inside : InSegment k s address)
      (maps : k.mm.Maps (dirIndex address) (tableIndex address) e) (readOnly : ¬Writable e)
      (free : ∃ i < pagingPages, k.mm.memMap i = 0#8) (call : doWpPage k.mm address = .ok mm) :
      Reaches extMemK image { k with mm := mm } forks
  | store {k : Kernel} {forks s : Nat} {address e : BitVec 32}
      (prior : Reaches extMemK image k forks) (live : Occupied k s) (inside : InSegment k s address)
      (writable : k.mm.UserWritable address e) (v : BitVec 8) :
      Reaches extMemK image { k with mm := k.mm.storeByte (physical e address) v } forks

section

variable {extMemK : BitVec 16} {image : Image} {k k' : Kernel} {p nr s : Nat}
  {ram : BitVec 32 → BitVec 8} {regs : ForkFrame}

theorem taskBase_toNat (hs : s < 64) : (taskBase s).toNat = 0x4000000 * s := by
  have hAll : ∀ s : Fin 64, (taskBase s).toNat = 0x4000000 * s.val := by decide
  exact hAll ⟨s, hs⟩

/-- The linear addresses of slot `s` use directory entries of its own only. -/
theorem KernelInvariant.inSegment_dir (h : KernelInvariant extMemK image k) (hs : Occupied k s)
    {address : BitVec 32} (hInside : InSegment k s address) : dirIndex address / 16 = s := by
  obtain ⟨offset, hLt, rfl⟩ := hInside
  have hSegments := h.segments s hs
  rw [hSegments.dataLimit, BitVec.lt_def, show dataLimit.toNat = 0x1000000 by decide] at hLt
  have hBase := taskBase_toNat hs.lt
  have hSlot := hs.lt
  have hAddress : ((k.heap (k.task s)).ldt2.base + offset).toNat = 0x4000000 * s + offset.toNat := by
    rw [hSegments.dataBase, BitVec.toNat_add, hBase]
    omega
  rw [dirIndex, hAddress]
  omega

theorem KernelInvariant.boot (m : Memory) (heap : BitVec 32 → TaskStruct) (gdt : Nat → Desc) :
    KernelInvariant extMemK image (bootKernel extMemK image m heap gdt) where
  mm := by
    rw [bootKernel_mm]
    exact bootMm_inv extMemK m fun s _ _ => bootKernel_task extMemK image m heap gdt s
  slotZero := bootKernel_task extMemK image m heap gdt 0
  shape := by
    intro d hd hUser
    rw [bootKernel_mm, bootKernel_task, bootMm_present extMemK m hd]
    unfold userDir at hUser
    simp only [ne_eq, not_true_eq_false, false_and, iff_false]
    omega
  init := by
    rw [bootKernel_heap, Function.update_self]
    exact segments_initTask image
  segments := fun s hs => absurd (bootKernel_task extMemK image m heap gdt s) hs.task
  windows := by
    rintro ⟨s, hs⟩
    exact absurd (bootKernel_task extMemK image m heap gdt s) hs.task

theorem KernelInvariant.set_current (h : KernelInvariant extMemK image k) (p : BitVec 32) :
    KernelInvariant extMemK image { k with current := p } :=
  ⟨h.mm, h.slotZero, h.shape, h.init, fun s hs => h.segments s ⟨hs.pos, hs.lt, hs.task⟩,
    fun ⟨s, hs⟩ => h.windows ⟨s, hs.pos, hs.lt, hs.task⟩⟩

theorem KernelInvariant.set_lastPid (h : KernelInvariant extMemK image k) (pid : BitVec 32) :
    KernelInvariant extMemK image { k with lastPid := pid } :=
  ⟨h.mm, h.slotZero, h.shape, h.init, fun s hs => h.segments s ⟨hs.pos, hs.lt, hs.task⟩,
    fun ⟨s, hs⟩ => h.windows ⟨s, hs.pos, hs.lt, hs.task⟩⟩

theorem segments_child {t : TaskStruct} (h : Segments p t) (page current lastPid : BitVec 32) :
    Segments nr (placedTask (childTask t nr page current lastPid regs) nr) :=
  ⟨base_setBase _ _, base_setBase _ _, (getLimit_setBase _ _).trans h.codeLimit,
    (getLimit_setBase _ _).trans h.dataLimit⟩

/-- The child of task 0 holds every page that the next fork by task 0 would
share. -/
theorem Window.sourcesUsed {task : Nat → BitVec 32} {mm : Mm}
    (h : Window extMemK task 0 nr 0xa0 4 mm) : SourcesUsed 0 0xa0 mm := by
  intro i hi n hn e hMaps hLow hMem
  have hChild := h.child
  have hBoot : i < 4 := by
    by_contra hGap
    exact h.inv.dir.gap (16 * 0 + i) (by omega) (by omega) hMaps.table
  have hMirror := (h.mirror.entry i hi n _).mpr ⟨⟨hn, Or.inl hBoot⟩, e, hMaps, rfl⟩
  have hFrame := frame_clearWrite e
  apply h.inv.release_used (by unfold userDir; omega) hMirror (by rw [hFrame]; exact hLow)
  rw [hFrame]
  exact (Mm.mem_freePages.mp hMem).2

theorem KernelInvariant.forkMade_inv (h : KernelInvariant extMemK image k)
    (hCurrent : k.current = taskAddr image k p) (hLive : Live k p) (hNr : 1 ≤ nr ∧ nr < 64)
    (hMade : ForkMade extMemK p nr regs k k') : KernelInvariant extMemK image k' := by
  obtain ⟨i, hi, hFree, hTask, hHeap, _⟩ := hMade.page
  obtain ⟨hInit, hOthers⟩ := h.page_fresh hi hFree
  have hWindow := hMade.window
  have hOther {a : Nat} (ha : a ≠ nr) : k'.task a = k.task a := by rw [hTask, Function.update_of_ne ha]
  have hChild : k'.task nr = pageAddr i := by rw [hTask, Function.update_self]
  constructor
  · exact hWindow.inv
  · rw [hOther (by omega)]
    exact h.slotZero
  · intro d hd hUser
    by_cases hSpace : d / 16 = nr
    · rw [hSpace, hChild, show d = 16 * nr + d % 16 by omega,
        show (16 * nr + d % 16) % 16 = d % 16 by omega]
      constructor
      · intro hPresent
        refine ⟨pageAddr_ne_zero hi, ?_⟩
        by_contra hTodo
        exact hWindow.todo (d % 16) (by omega) (by omega) hPresent
      · exact fun hDone => hWindow.done (d % 16) hDone.2
    · rw [hMade.forking.dir d hd hSpace, hOther hSpace]
      exact h.shape d hd hUser
  · rw [hHeap, Function.update_of_ne hInit]
    exact h.init
  · intro s hs
    by_cases hSame : s = nr
    · subst s
      rw [hChild, hHeap, Function.update_self, hCurrent]
      exact segments_child (h.segments_live hLive) _ _ _
    · have hOld : Occupied k s := ⟨hs.pos, hs.lt, by rw [← hOther hSame]; exact hs.task⟩
      rw [hOther hSame, hHeap, Function.update_of_ne (hOthers s hOld)]
      exact h.segments s hOld
  · intro _
    rcases hLive with rfl | hOccupied
    · exact Window.sourcesUsed hWindow
    · exact (h.windows ⟨p, hOccupied⟩).forking (by omega) hMade.forking hMade.free

/-- A change of memory that keeps the directory, the boot address space and
every page in use. -/
theorem KernelInvariant.set_mm (h : KernelInvariant extMemK image k) {mm : Mm}
    (hInv : MmInvariant extMemK k.task mm) (hDir : ∀ d < 1024, mm.pde d = k.mm.pde d)
    (hBoot : ∀ d n e, d < 16 → mm.Maps d n e → k.mm.Maps d n e)
    (hFree : ∀ i < pagingPages, mm.memMap i = 0#8 → k.mm.memMap i = 0#8) :
    KernelInvariant extMemK image { k with mm := mm } where
  mm := hInv
  slotZero := h.slotZero
  shape := by
    intro d hd hUser
    rw [hDir d hd]
    exact h.shape d hd hUser
  init := h.init
  segments := fun s hs => h.segments s ⟨hs.pos, hs.lt, hs.task⟩
  windows := by
    rintro ⟨s, hs⟩ i hi n hn e hMaps hLow hMem
    obtain ⟨hLt, hZero⟩ := Mm.mem_freePages.mp hMem
    exact h.windows ⟨s, hs.pos, hs.lt, hs.task⟩ i hi n hn e (hBoot _ n e (by omega) hMaps) hLow
      (Mm.mem_freePages.mpr ⟨hLt, hFree _ hLt hZero⟩)

theorem KernelInvariant.fault (h : KernelInvariant extMemK image k) {d n : Nat} {e : BitVec 32} {mm : Mm}
    (hUser : userDir d) (hMaps : k.mm.Maps d n e) (hResult : FaultResult k.mm d n e mm) :
    KernelInvariant extMemK image { k with mm := mm } := by
  obtain ⟨v, _, _, _, hTables⟩ := hResult.tables h.mm hUser hMaps
  have hPaged := h.mm.dir.paged
  apply h.set_mm (h.mm.fault hUser hMaps hResult)
  · intro a ha
    rw [hTables.pde a ha, hPaged.pde_setPte hMaps.dir hMaps.table ha]
  · intro a m x ha hNew
    rw [hTables.maps, hPaged.maps_setPte hMaps.dir hMaps.table hMaps.index] at hNew
    rcases hNew with ⟨rfl, _⟩ | ⟨_, hOld⟩
    · unfold userDir at hUser
      omega
    · exact hOld
  · exact fun i hi hFree => hResult.free h.mm hUser hMaps hi hFree

theorem KernelInvariant.user_of_inSegment (h : KernelInvariant extMemK image k) (hs : Occupied k s)
    {address : BitVec 32} (hInside : InSegment k s address) : userDir (dirIndex address) := by
  have hDir := h.inSegment_dir hs hInside
  have hPos := hs.pos
  unfold userDir
  omega

/-- A page that a task may write holds no page table and no task structure. -/
theorem MmInvariant.writable_page {task : Nat → BitVec 32} {mm : Mm} {d n : Nat} {e : BitVec 32}
    (h : MmInvariant extMemK task mm) (hUser : userDir d) (hMaps : mm.Maps d n e) (hw : Writable e) :
    lowMem ≤ frame e ∧ mapNr (frame e) < pagingPages ∧ pageAddr (mapNr (frame e)) = frame e ∧
      ∀ r : PageRef, r.NonEntry → userRefs task mm r ≠ some (mapNr (frame e)) := by
  have hLow := h.entries.lowReadOnly d n e hUser hMaps hw
  have hTop := h.entries.top d n e hMaps
  refine ⟨hLow, MmInvariant.mapNr_lt_of_top hLow hTop, pageAddr_mapNr hLow (frame_mod e) hTop, ?_⟩
  intro r hNonEntry hr
  have hRef : userRefs task mm (.entry ⟨d, hMaps.dir⟩ ⟨n, hMaps.index⟩) = some (mapNr (frame e)) := by
    rw [MmInvariant.entry_ref (d := ⟨d, hMaps.dir⟩) (n := ⟨n, hMaps.index⟩) hUser hMaps,
      managed_of_le hLow]
  rw [h.counts.protect _ _ hRef ⟨e, hMaps, hw⟩ r hNonEntry hr] at hNonEntry
  exact hNonEntry

theorem physical_range (e address : BitVec 32) :
    (frame e).toNat ≤ physical e address ∧ physical e address < (frame e).toNat + 4096 := by
  unfold physical
  omega

theorem MmInvariant.sameTables_storeByte {task : Nat → BitVec 32} {mm : Mm} {d n : Nat} {e : BitVec 32}
    (h : MmInvariant extMemK task mm) (hUser : userDir d) (hMaps : mm.Maps d n e) (hw : Writable e)
    (address : BitVec 32) (v : BitVec 8) : SameTables mm (mm.storeByte (physical e address) v) := by
  obtain ⟨_, hIndex, hPage, hNone⟩ := h.writable_page hUser hMaps hw
  have hRange := physical_range e address
  apply h.sameTables_frame hIndex fun d' => hNone (.table d') trivial
  intro a ha
  rw [hPage] at ha
  exact Function.update_of_ne (by omega) _ _

theorem KernelInvariant.store (h : KernelInvariant extMemK image k) (hs : Occupied k s)
    {address e : BitVec 32} (hInside : InSegment k s address) (hWritable : k.mm.UserWritable address e)
    (v : BitVec 8) :
    KernelInvariant extMemK image { k with mm := k.mm.storeByte (physical e address) v } := by
  have hTables := h.mm.sameTables_storeByte (h.user_of_inSegment hs hInside) hWritable.maps
    hWritable.writable address v
  apply h.set_mm (h.mm.data hTables rfl rfl rfl) hTables.pde
  · exact fun d n x _ hMaps => hTables.maps.mp hMaps
  · exact fun i _ hFree => hFree

/-- A slot below 2^31 is handed to `copy_process`. -/
theorem sysFork_slot {pid : BitVec 32} (hNr : nr < 64)
    (hFind : findEmptyProcess k = .ok (BitVec.ofNat 32 nr, { k with lastPid := pid })) :
    sysFork ram regs k = copyProcess ram nr regs { k with lastPid := pid } := by
  have hNat : (BitVec.ofNat 32 nr).toNat = nr := by
    rw [BitVec.toNat_ofNat]
    omega
  have hSign : (BitVec.ofNat 32 nr).msb = false := by
    rw [BitVec.msb_eq_decide, hNat]
    simp only [decide_eq_false_iff_not]
    omega
  rw [sysFork, hFind]
  simp only [bind, Except.bind, hSign, hNat, Bool.false_eq_true, if_false]

variable (ram regs) in

/-- `sys_fork` moves `last_pid`, then finds no slot or calls `copy_process`. -/
theorem sysFork_cases (k : Kernel) :
    ∃ pid, findPid k (nrTasks + 1) k.lastPid = .ok pid ∧
      ((∀ i, 1 ≤ i → i < 64 → k.task i ≠ 0#32) ∧
          sysFork ram regs k = .ok (-eagain, { k with lastPid := pid }) ∨
        ∃ nr, (1 ≤ nr ∧ nr < 64) ∧ k.task nr = 0#32 ∧
          sysFork ram regs k = copyProcess ram nr regs { k with lastPid := pid }) := by
  obtain ⟨pid, hPid, ⟨nr, hPos, hLt, hEmpty, hRun⟩ | ⟨hFull, hRun⟩⟩ := findEmptyProcess_cases k
  · exact ⟨pid, hPid, Or.inr ⟨nr, ⟨hPos, hLt⟩, hEmpty, sysFork_slot hLt hRun⟩⟩
  · refine ⟨pid, hPid, Or.inl ⟨hFull, ?_⟩⟩
    rw [sysFork, hRun]
    rfl

/-- What a fork by slot `p` that has what it needs does to the kernel. -/
inductive ForkResult (extMemK : BitVec 16) (p : Nat) (regs : ForkFrame) (k : Kernel) :
    BitVec 32 → Kernel → Prop where
  | noSlot {pid : BitVec 32} (search : findPid k (nrTasks + 1) k.lastPid = .ok pid)
      (full : ∀ i, 1 ≤ i → i < 64 → k.task i ≠ 0#32) :
      ForkResult extMemK p regs k (-eagain) { k with lastPid := pid }
  | made {nr : Nat} {k' : Kernel} {pid : BitVec 32}
      (search : findPid k (nrTasks + 1) k.lastPid = .ok pid) (slot : 1 ≤ nr ∧ nr < 64)
      (empty : k.task nr = 0#32) (made : ForkMade extMemK p nr regs { k with lastPid := pid } k') :
      ForkResult extMemK p regs k pid k'

theorem Provided.set_lastPid (h : Provided ram k) (pid : BitVec 32) : Provided ram { k with lastPid := pid } :=
  ⟨⟨h.code, h.data⟩, h.pages⟩

variable (regs) in

/-- Such a fork returns. -/
theorem KernelInvariant.sysFork (h : KernelInvariant extMemK image k) (hLive : Live k p)
    (hCurrent : k.current = taskAddr image k p) (hProvided : ForkProvided ram k) :
    ∃ result k', ForkResult extMemK p regs k result k' ∧ sysFork ram regs k = .ok (result, k') := by
  obtain ⟨pid, hPid, ⟨hFull, hRun⟩ | ⟨nr, hNr, hEmpty, hRun⟩⟩ := sysFork_cases ram regs k
  · exact ⟨_, _, ForkResult.noSlot hPid hFull, hRun⟩
  · have hLive' : Live { k with lastPid := pid } p := hLive.imp_right fun hs => ⟨hs.pos, hs.lt, hs.task⟩
    obtain ⟨k', hMade, hCall⟩ := (h.set_lastPid pid).copyProcess regs hCurrent hLive' hNr hEmpty
      ((hProvided ⟨nr, hNr.1, hNr.2, hEmpty⟩).set_lastPid pid)
    exact ⟨_, _, ForkResult.made hPid hNr hEmpty hMade, hRun.trans hCall⟩

theorem KernelInvariant.fork (h : KernelInvariant extMemK image k) (hLive : Live k p)
    (hCurrent : k.current = taskAddr image k p) {result : BitVec 32}
    (hResult : ForkResult extMemK p regs k result k') : KernelInvariant extMemK image k' := by
  have hLive' (pid : BitVec 32) : Live { k with lastPid := pid } p :=
    hLive.imp_right fun hs => ⟨hs.pos, hs.lt, hs.task⟩
  cases hResult with
  | noSlot _ _ => exact h.set_lastPid _
  | made _ slot _ made =>
      exact (h.set_lastPid result).forkMade_inv hCurrent (hLive' result) slot made

/-- A returning call of `sys_fork` and what it did. -/
theorem KernelInvariant.forkResult (h : KernelInvariant extMemK image k) (hLive : Live k p)
    (hProvided : ForkProvided ram { k with current := taskAddr image k p }) {result : BitVec 32}
    (hCall : Linux011.sysFork ram regs { k with current := taskAddr image k p } = .ok (result, k')) :
    ForkResult extMemK p regs { k with current := taskAddr image k p } result k' := by
  have hLive' : Live { k with current := taskAddr image k p } p :=
    hLive.imp_right fun hs => ⟨hs.pos, hs.lt, hs.task⟩
  obtain ⟨_, _, hResult, hRun⟩ := (h.set_current _).sysFork regs hLive' rfl hProvided
  obtain ⟨rfl, rfl⟩ := Prod.mk.inj (Except.ok.inj (hCall.symm.trans hRun))
  exact hResult

theorem KernelInvariant.faultResult (h : KernelInvariant extMemK image k) (hs : Occupied k s)
    {address e : BitVec 32} {mm : Mm} (hInside : InSegment k s address)
    (hMaps : k.mm.Maps (dirIndex address) (tableIndex address) e)
    (hFree : ∃ i < pagingPages, k.mm.memMap i = 0#8) (hCall : doWpPage k.mm address = .ok mm) :
    FaultResult k.mm (dirIndex address) (tableIndex address) e mm := by
  have hAddress : taskSize ≤ address := by
    have hUser := h.user_of_inSegment hs hInside
    unfold userDir dirIndex at hUser
    rw [BitVec.le_def, show taskSize.toNat = 0x4000000 by decide]
    omega
  obtain ⟨mm', hResult, hRun⟩ := h.mm.doWpPage hAddress hMaps hFree
  obtain rfl := Except.ok.inj (hCall.symm.trans hRun)
  exact hResult

/-- The invariant holds in every reachable state. -/
theorem Reaches.inv {forks : Nat} (run : Reaches extMemK image k forks) :
    KernelInvariant extMemK image k := by
  induction run with
  | boot m heap gdt => exact KernelInvariant.boot m heap gdt
  | @fork k k' forks s ram regs result prior live provided call ih =>
      have hLive : Live { k with current := taskAddr image k s } s :=
        live.imp_right fun hs => ⟨hs.pos, hs.lt, hs.task⟩
      exact (ih.set_current _).fork hLive rfl (ih.forkResult live provided call)
  | fault prior live inside maps readOnly free call ih =>
      exact ih.fault (ih.user_of_inSegment live inside) maps (ih.faultResult live inside maps free call)
  | store prior live inside writable v ih => exact ih.store live inside writable v

end

theorem smallKernel_reaches (extMemK : BitVec 16) :
    Reaches extMemK smallImage (smallKernel extMemK) 0 :=
  Reaches.boot _ _ _

end Linux011

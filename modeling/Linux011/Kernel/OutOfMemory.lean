import Linux011.Kernel.Run
import Linux011.Mm.Exhausted

/-! A fork that runs out of memory: it goes on with `noPage` for a page, and never returns
`-EAGAIN`. A fork that misreads its base panics or copies from elsewhere. -/
namespace Linux011

open ByteMemory SharedRefs

/-- Registers of no interest. -/
def zeroFrame : ForkFrame := ⟨0, 0, 0, 0, 0, 0, 0, 0, 0, 0, 0, 0, 0, 0, 0, 0, 0⟩

/-- Memory as it is before a call, for `get_base`. -/
def Kernel.ram (k : Kernel) : BitVec 32 → BitVec 8 := fun a => k.mm.mem a.toNat

section

variable {extMemK : BitVec 16} {image : Image} {ram : BitVec 32 → BitVec 8} {k k' : Kernel} {p nr : Nat}
  {page pid failed result : BitVec 32} {regs : ForkFrame} {mm mm' : Mm}

theorem Kernel.place_fields (k : Kernel) (page : BitVec 32) (t : TaskStruct) :
    (k.place page t).task = k.task ∧ (k.place page t).lastPid = k.lastPid ∧ (k.place page t).current = k.current := by
  rw [Kernel.place]
  split_ifs <;> exact ⟨rfl, rfl, rfl⟩

theorem Kernel.reread_fields (k : Kernel) (page : BitVec 32) :
    (k.reread page).task = k.task ∧ (k.reread page).lastPid = k.lastPid := by
  rw [Kernel.reread]
  split_ifs <;> exact ⟨rfl, rfl⟩

/-- A `copy_mem` that returns has moved the segments of the child and copied page tables; it
returns 0. -/
theorem copyMem_ends (hCall : copyMem ram nr page k = .ok (failed, k')) :
    failed = 0#32 ∧ ∃ mm, k' = Kernel.reread { k.withSegments page nr with mm := mm } page := by
  unfold copyMem at hCall
  dsimp only at hCall
  split_ifs at hCall
  obtain ⟨⟨r, mm⟩, hCopy, hRest⟩ := bind_eq_ok hCall
  obtain rfl := copyPageTables_zero hCopy
  obtain ⟨rfl, rfl⟩ := Prod.mk.inj (Except.ok.inj hRest)
  exact ⟨rfl, mm, rfl⟩

theorem copyMem_zero (hCall : copyMem ram nr page k = .ok (failed, k')) :
    failed = 0#32 ∧ k'.task = k.task ∧ k'.lastPid = k.lastPid := by
  obtain ⟨hFailed, mm, rfl⟩ := copyMem_ends hCall
  refine ⟨hFailed, (Kernel.reread_fields _ _).1.trans ?_, (Kernel.reread_fields _ _).2.trans ?_⟩
  · exact (Kernel.place_fields _ _ _).1.trans (Kernel.place_fields _ _ _).1
  · exact (Kernel.place_fields _ _ _).2.1.trans (Kernel.place_fields _ _ _).2.1

theorem copyMem_page (hPage : page ≠ noPage) (hCall : copyMem ram nr page k = .ok (failed, k')) :
    ∃ mm, k' = { k.setTask page (placedTask (k.heap page) nr) with mm := mm } := by
  obtain ⟨_, mm, rfl⟩ := copyMem_ends hCall
  exact ⟨mm, by rw [Kernel.reread_page hPage, Kernel.withSegments_page hPage]⟩

/-- When `copy_process` returns, it has filled the slot and returns the pid. -/
theorem copyProcess_returns (hCall : copyProcess ram nr regs k = .ok (result, k')) :
    result = k.lastPid ∧ k'.task nr ≠ 0#32 := by
  cases hPage : getFreePage k.mm with
  | error stop =>
      rw [copyProcess, hPage] at hCall
      cases hCall
  | ok found =>
      obtain ⟨page, mm⟩ := found
      rw [copyProcess_page hPage] at hCall
      obtain ⟨⟨failed, k₁⟩, hCopy, hRest⟩ := bind_eq_ok hCall
      obtain ⟨rfl, hTask, hPid⟩ := copyMem_zero hCopy
      obtain ⟨rfl, rfl⟩ := Prod.mk.inj (Except.ok.inj hRest)
      refine ⟨hPid.trans (Kernel.place_fields _ _ _).2.1, ?_⟩
      have hSlot : k₁.task = Function.update k.task nr page := hTask.trans (Kernel.place_fields _ _ _).1
      change k₁.task nr ≠ 0#32
      rw [hSlot, Function.update_self]
      exact getFreePage_ne_zero hPage

/-- What `copy_process` leaves when it has got a page for the task structure, whatever
happens to the page tables. -/
theorem copyProcess_child (hPage : getFreePage k.mm = .ok (page, mm)) (hFound : page ≠ noPage)
    (hCall : copyProcess ram nr regs k = .ok (result, k')) :
    result = k.lastPid ∧ k'.task = Function.update k.task nr page ∧
      k'.heap = Function.update k.heap page
        (placedTask (childTask (k.heap k.current) nr page k.current k.lastPid regs) nr) ∧
      k'.current = k.current ∧ k'.gdt (2 * nr + firstLdtEntry) = ldtDesc (ldtAddr page) := by
  obtain ⟨hResult, _⟩ := copyProcess_returns hCall
  refine ⟨hResult, ?_⟩
  rw [copyProcess_page hPage] at hCall
  obtain ⟨⟨r, k₁⟩, hCopy, hRest⟩ := bind_eq_ok hCall
  obtain ⟨mm₁, rfl⟩ := copyMem_page hFound hCopy
  obtain ⟨rfl, _, _⟩ := copyMem_zero hCopy
  obtain ⟨_, rfl⟩ := Prod.mk.inj (Except.ok.inj hRest)
  rw [Kernel.withChild_page hFound]
  refine ⟨rfl, ?_, rfl, ?_⟩
  · simp only [Kernel.setGdt_heap, Kernel.setTask_heap, Kernel.setSlot_heap, Function.update_self,
      Function.update_idem]
  · rw [show 2 * nr = nr <<< 1 by rw [Nat.shiftLeft_eq]; omega]
    exact Function.update_self ..

/-- `copy_process` returns `-EAGAIN`, and nothing that the rest of the kernel
looks at has changed, write bits of the forking task apart. -/
structure AtomicFailure (p : Nat) (k : Kernel) (result : BitVec 32) (k' : Kernel) : Prop where
  result : result = -eagain
  task : k'.task = k.task
  gdt : k'.gdt = k.gdt
  dir : ∀ d < 1024, k'.mm.pde d = k.mm.pde d
  memMap : ∀ i < pagingPages, k'.mm.memMap i = k.mm.memMap i
  entry : ∀ d < 1024, Present (k.mm.pde d) → ∀ n < 1024, k'.mm.pte d n = k.mm.pte d n ∨
    d / 16 = p ∧ lowMem ≤ frame (k.mm.pte d n) ∧ k'.mm.pte d n = k.mm.pte d n &&& ~~~2#32

/-- No fork that runs out of memory is undone, whatever the state: when the call returns,
it returns the pid that `find_empty_process` has chosen, and the slot is taken. -/
theorem fork_never_atomic (hEmpty : k.task nr = 0#32) : MemoryRunsOut nr k →
    (¬∃ result k', copyProcess ram nr regs k = .ok (result, k') ∧ AtomicFailure p k result k') ∧
      ∀ result k', copyProcess ram nr regs k = .ok (result, k') → result = k.lastPid ∧ k'.task nr ≠ 0#32 := by
  refine fun _ => ⟨?_, fun result k' => copyProcess_returns⟩
  rintro ⟨result, k', hCall, hAtomic⟩
  have hTask := (copyProcess_returns hCall).2
  rw [hAtomic.task] at hTask
  exact hTask hEmpty

/-- `copy_mem` with a base that is no multiple of 4MB. -/
theorem copyMem_unaligned {base : BitVec 32}
    (hCode : getBase ram (ldtAddr k.current + 8#32) (k.heap k.current).ldt1 = base)
    (hData : getBase ram (ldtAddr k.current + 16#32) (k.heap k.current).ldt2 = base)
    (hLimit : getLimit (k.heap k.current).ldt1 = getLimit (k.heap k.current).ldt2)
    (hBase : base &&& 0x3fffff#32 ≠ 0#32) :
    copyMem ram nr page k = .error (.panic "copy_page_tables called with unaligned address") := by
  have hCopy (mm : Mm) (to_ size : BitVec 32) : copyPageTables mm base to_ size =
      .error (.panic "copy_page_tables called with unaligned address") := if_pos (Or.inl hBase)
  rw [copyMem]
  simp only [hCode, hData, hLimit]
  rw [if_neg (not_not.mpr rfl), if_neg (BitVec.lt_irrefl _)]
  exact error_bind (hCopy _ _ _) _

/-- The kernel when slot `p` has called `sys_fork` and the pid is chosen. -/
def Kernel.forking (k : Kernel) (image : Image) (p : Nat) (pid : BitVec 32) : Kernel :=
  { k with current := taskAddr image k p, lastPid := pid }

theorem KernelInvariant.forking (h : KernelInvariant extMemK image k) (p : Nat) (pid : BitVec 32) :
    KernelInvariant extMemK image (k.forking image p pid) :=
  (h.set_current (taskAddr image k p)).set_lastPid pid

theorem Live.forking (h : Live k p) (pid : BitVec 32) : Live (k.forking image p pid) p :=
  h.imp_right fun hs => ⟨hs.pos, hs.lt, hs.task⟩

/-- Above 4MB the first fork by task 0 succeeds. -/
theorem KernelInvariant.firstFork (h : KernelInvariant extMemK image k) (hNone : ∀ s, ¬Occupied k s)
    (hBig : 0x400000 < (memoryEnd extMemK).toNat) (hNr : 1 ≤ nr ∧ nr < 64) (pid : BitVec 32)
    (regs : ForkFrame) (hBases : BasesRead ram (k.forking image 0 pid)) :
    ∃ k', ForkMade extMemK 0 nr regs (k.forking image 0 pid) k' ∧
      Linux011.copyProcess ram nr regs (k.forking image 0 pid) = .ok (pid, k') := by
  have hEmpty : k.task nr = 0#32 := by
    by_contra hTask
    exact hNone nr ⟨hNr.1, hNr.2, hTask⟩
  have hRoom : 485 ≤ (k.forking image 0 pid).mm.freePages.card := h.room hNone hBig
  exact (h.forking 0 pid).copyProcess regs rfl (Or.inl rfl) hNr hEmpty ⟨hBases, by omega⟩

/-- So `sys_fork` returns the pid of a child. -/
theorem KernelInvariant.firstChild (h : KernelInvariant extMemK image k) (hNone : ∀ s, ¬Occupied k s)
    (hBig : 0x400000 < (memoryEnd extMemK).toNat) (hCurrent : k.current = taskAddr image k 0)
    (hBases : BasesRead ram k) (regs : ForkFrame) :
    ∃ pid k' nr, (1 ≤ nr ∧ nr < 64) ∧ pid.msb = false ∧ ForkProvided ram k ∧
      Linux011.sysFork ram regs k = .ok (pid, k') ∧
      ForkMade extMemK 0 nr regs { k with lastPid := pid } k' := by
  have hSame (pid : BitVec 32) : k.forking image 0 pid = { k with lastPid := pid } := by
    rw [Kernel.forking, ← hCurrent]
  have hRoom : 485 ≤ k.mm.freePages.card := h.room hNone hBig
  obtain ⟨pid, hPid, ⟨hFull, _⟩ | ⟨nr, hNr, _, hCall⟩⟩ := sysFork_cases ram regs k
  · exact absurd ⟨by omega, by omega, hFull 1 (by omega) (by omega)⟩ (hNone 1)
  · have hRead : BasesRead ram (k.forking image 0 pid) := by
      rw [hSame]
      exact ⟨hBases.code, hBases.data⟩
    obtain ⟨k', hMade, hCopy⟩ := h.firstFork hNone hBig hNr pid regs hRead
    rw [hSame] at hCopy hMade
    exact ⟨pid, k', nr, hNr, findPid_msb hPid, fun _ => ⟨hBases, by omega⟩, hCall.trans hCopy, hMade⟩

end

theorem smallKernel_task (extMemK : BitVec 16) (s : Nat) : (smallKernel extMemK).task s = 0#32 :=
  bootKernel_task extMemK smallImage _ _ _ s

theorem smallKernel_unoccupied (extMemK : BitVec 16) (s : Nat) : ¬Occupied (smallKernel extMemK) s :=
  fun hs => hs.task (smallKernel_task extMemK s)

/-- A machine of 1MB and `extMemK` kilobytes has that many pages at boot. -/
theorem smallKernel_freePages {extMemK : BitVec 16} (hSmall : (memoryEnd extMemK).toNat ≤ 0x400000) :
    (smallKernel extMemK).mm.freePages = Finset.range (extMemK.toNat / 4) := by
  have hStart := mainMemoryStart_toNat extMemK
  have hEnd := memoryEnd_toNat extMemK
  rw [if_neg (by omega), if_neg (by omega)] at hStart
  have hCount {i : Nat} (hi : i < pagingPages) := (smallKernel_reaches extMemK).inv.boot_count
    (smallKernel_unoccupied extMemK) hi
  ext i
  rw [Mm.mem_freePages, Finset.mem_range]
  constructor
  · rintro ⟨hi, hZero⟩
    have hBase := hCount hi
    rw [hZero, baseCount] at hBase
    split_ifs at hBase with hMain
    · omega
    · exact absurd hBase (by decide)
  · intro hi
    have hLt : i < pagingPages := by
      rw [pagingPages_eq]
      omega
    refine ⟨hLt, BitVec.eq_of_toNat_eq ?_⟩
    rw [hCount hLt, baseCount, if_pos (by omega)]
    rfl

/-- Below `pg0` and behind the first entries memory is 0 at boot. -/
theorem bootMm_zero (extMemK : BitVec 16) {a : Nat} (hLow : 16 ≤ a) (hHigh : a < 4096) :
    (bootMm extMemK fun _ => 0).mem a = 0#8 := by
  have hWord : load32 (bootMm extMemK fun _ => 0).mem (4 * (a / 4)) = 0#32 :=
    bootMm_absent extMemK (fun _ => 0) (by omega) (by omega)
  have hByte := load32_byte (bootMm extMemK fun _ => 0).mem (4 * (a / 4)) (k := a % 4) (by omega)
  rw [hWord, show 4 * (a / 4) + a % 4 = a by omega] at hByte
  rw [← hByte]
  simp

theorem smallKernel_heap (extMemK : BitVec 16) : (smallKernel extMemK).heap 0x5000#32 = initTask smallImage := by
  rw [smallKernel, bootKernel_heap]
  exact Function.update_self _ _ _

/-- `init_task` lies so that the stray addresses fall on absent directory entries. -/
theorem bases_smallImage {ram : BitVec 32 → BitVec 8} {k : Kernel} (hCurrent : k.current = 0x5000#32)
    (hInit : k.heap 0x5000#32 = initTask smallImage) (hCode : ram 0x20#32 = 0#8) (hData : ram 0x28#32 = 0#8) :
    BasesRead ram k := by
  constructor
  · rw [hCurrent, hInit]
    change ram (strayAddr (ldtAddr 0x5000#32 + 8#32) 0#8) = 0#8
    rw [show strayAddr (ldtAddr 0x5000#32 + 8#32) 0#8 = 0x20#32 by decide, hCode]
  · rw [hCurrent, hInit]
    change ram (strayAddr (ldtAddr 0x5000#32 + 16#32) 0#8) = 0#8
    rw [show strayAddr (ldtAddr 0x5000#32 + 16#32) 0#8 = 0x28#32 by decide, hData]

theorem smallKernel_ram (extMemK : BitVec 16) :
    (smallKernel extMemK).ram 0x20#32 = 0#8 ∧ (smallKernel extMemK).ram 0x28#32 = 0#8 := by
  rw [Kernel.ram, smallKernel, bootKernel_mm]
  exact ⟨bootMm_zero extMemK (by decide) (by decide), bootMm_zero extMemK (by decide) (by decide)⟩

theorem smallKernel_bases (extMemK : BitVec 16) (pid : BitVec 32) :
    BasesRead (smallKernel extMemK).ram ((smallKernel extMemK).forking smallImage 0 pid) :=
  bases_smallImage rfl (smallKernel_heap extMemK) (smallKernel_ram extMemK).1 (smallKernel_ram extMemK).2

section Starved

variable {ram : BitVec 32 → BitVec 8} {k : Kernel} {regs : ForkFrame}

theorem Mm.storeWords_fields (ws : List (BitVec 32)) (mm : Mm) (a : Nat) :
    (mm.storeWords a ws).memMap = mm.memMap ∧ (mm.storeWords a ws).highMemory = mm.highMemory ∧
      ∀ x, Outside a (4 * ws.length) x → (mm.storeWords a ws).mem x = mm.mem x := by
  induction ws generalizing mm a with
  | nil => exact ⟨rfl, rfl, fun _ _ => rfl⟩
  | cons w ws ih =>
      obtain ⟨hMap, hHigh, hMem⟩ := ih (mm.store a w) (a + 4)
      refine ⟨hMap, hHigh, fun x hx => ?_⟩
      rw [List.length_cons] at hx
      unfold Outside at hx
      exact (hMem x (by unfold Outside; omega)).trans (store32_outside _ _ _ (by omega))

theorem Kernel.place_noPage (k : Kernel) (t : TaskStruct) :
    k.place noPage t = { k.setTask noPage t with mm := k.mm.storeWords 0xf00 t.words } :=
  if_pos rfl

/-- The structure is written within the directory. -/
theorem Exhausted.place (h : Exhausted 0 k.mm) (t : TaskStruct) : Exhausted 0 (k.place noPage t).mm := by
  obtain ⟨hMap, hHigh, hMem⟩ := Mm.storeWords_fields t.words k.mm 0xf00
  rw [Kernel.place_noPage]
  refine h.write hMap hHigh fun x hx => hMem x ?_
  rw [show t.words.length = 37 from rfl]
  unfold Outside at hx ⊢
  omega

end Starved

theorem smallKernel_exhausted : Exhausted 0 (smallKernel 0#16).mm := by
  rw [smallKernel, bootKernel_mm]
  exact bootMm_exhausted (by decide) _

theorem Exhausted.runsOut {t : Nat} {k : Kernel} (h : Exhausted t k.mm) (nr : Nat) : MemoryRunsOut nr k :=
  ⟨noPage, k.mm, h.page, Or.inl rfl⟩

/-- On a machine of 1MB no page is free for the first fork, which fills slot 1 all the
same. -/
theorem fork_not_atomic : ¬∀ (extMemK : BitVec 16) (image : Image) (ram : BitVec 32 → BitVec 8) (k : Kernel)
    (forks p nr : Nat) (pid : BitVec 32) (regs : ForkFrame), Reaches extMemK image k forks → Live k p →
    1 ≤ nr ∧ nr < 64 → k.task nr = 0#32 → BasesRead ram (k.forking image p pid) →
    MemoryRunsOut nr (k.forking image p pid) →
    ∃ result k', copyProcess ram nr regs (k.forking image p pid) = .ok (result, k') ∧
      AtomicFailure p (k.forking image p pid) result k' := by
  intro hAll
  have hRun := smallKernel_reaches 0#16
  have hEmpty := smallKernel_task 0#16 1
  have hBases := smallKernel_bases 0#16 1#32
  have hNone := smallKernel_exhausted
  generalize (smallKernel 0#16).ram = ram at hBases
  generalize smallKernel 0#16 = k at hRun hEmpty hBases hNone
  obtain ⟨result, k', hCall, hAtomic⟩ := hAll 0#16 smallImage ram k 0 0 1 1#32 zeroFrame hRun (Or.inl rfl) (by omega)
    hEmpty hBases (hNone.runsOut (k := k.forking smallImage 0 1#32) 1)
  have hTask := (copyProcess_returns hCall).2
  rw [hAtomic.task] at hTask
  exact hTask hEmpty

theorem fork_never_atomic_small : ∃ k, Reaches 0#16 smallImage k 0 ∧ MemoryRunsOut 1 k ∧
    ¬∃ result k', copyProcess k.ram 1 zeroFrame k = .ok (result, k') ∧ AtomicFailure 0 k result k' := by
  have hRun := smallKernel_reaches 0#16
  have hEmpty := smallKernel_task 0#16 1
  have hNone := smallKernel_exhausted
  generalize smallKernel 0#16 = k at hRun hEmpty hNone
  exact ⟨k, hRun, hNone.runsOut 1, (fork_never_atomic hEmpty (hNone.runsOut 1)).1⟩

/-- A link of the kernel in which the stray addresses of task 0 are 0 and 8. -/
def strayImage : Image where
  initTask := 0xb6e0#32
  pos := by decide
  low := by decide

def strayKernel : Kernel :=
  bootKernel 15360#16 strayImage (fun _ => 0) (fun _ => initTask strayImage) fun _ => ⟨0#32, 0#32⟩

theorem strayKernel_reaches : Reaches 15360#16 strayImage strayKernel 0 := Reaches.boot _ _ _

/-- `pg_dir` holds 7 there, the flags of a directory entry. -/
theorem strayKernel_ram {d : Nat} (hd : d < 4) : strayKernel.ram (BitVec.ofNat 32 (4 * d)) = 7#8 := by
  have hByte := load32_byte (bootMm 15360#16 fun _ => 0).mem (4 * d) (k := 0) (by omega)
  have hWord : load32 (bootMm 15360#16 fun _ => 0).mem (4 * d) = BitVec.ofNat 32 (0x1000 * (d + 1) + 7) :=
    bootMm_pde 15360#16 (fun _ => 0) hd
  have hAll : ∀ d : Fin 4, (BitVec.ofNat 32 (0x1000 * (d.val + 1) + 7)).extractLsb' (8 * 0) 8 = 7#8 := by decide
  rw [hWord, hAll ⟨d, hd⟩, Nat.add_zero] at hByte
  rw [Kernel.ram, strayKernel, bootKernel_mm, hByte, BitVec.toNat_ofNat, Nat.mod_eq_of_lt (by omega)]

/-- The first fork of task 0 reads 0x70000 for its base, with thousands of pages free. -/
theorem strayKernel_panics (regs : ForkFrame) : sysFork strayKernel.ram regs strayKernel =
    .error (.panic "copy_page_tables called with unaligned address") := by
  have hInv := strayKernel_reaches.inv
  have hZero : strayKernel.ram 0#32 = 7#8 := strayKernel_ram (d := 0) (by omega)
  have hEight : strayKernel.ram 8#32 = 7#8 := strayKernel_ram (d := 2) (by omega)
  have hCurrent : strayKernel.current = 0xb6e0#32 := bootKernel_current _ _ _ _ _
  have hTask : strayKernel.heap 0xb6e0#32 = initTask strayImage := by
    rw [strayKernel, bootKernel_heap]
    exact Function.update_self _ _ _
  have hNone (s : Nat) : strayKernel.task s = 0#32 := bootKernel_task _ _ _ _ _ s
  have hRoom : 485 ≤ strayKernel.mm.freePages.card := hInv.room (fun s hs => hs.task (hNone s)) (by decide)
  generalize strayKernel.ram = ram at hZero hEight ⊢
  generalize strayKernel = k at *
  have hCode : getBase ram (ldtAddr 0xb6e0#32 + 8#32) (initTask strayImage).ldt1 = 0x70000#32 := by
    have hStray : strayAddr (ldtAddr 0xb6e0#32 + 8#32) ((initTask strayImage).ldt1.b.extractLsb' 24 8) = 0#32 := by
      decide
    rw [getBase, hStray, hZero]
    decide
  have hData : getBase ram (ldtAddr 0xb6e0#32 + 16#32) (initTask strayImage).ldt2 = 0x70000#32 := by
    have hStray : strayAddr (ldtAddr 0xb6e0#32 + 16#32) ((initTask strayImage).ldt2.b.extractLsb' 24 8) = 8#32 := by
      decide
    rw [getBase, hStray, hEight]
    decide
  obtain ⟨pid, _, ⟨hFull, _⟩ | ⟨nr, _, _, hCall⟩⟩ := sysFork_cases ram regs k
  · exact absurd (hNone 1) (hFull 1 (by omega) (by omega))
  · rcases getFreePage_cases hInv.mm.highInUse with ⟨hFull, _⟩ | ⟨i, hi, hFree, _, hPage⟩
    · rw [Mm.freePages_eq_empty.mpr hFull, Finset.card_empty] at hRoom
      omega
    · have hFound : getFreePage ({ k with lastPid := pid } : Kernel).mm = .ok (pageAddr i, k.mm.takePage i) := hPage
      have hFresh : (0xb6e0#32) ≠ pageAddr i := fun hSame => by
        have hLow := lowMem_le_pageAddr hi
        rw [← hSame] at hLow
        exact absurd hLow (by decide)
      have hParent : (({ k with lastPid := pid } : Kernel).withChild nr (pageAddr i) (k.mm.takePage i) regs).heap
          0xb6e0#32 = initTask strayImage := by
        rw [Kernel.withChild_page (pageAddr_ne_noPage hi), Kernel.setTask_heap, Function.update_of_ne hFresh,
          Kernel.setSlot_heap]
        exact hTask
      have hSame : (({ k with lastPid := pid } : Kernel).withChild nr (pageAddr i) (k.mm.takePage i) regs).current =
          0xb6e0#32 := (Kernel.withChild_current (pageAddr_ne_noPage hi) _).trans hCurrent
      rw [hCall, copyProcess_page hFound]
      have hUnaligned : 0x70000#32 &&& 0x3fffff#32 ≠ 0#32 := by decide
      refine error_bind (copyMem_unaligned ?_ ?_ ?_ hUnaligned) _
      · rw [hSame, hParent, hCode]
      · rw [hSame, hParent, hData]
      · rw [hSame, hParent]
        decide

/-- The first fork of task 0 on a machine of 16MB. -/
theorem smallKernel_child : ∃ ram pid k' nr, (1 ≤ nr ∧ nr < 64) ∧ pid.msb = false ∧
    ForkProvided ram (smallKernel 15360#16) ∧ sysFork ram zeroFrame (smallKernel 15360#16) = .ok (pid, k') ∧
      ForkMade 15360#16 0 nr zeroFrame { smallKernel 15360#16 with lastPid := pid } k' := by
  have hInv := (smallKernel_reaches 15360#16).inv
  have hNone := smallKernel_unoccupied 15360#16
  have hCurrent : (smallKernel 15360#16).current = 0x5000#32 := bootKernel_current _ _ _ _ _
  have hInit := smallKernel_heap 15360#16
  have hRam := smallKernel_ram 15360#16
  have hBig : 0x400000 < (memoryEnd 15360#16).toNat := by decide
  generalize (smallKernel 15360#16).ram = ram at hRam
  generalize smallKernel 15360#16 = k at *
  exact ⟨ram, hInv.firstChild hNone hBig hCurrent (bases_smallImage hCurrent hInit hRam.1 hRam.2) zeroFrame⟩

/-- A machine of 16MB after that fork. -/
theorem child_reaches : ∃ k, Reaches 15360#16 smallImage k 1 ∧ ∃ s, Occupied k s := by
  have hRun := smallKernel_reaches 15360#16
  have hCurrent : (smallKernel 15360#16).current = taskAddr smallImage (smallKernel 15360#16) 0 :=
    bootKernel_current _ _ _ _ _
  obtain ⟨ram, pid, k', nr, hNr, hPid, hProvided, hCall, hMade⟩ := smallKernel_child
  generalize smallKernel 15360#16 = k at hRun hCurrent hProvided hCall hMade
  have hSame : { k with current := taskAddr smallImage k 0 } = k := by rw [← hCurrent]
  have hFork := Reaches.fork hRun (Or.inl rfl) (by rw [hSame]; exact hProvided) (by rw [hSame]; exact hCall)
  rw [if_pos ⟨rfl, hPid⟩] at hFork
  obtain ⟨i, hi, _, hTask, _⟩ := hMade.page
  refine ⟨k', hFork, nr, hNr.1, hNr.2, ?_⟩
  rw [hTask, Function.update_self]
  exact pageAddr_ne_zero hi

end Linux011

import Linux011.Kernel.Identity
import Linux011.Kernel.TimeSharing
import Linux011.Kernel.WriteFault
import Mathlib.Combinatorics.Enumerative.DoubleCounting
import Mathlib.Data.Fintype.Option
import Mathlib.Data.Fintype.Prod

/-! How many tasks main memory carries: what a task can hold at most, and that forks and write
faults find the pages they need as long as there is room for that. -/
namespace Linux011

open I386 SharedRefs

/-- The pages from `main_memory_start` to `memory_end`. -/
def pool (extMemK : BitVec 16) : Finset Nat :=
  Finset.Ico (((mainMemoryStart extMemK).toNat - 0x100000) / 4096) (((memoryEnd extMemK).toNat - 0x100000) / 4096)

theorem mem_pool {extMemK : BitVec 16} {i : Nat} : i ∈ pool extMemK ↔ i < pagingPages ∧ baseCount extMemK i = 0 := by
  have hRange := memoryRange extMemK
  have hLow := hRange.low
  have hOrdered := hRange.ordered
  have hHigh := hRange.high
  have hStart := hRange.startAligned
  have hStop := hRange.stopAligned
  have hBase : baseCount extMemK i = 0 ↔ (mainMemoryStart extMemK).toNat ≤ 0x100000 + 4096 * i ∧
      0x100000 + 4096 * i < (memoryEnd extMemK).toNat := by
    unfold baseCount
    split_ifs with h
    · exact iff_of_true rfl h
    · exact iff_of_false (by decide) h
  rw [hBase, pool, Finset.mem_Ico, pagingPages_eq]
  omega

/-- The pool has the pages from the end of the buffers to the end of memory. -/
theorem pool_card (extMemK : BitVec 16) :
    (pool extMemK).card = ((memoryEnd extMemK).toNat - (mainMemoryStart extMemK).toNat) / 4096 := by
  have hRange := memoryRange extMemK
  have hLow := hRange.low
  have hStart := hRange.startAligned
  have hStop := hRange.stopAligned
  rw [pool, Nat.card_Ico]
  omega

/-- What one task can hold: its structure, and four page tables with 640KB each. -/
def taskPages : Nat := 1 + 4 * (1 + 0xa0)

/-- The occupied slots. -/
def Kernel.slots (k : Kernel) : Finset Nat := (Finset.range 64).filter fun s => k.task s ≠ 0#32

/-- Tasks use the first 640KB of each table only. -/
def Narrow (mm : Mm) : Prop := ∀ d n e, userDir d → mm.Maps d n e → n < 0xa0

/-- The references that slot `s` can hold. -/
def slotRef (s : Fin 64) : Option (Fin 4 × Option (Fin 0xa0)) → PageRef
  | none => .task s
  | some (i, none) => .table ⟨16 * s + i, by omega⟩
  | some (i, some n) => .entry ⟨16 * s + i, by omega⟩ ⟨n, by omega⟩

section

variable {extMemK : BitVec 16} {image : Image} {k k' : Kernel} {mm mm' : Mm} {p nr s : Nat} {regs : ForkFrame}

theorem Kernel.mem_slots : s ∈ k.slots ↔ s < 64 ∧ k.task s ≠ 0#32 := by
  simp [Kernel.slots]

theorem KernelInvariant.mem_slots (h : KernelInvariant extMemK image k) : s ∈ k.slots ↔ Occupied k s := by
  rw [Kernel.mem_slots]
  refine ⟨fun ⟨hLt, hTask⟩ => ⟨Nat.one_le_iff_ne_zero.mpr ?_, hLt, hTask⟩, fun hs => ⟨hs.lt, hs.task⟩⟩
  rintro rfl
  exact hTask h.slotZero

theorem Narrow.congr (h : Narrow mm) (hTables : SameTables mm mm') : Narrow mm' :=
  fun d n e hUser hMaps => h d n e hUser (hTables.maps.mp hMaps)

theorem Narrow.boot (m : ByteMemory.Memory) (heap : BitVec 32 → TaskStruct) (gdt : Nat → Desc) :
    Narrow (bootKernel extMemK image m heap gdt).mm := by
  intro d n e hUser hMaps
  have hKernel : KernelInvariant extMemK image (bootKernel extMemK image m heap gdt) :=
    KernelInvariant.boot m heap gdt
  exact absurd (bootKernel_task extMemK image m heap gdt _) ((hKernel.shape d hMaps.dir hUser).mp hMaps.table).1

/-- A write fault replaces an entry that is there. -/
theorem Narrow.fault {d n : Nat} {e : BitVec 32} (h : Narrow k.mm) (hKernel : KernelInvariant extMemK image k)
    (hUser : userDir d) (hMaps : k.mm.Maps d n e) (hResult : FaultResult k.mm d n e mm) : Narrow mm := by
  obtain ⟨v, _, _, _, hTables⟩ := hResult.tables hKernel.mm hUser hMaps
  intro a m x ha hNew
  rw [hTables.maps, hKernel.mm.dir.paged.maps_setPte hMaps.dir hMaps.table hMaps.index] at hNew
  rcases hNew with ⟨rfl, rfl, _⟩ | ⟨_, hOld⟩
  · exact h _ _ e hUser hMaps
  · exact h a m x ha hOld

/-- A fork gives the child narrow tables and leaves the others as they are. -/
theorem Narrow.forking (h : Narrow mm) (hFork : Forking p nr mm mm')
    (hChild : ∀ d n e, d / 16 = nr → mm'.Maps d n e → n < 0xa0) : Narrow mm' := by
  intro d n e hUser hMaps
  by_cases hSpace : d / 16 = nr
  · exact hChild d n e hSpace hMaps
  · obtain ⟨x, hOld, _⟩ := hFork.maps_back hSpace hMaps
    exact h d n x hUser hOld

/-- A child gets what its parent has, and from task 0 no more than 640KB of each table. -/
theorem Narrow.made (h : Narrow k.mm) (hMade : ForkMade extMemK p nr regs k k') : Narrow k'.mm := by
  have hApart := hMade.window.apart
  refine h.forking hMade.forking fun d n e hSpace hMaps => ?_
  rw [show d = 16 * nr + d % 16 by omega, hMade.window.mirror.entry (d % 16) (by omega)] at hMaps
  obtain ⟨⟨hCount, _⟩, x, hParent, _⟩ := hMaps
  by_cases hZero : p = 0
  · rwa [copyCount, if_pos hZero] at hCount
  · obtain ⟨y, hOld, _⟩ := hMade.forking.maps_back (by omega) hParent
    refine h _ n y ?_ hOld
    unfold userDir
    omega

/-- A fork by a task that has its pages. -/
theorem Narrow.fork (hNarrow : Narrow k.mm) {result : BitVec 32}
    (hResult : ForkResult extMemK p regs k result k') : Narrow k'.mm := by
  cases hResult with
  | noSlot _ _ => exact hNarrow
  | made _ _ _ made =>
      refine Narrow.made ?_ made
      exact hNarrow

/-- What a reference names belongs to an occupied slot. -/
theorem KernelInvariant.slotRef_of_named (h : KernelInvariant extMemK image k) (hNarrow : Narrow k.mm)
    {r : PageRef} {i : Nat} (hr : userRefs k.task k.mm r = some i) :
    ∃ s : Fin 64, s.val ∈ k.slots ∧ ∃ part, slotRef s part = r := by
  have hSlot {d : Fin 1024} (hUser : userDir d) (hTable : Present (k.mm.pde d)) :
      d.val / 16 < 64 ∧ d.val / 16 ∈ k.slots ∧ d.val % 16 < 4 := by
    obtain ⟨hTask, hWindow⟩ := (h.shape d d.isLt hUser).mp hTable
    have hLt : d.val / 16 < 64 := by omega
    exact ⟨hLt, Kernel.mem_slots.mpr ⟨hLt, hTask⟩, hWindow⟩
  cases r with
  | entry d n =>
      obtain ⟨hUser, e, hMaps, _⟩ := pageRefs_entry.mp hr
      obtain ⟨hLt, hMem, hWindow⟩ := hSlot hUser hMaps.table
      refine ⟨⟨d / 16, hLt⟩, hMem, some (⟨d % 16, hWindow⟩, some ⟨n, hNarrow d n e hUser hMaps⟩), ?_⟩
      refine congrArg (PageRef.entry · n) (Fin.ext ?_)
      exact Nat.div_add_mod d.val 16
  | table d =>
      obtain ⟨hUser, hTable, _⟩ := pageRefs_table.mp hr
      obtain ⟨hLt, hMem, hWindow⟩ := hSlot hUser hTable
      refine ⟨⟨d / 16, hLt⟩, hMem, some (⟨d % 16, hWindow⟩, none), ?_⟩
      exact congrArg PageRef.table (Fin.ext (Nat.div_add_mod d.val 16))
  | task s =>
      obtain ⟨_, hTask, _⟩ := pageRefs_task.mp hr
      exact ⟨s, Kernel.mem_slots.mpr ⟨s.isLt, hTask⟩, none, rfl⟩

/-- Every page of the pool is free, or belongs to a task. -/
theorem KernelInvariant.pool_le (h : KernelInvariant extMemK image k) (hNarrow : Narrow k.mm) :
    (pool extMemK).card ≤ k.mm.freePages.card + taskPages * k.slots.card := by
  classical
  have hTaken : (pool extMemK \ k.mm.freePages).card ≤
      ((Finset.univ.filter fun s : Fin 64 => s.val ∈ k.slots) ×ˢ
        (Finset.univ : Finset (Option (Fin 4 × Option (Fin 0xa0))))).card := by
    apply Finset.card_le_card_of_forall_subsingleton
      (fun i part => userRefs k.task k.mm (slotRef part.1 part.2) = some i)
    · intro i hi
      obtain ⟨hPool, hUsed⟩ := Finset.mem_sdiff.mp hi
      obtain ⟨hLt, hBase⟩ := mem_pool.mp hPool
      have hCount := h.mm.count_eq hLt
      have hNe : (k.mm.memMap i).toNat ≠ 0 := fun hZero =>
        hUsed (Mm.mem_freePages.mpr ⟨hLt, BitVec.eq_of_toNat_eq hZero⟩)
      have hNamed : ∃ r, userRefs k.task k.mm r = some i := by
        by_contra hNone
        have hZero := count_eq_zero fun r hr => hNone ⟨r, hr⟩
        omega
      obtain ⟨r, hr⟩ := hNamed
      obtain ⟨s, hs, part, rfl⟩ := h.slotRef_of_named hNarrow hr
      exact ⟨(s, part), by simpa using hs, hr⟩
    · intro part _ i hi j hj
      exact Option.some.inj (hi.2.symm.trans hj.2)
  have hSlots : (Finset.univ.filter fun s : Fin 64 => s.val ∈ k.slots).card ≤ k.slots.card :=
    Finset.card_le_card_of_injOn Fin.val (fun s hs => by simpa using hs) fun _ _ _ _ hSame => Fin.ext hSame
  have hParts : (Finset.univ : Finset (Option (Fin 4 × Option (Fin 0xa0)))).card = taskPages := by
    rw [Finset.card_univ, Fintype.card_option, Fintype.card_prod, Fintype.card_option, Fintype.card_fin,
      Fintype.card_fin]
    rfl
  rw [Finset.card_product, hParts, Nat.mul_comm] at hTaken
  have hSplit := Finset.card_le_card_sdiff_add_card (s := pool extMemK) (t := k.mm.freePages)
  have hBound := Nat.mul_le_mul_left taskPages hSlots
  omega

/-- With fewer than 63 tasks a slot is empty. -/
theorem KernelInvariant.emptySlot (h : KernelInvariant extMemK image k) (hFew : k.slots.card < 63) :
    ∃ nr, k.emptySlot = some nr := by
  cases hSlot : k.emptySlot with
  | some nr => exact ⟨nr, rfl⟩
  | none =>
      exfalso
      have hAll : Finset.Ico 1 64 ⊆ k.slots := by
        intro s hs
        obtain ⟨hPos, hLt⟩ := Finset.mem_Ico.mp hs
        exact h.mem_slots.mpr ⟨hPos, hLt, emptySlot_none hSlot s hPos hLt⟩
      have hCard := Finset.card_le_card hAll
      rw [Nat.card_Ico] at hCard
      omega

end

/-- What a tick leaves alone: of the task structures it changes counters and the segment of the task
at `p`. -/
structure Ticked (p : BitVec 32) (k k' : Kernel) : Prop where
  mm : k'.mm = k.mm
  task : k'.task = k.task
  lastPid : k'.lastPid = k.lastPid
  heap : ∀ q, ∃ tss counter, k'.heap q = { k.heap q with tss := tss, counter := counter }
  others : ∀ q, q ≠ p → (k'.heap q).tss = (k.heap q).tss

section

variable {text : Text} {extMemK : BitVec 16} {image : Image} {k k' : Kernel} {M : Machine} {P P' : Processor}
  {A : Nat → Option Context} {x y : Context} {past : List Seen} {p : BitVec 32}

namespace Ticked

theorem refl (p : BitVec 32) (k : Kernel) : Ticked p k k :=
  ⟨rfl, rfl, rfl, fun _ => ⟨_, _, rfl⟩, fun _ _ => rfl⟩

theorem trans {k'' : Kernel} (h : Ticked p k k') (h' : Ticked p k' k'') : Ticked p k k'' := by
  refine ⟨h'.mm.trans h.mm, h'.task.trans h.task, h'.lastPid.trans h.lastPid, fun q => ?_,
    fun q hq => (h'.others q hq).trans (h.others q hq)⟩
  obtain ⟨tss, counter, hHeap⟩ := h.heap q
  obtain ⟨tss', counter', hHeap'⟩ := h'.heap q
  exact ⟨tss', counter', by rw [hHeap', hHeap]⟩

theorem of_charged (h : Charged k k') : Ticked p k k' := by
  refine ⟨h.rescheduled.mm, h.rescheduled.task, h.lastPid, fun q => ?_, fun q _ => h.tss q⟩
  obtain ⟨counter, hHeap⟩ := h.heap q
  exact ⟨_, counter, hHeap⟩

theorem switchTo (n : Nat) (M : Machine) : Ticked p M.kernel (switchTo n M).kernel := by
  rw [Linux011.switchTo]
  split_ifs
  · exact refl p _
  · exact ⟨rfl, rfl, rfl, fun _ => ⟨_, _, rfl⟩, fun _ _ => rfl⟩

theorem setGdt {n : Nat} {desc : Desc} (h : Ticked p k k') : Ticked p k (k'.setGdt n desc) :=
  ⟨h.mm, h.task, h.lastPid, h.heap, h.others⟩

theorem setTss (k : Kernel) (p : BitVec 32) (tss : Tss) :
    Ticked p k (k.setTask p { k.heap p with tss := tss }) := by
  refine ⟨rfl, rfl, rfl, fun q => ?_, fun q hq => ?_⟩
  · by_cases hSame : q = p
    · subst q
      exact ⟨_, _, Function.update_self ..⟩
    · exact ⟨_, _, Function.update_of_ne hSame ..⟩
  · exact congrArg TaskStruct.tss (Function.update_of_ne hq ..)

theorem ljmp {n : Nat} (hCall : P.ljmp n = .ok P') : Ticked P.running P.kernel P'.kernel := by
  rw [Processor.ljmp] at hCall
  split_ifs at hCall
  split at hCall
  · cases hCall
  obtain rfl := Except.ok.inj hCall
  exact (setTss P.kernel P.running _).setGdt.setGdt

/-- A task switch changes the saved registers of the task that gives the processor away. -/
theorem giveAway {c : Cpu} (hGdt : M.kernel.gdt = P.kernel.gdt) (hCall : text.giveAway M c P = .ok P') :
    Ticked P.running M.kernel P'.kernel := by
  rw [Text.giveAway] at hCall
  cases hJump : ({ P with
      kernel := M.kernel
      context := text.suspended c
      stack := Function.update P.stack P.running c.stack } : Processor).ljmp M.tr with
  | error fault =>
      rw [hJump] at hCall
      cases hCall
  | ok Q =>
      rw [hJump] at hCall
      obtain rfl := Except.ok.inj hCall
      have hSwitched := Ticked.ljmp hJump
      rw [Processor.running, hGdt] at hSwitched
      exact hSwitched

end Ticked

/-- A tick changes counters and `current` only. -/
theorem SchedInvariant.doTimer_ticked (h : SchedInvariant extMemK image M) {cpl : BitVec 32} {M' : Machine}
    (hCall : doTimer cpl M = .ok M') : Ticked p M.kernel M'.kernel ∧ M'.kernel.gdt = M.kernel.gdt := by
  have hSpent : Charged M.kernel M.spent := Charged.setCounter (by decide)
  have hSwitch (n : Nat) (M : Machine) : (switchTo n M).kernel.gdt = M.kernel.gdt := by
    rw [switchTo]
    split_ifs <;> rfl
  rcases h.doTimer_cases cpl with ⟨_, k, hCharged, hRun⟩ | ⟨_, _, ⟨_, hRun⟩ | ⟨next, k, hCharged, _, hRun⟩⟩ <;>
    obtain rfl := Except.ok.inj (hCall.symm.trans hRun)
  · exact ⟨Ticked.of_charged hCharged, hCharged.gdt⟩
  · exact ⟨(Ticked.of_charged hSpent).trans (Ticked.switchTo 0 ⟨M.spent, M.tr⟩), (hSwitch 0 _).trans hSpent.gdt⟩
  · exact ⟨(Ticked.of_charged hCharged).trans (Ticked.switchTo next ⟨k, M.tr⟩), (hSwitch next _).trans hCharged.gdt⟩

/-- So does a tick with its task switch, the registers that it saves apart. -/
theorem Sharing.ticked (h : Sharing text extMemK image P A) (hCall : text.tick P = .ok P') :
    Ticked P.kernel.current P.kernel P'.kernel := by
  have hRunning := h.running_eq
  rw [Text.tick] at hCall
  split at hCall
  · cases hCall
  · next M hTimer =>
      obtain ⟨hTicked, hGdt⟩ := h.sched.doTimer_ticked (p := P.kernel.current) hTimer
      split_ifs at hCall
      · obtain rfl := Except.ok.inj hCall
        exact hTicked
      · have hAway := Ticked.giveAway hGdt hCall
        rw [hRunning] at hAway
        exact hTicked.trans hAway

/-- A fork that finds a slot and has what it needs. -/
theorem Sharing.fork_room (h : Sharing text extMemK image P A) (env : Surroundings)
    (hEax : P.context.reg .eax = 2#32) {nr : Nat} (hSlot : P.kernel.emptySlot = some nr)
    (hProvided : Provided env.ram P.kernel) :
    ∃ pid k', findPid P.kernel (nrTasks + 1) P.kernel.lastPid = .ok pid ∧
      ForkMade extMemK P.tr nr (forkFrame env (P.kernel.heap P.kernel.current).tss.esp0 P.context)
        { P.kernel with lastPid := pid } k' ∧
      int80 env P.context P.kernel = .ok (returning P.context pid, k') ∧ started P.kernel k' = some nr := by
  obtain ⟨pid, hPid⟩ := findPid_terminates P.kernel P.kernel.lastPid
  obtain ⟨hPos, hLt, hEmpty⟩ := emptySlot_some hSlot
  have hLive : Live P.kernel P.tr := h.sched.live
  have hCurrent : P.kernel.current = taskAddr image P.kernel P.tr := h.sched.current
  have hKernel : KernelInvariant extMemK image P.kernel := h.sched.kernel
  obtain ⟨k', hMade, hCall⟩ := (hKernel.set_lastPid pid).copyProcess
    (forkFrame env (P.kernel.heap P.kernel.current).tss.esp0 P.context) hCurrent
    (hLive.imp_right fun hs => ⟨hs.pos, hs.lt, hs.task⟩) ⟨hPos, hLt⟩ hEmpty
    ⟨⟨hProvided.code, hProvided.data⟩, hProvided.pages⟩
  obtain ⟨i, hi, _, hTask, _⟩ := hMade.page
  refine ⟨pid, k', hPid, hMade, ?_, started_some hLt hEmpty hTask (pageAddr_ne_zero hi)⟩
  rw [int80_fork env P.context P.kernel hEax, sysFork_slot hLt (findEmptyProcess_slot hPid hSlot), hCall]

theorem bootProcessor_mm (k : Kernel) (x : Context) (stack : BitVec 32 → Stream' (BitVec 16)) :
    (bootProcessor k x stack).kernel.mm = k.mm := rfl

/-- The tables of the children are narrow in every run. -/
theorem Shared.narrow (run : Shared text extMemK image x P past) : Narrow P.kernel.mm := by
  induction run with
  | boot m heap gdt stack table ring =>
      rw [bootProcessor_mm]
      exact Narrow.boot m heap gdt
  | own _ _ _ ih => exact ih
  | store prior live inside writable v ih =>
      have hKernel := prior.sharing.sched.kernel
      exact ih.congr (hKernel.mm.sameTables_storeByte (hKernel.user_of_inSegment live inside) writable.maps
        writable.writable _ v)
  | fault prior live inside maps readOnly free call ih =>
      have hKernel := prior.sharing.sched.kernel
      exact ih.fault hKernel (hKernel.user_of_inSegment live inside) maps
        (hKernel.faultResult live inside maps free call)
  | interrupt _ _ _ ih => exact ih
  | tick prior call ih =>
      rw [(prior.sharing.ticked call).mm]
      exact ih
  | kernelTick prior call ih =>
      rw [(prior.sharing.sched.doTimer_ticked (p := 0#32) call).1.mm]
      exact ih
  | fork prior eax provided call ih =>
      obtain ⟨_, _, _, hResult⟩ := prior.sharing.forkResult eax provided call
      exact ih.fork hResult

theorem PidInvariant.ticked (h : PidInvariant k) (hTicked : Ticked p k k') : PidInvariant k' := by
  have hPid (s : Nat) : (k'.heap (k'.task s)).pid = (k.heap (k.task s)).pid := by
    obtain ⟨_, _, hHeap⟩ := hTicked.heap (k.task s)
    rw [hTicked.task, hHeap]
  have hOld {s : Nat} (hs : Occupied k' s) : Occupied k s := ⟨hs.pos, hs.lt, hTicked.task ▸ hs.task⟩
  refine ⟨by rw [hTicked.lastPid]; exact h.last, fun s hs => ?_, fun s s' hs hs' hSame => ?_⟩
  · rw [hPid]
    exact h.pos s (hOld hs)
  · rw [hPid, hPid] at hSame
    exact h.distinct s s' (hOld hs) (hOld hs') hSame

/-- A fork gives the child a pid of its own. -/
theorem PidInvariant.fork (h : PidInvariant k) (hKernel : KernelInvariant extMemK image k) {p : Nat}
    {regs : ForkFrame} {result : BitVec 32} (hResult : ForkResult extMemK p regs k result k') :
    PidInvariant k' := by
  cases hResult with
  | noSlot search _ => exact h.congr rfl (fun _ _ => rfl) (findPid_lt search)
  | made search _ _ made => exact h.made hKernel search made

theorem PidInvariant.boot (m : ByteMemory.Memory) (heap : BitVec 32 → TaskStruct) (gdt : Nat → Desc) :
    PidInvariant (bootKernel extMemK image m heap gdt) := by
  have hNone (s : Nat) (hs : Occupied (bootKernel extMemK image m heap gdt) s) : False :=
    hs.task (bootKernel_task extMemK image m heap gdt s)
  refine ⟨?_, fun s hs => (hNone s hs).elim, fun s _ hs => (hNone s hs).elim⟩
  rw [bootKernel_lastPid]
  decide

/-- What holds of the kernel behind `sched_init`, and is kept by ticks and forks and by every change
of memory, holds in every run. -/
theorem Shared.kernel_induction {Q : Kernel → Prop} (run : Shared text extMemK image x P past)
    (hBoot : ∀ m heap gdt stack, (∀ i < 256, gdt i = headGdt i) →
      Q (bootProcessor (bootKernel extMemK image m heap gdt) x stack).kernel)
    (hMm : ∀ k mm, Q k → Q { k with mm := mm }) (hTick : ∀ k k' p, Ticked p k k' → Q k → Q k')
    (hFork : ∀ k k' p regs result, KernelInvariant extMemK image k → Live k p → k.current = taskAddr image k p →
      ForkResult extMemK p regs k result k' → Q k → Q k') : Q P.kernel := by
  induction run with
  | boot m heap gdt stack table ring => exact hBoot m heap gdt stack table
  | own _ _ _ ih => exact ih
  | store _ _ _ _ _ ih => exact hMm _ _ ih
  | fault _ _ _ _ _ _ _ ih => exact hMm _ _ ih
  | interrupt _ _ _ ih => exact ih
  | tick prior call ih => exact hTick _ _ _ (prior.sharing.ticked call) ih
  | kernelTick prior call ih => exact hTick _ _ 0#32 (prior.sharing.sched.doTimer_ticked call).1 ih
  | fork prior eax provided call ih =>
      obtain ⟨_, _, _, hResult⟩ := prior.sharing.forkResult eax provided call
      exact hFork _ _ _ _ _ prior.sharing.sched.kernel prior.sharing.sched.live prior.sharing.sched.current hResult ih

theorem PidInvariant.processor (h : PidInvariant k) (stack : BitVec 32 → Stream' (BitVec 16)) :
    PidInvariant (bootProcessor k x stack).kernel :=
  h.congr rfl (fun _ _ => rfl) h.last

/-- The pids are positive and different in every run. -/
theorem Shared.pids (run : Shared text extMemK image x P past) : PidInvariant P.kernel :=
  run.kernel_induction (fun m heap gdt stack _ => (PidInvariant.boot m heap gdt).processor stack)
    (fun _ _ h => h.congr rfl (fun _ _ => rfl) h.last) (fun _ _ _ hTicked h => h.ticked hTicked)
    fun _ _ _ _ _ hKernel _ _ hResult h => h.fork hKernel hResult

theorem slots_made {p nr : Nat} {regs : ForkFrame} {pid : BitVec 32} (hNr : nr < 64)
    (hMade : ForkMade extMemK p nr regs { k with lastPid := pid } k') : k'.slots = insert nr k.slots := by
  obtain ⟨i, hi, _, hTask, _⟩ := hMade.page
  ext s
  rw [Finset.mem_insert, Kernel.mem_slots, Kernel.mem_slots, hTask]
  by_cases hSame : s = nr
  · rw [hSame, Function.update_self]
    exact iff_of_true ⟨hNr, pageAddr_ne_zero hi⟩ (Or.inl rfl)
  · rw [Function.update_of_ne hSame]
    exact ⟨Or.inr, fun h => h.resolve_left hSame⟩

/-- A page of the pool is free, or one of those that the tasks hold. -/
theorem Shared.pool_le (run : Shared text extMemK image x P past) :
    (pool extMemK).card ≤ P.kernel.mm.freePages.card + taskPages * P.kernel.slots.card :=
  KernelInvariant.pool_le run.sharing.sched.kernel run.narrow

/-- In every run a page of the pool is free or one of the 645 that a task can hold. So with 645
pages for each task every write fault is handled, and with as many for one more every fork that
reads its bases right starts a task. -/
theorem memory_carries_tasks (run : Shared text extMemK image x P past) :
    (pool extMemK).card ≤ P.kernel.mm.freePages.card + taskPages * P.kernel.slots.card ∧
      (taskPages * P.kernel.slots.card < (pool extMemK).card → ∀ address e, Occupied P.kernel P.tr →
        InSegment P.kernel P.tr address → P.kernel.mm.Maps (dirIndex address) (tableIndex address) e →
        ∃ mm v, doWpPage P.kernel.mm address = .ok mm ∧
          Served P.kernel.mm (dirIndex address) (tableIndex address) e v mm) ∧
      (taskPages * (P.kernel.slots.card + 1) ≤ (pool extMemK).card → P.kernel.slots.card < 63 →
        P.context.reg .eax = 2#32 → ∀ env, BasesRead env.ram P.kernel → ∃ pid k' nr,
          int80 env P.context P.kernel = .ok (returning P.context pid, k') ∧ 0 < pid.toInt ∧
          started P.kernel k' = some nr ∧ nr ∉ P.kernel.slots ∧ k'.slots = insert nr P.kernel.slots) := by
  have h := run.sharing
  have hKernel : KernelInvariant extMemK image P.kernel := h.sched.kernel
  have hPool := run.pool_le
  refine ⟨hPool, fun hRoom address e hs hInside hMaps => ?_, fun hRoom hFew hEax env hBases => ?_⟩
  · have hUser := hKernel.user_of_inSegment hs hInside
    have hAddress : taskSize ≤ address := by
      rw [BitVec.le_def, show taskSize.toNat = 0x4000000 by decide]
      unfold userDir dirIndex at hUser
      omega
    obtain ⟨i, hi⟩ := Finset.card_pos.mp (show 0 < P.kernel.mm.freePages.card by omega)
    obtain ⟨mm, hResult, hRun⟩ := hKernel.mm.doWpPage hAddress hMaps ⟨i, Mm.mem_freePages.mp hi⟩
    cases hResult with
    | grant low one => exact ⟨_, _, hRun, hKernel.mm.served_grant hUser hMaps low one⟩
    | copy index free shared => exact ⟨_, _, hRun, hKernel.mm.served_copy hUser hMaps index free shared⟩
  · have hEnough : 5 ≤ P.kernel.mm.freePages.card := by
      unfold taskPages at hRoom hPool
      omega
    obtain ⟨nr, hSlot⟩ := hKernel.emptySlot hFew
    obtain ⟨_, hLt, hEmpty⟩ := emptySlot_some hSlot
    obtain ⟨pid, k', hPid, hMade, hCall, hStarted⟩ := h.fork_room env hEax hSlot ⟨hBases, hEnough⟩
    have hSlots : k'.slots = insert nr P.kernel.slots := slots_made hLt hMade
    refine ⟨pid, k', nr, hCall, ?_, hStarted, fun hMem => (Kernel.mem_slots.mp hMem).2 hEmpty, hSlots⟩
    have hOne := findPid_pos hPid run.pids.next
    omega

end

/-- A machine of 16MB has 3072 pages for tasks. -/
theorem pool_card_16MB : (pool 15360#16).card = 3072 := by
  rw [pool_card, show (memoryEnd 15360#16).toNat = 0x1000000 by decide,
    show (mainMemoryStart 15360#16).toNat = 0x400000 by decide]

theorem shipped_slots (extMemK : BitVec 16) : (shippedProcessor extMemK).kernel.slots.card = 0 := by
  rw [Finset.card_eq_zero, Finset.eq_empty_iff_forall_notMem]
  intro s hs
  have hSlot := (shippedProcessor_shared extMemK).sharing.sched.kernel.mem_slots.mp hs
  exact bootProcessor_alone _ _ _ _ s hSlot

theorem memory_carries_tasks_boot :
    ∃ pid k' nr, int80 someSurroundings forkingContext (shippedProcessor 15360#16).kernel =
        .ok (returning forkingContext pid, k') ∧ 0 < pid.toInt ∧ nr ∈ k'.slots := by
  obtain ⟨_, _, hFork⟩ := memory_carries_tasks (shippedProcessor_shared 15360#16)
  rw [shipped_slots, pool_card_16MB] at hFork
  obtain ⟨hCurrent, hInit⟩ := shippedProcessor_init 15360#16
  obtain ⟨pid, k', nr, hCall, hPid, _, _, hSlots⟩ := hFork (by decide) (by decide) rfl someSurroundings
    (bases_smallImage hCurrent hInit rfl rfl)
  exact ⟨pid, k', nr, hCall, hPid, by rw [hSlots]; exact Finset.mem_insert_self ..⟩

end Linux011

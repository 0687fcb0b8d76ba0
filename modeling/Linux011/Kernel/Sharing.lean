import Linux011.Kernel.Descriptors
import Linux011.Kernel.TaskSwitch

/-! The invariant of time sharing: where each task goes on, and what a tick, a task switch and a
fork do to that. -/
namespace Linux011

open I386 SubRegisters

/-- Only counters differ. -/
structure Charged (k k' : Kernel) : Prop where
  rescheduled : Rescheduled k k'
  gdt : k'.gdt = k.gdt
  lastPid : k'.lastPid = k.lastPid
  heap : ∀ p, ∃ counter, k'.heap p = { k.heap p with counter := counter }

section

variable {extMemK : BitVec 16} {image : Image} {k k' : Kernel} {M : Machine} {s : Nat} {cpl : BitVec 32}

namespace Charged

theorem setCounter {p counter : BitVec 32} (hCounter : 0 ≤ counter.toInt) : Charged k (k.setCounter p counter) := by
  refine ⟨Rescheduled.setCounter hCounter, rfl, rfl, fun q => ?_⟩
  by_cases hSame : q = p
  · subst q
    exact ⟨counter, Function.update_self ..⟩
  · exact ⟨_, Function.update_of_ne hSame ..⟩

theorem refilled (k : Kernel) : Charged k k.refilled := by
  classical
  have hFrame := refill_frame (nrTasks - 1) k
  rw [← Kernel.refilled] at hFrame
  obtain ⟨_, _, _, hPid, hGdt⟩ := hFrame
  refine ⟨Rescheduled.refilled k, hGdt, hPid, fun p => ?_⟩
  · rw [refilled_heap]
    split_ifs
    · exact ⟨_, rfl⟩
    · exact ⟨_, rfl⟩

theorem trans {k'' : Kernel} (h : Charged k k') (h' : Charged k' k'') : Charged k k'' := by
  refine ⟨h.rescheduled.trans h'.rescheduled, h'.gdt.trans h.gdt, h'.lastPid.trans h.lastPid, fun p => ?_⟩
  obtain ⟨counter, hHeap⟩ := h.heap p
  obtain ⟨counter', hHeap'⟩ := h'.heap p
  exact ⟨counter', by rw [hHeap', hHeap]⟩

theorem tss (h : Charged k k') (p : BitVec 32) : (k'.heap p).tss = (k.heap p).tss := by
  obtain ⟨_, hHeap⟩ := h.heap p
  rw [hHeap]

theorem state (h : Charged k k') (p : BitVec 32) : (k'.heap p).state = (k.heap p).state := by
  obtain ⟨_, hHeap⟩ := h.heap p
  rw [hHeap]

end Charged

theorem Machine.charged (hLeft : ¬M.UsedUp) :
    Charged M.kernel (M.kernel.setCounter M.kernel.current ((M.kernel.heap M.kernel.current).counter - 1#32)) := by
  apply Charged.setCounter
  have hMore : BitVec.slt 0#32 ((M.kernel.heap M.kernel.current).counter - 1#32) = true := by
    simpa [Machine.UsedUp] using hLeft
  rw [BitVec.slt_eq_decide, decide_eq_true_eq] at hMore
  exact hMore.le

/-- Counters are charged and refilled. Beyond that a tick in ring 3 that uses up a quantum
switches to an occupied slot, or to slot 0 where no task is in state `TASK_RUNNING`. -/
theorem SchedInvariant.doTimer_cases (h : SchedInvariant extMemK image M) (cpl : BitVec 32) :
    ((¬M.UsedUp ∨ cpl = 0#32) ∧ ∃ k, Charged M.kernel k ∧ doTimer cpl M = .ok ⟨k, M.tr⟩) ∨
      (M.UsedUp ∧ cpl ≠ 0#32 ∧
        ((∀ s, ¬Runnable M.spent s) ∧ doTimer cpl M = .ok (switchTo 0 ⟨M.spent, M.tr⟩) ∨
          ∃ next k, Charged M.kernel k ∧ Runnable M.kernel next ∧
            doTimer cpl M = .ok (switchTo next ⟨k, M.tr⟩))) := by
  have hSpent : Charged M.kernel M.spent := Charged.setCounter (by decide)
  by_cases hUsed : M.UsedUp
  · by_cases hKernel : cpl = 0#32
    · subst cpl
      exact Or.inl ⟨Or.inr rfl, _, hSpent, doTimer_kernel hUsed⟩
    · refine Or.inr ⟨hUsed, hKernel, ?_⟩
      have hRunnable {s : Nat} (hs : Runnable M.spent s) : Runnable M.kernel s := by
        refine ⟨⟨hs.1.pos, hs.1.lt, hs.1.task⟩, ?_⟩
        exact (hSpent.state _).symm.trans hs.2
      have hCounter (s : Nat) (hs : Runnable M.spent s) : 0 ≤ counterOf M.spent s := by
        have hNow := h.spent.counter s (Or.inr hs.1)
        rwa [hs.1.taskAddr] at hNow
      have hQuantum (s : Nat) (hs : Runnable M.spent s) : 0 < quantumOf M.spent s := by
        have hPriority := h.spent.priority s (Or.inr hs.1)
        rw [hs.1.taskAddr] at hPriority
        rw [quantumOf, hPriority]
        decide
      have hCall {next : Nat} {k : Kernel} (hPick : pickNext 2 M.spent = .ok (next, k)) :
          doTimer cpl M = .ok (switchTo next ⟨k, M.tr⟩) := by
        rw [doTimer_usedUp hUsed hKernel, Linux011.schedule, hPick]
        rfl
      rcases pickNext_cases hCounter hQuantum with ⟨hNone, hPick⟩ | ⟨s, hs, _, hPick⟩ | ⟨_, _, s, hs, hPick⟩
      · exact Or.inl ⟨hNone, hCall hPick⟩
      · exact Or.inr ⟨s, _, hSpent, hRunnable hs.runnable, hCall hPick⟩
      · exact Or.inr ⟨s, _, hSpent.trans (Charged.refilled _), hRunnable (runnable_refilled.mp hs.runnable),
          hCall hPick⟩
  · exact Or.inl ⟨Or.inl hUsed, _, Machine.charged hUsed, doTimer_charged hUsed⟩

end

/-- The descriptors of every task lead to its task structure; the segment of slot `tr` is busy. -/
structure Described (image : Image) (k : Kernel) (tr : Nat) : Prop where
  tss : ∀ s, Live k s → k.gdt (tssEntry s) =
    tssldtDesc (tssAddr (taskAddr image k s)) (if s = tr then 0x8b#8 else 0x89#8)
  ldt : ∀ s, Live k s → k.gdt (ldtEntry s) = ldtDesc (ldtAddr (taskAddr image k s))
  selector : ∀ s, Live k s → (k.heap (taskAddr image k s)).tss.ldt = ldtSelector s
  cr3 : ∀ s, Live k s → (k.heap (taskAddr image k s)).tss.cr3 = 0#32

/-- What a task switch to a task loads: it was interrupted in ring 3 or is about to start there. -/
def Saved (x : Context) : Prop := UserSegments x ∨ KernelSegments x

/-- Where a task that does not run goes on. -/
def Text.waiting (text : Text) (P : Processor) (p : BitVec 32) : Context :=
  text.resume (P.kernel.heap p).tss.context (P.stack p)

/-- `A` holds what the tasks on processors of their own would have. -/
structure Sharing (text : Text) (extMemK : BitVec 16) (image : Image) (P : Processor) (A : Nat → Option Context) :
    Prop where
  sched : SchedInvariant extMemK image P.toMachine
  awake : ∀ s, Live P.kernel s → (P.kernel.heap (taskAddr image P.kernel s)).state = taskRunning
  described : Described image P.kernel P.tr
  global : GlobalTable P.kernel.gdt
  locals : LocalTables image P.kernel
  ldtr : P.ldtr = ldtSelector P.tr
  cr3 : P.cr3 = 0#32
  saved : ∀ s, Live P.kernel s → s ≠ P.tr → Saved (P.kernel.heap (taskAddr image P.kernel s)).tss.context
  dead : ∀ s, ¬Live P.kernel s → A s = none
  here : A P.tr = some P.context
  waiting : ∀ s, Live P.kernel s → s ≠ P.tr → A s = some (text.waiting P (taskAddr image P.kernel s))
  user : ∀ s y, A s = some y → UserSegments y

/-- Neither the table nor the descriptors change, and of the task structures only counters. -/
structure SameTasks (image : Image) (k k' : Kernel) : Prop where
  task : k'.task = k.task
  gdt : k'.gdt = k.gdt
  heap : ∀ s, Live k s → ∃ counter,
    k'.heap (taskAddr image k s) = { k.heap (taskAddr image k s) with counter := counter }

section

variable {text : Text} {extMemK : BitVec 16} {image : Image} {k k' : Kernel} {P : Processor} {M : Machine}
  {A : Nat → Option Context} {s s' : Nat} {y : Context} {mm : Mm}

theorem live_congr (hTask : k'.task = k.task) : Live k' s ↔ Live k s := by
  unfold Live
  refine or_congr_right ⟨fun hs => ⟨hs.pos, hs.lt, ?_⟩, fun hs => ⟨hs.pos, hs.lt, ?_⟩⟩
  · rw [← hTask]
    exact hs.task
  · rw [hTask]
    exact hs.task

theorem taskAddr_congr (hTask : k'.task = k.task) : taskAddr image k' s = taskAddr image k s := by
  rw [taskAddr, taskAddr, hTask]

theorem KernelInvariant.taskAddr_inj (h : KernelInvariant extMemK image k) (hs : Live k s) (hs' : Live k s')
    (hSame : taskAddr image k s = taskAddr image k s') : s = s' := by
  have hBase : taskBase s = taskBase s' := by
    rw [← (h.segments_live hs).dataBase, hSame, (h.segments_live hs').dataBase]
  have hNat := congrArg BitVec.toNat hBase
  rw [taskBase_toNat hs.lt, taskBase_toNat hs'.lt] at hNat
  omega

theorem SameTasks.of_heap (hTask : k'.task = k.task) (hGdt : k'.gdt = k.gdt) (hHeap : k'.heap = k.heap) :
    SameTasks image k k' :=
  ⟨hTask, hGdt, fun _ _ => ⟨_, by rw [hHeap]⟩⟩

theorem SameTasks.tss (h : SameTasks image k k') (hs : Live k s) :
    (k'.heap (taskAddr image k s)).tss = (k.heap (taskAddr image k s)).tss := by
  obtain ⟨_, hHeap⟩ := h.heap s hs
  rw [hHeap]

theorem SameTasks.state (h : SameTasks image k k') (hs : Live k s) :
    (k'.heap (taskAddr image k s)).state = (k.heap (taskAddr image k s)).state := by
  obtain ⟨_, hHeap⟩ := h.heap s hs
  rw [hHeap]

theorem Charged.sameTasks (h : Charged k k') : SameTasks image k k' :=
  ⟨h.rescheduled.task, h.gdt, fun _ _ => h.heap _⟩

theorem SchedInvariant.set_mm (h : SchedInvariant extMemK image M)
    (hKernel : KernelInvariant extMemK image { M.kernel with mm := mm }) :
    SchedInvariant extMemK image ⟨{ M.kernel with mm := mm }, M.tr⟩ :=
  have hLive {s : Nat} : Live { M.kernel with mm := mm } s ↔ Live M.kernel s := live_congr rfl
  ⟨⟨h.slotZero, hLive.mpr h.live, h.current, fun s hs => h.counter s (hLive.mp hs),
    fun s hs => h.priority s (hLive.mp hs)⟩, hKernel⟩

/-- Segments change, and nothing else in the task structures. -/
theorem SchedInvariant.congr_tss {tr : Nat} (h : SchedInvariant extMemK image ⟨k, tr⟩) (hMm : k'.mm = k.mm)
    (hTask : k'.task = k.task) (hCurrent : k'.current = k.current)
    (hHeap : ∀ p, ∃ tss, k'.heap p = { k.heap p with tss := tss }) : SchedInvariant extMemK image ⟨k', tr⟩ := by
  have hLive {s : Nat} : Live k' s ↔ Live k s := live_congr hTask
  have hSegments {s : Nat} {p : BitVec 32} (hs : Segments s (k.heap p)) : Segments s (k'.heap p) := by
    obtain ⟨_, hp⟩ := hHeap p
    rw [hp]
    exact ⟨hs.codeBase, hs.dataBase, hs.codeLimit, hs.dataLimit⟩
  have hKernel : KernelInvariant extMemK image k' := by
    have hOld := h.kernel
    dsimp only at hOld
    refine ⟨?_, ?_, ?_, hSegments hOld.init, fun s hs => ?_, ?_⟩
    · rw [hTask, hMm]
      exact hOld.mm
    · rw [hTask]
      exact hOld.slotZero
    · rw [hTask, hMm]
      exact hOld.shape
    · rw [hTask]
      exact hSegments (hOld.segments s ⟨hs.pos, hs.lt, hTask ▸ hs.task⟩)
    · rintro ⟨s, hs⟩
      rw [hMm]
      exact hOld.windows ⟨s, hs.pos, hs.lt, hTask ▸ hs.task⟩
  refine ⟨⟨hKernel.slotZero, hLive.mpr h.live, ?_, fun s hs => ?_, fun s hs => ?_⟩, hKernel⟩
  · dsimp only
    rw [hCurrent, taskAddr_congr hTask]
    exact h.current
  · obtain ⟨_, hp⟩ := hHeap (taskAddr image k s)
    dsimp only
    rw [taskAddr_congr hTask, hp]
    exact h.counter s (hLive.mp hs)
  · obtain ⟨_, hp⟩ := hHeap (taskAddr image k s)
    dsimp only
    rw [taskAddr_congr hTask, hp]
    exact h.priority s (hLive.mp hs)

theorem SchedInvariant.setGdt {tr : Nat} (h : SchedInvariant extMemK image ⟨k, tr⟩) (i : Nat) (desc : Desc) :
    SchedInvariant extMemK image ⟨k.setGdt i desc, tr⟩ :=
  h.congr_tss rfl rfl rfl fun p => ⟨(k.heap p).tss, rfl⟩

/-- A task switch moves the busy bit. -/
theorem Described.switched {tr : Nat} (h : Described image k tr) (next : Nat) (z : Context) (p : BitVec 32) :
    Described image (({ k with current := p } : Kernel).switched z (taskAddr image k tr) (taskAddr image k next)
      tr next) next := by
  generalize hNow : ({ k with current := p } : Kernel).switched z (taskAddr image k tr) (taskAddr image k next)
    tr next = k'
  have hTable : k'.task = k.task := by
    rw [← hNow]
    rfl
  have hAddr {s : Nat} : taskAddr image k' s = taskAddr image k s := taskAddr_congr hTable
  have hBack {s : Nat} (hs : Live k' s) : Live k s := (live_congr hTable).mp hs
  have hStatic (q : BitVec 32) :
      (k'.heap q).tss.ldt = (k.heap q).tss.ldt ∧ (k'.heap q).tss.cr3 = (k.heap q).tss.cr3 := by
    rw [← hNow, switched_heap]
    dsimp only
    split_ifs
    · exact ⟨rfl, rfl⟩
    · exact ⟨rfl, rfl⟩
  refine ⟨fun s hs => ?_, fun s hs => ?_, fun s hs => ?_, fun s hs => ?_⟩
  · rw [← hNow, switched_tss, hNow, hAddr]
    by_cases hThis : s = next
    · rw [if_pos hThis, if_pos hThis, hThis]
    · rw [if_neg hThis, if_neg hThis]
      by_cases hThat : s = tr
      · rw [if_pos hThat, hThat]
        rfl
      · have hDesc := h.tss s (hBack hs)
        rw [if_neg hThat] at hDesc
        rw [if_neg hThat]
        exact hDesc
  · rw [hAddr, ← hNow, switched_ldt]
    exact h.ldt s (hBack hs)
  · rw [hAddr, (hStatic _).1]
    exact h.selector s (hBack hs)
  · rw [hAddr, (hStatic _).2]
    exact h.cr3 s (hBack hs)

theorem setBase_setBase (desc : Desc) (base base' : BitVec 32) :
    setBase (setBase desc base) base' = setBase desc base' := by
  have hLow : (setBase desc base).a.extractLsb' 0 16 = desc.a.extractLsb' 0 16 :=
    (extract_append_low _ _ 0 16 (by decide)).trans (extract_self _)
  have hMiddle : (setBase desc base).b.extractLsb' 8 16 = desc.b.extractLsb' 8 16 := by
    refine (extract_append_high _ (base.extractLsb' 16 8) 0 16).trans ?_
    exact (extract_append_low _ _ 0 16 (by decide)).trans (extract_self _)
  rw [setBase, hLow, hMiddle, ← setBase]

theorem GlobalTable.update {gdt : Nat → Desc} (h : GlobalTable gdt) {i : Nat} {desc : Desc} (hi : 4 ≤ i)
    (hKind : desc.type.getLsbD 4 = false) : GlobalTable (Function.update gdt i desc) := by
  refine ⟨fun j hj hj' => ?_, fun j hj hj' => ?_⟩
  · rw [Function.update_of_ne (by omega)]
    exact h.head j hj hj'
  · by_cases hSame : j = i
    · rw [hSame, Function.update_self]
      exact hKind
    · rw [Function.update_of_ne hSame]
      exact h.system j hj hj'

theorem system_tssldtDesc (addr : BitVec 32) {type : BitVec 8} (hKind : type.getLsbD 4 = false) :
    (tssldtDesc addr type).type.getLsbD 4 = false := by
  rwa [Desc.type_tssldtDesc]

theorem GlobalTable.switched (h : GlobalTable k.gdt) (z : Context) (p q : BitVec 32) (tr next : Nat) :
    GlobalTable (k.switched z p q tr next).gdt :=
  (h.update (by unfold tssEntry firstTssEntry; omega) (system_tssldtDesc _ (by decide))).update
    (by unfold tssEntry firstTssEntry; omega) (system_tssldtDesc _ (by decide))

theorem LocalTables.congr (h : LocalTables image k) (hTask : k'.task = k.task)
    (hHeap : ∀ s, Live k s → (k'.heap (taskAddr image k s)).ldt0 = (k.heap (taskAddr image k s)).ldt0 ∧
      (k'.heap (taskAddr image k s)).ldt1 = (k.heap (taskAddr image k s)).ldt1 ∧
      (k'.heap (taskAddr image k s)).ldt2 = (k.heap (taskAddr image k s)).ldt2) : LocalTables image k' := by
  refine ⟨fun s hs => ?_, fun s hs => ?_, fun s hs => ?_⟩ <;>
    obtain ⟨hNull, hCode, hData⟩ := hHeap s ((live_congr hTask).mp hs)
  · rw [taskAddr_congr hTask, hNull]
    exact h.null s ((live_congr hTask).mp hs)
  · rw [taskAddr_congr hTask, hCode]
    exact h.code s ((live_congr hTask).mp hs)
  · rw [taskAddr_congr hTask, hData]
    exact h.data s ((live_congr hTask).mp hs)

/-- A task `t` has come into the empty slot `nr`, with descriptors of its own; nothing else has changed. -/
structure Grown (image : Image) (k : Kernel) (nr : Nat) (t : BitVec 32 → TaskStruct) (k' : Kernel) : Prop where
  child : Occupied k' nr
  struct : k'.heap (taskAddr image k' nr) = t (taskAddr image k' nr)
  keeps : ∀ s, Live k s → s ≠ nr ∧ Live k' s ∧ taskAddr image k' s = taskAddr image k s ∧
    k'.heap (taskAddr image k s) = k.heap (taskAddr image k s)
  back : ∀ s, Live k' s → s = nr ∨ Live k s
  entries : k'.gdt (tssEntry nr) = tssDesc (tssAddr (taskAddr image k' nr)) ∧
    k'.gdt (ldtEntry nr) = ldtDesc (ldtAddr (taskAddr image k' nr))
  others : ∀ s, s ≠ nr → k'.gdt (tssEntry s) = k.gdt (tssEntry s) ∧ k'.gdt (ldtEntry s) = k.gdt (ldtEntry s)

theorem KernelInvariant.grown (h : KernelInvariant extMemK image k) {p nr : Nat} {regs : ForkFrame} {pid : BitVec 32}
    (hNr : 1 ≤ nr ∧ nr < 64) (hEmpty : k.task nr = 0#32)
    (hMade : ForkMade extMemK p nr regs { k with lastPid := pid } k') :
    Grown image k nr (fun q => placedTask (childTask (k.heap k.current) nr q k.current pid regs) nr) k' := by
  obtain ⟨i, hi, hFree, hTask, hHeap, hGdt⟩ := hMade.page
  dsimp only at hTask hHeap hFree
  change k'.gdt = Function.update (Function.update k.gdt (tssEntry nr) _) (ldtEntry nr) _ at hGdt
  obtain ⟨hInit, hOthers⟩ := h.page_fresh hi hFree
  have hChild : k'.task nr = pageAddr i := by rw [hTask, Function.update_self]
  have hNew : Occupied k' nr := ⟨hNr.1, hNr.2, by rw [hChild]; exact pageAddr_ne_zero hi⟩
  have hAddr : taskAddr image k' nr = pageAddr i := hNew.taskAddr.trans hChild
  refine ⟨hNew, ?_, fun s hs => ?_, fun s hs => ?_, ⟨?_, ?_⟩, fun s hNe => ⟨?_, ?_⟩⟩
  · rw [hAddr, hHeap, Function.update_self]
  · have hNe : s ≠ nr := by
      rintro rfl
      rcases hs with hZero | hOccupied
      · omega
      · exact hOccupied.task hEmpty
    have hSlot : k'.task s = k.task s := by rw [hTask, Function.update_of_ne hNe]
    refine ⟨hNe, hs.imp_right fun hs => ⟨hs.pos, hs.lt, by rw [hSlot]; exact hs.task⟩, ?_, ?_⟩
    · rw [taskAddr, taskAddr, hSlot]
    · rw [hHeap, Function.update_of_ne]
      rcases hs with rfl | hOccupied
      · exact hInit
      · rw [hOccupied.taskAddr]
        exact hOthers s hOccupied
  · by_cases hSame : s = nr
    · exact Or.inl hSame
    · refine Or.inr (hs.imp_right fun hs => ⟨hs.pos, hs.lt, ?_⟩)
      have hSlot := hs.task
      rwa [hTask, Function.update_of_ne hSame] at hSlot
  · rw [hAddr, hGdt, Function.update_of_ne fun hSame => ldtEntry_ne hSame.symm, Function.update_self]
  · rw [hAddr, hGdt, Function.update_self]
  · rw [hGdt, Function.update_of_ne fun hSame => ldtEntry_ne hSame.symm,
      Function.update_of_ne fun hSame => hNe (tssEntry_inj.mp hSame)]
  · rw [hGdt, Function.update_of_ne, Function.update_of_ne ldtEntry_ne]
    unfold ldtEntry
    omega

theorem Described.grown {tr nr : Nat} {t : BitVec 32 → TaskStruct} (h : Described image k tr)
    (hGrown : Grown image k nr t k') (hTr : Live k tr)
    (hSelector : (k'.heap (taskAddr image k' nr)).tss.ldt = ldtSelector nr)
    (hCr3 : (k'.heap (taskAddr image k' nr)).tss.cr3 = 0#32) : Described image k' tr := by
  refine ⟨fun s hs => ?_, fun s hs => ?_, fun s hs => ?_, fun s hs => ?_⟩ <;>
    rcases hGrown.back s hs with rfl | hOld
  · rw [hGrown.entries.1, if_neg (hGrown.keeps tr hTr).1.symm]
    rfl
  · obtain ⟨hNe, _, hSame, _⟩ := hGrown.keeps s hOld
    rw [(hGrown.others s hNe).1, hSame]
    exact h.tss s hOld
  · exact hGrown.entries.2
  · obtain ⟨hNe, _, hSame, _⟩ := hGrown.keeps s hOld
    rw [(hGrown.others s hNe).2, hSame]
    exact h.ldt s hOld
  · exact hSelector
  · obtain ⟨_, _, hSame, hKept⟩ := hGrown.keeps s hOld
    rw [hSame, hKept]
    exact h.selector s hOld
  · exact hCr3
  · obtain ⟨_, _, hSame, hKept⟩ := hGrown.keeps s hOld
    rw [hSame, hKept]
    exact h.cr3 s hOld

/-- The child gets the table of its parent, with the two bases moved. -/
theorem LocalTables.grown {nr p : Nat} {page current pid : BitVec 32} {regs : ForkFrame} {t : BitVec 32 → TaskStruct}
    (h : LocalTables image k) (hGrown : Grown image k nr t k') (hLive : Live k p)
    (hStruct : t (taskAddr image k' nr) =
      placedTask (childTask (k.heap (taskAddr image k p)) nr page current pid regs) nr) : LocalTables image k' := by
  refine ⟨fun s hs => ?_, fun s hs => ?_, fun s hs => ?_⟩ <;>
    rcases hGrown.back s hs with rfl | hOld
  · rw [hGrown.struct, hStruct]
    exact h.null p hLive
  · obtain ⟨_, _, hSame, hKept⟩ := hGrown.keeps s hOld
    rw [hSame, hKept]
    exact h.null s hOld
  · rw [hGrown.struct, hStruct]
    change setBase (k.heap (taskAddr image k p)).ldt1 (taskBase s) = _
    rw [h.code p hLive, taskCode, setBase_setBase, taskCode]
  · obtain ⟨_, _, hSame, hKept⟩ := hGrown.keeps s hOld
    rw [hSame, hKept]
    exact h.code s hOld
  · rw [hGrown.struct, hStruct]
    change setBase (k.heap (taskAddr image k p)).ldt2 (taskBase s) = _
    rw [h.data p hLive, taskData, setBase_setBase, taskData]
  · obtain ⟨_, _, hSame, hKept⟩ := hGrown.keeps s hOld
    rw [hSame, hKept]
    exact h.data s hOld

namespace Sharing

theorem running_eq (h : Sharing text extMemK image P A) : P.running = P.kernel.current := by
  have hCurrent : P.kernel.current = taskAddr image P.kernel P.tr := h.sched.current
  rw [Processor.running, h.described.tss P.tr h.sched.live, Desc.task_tssldtDesc, hCurrent]

/-- A change of the kernel between two instructions. -/
theorem same (h : Sharing text extMemK image P A) (hSame : SameTasks image P.kernel k')
    (hSched : SchedInvariant extMemK image ⟨k', P.tr⟩) : Sharing text extMemK image { P with kernel := k' } A where
  sched := hSched
  awake := by
    intro s hs
    have hOld := (live_congr hSame.task).mp hs
    dsimp only
    rw [taskAddr_congr hSame.task, hSame.state hOld]
    exact h.awake s hOld
  described := by
    refine ⟨fun s hs => ?_, fun s hs => ?_, fun s hs => ?_, fun s hs => ?_⟩ <;>
      have hOld := (live_congr hSame.task).mp hs
    · rw [hSame.gdt, taskAddr_congr hSame.task]
      exact h.described.tss s hOld
    · rw [hSame.gdt, taskAddr_congr hSame.task]
      exact h.described.ldt s hOld
    · rw [taskAddr_congr hSame.task, hSame.tss hOld]
      exact h.described.selector s hOld
    · rw [taskAddr_congr hSame.task, hSame.tss hOld]
      exact h.described.cr3 s hOld
  global := by
    dsimp only
    rw [hSame.gdt]
    exact h.global
  locals := h.locals.congr hSame.task fun s hs => by
    obtain ⟨_, hHeap⟩ := hSame.heap s hs
    rw [hHeap]
    exact ⟨rfl, rfl, rfl⟩
  ldtr := h.ldtr
  cr3 := h.cr3
  saved := by
    intro s hs hOther
    have hOld := (live_congr hSame.task).mp hs
    dsimp only
    rw [taskAddr_congr hSame.task, hSame.tss hOld]
    exact h.saved s hOld hOther
  dead := fun s hs => h.dead s fun hOld => hs ((live_congr hSame.task).mpr hOld)
  here := h.here
  waiting := by
    intro s hs hOther
    have hOld := (live_congr hSame.task).mp hs
    dsimp only
    rw [h.waiting s hOld hOther, Text.waiting, Text.waiting, taskAddr_congr hSame.task, hSame.tss hOld]
  user := h.user

/-- An instruction of the running task. -/
theorem own (h : Sharing text extMemK image P A) (hUser : UserSegments y) :
    Sharing text extMemK image { P with context := y } (Function.update A P.tr (some y)) where
  sched := h.sched
  awake := h.awake
  described := h.described
  global := h.global
  locals := h.locals
  ldtr := h.ldtr
  cr3 := h.cr3
  saved := h.saved
  dead := by
    intro s hs
    rw [Function.update_of_ne]
    · exact h.dead s hs
    · rintro rfl
      exact hs h.sched.live
  here := Function.update_self ..
  waiting := by
    intro s hs hOther
    rw [Function.update_of_ne hOther]
    exact h.waiting s hs hOther
  user := by
    intro s z hz
    by_cases hSame : s = P.tr
    · rw [hSame, Function.update_self] at hz
      exact Option.some.inj hz ▸ hUser
    · rw [Function.update_of_ne hSame] at hz
      exact h.user s z hz

theorem same_context (h : Sharing text extMemK image P A) (hContext : y = P.context) :
    Sharing text extMemK image { P with context := y } A := by
  subst hContext
  exact h

/-- The selectors of a task that waits can be loaded. -/
theorem loads_switched (h : Sharing text extMemK image P A) (z : Context) (p : BitVec 32) {next : Nat}
    (hLive : Live P.kernel next) (hOther : next ≠ P.tr) :
    (({ P.kernel with current := p } : Kernel).switched z (taskAddr image P.kernel P.tr)
      (taskAddr image P.kernel next) P.tr next).selectorFault (ldtSelector next)
        (P.kernel.heap (taskAddr image P.kernel next)).tss.context = none := by
  have hHead : GlobalTable ({ P.kernel with current := p } : Kernel).gdt := h.global
  have hTables : TablesOf (({ P.kernel with current := p } : Kernel).switched z (taskAddr image P.kernel P.tr)
      (taskAddr image P.kernel next) P.tr next) (ldtSelector next) next := by
    refine ⟨(hHead.switched z _ _ _ _).head, taskAddr image P.kernel next, ?_, ?_, ?_⟩
    · rw [ldtSelector_index hLive.lt, switched_ldt]
      exact h.described.ldt next hLive
    · rw [switched_heap]
      exact h.locals.code next hLive
    · rw [switched_heap]
      exact h.locals.data next hLive
  rcases h.saved next hLive hOther with hUser | hKernel
  · exact hTables.user hUser
  · exact hTables.kernel hKernel

/-- The `ljmp` of `switch_to`, behind which the next task goes on where it waited. -/
theorem switch (h : Sharing text extMemK image P A) {z : Context} {stack : Stream' (BitVec 16)} {next : Nat}
    (hNext : Occupied P.kernel next) (hOther : next ≠ P.tr) (hWaits : text.resume z stack = P.context)
    (hSaved : KernelSegments z) :
    ∃ P', ({ P with
        kernel := { P.kernel with current := P.kernel.task next }
        context := z
        stack := Function.update P.stack P.kernel.current stack } : Processor).ljmp next = .ok P' ∧
      Sharing text extMemK image { P' with context := text.resume P'.context (P'.stack P'.running) } A := by
  have hCurrent : P.kernel.current = taskAddr image P.kernel P.tr := h.sched.current
  have hHere : Live P.kernel P.tr := h.sched.live
  have hLive : Live P.kernel next := Or.inr hNext
  have hKernel : KernelInvariant extMemK image P.kernel := h.sched.kernel
  have hSlot : P.kernel.task next = taskAddr image P.kernel next := hNext.taskAddr.symm
  have hNe : taskAddr image P.kernel P.tr ≠ taskAddr image P.kernel next :=
    fun hSame => hOther (hKernel.taskAddr_inj hLive hHere hSame.symm)
  have hOld := h.described.tss P.tr hHere
  have hNew := h.described.tss next hLive
  rw [if_pos rfl] at hOld
  rw [if_neg hOther] at hNew
  rw [hSlot, hCurrent]
  have hLoads := h.loads_switched z (taskAddr image P.kernel next) hLive hOther
  refine ⟨_, Processor.ljmp_eq hNext.lt hOld hNew (h.described.ldt next hLive) hNe
    (h.described.selector next hLive) hLoads, ?_⟩
  have hSwitched : SchedInvariant extMemK image
      ⟨{ P.kernel with current := taskAddr image P.kernel next }, next⟩ := by
    have hRun := h.sched.switch hNext
    rw [switchTo, if_neg] at hRun
    · rwa [hSlot] at hRun
    · rw [hSlot]
      exact fun hSame => hNe (hCurrent.symm.trans hSame.symm)
  have hDescribed := h.described.switched next z (taskAddr image P.kernel next)
  generalize hNow : ({ P.kernel with current := taskAddr image P.kernel next } : Kernel).switched z
    (taskAddr image P.kernel P.tr) (taskAddr image P.kernel next) P.tr next = k' at hDescribed ⊢
  have hTable : k'.task = P.kernel.task := by
    rw [← hNow]
    rfl
  have hHeap (q : BitVec 32) : k'.heap q = { P.kernel.heap q with
      tss := if q = taskAddr image P.kernel P.tr then (P.kernel.heap q).tss.save z else (P.kernel.heap q).tss } := by
    rw [← hNow, switched_heap]
  have hAddr {s : Nat} : taskAddr image k' s = taskAddr image P.kernel s := taskAddr_congr hTable
  have hBack {s : Nat} (hs : Live k' s) : Live P.kernel s := (live_congr hTable).mp hs
  have hRunning : (k'.gdt (tssEntry next)).task = taskAddr image P.kernel next := by
    rw [hDescribed.tss next ((live_congr hTable).mpr hLive), hAddr, Desc.task_tssldtDesc]
  have hGlobal : GlobalTable k'.gdt := by
    rw [← hNow]
    exact GlobalTable.switched h.global z _ _ _ _
  have hLocals : LocalTables image k' := by
    refine h.locals.congr hTable fun s _ => ?_
    rw [hHeap]
    exact ⟨rfl, rfl, rfl⟩
  refine ⟨?_, fun s hs => ?_, hDescribed, hGlobal, hLocals, rfl, ?_, fun s hs hWait => ?_, fun s hs => ?_, ?_,
    fun s hs hWait => ?_, h.user⟩
  · refine hSwitched.congr_tss ?_ hTable ?_ fun q => ⟨_, hHeap q⟩ <;>
      rw [← hNow] <;> rfl
  · dsimp only
    rw [hAddr, hHeap]
    exact h.awake s (hBack hs)
  · exact h.described.cr3 next hLive
  · dsimp only
    rw [hAddr, hHeap]
    dsimp only
    by_cases hThat : s = P.tr
    · rw [hThat, if_pos rfl, Tss.context_save]
      exact Or.inr hSaved
    · rw [if_neg fun hSame => hThat (hKernel.taskAddr_inj (hBack hs) hHere hSame)]
      exact h.saved s (hBack hs) hThat
  · exact h.dead s fun hOld => hs ((live_congr hTable).mpr hOld)
  · rw [h.waiting next hLive hOther, Text.waiting, Processor.running]
    dsimp only
    rw [hRunning, Function.update_of_ne hNe.symm]
  · rw [Text.waiting]
    dsimp only
    rw [hAddr, hHeap]
    dsimp only
    by_cases hThat : s = P.tr
    · rw [hThat, if_pos rfl, Tss.context_save, Function.update_self, hWaits]
      exact h.here
    · have hApart : taskAddr image P.kernel s ≠ taskAddr image P.kernel P.tr :=
        fun hSame => hThat (hKernel.taskAddr_inj (hBack hs) hHere hSame)
      rw [if_neg hApart, Function.update_of_ne hApart]
      exact h.waiting s (hBack hs) hThat

theorem segments (h : Sharing text extMemK image P A) : UserSegments P.context := h.user _ _ h.here

theorem ring (h : Sharing text extMemK image P A) : P.context.cs &&& 3#16 = 3#16 := h.segments.ring

/-- A timer interrupt that leaves the processor to the running task. -/
theorem tick_same (h : Sharing text extMemK image P A) (hCharged : Charged P.kernel k)
    (hCall : doTimer 3#32 P.toMachine = .ok ⟨k, P.tr⟩) :
    ∃ P', text.tick P = .ok P' ∧ Sharing text extMemK image P' A := by
  refine ⟨{ P with kernel := k }, ?_, h.same hCharged.sameTasks (h.sched.rescheduled hCharged.rescheduled)⟩
  dsimp only [Text.tick]
  rw [cpl_user text h.ring, hCall]
  dsimp only
  rw [if_pos hCharged.rescheduled.current, atIret_timerInterrupt, iret_trap]

/-- A timer interrupt in ring 3 comes back to ring 3, unless the quantum of task 0 is over and
there is no other task. -/
theorem tick_cases (h : Sharing text extMemK image P A) :
    (∃ P', text.tick P = .ok P' ∧ Sharing text extMemK image P' A) ∧
        ¬(P.UsedUp ∧ ∀ s, ¬Occupied P.kernel s) ∨
      text.tick P = .error .generalProtection ∧ P.UsedUp ∧ ∀ s, ¬Occupied P.kernel s := by
  have hCurrent : P.kernel.current = taskAddr image P.kernel P.tr := h.sched.current
  have hRun {M : Machine} (hCall : doTimer 3#32 P.toMachine = .ok M) (hOther : M.kernel.current ≠ P.kernel.current) :
      text.tick P = text.giveAway M (text.timer.before (((timerInterrupt text.link).atCall text.link
        (trap text.link.high text.above (P.kernel.heap P.running).tss.esp0 P.context)).push text.link.returnAddress))
          P := by
    dsimp only [Text.tick]
    rw [cpl_user text h.ring, hCall]
    exact if_neg hOther
  rcases h.sched.doTimer_cases 3#32 with
    ⟨hLeft, k, hCharged, hCall⟩ | ⟨hUsed, _, ⟨hNone, hCall⟩ | ⟨next, k, hCharged, hNext, hCall⟩⟩
  · exact Or.inl ⟨h.tick_same hCharged hCall, fun hOver => hLeft.elim (fun hNot => hNot hOver.1) (by decide)⟩
  · have hEmpty (s : Nat) : ¬Occupied P.kernel s := by
      intro hs
      refine hNone s ⟨⟨hs.pos, hs.lt, hs.task⟩, ?_⟩
      have hState := h.awake s (Or.inr hs)
      rw [hs.taskAddr] at hState
      exact ((Charged.setCounter (by decide)).state _).trans hState
    refine Or.inr ⟨?_, hUsed, hEmpty⟩
    have hZero : P.tr = 0 := h.sched.live.resolve_right (hEmpty _)
    have hPos : P.kernel.current ≠ 0#32 := by
      rw [hCurrent, hZero]
      exact image.pos
    have hSlot : P.kernel.task 0 = 0#32 := h.sched.slotZero
    have hSwitch : switchTo 0 ⟨P.spent, P.tr⟩ = ⟨{ P.spent with current := 0#32 }, 0⟩ := by
      rw [switchTo, if_neg]
      · exact congrArg (fun p => (⟨{ P.spent with current := p }, 0⟩ : Machine)) hSlot
      · exact fun hSame => hPos (hSame.symm.trans hSlot)
    rw [hSwitch] at hCall
    have hDesc := h.described.tss 0 (Or.inl rfl)
    rw [if_pos hZero.symm] at hDesc
    rw [hRun hCall hPos.symm, Text.giveAway, Processor.ljmp_busy (by exact hDesc)]
    rfl
  · refine Or.inl ⟨?_, fun hOver => hOver.2 next hNext.1⟩
    have hTask : k.task next = P.kernel.task next := by rw [hCharged.rescheduled.task]
    have hKeep : k.current = P.kernel.current := hCharged.rescheduled.current
    by_cases hSame : next = P.tr
    · have hHere : P.kernel.task next = P.kernel.current := by
        rw [hCurrent, ← hSame, hNext.1.taskAddr]
      rw [switchTo, if_pos (hTask.trans (hHere.trans hKeep.symm))] at hCall
      exact h.tick_same hCharged hCall
    · have hNe : P.kernel.task next ≠ P.kernel.current := by
        rw [hCurrent, ← hNext.1.taskAddr]
        exact fun hThere => hSame (h.sched.kernel.taskAddr_inj (Or.inr hNext.1) h.sched.live hThere)
      rw [switchTo, if_neg (by dsimp only; rw [hTask, hKeep]; exact hNe)] at hCall
      have hNow := h.same hCharged.sameTasks (h.sched.rescheduled hCharged.rescheduled)
      have hSlot : k.task next ≠ 0#32 := by
        rw [hTask]
        exact hNext.1.task
      obtain ⟨P', hJump, hSharing⟩ := hNow.switch ⟨hNext.1.pos, hNext.1.lt, hSlot⟩
        hSame (resume_suspended P.context text (P.kernel.heap P.running).tss.esp0 _ rfl)
        (suspended_segments P.context text (P.kernel.heap P.running).tss.esp0 _ (h.segments.data .gs) rfl)
      refine ⟨_, ?_, hSharing⟩
      dsimp only at hJump
      rw [hKeep, ← h.running_eq] at hJump
      rw [hRun hCall (by dsimp only; rw [hTask]; exact hNe), Text.giveAway, hJump]
      rfl

theorem tick_faults_iff (h : Sharing text extMemK image P A) :
    text.tick P = .error .generalProtection ↔ P.UsedUp ∧ ∀ s, ¬Occupied P.kernel s := by
  rcases h.tick_cases with ⟨⟨P', hCall, _⟩, hNot⟩ | ⟨hCall, hOver⟩
  · refine iff_of_false (fun hFault => ?_) hNot
    rw [hCall] at hFault
    cases hFault
  · exact iff_of_true hCall hOver

/-- A fork that fails. -/
theorem fork_failed (h : Sharing text extMemK image P A) (hSame : SameTasks image P.kernel k')
    (hSched : SchedInvariant extMemK image ⟨k', P.tr⟩) (result : BitVec 32) :
    Sharing text extMemK image { P with kernel := k', context := returning P.context result }
      (Function.update A P.tr (some (returning P.context result))) :=
  (h.own (y := returning P.context result) ⟨h.segments.cs, h.segments.ss, h.segments.data⟩).same hSame hSched

/-- A fork that starts a child in slot `nr`. -/
theorem fork_made (h : Sharing text extMemK image P A) {nr : Nat} {regs : ForkFrame} {pid : BitVec 32}
    (hNr : 1 ≤ nr ∧ nr < 64) (hEmpty : P.kernel.task nr = 0#32)
    (hMade : ForkMade extMemK P.tr nr regs { P.kernel with lastPid := pid } k')
    (hSched : SchedInvariant extMemK image ⟨k', P.tr⟩)
    (hResumes : ∀ p, Resumes P.context (placedTask (childTask (P.kernel.heap P.kernel.current) nr p P.kernel.current
      pid regs) nr).tss) (result : BitVec 32) :
    Sharing text extMemK image { P with kernel := k', context := returning P.context result }
      (Function.update (Function.update A P.tr (some (returning P.context result))) nr
        (some (returning P.context 0#32))) := by
  have hGrown := h.sched.kernel.grown hNr hEmpty hMade
  have hHere : Live P.kernel P.tr := h.sched.live
  have hOther : P.tr ≠ nr := (hGrown.keeps P.tr hHere).1
  have hParent : P.kernel.current = taskAddr image P.kernel P.tr := h.sched.current
  have hDescribed : Described image k' P.tr := by
    refine h.described.grown hGrown hHere ?_ ?_
    · rw [hGrown.struct]
      rfl
    · rw [hGrown.struct]
      change (P.kernel.heap P.kernel.current).tss.cr3 = 0#32
      rw [hParent]
      exact h.described.cr3 P.tr hHere
  have hGlobal : GlobalTable k'.gdt := by
    obtain ⟨i, _, _, _, _, hGdt⟩ := hMade.page
    rw [hGdt]
    exact (h.global.update (by unfold firstTssEntry; omega) (system_tssldtDesc _ (by decide))).update
      (by unfold firstLdtEntry firstTssEntry; omega) (system_tssldtDesc _ (by decide))
  have hLocals : LocalTables image k' := h.locals.grown hGrown hHere (by rw [← hParent])
  have hUser (result : BitVec 32) : UserSegments (returning P.context result) :=
    ⟨h.segments.cs, h.segments.ss, h.segments.data⟩
  have hChild : (k'.heap (taskAddr image k' nr)).tss.context = returning P.context 0#32 := by
    rw [hGrown.struct]
    exact (hResumes _).context
  refine ⟨hSched, fun s hs => ?_, hDescribed, hGlobal, hLocals, h.ldtr, h.cr3, fun s hs hWait => ?_, fun s hs => ?_, ?_,
    fun s hs hWait => ?_, fun s z hz => ?_⟩
  · rcases hGrown.back s hs with rfl | hOld
    · dsimp only
      rw [hGrown.struct]
      change (P.kernel.heap P.kernel.current).state = taskRunning
      rw [hParent]
      exact h.awake P.tr hHere
    · obtain ⟨_, _, hSame, hKept⟩ := hGrown.keeps s hOld
      dsimp only
      rw [hSame, hKept]
      exact h.awake s hOld
  · dsimp only
    rcases hGrown.back s hs with rfl | hOld
    · rw [hChild]
      exact Or.inl (hUser _)
    · obtain ⟨_, _, hSame, hKept⟩ := hGrown.keeps s hOld
      rw [hSame, hKept]
      exact h.saved s hOld hWait
  · have hNe : s ≠ nr := fun hSame => hs (hSame ▸ Or.inr hGrown.child)
    have hDead : ¬Live P.kernel s := fun hOld => hs (hGrown.keeps s hOld).2.1
    rw [Function.update_of_ne hNe, Function.update_of_ne fun hSame => hDead (by rw [hSame]; exact hHere)]
    exact h.dead s hDead
  · rw [Function.update_of_ne hOther, Function.update_self]
  · rcases hGrown.back s hs with rfl | hOld
    · rw [Function.update_self, Text.waiting]
      dsimp only
      rw [hChild, resume_user]
      rw [show (returning P.context 0#32).cs = P.context.cs from rfl, h.ring]
      decide
    · obtain ⟨hNe, _, hSame, hKept⟩ := hGrown.keeps s hOld
      rw [Function.update_of_ne hNe, Function.update_of_ne hWait, h.waiting s hOld hWait, Text.waiting, Text.waiting]
      dsimp only
      rw [hSame, hKept]
  · by_cases hNew : s = nr
    · rw [hNew, Function.update_self] at hz
      obtain rfl := Option.some.inj hz
      exact hUser 0#32
    · rw [Function.update_of_ne hNew] at hz
      by_cases hRun : s = P.tr
      · rw [hRun, Function.update_self] at hz
        obtain rfl := Option.some.inj hz
        exact hUser result
      · rw [Function.update_of_ne hRun] at hz
        exact h.user s z hz

end Sharing

end

end Linux011

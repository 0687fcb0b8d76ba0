import Linux011.Kernel.OutOfMemory
import Linux011.Kernel.Pick

/-! Runs of the scheduler from `sched_init` on: ticks, forks by the running
task, tasks going to sleep and being woken. `sched_init` has emptied slot 0, so `schedule` has
nowhere to go when no task in slots 1 to 63 is runnable. -/
namespace Linux011

/-- Some task in slots 1 to 63 is in state `TASK_RUNNING`. -/
def SomeRunnable (k : Kernel) : Prop := ∃ s, Runnable k s

/-- A fork that finds an empty slot gets a page for the task structure. Without one the
structure lies in the page directory, and page tables are copied over its counter. -/
def ChildPage (k : Kernel) : Prop :=
  (∃ nr, 1 ≤ nr ∧ nr < 64 ∧ k.task nr = 0#32) → ∀ page mm, getFreePage k.mm = .ok (page, mm) → page ≠ noPage

/-- Runs in which `schedule` is called only where `allowed` holds. Sleeping is
what `__sleep_on` does up to and including its call of `schedule`. -/
inductive Runs (allowed : Kernel → Prop) (extMemK : BitVec 16) (image : Image) : Machine → Prop where
  | boot (m : ByteMemory.Memory) (heap : BitVec 32 → TaskStruct) (gdt : Nat → Desc) :
      Runs allowed extMemK image ⟨bootKernel extMemK image m heap gdt, 0⟩
  | tick {M M' : Machine} {cpl : BitVec 32} (prior : Runs allowed extMemK image M)
      (call : doTimer cpl M = .ok M') (guard : M.UsedUp → cpl ≠ 0#32 → allowed M.spent) :
      Runs allowed extMemK image M'
  | fork {M : Machine} {k' : Kernel} {ram : BitVec 32 → BitVec 8} {regs : ForkFrame} {result : BitVec 32}
      (prior : Runs allowed extMemK image M) (page : ChildPage M.kernel)
      (call : sysFork ram regs M.kernel = .ok (result, k')) :
      Runs allowed extMemK image ⟨k', M.tr⟩
  | sleep {M M' : Machine} {state : BitVec 32} (prior : Runs allowed extMemK image M)
      (notInit : M.kernel.current ≠ image.initTask)
      (call : schedule ⟨M.kernel.setState M.kernel.current state, M.tr⟩ = .ok M')
      (guard : allowed (M.kernel.setState M.kernel.current state)) : Runs allowed extMemK image M'
  | wake {M : Machine} {s : Nat} (prior : Runs allowed extMemK image M) (asleep : Occupied M.kernel s) :
      Runs allowed extMemK image ⟨M.kernel.setState (M.kernel.task s) taskRunning, M.tr⟩

/-- Task structures differ in `state` and `counter` only, and no counter has
become negative. -/
structure Rescheduled (k k' : Kernel) : Prop where
  mm : k'.mm = k.mm
  task : k'.task = k.task
  current : k'.current = k.current
  heap : ∀ p, ∃ state counter, k'.heap p = { k.heap p with state := state, counter := counter } ∧
    ((k.heap p).priority = 15#32 → 0 ≤ (k.heap p).counter.toInt → 0 ≤ counter.toInt)

section

variable {extMemK : BitVec 16} {image : Image} {k k' k'' : Kernel} {M M' : Machine} {s next : Nat}
  {ram : BitVec 32 → BitVec 8} {regs : ForkFrame} {allowed : Kernel → Prop}

namespace Rescheduled

theorem refl (k : Kernel) : Rescheduled k k := ⟨rfl, rfl, rfl, fun _ => ⟨_, _, rfl, fun _ h => h⟩⟩

theorem trans (h : Rescheduled k k') (h' : Rescheduled k' k'') : Rescheduled k k'' := by
  refine ⟨h'.mm.trans h.mm, h'.task.trans h.task, h'.current.trans h.current, fun p => ?_⟩
  obtain ⟨state, counter, hHeap, hCounter⟩ := h.heap p
  obtain ⟨state', counter', hHeap', hCounter'⟩ := h'.heap p
  rw [hHeap] at hHeap' hCounter'
  exact ⟨state', counter', hHeap', fun hPriority hNow => hCounter' hPriority (hCounter hPriority hNow)⟩

/-- One task structure changes. -/
theorem setTask {p state counter : BitVec 32}
    (hCounter : 0 ≤ (k.heap p).counter.toInt → 0 ≤ counter.toInt) :
    Rescheduled k (k.setTask p { k.heap p with state := state, counter := counter }) := by
  refine ⟨rfl, rfl, rfl, fun q => ?_⟩
  rw [Kernel.setTask_heap]
  by_cases hSame : q = p
  · subst q
    rw [Function.update_self]
    exact ⟨state, counter, rfl, fun _ h => hCounter h⟩
  · rw [Function.update_of_ne hSame]
    exact ⟨_, _, rfl, fun _ h => h⟩

theorem setState (p state : BitVec 32) : Rescheduled k (k.setState p state) := setTask id

theorem setCounter {p counter : BitVec 32} (hCounter : 0 ≤ counter.toInt) :
    Rescheduled k (k.setCounter p counter) := setTask fun _ => hCounter

theorem refilled (k : Kernel) : Rescheduled k k.refilled := by
  classical
  refine ⟨refilled_mm k, refilled_task k, refilled_current k, fun p => ?_⟩
  rw [refilled_heap]
  split_ifs
  · refine ⟨_, _, rfl, fun hPriority _ => ?_⟩
    rw [hPriority]
    decide
  · exact ⟨_, _, rfl, fun _ h => h⟩

theorem live (h : Rescheduled k k') : Live k' s ↔ Live k s := by
  unfold Live
  refine or_congr_right ⟨fun hs => ⟨hs.pos, hs.lt, ?_⟩, fun hs => ⟨hs.pos, hs.lt, ?_⟩⟩
  · rw [← h.task]
    exact hs.task
  · rw [h.task]
    exact hs.task

theorem taskAddr (h : Rescheduled k k') : taskAddr image k' s = Linux011.taskAddr image k s := by
  rw [Linux011.taskAddr, Linux011.taskAddr, h.task]

theorem segments (h : Rescheduled k k') {p : BitVec 32} (hSegments : Segments s (k.heap p)) :
    Segments s (k'.heap p) := by
  obtain ⟨_, _, hHeap, _⟩ := h.heap p
  rw [hHeap]
  exact ⟨hSegments.codeBase, hSegments.dataBase, hSegments.codeLimit, hSegments.dataLimit⟩

theorem invariant (h : Rescheduled k k') (hKernel : KernelInvariant extMemK image k) :
    KernelInvariant extMemK image k' := by
  have hOccupied {s : Nat} (hs : Occupied k' s) : Occupied k s := ⟨hs.pos, hs.lt, h.task ▸ hs.task⟩
  constructor
  · rw [h.task, h.mm]
    exact hKernel.mm
  · rw [h.task]
    exact hKernel.slotZero
  · rw [h.task, h.mm]
    exact hKernel.shape
  · exact h.segments hKernel.init
  · intro s hs
    rw [h.task]
    exact h.segments (hKernel.segments s (hOccupied hs))
  · rintro ⟨s, hs⟩
    rw [h.mm]
    exact hKernel.windows ⟨s, hOccupied hs⟩

end Rescheduled

/-- The slot that the task register names is the one that `current` points to,
and every task has the priority and the kind of counter that `INIT_TASK` had. -/
structure Scheduled (image : Image) (M : Machine) : Prop where
  slotZero : M.kernel.task 0 = 0#32
  live : Live M.kernel M.tr
  current : M.kernel.current = taskAddr image M.kernel M.tr
  counter : ∀ s, Live M.kernel s → 0 ≤ (M.kernel.heap (taskAddr image M.kernel s)).counter.toInt
  priority : ∀ s, Live M.kernel s → (M.kernel.heap (taskAddr image M.kernel s)).priority = 15#32

theorem Occupied.taskAddr (h : Occupied k s) : taskAddr image k s = k.task s := by
  have hPos := h.pos
  rw [Linux011.taskAddr, if_neg (by omega)]

namespace Scheduled

theorem rescheduled (h : Scheduled image M) (hSame : Rescheduled M.kernel k) : Scheduled image ⟨k, M.tr⟩ where
  slotZero := by
    dsimp only
    rw [hSame.task]
    exact h.slotZero
  live := hSame.live.mpr h.live
  current := by
    dsimp only
    rw [hSame.current, hSame.taskAddr]
    exact h.current
  counter := by
    intro s hs
    have hOld := hSame.live.mp hs
    obtain ⟨_, _, hHeap, hCounter⟩ := hSame.heap (taskAddr image M.kernel s)
    dsimp only
    rw [hSame.taskAddr, hHeap]
    exact hCounter (h.priority s hOld) (h.counter s hOld)
  priority := by
    intro s hs
    obtain ⟨_, _, hHeap, _⟩ := hSame.heap (taskAddr image M.kernel s)
    dsimp only
    rw [hSame.taskAddr, hHeap]
    exact h.priority s (hSame.live.mp hs)

/-- A child is recorded in an empty slot, with the counter and the priority of its
parent. That its page is nobody's structure is not needed. -/
theorem addChild (h : Scheduled image M) {nr : Nat} {page : BitVec 32} {child : TaskStruct} (hNr : 1 ≤ nr ∧ nr < 64)
    (hEmpty : M.kernel.task nr = 0#32) (hTask : k'.task = Function.update M.kernel.task nr page)
    (hHeap : k'.heap = Function.update M.kernel.heap page child) (hCurrent : k'.current = M.kernel.current)
    (hCounter : child.counter = (M.kernel.heap M.kernel.current).counter)
    (hPriority : child.priority = (M.kernel.heap M.kernel.current).priority) : Scheduled image ⟨k', M.tr⟩ := by
  have hOther {s : Nat} (hs : s ≠ nr) : k'.task s = M.kernel.task s := by
    rw [hTask, Function.update_of_ne hs]
  have hKeep {s : Nat} (hs : Live M.kernel s) : Live k' s ∧ taskAddr image k' s = taskAddr image M.kernel s := by
    rcases hs with rfl | hs
    · exact ⟨Or.inl rfl, rfl⟩
    · have hSame : k'.task s = M.kernel.task s := by
        refine hOther ?_
        rintro rfl
        exact hs.task hEmpty
      have hThere : Occupied k' s := ⟨hs.pos, hs.lt, by rw [hSame]; exact hs.task⟩
      refine ⟨Or.inr hThere, ?_⟩
      rw [hThere.taskAddr, hs.taskAddr, hSame]
  have hChild : 0 ≤ child.counter.toInt ∧ child.priority = 15#32 := by
    rw [hCounter, hPriority, h.current]
    exact ⟨h.counter _ h.live, h.priority _ h.live⟩
  have hFields {s : Nat} (hs : Live k' s) : 0 ≤ (k'.heap (taskAddr image k' s)).counter.toInt ∧
      (k'.heap (taskAddr image k' s)).priority = 15#32 := by
    rw [hHeap, Function.update_apply]
    split_ifs with hSame
    · exact hChild
    · have hOld : Live M.kernel s := by
        refine hs.imp_right fun hs => ⟨hs.pos, hs.lt, ?_⟩
        have hNew : s ≠ nr := by
          rintro rfl
          rw [hs.taskAddr, hTask, Function.update_self] at hSame
          exact hSame rfl
        rw [← hOther hNew]
        exact hs.task
      rw [(hKeep hOld).2]
      exact ⟨h.counter s hOld, h.priority s hOld⟩
  refine ⟨?_, (hKeep h.live).1, ?_, fun s hs => (hFields hs).1, fun s hs => (hFields hs).2⟩
  · exact (hOther (by omega)).trans h.slotZero
  · dsimp only
    rw [hCurrent, (hKeep h.live).2]
    exact h.current

/-- Whatever else a fork does, it adds one child at most. -/
theorem fork (h : Scheduled image M) (hPage : ChildPage M.kernel) {result : BitVec 32}
    (hCall : sysFork ram regs M.kernel = .ok (result, k')) : Scheduled image ⟨k', M.tr⟩ := by
  have hNumbered (pid : BitVec 32) : Scheduled image ⟨{ M.kernel with lastPid := pid }, M.tr⟩ :=
    ⟨h.slotZero, h.live.imp_right fun hs => ⟨hs.pos, hs.lt, hs.task⟩, h.current,
      fun s hs => h.counter s (hs.imp_right fun hs => ⟨hs.pos, hs.lt, hs.task⟩),
      fun s hs => h.priority s (hs.imp_right fun hs => ⟨hs.pos, hs.lt, hs.task⟩)⟩
  obtain ⟨pid, _, ⟨_, hRun⟩ | ⟨nr, hNr, hEmpty, hRun⟩⟩ := sysFork_cases ram regs M.kernel
  · obtain ⟨_, rfl⟩ := Prod.mk.inj (Except.ok.inj (hCall.symm.trans hRun))
    exact hNumbered pid
  · rw [hRun] at hCall
    cases hGet : getFreePage M.kernel.mm with
    | error stop =>
        rw [copyProcess, hGet] at hCall
        cases hCall
    | ok found =>
        obtain ⟨page, mm⟩ := found
        have hFound := hPage ⟨nr, hNr.1, hNr.2, hEmpty⟩ page mm hGet
        obtain ⟨_, hTask, hHeap, hCurrent, _⟩ :=
          copyProcess_child (k := { M.kernel with lastPid := pid }) hGet hFound hCall
        exact (hNumbered pid).addChild hNr hEmpty hTask hHeap hCurrent rfl rfl

end Scheduled

/-- A fork that has what it needs has this page. -/
theorem KernelInvariant.childPage (h : KernelInvariant extMemK image k) (hProvided : ForkProvided ram k) :
    ChildPage k := by
  rintro hSlot page mm hGet rfl
  rcases getFreePage_cases h.mm.highInUse with ⟨hFull, _⟩ | ⟨i, hi, _, _, hCall⟩
  · have hPages := (hProvided hSlot).pages
    rw [Mm.freePages_eq_empty.mpr hFull, Finset.card_empty] at hPages
    omega
  · exact pageAddr_ne_noPage hi (Prod.mk.inj (Except.ok.inj (hCall.symm.trans hGet))).1

/-- `schedule` always ends, in an occupied slot exactly when a task is
runnable. -/
theorem Scheduled.pick (h : Scheduled image M) :
    ∃ next k', pickNext 2 M.kernel = .ok (next, k') ∧ Rescheduled M.kernel k' ∧
      (k'.task next ≠ 0#32 ↔ SomeRunnable M.kernel) ∧ (SomeRunnable M.kernel → Occupied k' next) := by
  have hCounter (s : Nat) (hs : Runnable M.kernel s) : 0 ≤ counterOf M.kernel s := by
    have hNow := h.counter s (Or.inr hs.1)
    rwa [hs.1.taskAddr] at hNow
  have hQuantum (s : Nat) (hs : Runnable M.kernel s) : 0 < quantumOf M.kernel s := by
    have hPriority := h.priority s (Or.inr hs.1)
    rw [hs.1.taskAddr] at hPriority
    rw [quantumOf, hPriority]
    decide
  rcases pickNext_cases hCounter hQuantum with ⟨hNone, hPick⟩ | ⟨s, hs, _, hPick⟩ | ⟨_, _, s, hs, hPick⟩
  · refine ⟨0, _, hPick, Rescheduled.refl _, iff_of_false (fun hTask => hTask h.slotZero) ?_, ?_⟩
    · exact fun ⟨s, hs⟩ => hNone s hs
    · exact fun ⟨s, hs⟩ => absurd hs (hNone s)
  · exact ⟨s, _, hPick, Rescheduled.refl _, iff_of_true hs.runnable.1.task ⟨s, hs.runnable⟩,
      fun _ => hs.runnable.1⟩
  · have hOld := runnable_refilled.mp hs.runnable
    exact ⟨s, _, hPick, Rescheduled.refilled _, iff_of_true hs.runnable.1.task ⟨s, hOld⟩,
      fun _ => hs.runnable.1⟩

theorem Scheduled.switch (h : Scheduled image M) (hs : Occupied M.kernel s) :
    Scheduled image (switchTo s M) := by
  have hLive {a : Nat} (ha : Live { M.kernel with current := M.kernel.task s } a) : Live M.kernel a :=
    ha.imp_right fun h => ⟨h.pos, h.lt, h.task⟩
  rw [switchTo]
  split_ifs
  · exact h
  · exact ⟨h.slotZero, Or.inr ⟨hs.pos, hs.lt, hs.task⟩, hs.taskAddr.symm,
      fun a ha => h.counter a (hLive ha), fun a ha => h.priority a (hLive ha)⟩

theorem Scheduled.schedule (h : Scheduled image M) (hSome : SomeRunnable M.kernel)
    (hCall : Linux011.schedule M = .ok M') : Scheduled image M' := by
  obtain ⟨next, k', hPick, hSame, _, hOccupied⟩ := h.pick
  have hRun : Linux011.schedule M = .ok (switchTo next ⟨k', M.tr⟩) := by rw [Linux011.schedule, hPick]; rfl
  obtain rfl := Except.ok.inj (hCall.symm.trans hRun)
  exact (h.rescheduled hSame).switch (hOccupied hSome)

theorem Scheduled.spent (h : Scheduled image M) :
    Scheduled image ⟨M.spent, M.tr⟩ :=
  h.rescheduled (Rescheduled.setCounter (by decide))

theorem Scheduled.tick (h : Scheduled image M) {cpl : BitVec 32}
    (hGuard : M.UsedUp → cpl ≠ 0#32 → SomeRunnable M.spent) (hCall : doTimer cpl M = .ok M') :
    Scheduled image M' := by
  by_cases hUsed : M.UsedUp
  · by_cases hKernel : cpl = 0#32
    · subst cpl
      obtain rfl := Except.ok.inj (hCall.symm.trans (doTimer_kernel hUsed))
      exact h.spent
    · rw [doTimer_usedUp hUsed hKernel] at hCall
      exact h.spent.schedule (hGuard hUsed hKernel) hCall
  · obtain rfl := Except.ok.inj (hCall.symm.trans (doTimer_charged hUsed))
    refine h.rescheduled (Rescheduled.setCounter ?_)
    have hLeft : BitVec.slt 0#32 ((M.kernel.heap M.kernel.current).counter - 1#32) = true := by
      simpa [Machine.UsedUp] using hUsed
    rw [BitVec.slt_eq_decide, decide_eq_true_eq] at hLeft
    exact hLeft.le

theorem Scheduled.boot (m : ByteMemory.Memory) (heap : BitVec 32 → TaskStruct) (gdt : Nat → Desc) :
    Scheduled image ⟨bootKernel extMemK image m heap gdt, 0⟩ := by
  have hInit {s : Nat} (hs : Live (bootKernel extMemK image m heap gdt) s) :
      (bootKernel extMemK image m heap gdt).heap (taskAddr image (bootKernel extMemK image m heap gdt) s) =
        initTask image := by
    rcases hs with rfl | hs
    · rw [bootKernel_heap]
      exact Function.update_self _ _ _
    · exact absurd (bootKernel_task extMemK image m heap gdt s) hs.task
  refine ⟨bootKernel_task extMemK image m heap gdt 0, Or.inl rfl, bootKernel_current _ _ _ _ _, fun s hs => ?_,
    fun s hs => ?_⟩
  · dsimp only
    rw [hInit hs]
    exact (by decide : 0 ≤ (15#32).toInt)
  · dsimp only
    rw [hInit hs]
    rfl

/-- The same in a state of the invariant of the kernel. -/
structure SchedInvariant (extMemK : BitVec 16) (image : Image) (M : Machine) : Prop extends
    Scheduled image M where
  kernel : KernelInvariant extMemK image M.kernel

theorem SchedInvariant.rescheduled (h : SchedInvariant extMemK image M) (hSame : Rescheduled M.kernel k) :
    SchedInvariant extMemK image ⟨k, M.tr⟩ :=
  ⟨h.toScheduled.rescheduled hSame, hSame.invariant h.kernel⟩

theorem SchedInvariant.fork (h : SchedInvariant extMemK image M) (hProvided : ForkProvided ram M.kernel)
    {result : BitVec 32} (hCall : sysFork ram regs M.kernel = .ok (result, k')) :
    SchedInvariant extMemK image ⟨k', M.tr⟩ := by
  have hSame : ({ M.kernel with current := taskAddr image M.kernel M.tr } : Kernel) = M.kernel := by
    rw [← h.current]
  have hResult : ForkResult extMemK M.tr regs
      { M.kernel with current := taskAddr image M.kernel M.tr } result k' :=
    h.kernel.forkResult h.live (by rw [hSame]; exact hProvided) (by rw [hSame]; exact hCall)
  rw [hSame] at hResult
  exact ⟨h.toScheduled.fork (h.kernel.childPage hProvided) hCall, h.kernel.fork h.live h.current hResult⟩

theorem SchedInvariant.switch (h : SchedInvariant extMemK image M) (hs : Occupied M.kernel s) :
    SchedInvariant extMemK image (switchTo s M) := by
  refine ⟨h.toScheduled.switch hs, ?_⟩
  rw [switchTo]
  split_ifs
  · exact h.kernel
  · exact h.kernel.set_current _

theorem SchedInvariant.boot (m : ByteMemory.Memory) (heap : BitVec 32 → TaskStruct) (gdt : Nat → Desc) :
    SchedInvariant extMemK image ⟨bootKernel extMemK image m heap gdt, 0⟩ :=
  ⟨Scheduled.boot m heap gdt, KernelInvariant.boot m heap gdt⟩

/-- The invariant holds as long as `schedule` is called only where a task in
slots 1 to 63 is runnable. -/
theorem Runs.inv (run : Runs SomeRunnable extMemK image M) : Scheduled image M := by
  induction run with
  | boot m heap gdt => exact Scheduled.boot m heap gdt
  | tick prior call guard ih => exact ih.tick guard call
  | fork prior page call ih => exact ih.fork page call
  | sleep prior notInit call guard ih => exact (ih.rescheduled (Rescheduled.setState _ _)).schedule guard call
  | wake prior asleep ih => exact ih.rescheduled (Rescheduled.setState _ _)

/-- What the scheduler keeps while each call of `schedule` finds a runnable task
in slots 1 to 63, and what the next call does: its target is in an empty slot
exactly when there is none. The running task is recorded in its slot unless
that is slot 0, which `sched_init` has emptied. -/
theorem scheduler_keeps_current (run : Runs SomeRunnable extMemK image M) :
    M.kernel.current ≠ 0#32 ∧ (M.kernel.task M.tr = M.kernel.current ↔ M.tr ≠ 0) ∧
      (∀ cpl, M.UsedUp → cpl ≠ 0#32 → ∃ next k', pickNext 2 M.spent = .ok (next, k') ∧
        doTimer cpl M = .ok (switchTo next ⟨k', M.tr⟩) ∧ (k'.task next ≠ 0#32 ↔ SomeRunnable M.spent)) ∧
      ∀ state, ∃ next k', pickNext 2 (M.kernel.setState M.kernel.current state) = .ok (next, k') ∧
        schedule ⟨M.kernel.setState M.kernel.current state, M.tr⟩ = .ok (switchTo next ⟨k', M.tr⟩) ∧
          (k'.task next ≠ 0#32 ↔ SomeRunnable (M.kernel.setState M.kernel.current state)) := by
  have h := run.inv
  have hCurrent : M.kernel.current ≠ 0#32 := by
    rw [h.current]
    rcases h.live with hZero | hOccupied
    · rw [taskAddr, if_pos hZero]
      exact image.pos
    · rw [hOccupied.taskAddr]
      exact hOccupied.task
  refine ⟨hCurrent, ?_, fun cpl hUsed hUser => ?_, fun state => ?_⟩
  · constructor
    · intro hSlot hZero
      rw [hZero, h.slotZero] at hSlot
      exact hCurrent hSlot.symm
    · intro hSlot
      have hOccupied := h.live.resolve_left hSlot
      rw [h.current, hOccupied.taskAddr]
  · obtain ⟨next, k', hPick, _, hTarget, _⟩ := h.spent.pick
    refine ⟨next, k', hPick, ?_, hTarget⟩
    rw [doTimer_usedUp hUsed hUser, schedule, hPick]
    rfl
  · obtain ⟨next, k', hPick, _, hTarget, _⟩ := (h.rescheduled (Rescheduled.setState M.kernel.current state)).pick
    refine ⟨next, k', hPick, ?_, hTarget⟩
    rw [schedule, hPick]
    rfl

theorem Machine.not_usedUp {n : Nat} (hn : n < 100)
    (hCounter : (M.kernel.heap M.kernel.current).counter = BitVec.ofNat 32 (n + 1 + 1)) : ¬M.UsedUp := by
  have hValue : (BitVec.ofNat 32 (n + 1)).toInt = n + 1 := by
    rw [BitVec.toInt_ofNat', Int.bmod_eq_of_le (by omega) (by omega), Int.natCast_add, Int.natCast_one]
  have hSpend : BitVec.ofNat 32 (n + 1 + 1) - 1#32 = BitVec.ofNat 32 (n + 1) := by
    rw [BitVec.ofNat_add, BitVec.add_sub_cancel]
  rw [Machine.UsedUp, hCounter, hSpend, BitVec.slt_eq_decide, hValue, decide_eq_false_iff_not, not_not,
    BitVec.toInt_zero]
  omega

/-- The running task spends its quantum but for the last tick. -/
theorem Runs.usedUp (run : Runs allowed extMemK image M) {n : Nat} (hn : n < 100)
    (hCounter : (M.kernel.heap M.kernel.current).counter = BitVec.ofNat 32 (n + 1)) :
    ∃ M', Runs allowed extMemK image M' ∧ M'.UsedUp ∧ M'.kernel.task = M.kernel.task ∧
      M'.kernel.current = M.kernel.current ∧ ∀ p, (M'.kernel.heap p).state = (M.kernel.heap p).state := by
  induction n generalizing M with
  | zero =>
      refine ⟨M, run, ?_, rfl, rfl, fun _ => rfl⟩
      rw [Machine.UsedUp, hCounter]
      decide
  | succ n ih =>
      have hSpend : BitVec.ofNat 32 (n + 1 + 1) - 1#32 = BitVec.ofNat 32 (n + 1) := by
        rw [BitVec.ofNat_add, BitVec.add_sub_cancel]
      have hLeft : ¬M.UsedUp := Machine.not_usedUp (by omega) hCounter
      have hTick : doTimer 3#32 M = .ok _ := doTimer_charged hLeft
      obtain ⟨M', hRun, hUsed, hTask, hCurrent, hState⟩ :=
        ih (run.tick hTick fun hUsed => absurd hUsed hLeft) (by omega) (by
          dsimp only [Kernel.setCounter, Kernel.setTask]
          rw [Function.update_self, hCounter, hSpend])
      refine ⟨M', hRun, hUsed, hTask, hCurrent, fun p => (hState p).trans ?_⟩
      dsimp only [Kernel.setCounter, Kernel.setTask]
      rw [Function.update_apply]
      split_ifs with hSame
      · rw [hSame]
      · rfl

/-- Task 0 alone: after its quantum the CPU has no current task. -/
theorem Runs.lose_current (run : Runs allowed extMemK image M) (hAllowed : ∀ k, allowed k)
    (hEmpty : ∀ s, M.kernel.task s = 0#32) (hCurrent : M.kernel.current ≠ 0#32) {n : Nat} (hn : n < 100)
    (hCounter : (M.kernel.heap M.kernel.current).counter = BitVec.ofNat 32 (n + 1)) :
    ∃ M', Runs allowed extMemK image M' ∧ M'.kernel.current = 0#32 := by
  obtain ⟨M, run, hUsed, hTask, hSame, _⟩ := run.usedUp hn hCounter
  rw [← hSame] at hCurrent
  rw [← hTask] at hEmpty
  have hNone (s : Nat) : ¬Runnable M.spent s := fun hs => hs.1.task (hEmpty s)
  have hPick : pickNext 2 M.spent = .ok (0, M.spent) := by
    rcases pickNext_cases (fun s hs => absurd hs (hNone s)) fun s hs => absurd hs (hNone s) with
      ⟨_, hPick⟩ | ⟨s, hs, _⟩ | ⟨_, _, s, hs, _⟩
    · exact hPick
    · exact absurd hs.runnable (hNone s)
    · exact absurd (runnable_refilled.mp hs.runnable) (hNone s)
  have hSwitch : switchTo 0 ⟨M.spent, M.tr⟩ = ⟨{ M.spent with current := M.kernel.task 0 }, 0⟩ := by
    rw [switchTo]
    refine if_neg fun hNull => hCurrent ?_
    exact hNull.symm.trans (hEmpty 0)
  have hCall : doTimer 3#32 M = .ok ⟨{ M.spent with current := M.kernel.task 0 }, 0⟩ := by
    rw [doTimer_usedUp hUsed (by decide), schedule, hPick, ← hSwitch]
    rfl
  exact ⟨_, run.tick hCall fun _ _ => hAllowed _, hEmpty 0⟩

/-- Where a task in another slot is runnable, the last tick of task 0 switches to one. -/
theorem Runs.lastTick (run : Runs SomeRunnable extMemK image M) (hUsed : M.UsedUp)
    (hOthers : ∀ s, M.kernel.task s ≠ M.kernel.current) (hSome : SomeRunnable M.spent) :
    ∃ M', Runs SomeRunnable extMemK image M' ∧ M'.tr ≠ 0 := by
  obtain ⟨next, k', hPick, hSame, _, hOccupied⟩ := run.inv.spent.pick
  have hNext := hOccupied hSome
  have hCall : doTimer 3#32 M = .ok (switchTo next ⟨k', M.tr⟩) := by
    rw [doTimer_usedUp hUsed (by decide), schedule, hPick]
    rfl
  have hOther : k'.task next ≠ k'.current := by
    rw [hSame.task, hSame.current]
    exact hOthers next
  refine ⟨_, run.tick hCall fun _ _ => hSome, ?_⟩
  rw [switchTo, if_neg hOther]
  have hPos := hNext.pos
  change next ≠ 0
  omega

end

theorem scheduler_loses_current : ¬∀ (extMemK : BitVec 16) (image : Image) (M : Machine),
    Runs (fun _ => True) extMemK image M → M.kernel.current ≠ 0#32 := by
  intro hAll
  have hCurrent : (smallKernel 1024#16).current = smallImage.initTask := bootKernel_current _ _ _ _ _
  have hStart : Runs (fun _ => True) 1024#16 smallImage ⟨smallKernel 1024#16, 0⟩ := Runs.boot _ _ _
  obtain ⟨M, hRun, hNull⟩ := hStart.lose_current (n := 14) (fun _ => trivial)
    (fun s => bootKernel_task _ _ _ _ _ s) (by dsimp only; rw [hCurrent]; exact smallImage.pos) (by omega)
    (by
      dsimp only
      rw [hCurrent, smallKernel, bootKernel_heap, Function.update_self]
      rfl)
  exact hAll _ _ M hRun hNull

/-- Task 0 forks and spends its quantum, and the child runs. -/
theorem child_runs : ∃ M, Runs SomeRunnable 15360#16 smallImage M ∧ M.tr ≠ 0 := by
  have hStart : Runs SomeRunnable 15360#16 smallImage ⟨smallKernel 15360#16, 0⟩ := Runs.boot _ _ _
  have hInv := (smallKernel_reaches 15360#16).inv
  have hInit := smallKernel_heap 15360#16
  have hNone := smallKernel_task 15360#16
  have hCurrent : (smallKernel 15360#16).current = 0x5000#32 := bootKernel_current _ _ _ _ _
  obtain ⟨ram, pid, k', nr, hNr, _, hProvided, hCall, hMade⟩ := smallKernel_child
  generalize smallKernel 15360#16 = k at *
  obtain ⟨i, hi, hFree, hTask, hHeap, _⟩ := hMade.page
  have hFresh : (0x5000#32) ≠ pageAddr i := (hInv.page_fresh hi hFree).1
  have hParent : k'.heap 0x5000#32 = initTask smallImage := by
    rw [hHeap, Function.update_of_ne hFresh]
    exact hInit
  have hSame : k'.current = 0x5000#32 := hMade.current.trans hCurrent
  have hFork : Runs SomeRunnable 15360#16 smallImage ⟨k', 0⟩ := hStart.fork (hInv.childPage hProvided) hCall
  obtain ⟨M, hRun, hUsed, hTasks, hRunning, hState⟩ := hFork.usedUp (n := 14) (by omega) (by
    dsimp only
    rw [hSame, hParent]
    rfl)
  have hSlot (s : Nat) : M.kernel.task s = if s = nr then pageAddr i else 0#32 := by
    rw [hTasks]
    dsimp only
    rw [hTask, Function.update_apply]
    exact if_congr Iff.rfl rfl (hNone s)
  have hChild : M.kernel.task nr = pageAddr i := by rw [hSlot, if_pos rfl]
  have hRuns : M.kernel.current = 0x5000#32 := hRunning.trans hSame
  refine hRun.lastTick hUsed (fun s => ?_) ⟨nr, ⟨hNr.1, hNr.2, ?_⟩, ?_⟩
  · rw [hSlot, hRuns]
    split_ifs
    · exact hFresh.symm
    · decide
  · change M.kernel.task nr ≠ 0#32
    rw [hChild]
    exact pageAddr_ne_zero hi
  · have hRunning : (k'.heap (pageAddr i)).state = taskRunning := by
      rw [hHeap, Function.update_self]
      change (k.heap k.current).state = taskRunning
      rw [hCurrent, hInit]
      rfl
    rw [Machine.spent, Kernel.setCounter, Kernel.setTask_heap, Kernel.setTask_task, hChild, hRuns,
      Function.update_of_ne hFresh.symm, hState]
    exact hRunning

theorem scheduler_keeps_current_child : ∃ M, Runs SomeRunnable 15360#16 smallImage M ∧ M.tr ≠ 0 ∧
    M.kernel.task M.tr = M.kernel.current := by
  obtain ⟨M, hRun, hTr⟩ := child_runs
  exact ⟨M, hRun, hTr, (scheduler_keeps_current hRun).2.1.mpr hTr⟩

end Linux011

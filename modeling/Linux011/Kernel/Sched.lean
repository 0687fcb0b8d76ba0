import Linux011.Kernel.Task

/-! `kernel/sched.c`: `sched_init`, `schedule` with `switch_to`, and `do_timer`. -/
namespace Linux011

/-- The loop of `sched_init`: two entries are cleared, each with its own `p++`,
and the loop header adds 2 more. -/
def schedInitLoop : Nat → Nat → Nat → Kernel → Kernel
  | 0, _, _, k => k
  | rounds + 1, i, p, k =>
      let k := k.setSlot i 0#32
      let k := k.setGdt p ⟨0#32, 0#32⟩
      let k := k.setGdt (p + 1) ⟨0#32, 0#32⟩
      schedInitLoop rounds (i + 1) (p + 2 + 2) k

def schedInit (image : Image) (k : Kernel) : Kernel :=
  let k := k.setGdt firstTssEntry (tssDesc (tssAddr image.initTask))
  let k := k.setGdt firstLdtEntry (ldtDesc (ldtAddr image.initTask))
  schedInitLoop nrTasks 0 (2 + firstTssEntry) k

/-- The kernel when `main` has called `mem_init` and `sched_init`. `m`, `heap`
and `gdt` are whatever the machine held before. -/
def bootKernel (extMemK : BitVec 16) (image : Image) (m : ByteMemory.Memory)
    (heap : BitVec 32 → TaskStruct) (gdt : Nat → Desc) : Kernel :=
  schedInit image
    { mm := bootMm extMemK m
      task := fun i => if i = 0 then image.initTask else 0#32
      heap := Function.update heap image.initTask (initTask image)
      current := image.initTask
      lastPid := 0#32
      gdt := gdt }

/-- The scan of `schedule` over slots `i`, `i - 1`, ..., 1. -/
def Kernel.scan (k : Kernel) : Nat → Int → Nat → Int × Nat
  | 0, c, next => (c, next)
  | i + 1, c, next =>
      let t := k.heap (k.task (i + 1))
      if k.task (i + 1) ≠ 0#32 ∧ t.state = taskRunning ∧ c < t.counter.toInt then
        k.scan i t.counter.toInt (i + 1)
      else k.scan i c next

/-- `(priority >> 1) + priority`. -/
def quantum (priority : BitVec 32) : BitVec 32 := priority.sshiftRight 1 + priority

/-- New counters for slots `i`, ..., 1. -/
def Kernel.refill : Nat → Kernel → Kernel
  | 0, k => k
  | i + 1, k =>
      let p := k.task (i + 1)
      let t := k.heap p
      refill i (if p = 0#32 then k else k.setTask p { t with counter := quantum t.priority })

/-- The `while(1)` of `schedule`: one scan, or a refill and a second one. A
second refill computes the same counters, so a loop that goes on then goes on
for ever. -/
def pickNext : Nat → Kernel → Except Stop (Nat × Kernel)
  | 0, _ => .error .hang
  | rounds + 1, k =>
      let (c, next) := k.scan (nrTasks - 1) (-1) 0
      if c ≠ 0 then .ok (next, k) else pickNext rounds (k.refill (nrTasks - 1))

/-- The kernel and the slot whose TSS the task register names. -/
structure Machine where
  kernel : Kernel
  tr : Nat

/-- `switch_to`, up to its `ljmp`. With `n` the slot that runs already, which `sched_init` has
emptied if it is slot 0, `ljmp` goes to a busy TSS and faults. -/
def switchTo (n : Nat) (M : Machine) : Machine :=
  if M.kernel.task n = M.kernel.current then M
  else { kernel := { M.kernel with current := M.kernel.task n }, tr := n }

def schedule (M : Machine) : Except Stop Machine := do
  let (next, k) ← pickNext 2 M.kernel
  .ok (switchTo next { M with kernel := k })

def doTimer (cpl : BitVec 32) (M : Machine) : Except Stop Machine :=
  let t := M.kernel.heap M.kernel.current
  let counter := t.counter - 1#32
  if BitVec.slt 0#32 counter then
    .ok { M with kernel := M.kernel.setTask M.kernel.current { t with counter := counter } }
  else
    let M := { M with kernel := M.kernel.setTask M.kernel.current { t with counter := 0#32 } }
    if cpl = 0#32 then .ok M else schedule M

/-- `p->state = state`. -/
def Kernel.setState (k : Kernel) (p state : BitVec 32) : Kernel :=
  k.setTask p { k.heap p with state := state }

theorem schedInitLoop_fields (rounds i p : Nat) (k : Kernel) :
    (schedInitLoop rounds i p k).mm = k.mm ∧ (schedInitLoop rounds i p k).heap = k.heap ∧
      (schedInitLoop rounds i p k).current = k.current ∧
      (schedInitLoop rounds i p k).lastPid = k.lastPid := by
  induction rounds generalizing i p k with
  | zero => exact ⟨rfl, rfl, rfl, rfl⟩
  | succ rounds ih =>
      rw [schedInitLoop]
      exact ih _ _ _

theorem schedInitLoop_task (rounds i p : Nat) (k : Kernel) (j : Nat) :
    (schedInitLoop rounds i p k).task j = if i ≤ j ∧ j < i + rounds then 0#32 else k.task j := by
  induction rounds generalizing i p k with
  | zero => rw [schedInitLoop, if_neg (by omega)]
  | succ rounds ih =>
      rw [schedInitLoop, ih]
      simp only [Kernel.setGdt_task, Kernel.setSlot_task]
      by_cases hSame : j = i
      · rw [hSame, Function.update_self, if_neg (by omega), if_pos (by omega)]
      · rw [Function.update_of_ne hSame]
        split_ifs <;> first | rfl | omega

section Boot

variable (extMemK : BitVec 16) (image : Image) (m : ByteMemory.Memory)
  (heap : BitVec 32 → TaskStruct) (gdt : Nat → Desc)

theorem bootKernel_mm : (bootKernel extMemK image m heap gdt).mm = bootMm extMemK m :=
  (schedInitLoop_fields _ _ _ _).1

theorem bootKernel_heap : (bootKernel extMemK image m heap gdt).heap =
    Function.update heap image.initTask (initTask image) :=
  (schedInitLoop_fields _ _ _ _).2.1

theorem bootKernel_current : (bootKernel extMemK image m heap gdt).current = image.initTask :=
  (schedInitLoop_fields _ _ _ _).2.2.1

theorem bootKernel_lastPid : (bootKernel extMemK image m heap gdt).lastPid = 0#32 :=
  (schedInitLoop_fields _ _ _ _).2.2.2

/-- `sched_init` empties every slot, the slot of `init_task` included. -/
theorem bootKernel_task (j : Nat) : (bootKernel extMemK image m heap gdt).task j = 0#32 := by
  rw [bootKernel, schedInit, schedInitLoop_task]
  split_ifs with hRange
  · rfl
  · have hj : j ≠ 0 := by
      unfold nrTasks at hRange
      omega
    simp [hj]

end Boot

/-- A machine whose `init_task` lies right behind the boot page tables. -/
def smallImage : Image where
  initTask := 0x5000#32
  pos := by decide
  low := by decide

def smallKernel (extMemK : BitVec 16) : Kernel :=
  bootKernel extMemK smallImage (fun _ => 0) (fun _ => initTask smallImage) fun _ => ⟨0#32, 0#32⟩

end Linux011

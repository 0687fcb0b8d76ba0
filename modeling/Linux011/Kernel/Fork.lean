import Linux011.Kernel.Task

/-! `kernel/fork.c`, and `sys_fork` of `sys_call.S` around it. -/
namespace Linux011

def eagain : BitVec 32 := 11#32
def enomem : BitVec 32 := 12#32

/-- The arguments of `copy_process` after `nr`, in the order of its parameter
list. -/
structure ForkFrame where
  ebp : BitVec 32
  edi : BitVec 32
  esi : BitVec 32
  gs : BitVec 32
  none : BitVec 32
  ebx : BitVec 32
  ecx : BitVec 32
  edx : BitVec 32
  origEax : BitVec 32
  fs : BitVec 32
  es : BitVec 32
  ds : BitVec 32
  eip : BitVec 32
  cs : BitVec 32
  eflags : BitVec 32
  esp : BitVec 32
  ss : BitVec 32
  deriving DecidableEq, Repr

/-- The linear base address of slot `nr`: `nr * TASK_SIZE`. -/
def taskBase (nr : Nat) : BitVec 32 := BitVec.ofNat 32 nr * taskSize

/-- `*p = t` for a page that `get_free_page` has returned. Where it had none, the structure
lies in the page directory. -/
def Kernel.place (k : Kernel) (p : BitVec 32) (t : TaskStruct) : Kernel :=
  if p = noPage then { k.setTask p t with mm := k.mm.storeWords p.toNat t.words } else k.setTask p t

/-- `*p` once page tables have been copied. -/
def Kernel.reread (k : Kernel) (p : BitVec 32) : Kernel :=
  if p = noPage then k.setTask p (k.mm.taskAt p.toNat) else k

/-- `get_limit(0x0f)` and `get_limit(0x17)` name entries 1 and 2 of the local
descriptor table of the running task, from where `get_base` reads too. -/
def copyMem (ram : BitVec 32 → BitVec 8) (nr : Nat) (p : BitVec 32) (k : Kernel) :
    Except Stop (BitVec 32 × Kernel) :=
  let codeLimit := getLimit (k.heap k.current).ldt1
  let dataLimit := getLimit (k.heap k.current).ldt2
  let oldCodeBase := getBase ram (ldtAddr k.current + 8#32) (k.heap k.current).ldt1
  let oldDataBase := getBase ram (ldtAddr k.current + 16#32) (k.heap k.current).ldt2
  if oldDataBase ≠ oldCodeBase then
    .error (.panic "Do not support different code and data base addresses")
  else if dataLimit < codeLimit then .error (.panic "Data limit is less than code limit")
  else do
    let newBase := taskBase nr
    let k := k.place p { k.heap p with ldt1 := setBase (k.heap p).ldt1 newBase }
    let k := k.place p { k.heap p with ldt2 := setBase (k.heap p).ldt2 newBase }
    let (failed, mm) ← copyPageTables k.mm oldDataBase newBase dataLimit
    let k := { k with mm := mm }.reread p
    if failed ≠ 0#32 then
      let mm ← freePageTables k.mm newBase dataLimit
      .ok (-enomem, { k with mm := mm })
    else .ok (0#32, k)

/-- The task structure of the child, before `copy_mem` moves its segments. -/
def childTask (parent : TaskStruct) (nr : Nat) (p current lastPid : BitVec 32) (regs : ForkFrame) :
    TaskStruct :=
  { parent with
    pid := lastPid
    pPptr := current
    tss :=
      { parent.tss with
        backLink := 0#32
        esp0 := 4096#32 + p
        ss0 := 0x10#32
        cr3 := parent.tss.cr3
        eip := regs.eip
        eflags := regs.eflags
        eax := 0#32
        ecx := regs.ecx
        edx := regs.edx
        ebx := regs.ebx
        esp := regs.esp
        ebp := regs.ebp
        esi := regs.esi
        edi := regs.edi
        es := regs.es &&& 0xffff#32
        cs := regs.cs &&& 0xffff#32
        ss := regs.ss &&& 0xffff#32
        ds := regs.ds &&& 0xffff#32
        fs := regs.fs &&& 0xffff#32
        gs := regs.gs &&& 0xffff#32
        ldt := ldtSelector nr
        traceBitmap := 0x80000000#32 } }

/-- `copy_process`. Both ways to `-EAGAIN` wait for a 0 that never comes. -/
def copyProcess (ram : BitVec 32 → BitVec 8) (nr : Nat) (regs : ForkFrame) (k : Kernel) :
    Except Stop (BitVec 32 × Kernel) := do
  let (p, mm) ← getFreePage k.mm
  let k := { k with mm := mm }
  if p = 0#32 then .ok (-eagain, k)
  else
    let k := k.setSlot nr p
    let k := k.place p (childTask (k.heap k.current) nr p k.current k.lastPid regs)
    let (failed, k) ← copyMem ram nr p k
    if failed ≠ 0#32 then
      let k := k.setSlot nr 0#32
      let mm ← freePage k.mm p
      .ok (-eagain, { k with mm := mm })
    else
      let k := k.setGdt (nr <<< 1 + firstTssEntry) (tssDesc (tssAddr p))
      let k := k.setGdt (nr <<< 1 + firstLdtEntry) (ldtDesc (ldtAddr p))
      .ok (k.lastPid, k)

/-- `if ((++last_pid)<0) last_pid=1;` -/
def nextPid (lastPid : BitVec 32) : BitVec 32 :=
  if (lastPid + 1#32).slt 0#32 then 1#32 else lastPid + 1#32

/-- Some occupied slot has this pid. -/
def Kernel.pidInUse (k : Kernel) (pid : BitVec 32) : Bool :=
  (List.range nrTasks).any fun i => k.task i ≠ 0#32 && (k.heap (k.task i)).pid == pid

/-- The rounds of `repeat:`; the loop of the source has no bound of its own. -/
def findPid (k : Kernel) : Nat → BitVec 32 → Except Stop (BitVec 32)
  | 0, _ => .error .hang
  | fuel + 1, lastPid =>
      let lastPid := nextPid lastPid
      if k.pidInUse lastPid then findPid k fuel lastPid else .ok lastPid

/-- The first empty slot from 1 on. -/
def Kernel.emptySlot (k : Kernel) : Option Nat :=
  (List.range' 1 (nrTasks - 1)).find? fun i => k.task i = 0#32

def findEmptyProcess (k : Kernel) : Except Stop (BitVec 32 × Kernel) := do
  let lastPid ← findPid k (nrTasks + 1) k.lastPid
  let k := { k with lastPid := lastPid }
  match k.emptySlot with
  | some i => .ok (BitVec.ofNat 32 i, k)
  | none => .ok (-eagain, k)

/-- `sys_fork`: `js` skips `copy_process` when the slot number is negative. -/
def sysFork (ram : BitVec 32 → BitVec 8) (regs : ForkFrame) (k : Kernel) : Except Stop (BitVec 32 × Kernel) := do
  let (nr, k) ← findEmptyProcess k
  if nr.msb then .ok (nr, k) else copyProcess ram nr.toNat regs k

end Linux011

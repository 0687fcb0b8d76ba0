import Linux011.Mm.Init

/-! `linux/sched.h` and `linux/head.h`: descriptors, task structures, and the
kernel state that fork and the scheduler work on. -/
namespace Linux011

/-- `struct desc_struct`: eight bytes, `a` the lower four. -/
structure Desc where
  a : BitVec 32
  b : BitVec 32
  deriving DecidableEq, Repr

/-- `set_base`: bytes 2, 3, 4 and 7. -/
def setBase (desc : Desc) (base : BitVec 32) : Desc where
  a := base.extractLsb' 0 16 ++ desc.a.extractLsb' 0 16
  b := base.extractLsb' 24 8 ++ desc.b.extractLsb' 8 16 ++ base.extractLsb' 16 8

/-- The base that the processor finds in a descriptor. -/
def Desc.base (desc : Desc) : BitVec 32 :=
  desc.b.extractLsb' 24 8 ++ desc.b.extractLsb' 0 8 ++ desc.a.extractLsb' 16 16

/-- What the `movb %3,%%dh` of `_get_base` leaves of the address of byte 4: nothing keeps
that operand out of `edx`, where the build has it. -/
def strayAddr (addr : BitVec 32) (byte7 : BitVec 8) : BitVec 32 :=
  (addr + 4#32).extractLsb' 16 16 ++ byte7 ++ (addr + 4#32).extractLsb' 0 8

/-- `get_base` of a descriptor at `addr`; `ram` is memory as the processor reads it. Byte 4
comes from the stray address. -/
def getBase (ram : BitVec 32 → BitVec 8) (addr : BitVec 32) (desc : Desc) : BitVec 32 :=
  desc.b.extractLsb' 24 8 ++ ram (strayAddr addr (desc.b.extractLsb' 24 8)) ++ desc.a.extractLsb' 16 16

/-- The byte at the stray address is the one that `get_base` wants. -/
def BaseRead (ram : BitVec 32 → BitVec 8) (addr : BitVec 32) (desc : Desc) : Prop :=
  ram (strayAddr addr (desc.b.extractLsb' 24 8)) = desc.b.extractLsb' 0 8

/-- `lsll`: the 20-bit limit, in pages when the granularity bit is set. -/
def lsl (desc : Desc) : BitVec 32 :=
  let limit := (desc.b.extractLsb' 16 4 ++ desc.a.extractLsb' 0 16).setWidth 32
  if desc.b.getLsbD 23 then (limit <<< 12) ||| 0xfff#32 else limit

/-- `get_limit`: `lsll`, then `incl`. -/
def getLimit (desc : Desc) : BitVec 32 := lsl desc + 1#32

/-- `_set_tssldt_desc`: all eight bytes are written. The limit is 104. -/
def tssldtDesc (addr : BitVec 32) (type : BitVec 8) : Desc where
  a := addr.extractLsb' 0 16 ++ 104#16
  b := addr.extractLsb' 24 8 ++ 0#8 ++ type ++ addr.extractLsb' 16 8

/-- `set_tss_desc`: an available TSS. -/
def tssDesc (addr : BitVec 32) : Desc := tssldtDesc addr 0x89#8

/-- `set_ldt_desc`. -/
def ldtDesc (addr : BitVec 32) : Desc := tssldtDesc addr 0x82#8

/-- The TSS of slot 0 in the table; the video selector comes before it. -/
def firstTssEntry : Nat := 5

/-- Each slot has its LDT behind its TSS. -/
def firstLdtEntry : Nat := firstTssEntry + 1

/-- The selector `_LDT(n)`. -/
def ldtSelector (n : Nat) : BitVec 32 := BitVec.ofNat 32 (n <<< 4 + firstLdtEntry <<< 3)

/-- `struct tss_struct`. -/
structure Tss where
  backLink : BitVec 32
  esp0 : BitVec 32
  ss0 : BitVec 32
  esp1 : BitVec 32
  ss1 : BitVec 32
  esp2 : BitVec 32
  ss2 : BitVec 32
  cr3 : BitVec 32
  eip : BitVec 32
  eflags : BitVec 32
  eax : BitVec 32
  ecx : BitVec 32
  edx : BitVec 32
  ebx : BitVec 32
  esp : BitVec 32
  ebp : BitVec 32
  esi : BitVec 32
  edi : BitVec 32
  es : BitVec 32
  cs : BitVec 32
  ss : BitVec 32
  ds : BitVec 32
  fs : BitVec 32
  gs : BitVec 32
  ldt : BitVec 32
  traceBitmap : BitVec 32
  deriving DecidableEq, Repr

/-- The states of a task. -/
def taskRunning : BitVec 32 := 0#32
def taskInterruptible : BitVec 32 := 1#32
def taskUninterruptible : BitVec 32 := 2#32
def taskZombie : BitVec 32 := 3#32
def taskStopped : BitVec 32 := 4#32

/-- `struct task_struct`; the array `ldt[3]` is three fields. -/
structure TaskStruct where
  state : BitVec 32
  counter : BitVec 32
  priority : BitVec 32
  pid : BitVec 32
  pPptr : BitVec 32
  ldt0 : Desc
  ldt1 : Desc
  ldt2 : Desc
  tss : Tss
  deriving DecidableEq, Repr

/-- `&p->ldt`. -/
def ldtAddr (p : BitVec 32) : BitVec 32 := p + 20#32

/-- `&p->tss`. -/
def tssAddr (p : BitVec 32) : BitVec 32 := p + 44#32

/-- `NR_TASKS`. -/
def nrTasks : Nat := 64

/-- The structure as it lies in memory, from `state` up. -/
def TaskStruct.words (t : TaskStruct) : List (BitVec 32) :=
  [t.state, t.counter, t.priority, t.pid, t.pPptr, t.ldt0.a, t.ldt0.b, t.ldt1.a, t.ldt1.b, t.ldt2.a, t.ldt2.b,
    t.tss.backLink, t.tss.esp0, t.tss.ss0, t.tss.esp1, t.tss.ss1, t.tss.esp2, t.tss.ss2, t.tss.cr3, t.tss.eip,
    t.tss.eflags, t.tss.eax, t.tss.ecx, t.tss.edx, t.tss.ebx, t.tss.esp, t.tss.ebp, t.tss.esi, t.tss.edi, t.tss.es,
    t.tss.cs, t.tss.ss, t.tss.ds, t.tss.fs, t.tss.gs, t.tss.ldt, t.tss.traceBitmap]

/-- Words one after another, from address `a` on. -/
def Mm.storeWords (mm : Mm) (a : Nat) : List (BitVec 32) → Mm
  | [] => mm
  | w :: ws => (mm.store a w).storeWords (a + 4) ws

/-- The structure that memory holds at `a`. -/
def Mm.taskAt (mm : Mm) (a : Nat) : TaskStruct where
  state := mm.load a
  counter := mm.load (a + 4)
  priority := mm.load (a + 8)
  pid := mm.load (a + 12)
  pPptr := mm.load (a + 16)
  ldt0 := ⟨mm.load (a + 20), mm.load (a + 24)⟩
  ldt1 := ⟨mm.load (a + 28), mm.load (a + 32)⟩
  ldt2 := ⟨mm.load (a + 36), mm.load (a + 40)⟩
  tss :=
    { backLink := mm.load (a + 44), esp0 := mm.load (a + 48), ss0 := mm.load (a + 52), esp1 := mm.load (a + 56),
      ss1 := mm.load (a + 60), esp2 := mm.load (a + 64), ss2 := mm.load (a + 68), cr3 := mm.load (a + 72),
      eip := mm.load (a + 76), eflags := mm.load (a + 80), eax := mm.load (a + 84), ecx := mm.load (a + 88),
      edx := mm.load (a + 92), ebx := mm.load (a + 96), esp := mm.load (a + 100), ebp := mm.load (a + 104),
      esi := mm.load (a + 108), edi := mm.load (a + 112), es := mm.load (a + 116), cs := mm.load (a + 120),
      ss := mm.load (a + 124), ds := mm.load (a + 128), fs := mm.load (a + 132), gs := mm.load (a + 136),
      ldt := mm.load (a + 140), traceBitmap := mm.load (a + 144) }

/-- Where the linker put `init_task`: below 1MB, and not at address 0, which is
`pg_dir`. -/
structure Image where
  initTask : BitVec 32
  pos : initTask ≠ 0#32
  low : initTask < lowMem

/-- `INIT_TASK`. -/
def initTask (image : Image) : TaskStruct where
  state := 0#32
  counter := 15#32
  priority := 15#32
  pid := 0#32
  pPptr := image.initTask
  ldt0 := ⟨0#32, 0#32⟩
  ldt1 := ⟨0xfff#32, 0xc0fa00#32⟩
  ldt2 := ⟨0xfff#32, 0xc0f200#32⟩
  tss :=
    { backLink := 0#32, esp0 := 4096#32 + image.initTask, ss0 := 0x10#32, esp1 := 0#32, ss1 := 0#32,
      esp2 := 0#32, ss2 := 0#32, cr3 := 0#32, eip := 0#32, eflags := 0#32, eax := 0#32, ecx := 0#32,
      edx := 0#32, ebx := 0#32, esp := 0#32, ebp := 0#32, esi := 0#32, edi := 0#32, es := 0x17#32,
      cs := 0x17#32, ss := 0x17#32, ds := 0x17#32, fs := 0x17#32, gs := 0x17#32,
      ldt := ldtSelector 0, traceBitmap := 0x80000000#32 }

/-- Memory, the globals of `fork.c` and `sched.c`, and the descriptor table. A
task structure is an object of its own, found by its address; `NULL` is 0.
Indices of `gdt` from 256 on stand for the memory behind the table. -/
structure Kernel where
  mm : Mm
  task : Nat → BitVec 32
  heap : BitVec 32 → TaskStruct
  current : BitVec 32
  lastPid : BitVec 32
  gdt : Nat → Desc

/-- `*p = t`. -/
def Kernel.setTask (k : Kernel) (p : BitVec 32) (t : TaskStruct) : Kernel :=
  { k with heap := Function.update k.heap p t }

/-- `task[nr] = p`. -/
def Kernel.setSlot (k : Kernel) (nr : Nat) (p : BitVec 32) : Kernel :=
  { k with task := Function.update k.task nr p }

/-- One entry of `gdt`. -/
def Kernel.setGdt (k : Kernel) (i : Nat) (desc : Desc) : Kernel :=
  { k with gdt := Function.update k.gdt i desc }

section Fields

variable (k : Kernel) (p : BitVec 32) (t : TaskStruct) (nr i : Nat) (desc : Desc)

@[simp] theorem Kernel.setTask_mm : (k.setTask p t).mm = k.mm := rfl
@[simp] theorem Kernel.setTask_task : (k.setTask p t).task = k.task := rfl
@[simp] theorem Kernel.setTask_current : (k.setTask p t).current = k.current := rfl
@[simp] theorem Kernel.setTask_gdt : (k.setTask p t).gdt = k.gdt := rfl
@[simp] theorem Kernel.setTask_heap : (k.setTask p t).heap = Function.update k.heap p t := rfl
@[simp] theorem Kernel.setSlot_mm : (k.setSlot nr p).mm = k.mm := rfl
@[simp] theorem Kernel.setSlot_task : (k.setSlot nr p).task = Function.update k.task nr p := rfl
@[simp] theorem Kernel.setSlot_heap : (k.setSlot nr p).heap = k.heap := rfl
@[simp] theorem Kernel.setSlot_current : (k.setSlot nr p).current = k.current := rfl
@[simp] theorem Kernel.setSlot_lastPid : (k.setSlot nr p).lastPid = k.lastPid := rfl
@[simp] theorem Kernel.setSlot_gdt : (k.setSlot nr p).gdt = k.gdt := rfl
@[simp] theorem Kernel.setGdt_mm : (k.setGdt i desc).mm = k.mm := rfl
@[simp] theorem Kernel.setGdt_task : (k.setGdt i desc).task = k.task := rfl
@[simp] theorem Kernel.setGdt_heap : (k.setGdt i desc).heap = k.heap := rfl
@[simp] theorem Kernel.setGdt_current : (k.setGdt i desc).current = k.current := rfl
@[simp] theorem Kernel.setGdt_lastPid : (k.setGdt i desc).lastPid = k.lastPid := rfl

end Fields

/-- With the right byte there `get_base` reads the base. -/
theorem getBase_eq {ram : BitVec 32 → BitVec 8} {addr : BitVec 32} {desc : Desc} (h : BaseRead ram addr desc) :
    getBase ram addr desc = desc.base := by
  rw [getBase, h, Desc.base]

/-- What `set_base` has stored is the base. -/
theorem base_setBase (desc : Desc) (base : BitVec 32) : (setBase desc base).base = base := by
  apply BitVec.eq_of_getLsbD_eq
  intro i hi
  simp only [Desc.base, setBase, BitVec.getLsbD_append, BitVec.getLsbD_extractLsb']
  grind

/-- A new base leaves the limit alone. -/
theorem lsl_setBase (desc : Desc) (base : BitVec 32) : lsl (setBase desc base) = lsl desc := by
  have hLimit : (setBase desc base).b.extractLsb' 16 4 = desc.b.extractLsb' 16 4 := by
    apply BitVec.eq_of_getLsbD_eq
    intro i hi
    simp only [setBase, BitVec.getLsbD_append, BitVec.getLsbD_extractLsb']
    grind
  have hLow : (setBase desc base).a.extractLsb' 0 16 = desc.a.extractLsb' 0 16 := by
    apply BitVec.eq_of_getLsbD_eq
    intro i hi
    simp only [setBase, BitVec.getLsbD_append, BitVec.getLsbD_extractLsb']
    grind
  have hGranularity : (setBase desc base).b.getLsbD 23 = desc.b.getLsbD 23 := by
    simp only [setBase, BitVec.getLsbD_append, BitVec.getLsbD_extractLsb']
    grind
  rw [lsl, lsl, hLimit, hLow, hGranularity]

theorem getLimit_setBase (desc : Desc) (base : BitVec 32) :
    getLimit (setBase desc base) = getLimit desc := by
  rw [getLimit, getLimit, lsl_setBase]

end Linux011

import Linux011.Kernel.OutOfMemory
import Linux011.Library.I386

/-! `sys_call.S`: `int 0x80`, `system_call`, `sys_fork` and `ret_from_sys_call`,
down to the words that `copy_process` finds on the stack. -/
namespace Linux011

open I386

/-- What the kernel does not choose: the upper halves of pushed segment
registers, the memory above the kernel stack, the registers that functions in C
use, the address behind the `call` of `system_call`, and memory as `get_base` finds it. -/
structure Surroundings where
  high : BitVec 32 → BitVec 16
  above : Stream' (BitVec 16)
  clobber : Cpu → BitVec 32 × BitVec 32
  returnAddress : BitVec 32
  ram : BitVec 32 → BitVec 8

/-- The entries of `sys_call_table` that are not 0. -/
inductive SysCall where
  | sysFork
  deriving DecidableEq, Repr

/-- 87 entries; `none` is 0. -/
def sysCallTable : List (Option SysCall) := none :: none :: some .sysFork :: List.replicate 84 none

/-- Why `system_call` does not come back: a function in C stops, or the `call`
goes through an entry that is 0 or lies outside the table. -/
inductive Lost where
  | stop (s : Stop)
  | wild
  deriving DecidableEq, Repr

/-- `call` of a function in C, which finds its arguments on the stack. -/
def callC (env : Surroundings) (f : (Nat → BitVec 32) → Kernel → Except Stop (BitVec 32 × Kernel))
    (c : Cpu) (k : Kernel) : Except Stop (Cpu × Kernel) := do
  let (result, k) ← f (fun i => long i c.stack) k
  .ok (c.returned env.clobber result, k)

/-- The parameter list of `copy_process`, after `nr`. -/
def copyProcessArgs (arg : Nat → BitVec 32) : ForkFrame where
  ebp := arg 1
  edi := arg 2
  esi := arg 3
  gs := arg 4
  none := arg 5
  ebx := arg 6
  ecx := arg 7
  edx := arg 8
  origEax := arg 9
  fs := arg 10
  es := arg 11
  ds := arg 12
  eip := arg 13
  cs := arg 14
  eflags := arg 15
  esp := arg 16
  ss := arg 17

/-- `sys_fork`; `testl %eax, %eax` and `js` look at the sign of the slot. -/
def sysForkStub (env : Surroundings) (c : Cpu) (k : Kernel) : Except Stop (Cpu × Kernel) := do
  let (c, k) ← callC env (fun _ => findEmptyProcess) c k
  if (c.reg .eax).msb then .ok (c, k)
  else
    let c := run env.high [.pushSeg .gs, .pushl .esi, .pushl .edi, .pushl .ebp, .pushl .eax] c
    let (c, k) ← callC env (fun arg => copyProcess env.ram (arg 0).toNat (copyProcessArgs arg)) c k
    .ok (run env.high [.addEsp 20] c, k)

/-- `system_call` up to its `call`. -/
def systemCallEntry : List Instr :=
  [.pushSeg .ds, .pushSeg .es, .pushSeg .fs, .pushl .eax, .pushl .edx, .pushl .ecx, .pushl .ebx,
    .movl 0x10#32 .edx, .movw .edx .ds, .movw .edx .es, .movl 0x17#32 .edx, .movw .edx .fs]

def retFromSysCall : List Instr :=
  [.popl .eax, .popl .ebx, .popl .ecx, .popl .edx, .addEsp 4, .popSeg .fs, .popSeg .es, .popSeg .ds]

/-- The operand of `call sys_call_table(, %eax, 4)`: the scaled index wraps at
4GB. -/
def sysCallAt (eax : BitVec 32) : Option (Option SysCall) := sysCallTable[eax.toNat % 2 ^ 30]?

def systemCall (env : Surroundings) (c : Cpu) (k : Kernel) : Except Lost (Cpu × Kernel) :=
  let c := run env.high systemCallEntry c
  match sysCallAt (c.reg .eax) with
  | some (some .sysFork) =>
      match sysForkStub env (c.push env.returnAddress) k with
      | .ok (c, k) => .ok (run env.high retFromSysCall (run env.high [.pushl .eax] c.pop), k)
      | .error s => .error (.stop s)
  | _ => .error .wild

/-- `int 0x80` in ring 3, up to and including the `iret`. -/
def int80 (env : Surroundings) (x : Context) (k : Kernel) : Except Lost (Context × Kernel) :=
  match systemCall env (trap env.high env.above (k.heap k.current).tss.esp0 x) k with
  | .ok (c, k) => .ok (iret c, k)
  | .error lost => .error lost

/-- The context in which a system call returns `result`. -/
def returning (x : Context) (result : BitVec 32) : Context :=
  { x with reg := Function.update x.reg .eax result }

/-- The arguments that `sys_fork` hands to `copy_process` when the program was
in context `x`. -/
def forkFrame (env : Surroundings) (esp0 : BitVec 32) (x : Context) : ForkFrame where
  ebp := x.reg .ebp
  edi := x.reg .edi
  esi := x.reg .esi
  gs := segWord env.high (esp0 - 56#32) (x.seg .gs)
  none := env.returnAddress
  ebx := x.reg .ebx
  ecx := x.reg .ecx
  edx := x.reg .edx
  origEax := x.reg .eax
  fs := segWord env.high (esp0 - 32#32) (x.seg .fs)
  es := segWord env.high (esp0 - 28#32) (x.seg .es)
  ds := segWord env.high (esp0 - 24#32) (x.seg .ds)
  eip := x.eip
  cs := segWord env.high (esp0 - 16#32) x.cs
  eflags := x.eflags
  esp := x.esp
  ss := segWord env.high (esp0 - 4#32) x.ss

/-- The processor at the first instruction of `sys_fork`. -/
def calling (env : Surroundings) (esp0 : BitVec 32) (x : Context) : Cpu :=
  (run env.high systemCallEntry (trap env.high env.above esp0 x)).push env.returnAddress

section

variable (env : Surroundings) (esp0 : BitVec 32) (x : Context) (k : Kernel)

theorem calling_stack : (calling env esp0 x).stack =
    pushLong env.returnAddress (pushLong (x.reg .ebx) (pushLong (x.reg .ecx) (pushLong (x.reg .edx)
      (pushLong (x.reg .eax) (pushLong (segWord env.high (esp0 - 32#32) (x.seg .fs))
        (pushLong (segWord env.high (esp0 - 28#32) (x.seg .es))
          (pushLong (segWord env.high (esp0 - 24#32) (x.seg .ds))
            (pushLong x.eip (pushLong (segWord env.high (esp0 - 16#32) x.cs) (pushLong x.eflags
              (pushLong x.esp (pushLong (segWord env.high (esp0 - 4#32) x.ss) env.above)))))))))))) := by
  simp [calling, systemCallEntry, exec, trap, Cpu.push, Cpu.setReg, Cpu.setSeg, BitVec.sub_sub]

/-- A function in C has returned to `sys_fork`, and nothing that belongs to the
program has changed. -/
structure Returned (c : Cpu) (result : BitVec 32) : Prop where
  stack : c.stack = (calling env esp0 x).stack
  esi : c.reg .esi = x.reg .esi
  edi : c.reg .edi = x.reg .edi
  ebp : c.reg .ebp = x.reg .ebp
  gs : c.seg .gs = x.seg .gs
  esp : c.esp = (calling env esp0 x).esp
  eax : c.reg .eax = result

/-- What the function called has left in `eax` is all that changes for the
program. -/
theorem iret_retFromSysCall {c : Cpu} {result : BitVec 32} (h : Returned env esp0 x c result) :
    iret (run env.high retFromSysCall (run env.high [.pushl .eax] c.pop)) = returning x result := by
  have hStack := h.stack.trans (calling_stack env esp0 x)
  refine Context.ext ?_ ?_ ?_ ?_ ?_ ?_ ?_
  · funext r
    cases r <;> simp [iret, returning, retFromSysCall, exec, Cpu.push, Cpu.pop, Cpu.setReg, Cpu.setSeg,
      hStack, h.esi, h.edi, h.ebp, h.eax]
  · funext s
    cases s <;> simp [iret, returning, retFromSysCall, exec, Cpu.push, Cpu.pop, Cpu.setReg, Cpu.setSeg,
      hStack, h.gs]
  all_goals simp [iret, returning, retFromSysCall, exec, Cpu.push, Cpu.pop, Cpu.setReg, Cpu.setSeg, hStack]

/-- Where `sys_fork` calls `copy_process`. -/
def callingCopy (c : Cpu) : Cpu :=
  run env.high [.pushSeg .gs, .pushl .esi, .pushl .edi, .pushl .ebp, .pushl .eax] c

theorem returned_find (nr : BitVec 32) :
    Returned env esp0 x ((calling env esp0 x).returned env.clobber nr) nr :=
  ⟨rfl, rfl, rfl, rfl, rfl, rfl, rfl⟩

/-- The arguments of `copy_process`. -/
theorem copyProcessArgs_stack {c : Cpu} {nr : BitVec 32} (h : Returned env esp0 x c nr) :
    long 0 (callingCopy env c).stack = nr ∧
      copyProcessArgs (fun i => long i (callingCopy env c).stack) = forkFrame env esp0 x := by
  have hEsp : (calling env esp0 x).esp = esp0 - 52#32 := by
    simp [calling, systemCallEntry, exec, trap, Cpu.push, Cpu.setReg, Cpu.setSeg, BitVec.sub_sub]
  have hStack : (callingCopy env c).stack = pushLong nr (pushLong (x.reg .ebp) (pushLong (x.reg .edi)
      (pushLong (x.reg .esi) (pushLong (segWord env.high (esp0 - 56#32) (x.seg .gs))
        (calling env esp0 x).stack)))) := by
    simp [callingCopy, exec, Cpu.push, h.stack, h.esi, h.edi, h.ebp, h.gs, h.eax, h.esp, hEsp, BitVec.sub_sub]
  rw [hStack, calling_stack]
  exact ⟨long_zero_pushLong _ _, by simp [copyProcessArgs, forkFrame]⟩

theorem returned_copy {c : Cpu} {nr : BitVec 32} (h : Returned env esp0 x c nr) (result : BitVec 32) :
    Returned env esp0 x (run env.high [.addEsp 20] ((callingCopy env c).returned env.clobber result)) result where
  stack := by
    simpa [callingCopy, exec, Cpu.push, Cpu.returned, Cpu.setReg] using h.stack
  esi := h.esi
  edi := h.edi
  ebp := h.ebp
  gs := h.gs
  esp := by
    simpa [callingCopy, exec, Cpu.push, Cpu.returned, Cpu.setReg, BitVec.sub_sub] using h.esp
  eax := rfl

/-- `sys_fork` as `fork.c` sees it, and as the program sees it. -/
theorem sysForkStub_calling :
    match sysFork env.ram (forkFrame env esp0 x) k with
    | .error s => sysForkStub env (calling env esp0 x) k = .error s
    | .ok (result, k') => ∃ c, sysForkStub env (calling env esp0 x) k = .ok (c, k') ∧
        Returned env esp0 x c result := by
  rw [sysFork, sysForkStub, callC]
  cases hFind : findEmptyProcess k with
  | error s => rfl
  | ok found =>
      obtain ⟨nr, k₁⟩ := found
      have hFound := returned_find env esp0 x nr
      simp only [bind, Except.bind, hFound.eax]
      cases hSign : nr.msb with
      | true => exact ⟨_, rfl, hFound⟩
      | false =>
          obtain ⟨hNr, hArgs⟩ := copyProcessArgs_stack env esp0 x hFound
          simp only [Bool.false_eq_true, if_false]
          have hCall : callC env (fun arg => copyProcess env.ram (arg 0).toNat (copyProcessArgs arg))
              (callingCopy env ((calling env esp0 x).returned env.clobber nr)) k₁ =
              (copyProcess env.ram nr.toNat (forkFrame env esp0 x) k₁).bind fun (result, k) =>
                .ok ((callingCopy env ((calling env esp0 x).returned env.clobber nr)).returned env.clobber
                  result, k) := by
            rw [callC]
            beta_reduce
            rw [hNr, hArgs]
            rfl
          unfold callingCopy at hCall
          rw [hCall]
          cases copyProcess env.ram nr.toNat (forkFrame env esp0 x) k₁ with
          | error s => rfl
          | ok copied => exact ⟨_, rfl, returned_copy env esp0 x hFound copied.1⟩

/-- Once `eax` is 2, `int 0x80` is `sys_fork` on what the program had in its
registers. -/
theorem int80_fork (hEax : x.reg .eax = 2#32) :
    int80 env x k = match sysFork env.ram (forkFrame env (k.heap k.current).tss.esp0 x) k with
      | .error s => .error (.stop s)
      | .ok (result, k') => .ok (returning x result, k') := by
  have hEntry : sysCallAt ((run env.high systemCallEntry (trap env.high env.above
      (k.heap k.current).tss.esp0 x)).reg .eax) = some (some .sysFork) := by
    have hSame : (run env.high systemCallEntry (trap env.high env.above
      (k.heap k.current).tss.esp0 x)).reg .eax = x.reg .eax := rfl
    rw [hSame, hEax]
    decide
  have hStub := sysForkStub_calling env (k.heap k.current).tss.esp0 x k
  rw [int80, systemCall]
  simp only [hEntry]
  cases hFork : sysFork env.ram (forkFrame env (k.heap k.current).tss.esp0 x) k with
  | error s =>
      rw [hFork] at hStub
      rw [calling] at hStub
      simp only [hStub]
  | ok found =>
      obtain ⟨result, k'⟩ := found
      rw [hFork] at hStub
      obtain ⟨c, hRun, hReturned⟩ := hStub
      rw [calling] at hRun
      simp only [hRun]
      rw [iret_retFromSysCall env _ x hReturned]

end

/-- The registers of a task that goes on where a program was, with 0 in `eax`. -/
structure Resumes (x : Context) (t : Tss) : Prop where
  eip : t.eip = x.eip
  esp : t.esp = x.esp
  eflags : t.eflags = x.eflags
  eax : t.eax = 0#32
  ebx : t.ebx = x.reg .ebx
  ecx : t.ecx = x.reg .ecx
  edx : t.edx = x.reg .edx
  esi : t.esi = x.reg .esi
  edi : t.edi = x.reg .edi
  ebp : t.ebp = x.reg .ebp
  cs : t.cs = x.cs.setWidth 32
  ds : t.ds = (x.seg .ds).setWidth 32
  es : t.es = (x.seg .es).setWidth 32
  fs : t.fs = (x.seg .fs).setWidth 32
  gs : t.gs = (x.seg .gs).setWidth 32
  ss : t.ss = x.ss.setWidth 32

theorem resumes_child (env : Surroundings) (esp0 : BitVec 32) (x : Context) (parent : TaskStruct) (nr : Nat)
    (p current lastPid : BitVec 32) :
    Resumes x (placedTask (childTask parent nr p current lastPid (forkFrame env esp0 x)) nr).tss where
  eip := rfl
  esp := rfl
  eflags := rfl
  eax := rfl
  ebx := rfl
  ecx := rfl
  edx := rfl
  esi := rfl
  edi := rfl
  ebp := rfl
  cs := segWord_and _ _ _
  ds := segWord_and _ _ _
  es := segWord_and _ _ _
  fs := segWord_and _ _ _
  gs := segWord_and _ _ _
  ss := segWord_and _ _ _

/-- A fork that finds an empty slot reads both bases right, and every `get_free_page` finds
a page. -/
def ForkServed (ram : BitVec 32 → BitVec 8) (k : Kernel) : Prop :=
  ∀ nr, 1 ≤ nr → nr < 64 → k.task nr = 0#32 → BasesRead ram k ∧ ¬MemoryRunsOut nr k

/-- Nothing is known about what the kernel does not choose. -/
def someSurroundings : Surroundings where
  high := fun _ => 0xdead#16
  above := Stream'.const 0#16
  clobber := fun _ => (0#32, 0#32)
  returnAddress := 0x6f00#32
  ram := fun _ => 0#8

/-- A program about to fork, in the code of task 0. -/
def forkingContext : Context where
  reg := fun r => match r with
    | .eax => 2#32
    | .ecx => 3#32
    | .edx => 4#32
    | .ebx => 5#32
    | .esi => 6#32
    | .edi => 7#32
    | .ebp => 8#32
  seg := fun s => match s with
    | .gs => 0x1b#16
    | _ => 0x17#16
  eip := 0x6800#32
  cs := 0xf#16
  eflags := 0x202#32
  esp := 0x9000#32
  ss := 0x17#16

theorem KernelInvariant.served {extMemK : BitVec 16} {image : Image} {k : Kernel} {ram : BitVec 32 → BitVec 8} {s : Nat}
    (h : KernelInvariant extMemK image k) (hLive : Live k s) (hCurrent : k.current = taskAddr image k s)
    (hProvided : Provided ram k) : ForkServed ram k := by
  intro nr hPos hLt hEmpty
  refine ⟨hProvided.toBasesRead, ?_⟩
  rcases h.copyProcess_cases zeroFrame hCurrent hLive ⟨hPos, hLt⟩ hEmpty hProvided.toBasesRead with
    ⟨hPages, _⟩ | ⟨_, hFew⟩
  · exact hPages
  · have hRoom := hProvided.pages
    omega

end Linux011

import Linux011.Kernel.Interrupts
import Linux011.Kernel.Scheduler
import Linux011.Kernel.Selectors

/-! The task switch of the processor, which `switch_to` starts with its `ljmp`, and the
timer interrupt around it: a task that gives the processor away waits inside `do_timer`. -/
namespace Linux011

open I386 SubRegisters

/-- A selector stored in four bytes; the upper two keep what they held. -/
def putSelector (field : BitVec 32) (v : BitVec 16) : BitVec 32 := field.extractLsb' 16 16 ++ v

/-- What a task switch saves; the other fields are only read. -/
def Tss.save (t : Tss) (x : Context) : Tss :=
  { t with
    eip := x.eip
    eflags := x.eflags
    eax := x.reg .eax
    ecx := x.reg .ecx
    edx := x.reg .edx
    ebx := x.reg .ebx
    esp := x.esp
    ebp := x.reg .ebp
    esi := x.reg .esi
    edi := x.reg .edi
    es := putSelector t.es (x.seg .es)
    cs := putSelector t.cs x.cs
    ss := putSelector t.ss x.ss
    ds := putSelector t.ds (x.seg .ds)
    fs := putSelector t.fs (x.seg .fs)
    gs := putSelector t.gs (x.seg .gs) }

/-- The registers that a task switch loads. -/
def Tss.context (t : Tss) : Context where
  reg r := match r with
    | .eax => t.eax
    | .ecx => t.ecx
    | .edx => t.edx
    | .ebx => t.ebx
    | .esi => t.esi
    | .edi => t.edi
    | .ebp => t.ebp
  seg s := match s with
    | .ds => lowHalf t.ds
    | .es => lowHalf t.es
    | .fs => lowHalf t.fs
    | .gs => lowHalf t.gs
  eip := t.eip
  cs := lowHalf t.cs
  eflags := t.eflags
  esp := t.esp
  ss := lowHalf t.ss

/-- The task structure whose task state segment a descriptor names. -/
def Desc.task (desc : Desc) : BitVec 32 := desc.base - 44#32

def tssEntry (n : Nat) : Nat := 2 * n + firstTssEntry
def ldtEntry (n : Nat) : Nat := 2 * n + firstLdtEntry

/-- A program in ring 3 on the one processor. For each task structure, `stack` is what its
page holds from the `esp` on with which the task last gave the processor away. `switched` is
bit TS of `cr0`, which a task switch sets and nothing in the kernel clears. -/
structure Processor extends Machine where
  ldtr : BitVec 32
  cr3 : BitVec 32
  switched : Bool
  context : Context
  stack : BitVec 32 → Stream' (BitVec 16)

/-- The task structure behind the task register. -/
def Processor.running (P : Processor) : BitVec 32 := (P.kernel.gdt (tssEntry P.tr)).task

/-- `ljmp` to `_TSS(n)`: the target has to be an available task state segment of at least 104
bytes, name a local descriptor table, and hold selectors that can be loaded. -/
def Processor.ljmp (n : Nat) (P : Processor) : Except Fault Processor :=
  let desc := P.kernel.gdt (tssEntry n)
  let old := P.kernel.heap P.running
  let k := P.kernel.setTask P.running { old with tss := old.tss.save P.context }
  let k := k.setGdt (tssEntry P.tr) ((k.gdt (tssEntry P.tr)).withType ((k.gdt (tssEntry P.tr)).type &&& 0xfd#8))
  let k := k.setGdt (tssEntry n) (desc.withType (desc.type ||| 2#8))
  let t := (k.heap desc.task).tss
  if desc.type &&& 0x9f#8 ≠ 0x89#8 then .error .generalProtection
  else if lsl desc < 103#32 then .error .invalidTss
  else if (k.gdt (t.ldt.toNat / 8)).type &&& 0x9f#8 ≠ 0x82#8 then .error .invalidTss
  else
    match k.selectorFault t.ldt t.context with
    | some fault => .error fault
    | none =>
        .ok { P with kernel := k, tr := n, ldtr := t.ldt, cr3 := t.cr3, switched := true, context := t.context }

/-- A function in C that gives the processor away at one place: how it comes there, without
loading a segment register, and what it does when it has it back. -/
structure Yielding (f : Cdecl) where
  before : Cpu → Cpu
  after : Cpu → Cpu
  split : ∀ c, after (before c) = f.body c
  seg : ∀ c, (before c).seg = c.seg
  eip : BitVec 32
  eflags : Cpu → BitVec 32

/-- The text of the kernel around `do_timer`; the place is the `ljmp` of `switch_to`. -/
structure Text where
  link : Linkage
  above : Stream' (BitVec 16)
  timer : Yielding (link.code (link.symbol .doTimer))

namespace Text

variable (text : Text)

/-- Ring 0 as a task state segment sees it. -/
def suspended (c : Cpu) : Context := ⟨c.reg, c.seg, text.timer.eip, 0x8#16, text.timer.eflags c, c.esp, 0x10#16⟩

/-- Behind the `ljmp`: the task returns from `do_timer` and leaves the stub, or it is a new one
and in ring 3 already. -/
def resume (x : Context) (stack : Stream' (BitVec 16)) : Context :=
  if x.cs &&& 3#16 = 0#16 then
    iret (run text.link.high (timerInterrupt text.link).leave (text.timer.after ⟨x.reg, x.seg, x.esp, stack⟩))
  else x

/-- The `ljmp` in the kernel `M.kernel`, with the processor in `c`, up to the next instruction in ring 3. -/
def giveAway (M : Machine) (c : Cpu) (P : Processor) : Except Fault Processor := do
  let stack := Function.update P.stack P.running c.stack
  let P ← { P with kernel := M.kernel, context := text.suspended c, stack := stack }.ljmp M.tr
  .ok { P with context := text.resume P.context (P.stack P.running) }

/-- A timer interrupt in ring 3, up to the next instruction there. -/
def tick (P : Processor) : Except Fault Processor :=
  let c := trap text.link.high text.above (P.kernel.heap P.running).tss.esp0 P.context
  let called := (timerInterrupt text.link).atCall text.link c
  match doTimer (long 0 called.stack) P.toMachine with
  | .error s => .error (.stop s)
  | .ok M =>
      if M.kernel.current = P.kernel.current then
        .ok { P with toMachine := M, context := iret ((timerInterrupt text.link).atIret text.link c) }
      else text.giveAway M (text.timer.before (called.push text.link.returnAddress)) P

end Text

section

variable (t : Tss) (x : Context) (type : BitVec 8) (text : Text)

@[simp] theorem lowHalf_putSelector (field : BitVec 32) (v : BitVec 16) : lowHalf (putSelector field v) = v :=
  (extract_append_low _ v 0 16 (by decide)).trans (extract_self v)

@[simp] theorem Tss.context_save : (t.save x).context = x := by
  refine Context.ext ?_ ?_ rfl (lowHalf_putSelector _ _) rfl rfl (lowHalf_putSelector _ _)
  · funext r
    cases r <;> rfl
  · funext s
    cases s <;> exact lowHalf_putSelector _ _

@[simp] theorem Desc.task_tssldtDesc (p : BitVec 32) : (tssldtDesc (tssAddr p) type).task = p := by
  rw [Desc.task, Desc.base_tssldtDesc, tssAddr, BitVec.add_sub_cancel]

/-- The ring of an interrupted program, which the stub hands to `do_timer`. -/
theorem cpl_timerInterrupt (esp0 : BitVec 32) :
    long 0 ((timerInterrupt text.link).atCall text.link (trap text.link.high text.above esp0 x)).stack =
      (x.cs &&& 3#16).setWidth 32 := by
  have hMask (esp : BitVec 32) : segWord text.link.high esp x.cs &&& 3#32 = (x.cs &&& 3#16).setWidth 32 := by
    have hPart : 3#32 = 0xffff#32 &&& 3#32 := by decide
    rw [hPart, ← BitVec.and_assoc, segWord_and, BitVec.setWidth_and]
    rfl
  simp [Stub.atCall, timerInterrupt, exec, trap, Cpu.push, Cpu.setReg, Cpu.setSeg, hMask]

theorem cpl_user {x : Context} {esp0 : BitVec 32} (h : x.cs &&& 3#16 = 3#16) :
    long 0 ((timerInterrupt text.link).atCall text.link (trap text.link.high text.above esp0 x)).stack = 3#32 := by
  rw [cpl_timerInterrupt, h]
  rfl

/-- At the `ljmp` the segment registers are those of the stub. -/
theorem suspended_segments (esp0 : BitVec 32) (c : Cpu) (hGs : UserData (x.seg .gs))
    (hBefore : c = text.timer.before (((timerInterrupt text.link).atCall text.link
      (trap text.link.high text.above esp0 x)).push text.link.returnAddress)) : KernelSegments (text.suspended c) := by
  have hPush (c : Cpu) (v : BitVec 32) : (c.push v).seg = c.seg := rfl
  have hSeg : c.seg = ((timerInterrupt text.link).atCall text.link (trap text.link.high text.above esp0 x)).seg := by
    rw [hBefore, text.timer.seg, hPush]
  clear hBefore
  have hDs : c.seg .ds = 0x10#16 := by
    rw [hSeg]
    simp [Stub.atCall, timerInterrupt, exec, trap, Cpu.push, Cpu.setReg, Cpu.setSeg, lowHalf]
  have hEs : c.seg .es = 0x10#16 := by
    rw [hSeg]
    simp [Stub.atCall, timerInterrupt, exec, trap, Cpu.push, Cpu.setReg, Cpu.setSeg, lowHalf]
  have hFs : c.seg .fs = 0x17#16 := by
    rw [hSeg]
    simp [Stub.atCall, timerInterrupt, exec, trap, Cpu.push, Cpu.setReg, Cpu.setSeg, lowHalf]
  have hGsOf : c.seg .gs = x.seg .gs := by
    rw [hSeg]
    simp [Stub.atCall, timerInterrupt, exec, trap, Cpu.push, Cpu.setReg, Cpu.setSeg]
  exact ⟨rfl, rfl, hDs, hEs, hFs, show UserData (c.seg .gs) from hGsOf ▸ hGs⟩

/-- A task that was interrupted and gave the processor away goes on where it was interrupted. -/
theorem resume_suspended (esp0 : BitVec 32) (c : Cpu)
    (hBefore : c = text.timer.before (((timerInterrupt text.link).atCall text.link
      (trap text.link.high text.above esp0 x)).push text.link.returnAddress)) :
    text.resume (text.suspended c) c.stack = x := by
  have hBody : text.timer.after c = ((timerInterrupt text.link).atCall text.link
      (trap text.link.high text.above esp0 x)).call (text.link.code (text.link.symbol .doTimer))
        text.link.returnAddress := by
    rw [hBefore, text.timer.split]
    rfl
  have hStub : run text.link.high (timerInterrupt text.link).leave (text.timer.after c) =
      (timerInterrupt text.link).atIret text.link (trap text.link.high text.above esp0 x) := by
    rw [hBody]
    rfl
  rw [Text.resume, Text.suspended, if_pos (show (0x8#16) &&& 3#16 = 0#16 by decide), hStub, atIret_timerInterrupt,
    iret_trap]

theorem resume_user (hUser : x.cs &&& 3#16 ≠ 0#16) (stack : Stream' (BitVec 16)) : text.resume x stack = x :=
  if_neg hUser

/-- A child goes on in the context of its parent, with 0 in `eax`. -/
theorem Resumes.context {x : Context} {t : Tss} (h : Resumes x t) : t.context = returning x 0#32 := by
  have hSelector (v : BitVec 16) : lowHalf (v.setWidth 32) = v := by
    apply BitVec.eq_of_getLsbD_eq
    intro i hi
    simp only [lowHalf, BitVec.getLsbD_extractLsb', BitVec.getLsbD_setWidth]
    grind
  refine Context.ext ?_ ?_ h.eip ?_ h.eflags h.esp ?_
  · funext r
    cases r <;> simp [Tss.context, returning, h.eax, h.ebx, h.ecx, h.edx, h.esi, h.edi, h.ebp]
  · funext s
    cases s <;> simp [Tss.context, returning, h.ds, h.es, h.fs, h.gs, hSelector]
  · simp [Tss.context, returning, h.cs, hSelector]
  · simp [Tss.context, returning, h.ss, hSelector]

end

/-- The kernel behind a task switch from the task at `p` to the one at `q`. -/
def Kernel.switched (k : Kernel) (z : Context) (p q : BitVec 32) (tr next : Nat) : Kernel :=
  ((k.setTask p { k.heap p with tss := (k.heap p).tss.save z }).setGdt (tssEntry tr) (tssDesc (tssAddr p))).setGdt
    (tssEntry next) (tssldtDesc (tssAddr q) 0x8b#8)

theorem tssEntry_inj {a b : Nat} : tssEntry a = tssEntry b ↔ a = b := by
  unfold tssEntry
  omega

theorem ldtEntry_ne {a b : Nat} : ldtEntry a ≠ tssEntry b := by
  unfold ldtEntry tssEntry firstLdtEntry
  omega

section Switched

variable (k : Kernel) (z : Context) (p q : BitVec 32) (tr next : Nat)

theorem switched_heap (r : BitVec 32) : (k.switched z p q tr next).heap r =
    { k.heap r with tss := if r = p then (k.heap r).tss.save z else (k.heap r).tss } := by
  change Function.update k.heap p _ r = _
  by_cases hSame : r = p
  · rw [hSame, Function.update_self, if_pos rfl]
  · rw [Function.update_of_ne hSame, if_neg hSame]

theorem switched_tss (s : Nat) : (k.switched z p q tr next).gdt (tssEntry s) =
    if s = next then tssldtDesc (tssAddr q) 0x8b#8 else if s = tr then tssDesc (tssAddr p) else k.gdt (tssEntry s) := by
  change Function.update (Function.update k.gdt _ _) _ _ _ = _
  simp only [Function.update_apply, tssEntry_inj]

theorem switched_ldt (s : Nat) : (k.switched z p q tr next).gdt (ldtEntry s) = k.gdt (ldtEntry s) :=
  (Function.update_of_ne ldtEntry_ne _ _).trans (Function.update_of_ne ldtEntry_ne _ _)

end Switched

section

variable {P : Processor}

theorem ldtSelector_index {n : Nat} (hn : n < 64) : (ldtSelector n).toNat / 8 = ldtEntry n := by
  have hAll : ∀ n : Fin 64, (ldtSelector n).toNat / 8 = ldtEntry n := by decide
  exact hAll ⟨n, hn⟩

theorem Processor.ljmp_eq {p q : BitVec 32} {n : Nat} (hn : n < 64)
    (hOld : P.kernel.gdt (tssEntry P.tr) = tssldtDesc (tssAddr p) 0x8b#8)
    (hNew : P.kernel.gdt (tssEntry n) = tssDesc (tssAddr q))
    (hLdt : P.kernel.gdt (ldtEntry n) = ldtDesc (ldtAddr q)) (hNe : p ≠ q)
    (hSelector : (P.kernel.heap q).tss.ldt = ldtSelector n)
    (hLoads : (P.kernel.switched P.context p q P.tr n).selectorFault (ldtSelector n) (P.kernel.heap q).tss.context =
      none) :
    P.ljmp n = .ok { P with
      kernel := P.kernel.switched P.context p q P.tr n
      tr := n
      ldtr := ldtSelector n
      cr3 := (P.kernel.heap q).tss.cr3
      switched := true
      context := (P.kernel.heap q).tss.context } := by
  have hRunning : P.running = p := by rw [Processor.running, hOld, Desc.task_tssldtDesc]
  have hTask : (tssDesc (tssAddr q)).task = q := Desc.task_tssldtDesc _ q
  have hOther : tssEntry P.tr ≠ tssEntry n := by
    intro hSame
    rw [hSame, hNew] at hOld
    have hType := congrArg Desc.type hOld
    rw [tssDesc, Desc.type_tssldtDesc, Desc.type_tssldtDesc] at hType
    exact absurd hType (by decide)
  have hHeap : Function.update P.kernel.heap p { P.kernel.heap p with tss := (P.kernel.heap p).tss.save P.context } q =
      P.kernel.heap q := Function.update_of_ne hNe.symm _ _
  have hType : (tssDesc (tssAddr q)).type = 0x89#8 := Desc.type_tssldtDesc _ _
  have hBusy : (tssDesc (tssAddr q)).withType (0x89#8 ||| 2#8) = tssldtDesc (tssAddr q) 0x8b#8 :=
    Desc.withType_tssldtDesc _ _ _
  have hFree : (tssldtDesc (tssAddr p) 0x8b#8).withType ((tssldtDesc (tssAddr p) 0x8b#8).type &&& 0xfd#8) =
      tssDesc (tssAddr p) := by
    rw [Desc.type_tssldtDesc, Desc.withType_tssldtDesc]
    rfl
  have hLimit : lsl (tssDesc (tssAddr q)) = 104#32 := lsl_tssldtDesc _ _
  have hLdtType : (ldtDesc (ldtAddr q)).type = 0x82#8 := Desc.type_tssldtDesc _ _
  rw [Processor.ljmp, hRunning, hNew]
  simp only [Kernel.setTask_gdt, hOld, hTask, hFree, hType, hBusy, hLimit, Kernel.setGdt_heap, Kernel.setTask_heap,
    hHeap, hSelector, ldtSelector_index hn]
  have hEntry : (((P.kernel.setTask p
      { P.kernel.heap p with tss := (P.kernel.heap p).tss.save P.context }).setGdt (tssEntry P.tr)
        (tssDesc (tssAddr p))).setGdt (tssEntry n) (tssldtDesc (tssAddr q) 0x8b#8)).gdt (ldtEntry n) =
      ldtDesc (ldtAddr q) := by
    rw [← hLdt]
    exact (Function.update_of_ne ldtEntry_ne _ _).trans (Function.update_of_ne ldtEntry_ne _ _)
  rw [hEntry, hLdtType, if_neg (by decide), if_neg (by decide), if_neg (by decide)]
  change (match (P.kernel.switched P.context p q P.tr n).selectorFault (ldtSelector n)
      (P.kernel.heap q).tss.context with
    | some fault => Except.error fault
    | none => Except.ok _) = _
  rw [hLoads]
  rfl

/-- A task that runs cannot be the target of a task switch. -/
theorem Processor.ljmp_busy {p : BitVec 32} {n : Nat}
    (hBusy : P.kernel.gdt (tssEntry n) = tssldtDesc (tssAddr p) 0x8b#8) :
    P.ljmp n = .error .generalProtection := by
  rw [Processor.ljmp, hBusy]
  simp only [Desc.type_tssldtDesc]
  exact if_pos (by decide)

end

end Linux011

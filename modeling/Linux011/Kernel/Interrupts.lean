import Linux011.Kernel.SystemCall
import Mathlib.Data.BitVec

/-! The entry stubs of `asm.S`, `sys_call.S`, `page.S`, `keyboard.S` and
`head.S`, and the table through which the processor finds them. -/
namespace Linux011

open I386

/-- The functions in C that the stubs call. -/
inductive Handler where
  | doDivideError | doNmi | doInt3 | doOverflow | doBounds | doInvalidOp
  | doCoprocessorSegmentOverrun | doReserved
  | doDoubleFault | doInvalidTSS | doSegmentNotPresent | doStackSegment
  | doGeneralProtection | doAlignmentCheck
  | doWpPage | doTimer | keyboardHandler
  deriving DecidableEq, Repr

/-- What the stubs are linked with and run among. -/
structure Linkage where
  high : BitVec 32 → BitVec 16
  symbol : Handler → BitVec 32
  code : BitVec 32 → Cdecl
  returnAddress : BitVec 32
  cr2 : BitVec 32

/-- A stub up to its `call`, the address that is called, and the rest up to
its `iret`. -/
structure Stub where
  enter : List Instr
  target : Cpu → Option (BitVec 32)
  leave : List Instr

namespace Stub

variable (link : Linkage) (stub : Stub) (c : Cpu)

def atCall : Cpu := run link.high stub.enter c

def atIret : Cpu :=
  match stub.target (stub.atCall link c) with
  | some address => run link.high stub.leave ((stub.atCall link c).call (link.code address) link.returnAddress)
  | none => run link.high stub.leave (stub.atCall link c)

end Stub

/-- The tail that `no_error_code` and `error_code` share. -/
def popAll : List Instr :=
  [.addEsp 8, .popSeg .fs, .popSeg .es, .popSeg .ds, .popl .ebp, .popl .esi, .popl .edi, .popl .edx,
    .popl .ecx, .popl .ebx, .popl .eax]

/-- `pushl $handler` and `no_error_code`. -/
def noErrorCode (link : Linkage) (handler : Handler) : Stub where
  enter :=
    [.pushImm (link.symbol handler), .xchgl .eax 0, .pushl .ebx, .pushl .ecx, .pushl .edx, .pushl .edi,
      .pushl .esi, .pushl .ebp, .pushSeg .ds, .pushSeg .es, .pushSeg .fs, .pushImm 0#32, .leal 44 .edx,
      .pushl .edx, .movl 0x10#32 .edx, .movw .edx .ds, .movw .edx .es, .movw .edx .fs]
  target c := some (c.reg .eax)
  leave := popAll

/-- `pushl $handler` and `error_code`. -/
def errorCode (link : Linkage) (handler : Handler) : Stub where
  enter :=
    [.pushImm (link.symbol handler), .xchgl .eax 1, .xchgl .ebx 0, .pushl .ecx, .pushl .edx, .pushl .edi,
      .pushl .esi, .pushl .ebp, .pushSeg .ds, .pushSeg .es, .pushSeg .fs, .pushl .eax, .leal 44 .eax,
      .pushl .eax, .movl 0x10#32 .eax, .movw .eax .ds, .movw .eax .es, .movw .eax .fs]
  target c := some (c.reg .ebx)
  leave := popAll

/-- `testl $1, %eax` decides whether `do_wp_page` is called. -/
def pageFault (link : Linkage) : Stub where
  enter :=
    [.xchgl .eax 0, .pushl .ecx, .pushl .edx, .pushSeg .ds, .pushSeg .es, .pushSeg .fs,
      .movl 0x10#32 .edx, .movw .edx .ds, .movw .edx .es, .movw .edx .fs, .movl link.cr2 .edx,
      .pushl .edx, .pushl .eax]
  target c := if c.reg .eax &&& 1#32 = 0#32 then none else some (link.symbol .doWpPage)
  leave := [.addEsp 8, .popSeg .fs, .popSeg .es, .popSeg .ds, .popl .edx, .popl .ecx, .popl .eax]

/-- `CS` is 0x24; the stub ends in `ret_from_sys_call`. -/
def timerInterrupt (link : Linkage) : Stub where
  enter :=
    [.pushSeg .ds, .pushSeg .es, .pushSeg .fs, .pushImm (-1#32), .pushl .edx, .pushl .ecx, .pushl .ebx,
      .pushl .eax, .movl 0x10#32 .eax, .movw .eax .ds, .movw .eax .es, .movl 0x17#32 .eax,
      .movw .eax .fs, .movb 0x20#8 .eax, .outb .eax 0x20#16, .loadl 9 .eax, .andl 3#32 .eax, .pushl .eax]
  target _ := some (link.symbol .doTimer)
  leave := .addEsp 4 :: retFromSysCall

def keyboardInterrupt (link : Linkage) : Stub where
  enter :=
    [.pushw .ds, .pushw .es, .pushw .fs, .pushl .edx, .pushl .ecx, .pushl .ebx, .pushl .eax,
      .movl 0x10#32 .eax, .movw .eax .ds, .movw .eax .es, .movl 0x17#32 .eax, .movw .eax .fs,
      .pushl .eax]
  target _ := some (link.symbol .keyboardHandler)
  leave :=
    [.popl .eax, .popl .eax, .popl .ebx, .popl .ecx, .popl .edx, .popw .fs, .popw .es, .popw .ds]

/-- The `call` of `_printk` is commented out. -/
def ignoreInt : Stub where
  enter :=
    [.pushl .eax, .pushl .ecx, .pushl .edx, .pushw .ds, .pushw .es, .pushw .fs, .movl 0x10#32 .eax,
      .movw .eax .ds, .movw .eax .es, .movw .eax .fs, .movl 0x96#32 .edi, .movb 0x49#8 .eax,
      .movbHigh 0x0c#8 .eax, .storew .eax .gs .edi]
  target _ := none
  leave := [.popw .fs, .popw .es, .popw .ds, .popl .edx, .popl .ecx, .popl .eax]

/-- What a gate of the interrupt descriptor table can name. -/
inductive Entry where
  | noError (handler : Handler)
  | error (handler : Handler)
  | pageFault
  | timerInterrupt
  | keyboardInterrupt
  | systemCall
  | ignoreInt
  deriving DecidableEq, Repr

/-- The gates that `trap_init` sets, in its order; `debug` pushes `do_int3`. -/
def trapInit : List (Nat × Entry) :=
  [(0, .noError .doDivideError), (1, .noError .doInt3), (2, .noError .doNmi), (3, .noError .doInt3),
    (4, .noError .doOverflow), (5, .noError .doBounds), (6, .noError .doInvalidOp),
    (8, .error .doDoubleFault), (9, .noError .doCoprocessorSegmentOverrun), (10, .error .doInvalidTSS),
    (11, .error .doSegmentNotPresent), (12, .error .doStackSegment), (13, .error .doGeneralProtection),
    (14, .pageFault), (15, .noError .doReserved), (17, .error .doAlignmentCheck)] ++
    (List.range' 18 30).map fun i => (i, .noError .doReserved)

/-- Every gate set from boot on, in the order of `main`: `trap_init`,
`sched_init` and, in `con_init`, the keyboard. -/
def gates : List (Nat × Entry) :=
  trapInit ++ [(0x20, .timerInterrupt), (0x80, .systemCall), (0x21, .keyboardInterrupt)]

/-- `setup_idt` fills the table with `ignore_int`; the last gate set for a
vector counts. -/
def idt (vector : Fin 256) : Entry :=
  (gates.reverse.lookup vector.val).getD .ignoreInt

/-- The exceptions for which the processor pushes an error code. -/
def pushesErrorCode (vector : Fin 256) : Bool :=
  vector ∈ ([8, 10, 11, 12, 13, 14, 17] : List (Fin 256))

def Entry.removesErrorCode : Entry → Bool
  | .error _ | .pageFault => true
  | _ => false

/-- The stub behind a gate; `system_call` is no interrupt. -/
def Entry.stub (link : Linkage) : Entry → Option Stub
  | .noError handler => some (Linux011.noErrorCode link handler)
  | .error handler => some (Linux011.errorCode link handler)
  | .pageFault => some (Linux011.pageFault link)
  | .timerInterrupt => some (Linux011.timerInterrupt link)
  | .keyboardInterrupt => some (Linux011.keyboardInterrupt link)
  | .systemCall => none
  | .ignoreInt => some Linux011.ignoreInt

/-- The processor at the first instruction of a stub. In `c` it has pushed the
frame of the interrupted program, and nothing more. -/
def arrive (vector : Fin 256) (error : BitVec 32) (c : Cpu) : Cpu :=
  if pushesErrorCode vector then c.push error else c

/-- Behind the stub the interrupted program finds every register, `esp` at the
slot of its `EIP` and everything from there on as they were; the handler that
the gate stands for is called, with a pointer to that slot. -/
structure Transparent (link : Linkage) (vector : Fin 256) (error : BitVec 32) (c : Cpu) (stub : Stub) :
    Prop where
  resumed : stub.atIret link (arrive vector error c) = c
  called : ∀ handler, idt vector = .noError handler ∨ idt vector = .error handler →
    stub.target (stub.atCall link (arrive vector error c)) = some (link.symbol handler) ∧
      long 0 (stub.atCall link (arrive vector error c)).stack = c.esp

section

variable (link : Linkage) (handler : Handler) (error : BitVec 32) (c : Cpu)

/-- A stub whose tail pops what its head has pushed gives back `c`: registers
without a slot are ones that functions in C keep, and the head has kept them
too. -/
theorem Stub.atIret_eq {stub : Stub} {d : Cpu} (slots : List Slot) (hLeave : stub.leave = slots.map Slot.back)
    (hHolds : Holds c slots (stub.atCall link d).esp (stub.atCall link d).stack)
    (hScratch : ∀ r ∈ [Reg.eax, .ecx, .edx], .reg r ∈ slots)
    (hKept : ∀ r ∈ calleeSaved, .reg r ∈ slots ∨ (stub.atCall link d).reg r = c.reg r)
    (hSeg : ∀ s ∈ [Seg.ds, .es, .fs], .seg s ∈ slots ∨ .half s ∈ slots)
    (hGs : (stub.atCall link d).seg .gs = c.seg .gs) :
    stub.atIret link d = c := by
  have hReg : ∀ r, .reg r ∉ slots → r ∈ calleeSaved ∧ (stub.atCall link d).reg r = c.reg r := by
    intro r hr
    have hSaved : r ∈ calleeSaved := by
      cases r with
      | eax | ecx | edx => exact absurd (hScratch _ (by simp)) hr
      | ebx | esi | edi | ebp => decide
    exact ⟨hSaved, (hKept r hSaved).resolve_left hr⟩
  have hOnly : ∀ s, .seg s ∉ slots → .half s ∉ slots → s = .gs := by
    intro s hs hs'
    cases s with
    | ds | es | fs => exact ((hSeg _ (by simp)).elim hs hs').elim
    | gs => rfl
  rw [Stub.atIret, hLeave]
  cases stub.target (stub.atCall link d) with
  | none =>
      refine run_back _ _ _ _ hHolds (fun r hr => (hReg r hr).2) (fun s hs hs' => ?_)
      rw [hOnly s hs hs', hGs]
  | some address =>
      refine run_back _ _ _ _ (by rwa [call_esp, call_stack]) (fun r hr => ?_) (fun s hs hs' => ?_)
      · rw [call_reg _ _ _ (hReg r hr).1, (hReg r hr).2]
      · rw [hOnly s hs hs', call_gs, hGs]

theorem atIret_noErrorCode : (noErrorCode link handler).atIret link c = c := by
  apply Stub.atIret_eq link c [.skip 8, .seg .fs, .seg .es, .seg .ds, .reg .ebp, .reg .esi, .reg .edi,
    .reg .edx, .reg .ecx, .reg .ebx, .reg .eax] rfl
  case hHolds =>
    simp [Stub.atCall, noErrorCode, Holds, exec, Cpu.push, Cpu.setReg, Cpu.setSeg, BitVec.sub_sub, BitVec.add_assoc]
  case hKept => simp [calleeSaved]
  case hGs => rfl
  all_goals decide

theorem atIret_errorCode : (errorCode link handler).atIret link (c.push error) = c := by
  apply Stub.atIret_eq link c [.skip 8, .seg .fs, .seg .es, .seg .ds, .reg .ebp, .reg .esi, .reg .edi,
    .reg .edx, .reg .ecx, .reg .ebx, .reg .eax] rfl
  case hHolds =>
    simp [Stub.atCall, errorCode, Holds, exec, Cpu.push, Cpu.setReg, Cpu.setSeg, BitVec.sub_sub, BitVec.add_assoc]
  case hKept => simp [calleeSaved]
  case hGs => rfl
  all_goals decide

theorem atIret_pageFault : (pageFault link).atIret link (c.push error) = c := by
  apply Stub.atIret_eq link c [.skip 8, .seg .fs, .seg .es, .seg .ds, .reg .edx, .reg .ecx, .reg .eax] rfl
  case hHolds =>
    simp [Stub.atCall, pageFault, Holds, exec, Cpu.push, Cpu.setReg, Cpu.setSeg, BitVec.sub_sub, BitVec.add_assoc]
  case hKept => simp [calleeSaved, Stub.atCall, pageFault, exec, Cpu.push, Cpu.setReg, Cpu.setSeg]
  case hGs => rfl
  all_goals decide

theorem atIret_timerInterrupt : (timerInterrupt link).atIret link c = c := by
  apply Stub.atIret_eq link c [.skip 4, .reg .eax, .reg .ebx, .reg .ecx, .reg .edx, .skip 4, .seg .fs,
    .seg .es, .seg .ds] rfl
  case hHolds =>
    simp [Stub.atCall, timerInterrupt, Holds, exec, Cpu.push, Cpu.setReg, Cpu.setSeg, BitVec.sub_sub, BitVec.add_assoc]
  case hKept => simp [calleeSaved, Stub.atCall, timerInterrupt, exec, Cpu.push, Cpu.setReg, Cpu.setSeg]
  case hGs => rfl
  all_goals decide

theorem atIret_keyboardInterrupt : (keyboardInterrupt link).atIret link c = c := by
  apply Stub.atIret_eq link c [.through .eax, .reg .eax, .reg .ebx, .reg .ecx, .reg .edx, .half .fs,
    .half .es, .half .ds] rfl
  case hHolds =>
    simp [Stub.atCall, keyboardInterrupt, Holds, exec, Cpu.push, Cpu.setReg, Cpu.setSeg, BitVec.sub_sub,
      BitVec.add_assoc]
  case hKept => simp [calleeSaved, Stub.atCall, keyboardInterrupt, exec, Cpu.push, Cpu.setReg, Cpu.setSeg]
  case hGs => rfl
  all_goals decide

/-- `edi` is the one register that `ignore_int` uses and does not save. -/
theorem edi_ignoreInt : (ignoreInt.atIret link c).reg .edi = 0x96#32 := rfl

theorem atIret_ignoreInt (hEdi : c.reg .edi = 0x96#32) : ignoreInt.atIret link c = c := by
  apply Stub.atIret_eq link c [.half .fs, .half .es, .half .ds, .reg .edx, .reg .ecx, .reg .eax] rfl
  case hHolds =>
    simp [Stub.atCall, ignoreInt, Holds, exec, Cpu.push, Cpu.setReg, Cpu.setSeg, BitVec.sub_sub, BitVec.add_assoc]
  case hKept => simp [calleeSaved, Stub.atCall, ignoreInt, exec, Cpu.push, Cpu.setReg, Cpu.setSeg, hEdi]
  case hGs => rfl
  all_goals decide

/-- `leal 44(%esp)` comes after eleven pushes. -/
theorem called_noErrorCode :
    (noErrorCode link handler).target ((noErrorCode link handler).atCall link c) = some (link.symbol handler) ∧
      long 0 ((noErrorCode link handler).atCall link c).stack = c.esp := by
  simp [Stub.atCall, noErrorCode, exec, Cpu.push, Cpu.setReg, Cpu.setSeg, BitVec.sub_sub]

theorem called_errorCode :
    (errorCode link handler).target ((errorCode link handler).atCall link (c.push error)) =
        some (link.symbol handler) ∧
      long 0 ((errorCode link handler).atCall link (c.push error)).stack = c.esp := by
  simp [Stub.atCall, errorCode, exec, Cpu.push, Cpu.setReg, Cpu.setSeg, BitVec.sub_sub]

/-- Whatever is behind a gate, the program gets back what it had; `ignore_int`
needs luck for it. -/
theorem atIret_stub {entry : Entry} {stub : Stub} (hStub : entry.stub link = some stub)
    (hEdi : entry = .ignoreInt → c.reg .edi = 0x96#32) :
    stub.atIret link (if entry.removesErrorCode then c.push error else c) = c := by
  cases entry with
  | systemCall => cases hStub
  | noError handler =>
      cases hStub
      exact atIret_noErrorCode link handler c
  | error handler =>
      cases hStub
      exact atIret_errorCode link handler error c
  | pageFault =>
      cases hStub
      exact atIret_pageFault link error c
  | timerInterrupt =>
      cases hStub
      exact atIret_timerInterrupt link c
  | keyboardInterrupt =>
      cases hStub
      exact atIret_keyboardInterrupt link c
  | ignoreInt =>
      cases hStub
      exact atIret_ignoreInt link c (hEdi rfl)

theorem called_stub {entry : Entry} {stub : Stub} (hStub : entry.stub link = some stub)
    (hEntry : entry = .noError handler ∨ entry = .error handler) :
    let arrived := if entry.removesErrorCode then c.push error else c
    stub.target (stub.atCall link arrived) = some (link.symbol handler) ∧
      long 0 (stub.atCall link arrived).stack = c.esp := by
  rcases hEntry with rfl | rfl
  · cases hStub
    exact called_noErrorCode link handler c
  · cases hStub
    exact called_errorCode link handler error c

end

/-- The table sends each exception to a stub that removes an error code exactly
where the processor has pushed one. -/
theorem idt_removesErrorCode (vector : Fin 256) :
    pushesErrorCode vector = (idt vector).removesErrorCode := by
  decide +revert +kernel

/-- Every stub but `ignore_int` is transparent, and that one where `edi` is what
it loads into it. -/
theorem interrupts_transparent_iff (link : Linkage) (vector : Fin 256) (error : BitVec 32) (c : Cpu)
    (stub : Stub) (hStub : (idt vector).stub link = some stub) :
    Transparent link vector error c stub ↔ (idt vector = .ignoreInt → c.reg .edi = 0x96#32) := by
  have hArrive : arrive vector error c = if (idt vector).removesErrorCode then c.push error else c := by
    rw [arrive, idt_removesErrorCode]
  constructor
  · intro h hIgnore
    have hResumed := h.resumed
    rw [hIgnore] at hStub hArrive
    cases hStub
    rw [← edi_ignoreInt link (arrive vector error c), hResumed]
  · intro hEdi
    refine ⟨?_, fun handler hHandler => ?_⟩
    · rw [hArrive]
      exact atIret_stub link error c hStub hEdi
    · rw [hArrive]
      exact called_stub link handler error c hStub hHandler

/-- A function in C that returns at once. -/
def returnsAtOnce : Cdecl where
  body c := c.pop
  reg _ _ _ := rfl
  gs _ := rfl
  esp _ := rfl
  stack _ := rfl

def bareLinkage : Linkage := ⟨fun _ => 0#16, fun _ => 0#32, fun _ => returnsAtOnce, 0#32, 0#32⟩

/-- A program whose registers are all `v`. -/
def uniform (v : BitVec 32) : Cpu := ⟨fun _ => v, fun _ => 0x17#16, 0x1000#32, Stream'.const 0#16⟩

theorem interrupts_transparent_iff_timer :
    Transparent bareLinkage 0x20 0#32 (uniform 7#32) (timerInterrupt bareLinkage) ↔
      (idt 0x20 = .ignoreInt → (uniform 7#32).reg .edi = 0x96#32) :=
  have hGate : idt 0x20 = .timerInterrupt := by decide +kernel
  interrupts_transparent_iff bareLinkage 0x20 0#32 (uniform 7#32) (timerInterrupt bareLinkage) (by rw [hGate]; rfl)

/-- An x87 instruction after a task switch is exception 7, for which no gate is
set: `edi` comes back as 0x96. -/
theorem ignoreInt_loses_edi :
    (idt 7).stub bareLinkage = some ignoreInt ∧
      ¬ Transparent bareLinkage 7 0#32 (uniform 0#32) ignoreInt := by
  refine ⟨by rw [show idt 7 = .ignoreInt by decide +kernel]; rfl, fun h => ?_⟩
  have hEdi : (ignoreInt.atIret bareLinkage (arrive 7 0#32 (uniform 0#32))).reg .edi = 0#32 := by
    rw [h.resumed]
    rfl
  rw [edi_ignoreInt] at hEdi
  exact absurd hEdi (by decide)

/-- A program in ring 3 goes on as if it had not been interrupted. -/
theorem iret_interrupt (link : Linkage) (vector : Fin 256) (error : BitVec 32) (stub : Stub)
    (above : Stream' (BitVec 16)) (esp0 : BitVec 32) (x : Context)
    (hStub : (idt vector).stub link = some stub) (hEdi : idt vector = .ignoreInt → x.reg .edi = 0x96#32) :
    iret (stub.atIret link (arrive vector error (trap link.high above esp0 x))) = x := by
  rw [arrive, idt_removesErrorCode, atIret_stub link error _ hStub hEdi, iret_trap]

end Linux011

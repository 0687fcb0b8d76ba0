import Mathlib.Data.BitVec
import Mathlib.Data.Stream.Init
import Mathlib.Logic.Function.Basic
import Mathlib.Tactic.Common

/-! The part of the i386 that the entry stubs of a kernel use: general and
segment registers, the stack, a trap from ring 3 and `iret` back to it. -/
namespace I386

inductive Reg where
  | eax | ecx | edx | ebx | esi | edi | ebp
  deriving DecidableEq, Repr

inductive Seg where
  | ds | es | fs | gs
  deriving DecidableEq, Repr

/-- A program in ring 3 between two instructions. -/
@[ext]
structure Context where
  reg : Reg → BitVec 32
  seg : Seg → BitVec 16
  eip : BitVec 32
  cs : BitVec 16
  eflags : BitVec 32
  esp : BitVec 32
  ss : BitVec 16

/-- The processor in ring 0. The stack is what memory holds from `esp` on, in
units of 16 bits. -/
@[ext]
structure Cpu where
  reg : Reg → BitVec 32
  seg : Seg → BitVec 16
  esp : BitVec 32
  stack : Stream' (BitVec 16)

def lowHalf (v : BitVec 32) : BitVec 16 := v.extractLsb' 0 16

/-- Four bytes on top of a stack. -/
def pushLong (v : BitVec 32) (stack : Stream' (BitVec 16)) : Stream' (BitVec 16) :=
  Stream'.cons (lowHalf v) (Stream'.cons (v.extractLsb' 16 16) stack)

/-- The four bytes at offset `4 * i`. -/
def long (i : Nat) (stack : Stream' (BitVec 16)) : BitVec 32 :=
  stack.get (2 * i + 1) ++ stack.get (2 * i)

/-- Four bytes written at offset `4 * i`. -/
def setLong (i : Nat) (v : BitVec 32) (stack : Stream' (BitVec 16)) : Stream' (BitVec 16) := fun n =>
  if n = 2 * i then lowHalf v else if n = 2 * i + 1 then v.extractLsb' 16 16 else stack n

/-- A slot of the stack is a multiple of four bytes from `esp` on. -/
inductive Instr where
  | pushl (r : Reg)
  | pushImm (value : BitVec 32)
  | pushSeg (s : Seg)
  | pushw (s : Seg)
  | popl (r : Reg)
  | popSeg (s : Seg)
  | popw (s : Seg)
  | xchgl (r : Reg) (slot : Nat)
  | leal (bytes : Nat) (r : Reg)
  | loadl (slot : Nat) (r : Reg)
  | movl (value : BitVec 32) (r : Reg)
  | movb (value : BitVec 8) (r : Reg)
  | movbHigh (value : BitVec 8) (r : Reg)
  | andl (mask : BitVec 32) (r : Reg)
  | movw (r : Reg) (s : Seg)
  | storew (r : Reg) (s : Seg) (base : Reg)
  | outb (r : Reg) (port : BitVec 16)
  | addEsp (bytes : Nat)
  deriving Repr

namespace Cpu

def push (v : BitVec 32) (c : Cpu) : Cpu := { c with esp := c.esp - 4#32, stack := pushLong v c.stack }

def pop (c : Cpu) : Cpu := { c with esp := c.esp + 4#32, stack := c.stack.drop 2 }

def setReg (r : Reg) (v : BitVec 32) (c : Cpu) : Cpu := { c with reg := Function.update c.reg r v }

def setSeg (s : Seg) (v : BitVec 16) (c : Cpu) : Cpu := { c with seg := Function.update c.seg s v }

end Cpu

/-- The word that a 32-bit push of a segment register leaves at an address:
nothing is promised about its upper half, which is `high` of the address. -/
def segWord (high : BitVec 32 → BitVec 16) (esp : BitVec 32) (v : BitVec 16) : BitVec 32 := high esp ++ v

/-- A store through a segment register is to memory off this stack; it and a
byte for a port leave the registers alone. -/
def exec (high : BitVec 32 → BitVec 16) : Instr → Cpu → Cpu
  | .pushl r, c => c.push (c.reg r)
  | .pushImm value, c => c.push value
  | .pushSeg s, c => c.push (segWord high (c.esp - 4#32) (c.seg s))
  | .pushw s, c => { c with esp := c.esp - 2#32, stack := Stream'.cons (c.seg s) c.stack }
  | .popl r, c => c.pop.setReg r (long 0 c.stack)
  | .popSeg s, c => c.pop.setSeg s (lowHalf (long 0 c.stack))
  | .popw s, c => { c with esp := c.esp + 2#32, stack := c.stack.tail }.setSeg s c.stack.head
  | .xchgl r slot, c =>
      { c with stack := setLong slot (c.reg r) c.stack }.setReg r (long slot c.stack)
  | .leal bytes r, c => c.setReg r (c.esp + BitVec.ofNat 32 bytes)
  | .loadl slot r, c => c.setReg r (long slot c.stack)
  | .movl value r, c => c.setReg r value
  | .movb value r, c => c.setReg r ((c.reg r).extractLsb' 8 24 ++ value)
  | .movbHigh value r, c =>
      c.setReg r ((c.reg r).extractLsb' 16 16 ++ (value ++ (c.reg r).extractLsb' 0 8))
  | .andl mask r, c => c.setReg r (c.reg r &&& mask)
  | .movw r s, c => c.setSeg s (lowHalf (c.reg r))
  | .storew _ _ _, c => c
  | .outb _ _, c => c
  | .addEsp bytes, c =>
      { c with esp := c.esp + BitVec.ofNat 32 bytes, stack := c.stack.drop (bytes / 2) }

def run (high : BitVec 32 → BitVec 16) (program : List Instr) (c : Cpu) : Cpu :=
  program.foldl (fun c i => exec high i c) c

/-- A function in C has returned `result`: it may use `ecx` and `edx`, keeps the
other registers and does not write to its arguments. -/
def Cpu.returned (clobber : Cpu → BitVec 32 × BitVec 32) (result : BitVec 32) (c : Cpu) : Cpu :=
  ((c.setReg .ecx (clobber c).1).setReg .edx (clobber c).2).setReg .eax result

/-- The registers that a function gives back to its caller. -/
def calleeSaved : List Reg := [.ebx, .esi, .edi, .ebp]

/-- A function in C under the i386 calling convention, from its first
instruction to behind its `ret`: it keeps the registers of its caller, leaves
the caller's part of the stack alone and does not load `gs`. -/
structure Cdecl where
  body : Cpu → Cpu
  reg : ∀ c, ∀ r ∈ calleeSaved, (body c).reg r = c.reg r
  gs : ∀ c, (body c).seg .gs = c.seg .gs
  esp : ∀ c, (body c).esp = c.esp + 4#32
  stack : ∀ c, (body c).stack = c.stack.drop 2

def Cpu.call (f : Cdecl) (returnAddress : BitVec 32) (c : Cpu) : Cpu := f.body (c.push returnAddress)

/-- At the first instruction of a function in C its arguments lie above the return address. -/
def Cpu.arg (c : Cpu) (i : Nat) : BitVec 32 := long (i + 1) c.stack

/-- The four bytes at an address that is a multiple of four bytes above `esp`. -/
def Cpu.longAt (c : Cpu) (address : BitVec 32) : BitVec 32 := long ((address - c.esp).toNat / 4) c.stack

/-- What a stub has put on the stack: registers to give back, bytes to skip,
and words that pass through a register given back further on. -/
inductive Slot where
  | reg (r : Reg)
  | seg (s : Seg)
  | half (s : Seg)
  | skip (bytes : Nat)
  | through (r : Reg)
  deriving DecidableEq

def Slot.back : Slot → Instr
  | .reg r => .popl r
  | .seg s => .popSeg s
  | .half s => .popw s
  | .skip bytes => .addEsp bytes
  | .through r => .popl r

/-- From `esp` on the stack holds what `slots` say of `c`, and above that the
stack of `c`. -/
def Holds (c : Cpu) : List Slot → BitVec 32 → Stream' (BitVec 16) → Prop
  | [], esp, stack => esp = c.esp ∧ stack = c.stack
  | .reg r :: slots, esp, stack =>
      long 0 stack = c.reg r ∧ Holds c slots (esp + 4#32) (stack.drop 2)
  | .seg s :: slots, esp, stack =>
      lowHalf (long 0 stack) = c.seg s ∧ Holds c slots (esp + 4#32) (stack.drop 2)
  | .half s :: slots, esp, stack => stack.head = c.seg s ∧ Holds c slots (esp + 2#32) stack.tail
  | .skip bytes :: slots, esp, stack =>
      Holds c slots (esp + BitVec.ofNat 32 bytes) (stack.drop (bytes / 2))
  | .through r :: slots, esp, stack => .reg r ∈ slots ∧ Holds c slots (esp + 4#32) (stack.drop 2)

/-- An interrupt in ring 3: the processor changes to the stack at `esp0` and
saves where the program was. -/
def trap (high : BitVec 32 → BitVec 16) (above : Stream' (BitVec 16)) (esp0 : BitVec 32) (x : Context) : Cpu :=
  let c : Cpu := ⟨x.reg, x.seg, esp0, above⟩
  let c := c.push (segWord high (c.esp - 4#32) x.ss)
  let c := c.push x.esp
  let c := c.push x.eflags
  let c := c.push (segWord high (c.esp - 4#32) x.cs)
  c.push x.eip

/-- `iret` to ring 3, where the data segments are ones that ring 3 may use. -/
def iret (c : Cpu) : Context where
  reg := c.reg
  seg := c.seg
  eip := long 0 c.stack
  cs := lowHalf (long 1 c.stack)
  eflags := long 2 c.stack
  esp := long 3 c.stack
  ss := lowHalf (long 4 c.stack)

section

variable (high : BitVec 32 → BitVec 16) (stack : Stream' (BitVec 16)) (v : BitVec 32) (c : Cpu)

@[simp] theorem long_zero_pushLong : long 0 (pushLong v stack) = v := by
  apply BitVec.eq_of_getLsbD_eq
  intro i hi
  change (v.extractLsb' 16 16 ++ v.extractLsb' 0 16).getLsbD i = v.getLsbD i
  simp only [BitVec.getLsbD_append, BitVec.getLsbD_extractLsb']
  grind

@[simp] theorem long_succ_pushLong (i : Nat) : long (i + 1) (pushLong v stack) = long i stack := by
  rw [long, long]
  rfl

@[simp] theorem drop_pushLong (n : Nat) : (pushLong v stack).drop (n + 2) = stack.drop n := by
  rw [Nat.add_comm, ← Stream'.drop_drop]
  rfl

@[simp] theorem setLong_zero_pushLong (w : BitVec 32) :
    setLong 0 w (pushLong v stack) = pushLong w stack := by
  funext n
  match n with
  | 0 => rfl
  | 1 => rfl
  | n + 2 => rfl

@[simp] theorem setLong_succ_pushLong (i : Nat) (w : BitVec 32) :
    setLong (i + 1) w (pushLong v stack) = pushLong v (setLong i w stack) := by
  funext n
  match n with
  | 0 => rfl
  | 1 => rfl
  | n + 2 =>
      have hLow : n + 2 = 2 * (i + 1) ↔ n = 2 * i := by omega
      have hHigh : n + 2 = 2 * (i + 1) + 1 ↔ n = 2 * i + 1 := by omega
      change (if n + 2 = 2 * (i + 1) then _ else if n + 2 = 2 * (i + 1) + 1 then _ else stack n) =
        if n = 2 * i then _ else if n = 2 * i + 1 then _ else stack n
      simp only [hLow, hHigh]

@[simp] theorem lowHalf_segWord (esp : BitVec 32) (s : BitVec 16) : lowHalf (segWord high esp s) = s := by
  apply BitVec.eq_of_getLsbD_eq
  intro i hi
  simp only [lowHalf, segWord, BitVec.getLsbD_append, BitVec.getLsbD_extractLsb']
  grind

@[simp] theorem segWord_and (esp : BitVec 32) (s : BitVec 16) :
    segWord high esp s &&& 0xffff#32 = s.setWidth 32 := by
  have hMask (i : Nat) : (0xffff#32).getLsbD i = decide (i < 16) := by
    rw [show (0xffff#32) = BitVec.ofNat 32 (2 ^ 16 - 1) from rfl, BitVec.getLsbD_ofNat,
      Nat.testBit_two_pow_sub_one]
    grind
  apply BitVec.eq_of_getLsbD_eq
  intro i hi
  simp only [segWord, BitVec.getLsbD_and, BitVec.getLsbD_append, BitVec.getLsbD_setWidth, hMask]
  grind

@[simp] theorem iret_trap (above : Stream' (BitVec 16)) (esp0 : BitVec 32) (x : Context) :
    iret (trap high above esp0 x) = x := by
  simp [iret, trap, Cpu.push]

@[simp] theorem call_stack (f : Cdecl) : (c.call f v).stack = c.stack := by
  simp [Cpu.call, Cpu.push, f.stack]

@[simp] theorem call_esp (f : Cdecl) : (c.call f v).esp = c.esp := by
  simp [Cpu.call, Cpu.push, f.esp]

theorem call_reg (f : Cdecl) {r : Reg} (hr : r ∈ calleeSaved) : (c.call f v).reg r = c.reg r := f.reg _ r hr

@[simp] theorem call_gs (f : Cdecl) : (c.call f v).seg .gs = c.seg .gs := f.gs _

/-- Popping in the order of the slots gives `c` back, whatever the registers
that are popped held before. -/
theorem run_back (slots : List Slot) (d : Cpu) (hHolds : Holds c slots d.esp d.stack)
    (hReg : ∀ r, .reg r ∉ slots → d.reg r = c.reg r)
    (hSeg : ∀ s, .seg s ∉ slots → .half s ∉ slots → d.seg s = c.seg s) :
    run high (slots.map Slot.back) d = c := by
  induction slots generalizing d with
  | nil =>
      have hRegs : d.reg = c.reg := funext fun r => hReg r (by simp)
      have hSegs : d.seg = c.seg := funext fun s => hSeg s (by simp) (by simp)
      exact Cpu.ext hRegs hSegs hHolds.1 hHolds.2
  | cons slot slots ih =>
      cases slot with
      | reg r =>
          refine ih _ hHolds.2 (fun r' hr' => ?_) (fun s hs hs' => hSeg s (by simpa using hs) (by simpa using hs'))
          by_cases h : r' = r
          · subst h
            simpa [Slot.back, exec, Cpu.setReg] using hHolds.1
          · simpa [Slot.back, exec, Cpu.setReg, Cpu.pop, h] using hReg r' (by simp [h, hr'])
      | seg s =>
          refine ih _ hHolds.2 (fun r hr => hReg r (by simpa using hr)) (fun s' hs hs' => ?_)
          by_cases h : s' = s
          · subst h
            simpa [Slot.back, exec, Cpu.setSeg] using hHolds.1
          · simpa [Slot.back, exec, Cpu.setSeg, Cpu.pop, h] using hSeg s' (by simp [h, hs]) (by simpa using hs')
      | half s =>
          refine ih _ hHolds.2 (fun r hr => hReg r (by simpa using hr)) (fun s' hs hs' => ?_)
          by_cases h : s' = s
          · subst h
            simpa [Slot.back, exec, Cpu.setSeg] using hHolds.1
          · simpa [Slot.back, exec, Cpu.setSeg, h] using hSeg s' (by simpa using hs) (by simp [h, hs'])
      | skip bytes =>
          exact ih _ hHolds (fun r hr => hReg r (by simpa using hr))
            (fun s hs hs' => hSeg s (by simpa using hs) (by simpa using hs'))
      | through r =>
          refine ih _ hHolds.2 (fun r' hr' => ?_) (fun s hs hs' => hSeg s (by simpa using hs) (by simpa using hs'))
          have h : r' ≠ r := fun h => hr' (h ▸ hHolds.1)
          simpa [Slot.back, exec, Cpu.setReg, Cpu.pop, h] using hReg r' (by simpa using hr')

@[simp] theorem run_nil : run high [] c = c := rfl

@[simp] theorem run_cons (i : Instr) (program : List Instr) :
    run high (i :: program) c = run high program (exec high i c) := rfl

end

end I386

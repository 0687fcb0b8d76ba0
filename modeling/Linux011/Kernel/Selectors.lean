import Linux011.Kernel.Invariant
import Linux011.Kernel.Segments
import Linux011.Library.I386

/-! Segment registers: the descriptors behind selectors and what a task switch checks of them.
The limit of 104 bytes that `_set_tssldt_desc` gives to every descriptor makes the local table
of a task longer than its three entries: the task state segment behind it is part of it. The bit
"accessed" that a load sets in a descriptor is left out. -/
namespace Linux011

open I386 SubRegisters

/-- The type byte, whose bit 1 says of a task state segment that it is busy. -/
def Desc.type (desc : Desc) : BitVec 8 := desc.b.extractLsb' 8 8

def Desc.withType (desc : Desc) (type : BitVec 8) : Desc :=
  { desc with b := desc.b.extractLsb' 16 16 ++ (type ++ desc.b.extractLsb' 0 8) }

/-- `gdt` of `head.S`. -/
def headGdt : Nat → Desc
  | 1 => ⟨0x00000fff#32, 0x00c09a00#32⟩
  | 2 => ⟨0x00000fff#32, 0x00c09200#32⟩
  | 3 => ⟨0x8000ffff#32, 0x00c0f20b#32⟩
  | _ => ⟨0#32, 0#32⟩

/-- The entries 1 and 2 of the local table of slot `s`. -/
def taskCode (s : Nat) : Desc := setBase ⟨0xfff#32, 0xc0fa00#32⟩ (taskBase s)
def taskData (s : Nat) : Desc := setBase ⟨0xfff#32, 0xc0f200#32⟩ (taskBase s)

/-- `struct task_struct` from `ldt` on, eight bytes at a time. -/
def TaskStruct.tableEntry (t : TaskStruct) : Nat → Desc
  | 0 => t.ldt0
  | 1 => t.ldt1
  | 2 => t.ldt2
  | 3 => ⟨t.tss.backLink, t.tss.esp0⟩
  | 4 => ⟨t.tss.ss0, t.tss.esp1⟩
  | 5 => ⟨t.tss.ss1, t.tss.esp2⟩
  | 6 => ⟨t.tss.ss2, t.tss.cr3⟩
  | 7 => ⟨t.tss.eip, t.tss.eflags⟩
  | 8 => ⟨t.tss.eax, t.tss.ecx⟩
  | 9 => ⟨t.tss.edx, t.tss.ebx⟩
  | 10 => ⟨t.tss.esp, t.tss.ebp⟩
  | 11 => ⟨t.tss.esi, t.tss.edi⟩
  | 12 => ⟨t.tss.es, t.tss.cs⟩
  | 13 => ⟨t.tss.ss, t.tss.ds⟩
  | 14 => ⟨t.tss.fs, t.tss.gs⟩
  | _ => ⟨t.tss.ldt, t.tss.traceBitmap⟩

/-- The descriptor behind a selector, from the table that its bit 2 says and within the limit of
that table. -/
def Kernel.descriptor (k : Kernel) (ldtr : BitVec 32) (selector : BitVec 16) : Option Desc :=
  let i := selector.toNat / 8
  if selector.getLsbD 2 then
    let table := k.gdt (ldtr.toNat / 8)
    if 8 * i + 7 ≤ (lsl table).toNat then some ((k.heap (table.base - 20#32)).tableEntry i) else none
  else if 0 < i ∧ 8 * i + 7 ≤ 256 * 8 - 1 then some (k.gdt i)
  else none

/-- What the type byte of a descriptor says about a code or data segment. -/
def isPresent (type : BitVec 8) : Bool := type.getLsbD 7
def isCode (type : BitVec 8) : Bool := type.getLsbD 4 && type.getLsbD 3
def isConforming (type : BitVec 8) : Bool := isCode type && type.getLsbD 2
def isReadable (type : BitVec 8) : Bool := type.getLsbD 4 && (!type.getLsbD 3 || type.getLsbD 1)
def isWritable (type : BitVec 8) : Bool := type.getLsbD 4 && !type.getLsbD 3 && type.getLsbD 1

/-- The ring in the type byte. -/
def dpl (type : BitVec 8) : BitVec 2 := type.extractLsb' 5 2

/-- The ring in a selector. -/
def rpl (selector : BitVec 16) : BitVec 2 := selector.extractLsb' 0 2

/-- Why the processor does not come back to ring 3. -/
inductive Fault where
  | stop (s : Stop)
  | generalProtection
  | invalidTss
  | notPresent
  | stackFault
  deriving DecidableEq, Repr

/-- The selector for `cs`, whose ring becomes the current one. -/
def codeFault (cs : BitVec 16) : Option Desc → Option Fault
  | none => some .invalidTss
  | some desc =>
      if isCode desc.type && (if isConforming desc.type then dpl desc.type ≤ rpl cs else dpl desc.type = rpl cs) then
        if isPresent desc.type then none else some .notPresent
      else some .invalidTss

/-- The selector for `ss`, in ring `cpl`. -/
def stackFault (cpl : BitVec 2) (ss : BitVec 16) : Option Desc → Option Fault
  | none => some .invalidTss
  | some desc =>
      if isWritable desc.type && (dpl desc.type = cpl && rpl ss = cpl) then
        if isPresent desc.type then none else some .stackFault
      else some .invalidTss

/-- One of the others. A null selector passes. -/
def dataFault (cpl : BitVec 2) (selector : BitVec 16) : Option Desc → Option Fault
  | none => if selector.toNat / 4 = 0 then none else some .invalidTss
  | some desc =>
      if isReadable desc.type && (isConforming desc.type || cpl ≤ dpl desc.type && rpl selector ≤ dpl desc.type) then
        if isPresent desc.type then none else some .notPresent
      else some .invalidTss

/-- What a task switch finds wrong with the selectors that it loads. -/
def Kernel.selectorFault (k : Kernel) (ldtr : BitVec 32) (x : Context) : Option Fault :=
  let data (s : Seg) := dataFault (rpl x.cs) (x.seg s) (k.descriptor ldtr (x.seg s))
  [codeFault x.cs (k.descriptor ldtr x.cs), stackFault (rpl x.cs) x.ss (k.descriptor ldtr x.ss), data .ds, data .es,
    data .fs, data .gs].findSome? id

/-- The table of `head.S`, with descriptors for tasks behind its own. -/
structure GlobalTable (gdt : Nat → Desc) : Prop where
  head : ∀ i, 1 ≤ i → i ≤ 3 → gdt i = headGdt i
  system : ∀ i < 256, 4 ≤ i → (gdt i).type.getLsbD 4 = false

/-- The local tables that `INIT_TASK` and `copy_mem` make. -/
structure LocalTables (image : Image) (k : Kernel) : Prop where
  null : ∀ s, Live k s → (k.heap (taskAddr image k s)).ldt0 = ⟨0#32, 0#32⟩
  code : ∀ s, Live k s → (k.heap (taskAddr image k s)).ldt1 = taskCode s
  data : ∀ s, Live k s → (k.heap (taskAddr image k s)).ldt2 = taskData s

/-- A null selector, or one for the code or the data of the running task or for the display, with
any ring in it. -/
def UserData (selector : BitVec 16) : Prop :=
  selector.toNat / 4 = 0 ∨ selector.toNat / 4 = 3 ∨ selector.toNat / 4 = 5 ∨ selector.toNat / 4 = 6

/-- A program that has loaded no segment beyond those of its own and that of the display. -/
structure UserSegments (x : Context) : Prop where
  cs : x.cs = 0xf#16
  ss : x.ss = 0x17#16 ∨ x.ss = 0x1b#16
  data : ∀ s, UserData (x.seg s)

/-- The kernel behind one of its entries; `gs` is that of the program. -/
structure KernelSegments (x : Context) : Prop where
  cs : x.cs = 0x8#16
  ss : x.ss = 0x10#16
  ds : x.seg .ds = 0x10#16
  es : x.seg .es = 0x10#16
  fs : x.seg .fs = 0x17#16
  gs : UserData (x.seg .gs)

section

variable {k : Kernel} {ldtr p : BitVec 32} {s : Nat} {selector : BitVec 16} {x : Context}
  (addr : BitVec 32) (type type' : BitVec 8)

@[simp] theorem Desc.type_tssldtDesc : (tssldtDesc addr type).type = type := by
  refine (extract_append_high (addr.extractLsb' 24 8 ++ 0#8 ++ type) (addr.extractLsb' 16 8) 0 8).trans ?_
  exact (extract_append_low _ type 0 8 (by decide)).trans (extract_self type)

@[simp] theorem Desc.type_withType (desc : Desc) : (desc.withType type).type = type := by
  refine (extract_append_low (desc.b.extractLsb' 16 16) (type ++ desc.b.extractLsb' 0 8) 8 8 (by decide)).trans ?_
  exact (extract_append_high type (desc.b.extractLsb' 0 8) 0 8).trans (extract_self type)

@[simp] theorem Desc.withType_tssldtDesc :
    (tssldtDesc addr type).withType type' = tssldtDesc addr type' := by
  have hTop : (tssldtDesc addr type).b.extractLsb' 16 16 = addr.extractLsb' 24 8 ++ 0#8 := by
    refine (extract_append_high (addr.extractLsb' 24 8 ++ 0#8 ++ type) (addr.extractLsb' 16 8) 8 16).trans ?_
    exact (extract_append_high (addr.extractLsb' 24 8 ++ 0#8) type 0 16).trans (extract_self _)
  have hLow : (tssldtDesc addr type).b.extractLsb' 0 8 = addr.extractLsb' 16 8 :=
    (extract_append_low _ _ 0 8 (by decide)).trans (extract_self _)
  rw [Desc.withType, hTop, hLow]
  exact congrArg (Desc.mk _) (BitVec.append_assoc' ..)

theorem lsl_tssldtDesc : lsl (tssldtDesc addr type) = 104#32 := by
  rw [Desc.lsl_bytes, Desc.bytes_tssldtDesc addr (fun _ => 0#8), DescBytes.segment_setTssldtDesc]
  simp

theorem type_setBase (desc : Desc) (base : BitVec 32) : (setBase desc base).type = desc.type := by
  refine (extract_append_high _ (base.extractLsb' 16 8) 0 8).trans ?_
  refine (extract_append_low _ _ 0 8 (by decide)).trans ?_
  exact extract_extract desc.b 8 0 (by decide)

theorem type_taskCode : (taskCode s).type = 0xfa#8 := by
  rw [taskCode, type_setBase]
  decide

theorem type_taskData : (taskData s).type = 0xf2#8 := by
  rw [taskData, type_setBase]
  decide

/-- Bit 2 of a selector in its number. -/
theorem table_bit : selector.getLsbD 2 = decide (selector.toNat / 4 % 2 = 1) := Nat.testBit_eq_decide_div_mod_eq

/-- The table of the task at `p`, up to the last eight bytes that the limit lets through. -/
theorem Kernel.descriptor_local (hTable : k.gdt (ldtr.toNat / 8) = ldtDesc (ldtAddr p))
    (hBit : selector.getLsbD 2 = true) : k.descriptor ldtr selector =
      if selector.toNat / 8 ≤ 12 then some ((k.heap p).tableEntry (selector.toNat / 8)) else none := by
  have hLimit : (lsl (ldtDesc (ldtAddr p))).toNat = 104 := congrArg BitVec.toNat (lsl_tssldtDesc _ _)
  have hBase : (ldtDesc (ldtAddr p)).base - 20#32 = p := by
    rw [ldtDesc, Desc.base_tssldtDesc, ldtAddr, BitVec.add_sub_cancel]
  rw [Kernel.descriptor, hBit, hTable]
  simp only [hLimit, hBase, if_true]
  refine if_congr ?_ rfl rfl
  omega

theorem Kernel.descriptor_global (hBit : selector.getLsbD 2 = false) : k.descriptor ldtr selector =
    if 0 < selector.toNat / 8 ∧ 8 * (selector.toNat / 8) + 7 ≤ 256 * 8 - 1 then some (k.gdt (selector.toNat / 8))
    else none := by
  rw [Kernel.descriptor, hBit]
  rfl

theorem UserSegments.ring (h : UserSegments x) : x.cs &&& 3#16 = 3#16 := by
  rw [h.cs]
  decide

/-- The tables as the processor uses them for slot `s`. -/
structure TablesOf (k : Kernel) (ldtr : BitVec 32) (s : Nat) : Prop where
  head : ∀ i, 1 ≤ i → i ≤ 3 → k.gdt i = headGdt i
  ldt : ∃ p, k.gdt (ldtr.toNat / 8) = ldtDesc (ldtAddr p) ∧ (k.heap p).ldt1 = taskCode s ∧ (k.heap p).ldt2 = taskData s

namespace TablesOf

variable (h : TablesOf k ldtr s)

include h

theorem code (hSelector : selector.toNat / 4 = 3) : k.descriptor ldtr selector = some (taskCode s) := by
  obtain ⟨p, hTable, hCode, _⟩ := h.ldt
  have hIndex : selector.toNat / 8 = 1 := by omega
  rw [Kernel.descriptor_local hTable (by rw [table_bit, hSelector]; rfl), hIndex, if_pos (by decide), ← hCode]
  rfl

theorem data (hSelector : selector.toNat / 4 = 5) : k.descriptor ldtr selector = some (taskData s) := by
  obtain ⟨p, hTable, _, hData⟩ := h.ldt
  have hIndex : selector.toNat / 8 = 2 := by omega
  rw [Kernel.descriptor_local hTable (by rw [table_bit, hSelector]; rfl), hIndex, if_pos (by decide), ← hData]
  rfl

theorem global {i : Nat} (hi : 1 ≤ i ∧ i ≤ 3) (hSelector : selector.toNat / 4 = 2 * i) :
    k.descriptor ldtr selector = some (headGdt i) := by
  have hIndex : selector.toNat / 8 = i := by omega
  have hBit : selector.getLsbD 2 = false := by
    rw [table_bit, hSelector]
    exact decide_eq_false (by omega)
  rw [Kernel.descriptor_global hBit, hIndex, if_pos (by omega), h.head i hi.1 hi.2]

theorem dataFault_user (cpl : BitVec 2) (hUser : UserData selector) :
    dataFault cpl selector (k.descriptor ldtr selector) = none := by
  have hCpl : ∀ a b : BitVec 2, (a ≤ 3#2 && b ≤ 3#2) = true := by decide
  have hOpen {desc : Desc} (hType : desc.type = 0xfa#8 ∨ desc.type = 0xf2#8) :
      dataFault cpl selector (some desc) = none := by
    rcases hType with hType | hType <;> rw [dataFault, hType, show dpl _ = 3#2 by decide, hCpl] <;> rfl
  rcases hUser with hNull | hCode | hData | hVideo
  · have hBit : selector.getLsbD 2 = false := by
      rw [table_bit, hNull]
      rfl
    rw [Kernel.descriptor_global hBit, if_neg (by omega), dataFault, if_pos hNull]
  · rw [h.code hCode]
    exact hOpen (Or.inl type_taskCode)
  · rw [h.data hData]
    exact hOpen (Or.inr type_taskData)
  · rw [h.global (i := 3) (by omega) hVideo]
    exact hOpen (Or.inr (by decide))

/-- A program with such selectors is resumed without a fault. -/
theorem user (hUser : UserSegments x) : k.selectorFault ldtr x = none := by
  have hRing : rpl x.cs = 3#2 := by
    rw [hUser.cs]
    decide
  have hCode : codeFault x.cs (k.descriptor ldtr x.cs) = none := by
    rw [h.code (by rw [hUser.cs]; rfl), codeFault, type_taskCode, hRing]
    decide
  have hStack : stackFault (rpl x.cs) x.ss (k.descriptor ldtr x.ss) = none := by
    rcases hUser.ss with hData | hVideo
    · rw [h.data (by rw [hData]; rfl), stackFault, type_taskData, hRing, hData]
      decide
    · rw [h.global (i := 3) (by omega) (by rw [hVideo]; rfl), stackFault, hRing, hVideo]
      decide
  simp [Kernel.selectorFault, hCode, hStack, h.dataFault_user _ (hUser.data _)]

/-- So is a task that gave the processor away in the kernel. -/
theorem kernel (hKernel : KernelSegments x) : k.selectorFault ldtr x = none := by
  have hRing : rpl x.cs = 0#2 := by
    rw [hKernel.cs]
    decide
  have hCode : codeFault x.cs (k.descriptor ldtr x.cs) = none := by
    rw [h.global (i := 1) (by omega) (by rw [hKernel.cs]; rfl), codeFault, hRing]
    decide
  have hStack : stackFault (rpl x.cs) x.ss (k.descriptor ldtr x.ss) = none := by
    rw [h.global (i := 2) (by omega) (by rw [hKernel.ss]; rfl), stackFault, hRing, hKernel.ss]
    decide
  have hData : dataFault (rpl x.cs) 0x10#16 (k.descriptor ldtr 0x10#16) = none := by
    rw [h.global (i := 2) (by omega) rfl, dataFault, hRing]
    decide
  have hUser : dataFault (rpl x.cs) 0x17#16 (k.descriptor ldtr 0x17#16) = none :=
    h.dataFault_user _ (Or.inr (Or.inr (Or.inl rfl)))
  simp [Kernel.selectorFault, hCode, hStack, hKernel.ds, hKernel.es, hKernel.fs, hData, hUser,
    h.dataFault_user _ hKernel.gs]

end TablesOf

end

end Linux011

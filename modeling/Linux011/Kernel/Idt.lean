import Linux011.Kernel.Interrupts
import Linux011.Library.ByteMemory
import Linux011.Library.SubRegisters

/-! The bytes of the interrupt descriptor table, as `setup_idt` (`head.S`) and the gate macros
(`asm/system.h`) leave them, and what the processor reads there. -/
namespace Linux011

open ByteMemory SubRegisters

/-- The entry points that gates are set to. -/
inductive Symbol where
  | divideError | debug | nmi | int3 | overflow | bounds | invalidOp | doubleFault
  | coprocessorSegmentOverrun | invalidTSS | segmentNotPresent | stackSegment | generalProtection
  | pageFault | reserved | alignmentCheck | timerInterrupt | systemCall | keyboardInterrupt | ignoreInt
  deriving DecidableEq, Repr

/-- The code behind an entry point. -/
def Symbol.entry : Symbol → Entry
  | divideError => .noError .doDivideError
  | debug => .noError .doInt3
  | nmi => .noError .doNmi
  | int3 => .noError .doInt3
  | overflow => .noError .doOverflow
  | bounds => .noError .doBounds
  | invalidOp => .noError .doInvalidOp
  | doubleFault => .error .doDoubleFault
  | coprocessorSegmentOverrun => .noError .doCoprocessorSegmentOverrun
  | invalidTSS => .error .doInvalidTSS
  | segmentNotPresent => .error .doSegmentNotPresent
  | stackSegment => .error .doStackSegment
  | generalProtection => .error .doGeneralProtection
  | pageFault => .pageFault
  | reserved => .noError .doReserved
  | alignmentCheck => .error .doAlignmentCheck
  | timerInterrupt => .timerInterrupt
  | systemCall => .systemCall
  | keyboardInterrupt => .keyboardInterrupt
  | ignoreInt => .ignoreInt

/-- The arguments of `_set_gate`. -/
structure SetGate where
  n : Nat
  type : Nat
  dpl : Nat
  symbol : Symbol

def setIntrGate (n : Nat) (symbol : Symbol) : SetGate := ⟨n, 14, 0, symbol⟩
def setTrapGate (n : Nat) (symbol : Symbol) : SetGate := ⟨n, 15, 0, symbol⟩
def setSystemGate (n : Nat) (symbol : Symbol) : SetGate := ⟨n, 15, 3, symbol⟩

/-- The gates that `trap_init`, `sched_init` and `con_init` set, in the order of `main`. -/
def setGates : List SetGate :=
  [setTrapGate 0 .divideError, setTrapGate 1 .debug, setTrapGate 2 .nmi, setSystemGate 3 .int3,
    setSystemGate 4 .overflow, setSystemGate 5 .bounds, setTrapGate 6 .invalidOp, setTrapGate 8 .doubleFault,
    setTrapGate 9 .coprocessorSegmentOverrun, setTrapGate 10 .invalidTSS, setTrapGate 11 .segmentNotPresent,
    setTrapGate 12 .stackSegment, setTrapGate 13 .generalProtection, setTrapGate 14 .pageFault,
    setTrapGate 15 .reserved, setTrapGate 17 .alignmentCheck] ++
    (List.range' 18 30).map (setTrapGate · .reserved) ++
    [setIntrGate 0x20 .timerInterrupt, setSystemGate 0x80 .systemCall, setTrapGate 0x21 .keyboardInterrupt]

section

variable (idtAddr : Nat) (symbol : Symbol → BitVec 32)

/-- The two registers that are stored, as `%dx` holds the lower half of the address and then the
flags of the gate. -/
def gateEax (addr : BitVec 32) : BitVec 32 := setWord 0x00080000#32 (word addr)
def gateEdx (addr : BitVec 32) (flags : BitVec 16) : BitVec 32 := setWord addr flags

/-- The constant operand of `_set_gate`. -/
def SetGate.flags (g : SetGate) : BitVec 16 := BitVec.ofNat 16 (0x8000 + g.dpl <<< 13 + g.type <<< 8)

def storeGate (m : Memory) (n : Nat) (eax edx : BitVec 32) : Memory :=
  store32 (store32 m (idtAddr + 8 * n) eax) (idtAddr + 8 * n + 4) edx

/-- `_set_gate`. -/
def setGate (m : Memory) (g : SetGate) : Memory :=
  storeGate idtAddr m g.n (gateEax (symbol g.symbol)) (gateEdx (symbol g.symbol) g.flags)

/-- The loop of `setup_idt` with what is left of `%ecx`; `%edi` has come to entry `n`. -/
def rpSidt (eax edx : BitVec 32) : Nat → Nat → Memory → Memory
  | 0, _, m => m
  | ecx + 1, n, m => rpSidt eax edx ecx (n + 1) (storeGate idtAddr m n eax edx)

def setupIdt (m : Memory) : Memory :=
  rpSidt idtAddr (gateEax (symbol .ignoreInt)) (gateEdx (symbol .ignoreInt) 0x8e00#16) 256 0 m

/-- The table behind `main`. -/
def bootIdt (m : Memory) : Memory := setGates.foldl (setGate idtAddr symbol) (setupIdt idtAddr symbol m)

end

/-- What the processor takes from a gate; bit 4 of `type` is the S bit. -/
@[ext]
structure Gate where
  offset : BitVec 32
  selector : BitVec 16
  present : Bool
  dpl : BitVec 2
  type : BitVec 5
  deriving DecidableEq

def gateAt (idtAddr : Nat) (m : Memory) (n : Nat) : Gate :=
  let lower := load32 m (idtAddr + 8 * n)
  let upper := load32 m (idtAddr + 8 * n + 4)
  ⟨upper.extractLsb' 16 16 ++ lower.extractLsb' 0 16, lower.extractLsb' 16 16, upper.getLsbD 15,
    upper.extractLsb' 13 2, upper.extractLsb' 8 5⟩

def describe (addr : BitVec 32) (flags : BitVec 16) : Gate :=
  ⟨addr, 8#16, flags.getLsbD 15, flags.extractLsb' 13 2, flags.extractLsb' 8 5⟩

/-- Where an interrupt goes that comes from ring 3: the entry point, and whether the gate clears
IF. There is nothing for an `int n` that the gate is not open to, and for a gate that is none. -/
def Gate.deliver (g : Gate) (software : Bool) : Option (BitVec 16 × BitVec 32 × Bool) :=
  if software ∧ g.dpl < 3#2 then none
  else if ¬g.present ∨ g.type ≠ 0b01110#5 ∧ g.type ≠ 0b01111#5 then none
  else some (g.selector, g.offset, g.type == 0b01110#5)

/-- The gates that clear IF, by the code behind them. -/
def Entry.clearsIf (e : Entry) : Bool := e == .timerInterrupt || e == .ignoreInt

/-- The symbol whose gate was set last. -/
def symbolOf (n : Nat) : Symbol := ((setGates.reverse.find? (·.n = n)).map (·.symbol)).getD .ignoreInt

section

variable {idtAddr n : Nat} {symbol : Symbol → BitVec 32} {m : Memory} {eax edx addr : BitVec 32} {flags : BitVec 16}

theorem gateEax_lower (addr : BitVec 32) : (gateEax addr).extractLsb' 0 16 = addr.extractLsb' 0 16 :=
  (extract_append_low _ (word addr) 0 16 (Nat.le_refl 16)).trans (extract_self _)

theorem gateEax_upper (addr : BitVec 32) : (gateEax addr).extractLsb' 16 16 = 8#16 :=
  (extract_append_high ((0x00080000#32).extractLsb' 16 16) (word addr) 0 16).trans (by decide)

theorem gateEdx_upper (addr : BitVec 32) (flags : BitVec 16) :
    (gateEdx addr flags).extractLsb' 16 16 = addr.extractLsb' 16 16 :=
  (extract_append_high (addr.extractLsb' 16 16) flags 0 16).trans (extract_self _)

theorem gateEdx_lower (addr : BitVec 32) (flags : BitVec 16) {start len : Nat} (h : start + len ≤ 16) :
    (gateEdx addr flags).extractLsb' start len = flags.extractLsb' start len :=
  extract_append_low _ flags start len h

theorem gateEdx_present (addr : BitVec 32) (flags : BitVec 16) :
    (gateEdx addr flags).getLsbD 15 = flags.getLsbD 15 := by
  rw [gateEdx, setWord, BitVec.getLsbD_append, if_pos (by decide)]

theorem gateAt_storeGate (m : Memory) (n k : Nat) (addr : BitVec 32) (flags : BitVec 16) :
    gateAt idtAddr (storeGate idtAddr m n (gateEax addr) (gateEdx addr flags)) k =
      if k = n then describe addr flags else gateAt idtAddr m k := by
  unfold storeGate gateAt
  split_ifs with hSame
  · subst hSame
    rw [load32_store32_of_disjoint _ _ (by omega), load32_store32_same, load32_store32_same]
    dsimp only
    rw [gateEax_lower, gateEax_upper, gateEdx_upper, gateEdx_present, gateEdx_lower _ _ (by decide),
      gateEdx_lower _ _ (by decide), upper_append_lower]
    rfl
  · rw [load32_store32_of_disjoint _ _ (by omega), load32_store32_of_disjoint _ _ (by omega),
      load32_store32_of_disjoint _ _ (by omega), load32_store32_of_disjoint _ _ (by omega)]

theorem gateAt_rpSidt (count first k : Nat) (m : Memory) :
    gateAt idtAddr (rpSidt idtAddr (gateEax addr) (gateEdx addr flags) count first m) k =
      if first ≤ k ∧ k < first + count then describe addr flags else gateAt idtAddr m k := by
  induction count generalizing first m with
  | zero => exact (if_neg (by omega)).symm
  | succ count ih =>
      rw [rpSidt, ih, gateAt_storeGate]
      split_ifs <;> first | rfl | omega

theorem gateAt_setGate (m : Memory) (g : SetGate) (k : Nat) : gateAt idtAddr (setGate idtAddr symbol m g) k =
    if k = g.n then describe (symbol g.symbol) g.flags else gateAt idtAddr m k :=
  gateAt_storeGate m g.n k _ _

/-- Of the gates set for one entry the last counts. -/
theorem gateAt_foldl (gates : List SetGate) (m : Memory) (k : Nat) :
    gateAt idtAddr (gates.foldl (setGate idtAddr symbol) m) k =
      match gates.reverse.find? (·.n = k) with
      | some g => describe (symbol g.symbol) g.flags
      | none => gateAt idtAddr m k := by
  induction gates generalizing m with
  | nil => rfl
  | cons g gates ih =>
      rw [List.foldl_cons, ih, List.reverse_cons, List.find?_append]
      cases gates.reverse.find? (·.n = k) with
      | some g' => rfl
      | none =>
          rw [gateAt_setGate]
          by_cases hSame : g.n = k
          · simp [hSame]
          · simp [hSame, Ne.symm hSame]

/-- The frame of the table: everything is stored inside its 2KB. -/
theorem storeGate_outside (m : Memory) {n a : Nat} (hn : n < 256) (h : a < idtAddr ∨ idtAddr + 2048 ≤ a) :
    storeGate idtAddr m n eax edx a = m a := by
  rw [storeGate, store32_outside _ _ _ (by omega), store32_outside _ _ _ (by omega)]

theorem rpSidt_outside (count first : Nat) (m : Memory) {a : Nat} (hFit : first + count ≤ 256)
    (h : a < idtAddr ∨ idtAddr + 2048 ≤ a) : rpSidt idtAddr eax edx count first m a = m a := by
  induction count generalizing first m with
  | zero => rfl
  | succ count ih => rw [rpSidt, ih _ _ (by omega), storeGate_outside m (by omega) h]

theorem foldl_outside (gates : List SetGate) (m : Memory) {a : Nat} (hGates : ∀ g ∈ gates, g.n < 256)
    (h : a < idtAddr ∨ idtAddr + 2048 ≤ a) : gates.foldl (setGate idtAddr symbol) m a = m a := by
  induction gates generalizing m with
  | nil => rfl
  | cons g gates ih =>
      rw [List.foldl_cons, ih _ fun g' hg' => hGates g' (List.mem_cons_of_mem g hg')]
      exact storeGate_outside m (hGates g (List.mem_cons_self ..)) h

/-- The flags of the gate that is set last. -/
def flagsOf (n : Nat) : BitVec 16 := ((setGates.reverse.find? (·.n = n)).map SetGate.flags).getD 0x8e00#16

theorem gateAt_bootIdt (m : Memory) {k : Nat} (hk : k < 256) :
    gateAt idtAddr (bootIdt idtAddr symbol m) k = describe (symbol (symbolOf k)) (flagsOf k) := by
  rw [bootIdt, gateAt_foldl, symbolOf, flagsOf]
  cases setGates.reverse.find? (·.n = k) with
  | some g => rfl
  | none => exact (gateAt_rpSidt 256 0 k m).trans (if_pos ⟨Nat.zero_le k, by omega⟩)

theorem symbolOf_entry (vector : Fin 256) : (symbolOf vector).entry = idt vector := by
  have hAll : ∀ vector : Fin 256, (symbolOf vector).entry = idt vector := by decide +kernel
  exact hAll vector

/-- The vectors that ring 3 may name. -/
def openVectors : List Nat := [3, 4, 5, 0x80]

theorem deliver_flagsOf (addr : BitVec 32) (vector : Fin 256) (software : Bool) :
    (describe addr (flagsOf vector)).deliver software =
      if software ∧ vector.val ∉ openVectors then none
      else some (8#16, addr, (idt vector).clearsIf) := by
  have hAll : ∀ (vector : Fin 256) (software : Bool), (describe 0#32 (flagsOf vector)).deliver software =
      if software ∧ vector.val ∉ openVectors then none
      else some (8#16, 0#32, (idt vector).clearsIf) := by decide +kernel
  have hVector := hAll vector software
  unfold describe Gate.deliver at hVector ⊢
  split_ifs at hVector ⊢ <;> simp_all

/-- The table behind `main`, wherever it lies and wherever the entry points are: every interrupt that
comes from ring 3 arrives at the code of its vector, in segment 8, and IF is cleared for the timer and
for the vectors without a gate of their own only; `int n` is open for the vectors 3, 4, 5 and 0x80
and for no other one. No byte outside of the table is written. -/
theorem idt_delivers (idtAddr : Nat) (symbol : Symbol → BitVec 32) (m : Memory) :
    (∀ (vector : Fin 256) (software : Bool), (gateAt idtAddr (bootIdt idtAddr symbol m) vector).deliver software =
      if software ∧ vector.val ∉ openVectors then none
      else some (8#16, symbol (symbolOf vector), (idt vector).clearsIf)) ∧
    (∀ vector : Fin 256, (symbolOf vector).entry = idt vector) ∧
    ∀ a, a < idtAddr ∨ idtAddr + 2048 ≤ a → bootIdt idtAddr symbol m a = m a := by
  refine ⟨fun vector software => ?_, symbolOf_entry, fun a ha => ?_⟩
  · rw [gateAt_bootIdt m vector.isLt]
    exact deliver_flagsOf _ vector software
  · rw [bootIdt, foldl_outside _ _ (by decide) ha]
    exact rpSidt_outside 256 0 m (Nat.le_refl 256) ha

end

end Linux011

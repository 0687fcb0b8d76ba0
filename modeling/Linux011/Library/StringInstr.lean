import Mathlib.Algebra.Ring.Nat
import Mathlib.Data.List.Basic
import Mathlib.Logic.Function.Basic
import Mathlib.Tactic.Common

/-! The string instructions of the i386 over flat memory, all but `movsb` with the direction flag
clear, and the flags that conditional jumps look at. -/
namespace StringInstr

abbrev Byte := BitVec 8

/-- There is no byte where nothing is mapped, and an access there has no result. -/
abbrev Memory := BitVec 32 → Option Byte

/-- The registers and flags that the string functions use. -/
structure Cpu where
  eax : BitVec 32
  ebx : BitVec 32
  ecx : BitVec 32
  edx : BitVec 32
  esi : BitVec 32
  edi : BitVec 32
  zf : Bool
  sf : Bool
  of : Bool
  mem : Memory

namespace Cpu

variable (c : Cpu)

def al : Byte := c.eax.setWidth 8

def setAl (b : Byte) : Cpu := { c with eax := c.eax.extractLsb' 8 24 ++ b }

def ah : Byte := c.eax.extractLsb' 8 8

/-- `movb %al, %ah`. -/
def movbAlAh : Cpu := { c with eax := c.eax.extractLsb' 16 16 ++ (c.al ++ c.al) }

/-- The flags after `a - b`, and after `cmp`. -/
def compare {w : Nat} (a b : BitVec w) : Cpu :=
  { c with zf := a - b == 0#w, sf := (a - b).msb, of := (a - b).toInt != a.toInt - b.toInt }

/-- The flags after `test` and `xor`. -/
def logic {w : Nat} (v : BitVec w) : Cpu := { c with zf := v == 0#w, sf := v.msb, of := false }

/-- The condition of `jl`. -/
def less : Bool := c.sf != c.of

/-- A store to memory that is there. -/
def store (a : BitVec 32) (b : Byte) : Option Cpu :=
  (c.mem a).map fun _ => { c with mem := Function.update c.mem a (some b) }

/-- `lodsb` with the direction flag clear, as the next ones. -/
def lodsb : Option Cpu := (c.mem c.esi).map fun b => { c.setAl b with esi := c.esi + 1#32 }

def stosb : Option Cpu := (c.store c.edi c.al).map fun c => { c with edi := c.edi + 1#32 }

def scasb : Option Cpu := (c.mem c.edi).map fun b => { c.compare c.al b with edi := c.edi + 1#32 }

def cmpsb : Option Cpu := do
  let a ← c.mem c.esi
  let b ← c.mem c.edi
  some { c.compare a b with esi := c.esi + 1#32, edi := c.edi + 1#32 }

/-- `cmpb $0, (a)`. -/
def cmpbZero (a : BitVec 32) : Option Cpu := (c.mem a).map fun b => c.compare b 0#8

/-- `movsb`; the direction flag counts down. -/
def movsb (df : Bool) : Option Cpu := do
  let b ← c.mem c.esi
  let c ← c.store c.edi b
  let step := if df then -1#32 else 1#32
  some { c with esi := c.esi + step, edi := c.edi + step }

/-- `testb %al,%al`. -/
def testAl : Cpu := c.logic c.al

def decEax : Cpu := { c.compare c.eax 1#32 with eax := c.eax - 1#32 }

def decEdx : Cpu := { c.compare c.edx 1#32 with edx := c.edx - 1#32 }

def decEcx : Cpu := { c.compare c.ecx 1#32 with ecx := c.ecx - 1#32 }

def decEsi : Cpu := { c.compare c.esi 1#32 with esi := c.esi - 1#32 }

def decEdi : Cpu := { c.compare c.edi 1#32 with edi := c.edi - 1#32 }

def incEsi : Cpu := { c.compare c.esi (-1#32) with esi := c.esi + 1#32 }

def negEax : Cpu := { c.compare 0#32 c.eax with eax := -c.eax }

def xorEax : Cpu := { c.logic 0#32 with eax := 0#32 }

def xorEbx : Cpu := { c.logic 0#32 with ebx := 0#32 }

def xorEsi : Cpu := { c.logic 0#32 with esi := 0#32 }

def notEcx : Cpu := { c with ecx := ~~~c.ecx }

end Cpu

/-- `repne scasb` with `count` in `ecx`. -/
def repneScasbLoop : Nat → Cpu → Option Cpu
  | 0, c => some c
  | count + 1, c => do
      let c ← c.scasb
      let c := { c with ecx := c.ecx - 1#32 }
      if c.zf then some c else repneScasbLoop count c

/-- `repne scasb`. -/
def Cpu.repneScasb (c : Cpu) : Option Cpu := repneScasbLoop c.ecx.toNat c

/-- `repe cmpsb` with `count` in `ecx`. -/
def repeCmpsbLoop : Nat → Cpu → Option Cpu
  | 0, c => some c
  | count + 1, c => do
      let c ← c.cmpsb
      let c := { c with ecx := c.ecx - 1#32 }
      if c.zf then repeCmpsbLoop count c else some c

/-- `repe cmpsb`. -/
def Cpu.repeCmpsb (c : Cpu) : Option Cpu := repeCmpsbLoop c.ecx.toNat c

/-- `rep stosb` with `count` in `ecx`. -/
def repStosbLoop : Nat → Cpu → Option Cpu
  | 0, c => some c
  | count + 1, c => do
      let c ← c.stosb
      repStosbLoop count { c with ecx := c.ecx - 1#32 }

/-- `rep stosb`. -/
def Cpu.repStosb (c : Cpu) : Option Cpu := repStosbLoop c.ecx.toNat c

/-- `rep movsb` with `count` in `ecx`. -/
def repMovsbLoop (df : Bool) : Nat → Cpu → Option Cpu
  | 0, c => some c
  | count + 1, c => do
      let c ← c.movsb df
      repMovsbLoop df count { c with ecx := c.ecx - 1#32 }

/-- `rep movsb`. -/
def Cpu.repMovsb (c : Cpu) (df : Bool) : Option Cpu := repMovsbLoop df c.ecx.toNat c

/-- From `p` on memory holds `xs`. -/
def Holds (m : Memory) : BitVec 32 → List Byte → Prop
  | _, [] => True
  | p, x :: xs => m p = some x ∧ Holds m (p + 1#32) xs

/-- A string of C at `p`: it does not lie at the address 0, which is that of nothing, and does
not go round the end of memory. -/
structure IsString (m : Memory) (p : BitVec 32) (s : List Byte) : Prop where
  holds : Holds m p (s ++ [0#8])
  noNul : 0#8 ∉ s
  notNull : p ≠ 0#32
  fits : p.toNat + s.length < 2 ^ 32

section

variable {m m' : Memory} {p : BitVec 32} {xs ys s : List Byte} {x : Byte} {i : Nat}

/-- A string in two parts. -/
theorem holds_append :
    Holds m p (xs ++ ys) ↔ Holds m p xs ∧ Holds m (p + BitVec.ofNat 32 xs.length) ys := by
  induction xs generalizing p with
  | nil => simp [Holds]
  | cons x xs ih =>
      have hAddr : p + 1#32 + BitVec.ofNat 32 xs.length = p + BitVec.ofNat 32 (x :: xs).length := by
        rw [BitVec.add_assoc, ← BitVec.ofNat_add, List.length_cons, Nat.add_comm]
      rw [List.cons_append, Holds, Holds, ih, hAddr, and_assoc]

theorem Holds.congr (h : Holds m p xs)
    (hSame : ∀ i < xs.length, m' (p + BitVec.ofNat 32 i) = m (p + BitVec.ofNat 32 i)) : Holds m' p xs := by
  induction xs generalizing p with
  | nil => trivial
  | cons x xs ih =>
      refine ⟨?_, ih h.2 fun i hi => ?_⟩
      · have hFirst := hSame 0 (Nat.succ_pos _)
        simp only [BitVec.add_zero] at hFirst
        exact hFirst.trans h.1
      · have hNext := hSame (i + 1) (Nat.succ_lt_succ hi)
        rwa [Nat.add_comm, BitVec.ofNat_add, ← BitVec.add_assoc] at hNext

theorem toNat_add {n : Nat} (h : p.toNat + n < 2 ^ 32) : (p + BitVec.ofNat 32 n).toNat = p.toNat + n := by
  rw [BitVec.toNat_add, BitVec.toNat_ofNat]
  omega

/-- The rest of a string is a string. -/
theorem IsString.drop (h : IsString m p (xs ++ ys)) : IsString m (p + BitVec.ofNat 32 xs.length) ys := by
  have hFits := h.fits
  have hPos : p.toNat ≠ 0 := fun hZero => h.notNull (BitVec.eq_of_toNat_eq hZero)
  rw [List.length_append] at hFits
  have hAddr : (p + BitVec.ofNat 32 xs.length).toNat = p.toNat + xs.length := toNat_add (by omega)
  have hHolds := h.holds
  rw [List.append_assoc, holds_append] at hHolds
  refine ⟨hHolds.2, fun hMem => h.noNul (List.mem_append_right _ hMem), fun hNull => ?_, by omega⟩
  rw [hNull] at hAddr
  change 0 = _ at hAddr
  omega

/-- A string with its NUL is shorter than the address space. -/
theorem IsString.length_lt (h : IsString m p s) : s.length + 1 < 2 ^ 32 := by
  have hFits := h.fits
  have hPos : p.toNat ≠ 0 := fun hZero => h.notNull (BitVec.eq_of_toNat_eq hZero)
  omega

end

/-- The `n` bytes at `p` and the `k` bytes at `q` do not overlap. -/
def Apart (p : BitVec 32) (n : Nat) (q : BitVec 32) (k : Nat) : Prop :=
  ∀ i < n, ∀ j < k, p + BitVec.ofNat 32 i ≠ q + BitVec.ofNat 32 j

def Mapped (m : Memory) (p : BitVec 32) (n : Nat) : Prop := ∀ i < n, (m (p + BitVec.ofNat 32 i)).isSome

/-- `xs` stored from `p` on. -/
def write : Memory → BitVec 32 → List Byte → Memory
  | m, _, [] => m
  | m, p, x :: xs => write (Function.update m p (some x)) (p + 1#32) xs

/-- `m'` is `m` but for `xs` at `p`. -/
structure Stored (m : Memory) (p : BitVec 32) (xs : List Byte) (m' : Memory) : Prop where
  inside : Holds m' p xs
  outside : ∀ a, (∀ i < xs.length, a ≠ p + BitVec.ofNat 32 i) → m' a = m a

section

variable {m m' : Memory} {p q : BitVec 32} {xs ys : List Byte} {x : Byte} {n k : Nat}

theorem add_one_add (p : BitVec 32) (i : Nat) : p + 1#32 + BitVec.ofNat 32 i = p + BitVec.ofNat 32 (i + 1) := by
  rw [BitVec.add_assoc, ← BitVec.ofNat_add, Nat.add_comm]

theorem ofNat_ne {i j : Nat} (hi : i < 2 ^ 32) (hj : j < 2 ^ 32) (h : i ≠ j) :
    p + BitVec.ofNat 32 i ≠ p + BitVec.ofNat 32 j := by
  intro hEq
  have hNat := congrArg BitVec.toNat ((BitVec.add_right_inj p).mp hEq)
  rw [BitVec.toNat_ofNat, BitVec.toNat_ofNat, Nat.mod_eq_of_lt hi, Nat.mod_eq_of_lt hj] at hNat
  exact h hNat

theorem Apart.symm (h : Apart p n q k) : Apart q k p n := fun i hi j hj hEq => h j hj i hi hEq.symm

theorem Apart.mono (h : Apart p n q k) {n' k' : Nat} (hn : n' ≤ n) (hk : k' ≤ k) : Apart p n' q k' :=
  fun i hi j hj => h i (Nat.lt_of_lt_of_le hi hn) j (Nat.lt_of_lt_of_le hj hk)

/-- What leaves room for one byte does not fill the address space. -/
theorem Apart.lt (h : Apart p (n + 1) q k) : k < 2 ^ 32 := by
  by_contra hAll
  refine h 0 (Nat.succ_pos n) (p - q).toNat (by omega) ?_
  rw [BitVec.ofNat_toNat, BitVec.setWidth_eq, BitVec.add_zero, BitVec.add_comm, BitVec.sub_add_cancel]

theorem Apart.tail (h : Apart p (n + 1) q k) : Apart (p + 1#32) n q k := by
  intro i hi j hj
  rw [add_one_add]
  exact h (i + 1) (by omega) j hj

theorem Apart.next (h : Apart p (n + 1) q (k + 1)) : Apart (p + 1#32) n (q + 1#32) k := by
  intro i hi j hj
  rw [add_one_add, add_one_add]
  exact h (i + 1) (by omega) (j + 1) (by omega)

theorem Apart.drop {n' : Nat} (h : Apart p n q (n' + k)) : Apart p n (q + BitVec.ofNat 32 n') k := by
  intro i hi j hj
  rw [BitVec.add_assoc, ← BitVec.ofNat_add]
  exact h i hi (n' + j) (by omega)

theorem Mapped.first (h : Mapped m p (n + 1)) : (m p).isSome := by
  simpa using h 0 (Nat.succ_pos n)

theorem isSome_update (a : BitVec 32) (h : (m a).isSome) : (Function.update m p (some x) a).isSome := by
  by_cases hEq : a = p
  · simp [hEq]
  · rwa [Function.update_of_ne hEq]

theorem Mapped.next (h : Mapped m p (n + 1)) : Mapped (Function.update m p (some x)) (p + 1#32) n := by
  intro i hi
  rw [add_one_add]
  exact isSome_update _ (h (i + 1) (by omega))

theorem Mapped.drop (h : Mapped m p (n + k)) : Mapped m (p + BitVec.ofNat 32 n) k := by
  intro i hi
  rw [BitVec.add_assoc, ← BitVec.ofNat_add]
  exact h (n + i) (by omega)

/-- What is mapped stays mapped. -/
theorem isSome_write {a : BitVec 32} (h : (m a).isSome) : (write m p xs a).isSome := by
  induction xs generalizing m p with
  | nil => exact h
  | cons x xs ih => exact ih (isSome_update a h)

/-- Other bytes stay. -/
theorem write_outside {a : BitVec 32} (h : ∀ i < xs.length, a ≠ p + BitVec.ofNat 32 i) : write m p xs a = m a := by
  induction xs generalizing m p with
  | nil => rfl
  | cons x xs ih =>
      rw [write, ih fun i hi => ?_, Function.update_of_ne (by simpa using h 0 (Nat.succ_pos _))]
      rw [add_one_add]
      exact h (i + 1) (Nat.succ_lt_succ hi)

/-- What has been written is there. -/
theorem holds_write (h : xs.length ≤ 2 ^ 32) : Holds (write m p xs) p xs := by
  induction xs generalizing m p with
  | nil => trivial
  | cons x xs ih =>
      rw [List.length_cons] at h
      refine ⟨?_, ih (by omega)⟩
      rw [write, write_outside fun i hi => ?_, Function.update_self]
      rw [add_one_add]
      simpa using ofNat_ne (p := p) (i := 0) (j := i + 1) (by omega) (by omega) (by omega)

theorem stored_write (h : xs.length ≤ 2 ^ 32) : Stored m p xs (write m p xs) :=
  ⟨holds_write h, fun _ => write_outside⟩

/-- Writing in two parts. -/
theorem write_append : write m p (xs ++ ys) = write (write m p xs) (p + BitVec.ofNat 32 xs.length) ys := by
  induction xs generalizing m p with
  | nil => simp [write]
  | cons x xs ih => rw [List.cons_append, write, write, ih, add_one_add, List.length_cons]

/-- A store elsewhere leaves a string as it is. -/
theorem Holds.update (h : Holds m p xs) (hApart : Apart p xs.length q 1) :
    Holds (Function.update m q (some x)) p xs :=
  h.congr fun i hi => Function.update_of_ne (by simpa using hApart i hi 0 Nat.zero_lt_one) _ _

theorem IsString.update (h : IsString m p xs) (hApart : Apart p (xs.length + 1) q 1) :
    IsString (Function.update m q (some x)) p xs where
  holds := h.holds.update (by rwa [List.length_append])
  noNul := h.noNul
  notNull := h.notNull
  fits := h.fits

/-- A NUL stored inside a string ends it there. -/
theorem IsString.cut (h : IsString m p (xs ++ x :: ys)) :
    IsString (Function.update m (p + BitVec.ofNat 32 xs.length) (some 0#8)) p xs := by
  have hLength := h.length_lt
  have hFits := h.fits
  have hHolds := h.holds
  rw [List.append_assoc, holds_append] at hHolds
  rw [List.length_append, List.length_cons] at hLength hFits
  refine ⟨holds_append.mpr ⟨hHolds.1.update fun i hi j hj => ?_, ?_, trivial⟩,
    fun hMem => h.noNul (List.mem_append_left _ hMem), h.notNull, by omega⟩
  · obtain rfl : j = 0 := by omega
    rw [BitVec.add_zero]
    exact ofNat_ne (by omega) (by omega) (Nat.ne_of_lt hi)
  · exact Function.update_self _ _ _

end

/-- Memory in which only these bytes are mapped. -/
def layout (regions : List (BitVec 32 × List Byte)) : Memory := fun a =>
  regions.findSome? fun (p, xs) => xs[(a - p).toNat]?

/-- A processor that has nothing in its registers. -/
def Cpu.blank (m : Memory) : Cpu := ⟨0#32, 0#32, 0#32, 0#32, 0#32, 0#32, false, false, false, m⟩

section

variable (c : Cpu) {a b x : Byte} {xs ys : List Byte}

@[simp] theorem al_setAl : (c.setAl b).al = b := by
  rw [Cpu.al, Cpu.setAl, BitVec.setWidth_append, dif_pos (Nat.le_refl 8), BitVec.setWidth_eq]

@[simp] theorem zf_compare {w : Nat} (v u : BitVec w) : (c.compare v u).zf = (v == u) := by
  rw [Bool.eq_iff_iff, Cpu.compare, beq_iff_eq, beq_iff_eq, BitVec.sub_eq_iff_eq_add, BitVec.zero_add]

@[simp] theorem zf_testAl : c.testAl.zf = (c.al == 0#8) := rfl

/-- `jl` after a comparison of bytes: they are taken as signed. -/
theorem less_compare : (c.compare a b).less = a.slt b := by
  have hA := a.toInt_lt
  have hA' := a.le_toInt
  have hB := b.toInt_lt
  have hB' := b.le_toInt
  have hSub : (a - b).toInt = (a.toInt - b.toInt).bmod (2 ^ 8) := BitVec.toInt_sub
  rw [Bool.eq_iff_iff, BitVec.slt_iff_toInt_lt, Cpu.less, Cpu.compare, BitVec.msb_eq_toInt, hSub, Int.bmod_def]
  simp only [bne_iff_ne, ne_eq]
  by_cases hLess : a.toInt < b.toInt <;> split_ifs <;> grind

section

variable {c : Cpu}

/-- `decl` and `js`: the count is used up. -/
theorem sf_decEcx {n : Nat} (h : c.ecx = BitVec.ofNat 32 n) (hn : n < 2 ^ 31) : c.decEcx.sf = true ↔ n = 0 := by
  change (c.ecx - 1#32).msb = true ↔ n = 0
  rw [h, BitVec.msb_eq_decide, decide_eq_true_iff, BitVec.toNat_sub, BitVec.toNat_ofNat, BitVec.toNat_ofNat]
  omega

theorem ecx_decEcx {n : Nat} (h : c.ecx = BitVec.ofNat 32 (n + 1)) : c.decEcx.ecx = BitVec.ofNat 32 n := by
  change c.ecx - 1#32 = _
  rw [h, BitVec.ofNat_add, BitVec.add_sub_cancel]

theorem zf_decEcx {n : Nat} (h : c.ecx = BitVec.ofNat 32 (n + 1)) (hn : n < 2 ^ 32) :
    c.decEcx.zf = true ↔ n = 0 := by
  have hZf : c.decEcx.zf = (c.ecx - 1#32 == 0#32) := rfl
  have hNext : c.ecx - 1#32 = BitVec.ofNat 32 n := ecx_decEcx h
  rw [hZf, hNext, beq_iff_eq, ← BitVec.toNat_inj, BitVec.toNat_ofNat, Nat.mod_eq_of_lt hn]
  rfl

/-- Behind `lodsb`. -/
def Cpu.loaded (c : Cpu) (x : Byte) : Cpu := { c.setAl x with esi := c.esi + 1#32 }

/-- Behind `stosb`. -/
def Cpu.stored (c : Cpu) : Cpu :=
  { c with mem := Function.update c.mem c.edi (some c.al), edi := c.edi + 1#32 }

/-- Behind `scasb`. -/
def Cpu.matched (c : Cpu) (x : Byte) : Cpu := { c.compare c.al x with edi := c.edi + 1#32 }

@[simp] theorem al_loaded : (c.loaded x).al = x := al_setAl c

theorem zf_matched : (c.matched x).zf = true ↔ c.al = x := by
  change (c.compare c.al x).zf = true ↔ _
  rw [zf_compare, beq_iff_eq]

theorem lodsb_eq (h : c.mem c.esi = some x) : c.lodsb = some (c.loaded x) := by
  rw [Cpu.lodsb, h]
  rfl

theorem scasb_eq (h : c.mem c.edi = some x) : c.scasb = some (c.matched x) := by
  rw [Cpu.scasb, h]
  rfl

theorem stosb_eq (h : (c.mem c.edi).isSome) : c.stosb = some c.stored := by
  obtain ⟨old, hOld⟩ := Option.isSome_iff_exists.mp h
  rw [Cpu.stosb, Cpu.store, hOld]
  rfl

theorem cmpsb_eq (hA : c.mem c.esi = some a) (hB : c.mem c.edi = some b) :
    c.cmpsb = some { c.compare a b with esi := c.esi + 1#32, edi := c.edi + 1#32 } := by
  rw [Cpu.cmpsb, hA, hB]
  rfl

theorem cmpbZero_eq {p : BitVec 32} (h : c.mem p = some x) : c.cmpbZero p = some (c.compare x 0#8) := by
  rw [Cpu.cmpbZero, h, Option.map_some]

/-- One round of `repne scasb`. -/
def Cpu.scanned (c : Cpu) (x : Byte) : Cpu :=
  { c.matched x with ecx := c.ecx - 1#32 }

/-- One byte of the scan. -/
theorem repneScasbLoop_succ {count : Nat} (h : c.mem c.edi = some x) : repneScasbLoop (count + 1) c =
    if c.al = x then some (c.scanned x) else repneScasbLoop count (c.scanned x) := by
  rw [repneScasbLoop, scasb_eq h]
  exact if_congr zf_matched rfl rfl

/-- With no bytes to look at, the flags stay as they are. -/
theorem repneScasb_zero (h : c.ecx = 0#32) : c.repneScasb = some c := by
  rw [Cpu.repneScasb, h]
  rfl

/-- A byte that is there ends `repne scasb` behind it. -/
theorem repneScasbLoop_found {count : Nat} (hHolds : Holds c.mem c.edi (xs ++ [c.al])) (hNot : c.al ∉ xs)
    (hCount : xs.length < count) : repneScasbLoop count c = some { c.compare c.al c.al with
      edi := c.edi + BitVec.ofNat 32 (xs.length + 1), ecx := c.ecx - BitVec.ofNat 32 (xs.length + 1) } := by
  induction count generalizing c xs with
  | zero => exact absurd hCount (Nat.not_lt_zero _)
  | succ count ih =>
      cases xs with
      | nil => exact (repneScasbLoop_succ hHolds.1).trans (if_pos rfl)
      | cons x xs =>
          have hNe : c.al ≠ x := fun h => hNot (h ▸ List.mem_cons_self)
          have hEcx : c.ecx - 1#32 - BitVec.ofNat 32 (xs.length + 1) =
              c.ecx - BitVec.ofNat 32 ((x :: xs).length + 1) := by
            rw [BitVec.sub_sub, ← BitVec.ofNat_add, List.length_cons, Nat.add_comm 1]
          rw [repneScasbLoop_succ hHolds.1, if_neg hNe, ih (c := c.scanned x) hHolds.2
            (fun h => hNot (List.mem_cons_of_mem _ h)) (Nat.lt_of_succ_lt_succ hCount), ← hEcx, List.length_cons,
            ← add_one_add c.edi (xs.length + 1)]
          rfl

/-- The start of every function here: how long is the string at `edi`? -/
theorem repneScasb_string {s : List Byte} (h : IsString c.mem c.edi s) (hAl : c.al = 0#8)
    (hEcx : c.ecx = 0xffffffff#32) : c.repneScasb = some { c.compare 0#8 0#8 with
      edi := c.edi + BitVec.ofNat 32 (s.length + 1), ecx := ~~~BitVec.ofNat 32 (s.length + 1) } := by
  have hLength := h.length_lt
  rw [Cpu.repneScasb, repneScasbLoop_found (hAl ▸ h.holds) (hAl ▸ h.noNul) (by
    rw [hEcx]
    change s.length < 2 ^ 32 - 1
    omega), hAl, hEcx, show 0xffffffff#32 = BitVec.allOnes 32 from rfl, BitVec.allOnes_sub_eq_not]

/-- `repne scasb` over the whole of `xs` says whether `al` is in there. -/
theorem repneScasb_mem (hHolds : Holds c.mem c.edi xs) (hSome : xs ≠ []) (hCount : c.ecx.toNat = xs.length) :
    ∃ edi ecx sf of, c.repneScasb = some { c with
      edi := edi, ecx := ecx, zf := decide (c.al ∈ xs), sf := sf, of := of } := by
  rw [Cpu.repneScasb, hCount]
  clear hCount
  induction xs generalizing c with
  | nil => exact absurd rfl hSome
  | cons x xs ih =>
      rw [List.length_cons, repneScasbLoop_succ hHolds.1]
      by_cases hHere : c.al = x
      · have hMem : (c.al == x) = decide (c.al ∈ x :: xs) := by simp [hHere]
        rw [if_pos hHere, ← hMem, ← zf_compare c]
        exact ⟨_, _, _, _, rfl⟩
      · rw [if_neg hHere]
        by_cases hLast : xs = []
        · have hMem : (c.al == x) = decide (c.al ∈ x :: xs) := by simp [hLast, beq_eq_decide]
          rw [← hMem, ← zf_compare c, hLast]
          exact ⟨_, _, _, _, rfl⟩
        · have hMem : decide (c.al ∈ x :: xs) = decide (c.al ∈ xs) := by simp [hHere]
          rw [hMem]
          exact ih (c := c.scanned x) hHolds.2 hLast

/-- One round of `repe cmpsb`. -/
def Cpu.compared (c : Cpu) (a b : Byte) : Cpu :=
  { c.compare a b with esi := c.esi + 1#32, edi := c.edi + 1#32, ecx := c.ecx - 1#32 }

/-- One pair of the comparison. -/
theorem repeCmpsbLoop_succ {count : Nat} (hA : c.mem c.esi = some a) (hB : c.mem c.edi = some b) :
    repeCmpsbLoop (count + 1) c = if a = b then repeCmpsbLoop count (c.compared a b) else some (c.compared a b) := by
  have hZf : (c.compared a b).zf = true ↔ a = b := by
    change (c.compare a b).zf = true ↔ _
    rw [zf_compare, beq_iff_eq]
  rw [repeCmpsbLoop, cmpsb_eq hA hB]
  exact if_congr hZf rfl rfl

/-- `repe cmpsb` over bytes that agree. -/
theorem repeCmpsb_equal (hA : Holds c.mem c.esi xs) (hB : Holds c.mem c.edi xs) (hSome : xs ≠ [])
    (hCount : c.ecx.toNat = xs.length) : ∃ esi edi ecx sf of, c.repeCmpsb = some { c with
      esi := esi, edi := edi, ecx := ecx, zf := true, sf := sf, of := of } := by
  rw [Cpu.repeCmpsb, hCount]
  clear hCount
  induction xs generalizing c with
  | nil => exact absurd rfl hSome
  | cons x xs ih =>
      rw [List.length_cons, repeCmpsbLoop_succ hA.1 hB.1, if_pos rfl]
      by_cases hLast : xs = []
      · rw [hLast]
        exact ⟨_, _, _, _, _, by rw [← show (x == x) = true from beq_self_eq_true x, ← zf_compare c]; rfl⟩
      · exact ih (c := c.compared x x) hA.2 hB.2 hLast

/-- `repe cmpsb` ends behind the first bytes that differ. -/
theorem repeCmpsbLoop_differ {count : Nat} (hA : Holds c.mem c.esi (xs ++ [a])) (hB : Holds c.mem c.edi (xs ++ [b]))
    (hNe : a ≠ b) (hCount : xs.length < count) : repeCmpsbLoop count c = some { c.compare a b with
      esi := c.esi + BitVec.ofNat 32 (xs.length + 1), edi := c.edi + BitVec.ofNat 32 (xs.length + 1)
      ecx := c.ecx - BitVec.ofNat 32 (xs.length + 1) } := by
  induction count generalizing c xs with
  | zero => exact absurd hCount (Nat.not_lt_zero _)
  | succ count ih =>
      cases xs with
      | nil => exact (repeCmpsbLoop_succ hA.1 hB.1).trans (if_neg hNe)
      | cons x xs =>
          have hEcx : c.ecx - 1#32 - BitVec.ofNat 32 (xs.length + 1) =
              c.ecx - BitVec.ofNat 32 ((x :: xs).length + 1) := by
            rw [BitVec.sub_sub, ← BitVec.ofNat_add, List.length_cons, Nat.add_comm 1]
          rw [repeCmpsbLoop_succ hA.1 hB.1, if_pos rfl, ih (c := c.compared x x) hA.2 hB.2
            (Nat.lt_of_succ_lt_succ hCount), ← hEcx, List.length_cons,
            ← add_one_add c.edi (xs.length + 1), ← add_one_add c.esi (xs.length + 1)]
          rfl

/-- `rep stosb` fills a region. -/
theorem repStosb_eq (hMapped : Mapped c.mem c.edi c.ecx.toNat) : c.repStosb = some { c with
    edi := c.edi + c.ecx, ecx := 0#32, mem := write c.mem c.edi (List.replicate c.ecx.toNat c.al) } := by
  rw [Cpu.repStosb]
  generalize hCount : c.ecx.toNat = count at hMapped
  have hEcx : c.ecx = BitVec.ofNat 32 count := by rw [← hCount, BitVec.ofNat_toNat, BitVec.setWidth_eq]
  clear hCount
  induction count generalizing c with
  | zero =>
      rw [hEcx, BitVec.add_zero, ← hEcx]
      rfl
  | succ count ih =>
      have hRest : c.ecx - 1#32 = BitVec.ofNat 32 count := ecx_decEcx hEcx
      rw [repStosbLoop, stosb_eq hMapped.first, Option.bind_eq_bind, Option.bind_some]
      refine (ih (c := { c.stored with ecx := c.stored.ecx - 1#32 }) hMapped.next hRest).trans (congrArg some ?_)
      rw [List.replicate_succ, write, hEcx, ← add_one_add, ← hRest]
      rfl

/-- One round of `rep movsb`. -/
def Cpu.moving (c : Cpu) (df : Bool) (b : Byte) : Cpu :=
  let step := if df then -1#32 else 1#32
  { c with
    esi := c.esi + step
    edi := c.edi + step
    ecx := c.ecx - 1#32
    mem := Function.update c.mem c.edi (some b) }

/-- One byte of the move, in either direction. -/
theorem repMovsbLoop_succ {df : Bool} {count : Nat} (hByte : c.mem c.esi = some b) (hTarget : (c.mem c.edi).isSome) :
    repMovsbLoop df (count + 1) c = repMovsbLoop df count (c.moving df b) := by
  obtain ⟨old, hOld⟩ := Option.isSome_iff_exists.mp hTarget
  rw [repMovsbLoop, Cpu.movsb, hByte]
  simp only [Option.bind_eq_bind, Option.bind_some, Cpu.store, hOld, Option.map_some]
  rfl

end

end

end StringInstr

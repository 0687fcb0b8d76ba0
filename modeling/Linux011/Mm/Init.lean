import Linux011.Mm.Memory
import Mathlib.Tactic.SplitIfs

/-! The memory state that boot leaves behind: the identity map built by
`setup_paging` in `head.S`, the memory sizes computed in `main`, and
`mem_init`. -/
namespace Linux011

open ByteMemory

/-- Consecutive bytes of `mem_map` set from index `i` on. -/
def fillMap (v : BitVec 8) : Nat → Nat → (Nat → BitVec 8) → Nat → BitVec 8
  | 0, _, map => map
  | count + 1, i, map => fillMap v count (i + 1) (Function.update map i v)

/-- `mem_init`: all pages are in use, but for those of main memory. -/
def memInit (mm : Mm) (startMem endMem : BitVec 32) : Mm :=
  { mm with
    highMemory := endMem
    memMap := fillMap 0#8 ((endMem - startMem).sshiftRight 12).toNat (mapNr startMem)
      (fillMap used pagingPages 0 mm.memMap) }

/-- `memory_end` of `main`, from the BIOS word `EXT_MEM_K`. -/
def memoryEnd (extMemK : BitVec 16) : BitVec 32 :=
  let memoryEnd := ((1#32 <<< 20) + (extMemK.setWidth 32 <<< 10)) &&& 0xfffff000#32
  if BitVec.slt 0x1000000#32 memoryEnd then 0x1000000#32 else memoryEnd

/-- `buffer_memory_end`, by the size of memory. -/
def bufferMemoryEnd (extMemK : BitVec 16) : BitVec 32 :=
  if BitVec.slt 0xc00000#32 (memoryEnd extMemK) then 0x400000#32
  else if BitVec.slt 0x600000#32 (memoryEnd extMemK) then 0x200000#32
  else 0x100000#32

/-- `main_memory_start`. -/
def mainMemoryStart (extMemK : BitVec 16) : BitVec 32 := bufferMemoryEnd extMemK

/-- The last loop of `setup_paging`: `std`, then `stosl` and `subl $0x1000`
until the entry goes negative. -/
def identityMap (m : Memory) (edi : Nat) (eax : Int) : Memory :=
  let m := store32 m edi (BitVec.ofInt 32 eax)
  if 0 ≤ eax - 0x1000 then identityMap m (edi - 4) (eax - 0x1000) else m
  termination_by eax.toNat

def pg0 : BitVec 32 := 0x1000#32
def pg1 : BitVec 32 := 0x2000#32
def pg2 : BitVec 32 := 0x3000#32
def pg3 : BitVec 32 := 0x4000#32

/-- `setup_paging`: five pages are cleared, the directory gets its four tables, and these are filled
from the top down. -/
def setupPaging (m : Memory) : Memory :=
  let m := fillUp m 0#32 0 (1024 * 5)
  let m := store32 m 0 (pg0 + 7#32)
  let m := store32 m 4 (pg1 + 7#32)
  let m := store32 m 8 (pg2 + 7#32)
  let m := store32 m 12 (pg3 + 7#32)
  identityMap m (pg3.toNat + 4092) 0xfff007

/-- The memory manager when `main` has called `mem_init`; `m` is whatever the
machine held before paging was set up. -/
def bootMm (extMemK : BitVec 16) (m : Memory) : Mm :=
  memInit { mem := setupPaging m, memMap := fun _ => 0#8, highMemory := 0x100000#32, wrapped := false }
    (mainMemoryStart extMemK) (memoryEnd extMemK)

/-- Memory ends at 16MB or where the machine has no more, on a page. -/
theorem memoryEnd_toNat (extMemK : BitVec 16) :
    (memoryEnd extMemK).toNat = min 0x1000000 (0x100000 + extMemK.toNat / 4 * 4096) := by
  have hExt := extMemK.isLt
  have hSum : ((1#32 <<< 20) + (extMemK.setWidth 32 <<< 10)).toNat = 0x100000 + extMemK.toNat * 1024 := by
    simp only [BitVec.toNat_add, BitVec.toNat_shiftLeft, BitVec.toNat_setWidth, BitVec.toNat_ofNat,
      Nat.shiftLeft_eq]
    omega
  have hRound : (((1#32 <<< 20) + (extMemK.setWidth 32 <<< 10)) &&& 0xfffff000#32).toNat =
      0x100000 + extMemK.toNat / 4 * 4096 := by
    rw [BitVec.and_comm]
    change (frame _).toNat = _
    rw [frame_toNat, hSum]
    omega
  rw [memoryEnd]
  simp only [BitVec.slt_eq_decide, BitVec.toInt_eq_toNat_cond, hRound, decide_eq_true_eq]
  split_ifs <;> simp_all <;> omega

/-- `main` leaves a page-aligned range inside the 16MB that `mem_map` covers. -/
structure MemoryRange (start stop : Nat) : Prop where
  low : 0x100000 ≤ start
  ordered : start ≤ stop
  high : stop ≤ 0x1000000
  startAligned : start % 4096 = 0
  stopAligned : stop % 4096 = 0

theorem mainMemoryStart_toNat (extMemK : BitVec 16) :
    (mainMemoryStart extMemK).toNat =
      if 0xc00000 < (memoryEnd extMemK).toNat then 0x400000
      else if 0x600000 < (memoryEnd extMemK).toNat then 0x200000 else 0x100000 := by
  have hEnd := memoryEnd_toNat extMemK
  have hSlt (c : BitVec 32) (hc : c.toNat < 0x80000000) :
      BitVec.slt c (memoryEnd extMemK) = decide (c.toNat < (memoryEnd extMemK).toNat) := by
    rw [BitVec.slt_eq_decide, BitVec.toInt_eq_toNat_of_lt (by omega),
      BitVec.toInt_eq_toNat_of_lt (by omega)]
    simp
  rw [mainMemoryStart, bufferMemoryEnd, hSlt _ (by decide), hSlt _ (by decide)]
  simp only [decide_eq_true_eq]
  split_ifs <;> first | rfl | contradiction

/-- Main memory is made of whole pages between 1MB and 16MB. -/
theorem memoryRange (extMemK : BitVec 16) :
    MemoryRange (mainMemoryStart extMemK).toNat (memoryEnd extMemK).toNat := by
  have hStart := mainMemoryStart_toNat extMemK
  have hEnd := memoryEnd_toNat extMemK
  constructor <;> split_ifs at hStart <;> omega

/-- What a filling of `mem_map` leaves at each index. -/
theorem fillMap_apply (v : BitVec 8) (count i : Nat) (map : Nat → BitVec 8) (j : Nat) :
    fillMap v count i map j = if i ≤ j ∧ j < i + count then v else map j := by
  induction count generalizing i map with
  | zero => rw [fillMap, if_neg (by omega)]
  | succ count ih =>
      rw [fillMap, ih]
      by_cases hj : j = i
      · subst j
        rw [if_neg (by omega), Function.update_self, if_pos (by omega)]
      · rw [Function.update_of_ne hj]
        split_ifs <;> first | rfl | omega

/-- The count that boot gives to page `i`: free inside main memory, `USED`
everywhere else. -/
def baseCount (extMemK : BitVec 16) (i : Nat) : Nat :=
  if (mainMemoryStart extMemK).toNat ≤ 0x100000 + 4096 * i ∧
      0x100000 + 4096 * i < (memoryEnd extMemK).toNat then 0 else used.toNat

/-- `mem_map` at boot. -/
theorem bootMm_memMap (extMemK : BitVec 16) (m : Memory) {i : Nat} (hi : i < pagingPages) :
    ((bootMm extMemK m).memMap i).toNat = baseCount extMemK i := by
  have hRange := memoryRange extMemK
  have hStart : mapNr (mainMemoryStart extMemK) =
      ((mainMemoryStart extMemK).toNat - 0x100000) / 4096 :=
    mapNr_toNat (by rw [BitVec.le_def, lowMem_toNat]; exact hRange.low)
  have hCount : ((memoryEnd extMemK - mainMemoryStart extMemK).sshiftRight 12).toNat =
      ((memoryEnd extMemK).toNat - (mainMemoryStart extMemK).toNat) / 4096 := by
    have hSub : (memoryEnd extMemK - mainMemoryStart extMemK).toNat =
        (memoryEnd extMemK).toNat - (mainMemoryStart extMemK).toNat :=
      BitVec.toNat_sub_of_le hRange.ordered
    have hHigh := hRange.high
    rw [BitVec.sshiftRight_eq_of_msb_false, BitVec.toNat_ushiftRight, Nat.shiftRight_eq_div_pow, hSub]
    rw [BitVec.msb_eq_decide, hSub]
    simp
    omega
  have hLow := hRange.low
  have hStartAligned := hRange.startAligned
  have hStopAligned := hRange.stopAligned
  have hOrdered := hRange.ordered
  simp only [bootMm, memInit, fillMap_apply, hStart, hCount, baseCount]
  rw [if_pos (by omega : 0 ≤ i ∧ i < 0 + pagingPages)]
  split_ifs <;> first | rfl | omega

/-- The last word that the loop writes. -/
theorem identityMap_zero (m : Memory) (edi : Nat) :
    identityMap m edi 7 = store32 m edi 7#32 := by
  rw [identityMap]
  rfl

theorem identityMap_succ (m : Memory) (edi n : Nat) :
    identityMap m edi (0x1000 * (n + 1 : Nat) + 7) =
      identityMap (store32 m edi (BitVec.ofNat 32 (0x1000 * (n + 1) + 7))) (edi - 4) (0x1000 * n + 7) := by
  have hEax : (0x1000 * ((n + 1 : Nat) : Int) + 7) - 0x1000 = 0x1000 * n + 7 := by omega
  have hWord : BitVec.ofInt 32 (0x1000 * ((n + 1 : Nat) : Int) + 7) =
      BitVec.ofNat 32 (0x1000 * (n + 1) + 7) := by
    rw [show (0x1000 * ((n + 1 : Nat) : Int) + 7) = ((0x1000 * (n + 1) + 7 : Nat) : Int) by omega,
      BitVec.ofInt_natCast]
  rw [identityMap, hEax, hWord]
  simp only [if_pos (by omega : (0 : Int) ≤ 0x1000 * n + 7)]

theorem load32_identityMap_outside (m : Memory) (base n : Nat) {b : Nat}
    (h : b + 4 ≤ base ∨ base + 4 * n + 4 ≤ b) :
    load32 (identityMap m (base + 4 * n) (0x1000 * n + 7)) b = load32 m b := by
  induction n generalizing m with
  | zero =>
      rw [show (0x1000 * ((0 : Nat) : Int) + 7) = 7 by rfl, identityMap_zero]
      exact load32_store32_of_disjoint _ _ (by omega)
  | succ n ih =>
      rw [identityMap_succ, show base + 4 * (n + 1) - 4 = base + 4 * n by omega, ih _ (by omega)]
      exact load32_store32_of_disjoint _ _ (by omega)

/-- Each entry of the boot tables names the page of its own number. -/
theorem load32_identityMap (m : Memory) (base n : Nat) {j : Nat} (hj : j ≤ n) :
    load32 (identityMap m (base + 4 * n) (0x1000 * n + 7)) (base + 4 * j) =
      BitVec.ofNat 32 (0x1000 * j + 7) := by
  induction n generalizing m with
  | zero =>
      obtain rfl : j = 0 := by omega
      rw [show (0x1000 * ((0 : Nat) : Int) + 7) = 7 by rfl, identityMap_zero, load32_store32_same]
  | succ n ih =>
      rw [identityMap_succ, show base + 4 * (n + 1) - 4 = base + 4 * n by omega]
      by_cases hLast : j = n + 1
      · subst j
        rw [load32_identityMap_outside _ _ _ (by omega), load32_store32_same]
      · exact ih _ (by omega)

theorem setupPaging_eq (m : Memory) :
    setupPaging m = identityMap (store32 (store32 (store32 (store32 (fillUp m 0#32 0 (1024 * 5))
      0 (pg0 + 7#32)) 4 (pg1 + 7#32)) 8 (pg2 + 7#32)) 12 (pg3 + 7#32))
      (0x1000 + 4 * 4095) (0x1000 * (4095 : Nat) + 7) := rfl

/-- Entry `j` of the four boot tables, counted through them, maps page `j`. -/
theorem setupPaging_table (m : Memory) {j : Nat} (hj : j < 4096) :
    load32 (setupPaging m) (0x1000 + 4 * j) = BitVec.ofNat 32 (0x1000 * j + 7) := by
  rw [setupPaging_eq]
  exact load32_identityMap _ _ _ (by omega)

/-- The four directory entries. -/
theorem setupPaging_dir (m : Memory) {d : Nat} (hd : d < 4) :
    load32 (setupPaging m) (4 * d) = BitVec.ofNat 32 (0x1000 * (d + 1) + 7) := by
  rw [setupPaging_eq, load32_identityMap_outside _ _ _ (by omega)]
  have hCases : d = 0 ∨ d = 1 ∨ d = 2 ∨ d = 3 := by omega
  rcases hCases with rfl | rfl | rfl | rfl
  · rw [load32_store32_of_disjoint _ _ (by omega), load32_store32_of_disjoint _ _ (by omega),
      load32_store32_of_disjoint _ _ (by omega), load32_store32_same]
    rfl
  · rw [load32_store32_of_disjoint _ _ (by omega), load32_store32_of_disjoint _ _ (by omega),
      load32_store32_same]
    rfl
  · rw [load32_store32_of_disjoint _ _ (by omega), load32_store32_same]
    rfl
  · rw [load32_store32_same]
    rfl

/-- The other directory entries are 0. -/
theorem setupPaging_absent (m : Memory) {d : Nat} (hLow : 4 ≤ d) (hHigh : d < 1024) :
    load32 (setupPaging m) (4 * d) = 0#32 := by
  rw [setupPaging_eq, load32_identityMap_outside _ _ _ (by omega),
    load32_store32_of_disjoint _ _ (by omega), load32_store32_of_disjoint _ _ (by omega),
    load32_store32_of_disjoint _ _ (by omega), load32_store32_of_disjoint _ _ (by omega)]
  simpa using load32_fillUp m 0#32 0 (1024 * 5) (k := d) (by omega)

end Linux011

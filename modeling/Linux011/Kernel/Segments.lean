import Linux011.Kernel.Task
import Linux011.Library.SubRegisters
import Mathlib.Data.Fin.VecNotation
import Mathlib.Data.List.Basic
import Mathlib.Tactic.FinCases

/-! The sequences of `linux/sched.h` and `asm/system.h` that pack and unpack the eight bytes
of a descriptor, as the build has their operands. `_set_limit` does not compile: its input
register is among the clobbered ones. -/
namespace Linux011

open SubRegisters

/-- The bytes of a descriptor. -/
abbrev DescBytes := Fin 8 → BitVec 8

namespace DescBytes

/-- `_set_base`. -/
def setBase (addr : DescBytes) (base : BitVec 32) : DescBytes :=
  let edx := base
  let addr := storew addr 2 (word edx)
  let edx := edx.rotateRight 16
  let addr := storeb addr 4 (low edx)
  storeb addr 7 (high edx)

/-- Memory with the descriptor at `addr`. -/
def put (ram : BitVec 32 → BitVec 8) (addr : BitVec 32) (d : DescBytes) (a : BitVec 32) : BitVec 8 :=
  if h : (a - addr).toNat < 8 then d ⟨(a - addr).toNat, h⟩ else ram a

/-- `_get_base`. `%2` is found through `edx`, whose second byte the first instruction overwrites. -/
def getBase (ram : BitVec 32 → BitVec 8) (addr : BitVec 32) : BitVec 32 :=
  let edx := addr + 4#32
  let edx := setHigh edx (ram (addr + 7#32))
  let edx := setLow edx (ram edx)
  let edx := edx <<< 16
  setWord edx (ram (addr + 3#32) ++ ram (addr + 2#32))

/-- `_set_tssldt_desc`. -/
def setTssldtDesc (n : DescBytes) (addr : BitVec 32) (type : BitVec 8) : DescBytes :=
  let eax := addr
  let n := storew n 0 104#16
  let n := storew n 2 (word eax)
  let eax := eax.rotateRight 16
  let n := storeb n 4 (low eax)
  let n := storeb n 5 type
  let n := storeb n 6 0x00#8
  storeb n 7 (high eax)

def setTssDesc (n : DescBytes) (addr : BitVec 32) : DescBytes := n.setTssldtDesc addr 0x89#8
def setLdtDesc (n : DescBytes) (addr : BitVec 32) : DescBytes := n.setTssldtDesc addr 0x82#8

end DescBytes

/-- What a descriptor says: `flags` are its granularity bit and the three bits next to it. -/
@[ext]
structure Segment where
  limit : BitVec 20
  base : BitVec 32
  type : BitVec 8
  flags : BitVec 4

namespace DescBytes

def segment (d : DescBytes) : Segment where
  limit := (d 6).extractLsb' 0 4 ++ (d 1 ++ d 0)
  base := d 7 ++ d 4 ++ (d 3 ++ d 2)
  type := d 5
  flags := (d 6).extractLsb' 4 4

def pack (s : Segment) : DescBytes :=
  ![s.limit.extractLsb' 0 8, s.limit.extractLsb' 8 8, s.base.extractLsb' 0 8, s.base.extractLsb' 8 8,
    s.base.extractLsb' 16 8, s.type, s.flags ++ s.limit.extractLsb' 16 4, s.base.extractLsb' 24 8]

variable (ram : BitVec 32 → BitVec 8) (d : DescBytes) (addr base a : BitVec 32) (type : BitVec 8)

theorem pack_segment : pack d.segment = d := by
  funext i
  apply BitVec.eq_of_getLsbD_eq
  intro j hj
  fin_cases i <;> simp [pack, segment] <;> grind

/-- No bit of a descriptor is in no field. -/
theorem segment_injective : Function.Injective segment := fun d d' h => by
  rw [← pack_segment d, h, pack_segment]

theorem put_offset (i : Nat) (hi : i < 8) : put ram addr d (addr + BitVec.ofNat 32 i) = d ⟨i, hi⟩ := by
  have hOffset : (addr + BitVec.ofNat 32 i - addr).toNat = i := by
    rw [BitVec.add_comm, BitVec.add_sub_cancel, BitVec.toNat_ofNat]
    omega
  simp only [put, hOffset, hi, dif_pos]

/-- The stray address is the right one or lies outside the descriptor: only its second byte
is wrong. -/
theorem put_stray (byte7 : BitVec 8) : put ram addr d (strayAddr addr byte7) =
    if strayAddr addr byte7 = addr + 4#32 then d 4 else ram (strayAddr addr byte7) := by
  split_ifs with hSame
  · rw [hSame]
    exact put_offset ram d addr 4 (by decide)
  · refine dif_neg fun hInside => hSame ?_
    have hLow : (strayAddr addr byte7).toNat % 256 = (addr + 4#32).toNat % 256 := by
      have hByte : (strayAddr addr byte7).extractLsb' 0 8 = (addr + 4#32).extractLsb' 0 8 :=
        (extract_append_low _ _ 0 8 (by decide)).trans (extract_self _)
      simpa [BitVec.extractLsb'_toNat] using congrArg BitVec.toNat hByte
    generalize strayAddr addr byte7 = stray at hInside hLow ⊢
    have hStray := stray.isLt
    have hAddr := addr.isLt
    apply BitVec.eq_of_toNat_eq
    rw [BitVec.toNat_sub] at hInside
    rw [BitVec.toNat_add, BitVec.toNat_ofNat] at hLow ⊢
    omega

theorem getBase_eq : getBase ram addr =
    ram (addr + 7#32) ++ ram (strayAddr addr (ram (addr + 7#32))) ++ (ram (addr + 3#32) ++ ram (addr + 2#32)) := by
  have hStray : setHigh (addr + 4#32) (ram (addr + 7#32)) = strayAddr addr (ram (addr + 7#32)) := by
    rw [setHigh, strayAddr, low]
    exact (BitVec.append_assoc ..).symm
  rw [getBase, setWord_shift, low_setLow, high_setLow, high_setHigh, hStray]

theorem segment_setBase : (d.setBase base).segment = { d.segment with base := base } := by
  have hUpper : (base.rotateRight 16 |> high) ++ low (base.rotateRight 16) = base.extractLsb' 16 16 := by
    rw [low_rotate, high_rotate]
    exact BitVec.extractLsb'_append_extractLsb'_eq_extractLsb' rfl
  have hWord : (word base).extractLsb' 8 8 ++ (word base).extractLsb' 0 8 = base.extractLsb' 0 16 :=
    (BitVec.extractLsb'_append_extractLsb'_eq_extractLsb' rfl).trans (extract_self (word base))
  have hBase : (base.rotateRight 16 |> high) ++ low (base.rotateRight 16) ++
      ((word base).extractLsb' 8 8 ++ (word base).extractLsb' 0 8) = base := by
    rw [hUpper, hWord, upper_append_lower]
  ext1
  · rfl
  · exact hBase
  · rfl
  · rfl

theorem segment_setTssldtDesc : (d.setTssldtDesc addr type).segment = ⟨104#20, addr, type, 0#4⟩ := by
  have hBase := congrArg Segment.base (segment_setBase d addr)
  ext1
  · change (0x00#8).extractLsb' 0 4 ++ ((104#16).extractLsb' 8 8 ++ (104#16).extractLsb' 0 8) = 104#20
    decide
  · exact hBase
  · rfl
  · change (0x00#8).extractLsb' 4 4 = 0#4
    decide

/-- The byte that `get_base` reads through the overwritten address is the one of a
descriptor at `addr` with this base. -/
def StrayHolds : Prop :=
  strayAddr addr (base.extractLsb' 24 8) = addr + 4#32 ∨
    ram (strayAddr addr (base.extractLsb' 24 8)) = base.extractLsb' 16 8

/-- A base is read back from memory exactly when that byte is there. -/
theorem getBase_put_iff (hBase : d.segment.base = base) :
    getBase (put ram addr d) addr = base ↔ StrayHolds ram addr base := by
  have hSeven : d 7 = base.extractLsb' 24 8 := by
    rw [← hBase]
    exact ((extract_append_high (d 7 ++ d 4) (d 3 ++ d 2) 8 8).trans
      ((extract_append_high (d 7) (d 4) 0 8).trans (extract_self _))).symm
  have hFour : d 4 = base.extractLsb' 16 8 := by
    rw [← hBase]
    exact ((extract_append_high (d 7 ++ d 4) (d 3 ++ d 2) 0 8).trans
      ((extract_append_low (d 7) (d 4) 0 8 (by decide)).trans (extract_self _))).symm
  have hAt (i : Nat) (hi : i < 8) := put_offset ram d addr i hi
  have hRead : getBase (put ram addr d) addr =
      d 7 ++ put ram addr d (strayAddr addr (d 7)) ++ (d 3 ++ d 2) := by
    rw [getBase_eq, show put ram addr d (addr + 7#32) = d 7 from hAt 7 (by decide),
      show put ram addr d (addr + 3#32) = d 3 from hAt 3 (by decide),
      show put ram addr d (addr + 2#32) = d 2 from hAt 2 (by decide)]
  have hWhole : d 7 ++ d 4 ++ (d 3 ++ d 2) = base := hBase
  have hIff : getBase (put ram addr d) addr = base ↔ put ram addr d (strayAddr addr (d 7)) = d 4 := by
    rw [hRead]
    constructor
    · intro hSame
      have hByte := congrArg (·.extractLsb' (16 + 0) 8) (hSame.trans hWhole.symm)
      rw [extract_append_high, extract_append_high, extract_append_low _ _ 0 8 (by decide),
        extract_append_low _ _ 0 8 (by decide), extract_self, extract_self] at hByte
      exact hByte
    · intro hByte
      rw [hByte, hWhole]
  rw [hIff, put_stray, StrayHolds, ← hSeven, ← hFour]
  split_ifs with hSame
  · exact iff_of_true rfl (Or.inl hSame)
  · exact (or_iff_right hSame).symm

/-- A base and the address of a TSS or LDT are stored apart from the limit and the rest, and
read back as they were stored. -/
structure Consistent : Prop where
  getBase_setBase : getBase (put ram addr (d.setBase base)) addr = base
  setBase : (d.setBase base).segment = { d.segment with base := base }
  getBase_setTssDesc : getBase (put ram addr (d.setTssDesc a)) addr = a
  setTssDesc : (d.setTssDesc a).segment = ⟨104#20, a, 0x89#8, 0#4⟩
  getBase_setLdtDesc : getBase (put ram addr (d.setLdtDesc a)) addr = a
  setLdtDesc : (d.setLdtDesc a).segment = ⟨104#20, a, 0x82#8, 0#4⟩

/-- For every memory, every descriptor in it and any base and address: the fields are
consistent exactly when `get_base` comes to read the right byte of both. -/
theorem descriptors_consistent_iff :
    Consistent ram d addr base a ↔ StrayHolds ram addr base ∧ StrayHolds ram addr a := by
  have hBase := segment_setBase d base
  have hTss := segment_setTssldtDesc d a 0x89#8
  have hLdt := segment_setTssldtDesc d a 0x82#8
  have hGet := getBase_put_iff ram (d.setBase base) addr base (congrArg Segment.base hBase)
  have hGetTss := getBase_put_iff ram (d.setTssDesc a) addr a (congrArg Segment.base hTss)
  have hGetLdt := getBase_put_iff ram (d.setLdtDesc a) addr a (congrArg Segment.base hLdt)
  constructor
  · exact fun h => ⟨hGet.mp h.getBase_setBase, hGetTss.mp h.getBase_setTssDesc⟩
  · exact fun ⟨hFirst, hSecond⟩ =>
      ⟨hGet.mpr hFirst, hBase, hGetTss.mpr hSecond, hTss, hGetLdt.mpr hSecond, hLdt⟩

/-- With 0 at the stray address 0x1fc04 the base 0xfc123456 is read back as 0xfc003456. -/
theorem descriptors_misread :
    getBase (put (fun _ => 0#8) 0x10000#32 ((pack ⟨0#20, 0#32, 0xf2#8, 0xc#4⟩).setBase 0xfc123456#32)) 0x10000#32 =
        0xfc003456#32 ∧
      ¬∀ (ram : BitVec 32 → BitVec 8) (d : DescBytes) (addr base a : BitVec 32), Consistent ram d addr base a := by
  refine ⟨by decide, fun hAll => ?_⟩
  obtain ⟨hStray, _⟩ := (descriptors_consistent_iff _ _ _ _ _).mp
    (hAll (fun _ => 0#8) (pack ⟨0#20, 0#32, 0xf2#8, 0xc#4⟩) 0x10000#32 0xfc123456#32 0#32)
  exact absurd hStray (show ¬((_ : BitVec 32) = _ ∨ (_ : BitVec 8) = _) by decide)

end DescBytes

/-- The bytes of `struct desc_struct`. -/
def Desc.bytes (desc : Desc) : DescBytes :=
  ![desc.a.extractLsb' 0 8, desc.a.extractLsb' 8 8, desc.a.extractLsb' 16 8, desc.a.extractLsb' 24 8,
    desc.b.extractLsb' 0 8, desc.b.extractLsb' 8 8, desc.b.extractLsb' 16 8, desc.b.extractLsb' 24 8]

namespace Desc

variable (desc : Desc) (base addr : BitVec 32)

theorem segment_bytes : desc.bytes.segment =
    ⟨desc.b.extractLsb' 16 4 ++ desc.a.extractLsb' 0 16, desc.base, desc.b.extractLsb' 8 8,
      desc.b.extractLsb' 20 4⟩ := by
  have hLimit : desc.a.extractLsb' 8 8 ++ desc.a.extractLsb' 0 8 = desc.a.extractLsb' 0 16 :=
    BitVec.extractLsb'_append_extractLsb'_eq_extractLsb' rfl
  have hBase : desc.a.extractLsb' 24 8 ++ desc.a.extractLsb' 16 8 = desc.a.extractLsb' 16 16 :=
    BitVec.extractLsb'_append_extractLsb'_eq_extractLsb' rfl
  ext1
  · exact congrArg₂ (· ++ ·) (extract_extract desc.b 16 0 (by decide)) hLimit
  · exact congrArg (desc.b.extractLsb' 24 8 ++ desc.b.extractLsb' 0 8 ++ ·) hBase
  · rfl
  · exact extract_extract desc.b 16 4 (by decide)

/-- What `fork` reads in halves of four bytes, from memory that holds the descriptor, is what
the sequence reads. -/
theorem getBase_bytes (ram : BitVec 32 → BitVec 8)
    (hThere : ∀ i : Fin 8, ram (addr + BitVec.ofNat 32 i.val) = desc.bytes i) :
    DescBytes.getBase ram addr = getBase ram addr desc := by
  have hSeven : ram (addr + 7#32) = desc.b.extractLsb' 24 8 := hThere 7
  have hThree : ram (addr + 3#32) = desc.a.extractLsb' 24 8 := hThere 3
  have hTwo : ram (addr + 2#32) = desc.a.extractLsb' 16 8 := hThere 2
  have hWord : desc.a.extractLsb' 24 8 ++ desc.a.extractLsb' 16 8 = desc.a.extractLsb' 16 16 :=
    BitVec.extractLsb'_append_extractLsb'_eq_extractLsb' rfl
  rw [DescBytes.getBase_eq, hSeven, hThree, hTwo, hWord, getBase]

theorem bytes_setBase : (setBase desc base).bytes = desc.bytes.setBase base := by
  have hA : (setBase desc base).a.extractLsb' 0 16 = desc.a.extractLsb' 0 16 :=
    (extract_append_low _ _ 0 16 (by decide)).trans (extract_self _)
  have hB (start len : Nat) (h : start + len ≤ 16) :
      (setBase desc base).b.extractLsb' (8 + start) len = desc.b.extractLsb' (8 + start) len := by
    change (_ ++ _ ++ _ : BitVec 32).extractLsb' (8 + start) len = _
    rw [extract_append_high, extract_append_low _ _ start len h, extract_extract _ _ _ h]
  refine DescBytes.segment_injective ?_
  rw [DescBytes.segment_setBase, segment_bytes, segment_bytes, base_setBase, hA]
  ext1
  · exact congrArg (· ++ desc.a.extractLsb' 0 16) (hB 8 4 (by decide))
  · rfl
  · exact hB 0 8 (by decide)
  · exact hB 12 4 (by decide)

theorem base_tssldtDesc (type : BitVec 8) : (tssldtDesc addr type).base = addr := by
  have hLow : (tssldtDesc addr type).a.extractLsb' 16 16 = addr.extractLsb' 0 16 :=
    (extract_append_high _ _ 0 16).trans (extract_self _)
  have hMiddle : (tssldtDesc addr type).b.extractLsb' 0 8 = addr.extractLsb' 16 8 :=
    (extract_append_low _ _ 0 8 (by decide)).trans (extract_self _)
  have hTop : (tssldtDesc addr type).b.extractLsb' 24 8 = addr.extractLsb' 24 8 := by
    refine (extract_append_high _ (addr.extractLsb' 16 8) 16 8).trans ?_
    refine (extract_append_high (addr.extractLsb' 24 8 ++ 0#8) type 8 8).trans ?_
    exact (extract_append_high (addr.extractLsb' 24 8) 0#8 0 8).trans (extract_self _)
  have hUpper : addr.extractLsb' 24 8 ++ addr.extractLsb' 16 8 = addr.extractLsb' 16 16 :=
    BitVec.extractLsb'_append_extractLsb'_eq_extractLsb' rfl
  rw [Desc.base, hLow, hMiddle, hTop, hUpper, upper_append_lower]

theorem bytes_tssldtDesc (d : DescBytes) (type : BitVec 8) :
    (tssldtDesc addr type).bytes = d.setTssldtDesc addr type := by
  have hLimit : (tssldtDesc addr type).a.extractLsb' 0 16 = 104#16 :=
    (extract_append_low _ _ 0 16 (by decide)).trans (extract_self _)
  have hBehind (start len : Nat) : (tssldtDesc addr type).b.extractLsb' (8 + start) len =
      (addr.extractLsb' 24 8 ++ 0#8 ++ type).extractLsb' start len := extract_append_high _ _ start len
  have hFlags (start : Nat) (h : start + 4 ≤ 8) : (tssldtDesc addr type).b.extractLsb' (8 + (8 + start)) 4 = 0#4 := by
    rw [hBehind, extract_append_high, extract_append_low _ _ start 4 h, BitVec.extractLsb'_zero]
  refine DescBytes.segment_injective ?_
  rw [DescBytes.segment_setTssldtDesc, segment_bytes, hLimit, base_tssldtDesc]
  ext1
  · exact congrArg (· ++ 104#16) (hFlags 0 (by decide))
  · rfl
  · exact (hBehind 0 8).trans ((extract_append_low _ _ 0 8 (by decide)).trans (extract_self type))
  · exact hFlags 4 (by decide)

/-- `lsll` reads the same limit, and the granularity bit among the flags. -/
theorem lsl_bytes : lsl desc = if desc.bytes.segment.flags.getLsbD 3
    then (desc.bytes.segment.limit.setWidth 32 <<< 12) ||| 0xfff#32 else desc.bytes.segment.limit.setWidth 32 := by
  rw [lsl, segment_bytes]
  simp

end Desc

end Linux011

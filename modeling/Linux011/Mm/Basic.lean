import Linux011.Library.ByteMemory
import Mathlib.Tactic.Common

/-! The constants of `linux/mm.h`, the bits of a page-table entry, and the part
of the kernel state that the memory manager reads and writes. -/
namespace Linux011

open ByteMemory

/-- Why a kernel function does not return: `panic` prints its message and
loops, and some loops of the source can go on for ever by themselves. -/
inductive Stop where
  | panic (s : String)
  | hang
  deriving DecidableEq, Repr

/-- A call that returned, in front of the rest of the function. -/
theorem ok_bind {ε α β : Type} {x : Except ε α} {a : α} (h : x = .ok a) (f : α → Except ε β) :
    x.bind f = f a := by
  rw [h]
  rfl

/-- A sequence that returned: its first call returned, and so did the rest. -/
theorem bind_eq_ok {ε α β : Type} {x : Except ε α} {f : α → Except ε β} {b : β} (h : x.bind f = .ok b) :
    ∃ a, x = .ok a ∧ f a = .ok b := by
  cases x with
  | error stop => cases h
  | ok a => exact ⟨a, rfl, h⟩

/-- A call that stopped stops what is behind it. -/
theorem error_bind {α β : Type} {x : Except Stop α} {stop : Stop} (h : x = .error stop)
    (f : α → Except Stop β) : x.bind f = .error stop := by
  rw [h]
  rfl

/-- `LOW_MEM`: below it pages are not counted. -/
def lowMem : BitVec 32 := 0x100000#32

/-- `PAGING_MEMORY` and `PAGING_PAGES`: what `mem_map` counts. -/
def pagingMemory : Nat := 15 * 1024 * 1024
def pagingPages : Nat := pagingMemory >>> 12

/-- `USED`: the count of a page that is not for `get_free_page`. -/
def used : BitVec 8 := 100#8

/-- `MAP_NR`: the index of a page in `mem_map`. -/
def mapNr (addr : BitVec 32) : Nat := ((addr - lowMem) >>> 12).toNat

@[simp] theorem lowMem_toNat : lowMem.toNat = 0x100000 := rfl

theorem pagingPages_eq : pagingPages = 3840 := rfl

/-- Physical memory and the globals of `mm/memory.c`. `mem_map` and the other C
objects of the kernel image lie below `lowMem` and are reached through no
pointer of the memory manager, so they are kept apart from `mem`. `wrapped` is
ghost state: it records that an update of an `unsigned char` of `mem_map` went
past 255 or below 0. -/
structure Mm where
  mem : Memory
  memMap : Nat → BitVec 8
  highMemory : BitVec 32
  wrapped : Bool

/-- `mem_map[i]++`. -/
def Mm.incr (mm : Mm) (i : Nat) : Mm :=
  { mm with
    memMap := Function.update mm.memMap i (mm.memMap i + 1#8)
    wrapped := mm.wrapped || mm.memMap i == 255#8 }

/-- `mem_map[i]--`. -/
def Mm.decr (mm : Mm) (i : Nat) : Mm :=
  { mm with
    memMap := Function.update mm.memMap i (mm.memMap i - 1#8)
    wrapped := mm.wrapped || mm.memMap i == 0#8 }

/-- A word of memory read through a pointer. -/
def Mm.load (mm : Mm) (a : Nat) : BitVec 32 := load32 mm.mem a

/-- A word of memory written through a pointer. -/
def Mm.store (mm : Mm) (a : Nat) (v : BitVec 32) : Mm := { mm with mem := store32 mm.mem a v }

section Fields

variable (mm : Mm) (i a : Nat) (v : BitVec 32)

@[simp] theorem Mm.incr_mem : (mm.incr i).mem = mm.mem := rfl
@[simp] theorem Mm.decr_mem : (mm.decr i).mem = mm.mem := rfl
@[simp] theorem Mm.incr_highMemory : (mm.incr i).highMemory = mm.highMemory := rfl
@[simp] theorem Mm.decr_highMemory : (mm.decr i).highMemory = mm.highMemory := rfl
@[simp] theorem Mm.store_memMap : (mm.store a v).memMap = mm.memMap := rfl
@[simp] theorem Mm.store_highMemory : (mm.store a v).highMemory = mm.highMemory := rfl
@[simp] theorem Mm.store_wrapped : (mm.store a v).wrapped = mm.wrapped := rfl
@[simp] theorem Mm.store_mem : (mm.store a v).mem = store32 mm.mem a v := rfl

end Fields

/-- Bit 0 of an entry: it names a page. -/
def Present (e : BitVec 32) : Prop := 1#32 &&& e ≠ 0#32

/-- Bit 1: the page may be written in ring 3. -/
def Writable (e : BitVec 32) : Prop := 2#32 &&& e ≠ 0#32

/-- Bit 2: the page may be reached from ring 3. -/
def User (e : BitVec 32) : Prop := 4#32 &&& e ≠ 0#32

instance (e : BitVec 32) : Decidable (Present e) := inferInstanceAs (Decidable (_ ≠ _))
instance (e : BitVec 32) : Decidable (Writable e) := inferInstanceAs (Decidable (_ ≠ _))
instance (e : BitVec 32) : Decidable (User e) := inferInstanceAs (Decidable (_ ≠ _))

/-- The physical address of the page that an entry names. -/
def frame (e : BitVec 32) : BitVec 32 := 0xfffff000#32 &&& e

/-- The tests of the source, by a mask with one bit, and the bit itself. -/
theorem bit_ne_zero_iff (e : BitVec 32) {k : Nat} (hk : k < 32) :
    BitVec.twoPow 32 k &&& e ≠ 0#32 ↔ e.getLsbD k = true := by
  rw [BitVec.twoPow_and]
  split_ifs with h
  · simp only [h, iff_true, ne_eq]
    intro h0
    have hBit := congrArg (fun v => v.getLsbD k) h0
    simp [hk] at hBit
  · simp [h]

theorem present_iff (e : BitVec 32) : Present e ↔ e.getLsbD 0 = true :=
  bit_ne_zero_iff e (k := 0) (by omega)

theorem writable_iff (e : BitVec 32) : Writable e ↔ e.getLsbD 1 = true :=
  bit_ne_zero_iff e (k := 1) (by omega)

theorem user_iff (e : BitVec 32) : User e ↔ e.getLsbD 2 = true :=
  bit_ne_zero_iff e (k := 2) (by omega)

/-- The frame of an entry is its upper 20 bits. -/
theorem frame_getLsbD (e : BitVec 32) {i : Nat} (hi : i < 32) :
    (frame e).getLsbD i = (decide (12 ≤ i) && e.getLsbD i) := by
  have hMask : ∀ i : Fin 32, (0xfffff000#32).getLsbD i = decide (12 ≤ i.val) := by decide
  rw [frame, BitVec.getLsbD_and, hMask ⟨i, hi⟩]

/-- Flags leave the page of an entry alone. -/
theorem frame_or_flags (e flags : BitVec 32) (h : frame flags = 0#32) :
    frame (e ||| flags) = frame e := by
  unfold frame at h ⊢
  rw [BitVec.and_or_distrib_left, h, BitVec.or_zero]

theorem frame_eq_shift (e : BitVec 32) : frame e = (e >>> 12) <<< 12 := by
  apply BitVec.eq_of_getLsbD_eq
  intro i hi
  rw [frame_getLsbD _ hi]
  simp only [BitVec.getLsbD_shiftLeft, hi, decide_true, Bool.true_and, BitVec.getLsbD_ushiftRight]
  grind

/-- The frame is the entry rounded down to a page. -/
theorem frame_toNat (e : BitVec 32) : (frame e).toNat = e.toNat / 4096 * 4096 := by
  rw [frame_eq_shift]
  simp only [BitVec.toNat_shiftLeft, BitVec.toNat_ushiftRight, Nat.shiftRight_eq_div_pow,
    Nat.shiftLeft_eq]
  omega

theorem frame_mod (e : BitVec 32) : (frame e).toNat % 4096 = 0 := by
  rw [frame_toNat]
  omega

/-- The address of a page is its own frame. -/
theorem frame_of_aligned {p : BitVec 32} (h : p.toNat % 4096 = 0) : frame p = p := by
  apply BitVec.eq_of_toNat_eq
  rw [frame_toNat]
  omega

@[simp] theorem frame_frame (e : BitVec 32) : frame (frame e) = frame e :=
  frame_of_aligned (frame_mod e)

@[simp] theorem not_present_zero : ¬Present 0#32 := by decide

/-- `this_page &= ~2`. -/
@[simp] theorem frame_clearWrite (e : BitVec 32) : frame (e &&& ~~~2#32) = frame e := by
  apply BitVec.eq_of_getLsbD_eq
  intro i hi
  have hMask : ∀ i : Fin 32, (~~~2#32).getLsbD i = decide (i.val ≠ 1) := by decide
  rw [frame_getLsbD _ hi, frame_getLsbD _ hi, BitVec.getLsbD_and, hMask ⟨i, hi⟩]
  grind

@[simp] theorem present_clearWrite (e : BitVec 32) : Present (e &&& ~~~2#32) ↔ Present e := by
  rw [present_iff, present_iff, BitVec.getLsbD_and, show (~~~2#32).getLsbD 0 = true by decide,
    Bool.and_true]

@[simp] theorem user_clearWrite (e : BitVec 32) : User (e &&& ~~~2#32) ↔ User e := by
  rw [user_iff, user_iff, BitVec.getLsbD_and, show (~~~2#32).getLsbD 2 = true by decide,
    Bool.and_true]

@[simp] theorem not_writable_clearWrite (e : BitVec 32) : ¬Writable (e &&& ~~~2#32) := by
  rw [writable_iff, BitVec.getLsbD_and, show (~~~2#32).getLsbD 1 = false by decide]
  simp

/-- `*table_entry |= 2`. -/
@[simp] theorem frame_setWrite (e : BitVec 32) : frame (e ||| 2#32) = frame e :=
  frame_or_flags e _ (by decide)

@[simp] theorem present_setWrite (e : BitVec 32) : Present (e ||| 2#32) ↔ Present e := by
  rw [present_iff, present_iff, BitVec.getLsbD_or, show (2#32).getLsbD 0 = false by decide,
    Bool.or_false]

@[simp] theorem user_setWrite (e : BitVec 32) : User (e ||| 2#32) ↔ User e := by
  rw [user_iff, user_iff, BitVec.getLsbD_or, show (2#32).getLsbD 2 = false by decide,
    Bool.or_false]

@[simp] theorem writable_setWrite (e : BitVec 32) : Writable (e ||| 2#32) := by
  rw [writable_iff, BitVec.getLsbD_or, show (2#32).getLsbD 1 = true by decide, Bool.or_true]

/-- `page | 7`: present, read/write, user access. -/
theorem frame_or_seven {p : BitVec 32} (h : p.toNat % 4096 = 0) : frame (p ||| 7#32) = p := by
  rw [frame_or_flags p _ (by decide), frame_of_aligned h]

/-- The mask `0xfffff00` loses nothing of the entry made for a table below
256MB. -/
theorem mask_or_seven {p : BitVec 32} (h : p.toNat % 4096 = 0) (hTop : p.toNat < 0x10000000) :
    0xfffff00#32 &&& (p ||| 7#32) = p := by
  apply BitVec.eq_of_getLsbD_eq
  intro i hi
  have hMask : ∀ i : Fin 32, (0xfffff00#32).getLsbD i = decide (8 ≤ i.val ∧ i.val < 28) := by decide
  have hSeven : ∀ i : Fin 32, (7#32).getLsbD i = decide (i.val < 3) := by decide
  have hLow : i < 12 → p.getLsbD i = false := by
    intro hLt
    rw [← frame_of_aligned h, frame_getLsbD p hi]
    simp only [Nat.not_le.mpr hLt, decide_false, Bool.false_and]
  have hHigh : 28 ≤ i → p.getLsbD i = false := fun hLe =>
    Nat.testBit_lt_two_pow (Nat.lt_of_lt_of_le hTop (Nat.pow_le_pow_right (by omega : 2 > 0) hLe))
  rw [BitVec.getLsbD_and, BitVec.getLsbD_or, hMask ⟨i, hi⟩, hSeven ⟨i, hi⟩]
  by_cases hA : i < 12
  · rw [hLow hA]
    simp only [Bool.false_or]
    rw [← Bool.decide_and, decide_eq_false_iff_not]
    omega
  · by_cases hB : 28 ≤ i
    · rw [hHigh hB]
      simp only [Bool.false_or]
      rw [← Bool.decide_and, decide_eq_false_iff_not]
      omega
    · rw [decide_eq_true (by omega : 8 ≤ i ∧ i < 28), decide_eq_false (by omega : ¬i < 3),
        Bool.or_false, Bool.true_and]

@[simp] theorem present_or_seven (p : BitVec 32) : Present (p ||| 7#32) := by
  rw [present_iff, BitVec.getLsbD_or, show (7#32).getLsbD 0 = true by decide, Bool.or_true]

@[simp] theorem writable_or_seven (p : BitVec 32) : Writable (p ||| 7#32) := by
  rw [writable_iff, BitVec.getLsbD_or, show (7#32).getLsbD 1 = true by decide, Bool.or_true]

@[simp] theorem user_or_seven (p : BitVec 32) : User (p ||| 7#32) := by
  rw [user_iff, BitVec.getLsbD_or, show (7#32).getLsbD 2 = true by decide, Bool.or_true]

/-- A present entry is odd as a number. -/
theorem toNat_odd_of_present {e : BitVec 32} (h : Present e) : e.toNat % 2 = 1 := by
  rw [present_iff, BitVec.getLsbD, Nat.testBit_zero] at h
  simpa using h

/-- `this_page > LOW_MEM` keeps the flag bits in the comparison; the present
bit makes it agree with `LOW_MEM <= frame`. -/
theorem lowMem_lt_iff {e : BitVec 32} (h : Present e) : lowMem < e ↔ lowMem ≤ frame e := by
  have hOdd := toNat_odd_of_present h
  rw [BitVec.lt_def, BitVec.le_def, frame_toNat, lowMem_toNat]
  omega

/-- Pages from `lowMem` on are counted one after the other. -/
theorem mapNr_toNat {a : BitVec 32} (h : lowMem ≤ a) :
    mapNr a = (a.toNat - 0x100000) / 4096 := by
  rw [BitVec.le_def, lowMem_toNat] at h
  have hlt := a.isLt
  rw [mapNr, BitVec.toNat_ushiftRight, Nat.shiftRight_eq_div_pow, BitVec.toNat_sub, lowMem_toNat]
  omega

/-- The index computed from the entry with its flags still on. -/
theorem mapNr_frame {e : BitVec 32} (h : lowMem ≤ frame e) : mapNr e = mapNr (frame e) := by
  have he : lowMem ≤ e := by
    rw [BitVec.le_def, frame_toNat, lowMem_toNat] at h
    rw [BitVec.le_def, lowMem_toNat]
    omega
  rw [mapNr_toNat h, mapNr_toNat he, frame_toNat]
  rw [BitVec.le_def, lowMem_toNat] at he
  omega

/-- Different pages have different counts. -/
theorem mapNr_injective {a b : BitVec 32} (ha : lowMem ≤ a) (hb : lowMem ≤ b)
    (hAlignedA : a.toNat % 4096 = 0) (hAlignedB : b.toNat % 4096 = 0) (h : mapNr a = mapNr b) :
    a = b := by
  rw [mapNr_toNat ha, mapNr_toNat hb] at h
  rw [BitVec.le_def, lowMem_toNat] at ha hb
  apply BitVec.eq_of_toNat_eq
  omega

end Linux011

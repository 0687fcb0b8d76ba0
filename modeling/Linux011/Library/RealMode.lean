import Linux011.Library.ByteMemory
import Mathlib.Algebra.Ring.Nat

/-! Real mode: segments and 16-bit offsets, the carry of an addition, and the string
instructions with the direction flag clear. -/
namespace RealMode

open ByteMemory

/-- The address of `seg:off`. -/
def addr (seg off : BitVec 16) : Nat := 16 * seg.toNat + off.toNat

/-- The carry flag after `addw`. -/
def carry (a b : BitVec 16) : Bool := decide (2 ^ 16 ≤ a.toNat + b.toNat)

/-- The lower half of a register of two. -/
theorem low_append (h l : BitVec 8) : (h ++ l).setWidth 8 = l := by
  rw [BitVec.setWidth_append, dif_pos (Nat.le_refl 8), BitVec.setWidth_eq]

/-- `rep movsw` with `count` in `cx`. -/
def repMovsw (ds es : BitVec 16) : Nat → BitVec 16 → BitVec 16 → Memory → Memory
  | 0, _, _, m => m
  | count + 1, si, di, m =>
      repMovsw ds es count (si + 2#16) (di + 2#16) (store16 m (addr es di) (load16 m (addr ds si)))

/-- `rep movsb` with `count` in `cx`. -/
def repMovsb (ds es : BitVec 16) : Nat → BitVec 16 → BitVec 16 → Memory → Memory
  | 0, _, _, m => m
  | count + 1, si, di, m =>
      repMovsb ds es count (si + 1#16) (di + 1#16) (Function.update m (addr es di) (m (addr ds si)))

/-- `rep stosb` with `count` in `cx`. -/
def repStosb (al : BitVec 8) (es : BitVec 16) : Nat → BitVec 16 → Memory → Memory
  | 0, _, m => m
  | count + 1, di, m => repStosb al es count (di + 1#16) (Function.update m (addr es di) al)

section

variable {ds es si di : BitVec 16} {count : Nat} {m : Memory}

theorem toNat_add {off : BitVec 16} {n : Nat} (h : off.toNat + n < 2 ^ 16) :
    (off + BitVec.ofNat 16 n).toNat = off.toNat + n := by
  rw [BitVec.toNat_add, BitVec.toNat_ofNat]
  omega

theorem addr_add {off : BitVec 16} {n : Nat} (h : off.toNat + n < 2 ^ 16) :
    addr es (off + BitVec.ofNat 16 n) = addr es off + n := by
  rw [addr, addr, toNat_add h, Nat.add_assoc]

/-- As long as no offset goes round the copy is one of consecutive bytes. -/
theorem repMovsw_eq (hSource : si.toNat + 2 * count ≤ 2 ^ 16) (hTarget : di.toNat + 2 * count ≤ 2 ^ 16) :
    repMovsw ds es count si di m = copyUp16 m (addr ds si) (addr es di) count := by
  induction count generalizing si di m with
  | zero =>
      rw [repMovsw, copyUp16]
  | succ count ih =>
      cases count with
      | zero => rw [repMovsw, repMovsw, copyUp16, copyUp16]
      | succ count =>
          have hSi : (si + 2#16).toNat = si.toNat + 2 := toNat_add (by omega)
          have hDi : (di + 2#16).toNat = di.toNat + 2 := toNat_add (by omega)
          have hSi' : addr ds (si + 2#16) = addr ds si + 2 := addr_add (by omega)
          have hDi' : addr es (di + 2#16) = addr es di + 2 := addr_add (by omega)
          rw [copyUp16, repMovsw, ih (by omega) (by omega), hSi', hDi']

theorem repMovsb_outside (hTarget : di.toNat + count < 2 ^ 16) {b : Nat}
    (h : b < addr es di ∨ addr es di + count ≤ b) : repMovsb ds es count si di m b = m b := by
  induction count generalizing si di m with
  | zero => rfl
  | succ count ih =>
      have hDi : (di + 1#16).toNat = di.toNat + 1 := toNat_add (by omega)
      have hNext : addr es (di + 1#16) = addr es di + 1 := addr_add (by omega)
      rw [repMovsb, ih (by omega) (by omega), Function.update_of_ne (by omega)]

theorem repStosb_outside {al : BitVec 8} (hTarget : di.toNat + count < 2 ^ 16) {b : Nat}
    (h : b < addr es di ∨ addr es di + count ≤ b) : repStosb al es count di m b = m b := by
  induction count generalizing di m with
  | zero => rfl
  | succ count ih =>
      have hDi : (di + 1#16).toNat = di.toNat + 1 := toNat_add (by omega)
      have hNext : addr es (di + 1#16) = addr es di + 1 := addr_add (by omega)
      rw [repStosb, ih (by omega) (by omega), Function.update_of_ne (by omega)]

end

attribute [irreducible] repMovsw repMovsb repStosb

end RealMode

import Mathlib.Tactic.Common
import Mathlib.Tactic.Ring

/-! A disk with two heads, its sectors numbered from head to head and then from track to
track. -/
namespace Floppy

/-- Sectors of a track are counted from 0 here. -/
structure Position where
  track : Nat
  head : Nat
  sector : Nat

namespace Position

variable {spt count : Nat} {p : Position}

def index (spt : Nat) (p : Position) : Nat := (2 * p.track + p.head) * spt + p.sector

structure Valid (spt : Nat) (p : Position) : Prop where
  head : p.head < 2
  sector : p.sector < spt

/-- `count` sectors further on, at most to the end of the track. -/
def skip (spt : Nat) (p : Position) (count : Nat) : Position :=
  if p.sector + count = spt then ⟨if p.head = 0 then p.track else p.track + 1, 1 - p.head, 0⟩
  else ⟨p.track, p.head, p.sector + count⟩

theorem Valid.skip (h : p.Valid spt) (hFit : p.sector + count ≤ spt) : (p.skip spt count).Valid spt := by
  have hHead := h.head
  have hSector := h.sector
  unfold Position.skip
  by_cases hEnd : p.sector + count = spt
  · rw [if_pos hEnd]
    exact ⟨show 1 - p.head < 2 by omega, show 0 < spt by omega⟩
  · rw [if_neg hEnd]
    exact ⟨hHead, show p.sector + count < spt by omega⟩

theorem index_skip (h : p.Valid spt) : (p.skip spt count).index spt = p.index spt + count := by
  have hHead := h.head
  unfold Position.skip
  split_ifs with hEnd hFirst
  · rw [index, index, hFirst, ← hEnd]
    ring
  · have hSecond : p.head = 1 := by omega
    rw [index, index, hSecond, ← hEnd]
    ring
  · rw [index, index, Nat.add_assoc]

/-- Every track takes two times `spt` sectors. -/
theorem track_mul_le (p : Position) (spt : Nat) : p.track * (2 * spt) ≤ p.index spt := by
  have hExpand : p.index spt = p.track * (2 * spt) + (p.head * spt + p.sector) := by
    rw [index]
    ring
  omega

end Position

end Floppy

import Mathlib.Data.Fin.Basic
import Mathlib.Logic.Function.Basic
import Mathlib.Order.Fin.Clamp
import Mathlib.Tactic.Common

/-! The 8259 interrupt controller, edge triggered and in its fully nested mode: the registers
behind its two ports, and which request it passes on. -/
namespace Pic

/-- The words that the data port takes after `ICW1`. -/
inductive Icw where
  | icw2 | icw3 | icw4
  deriving DecidableEq, Repr

/-- `irr` are the requests that wait, `isr` those in service. -/
structure Chip where
  imr : BitVec 8
  irr : Fin 8 → Bool
  isr : Fin 8 → Bool
  base : BitVec 8
  due : List Icw

namespace Chip

variable (c : Chip)

/-- The interrupt in service of the highest priority. -/
def inService : Option (Fin 8) := Fin.find? c.isr

/-- The non-specific end of interrupt. -/
def endOfInterrupt : Chip :=
  match c.inService with
  | some i => { c with isr := Function.update c.isr i false }
  | none => c

/-- A write to the command port: `ICW1`, or `OCW2` of which only the non-specific end of interrupt
does something here. -/
def command (value : BitVec 8) : Chip :=
  if value.getLsbD 4 then
    { imr := 0#8, irr := fun _ => false, isr := fun _ => false, base := c.base,
      due := .icw2 :: ((if value.getLsbD 1 then [] else [.icw3]) ++ if value.getLsbD 0 then [.icw4] else []) }
  else if value = 0x20#8 then c.endOfInterrupt
  else c

/-- A write to the data port. -/
def data (value : BitVec 8) : Chip :=
  match c.due with
  | .icw2 :: due => { c with base := value &&& 0xf8#8, due := due }
  | _ :: due => { c with due := due }
  | [] => { c with imr := value }

def request (i : Fin 8) : Chip := { c with irr := Function.update c.irr i true }

/-- The request of the highest priority that is not masked. -/
def waiting : Option (Fin 8) := Fin.find? fun i => c.irr i && !c.imr.getLsbD i

/-- What is passed on: nothing while an interrupt of the same or a higher priority is in service. -/
def pending : Option (Fin 8) :=
  match c.waiting, c.inService with
  | some i, some j => if i < j then some i else none
  | some i, none => some i
  | none, _ => none

/-- The processor takes request `i`. -/
def acknowledge (i : Fin 8) : Chip :=
  { c with irr := Function.update c.irr i false, isr := Function.update c.isr i true }

variable {c} {i j : Fin 8}

theorem inService_some : c.inService = some i ↔ c.isr i = true ∧ ∀ j < i, c.isr j = false :=
  Fin.find?_eq_some_iff

theorem inService_none : c.inService = none ↔ ∀ i, c.isr i = false := Fin.find?_eq_none_iff

/-- What is passed on has a higher priority than all that is in service. -/
theorem pending_some (h : c.pending = some i) :
    c.irr i = true ∧ c.imr.getLsbD i = false ∧ ∀ j, c.isr j = true → i < j := by
  unfold pending at h
  cases hWaiting : c.waiting with
  | none =>
      rw [hWaiting] at h
      cases h
  | some k =>
      have hFound := (Fin.find?_eq_some_iff.mp hWaiting).1
      simp only [Bool.and_eq_true, Bool.not_eq_true'] at hFound
      rw [hWaiting] at h
      cases hService : c.inService with
      | none =>
          rw [hService] at h
          obtain rfl := Option.some.inj h
          refine ⟨hFound.1, hFound.2, fun j hj => ?_⟩
          rw [inService_none.mp hService j] at hj
          cases hj
      | some l =>
          rw [hService] at h
          dsimp only at h
          split_ifs at h with hLt
          obtain rfl := Option.some.inj h
          refine ⟨hFound.1, hFound.2, fun j hj => ?_⟩
          by_contra hNot
          have hLess := (inService_some.mp hService).2 j (by omega)
          rw [hLess] at hj
          cases hj

/-- With nothing in service no request that is not masked is held back. -/
theorem pending_of_idle (hIdle : ∀ i, c.isr i = false) (hi : c.irr i = true) (hOpen : c.imr.getLsbD i = false) :
    ∃ j ≤ i, c.pending = some j := by
  have hNone := inService_none.mpr hIdle
  unfold pending
  rw [hNone]
  cases hWaiting : c.waiting with
  | none =>
      have hAll := Fin.find?_eq_none_iff.mp hWaiting i
      rw [hi, hOpen] at hAll
      cases hAll
  | some j =>
      refine ⟨j, ?_, rfl⟩
      by_contra hNot
      have hBefore := (Fin.find?_eq_some_iff.mp hWaiting).2 i (by omega)
      rw [hi, hOpen] at hBefore
      cases hBefore

theorem endOfInterrupt_eq (h : c.inService = some i) :
    c.endOfInterrupt = { c with isr := Function.update c.isr i false } := by
  rw [endOfInterrupt, h]

end Chip

end Pic

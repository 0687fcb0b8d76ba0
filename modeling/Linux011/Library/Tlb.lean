import Mathlib.Logic.Function.Basic
import Mathlib.Tactic.Common

/-! A cache of translations that the processor fills and empties as it likes and that only
software makes forget: what keeps it in step with the tables it was filled from. -/
namespace Tlb

variable {Page Entry : Type}

/-- A translation by the cache, and by the tables where the cache has none. -/
def translate (walk tlb : Page → Option Entry) (p : Page) : Option Entry := (tlb p).or (walk p)

/-- What the cache holds the tables say. -/
def Coherent (walk tlb : Page → Option Entry) : Prop := ∀ p e, tlb p = some e → walk p = some e

def flush : Page → Option Entry := fun _ => none

variable [DecidableEq Page]

/-- One more translation in the cache. A page without one is not remembered. -/
def fill (walk tlb : Page → Option Entry) (p : Page) : Page → Option Entry := Function.update tlb p (walk p)

def evict (tlb : Page → Option Entry) (p : Page) : Page → Option Entry := Function.update tlb p none

section

omit [DecidableEq Page]

variable {walk walk' tlb : Page → Option Entry}

theorem coherent_flush (walk : Page → Option Entry) : Coherent walk flush := fun _ _ h => nomatch h

/-- With a coherent cache every translation is that of the tables. -/
theorem Coherent.translate (h : Coherent walk tlb) (p : Page) : translate walk tlb p = walk p := by
  unfold Tlb.translate
  cases hCached : tlb p with
  | none => rfl
  | some e => exact (h p e hCached).symm

/-- New tables need no flush where no cached page has a new translation. -/
theorem Coherent.tables (h : Coherent walk tlb) (hSame : ∀ p, tlb p ≠ none → walk' p = walk p) :
    Coherent walk' tlb := by
  intro p e hCached
  rw [hSame p (by rw [hCached]; exact Option.some_ne_none e)]
  exact h p e hCached

end

variable {walk tlb : Page → Option Entry}

/-- Loading a translation keeps the cache coherent. -/
theorem Coherent.fill (h : Coherent walk tlb) (p : Page) : Coherent walk (fill walk tlb p) := by
  intro q e hCached
  by_cases hSame : q = p
  · subst hSame
    rwa [Tlb.fill, Function.update_self] at hCached
  · rw [Tlb.fill, Function.update_of_ne hSame] at hCached
    exact h q e hCached

theorem Coherent.evict (h : Coherent walk tlb) (p : Page) : Coherent walk (evict tlb p) := by
  intro q e hCached
  by_cases hSame : q = p
  · subst hSame
    rw [Tlb.evict, Function.update_self] at hCached
    cases hCached
  · rw [Tlb.evict, Function.update_of_ne hSame] at hCached
    exact h q e hCached

end Tlb

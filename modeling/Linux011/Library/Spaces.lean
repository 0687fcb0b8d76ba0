import Mathlib.Logic.Function.Basic
import Mathlib.Tactic.Common

/-! Processes with memory of their own: what a history of forks and stores leaves in the memory of
each, and what it takes for a system to show them that, however it shares. -/
namespace Spaces

/-- `first` is a process that starts with what the system has. -/
inductive Event (ι α β : Type) where
  | first (child : ι) (bytes : α → Option β)
  | fork (parent child : ι)
  | store (s : ι) (a : α) (v : β)

variable {ι α β : Type} [DecidableEq ι] [DecidableEq α]

/-- The memory of each process when every fork copies all of it at once, with `none` for what is not
known. The last event comes first. -/
def eager : List (Event ι α β) → ι → α → Option β
  | [] => fun _ _ => none
  | .first child bytes :: past => Function.update (eager past) child bytes
  | .fork parent child :: past => Function.update (eager past) child (eager past parent)
  | .store s a v :: past => Function.update (eager past) s (Function.update (eager past s) a (some v))

/-- Every live process finds what the history says. -/
def Sees (live : ι → Prop) (reads : ι → α → β → Prop) (past : List (Event ι α β)) : Prop :=
  ∀ s, live s → ∀ a v, eager past s a = some v → reads s a v

/-- The history says of every live process what it says of the first one. -/
def Covers (live : ι → Prop) (past : List (Event ι α β)) : Prop :=
  ∀ s, live s → ∀ child bytes, .first child bytes ∈ past → ∀ a, (bytes a).isSome → (eager past s a).isSome

variable {live live' : ι → Prop} {reads reads' : ι → α → β → Prop} {past : List (Event ι α β)} {parent child s : ι}
  {a : α} {v : β} {bytes : α → Option β}

namespace Sees

/-- Nothing is told of an empty history. -/
theorem nil : Sees live reads [] := fun _ _ _ _ h => nomatch h

theorem mono (h : Sees live reads past) (hLive : ∀ s, live' s → live s)
    (hKeep : ∀ s, live' s → ∀ a v, reads s a v → reads' s a v) : Sees live' reads' past :=
  fun s hs a v hv => hKeep s hs a v (h s (hLive s hs) a v hv)

/-- The first child has what it was given. -/
theorem first (hAlone : ∀ s, live s → s = child) (hNew : ∀ a v, bytes a = some v → reads child a v) :
    Sees live reads (.first child bytes :: past) := by
  intro s hs a v hv
  obtain rfl := hAlone s hs
  rw [eager, Function.update_self] at hv
  exact hNew a v hv

/-- A child that reads what its parent reads. -/
theorem fork (h : Sees live reads past) (hParent : live parent) (hLive : ∀ s, live' s → s ≠ child → live s)
    (hKeep : ∀ s, live s → s ≠ child → ∀ a v, reads s a v → reads' s a v)
    (hCopy : ∀ a v, reads parent a v → reads' child a v) : Sees live' reads' (.fork parent child :: past) := by
  intro s hs a v hv
  rw [eager] at hv
  by_cases hSame : s = child
  · subst hSame
    rw [Function.update_self] at hv
    exact hCopy a v (h parent hParent a v hv)
  · rw [Function.update_of_ne hSame] at hv
    exact hKeep s (hLive s hs hSame) hSame a v (h s (hLive s hs hSame) a v hv)

/-- A store changes one byte of one space. -/
theorem store (h : Sees live reads past) (hLive : ∀ s, live' s → live s)
    (hKeep : ∀ j, live j → ∀ b w, j ≠ s ∨ b ≠ a → reads j b w → reads' j b w) (hNew : reads' s a v) :
    Sees live' reads' (.store s a v :: past) := by
  intro j hj b w hw
  rw [eager] at hw
  by_cases hSame : j = s
  · subst hSame
    rw [Function.update_self] at hw
    by_cases hHere : b = a
    · subst hHere
      rw [Function.update_self, Option.some.injEq] at hw
      subst hw
      exact hNew
    · rw [Function.update_of_ne hHere] at hw
      exact hKeep j (hLive j hj) b w (Or.inr hHere) (h j (hLive j hj) b w hw)
  · rw [Function.update_of_ne hSame] at hw
    exact hKeep j (hLive j hj) b w (Or.inl hSame) (h j (hLive j hj) b w hw)

end Sees

namespace Covers

theorem nil : Covers live ([] : List (Event ι α β)) := fun _ _ _ _ h => nomatch h

theorem mono (h : Covers live past) (hLive : ∀ s, live' s → live s) : Covers live' past :=
  fun s hs => h s (hLive s hs)

theorem first (hAlone : ∀ s, live s → s = child) : Covers live [.first child bytes] := by
  intro s hs child' bytes' hFirst b hb
  obtain rfl := hAlone s hs
  obtain ⟨rfl, rfl⟩ := Event.first.inj (List.mem_singleton.mp hFirst)
  rw [eager, Function.update_self]
  exact hb

theorem fork (h : Covers live past) (hParent : live parent) (hLive : ∀ s, live' s → s ≠ child → live s) :
    Covers live' (.fork parent child :: past) := by
  intro s hs child' bytes' hFirst b hb
  have hOld := (List.mem_cons.mp hFirst).resolve_left (by simp)
  rw [eager]
  by_cases hSame : s = child
  · subst hSame
    rw [Function.update_self]
    exact h parent hParent child' bytes' hOld b hb
  · rw [Function.update_of_ne hSame]
    exact h s (hLive s hs hSame) child' bytes' hOld b hb

theorem store (h : Covers live past) (hLive : ∀ s, live' s → live s) : Covers live' (.store s a v :: past) := by
  intro j hj child' bytes' hFirst b hb
  have hOld := (List.mem_cons.mp hFirst).resolve_left (by simp)
  have hBefore := h j (hLive j hj) child' bytes' hOld b hb
  rw [eager]
  by_cases hSame : j = s
  · subst hSame
    rw [Function.update_self]
    by_cases hHere : b = a
    · rw [hHere, Function.update_self]
      rfl
    · rwa [Function.update_of_ne hHere]
  · rwa [Function.update_of_ne hSame]

end Covers

end Spaces

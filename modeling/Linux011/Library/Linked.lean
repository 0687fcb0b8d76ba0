import Mathlib.Data.List.Nodup
import Mathlib.Logic.Function.Basic
import Mathlib.Tactic.Common

/-! Linked stacks: each member knows the one below it, the lowest one knows
`nil`. -/
namespace Linked

variable {α : Type*} {next next' : α → Option α} {nil a b : α} {members members' : List α}

/-- Following `next` from `a` visits `members`, in this order, and ends at
`nil`. -/
inductive Chain (next : α → Option α) (nil : α) : α → List α → Prop where
  | done : Chain next nil nil []
  | link {a b : α} {members : List α} (ne : a ≠ nil) (next_eq : next a = some b)
      (rest : Chain next nil b members) : Chain next nil a (a :: members)

namespace Chain

/-- The start determines what is visited. -/
theorem unique (h : Chain next nil a members) (h' : Chain next nil a members') : members = members' := by
  induction h generalizing members' with
  | done =>
      cases h' with
      | done => rfl
      | link hNe => exact absurd rfl hNe
  | link hNe hNext _ ih =>
      cases h' with
      | done => exact absurd rfl hNe
      | link _ hNext' rest' =>
          obtain rfl := Option.some.inj (hNext.symm.trans hNext')
          rw [ih rest']

/-- Every member starts a chain of its own, the part from it on. -/
theorem of_mem (h : Chain next nil a members) (hb : b ∈ members) :
    ∃ above below, members = above ++ b :: below ∧ Chain next nil b (b :: below) := by
  induction h with
  | done => exact absurd hb List.not_mem_nil
  | @link a _ members hNe hNext rest ih =>
      rcases List.mem_cons.mp hb with rfl | hRest
      · exact ⟨[], members, rfl, link hNe hNext rest⟩
      · obtain ⟨above, below, hMembers, hBelow⟩ := ih hRest
        exact ⟨a :: above, below, by rw [hMembers, List.cons_append], hBelow⟩

/-- A chain that reaches `nil` visits nothing twice. -/
theorem nodup (h : Chain next nil a members) : members.Nodup := by
  induction h with
  | done => exact List.nodup_nil
  | @link a b members hNe hNext rest ih =>
      refine List.nodup_cons.mpr ⟨fun hAgain => ?_, ih⟩
      obtain ⟨above, below, hMembers, hBelow⟩ := rest.of_mem hAgain
      have hSame := (link hNe hNext rest).unique hBelow
      have hLength := congrArg List.length (hMembers.symm.trans (List.cons.inj hSame).2)
      simp only [List.length_append, List.length_cons] at hLength
      omega

/-- A chain starts at its first member, if it has one. -/
theorem start_mem (h : Chain next nil a members) (hne : a ≠ nil) : a ∈ members := by
  cases h with
  | done => exact absurd rfl hne
  | link => exact List.mem_cons_self

theorem start_ne (h : Chain next nil a members) (hb : b ∈ members) : a ≠ nil := by
  cases h with
  | done => exact absurd hb List.not_mem_nil
  | link hNe => exact hNe

/-- Only the links of the members matter. -/
theorem congr (h : Chain next nil a members) (hSame : ∀ b ∈ members, next' b = next b) :
    Chain next' nil a members := by
  induction h with
  | done => exact done
  | link hNe hNext _ ih =>
      exact link hNe ((hSame _ List.mem_cons_self).trans hNext)
        (ih fun b hb => hSame b (List.mem_cons_of_mem _ hb))

variable [DecidableEq α]

theorem frame (h : Chain next nil a members) (hb : b ∉ members) (value : Option α) :
    Chain (Function.update next b value) nil a members :=
  h.congr fun c hMember => Function.update_of_ne (by rintro rfl; exact hb hMember) _ _

/-- A new member on top. -/
theorem push (h : Chain next nil a members) (hb : b ∉ members) (hne : b ≠ nil) :
    Chain (Function.update next b (some a)) nil b (b :: members) :=
  link hne (Function.update_self _ _ _) (h.frame hb _)

/-- The top member leaves. -/
theorem pop (h : Chain next nil a members) (hne : a ≠ nil) (hNext : next a = some b) (value : Option α) :
    ∃ below, members = a :: below ∧ a ∉ below ∧ Chain (Function.update next a value) nil b below := by
  have hNodup := h.nodup
  cases h with
  | done => exact absurd rfl hne
  | link _ hNext' rest =>
      obtain rfl := Option.some.inj (hNext'.symm.trans hNext)
      have hNotBelow := (List.nodup_cons.mp hNodup).1
      exact ⟨_, rfl, hNotBelow, rest.frame hNotBelow _⟩

end Chain
end Linked

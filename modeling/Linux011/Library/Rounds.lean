import Mathlib.Algebra.BigOperators.Group.List.Basic
import Mathlib.Algebra.Ring.Nat
import Mathlib.Dynamics.PeriodicPts.Defs
import Mathlib.Tactic.Common

/-! Service in rounds. The members of a fixed order are served one after the
other, each for its own number of units; after the last one the next round
starts. -/
namespace Rounds

variable {α : Type*}

/-- Who is being served, how many units are left, and who follows in this
round. -/
structure Turn (α : Type*) where
  now : α
  left : Nat
  rest : List α

/-- The start of a round. -/
def Turn.first (quota : α → Nat) (a : α) (rest : List α) : Turn α := ⟨a, quota a, rest⟩

/-- One unit of service, in rounds that start with `first`. -/
def serve (quota : α → Nat) (first t : Turn α) : Turn α :=
  if 1 < t.left then { t with left := t.left - 1 }
  else
    match t.rest with
    | a :: rest => ⟨a, quota a, rest⟩
    | [] => first

/-- This unit is the last one of the round. -/
def Turn.Ends (t : Turn α) : Prop := t.left ≤ 1 ∧ t.rest = []

/-- Everyone who is yet to be served gets at least one unit. -/
structure Turn.Valid (quota : α → Nat) (t : Turn α) : Prop where
  left : 1 ≤ t.left
  rest : ∀ a ∈ t.rest, 1 ≤ quota a

/-- The members served during one round, unit by unit. -/
def units (quota : α → Nat) (members : List α) : List α :=
  members.flatMap fun a => List.replicate (quota a) a

/-- The units that are left of the round. -/
def Turn.units (quota : α → Nat) (t : Turn α) : List α :=
  List.replicate t.left t.now ++ Rounds.units quota t.rest

variable {quota : α → Nat} {first t : Turn α}

theorem length_units (quota : α → Nat) (members : List α) :
    (units quota members).length = (members.map quota).sum := by
  rw [units, List.length_flatMap]
  simp only [List.length_replicate]

@[simp] theorem units_first (quota : α → Nat) (a : α) (rest : List α) :
    (Turn.first quota a rest).units quota = units quota (a :: rest) := rfl

theorem Turn.Valid.served (h : t.Valid quota) (hFirst : first.Valid quota) :
    (serve quota first t).Valid quota := by
  obtain ⟨now, left, rest⟩ := t
  unfold serve
  split_ifs with hMore
  · exact ⟨Nat.le_sub_one_of_lt hMore, h.rest⟩
  · cases rest with
    | nil => exact hFirst
    | cons a rest => exact ⟨h.rest a List.mem_cons_self, fun b hb => h.rest b (List.mem_cons_of_mem a hb)⟩

variable (first) in

/-- Until the round ends, a unit of service uses up one of the units left. -/
theorem Turn.units_serve (hValid : t.Valid quota) (hEnds : ¬t.Ends) :
    t.units quota = t.now :: (serve quota first t).units quota := by
  obtain ⟨now, left, rest⟩ := t
  obtain ⟨n, rfl⟩ : ∃ n, left = n + 1 := ⟨left - 1, (Nat.sub_add_cancel hValid.left).symm⟩
  by_cases hMore : 1 < n + 1
  · simp only [Turn.units, serve, if_pos hMore, Nat.add_sub_cancel, List.replicate_succ,
      List.cons_append]
  · cases rest with
    | nil => exact absurd ⟨Nat.not_lt.mp hMore, rfl⟩ hEnds
    | cons a rest =>
        obtain rfl : n = 0 := by omega
        simp only [Turn.units, serve, if_neg hMore, Rounds.units, List.flatMap_cons, List.replicate_succ,
          List.replicate_zero, List.cons_append, List.nil_append]

theorem Turn.units_of_ends (hValid : t.Valid quota) (hEnds : t.Ends) : t.units quota = [t.now] := by
  obtain ⟨now, left, rest⟩ := t
  obtain ⟨hOne, hRest⟩ := hEnds
  obtain rfl : left = 1 := Nat.le_antisymm hOne hValid.left
  obtain rfl : rest = [] := hRest
  rfl

theorem Turn.serve_of_ends (hEnds : t.Ends) : serve quota first t = first := by
  rw [serve, if_neg (Nat.not_lt.mpr hEnds.1), hEnds.2]

theorem Turn.Valid.pos (hValid : t.Valid quota) : 0 < (t.units quota).length := by
  have hLeft := hValid.left
  rw [Turn.units, List.length_append, List.length_replicate]
  omega

theorem Turn.ends_iff (hValid : t.Valid quota) (hFirst : first.Valid quota) :
    t.Ends ↔ (t.units quota).length = 1 := by
  constructor
  · intro hEnds
    rw [Turn.units_of_ends hValid hEnds]
    rfl
  · intro hOne
    by_contra hEnds
    have hMore := (hValid.served hFirst).pos
    rw [Turn.units_serve first hValid hEnds, List.length_cons] at hOne
    omega

section Run

variable (hFirst : first.Valid quota)

include hFirst in
theorem Turn.Valid.iterate (h : t.Valid quota) (n : Nat) :
    ((serve quota first)^[n] t).Valid quota := by
  induction n generalizing t with
  | zero => exact h
  | succ n ih => exact ih (h.served hFirst)

include hFirst in

/-- Within a round the first `n` units of service are the first `n` units that
were left. -/
theorem Turn.units_iterate (h : t.Valid quota) {n : Nat} (hn : n < (t.units quota).length) :
    ((serve quota first)^[n] t).units quota = (t.units quota).drop n := by
  induction n with
  | zero => rfl
  | succ n ih =>
      have hUnits := ih (by omega)
      have hValid := Turn.Valid.iterate hFirst h n
      have hEnds : ¬((serve quota first)^[n] t).Ends := by
        rw [Turn.ends_iff hValid hFirst, hUnits, List.length_drop]
        omega
      rw [Turn.units_serve first hValid hEnds] at hUnits
      rw [Function.iterate_succ_apply', ← List.tail_drop, ← hUnits, List.tail_cons]

include hFirst in
theorem Turn.now_iterate (h : t.Valid quota) {n : Nat} (hn : n < (t.units quota).length) :
    ((serve quota first)^[n] t).now = (t.units quota)[n] := by
  have hUnits := Turn.units_iterate hFirst h hn
  have hValid := Turn.Valid.iterate hFirst h n
  have hHead : (((serve quota first)^[n] t).units quota).head? =
      some ((serve quota first)^[n] t).now := by
    by_cases hEnds : ((serve quota first)^[n] t).Ends
    · rw [Turn.units_of_ends hValid hEnds]
      rfl
    · rw [Turn.units_serve first hValid hEnds]
      rfl
  rw [hUnits, List.head?_drop, List.getElem?_eq_getElem hn] at hHead
  exact (Option.some.inj hHead).symm

include hFirst in

/-- The round ends with the last unit, not before. -/
theorem Turn.ends_iterate (h : t.Valid quota) {n : Nat} (hn : n < (t.units quota).length) :
    ((serve quota first)^[n] t).Ends ↔ n + 1 = (t.units quota).length := by
  rw [Turn.ends_iff (Turn.Valid.iterate hFirst h n) hFirst, Turn.units_iterate hFirst h hn, List.length_drop]
  omega

include hFirst in
theorem Turn.iterate_round (h : t.Valid quota) :
    (serve quota first)^[(t.units quota).length] t = first := by
  have hPos := h.pos
  obtain ⟨n, hn⟩ : ∃ n, (t.units quota).length = n + 1 := ⟨_, (Nat.sub_add_cancel hPos).symm⟩
  rw [hn, Function.iterate_succ_apply']
  exact Turn.serve_of_ends ((Turn.ends_iterate hFirst h (by omega)).mpr hn.symm)

include hFirst in

/-- From the start of a round on, service depends on the place in the round
only. -/
theorem Turn.now_mod (n : Nat) :
    ((serve quota first)^[n] first).now =
      (first.units quota).get ⟨n % (first.units quota).length, Nat.mod_lt n hFirst.pos⟩ := by
  have hPeriod : Function.IsPeriodicPt (serve quota first) (first.units quota).length first :=
    Turn.iterate_round hFirst hFirst
  rw [← hPeriod.iterate_mod_apply n]
  exact Turn.now_iterate hFirst hFirst (Nat.mod_lt n hFirst.pos)

end Run

/-- From the start of a round on nobody waits for more units than all others
get in a round. -/
theorem bounded_wait [DecidableEq α] {head : α} {rest : List α}
    (hQuota : ∀ a ∈ head :: rest, 1 ≤ quota a) {a : α} (ha : a ∈ head :: rest) (n : Nat) :
    ∃ m ≤ (((head :: rest).erase a).map quota).sum,
      ((serve quota (Turn.first quota head rest))^[n + m] (Turn.first quota head rest)).now = a := by
  have hFirst : (Turn.first quota head rest).Valid quota :=
    ⟨hQuota head List.mem_cons_self, fun b hb => hQuota b (List.mem_cons_of_mem head hb)⟩
  have hPos := hFirst.pos
  have hOthers : (((head :: rest).erase a).map quota).sum + quota a =
      (units quota (head :: rest)).length := by
    rw [length_units, ((List.perm_cons_erase ha).map quota).sum_eq, List.map_cons, List.sum_cons, Nat.add_comm]
  have hOne := hQuota a ha
  -- the place of `a` in the round
  obtain ⟨before, after, hSplit⟩ := List.append_of_mem ha
  have hUnits : units quota (head :: rest) =
      units quota before ++ (List.replicate (quota a) a ++ units quota after) := by
    rw [hSplit, units, List.flatMap_append, List.flatMap_cons]
    rfl
  have hLength := congrArg List.length hUnits
  simp only [List.length_append, List.length_replicate] at hLength
  have hServed {t : Nat} (hFrom : (units quota before).length ≤ t)
      (hTo : t < (units quota before).length + quota a) (hLt : t < (units quota (head :: rest)).length) :
      (units quota (head :: rest))[t] = a := by
    simp only [hUnits]
    rw [List.getElem_append_right hFrom, List.getElem_append_left (by rw [List.length_replicate]; omega),
      List.getElem_replicate]
  have hPlace := Nat.mod_lt n hPos
  rw [units_first] at hPlace
  have hReach (m t : Nat) (hTime : (n % (units quota (head :: rest)).length + m) %
        (units quota (head :: rest)).length = t) (hFrom : (units quota before).length ≤ t)
      (hTo : t < (units quota before).length + quota a) :
      ((serve quota (Turn.first quota head rest))^[n + m] (Turn.first quota head rest)).now = a := by
    rw [Nat.mod_add_mod] at hTime
    rw [Turn.now_mod hFirst]
    simp only [units_first, hTime]
    exact hServed hFrom hTo (hTime ▸ Nat.mod_lt _ hPos)
  generalize n % (units quota (head :: rest)).length = place at hPlace hReach
  rcases Nat.lt_or_ge place (units quota before).length with hEarly | hFrom
  · refine ⟨(units quota before).length - place, by omega, hReach _ (units quota before).length ?_ ?_ ?_⟩
    · rw [Nat.add_sub_cancel' hEarly.le, Nat.mod_eq_of_lt (by omega)]
    · exact Nat.le_refl _
    · omega
  · rcases Nat.lt_or_ge place ((units quota before).length + quota a) with hTo | hLate
    · exact ⟨0, Nat.zero_le _, hReach 0 place (Nat.mod_eq_of_lt hPlace) hFrom hTo⟩
    · -- `a` has been served in this round: wait for the next one
      refine ⟨(units quota (head :: rest)).length - place + (units quota before).length, by omega,
        hReach _ (units quota before).length ?_ (Nat.le_refl _) (by omega)⟩
      rw [← Nat.add_assoc, Nat.add_sub_cancel' hPlace.le, Nat.add_mod_left, Nat.mod_eq_of_lt (by omega)]

end Rounds

import Mathlib.Data.List.TakeWhile
import Mathlib.Tactic.Common

/-! The maximal runs of a list: the longest stretches on which a property holds. -/
namespace Runs

variable {α : Type*} {P : α → Prop}

/-- From the index `i` up to `j` everything has the property, and nothing next to it does. -/
structure IsRun (P : α → Prop) (l : List α) (i j : Nat) : Prop where
  nonempty : i < j
  inside : ∀ k, i ≤ k → k < j → ∃ x, l[k]? = some x ∧ P x
  before : ∀ k x, k + 1 = i → l[k]? = some x → ¬P x
  behind : ∀ x, l[j]? = some x → ¬P x

/-- A list taken apart into its runs, which are counted from `base` on. -/
inductive Split (P : α → Prop) : Nat → List α → List (Nat × Nat) → Prop
  | none {base : Nat} {gap : List α} (hGap : ∀ x ∈ gap, ¬P x) : Split P base gap []
  | last {base : Nat} {gap run : List α} (hGap : ∀ x ∈ gap, ¬P x) (hSome : run ≠ []) (hRun : ∀ x ∈ run, P x) :
      Split P base (gap ++ run) [(base + gap.length, base + gap.length + run.length)]
  | more {base : Nat} {gap run rest : List α} {d : α} {runs : List (Nat × Nat)} (hGap : ∀ x ∈ gap, ¬P x)
      (hSome : run ≠ []) (hRun : ∀ x ∈ run, P x) (hNot : ¬P d)
      (hRest : Split P (base + gap.length + run.length + 1) rest runs) :
      Split P base (gap ++ (run ++ d :: rest)) ((base + gap.length, base + gap.length + run.length) :: runs)

section

variable {front gap run rest tail l : List α} {d : α} {base i j : Nat} {runs : List (Nat × Nat)}

/-- What does not have the property is in no run. -/
theorem IsRun.not_across (front : List α) (h : IsRun P (front ++ d :: rest) i j) (hNot : ¬P d)
    (hLow : i ≤ front.length) :
    j ≤ front.length := by
  by_contra hHigh
  obtain ⟨x, hAt, hx⟩ := h.inside front.length hLow (Nat.lt_of_not_le hHigh)
  rw [List.getElem?_append_right (Nat.le_refl _), Nat.sub_self, List.getElem?_cons_zero] at hAt
  exact hNot (Option.some.inj hAt ▸ hx)

theorem getElem?_behind (front : List α) (d : α) (k : Nat) :
    (front ++ d :: rest)[front.length + 1 + k]? = rest[k]? := by
  rw [List.getElem?_append_right (by omega), show front.length + 1 + k - front.length = k + 1 by omega,
    List.getElem?_cons_succ]

/-- Behind such an element the runs are those of the rest. -/
theorem isRun_behind (front : List α) (hNot : ¬P d) :
    IsRun P (front ++ d :: rest) (front.length + 1 + i) (front.length + 1 + j) ↔ IsRun P rest i j := by
  constructor
  · intro h
    refine ⟨Nat.lt_of_add_lt_add_left h.nonempty, fun k hLow hHigh => ?_, fun k x hk hx => ?_, fun x hx => ?_⟩
    · rw [← getElem?_behind front d]
      exact h.inside _ (by omega) (by omega)
    · exact h.before (front.length + 1 + k) x (by omega) (by rwa [getElem?_behind])
    · exact h.behind x (by rwa [getElem?_behind])
  · intro h
    refine ⟨Nat.add_lt_add_left h.nonempty _, fun k hLow hHigh => ?_, fun k x hk hx => ?_, fun x hx => ?_⟩
    · obtain ⟨k, rfl⟩ := Nat.exists_eq_add_of_le (show front.length + 1 ≤ k by omega)
      rw [getElem?_behind]
      exact h.inside k (by omega) (by omega)
    · by_cases hFirst : i = 0
      · have hk' : k = front.length := by omega
        rw [hk', List.getElem?_append_right (Nat.le_refl _), Nat.sub_self, List.getElem?_cons_zero] at hx
        exact Option.some.inj hx ▸ hNot
      · obtain ⟨k, rfl⟩ := Nat.exists_eq_add_of_le (show front.length + 1 ≤ k by omega)
        rw [getElem?_behind] at hx
        exact h.before k x (by omega) hx
    · rw [getElem?_behind] at hx
      exact h.behind x hx

/-- A stretch with the property, up to the end or to something else, is the run that starts there. -/
theorem isRun_first (tail : List α) (hSome : run ≠ []) (hRun : ∀ x ∈ run, P x) (hTail : ∀ x, tail.head? = some x → ¬P x)
    (hLow : i < run.length) : IsRun P (run ++ tail) i j ↔ i = 0 ∧ j = run.length := by
  have hIn : ∀ {k : Nat}, k < run.length → ∃ x, (run ++ tail)[k]? = some x ∧ P x := fun hk =>
    ⟨_, by rw [List.getElem?_append_left hk, List.getElem?_eq_getElem hk], hRun _ (List.getElem_mem hk)⟩
  have hEnd : (run ++ tail)[run.length]? = tail.head? := by
    rw [List.getElem?_append_right (Nat.le_refl _), Nat.sub_self, List.head?_eq_getElem?]
  constructor
  · intro h
    have hFirst : i = 0 := by
      by_contra hLater
      obtain ⟨x, hAt, hx⟩ := hIn (k := i - 1) (by omega)
      exact h.before (i - 1) x (by omega) hAt hx
    refine ⟨hFirst, Nat.le_antisymm ?_ ?_⟩
    · by_contra hHigh
      obtain ⟨x, hAt, hx⟩ := h.inside run.length (by omega) (by omega)
      exact hTail x (hEnd ▸ hAt) hx
    · by_contra hShort
      obtain ⟨x, hAt, hx⟩ := hIn (Nat.lt_of_not_le hShort)
      exact h.behind x hAt hx
  · rintro ⟨rfl, rfl⟩
    exact ⟨List.length_pos_iff.mpr hSome, fun k _ hk => hIn hk, fun k x hk => absurd hk (Nat.succ_ne_zero k),
      fun x hx => hTail x (hEnd ▸ hx)⟩

theorem IsRun.lt_length (h : IsRun P l i j) : i < l.length := by
  obtain ⟨x, hAt, _⟩ := h.inside i (Nat.le_refl i) h.nonempty
  exact (List.getElem?_eq_some_iff.mp hAt).1

theorem isRun_gap (hGap : ∀ x ∈ gap, ¬P x) :
    IsRun P (gap ++ l) i j ↔ ∃ i' j', i = gap.length + i' ∧ j = gap.length + j' ∧ IsRun P l i' j' := by
  induction gap generalizing i j with
  | nil => simp
  | cons d gap ih =>
      have hFirst : ¬P d := hGap d List.mem_cons_self
      have ih := fun i j => ih (i := i) (j := j) fun x hx => hGap x (List.mem_cons_of_mem _ hx)
      constructor
      · intro h
        have hPos : 0 < i := by
          by_contra hZero
          have hEnd := IsRun.not_across [] h hFirst (by omega)
          have hSome := h.nonempty
          exact absurd hEnd (by simp; omega)
        have hSome := h.nonempty
        obtain ⟨i, rfl⟩ := Nat.exists_eq_add_of_le hPos
        obtain ⟨j, rfl⟩ := Nat.exists_eq_add_of_le (show 0 + 1 ≤ j by omega)
        obtain ⟨i', j', rfl, rfl, hRun⟩ := (ih i j).mp ((isRun_behind [] hFirst).mp h)
        exact ⟨i', j', by rw [List.length_cons]; omega, by rw [List.length_cons]; omega, hRun⟩
      · rintro ⟨i', j', rfl, rfl, hRun⟩
        have hRest := (isRun_behind [] hFirst).mpr ((ih _ _).mpr ⟨i', j', rfl, rfl, hRun⟩)
        convert hRest using 1 <;> simp <;> omega

/-- The longest stretch at the start on which `Q` holds. -/
theorem exists_stretch (Q : α → Prop) [DecidablePred Q] (l : List α) :
    ∃ front tail, l = front ++ tail ∧ (∀ x ∈ front, Q x) ∧ ∀ x, tail.head? = some x → ¬Q x := by
  refine ⟨l.takeWhile (Q ·), l.dropWhile (Q ·), List.takeWhile_append_dropWhile.symm, fun x hx => ?_, fun x hx => ?_⟩
  · simpa using List.mem_takeWhile_imp hx
  · have hStop := List.head?_dropWhile_not (Q ·) l
    rw [hx] at hStop
    simpa using hStop

/-- Every list can be taken apart. -/
theorem exists_split [DecidablePred P] (base : Nat) (l : List α) : ∃ runs, Split P base l runs := by
  induction hLength : l.length using Nat.strongRecOn generalizing base l with
  | ind n ih =>
      obtain ⟨gap, rest, rfl, hGap, hFirst⟩ := exists_stretch (¬P ·) l
      obtain ⟨run, tail, rfl, hRun, hBehind⟩ := exists_stretch P rest
      by_cases hSome : run = []
      · have hNothing : tail = [] := by
          cases tail with
          | nil => rfl
          | cons d tail => exact absurd (hFirst d (by rw [hSome]; rfl)) (fun h => h (hBehind d rfl))
        rw [hSome, hNothing, List.append_nil, List.append_nil]
        exact ⟨[], .none hGap⟩
      · cases tail with
        | nil =>
            rw [List.append_nil]
            exact ⟨_, .last hGap hSome hRun⟩
        | cons d tail =>
            have hShort : tail.length < n := by
              rw [← hLength]
              simp
              omega
            obtain ⟨runs, hSplit⟩ := ih tail.length hShort (base + gap.length + run.length + 1) tail rfl
            exact ⟨_, .more hGap hSome hRun (hBehind d rfl) hSplit⟩

theorem not_isRun (hGap : ∀ x ∈ gap, ¬P x) : ¬IsRun P gap i j := fun h => by
  obtain ⟨x, hAt, hx⟩ := h.inside i (Nat.le_refl i) h.nonempty
  exact hGap x (List.mem_of_getElem? hAt) hx

/-- The parts are the runs, all of them. -/
theorem Split.mem_iff (h : Split P base l runs) :
    (i, j) ∈ runs ↔ ∃ i' j', i = base + i' ∧ j = base + j' ∧ IsRun P l i' j' := by
  induction h generalizing i j with
  | none hGap =>
      refine iff_of_false List.not_mem_nil ?_
      rintro ⟨_, _, _, _, hRun⟩
      exact not_isRun hGap hRun
  | @last base gap run hGap hSome hRun =>
      have hOnly : ∀ {i j : Nat}, IsRun P run i j ↔ i = 0 ∧ j = run.length := fun {i j} =>
        ⟨fun h => (isRun_first [] hSome hRun (by simp) h.lt_length).mp (by rwa [List.append_nil]),
          fun h => by
            have hFirst := (isRun_first [] (i := i) (j := j) hSome hRun (by simp) (by
              rw [h.1]
              exact List.length_pos_iff.mpr hSome)).mpr h
            rwa [List.append_nil] at hFirst⟩
      simp only [isRun_gap hGap, hOnly, List.mem_singleton, Prod.mk.injEq]
      constructor
      · rintro ⟨rfl, rfl⟩
        exact ⟨gap.length, gap.length + run.length, rfl, by omega, 0, run.length, rfl, rfl, rfl, rfl⟩
      · rintro ⟨_, _, rfl, rfl, _, _, rfl, rfl, rfl, rfl⟩
        omega
  | @more base gap run rest d runs hGap hSome hRun hNot _ ih =>
      have hTail : ∀ x, (d :: rest).head? = some x → ¬P x := by
        rintro x hx
        exact Option.some.inj hx ▸ hNot
      have hPos : 0 < run.length := List.length_pos_iff.mpr hSome
      simp only [isRun_gap hGap, List.mem_cons, Prod.mk.injEq, ih]
      constructor
      · rintro (⟨rfl, rfl⟩ | ⟨i', j', rfl, rfl, hIs⟩)
        · exact ⟨_, _, by omega, by omega, 0, run.length, rfl, rfl,
            (isRun_first _ hSome hRun hTail hPos).mpr ⟨rfl, rfl⟩⟩
        · exact ⟨_, _, by omega, by omega, run.length + 1 + i', run.length + 1 + j', rfl, rfl,
            (isRun_behind run hNot).mpr hIs⟩
      · rintro ⟨_, _, rfl, rfl, i', j', rfl, rfl, hIs⟩
        by_cases hFirst : i' < run.length
        · obtain ⟨rfl, rfl⟩ := (isRun_first _ hSome hRun hTail hFirst).mp hIs
          exact Or.inl ⟨by omega, by omega⟩
        · have hBehind : run.length < i' := by
            by_contra hAt
            have hEnd := IsRun.not_across run hIs hNot (Nat.le_of_not_lt hAt)
            have hLess := hIs.nonempty
            omega
          have hLess := hIs.nonempty
          obtain ⟨i', rfl⟩ := Nat.exists_eq_add_of_lt hBehind
          obtain ⟨j', rfl⟩ := Nat.exists_eq_add_of_le (show run.length + 1 ≤ j' by omega)
          rw [show run.length + i' + 1 = run.length + 1 + i' by omega, isRun_behind run hNot] at hIs
          exact Or.inr ⟨i', j', by omega, by omega, hIs⟩

/-- One run behind the other. -/
theorem Split.increasing (h : Split P base l runs) :
    (∀ r ∈ runs, base ≤ r.1) ∧ runs.Pairwise fun r r' => r.2 < r'.1 := by
  induction h with
  | none => simp
  | last => simp [Nat.add_assoc]
  | @more base gap run rest d runs hGap hSome hRun hNot hRest ih =>
      refine ⟨fun r hr => ?_, List.pairwise_cons.mpr ⟨fun r hr => ?_, ih.2⟩⟩
      · rcases List.mem_cons.mp hr with rfl | hr
        · exact Nat.le_add_right _ _
        · have hLow := ih.1 r hr
          omega
      · have hLow := ih.1 r hr
        exact Nat.lt_of_succ_le hLow

end

end Runs

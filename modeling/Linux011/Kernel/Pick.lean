import Linux011.Kernel.Invariant

/-! What the loop of `schedule` selects: the runnable task with the largest
counter, the highest slot among equals, after a refill when all counters are
zero. -/
namespace Linux011

/-- Slot `s` of 1 to 63 holds a task in state `TASK_RUNNING`. -/
def Runnable (k : Kernel) (s : Nat) : Prop :=
  Occupied k s ∧ (k.heap (k.task s)).state = taskRunning

/-- The counter of the task in slot `s`. -/
def counterOf (k : Kernel) (s : Nat) : Int := (k.heap (k.task s)).counter.toInt

/-- What a refill gives the task in slot `s`. -/
def quantumOf (k : Kernel) (s : Nat) : Int := (quantum (k.heap (k.task s)).priority).toInt

/-- The scan prefers `s`. -/
structure Preferred (k : Kernel) (s : Nat) : Prop where
  runnable : Runnable k s
  best : ∀ s', Runnable k s' →
    counterOf k s' < counterOf k s ∨ counterOf k s' = counterOf k s ∧ s' ≤ s

def Kernel.setCounter (k : Kernel) (p counter : BitVec 32) : Kernel :=
  k.setTask p { k.heap p with counter := counter }

/-- The next tick uses up the time of the running task. -/
def Machine.UsedUp (M : Machine) : Prop :=
  BitVec.slt 0#32 ((M.kernel.heap M.kernel.current).counter - 1#32) = false

/-- The kernel in which `do_timer` calls `schedule`. -/
def Machine.spent (M : Machine) : Kernel := M.kernel.setCounter M.kernel.current 0#32

/-- In ring 3 the last tick of a quantum calls `schedule`. -/
theorem doTimer_usedUp {M : Machine} {cpl : BitVec 32} (hUsed : M.UsedUp) (hUser : cpl ≠ 0#32) :
    doTimer cpl M = schedule ⟨M.spent, M.tr⟩ := by
  rw [doTimer]
  unfold Machine.UsedUp at hUsed
  simp only [hUsed, Bool.false_eq_true, if_false, if_neg hUser]
  rfl

theorem doTimer_kernel {M : Machine} (hUsed : M.UsedUp) : doTimer 0#32 M = .ok ⟨M.spent, M.tr⟩ := by
  rw [doTimer]
  unfold Machine.UsedUp at hUsed
  simp only [hUsed, Bool.false_eq_true, if_false, if_true]
  rfl

/-- Any other tick only charges the running task. -/
theorem doTimer_charged {M : Machine} {cpl : BitVec 32} (hLeft : ¬M.UsedUp) :
    doTimer cpl M = .ok ⟨M.kernel.setCounter M.kernel.current
      ((M.kernel.heap M.kernel.current).counter - 1#32), M.tr⟩ := by
  rw [doTimer]
  exact if_pos (by simpa [Machine.UsedUp] using hLeft)

section

variable {k : Kernel} {i s : Nat}

/-- The scan over slots 1 to `i` keeps its start, or finds a better slot. -/
theorem scan_cases (hi : i < 64) (c : Int) (next : Nat) :
    (k.scan i c next = (c, next) ∧ ∀ s, Runnable k s → s ≤ i → counterOf k s ≤ c) ∨
      ∃ s, k.scan i c next = (counterOf k s, s) ∧ Runnable k s ∧ s ≤ i ∧ c < counterOf k s ∧
        ∀ s', Runnable k s' → s' ≤ i →
          counterOf k s' < counterOf k s ∨ counterOf k s' = counterOf k s ∧ s' ≤ s := by
  induction i generalizing c next with
  | zero =>
      refine Or.inl ⟨rfl, fun s hs hLe => ?_⟩
      have hPos := hs.1.pos
      omega
  | succ i ih =>
      have hSlot {s : Nat} (hLe : s ≤ i + 1) : s = i + 1 ∨ s ≤ i := by omega
      rw [Kernel.scan]
      split_ifs with hBetter
      · obtain ⟨hTask, hState, hCounter⟩ := hBetter
        have hRunnable : Runnable k (i + 1) := ⟨⟨by omega, hi, hTask⟩, hState⟩
        rcases ih (by omega) (counterOf k (i + 1)) (i + 1) with
          ⟨hScan, hAll⟩ | ⟨s, hScan, hs, hLe, hLt, hAll⟩
        · refine Or.inr ⟨i + 1, hScan, hRunnable, Nat.le_refl _, hCounter, fun s' hs' hLe' => ?_⟩
          rcases hSlot hLe' with rfl | hBelow
          · exact Or.inr ⟨rfl, Nat.le_refl _⟩
          · have hMost := hAll s' hs' hBelow
            omega
        · have hStart : c < counterOf k (i + 1) := hCounter
          refine Or.inr ⟨s, hScan, hs, by omega, by omega, fun s' hs' hLe' => ?_⟩
          rcases hSlot hLe' with rfl | hBelow
          · exact Or.inl hLt
          · exact hAll s' hs' hBelow
      · have hTop (hs : Runnable k (i + 1)) : counterOf k (i + 1) ≤ c := by
          by_contra hMore
          exact hBetter ⟨hs.1.task, hs.2, by unfold counterOf at hMore; omega⟩
        rcases ih (by omega) c next with ⟨hScan, hAll⟩ | ⟨s, hScan, hs, hLe, hLt, hAll⟩
        · refine Or.inl ⟨hScan, fun s' hs' hLe' => ?_⟩
          rcases hSlot hLe' with rfl | hBelow
          · exact hTop hs'
          · exact hAll s' hs' hBelow
        · refine Or.inr ⟨s, hScan, hs, by omega, hLt, fun s' hs' hLe' => ?_⟩
          rcases hSlot hLe' with rfl | hBelow
          · have hMost := hTop hs'
            omega
          · exact hAll s' hs' hBelow

theorem Occupied.le (h : Occupied k s) : s ≤ nrTasks - 1 := by
  have hLt := h.lt
  unfold nrTasks
  omega

/-- The scan of `schedule`: nothing is runnable, or the preferred slot wins. -/
theorem scan_preferred (hCounter : ∀ s, Runnable k s → 0 ≤ counterOf k s) :
    ((∀ s, ¬Runnable k s) ∧ k.scan (nrTasks - 1) (-1) 0 = (-1, 0)) ∨
      ∃ s, Preferred k s ∧ k.scan (nrTasks - 1) (-1) 0 = (counterOf k s, s) := by
  rcases scan_cases (k := k) (by decide : nrTasks - 1 < 64) (-1) 0 with
    ⟨hScan, hAll⟩ | ⟨s, hScan, hs, _, _, hAll⟩
  · refine Or.inl ⟨fun s hs => ?_, hScan⟩
    have hNone := hAll s hs hs.1.le
    have hSome := hCounter s hs
    omega
  · exact Or.inr ⟨s, ⟨hs, fun s' hs' => hAll s' hs' hs'.1.le⟩, hScan⟩

/-- A refill changes counters only. -/
theorem refill_frame (i : Nat) (k : Kernel) :
    (k.refill i).mm = k.mm ∧ (k.refill i).task = k.task ∧ (k.refill i).current = k.current ∧
      (k.refill i).lastPid = k.lastPid ∧ (k.refill i).gdt = k.gdt := by
  induction i generalizing k with
  | zero => exact ⟨rfl, rfl, rfl, rfl, rfl⟩
  | succ i ih =>
      rw [Kernel.refill]
      split_ifs
      · exact ih k
      · exact ih _

open Classical in

/-- Every occupied slot up to `i` gets its quantum, whatever its state. -/
theorem refill_heap (i : Nat) (k : Kernel) (p : BitVec 32) :
    (k.refill i).heap p =
      if p ≠ 0#32 ∧ ∃ s, 1 ≤ s ∧ s ≤ i ∧ k.task s = p then
        { k.heap p with counter := quantum (k.heap p).priority }
      else k.heap p := by
  induction i generalizing k with
  | zero =>
      rw [Kernel.refill, if_neg]
      rintro ⟨_, s, hPos, hLe, _⟩
      omega
  | succ i ih =>
      rw [Kernel.refill]
      by_cases hTask : k.task (i + 1) = 0#32
      · rw [if_pos hTask, ih]
        refine if_congr (and_congr_right fun hp => exists_congr fun s => ?_) rfl rfl
        constructor
        · rintro ⟨hPos, hLe, hs⟩
          exact ⟨hPos, by omega, hs⟩
        · rintro ⟨hPos, hLe, hs⟩
          refine ⟨hPos, ?_, hs⟩
          by_contra hLast
          rw [show s = i + 1 by omega] at hs
          exact hp (hs.symm.trans hTask)
      · rw [if_neg hTask, ih]
        simp only [Kernel.setTask_heap, Kernel.setTask_task]
        by_cases hSame : p = k.task (i + 1)
        · subst p
          simp only [Function.update_self, ite_self]
          rw [if_pos ⟨hTask, i + 1, by omega, by omega, rfl⟩]
        · rw [Function.update_of_ne hSame]
          refine if_congr (and_congr_right fun _ => exists_congr fun s => ?_) rfl rfl
          constructor
          · rintro ⟨hPos, hLe, hs⟩
            exact ⟨hPos, by omega, hs⟩
          · rintro ⟨hPos, hLe, hs⟩
            refine ⟨hPos, ?_, hs⟩
            by_contra hLast
            rw [show s = i + 1 by omega] at hs
            exact hSame hs.symm

/-- The kernel after the refill loop of `schedule`. -/
def Kernel.refilled (k : Kernel) : Kernel := k.refill (nrTasks - 1)

theorem refilled_task (k : Kernel) : k.refilled.task = k.task := (refill_frame _ k).2.1

theorem refilled_mm (k : Kernel) : k.refilled.mm = k.mm := (refill_frame _ k).1

theorem refilled_current (k : Kernel) : k.refilled.current = k.current := (refill_frame _ k).2.2.1

open Classical in

/-- Which structures a refill has changed. -/
theorem refilled_heap (k : Kernel) (p : BitVec 32) :
    k.refilled.heap p =
      if p ≠ 0#32 ∧ ∃ s, 1 ≤ s ∧ s ≤ nrTasks - 1 ∧ k.task s = p then
        { k.heap p with counter := quantum (k.heap p).priority }
      else k.heap p := by
  rw [Kernel.refilled, refill_heap]

theorem refilled_slot (hs : Occupied k s) :
    k.refilled.heap (k.task s) =
      { k.heap (k.task s) with counter := quantum (k.heap (k.task s)).priority } := by
  rw [refilled_heap, if_pos ⟨hs.task, s, hs.pos, hs.le, rfl⟩]

theorem occupied_refilled : Occupied k.refilled s ↔ Occupied k s := by
  constructor
  · intro hs
    have hTask := hs.task
    rw [refilled_task] at hTask
    exact ⟨hs.pos, hs.lt, hTask⟩
  · intro hs
    refine ⟨hs.pos, hs.lt, ?_⟩
    rw [refilled_task]
    exact hs.task

theorem runnable_refilled : Runnable k.refilled s ↔ Runnable k s := by
  constructor
  · rintro ⟨hs, hState⟩
    rw [refilled_task, refilled_slot (occupied_refilled.mp hs)] at hState
    exact ⟨occupied_refilled.mp hs, hState⟩
  · rintro ⟨hs, hState⟩
    refine ⟨occupied_refilled.mpr hs, ?_⟩
    rw [refilled_task, refilled_slot hs]
    exact hState

/-- Behind a refill the counter is the quantum. -/
theorem counterOf_refilled (hs : Occupied k s) : counterOf k.refilled s = quantumOf k s := by
  rw [counterOf, refilled_task, refilled_slot hs]
  rfl

/-- `schedule` selects slot 0 when nothing is runnable, the preferred slot when
it has time left, and otherwise the preferred slot after a refill; a third scan
is never needed. -/
theorem pickNext_cases (hCounter : ∀ s, Runnable k s → 0 ≤ counterOf k s)
    (hQuantum : ∀ s, Runnable k s → 0 < quantumOf k s) :
    ((∀ s, ¬Runnable k s) ∧ pickNext 2 k = .ok (0, k)) ∨
      (∃ s, Preferred k s ∧ 0 < counterOf k s ∧ pickNext 2 k = .ok (s, k)) ∨
      ((k.scan (nrTasks - 1) (-1) 0).1 = 0 ∧ (∀ s, Runnable k s → counterOf k s = 0) ∧
        ∃ s, Preferred k.refilled s ∧ pickNext 2 k = .ok (s, k.refilled)) := by
  rcases scan_preferred hCounter with ⟨hNone, hScan⟩ | ⟨s, hs, hScan⟩
  · refine Or.inl ⟨hNone, ?_⟩
    rw [pickNext, hScan]
    rfl
  · have hLeft := hCounter s hs.runnable
    by_cases hZero : counterOf k s = 0
    · refine Or.inr (Or.inr ⟨by rw [hScan]; exact hZero, fun s' hs' => ?_, ?_⟩)
      · have hMost := hs.best s' hs'
        have hLeast := hCounter s' hs'
        omega
      · have hFresh : ∀ s', Runnable k.refilled s' → 0 < counterOf k.refilled s' := by
          intro s' hs'
          have hOld := runnable_refilled.mp hs'
          rw [counterOf_refilled hOld.1]
          exact hQuantum s' hOld
        rcases scan_preferred fun s' hs' => (hFresh s' hs').le with ⟨hNone, _⟩ | ⟨s', hs', hScan'⟩
        · exact absurd (runnable_refilled.mpr hs.runnable) (hNone s)
        · refine ⟨s', hs', ?_⟩
          have hNext := hFresh s' hs'.runnable
          have hRound : pickNext 1 k.refilled = .ok (s', k.refilled) := by
            rw [pickNext, hScan']
            exact if_pos (by omega)
          rw [pickNext, hScan]
          exact (if_neg (not_not.mpr hZero)).trans hRound
    · refine Or.inr (Or.inl ⟨s, hs, by omega, ?_⟩)
      rw [pickNext, hScan]
      exact if_pos hZero

end

attribute [irreducible] Kernel.refilled

end Linux011

import Linux011.Kernel.Quantum

/-! `schedule` for any task table: how many scans it makes, which slot it
selects, and whose counters it sets. -/
namespace Linux011

/-- More rounds than the loop needs do not matter. -/
theorem pickNext_more {k k' : Kernel} {rounds next : Nat} (h : pickNext rounds k = .ok (next, k')) (more : Nat) :
    pickNext (rounds + more) k = .ok (next, k') := by
  induction rounds generalizing k with
  | zero => cases h
  | succ rounds ih =>
      rw [Nat.succ_add_eq_add_succ, Nat.add_succ]
      rcases hScan : k.scan (nrTasks - 1) (-1) 0 with ⟨c, best⟩
      rw [pickNext, hScan] at h ⊢
      by_cases hExit : c = 0
      · exact (if_neg (not_not.mpr hExit)).trans (ih ((if_neg (not_not.mpr hExit)).symm.trans h))
      · exact (if_pos hExit).trans ((if_pos hExit).symm.trans h)

/-- Every occupied slot from 1 on, whatever its state, has got `priority +
priority / 2`, and nothing else has changed: slot 0 and what stands in no slot
keep their counters. -/
structure Refilled (k k' : Kernel) : Prop where
  slots : ∀ s, Occupied k s → ∃ counter : BitVec 32,
    counter.toInt = (k.heap (k.task s)).priority.toInt + (k.heap (k.task s)).priority.toInt / 2 ∧
      k'.heap (k.task s) = { k.heap (k.task s) with counter := counter }
  others : ∀ p, (∀ s, Occupied k s → k.task s ≠ p) → k'.heap p = k.heap p
  frame : k'.mm = k.mm ∧ k'.task = k.task ∧ k'.current = k.current ∧ k'.lastPid = k.lastPid ∧
    k'.gdt = k.gdt

/-- A priority that `schedule` can make a counter of. -/
structure PrioritySound (t : TaskStruct) : Prop where
  pos : 1 ≤ t.priority.toInt
  small : t.priority.toInt + t.priority.toInt / 2 < 2 ^ 31

theorem PrioritySound.quantum_toInt {t : TaskStruct} (h : PrioritySound t) :
    (quantum t.priority).toInt = t.priority.toInt + t.priority.toInt / 2 := by
  obtain ⟨hNat, _⟩ := toNat_of_pos h.pos
  have hSmall := h.small
  rw [Linux011.quantum_toInt h.pos (by omega), hNat]
  omega

theorem refilled_spec {k : Kernel} (hPriority : ∀ s, Occupied k s → PrioritySound (k.heap (k.task s))) :
    Refilled k k.refilled where
  slots := fun s hs => ⟨_, (hPriority s hs).quantum_toInt, refilled_slot hs⟩
  others := by
    intro p hp
    rw [refilled_heap]
    refine if_neg ?_
    rintro ⟨hne, s, hPos, hLe, hTask⟩
    have hLt : s < 64 := by
      unfold nrTasks at hLe
      omega
    exact hp s ⟨hPos, hLt, hTask ▸ hne⟩ hTask
  frame := by
    rw [Kernel.refilled]
    exact refill_frame _ k

/-- `schedule` ends, after at most two scans of the table, and what it selects:
slot 0 when nothing in slots 1 to 63 is runnable; the preferred slot when a
runnable one has time left; and otherwise the preferred slot after a refill. -/
theorem schedule_selects (M : Machine) (hCounter : ∀ s, Occupied M.kernel s → 0 ≤ counterOf M.kernel s)
    (hPriority : ∀ s, Occupied M.kernel s → PrioritySound (M.kernel.heap (M.kernel.task s))) :
    ∃ next k', (∀ rounds, 2 ≤ rounds → pickNext rounds M.kernel = .ok (next, k')) ∧
      schedule M = .ok (switchTo next ⟨k', M.tr⟩) ∧
      ((∀ s, ¬Runnable M.kernel s) → next = 0 ∧ k' = M.kernel) ∧
      ((∃ s, Runnable M.kernel s ∧ 0 < counterOf M.kernel s) → Preferred M.kernel next ∧ k' = M.kernel) ∧
      ((∃ s, Runnable M.kernel s) → (∀ s, Runnable M.kernel s → counterOf M.kernel s = 0) →
        Refilled M.kernel k' ∧ Preferred k' next) := by
  have hFresh : ∀ s, Runnable M.kernel s → 0 < quantumOf M.kernel s := by
    intro s hs
    have hSound := hPriority s hs.1
    have hPos := hSound.pos
    rw [quantumOf, hSound.quantum_toInt]
    omega
  have hCall {next : Nat} {k' : Kernel} (hPick : pickNext 2 M.kernel = .ok (next, k')) :
      (∀ rounds, 2 ≤ rounds → pickNext rounds M.kernel = .ok (next, k')) ∧
        schedule M = .ok (switchTo next ⟨k', M.tr⟩) := by
    refine ⟨fun rounds hRounds => ?_, ?_⟩
    · rw [← Nat.add_sub_of_le hRounds]
      exact pickNext_more hPick _
    · rw [schedule, hPick]
      rfl
  rcases pickNext_cases (fun s hs => hCounter s hs.1) hFresh with
    ⟨hNone, hPick⟩ | ⟨s, hs, hLeft, hPick⟩ | ⟨_, hZero, s, hs, hPick⟩
  · refine ⟨0, M.kernel, (hCall hPick).1, (hCall hPick).2, fun _ => ⟨rfl, rfl⟩, ?_, ?_⟩
    · rintro ⟨s, hs, _⟩
      exact absurd hs (hNone s)
    · rintro ⟨s, hs⟩
      exact absurd hs (hNone s)
  · refine ⟨s, M.kernel, (hCall hPick).1, (hCall hPick).2, fun hNone => ?_, fun _ => ⟨hs, rfl⟩,
      fun _ hZero => ?_⟩
    · exact absurd hs.runnable (hNone s)
    · have hUsed := hZero s hs.runnable
      omega
  · refine ⟨s, M.kernel.refilled, (hCall hPick).1, (hCall hPick).2, fun hNone => ?_, ?_,
      fun _ _ => ⟨refilled_spec hPriority, hs⟩⟩
    · exact absurd (runnable_refilled.mp hs.runnable) (hNone s)
    · rintro ⟨s', hs', hLeft⟩
      have hUsed := hZero s' hs'
      omega

/-- Two tasks with equal counters: the one in the higher slot is selected. -/
theorem schedule_selects_twoTasks :
    ∃ next k', schedule twoTasks = .ok (switchTo next ⟨k', 1⟩) ∧ Preferred twoTasks.kernel next := by
  obtain ⟨next, k', _, hCall, _, hReady, _⟩ := schedule_selects twoTasks
    (fun _ _ => (by decide : 0 ≤ (15#32).toInt))
    fun _ _ => ⟨(by decide : 1 ≤ (15#32).toInt), (by decide : (15#32).toInt + (15#32).toInt / 2 < 2 ^ 31)⟩
  exact ⟨next, k', hCall,
    (hReady ⟨1, twoTasks_ready.running, (by decide : 0 < (15#32).toInt)⟩).1⟩

end Linux011

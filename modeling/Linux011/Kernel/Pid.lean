import Linux011.Kernel.Fork
import Mathlib.Data.Fintype.Pigeonhole

/-! `find_empty_process`: the search for a pid ends after at most as many
rounds as there are slots, and one more. -/
namespace Linux011

/-- The increment as a function of natural numbers: from -1 it gives 0. -/
theorem nextPid_toNat (lastPid : BitVec 32) :
    (nextPid lastPid).toNat =
      if lastPid.toNat + 1 < 0x80000000 then lastPid.toNat + 1
      else if lastPid.toNat = 0xffffffff then 0 else 1 := by
  have hLt := lastPid.isLt
  have hSum : (lastPid + 1#32).toNat = (lastPid.toNat + 1) % 0x100000000 := BitVec.toNat_add _ _
  have hNegative : (lastPid + 1#32).slt 0#32 = decide (0x80000000 ≤ (lastPid + 1#32).toNat) := by
    rw [BitVec.slt_eq_decide, BitVec.toInt_eq_toNat_cond]
    simp only [BitVec.toInt_zero, decide_eq_decide]
    split_ifs <;> omega
  rw [nextPid, hNegative]
  simp only [decide_eq_true_eq, hSum]
  split_ifs <;> simp only [hSum, BitVec.toNat_ofNat] <;> omega

/-- The pids of the search, counted from the first one. -/
theorem nextPid_iterate {first : BitVec 32} (hFirst : first.toNat < 0x80000000) {i : Nat} (hi : i ≤ nrTasks) :
    (nextPid^[i] first).toNat =
      if first.toNat + i < 0x80000000 then first.toNat + i else first.toNat + i - 0x7fffffff := by
  induction i with
  | zero => simp [hFirst]
  | succ i ih =>
      have hPrior := ih (by omega)
      unfold nrTasks at hi
      rw [Function.iterate_succ_apply', nextPid_toNat, hPrior]
      split_ifs <;> omega

theorem nextPid_lt (lastPid : BitVec 32) : (nextPid lastPid).toNat < 0x80000000 := by
  rw [nextPid_toNat]
  split_ifs <;> omega

/-- The pids of one search are different. -/
theorem nextPid_injOn {first : BitVec 32} (hFirst : first.toNat < 0x80000000) {i j : Nat}
    (hi : i ≤ nrTasks) (hj : j ≤ nrTasks) (he : nextPid^[i] first = nextPid^[j] first) : i = j := by
  have hNat := congrArg BitVec.toNat he
  rw [nextPid_iterate hFirst hi, nextPid_iterate hFirst hj] at hNat
  unfold nrTasks at hi hj
  split_ifs at hNat <;> omega

section

variable {k : Kernel} {lastPid pid : BitVec 32}

theorem pidInUse_iff : k.pidInUse pid = true ↔
    ∃ i < nrTasks, k.task i ≠ 0#32 ∧ (k.heap (k.task i)).pid = pid := by
  simp [Kernel.pidInUse]

/-- Which pid a search of `fuel` rounds returns. -/
theorem findPid_ok {fuel : Nat} (h : findPid k fuel lastPid = .ok pid) :
    k.pidInUse pid = false ∧ ∃ i < fuel, pid = nextPid^[i + 1] lastPid := by
  induction fuel generalizing lastPid with
  | zero => exact absurd h (by simp [findPid])
  | succ fuel ih =>
      rw [findPid] at h
      split_ifs at h with hUsed
      · obtain ⟨hFree, i, hi, rfl⟩ := ih h
        exact ⟨hFree, i + 1, by omega, rfl⟩
      · obtain rfl := Except.ok.inj h
        exact ⟨by simpa using hUsed, 0, by omega, rfl⟩

/-- No pid is negative. -/
theorem findPid_msb {fuel : Nat} (h : findPid k fuel lastPid = .ok pid) : pid.msb = false := by
  obtain ⟨_, i, _, rfl⟩ := findPid_ok h
  have hLt := nextPid_lt (nextPid^[i] lastPid)
  rw [Function.iterate_succ_apply', BitVec.msb_eq_decide]
  simp only [decide_eq_false_iff_not]
  omega

/-- A search that does not end has found all its pids in use. -/
theorem findPid_exhausted {fuel : Nat} {stop : Stop} (h : findPid k fuel lastPid = .error stop) :
    ∀ i < fuel, k.pidInUse (nextPid^[i + 1] lastPid) = true := by
  induction fuel generalizing lastPid with
  | zero => exact fun i hi => absurd hi (Nat.not_lt_zero i)
  | succ fuel ih =>
      rw [findPid] at h
      split_ifs at h with hUsed
      intro i hi
      cases i with
      | zero => exact hUsed
      | succ i => exact ih h i (by omega)

/-- 65 different pids cannot all belong to 64 slots. -/
theorem findPid_terminates (k : Kernel) (lastPid : BitVec 32) :
    ∃ pid, findPid k (nrTasks + 1) lastPid = .ok pid := by
  cases hRun : findPid k (nrTasks + 1) lastPid with
  | ok pid => exact ⟨pid, rfl⟩
  | error stop =>
      exfalso
      have hUsed := findPid_exhausted hRun
      have hSlot (i : Fin (nrTasks + 1)) :
          ∃ s : Fin nrTasks, (k.heap (k.task s)).pid = nextPid^[i.val + 1] lastPid := by
        obtain ⟨s, hs, _, hPid⟩ := pidInUse_iff.mp (hUsed i i.isLt)
        exact ⟨⟨s, hs⟩, hPid⟩
      choose slot hPid using hSlot
      obtain ⟨i, j, hne, hSame⟩ := Fintype.exists_ne_map_eq_of_card_lt slot (by simp)
      have hEqual : nextPid^[i.val] (nextPid lastPid) = nextPid^[j.val] (nextPid lastPid) := by
        rw [← Function.iterate_succ_apply, ← Function.iterate_succ_apply, ← hPid i, ← hPid j, hSame]
      exact hne (Fin.ext (nextPid_injOn (nextPid_lt lastPid) (by omega) (by omega) hEqual))

theorem emptySlot_some {i : Nat} (h : k.emptySlot = some i) : 1 ≤ i ∧ i < nrTasks ∧ k.task i = 0#32 := by
  have hMem := List.mem_of_find?_eq_some h
  have hTask := List.find?_some h
  simp only [List.mem_range'_1] at hMem
  simp only [decide_eq_true_eq] at hTask
  unfold nrTasks at *
  exact ⟨by omega, by omega, hTask⟩

theorem emptySlot_none (h : k.emptySlot = none) : ∀ i, 1 ≤ i → i < nrTasks → k.task i ≠ 0#32 := by
  intro i hi hi'
  rw [Kernel.emptySlot, List.find?_eq_none] at h
  have hNone := h i (by simp only [List.mem_range'_1]; unfold nrTasks at *; omega)
  simpa using hNone

/-- `find_empty_process` returns a slot or `-EAGAIN`, and changes `last_pid`
only. -/
theorem findEmptyProcess_slot {pid : BitVec 32} {i : Nat} (hPid : findPid k (nrTasks + 1) k.lastPid = .ok pid)
    (hSlot : k.emptySlot = some i) : findEmptyProcess k = .ok (BitVec.ofNat 32 i, { k with lastPid := pid }) := by
  have hSame : ({ k with lastPid := pid } : Kernel).emptySlot = some i := hSlot
  rw [findEmptyProcess, hPid]
  simp only [bind, Except.bind, hSame]

/-- `find_empty_process` always ends, with the first empty slot or with `-EAGAIN`. -/
theorem findEmptyProcess_cases (k : Kernel) :
    ∃ pid, findPid k (nrTasks + 1) k.lastPid = .ok pid ∧
      ((∃ i, 1 ≤ i ∧ i < nrTasks ∧ k.task i = 0#32 ∧
          findEmptyProcess k = .ok (BitVec.ofNat 32 i, { k with lastPid := pid })) ∨
        (∀ i, 1 ≤ i → i < nrTasks → k.task i ≠ 0#32) ∧
          findEmptyProcess k = .ok (-eagain, { k with lastPid := pid })) := by
  obtain ⟨pid, hRun⟩ := findPid_terminates k k.lastPid
  refine ⟨pid, hRun, ?_⟩
  cases hSlot : k.emptySlot with
  | some i =>
      obtain ⟨hPos, hLt, hTask⟩ := emptySlot_some hSlot
      exact Or.inl ⟨i, hPos, hLt, hTask, findEmptyProcess_slot hRun hSlot⟩
  | none =>
      right
      refine ⟨emptySlot_none hSlot, ?_⟩
      have hSlots : ({ k with lastPid := pid } : Kernel).emptySlot = k.emptySlot := rfl
      rw [findEmptyProcess, hRun]
      simp only [bind, Except.bind, hSlots, hSlot]

end

end Linux011

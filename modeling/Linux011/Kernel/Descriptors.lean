import Linux011.Kernel.Sched

/-! What `sched_init` leaves in the descriptor table, in the task table, and in
the memory behind the descriptor table. -/
namespace Linux011

/-- The table set-up that the comments of `sched_init` describe: the
descriptors of `init_task`, every other slot empty and without descriptors, and
nothing else written. -/
structure SlotsPrepared (image : Image) (k k' : Kernel) : Prop where
  below : ∀ j < firstTssEntry, k'.gdt j = k.gdt j
  initTss : k'.gdt firstTssEntry = tssDesc (tssAddr image.initTask)
  initLdt : k'.gdt firstLdtEntry = ldtDesc (ldtAddr image.initTask)
  cleared : ∀ n, 1 ≤ n → n < nrTasks →
    k'.gdt (firstTssEntry + 2 * n) = ⟨0#32, 0#32⟩ ∧ k'.gdt (firstLdtEntry + 2 * n) = ⟨0#32, 0#32⟩
  initSlot : k'.task 0 = image.initTask
  slots : ∀ n, 1 ≤ n → n < nrTasks → k'.task n = 0#32
  behindGdt : ∀ j, 256 ≤ j → k'.gdt j = k.gdt j
  behindTask : ∀ n, nrTasks ≤ n → k'.task n = k.task n
  rest : k'.mm = k.mm ∧ k'.heap = k.heap ∧ k'.current = k.current ∧ k'.lastPid = k.lastPid

/-- Round `i` clears the entries `p + 4 * i` and `p + 4 * i + 1`: the pointer
has moved by four, not by two. -/
theorem schedInitLoop_gdt (rounds i p : Nat) (k : Kernel) (j : Nat) :
    (schedInitLoop rounds i p k).gdt j =
      if p ≤ j ∧ j < p + 4 * rounds ∧ (j - p) % 4 < 2 then ⟨0#32, 0#32⟩ else k.gdt j := by
  induction rounds generalizing i p k with
  | zero => rw [schedInitLoop, if_neg (by omega)]
  | succ rounds ih =>
      rw [schedInitLoop, ih]
      simp only [Kernel.setGdt, Kernel.setSlot]
      by_cases hSecond : j = p + 1
      · rw [hSecond, Function.update_self, ite_self, if_pos (by omega)]
      · rw [Function.update_of_ne hSecond]
        by_cases hFirst : j = p
        · rw [hFirst, Function.update_self, ite_self, if_pos (by omega)]
        · rw [Function.update_of_ne hFirst]
          exact if_congr (by omega) rfl rfl

section

variable (image : Image) (k : Kernel)

theorem schedInit_task (n : Nat) :
    (schedInit image k).task n = if n < nrTasks then 0#32 else k.task n := by
  rw [schedInit, schedInitLoop_task]
  exact if_congr (by omega) rfl rfl

/-- The exact effect on the table and behind it. Of the slots from 1 on only
the odd ones lose their descriptors, and the entries 256, 259 and 260 lie
outside the table. -/
theorem schedInit_gdt (j : Nat) :
    (schedInit image k).gdt j =
      if 7 ≤ j ∧ j ≤ 260 ∧ (j % 4 = 3 ∨ j % 4 = 0) then ⟨0#32, 0#32⟩
      else if j = firstTssEntry then tssDesc (tssAddr image.initTask)
      else if j = firstLdtEntry then ldtDesc (ldtAddr image.initTask)
      else k.gdt j := by
  have hRange : (2 + firstTssEntry ≤ j ∧ j < 2 + firstTssEntry + 4 * nrTasks ∧
      (j - (2 + firstTssEntry)) % 4 < 2) ↔ 7 ≤ j ∧ j ≤ 260 ∧ (j % 4 = 3 ∨ j % 4 = 0) := by
    unfold firstTssEntry nrTasks
    omega
  rw [schedInit, schedInitLoop_gdt, if_congr hRange rfl rfl]
  refine if_congr Iff.rfl rfl ?_
  simp only [Kernel.setGdt]
  by_cases hLdt : j = firstLdtEntry
  · rw [hLdt, Function.update_self, if_neg (by decide), if_pos rfl]
  · rw [Function.update_of_ne hLdt, if_neg hLdt]
    exact Function.update_apply _ _ _ _

/-- `sched_init` never does what it is for: slot 0 is emptied, whatever the
tables held. -/
theorem schedInit_never_prepares : ¬SlotsPrepared image k (schedInit image k) := by
  intro h
  have hSlot := h.initSlot
  rw [schedInit_task, if_pos (by decide)] at hSlot
  exact image.pos hSlot.symm

end

/-- With every descriptor at `⟨1, 1⟩` before: slot 0 is emptied, slot 2 keeps
its descriptors, and the memory behind the table is overwritten. -/
theorem schedInit_spoils :
    let k : Kernel :=
      { smallKernel 0#16 with
        task := fun n => if n = 0 then smallImage.initTask else 0#32
        gdt := fun _ => ⟨1#32, 1#32⟩ }
    let k' := schedInit smallImage k
    k.task 0 = smallImage.initTask ∧ ¬SlotsPrepared smallImage k k' ∧ k'.task 0 = 0#32 ∧
      k'.gdt (firstTssEntry + 2 * 2) = ⟨1#32, 1#32⟩ ∧ k'.gdt 256 = ⟨0#32, 0#32⟩ ∧ k.gdt 256 = ⟨1#32, 1#32⟩ := by
  intro k k'
  have hSlot : k'.task 0 = 0#32 := by rw [schedInit_task, if_pos (by decide)]
  refine ⟨rfl, fun h => ?_, hSlot, ?_, ?_, rfl⟩
  · exact smallImage.pos (h.initSlot.symm.trans hSlot)
  · rw [schedInit_gdt, if_neg (by decide), if_neg (by decide), if_neg (by decide)]
  · rw [schedInit_gdt, if_pos (by decide)]

end Linux011

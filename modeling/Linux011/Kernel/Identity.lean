import Linux011.Kernel.OutOfMemory

/-! `find_empty_process` for any task table, and the pids of all tasks in every
reachable state. -/
namespace Linux011

/-- `last_pid` is -1 and no task has pid 0: then the next pid is 0, which the
test `< 0` lets through. -/
def ZeroPidNext (k : Kernel) : Prop :=
  k.lastPid = -1#32 ∧ ∀ i < nrTasks, k.task i ≠ 0#32 → (k.heap (k.task i)).pid ≠ 0#32

/-- The pids in the table: positive, different, and `last_pid` never negative. -/
structure PidInvariant (k : Kernel) : Prop where
  last : k.lastPid.toNat < 0x80000000
  pos : ∀ s, Occupied k s → 0 < (k.heap (k.task s)).pid.toInt
  distinct : ∀ s s', Occupied k s → Occupied k s' →
    (k.heap (k.task s)).pid = (k.heap (k.task s')).pid → s = s'

section

variable {k : Kernel} {pid : BitVec 32}

theorem toInt_pos_iff {v : BitVec 32} (h : v.toNat < 0x80000000) : 1 ≤ v.toInt ↔ v ≠ 0#32 := by
  rw [BitVec.toInt_eq_toNat_of_lt (by omega), ne_eq, ← BitVec.toNat_inj, BitVec.toNat_ofNat]
  omega

theorem findPid_lt (hRun : findPid k (nrTasks + 1) k.lastPid = .ok pid) : pid.toNat < 0x80000000 := by
  obtain ⟨_, i, _, rfl⟩ := findPid_ok hRun
  rw [Function.iterate_succ_apply']
  exact nextPid_lt _

theorem findPid_unused (hRun : findPid k (nrTasks + 1) k.lastPid = .ok pid) :
    ∀ i < nrTasks, k.task i ≠ 0#32 → (k.heap (k.task i)).pid ≠ pid := by
  intro i hi hTask hPid
  have hFree := (findPid_ok hRun).1
  rw [pidInUse_iff.mpr ⟨i, hi, hTask, hPid⟩] at hFree
  exact absurd hFree (by simp)

/-- Only -1 is followed by 0, and a search that goes on moves to 1. -/
theorem findPid_pos (hRun : findPid k (nrTasks + 1) k.lastPid = .ok pid) (hNext : ¬ZeroPidNext k) :
    1 ≤ pid.toInt := by
  rw [toInt_pos_iff (findPid_lt hRun)]
  rintro rfl
  have hUnused := findPid_unused hRun
  obtain ⟨_, i, hi, hZero⟩ := findPid_ok hRun
  apply hNext
  refine ⟨?_, hUnused⟩
  rw [Function.iterate_succ_apply] at hZero
  have hNat := congrArg BitVec.toNat hZero
  rw [nextPid_iterate (nextPid_lt _) (by omega), nextPid_toNat, BitVec.toNat_ofNat] at hNat
  apply BitVec.eq_of_toNat_eq
  rw [show (-1#32).toNat = 0xffffffff by decide]
  split_ifs at hNat <;> omega

end

section Runs

variable {extMemK : BitVec 16} {image : Image} {k k' : Kernel} {p : Nat} {regs : ForkFrame}

theorem PidInvariant.next (h : PidInvariant k) : ¬ZeroPidNext k := by
  rintro ⟨hLast, _⟩
  have hLt := h.last
  rw [hLast] at hLt
  exact absurd hLt (by decide)

/-- The same table and the same pids. -/
theorem PidInvariant.congr (h : PidInvariant k) (hTask : k'.task = k.task)
    (hHeap : ∀ s, Occupied k s → k'.heap (k.task s) = k.heap (k.task s))
    (hLast : k'.lastPid.toNat < 0x80000000) : PidInvariant k' := by
  have hOld {s : Nat} (hs : Occupied k' s) : Occupied k s := ⟨hs.pos, hs.lt, hTask ▸ hs.task⟩
  refine ⟨hLast, fun s hs => ?_, fun s s' hs hs' hSame => ?_⟩
  · rw [hTask, hHeap s (hOld hs)]
    exact h.pos s (hOld hs)
  · rw [hTask, hHeap s (hOld hs), hHeap s' (hOld hs')] at hSame
    exact h.distinct s s' (hOld hs) (hOld hs') hSame

/-- The child gets the pid that the search found unused. -/
theorem PidInvariant.made (h : PidInvariant k) (hKernel : KernelInvariant extMemK image k) {nr : Nat}
    {pid : BitVec 32} (hRun : findPid k (nrTasks + 1) k.lastPid = .ok pid)
    (hMade : ForkMade extMemK p nr regs { k with lastPid := pid } k') : PidInvariant k' := by
  obtain ⟨i, hi, hFree, hTask, hHeap, _⟩ := hMade.page
  obtain ⟨_, hOthers⟩ := hKernel.page_fresh hi hFree
  have hPos := findPid_pos hRun h.next
  have hUnused := findPid_unused hRun
  have hChild : (k'.heap (k'.task nr)).pid = pid := by
    rw [hHeap, hTask, Function.update_self, Function.update_self]
    rfl
  have hOld {s : Nat} (hs : Occupied k' s) (hne : s ≠ nr) :
      Occupied k s ∧ k'.heap (k'.task s) = k.heap (k.task s) := by
    have hSame : k'.task s = k.task s := by rw [hTask, Function.update_of_ne hne]
    have hOccupied : Occupied k s := ⟨hs.pos, hs.lt, by rw [← hSame]; exact hs.task⟩
    refine ⟨hOccupied, ?_⟩
    rw [hSame, hHeap, Function.update_of_ne (hOthers s hOccupied)]
  constructor
  · rw [hMade.lastPid]
    exact findPid_lt hRun
  · intro s hs
    by_cases hSame : s = nr
    · rw [hSame, hChild]
      omega
    · obtain ⟨hOccupied, hStruct⟩ := hOld hs hSame
      rw [hStruct]
      exact h.pos s hOccupied
  · intro s s' hs hs' hPid
    by_cases hSame : s = nr
    · by_cases hSame' : s' = nr
      · rw [hSame, hSame']
      · obtain ⟨hOccupied, hStruct⟩ := hOld hs' hSame'
        rw [hSame, hChild, hStruct] at hPid
        exact absurd hPid.symm (hUnused s' hOccupied.lt hOccupied.task)
    · obtain ⟨hOccupied, hStruct⟩ := hOld hs hSame
      rw [hStruct] at hPid
      by_cases hSame' : s' = nr
      · rw [hSame', hChild] at hPid
        exact absurd hPid (hUnused s hOccupied.lt hOccupied.task)
      · obtain ⟨hOccupied', hStruct'⟩ := hOld hs' hSame'
        rw [hStruct'] at hPid
        exact h.distinct s s' hOccupied hOccupied' hPid

theorem Reaches.pids {forks : Nat} (run : Reaches extMemK image k forks) : PidInvariant k := by
  induction run with
  | boot m heap gdt =>
      have hNone (s : Nat) (hs : Occupied (bootKernel extMemK image m heap gdt) s) : False :=
        hs.task (bootKernel_task extMemK image m heap gdt s)
      refine ⟨?_, fun s hs => (hNone s hs).elim, fun s _ hs => (hNone s hs).elim⟩
      rw [bootKernel_lastPid]
      decide
  | @fork k k' forks s ram regs result prior live provided call ih =>
      have hStart : PidInvariant { k with current := taskAddr image k s } :=
        ih.congr rfl (fun _ _ => rfl) ih.last
      have hKernel := prior.inv
      have hResult := hKernel.forkResult live provided call
      cases hResult with
      | noSlot search _ => exact hStart.congr rfl (fun _ _ => rfl) (findPid_lt search)
      | made search _ _ made => exact hStart.made (hKernel.set_current _) search made
  | fault prior live inside maps readOnly free call ih => exact ih.congr rfl (fun _ _ => rfl) ih.last
  | store prior live inside writable v ih => exact ih.congr rfl (fun _ _ => rfl) ih.last

end Runs

end Linux011

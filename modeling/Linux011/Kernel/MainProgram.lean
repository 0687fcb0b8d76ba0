import Linux011.Kernel.Capacity

/-! `main` behind `move_to_user_mode`: the two forks, and the three tasks that come of them. -/
namespace Linux011

open I386

/-- What `_syscall0` returns when `int $0x80` has left `res` in `eax`; the error goes to `errno`. -/
def syscall0 (res : BitVec 32) : BitVec 32 := if 0 ≤ res.toInt then res else -1#32

/-- Where a task is: in front of a `fork()` of `main`, in `test_a` or `test_b`, or in the loop that
`main` returns to. -/
inductive Point where
  | firstFork
  | secondFork
  | testA
  | testB
  | loop
  deriving DecidableEq, Repr

/-- `main` with what a fork has left in `eax`. -/
def Point.after : Point → BitVec 32 → Point
  | .firstFork, res => if syscall0 res = 0#32 then .secondFork else .loop
  | .secondFork, res => if syscall0 res = 0#32 then .testB else .testA
  | p, _ => p

def Point.Forks (p : Point) : Prop := p = .firstFork ∨ p = .secondFork

def points : List Seen → Nat → Option Point
  | [] => Function.update (fun _ => none) 0 (some .firstFork)
  | .own _ _ :: past => points past
  | .fork s result none :: past => Function.update (points past) s ((points past s).map (·.after result))
  | .fork s result (some child) :: past =>
      Function.update (Function.update (points past) s ((points past s).map (·.after result))) child
        ((points past s).map (·.after 0#32))

/-- Where the linker has put `gdt` and the text of `main` and `fork`. -/
structure Layout where
  gdt : Nat
  text : Nat
  textEnd : Nat

/-- No entry behind the table that `sched_init` writes lies in the text. -/
def Layout.Intact (layout : Layout) : Prop :=
  ∀ extMemK image m heap gdt j, 256 ≤ j → (bootKernel extMemK image m heap gdt).gdt j ≠ gdt j →
    layout.gdt + 8 * j + 8 ≤ layout.text ∨ layout.textEnd ≤ layout.gdt + 8 * j

/-- Where the tasks are after `n` forks. -/
def stage : Nat → List Point
  | 0 => [.firstFork]
  | 1 => [.loop, .secondFork]
  | _ => [.loop, .testA, .testB]

/-- Slots 1 to `n` are occupied, each by a child of the slot below, and the pids are the slots. -/
structure Numbered (image : Image) (k : Kernel) (n : Nat) : Prop where
  slots : ∀ s, Occupied k s ↔ 1 ≤ s ∧ s ≤ n
  lastPid : k.lastPid = BitVec.ofNat 32 n
  pid : ∀ s ≤ n, (k.heap (taskAddr image k s)).pid = BitVec.ofNat 32 s
  parent : ∀ s < n, (k.heap (taskAddr image k (s + 1))).pPptr = taskAddr image k s

/-- `sched_init` goes over the end of the table, to the entries 256, 259 and 260. -/
theorem intact_iff (layout : Layout) : layout.Intact ↔ ∀ j, j = 256 ∨ j = 259 ∨ j = 260 →
    layout.gdt + 8 * j + 8 ≤ layout.text ∨ layout.textEnd ≤ layout.gdt + 8 * j := by
  have hAll (extMemK : BitVec 16) (image : Image) (m : ByteMemory.Memory) (heap : BitVec 32 → TaskStruct)
      (gdt : Nat → Desc) {j : Nat} (hj : 256 ≤ j) : (bootKernel extMemK image m heap gdt).gdt j =
      if j = 256 ∨ j = 259 ∨ j = 260 then ⟨0#32, 0#32⟩ else gdt j := by
    refine (schedInit_gdt ..).trans ?_
    rw [if_neg (c := j = firstTssEntry) (by unfold firstTssEntry; omega),
      if_neg (c := j = firstLdtEntry) (by unfold firstLdtEntry firstTssEntry; omega)]
    refine if_congr ?_ rfl rfl
    omega
  constructor
  · intro hIntact j hj
    refine hIntact 0#16 smallImage (fun _ => 0) (fun _ => initTask smallImage) (fun _ => ⟨1#32, 1#32⟩) j (by omega) ?_
    rw [hAll _ _ _ _ _ (by omega), if_pos hj]
    decide
  · intro hApart extMemK image m heap gdt j hj hNe
    rw [hAll _ _ _ _ _ hj] at hNe
    split_ifs at hNe with hCleared
    · exact hApart j hCleared
    · exact absurd rfl hNe

/-- A `fork` that comes right behind the table loses its first eight bytes. -/
theorem not_intact {layout : Layout} (hStart : layout.text ≤ layout.gdt + 2048)
    (hEnd : layout.gdt + 2048 < layout.textEnd) :
    ¬layout.Intact := by
  intro hIntact
  have hFirst := (intact_iff layout).mp hIntact 256 (Or.inl rfl)
  omega

section

variable {text : Text} {layout : Layout} {extMemK : BitVec 16} {image : Image} {k k' : Kernel} {P : Processor}
  {A : Nat → Option Context} {x y : Context} {past : List Seen} {n : Nat}

namespace Numbered

theorem live (h : Numbered image k n) {s : Nat} : Live k s ↔ s ≤ n := by
  rw [Live, h.slots]
  omega

theorem boot (m : ByteMemory.Memory) (heap : BitVec 32 → TaskStruct) (gdt : Nat → Desc) :
    Numbered image (bootKernel extMemK image m heap gdt) 0 := by
  refine ⟨fun s => ?_, bootKernel_lastPid extMemK image m heap gdt, fun s hs => ?_, fun s hs => by omega⟩
  · refine iff_of_false (fun hs => hs.task (bootKernel_task extMemK image m heap gdt s)) ?_
    omega
  · obtain rfl : s = 0 := by omega
    rw [bootKernel_heap, taskAddr, if_pos rfl, Function.update_self]
    rfl

theorem congr (h : Numbered image k n) (hTask : k'.task = k.task) (hLast : k'.lastPid = k.lastPid)
    (hHeap : ∀ p, (k'.heap p).pid = (k.heap p).pid ∧ (k'.heap p).pPptr = (k.heap p).pPptr) :
    Numbered image k' n := by
  refine ⟨fun s => ?_, hLast.trans h.lastPid, fun s hs => ?_, fun s hs => ?_⟩
  · rw [← h.slots]
    exact ⟨fun hs => ⟨hs.pos, hs.lt, hTask ▸ hs.task⟩, fun hs => ⟨hs.pos, hs.lt, hTask ▸ hs.task⟩⟩
  · rw [taskAddr_congr hTask, (hHeap _).1]
    exact h.pid s hs
  · rw [taskAddr_congr hTask, taskAddr_congr hTask, (hHeap _).2]
    exact h.parent s hs

theorem ticked {p : BitVec 32} (h : Numbered image k n) (hTicked : Ticked p k k') : Numbered image k' n := by
  refine h.congr hTicked.task hTicked.lastPid fun p => ?_
  obtain ⟨_, _, hHeap⟩ := hTicked.heap p
  rw [hHeap]
  exact ⟨rfl, rfl⟩

theorem processor (h : Numbered image k n) (x : Context) (stack : BitVec 32 → Stream' (BitVec 16)) :
    Numbered image (bootProcessor k x stack).kernel n :=
  h.congr rfl rfl fun _ => ⟨rfl, rfl⟩

theorem card_slots (h : Numbered image k n) (hKernel : KernelInvariant extMemK image k) : k.slots.card = n := by
  have hSlots : k.slots = Finset.Ico 1 (n + 1) := by
    ext s
    rw [hKernel.mem_slots, h.slots, Finset.mem_Ico]
    omega
  rw [hSlots, Nat.card_Ico]
  omega

/-- The search starts behind the slots that are taken. -/
theorem emptySlot (h : Numbered image k n) (hFew : n < 63) : k.emptySlot = some (n + 1) := by
  have hTaken {s : Nat} (hPos : 1 ≤ s) (hLe : s ≤ n) : k.task s ≠ 0#32 := ((h.slots s).mpr ⟨hPos, hLe⟩).task
  have hEmpty : k.task (n + 1) = 0#32 := by
    by_contra hTask
    have hLe := ((h.slots (n + 1)).mp ⟨by omega, by omega, hTask⟩).2
    omega
  have hSplit : List.range' 1 (nrTasks - 1) = List.range' 1 n ++ (n + 1) :: List.range' (n + 2) (62 - n) := by
    have hTail : (n + 1) :: List.range' (n + 2) (62 - n) = List.range' (1 + n) (62 - n + 1) := by
      rw [List.range'_succ, Nat.add_comm 1 n]
    rw [hTail, List.range'_append_1]
    congr 1
    unfold nrTasks
    omega
  rw [Kernel.emptySlot, hSplit, List.find?_append, List.find?_eq_none.mpr, Option.none_or, List.find?_cons_of_pos]
  · simpa using hEmpty
  · intro s hs
    obtain ⟨hPos, hLt⟩ := List.mem_range'_1.mp hs
    simpa using hTaken hPos (by omega)

theorem findPid (h : Numbered image k n) (hFew : n < 63) (hZero : k.task 0 = 0#32) :
    findPid k (nrTasks + 1) k.lastPid = .ok (BitVec.ofNat 32 (n + 1)) := by
  have hNext : nextPid k.lastPid = BitVec.ofNat 32 (n + 1) := by
    apply BitVec.eq_of_toNat_eq
    rw [nextPid_toNat, h.lastPid, BitVec.toNat_ofNat, BitVec.toNat_ofNat, Nat.mod_eq_of_lt (by omega),
      Nat.mod_eq_of_lt (by omega), if_pos (by omega)]
  have hFree : k.pidInUse (BitVec.ofNat 32 (n + 1)) = false := by
    rw [← Bool.not_eq_true, pidInUse_iff]
    rintro ⟨s, hs, hTask, hPid⟩
    have hPos : 1 ≤ s := Nat.one_le_iff_ne_zero.mpr fun h0 => hTask (h0 ▸ hZero)
    have hOccupied : Occupied k s := ⟨hPos, hs, hTask⟩
    have hLe := ((h.slots s).mp hOccupied).2
    have hSame := h.pid s hLe
    rw [hOccupied.taskAddr, hPid] at hSame
    have hNat := congrArg BitVec.toNat hSame
    rw [BitVec.toNat_ofNat, BitVec.toNat_ofNat] at hNat
    omega
  rw [Linux011.findPid, hNext, hFree]
  rfl

/-- A fork by the last task. -/
theorem made (h : Numbered image k n) (hKernel : KernelInvariant extMemK image k) (hFew : n < 63)
    (hCurrent : k.current = taskAddr image k n) {regs : ForkFrame}
    (hMade : ForkMade extMemK n (n + 1) regs { k with lastPid := BitVec.ofNat 32 (n + 1) } k') :
    Numbered image k' (n + 1) := by
  have hEmpty : k.task (n + 1) = 0#32 := (emptySlot_some (h.emptySlot hFew)).2.2
  have hGrown := hKernel.grown ⟨by omega, by omega⟩ hEmpty hMade
  have hOld {s : Nat} (hs : s ≤ n) := hGrown.keeps s (h.live.mpr hs)
  refine ⟨fun s => ?_, hMade.lastPid, fun s hs => ?_, fun s hs => ?_⟩
  · constructor
    · intro hs
      have hLe : s ≤ n + 1 := by
        rcases hGrown.back s (Or.inr hs) with rfl | hLive
        · exact Nat.le_refl _
        · exact Nat.le_succ_of_le (h.live.mp hLive)
      exact ⟨hs.pos, hLe⟩
    · rintro ⟨hPos, hLe⟩
      by_cases hNew : s = n + 1
      · exact hNew ▸ hGrown.child
      · exact (hOld (s := s) (by omega)).2.1.resolve_left (by omega)
  · by_cases hNew : s = n + 1
    · rw [hNew, hGrown.struct]
      rfl
    · obtain ⟨_, _, hSame, hKept⟩ := hOld (s := s) (by omega)
      rw [hSame, hKept]
      exact h.pid s (by omega)
  · obtain ⟨_, _, hParent, _⟩ := hOld (s := s) (by omega)
    rw [hParent]
    by_cases hNew : s = n
    · rw [hNew, hGrown.struct]
      exact hCurrent
    · obtain ⟨_, _, hSame, hKept⟩ := hOld (s := s + 1) (by omega)
      rw [hSame, hKept]
      exact h.parent s (by omega)

end Numbered

/-- A run after `n` forks. -/
structure MainState (image : Image) (k : Kernel) (past : List Seen) (n : Nat) : Prop where
  few : n ≤ 2
  numbered : Numbered image k n
  points : ∀ s, points past s = (stage n)[s]?

/-- Only the last task is in front of a fork. -/
theorem stage_forks {s : Nat} {p : Point} (hFew : n ≤ 2) (hPoint : (stage n)[s]? = some p) (hForks : p.Forks) :
    n < 2 ∧ s = n := by
  have hMem := List.mem_of_getElem? hPoint
  have hLt := (List.getElem?_eq_some_iff.mp hPoint).1
  rcases n with _ | _ | n
  · exact ⟨by omega, Nat.lt_one_iff.mp hLt⟩
  · refine ⟨by omega, ?_⟩
    by_contra hZero
    obtain rfl : s = 0 := by
      change s < 2 at hLt
      omega
    obtain rfl := Option.some.inj hPoint
    exact absurd hForks (by simp [Point.Forks])
  · rcases hForks with rfl | rfl <;>
      simp [stage] at hMem

namespace MainState

theorem congr (h : MainState image k past n) (hNumbered : Numbered image k' n) : MainState image k' past n :=
  ⟨h.few, hNumbered, h.points⟩

theorem room (h : MainState image P.kernel past n) (run : Shared text extMemK image x P past) :
    (pool extMemK).card ≤ P.kernel.mm.freePages.card + taskPages * n := by
  have hPool := run.pool_le
  rwa [h.numbered.card_slots run.sharing.sched.kernel] at hPool

/-- A fork in front of which the running task is succeeds. -/
theorem fork (h : MainState image P.kernel past n) (run : Shared text extMemK image x P past)
    (hPool : 2 * taskPages < (pool extMemK).card) (env : Surroundings) (hEax : P.context.reg .eax = 2#32)
    (hBases : BasesRead env.ram P.kernel) {p : Point} (hPoint : Linux011.points past P.tr = some p) (hForks : p.Forks) :
    ∃ k', int80 env P.context P.kernel = .ok (returning P.context (BitVec.ofNat 32 (n + 1)), k') ∧
      started P.kernel k' = some (n + 1) ∧ Numbered image k' (n + 1) ∧ n < 2 ∧ P.tr = n := by
  obtain ⟨hLt, hTr⟩ := stage_forks h.few ((h.points P.tr).symm.trans hPoint) hForks
  have hKernel : KernelInvariant extMemK image P.kernel := run.sharing.sched.kernel
  have hCurrent : P.kernel.current = taskAddr image P.kernel P.tr := run.sharing.sched.current
  have hRoom := h.room run
  have hEnough : 5 ≤ P.kernel.mm.freePages.card := by
    unfold taskPages at hPool hRoom
    omega
  obtain ⟨pid, k', hPid, hMade, hCall, hStarted⟩ :=
    run.sharing.fork_room env hEax (h.numbered.emptySlot (by omega)) ⟨hBases, hEnough⟩
  obtain rfl : pid = BitVec.ofNat 32 (n + 1) :=
    Except.ok.inj (hPid.symm.trans (h.numbered.findPid (by omega) hKernel.slotZero))
  rw [hTr] at hMade hCurrent
  exact ⟨k', hCall, hStarted, h.numbered.made hKernel (by omega) hCurrent hMade, hLt, hTr⟩

end MainState

end

end Linux011

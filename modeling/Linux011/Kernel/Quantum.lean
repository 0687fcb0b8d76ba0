import Linux011.Kernel.Pick
import Linux011.Library.Rounds
import Mathlib.Data.List.Sort
import Mathlib.Algebra.Order.BigOperators.Group.Finset

/-! Ticks in user mode while the runnable tasks stay runnable: `do_timer` and
`schedule` serve them in rounds, each for the quantum of its priority. -/
namespace Linux011

open Rounds

/-- `priority + priority / 2`, what a refill gives to slot `s`. -/
def quota (k : Kernel) (s : Nat) : Nat :=
  (k.heap (k.task s)).priority.toNat + (k.heap (k.task s)).priority.toNat / 2

/-- The order in which `schedule` prefers fresh quanta. -/
def Before (k : Kernel) (s s' : Nat) : Prop :=
  quota k s' < quota k s ∨ quota k s' = quota k s ∧ s' < s

/-- The kernel after one tick in user mode. -/
def tick (M : Machine) : Machine :=
  match doTimer 3#32 M with
  | .ok M' => M'
  | .error _ => M

/-- A tick that strikes now makes `schedule` refill the counters. -/
def Refills (M : Machine) : Prop :=
  M.UsedUp ∧ (M.spent.scan (nrTasks - 1) (-1) 0).1 = 0

/-- The running task is one of the runnable tasks of slots 1 to 63, each in a
slot of its own, with sensible counters and priorities. -/
structure Ready (M : Machine) : Prop where
  distinct : ∀ s s', Occupied M.kernel s → Occupied M.kernel s' →
    M.kernel.task s = M.kernel.task s' → s = s'
  running : Runnable M.kernel M.tr
  current : M.kernel.current = M.kernel.task M.tr
  counter : ∀ s, Runnable M.kernel s → 0 ≤ counterOf M.kernel s
  priority : ∀ s, Runnable M.kernel s → 1 ≤ (M.kernel.heap (M.kernel.task s)).priority.toInt
  small : ∀ s, Runnable M.kernel s → quota M.kernel s < 0x80000000

/-- Only counters have changed. -/
structure Steady (k k' : Kernel) : Prop where
  task : k'.task = k.task
  heap : ∀ s, Occupied k s → ∃ counter, k'.heap (k.task s) = { k.heap (k.task s) with counter := counter }

section

variable {k k' k'' : Kernel} {M : Machine} {s : Nat} {cpl : BitVec 32}

theorem toNat_of_pos {v : BitVec 32} (h : 1 ≤ v.toInt) : v.toInt = v.toNat ∧ v.msb = false := by
  have hMsb : v.msb = false := by
    by_contra hNegative
    have hToInt := BitVec.toInt_eq_msb_cond v
    have hLt := v.isLt
    rw [if_pos (by simpa using hNegative)] at hToInt
    omega
  exact ⟨by rw [BitVec.toInt_eq_msb_cond, hMsb]; rfl, hMsb⟩

theorem quantum_toInt {priority : BitVec 32} (hPos : 1 ≤ priority.toInt)
    (hSmall : priority.toNat + priority.toNat / 2 < 0x80000000) :
    (quantum priority).toInt = (priority.toNat + priority.toNat / 2 : Nat) := by
  obtain ⟨_, hMsb⟩ := toNat_of_pos hPos
  have hNat : (quantum priority).toNat = priority.toNat + priority.toNat / 2 := by
    rw [quantum, BitVec.sshiftRight_eq_of_msb_false hMsb, BitVec.toNat_add, BitVec.toNat_ushiftRight,
      Nat.shiftRight_eq_div_pow]
    omega
  rw [BitVec.toInt_eq_toNat_of_lt (by omega), hNat]

theorem dec_toInt {c : BitVec 32} (h : 0 ≤ c.toInt) : (c - 1#32).toInt = c.toInt - 1 := by
  have hHigh := BitVec.toInt_lt (x := c)
  rw [BitVec.toInt_sub, show (1#32).toInt = 1 from rfl]
  exact Int.bmod_eq_of_le (by omega) (by omega)

namespace Steady

theorem refl (k : Kernel) : Steady k k := ⟨rfl, fun _ _ => ⟨_, rfl⟩⟩

theorem occupied (h : Steady k k') : Occupied k' s ↔ Occupied k s := by
  constructor
  · exact fun hs => ⟨hs.pos, hs.lt, by rw [← h.task]; exact hs.task⟩
  · exact fun hs => ⟨hs.pos, hs.lt, by rw [h.task]; exact hs.task⟩

theorem trans (h : Steady k k') (h' : Steady k' k'') : Steady k k'' := by
  refine ⟨h'.task.trans h.task, fun s hs => ?_⟩
  obtain ⟨_, hFirst⟩ := h.heap s hs
  obtain ⟨counter, hSecond⟩ := h'.heap s (h.occupied.mpr hs)
  rw [h.task, hFirst] at hSecond
  exact ⟨counter, hSecond⟩

theorem runnable (h : Steady k k') : Runnable k' s ↔ Runnable k s := by
  unfold Runnable
  rw [h.occupied]
  refine and_congr_right fun hs => ?_
  obtain ⟨_, hHeap⟩ := h.heap s hs
  rw [h.task, hHeap]

theorem quota_eq (h : Steady k k') (hs : Occupied k s) : quota k' s = quota k s := by
  obtain ⟨_, hHeap⟩ := h.heap s hs
  rw [quota, h.task, hHeap, quota]

theorem set_current (h : Steady k k') (p : BitVec 32) : Steady k { k' with current := p } := ⟨h.task, h.heap⟩

theorem setCounter (k : Kernel) (p counter : BitVec 32) : Steady k (k.setCounter p counter) := by
  refine ⟨rfl, fun s _ => ?_⟩
  rw [Kernel.setCounter, Kernel.setTask_heap]
  by_cases hSame : k.task s = p
  · rw [hSame, Function.update_self]
    exact ⟨counter, rfl⟩
  · rw [Function.update_of_ne hSame]
    exact ⟨_, rfl⟩

theorem refilled (k : Kernel) : Steady k k.refilled :=
  ⟨refilled_task k, fun _ hs => ⟨_, refilled_slot hs⟩⟩

end Steady

theorem runnable_set_current {p : BitVec 32} : Runnable { k with current := p } s ↔ Runnable k s :=
  ((Steady.refl k).set_current p).runnable

theorem counterOf_set_current {p : BitVec 32} : counterOf { k with current := p } s = counterOf k s := rfl

theorem counterOf_setCounter {s' : Nat} {counter : BitVec 32}
    (hDistinct : ∀ s s', Occupied k s → Occupied k s' → k.task s = k.task s' → s = s')
    (hs : Occupied k s) (hs' : Occupied k s') :
    counterOf (k.setCounter (k.task s') counter) s = if s = s' then counter.toInt else counterOf k s := by
  rw [counterOf, Kernel.setCounter, Kernel.setTask_heap, Kernel.setTask_task]
  split_ifs with hSame
  · rw [hSame, Function.update_self]
  · rw [Function.update_of_ne fun hTask => hSame (hDistinct s s' hs hs' hTask)]
    rfl

theorem Ready.quantumOf_eq (h : Ready M) (hSteady : Steady M.kernel k) (hs : Runnable k s) :
    quantumOf k s = quota M.kernel s := by
  have hOld := hSteady.runnable.mp hs
  obtain ⟨_, hHeap⟩ := hSteady.heap s hOld.1
  rw [quantumOf, hSteady.task, hHeap]
  exact quantum_toInt (h.priority s hOld) (h.small s hOld)

theorem Ready.quota_pos (h : Ready M) (hs : Runnable M.kernel s) : 1 ≤ quota M.kernel s := by
  have hPos := h.priority s hs
  have hNat := (toNat_of_pos hPos).1
  unfold quota
  omega

/-- Only counters differ, and `s` runs. -/
theorem Ready.steady (h : Ready M) (hSteady : Steady M.kernel k) (hCurrent : k.current = k.task s)
    (hs : Runnable k s) (hCounter : ∀ s', Runnable k s' → 0 ≤ counterOf k s') : Ready ⟨k, s⟩ where
  distinct := by
    intro a b ha hb hTask
    rw [hSteady.task] at hTask
    exact h.distinct a b (hSteady.occupied.mp ha) (hSteady.occupied.mp hb) hTask
  running := hs
  current := hCurrent
  counter := hCounter
  priority := by
    intro a ha
    have hOld := hSteady.runnable.mp ha
    obtain ⟨_, hHeap⟩ := hSteady.heap a hOld.1
    dsimp only
    rw [hSteady.task, hHeap]
    exact h.priority a hOld
  small := by
    intro a ha
    have hOld := hSteady.runnable.mp ha
    dsimp only
    rw [hSteady.quota_eq hOld.1]
    exact h.small a hOld

theorem Machine.steady_spent (M : Machine) : Steady M.kernel M.spent := Steady.setCounter _ _ _

theorem Ready.counterOf_spent (h : Ready M) (hs : Occupied M.kernel s) :
    counterOf M.spent s = if s = M.tr then 0 else counterOf M.kernel s := by
  rw [Machine.spent, h.current, counterOf_setCounter h.distinct hs h.running.1]
  rfl

theorem Ready.counter_spent (h : Ready M) (hs : Runnable M.spent s) : 0 ≤ counterOf M.spent s := by
  have hOld := M.steady_spent.runnable.mp hs
  rw [h.counterOf_spent hOld.1]
  split_ifs
  · exact Int.le_refl 0
  · exact h.counter s hOld

/-- `switch_to` to a task of the table; the running one stays where it is. -/
theorem switchTo_eq {tr : Nat} (hDistinct : k.task s = k.task tr → s = tr) (hCurrent : k.current = k.task tr) :
    switchTo s ⟨k, tr⟩ = ⟨{ k with current := k.task s }, s⟩ := by
  rw [switchTo]
  split_ifs with hSame
  · obtain rfl := hDistinct (hSame.trans hCurrent)
    rw [← hCurrent]
  · rfl

theorem Ready.schedule_eq (h : Ready M) (hSteady : Steady M.kernel k) (hCurrent : k.current = M.kernel.current)
    {k₀ : Kernel} (hPick : pickNext 2 k₀ = .ok (s, k)) (hs : Runnable k s) :
    schedule ⟨k₀, M.tr⟩ = .ok ⟨{ k with current := M.kernel.task s }, s⟩ := by
  have hTask := hSteady.task
  rw [schedule, hPick, ← hTask]
  refine congrArg Except.ok (switchTo_eq (fun hSame => ?_) ?_)
  · rw [hTask] at hSame
    exact h.distinct s M.tr (hSteady.occupied.mp hs.1) h.running.1 hSame
  · rw [hCurrent, hTask]
    exact h.current

/-- What a tick in user mode does: it charges the running task; when nothing is
left of its quantum it switches, after a refill when nobody has anything
left. -/
theorem Ready.doTimer_cases (h : Ready M) (hUser : cpl ≠ 0#32) :
    (1 < counterOf M.kernel M.tr ∧ ¬Refills M ∧
        doTimer cpl M = .ok ⟨M.kernel.setCounter M.kernel.current
          ((M.kernel.heap M.kernel.current).counter - 1#32), M.tr⟩) ∨
      (counterOf M.kernel M.tr ≤ 1 ∧ ¬Refills M ∧ ∃ s, Preferred M.spent s ∧ 0 < counterOf M.spent s ∧
        doTimer cpl M = .ok ⟨{ M.spent with current := M.kernel.task s }, s⟩) ∨
      (counterOf M.kernel M.tr ≤ 1 ∧ Refills M ∧ (∀ s, Runnable M.spent s → counterOf M.spent s = 0) ∧
        ∃ s, Preferred M.spent.refilled s ∧
          doTimer cpl M = .ok ⟨{ M.spent.refilled with current := M.kernel.task s }, s⟩) := by
  have hCounter : (M.kernel.heap M.kernel.current).counter.toInt = counterOf M.kernel M.tr := by
    rw [h.current]
    rfl
  have hDec := dec_toInt (hCounter ▸ h.counter M.tr h.running)
  have hUsed : M.UsedUp ↔ counterOf M.kernel M.tr ≤ 1 := by
    rw [Machine.UsedUp, BitVec.slt_eq_decide, hDec, hCounter, BitVec.toInt_zero, decide_eq_false_iff_not]
    omega
  by_cases hLeft : 1 < counterOf M.kernel M.tr
  · have hNot : ¬M.UsedUp := by
      rw [hUsed]
      omega
    exact Or.inl ⟨hLeft, fun hRefills => hNot hRefills.1, doTimer_charged hNot⟩
  · right
    have hYes : M.UsedUp := hUsed.mpr (by omega)
    have hSpent := M.steady_spent
    have hQuantum (s : Nat) (hs : Runnable M.spent s) : 0 < quantumOf M.spent s := by
      have hPos := h.quota_pos (hSpent.runnable.mp hs)
      rw [h.quantumOf_eq hSpent hs]
      omega
    rw [doTimer_usedUp hYes hUser]
    rcases pickNext_cases (fun s hs => h.counter_spent hs) hQuantum with
      ⟨hNone, _⟩ | ⟨s, hs, hTime, hPick⟩ | ⟨hScan, hZero, s, hs, hPick⟩
    · exact absurd (hSpent.runnable.mpr h.running) (hNone M.tr)
    · refine Or.inl ⟨by omega, fun hRefills => ?_, s, hs, hTime, ?_⟩
      · rcases scan_preferred fun s hs => h.counter_spent hs with ⟨hNone, _⟩ | ⟨s', hs', hScan⟩
        · exact hNone s hs.runnable
        · have hBest := hs'.best s hs.runnable
          have hNothing := hRefills.2
          rw [hScan] at hNothing
          dsimp only at hNothing
          omega
      · exact h.schedule_eq hSpent rfl hPick hs.runnable
    · refine Or.inr ⟨by omega, ⟨hYes, hScan⟩, hZero, s, hs, ?_⟩
      exact h.schedule_eq (hSpent.trans (Steady.refilled _)) (refilled_current _) hPick hs.runnable

theorem Ready.doTimer_eq (h : Ready M) (hUser : cpl ≠ 0#32) : doTimer cpl M = .ok (tick M) := by
  have hSame : doTimer 3#32 M = doTimer cpl M := by
    rw [doTimer, doTimer]
    simp only [if_neg hUser, if_neg (by decide : ¬(3#32 = 0#32))]
  rw [tick, hSame]
  rcases h.doTimer_cases hUser with ⟨_, _, hCall⟩ | ⟨_, _, _, _, _, hCall⟩ | ⟨_, _, _, _, _, hCall⟩ <;> rw [hCall]

/-- The three kinds of ticks, told by their results. -/
theorem Ready.tick_cases (h : Ready M) :
    (1 < counterOf M.kernel M.tr ∧ ¬Refills M ∧
        tick M = ⟨M.kernel.setCounter M.kernel.current ((M.kernel.heap M.kernel.current).counter - 1#32), M.tr⟩) ∨
      (counterOf M.kernel M.tr ≤ 1 ∧ ¬Refills M ∧ ∃ s, Preferred M.spent s ∧ 0 < counterOf M.spent s ∧
        tick M = ⟨{ M.spent with current := M.kernel.task s }, s⟩) ∨
      (counterOf M.kernel M.tr ≤ 1 ∧ Refills M ∧ (∀ s, Runnable M.spent s → counterOf M.spent s = 0) ∧
        ∃ s, Preferred M.spent.refilled s ∧ tick M = ⟨{ M.spent.refilled with current := M.kernel.task s }, s⟩) := by
  have hUser : 3#32 ≠ 0#32 := by decide
  have hTick := h.doTimer_eq hUser
  rcases h.doTimer_cases hUser with ⟨hMore, hNo, hCall⟩ | ⟨hLast, hNo, s, hs, hTime, hCall⟩ |
    ⟨hLast, hYes, hZero, s, hs, hCall⟩
  · exact Or.inl ⟨hMore, hNo, Except.ok.inj (hTick.symm.trans hCall)⟩
  · exact Or.inr (Or.inl ⟨hLast, hNo, s, hs, hTime, Except.ok.inj (hTick.symm.trans hCall)⟩)
  · exact Or.inr (Or.inr ⟨hLast, hYes, hZero, s, hs, Except.ok.inj (hTick.symm.trans hCall)⟩)

/-- While the quantum lasts only the running task's counter moves. -/
theorem Ready.counterOf_charged (h : Ready M) (hs : Occupied M.kernel s) :
    counterOf (M.kernel.setCounter M.kernel.current ((M.kernel.heap M.kernel.current).counter - 1#32)) s =
      if s = M.tr then counterOf M.kernel s - 1 else counterOf M.kernel s := by
  rw [h.current, counterOf_setCounter h.distinct hs h.running.1]
  split_ifs with hSame
  · rw [hSame]
    exact dec_toInt (h.counter M.tr h.running)
  · rfl

theorem Ready.tick (h : Ready M) : Ready (tick M) ∧ Steady M.kernel (Linux011.tick M).kernel := by
  have hSpent := M.steady_spent
  have hFilled := hSpent.trans (Steady.refilled _)
  rcases h.tick_cases with ⟨hMore, _, hTick⟩ | ⟨_, _, s, hs, _, hTick⟩ | ⟨_, _, _, s, hs, hTick⟩ <;> rw [hTick]
  · have hCharged := Steady.setCounter M.kernel M.kernel.current
      ((M.kernel.heap M.kernel.current).counter - 1#32)
    refine ⟨h.steady hCharged ?_ (hCharged.runnable.mpr h.running) fun s hs => ?_, hCharged⟩
    · rw [hCharged.task]
      exact h.current
    · have hOld := hCharged.runnable.mp hs
      have hNow := h.counter s hOld
      rw [h.counterOf_charged hOld.1]
      split_ifs with hSame
      · rw [hSame]
        omega
      · exact hNow
  · refine ⟨h.steady (hSpent.set_current _) ?_ (runnable_set_current.mpr hs.runnable) fun s hs => ?_,
      hSpent.set_current _⟩
    · dsimp only
      rw [hSpent.task]
    · exact h.counter_spent (runnable_set_current.mp hs)
  · refine ⟨h.steady (hFilled.set_current _) ?_ (runnable_set_current.mpr hs.runnable) fun s' hs' => ?_,
      hFilled.set_current _⟩
    · dsimp only
      rw [hFilled.task]
    · have hOld : Runnable M.spent s' := runnable_refilled.mp (runnable_set_current.mp hs')
      rw [counterOf_set_current, counterOf_refilled hOld.1, h.quantumOf_eq hSpent hOld]
      exact Int.natCast_nonneg _

/-- `M` serves turn `t` of the rounds over `order`: who is still to come has a
full quantum, who has been served has nothing left. -/
structure Serving (k : Kernel) (order : List Nat) (M : Machine) (t : Turn Nat) : Prop where
  ready : Ready M
  steady : Steady k M.kernel
  now : M.tr = t.now
  left : counterOf M.kernel t.now = t.left
  pos : 1 ≤ t.left
  rest : ∀ s ∈ t.rest, counterOf M.kernel s = quota k s
  served : ∀ s ∈ order, s ≠ t.now → s ∉ t.rest → counterOf M.kernel s = 0
  place : ∃ done, order = done ++ t.now :: t.rest

/-- Among full quanta the scan prefers the first of the order. -/
theorem Preferred.first {a : Nat} {rest : List Nat} (h : Preferred k' s)
    (hOrder : (a :: rest).Pairwise (Before k)) (hMem : s ∈ a :: rest) (ha : Runnable k' a)
    (hFull : ∀ s ∈ a :: rest, counterOf k' s = quota k s) : s = a := by
  rcases List.mem_cons.mp hMem with hSame | hRest
  · exact hSame
  · have hBefore := (List.pairwise_cons.mp hOrder).1 s hRest
    have hBest := h.best a ha
    rw [hFull a List.mem_cons_self, hFull s hMem] at hBest
    unfold Before at hBefore
    omega

variable {head : Nat} {rest : List Nat} {t : Turn Nat}

/-- After a refill a round starts. -/
theorem Ready.restart (h : Ready M) (hSteady : Steady k M.kernel)
    (hOrder : (head :: rest).Pairwise (Before k)) (hMem : ∀ s, s ∈ head :: rest ↔ Runnable k s)
    (hRefills : Refills M) :
    Serving k (head :: rest) (Linux011.tick M) (Turn.first (quota k) head rest) := by
  obtain ⟨hReady, hTicked⟩ := h.tick
  rcases h.tick_cases with ⟨_, hNo, _⟩ | ⟨_, hNo, _⟩ | ⟨_, _, _, s, hs, hTick⟩
  · exact absurd hRefills hNo
  · exact absurd hRefills hNo
  · rw [hTick] at hReady hTicked ⊢
    have hFilled := M.steady_spent.trans (Steady.refilled M.spent)
    have hRunnable {a : Nat} (ha : a ∈ head :: rest) : Runnable M.spent.refilled a :=
      (hSteady.trans hFilled).runnable.mpr ((hMem a).mp ha)
    have hFull : ∀ a ∈ head :: rest, counterOf M.spent.refilled a = quota k a := by
      intro a ha
      have hSpent : Runnable M.spent a := runnable_refilled.mp (hRunnable ha)
      rw [counterOf_refilled hSpent.1, h.quantumOf_eq M.steady_spent hSpent,
        hSteady.quota_eq ((hMem a).mp ha).1]
    obtain rfl := hs.first hOrder ((hMem s).mpr ((hSteady.trans hFilled).runnable.mp hs.runnable))
      (hRunnable List.mem_cons_self) hFull
    have hHead : Runnable M.kernel s := hSteady.runnable.mpr ((hMem s).mp List.mem_cons_self)
    refine ⟨hReady, hSteady.trans hTicked, rfl, hFull s List.mem_cons_self, ?_, ?_, ?_, [], rfl⟩
    · have hPos := h.quota_pos hHead
      rwa [hSteady.quota_eq (hSteady.occupied.mp hHead.1)] at hPos
    · exact fun a ha => hFull a (List.mem_cons_of_mem s ha)
    · intro a ha hne hNotRest
      rcases List.mem_cons.mp ha with hSame | hIn
      · exact absurd hSame hne
      · exact absurd hIn hNotRest

/-- A tick is one unit of service, and a refill is the end of a round. -/
theorem Serving.tick (h : Serving k (head :: rest) M t) (hOrder : (head :: rest).Pairwise (Before k))
    (hMem : ∀ s, s ∈ head :: rest ↔ Runnable k s) :
    Serving k (head :: rest) (Linux011.tick M) (serve (quota k) (Turn.first (quota k) head rest) t) ∧
      (Refills M ↔ t.Ends) := by
  obtain ⟨hReady, hTicked⟩ := h.ready.tick
  obtain ⟨done, hPlace⟩ := h.place
  have hNow : counterOf M.kernel M.tr = t.left := h.now ▸ h.left
  have hPos := h.pos
  have hSplit := hOrder
  rw [hPlace] at hSplit
  have hSuffix := (List.pairwise_append.mp hSplit).2.1
  have hNotNow {s : Nat} (hs : s ∈ t.rest) : s ≠ M.tr := by
    have hBefore := (List.pairwise_cons.mp hSuffix).1 s hs
    rw [h.now]
    rintro rfl
    unfold Before at hBefore
    omega
  have hIn {s : Nat} (hs : s ∈ t.rest) : s ∈ head :: rest := by
    rw [hPlace]
    exact List.mem_append_right _ (List.mem_cons_of_mem _ hs)
  have hRun {s : Nat} (hs : s ∈ head :: rest) : Runnable M.kernel s := h.steady.runnable.mpr ((hMem s).mp hs)
  rcases h.ready.tick_cases with ⟨hMore, hNo, hTick⟩ | ⟨hLast, hNo, s, hs, hTime, hTick⟩ |
    ⟨hLast, hYes, hZero, s, hs, hTick⟩
  · have hLeft : 1 < t.left := by omega
    refine ⟨?_, iff_of_false hNo fun hEnds => by have := hEnds.1; omega⟩
    rw [hTick] at hReady hTicked ⊢
    rw [serve, if_pos hLeft]
    refine ⟨hReady, h.steady.trans hTicked, h.now, ?_, ?_, ?_, ?_, done, hPlace⟩
    · dsimp only
      rw [← h.now, h.ready.counterOf_charged h.ready.running.1, if_pos rfl, hNow]
      omega
    · dsimp only
      omega
    · intro a ha
      rw [h.ready.counterOf_charged (hRun (hIn ha)).1, if_neg (hNotNow ha)]
      exact h.rest a ha
    · intro a ha hne hNotRest
      rw [h.ready.counterOf_charged (hRun ha).1, if_neg (h.now ▸ hne)]
      exact h.served a ha hne hNotRest
  · have hOne : ¬1 < t.left := by omega
    have hSpent := M.steady_spent
    have hRunning := hSpent.runnable.mp hs.runnable
    have hFull {a : Nat} (ha : a ∈ t.rest) : counterOf M.spent a = quota k a := by
      rw [h.ready.counterOf_spent (hRun (hIn ha)).1, if_neg (hNotNow ha)]
      exact h.rest a ha
    -- only those still to come have something left
    have hRest : s ∈ t.rest := by
      by_contra hNotRest
      rw [h.ready.counterOf_spent hRunning.1] at hTime
      split_ifs at hTime with hSame
      · exact absurd hTime (by decide)
      · have hServed := h.served s ((hMem s).mpr (h.steady.runnable.mp hRunning)) (h.now ▸ hSame) hNotRest
        omega
    obtain ⟨now, left, tail⟩ := t
    cases tail with
    | nil => exact absurd hRest (by simp)
    | cons a tail =>
        obtain rfl := hs.first (List.pairwise_cons.mp hSuffix).2 hRest
          (hSpent.runnable.mpr (hRun (hIn List.mem_cons_self))) fun b hb => hFull hb
        refine ⟨?_, iff_of_false hNo fun hEnds => by simpa using hEnds.2⟩
        rw [hTick] at hReady hTicked ⊢
        rw [serve, if_neg hOne]
        refine ⟨hReady, h.steady.trans hTicked, rfl, hFull List.mem_cons_self, ?_, ?_, ?_, done ++ [now], ?_⟩
        · have hQuota := h.ready.quota_pos hRunning
          rwa [h.steady.quota_eq (h.steady.occupied.mp hRunning.1)] at hQuota
        · exact fun b hb => hFull (List.mem_cons_of_mem s hb)
        · intro b hb hne hNotTail
          have hOld := (hRun hb).1
          rw [counterOf_set_current, h.ready.counterOf_spent hOld]
          split_ifs with hSame
          · rfl
          · refine h.served b hb (h.now ▸ hSame) fun hIn' => ?_
            rcases List.mem_cons.mp hIn' with hHead | hTail
            · exact hne hHead
            · exact hNotTail hTail
        · rw [hPlace, List.append_assoc]
          rfl
  · have hEnds : t.Ends := by
      refine ⟨by omega, List.eq_nil_iff_forall_not_mem.mpr fun a ha => ?_⟩
      have hRunning := hRun (hIn ha)
      have hNothing := hZero a (M.steady_spent.runnable.mpr hRunning)
      rw [h.ready.counterOf_spent hRunning.1, if_neg (hNotNow ha), h.rest a ha] at hNothing
      have hQuota := h.ready.quota_pos hRunning
      rw [h.steady.quota_eq (h.steady.occupied.mp hRunning.1)] at hQuota
      omega
    refine ⟨?_, iff_of_true hYes hEnds⟩
    rw [Turn.serve_of_ends hEnds]
    exact h.ready.restart h.steady hOrder hMem hYes

theorem Serving.iterate (h : Serving k (head :: rest) M t) (hOrder : (head :: rest).Pairwise (Before k))
    (hMem : ∀ s, s ∈ head :: rest ↔ Runnable k s) (n : Nat) :
    Serving k (head :: rest) (Linux011.tick^[n] M)
      ((serve (quota k) (Turn.first (quota k) head rest))^[n] t) := by
  induction n generalizing M t with
  | zero => exact h
  | succ n ih => exact ih (h.tick hOrder hMem).1

theorem Ready.iterate (h : Ready M) (n : Nat) :
    Ready (Linux011.tick^[n] M) ∧ Steady M.kernel (Linux011.tick^[n] M).kernel := by
  induction n with
  | zero => exact ⟨h, Steady.refl _⟩
  | succ n ih =>
      obtain ⟨hReady, hSteady⟩ := ih.1.tick
      rw [Function.iterate_succ_apply']
      exact ⟨hReady, ih.2.trans hSteady⟩

/-- The runnable slots in the order in which full quanta are served. -/
theorem exists_order (k : Kernel) :
    ∃ order : List Nat, order.Pairwise (Before k) ∧ ∀ s, s ∈ order ↔ Runnable k s := by
  classical
  let Least (s s' : Nat) : Prop := Before k s s' ∨ s = s'
  have hTotal : Std.Total Least := ⟨fun s s' => by
    simp only [Least, Before]
    omega⟩
  have hTrans : IsTrans Nat Least := ⟨fun s s' s'' => by
    rintro (hFirst | rfl) (hSecond | rfl)
    · refine Or.inl ?_
      unfold Before at *
      omega
    · exact Or.inl hFirst
    · exact Or.inl hSecond
    · exact Or.inr rfl⟩
  have hSlots := List.nodup_range (n := nrTasks)
  refine ⟨((List.range nrTasks).filter fun s => Runnable k s).insertionSort Least, ?_, fun s => ?_⟩
  · have hNodup := (List.perm_insertionSort Least _).nodup_iff.mpr
      (hSlots.filter fun s => decide (Runnable k s))
    refine ((List.pairwise_insertionSort Least _).and hNodup).imp ?_
    rintro s s' ⟨hBefore | hSame, hne⟩
    · exact hBefore
    · exact absurd hSame hne
  · rw [List.mem_insertionSort, List.mem_filter, List.mem_range, decide_eq_true_eq]
    exact ⟨fun hs => hs.2, fun hs => ⟨hs.1.lt, hs⟩⟩

open Classical in

/-- What the runnable tasks have left of their quanta. -/
noncomputable def timeLeft (k : Kernel) : Nat :=
  ∑ s ∈ Finset.range nrTasks, if Runnable k s then (counterOf k s).toNat else 0

open Classical in

/-- One counter went down and the others stayed. -/
theorem timeLeft_lt (hRunnable : ∀ s, Runnable k' s ↔ Runnable k s) {a : Nat} (ha : Runnable k a)
    (hLess : counterOf k' a < counterOf k a) (hPos : 0 < counterOf k a)
    (hOthers : ∀ s, Runnable k s → s ≠ a → counterOf k' s = counterOf k s) : timeLeft k' < timeLeft k := by
  have hBelow : (if Runnable k' a then (counterOf k' a).toNat else 0) <
      if Runnable k a then (counterOf k a).toNat else 0 := by
    rw [if_pos ((hRunnable a).mpr ha), if_pos ha]
    omega
  refine Finset.sum_lt_sum (fun s _ => ?_) ⟨a, Finset.mem_range.mpr ha.1.lt, hBelow⟩
  by_cases hs : Runnable k s
  · by_cases hSame : s = a
    · rw [hSame]
      exact hBelow.le
    · rw [if_pos ((hRunnable s).mpr hs), if_pos hs, hOthers s hs hSame]
  · rw [if_neg fun hs' => hs ((hRunnable s).mp hs'), if_neg hs]

theorem timeLeft_eq (hRunnable : ∀ s, Runnable k' s ↔ Runnable k s)
    (hSame : ∀ s, Runnable k s → counterOf k' s = counterOf k s) : timeLeft k' = timeLeft k := by
  refine Finset.sum_congr rfl fun s _ => ?_
  by_cases hs : Runnable k s
  · rw [if_pos ((hRunnable s).mpr hs), if_pos hs, hSame s hs]
  · rw [if_neg fun hs' => hs ((hRunnable s).mp hs'), if_neg hs]

/-- A tick that charges nobody is followed by one that does. -/
noncomputable def ticksLeft (M : Machine) : Nat :=
  2 * timeLeft M.kernel + if counterOf M.kernel M.tr = 0 then 1 else 0

theorem Ready.ticksLeft_lt (h : Ready M) (hNo : ¬Refills M) :
    ticksLeft (Linux011.tick M) < ticksLeft M := by
  obtain ⟨_, hSteady⟩ := h.tick
  have hRunnable (s : Nat) : Runnable (Linux011.tick M).kernel s ↔ Runnable M.kernel s := hSteady.runnable
  have hCounter := h.counter M.tr h.running
  unfold ticksLeft
  rcases h.tick_cases with ⟨hMore, _, hTick⟩ | ⟨hLast, _, s, hs, hTime, hTick⟩ | ⟨_, hYes, _⟩
  · have hTotal : timeLeft (Linux011.tick M).kernel < timeLeft M.kernel := by
      rw [hTick] at hRunnable ⊢
      refine timeLeft_lt hRunnable h.running ?_ (by omega) fun s hs hne => ?_
      · rw [h.counterOf_charged h.running.1, if_pos rfl]
        omega
      · rw [h.counterOf_charged hs.1, if_neg hne]
    split_ifs <;> omega
  · have hNext : counterOf (Linux011.tick M).kernel (Linux011.tick M).tr ≠ 0 := by
      rw [hTick]
      exact hTime.ne'
    have hSpent {a : Nat} (ha : Runnable M.kernel a) :
        counterOf (Linux011.tick M).kernel a = if a = M.tr then 0 else counterOf M.kernel a := by
      rw [hTick]
      exact h.counterOf_spent ha.1
    rw [if_neg hNext]
    by_cases hZero : counterOf M.kernel M.tr = 0
    · have hTotal := timeLeft_eq hRunnable fun a ha => by
        rw [hSpent ha]
        split_ifs with hSame
        · rw [hSame, hZero]
        · rfl
      rw [if_pos hZero]
      omega
    · have hTotal := timeLeft_lt hRunnable h.running (by rw [hSpent h.running, if_pos rfl]; omega) (by omega)
        fun a ha hne => by rw [hSpent ha, if_neg hne]
      omega
  · exact absurd hYes hNo

/-- Without refills the time runs out. -/
theorem Ready.refill_comes (h : Ready M) : ∃ n, Refills (Linux011.tick^[n] M) := by
  induction hTicks : ticksLeft M using Nat.strong_induction_on generalizing M with
  | _ left ih =>
      by_cases hNow : Refills M
      · exact ⟨0, hNow⟩
      · obtain ⟨n, hn⟩ := ih _ (hTicks ▸ h.ticksLeft_lt hNow) h.tick.1 rfl
        exact ⟨n + 1, hn⟩

/-- Every quantum is honoured. Ticks strike while a fixed set of tasks is
runnable; the slot that runs when tick `n` strikes is the one it charges. From
one refill to the next these slots are the slots of `order`, one after the
other, each for its quantum. -/
theorem quanta_honoured (h : Ready M) :
    ∃ order : List Nat, order.Pairwise (Before M.kernel) ∧ (∀ s, s ∈ order ↔ Runnable M.kernel s) ∧
      (∀ n cpl, cpl ≠ 0#32 → doTimer cpl (Linux011.tick^[n] M) = .ok (Linux011.tick^[n + 1] M)) ∧
      (∀ n, (Linux011.tick^[n] M).kernel.current = M.kernel.task (Linux011.tick^[n] M).tr) ∧
      (∃ n, Refills (Linux011.tick^[n] M)) ∧
      (∀ a b, a < b → Refills (Linux011.tick^[a] M) → Refills (Linux011.tick^[b] M) →
        (∀ n, a < n → n < b → ¬Refills (Linux011.tick^[n] M)) →
        (List.range (b - a)).map (fun j => (Linux011.tick^[a + 1 + j] M).tr) =
          order.flatMap fun s => List.replicate (quota M.kernel s) s) ∧
      ∀ a n, a < n → Refills (Linux011.tick^[a] M) →
        1 ≤ counterOf (Linux011.tick^[n] M).kernel (Linux011.tick^[n] M).tr ∧
          ∀ s, Runnable M.kernel s → ∃ m ≤ ((order.erase s).map (quota M.kernel)).sum,
            (Linux011.tick^[n + m] M).tr = s := by
  obtain ⟨order, hOrder, hMem⟩ := exists_order M.kernel
  obtain ⟨head, rest, rfl⟩ : ∃ head rest, order = head :: rest := by
    cases order with
    | nil => exact absurd ((hMem M.tr).mpr h.running) (by simp)
    | cons head rest => exact ⟨head, rest, rfl⟩
  have hQuota : ∀ s ∈ head :: rest, 1 ≤ quota M.kernel s := fun s hs => h.quota_pos ((hMem s).mp hs)
  have hFirst : (Turn.first (quota M.kernel) head rest).Valid (quota M.kernel) :=
    ⟨hQuota head List.mem_cons_self, fun s hs => hQuota s (List.mem_cons_of_mem head hs)⟩
  -- the rounds after a refill
  have hServing {a : Nat} (ha : Refills (Linux011.tick^[a] M)) (j : Nat) :
      Serving M.kernel (head :: rest) (Linux011.tick^[a + 1 + j] M)
        ((serve (quota M.kernel) (Turn.first (quota M.kernel) head rest))^[j]
          (Turn.first (quota M.kernel) head rest)) := by
    obtain ⟨hReady, hSteady⟩ := h.iterate a
    have hStart := hReady.restart hSteady hOrder hMem ha
    rw [← Function.iterate_succ_apply' Linux011.tick a M] at hStart
    rw [Nat.add_comm (a + 1) j, Function.iterate_add_apply]
    exact hStart.iterate hOrder hMem j
  refine ⟨head :: rest, hOrder, hMem, ?_, ?_, h.refill_comes, ?_, ?_⟩
  · intro n cpl hUser
    rw [Function.iterate_succ_apply']
    exact (h.iterate n).1.doTimer_eq hUser
  · intro n
    obtain ⟨hReady, hSteady⟩ := h.iterate n
    rw [hReady.current, hSteady.task]
  · intro a b hab ha hb hNone
    have hRefills (j : Nat) (hj : j < (units (quota M.kernel) (head :: rest)).length) :
        Refills (Linux011.tick^[a + 1 + j] M) ↔ j + 1 = (units (quota M.kernel) (head :: rest)).length := by
      rw [((hServing ha j).tick hOrder hMem).2]
      exact Turn.ends_iterate hFirst hFirst hj
    have hPos := hFirst.pos
    rw [units_first] at hPos
    have hLength : b - a = (units (quota M.kernel) (head :: rest)).length := by
      by_contra hne
      rcases Nat.lt_or_ge (b - a) (units (quota M.kernel) (head :: rest)).length with hShort | hLong
      · have hEnd := (hRefills (b - a - 1) (by omega)).mp (by rwa [show a + 1 + (b - a - 1) = b by omega])
        omega
      · refine hNone _ ?_ ?_ ((hRefills ((units (quota M.kernel) (head :: rest)).length - 1) (by omega)).mpr
          (by omega))
        all_goals omega
    refine List.ext_getElem ?_ fun j hj hj' => ?_
    · rw [List.length_map, List.length_range]
      exact hLength
    · rw [List.getElem_map, List.getElem_range, (hServing ha j).now]
      exact Turn.now_iterate hFirst hFirst hj'
  · intro a n han ha
    obtain ⟨j, rfl⟩ : ∃ j, n = a + 1 + j := ⟨n - (a + 1), by omega⟩
    refine ⟨?_, fun s hs => ?_⟩
    · have hTurn := hServing ha j
      have hPos := hTurn.pos
      rw [hTurn.now, hTurn.left]
      omega
    · obtain ⟨m, hm, hNow⟩ := bounded_wait hQuota ((hMem s).mpr hs) j
      refine ⟨m, hm, ?_⟩
      rw [Nat.add_assoc, (hServing ha (j + m)).now]
      exact hNow

end

/-- Two runnable tasks of equal priority, in slots 1 and 2. -/
def twoTasks : Machine where
  kernel :=
    { smallKernel 0#16 with
      task := fun s => if s = 1 then 0x200000#32 else if s = 2 then 0x201000#32 else 0#32
      heap := fun _ => initTask smallImage
      current := 0x200000#32 }
  tr := 1

theorem twoTasks_ready : Ready twoTasks where
  distinct := by
    intro s s' hs hs' hTask
    have hne := hs.task
    have hne' := hs'.task
    simp only [twoTasks] at hTask hne hne'
    split_ifs at hTask hne hne' with h1 h2 h3 h4 <;> simp_all
  running := ⟨⟨by decide, by decide, by decide⟩, rfl⟩
  current := rfl
  counter := fun _ _ => (by decide : 0 ≤ (15#32).toInt)
  priority := fun _ _ => (by decide : 1 ≤ (15#32).toInt)
  small := fun _ _ => (by decide : (15#32).toNat + (15#32).toNat / 2 < 0x80000000)

theorem quanta_honoured_twoTasks :
    ∃ order : List Nat, 1 ∈ order ∧ 2 ∈ order ∧ ∃ n, Refills (tick^[n] twoTasks) ∧
      ∃ m ≤ ((order.erase 2).map (quota twoTasks.kernel)).sum, (tick^[n + 1 + m] twoTasks).tr = 2 := by
  obtain ⟨order, _, hMem, _, _, ⟨n, hn⟩, _, hWait⟩ := quanta_honoured twoTasks_ready
  have hSecond : Runnable twoTasks.kernel 2 := ⟨⟨by decide, by decide, by decide⟩, rfl⟩
  exact ⟨order, (hMem 1).mpr twoTasks_ready.running, (hMem 2).mpr hSecond, n, hn,
    (hWait n (n + 1) (Nat.lt_succ_self n) hn).2 2 hSecond⟩

end Linux011

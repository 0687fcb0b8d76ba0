import Linux011.Kernel.Pick
import Linux011.Library.Linked
import Mathlib.Logic.Relation

/-! Wait queues: `sleep_on`, `interruptible_sleep_on` and `wake_up`. A queue is a
head and the local variable `tmp` of each `__sleep_on` call that is suspended in
`schedule`. -/
namespace Linux011

/-- A call of `__sleep_on` that is suspended in `schedule`: its argument, its
local variable and, for the statements only, which call of the run it is. -/
structure SleepCall where
  p : BitVec 32
  tmp : BitVec 32
  number : Nat

/-- The kernel with the queue heads `*p`, the call of `__sleep_on` that each
task is inside, and what `printk` has printed. -/
structure Sleepers where
  kernel : Kernel
  head : BitVec 32 → BitVec 32
  call : BitVec 32 → Option SleepCall
  calls : Nat
  printed : List String

/-- `__sleep_on` up to its first call of `schedule`. -/
def Sleepers._sleepOn (image : Image) (p state : BitVec 32) (W : Sleepers) : Except Stop Sleepers :=
  if p = 0#32 then .ok W
  else if W.kernel.current = image.initTask then .error (.panic "init_task going to sleep")
  else
    let tmp := W.head p
    .ok { kernel := W.kernel.setState W.kernel.current state
          head := Function.update W.head p W.kernel.current
          call := Function.update W.call W.kernel.current (some ⟨p, tmp, W.calls⟩)
          calls := W.calls + 1
          printed := W.printed }

def Sleepers.interruptibleSleepOn (image : Image) (p : BitVec 32) (W : Sleepers) : Except Stop Sleepers :=
  W._sleepOn image p taskInterruptible

def Sleepers.sleepOn (image : Image) (p : BitVec 32) (W : Sleepers) : Except Stop Sleepers :=
  W._sleepOn image p taskUninterruptible

/-- What the task that `schedule` has switched to does in `__sleep_on`: it calls
`schedule` again, or leaves. -/
def Sleepers.goOn (W : Sleepers) : Sleepers :=
  match W.call W.kernel.current with
  | none => W
  | some ⟨p, tmp, _⟩ =>
      if W.head p ≠ 0#32 ∧ W.head p ≠ W.kernel.current then
        { W with kernel := (W.kernel.setState (W.head p) 0#32).setState W.kernel.current taskUninterruptible }
      else
        { kernel := if tmp ≠ 0#32 then W.kernel.setState tmp 0#32 else W.kernel
          head := Function.update W.head p tmp
          call := Function.update W.call W.kernel.current none
          calls := W.calls
          printed := if W.head p = 0#32 then W.printed ++ ["Warning: *p = NULL\n\r"] else W.printed }

def Sleepers.wakeUp (p : BitVec 32) (W : Sleepers) : Sleepers :=
  if p ≠ 0#32 ∧ W.head p ≠ 0#32 then
    let state := (W.kernel.heap (W.head p)).state
    let printed := if state = taskStopped then W.printed ++ ["wake_up: TASK_STOPPED"] else W.printed
    let printed := if state = taskZombie then printed ++ ["wake_up: TASK_ZOMBIE"] else printed
    { W with kernel := W.kernel.setState (W.head p) 0#32, printed := printed }
  else W

/-- Before the first sleep. -/
def Sleepers.start (k : Kernel) : Sleepers := ⟨k, fun _ => 0#32, fun _ => none, 0, []⟩

/-- `schedule` has changed counters only and has switched to `current`. -/
structure SwitchedTo (current : BitVec 32) (k k' : Kernel) : Prop where
  task : k'.task = k.task
  state : ∀ t, (k'.heap t).state = (k.heap t).state
  current : k'.current = current

/-- What happens between two calls of `schedule`. The task that goes to sleep
is in one of the slots 1 to 63 and is not already asleep inside `__sleep_on`;
anyone may wake; `schedule` may resume any runnable task, and slot 0 when there
is none. -/
inductive Sleepers.Step (image : Image) (W : Sleepers) : Sleepers → Prop where
  | sleepOn {p : BitVec 32} {s : Nat} {W' : Sleepers} (occupied : Occupied W.kernel s)
      (running : W.kernel.current = W.kernel.task s) (awake : W.call W.kernel.current = none)
      (call : W.sleepOn image p = .ok W') : Step image W W'
  | interruptibleSleepOn {p : BitVec 32} {s : Nat} {W' : Sleepers} (occupied : Occupied W.kernel s)
      (running : W.kernel.current = W.kernel.task s) (awake : W.call W.kernel.current = none)
      (call : W.interruptibleSleepOn image p = .ok W') : Step image W W'
  | wakeUp (p : BitVec 32) : Step image W (W.wakeUp p)
  | resume {s : Nat} {k : Kernel} (runnable : Runnable W.kernel s)
      (switched : SwitchedTo (W.kernel.task s) W.kernel k) : Step image W (goOn { W with kernel := k })
  | idle {k : Kernel} (none : ∀ s, ¬Runnable W.kernel s)
      (switched : SwitchedTo (W.kernel.task 0) W.kernel k) : Step image W (goOn { W with kernel := k })

/-- Runs of such steps. -/
abbrev Sleepers.Run (image : Image) : Sleepers → Sleepers → Prop := Relation.ReflTransGen (Step image)

/-- Task `t` is inside a `__sleep_on` call for the queue `p`. -/
def Sleepers.On (W : Sleepers) (p t : BitVec 32) : Prop := ∃ c, W.call t = some c ∧ c.p = p

def Sleepers.tmp (W : Sleepers) (t : BitVec 32) : Option (BitVec 32) := (W.call t).map SleepCall.tmp

/-- Following `*p` and then the `tmp` of each sleeper visits `chain`. -/
def Sleepers.Visits (W : Sleepers) (p : BitVec 32) (chain : List (BitVec 32)) : Prop :=
  Linked.Chain W.tmp 0#32 (W.head p) chain

/-- Some task on the queue `p` is runnable. -/
def Sleepers.Awake (W : Sleepers) (p : BitVec 32) : Prop :=
  ∃ t, W.On p t ∧ (W.kernel.heap t).state = taskRunning

/-- The queues are stacks of the tasks inside `__sleep_on`, and nothing has been
printed. -/
structure QueueInvariant (W : Sleepers) : Prop where
  visits : ∀ p, ∃ chain, W.Visits p chain ∧ ∀ t, t ∈ chain ↔ W.On p t
  queue : ∀ t c, W.call t = some c → c.p ≠ 0#32
  asleep : ∀ t c, W.call t = some c →
    (W.kernel.heap t).state ∈ [taskRunning, taskInterruptible, taskUninterruptible]
  numbered : ∀ t c, W.call t = some c → c.number < W.calls
  distinct : ∀ t c t' c', W.call t = some c → W.call t' = some c' → c.number = c'.number → t = t'
  printed : W.printed = []

/-- The calls in `due` are on the queue `p`, and while one of them has not
returned, a task on this queue is runnable. -/
structure Promised (due : Nat → Prop) (p : BitVec 32) (W : Sleepers) : Prop where
  old : ∀ n, due n → n < W.calls
  queue : ∀ t c, W.call t = some c → due c.number → c.p = p
  awake : ∀ t c, W.call t = some c → due c.number → W.Awake p

section

variable {image : Image} {k k' : Kernel} {W W' : Sleepers} {p q t t' current state : BitVec 32}
  {due : Nat → Prop} {chain : List (BitVec 32)}

theorem setState_state : ((k.setState p state).heap t).state = if t = p then state else (k.heap t).state := by
  rw [Kernel.setState, Kernel.setTask_heap]
  split_ifs with hSame
  · rw [hSame, Function.update_self]
  · rw [Function.update_of_ne hSame]

theorem Sleepers.call_update {call : BitVec 32 → Option SleepCall} {x : Option SleepCall} {c : SleepCall} :
    Function.update call current x t = some c ↔ t = current ∧ x = some c ∨ t ≠ current ∧ call t = some c := by
  by_cases hSame : t = current
  · simp [hSame]
  · simp [hSame]

theorem Sleepers.tmp_update (call : BitVec 32 → Option SleepCall) (x : Option SleepCall) :
    (fun t => (Function.update call current x t).map SleepCall.tmp) =
      Function.update (fun t => (call t).map SleepCall.tmp) current (x.map SleepCall.tmp) :=
  funext fun t => Function.apply_update (fun _ => Option.map SleepCall.tmp) call current x t

namespace QueueInvariant

theorem head_on (h : QueueInvariant W) (hne : W.head p ≠ 0#32) : W.On p (W.head p) := by
  obtain ⟨chain, hVisits, hChain⟩ := h.visits p
  exact (hChain _).mp (Linked.Chain.start_mem hVisits hne)

theorem head_ne (h : QueueInvariant W) (hOn : W.On p t) : W.head p ≠ 0#32 := by
  obtain ⟨chain, hVisits, hChain⟩ := h.visits p
  exact Linked.Chain.start_ne hVisits ((hChain t).mpr hOn)

theorem start (k : Kernel) : QueueInvariant (Sleepers.start k) where
  visits := by
    refine fun p => ⟨[], Linked.Chain.done, fun t => iff_of_false List.not_mem_nil ?_⟩
    rintro ⟨c, hCall, _⟩
    cases hCall
  queue := by
    intro t c hCall
    cases hCall
  asleep := by
    intro t c hCall
    cases hCall
  numbered := by
    intro t c hCall
    cases hCall
  distinct := by
    intro t c t' c' hCall
    cases hCall
  printed := rfl

/-- Nobody joins or leaves. -/
theorem states (h : QueueInvariant W)
    (hState : ∀ t c, W.call t = some c →
      (k.heap t).state ∈ [taskRunning, taskInterruptible, taskUninterruptible]) :
    QueueInvariant { W with kernel := k } :=
  ⟨h.visits, h.queue, hState, h.numbered, h.distinct, h.printed⟩

/-- The running task joins the queue `p` at its head. -/
theorem join (h : QueueInvariant W) (hp : p ≠ 0#32) (hAwake : W.call current = none) (hne : current ≠ 0#32)
    (hState : state ∈ [taskInterruptible, taskUninterruptible]) :
    QueueInvariant
      { kernel := W.kernel.setState current state
        head := Function.update W.head p current
        call := Function.update W.call current (some ⟨p, W.head p, W.calls⟩)
        calls := W.calls + 1
        printed := W.printed } where
  visits := by
    intro q
    obtain ⟨chain, hVisits, hChain⟩ := h.visits q
    have hNew : current ∉ chain := by
      intro hMember
      obtain ⟨c, hCall, _⟩ := (hChain current).mp hMember
      rw [hAwake] at hCall
      cases hCall
    unfold Sleepers.Visits Sleepers.tmp Sleepers.On
    simp only [Sleepers.tmp_update, Sleepers.call_update]
    by_cases hSame : q = p
    · subst q
      rw [Function.update_self]
      refine ⟨current :: chain, hVisits.push hNew hne, fun t => ?_⟩
      rw [List.mem_cons, hChain]
      constructor
      · rintro (rfl | ⟨c, hCall, hQueue⟩)
        · exact ⟨_, Or.inl ⟨rfl, rfl⟩, rfl⟩
        · refine ⟨c, Or.inr ⟨?_, hCall⟩, hQueue⟩
          rintro rfl
          exact hNew ((hChain t).mpr ⟨c, hCall, hQueue⟩)
      · rintro ⟨c, ⟨hHere, _⟩ | ⟨_, hCall⟩, hQueue⟩
        · exact Or.inl hHere
        · exact Or.inr ⟨c, hCall, hQueue⟩
    · rw [Function.update_of_ne hSame]
      refine ⟨chain, hVisits.frame hNew _, fun t => ?_⟩
      rw [hChain]
      constructor
      · rintro ⟨c, hCall, hQueue⟩
        refine ⟨c, Or.inr ⟨?_, hCall⟩, hQueue⟩
        rintro rfl
        exact hNew ((hChain t).mpr ⟨c, hCall, hQueue⟩)
      · rintro ⟨c, ⟨_, hNewCall⟩ | ⟨_, hCall⟩, hQueue⟩
        · obtain rfl := Option.some.inj hNewCall
          exact absurd hQueue.symm hSame
        · exact ⟨c, hCall, hQueue⟩
  queue := by
    intro t c hCall
    rcases Sleepers.call_update.mp hCall with ⟨_, hNew⟩ | ⟨_, hBefore⟩
    · obtain rfl := Option.some.inj hNew
      exact hp
    · exact h.queue t c hBefore
  asleep := by
    intro t c hCall
    dsimp only
    rw [setState_state]
    rcases Sleepers.call_update.mp hCall with ⟨hHere, _⟩ | ⟨hOther, hBefore⟩
    · rw [if_pos hHere]
      exact List.mem_cons_of_mem _ hState
    · rw [if_neg hOther]
      exact h.asleep t c hBefore
  numbered := by
    intro t c hCall
    rcases Sleepers.call_update.mp hCall with ⟨_, hNew⟩ | ⟨_, hBefore⟩
    · obtain rfl := Option.some.inj hNew
      exact Nat.lt_succ_self _
    · exact Nat.lt_succ_of_lt (h.numbered t c hBefore)
  distinct := by
    intro t c t' c' hCall hCall' hNumber
    rcases Sleepers.call_update.mp hCall with ⟨hHere, hNew⟩ | ⟨_, hBefore⟩ <;>
      rcases Sleepers.call_update.mp hCall' with ⟨hHere', hNew'⟩ | ⟨_, hBefore'⟩
    · rw [hHere, hHere']
    · obtain rfl := Option.some.inj hNew
      exact absurd hNumber.symm (h.numbered t' c' hBefore').ne
    · obtain rfl := Option.some.inj hNew'
      exact absurd hNumber (h.numbered t c hBefore).ne
    · exact h.distinct t c t' c' hBefore hBefore' hNumber
  printed := h.printed

/-- The task at the head of its queue returns from `__sleep_on`. -/
theorem leave (h : QueueInvariant W) {c : SleepCall} (hCall : W.call current = some c)
    (hHead : W.head c.p = current)
    (hState : ∀ t c, W.call t = some c →
      (k.heap t).state ∈ [taskRunning, taskInterruptible, taskUninterruptible]) :
    QueueInvariant
      { kernel := k
        head := Function.update W.head c.p c.tmp
        call := Function.update W.call current none
        calls := W.calls
        printed := W.printed } := by
  have hKeep {t : BitVec 32} {b : SleepCall} :
      Function.update W.call current none t = some b ↔ t ≠ current ∧ W.call t = some b := by
    rw [Sleepers.call_update]
    constructor
    · rintro (⟨_, hNone⟩ | hKeep)
      · cases hNone
      · exact hKeep
    · exact Or.inr
  constructor
  · intro q
    obtain ⟨chain, hVisits, hChain⟩ := h.visits q
    unfold Sleepers.Visits Sleepers.tmp Sleepers.On
    simp only [Sleepers.tmp_update, hKeep]
    by_cases hSame : q = c.p
    · subst q
      have hNext : W.tmp current = some c.tmp := by rw [Sleepers.tmp, hCall, Option.map_some]
      have hNe : W.head c.p ≠ 0#32 := h.head_ne ⟨c, hCall, rfl⟩
      rw [Function.update_self]
      obtain ⟨below, rfl, hNotBelow, hBelow⟩ := hVisits.pop hNe (hHead.symm ▸ hNext) none
      rw [hHead] at hNotBelow hBelow hChain
      refine ⟨below, hBelow, fun t => ?_⟩
      constructor
      · intro hMember
        obtain ⟨b, hBefore, hQueue⟩ := (hChain t).mp (List.mem_cons_of_mem _ hMember)
        refine ⟨b, ⟨?_, hBefore⟩, hQueue⟩
        rintro rfl
        exact hNotBelow hMember
      · rintro ⟨b, ⟨hOther, hBefore⟩, hQueue⟩
        exact List.mem_of_ne_of_mem hOther ((hChain t).mpr ⟨b, hBefore, hQueue⟩)
    · have hOutside : current ∉ chain := by
        intro hMember
        obtain ⟨b, hBefore, hQueue⟩ := (hChain current).mp hMember
        obtain rfl := Option.some.inj (hCall.symm.trans hBefore)
        exact hSame hQueue.symm
      rw [Function.update_of_ne hSame]
      refine ⟨chain, hVisits.frame hOutside _, fun t => ?_⟩
      rw [hChain]
      constructor
      · rintro ⟨b, hBefore, hQueue⟩
        refine ⟨b, ⟨?_, hBefore⟩, hQueue⟩
        rintro rfl
        exact hOutside ((hChain t).mpr ⟨b, hBefore, hQueue⟩)
      · rintro ⟨b, ⟨_, hBefore⟩, hQueue⟩
        exact ⟨b, hBefore, hQueue⟩
  · exact fun t b hAfter => h.queue t b (hKeep.mp hAfter).2
  · exact fun t b hAfter => hState t b (hKeep.mp hAfter).2
  · exact fun t b hAfter => h.numbered t b (hKeep.mp hAfter).2
  · exact fun t b t' b' hAfter hAfter' => h.distinct t b t' b' (hKeep.mp hAfter).2 (hKeep.mp hAfter').2
  · exact h.printed

/-- Setting a state to a state that sleepers have. -/
theorem asleep_setState (h : QueueInvariant W)
    (hState : state ∈ [taskRunning, taskInterruptible, taskUninterruptible]) (t : BitVec 32) :
    ∀ t' c, W.call t' = some c → ((W.kernel.setState t state).heap t').state ∈
      [taskRunning, taskInterruptible, taskUninterruptible] := by
  intro t' c hCall
  rw [setState_state]
  split_ifs
  · exact hState
  · exact h.asleep t' c hCall

theorem sleepOn_cases (hCall : W._sleepOn image p state = .ok W') :
    W' = W ∨ p ≠ 0#32 ∧ W' =
      { kernel := W.kernel.setState W.kernel.current state
        head := Function.update W.head p W.kernel.current
        call := Function.update W.call W.kernel.current (some ⟨p, W.head p, W.calls⟩)
        calls := W.calls + 1
        printed := W.printed } := by
  unfold Sleepers._sleepOn at hCall
  split_ifs at hCall with hNull
  · exact Or.inl (Except.ok.inj hCall).symm
  · exact Or.inr ⟨hNull, (Except.ok.inj hCall).symm⟩

theorem wakeUp_eq (h : QueueInvariant W) (p : BitVec 32) :
    W.wakeUp p = { W with
      kernel := if p ≠ 0#32 ∧ W.head p ≠ 0#32 then W.kernel.setState (W.head p) 0#32 else W.kernel } := by
  rw [Sleepers.wakeUp]
  by_cases hSome : p ≠ 0#32 ∧ W.head p ≠ 0#32
  · rw [if_pos hSome, if_pos hSome]
    obtain ⟨c, hCall, _⟩ := h.head_on hSome.2
    have hState := h.asleep _ c hCall
    have hStopped : (W.kernel.heap (W.head p)).state ≠ taskStopped := by
      intro hSame
      rw [hSame] at hState
      revert hState
      decide
    have hZombie : (W.kernel.heap (W.head p)).state ≠ taskZombie := by
      intro hSame
      rw [hSame] at hState
      revert hState
      decide
    simp only [if_neg hStopped, if_neg hZombie]
  · rw [if_neg hSome, if_neg hSome]

theorem goOn_cases (h : QueueInvariant W) :
    W.goOn = W ∨ ∃ c, W.call W.kernel.current = some c ∧
      ((W.head c.p ≠ W.kernel.current ∧ W.goOn = { W with
          kernel := (W.kernel.setState (W.head c.p) 0#32).setState W.kernel.current taskUninterruptible }) ∨
        W.head c.p = W.kernel.current ∧ W.goOn =
          { kernel := if c.tmp ≠ 0#32 then W.kernel.setState c.tmp 0#32 else W.kernel
            head := Function.update W.head c.p c.tmp
            call := Function.update W.call W.kernel.current none
            calls := W.calls
            printed := W.printed }) := by
  cases hCall : W.call W.kernel.current with
  | none =>
      refine Or.inl ?_
      rw [Sleepers.goOn, hCall]
  | some c =>
      have hNe : W.head c.p ≠ 0#32 := h.head_ne ⟨c, hCall, rfl⟩
      refine Or.inr ⟨c, rfl, ?_⟩
      rw [Sleepers.goOn, hCall]
      dsimp only
      by_cases hOther : W.head c.p ≠ W.kernel.current
      · exact Or.inl ⟨hOther, if_pos ⟨hNe, hOther⟩⟩
      · refine Or.inr ⟨not_not.mp hOther, ?_⟩
        rw [if_neg fun hBoth => hOther hBoth.2, if_neg hNe]

theorem sleep (h : QueueInvariant W) (hAwake : W.call W.kernel.current = none) (hne : W.kernel.current ≠ 0#32)
    (hState : state ∈ [taskInterruptible, taskUninterruptible]) (hCall : W._sleepOn image p state = .ok W') :
    QueueInvariant W' := by
  rcases sleepOn_cases hCall with rfl | ⟨hp, rfl⟩
  · exact h
  · exact h.join hp hAwake hne hState

theorem wakeUp (h : QueueInvariant W) (p : BitVec 32) : QueueInvariant (W.wakeUp p) := by
  rw [h.wakeUp_eq]
  refine h.states ?_
  split_ifs
  · exact h.asleep_setState (by decide) _
  · exact h.asleep

theorem goOn (h : QueueInvariant W) : QueueInvariant W.goOn := by
  rcases h.goOn_cases with hSame | ⟨c, hCall, ⟨_, hSame⟩ | ⟨hHead, hSame⟩⟩
  · rw [hSame]
    exact h
  · rw [hSame]
    have hRunning : 0#32 ∈ [taskRunning, taskInterruptible, taskUninterruptible] := by decide
    have hWoken := h.states (h.asleep_setState hRunning (W.head c.p))
    exact h.states (hWoken.asleep_setState (by decide) _)
  · rw [hSame]
    refine h.leave hCall hHead ?_
    split_ifs
    · exact h.asleep_setState (by decide) _
    · exact h.asleep

theorem switched (h : QueueInvariant W) (hSwitched : SwitchedTo current W.kernel k) :
    QueueInvariant { W with kernel := k } :=
  h.states fun t c hCall => by
    rw [hSwitched.state]
    exact h.asleep t c hCall

theorem step (h : QueueInvariant W) (hStep : Sleepers.Step image W W') : QueueInvariant W' := by
  cases hStep with
  | sleepOn occupied running awake call =>
      exact h.sleep awake (running.symm ▸ occupied.task) (by decide) call
  | interruptibleSleepOn occupied running awake call =>
      exact h.sleep awake (running.symm ▸ occupied.task) (by decide) call
  | wakeUp p => exact h.wakeUp p
  | resume _ switched => exact (h.switched switched).goOn
  | idle _ switched => exact (h.switched switched).goOn

theorem run (h : QueueInvariant W) (hRun : Sleepers.Run image W W') : QueueInvariant W' := by
  induction hRun with
  | refl => exact h
  | tail _ hStep ih => exact ih.step hStep

end QueueInvariant

namespace Promised

/-- Nobody joins or leaves, and whoever was runnable on the queue still is, or
its head is. -/
theorem states (h : Promised due p W) (hInv : QueueInvariant W)
    (hState : ∀ t, W.On p t → (W.kernel.heap t).state = taskRunning →
      (k.heap t).state = taskRunning ∨ (k.heap (W.head p)).state = taskRunning) :
    Promised due p { W with kernel := k } := by
  refine ⟨h.old, h.queue, fun t c hCall hDue => ?_⟩
  obtain ⟨t, hOn, hRunning⟩ := h.awake t c hCall hDue
  rcases hState t hOn hRunning with hStill | hHead
  · exact ⟨t, hOn, hStill⟩
  · exact ⟨W.head p, hInv.head_on (hInv.head_ne hOn), hHead⟩

theorem sleep (h : Promised due p W) (hAwake : W.call W.kernel.current = none)
    (hCall : W._sleepOn image q state = .ok W') : Promised due p W' := by
  rcases QueueInvariant.sleepOn_cases hCall with rfl | ⟨_, rfl⟩
  · exact h
  have hBefore {t : BitVec 32} {c : SleepCall} (hDue : due c.number)
      (hAfter : Function.update W.call W.kernel.current (some ⟨q, W.head q, W.calls⟩) t = some c) :
      W.call t = some c := by
    rcases Sleepers.call_update.mp hAfter with ⟨_, hNew⟩ | ⟨_, hBefore⟩
    · obtain rfl := Option.some.inj hNew
      exact absurd (h.old _ hDue) (Nat.lt_irrefl _)
    · exact hBefore
  refine ⟨fun n hDue => Nat.lt_succ_of_lt (h.old n hDue),
    fun t c hAfter hDue => h.queue t c (hBefore hDue hAfter) hDue, fun t c hAfter hDue => ?_⟩
  obtain ⟨t', ⟨c', hOther, hQueue⟩, hRunning⟩ := h.awake t c (hBefore hDue hAfter) hDue
  have hNe : t' ≠ W.kernel.current := by
    rintro rfl
    rw [hAwake] at hOther
    cases hOther
  refine ⟨t', ⟨c', Sleepers.call_update.mpr (Or.inr ⟨hNe, hOther⟩), hQueue⟩, ?_⟩
  dsimp only
  rw [setState_state, if_neg hNe]
  exact hRunning

theorem setState_running (hRunning : (k.heap t).state = taskRunning) (t' : BitVec 32) :
    ((k.setState t' 0#32).heap t).state = taskRunning := by
  rw [setState_state]
  split_ifs
  · rfl
  · exact hRunning

theorem wakeUp (h : Promised due p W) (hInv : QueueInvariant W) (q : BitVec 32) :
    Promised due p (W.wakeUp q) := by
  rw [hInv.wakeUp_eq]
  refine h.states hInv fun t _ hRunning => Or.inl ?_
  split_ifs
  · exact setState_running hRunning _
  · exact hRunning

/-- The woken head wakes the next task, and any other task wakes the head. -/
theorem goOn (h : Promised due p W) (hInv : QueueInvariant W) : Promised due p W.goOn := by
  rcases hInv.goOn_cases with hSame | ⟨c, hCall, ⟨hOther, hSame⟩ | ⟨hHead, hSame⟩⟩
  · rw [hSame]
    exact h
  · rw [hSame]
    refine h.states hInv fun t ⟨b, hCallT, hQueue⟩ hRunning => ?_
    by_cases hCurrent : t = W.kernel.current
    · obtain rfl := Option.some.inj ((hCurrent ▸ hCallT).symm.trans hCall)
      rw [← hQueue]
      refine Or.inr ?_
      rw [setState_state, if_neg hOther, setState_state, if_pos rfl]
      rfl
    · refine Or.inl ?_
      rw [setState_state, if_neg hCurrent]
      exact setState_running hRunning _
  · have hInvAfter := hInv.goOn
    rw [hSame] at hInvAfter ⊢
    have hKeep {t : BitVec 32} {b : SleepCall}
        (hAfter : Function.update W.call W.kernel.current none t = some b) : W.call t = some b := by
      rcases Sleepers.call_update.mp hAfter with ⟨_, hNone⟩ | ⟨_, hBefore⟩
      · cases hNone
      · exact hBefore
    refine ⟨h.old, fun t b hAfter => h.queue t b (hKeep hAfter), fun t b hAfter hDue => ?_⟩
    by_cases hQueue : p = c.p
    · subst p
      have hNe := hInvAfter.head_ne ⟨b, hAfter, h.queue t b (hKeep hAfter) hDue⟩
      have hOn := hInvAfter.head_on hNe
      simp only [Function.update_self] at hNe hOn
      refine ⟨c.tmp, hOn, ?_⟩
      dsimp only
      rw [if_pos hNe, setState_state, if_pos rfl]
      rfl
    · obtain ⟨t', ⟨c', hCallT, hQueueT⟩, hRunning⟩ := h.awake t b (hKeep hAfter) hDue
      have hOther : t' ≠ W.kernel.current := by
        rintro rfl
        obtain rfl := Option.some.inj (hCallT.symm.trans hCall)
        exact hQueue hQueueT.symm
      refine ⟨t', ⟨c', Sleepers.call_update.mpr (Or.inr ⟨hOther, hCallT⟩), hQueueT⟩, ?_⟩
      dsimp only
      split_ifs
      · exact setState_running hRunning _
      · exact hRunning

theorem switched (h : Promised due p W) (hInv : QueueInvariant W) (hSwitched : SwitchedTo current W.kernel k) :
    Promised due p { W with kernel := k } :=
  h.states hInv fun t _ hRunning => Or.inl ((hSwitched.state t).trans hRunning)

theorem step (h : Promised due p W) (hInv : QueueInvariant W) (hStep : Sleepers.Step image W W') :
    Promised due p W' := by
  cases hStep with
  | sleepOn _ _ awake call => exact h.sleep awake call
  | interruptibleSleepOn _ _ awake call => exact h.sleep awake call
  | wakeUp q => exact h.wakeUp hInv q
  | resume _ switched => exact (h.switched hInv switched).goOn (hInv.switched switched)
  | idle _ switched => exact (h.switched hInv switched).goOn (hInv.switched switched)

theorem run (h : Promised due p W) (hInv : QueueInvariant W) (hRun : Sleepers.Run image W W') :
    Promised due p W' := by
  induction hRun with
  | refl => exact h
  | tail hPrior hStep ih => exact ih.step (hInv.run hPrior) hStep

/-- `wake_up` promises to every call that is on the queue. -/
theorem of_wakeUp (hInv : QueueInvariant W) (p : BitVec 32) :
    Promised (fun n => ∃ t c, W.call t = some c ∧ c.p = p ∧ c.number = n) p (W.wakeUp p) := by
  rw [hInv.wakeUp_eq]
  refine ⟨?_, ?_, ?_⟩
  · rintro n ⟨t, c, hCall, _, rfl⟩
    exact hInv.numbered t c hCall
  · rintro t c hCall ⟨t', c', hCall', hQueue, hNumber⟩
    obtain rfl := hInv.distinct t' c' t c hCall' hCall hNumber
    obtain rfl := Option.some.inj (hCall.symm.trans hCall')
    exact hQueue
  · rintro t c _ ⟨t', c', hCall', rfl, _⟩
    have hNe : W.head c'.p ≠ 0#32 := hInv.head_ne ⟨c', hCall', rfl⟩
    refine ⟨W.head c'.p, hInv.head_on hNe, ?_⟩
    dsimp only
    rw [if_pos ⟨hInv.queue t' c' hCall', hNe⟩, setState_state, if_pos rfl]
    rfl

end Promised

theorem refilled_state (k : Kernel) (t : BitVec 32) : (k.refilled.heap t).state = (k.heap t).state := by
  classical
  rw [refilled_heap]
  split_ifs <;> rfl

theorem switchTo_switched {next tr : Nat} (hTask : k'.task = k.task)
    (hState : ∀ t, (k'.heap t).state = (k.heap t).state) :
    SwitchedTo (k.task next) k (switchTo next ⟨k', tr⟩).kernel := by
  rw [switchTo]
  split_ifs with hSame
  · exact ⟨hTask, hState, hSame.symm.trans (congrFun hTask next)⟩
  · exact ⟨hTask, hState, congrFun hTask next⟩

/-- What `schedule` does is one of the steps. -/
theorem Sleepers.Step.schedule {tr : Nat} {M : Machine}
    (hCounter : ∀ s, Runnable W.kernel s → 0 ≤ counterOf W.kernel s)
    (hQuantum : ∀ s, Runnable W.kernel s → 0 < quantumOf W.kernel s)
    (hCall : schedule ⟨W.kernel, tr⟩ = .ok M) : Step image W (goOn { W with kernel := M.kernel }) := by
  have hMachine {next : Nat} {k' : Kernel} (hPick : pickNext 2 W.kernel = .ok (next, k')) :
      M = switchTo next ⟨k', tr⟩ := by
    have hRun : Linux011.schedule ⟨W.kernel, tr⟩ = .ok (switchTo next ⟨k', tr⟩) := by
      rw [Linux011.schedule, hPick]
      rfl
    exact Except.ok.inj (hCall.symm.trans hRun)
  rcases pickNext_cases hCounter hQuantum with ⟨hNone, hPick⟩ | ⟨s, hs, _, hPick⟩ | ⟨_, _, s, hs, hPick⟩
  · rw [hMachine hPick]
    exact idle hNone (switchTo_switched rfl fun _ => rfl)
  · rw [hMachine hPick]
    exact resume hs.runnable (switchTo_switched rfl fun _ => rfl)
  · rw [hMachine hPick]
    exact resume (runnable_refilled.mp hs.runnable)
      (switchTo_switched (refilled_task W.kernel) (refilled_state W.kernel))

end

/-- No wake-up is lost. In every run that starts with empty queues, `*p` and the
`tmp` of the sleepers lead through the tasks that are inside a sleep call on
`p`, each once; nothing is printed; and as soon as none of them is runnable, the
calls that were on the queue at any earlier `wake_up` have returned. -/
theorem no_lost_wakeup {image : Image} {k : Kernel} {W : Sleepers}
    (run : Sleepers.Run image (Sleepers.start k) W) (p : BitVec 32) :
    (∃ chain, W.Visits p chain ∧ chain.Nodup ∧ ∀ t, t ∈ chain ↔ W.On p t) ∧
      W.printed = [] ∧
      ∀ W', Sleepers.Run image (W.wakeUp p) W' →
        (∀ t, W'.On p t → (W'.kernel.heap t).state ≠ taskRunning) →
          ∀ t c, W.call t = some c → c.p = p → ∀ t' c', W'.call t' = some c' → c'.number ≠ c.number := by
  have hInv := (QueueInvariant.start k).run run
  obtain ⟨chain, hVisits, hChain⟩ := hInv.visits p
  refine ⟨⟨chain, hVisits, hVisits.nodup, hChain⟩, hInv.printed, ?_⟩
  intro W' later hAsleep t c hCall hQueue t' c' hCall' hSame
  have hPromise := (Promised.of_wakeUp hInv p).run (hInv.wakeUp p) later
  obtain ⟨t, hOn, hRunning⟩ := hPromise.awake t' c' hCall' ⟨t, c, hCall, hQueue, hSame.symm⟩
  exact hAsleep t hOn hRunning

/-- The task in slot 1 is running. -/
def oneTask : Kernel :=
  { smallKernel 0#16 with
    task := fun s => if s = 1 then 0x200000#32 else 0#32
    current := 0x200000#32 }

/-- The same, after it has gone to sleep. -/
def oneSleeper : Sleepers where
  kernel := oneTask.setState 0x200000#32 taskUninterruptible
  head := Function.update (fun _ => 0#32) 0x5800#32 0x200000#32
  call := Function.update (fun _ => none) 0x200000#32 (some ⟨0x5800#32, 0#32, 0⟩)
  calls := 1
  printed := []

theorem oneSleeper_run : Sleepers.Run smallImage (Sleepers.start oneTask) oneSleeper :=
  Relation.ReflTransGen.single
    (Sleepers.Step.sleepOn (p := 0x5800#32) (s := 1) ⟨by decide, by decide, by decide⟩ rfl rfl rfl)

theorem oneSleeper_returns :
    Sleepers.Run smallImage (oneSleeper.wakeUp 0x5800#32) (oneSleeper.wakeUp 0x5800#32).goOn ∧
      ∀ t, (oneSleeper.wakeUp 0x5800#32).goOn.call t = none := by
  have hSlot : Occupied (oneSleeper.wakeUp 0x5800#32).kernel 1 := ⟨by decide, by decide, by decide⟩
  refine ⟨Relation.ReflTransGen.single (Sleepers.Step.resume (s := 1) ⟨hSlot, rfl⟩ ⟨rfl, fun _ => rfl, rfl⟩), ?_⟩
  intro t
  change Function.update (Function.update (fun _ => none) 0x200000#32 _) 0x200000#32 none t = none
  rw [Function.update_idem, Function.update_eq_self_iff.mpr rfl]

/-- A task sleeps, is woken and returns. -/
theorem no_lost_wakeup_oneTask :
    oneSleeper.On 0x5800#32 0x200000#32 ∧ oneSleeper.printed = [] ∧
      ∀ t c, (oneSleeper.wakeUp 0x5800#32).goOn.call t = some c → c.number ≠ 0 := by
  obtain ⟨_, hPrinted, hReturned⟩ := no_lost_wakeup oneSleeper_run 0x5800#32
  obtain ⟨hRun, hNone⟩ := oneSleeper_returns
  refine ⟨⟨_, rfl, rfl⟩, hPrinted, hReturned _ hRun ?_ 0x200000#32 _ rfl rfl⟩
  rintro t ⟨c, hCall, _⟩
  rw [hNone t] at hCall
  cases hCall

end Linux011

import Linux011.Kernel.Sharing

/-! Time sharing: the tasks of a run on the one processor see what tasks on processors of
their own would see. -/
namespace Linux011

open I386

/-- What the tasks take part in: an instruction of slot `s`, which leaves it in `x`, and a fork
by slot `s`, which returns `result` there and has started `child`. -/
inductive Seen where
  | own (s : Nat) (x : Context)
  | fork (s : Nat) (result : BitVec 32) (child : Option Nat)

/-- A processor for each task, from slot 0 in `x` on; the last event comes first. -/
def virtual (x : Context) : List Seen → Nat → Option Context
  | [] => Function.update (fun _ => none) 0 (some x)
  | .own s y :: past => Function.update (virtual x past) s (some y)
  | .fork s result none :: past =>
      Function.update (virtual x past) s ((virtual x past s).map (returning · result))
  | .fork s result (some child) :: past =>
      Function.update (Function.update (virtual x past) s ((virtual x past s).map (returning · result))) child
        ((virtual x past s).map (returning · 0#32))

/-- The slot that a fork has filled. -/
def started (k k' : Kernel) : Option Nat :=
  (List.range nrTasks).find? fun s => k.task s = 0#32 ∧ k'.task s ≠ 0#32

/-- `ltr(0)`, which marks the segment as busy, and `lldt(0)`. -/
def bootProcessor (k : Kernel) (x : Context) (stack : BitVec 32 → Stream' (BitVec 16)) : Processor where
  kernel := k.setGdt (tssEntry 0) ((k.gdt (tssEntry 0)).withType ((k.gdt (tssEntry 0)).type ||| 2#8))
  tr := 0
  ldtr := ldtSelector 0
  cr3 := 0#32
  switched := false
  context := x
  stack := stack

/-- Runs from the first instruction in ring 3 on, with what the tasks have seen. A program keeps
to the selectors of `UserSegments`, leaves ring 3 by the gates below only and uses neither the
coprocessor nor `smsw`. Tasks 1 to 63 store within their own segments, and to a shared page
while a page is free; task 0 stores nothing that the kernel uses. Forks have what they need. The
kernel raises no exception. A tick in ring 0 comes before or after what the kernel does to the
counters of a system call. -/
inductive Shared (text : Text) (extMemK : BitVec 16) (image : Image) (x : Context) : Processor → List Seen → Prop where
  | boot (m : ByteMemory.Memory) (heap : BitVec 32 → TaskStruct) (gdt : Nat → Desc)
      (stack : BitVec 32 → Stream' (BitVec 16)) (table : ∀ i < 256, gdt i = headGdt i) (user : UserSegments x) :
      Shared text extMemK image x (bootProcessor (bootKernel extMemK image m heap gdt) x stack) []
  | own {P : Processor} {past : List Seen} (prior : Shared text extMemK image x P past) (y : Context)
      (user : UserSegments y) : Shared text extMemK image x { P with context := y } (.own P.tr y :: past)
  | store {P : Processor} {past : List Seen} {address e : BitVec 32} (prior : Shared text extMemK image x P past)
      (live : Occupied P.kernel P.tr) (inside : InSegment P.kernel P.tr address)
      (writable : P.kernel.mm.UserWritable address e) (v : BitVec 8) :
      Shared text extMemK image x
        { P with kernel := { P.kernel with mm := P.kernel.mm.storeByte (physical e address) v } } past
  | fault {P : Processor} {past : List Seen} {address e error : BitVec 32} {mm : Mm}
      (prior : Shared text extMemK image x P past) (live : Occupied P.kernel P.tr)
      (inside : InSegment P.kernel P.tr address)
      (maps : P.kernel.mm.Maps (dirIndex address) (tableIndex address) e) (readOnly : ¬Writable e)
      (free : ∃ i < pagingPages, P.kernel.mm.memMap i = 0#8) (call : doWpPage P.kernel.mm address = .ok mm) :
      Shared text extMemK image x
        { P with
          kernel := { P.kernel with mm := mm }
          context := iret ((pageFault { text.link with cr2 := address }).atIret { text.link with cr2 := address }
            (arrive 14 error (trap text.link.high text.above (P.kernel.heap P.running).tss.esp0 P.context))) } past
  | interrupt {P : Processor} {past : List Seen} {vector : Fin 256} {error : BitVec 32} {stub : Stub}
      (prior : Shared text extMemK image x P past) (gate : (idt vector).stub text.link = some stub)
      (returns : idt vector = .noError .doInt3 ∨ idt vector = .keyboardInterrupt) :
      Shared text extMemK image x
        { P with
          context := iret (stub.atIret text.link
            (arrive vector error (trap text.link.high text.above (P.kernel.heap P.running).tss.esp0 P.context))) } past
  | tick {P P' : Processor} {past : List Seen} (prior : Shared text extMemK image x P past)
      (call : text.tick P = .ok P') : Shared text extMemK image x P' past
  | kernelTick {P : Processor} {past : List Seen} {M : Machine} (prior : Shared text extMemK image x P past)
      (call : doTimer 0#32 P.toMachine = .ok M) : Shared text extMemK image x { P with toMachine := M } past
  | fork {P : Processor} {past : List Seen} {env : Surroundings} {y : Context} {k' : Kernel}
      (prior : Shared text extMemK image x P past) (eax : P.context.reg .eax = 2#32)
      (provided : ForkProvided env.ram P.kernel) (call : int80 env P.context P.kernel = .ok (y, k')) :
      Shared text extMemK image x { P with kernel := k', context := y }
        (.fork P.tr (y.reg .eax) (started P.kernel k') :: past)

section

variable {text : Text} {extMemK : BitVec 16} {image : Image} {k k' : Kernel} {P : Processor}
  {A : Nat → Option Context} {y : Context}

theorem started_none (hTask : k'.task = k.task) : started k k' = none := by
  rw [started, List.find?_eq_none]
  intro s _
  simp [hTask]

theorem started_some {nr : Nat} {p : BitVec 32} (hNr : nr < 64) (hEmpty : k.task nr = 0#32)
    (hTask : k'.task = Function.update k.task nr p) (hp : p ≠ 0#32) : started k k' = some nr := by
  have hAll : ∀ s ∈ List.range nrTasks, s ≠ nr → ¬(k.task s = 0#32 ∧ k'.task s ≠ 0#32) := by
    rintro s _ hNe ⟨hFree, hTaken⟩
    rw [hTask, Function.update_of_ne hNe] at hTaken
    exact hTaken hFree
  cases hFind : started k k' with
  | none =>
      have hNone := List.find?_eq_none.mp hFind nr (List.mem_range.mpr hNr)
      rw [hTask, Function.update_self] at hNone
      simp [hEmpty, hp] at hNone
  | some s =>
      have hMem := List.mem_of_find?_eq_some hFind
      have hSome := List.find?_some hFind
      rw [decide_eq_true_eq] at hSome
      by_contra hNe
      exact hAll s hMem (fun hSame => hNe (congrArg some hSame)) hSome

theorem GlobalTable.boot {gdt : Nat → Desc} (m : ByteMemory.Memory) (heap : BitVec 32 → TaskStruct)
    (hTable : ∀ i < 256, gdt i = headGdt i) : GlobalTable (bootKernel extMemK image m heap gdt).gdt := by
  have hAll (j : Nat) : (bootKernel extMemK image m heap gdt).gdt j =
      if 7 ≤ j ∧ j ≤ 260 ∧ (j % 4 = 3 ∨ j % 4 = 0) then ⟨0#32, 0#32⟩
      else if j = firstTssEntry then tssDesc (tssAddr image.initTask)
      else if j = firstLdtEntry then ldtDesc (ldtAddr image.initTask) else gdt j :=
    schedInit_gdt ..
  have hHead {i : Nat} (hi : 4 ≤ i) : (headGdt i).type.getLsbD 4 = false := by
    obtain ⟨j, rfl⟩ := Nat.exists_eq_add_of_le hi
    rw [Nat.add_comm]
    exact (by decide : (⟨0#32, 0#32⟩ : Desc).type.getLsbD 4 = false)
  refine ⟨fun i hi hi' => ?_, fun i hi hi' => ?_⟩
  · rw [hAll, if_neg (by omega), if_neg (by unfold firstTssEntry; omega),
      if_neg (by unfold firstLdtEntry firstTssEntry; omega), hTable i (by omega)]
  · rw [hAll]
    split_ifs
    · decide
    · exact system_tssldtDesc _ (by decide)
    · exact system_tssldtDesc _ (by decide)
    · rw [hTable i hi]
      exact hHead hi'

namespace Sharing

/-- A fork that returns, and what it did. -/
theorem forkResult (h : Sharing text extMemK image P A) {env : Surroundings} (hEax : P.context.reg .eax = 2#32)
    (hProvided : ForkProvided env.ram P.kernel) (hCall : int80 env P.context P.kernel = .ok (y, k')) :
    ∃ result, y = returning P.context result ∧
      sysFork env.ram (forkFrame env (P.kernel.heap P.kernel.current).tss.esp0 P.context) P.kernel = .ok (result, k') ∧
      ForkResult extMemK P.tr (forkFrame env (P.kernel.heap P.kernel.current).tss.esp0 P.context)
        P.kernel result k' := by
  rw [int80_fork env P.context P.kernel hEax] at hCall
  cases hFork : sysFork env.ram (forkFrame env (P.kernel.heap P.kernel.current).tss.esp0 P.context) P.kernel with
  | error stop =>
      rw [hFork] at hCall
      cases hCall
  | ok found =>
      obtain ⟨result, k₁⟩ := found
      rw [hFork] at hCall
      obtain ⟨rfl, rfl⟩ := Prod.mk.inj (Except.ok.inj hCall)
      have hSame : ({ P.kernel with current := taskAddr image P.kernel P.tr } : Kernel) = P.kernel := by
        have hCurrent : P.kernel.current = taskAddr image P.kernel P.tr := h.sched.current
        rw [← hCurrent]
      have hResult : ForkResult extMemK P.tr
          (forkFrame env (P.kernel.heap P.kernel.current).tss.esp0 P.context)
          { P.kernel with current := taskAddr image P.kernel P.tr } result k₁ :=
        h.sched.kernel.forkResult h.sched.live (by rw [hSame]; exact hProvided) (by rw [hSame]; exact hFork)
      rw [hSame] at hResult
      exact ⟨result, rfl, rfl, hResult⟩

theorem fork (h : Sharing text extMemK image P A) {x : Context} {past : List Seen} (hPast : A = virtual x past)
    {env : Surroundings} (hEax : P.context.reg .eax = 2#32) (hProvided : ForkProvided env.ram P.kernel)
    (hCall : int80 env P.context P.kernel = .ok (y, k')) :
    Sharing text extMemK image { P with kernel := k', context := y }
      (virtual x (.fork P.tr (y.reg .eax) (started P.kernel k') :: past)) := by
  obtain ⟨result, rfl, hFork, hResult⟩ := h.forkResult hEax hProvided hCall
  have hSched := h.sched.fork hProvided hFork
  have hEaxOf : (returning P.context result).reg .eax = result := by
    simp [returning]
  have hHere : virtual x past P.tr = some P.context := hPast ▸ h.here
  rw [hEaxOf]
  cases hResult with
  | @noSlot pid =>
      have hNone : started P.kernel { P.kernel with lastPid := pid } = none := started_none rfl
      have hKept : SameTasks image P.kernel { P.kernel with lastPid := pid } := .of_heap rfl rfl rfl
      rw [hNone, virtual, hHere, ← hPast]
      exact h.fork_failed hKept hSched _
  | @made nr _ _ search slot empty made =>
      obtain ⟨i, hi, _, hTask, _⟩ := made.page
      have hSome : started P.kernel k' = some nr := started_some slot.2 empty hTask (pageAddr_ne_zero hi)
      rw [hSome, virtual, hHere, ← hPast]
      exact h.fork_made slot empty made hSched (fun p => resumes_child _ _ _ _ _ _ _ _) _

theorem boot (m : ByteMemory.Memory) (heap : BitVec 32 → TaskStruct) (gdt : Nat → Desc) {x : Context}
    (stack : BitVec 32 → Stream' (BitVec 16)) (hTable : ∀ i < 256, gdt i = headGdt i) (hUser : UserSegments x) :
    Sharing text extMemK image (bootProcessor (bootKernel extMemK image m heap gdt) x stack) (virtual x []) := by
  have hLive {s : Nat} (hs : Live (bootProcessor (bootKernel extMemK image m heap gdt) x stack).kernel s) : s = 0 :=
    hs.resolve_right fun hs => hs.task (bootKernel_task extMemK image m heap gdt s)
  have hInit : (bootKernel extMemK image m heap gdt).heap image.initTask = initTask image := by
    rw [bootKernel_heap]
    exact Function.update_self ..
  have hTss : (bootKernel extMemK image m heap gdt).gdt (tssEntry 0) = tssDesc (tssAddr image.initTask) := by
    rw [bootKernel, schedInit_gdt, if_neg (by decide), if_pos (by decide)]
  have hLdt : (bootKernel extMemK image m heap gdt).gdt (ldtEntry 0) = ldtDesc (ldtAddr image.initTask) := by
    rw [bootKernel, schedInit_gdt, if_neg (by decide), if_neg (by decide), if_pos (by decide)]
  have hBusy : (bootProcessor (bootKernel extMemK image m heap gdt) x stack).kernel.gdt (tssEntry 0) =
      tssldtDesc (tssAddr image.initTask) 0x8b#8 := by
    rw [bootProcessor]
    dsimp only [Kernel.setGdt]
    rw [Function.update_self, hTss, tssDesc, Desc.type_tssldtDesc, Desc.withType_tssldtDesc]
    rfl
  have hLocal : (bootProcessor (bootKernel extMemK image m heap gdt) x stack).kernel.gdt (ldtEntry 0) =
      ldtDesc (ldtAddr image.initTask) := by
    rw [bootProcessor]
    dsimp only [Kernel.setGdt]
    rw [Function.update_of_ne ldtEntry_ne, hLdt]
  have hGlobal : GlobalTable (bootProcessor (bootKernel extMemK image m heap gdt) x stack).kernel.gdt := by
    refine (GlobalTable.boot m heap hTable).update (by decide) ?_
    rw [Desc.type_withType, BitVec.getLsbD_or, hTss, tssDesc, Desc.type_tssldtDesc]
    decide
  have hTables : LocalTables image (bootProcessor (bootKernel extMemK image m heap gdt) x stack).kernel := by
    refine ⟨fun s hs => ?_, fun s hs => ?_, fun s hs => ?_⟩ <;>
      obtain rfl := hLive hs
    · change ((bootKernel extMemK image m heap gdt).heap image.initTask).ldt0 = _
      rw [hInit]
      rfl
    · change ((bootKernel extMemK image m heap gdt).heap image.initTask).ldt1 = _
      rw [hInit]
      exact (by decide : (⟨0xfff#32, 0xc0fa00#32⟩ : Desc) = taskCode 0)
    · change ((bootKernel extMemK image m heap gdt).heap image.initTask).ldt2 = _
      rw [hInit]
      exact (by decide : (⟨0xfff#32, 0xc0f200#32⟩ : Desc) = taskData 0)
  refine ⟨?_, fun s hs => ?_, ⟨fun s hs => ?_, fun s hs => ?_, fun s hs => ?_, fun s hs => ?_⟩, hGlobal, hTables, rfl,
    rfl, fun s hs hWait => absurd (hLive hs) hWait, fun s hs => ?_, ?_, fun s hs hWait => absurd (hLive hs) hWait,
    fun s y hy => ?_⟩
  · exact (SchedInvariant.boot m heap gdt).setGdt _ _
  · obtain rfl := hLive hs
    change ((bootKernel extMemK image m heap gdt).heap image.initTask).state = taskRunning
    rw [hInit]
    rfl
  · obtain rfl := hLive hs
    exact hBusy
  · obtain rfl := hLive hs
    exact hLocal
  · obtain rfl := hLive hs
    change ((bootKernel extMemK image m heap gdt).heap image.initTask).tss.ldt = ldtSelector 0
    rw [hInit]
    rfl
  · obtain rfl := hLive hs
    change ((bootKernel extMemK image m heap gdt).heap image.initTask).tss.cr3 = 0#32
    rw [hInit]
    rfl
  · rw [virtual, Function.update_of_ne fun hZero => hs (Or.inl hZero)]
  · simp [virtual, bootProcessor]
  · by_cases hZero : s = 0
    · rw [virtual, hZero, Function.update_self] at hy
      exact Option.some.inj hy ▸ hUser
    · rw [virtual, Function.update_of_ne hZero] at hy
      cases hy

end Sharing

/-- The state after any run. -/
theorem Shared.sharing {x : Context} {past : List Seen} (run : Shared text extMemK image x P past) :
    Sharing text extMemK image P (virtual x past) := by
  induction run with
  | boot m heap gdt stack table user => exact Sharing.boot m heap gdt stack table user
  | own prior y user ih => exact ih.own user
  | store prior live inside writable v ih =>
      have hSched := ih.sched.set_mm (ih.sched.kernel.store live inside writable v)
      exact ih.same (.of_heap rfl rfl rfl) hSched
  | @fault P past address e error mm prior live inside maps readOnly free call ih =>
      have hKernel := ih.sched.kernel.fault (ih.sched.kernel.user_of_inSegment live inside) maps
        (ih.sched.kernel.faultResult live inside maps free call)
      have hSched := ih.sched.set_mm hKernel
      have hSame : SameTasks image P.kernel { P.kernel with mm := mm } := .of_heap rfl rfl rfl
      refine (ih.same hSame hSched).same_context ?_
      have hGate : idt 14 = .pageFault := by decide +kernel
      exact iret_interrupt { text.link with cr2 := address } 14 error _ _ _ _ (by rw [hGate]; rfl)
        fun hIgnore => absurd (hGate.symm.trans hIgnore) (by decide)
  | interrupt prior gate returns ih =>
      refine ih.same_context (iret_interrupt _ _ _ _ _ _ _ gate fun hIgnore => ?_)
      rw [hIgnore] at returns
      exact absurd returns (by decide)
  | tick prior call ih =>
      rcases ih.tick_cases with ⟨⟨P', hCall, hSharing⟩, _⟩ | ⟨hCall, _⟩
      · obtain rfl := Except.ok.inj (call.symm.trans hCall)
        exact hSharing
      · rw [call] at hCall
        cases hCall
  | kernelTick prior call ih =>
      rcases ih.sched.doTimer_cases 0#32 with ⟨_, k, hCharged, hCall⟩ | ⟨_, hUser, _⟩
      · obtain rfl := Except.ok.inj (call.symm.trans hCall)
        exact ih.same hCharged.sameTasks (ih.sched.rescheduled hCharged.rescheduled)
      · exact absurd rfl hUser
  | fork prior eax provided call ih => exact ih.fork rfl eax provided call

/-- The running task has what it would have on a processor of its own, every other task is
resumed with that, and there are no more tasks than those processors. -/
theorem time_sharing_transparent {x : Context} {past : List Seen} (run : Shared text extMemK image x P past) :
    virtual x past P.tr = some P.context ∧
      (∀ s, Live P.kernel s → s ≠ P.tr →
        virtual x past s = some (text.waiting P (taskAddr image P.kernel s))) ∧
      ∀ s, ¬Live P.kernel s → virtual x past s = none :=
  ⟨run.sharing.here, run.sharing.waiting, run.sharing.dead⟩

/-- The next tick in ring 3 ends in a general protection exception exactly when it uses up the
quantum of task 0 and no slot is occupied. The descriptors lead to the task structures, the busy
bit and the local descriptor table are those of the running task. -/
theorem task_switch_faults_iff {x : Context} {past : List Seen} (run : Shared text extMemK image x P past) :
    (text.tick P = .error .generalProtection ↔ P.UsedUp ∧ ∀ s, ¬Occupied P.kernel s) ∧
      (text.tick P ≠ .error .generalProtection → ∃ P', text.tick P = .ok P') ∧
      (∀ s, Live P.kernel s → (P.kernel.gdt (tssEntry s)).task = taskAddr image P.kernel s ∧
        ((P.kernel.gdt (tssEntry s)).type = 0x8b#8 ↔ s = P.tr)) ∧
      (P.kernel.gdt (P.ldtr.toNat / 8)).base = ldtAddr P.kernel.current ∧ P.cr3 = 0#32 := by
  have h := run.sharing
  refine ⟨h.tick_faults_iff, fun hNot => ?_, fun s hs => ?_, ?_, h.cr3⟩
  · rcases h.tick_cases with ⟨⟨P', hCall, _⟩, _⟩ | ⟨hCall, _⟩
    · exact ⟨P', hCall⟩
    · exact absurd hCall hNot
  · rw [h.described.tss s hs, Desc.task_tssldtDesc, Desc.type_tssldtDesc]
    refine ⟨rfl, ?_⟩
    split_ifs with hSame
    · exact iff_of_true rfl hSame
    · exact iff_of_false (by decide) hSame
  · have hCurrent : P.kernel.current = taskAddr image P.kernel P.tr := h.sched.current
    rw [h.ldtr, ldtSelector_index h.sched.live.lt, h.described.ldt P.tr h.sched.live, hCurrent]
    exact Desc.base_tssldtDesc _ _

end

section Boot

variable {text : Text} {extMemK : BitVec 16} {image : Image} {P P' : Processor} {x : Context} {past : List Seen}

theorem Processor.ljmp_tr {n : Nat} (h : P.ljmp n = .ok P') : P'.tr = n := by
  rw [Processor.ljmp] at h
  split_ifs at h
  split at h
  · cases h
  · obtain rfl := Except.ok.inj h
    rfl

/-- A tick that uses up no quantum. -/
theorem Text.tick_charged (hRing : P.context.cs &&& 3#16 = 3#16) (hLeft : ¬P.UsedUp) :
    text.tick P = .ok { P with
      kernel := P.kernel.setCounter P.kernel.current ((P.kernel.heap P.kernel.current).counter - 1#32) } := by
  dsimp only [Text.tick]
  rw [cpl_user text hRing, doTimer_charged hLeft]
  dsimp only
  rw [atIret_timerInterrupt, iret_trap]
  exact if_pos rfl

/-- The slot that runs after a tick is the one that `do_timer` has chosen. -/
theorem Text.tick_tr {M : Machine} (hRing : P.context.cs &&& 3#16 = 3#16) (hTimer : doTimer 3#32 P.toMachine = .ok M)
    (hCall : text.tick P = .ok P') : P'.tr = M.tr := by
  dsimp only [Text.tick] at hCall
  rw [cpl_user text hRing, hTimer] at hCall
  dsimp only at hCall
  split_ifs at hCall
  · obtain rfl := Except.ok.inj hCall
    rfl
  · obtain ⟨P₁, hJump, hRest⟩ := bind_eq_ok hCall
    obtain rfl := Except.ok.inj hRest
    exact (Processor.ljmp_tr hJump :)

/-- The running task spends its quantum but for the last tick. -/
theorem Shared.usedUp (run : Shared text extMemK image x P past) {n : Nat} (hn : n < 100)
    (hCounter : (P.kernel.heap P.kernel.current).counter = BitVec.ofNat 32 (n + 1)) :
    ∃ P', Shared text extMemK image x P' past ∧ P'.UsedUp ∧ P'.tr = P.tr ∧ P'.kernel.task = P.kernel.task ∧
      ∀ p, (P'.kernel.heap p).tss = (P.kernel.heap p).tss := by
  induction n generalizing P with
  | zero =>
      refine ⟨P, run, ?_, rfl, rfl, fun _ => rfl⟩
      rw [Machine.UsedUp, hCounter]
      decide
  | succ n ih =>
      have hSpend : BitVec.ofNat 32 (n + 1 + 1) - 1#32 = BitVec.ofNat 32 (n + 1) := by
        rw [BitVec.ofNat_add, BitVec.add_sub_cancel]
      have hLeft : ¬P.UsedUp := Machine.not_usedUp (by omega) hCounter
      have hTick := run.tick (Text.tick_charged run.sharing.ring hLeft)
      obtain ⟨P', hRun, hUsed, hTr, hTask, hTss⟩ := ih hTick (by omega) (by
        dsimp only [Kernel.setCounter, Kernel.setTask]
        rw [Function.update_self, hCounter, hSpend])
      exact ⟨P', hRun, hUsed, hTr, hTask, fun p => (hTss p).trans ((Machine.charged hLeft).tss p)⟩

/-- The last tick of task 0 switches to another task where there is one. -/
theorem Shared.lastTick (run : Shared text extMemK image x P past) (hUsed : P.UsedUp) (hTr : P.tr = 0)
    (hSome : ∃ s, Occupied P.kernel s) : ∃ P', text.tick P = .ok P' ∧ P'.tr ≠ 0 := by
  have h := run.sharing
  have hCurrent : P.kernel.current = taskAddr image P.kernel P.tr := h.sched.current
  rcases h.tick_cases with ⟨⟨P', hCall, _⟩, _⟩ | ⟨_, _, hNone⟩
  · refine ⟨P', hCall, ?_⟩
    rcases h.sched.doTimer_cases 3#32 with
      ⟨hLeft, _⟩ | ⟨_, _, ⟨hNone, _⟩ | ⟨next, k, hCharged, hNext, hTimer⟩⟩
    · exact absurd hUsed (hLeft.resolve_right (by decide))
    · obtain ⟨s, hs⟩ := hSome
      refine absurd ⟨⟨hs.pos, hs.lt, hs.task⟩, ?_⟩ (hNone s)
      have hState := h.awake s (Or.inr hs)
      rw [hs.taskAddr] at hState
      exact ((Charged.setCounter (by decide)).state _).trans hState
    · have hNe : k.task next ≠ k.current := by
        rw [hCharged.rescheduled.task, hCharged.rescheduled.current, hCurrent, ← hNext.1.taskAddr]
        intro hSame
        have hBoth := h.sched.kernel.taskAddr_inj (Or.inr hNext.1) h.sched.live hSame
        have hPos := hNext.1.pos
        omega
      rw [switchTo, if_neg hNe] at hTimer
      rw [Text.tick_tr h.ring hTimer hCall]
      have hPos := hNext.1.pos
      change next ≠ 0
      omega
  · obtain ⟨s, hs⟩ := hSome
    exact absurd hs (hNone s)

variable (m : ByteMemory.Memory) (heap : BitVec 32 → TaskStruct) (gdt : Nat → Desc)
  (stack : BitVec 32 → Stream' (BitVec 16))

/-- Task 0 starts alone. -/
theorem bootProcessor_alone (s : Nat) :
    ¬Occupied (bootProcessor (bootKernel extMemK image m heap gdt) x stack).kernel s :=
  fun hs => hs.task (bootKernel_task extMemK image m heap gdt s)

end Boot

/-- `do_timer` does not do anything around its `ljmp`. -/
def bareText : Text where
  link := bareLinkage
  above := Stream'.const 0#16
  timer :=
    { before := id
      after := returnsAtOnce.body
      split := fun _ => rfl
      seg := fun _ => rfl
      eip := 0x7000#32
      eflags := fun _ => 2#32 }

/-- The kernel in front of `move_to_user_mode`. -/
def shippedKernel (extMemK : BitVec 16) : Kernel :=
  bootKernel extMemK smallImage (fun _ => 0) (fun _ => initTask smallImage) headGdt

/-- The processor there, with the registers of a task that is about to fork. -/
def shippedProcessor (extMemK : BitVec 16) : Processor :=
  bootProcessor (shippedKernel extMemK) forkingContext fun _ => Stream'.const 0#16

theorem forkingContext_segments : UserSegments forkingContext :=
  ⟨rfl, Or.inl rfl, fun s => by cases s <;> (unfold UserData; decide)⟩

theorem shippedProcessor_shared (extMemK : BitVec 16) :
    Shared bareText extMemK smallImage forkingContext (shippedProcessor extMemK) [] :=
  Shared.boot (fun _ => 0) (fun _ => initTask smallImage) headGdt (fun _ => Stream'.const 0#16) (fun _ _ => rfl)
    forkingContext_segments

theorem shippedProcessor_init (extMemK : BitVec 16) : (shippedProcessor extMemK).kernel.current = 0x5000#32 ∧
    (shippedProcessor extMemK).kernel.heap 0x5000#32 = initTask smallImage := by
  rw [shippedProcessor, bootProcessor, Kernel.setGdt_current, Kernel.setGdt_heap, shippedKernel, bootKernel_heap]
  exact ⟨bootKernel_current extMemK smallImage _ _ _, Function.update_self _ _ _⟩

theorem shippedProcessor_ram (extMemK : BitVec 16) : (shippedProcessor extMemK).kernel.ram 0x20#32 = 0#8 ∧
    (shippedProcessor extMemK).kernel.ram 0x28#32 = 0#8 := by
  rw [Kernel.ram, shippedProcessor, bootProcessor, Kernel.setGdt_mm, shippedKernel, bootKernel_mm]
  exact ⟨bootMm_zero extMemK (by decide) (by decide), bootMm_zero extMemK (by decide) (by decide)⟩

/-- Task 0 forks and spends its quantum but for the last tick. -/
theorem Shared.firstChild {text : Text} {x : Context} {P : Processor} {past : List Seen}
    (run : Shared text 15360#16 smallImage x P past) (hEax : P.context.reg .eax = 2#32) (hTr : P.tr = 0)
    (hNone : ∀ s, ¬Occupied P.kernel s) (hCurrent : P.kernel.current = 0x5000#32)
    (hInit : P.kernel.heap 0x5000#32 = initTask smallImage) (hCode : P.kernel.ram 0x20#32 = 0#8)
    (hData : P.kernel.ram 0x28#32 = 0#8) : ∃ P' past' nr, Shared text 15360#16 smallImage x P' past' ∧ P'.UsedUp ∧
      P'.tr = 0 ∧ Occupied P'.kernel nr ∧ (∀ s, Occupied P'.kernel s → s = nr) ∧
      (P'.kernel.heap (taskAddr smallImage P'.kernel nr)).tss.context = returning P.context 0#32 := by
  have h := run.sharing
  have hKernel : KernelInvariant 15360#16 smallImage P.kernel := h.sched.kernel
  let env : Surroundings := { someSurroundings with ram := P.kernel.ram }
  obtain ⟨pid, k', nr, hNr, _, hProvided, hFork, hMade⟩ := hKernel.firstChild hNone (by decide)
    (hTr ▸ h.sched.current) (bases_smallImage hCurrent hInit hCode hData)
    (forkFrame env (P.kernel.heap P.kernel.current).tss.esp0 P.context)
  have hCall := int80_fork env P.context P.kernel hEax
  rw [show env.ram = P.kernel.ram from rfl, hFork] at hCall
  have hEmpty : P.kernel.task nr = 0#32 := by
    by_contra hTask
    exact hNone nr ⟨hNr.1, hNr.2, hTask⟩
  have hGrown := hKernel.grown hNr hEmpty hMade
  have hChild : (k'.heap (taskAddr smallImage k' nr)).tss.context = returning P.context 0#32 := by
    rw [hGrown.struct]
    exact (resumes_child _ _ _ _ _ _ _ _).context
  have hParent : (k'.heap k'.current).counter = 15#32 := by
    obtain ⟨_, _, _, hKept⟩ := hGrown.keeps 0 (Or.inl rfl)
    have hStart : taskAddr smallImage P.kernel 0 = 0x5000#32 := if_pos rfl
    rw [hStart] at hKept
    rw [hMade.current]
    dsimp only
    rw [hCurrent, hKept, hInit]
    rfl
  obtain ⟨P', hRun, hUsed, hSame, hTask, hTss⟩ := (run.fork hEax hProvided hCall).usedUp (n := 14) (by omega) hParent
  dsimp only at hSame hTask hTss
  have hOld {s : Nat} (hs : Occupied P'.kernel s) : Occupied k' s := ⟨hs.pos, hs.lt, hTask ▸ hs.task⟩
  refine ⟨P', _, nr, hRun, hUsed, hSame.trans hTr, ⟨hNr.1, hNr.2, hTask ▸ hGrown.child.task⟩, fun s hs => ?_, ?_⟩
  · rcases hGrown.back s (Or.inr (hOld hs)) with hNew | rfl | hBefore
    · exact hNew
    · exact absurd hs.pos (by omega)
    · exact absurd hBefore (hNone s)
  · rw [taskAddr_congr hTask, hTss, hChild]

/-- Task 0 forks and spends its quantum, and the child runs. -/
theorem shipped_child : ∃ P past, Shared bareText 15360#16 smallImage forkingContext P past ∧ P.tr ≠ 0 := by
  have run := shippedProcessor_shared 15360#16
  have hEax : (shippedProcessor 15360#16).context.reg .eax = 2#32 := rfl
  have hTr : (shippedProcessor 15360#16).tr = 0 := rfl
  obtain ⟨hCurrent, hInit⟩ := shippedProcessor_init 15360#16
  obtain ⟨hCode, hData⟩ := shippedProcessor_ram 15360#16
  obtain ⟨P, past, nr, hRun, hUsed, hZero, hChild, _⟩ :=
    run.firstChild hEax hTr (bootProcessor_alone _ _ _ _) hCurrent hInit hCode hData
  obtain ⟨P', hTick, hOther⟩ := hRun.lastTick hUsed hZero ⟨nr, hChild⟩
  exact ⟨P', past, hRun.tick hTick, hOther⟩

/-- The parent waits where it was interrupted, and the child sees what it would see alone. -/
theorem time_sharing_transparent_child : ∃ P past, Shared bareText 15360#16 smallImage forkingContext P past ∧
    P.tr ≠ 0 ∧ virtual forkingContext past P.tr = some P.context ∧
      virtual forkingContext past 0 = some (bareText.waiting P smallImage.initTask) := by
  obtain ⟨P, past, hRun, hTr⟩ := shipped_child
  obtain ⟨hHere, hWaits, _⟩ := time_sharing_transparent hRun
  exact ⟨P, past, hRun, hTr, hHere, hWaits 0 (Or.inl rfl) hTr.symm⟩

/-- With a child no tick faults. -/
theorem task_switch_faults_iff_child : ∃ P P' past, Shared bareText 15360#16 smallImage forkingContext P past ∧
    P.tr ≠ 0 ∧ bareText.tick P = .ok P' := by
  obtain ⟨P, past, hRun, hTr⟩ := shipped_child
  obtain ⟨hFault, hElse, _⟩ := task_switch_faults_iff hRun
  obtain ⟨P', hTick⟩ := hElse fun hNow => (hFault.mp hNow).2 P.tr (hRun.sharing.sched.live.resolve_left hTr)
  exact ⟨P, P', past, hRun, hTr, hTick⟩

end Linux011

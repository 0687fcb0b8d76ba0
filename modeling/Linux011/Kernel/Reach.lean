import Linux011.Kernel.Capacity

/-! The segments that a program in ring 3 can load into a data segment register, and the linear
addresses behind them, as long as no program has loaded any but its own and that of the display. -/
namespace Linux011

open I386 SubRegisters

/-- The types that ring 3 may load into a data segment register. -/
def ring3Type (type : BitVec 8) : Bool :=
  isPresent type && isReadable type && (isConforming type || dpl type == 3#2)

/-- The linear addresses that a descriptor gives access to; a data segment with bit 2 in its type
expands down. -/
def Desc.Covers (desc : Desc) (address : BitVec 32) : Prop :=
  ∃ offset, address = desc.base + offset ∧
    if !desc.type.getLsbD 3 && desc.type.getLsbD 2 then
      lsl desc < offset ∧ (desc.b.getLsbD 22 = false → offset ≤ 0xffff#32)
    else offset ≤ lsl desc

/-- A load of a data segment register in ring 3, without the null selectors. -/
def Processor.load (P : Processor) (selector : BitVec 16) : Option Desc :=
  (P.kernel.descriptor P.ldtr selector).filter (ring3Type ·.type)

/-- The linear addresses of slot `s`. -/
def InOwn (s : Nat) (address : BitVec 32) : Prop :=
  0x4000000 * s ≤ address.toNat ∧ address.toNat < 0x4000000 * s + 0x1000000

section

variable {text : Text} {extMemK : BitVec 16} {image : Image} {k k' : Kernel} {P : Processor}
  {x : Context} {past : List Seen} {s : Nat}

theorem ring3Type_taskCode : ring3Type (taskCode s).type = true := by
  rw [type_taskCode]
  decide

theorem ring3Type_taskData : ring3Type (taskData s).type = true := by
  rw [type_taskData]
  decide

theorem ring3Type_system {type : BitVec 8} (h : type.getLsbD 4 = false) : ring3Type type = false := by
  rw [ring3Type, isReadable, h, Bool.false_and, Bool.and_false, Bool.false_and]

theorem covers_iff {desc : Desc} (hUp : (!desc.type.getLsbD 3 && desc.type.getLsbD 2) = false) (address : BitVec 32) :
    desc.Covers address ↔ address - desc.base ≤ lsl desc := by
  unfold Desc.Covers
  rw [hUp]
  constructor
  · rintro ⟨offset, rfl, hLe⟩
    rw [BitVec.add_comm, BitVec.add_sub_cancel]
    exact hLe
  · intro hLe
    exact ⟨address - desc.base, by rw [BitVec.add_comm, BitVec.sub_add_cancel], hLe⟩

/-- The 16MB of a slot. -/
theorem covers_slot {desc : Desc} (hLimit : lsl desc = 0xffffff#32)
    (hUp : (!desc.type.getLsbD 3 && desc.type.getLsbD 2) = false) (hs : s < 64) (address : BitVec 32) :
    (setBase desc (taskBase s)).Covers address ↔ InOwn s address := by
  have hBase := taskBase_toNat hs
  have hLt := address.isLt
  rw [covers_iff (by rwa [type_setBase]), base_setBase, lsl_setBase, hLimit, BitVec.le_def, BitVec.toNat_sub, hBase,
    show (0xffffff#32).toNat = 0xffffff from rfl, InOwn]
  omega

/-- 256MB from the memory of the display on. -/
theorem covers_video (address : BitVec 32) :
    (headGdt 3).Covers address ↔ 0xb8000 ≤ address.toNat ∧ address.toNat < 0x100b8000 := by
  have hLt := address.isLt
  rw [covers_iff (by decide), show (headGdt 3).base = 0xb8000#32 by decide,
    show lsl (headGdt 3) = 0xfffffff#32 by decide, BitVec.le_def, BitVec.toNat_sub,
    show (0xfffffff#32).toNat = 0xfffffff from rfl,
    show (0xb8000#32).toNat = 0xb8000 from rfl]
  omega

theorem Shared.descriptor_local (run : Shared text extMemK image x P past) {selector : BitVec 16}
    (hTable : selector.getLsbD 2 = true) : P.kernel.descriptor P.ldtr selector = if selector.toNat / 8 ≤ 12
      then some ((P.kernel.heap P.kernel.current).tableEntry (selector.toNat / 8)) else none := by
  have h := run.sharing
  have hCurrent : P.kernel.current = taskAddr image P.kernel P.tr := h.sched.current
  refine Kernel.descriptor_local ?_ hTable
  rw [h.ldtr, ldtSelector_index h.sched.live.lt, h.described.ldt P.tr h.sched.live, hCurrent]

theorem Shared.load_global (run : Shared text extMemK image x P past) {selector : BitVec 16}
    (hTable : selector.getLsbD 2 = false) (desc : Desc) :
    P.load selector = some desc ↔ selector.toNat / 8 = 3 ∧ desc = headGdt 3 := by
  have hGlobal := run.sharing.global
  rw [Processor.load, Option.filter_eq_some_iff, Kernel.descriptor_global hTable]
  generalize selector.toNat / 8 = i
  constructor
  · rintro ⟨hDesc, hType⟩
    split_ifs at hDesc with hRange
    obtain rfl := Option.some.inj hDesc
    by_cases hHigh : 4 ≤ i
    · rw [ring3Type_system (hGlobal.system i (by omega) hHigh)] at hType
      cases hType
    · rw [hGlobal.head i hRange.1 (by omega)] at hType ⊢
      have hOnly : ∀ i < 4, 0 < i → ring3Type (headGdt i).type = true → i = 3 := by decide
      obtain rfl := hOnly i (by omega) hRange.1 hType
      exact ⟨rfl, rfl⟩
  · rintro ⟨rfl, rfl⟩
    refine ⟨?_, by decide⟩
    rw [if_pos (by omega), hGlobal.head 3 (by omega) (by omega)]

theorem Shared.load_local (run : Shared text extMemK image x P past) {selector : BitVec 16}
    (hTable : selector.getLsbD 2 = true) (desc : Desc) :
    P.load selector = some desc ↔
      (selector.toNat / 8 = 1 ∧ desc = taskCode P.tr) ∨ (selector.toNat / 8 = 2 ∧ desc = taskData P.tr) ∨
        (3 ≤ selector.toNat / 8 ∧ selector.toNat / 8 ≤ 12) ∧
          desc = (P.kernel.heap P.kernel.current).tableEntry (selector.toNat / 8) ∧ ring3Type desc.type = true := by
  have hLive : Live P.kernel P.tr := run.sharing.sched.live
  have hCurrent : P.kernel.current = taskAddr image P.kernel P.tr := run.sharing.sched.current
  have hNull := run.sharing.locals.null P.tr hLive
  have hCode := run.sharing.locals.code P.tr hLive
  have hData := run.sharing.locals.data P.tr hLive
  rw [← hCurrent] at hNull hCode hData
  rw [Processor.load, Option.filter_eq_some_iff, run.descriptor_local hTable]
  generalize selector.toNat / 8 = i
  constructor
  · rintro ⟨hDesc, hType⟩
    split_ifs at hDesc with hRange
    obtain rfl := Option.some.inj hDesc
    rcases i with _ | _ | _ | i
    · change ring3Type (P.kernel.heap P.kernel.current).ldt0.type = true at hType
      rw [hNull] at hType
      exact absurd hType (by decide)
    · exact Or.inl ⟨rfl, hCode⟩
    · exact Or.inr (Or.inl ⟨rfl, hData⟩)
    · exact Or.inr (Or.inr ⟨⟨by omega, hRange⟩, rfl, hType⟩)
  · rintro (⟨rfl, rfl⟩ | ⟨rfl, rfl⟩ | ⟨⟨_, hRange⟩, rfl, hType⟩)
    · exact ⟨(if_pos (by omega)).trans (congrArg some hCode), ring3Type_taskCode⟩
    · exact ⟨(if_pos (by omega)).trans (congrArg some hData), ring3Type_taskData⟩
    · exact ⟨if_pos hRange, hType⟩

/-- In every such run ring 3 can load the segment of the display, the two segments of the running
task, and whatever the words of its task state segment make a segment of. The first one has 256MB
where the display has 4000 bytes, so behind it lie the kernel and the tasks 1 to 3. -/
theorem ring3_reach (run : Shared text extMemK image x P past) :
    (∀ selector desc, P.load selector = some desc ↔
      (selector.getLsbD 2 = false ∧ selector.toNat / 8 = 3 ∧ desc = headGdt 3) ∨
        selector.getLsbD 2 = true ∧
          ((selector.toNat / 8 = 1 ∧ desc = taskCode P.tr) ∨ (selector.toNat / 8 = 2 ∧ desc = taskData P.tr) ∨
            (3 ≤ selector.toNat / 8 ∧ selector.toNat / 8 ≤ 12) ∧
              desc = (P.kernel.heap P.kernel.current).tableEntry (selector.toNat / 8) ∧
              ring3Type desc.type = true)) ∧
      (∀ address, (headGdt 3).Covers address ↔ 0xb8000 ≤ address.toNat ∧ address.toNat < 0x100b8000) ∧
      (∀ address, (taskCode P.tr).Covers address ↔ InOwn P.tr address) ∧
      ∀ address, (taskData P.tr).Covers address ↔ InOwn P.tr address := by
  have hLive : Live P.kernel P.tr := run.sharing.sched.live
  refine ⟨fun selector desc => ?_, covers_video, covers_slot (by decide) (by decide) hLive.lt,
    covers_slot (by decide) (by decide) hLive.lt⟩
  cases hTable : selector.getLsbD 2 with
  | false =>
      rw [run.load_global hTable]
      simp only [true_and, Bool.false_eq_true, false_and, or_false]
  | true =>
      rw [run.load_local hTable]
      simp only [Bool.true_eq_false, false_and, true_and, false_or]

/-- A task that has not run yet goes on with the registers that its parent had, and finds them in
its local table: at its first instruction `esi` and `edi` are entry 11. So a parent chooses what
segment the child can load with the selector 0x5f, up to all of the 4GB. -/
theorem child_chooses_segment (run : Shared text extMemK image x P past) (hs : Live P.kernel s) (hOther : s ≠ P.tr)
    (hFresh : (P.kernel.heap (taskAddr image P.kernel s)).tss.context.cs &&& 3#16 ≠ 0#16) :
    virtual x past s = some (P.kernel.heap (taskAddr image P.kernel s)).tss.context ∧
      ∀ P', text.tick P = .ok P' → P'.tr = s →
        P'.context = (P.kernel.heap (taskAddr image P.kernel s)).tss.context ∧ ∀ desc, P'.load 0x5f#16 = some desc ↔
          desc = ⟨P'.context.reg .esi, P'.context.reg .edi⟩ ∧ ring3Type desc.type = true := by
  have h := run.sharing
  have hCurrent : P.kernel.current = taskAddr image P.kernel P.tr := h.sched.current
  have hWaits := h.waiting s hs hOther
  have hResume : text.waiting P (taskAddr image P.kernel s) =
      (P.kernel.heap (taskAddr image P.kernel s)).tss.context := resume_user _ text hFresh _
  rw [hResume] at hWaits
  refine ⟨hWaits, fun P' hCall hTr => ?_⟩
  have run' := run.tick hCall
  have hTicked := h.ticked hCall
  have hHere := run'.sharing.here
  have hThere : P'.kernel.current = taskAddr image P'.kernel P'.tr := run'.sharing.sched.current
  rw [hTr] at hHere hThere
  have hContext : P'.context = (P.kernel.heap (taskAddr image P.kernel s)).tss.context :=
    Option.some.inj (hHere.symm.trans hWaits)
  refine ⟨hContext, fun desc => ?_⟩
  have hKept : (P'.kernel.heap P'.kernel.current).tss = (P.kernel.heap (taskAddr image P.kernel s)).tss := by
    rw [hThere, taskAddr_congr hTicked.task]
    refine hTicked.others _ fun hSame => hOther ?_
    rw [hCurrent] at hSame
    exact h.sched.kernel.taskAddr_inj hs h.sched.live hSame
  have hEntry : (P'.kernel.heap P'.kernel.current).tableEntry 11 =
      ⟨P'.context.reg .esi, P'.context.reg .edi⟩ := by
    rw [hContext, ← hKept]
    rfl
  rw [run'.load_local (by decide), show (0x5f#16).toNat / 8 = 11 by decide, hEntry]
  simp

end

/-- The selectors of `test_a` and of `move_to_user_mode`, in the child of task 0. -/
theorem ring3_reach_child : ∃ P past, Shared bareText 15360#16 smallImage forkingContext P past ∧ P.tr ≠ 0 ∧
    P.load 0x1b#16 = some (headGdt 3) ∧ P.load 0x17#16 = some (taskData P.tr) := by
  obtain ⟨P, past, hRun, hTr⟩ := shipped_child
  obtain ⟨hLoad, _⟩ := ring3_reach hRun
  exact ⟨P, past, hRun, hTr, (hLoad _ _).mpr (Or.inl ⟨by decide, by decide, rfl⟩),
    (hLoad _ _).mpr (Or.inr ⟨by decide, Or.inr (Or.inl ⟨by decide, rfl⟩)⟩)⟩

/-- A data segment of 4GB. -/
def flatDesc : Desc := ⟨0xffff#32, 0xcff200#32⟩

/-- A parent that has such a descriptor in `esi` and `edi`. -/
def flatContext : Context :=
  { forkingContext with
    reg := Function.update (Function.update forkingContext.reg .esi flatDesc.a) .edi flatDesc.b }

theorem flatContext_segments : UserSegments flatContext :=
  ⟨rfl, Or.inl rfl, fun s => by cases s <;> (unfold UserData; decide)⟩

/-- Task 0 forks with them, spends its quantum, and the child can load all of memory. -/
theorem child_chooses_segment_flat : ∃ P P' past, Shared bareText 15360#16 smallImage forkingContext P past ∧
    bareText.tick P = .ok P' ∧ P'.tr ≠ P.tr ∧ P'.load 0x5f#16 = some flatDesc := by
  have start := (shippedProcessor_shared 15360#16).own flatContext flatContext_segments
  obtain ⟨hCurrent, hInit⟩ := shippedProcessor_init 15360#16
  obtain ⟨hCode, hData⟩ := shippedProcessor_ram 15360#16
  obtain ⟨P, past, nr, run, hUsed, hZero, hChild, hOnly, hContext⟩ :=
    start.firstChild rfl rfl (bootProcessor_alone _ _ _ _) hCurrent hInit hCode hData
  obtain ⟨P', hTick, hOther⟩ := run.lastTick hUsed hZero ⟨nr, hChild⟩
  have hTask := (run.sharing.ticked hTick).task
  have hNew : P'.tr = nr := by
    have hLive : Occupied P'.kernel P'.tr := (run.tick hTick).sharing.sched.live.resolve_left hOther
    exact hOnly _ ⟨hLive.pos, hLive.lt, hTask ▸ hLive.task⟩
  have hApart : nr ≠ P.tr := by
    rw [hZero, ← hNew]
    exact hOther
  obtain ⟨_, hNext⟩ := child_chooses_segment run (Or.inr hChild) hApart (by rw [hContext]; decide)
  obtain ⟨hHere, hLoad⟩ := hNext P' hTick hNew
  refine ⟨P, P', past, run, hTick, hNew ▸ hApart, ?_⟩
  rw [hLoad, hHere, hContext]
  exact ⟨rfl, by decide⟩

end Linux011

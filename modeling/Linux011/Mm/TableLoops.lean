import Linux011.Mm.Copy

/-! The inner loops of `copy_page_tables` and `free_page_tables`, on tables at any
address, and what they do to `mem_map`. -/
namespace Linux011

open ByteMemory SharedRefs

/-- `x` is none of the `n` bytes from `a` on. -/
def Outside (a n x : Nat) : Prop := x < a ∨ a + n ≤ x

/-- An empty entry is passed over. -/
theorem freePageTable_zero {nr pgTable : Nat} {mm : Mm} (h : mm.load pgTable = 0#32) :
    freePageTable (nr + 1) pgTable mm = freePageTable nr (pgTable + 4) mm := by
  rw [freePageTable, h]
  rfl

theorem freePageTable_absent {nr pgTable : Nat} {mm : Mm} (hne : mm.load pgTable ≠ 0#32)
    (h : 1#32 &&& mm.load pgTable = 0#32) :
    freePageTable (nr + 1) pgTable mm = freePageTable nr (pgTable + 4) (mm.store pgTable 0#32) := by
  rw [freePageTable]
  simp only [hne, h, if_true, if_false]

/-- A page that is present is released, and its entry cleared. -/
theorem freePageTable_present {nr pgTable : Nat} {mm : Mm} (h : ¬1#32 &&& mm.load pgTable = 0#32) :
    freePageTable (nr + 1) pgTable mm =
      (freePage mm (0xfffff000#32 &&& mm.load pgTable)).bind
        fun mm => freePageTable nr (pgTable + 4) (mm.store pgTable 0#32) := by
  have hne : mm.load pgTable ≠ 0#32 := fun h0 => h (by rw [h0]; rfl)
  rw [freePageTable]
  simp only [hne, h, if_false]
  rfl

/-- A directory entry without a table is passed over. -/
theorem freePageDirs_absent {size dir : Nat} {mm : Mm} (h : 1#32 &&& mm.load dir = 0#32) :
    freePageDirs (size + 1) dir mm = freePageDirs size (dir + 4) mm := by
  rw [freePageDirs, if_pos h]

/-- A table is emptied and released, and its directory entry cleared. -/
theorem freePageDirs_ok {size dir : Nat} {mm mm' mm'' : Mm} (h : ¬1#32 &&& mm.load dir = 0#32)
    (hTable : freePageTable 1024 (0xfffff00#32 &&& mm.load dir).toNat mm = .ok mm')
    (hFree : freePage mm' (0xfffff000#32 &&& mm'.load dir) = .ok mm'') :
    freePageDirs (size + 1) dir mm = freePageDirs size (dir + 4) (mm''.store dir 0#32) := by
  rw [freePageDirs, if_neg h, hTable]
  change (freePage mm' (0xfffff000#32 &&& mm'.load dir)).bind _ = _
  rw [hFree]
  rfl

/-- 1 if the entry names page `j` of `mem_map`. -/
def entryNames (j : Nat) (e : BitVec 32) : Nat := if Present e ∧ managed (frame e) = some j then 1 else 0

/-- How many of the `nr` entries from `pgTable` on name page `j`. -/
def Mm.tableNames (mm : Mm) (j : Nat) : Nat → Nat → Nat
  | 0, _ => 0
  | nr + 1, pgTable => entryNames j (mm.load pgTable) + mm.tableNames j nr (pgTable + 4)

theorem entryNames_absent {j : Nat} {e : BitVec 32} (h : ¬Present e) : entryNames j e = 0 :=
  if_neg fun hBoth => h hBoth.1

/-- A present entry names its page once, if that page is counted. -/
theorem entryNames_present {j : Nat} {e : BitVec 32} (h : Present e) :
    entryNames j e = if managed (frame e) = some j then 1 else 0 := by
  rw [entryNames]
  simp only [h, true_and]

@[simp] theorem entryNames_clearWrite (j : Nat) (e : BitVec 32) :
    entryNames j (e &&& ~~~2#32) = entryNames j e := by
  simp only [entryNames, present_clearWrite, frame_clearWrite]

@[simp] theorem entryNames_shareEntry (j : Nat) (e : BitVec 32) : entryNames j (shareEntry e) = entryNames j e := by
  simp only [entryNames, present_shareEntry, frame_shareEntry]

/-- How often a table names a page depends on its entries only. -/
theorem Mm.tableNames_congr {mm mm' : Mm} {j nr a a' : Nat}
    (h : ∀ n < nr, entryNames j (mm'.load (a' + 4 * n)) = entryNames j (mm.load (a + 4 * n))) :
    mm'.tableNames j nr a' = mm.tableNames j nr a := by
  induction nr generalizing a a' with
  | zero => rfl
  | succ nr ih =>
      have hFirst := h 0 (by omega)
      simp only [Nat.mul_zero, Nat.add_zero] at hFirst
      rw [Mm.tableNames, Mm.tableNames, hFirst, ih fun n hn => ?_]
      have hNext := h (n + 1) (by omega)
      rwa [show a' + 4 * (n + 1) = a' + 4 + 4 * n by omega, show a + 4 * (n + 1) = a + 4 + 4 * n by omega] at hNext

theorem Mm.tableNames_eq_zero {mm : Mm} {j nr a : Nat} (h : ∀ n < nr, entryNames j (mm.load (a + 4 * n)) = 0) :
    mm.tableNames j nr a = 0 := by
  induction nr generalizing a with
  | zero => rfl
  | succ nr ih =>
      rw [Mm.tableNames, show entryNames j (mm.load a) = 0 from h 0 (by omega), ih fun n hn => ?_]
      rw [show a + 4 + 4 * n = a + 4 * (n + 1) by omega]
      exact h (n + 1) (by omega)

/-- What is written elsewhere does not change a word. -/
theorem Mm.load_outside {mm mm' : Mm} {a n x : Nat} (h : ∀ b, Outside a n b → mm'.mem b = mm.mem b)
    (hx : x + 4 ≤ a ∨ a + n ≤ x) : mm'.load x = mm.load x :=
  load32_congr fun b hb hb' => h b (by unfold Outside; omega)

section

variable (mm : Mm) {a b : Nat}

/-- One step of the copy touches the two entries only. -/
theorem Mm.shareWord_mem {x : Nat} (ha : Outside a 4 x) (hb : Outside b 4 x) :
    (mm.shareWord a b).mem x = mm.mem x := by
  have hTarget (v : BitVec 32) : (mm.store b v).mem x = mm.mem x := store32_outside _ _ _ hb
  unfold Mm.shareWord
  dsimp only
  split_ifs
  · exact (store32_outside _ _ _ ha).trans (hTarget _)
  · exact hTarget _
  · rfl

@[simp] theorem Mm.shareWord_highMemory : (mm.shareWord a b).highMemory = mm.highMemory := by
  unfold Mm.shareWord
  dsimp only
  split_ifs <;> rfl

/-- The entry of the parent, which has lost its write bit if the page is counted. -/
theorem Mm.shareWord_source (hApart : a + 4 ≤ b ∨ b + 4 ≤ a) :
    (mm.shareWord a b).load a = shareEntry (mm.load a) := by
  rw [shareEntry, Mm.shareWord]
  by_cases hPresent : Present (mm.load a)
  · by_cases hLow : lowMem ≤ frame (mm.load a)
    · simp only [hPresent, hLow, and_self, if_true]
      exact load32_store32_same _ _ _
    · simp only [hPresent, hLow, and_false, if_true, if_false]
      exact load32_store32_of_disjoint _ _ (by omega)
  · simp only [hPresent, false_and, if_false]

/-- The entry of the child, without the write bit. -/
theorem Mm.shareWord_target (hApart : a + 4 ≤ b ∨ b + 4 ≤ a) :
    (mm.shareWord a b).load b = if Present (mm.load a) then mm.load a &&& ~~~2#32 else mm.load b := by
  rw [Mm.shareWord]
  by_cases hPresent : Present (mm.load a)
  · by_cases hLow : lowMem ≤ frame (mm.load a)
    · simp only [hPresent, hLow, if_true]
      exact (load32_store32_of_disjoint _ _ (by omega)).trans (load32_store32_same _ _ _)
    · simp only [hPresent, hLow, if_true, if_false]
      exact load32_store32_same _ _ _
  · simp only [hPresent, if_false]

/-- A count that does not wrap follows the entry. -/
theorem Mm.shareWord_count {j : Nat} (h : (mm.memMap j).toNat + entryNames j (mm.load a) ≤ 255) :
    ((mm.shareWord a b).memMap j).toNat = (mm.memMap j).toNat + entryNames j (mm.load a) := by
  rw [Mm.shareWord]
  by_cases hPresent : Present (mm.load a)
  · rw [entryNames_present hPresent] at h ⊢
    by_cases hLow : lowMem ≤ frame (mm.load a)
    · simp only [managed_of_le hLow, Option.some.injEq] at h ⊢
      simp only [hPresent, hLow, if_true, Mm.incr, Mm.store_memMap]
      by_cases hj : mapNr (frame (mm.load a)) = j
      · subst j
        rw [if_pos rfl] at h ⊢
        rw [Function.update_self, BitVec.toNat_add, BitVec.toNat_ofNat]
        omega
      · rw [if_neg hj, Function.update_of_ne (Ne.symm hj), Nat.add_zero]
    · simp only [hPresent, hLow, if_true, if_false, Mm.store_memMap, managed_of_lt (BitVec.not_le.mp hLow)]
      rfl
  · rw [entryNames_absent hPresent, Nat.add_zero, if_neg hPresent]

/-- What the inner loop leaves of `nr` entries at `a`, copied to `b`. -/
structure TableShared (nr a b : Nat) (mm mm' : Mm) : Prop where
  mem : ∀ x, Outside a (4 * nr) x → Outside b (4 * nr) x → mm'.mem x = mm.mem x
  high : mm'.highMemory = mm.highMemory
  source : ∀ n < nr, mm'.load (a + 4 * n) = shareEntry (mm.load (a + 4 * n))
  target : ∀ n < nr, mm'.load (b + 4 * n) =
    if Present (mm.load (a + 4 * n)) then mm.load (a + 4 * n) &&& ~~~2#32 else mm.load (b + 4 * n)
  count : ∀ j, (mm.memMap j).toNat + mm.tableNames j nr a ≤ 255 →
    (mm'.memMap j).toNat = (mm.memMap j).toNat + mm.tableNames j nr a

/-- The inner loop of the copy, when the tables do not overlap. -/
theorem copyPageTable_shared {nr : Nat} (hApart : a + 4 * nr ≤ b ∨ b + 4 * nr ≤ a) :
    TableShared nr a b mm (copyPageTable nr a b mm) := by
  induction nr generalizing a b mm with
  | zero =>
      rw [copyPageTable]
      exact ⟨fun _ _ _ => rfl, rfl, fun _ h => absurd h (Nat.not_lt_zero _),
        fun _ h => absurd h (Nat.not_lt_zero _), fun _ _ => rfl⟩
  | succ nr ih =>
      have hStep := ih (mm.shareWord a b) (a := a + 4) (b := b + 4) (by omega)
      -- the words behind the first ones are not touched by the round
      have hLater {x n : Nat} (hx : x = a ∨ x = b) (hn : n < nr) :
          (mm.shareWord a b).load (x + 4 + 4 * n) = mm.load (x + 4 + 4 * n) :=
        load32_congr fun y hy hy' => mm.shareWord_mem (by unfold Outside; omega) (by unfold Outside; omega)
      have hFirst {x : Nat} (hx : x = a ∨ x = b) (later : Mm)
          (hMem : ∀ y, Outside (a + 4) (4 * nr) y → Outside (b + 4) (4 * nr) y →
            later.mem y = (mm.shareWord a b).mem y) : later.load x = (mm.shareWord a b).load x :=
        load32_congr fun y hy hy' => hMem y (by unfold Outside; omega) (by unfold Outside; omega)
      rw [copyPageTable_step]
      refine ⟨fun x ha hb => ?_, hStep.high.trans (mm.shareWord_highMemory), fun n hn => ?_, fun n hn => ?_,
        fun j hj => ?_⟩
      · unfold Outside at ha hb
        rw [hStep.mem x (by unfold Outside; omega) (by unfold Outside; omega),
          mm.shareWord_mem (by unfold Outside; omega) (by unfold Outside; omega)]
      · cases n with
        | zero => exact (hFirst (Or.inl rfl) _ hStep.mem).trans (mm.shareWord_source (by omega))
        | succ n =>
            rw [show a + 4 * (n + 1) = a + 4 + 4 * n by omega, hStep.source n (by omega),
              hLater (Or.inl rfl) (by omega)]
      · cases n with
        | zero => exact (hFirst (Or.inr rfl) _ hStep.mem).trans (mm.shareWord_target (by omega))
        | succ n =>
            rw [show a + 4 * (n + 1) = a + 4 + 4 * n by omega, show b + 4 * (n + 1) = b + 4 + 4 * n by omega,
              hStep.target n (by omega), hLater (Or.inl rfl) (by omega), hLater (Or.inr rfl) (by omega)]
      · rw [Mm.tableNames] at hj ⊢
        have hRest : (mm.shareWord a b).tableNames j nr (a + 4) = mm.tableNames j nr (a + 4) :=
          Mm.tableNames_congr fun n hn => by rw [hLater (Or.inl rfl) hn]
        have hCount := mm.shareWord_count (a := a) (b := b) (j := j) (by omega)
        rw [hStep.count j (by rw [hRest]; omega), hRest, hCount]
        omega

/-- What the inner loop of `free_page_tables` leaves of `nr` entries at `a`. -/
structure TableReleased (nr a : Nat) (mm mm' : Mm) : Prop where
  mem : ∀ x, Outside a (4 * nr) x → mm'.mem x = mm.mem x
  high : mm'.highMemory = mm.highMemory
  count : ∀ j, (mm'.memMap j).toNat + mm.tableNames j nr a = (mm.memMap j).toNat

/-- One entry released and cleared, before the others. -/
theorem TableReleased.cons {mm mm1 mm' : Mm} {nr : Nat} (h : TableReleased nr (a + 4) mm1 mm')
    (hMem : ∀ x, Outside a 4 x → mm1.mem x = mm.mem x) (hHigh : mm1.highMemory = mm.highMemory)
    (hCount : ∀ j, (mm1.memMap j).toNat + entryNames j (mm.load a) = (mm.memMap j).toNat) :
    TableReleased (nr + 1) a mm mm' := by
  refine ⟨fun x hx => ?_, h.high.trans hHigh, fun j => ?_⟩
  · unfold Outside at hx
    rw [h.mem x (by unfold Outside; omega), hMem x (by unfold Outside; omega)]
  · have hRest : mm1.tableNames j nr (a + 4) = mm.tableNames j nr (a + 4) :=
      Mm.tableNames_congr fun n _ => by rw [Mm.load_outside hMem (by omega)]
    have hLater := h.count j
    have hFirst := hCount j
    rw [Mm.tableNames]
    omega

/-- The inner loop of the release. -/
theorem freePageTable_released {nr : Nat}
    (hFrames : ∀ n < nr, Present (mm.load (a + 4 * n)) →
      frame (mm.load (a + 4 * n)) < lowMem ∨ frame (mm.load (a + 4 * n)) < mm.highMemory)
    (hCount : ∀ j, mm.tableNames j nr a ≤ (mm.memMap j).toNat) :
    ∃ mm', freePageTable nr a mm = .ok mm' ∧ TableReleased nr a mm mm' := by
  induction nr generalizing a mm with
  | zero => exact ⟨mm, rfl, fun _ _ => rfl, rfl, fun _ => rfl⟩
  | succ nr ih =>
      -- the loop goes on in a state that differs in the first word only
      have hGo {mm1 : Mm} (hMem : ∀ x, Outside a 4 x → mm1.mem x = mm.mem x)
          (hHigh : mm1.highMemory = mm.highMemory)
          (hOne : ∀ j, (mm1.memMap j).toNat + entryNames j (mm.load a) = (mm.memMap j).toNat) :
          ∃ mm', freePageTable nr (a + 4) mm1 = .ok mm' ∧ TableReleased (nr + 1) a mm mm' := by
        have hLoad {n : Nat} : mm1.load (a + 4 + 4 * n) = mm.load (a + 4 + 4 * n) :=
          Mm.load_outside hMem (by omega)
        obtain ⟨mm', hRun, hRest⟩ := ih mm1 (a := a + 4) (fun n hn => by
          have hNext := hFrames (n + 1) (by omega)
          rw [show a + 4 * (n + 1) = a + 4 + 4 * n by omega] at hNext
          rwa [hLoad, hHigh]) (fun j => by
          have hAll := hCount j
          have hFirst := hOne j
          rw [Mm.tableNames] at hAll
          rw [show mm1.tableNames j nr (a + 4) = mm.tableNames j nr (a + 4) from
            Mm.tableNames_congr fun n _ => by rw [hLoad]]
          omega)
        exact ⟨mm', hRun, hRest.cons hMem hHigh hOne⟩
      have hStore {mm1 : Mm} (hSame : mm1.mem = mm.mem) (x : Nat) (hx : Outside a 4 x) :
          (mm1.store a 0#32).mem x = mm.mem x := by
        rw [Mm.store_mem, hSame]
        exact store32_outside _ _ _ hx
      by_cases hPresent : Present (mm.load a)
      · have hUsed : lowMem ≤ frame (mm.load a) → mm.memMap (mapNr (frame (mm.load a))) ≠ 0#8 := by
          intro hLow hZero
          have hOne := hCount (mapNr (frame (mm.load a)))
          rw [Mm.tableNames, entryNames_present hPresent, managed_of_le hLow, if_pos rfl, hZero,
            BitVec.toNat_ofNat] at hOne
          omega
        have hHigh := hFrames 0 (by omega) hPresent
        have hFree : freePage mm (0xfffff000#32 &&& mm.load a) = .ok (mm.release (frame (mm.load a))) :=
          freePage_eq hHigh hUsed
        rw [freePageTable_present hPresent, hFree]
        exact hGo (hStore Mm.release_mem) Mm.release_highMemory fun j => by
          rw [entryNames_present hPresent]
          exact Mm.release_count hUsed j
      · have hAbsent (j : Nat) : (mm.memMap j).toNat + entryNames j (mm.load a) = (mm.memMap j).toNat := by
          rw [entryNames_absent hPresent, Nat.add_zero]
        by_cases hZero : mm.load a = 0#32
        · rw [freePageTable_zero hZero]
          exact hGo (fun _ _ => rfl) rfl hAbsent
        · rw [freePageTable_absent hZero (not_not.mp hPresent)]
          exact hGo (hStore rfl) rfl hAbsent

end

end Linux011

import Linux011.Mm.Steps

/-! `copy_page_tables`: what one entry, one table and the whole call leave
behind. The parent's address space is number `p`, the child's number `k`; the
directory entries of address space `a` are `16 * a + i` for `i < 16`. -/
namespace Linux011

open ByteMemory SharedRefs

/-- One round of the inner loop of `copy_page_tables`, on entries named by
their place in the tables. -/
def Mm.copyEntry (mm : Mm) (pd cd n : Nat) : Mm :=
  let e := mm.pte pd n
  let v := e &&& ~~~2#32
  if Present e then
    if lowMem ≤ frame e then ((mm.setPte cd n v).retain (frame v)).setPte pd n v
    else mm.setPte cd n v
  else mm

/-- What the parent's entry `e` becomes. -/
def shareEntry (e : BitVec 32) : BitVec 32 :=
  if Present e ∧ lowMem ≤ frame e then e &&& ~~~2#32 else e

/-- A page of the pool becomes read-only. -/
theorem shareEntry_managed {e : BitVec 32} (h : Present e) (hLow : lowMem ≤ frame e) :
    shareEntry e = e &&& ~~~2#32 :=
  if_pos ⟨h, hLow⟩

/-- Below 1MB an entry stays as it is. -/
theorem shareEntry_low {e : BitVec 32} (hLow : frame e < lowMem) : shareEntry e = e :=
  if_neg fun h => BitVec.not_le.mpr hLow h.2

theorem clearWrite_idem (e : BitVec 32) : e &&& ~~~2#32 &&& ~~~2#32 = e &&& ~~~2#32 := by
  rw [BitVec.and_assoc, BitVec.and_self]

theorem shareEntry_clearWrite (e : BitVec 32) : shareEntry e &&& ~~~2#32 = e &&& ~~~2#32 := by
  unfold shareEntry
  split_ifs
  · exact clearWrite_idem e
  · rfl

@[simp] theorem frame_shareEntry (e : BitVec 32) : frame (shareEntry e) = frame e := by
  unfold shareEntry
  split_ifs
  · exact frame_clearWrite e
  · rfl

@[simp] theorem present_shareEntry (e : BitVec 32) : Present (shareEntry e) ↔ Present e := by
  unfold shareEntry
  split_ifs
  · exact present_clearWrite e
  · rfl

theorem not_writable_shareEntry {e : BitVec 32} (h : Present e) (hLow : lowMem ≤ frame e) :
    ¬Writable (shareEntry e) := by
  rw [shareEntry, if_pos ⟨h, hLow⟩]
  exact not_writable_clearWrite e

/-- One round of the inner loop of `copy_page_tables`. -/
def Mm.shareWord (mm : Mm) (fromPageTable toPageTable : Nat) : Mm :=
  let thisPage := mm.load fromPageTable &&& ~~~2#32
  if Present (mm.load fromPageTable) then
    if lowMem ≤ frame (mm.load fromPageTable) then
      ((mm.store toPageTable thisPage).store fromPageTable thisPage).incr (mapNr (frame (mm.load fromPageTable)))
    else mm.store toPageTable thisPage
  else mm

/-- One entry, and then the rest of the table. -/
theorem copyPageTable_step (mm : Mm) {a b : Nat} (nr : Nat) :
    copyPageTable (nr + 1) a b mm = copyPageTable nr (a + 4) (b + 4) (mm.shareWord a b) := by
  rw [copyPageTable, Mm.shareWord]
  by_cases hPresent : Present (mm.load a)
  · have hne : mm.load a ≠ 0#32 := fun h0 => not_present_zero (h0 ▸ hPresent)
    have hClear : Present (mm.load a &&& ~~~2#32) := (present_clearWrite _).mpr hPresent
    have hAbove : lowMem < mm.load a &&& ~~~2#32 ↔ lowMem ≤ frame (mm.load a) := by
      rw [lowMem_lt_iff hClear, frame_clearWrite]
    simp only [if_neg hne, if_neg hPresent, if_pos hPresent, hAbove]
    by_cases hLow : lowMem ≤ frame (mm.load a)
    · have hIndex : mapNr (mm.load a &&& ~~~2#32) = mapNr (frame (mm.load a)) := by
        rw [mapNr_frame (by rwa [frame_clearWrite]), frame_clearWrite]
      rw [if_pos hLow, if_pos hLow, hIndex]
    · rw [if_neg hLow, if_neg hLow]
  · rw [if_neg hPresent]
    by_cases hZero : mm.load a = 0#32
    · simp only [if_pos hZero]
    · simp only [if_neg hZero, if_pos (not_not.mp hPresent)]

section Entry

variable {mm : Mm} {pd cd n : Nat}

/-- A word of the loop is an entry of the tables. -/
theorem Mm.shareWord_entry (hPaged : Paged mm) (hpd : pd < 1024) (hcd : cd < 1024) (hTo : Present (mm.pde cd)) :
    mm.shareWord ((mm.table pd).toNat + 4 * n) ((mm.table cd).toNat + 4 * n) = mm.copyEntry pd cd n := by
  have hEntry : mm.load ((mm.table pd).toNat + 4 * n) = mm.pte pd n := rfl
  have hTable := hPaged.table_setPte (n := n) (v := mm.pte pd n &&& ~~~2#32) hcd hTo hpd
  rw [Mm.shareWord, Mm.copyEntry, hEntry]
  by_cases hPresent : Present (mm.pte pd n)
  · by_cases hLow : lowMem ≤ frame (mm.pte pd n)
    · simp only [if_pos hPresent, if_pos hLow]
      rw [frame_clearWrite, Mm.retain, if_pos hLow, Mm.setPte, Mm.setPte, Mm.incr_table, ← Mm.setPte, hTable]
      rfl
    · simp only [if_pos hPresent, if_neg hLow]
      rfl
  · simp only [if_neg hPresent]

/-- The loop reaches the entries through two running pointers. -/
theorem copyPageTable_succ (hPaged : Paged mm) (hpd : pd < 1024) (hcd : cd < 1024)
    (hTo : Present (mm.pde cd)) (nr : Nat) :
    copyPageTable (nr + 1) ((mm.table pd).toNat + 4 * n) ((mm.table cd).toNat + 4 * n) mm =
      copyPageTable nr ((mm.table pd).toNat + 4 * (n + 1)) ((mm.table cd).toNat + 4 * (n + 1))
        (mm.copyEntry pd cd n) := by
  rw [copyPageTable_step, Mm.shareWord_entry hPaged hpd hcd hTo, Nat.mul_add, Nat.mul_one, Nat.add_assoc,
    Nat.add_assoc]

/-- The page directory stays, the child's entry is the parent's without its
write bit, and the parent's entry loses its write bit when the page is
managed. -/
theorem Mm.copyEntry_tables (hPaged : Paged mm) (hpd : pd < 1024) (hcd : cd < 1024) (hne : pd ≠ cd)
    (hFrom : Present (mm.pde pd)) (hTo : Present (mm.pde cd)) (hn : n < 1024) :
    (∀ d < 1024, (mm.copyEntry pd cd n).pde d = mm.pde d) ∧
    ∀ d < 1024, Present (mm.pde d) → ∀ m < 1024, (mm.copyEntry pd cd n).pte d m =
      if d = cd ∧ m = n ∧ Present (mm.pte pd n) then mm.pte pd n &&& ~~~2#32
      else if d = pd ∧ m = n then shareEntry (mm.pte pd n) else mm.pte d m := by
  unfold Mm.copyEntry
  by_cases hPresent : Present (mm.pte pd n)
  · simp only [hPresent, if_true, and_true]
    by_cases hLow : lowMem ≤ frame (mm.pte pd n)
    · simp only [hLow, if_true]
      have hChild := hPaged.setPte (n := n) (v := mm.pte pd n &&& ~~~2#32) hcd hTo
      have hShared : SameTables (mm.setPte cd n (mm.pte pd n &&& ~~~2#32))
          ((mm.setPte cd n (mm.pte pd n &&& ~~~2#32)).retain (frame (mm.pte pd n &&& ~~~2#32))) :=
        sameTables_of_mem Mm.retain_mem
      have hMid := hShared.paged hChild
      have hDir (d : Nat) (hd : d < 1024) : ((mm.setPte cd n (mm.pte pd n &&& ~~~2#32)).retain
          (frame (mm.pte pd n &&& ~~~2#32))).pde d = mm.pde d := by
        rw [hShared.pde d hd, hPaged.pde_setPte hcd hTo hd]
      have hFrom' := hFrom
      rw [← hDir pd hpd] at hFrom'
      refine ⟨fun d hd => by rw [hMid.pde_setPte hpd hFrom' hd, hDir d hd], ?_⟩
      intro d hd hd' m hm
      have hd'' := hd'
      rw [← hDir d hd] at hd''
      rw [hMid.pte_setPte hpd hFrom' hn hd hd'' hm, hShared.pte d hd (by
        rw [hPaged.pde_setPte hcd hTo hd]; exact hd') m hm, hPaged.pte_setPte hcd hTo hn hd hd' hm,
        shareEntry_managed hPresent hLow]
      by_cases hP : d = pd ∧ m = n
      · rw [if_pos hP, if_neg (fun h => hne (hP.1.symm.trans h.1)), if_pos hP]
      · rw [if_neg hP, if_neg hP]
    · simp only [hLow, if_false]
      refine ⟨fun d hd => hPaged.pde_setPte hcd hTo hd, ?_⟩
      intro d hd hd' m hm
      rw [hPaged.pte_setPte hcd hTo hn hd hd' hm, shareEntry_low (BitVec.not_le.mp hLow)]
      by_cases hP : d = pd ∧ m = n
      · rw [if_pos hP, hP.1, hP.2]
      · rw [if_neg hP]
  · simp only [hPresent, and_false, if_false, implies_true, true_and, shareEntry,
      false_and]
    intro d _ _ m _
    split_ifs with h
    · rw [h.1, h.2]
    · rfl

/-- What the tables say behind one copied entry. -/
theorem Mm.copyEntry_maps (hPaged : Paged mm) (hpd : pd < 1024) (hcd : cd < 1024) (hne : pd ≠ cd)
    (hFrom : Present (mm.pde pd)) (hTo : Present (mm.pde cd)) (hn : n < 1024) {d m : Nat}
    {x : BitVec 32} :
    (mm.copyEntry pd cd n).Maps d m x ↔
      if d = cd ∧ m = n ∧ Present (mm.pte pd n) then x = mm.pte pd n &&& ~~~2#32
      else if d = pd ∧ m = n then x = shareEntry (mm.pte pd n) ∧ Present (mm.pte pd n)
      else mm.Maps d m x := by
  obtain ⟨hDir, hEntry⟩ := Mm.copyEntry_tables hPaged hpd hcd hne hFrom hTo hn
  have hIff : (mm.copyEntry pd cd n).Maps d m x ↔ d < 1024 ∧ m < 1024 ∧ Present (mm.pde d) ∧
      (mm.copyEntry pd cd n).pte d m = x ∧ Present x := by
    constructor
    · intro h
      exact ⟨h.dir, h.index, hDir d h.dir ▸ h.table, h.entry, h.present⟩
    · rintro ⟨hd, hm, hTable, hx, hPresent⟩
      exact ⟨hd, hm, by rw [hDir d hd]; exact hTable, hx, hPresent⟩
  rw [hIff]
  split_ifs with hC hP
  · obtain ⟨rfl, rfl, hPresent⟩ := hC
    constructor
    · rintro ⟨_, _, _, hx, _⟩
      rw [← hx, hEntry _ hcd hTo _ hn, if_pos ⟨rfl, rfl, hPresent⟩]
    · rintro rfl
      exact ⟨hcd, hn, hTo, by rw [hEntry _ hcd hTo _ hn, if_pos ⟨rfl, rfl, hPresent⟩],
        (present_clearWrite _).mpr hPresent⟩
  · obtain ⟨rfl, rfl⟩ := hP
    have hPte := hEntry _ hpd hFrom _ hn
    rw [if_neg hC, if_pos ⟨rfl, rfl⟩] at hPte
    rw [hPte]
    constructor
    · rintro ⟨_, _, _, rfl, hx⟩
      exact ⟨rfl, (present_shareEntry _).mp hx⟩
    · rintro ⟨rfl, hPresent⟩
      exact ⟨hpd, hn, hFrom, rfl, (present_shareEntry _).mpr hPresent⟩
  · constructor
    · rintro ⟨hd, hm, hTable, hx, hPresent⟩
      rw [hEntry d hd hTable m hm, if_neg hC, if_neg hP] at hx
      exact ⟨hd, hm, hTable, hx, hPresent⟩
    · intro h
      refine ⟨h.dir, h.index, h.table, ?_, h.present⟩
      rw [hEntry d h.dir h.table m h.index, if_neg hC, if_neg hP]
      exact h.entry

end Entry

/-- Entry `n` of table `i` has been copied when the tables below `j` are done
and so are the first `m` entries of table `j`; `nr` entries of each table are
copied at all. -/
def Done (nr j m i n : Nat) : Prop := n < nr ∧ (i < j ∨ i = j ∧ n < m)

/-- The child's address space mirrors the part of the parent's that has been
copied, and there both are read-only in managed pages. -/
structure Mirror (p k nr j m : Nat) (mm : Mm) : Prop where
  entry : ∀ i < 16, ∀ n e, mm.Maps (16 * k + i) n e ↔
    Done nr j m i n ∧ ∃ x, mm.Maps (16 * p + i) n x ∧ e = x &&& ~~~2#32
  readOnly : ∀ i < 16, ∀ n x, Done nr j m i n → mm.Maps (16 * p + i) n x → lowMem ≤ frame x →
    ¬Writable x

/-- A table is done when all its entries are. -/
theorem Mirror.next {p k nr j : Nat} {mm : Mm} (h : Mirror p k nr j nr mm) :
    Mirror p k nr (j + 1) 0 mm := by
  have hDone {i n : Nat} : Done nr (j + 1) 0 i n ↔ Done nr j nr i n := by
    unfold Done
    omega
  constructor
  · intro i hi n e
    rw [hDone]
    exact h.entry i hi n e
  · intro i hi n x hNext
    exact h.readOnly i hi n x (hDone.mp hNext)

/-- The state before and after part of a fork from `p` to `k`, outside the
child's address space: only write bits of the parent's managed pages go. -/
structure Forking (p k : Nat) (mm mm' : Mm) : Prop where
  high : mm'.highMemory = mm.highMemory
  dir : ∀ d < 1024, d / 16 ≠ k → mm'.pde d = mm.pde d
  entry : ∀ d < 1024, d / 16 ≠ k → Present (mm.pde d) → ∀ n < 1024,
    mm'.pte d n = mm.pte d n ∨ d / 16 = p ∧ mm'.pte d n = shareEntry (mm.pte d n)

theorem shareEntry_idem (e : BitVec 32) : shareEntry (shareEntry e) = shareEntry e := by
  by_cases h : Present e ∧ lowMem ≤ frame e
  · rw [shareEntry_managed (e := shareEntry e) (by simpa using h.1) (by simpa using h.2),
      shareEntry_clearWrite, shareEntry_managed h.1 h.2]
  · have hSame : shareEntry e = e := if_neg h
    rw [hSame, hSame]

namespace Forking

variable {p k : Nat} {mm mm' mm'' : Mm}

theorem refl (mm : Mm) : Forking p k mm mm := ⟨rfl, fun _ _ _ => rfl, fun _ _ _ _ _ _ => Or.inl rfl⟩

theorem trans (h : Forking p k mm mm') (h' : Forking p k mm' mm'') : Forking p k mm mm'' where
  high := h'.high.trans h.high
  dir := fun d hd hk => (h'.dir d hd hk).trans (h.dir d hd hk)
  entry := by
    intro d hd hk hPresent n hn
    have hPresent' : Present (mm'.pde d) := by rwa [h.dir d hd hk]
    rcases h'.entry d hd hk hPresent' n hn with hSame | ⟨hp, hClear⟩
    · rw [hSame]
      exact h.entry d hd hk hPresent n hn
    · rw [hClear]
      rcases h.entry d hd hk hPresent n hn with hSame | ⟨_, hClear'⟩
      · exact Or.inr ⟨hp, by rw [hSame]⟩
      · exact Or.inr ⟨hp, by rw [hClear', shareEntry_idem]⟩

theorem of_sameTables (h : SameTables mm mm') (hHigh : mm'.highMemory = mm.highMemory) :
    Forking p k mm mm' :=
  ⟨hHigh, fun d hd _ => h.pde d hd, fun d hd _ hPresent n hn => Or.inl (h.pte d hd hPresent n hn)⟩

/-- The parent and every third party keep their frames. -/
theorem maps (h : Forking p k mm mm') {d n : Nat} (hk : d / 16 ≠ k) {e : BitVec 32}
    (hMaps : mm.Maps d n e) : mm'.Maps d n e ∨ d / 16 = p ∧ mm'.Maps d n (shareEntry e) := by
  have hTable : Present (mm'.pde d) := by
    rw [h.dir d hMaps.dir hk]
    exact hMaps.table
  rcases h.entry d hMaps.dir hk hMaps.table n hMaps.index with hSame | ⟨hp, hClear⟩
  · exact Or.inl ⟨hMaps.dir, hMaps.index, hTable, hSame.trans hMaps.entry, hMaps.present⟩
  · rw [hMaps.entry] at hClear
    exact Or.inr ⟨hp, hMaps.dir, hMaps.index, hTable, hClear,
      (present_shareEntry e).mpr hMaps.present⟩

/-- Outside of the child an entry has stayed, or lost its write bit. -/
theorem maps_back (h : Forking p k mm mm') {d n : Nat} (hk : d / 16 ≠ k) {e : BitVec 32}
    (hMaps : mm'.Maps d n e) :
    ∃ x, mm.Maps d n x ∧ (e = x ∨ d / 16 = p ∧ e = shareEntry x) := by
  have hTable := hMaps.table
  rw [h.dir d hMaps.dir hk] at hTable
  refine ⟨mm.pte d n, ⟨hMaps.dir, hMaps.index, hTable, rfl, ?_⟩, ?_⟩
  · rcases h.entry d hMaps.dir hk hTable n hMaps.index with hSame | ⟨_, hClear⟩
    · exact hSame ▸ hMaps.entry ▸ hMaps.present
    · exact (present_shareEntry _).mp (hClear ▸ hMaps.entry ▸ hMaps.present)
  · rw [← hMaps.entry]
    exact h.entry d hMaps.dir hk hTable n hMaps.index

end Forking

/-- The pages that `get_free_page` can still hand out. -/
def Mm.freePages (mm : Mm) : Finset Nat :=
  (Finset.range pagingPages).filter fun i => mm.memMap i = 0#8

theorem Mm.mem_freePages {mm : Mm} {i : Nat} :
    i ∈ mm.freePages ↔ i < pagingPages ∧ mm.memMap i = 0#8 := by
  simp [Mm.freePages]

theorem Mm.freePages_eq_empty {mm : Mm} : mm.freePages = ∅ ↔ ∀ i < pagingPages, mm.memMap i ≠ 0#8 := by
  simp only [Finset.eq_empty_iff_forall_notMem, Mm.mem_freePages, not_and, ne_eq]

theorem Mm.freePages_congr {mm mm' : Mm} (h : mm'.memMap = mm.memMap) :
    mm'.freePages = mm.freePages := by
  rw [Mm.freePages, Mm.freePages, h]

attribute [irreducible] Mm.freePages

/-- The setting of one round: parent entry `(16 * p + j, m)` is about to be
copied. -/
structure Round (extMemK : BitVec 16) (task : Nat → BitVec 32) (p k nr j m : Nat) (mm : Mm) : Prop where
  inv : MmInvariant extMemK task mm
  mirror : Mirror p k nr j m mm
  parent : p < 64
  child : 1 ≤ k ∧ k < 64
  apart : p ≠ k
  index : j < 16
  limit : nr ≤ 1024
  fromDir : Present (mm.pde (16 * p + j))
  toDir : Present (mm.pde (16 * k + j))

namespace Round

variable {extMemK : BitVec 16} {task : Nat → BitVec 32} {p k nr j m : Nat} {mm : Mm}

theorem from_lt (h : Round extMemK task p k nr j m mm) : 16 * p + j < 1024 := by
  have := h.parent
  have := h.index
  omega

theorem to_lt (h : Round extMemK task p k nr j m mm) : 16 * k + j < 1024 := by
  have := h.child
  have := h.index
  omega

theorem dirs_ne (h : Round extMemK task p k nr j m mm) : 16 * p + j ≠ 16 * k + j := by
  have := h.apart
  omega

theorem user (h : Round extMemK task p k nr j m mm) : userDir (16 * k + j) := by
  have := h.child
  unfold userDir
  omega

/-- The entry that is copied next is still empty in the child. -/
theorem child_empty (h : Round extMemK task p k nr j m mm) (hm : m < nr) :
    ¬Present (mm.pte (16 * k + j) m) := by
  intro hPresent
  have hLimit := h.limit
  have hMaps : mm.Maps (16 * k + j) m _ := ⟨h.to_lt, by omega, h.toDir, rfl, hPresent⟩
  obtain ⟨⟨_, hDone⟩, _⟩ := (h.mirror.entry j h.index m _).mp hMaps
  omega

/-- The child does not map the page of the entry that is about to be copied:
the parent maps it once. -/
theorem fresh (h : Round extMemK task p k nr j m mm) {e : BitVec 32}
    (hMaps : mm.Maps (16 * p + j) m e) (hLow : lowMem ≤ frame e) {d n : Nat} {x : BitVec 32}
    (hChild : mm.Maps d n x) (hSpace : d / 16 = k) : frame x ≠ frame e := by
  intro hFrame
  have hd : d = 16 * k + d % 16 := by omega
  rw [hd] at hChild
  obtain ⟨⟨_, hDone⟩, y, hParent, rfl⟩ := (h.mirror.entry (d % 16) (by omega) n x).mp hChild
  rw [frame_clearWrite] at hFrame
  have hIndex := h.index
  obtain ⟨hSame, rfl⟩ := h.inv.entries.injective _ _ _ _ _ _ hParent hMaps (by omega) hFrame
    (hFrame ▸ hLow)
  omega

/-- One copied entry keeps the invariant. -/
theorem inv_copyEntry (h : Round extMemK task p k nr j m mm) (hm : m < nr) :
    MmInvariant extMemK task (mm.copyEntry (16 * p + j) (16 * k + j) m) := by
  have hLimit := h.limit
  unfold Mm.copyEntry
  by_cases hPresent : Present (mm.pte (16 * p + j) m)
  · simp only [hPresent, if_true]
    have hMaps : mm.Maps (16 * p + j) m _ := ⟨h.from_lt, by omega, h.fromDir, rfl, hPresent⟩
    have hClear := (present_clearWrite _).mpr hPresent
    have hUserBit := (user_clearWrite _).mpr (h.inv.entries.user _ _ _ hMaps)
    have hIndex := h.index
    have hShare := h.inv.share h.user h.to_lt h.toDir (by omega : m < 1024) (h.child_empty hm) hClear
      (not_writable_clearWrite _) hUserBit
      (by rw [frame_clearWrite]; exact h.inv.entries.top _ _ _ hMaps)
      (by
        rw [frame_clearWrite]
        intro hLow d n x hChild hSpace
        exact h.fresh hMaps hLow hChild (by omega))
    by_cases hLow : lowMem ≤ frame (mm.pte (16 * p + j) m)
    · simp only [hLow, if_true]
      have hStays : ((mm.setPte (16 * k + j) m (mm.pte (16 * p + j) m &&& ~~~2#32)).retain
          (frame (mm.pte (16 * p + j) m &&& ~~~2#32))).Maps (16 * p + j) m (mm.pte (16 * p + j) m) := by
        rw [(sameTables_of_mem Mm.retain_mem).maps,
          h.inv.dir.paged.maps_setPte h.to_lt h.toDir (by omega)]
        exact Or.inr ⟨fun he => h.dirs_ne he.1, hMaps⟩
      exact hShare.rewrite hStays hClear (frame_clearWrite _) hUserBit
        fun _ hw => absurd hw (not_writable_clearWrite _)
    · simp only [hLow, if_false]
      rwa [frame_clearWrite, Mm.retain, if_neg hLow] at hShare
  · simpa only [hPresent, if_false] using h.inv

theorem forking_copyEntry (h : Round extMemK task p k nr j m mm) (hm : m < nr) :
    Forking p k mm (mm.copyEntry (16 * p + j) (16 * k + j) m) := by
  have hLimit := h.limit
  have hIndex := h.index
  obtain ⟨hDir, hEntry⟩ := Mm.copyEntry_tables h.inv.dir.paged h.from_lt h.to_lt h.dirs_ne h.fromDir
    h.toDir (by omega : m < 1024)
  constructor
  · unfold Mm.copyEntry
    simp only
    split_ifs <;> simp
  · exact fun d hd _ => hDir d hd
  · intro d hd hk hPresent n hn
    rw [hEntry d hd hPresent n hn, if_neg (fun he => hk (by omega))]
    by_cases hP : d = 16 * p + j ∧ n = m
    · rw [if_pos hP, ← hP.1, ← hP.2]
      exact Or.inr ⟨by omega, rfl⟩
    · rw [if_neg hP]
      exact Or.inl rfl

theorem mirror_copyEntry (h : Round extMemK task p k nr j m mm) (hm : m < nr) :
    Mirror p k nr j (m + 1) (mm.copyEntry (16 * p + j) (16 * k + j) m) := by
  have hLimit := h.limit
  have hIndex := h.index
  have hApart := h.apart
  have hMaps {d n : Nat} {x : BitVec 32} :
      (mm.copyEntry (16 * p + j) (16 * k + j) m).Maps d n x ↔ _ :=
    Mm.copyEntry_maps h.inv.dir.paged h.from_lt h.to_lt h.dirs_ne h.fromDir h.toDir (by omega)
  have hDone {i n : Nat} (hOther : ¬(i = j ∧ n = m)) : Done nr j (m + 1) i n ↔ Done nr j m i n := by
    unfold Done
    omega
  have hParent {i n : Nat} {x : BitVec 32} (hi : i < 16) :
      (mm.copyEntry (16 * p + j) (16 * k + j) m).Maps (16 * p + i) n x ↔
        if i = j ∧ n = m then x = shareEntry (mm.pte (16 * p + j) m) ∧ Present (mm.pte (16 * p + j) m)
        else mm.Maps (16 * p + i) n x := by
    rw [hMaps, if_neg (by omega)]
    simp only [Nat.add_left_cancel_iff]
  have hChild {i n : Nat} {x : BitVec 32} (hi : i < 16) :
      (mm.copyEntry (16 * p + j) (16 * k + j) m).Maps (16 * k + i) n x ↔
        if i = j ∧ n = m ∧ Present (mm.pte (16 * p + j) m) then
          x = mm.pte (16 * p + j) m &&& ~~~2#32
        else mm.Maps (16 * k + i) n x := by
    rw [hMaps, if_neg (by omega : ¬(16 * k + i = 16 * p + j ∧ n = m))]
    simp only [Nat.add_left_cancel_iff]
  constructor
  · intro i hi n e
    rw [hChild hi]
    simp only [hParent hi]
    by_cases hHere : i = j ∧ n = m
    · obtain ⟨rfl, rfl⟩ := hHere
      have hNow : Done nr i (n + 1) i n := ⟨hm, Or.inr ⟨rfl, by omega⟩⟩
      simp only [true_and, hNow, and_self, if_true]
      by_cases hPresent : Present (mm.pte (16 * p + i) n)
      · simp only [hPresent, if_true, and_true, exists_eq_left, shareEntry_clearWrite]
      · simp only [hPresent, if_false, and_false, false_and, exists_false, iff_false]
        rw [h.mirror.entry i hi n e]
        rintro ⟨⟨_, hOld⟩, _⟩
        omega
    · rw [if_neg (fun he => hHere ⟨he.1, he.2.1⟩), hDone hHere]
      simp only [hHere, if_false]
      exact h.mirror.entry i hi n e
  · intro i hi n x hd hx hLow
    rw [hParent hi] at hx
    split_ifs at hx with hHere
    · obtain ⟨rfl, hPresent⟩ := hx
      rw [frame_shareEntry] at hLow
      exact not_writable_shareEntry hPresent hLow
    · exact h.mirror.readOnly i hi n x ((hDone hHere).mp hd) hx hLow

/-- The round of the next entry. -/
theorem next (h : Round extMemK task p k nr j m mm) (hm : m < nr) :
    Round extMemK task p k nr j (m + 1) (mm.copyEntry (16 * p + j) (16 * k + j) m) := by
  have hLimit := h.limit
  obtain ⟨hDir, _⟩ := Mm.copyEntry_tables h.inv.dir.paged h.from_lt h.to_lt h.dirs_ne h.fromDir
    h.toDir (by omega : m < 1024)
  exact ⟨h.inv_copyEntry hm, h.mirror_copyEntry hm, h.parent, h.child, h.apart, h.index, h.limit,
    by rw [hDir _ h.from_lt]; exact h.fromDir, by rw [hDir _ h.to_lt]; exact h.toDir⟩

/-- Only a page that the entry names can leave the free pages. -/
theorem free_copyEntry (h : Round extMemK task p k nr j m mm) (hm : m < nr) {i : Nat} :
    i ∈ (mm.copyEntry (16 * p + j) (16 * k + j) m).freePages ↔
      i ∈ mm.freePages ∧ ∀ e, mm.Maps (16 * p + j) m e → managed (frame e) ≠ some i := by
  have hLimit := h.limit
  have hZero (b : BitVec 8) : b = 0#8 ↔ b.toNat = 0 := by
    rw [← BitVec.toNat_inj, BitVec.toNat_ofNat]
  simp only [Mm.mem_freePages, and_assoc, and_congr_right_iff]
  intro hi
  unfold Mm.copyEntry
  by_cases hPresent : Present (mm.pte (16 * p + j) m)
  · have hMaps : mm.Maps (16 * p + j) m _ := ⟨h.from_lt, by omega, h.fromDir, rfl, hPresent⟩
    have hOnly : (∀ e, mm.Maps (16 * p + j) m e → managed (frame e) ≠ some i) ↔
        managed (frame (mm.pte (16 * p + j) m)) ≠ some i :=
      ⟨fun hAll => hAll _ hMaps, fun hNot e hMaps' => hMaps'.entry ▸ hNot⟩
    simp only [hPresent, if_true, hOnly]
    by_cases hLow : lowMem ≤ frame (mm.pte (16 * p + j) m)
    · have hLt := h.inv.retain_lt (h.inv.entries.top _ _ _ hMaps) hLow
      have hRetain := @Mm.retain_count (mm.setPte (16 * k + j) m (mm.pte (16 * p + j) m &&& ~~~2#32))
        (frame (mm.pte (16 * p + j) m)) (fun _ => hLt) i
      simp only [hLow, if_true, Mm.setPte_memMap, frame_clearWrite]
      rw [hZero, hZero, hRetain, Mm.setPte_memMap]
      split_ifs with hSame <;> simp [hSame]
    · simp only [hLow, if_false, Mm.setPte_memMap, managed_of_lt (BitVec.not_le.mp hLow)]
      simp
  · have hNone (e : BitVec 32) : ¬mm.Maps (16 * p + j) m e := fun hMaps =>
      hPresent (hMaps.entry ▸ hMaps.present)
    simp only [hPresent, if_false, hNone, false_imp_iff, implies_true, and_true]

end Round

/-- Every managed page that the fork will share is already in use. -/
def SourcesUsed (p nr : Nat) (mm : Mm) : Prop :=
  ∀ i < 16, ∀ n < nr, ∀ e, mm.Maps (16 * p + i) n e → lowMem ≤ frame e →
    mapNr (frame e) ∉ mm.freePages

theorem SourcesUsed.forking {p q k nr : Nat} {mm mm' : Mm} (h : SourcesUsed q nr mm) (hne : q ≠ k)
    (hFork : Forking p k mm mm') (hFree : mm'.freePages ⊆ mm.freePages) : SourcesUsed q nr mm' := by
  intro i hi n hn e hMaps hLow hMem
  obtain ⟨x, hOld, hSame⟩ := hFork.maps_back (by omega) hMaps
  have hFrame : frame e = frame x := by
    rcases hSame with rfl | ⟨_, rfl⟩
    · rfl
    · exact frame_shareEntry x
  rw [hFrame] at hLow hMem
  exact h i hi n hn x hOld hLow (hFree hMem)

/-- What copying the entries of table `j` from `m` on leaves. -/
structure TableCopied (extMemK : BitVec 16) (task : Nat → BitVec 32) (p k nr j m : Nat)
    (mm mm' : Mm) : Prop where
  round : Round extMemK task p k nr j nr mm'
  forking : Forking p k mm mm'
  dir : ∀ d < 1024, mm'.pde d = mm.pde d
  free : mm'.freePages ⊆ mm.freePages
  bound : mm.freePages.card ≤ mm'.freePages.card + (nr - m)
  used : SourcesUsed p nr mm → mm'.freePages = mm.freePages

/-- A whole table, by induction on what is left of it. -/
theorem Round.copyPageTable {extMemK : BitVec 16} {task : Nat → BitVec 32} {p k nr j m : Nat} {mm : Mm}
    (h : Round extMemK task p k nr j m mm) (hm : m ≤ nr) :
    TableCopied extMemK task p k nr j m mm
      (copyPageTable (nr - m) ((mm.table (16 * p + j)).toNat + 4 * m)
        ((mm.table (16 * k + j)).toNat + 4 * m) mm) := by
  have hLimit := h.limit
  obtain ⟨count, hCount⟩ : ∃ count, nr - m = count := ⟨_, rfl⟩
  induction count generalizing m mm with
  | zero =>
      have hEnd : m = nr := by omega
      subst m
      rw [Nat.sub_self, Linux011.copyPageTable]
      exact ⟨h, Forking.refl mm, fun _ _ => rfl, Finset.Subset.refl _, by omega, fun _ => rfl⟩
  | succ count ih =>
      have hLt : m < nr := by omega
      have hNext := h.next hLt
      obtain ⟨hDir, _⟩ := Mm.copyEntry_tables h.inv.dir.paged h.from_lt h.to_lt h.dirs_ne h.fromDir
        h.toDir (by omega : m < 1024)
      have hRest := ih hNext (by omega) (by omega)
      have hStep := h.forking_copyEntry hLt
      have hFree : (mm.copyEntry (16 * p + j) (16 * k + j) m).freePages ⊆ mm.freePages :=
        fun i hi => ((h.free_copyEntry hLt).mp hi).1
      have hTable (d : Nat) (hd : d < 1024) :
          (mm.copyEntry (16 * p + j) (16 * k + j) m).table d = mm.table d := by
        rw [Mm.table, Mm.table, hDir d hd]
      rw [hTable _ h.from_lt, hTable _ h.to_lt, show nr - (m + 1) = count by omega] at hRest
      rw [hCount, copyPageTable_succ h.inv.dir.paged h.from_lt h.to_lt h.toDir]
      refine ⟨hRest.round, hStep.trans hRest.forking,
        fun d hd => (hRest.dir d hd).trans (hDir d hd), hRest.free.trans hFree, ?_, ?_⟩
      · have hOne : mm.freePages ⊆ insert (mapNr (frame (mm.pte (16 * p + j) m)))
            (mm.copyEntry (16 * p + j) (16 * k + j) m).freePages := by
          intro i hi
          rw [Finset.mem_insert, h.free_copyEntry hLt]
          by_cases hSame : i = mapNr (frame (mm.pte (16 * p + j) m))
          · exact Or.inl hSame
          · refine Or.inr ⟨hi, fun e hMaps hManaged => hSame ?_⟩
            rw [hMaps.entry]
            exact (managed_eq_some.mp hManaged).2.symm
        have hCard := (Finset.card_le_card hOne).trans (Finset.card_insert_le _ _)
        have hBound := hRest.bound
        omega
      · intro hUsed
        rw [hRest.used (hUsed.forking h.apart hStep hFree)]
        apply Finset.Subset.antisymm hFree
        intro i hi
        refine (h.free_copyEntry hLt).mpr ⟨hi, fun e hMaps hManaged => ?_⟩
        obtain ⟨hLow, hIndex⟩ := managed_eq_some.mp hManaged
        exact hUsed j h.index m hLt e hMaps hLow (hIndex ▸ hi)

theorem Mm.freePages_takePage (mm : Mm) (i : Nat) :
    (mm.takePage i).freePages = mm.freePages.erase i := by
  ext a
  rw [Finset.mem_erase, Mm.mem_freePages, Mm.mem_freePages, Mm.takePage_memMap]
  by_cases hSame : a = i
  · subst a
    simp
  · simp [hSame]

/-- The state between two rounds of the outer loop: `t` tables are done. -/
structure Window (extMemK : BitVec 16) (task : Nat → BitVec 32) (p k nr t : Nat) (mm : Mm) : Prop where
  inv : MmInvariant extMemK task mm
  mirror : Mirror p k nr t 0 mm
  parent : p < 64
  child : 1 ≤ k ∧ k < 64
  apart : p ≠ k
  limit : nr ≤ 1024
  fromDirs : ∀ i < 4, Present (mm.pde (16 * p + i))
  done : ∀ i < t, Present (mm.pde (16 * k + i))
  todo : ∀ i < 16, t ≤ i → ¬Present (mm.pde (16 * k + i))

/-- What the rounds of the outer loop from `t` to `t'` leave. -/
structure DirsCopied (extMemK : BitVec 16) (task : Nat → BitVec 32) (p k nr t t' : Nat)
    (mm mm' : Mm) : Prop where
  window : Window extMemK task p k nr t' mm'
  forking : Forking p k mm mm'
  free : mm'.freePages ⊆ mm.freePages
  bound : mm.freePages.card + t * (nr + 1) ≤ mm'.freePages.card + t' * (nr + 1)
  used : SourcesUsed p nr mm → mm.freePages.card + t = mm'.freePages.card + t'

section Dirs

variable {extMemK : BitVec 16} {task : Nat → BitVec 32} {p k nr t t' t'' i : Nat} {mm mm' mm'' : Mm}

theorem DirsCopied.refl (h : Window extMemK task p k nr t mm) :
    DirsCopied extMemK task p k nr t t mm mm :=
  ⟨h, Forking.refl mm, Finset.Subset.refl _, Nat.le_refl _, fun _ => rfl⟩

theorem DirsCopied.trans (h : DirsCopied extMemK task p k nr t t' mm mm')
    (h' : DirsCopied extMemK task p k nr t' t'' mm' mm'') :
    DirsCopied extMemK task p k nr t t'' mm mm'' where
  window := h'.window
  forking := h.forking.trans h'.forking
  free := h'.free.trans h.free
  bound := by
    have hFirst := h.bound
    have hSecond := h'.bound
    omega
  used := fun hUsed =>
    (h.used hUsed).trans (h'.used (hUsed.forking h.window.apart h.forking h.free))

theorem Window.forking_installTable (h : Window extMemK task p k nr t mm) (ht : t < 4)
    (hi : i < pagingPages) (hFree : mm.memMap i = 0#8) :
    Forking p k mm ((mm.takePage i).setPde (16 * k + t) (pageAddr i ||| 7#32)) := by
  have hChild := h.child
  have hTake := h.inv.sameTables_takePage hi hFree
  have hPaged := hTake.paged h.inv.dir.paged
  constructor
  · rfl
  · intro d hd hk
    rw [h.inv.installTable_pde hi hFree hd, if_neg (by omega)]
  · intro d hd hk hPresent n hn
    left
    rw [hPaged.pte_setPde_of_ne (by omega) hd (by omega) (by rw [hTake.pde d hd]; exact hPresent),
      hTake.pte d hd hPresent n hn]

/-- A table has been installed, and nothing is in it yet. -/
theorem Window.round (h : Window extMemK task p k nr t mm) (ht : t < 4)
    (hi : i < pagingPages) (hFree : mm.memMap i = 0#8) :
    Round extMemK task p k nr t 0
      ((mm.takePage i).setPde (16 * k + t) (pageAddr i ||| 7#32)) := by
  have hChild := h.child
  have hParent := h.parent
  have hApart := h.apart
  have hAbsent := h.todo t (by omega) (Nat.le_refl t)
  have hMaps {d n : Nat} {e : BitVec 32} :=
    h.inv.installTable_maps (d := 16 * k + t) (a := d) (n := n) (e := e) (by omega) hAbsent hi hFree
  refine ⟨h.inv.installTable (by unfold userDir; omega) (by omega) hAbsent hi hFree, ?_, h.parent,
    h.child, h.apart, by omega, h.limit, ?_, ?_⟩
  · exact ⟨by simpa only [hMaps] using h.mirror.entry, by simpa only [hMaps] using h.mirror.readOnly⟩
  · rw [h.inv.installTable_pde hi hFree (by omega), if_neg (by omega)]
    exact h.fromDirs t ht
  · rw [h.inv.installTable_pde hi hFree (by omega), if_pos rfl]
    exact present_or_seven _

/-- One round of the outer loop that gets a page. -/
theorem Window.copyTable (h : Window extMemK task p k nr t mm) (ht : t < 4)
    (hi : i < pagingPages) (hFree : mm.memMap i = 0#8) :
    DirsCopied extMemK task p k nr t (t + 1) mm
      (copyPageTable nr (mm.table (16 * p + t)).toNat (pageAddr i).toNat
        ((mm.takePage i).setPde (16 * k + t) (pageAddr i ||| 7#32))) := by
  have hChild := h.child
  have hParent := h.parent
  have hApart := h.apart
  have hRound := h.round ht hi hFree
  have hInstall := h.forking_installTable ht hi hFree
  have hFrom : ((mm.takePage i).setPde (16 * k + t) (pageAddr i ||| 7#32)).table (16 * p + t) =
      mm.table (16 * p + t) := by
    rw [Mm.table, h.inv.installTable_pde hi hFree (by omega), if_neg (by omega), Mm.table]
  have hTo : ((mm.takePage i).setPde (16 * k + t) (pageAddr i ||| 7#32)).table (16 * k + t) =
      pageAddr i := by
    rw [Mm.table_setPde_self (by omega), frame_or_seven (pageAddr_aligned hi)]
  have hCopied := hRound.copyPageTable (Nat.zero_le nr)
  rw [hFrom, hTo, Nat.mul_zero, Nat.add_zero, Nat.add_zero, Nat.sub_zero] at hCopied
  have hPool : ((mm.takePage i).setPde (16 * k + t) (pageAddr i ||| 7#32)).freePages =
      mm.freePages.erase i :=
    (Mm.freePages_congr (Mm.setPde_memMap _ _ _)).trans (mm.freePages_takePage i)
  have hSub := Finset.erase_subset i mm.freePages
  rw [← hPool] at hSub
  have hMem : i ∈ mm.freePages := Mm.mem_freePages.mpr ⟨hi, hFree⟩
  have hErase := Finset.card_erase_add_one hMem
  have hDir {d : Nat} (hd : d < 1024) := (hCopied.dir d hd).trans (h.inv.installTable_pde hi hFree hd)
  constructor
  · refine ⟨hCopied.round.inv, hCopied.round.mirror.next, h.parent, h.child, h.apart, h.limit, ?_, ?_, ?_⟩
    · intro a ha
      rw [hDir (by omega), if_neg (by omega)]
      exact h.fromDirs a ha
    · intro a ha
      rw [hDir (by omega)]
      split_ifs with hSame
      · exact present_or_seven _
      · exact h.done a (by omega)
    · intro a ha ha'
      rw [hDir (by omega), if_neg (by omega)]
      exact h.todo a ha (by omega)
  · exact hInstall.trans hCopied.forking
  · exact hCopied.free.trans hSub
  · have hBound := hCopied.bound
    rw [hPool] at hBound
    rw [Nat.add_mul]
    omega
  · intro hUsed
    have hSame := hCopied.used (hUsed.forking h.apart hInstall hSub)
    rw [hSame, hPool]
    omega

theorem copyPageDirs_page {from_ page : BitVec 32} {size fromDir toDir : Nat} {mm mm' : Mm}
    (hTo : ¬1#32 &&& mm.load toDir ≠ 0#32) (hFrom : ¬1#32 &&& mm.load fromDir = 0#32)
    (hCall : getFreePage mm = .ok (page, mm')) (hPage : page ≠ 0#32) :
    copyPageDirs from_ (size + 1) fromDir toDir mm =
      copyPageDirs from_ size (fromDir + 4) (toDir + 4)
        (copyPageTable (if from_ = 0#32 then 0xa0 else 1024) (0xfffff00#32 &&& mm.load fromDir).toNat
          page.toNat (mm'.store toDir (page ||| 7#32))) := by
  rw [copyPageDirs, if_neg hTo, if_neg hFrom, hCall]
  exact if_neg hPage

/-- The -1 waits for a 0 from `get_free_page`, so it never comes. -/
theorem copyPageDirs_zero {from_ r : BitVec 32} {size fromDir toDir : Nat} {mm mm' : Mm}
    (hRun : copyPageDirs from_ size fromDir toDir mm = .ok (r, mm')) : r = 0#32 := by
  induction size generalizing fromDir toDir mm with
  | zero => exact (Prod.mk.inj (Except.ok.inj hRun)).1.symm
  | succ size ih =>
      by_cases hTo : 1#32 &&& mm.load toDir ≠ 0#32
      · rw [copyPageDirs, if_pos hTo] at hRun
        cases hRun
      by_cases hFrom : 1#32 &&& mm.load fromDir = 0#32
      · rw [copyPageDirs, if_neg hTo, if_pos hFrom] at hRun
        exact ih hRun
      · cases hCall : getFreePage mm with
        | error stop =>
            rw [copyPageDirs, if_neg hTo, if_neg hFrom, hCall] at hRun
            cases hRun
        | ok found =>
            rw [copyPageDirs_page hTo hFrom hCall (getFreePage_ne_zero hCall)] at hRun
            exact ih hRun

/-- `copy_page_tables` does not return -1, as `get_free_page` does not return 0. -/
theorem copyPageTables_zero {from_ to_ size r : BitVec 32} {mm mm' : Mm}
    (hRun : copyPageTables mm from_ to_ size = .ok (r, mm')) : r = 0#32 := by
  rw [copyPageTables] at hRun
  split_ifs at hRun
  exact copyPageDirs_zero hRun

/-- The outer loop copies all four tables, or it comes to a table for which no page is
left. -/
theorem Window.copyPageDirs {from_ : BitVec 32} {size : Nat} (h : Window extMemK task p k nr t mm)
    (hSize : t + size = 4) (hNr : (if from_ = 0#32 then 0xa0 else 1024) = nr) :
    (PagesFound from_ size (4 * (16 * p + t)) (4 * (16 * k + t)) mm ∧ ∃ mm',
      DirsCopied extMemK task p k nr t 4 mm mm' ∧
        copyPageDirs from_ size (4 * (16 * p + t)) (4 * (16 * k + t)) mm = .ok (0#32, mm')) ∨
    ¬PagesFound from_ size (4 * (16 * p + t)) (4 * (16 * k + t)) mm ∧ ∃ t' mm', t' < 4 ∧
      DirsCopied extMemK task p k nr t t' mm mm' ∧ mm'.freePages = ∅ := by
  induction size generalizing t mm with
  | zero =>
      obtain rfl : t = 4 := by omega
      exact Or.inl ⟨trivial, mm, DirsCopied.refl h, rfl⟩
  | succ size ih =>
      have hParent := h.parent
      have hTo : ¬1#32 &&& mm.load (4 * (16 * k + t)) ≠ 0#32 := h.todo t (by omega) (Nat.le_refl t)
      have hFrom : ¬1#32 &&& mm.load (4 * (16 * p + t)) = 0#32 := h.fromDirs t (by omega)
      have hMask : 0xfffff00#32 &&& mm.load (4 * (16 * p + t)) = mm.table (16 * p + t) :=
        h.inv.dir.paged.mask _ (by omega) (h.fromDirs t (by omega))
      rcases getFreePage_cases h.inv.highInUse with ⟨hFull, hCall⟩ | ⟨i, hi, hFree, _, hCall⟩
      · exact Or.inr ⟨not_pagesFound hFrom hCall, t, mm, by omega, DirsCopied.refl h,
          Mm.freePages_eq_empty.mpr hFull⟩
      · have hStep := h.copyTable (by omega) hi hFree
        rw [pagesFound_page hFrom hCall, copyPageDirs_page hTo hFrom hCall (pageAddr_ne_zero hi), hNr, hMask]
        rcases ih hStep.window (by omega) with ⟨hFound, mm', hRest, hRun⟩ | ⟨hShort, t', mm', ht', hRest, hNone⟩
        · exact Or.inl ⟨⟨pageAddr_ne_noPage hi, hFound⟩, mm', hStep.trans hRest, hRun⟩
        · exact Or.inr ⟨fun hFound => hShort hFound.2, t', mm', ht', hStep.trans hRest, hNone⟩

end Dirs

end Linux011

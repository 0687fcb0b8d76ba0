import Linux011.Mm.Allocator
import Linux011.Mm.PageRefs
import Mathlib.Data.Fintype.Card

/-! The invariant of the memory manager between the steps of its loops, and the
single steps that keep it: one entry, one table or one task slot at a time. -/
namespace Linux011

open ByteMemory SharedRefs

/-- The directory entries of the address spaces of tasks 1 to 63. -/
def userDir (d : Nat) : Prop := 16 ≤ d

/-- The directory: four boot tables, then tables in main memory only. -/
structure DirInvariant (extMemK : BitVec 16) (mm : Mm) : Prop where
  paged : Paged mm
  absent : ∀ d < 1024, ¬Present (mm.pde d) → mm.pde d = 0#32
  boot : ∀ d < 4, Present (mm.pde d) ∧ (mm.table d).toNat = 4096 * (d + 1)
  gap : ∀ d, 4 ≤ d → d < 16 → ¬Present (mm.pde d)
  main : ∀ d, userDir d → d < 1024 → Present (mm.pde d) → MainPage extMemK (mm.table d)

/-- The entries: task 0 keeps its identity map, and no address space maps a
managed page twice. -/
structure EntryInvariant (mm : Mm) : Prop where
  identity : ∀ d < 4, ∀ n < 1024, ∃ e, mm.Maps d n e ∧ (frame e).toNat = 0x400000 * d + 0x1000 * n
  top : ∀ d n e, mm.Maps d n e → (frame e).toNat < 0x1000000
  user : ∀ d n e, mm.Maps d n e → User e
  lowReadOnly : ∀ d n e, userDir d → mm.Maps d n e → Writable e → lowMem ≤ frame e
  injective : ∀ d n e d' n' e', mm.Maps d n e → mm.Maps d' n' e' → d / 16 = d' / 16 →
    frame e = frame e' → lowMem ≤ frame e → d = d' ∧ n = n'

/-- A reference of the directory or of the task table. -/
def PageRef.NonEntry : PageRef → Prop
  | .entry _ _ => False
  | _ => True

/-- The reference is an entry that may be written through. -/
def Mm.WritableRef (mm : Mm) : PageRef → Prop
  | .entry d n => ∃ e, mm.Maps d n e ∧ Writable e
  | _ => False

/-- The references that the counts of `mem_map` are about. -/
noncomputable abbrev userRefs (task : Nat → BitVec 32) (mm : Mm) : PageRef → Option Nat :=
  pageRefs userDir task mm

/-- `mem_map` counts every reference, and no writable entry of a task names a
table or a task structure. -/
structure CountInvariant (extMemK : BitVec 16) (task : Nat → BitVec 32) (mm : Mm) : Prop where
  noWrap : mm.wrapped = false
  exact : ∀ i < pagingPages,
    Exact (baseCount extMemK) (fun j => (mm.memMap j).toNat) (userRefs task mm) i
  protect : Exclusive (userRefs task mm) mm.WritableRef PageRef.NonEntry

/-- The task structures have different pages of main memory. -/
structure TaskInvariant (extMemK : BitVec 16) (task : Nat → BitVec 32) : Prop where
  main : ∀ s, 1 ≤ s → s < 64 → task s ≠ 0#32 → MainPage extMemK (task s)
  distinct : ∀ s, 1 ≤ s → s < 64 → ∀ s', 1 ≤ s' → s' < 64 → task s ≠ 0#32 → task s = task s' → s = s'

/-- What holds of the directory, the tables, the counts and the task pages. -/
structure MmInvariant (extMemK : BitVec 16) (task : Nat → BitVec 32) (mm : Mm) : Prop where
  high : mm.highMemory = memoryEnd extMemK
  dir : DirInvariant extMemK mm
  entries : EntryInvariant mm
  counts : CountInvariant extMemK task mm
  tasks : TaskInvariant extMemK task

theorem DirInvariant.congr {extMemK : BitVec 16} {mm mm' : Mm} (h : DirInvariant extMemK mm)
    (hDir : ∀ d < 1024, mm'.pde d = mm.pde d) : DirInvariant extMemK mm' where
  paged := h.paged.congr hDir
  absent := fun d hd hAbsent => by
    rw [hDir d hd] at hAbsent ⊢
    exact h.absent d hd hAbsent
  boot := fun d hd => by
    rw [Mm.table, hDir d (by omega)]
    exact h.boot d hd
  gap := fun d hd hd' => by
    rw [hDir d (by omega)]
    exact h.gap d hd hd'
  main := fun d hd hd' hPresent => by
    rw [Mm.table, hDir d hd'] at *
    exact h.main d hd hd' hPresent

theorem EntryInvariant.congr {mm mm' : Mm} (h : EntryInvariant mm)
    (hMaps : ∀ d n e, mm'.Maps d n e ↔ mm.Maps d n e) : EntryInvariant mm' where
  identity := by simpa only [hMaps] using h.identity
  top := by simpa only [hMaps] using h.top
  user := by simpa only [hMaps] using h.user
  lowReadOnly := by simpa only [hMaps] using h.lowReadOnly
  injective := by simpa only [hMaps] using h.injective

/-- What a new value of one entry has to satisfy. -/
structure EntryFits (mm : Mm) (d n : Nat) (v : BitVec 32) : Prop where
  top : Present v → (frame v).toNat < 0x1000000
  user : Present v → User v
  lowReadOnly : userDir d → Present v → Writable v → lowMem ≤ frame v
  fresh : Present v → lowMem ≤ frame v → ∀ d' n' e', mm.Maps d' n' e' → d' / 16 = d / 16 →
    frame e' = frame v → d' = d ∧ n' = n
  identity : d < 4 → Present v ∧ (frame v).toNat = 0x400000 * d + 0x1000 * n

/-- One entry changes to one that fits. -/
theorem EntryInvariant.setPte {mm : Mm} (h : EntryInvariant mm) (hPaged : Paged mm) {d n : Nat}
    (hd : d < 1024) (hPresent : Present (mm.pde d)) (hn : n < 1024) {v : BitVec 32}
    (fits : EntryFits mm d n v) : EntryInvariant (mm.setPte d n v) := by
  have hMaps {d' n' : Nat} {e : BitVec 32} : (mm.setPte d n v).Maps d' n' e ↔ _ :=
    hPaged.maps_setPte hd hPresent hn
  constructor
  · intro d' hd' n' hn'
    by_cases hSame : d' = d ∧ n' = n
    · obtain ⟨rfl, rfl⟩ := hSame
      obtain ⟨hv, hFrame⟩ := fits.identity hd'
      exact ⟨v, hMaps.mpr (Or.inl ⟨rfl, rfl, rfl, hv⟩), hFrame⟩
    · obtain ⟨e, hOld, hFrame⟩ := h.identity d' hd' n' hn'
      exact ⟨e, hMaps.mpr (Or.inr ⟨hSame, hOld⟩), hFrame⟩
  · intro d' n' e hNew
    rcases hMaps.mp hNew with ⟨rfl, rfl, rfl, hv⟩ | ⟨_, hOld⟩
    · exact fits.top hv
    · exact h.top d' n' e hOld
  · intro d' n' e hNew
    rcases hMaps.mp hNew with ⟨rfl, rfl, rfl, hv⟩ | ⟨_, hOld⟩
    · exact fits.user hv
    · exact h.user d' n' e hOld
  · intro d' n' e hUser hNew
    rcases hMaps.mp hNew with ⟨rfl, rfl, rfl, hv⟩ | ⟨_, hOld⟩
    · exact fits.lowReadOnly hUser hv
    · exact h.lowReadOnly d' n' e hUser hOld
  · intro a m e b k e' hNew hNew' hSpace hFrame hLow
    rcases hMaps.mp hNew with ⟨rfl, rfl, rfl, hv⟩ | ⟨hSame, hOld⟩
    · rcases hMaps.mp hNew' with ⟨rfl, rfl, _, _⟩ | ⟨_, hOld'⟩
      · exact ⟨rfl, rfl⟩
      · obtain ⟨rfl, rfl⟩ := fits.fresh hv hLow b k e' hOld' hSpace.symm hFrame.symm
        exact ⟨rfl, rfl⟩
    · rcases hMaps.mp hNew' with ⟨rfl, rfl, rfl, hv⟩ | ⟨_, hOld'⟩
      · exact fits.fresh hv (hFrame ▸ hLow) a m e hOld hSpace hFrame
      · exact h.injective a m e b k e' hOld hOld' hSpace hFrame hLow

/-- One reference changes, and the counts with it. -/
theorem CountInvariant.update {extMemK : BitVec 16} {task task' : Nat → BitVec 32} {mm mm' : Mm}
    (h : CountInvariant extMemK task mm) (r : PageRef) (new : Option Nat)
    (hRefs : userRefs task' mm' = Function.update (userRefs task mm) r new)
    (hWrap : mm'.wrapped = mm.wrapped)
    (hCount : ∀ i < pagingPages, (mm'.memMap i).toNat + (if userRefs task mm r = some i then 1 else 0) =
      (mm.memMap i).toNat + if new = some i then 1 else 0)
    (hOthers : ∀ r', r' ≠ r → mm'.WritableRef r' → mm.WritableRef r')
    (hSelf : mm'.WritableRef r → ∀ o, new = some o → ∀ r', r'.NonEntry → r' ≠ r →
      userRefs task mm r' ≠ some o)
    (hShared : r.NonEntry → ∀ o, new = some o → ∀ r', r' ≠ r → mm'.WritableRef r' →
      userRefs task mm r' ≠ some o) : CountInvariant extMemK task' mm' where
  noWrap := hWrap.trans h.noWrap
  exact := fun i hi => by
    rw [hRefs]
    exact (h.exact i hi).update r new (hCount i hi)
  protect := by
    rw [hRefs]
    exact h.protect.update r new hOthers hSelf hShared

theorem writableRef_congr {mm mm' : Mm} (hMaps : ∀ d n e, mm'.Maps d n e ↔ mm.Maps d n e)
    (r : PageRef) : mm'.WritableRef r ↔ mm.WritableRef r := by
  cases r <;> simp only [Mm.WritableRef, hMaps]

/-- After one entry is written no other entry becomes writable. -/
theorem writableRef_setPte {mm : Mm} (hPaged : Paged mm) {d n : Fin 1024}
    (hPresent : Present (mm.pde d)) {v : BitVec 32} {r : PageRef} (hne : r ≠ .entry d n)
    (hw : (mm.setPte d n v).WritableRef r) : mm.WritableRef r := by
  cases r with
  | entry d' n' =>
      obtain ⟨e, hMaps, hWritable⟩ := hw
      rcases (hPaged.maps_setPte d.isLt hPresent n.isLt).mp hMaps with ⟨hd, hn, _⟩ | ⟨_, hOld⟩
      · exact absurd (by rw [Fin.ext hd, Fin.ext hn]) hne
      · exact ⟨e, hOld, hWritable⟩
  | table d' => exact hw
  | task slot => exact hw

theorem writable_of_setPte {mm : Mm} (hPaged : Paged mm) {d n : Fin 1024}
    (hPresent : Present (mm.pde d)) {v : BitVec 32}
    (hw : (mm.setPte d n v).WritableRef (.entry d n)) : Present v ∧ Writable v := by
  obtain ⟨e, hMaps, hWritable⟩ := hw
  rcases (hPaged.maps_setPte d.isLt hPresent n.isLt).mp hMaps with ⟨_, _, rfl, hv⟩ | ⟨hne, _⟩
  · exact ⟨hv, hWritable⟩
  · exact absurd ⟨rfl, rfl⟩ hne

theorem dir_div_lt (d : Fin 1024) : d.val / 16 < 64 := by
  omega

/-- The owner of a reference: a task's address space, or the kernel. -/
def PageRef.owner : PageRef → Fin 64 ⊕ Bool
  | .entry d _ => .inl ⟨d / 16, dir_div_lt d⟩
  | .table _ => .inr false
  | .task _ => .inr true

namespace MmInvariant

variable {extMemK : BitVec 16} {task : Nat → BitVec 32} {mm : Mm}

theorem count_eq (h : MmInvariant extMemK task mm) {i : Nat} (hi : i < pagingPages) :
    (mm.memMap i).toNat = baseCount extMemK i + count (userRefs task mm) i :=
  h.counts.exact i hi

theorem free_main (h : MmInvariant extMemK task mm) {i : Nat} (hi : i < pagingPages)
    (hFree : mm.memMap i = 0#8) : MainPage extMemK (pageAddr i) := by
  have hCount := h.count_eq hi
  rw [hFree, BitVec.toNat_ofNat] at hCount
  exact (mainPage_pageAddr_iff hi).mpr (by omega)

/-- The pages behind the end of memory are in use, so `get_free_page` gives none of them. -/
theorem highInUse (h : MmInvariant extMemK task mm) : mm.HighInUse := by
  have hRange := memoryRange extMemK
  refine ⟨by rw [h.high]; exact BitVec.le_def.mpr (hRange.low.trans hRange.ordered), ?_⟩
  intro i hi hAbove hFree
  have hHigh := (h.free_main hi hFree).high
  rw [pageAddr_toNat hi] at hHigh
  rw [h.high] at hAbove
  omega

/-- Nothing refers to a free page. -/
theorem free_not_held (h : MmInvariant extMemK task mm) {i : Nat} (hi : i < pagingPages)
    (hFree : mm.memMap i = 0#8) (r : PageRef) : userRefs task mm r ≠ some i :=
  (h.counts.exact i hi).not_held (by rw [hFree]; rfl) r

theorem used_of_held (h : MmInvariant extMemK task mm) {i : Nat} (hi : i < pagingPages)
    {r : PageRef} (hr : userRefs task mm r = some i) : mm.memMap i ≠ 0#8 :=
  fun hFree => h.free_not_held hi hFree r hr

theorem mapNr_lt_of_top {page : BitVec 32} (hLow : lowMem ≤ page) (hTop : page.toNat < 0x1000000) :
    mapNr page < pagingPages := by
  rw [mapNr_toNat hLow, pagingPages_eq]
  rw [BitVec.le_def, lowMem_toNat] at hLow
  omega

theorem entry_ref {d n : Fin 1024} {e : BitVec 32} (hUser : userDir d) (hMaps : mm.Maps d n e) :
    userRefs task mm (.entry d n) = managed (frame e) := by
  apply Option.ext
  intro i
  rw [userRefs, pageRefs_entry]
  constructor
  · rintro ⟨_, e', hMaps', hi⟩
    rwa [hMaps.unique hMaps']
  · exact fun hi => ⟨hUser, e, hMaps, hi⟩

theorem table_ref {d : Fin 1024} (hUser : userDir d) (hPresent : Present (mm.pde d)) :
    userRefs task mm (.table d) = managed (mm.table d) := by
  apply Option.ext
  intro i
  rw [userRefs, pageRefs_table]
  exact ⟨fun h => h.2.2, fun hi => ⟨hUser, hPresent, hi⟩⟩

/-- One owner names a page at most once. -/
theorem refs_unique (h : MmInvariant extMemK task mm) {i : Nat} (r r' : PageRef)
    (hr : userRefs task mm r = some i) (hr' : userRefs task mm r' = some i)
    (hOwner : r.owner = r'.owner) : r = r' := by
  cases r with
  | entry d n =>
      cases r' with
      | entry d' n' =>
          obtain ⟨_, e, hMaps, hi⟩ := pageRefs_entry.mp hr
          obtain ⟨_, e', hMaps', hi'⟩ := pageRefs_entry.mp hr'
          obtain ⟨hLow, hIndex⟩ := managed_eq_some.mp hi
          obtain ⟨hLow', hIndex'⟩ := managed_eq_some.mp hi'
          have hFrame := mapNr_injective hLow hLow' (frame_mod e) (frame_mod e')
            (hIndex.trans hIndex'.symm)
          simp only [PageRef.owner, Sum.inl.injEq, Fin.mk.injEq] at hOwner
          obtain ⟨hd, hn⟩ := h.entries.injective _ _ _ _ _ _ hMaps hMaps' hOwner hFrame hLow
          rw [Fin.ext hd, Fin.ext hn]
      | table d' => simp [PageRef.owner] at hOwner
      | task s' => simp [PageRef.owner] at hOwner
  | table d =>
      cases r' with
      | entry d' n' => simp [PageRef.owner] at hOwner
      | table d' =>
          obtain ⟨_, hPresent, hi⟩ := pageRefs_table.mp hr
          obtain ⟨_, hPresent', hi'⟩ := pageRefs_table.mp hr'
          obtain ⟨hLow, hIndex⟩ := managed_eq_some.mp hi
          obtain ⟨hLow', hIndex'⟩ := managed_eq_some.mp hi'
          have hTable := mapNr_injective hLow hLow' (mm.table_mod d) (mm.table_mod d')
            (hIndex.trans hIndex'.symm)
          rw [Fin.ext (h.dir.paged.distinct d d.isLt d' d'.isLt hPresent hPresent' hTable)]
      | task s' => simp [PageRef.owner] at hOwner
  | task s =>
      cases r' with
      | entry d' n' => simp [PageRef.owner] at hOwner
      | table d' => simp [PageRef.owner] at hOwner
      | task s' =>
          obtain ⟨hs, hTask, hi⟩ := pageRefs_task.mp hr
          obtain ⟨hs', hTask', hi'⟩ := pageRefs_task.mp hr'
          obtain ⟨hLow, hIndex⟩ := managed_eq_some.mp hi
          obtain ⟨hLow', hIndex'⟩ := managed_eq_some.mp hi'
          have hPos : 1 ≤ (s : Nat) := Nat.one_le_iff_ne_zero.mpr fun h0 => hs (Fin.ext h0)
          have hPos' : 1 ≤ (s' : Nat) := Nat.one_le_iff_ne_zero.mpr fun h0 => hs' (Fin.ext h0)
          have hPage := mapNr_injective hLow hLow' (h.tasks.main s hPos s.isLt hTask).aligned
            (h.tasks.main s' hPos' s'.isLt hTask').aligned (hIndex.trans hIndex'.symm)
          rw [Fin.ext (h.tasks.distinct s hPos s.isLt s' hPos' s'.isLt hTask hPage)]

/-- Each of 64 address spaces, the directory and the task table name a page at
most once, so the counts stay far below 255. -/
theorem count_le (h : MmInvariant extMemK task mm) {i : Nat} (hi : i < pagingPages) :
    (mm.memMap i).toNat ≤ 166 := by
  have hCount := h.count_eq hi
  have hRefs := count_le_card PageRef.owner (h.refs_unique (i := i))
  have hBase : baseCount extMemK i ≤ 100 := by
    unfold baseCount
    split_ifs
    · omega
    · decide
  have hOwners : Fintype.card (Fin 64 ⊕ Bool) = 66 := rfl
  rw [hOwners] at hRefs
  omega

/-- A free page holds no table, so clearing it moves no entry. -/
theorem sameTables_frame (h : MmInvariant extMemK task mm) {mm' : Mm} {i : Nat}
    (hi : i < pagingPages) (hTable : ∀ d : Fin 1024, userRefs task mm (.table d) ≠ some i)
    (hOutside : ∀ a, a < (pageAddr i).toNat ∨ (pageAddr i).toNat + 4096 ≤ a → mm'.mem a = mm.mem a) :
    SameTables mm mm' := by
  have hAddr := pageAddr_toNat hi
  apply SameTables.of_frame (by omega) (pageAddr_aligned hi) _ hOutside
  intro d hd hPresent he
  by_cases hBoot : d < 4
  · have := (h.dir.boot d hBoot).2
    omega
  · by_cases hGap : d < 16
    · exact h.dir.gap d (by omega) hGap hPresent
    · have hUser : userDir d := by unfold userDir; omega
      apply hTable ⟨d, hd⟩
      rw [table_ref (d := ⟨d, hd⟩) hUser hPresent]
      change managed (mm.table d) = some i
      rw [BitVec.eq_of_toNat_eq he, managed_pageAddr hi]

end MmInvariant

end Linux011

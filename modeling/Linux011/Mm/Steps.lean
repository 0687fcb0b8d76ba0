import Linux011.Mm.Invariant

/-! The single steps of the memory manager. Each keeps the invariant and says
which references it adds, drops or moves. -/
namespace Linux011

open ByteMemory SharedRefs

namespace MmInvariant

variable {extMemK : BitVec 16} {task : Nat → BitVec 32} {mm mm' : Mm}

/-- Only data changed. -/
theorem data (h : MmInvariant extMemK task mm) (hTables : SameTables mm mm')
    (hHigh : mm'.highMemory = mm.highMemory) (hMap : mm'.memMap = mm.memMap)
    (hWrap : mm'.wrapped = mm.wrapped) : MmInvariant extMemK task mm' where
  high := hHigh.trans h.high
  dir := h.dir.congr hTables.pde
  entries := h.entries.congr fun _ _ _ => hTables.maps
  tasks := h.tasks
  counts := by
    have hRefs : userRefs task mm' = userRefs task mm := pageRefs_sameTables hTables
    constructor
    · exact hWrap.trans h.counts.noWrap
    · rw [hRefs, hMap]
      exact h.counts.exact
    · rw [hRefs]
      intro r o hr hw
      exact h.counts.protect r o hr ((writableRef_congr (fun _ _ _ => hTables.maps) r).mp hw)

theorem rewrite_refs (h : MmInvariant extMemK task mm) {d n : Nat} {e v : BitVec 32}
    (hMaps : mm.Maps d n e) (hv : Present v) (hFrame : frame v = frame e) :
    userRefs task (mm.setPte d n v) = userRefs task mm := by
  let d' : Fin 1024 := ⟨d, hMaps.dir⟩
  let n' : Fin 1024 := ⟨n, hMaps.index⟩
  by_cases hUser : userDir d
  · have hUpdate : userRefs task (mm.setPte d' n' v) = _ :=
      pageRefs_setPte h.dir.paged hUser hMaps.table v
    change userRefs task (mm.setPte d' n' v) = _
    rw [hUpdate, if_pos hv, hFrame]
    exact Function.update_eq_self_iff.mpr (entry_ref (d := d') (n := n') hUser hMaps).symm
  · exact pageRefs_setPte_outside (d := d') (n := n') h.dir.paged hUser hMaps.table v

/-- An entry is rewritten over the same frame: the bits that the processor sets,
the write bit that `fork` clears, or the write bit that a sole owner is given. -/
theorem rewrite (h : MmInvariant extMemK task mm) {d n : Nat} {e v : BitVec 32}
    (hMaps : mm.Maps d n e) (hv : Present v) (hFrame : frame v = frame e) (hUserBit : User v)
    (hWrite : userDir d → Writable v → lowMem ≤ frame e ∧
      ∀ r : PageRef, r.NonEntry → userRefs task mm r ≠ some (mapNr (frame e))) :
    MmInvariant extMemK task (mm.setPte d n v) where
  high := h.high
  dir := h.dir.congr fun _ hd => h.dir.paged.pde_setPte hMaps.dir hMaps.table hd
  tasks := h.tasks
  entries := by
    apply h.entries.setPte h.dir.paged hMaps.dir hMaps.table hMaps.index
    constructor
    · intro _
      rw [hFrame]
      exact h.entries.top d n e hMaps
    · exact fun _ => hUserBit
    · intro hUser _ hw
      rw [hFrame]
      exact (hWrite hUser hw).1
    · intro _ hLow d' n' e' hMaps' hSpace hSame
      rw [hFrame] at hSame
      exact h.entries.injective d' n' e' d n e hMaps' hMaps hSpace hSame (by rw [hSame, ← hFrame]; exact hLow)
    · intro hBoot
      obtain ⟨e', hMaps', hIdentity⟩ := h.entries.identity d hBoot n hMaps.index
      rw [hFrame, hMaps.unique hMaps']
      exact ⟨hv, hIdentity⟩
  counts := by
    have hRefs := h.rewrite_refs hMaps hv hFrame
    have hPresent := hMaps.table
    refine ⟨h.counts.noWrap, by rw [hRefs]; exact h.counts.exact, ?_⟩
    rw [hRefs]
    intro r o hr hw r' hr' ho
    by_cases hSame : r = .entry ⟨d, hMaps.dir⟩ ⟨n, hMaps.index⟩
    · subst r
      obtain ⟨_, hWritable⟩ := writable_of_setPte (d := ⟨d, hMaps.dir⟩) (n := ⟨n, hMaps.index⟩)
        h.dir.paged hPresent hw
      obtain ⟨hUser, e', hMaps', ho'⟩ := pageRefs_entry.mp hr
      rw [← hMaps.unique hMaps'] at ho'
      exact absurd (ho.trans ((managed_eq_some.mp ho').2 ▸ rfl)) ((hWrite hUser hWritable).2 r' hr')
    · exact h.counts.protect r o hr (writableRef_setPte (d := ⟨d, hMaps.dir⟩)
        (n := ⟨n, hMaps.index⟩) h.dir.paged hPresent hSame hw) r' hr' ho

/-- One entry of a task's address space changes and the counts follow. -/
theorem entry (h : MmInvariant extMemK task mm) {d n : Nat} {v : BitVec 32} (hUser : userDir d)
    (hd : d < 1024) (hPresent : Present (mm.pde d)) (hn : n < 1024)
    (hTables : SameTables (mm.setPte d n v) mm') (hHigh : mm'.highMemory = mm.highMemory)
    (hWrap : mm'.wrapped = mm.wrapped) (fits : EntryFits mm d n v)
    (hCount : ∀ i < pagingPages,
      (mm'.memMap i).toNat + (if userRefs task mm (.entry ⟨d, hd⟩ ⟨n, hn⟩) = some i then 1 else 0) =
        (mm.memMap i).toNat + if (if Present v then managed (frame v) else none) = some i then 1 else 0)
    (hWrite : Present v → Writable v → ∀ o, managed (frame v) = some o →
      ∀ r : PageRef, r.NonEntry → userRefs task mm r ≠ some o) :
    MmInvariant extMemK task mm' where
  high := hHigh.trans h.high
  dir := (h.dir.congr fun _ ha => h.dir.paged.pde_setPte hd hPresent ha).congr hTables.pde
  entries := (h.entries.setPte h.dir.paged hd hPresent hn fits).congr fun _ _ _ => hTables.maps
  tasks := h.tasks
  counts := by
    have hWritable (r : PageRef) : mm'.WritableRef r ↔ (mm.setPte d n v).WritableRef r :=
      writableRef_congr (fun _ _ _ => hTables.maps) r
    apply h.counts.update (.entry ⟨d, hd⟩ ⟨n, hn⟩) (if Present v then managed (frame v) else none) _
      hWrap hCount
    · intro r hne hw
      exact writableRef_setPte (d := ⟨d, hd⟩) (n := ⟨n, hn⟩) h.dir.paged hPresent hne
        ((hWritable r).mp hw)
    · intro hw o ho r hr _
      obtain ⟨hv, hvw⟩ := writable_of_setPte (d := ⟨d, hd⟩) (n := ⟨n, hn⟩) h.dir.paged hPresent
        ((hWritable _).mp hw)
      rw [if_pos hv] at ho
      exact hWrite hv hvw o ho r hr
    · exact fun hEntry => hEntry.elim
    · rw [userRefs, pageRefs_sameTables hTables]
      exact pageRefs_setPte (d := ⟨d, hd⟩) (n := ⟨n, hn⟩) h.dir.paged hUser hPresent v

theorem entry_ref_of_empty {d n : Nat} (hd : d < 1024) (hn : n < 1024)
    (hEmpty : ¬Present (mm.pte d n)) (i : Nat) :
    userRefs task mm (.entry ⟨d, hd⟩ ⟨n, hn⟩) ≠ some i := by
  intro hRef
  obtain ⟨_, e, hMaps, _⟩ := pageRefs_entry.mp hRef
  exact hEmpty (hMaps.entry ▸ hMaps.present)

theorem retain_lt (h : MmInvariant extMemK task mm) {page : BitVec 32}
    (hTop : page.toNat < 0x1000000) (hLow : lowMem ≤ page) : (mm.memMap (mapNr page)).toNat < 255 := by
  have hLe := h.count_le (mapNr_lt_of_top hLow hTop)
  omega

/-- A child entry is added, read-only, for a page its address space does not
map yet. -/
theorem share (h : MmInvariant extMemK task mm) {d n : Nat} {v : BitVec 32} (hUser : userDir d)
    (hd : d < 1024) (hPresent : Present (mm.pde d)) (hn : n < 1024) (hEmpty : ¬Present (mm.pte d n))
    (hv : Present v) (hRead : ¬Writable v) (hUserBit : User v) (hTop : (frame v).toNat < 0x1000000)
    (hFresh : lowMem ≤ frame v → ∀ d' n' e', mm.Maps d' n' e' → d' / 16 = d / 16 →
      frame e' ≠ frame v) :
    MmInvariant extMemK task ((mm.setPte d n v).retain (frame v)) := by
  have hLt : lowMem ≤ frame v → ((mm.setPte d n v).memMap (mapNr (frame v))).toNat < 255 :=
    fun hLow => h.retain_lt hTop hLow
  apply h.entry hUser hd hPresent hn (sameTables_of_mem Mm.retain_mem) Mm.retain_highMemory
    (Mm.retain_wrapped hLt)
  · constructor
    · exact fun _ => hTop
    · exact fun _ => hUserBit
    · exact fun _ _ hw => absurd hw hRead
    · exact fun _ hLow d' n' e' hMaps hSpace hSame => absurd hSame (hFresh hLow d' n' e' hMaps hSpace)
    · intro hBoot
      unfold userDir at hUser
      omega
  · intro i _
    rw [if_neg (entry_ref_of_empty hd hn hEmpty i), if_pos hv, Mm.retain_count hLt]
    rfl
  · exact fun _ hw => absurd hw hRead

theorem release_used (h : MmInvariant extMemK task mm) {d n : Nat} {e : BitVec 32}
    (hUser : userDir d) (hMaps : mm.Maps d n e) (hLow : lowMem ≤ frame e) :
    mm.memMap (mapNr (frame e)) ≠ 0#8 := by
  apply h.used_of_held (mapNr_lt_of_top hLow (h.entries.top d n e hMaps))
    (r := .entry ⟨d, hMaps.dir⟩ ⟨n, hMaps.index⟩)
  rw [entry_ref (d := ⟨d, hMaps.dir⟩) (n := ⟨n, hMaps.index⟩) hUser hMaps, managed_of_le hLow]

/-- An entry of a task is released and cleared. -/
theorem drop (h : MmInvariant extMemK task mm) {d n : Nat} {e : BitVec 32} (hUser : userDir d)
    (hMaps : mm.Maps d n e) :
    MmInvariant extMemK task ((mm.release (frame e)).setPte d n 0#32) := by
  have hUsed := h.release_used hUser hMaps
  have hRelease : SameTables mm (mm.release (frame e)) := sameTables_of_mem Mm.release_mem
  have hStore := hRelease.setPte h.dir.paged hMaps.dir hMaps.table hMaps.index 0#32
  apply h.entry hUser hMaps.dir hMaps.table hMaps.index hStore Mm.release_highMemory (Mm.release_wrapped hUsed)
  · constructor
    · exact fun h0 => absurd h0 not_present_zero
    · exact fun h0 => absurd h0 not_present_zero
    · exact fun _ h0 => absurd h0 not_present_zero
    · exact fun h0 => absurd h0 not_present_zero
    · intro hBoot
      unfold userDir at hUser
      omega
  · intro i _
    rw [entry_ref (d := ⟨d, hMaps.dir⟩) (n := ⟨n, hMaps.index⟩) hUser hMaps,
      if_neg not_present_zero]
    simpa using Mm.release_count hUsed i
  · exact fun h0 => absurd h0 not_present_zero

/-- An entry leaves its page for the free page `i`; `mm'` may hold anything in
that page. -/
theorem move (h : MmInvariant extMemK task mm) {d n i : Nat} {e : BitVec 32} (hUser : userDir d)
    (hMaps : mm.Maps d n e) (hi : i < pagingPages) (hFree : mm.memMap i = 0#8)
    (hOutside : ∀ a, a < (pageAddr i).toNat ∨ (pageAddr i).toNat + 4096 ≤ a → mm'.mem a = mm.mem a)
    (hHigh : mm'.highMemory = mm.highMemory)
    (hMap : mm'.memMap = ((mm.takePage i).release (frame e)).memMap)
    (hWrap : mm'.wrapped = ((mm.takePage i).release (frame e)).wrapped) :
    MmInvariant extMemK task (mm'.setPte d n (pageAddr i ||| 7#32)) := by
  have hMain := h.free_main hi hFree
  have hFrame := frame_or_seven (pageAddr_aligned hi)
  have hTables : SameTables mm mm' := h.sameTables_frame hi (fun _ => h.free_not_held hi hFree _) hOutside
  have hUsed : lowMem ≤ frame e → (mm.takePage i).memMap (mapNr (frame e)) ≠ 0#8 := by
    intro hLow
    by_cases hSame : mapNr (frame e) = i
    · exact absurd (hSame ▸ hFree) (h.release_used hUser hMaps hLow)
    · rw [Mm.takePage_memMap, Function.update_of_ne hSame]
      exact h.release_used hUser hMaps hLow
  have hStore := hTables.setPte h.dir.paged hMaps.dir hMaps.table hMaps.index (pageAddr i ||| 7#32)
  apply h.entry hUser hMaps.dir hMaps.table hMaps.index hStore hHigh
    (hWrap.trans (Mm.release_wrapped hUsed))
  · constructor
    · intro _
      rw [hFrame]
      have := hMain.high
      have := (memoryRange extMemK).high
      omega
    · exact fun _ => user_or_seven _
    · intro _ _ _
      rw [hFrame]
      exact lowMem_le_pageAddr hi
    · intro _ _ d' n' e' hMaps' hSpace hSame
      rw [hFrame] at hSame
      have hUser' : userDir d' := by
        unfold userDir at hUser ⊢
        omega
      refine absurd ?_ (h.free_not_held hi hFree (.entry ⟨d', hMaps'.dir⟩ ⟨n', hMaps'.index⟩))
      rw [entry_ref (d := ⟨d', hMaps'.dir⟩) (n := ⟨n', hMaps'.index⟩) hUser' hMaps', hSame,
        managed_pageAddr hi]
    · intro hBoot
      unfold userDir at hUser
      omega
  · intro j _
    rw [entry_ref (d := ⟨d, hMaps.dir⟩) (n := ⟨n, hMaps.index⟩) hUser hMaps,
      if_pos (present_or_seven _), hFrame, managed_pageAddr hi, Mm.setPte_memMap, hMap,
      Mm.release_count hUsed, Mm.takePage_count hFree]
  · intro _ _ o ho r _
    rw [hFrame, managed_pageAddr hi] at ho
    rw [← ho]
    exact h.free_not_held hi hFree r

theorem sameTables_takePage (h : MmInvariant extMemK task mm) {i : Nat} (hi : i < pagingPages)
    (hFree : mm.memMap i = 0#8) : SameTables mm (mm.takePage i) :=
  h.sameTables_frame hi (fun _ => h.free_not_held hi hFree _) fun _ ha => mm.takePage_outside hi ha

theorem takePage_used (h : MmInvariant extMemK task mm) {i : Nat} (hi : i < pagingPages)
    (hFree : mm.memMap i = 0#8) {d : Nat} (hd : d < 1024) (hPresent : Present (mm.pde d)) :
    mm.table d ≠ pageAddr i := by
  intro he
  have hMain := (h.free_main hi hFree).low
  have hRange := (memoryRange extMemK).low
  by_cases hUser : userDir d
  · apply h.free_not_held hi hFree (.table ⟨d, hd⟩)
    rw [table_ref (d := ⟨d, hd⟩) hUser hPresent]
    change managed (mm.table d) = some i
    rw [he, managed_pageAddr hi]
  · by_cases hBoot : d < 4
    · have hTable := (h.dir.boot d hBoot).2
      rw [he] at hTable
      omega
    · exact h.dir.gap d (by omega) (by unfold userDir at hUser; omega) hPresent

/-- A cleared page holds no entry. -/
theorem maps_installTable {d i : Nat} (hi : i < pagingPages) (hd : d < 1024) {n : Nat}
    {e : BitVec 32} : ¬((mm.takePage i).setPde d (pageAddr i ||| 7#32)).Maps d n e := by
  intro hMaps
  have hAddr := pageAddr_toNat hi
  have hn := hMaps.index
  have hTable : ((mm.takePage i).setPde d (pageAddr i ||| 7#32)).table d = pageAddr i := by
    rw [Mm.table_setPde_self hd, frame_or_seven (pageAddr_aligned hi)]
  have hEntry : ((mm.takePage i).setPde d (pageAddr i ||| 7#32)).pte d n = 0#32 := by
    rw [Mm.pte, hTable, Mm.load, Mm.setPde, Mm.store_mem,
      load32_store32_of_disjoint _ _ (by omega)]
    exact load32_zero fun b hb hb' => mm.takePage_zero hi (by omega) (by omega)
  exact not_present_zero (hEntry ▸ hMaps.entry ▸ hMaps.present)

theorem installTable_pde (h : MmInvariant extMemK task mm) {d i : Nat} (hi : i < pagingPages)
    (hFree : mm.memMap i = 0#8) {a : Nat} (ha : a < 1024) :
    ((mm.takePage i).setPde d (pageAddr i ||| 7#32)).pde a =
      if a = d then pageAddr i ||| 7#32 else mm.pde a := by
  rw [Mm.pde_setPde ha, (h.sameTables_takePage hi hFree).pde a ha]

theorem installTable_maps (h : MmInvariant extMemK task mm) {d i : Nat} (hd : d < 1024)
    (hAbsent : ¬Present (mm.pde d)) (hi : i < pagingPages) (hFree : mm.memMap i = 0#8) {a n : Nat}
    {e : BitVec 32} :
    ((mm.takePage i).setPde d (pageAddr i ||| 7#32)).Maps a n e ↔ mm.Maps a n e := by
  have hTake := h.sameTables_takePage hi hFree
  by_cases hSame : a = d
  · subst a
    exact iff_of_false (maps_installTable hi hd) fun hMaps => hAbsent hMaps.table
  · rw [(hTake.paged h.dir.paged).maps_setPde_of_ne hd hSame, hTake.maps]

/-- A free page becomes the table of an absent directory entry. -/
theorem installTable (h : MmInvariant extMemK task mm) {d i : Nat} (hUser : userDir d)
    (hd : d < 1024) (hAbsent : ¬Present (mm.pde d)) (hi : i < pagingPages)
    (hFree : mm.memMap i = 0#8) :
    MmInvariant extMemK task ((mm.takePage i).setPde d (pageAddr i ||| 7#32)) := by
  have hMain := h.free_main hi hFree
  have hAddr := pageAddr_toNat hi
  have hTop := (memoryRange extMemK).high
  have hHigh := hMain.high
  have hFrame := frame_or_seven (pageAddr_aligned hi)
  have hTake := h.sameTables_takePage hi hFree
  have hPaged := hTake.paged h.dir.paged
  have hDir {a : Nat} (ha : a < 1024) := h.installTable_pde (d := d) hi hFree ha
  have hMaps {a n : Nat} {e : BitVec 32} :
      ((mm.takePage i).setPde d (pageAddr i ||| 7#32)).Maps a n e ↔ mm.Maps a n e :=
    h.installTable_maps hd hAbsent hi hFree
  constructor
  · exact h.high
  · constructor
    · apply hPaged.setPde hd
      · intro _
        rw [hFrame]
        omega
      · intro _ a ha hne hPresent
        rw [hTake.pde a ha] at hPresent
        rw [hTake.table ha, hFrame]
        exact h.takePage_used hi hFree ha hPresent
      · intro _
        rw [hFrame]
        exact mask_or_seven (pageAddr_aligned hi) (by omega)
    · intro a ha hNot
      rw [hDir ha] at hNot ⊢
      split_ifs at hNot ⊢ with hSame
      · exact absurd (present_or_seven _) hNot
      · exact h.dir.absent a ha hNot
    · intro a ha
      have hne : a ≠ d := by unfold userDir at hUser; omega
      rw [Mm.table, hDir (by omega), if_neg hne]
      exact h.dir.boot a ha
    · intro a ha ha'
      have hne : a ≠ d := by unfold userDir at hUser; omega
      rw [hDir (by omega), if_neg hne]
      exact h.dir.gap a ha ha'
    · intro a ha ha' hPresent
      rw [Mm.table, hDir ha'] at *
      split_ifs at * with hSame
      · rwa [hFrame]
      · exact h.dir.main a ha ha' hPresent
  · exact h.entries.congr fun _ _ _ => hMaps
  · apply h.counts.update (.table ⟨d, hd⟩) (some i)
    · have hRefs : userRefs task ((mm.takePage i).setPde d (pageAddr i ||| 7#32)) = _ :=
        pageRefs_setPde (d := ⟨d, hd⟩) hPaged hUser (pageAddr i ||| 7#32)
          (fun n e hOld => hAbsent (hTake.maps.mp hOld).table) fun n e => maps_installTable hi hd
      rw [hRefs, if_pos (present_or_seven _), hFrame, managed_pageAddr hi, pageRefs_sameTables hTake]
    · rfl
    · intro j _
      have hNone : userRefs task mm (.table ⟨d, hd⟩) ≠ some j := fun hRef =>
        hAbsent (pageRefs_table.mp hRef).2.1
      rw [if_neg hNone]
      exact mm.takePage_count hFree j
    · exact fun r _ hw => (writableRef_congr (fun _ _ _ => hMaps) r).mp hw
    · exact fun hw => hw.elim
    · intro _ o ho r _ _
      rw [← Option.some.inj ho]
      exact h.free_not_held hi hFree r
  · exact h.tasks

theorem TaskInvariant.update (h : TaskInvariant extMemK task) {s : Nat} {p : BitVec 32}
    (hMain : p ≠ 0#32 → MainPage extMemK p)
    (hFresh : p ≠ 0#32 → ∀ a, 1 ≤ a → a < 64 → a ≠ s → task a ≠ p) :
    TaskInvariant extMemK (Function.update task s p) where
  main := by
    intro a ha ha' hTask
    by_cases hSame : a = s
    · subst a
      rw [Function.update_self] at hTask ⊢
      exact hMain hTask
    · rw [Function.update_of_ne hSame] at hTask ⊢
      exact h.main a ha ha' hTask
  distinct := by
    intro a ha ha' b hb hb' hTask he
    by_cases hA : a = s
    · by_cases hB : b = s
      · rw [hA, hB]
      · subst a
        rw [Function.update_self] at hTask
        rw [Function.update_self, Function.update_of_ne hB] at he
        exact absurd he.symm (hFresh hTask b hb hb' hB)
    · rw [Function.update_of_ne hA] at hTask he
      by_cases hB : b = s
      · subst b
        rw [Function.update_self] at he
        exact absurd he (hFresh (he ▸ hTask) a ha ha' hA)
      · rw [Function.update_of_ne hB] at he
        exact h.distinct a ha ha' b hb hb' hTask he

/-- A free page becomes the task structure of an empty slot. -/
theorem takeTask (h : MmInvariant extMemK task mm) {s i : Nat} (hs : 1 ≤ s) (hs' : s < 64)
    (hEmpty : task s = 0#32) (hi : i < pagingPages) (hFree : mm.memMap i = 0#8) :
    MmInvariant extMemK (Function.update task s (pageAddr i)) (mm.takePage i) := by
  have hTake := h.sameTables_takePage hi hFree
  have hSlot : (⟨s, hs'⟩ : Fin 64) ≠ 0 := fun h0 => by
    have := congrArg Fin.val h0
    change s = 0 at this
    omega
  constructor
  · exact h.high
  · exact h.dir.congr hTake.pde
  · exact h.entries.congr fun _ _ _ => hTake.maps
  · apply h.counts.update (.task ⟨s, hs'⟩) (some i)
    · have hRefs : userRefs (Function.update task s (pageAddr i)) (mm.takePage i) = _ :=
        pageRefs_task_update hSlot (pageAddr i)
      rw [hRefs, if_pos (pageAddr_ne_zero hi), managed_pageAddr hi, pageRefs_sameTables hTake]
    · rfl
    · intro j _
      have hNone : userRefs task mm (.task ⟨s, hs'⟩) ≠ some j := fun hRef =>
        (pageRefs_task.mp hRef).2.1 hEmpty
      rw [if_neg hNone]
      exact mm.takePage_count hFree j
    · exact fun r _ hw => (writableRef_congr (fun _ _ _ => hTake.maps) r).mp hw
    · exact fun hw => hw.elim
    · intro _ o ho r _ _
      rw [← Option.some.inj ho]
      exact h.free_not_held hi hFree r
  · apply TaskInvariant.update h.tasks
    · exact fun _ => h.free_main hi hFree
    · intro hne a ha ha' _ he
      apply h.free_not_held hi hFree (.task ⟨a, ha'⟩)
      rw [userRefs, pageRefs_task]
      refine ⟨fun h0 => ?_, he ▸ hne, ?_⟩
      · have := congrArg Fin.val h0
        change a = 0 at this
        omega
      · change managed (task a) = some i
        rw [he, managed_pageAddr hi]

end MmInvariant

end Linux011

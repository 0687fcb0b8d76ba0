import Linux011.Kernel.Counts

/-! Copy-on-write isolation of tasks 1 to 63, in runs where task 0 forks at most
once. A second child of task 0 would share pages that the first one may
write. -/
namespace Linux011

open ByteMemory SharedRefs

def PageRef.IsEntry : PageRef → Prop
  | .entry _ _ => True
  | _ => False

/-- A writable entry of a task is the only entry of any task to its page. -/
def Isolated (task : Nat → BitVec 32) (mm : Mm) : Prop :=
  Exclusive (userRefs task mm) mm.WritableRef PageRef.IsEntry

theorem writable_of_shareEntry {e : BitVec 32} (h : Writable (shareEntry e)) : Writable e := by
  unfold shareEntry at h
  split_ifs at h
  · exact absurd h (not_writable_clearWrite e)
  · exact h

section

variable {extMemK : BitVec 16} {image : Image} {k k' : Kernel} {mm mm' : Mm} {forks p nr s : Nat}
  {regs : ForkFrame} {task : Nat → BitVec 32}

/-- The entry of the parent that the fork copied to an entry of the child. -/
def forkSource (p nr : Nat) (hp : p < 64) : PageRef → PageRef
  | .entry d n => if (d : Nat) / 16 = nr then .entry ⟨16 * p + d % 16, by omega⟩ n else .entry d n
  | r => r

/-- The parent and every third party name the same pages before and after, and
a still writable entry was so before. -/
theorem Forking.keeps (h : Forking p nr mm mm') {d n : Nat} {e : BitVec 32} (hSpace : d / 16 ≠ nr)
    (hMaps : mm'.Maps d n e) : ∃ x, mm.Maps d n x ∧ frame x = frame e ∧ (Writable e → Writable x) := by
  obtain ⟨x, hOld, rfl | ⟨_, rfl⟩⟩ := h.maps_back hSpace hMaps
  · exact ⟨e, hOld, rfl, id⟩
  · exact ⟨x, hOld, (frame_shareEntry x).symm, writable_of_shareEntry⟩

/-- A fork by a task other than task 0: each new entry descends from one of the
parent's, and both ends of the copy are read-only. -/
theorem Isolated.forked {task' : Nat → BitVec 32} (h : Isolated task mm) (hp : 1 ≤ p)
    (hWindow : Window extMemK task' p nr 1024 4 mm') (hFork : Forking p nr mm mm') :
    Isolated task' mm' := by
  have hApart := hWindow.apart
  apply h.descend (forkSource p nr hWindow.parent)
  · intro r o hs hr
    cases r with
    | entry d n =>
        obtain ⟨hUser, e, hMaps, hPage⟩ := pageRefs_entry.mp hr
        rw [forkSource]
        split_ifs with hSpace
        · refine ⟨trivial, pageRefs_entry.mpr ⟨?_, ?_⟩⟩
          · unfold userDir
            dsimp only
            omega
          · rw [show (d : Nat) = 16 * nr + d % 16 by omega] at hMaps
            obtain ⟨_, x, hParent, rfl⟩ := (hWindow.mirror.entry _ (by omega) _ _).mp hMaps
            obtain ⟨y, hOld, hFrame, _⟩ := hFork.keeps (by omega) hParent
            refine ⟨y, hOld, ?_⟩
            have hClear := frame_clearWrite x
            rw [hFrame, ← hClear]
            exact hPage
        · obtain ⟨x, hOld, hFrame, _⟩ := hFork.keeps hSpace hMaps
          exact ⟨trivial, pageRefs_entry.mpr ⟨hUser, x, hOld, by rw [hFrame]; exact hPage⟩⟩
    | table d => exact absurd hs id
    | task slot => exact absurd hs id
  · intro r o hr hw
    cases r with
    | entry d n =>
        obtain ⟨e, hMaps, hWritable⟩ := hw
        obtain ⟨hUser, e', hMaps', hPage⟩ := pageRefs_entry.mp hr
        obtain rfl := hMaps.unique hMaps'
        obtain ⟨hLow, _⟩ := managed_eq_some.mp hPage
        have hSpace : (d : Nat) / 16 ≠ nr := by
          intro hIn
          rw [show (d : Nat) = 16 * nr + d % 16 by omega] at hMaps
          obtain ⟨_, x, _, rfl⟩ := (hWindow.mirror.entry _ (by omega) _ _).mp hMaps
          exact not_writable_clearWrite x hWritable
        obtain ⟨x, hOld, hFrame, hBefore⟩ := hFork.keeps hSpace hMaps
        refine ⟨pageRefs_entry.mpr ⟨hUser, x, hOld, by rw [hFrame]; exact hPage⟩,
          ⟨x, hOld, hBefore hWritable⟩, ?_⟩
        intro r' hs' hr' hSource
        cases r' with
        | entry d' n' =>
            rw [forkSource] at hSource
            split_ifs at hSource with hChild
            · -- the copied entry of the parent lost its write bit
              obtain ⟨hDir, rfl⟩ := PageRef.entry.inj hSource
              have hDirVal : 16 * p + (d' : Nat) % 16 = d := congrArg Fin.val hDir
              obtain ⟨_, x', hMaps', _⟩ := pageRefs_entry.mp hr'
              rw [show (d' : Nat) = 16 * nr + d' % 16 by omega] at hMaps'
              obtain ⟨hDone, _⟩ := (hWindow.mirror.entry _ (by omega) _ _).mp hMaps'
              rw [← hDirVal] at hMaps
              exact absurd hWritable (hWindow.mirror.readOnly _ (by omega) _ _ hDone hMaps hLow)
            · exact hSource
        | table d' => exact absurd hs' id
        | task slot => exact absurd hs' id
    | table d => exact absurd hw id
    | task slot => exact absurd hw id

/-- The first child has read-only entries only. -/
theorem isolated_first {task' : Nat → BitVec 32} (hNone : ∀ d < 1024, userDir d → ¬Present (mm.pde d))
    {count t : Nat} (hWindow : Window extMemK task' p nr count t mm') (hFork : Forking p nr mm mm') :
    Isolated task' mm' := by
  intro r o hr hw
  cases r with
  | entry d n =>
      obtain ⟨e, hMaps, hWritable⟩ := hw
      obtain ⟨hUser, _⟩ := pageRefs_entry.mp hr
      by_cases hSpace : (d : Nat) / 16 = nr
      · rw [show (d : Nat) = 16 * nr + d % 16 by omega] at hMaps
        obtain ⟨_, x, _, rfl⟩ := (hWindow.mirror.entry _ (by omega) _ _).mp hMaps
        exact absurd hWritable (not_writable_clearWrite x)
      · have hTable := hMaps.table
        rw [hFork.dir d hMaps.dir hSpace] at hTable
        exact absurd hTable (hNone d hMaps.dir hUser)
  | table d => exact absurd hw id
  | task slot => exact absurd hw id

theorem Isolated.congr (h : Isolated task mm) (hTables : SameTables mm mm') : Isolated task mm' := by
  have hRefs : userRefs task mm' = userRefs task mm := pageRefs_sameTables hTables
  unfold Isolated
  rw [hRefs]
  intro r o hr hw
  exact h r o hr ((writableRef_congr (fun _ _ _ => hTables.maps) r).mp hw)

/-- The faulting entry becomes writable where nothing else names its page. -/
theorem Isolated.fault (h : Isolated task mm) (hInv : MmInvariant extMemK task mm) {d n : Nat}
    {e : BitVec 32} (hUser : userDir d) (hMaps : mm.Maps d n e) (hResult : FaultResult mm d n e mm') :
    Isolated task mm' := by
  obtain ⟨v, hPresent, hLow, hAlone, hTables⟩ := hResult.tables hInv hUser hMaps
  have hPaged := hInv.dir.paged
  have hRefs : userRefs task (mm.setPte d n v) =
      Function.update (userRefs task mm) (.entry ⟨d, hMaps.dir⟩ ⟨n, hMaps.index⟩)
        (if Present v then managed (frame v) else none) :=
    @pageRefs_setPte userDir task mm ⟨d, hMaps.dir⟩ ⟨n, hMaps.index⟩ hPaged hUser hMaps.table v
  rw [if_pos hPresent, managed_of_le hLow] at hRefs
  refine Isolated.congr ?_ hTables
  unfold Isolated
  rw [hRefs]
  apply h.update (.entry ⟨d, hMaps.dir⟩ ⟨n, hMaps.index⟩)
  · exact fun r hne hw => writableRef_setPte hPaged hMaps.table hne hw
  · rintro _ o ho r _ hne
    exact ho ▸ hAlone r hne
  · rintro _ o ho r hne _
    exact ho ▸ hAlone r hne

/-- A fork that returns an error leaves the task table alone. -/
theorem ForkResult.task_of_failed {result : BitVec 32} (h : ForkResult extMemK p regs k result k')
    (hFailed : Failed result) : k'.task = k.task := by
  cases h with
  | noSlot => rfl
  | made search => exact absurd hFailed (by rw [Failed, findPid_msb search]; decide)

/-- As long as task 0 has not forked, it is alone. -/
theorem Reaches.childless (run : Reaches extMemK image k forks) (hForks : forks = 0) (s : Nat) :
    ¬Occupied k s := by
  induction run generalizing s with
  | boot m heap gdt => exact fun hs => hs.task (bootKernel_task extMemK image m heap gdt s)
  | @fork k k' forks p ram regs result prior live provided call ih =>
      have hResult := prior.inv.forkResult live provided call
      split_ifs at hForks with hMade
      rcases live with rfl | hOccupied
      · have hFailed : Failed result := by simpa [Failed] using hMade
        intro hs
        exact ih hForks s ⟨hs.pos, hs.lt, hResult.task_of_failed hFailed ▸ hs.task⟩
      · exact absurd hOccupied (ih hForks p)
  | fault prior live _ _ _ _ _ ih => exact absurd live (ih hForks _)
  | store prior live _ _ _ ih => exact absurd live (ih hForks _)

/-- Isolation holds in every run in which task 0 forks at most once. -/
theorem Reaches.isolated (run : Reaches extMemK image k forks) (hForks : forks ≤ 1) :
    Isolated k.task k.mm := by
  induction run with
  | boot m heap gdt =>
      intro r o hr
      rw [bootKernel_mm, bootMm_refs extMemK m fun s _ _ => bootKernel_task extMemK image m heap gdt s] at hr
      exact absurd hr (by simp)
  | @fork k k' forks p ram regs result prior live provided call ih =>
      have hBefore : forks ≤ 1 := by
        split_ifs at hForks
        · omega
        · exact hForks
      cases prior.inv.forkResult live provided call with
      | noSlot => exact ih hBefore
      | made search slot empty made =>
          rcases live with rfl | hOccupied
          · rw [if_pos ⟨rfl, findPid_msb search⟩] at hForks
            refine isolated_first (fun d hd hUser hPresent => ?_) made.window made.forking
            have hTask := ((prior.inv.shape d hd hUser).mp hPresent).1
            unfold userDir at hUser
            exact prior.childless (by omega) (d / 16) ⟨by omega, by omega, hTask⟩
          · have hPos := hOccupied.pos
            have hWindow := made.window
            rw [copyCount, if_neg (by omega)] at hWindow
            exact (ih hBefore).forked hPos hWindow made.forking
  | fault prior live inside maps readOnly free call ih =>
      exact (ih hForks).fault prior.inv.mm (prior.inv.user_of_inSegment live inside) maps
        (prior.inv.faultResult live inside maps free call)
  | store prior live inside writable v ih =>
      exact (ih hForks).congr (prior.inv.mm.sameTables_storeByte (prior.inv.user_of_inSegment live inside)
        writable.maps writable.writable _ v)

/-- The byte that user mode reads at a linear address, if it may read there. -/
def Mm.userByte (mm : Mm) (address : BitVec 32) : Option (BitVec 8) :=
  let dir := mm.pde (dirIndex address)
  let entry := mm.pte (dirIndex address) (tableIndex address)
  if Present dir ∧ User dir ∧ Present entry ∧ User entry then some (mm.mem (physical entry address))
  else none

/-- A writable entry of a task: nothing else names its page. -/
theorem KernelInvariant.writable_alone (h : KernelInvariant extMemK image k)
    (hIsolated : Isolated k.task k.mm) {d n : Nat} {e : BitVec 32} (hUser : userDir d)
    (hMaps : k.mm.Maps d n e) (hw : Writable e) :
    lowMem ≤ frame e ∧
      (∀ d' n' e', userDir d' → k.mm.Maps d' n' e' → frame e' = frame e → d' = d ∧ n' = n) ∧
      (∀ d' < 1024, Present (k.mm.pde d') → k.mm.table d' ≠ frame e) ∧
      ∀ s, Occupied k s → k.task s ≠ frame e := by
  obtain ⟨hLow, hIndex, hPage, hNone⟩ := h.mm.writable_page hUser hMaps hw
  have hRef {d n : Nat} {x : BitVec 32} (hUser : userDir d) (hMaps : k.mm.Maps d n x)
      (hx : frame x = frame e) : userRefs k.task k.mm (.entry ⟨d, hMaps.dir⟩ ⟨n, hMaps.index⟩) =
        some (mapNr (frame e)) := by
    rw [MmInvariant.entry_ref (d := ⟨d, hMaps.dir⟩) (n := ⟨n, hMaps.index⟩) hUser hMaps, hx,
      managed_of_le hLow]
  refine ⟨hLow, ?_, ?_, ?_⟩
  · intro d' n' e' hUser' hMaps' hSame
    have hEq := hIsolated _ _ (hRef hUser hMaps rfl) ⟨e, hMaps, hw⟩
      (.entry ⟨d', hMaps'.dir⟩ ⟨n', hMaps'.index⟩) trivial (hRef hUser' hMaps' hSame)
    obtain ⟨hd, hn⟩ := PageRef.entry.inj hEq
    exact ⟨congrArg Fin.val hd, congrArg Fin.val hn⟩
  · intro d' hd' hPresent hSame
    by_cases hUser' : userDir d'
    · refine hNone (.table ⟨d', hd'⟩) trivial ?_
      rw [MmInvariant.table_ref (d := ⟨d', hd'⟩) hUser' hPresent, ← hSame,
        managed_of_le (hSame ▸ hLow)]
    · have hBoot : d' < 4 := by
        by_contra hGap
        exact h.mm.dir.gap d' (by omega) (by unfold userDir at hUser'; omega) hPresent
      have hTable := (h.mm.dir.boot d' hBoot).2
      rw [BitVec.le_def, lowMem_toNat, ← hSame] at hLow
      omega
  · intro s hs hSame
    refine hNone (.task ⟨s, hs.lt⟩) trivial (pageRefs_task.mpr ⟨fun h0 => ?_, hs.task, ?_⟩)
    · have hPos := hs.pos
      have hZero : s = 0 := congrArg Fin.val h0
      omega
    · rw [← hSame, managed_of_le (hSame ▸ hLow)]

end

end Linux011

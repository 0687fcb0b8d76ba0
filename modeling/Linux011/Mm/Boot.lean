import Linux011.Mm.Invariant

/-! The state that boot leaves satisfies the invariant of the memory manager. -/
namespace Linux011

open ByteMemory SharedRefs

/-- The words that `setup_paging` writes: the address of a page, with present, write and user set.
-/
theorem ofNat_or_seven (j : Nat) :
    BitVec.ofNat 32 (0x1000 * j + 7) = BitVec.ofNat 32 (0x1000 * j) ||| 7#32 := by
  have hOr : 0x1000 * j + 7 = (j <<< 12) ||| 7 := by
    rw [← Nat.shiftLeft_add_eq_or_of_lt (by decide : 7 < 2 ^ 12), Nat.shiftLeft_eq]
    omega
  have hShift : 0x1000 * j = j <<< 12 := by
    rw [Nat.shiftLeft_eq]
    omega
  rw [hOr, hShift, BitVec.ofNat_or]

/-- The page that such a word names. -/
theorem frame_boot {j : Nat} (h : j < 0x100000) :
    (frame (BitVec.ofNat 32 (0x1000 * j + 7))).toNat = 0x1000 * j := by
  rw [frame_toNat, BitVec.toNat_ofNat]
  omega

section

variable (extMemK : BitVec 16) (m : Memory)

/-- The four directory entries of the boot tables. -/
theorem bootMm_pde {d : Nat} (hd : d < 4) :
    (bootMm extMemK m).pde d = BitVec.ofNat 32 (0x1000 * (d + 1) + 7) :=
  setupPaging_dir m hd

/-- Every other directory entry is 0. -/
theorem bootMm_absent {d : Nat} (hLow : 4 ≤ d) (hHigh : d < 1024) : (bootMm extMemK m).pde d = 0#32 :=
  setupPaging_absent m hLow hHigh

/-- The boot tables lie one behind the other, from 0x1000 on. -/
theorem bootMm_table {d : Nat} (hd : d < 4) : ((bootMm extMemK m).table d).toNat = 0x1000 * (d + 1) := by
  rw [Mm.table, bootMm_pde extMemK m hd, frame_boot (by omega)]

/-- At boot the first four directory entries are the present ones. -/
theorem bootMm_present {d : Nat} (hd : d < 1024) : Present ((bootMm extMemK m).pde d) ↔ d < 4 := by
  by_cases hBoot : d < 4
  · rw [bootMm_pde extMemK m hBoot, ofNat_or_seven]
    simp [hBoot]
  · rw [bootMm_absent extMemK m (by omega) hd]
    simp [hBoot]

/-- The boot tables map the first 16MB to themselves. -/
theorem bootMm_pte {d n : Nat} (hd : d < 4) (hn : n < 1024) :
    (bootMm extMemK m).pte d n = BitVec.ofNat 32 (0x1000 * (1024 * d + n) + 7) := by
  rw [Mm.pte, bootMm_table extMemK m hd]
  have hEntry := setupPaging_table m (j := 1024 * d + n) (by omega)
  rw [show 0x1000 * (d + 1) + 4 * n = 0x1000 + 4 * (1024 * d + n) by omega]
  exact hEntry

/-- At boot what is mapped is the first 16MB, each page to itself. -/
theorem bootMm_maps {d n : Nat} {e : BitVec 32} :
    (bootMm extMemK m).Maps d n e ↔
      d < 4 ∧ n < 1024 ∧ e = BitVec.ofNat 32 (0x1000 * (1024 * d + n) + 7) := by
  constructor
  · intro hMaps
    have hd := (bootMm_present extMemK m hMaps.dir).mp hMaps.table
    exact ⟨hd, hMaps.index, by rw [← hMaps.entry, bootMm_pte extMemK m hd hMaps.index]⟩
  · rintro ⟨hd, hn, rfl⟩
    refine ⟨by omega, hn, (bootMm_present extMemK m (by omega)).mpr hd, bootMm_pte extMemK m hd hn, ?_⟩
    rw [ofNat_or_seven]
    exact present_or_seven _

/-- The directory and the tables of boot are apart from each other. -/
theorem bootMm_paged : Paged (bootMm extMemK m) := by
  constructor
  · intro d hd hPresent
    rw [bootMm_table extMemK m ((bootMm_present extMemK m hd).mp hPresent)]
    omega
  · intro d hd d' hd' hPresent hPresent' he
    have hTable := bootMm_table extMemK m ((bootMm_present extMemK m hd).mp hPresent)
    rw [he, bootMm_table extMemK m ((bootMm_present extMemK m hd').mp hPresent')] at hTable
    omega
  · intro d hd hPresent
    have hBoot := (bootMm_present extMemK m hd).mp hPresent
    have hAligned : (BitVec.ofNat 32 (0x1000 * (d + 1))).toNat = 0x1000 * (d + 1) := by
      rw [BitVec.toNat_ofNat]
      omega
    rw [Mm.table, bootMm_pde extMemK m hBoot, ofNat_or_seven, mask_or_seven (by omega) (by omega),
      frame_or_seven (by omega)]

theorem bootMm_dir : DirInvariant extMemK (bootMm extMemK m) where
  paged := bootMm_paged extMemK m
  absent := by
    intro d hd hAbsent
    rw [bootMm_present extMemK m hd] at hAbsent
    exact bootMm_absent extMemK m (by omega) hd
  boot := by
    intro d hd
    refine ⟨(bootMm_present extMemK m (by omega)).mpr hd, ?_⟩
    rw [bootMm_table extMemK m hd]
  gap := by
    intro d hd hd'
    rw [bootMm_present extMemK m (by omega)]
    omega
  main := by
    intro d hUser hd hPresent
    rw [bootMm_present extMemK m hd] at hPresent
    unfold userDir at hUser
    omega

theorem bootMm_entries : EntryInvariant (bootMm extMemK m) where
  identity := by
    intro d hd n hn
    refine ⟨_, (bootMm_maps extMemK m).mpr ⟨hd, hn, rfl⟩, ?_⟩
    rw [frame_boot (by omega)]
    omega
  top := by
    intro d n e hMaps
    obtain ⟨hd, hn, rfl⟩ := (bootMm_maps extMemK m).mp hMaps
    rw [frame_boot (by omega)]
    omega
  user := by
    intro d n e hMaps
    obtain ⟨_, _, rfl⟩ := (bootMm_maps extMemK m).mp hMaps
    rw [ofNat_or_seven]
    exact user_or_seven _
  lowReadOnly := by
    intro d n e hUser hMaps
    obtain ⟨hd, _, _⟩ := (bootMm_maps extMemK m).mp hMaps
    unfold userDir at hUser
    omega
  injective := by
    intro d n e d' n' e' hMaps hMaps' _ hFrame _
    obtain ⟨hd, hn, rfl⟩ := (bootMm_maps extMemK m).mp hMaps
    obtain ⟨hd', hn', rfl⟩ := (bootMm_maps extMemK m).mp hMaps'
    have hNat := congrArg BitVec.toNat hFrame
    rw [frame_boot (by omega), frame_boot (by omega)] at hNat
    omega

/-- With no task there is nothing at boot that refers to a page. -/
theorem bootMm_refs {task : Nat → BitVec 32} (hTask : ∀ s, 1 ≤ s → s < 64 → task s = 0#32)
    (r : PageRef) : userRefs task (bootMm extMemK m) r = none := by
  rw [Option.eq_none_iff_forall_not_mem]
  intro i hi
  rw [Option.mem_def] at hi
  cases r with
  | entry d n =>
      obtain ⟨hUser, e, hMaps, _⟩ := pageRefs_entry.mp hi
      obtain ⟨hd, _, _⟩ := (bootMm_maps extMemK m).mp hMaps
      unfold userDir at hUser
      omega
  | table d =>
      obtain ⟨hUser, hPresent, _⟩ := pageRefs_table.mp hi
      rw [bootMm_present extMemK m d.isLt] at hPresent
      unfold userDir at hUser
      omega
  | task s =>
      obtain ⟨hs, hne, _⟩ := pageRefs_task.mp hi
      exact hne (hTask s (Nat.one_le_iff_ne_zero.mpr fun h0 => hs (Fin.ext h0)) s.isLt)

/-- Boot establishes the invariant, with no task in slots 1 to 63. -/
theorem bootMm_inv {task : Nat → BitVec 32} (hTask : ∀ s, 1 ≤ s → s < 64 → task s = 0#32) :
    MmInvariant extMemK task (bootMm extMemK m) where
  high := rfl
  dir := bootMm_dir extMemK m
  entries := bootMm_entries extMemK m
  counts := by
    constructor
    · rfl
    · intro i hi
      have hCount : count (userRefs task (bootMm extMemK m)) i = 0 :=
        count_eq_zero fun r => by simp [bootMm_refs extMemK m hTask r]
      rw [Exact, hCount, bootMm_memMap extMemK m hi, Nat.add_zero]
    · intro r o hr
      rw [bootMm_refs extMemK m hTask] at hr
      exact absurd hr (by simp)
  tasks := by
    constructor
    · intro s hs hs' hne
      exact absurd (hTask s hs hs') hne
    · intro s hs hs' _ _ _ hne
      exact absurd (hTask s hs hs') hne

end

end Linux011

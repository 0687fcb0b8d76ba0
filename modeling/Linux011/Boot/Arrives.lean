import Linux011.Boot.Load
import Linux011.Boot.Setup

/-! The system that `build` puts into the image is at address 0 when setup has moved it. -/
namespace Linux011.Boot

open ByteMemory RealMode

section

variable {bios : Bios} {answers : Answers} {m : Memory} {x : Nat}

theorem note_below {off v : BitVec 16} (hx : x < 0x90000) : note off v m x = m x :=
  store16_outside _ _ _ (Or.inl (hx.trans_le (Nat.le_add_right _ _)))

theorem diskTable_below {off di : BitVec 16} (hDi : di.toNat < 0x1000) (hx : x < 0x90000) :
    diskTable off di m x = m x :=
  repMovsb_outside (by omega) (Or.inl (hx.trans_le (Nat.le_add_right _ _)))

/-- Setup writes at `INITSEG` only before it moves the system. -/
theorem parameters_below (hLow : 0x600 ≤ x) (hx : x < 0x90000) : parameters bios answers m x = m x := by
  have hFree : Free x := ⟨hLow, by omega⟩
  have hTable (off : BitVec 16) (m : Memory) : diskTable off 0x0080#16 m x = m x := diskTable_below (by decide) hx
  have hTable' (off : BitVec 16) (m : Memory) : diskTable off 0x0090#16 m x = m x := diskTable_below (by decide) hx
  have hClear (m : Memory) : repStosb 0#8 INITSEG 0x10 0x0090#16 m x = m x :=
    repStosb_outside (by decide) (Or.inl (hx.trans_le (Nat.le_add_right _ _)))
  unfold parameters
  split_ifs <;> simp only [hClear, hTable, hTable', note_below hx, scratch_eq hFree]

/-- Every round moves one segment, and none reaches the source of a later one. -/
theorem doMove_ok {fuel i : Nat} {ax : BitVec 16} (hAx : ax.toNat = 0x1000 * i) (hi : i ≤ 8) (hFuel : 8 - i < fuel) :
    ∃ m', doMove fuel ax m = .ok m' ∧ (∀ x < 0x80000, 0x10000 * i ≤ x → m' x = m (0x10000 + x)) ∧
      ∀ x < 0x10000 * i, m' x = m x := by
  induction fuel generalizing i ax m with
  | zero => omega
  | succ fuel ih =>
      have hNext : (ax + 0x1000#16).toNat = 0x1000 * (i + 1) := by
        rw [BitVec.toNat_add, hAx]
        change (0x1000 * i + 0x1000) % 2 ^ 16 = _
        omega
      have hEnd : ax + 0x1000#16 = 0x9000#16 ↔ i = 8 := by
        rw [← BitVec.toNat_inj, hNext]
        change _ = 0x9000 ↔ _
        omega
      rw [doMove]
      by_cases hLast : i = 8
      · rw [if_pos (hEnd.mpr hLast)]
        exact ⟨m, rfl, fun x hx hx' => by omega, fun _ _ => rfl⟩
      · rw [if_neg fun h => hLast (hEnd.mp h)]
        have hSource : addr (ax + 0x1000#16) 0#16 = 0x10000 * (i + 1) := by
          rw [addr, hNext]
          change 16 * (0x1000 * (i + 1)) + 0 = _
          omega
        have hTarget : addr ax 0#16 = 0x10000 * i := by
          rw [addr, hAx]
          change 16 * (0x1000 * i) + 0 = _
          omega
        rw [repMovsw_eq (by decide) (by decide), hSource, hTarget]
        generalize hMoved : copyUp16 m (0x10000 * (i + 1)) (0x10000 * i) 0x8000 = moved
        have hInside {k : Nat} (hk : k < 0x10000) : moved (0x10000 * i + k) = m (0x10000 * (i + 1) + k) := by
          rw [← hMoved]
          exact copyUp16_inside m _ _ 0x8000 (by omega) (by omega)
        have hOutside {x : Nat} (hx : x < 0x10000 * i ∨ 0x10000 * (i + 1) ≤ x) : moved x = m x := by
          rw [← hMoved]
          exact copyUp16_outside m _ _ 0x8000 (by omega)
        obtain ⟨m', hRun, hLater, hEarlier⟩ := ih (m := moved) hNext (by omega) (by omega)
        refine ⟨m', hRun, fun x hx hx' => ?_, fun x hx => ?_⟩
        · by_cases hNow : x < 0x10000 * (i + 1)
          · have hByte := hInside (k := x - 0x10000 * i) (by omega)
            rw [hEarlier x hNow]
            rwa [show 0x10000 * i + (x - 0x10000 * i) = x by omega,
              show 0x10000 * (i + 1) + (x - 0x10000 * i) = 0x10000 + x by omega] at hByte
          · rw [hLater x hx (by omega), hOutside (by omega)]
        · rw [hEarlier x (by omega), hOutside (by omega)]

/-- The first 512KB above `SYSSEG` come down to address 0. -/
theorem setup_ok {fuel : Nat} (hFuel : 8 < fuel) :
    ∃ m', setup bios answers fuel m = .ok m' ∧ ∀ x < 0x80000, m' x = m (0x10000 + x) := by
  obtain ⟨m', hRun, hMoved, _⟩ := @doMove_ok (parameters bios answers m) fuel 0 0#16 rfl (by omega) (by omega)
  refine ⟨m', hRun, fun x hx => ?_⟩
  rw [hMoved x hx (by omega), parameters_below (by omega) (by omega)]

end

section

variable {root : RootArg} {boot setup system image : List Byte}

theorem bootSector_length {a b : Byte} (h : boot.length = 512) : ((boot.set 508 a).set 509 b).length = 512 := by
  rw [List.length_set, List.length_set, h]

theorem Layout.minor_byte (h : Layout root boot setup system image) : image[508]? = some (rootDevice root).2 := by
  have hBoot := h.bootSize
  rw [h.bytes, List.append_assoc, List.getElem?_append_left (by rw [bootSector_length hBoot]; omega),
    List.getElem?_set_ne (by omega), List.getElem?_set_self (by omega)]

theorem Layout.major_byte (h : Layout root boot setup system image) : image[509]? = some (rootDevice root).1 := by
  have hBoot := h.bootSize
  rw [h.bytes, List.append_assoc, List.getElem?_append_left (by rw [bootSector_length hBoot]; omega),
    List.getElem?_set_self (by rw [List.length_set]; omega)]

/-- The system starts in sector 6 of the image. -/
theorem Layout.system_byte (h : Layout root boot setup system image) (k : Nat) : image[512 * 5 + k]? = system[k]? := by
  have hSetup := h.setupSize
  have hSize : ((boot.set 508 (rootDevice root).2).set 509 (rootDevice root).1 ++
      (setup ++ List.replicate (setupSects * 512 - setup.length) 0#8)).length = 512 * 5 := by
    rw [List.length_append, bootSector_length h.bootSize, List.length_append, List.length_replicate,
      Nat.add_sub_of_le hSetup]
    rfl
  rw [h.bytes, List.getElem?_append_right (by omega), hSize, Nat.add_sub_cancel_left]

end

/-- Three programs agree: the image that `build` writes, the loop that reads it and the
move put every byte of the system at its own address, whatever the format of the floppy
and whatever reads fail. -/
theorem kernel_arrives {writes : Nat → Bool} {boot setupFile systemFile image : List Byte} (setup : Pieces setupFile)
    (system : Pieces systemFile) (hBuild : build writes .default boot setup.reads system.reads = .ok image)
    (bios : Bios) (hDisk : ∀ i b, image[i]? = some b → bios.disk i = b)
    (hSpt : 6 ≤ bios.spt.toNat ∧ bios.spt.toNat ≤ 63) (answers : Answers)
    (attempts : List (Option (Nat → Byte))) (m : Memory) (hBoot : ∀ x < 512, m (0x7c00 + x) = bios.disk x)
    {fuel : Nat} (hFuel : 384 + attempts.length < fuel) :
    ∃ m', start bios answers fuel attempts m = .ok m' ∧
      ∀ k (h : k < systemFile.length), m' k = systemFile[k] := by
  have hLayout := build_ok hBuild
  rw [setup.flatten, system.flatten] at hLayout
  have hSize : systemFile.length ≤ 131072 := hLayout.systemSize
  have hRoot : bios.disk 509 ++ bios.disk 508 ≠ 0#16 := by
    rw [hDisk 509 _ hLayout.major_byte, hDisk 508 _ hLayout.minor_byte]
    decide
  obtain ⟨ld, hLoad, hStarted⟩ := bootsect_ok hSpt hBoot hRoot hFuel
  obtain ⟨m', hMove, hMoved⟩ := @setup_ok bios answers ld.mem fuel (by omega)
  refine ⟨m', ?_, fun k hk => ?_⟩
  · rw [start, ok_bind hLoad]
    exact hMove
  · rw [hMoved k (by omega), hStarted.system k (by omega)]
    exact hDisk _ _ ((hLayout.system_byte k).trans (List.getElem?_eq_getElem hk))

/-- A floppy of 1.44MB with the image at its start, in a machine whose BIOS keeps to itself. -/
def floppy (image : List Byte) : Bios := ⟨18#8, fun i => image.getD i 0#8, id, fun _ _ _ _ => rfl⟩

/-- Memory when the BIOS has read the boot sector. -/
def loaded (image : List Byte) : Memory := fun x => image.getD (x - 0x7c00) 0#8

/-- A system of three bytes that `read` gives in two pieces, and a first read that fails. -/
theorem kernel_arrives_threeBytes : ∃ image, build (fun _ => true) .default (List.replicate 512 0#8) []
      [[1#8], [2#8, 3#8]] = .ok image ∧ ∃ m', start (floppy image) ⟨0, 0, 0, 0, 0, 0, 0, none⟩ 400
        [some fun _ => 0#8] (loaded image) = .ok m' ∧ ∀ k (h : k < 3), m' k = [1#8, 2#8, 3#8][k] := by
  obtain ⟨image, hBuild⟩ := @build_all (fun _ => true) (fun _ => rfl) .default (List.replicate 512 0#8) []
    [[1#8], [2#8, 3#8]] List.length_replicate (by decide) (by decide)
  have hDisk (i : Nat) (b : Byte) (hByte : image[i]? = some b) : (floppy image).disk i = b := by
    change image.getD i 0#8 = b
    rw [List.getD_eq_getElem?_getD, hByte, Option.getD_some]
  refine ⟨image, hBuild, ?_⟩
  exact kernel_arrives ⟨[], rfl, fun _ h => absurd h List.not_mem_nil⟩
    ⟨[[1#8], [2#8, 3#8]], rfl, by decide⟩ hBuild (floppy image) hDisk
    (by change 6 ≤ 18 ∧ 18 ≤ 63; omega) _ _ (loaded image)
    (fun x _ => by rw [loaded, Nat.add_sub_cancel_left]; rfl) (by decide)

end Linux011.Boot

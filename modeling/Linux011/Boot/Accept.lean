import Linux011.Boot.Build

/-! What `build` accepts, and what it should. -/
namespace Linux011.Boot

/-- The root device that the caller names: the numbers of a device are bytes. -/
inductive Root where
  | none
  | floppy
  | device (major minor : Byte)

namespace Root

/-- What `stat` gives for it. -/
def arg : Root → RootArg
  | .none => .default
  | .floppy => .floppy
  | .device major minor => .device (BitVec.ofNat 64 (256 * major.toNat + minor.toNat))

/-- The numbers that belong in the boot sector. -/
def numbers : Root → Byte × Byte
  | .none => (3#8, 6#8)
  | .floppy => (0#8, 0#8)
  | .device major minor => (major, minor)

end Root

/-- The files have the sizes that the boot sector counts on. -/
structure Fits (boot setup system : List Byte) : Prop where
  boot : boot.length = 512
  setup : setup.length ≤ setupSects * 512
  system : system.length ≤ sysSize * 16

/-- The outcome of `build` for these files. -/
structure Documented (root : Root) (boot setup system : List Byte) (outcome : Except BuildError (List Byte)) :
    Prop where
  defined : outcome ≠ .error .overflow
  accepts : (∃ image, outcome = .ok image) ↔
    Fits boot setup system ∧ (root.numbers.1 = 0#8 ∨ root.numbers.1 = 2#8 ∨ root.numbers.1 = 3#8)
  image : ∀ image, outcome = .ok image → image = boot.take 508 ++ [root.numbers.2, root.numbers.1] ++ boot.drop 510 ++
    setup ++ List.replicate (setupSects * 512 - setup.length) 0#8 ++ system

/-- A byte count past the end of an `int`. -/
def Overflows (boot setup system : List Byte) : Prop :=
  boot.length = 512 ∧ (intMax < setup.length ∨ setup.length ≤ setupSects * 512 ∧ intMax < system.length)

section

variable {writes : Nat → Bool} {root : Root} {boot setup system buf image : List Byte} {reads reads' : List (List Byte)}
  {i : Nat} {major minor : Byte}

/-- The minor number of a device comes through, the major number does not. -/
theorem rootDevice_arg : rootDevice (Root.device major minor).arg = (0#8, minor) := by
  refine Prod.ext (rootDevice_device _) (BitVec.eq_of_toNat_eq ?_)
  have hMinor := minor.isLt
  have hMajor := major.isLt
  change ((BitVec.ofNat 64 (256 * major.toNat + minor.toNat) &&& 0x00ff#64).setWidth 8).toNat = minor.toNat
  rw [BitVec.toNat_setWidth, BitVec.toNat_and, BitVec.toNat_ofNat]
  change ((256 * major.toNat + minor.toNat) % 2 ^ 64 &&& 2 ^ 8 - 1) % 2 ^ 8 = _
  rw [Nat.and_two_pow_sub_one_eq_mod]
  omega

theorem copyFile_over (hWrites : ∀ n, writes n = true) (hFit : i ≤ intMax) (hOver : intMax < i + reads.flatten.length) :
    copyFile writes reads i buf image = .error .overflow := by
  induction reads generalizing i buf image with
  | nil =>
      rw [List.flatten_nil, List.length_nil] at hOver
      omega
  | cons piece reads ih =>
      rw [List.flatten_cons, List.length_append] at hOver
      rw [copyFile, write_all hWrites]
      change (if intMax < i + piece.length then _ else _) = _
      by_cases hNow : intMax < i + piece.length
      · rw [if_pos hNow]
      · rw [if_neg hNow]
        exact ih (by omega) (by omega)

theorem bootSector_eq (h : boot.length = 512) :
    (boot.set 508 minor).set 509 major = boot.take 508 ++ [minor, major] ++ boot.drop 510 := by
  have hFront : (boot.take 508).length = 508 := by
    rw [List.length_take, h]
    rfl
  have hBehind : boot.drop 509 = boot[509] :: boot.drop 510 := List.drop_eq_getElem_cons (by omega)
  have hMinor : boot.set 508 minor = boot.take 508 ++ minor :: boot.drop 509 :=
    List.set_eq_take_append_cons_drop.trans (if_pos (by omega))
  rw [hMinor, List.set_append_right _ _ (by omega), hFront, hBehind, List.append_assoc]
  rfl

/-- `build` whose writes succeed, case by case. -/
theorem build_outcome (hWrites : ∀ n, writes n = true) (root : RootArg) :
    build writes root boot reads reads' =
      if boot.length ≠ 512 then .error (.die "Boot block must be exactly 512 bytes")
      else if intMax < reads.flatten.length then .error .overflow
      else if setupSects * 512 < reads.flatten.length then
        .error (.die "Setup exceedsSETUP_SECTS sectors - rewrite build/boot/setup")
      else if intMax < reads'.flatten.length then .error .overflow
      else if sysSize * 16 < reads'.flatten.length then .error (.die "System is too big")
      else .ok (((boot.set 508 (rootDevice root).2).set 509 (rootDevice root).1 ++
        (reads.flatten ++ List.replicate (setupSects * 512 - reads.flatten.length) 0#8)) ++ reads'.flatten) := by
  have hMajor : ¬((rootDevice root).1 ≠ 2#8 ∧ (rootDevice root).1 ≠ 3#8 ∧ (rootDevice root).1 ≠ 0#8) := by
    rintro ⟨_, hThree, hZero⟩
    exact (rootDevice_major root).elim hThree hZero
  rw [build]
  dsimp only
  rw [if_neg hMajor]
  by_cases hBoot : boot.length = 512
  · rw [if_neg (not_not.mpr hBoot), if_neg (not_not.mpr hBoot), write_all hWrites, ok_bind rfl]
    by_cases hSetup : intMax < reads.flatten.length
    · rw [if_pos hSetup, copyFile_over hWrites (Nat.zero_le _) (by omega)]
      rfl
    · rw [if_neg hSetup]
      obtain ⟨i, buf, withSetup, hCopy⟩ := copyFile_all hWrites (show 0 + reads.flatten.length ≤ intMax by omega)
      obtain ⟨hCount, hWith⟩ := copyFile_ok hCopy
      rw [Nat.zero_add] at hCount
      rw [ok_bind hCopy, hCount]
      dsimp only
      by_cases hLong : setupSects * 512 < reads.flatten.length
      · rw [if_pos hLong, if_pos hLong]
      · rw [if_neg hLong, if_neg hLong]
        obtain ⟨padded, hPad⟩ := pad_all hWrites
        rw [ok_bind hPad]
        by_cases hSystem : intMax < reads'.flatten.length
        · rw [if_pos hSystem, copyFile_over hWrites (Nat.zero_le _) (by omega)]
          rfl
        · rw [if_neg hSystem]
          obtain ⟨j, buf', all, hAll⟩ := copyFile_all hWrites (show 0 + reads'.flatten.length ≤ intMax by omega)
          obtain ⟨hCount', hImage⟩ := copyFile_ok hAll
          rw [Nat.zero_add] at hCount'
          rw [ok_bind hAll, hCount']
          dsimp only
          by_cases hBig : sysSize * 16 < reads'.flatten.length
          · rw [if_pos hBig, if_pos hBig]
          · rw [if_neg hBig, if_neg hBig, hImage, pad_ok hPad, hWith, bootSector_take hBoot]
            simp only [List.nil_append, List.append_assoc]
  · rw [if_pos hBoot, if_pos hBoot]

/-- The image that is written, whatever device was named. -/
theorem build_image (root : Root) (hWrites : ∀ n, writes n = true) (setupPieces : Pieces setup)
    (systemPieces : Pieces system)
    (hFits : Fits boot setup system) :
    build writes root.arg (boot.take 1024) setupPieces.reads systemPieces.reads =
      .ok (boot.take 508 ++ [(rootDevice root.arg).2, (rootDevice root.arg).1] ++ boot.drop 510 ++ setup ++
        List.replicate (setupSects * 512 - setup.length) 0#8 ++ system) := by
  have hBoot := hFits.boot
  have hSetup := hFits.setup
  have hSystem := hFits.system
  have hMax : intMax = 0x7fffffff := rfl
  have hSetupMax : setupSects * 512 = 2048 := rfl
  have hSystemMax : sysSize * 16 = 131072 := rfl
  rw [build_outcome hWrites, setupPieces.flatten, systemPieces.flatten, List.take_of_length_le (by omega),
    if_neg (not_not.mpr hBoot), if_neg (by omega), if_neg (by omega), if_neg (by omega), if_neg (by omega),
    bootSector_eq hBoot]
  simp only [List.append_assoc]

/-- Files of other sizes are refused, unless a count overflows. -/
theorem build_refused (root : Root) (hWrites : ∀ n, writes n = true) (setupPieces : Pieces setup)
    (systemPieces : Pieces system)
    (hNot : ¬Fits boot setup system) :
    ∃ e, build writes root.arg (boot.take 1024) setupPieces.reads systemPieces.reads = .error e ∧
      (e = .overflow ↔ Overflows boot setup system) := by
  have hMax : intMax = 0x7fffffff := rfl
  have hSetupMax : setupSects * 512 = 2048 := rfl
  have hSystemMax : sysSize * 16 = 131072 := rfl
  have hTake : (boot.take 1024).length = 512 ↔ boot.length = 512 := by
    rw [List.length_take]
    omega
  rw [build_outcome hWrites, setupPieces.flatten, systemPieces.flatten]
  split_ifs with hBoot hOver hLong hOver' hBig
  · exact ⟨_, rfl, iff_of_false (by simp) fun h => hBoot (hTake.mpr h.1)⟩
  · exact ⟨_, rfl, iff_of_true rfl ⟨hTake.mp (not_not.mp hBoot), Or.inl hOver⟩⟩
  · exact ⟨_, rfl, iff_of_false (by simp) fun h => by have hCases := h.2; omega⟩
  · exact ⟨_, rfl, iff_of_true rfl ⟨hTake.mp (not_not.mp hBoot), Or.inr ⟨by omega, hOver'⟩⟩⟩
  · exact ⟨_, rfl, iff_of_false (by simp) fun h => by have hCases := h.2; omega⟩
  · exact absurd ⟨hTake.mp (not_not.mp hBoot), by omega, by omega⟩ hNot

theorem Fits.not_overflows (h : Fits boot setup system) : ¬Overflows boot setup system := by
  have hSetup := h.setup
  have hSystem := h.system
  have hMax : intMax = 0x7fffffff := rfl
  have hSetupMax : setupSects * 512 = 2048 := rfl
  have hSystemMax : sysSize * 16 = 131072 := rfl
  rintro ⟨_, hOver | ⟨_, hOver⟩⟩ <;> omega

/-- With the right numbers in its boot sector an image is what it should be. -/
theorem documented_image (hFits : Fits boot setup system) (hNumbers : rootDevice root.arg = root.numbers)
    (hMajor : root.numbers.1 = 0#8 ∨ root.numbers.1 = 2#8 ∨ root.numbers.1 = 3#8) :
    Documented root boot setup system (.ok (boot.take 508 ++ [(rootDevice root.arg).2, (rootDevice root.arg).1] ++
      boot.drop 510 ++ setup ++ List.replicate (setupSects * 512 - setup.length) 0#8 ++ system)) where
  defined := by simp
  accepts := iff_of_true ⟨_, rfl⟩ ⟨hFits, hMajor⟩
  image image h := by rw [← Except.ok.inj h, hNumbers]

/-- An image for a device whose major number is not 0 does not name that device. -/
theorem not_documented_image (hMajor : major ≠ 0#8) :
    ¬Documented (.device major minor) boot setup system (.ok (boot.take 508 ++ [minor, 0#8] ++ boot.drop 510 ++ setup ++
      List.replicate (setupSects * 512 - setup.length) 0#8 ++ system)) := by
  intro hAll
  have hImage := hAll.image _ rfl
  simp only [List.append_assoc, List.append_cancel_left_eq, List.append_cancel_right_eq, Root.numbers,
    List.cons.injEq, true_and, and_true] at hImage
  exact hMajor hImage.symm

theorem documented_refused {e : BuildError} (hNot : ¬Fits boot setup system) :
    Documented root boot setup system (.error e) ↔ e ≠ .overflow := by
  constructor
  · rintro hAll rfl
    exact hAll.defined rfl
  · intro h
    refine ⟨fun hEq => h (Except.error.inj hEq), iff_of_false (by simp) fun hAll => hNot hAll.1, fun image hEq => ?_⟩
    cases hEq

/-- `build` does what it should unless a device is given whose major number is not 0, or a file is
so long that its count overflows. -/
theorem build_documented_iff (root : Root) {boot setup system : List Byte} (setupPieces : Pieces setup)
    (systemPieces : Pieces system) :
    Documented root boot setup system
        (build (fun _ => true) root.arg (boot.take 1024) setupPieces.reads systemPieces.reads) ↔
      (Fits boot setup system → ∀ major minor, root = .device major minor → major = 0#8) ∧
        ¬Overflows boot setup system := by
  by_cases hFits : Fits boot setup system
  · rw [build_image root (fun _ => rfl) setupPieces systemPieces hFits, and_iff_left hFits.not_overflows]
    cases root with
    | none => exact iff_of_true (documented_image hFits rfl (Or.inr (Or.inr rfl))) fun _ _ _ h => by cases h
    | floppy => exact iff_of_true (documented_image hFits rfl (Or.inl rfl)) fun _ _ _ h => by cases h
    | device major minor =>
        by_cases hMajor : major = 0#8
        · refine iff_of_true (documented_image hFits ?_ (Or.inl hMajor)) fun _ major' minor' h => ?_
          · rw [rootDevice_arg, hMajor]
            rfl
          · rw [← (Root.device.inj h).1, hMajor]
        · rw [rootDevice_arg]
          exact iff_of_false (not_documented_image hMajor) fun h => hMajor (h hFits major minor rfl)
  · obtain ⟨e, hRun, hOver⟩ := build_refused root (fun _ => rfl) setupPieces systemPieces hFits
    rw [hRun, documented_refused hFits, ne_eq, hOver]
    exact (and_iff_right fun h => absurd h hFits).symm

end

/-- For the device 0x301, with empty files behind the boot sector, the image says that the root is on
the floppy: the major number in it is 0. -/
theorem build_loses_major : ∃ image,
    build (fun _ => true) (Root.device 3#8 1#8).arg ((List.replicate 512 0#8).take 1024) [] [] = .ok image ∧
      image[509]? = some 0#8 ∧ ¬Documented (.device 3#8 1#8) (List.replicate 512 0#8) [] [] (.ok image) := by
  have hRun := @build_image (fun _ => true) (List.replicate 512 0#8) [] [] (.device 3#8 1#8) (fun _ => rfl)
    ⟨[], rfl, fun _ h => absurd h List.not_mem_nil⟩ ⟨[], rfl, fun _ h => absurd h List.not_mem_nil⟩
    ⟨List.length_replicate, by decide, by decide⟩
  have hFront : ((List.replicate 512 0#8).take 508).length = 508 := by
    rw [List.length_take, List.length_replicate]
    rfl
  rw [rootDevice_arg] at hRun
  refine ⟨_, hRun, ?_, not_documented_image (by decide)⟩
  simp only [List.append_assoc]
  rw [List.getElem?_append_right (by omega), hFront]
  rfl

end Linux011.Boot

import Linux011.Mm.Basic
import Mathlib.Data.List.Basic

/-! `main` of `tools/build.c`: the floppy image from the boot sector, setup and the
system. -/
namespace Linux011.Boot

abbrev Byte := BitVec 8

def sysSize : Nat := 0x2000
def setupSects : Nat := 4
def intMax : Nat := 0x7fffffff

/-- Why `main` does not return 0. C gives no meaning to an `int` that is counted past its
end, so nothing follows `overflow`. -/
inductive BuildError where
  | die (str : String)
  | overflow

/-- The last argument: none, `FLOPPY`, or the path of a device with this `st_rdev`. -/
inductive RootArg where
  | default
  | floppy
  | device (rdev : BitVec 64)

/-- `major_root` and `minor_root`. The major number of a device lies in the half that a
`char` cuts off. -/
def rootDevice : RootArg → Byte × Byte
  | .default => (3#8, 6#8)
  | .floppy => (0#8, 0#8)
  | .device rdev => ((rdev &&& 0xff00#64).setWidth 8, (rdev &&& 0x00ff#64).setWidth 8)

/-- A file as `read` gives it: never more than `sizeof(buf)` bytes, and none at its end
only. -/
structure Pieces (file : List Byte) where
  reads : List (List Byte)
  flatten : reads.flatten = file
  size : ∀ piece ∈ reads, 0 < piece.length ∧ piece.length ≤ 1024

section

-- whether the `write` that starts behind so many bytes takes all it is given
variable (writes : Nat → Bool)

/-- `write(1, buf, c)` behind `image`. -/
def write (buf image : List Byte) (c : Nat) : Except BuildError (List Byte) :=
  if writes image.length then .ok (image ++ buf.take c) else .error (.die "Write call failed")

/-- `for (i = 0; (c = read(id, buf, sizeof(buf))) > 0; i += c)`. -/
def copyFile : List (List Byte) → Nat → List Byte → List Byte → Except BuildError (Nat × List Byte × List Byte)
  | [], i, buf, image => .ok (i, buf, image)
  | piece :: reads, i, buf, image =>
      let buf := piece ++ buf.drop piece.length
      (write writes buf image piece.length).bind fun image =>
        if intMax < i + piece.length then .error .overflow
        else copyFile reads (i + piece.length) buf image

theorem pad_lt {size i : Nat} (h : i < size) :
    size - (i + if 1024 < size - i then 1024 else size - i) < size - i := by
  split_ifs <;> omega

/-- `while (i < SETUP_SECTS * 512)`, for any `size` in that place. -/
def pad (size : Nat) (buf : List Byte) (i : Nat) (image : List Byte) : Except BuildError (List Byte) :=
  if _h : i < size then
    let c := if 1024 < size - i then 1024 else size - i
    (write writes buf image c).bind fun image => pad size buf (i + c) image
  else .ok image
  termination_by size - i
  decreasing_by exact pad_lt _h

/-- `main`, whose three files open: what `read` gives of the boot sector, of setup and of
the system. -/
def build (root : RootArg) (boot : List Byte) (setup system : List (List Byte)) :
    Except BuildError (List Byte) :=
  let majorRoot := (rootDevice root).1
  let minorRoot := (rootDevice root).2
  if majorRoot ≠ 2#8 ∧ majorRoot ≠ 3#8 ∧ majorRoot ≠ 0#8 then .error (.die "Bad root device --- major #")
  else if boot.length ≠ 512 then .error (.die "Boot block must be exactly 512 bytes")
  else
    let buf := boot ++ (List.replicate 1024 0#8).drop boot.length
    let buf := (buf.set 508 minorRoot).set 509 majorRoot
    (write writes buf [] 512).bind fun image =>
      (copyFile writes setup 0 buf image).bind fun (i, _, image) =>
        if setupSects * 512 < i then
          .error (.die "Setup exceedsSETUP_SECTS sectors - rewrite build/boot/setup")
        else
          let buf := List.replicate 1024 0#8
          (pad writes (setupSects * 512) buf i image).bind fun image =>
            (copyFile writes system 0 buf image).bind fun (i, _, image) =>
              if sysSize * 16 < i then .error (.die "System is too big") else .ok image

end

section

variable {writes : Nat → Bool} {buf buf' image image' : List Byte} {i i' c : Nat}

theorem write_ok (h : write writes buf image c = .ok image') : image' = image ++ buf.take c := by
  rw [write] at h
  split_ifs at h
  exact (Except.ok.inj h).symm

/-- Whatever sizes the reads have, the file arrives whole. -/
theorem copyFile_ok {reads : List (List Byte)} (h : copyFile writes reads i buf image = .ok (i', buf', image')) :
    i' = i + reads.flatten.length ∧ image' = image ++ reads.flatten := by
  induction reads generalizing i buf image with
  | nil =>
      obtain ⟨rfl, hRest⟩ := Prod.mk.inj (Except.ok.inj h)
      obtain ⟨_, rfl⟩ := Prod.mk.inj hRest
      simp
  | cons piece reads ih =>
      obtain ⟨written, hWrite, hRest⟩ := bind_eq_ok h
      split_ifs at hRest
      obtain ⟨rfl, rfl⟩ := ih hRest
      rw [write_ok hWrite, List.take_left, List.flatten_cons, List.length_append]
      exact ⟨by omega, by rw [List.append_assoc]⟩

theorem pad_ok {size : Nat} (h : pad writes size (List.replicate 1024 0#8) i image = .ok image') :
    image' = image ++ List.replicate (size - i) 0#8 := by
  induction hLeft : size - i using Nat.strongRecOn generalizing i image with
  | ind left ih =>
      rw [pad] at h
      by_cases hMore : i < size
      · rw [dif_pos hMore, hLeft] at h
        obtain ⟨written, hWrite, hRest⟩ := bind_eq_ok h
        rw [write_ok hWrite, List.take_replicate] at hRest
        by_cases hLong : 1024 < left
        · rw [if_pos hLong] at hRest
          have hAll := ih (left - 1024) (by omega) hRest (by omega)
          rw [Nat.min_self, List.append_assoc, List.replicate_append_replicate] at hAll
          rwa [show 1024 + (left - 1024) = left by omega] at hAll
        · rw [if_neg hLong] at hRest
          have hAll := ih 0 (by omega) hRest (by omega)
          rw [hAll, List.replicate_zero, List.append_nil, Nat.min_eq_left (by omega)]
      · rw [dif_neg hMore] at h
        rw [← Except.ok.inj h, show left = 0 by omega, List.replicate_zero, List.append_nil]

/-- What an accepted image holds. -/
structure Layout (root : RootArg) (boot setup system image : List Byte) : Prop where
  bootSize : boot.length = 512
  setupSize : setup.length ≤ setupSects * 512
  systemSize : system.length ≤ sysSize * 16
  bytes : image = ((boot.set 508 (rootDevice root).2).set 509 (rootDevice root).1 ++
    (setup ++ List.replicate (setupSects * 512 - setup.length) 0#8)) ++ system

theorem bootSector_take {boot rest : List Byte} (h : boot.length = 512) (minor major : Byte) :
    (((boot ++ rest).set 508 minor).set 509 major).take 512 = (boot.set 508 minor).set 509 major := by
  rw [List.take_set, List.take_set, List.take_left' h]

theorem build_ok {root : RootArg} {boot : List Byte} {setup system : List (List Byte)}
    (h : build writes root boot setup system = .ok image) :
    Layout root boot setup.flatten system.flatten image := by
  rw [build] at h
  split_ifs at h with hMajor hBoot
  obtain ⟨sector, hSector, hRest⟩ := bind_eq_ok h
  obtain ⟨⟨i, buf, withSetup⟩, hSetup, hRest⟩ := bind_eq_ok hRest
  dsimp only at hRest
  split_ifs at hRest with hLong
  obtain ⟨padded, hPad, hRest⟩ := bind_eq_ok hRest
  obtain ⟨⟨j, buf', all⟩, hSystem, hRest⟩ := bind_eq_ok hRest
  dsimp only at hRest
  split_ifs at hRest with hBig
  obtain ⟨hCount, hAll⟩ := copyFile_ok hSystem
  obtain ⟨hCount', hSetup⟩ := copyFile_ok hSetup
  rw [Nat.zero_add] at hCount hCount'
  rw [not_not] at hBoot
  refine ⟨hBoot, by omega, by omega, ?_⟩
  rw [← Except.ok.inj hRest, hAll, pad_ok hPad, hSetup, write_ok hSector, hCount', bootSector_take hBoot]
  simp only [List.nil_append, List.append_assoc]

theorem write_all (hWrites : ∀ n, writes n = true) : write writes buf image c = .ok (image ++ buf.take c) :=
  if_pos (hWrites _)

theorem copyFile_all (hWrites : ∀ n, writes n = true) {reads : List (List Byte)}
    (hFit : i + reads.flatten.length ≤ intMax) :
    ∃ i' buf' image', copyFile writes reads i buf image = .ok (i', buf', image') := by
  induction reads generalizing i buf image with
  | nil => exact ⟨i, buf, image, rfl⟩
  | cons piece reads ih =>
      rw [List.flatten_cons, List.length_append] at hFit
      rw [copyFile, write_all hWrites]
      change ∃ i' buf' image', (if intMax < i + piece.length then _ else _) = _
      rw [if_neg (by omega)]
      exact ih (by omega)

theorem pad_all (hWrites : ∀ n, writes n = true) {size : Nat} :
    ∃ image', pad writes size buf i image = .ok image' := by
  induction hLeft : size - i using Nat.strongRecOn generalizing i image with
  | ind left ih =>
      rw [pad]
      by_cases hMore : i < size
      · rw [dif_pos hMore]
        dsimp only
        rw [write_all hWrites]
        have hLess := pad_lt hMore
        exact ih _ (hLeft ▸ hLess) rfl
      · exact ⟨image, dif_neg hMore⟩

/-- The major number of a device is lost. -/
theorem rootDevice_device (rdev : BitVec 64) : (rootDevice (.device rdev)).1 = 0#8 := by
  refine BitVec.eq_of_getLsbD_eq fun i hi => ?_
  have hMask : ∀ i : Fin 8, (0xff00#64).getLsbD i = false := by decide
  simp only [rootDevice, BitVec.getLsbD_setWidth, BitVec.getLsbD_and, hMask ⟨i, hi⟩, Bool.and_false]
  rw [BitVec.getLsbD_zero]

/-- The check of the major number refuses nothing: it is 3, or it is 0. -/
theorem rootDevice_major (root : RootArg) : (rootDevice root).1 = 3#8 ∨ (rootDevice root).1 = 0#8 := by
  cases root with
  | default => exact Or.inl rfl
  | floppy => exact Or.inr rfl
  | device rdev => exact Or.inr (rootDevice_device rdev)

/-- `build` takes every boot sector of 512 bytes with a setup and a system that fit. -/
theorem build_all (hWrites : ∀ n, writes n = true) (root : RootArg) {boot : List Byte} {setup system : List (List Byte)}
    (hBoot : boot.length = 512) (hSetup : setup.flatten.length ≤ setupSects * 512)
    (hSystem : system.flatten.length ≤ sysSize * 16) :
    ∃ image, build writes root boot setup system = .ok image := by
  have hMajor : ¬((rootDevice root).1 ≠ 2#8 ∧ (rootDevice root).1 ≠ 3#8 ∧ (rootDevice root).1 ≠ 0#8) := by
    rintro ⟨_, hThree, hZero⟩
    exact (rootDevice_major root).elim hThree hZero
  have hMax : intMax = 0x7fffffff := rfl
  have hSetupMax : setupSects * 512 = 2048 := rfl
  have hSystemMax : sysSize * 16 = 131072 := rfl
  rw [build]
  dsimp only
  rw [if_neg hMajor, if_neg (not_not.mpr hBoot), write_all hWrites]
  rw [ok_bind rfl]
  obtain ⟨i, buf, withSetup, hCopy⟩ := copyFile_all hWrites (show 0 + setup.flatten.length ≤ intMax by omega)
  have hCount := (copyFile_ok hCopy).1
  rw [ok_bind hCopy]
  dsimp only
  rw [if_neg (by omega)]
  obtain ⟨padded, hPad⟩ := pad_all hWrites
  rw [ok_bind hPad]
  obtain ⟨j, buf', all, hAll⟩ := copyFile_all hWrites (show 0 + system.flatten.length ≤ intMax by omega)
  have hCount' := (copyFile_ok hAll).1
  rw [ok_bind hAll]
  dsimp only
  rw [if_neg (by omega)]
  exact ⟨all, rfl⟩

end

end Linux011.Boot

import Linux011.Boot.Bootsect

/-! `setup.S` up to `end_move`: what it notes for the kernel at `INITSEG`, and the move of
the system down to address 0. -/
namespace Linux011.Boot

open ByteMemory RealMode

/-- What the BIOS answers: the cursor, the extended memory, the video mode, the EGA
functions, and the type of a second hard disk (`none` where the carry flag is set). -/
structure Answers where
  cursor : BitVec 16
  extMemK : BitVec 16
  page : BitVec 16
  mode : BitVec 16
  egaAx : BitVec 16
  egaBx : BitVec 16
  egaCx : BitVec 16
  disk1 : Option (BitVec 8)

/-- A word at `INITSEG`. -/
def note (off v : BitVec 16) (m : Memory) : Memory := store16 m (addr INITSEG off) v

/-- The table of a hard disk, through the vector at `off`: 4 times 0x41 or 0x46. -/
def diskTable (off di : BitVec 16) (m : Memory) : Memory :=
  repMovsb (load16 m (addr 0#16 (off + 2#16))) INITSEG 0x10 (load16 m (addr 0#16 off)) di m

section

variable (bios : Bios) (answers : Answers)

/-- From `_start_setup` to `is_disk1`. -/
def parameters (m : Memory) : Memory :=
  let m := bios.scratch m
  let m := note 0#16 answers.cursor (bios.scratch m)
  let m := note 2#16 answers.extMemK (bios.scratch m)
  let m := note 6#16 answers.mode (note 4#16 answers.page (bios.scratch m))
  let m := note 12#16 answers.egaCx (note 10#16 answers.egaBx (note 8#16 answers.egaAx (bios.scratch m)))
  let m := note 14#16 0x5019#16 m
  let m := diskTable 0x0104#16 0x0080#16 m
  let m := diskTable 0x0118#16 0x0090#16 m
  let m := bios.scratch m
  if answers.disk1 = some 3#8 then m else repStosb 0#8 INITSEG 0x10 0x0090#16 m

/-- One `do_move` after another. -/
def doMove : Nat → BitVec 16 → Memory → Except Stop Memory
  | 0, _, _ => .error .hang
  | fuel + 1, ax, m =>
      let es := ax
      let ax := ax + 0x1000#16
      if ax = 0x9000#16 then .ok m else doMove fuel ax (repMovsw ax es 0x8000 0#16 0#16 m)

def setup (fuel : Nat) (m : Memory) : Except Stop Memory := doMove fuel 0#16 (parameters bios answers m)

/-- From the sector that the BIOS has loaded to the kernel at address 0. -/
def start (fuel : Nat) (attempts : List (Option (Nat → Byte))) (m : Memory) : Except Stop Memory :=
  (bootsect bios fuel attempts m).bind fun ld => setup bios answers fuel ld.mem

end

end Linux011.Boot

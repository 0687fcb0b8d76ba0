import Linux011.Boot.Build
import Linux011.Library.Floppy
import Linux011.Library.RealMode

/-! `bootsect.S`: the boot sector moves itself, loads setup behind itself and the system at
`SYSSEG`. Its variables lie in its own sector and are reached by no transfer, so they are
kept apart from memory. -/
namespace Linux011.Boot

open ByteMemory RealMode

def SYSSIZE : BitVec 16 := 0x3000#16
def SETUPLEN : BitVec 16 := 4#16
def BOOTSEG : BitVec 16 := 0x7c0#16
def INITSEG : BitVec 16 := 0x9000#16
def SYSSEG : BitVec 16 := 0x1000#16
def ENDSEG : BitVec 16 := SYSSEG + SYSSIZE

/-- The registers of `int $0x13`, function 2: `al` sectors from cylinder `ch` (with the
upper bits of `cl`), head `dh`, sector `cl` of drive `dl`, to `es:bx`. -/
structure Request where
  al : BitVec 8
  ch : BitVec 8
  cl : BitVec 8
  dh : BitVec 8
  dl : BitVec 8
  es : BitVec 16
  bx : BitVec 16

namespace Request

def bytes (r : Request) : Nat := 512 * r.al.toNat

def buffer (r : Request) : Nat := addr r.es r.bx

/-- The BIOS counts the sectors of a track from 1. -/
def position (r : Request) : Floppy.Position :=
  ⟨r.ch.toNat + 256 * (r.cl.toNat / 64), r.dh.toNat, r.cl.toNat % 64 - 1⟩

/-- What a drive with `spt` sectors a track can do in one go: sectors of one track, and a
buffer within one segment and one page of the DMA controller. No PC floppy has fewer
than 40 cylinders. -/
structure Readable (spt : Nat) (r : Request) : Prop where
  drive : r.dl = 0#8
  cylinder : r.position.track < 40
  head : r.dh.toNat < 2
  sector : 1 ≤ r.cl.toNat % 64
  count : 1 ≤ r.al.toNat
  track : r.cl.toNat % 64 - 1 + r.al.toNat ≤ spt
  segment : r.bx.toNat + r.bytes ≤ 0x10000
  page : r.buffer % 0x10000 + r.bytes ≤ 0x10000

theorem readable_iff {spt : Nat} {r : Request} : r.Readable spt ↔
    r.dl = 0#8 ∧ r.position.track < 40 ∧ r.dh.toNat < 2 ∧ 1 ≤ r.cl.toNat % 64 ∧ 1 ≤ r.al.toNat ∧
      r.cl.toNat % 64 - 1 + r.al.toNat ≤ spt ∧ r.bx.toNat + r.bytes ≤ 0x10000 ∧
      r.buffer % 0x10000 + r.bytes ≤ 0x10000 :=
  ⟨fun h => ⟨h.drive, h.cylinder, h.head, h.sector, h.count, h.track, h.segment, h.page⟩,
    fun ⟨hDrive, hCylinder, hHead, hSector, hCount, hTrack, hSegment, hPage⟩ =>
      ⟨hDrive, hCylinder, hHead, hSector, hCount, hTrack, hSegment, hPage⟩⟩

instance (spt : Nat) (r : Request) : Decidable (r.Readable spt) := decidable_of_iff' _ readable_iff

end Request

/-- The machine that the boot sector runs on. `spt` is `cl` after function 8 of `int $0x13`,
the sectors of a track. An interrupt may change the memory that the BIOS keeps for
itself, in which the stack lies too. -/
structure Bios where
  spt : BitVec 8
  disk : Nat → Byte
  scratch : Memory → Memory
  scratch_free : ∀ m x, 0x600 ≤ x → x < 0x9f000 → scratch m x = m x

/-- Memory, what the next reads will come to (`some junk` is an error that leaves `junk` in
the buffer, and reads behind the list go well), and the variables of the boot sector. -/
structure Loader where
  mem : Memory
  attempts : List (Option (Nat → Byte))
  sectors : BitVec 16
  sread : BitVec 16
  head : BitVec 16
  track : BitVec 16

/-- `count` bytes from `source` of a disk on, at `target`. -/
def transfer (disk : Nat → Byte) (source target count : Nat) (m : Memory) : Memory := fun x =>
  if target ≤ x ∧ x < target + count then disk (source + (x - target)) else m x

section

variable (bios : Bios)

/-- An interrupt that reads nothing from the disk. -/
def Bios.interrupt (ld : Loader) : Loader := { ld with mem := bios.scratch ld.mem }

/-- Function 2 of `int $0x13`, with the carry flag. -/
def Bios.read (r : Request) (ld : Loader) : Bool × Loader :=
  let good := transfer bios.disk (512 * r.position.index bios.spt.toNat) r.buffer r.bytes ld.mem
  if r.Readable bios.spt.toNat then
    match ld.attempts with
    | [] => (false, bios.interrupt { ld with mem := good })
    | none :: rest => (false, bios.interrupt { ld with mem := good, attempts := rest })
    | some junk :: rest =>
        (true, bios.interrupt { ld with mem := transfer junk 0 r.buffer r.bytes ld.mem, attempts := rest })
  else (true, bios.interrupt ld)

/-- Read, and after an error reset the drive and read again. -/
def Bios.readAgain (r : Request) : Nat → Loader → Except Stop Loader
  | 0, _ => .error .hang
  | fuel + 1, ld =>
      let (carry, ld) := bios.read r ld
      if carry then Bios.readAgain r fuel (bios.interrupt ld) else .ok ld

/-- `start2`: the BIOS hands over with the direction flag clear. -/
def start2 (m : Memory) : Memory := repMovsw BOOTSEG INITSEG 256 0#16 0#16 m

def loadSetup (fuel : Nat) (ld : Loader) : Except Stop Loader :=
  bios.readAgain ⟨SETUPLEN.setWidth 8, 0x00#8, 0x02#8, 0x00#8, 0x00#8, INITSEG, 0x0200#16⟩ fuel ld

def okLoadSetup (ld : Loader) : Loader := { bios.interrupt ld with sectors := 0x00#8 ++ bios.spt }

/-- The registers that `read_track` loads. -/
def trackRequest (ax bx es : BitVec 16) (ld : Loader) : Request :=
  let dx := ld.track
  let cx := ld.sread + 1#16
  let cx := dx.setWidth 8 ++ cx.setWidth 8
  let dx := ld.head
  let dx := dx.setWidth 8 ++ 0#8
  let dx := dx &&& 0x0100#16
  ⟨ax.setWidth 8, cx.extractLsb' 8 8, cx.setWidth 8, dx.extractLsb' 8 8, dx.setWidth 8, es, bx⟩

def readTrack (ax bx es : BitVec 16) (fuel : Nat) (ld : Loader) : Except Stop Loader :=
  bios.readAgain (trackRequest ax bx es ld) fuel ld

/-- `ax` at `ok2_read`: to the end of the track, or to the end of the segment. -/
def ok2Read (bx : BitVec 16) (ld : Loader) : BitVec 16 :=
  let ax := ld.sectors - ld.sread
  let cx := ax <<< 9
  if carry cx bx && cx + bx != 0#16 then (0#16 - bx) >>> 9 else ax

/-- The variables at `ok3_read`. -/
def ok3Read (ax : BitVec 16) (ld : Loader) : Loader :=
  if ax + ld.sread = ld.sectors then
    let ax := 1#16 - ld.head
    { ld with head := ax, track := if ax = 0#16 then ld.track + 1#16 else ld.track, sread := 0#16 }
  else { ld with sread := ax + ld.sread }

/-- One `rp_read` after another. -/
def rpRead : Nat → BitVec 16 → BitVec 16 → Loader → Except Stop Loader
  | 0, _, _, _ => .error .hang
  | fuel + 1, es, bx, ld =>
      if es < ENDSEG then
        let ax := ok2Read bx ld
        (readTrack bios ax bx es fuel ld).bind fun ld =>
          let ld := ok3Read ax ld
          let cx := ax <<< 9
          if carry bx cx then rpRead fuel (es + 0x1000#16) 0#16 ld else rpRead fuel es (bx + cx) ld
      else .ok ld

/-- At `die` the loop is endless. -/
def readIt (fuel : Nat) (es : BitVec 16) (ld : Loader) : Except Stop Loader :=
  if es &&& 0x0fff#16 ≠ 0#16 then .error .hang else rpRead bios fuel es 0#16 ld

/-- From `kill_motor` to `root_defined`; without a root device only two formats are known. -/
def rootDefined (ld : Loader) : Except Stop Loader :=
  let root := load16 ld.mem (addr INITSEG 508#16)
  let define (ax : BitVec 16) : Except Stop Loader :=
    .ok { ld with mem := store16 ld.mem (addr INITSEG 508#16) ax }
  if root ≠ 0#16 then define root
  else if ld.sectors = 15#16 then define 0x0208#16
  else if ld.sectors = 18#16 then define 0x021c#16
  else .error .hang

/-- The boot sector up to its jump to setup. -/
def bootsect (fuel : Nat) (attempts : List (Option (Nat → Byte))) (m : Memory) : Except Stop Loader :=
  (loadSetup bios fuel ⟨start2 m, attempts, 0#16, 1#16 + SETUPLEN, 0#16, 0#16⟩).bind fun ld =>
    (readIt bios fuel SYSSEG (okLoadSetup bios ld)).bind fun ld =>
      (rootDefined ld).bind fun ld => .ok (bios.interrupt (bios.interrupt ld))

end

end Linux011.Boot

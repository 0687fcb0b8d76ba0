import Linux011.Library.ByteMemory
import Linux011.ChrDrv.Queue

/-! The text console (`console.c`): the statics of the driver, the video memory
and the display controller behind its two ports. -/
namespace Linux011

open ByteMemory

/-- The statics that `con_init` sets once. -/
structure Display where
  videoNumColumns : BitVec 32
  videoNumLines : BitVec 32
  videoMemBase : BitVec 32
  videoMemEnd : BitVec 32
  videoSizeRow : BitVec 32
  videoPortReg : BitVec 16
  videoPortVal : BitVec 16
  deriving DecidableEq, Repr

def videoEraseChar : BitVec 16 := 0x0720#16
def attr : BitVec 32 := 0x07#32

/-- The display controller: one port selects a register, the other one writes it. -/
structure Crtc where
  index : BitVec 8
  regs : BitVec 8 → BitVec 8

namespace Crtc

def outbP (d : Display) (value : BitVec 8) (port : BitVec 16) (crtc : Crtc) : Crtc :=
  if port = d.videoPortReg then { crtc with index := value }
  else if port = d.videoPortVal then
    { crtc with regs := Function.update crtc.regs crtc.index value }
  else crtc

/-- A pair of registers takes the number of the cell at byte `offset`: `high` its
upper and `low` its lower half. -/
def setPair (d : Display) (high low : BitVec 8) (offset : BitVec 32) (crtc : Crtc) : Crtc :=
  crtc
  |> outbP d high d.videoPortReg
  |> outbP d ((0xff &&& (offset >>> 9)).setWidth 8) d.videoPortVal
  |> outbP d low d.videoPortReg
  |> outbP d ((0xff &&& (offset >>> 1)).setWidth 8) d.videoPortVal

end Crtc

/-- The statics that move with the text, video memory and the controller.
`touched` is ghost state: the addresses of the bytes stored or copied so far. -/
structure Console where
  origin : BitVec 32
  scrEnd : BitVec 32
  pos : BitVec 32
  x : BitVec 32
  y : BitVec 32
  top : BitVec 32
  bottom : BitVec 32
  mem : Memory
  crtc : Crtc
  touched : List Nat

namespace Console

/-- `*(char *)addr = value`. -/
def storeByte (addr : BitVec 32) (value : BitVec 8) (con : Console) : Console :=
  { con with
    mem := Function.update con.mem addr.toNat value
    touched := addr.toNat :: con.touched }

/-- `*(unsigned short *)addr = value`. -/
def storeWord (addr : BitVec 32) (value : BitVec 16) (con : Console) : Console :=
  { con with
    mem := store16 con.mem addr.toNat value
    touched := List.range' addr.toNat 2 ++ con.touched }

/-- `rep movsl` with `count` in `%ecx`. -/
def repMovsl (source target count : BitVec 32) (con : Console) : Console :=
  { con with
    mem := copyUp con.mem source.toNat target.toNat count.toNat
    touched := List.range' source.toNat (4 * count.toNat) ++
      List.range' target.toNat (4 * count.toNat) ++ con.touched }

/-- `rep stosw` with `count` in `%ecx`. -/
def repStosw (value : BitVec 16) (target count : BitVec 32) (con : Console) : Console :=
  { con with
    mem := fillUp16 con.mem value target.toNat count.toNat
    touched := List.range' target.toNat (2 * count.toNat) ++ con.touched }

def gotoxy (d : Display) (newX newY : BitVec 32) (con : Console) : Console :=
  if d.videoNumColumns < newX ∨ d.videoNumLines ≤ newY then con
  else
    { con with
      x := newX
      y := newY
      pos := con.origin + newY * d.videoSizeRow + (newX <<< 1) }

def setCursor (d : Display) (con : Console) : Console :=
  { con with crtc := con.crtc.setPair d 14 15 (con.pos - d.videoMemBase) }

def setOrigin (d : Display) (con : Console) : Console :=
  { con with crtc := con.crtc.setPair d 12 13 (con.origin - d.videoMemBase) }

/-- The window moved down by one row, before the row that comes into it is cleared. -/
def advance (d : Display) (con : Console) : Console :=
  { con with
    origin := con.origin + d.videoSizeRow
    pos := con.pos + d.videoSizeRow
    scrEnd := con.scrEnd + d.videoSizeRow }

/-- The branch of `scroll_up` for a window that went past `video_mem_end`. The
second fill starts where the copy left `%edi`. -/
def copyBack (d : Display) (con : Console) : Console :=
  let count := ((d.videoNumLines - 1) * d.videoNumColumns) >>> 1
  let con := con
    |> repMovsl con.origin d.videoMemBase count
    |> repStosw videoEraseChar (d.videoMemBase + 4 * count) d.videoNumColumns
  { con with
    scrEnd := con.scrEnd - (con.origin - d.videoMemBase)
    pos := con.pos - (con.origin - d.videoMemBase)
    origin := d.videoMemBase }

def clearLast (d : Display) (con : Console) : Console :=
  repStosw videoEraseChar (con.scrEnd - d.videoSizeRow) d.videoNumColumns con

/-- The branch of `scroll_up` for a scrolling region smaller than the screen. -/
def scrollRegion (d : Display) (con : Console) : Console :=
  let count := ((con.bottom - con.top - 1) * d.videoNumColumns) >>> 1
  let target := con.origin + d.videoSizeRow * con.top
  con
  |> repMovsl (con.origin + d.videoSizeRow * (con.top + 1)) target count
  |> repStosw videoEraseChar (target + 4 * count) d.videoNumColumns

def scrollUp (d : Display) (con : Console) : Console :=
  if con.top = 0 ∧ con.bottom = d.videoNumLines then
    let con := con.advance d
    setOrigin d (if d.videoMemEnd < con.scrEnd then con.copyBack d else con.clearLast d)
  else con.scrollRegion d

def lf (d : Display) (con : Console) : Console :=
  if con.y + 1 < con.bottom then { con with y := con.y + 1, pos := con.pos + d.videoSizeRow }
  else con.scrollUp d

def cr (con : Console) : Console := { con with pos := con.pos - (con.x <<< 1), x := 0 }

def del (con : Console) : Console :=
  if con.x ≠ 0 then
    storeWord (con.pos - 2) videoEraseChar { con with pos := con.pos - 2, x := con.x - 1 }
  else con

/-- The branch for character 8. -/
def backspace (con : Console) : Console :=
  if con.x ≠ 0 then { con with x := con.x - 1, pos := con.pos - 2 } else con

/-- A position past the last column becomes one in the next row. -/
def wrapLine (d : Display) (con : Console) : Console :=
  lf d { con with x := con.x - d.videoNumColumns, pos := con.pos - d.videoSizeRow }

/-- The deferred line wrap, in front of a character that is going to be shown. -/
def makeRoom (d : Display) (con : Console) : Console :=
  if d.videoNumColumns ≤ con.x then con.wrapLine d else con

/-- The branch for the characters 32 to 126. -/
def printable (d : Display) (c : BitVec 8) (con : Console) : Console :=
  let con := con.makeRoom d
  let con := con
    |> storeByte con.pos c
    |> storeByte (con.pos + 1) (attr.setWidth 8)
  { con with pos := con.pos + 2, x := con.x + 1 }

/-- The branch for character 9, in `con_write` only. The distance to the next
stop is between 1 and 8, so `char c` holds it. -/
def tab (d : Display) (con : Console) : Console :=
  let c := 8 - (con.x &&& 7)
  let con := { con with x := con.x + c, pos := con.pos + (c <<< 1) }
  if d.videoNumColumns < con.x then con.wrapLine d else con

/-- One turn of the loop of `con_write`; `char` is signed. -/
def writeChar (d : Display) (con : Console) (c : BitVec 8) : Console :=
  if 31 < c.toInt ∧ c.toInt < 127 then con.printable d c
  else if c = 10 ∨ c = 11 ∨ c = 12 then con.lf d
  else if c = 13 then con.cr
  else if c = 127 then con.del
  else if c = 8 then con.backspace
  else if c = 9 then con.tab d
  else con

/-- One turn of the loop of `con_print`. -/
def printChar (d : Display) (con : Console) (c : BitVec 8) : Console :=
  if 31 < c.toInt ∧ c.toInt < 127 then con.printable d c
  else if c = 10 ∨ c = 11 ∨ c = 12 then con.lf d
  else if c = 13 then con.cr
  else if c = 127 then con.del
  else if c = 8 then con.backspace
  else con

/-- `while (nr--)` of `con_write`, with what is left in the queue. -/
def drain (d : Display) : Nat → Console → TtyQueue → Console × TtyQueue
  | 0, con, q => (con, q)
  | nr + 1, con, q => drain d nr (con.writeChar d q.getch.1) q.getch.2

/-- `con_write`, with `write_q`. -/
def conWrite (d : Display) (con : Console) (writeQ : TtyQueue) : Console × TtyQueue :=
  drain d writeQ.chars.toNat con writeQ

/-- `con_print` of the `nr` bytes at `buf`. -/
def conPrint (d : Display) (con : Console) (buf : List (BitVec 8)) : Console :=
  let con := buf.foldl (printChar d) con
  setCursor d (gotoxy d con.x con.y con)

end Console

/-- What `setup.S` left at 0x90000: the cursor, the video mode with the number of
columns above it, `%bx` of the EGA call, and the number of lines. -/
structure BootVideo where
  origX : BitVec 8
  origY : BitVec 8
  videoMode : BitVec 8
  videoCols : BitVec 8
  videoEgaBx : BitVec 16
  videoLines : BitVec 8
  deriving DecidableEq, Repr

/-- The display that `con_init` chooses: monochrome or colour, each with or
without the memory of an EGA. -/
def BootVideo.display (boot : BootVideo) : Display :=
  let ega := boot.videoEgaBx &&& 0xff != 0x10
  let mono := boot.videoMode == 7
  { videoNumColumns := boot.videoCols.setWidth 32
    videoNumLines := boot.videoLines.setWidth 32
    videoMemBase := if mono then 0xb0000 else 0xb8000
    videoMemEnd :=
      if mono then (if ega then 0xb8000 else 0xb2000) else (if ega then 0xc0000 else 0xba000)
    videoSizeRow := boot.videoCols.setWidth 32 * 2
    videoPortReg := if mono then 0x3b4 else 0x3d4
    videoPortVal := if mono then 0x3b5 else 0x3d5 }

/-- `display_desc`: `EGAm`, `*MDA`, `EGAc` or `*CGA`. -/
def BootVideo.displayDesc (boot : BootVideo) : List (BitVec 8) :=
  let ega := boot.videoEgaBx &&& 0xff != 0x10
  let mono := boot.videoMode == 7
  if ega then [0x45, 0x47, 0x41, if mono then 0x6d else 0x63]
  else [0x2a, if mono then 0x4d else 0x43, if mono then 0x44 else 0x47, 0x41]

namespace Console

/-- The characters of the description, every other byte from `ptr` on. -/
def describe (ptr : BitVec 32) : List (BitVec 8) → Console → Console
  | [], con => con
  | c :: cs, con => describe (ptr + 2) cs (storeByte ptr c con)

/-- The end of `con_init`'s work on the screen: the whole display becomes the
window and the cursor is put where the firmware left it. -/
def home (d : Display) (origX origY : BitVec 32) (con : Console) : Console :=
  { con with
    origin := d.videoMemBase
    scrEnd := d.videoMemBase + d.videoNumLines * d.videoSizeRow
    top := 0
    bottom := d.videoNumLines }
  |> gotoxy d origX origY
  |> setCursor d

/-- The statics before `con_init`. -/
def cleared (mem : Memory) (crtc : Crtc) : Console where
  origin := 0
  scrEnd := 0
  pos := 0
  x := 0
  y := 0
  top := 0
  bottom := 0
  mem := mem
  crtc := crtc
  touched := []

/-- `con_init`, as far as the display is concerned. -/
def conInit (boot : BootVideo) (con : Console) : Console :=
  let d := boot.display
  con
  |> describe (d.videoMemBase + d.videoSizeRow * 2 - 8) boot.displayDesc
  |> home d (boot.origX.setWidth 32) (boot.origY.setWidth 32)

end Console

end Linux011

import Linux011.ChrDrv.Tty

/-! The keyboard driver (`kboard.c`): from scan codes to the characters in `read_q`. -/
namespace Linux011

/-- The functions of `key_table`. -/
inductive KeyFn where
  | doSelf
  | ctrl
  | unctrl
  | lshift
  | rshift
  | unlshift
  | unrshift
  | alt
  | unalt
  | caps
  | uncaps
  | num
  | scroll
  | cursor
  | func
  | minus
  deriving DecidableEq, Repr

/-- `key_table`: 256 codes, in lines of four; the lines of `do_self`, of `func` and of `none` that
follow one another are put together. -/
def keyTable : List (Option KeyFn) :=
  let self := some KeyFn.doSelf
  let func := some KeyFn.func
  let cursor := some KeyFn.cursor
  [none, self, self, self] ++
  List.replicate 0x18 self ++
  [self, some .ctrl, self, self] ++
  List.replicate 8 self ++
  [self, self, some .lshift, self] ++
  List.replicate 8 self ++
  [self, some .minus, some .rshift, self] ++
  [some .alt, self, some .caps, func] ++
  List.replicate 8 func ++
  [func, some .num, some .scroll, cursor] ++
  [cursor, cursor, self, cursor] ++
  [cursor, cursor, self, cursor] ++
  [cursor, cursor, cursor, cursor] ++
  [none, none, self, func] ++
  [func, none, none, none] ++
  List.replicate 0x40 none ++
  [none, some .unctrl, none, none] ++
  List.replicate 8 none ++
  [none, none, some .unlshift, none] ++
  List.replicate 8 none ++
  [none, none, some .unrshift, none] ++
  [some .unalt, none, some .uncaps, none] ++
  List.replicate 0x44 none

/-- A character constant of the source; brackets, quotes and the backslash are given
by their codes below. -/
def ascii (c : Char) : BitVec 8 := BitVec.ofNat 8 c.toNat

def keyMap : List (BitVec 8) :=
  [0, 27] ++
  ['1', '2', '3', '4', '5', '6', '7', '8', '9', '0', '-', '='].map ascii ++
  [127, 9] ++
  ['q', 'w', 'e', 'r', 't', 'y', 'u', 'i', 'o', 'p'].map ascii ++ [91, 93] ++
  [10, 0] ++
  ['a', 's', 'd', 'f', 'g', 'h', 'j', 'k', 'l', ';'].map ascii ++ [39] ++
  [96, 0] ++
  [92] ++ ['z', 'x', 'c', 'v', 'b', 'n', 'm', ',', '.', '/'].map ascii ++
  [0, ascii '*', 0, 32] ++
  List.replicate 16 0 ++
  [ascii '-', 0, 0, 0, ascii '+'] ++
  List.replicate 7 0 ++
  [ascii '>'] ++
  List.replicate 40 0

def shiftMap : List (BitVec 8) :=
  [0, 27] ++
  ['!', '@', '#', '$', '%', '^', '&', '*', '(', ')', '_', '+'].map ascii ++
  [127, 9] ++
  ['Q', 'W', 'E', 'R', 'T', 'Y', 'U', 'I', 'O', 'P'].map ascii ++ [123, 125] ++
  [10, 0] ++
  ['A', 'S', 'D', 'F', 'G', 'H', 'J', 'K', 'L', ':'].map ascii ++ [34] ++
  [ascii '~', 0] ++
  ['|', 'Z', 'X', 'C', 'V', 'B', 'N', 'M', '<', '>', '?'].map ascii ++
  [0, ascii '*', 0, 32] ++
  List.replicate 16 0 ++
  [ascii '-', 0, 0, 0, ascii '+'] ++
  List.replicate 7 0 ++
  [ascii '>'] ++
  List.replicate 40 0

def curTable : List (BitVec 8) :=
  ['H', 'A', '5', ' ', 'D', 'G', 'C', ' ', 'Y', 'B', '6', '2', '3'].map ascii

def numTable : List (BitVec 8) :=
  ['7', '8', '9', ' ', '4', '5', '6', ' ', '1', '2', '3', '0', '.'].map ascii

/-- The globals of the driver, with the console and the queues behind it. `sent` is
what the keyboard has been sent through port 0x60. -/
structure Keyboard where
  scanCode : BitVec 8
  leds : BitVec 8
  mode : BitVec 8
  e0 : BitVec 8
  sent : List (BitVec 8)
  tty : Tty

/-- One interrupt of the keyboard: the code that waits at port 0x60, and what lies
in memory behind `key_map` and behind `shift_map` at that moment. -/
structure ScanInterrupt where
  code : BitVec 8
  behindKeyMap : Nat → BitVec 8
  behindShiftMap : Nat → BitVec 8

namespace ScanInterrupt

/-- `rmap[i]`, with `shift_map` or `key_map` as `rmap`. An index past the end of the
table reads what lies there. -/
def rmap (int : ScanInterrupt) (shifted : Bool) (i : BitVec 8) : BitVec 8 :=
  if i.toNat < 0x7f then (if shifted then shiftMap else keyMap).getD i.toNat 0
  else if shifted then int.behindShiftMap i.toNat else int.behindKeyMap i.toNat

end ScanInterrupt

/-- The treatment of a character under Caps Lock and, inside of it, Ctrl. -/
def capsLock (mode c : BitVec 8) : BitVec 8 :=
  if mode &&& 0x40 ≠ 0 then
    let c := if 0x61 ≤ c.toInt ∧ c.toInt ≤ 0x7d then c - 0x20 else c
    if mode &&& 0xc ≠ 0 ∧ 64 ≤ c.toInt ∧ c.toInt < 96 then c - 0x40 else c
  else c

namespace Keyboard

/-- `PUTCH(c, &read_q)`. -/
def putRead (c : BitVec 8) (k : Keyboard) : Keyboard :=
  { k with tty := { k.tty with readQ := k.tty.readQ.putch c } }

def doSelf (int : ScanInterrupt) (k : Keyboard) : Keyboard :=
  let c := int.rmap (k.mode &&& 0x3 != 0) k.scanCode
  if c = 0 then k else k.putRead (capsLock k.mode c)

/-- `set_leds`, whose two waits for the keyboard are taken to end. -/
def setLeds (k : Keyboard) : Keyboard := { k with sent := k.sent ++ [0xed, k.leds] }

def lshift (k : Keyboard) : Keyboard := { k with mode := k.mode ||| 0x01 }
def unlshift (k : Keyboard) : Keyboard := { k with mode := k.mode &&& 0xfe }
def rshift (k : Keyboard) : Keyboard := { k with mode := k.mode ||| 0x02 }
def unrshift (k : Keyboard) : Keyboard := { k with mode := k.mode &&& 0xfd }

def ctrl (k : Keyboard) : Keyboard :=
  if k.e0 ≠ 0 then { k with mode := k.mode ||| 0x08 } else { k with mode := k.mode ||| 0x04 }

def unctrl (k : Keyboard) : Keyboard :=
  if k.e0 ≠ 0 then { k with mode := k.mode &&& 0xf7 } else { k with mode := k.mode &&& 0xfb }

def caps (k : Keyboard) : Keyboard :=
  if k.mode &&& 0x80 ≠ 0 then k
  else setLeds { k with leds := k.leds ^^^ 0x04, mode := (k.mode ^^^ 0x40) ||| 0x80 }

def uncaps (k : Keyboard) : Keyboard := { k with mode := k.mode &&& 0x7f }
def scroll (k : Keyboard) : Keyboard := setLeds { k with leds := k.leds ^^^ 0x01 }
def num (k : Keyboard) : Keyboard := setLeds { k with leds := k.leds ^^^ 0x02 }

def cursor (k : Keyboard) : Keyboard :=
  let k := { k with scanCode := k.scanCode - 0x47 }
  if 12 < k.scanCode then k
  else if k.e0 ≠ 0 ∨ k.leds &&& 0x2 ≠ 0 then
    let c := curTable.getD k.scanCode.toNat 0
    let k := if c.toInt < 0x39 then k.putRead 0x7e else k
    k |> putRead 0x1b |> putRead 0x5b |> putRead c
  else k.putRead (numTable.getD k.scanCode.toNat 0)

def func (k : Keyboard) : Keyboard :=
  let k := { k with scanCode := k.scanCode - 0x3b }
  let k := if 9 < k.scanCode then { k with scanCode := k.scanCode - 18 } else k
  if 11 < k.scanCode then k
  else k |> putRead 0x1b |> putRead 0x5b |> putRead 0x5b |> putRead (0x41 + k.scanCode)

def minus (int : ScanInterrupt) (k : Keyboard) : Keyboard :=
  if k.e0 = 1 then k.putRead 0x2f else k.doSelf int

/-- The call through `key_table`. -/
def call (int : ScanInterrupt) (k : Keyboard) : KeyFn → Keyboard
  | .doSelf => k.doSelf int
  | .ctrl => k.ctrl
  | .unctrl => k.unctrl
  | .lshift => k.lshift
  | .rshift => k.rshift
  | .unlshift => k.unlshift
  | .unrshift => k.unrshift
  | .alt => k
  | .unalt => k
  | .caps => k.caps
  | .uncaps => k.uncaps
  | .num => k.num
  | .scroll => k.scroll
  | .cursor => k.cursor
  | .func => k.func
  | .minus => k.minus int

/-- `keyboard_handler` up to `do_tty_interrupt`. The variable `scan_code` that takes
the code is a local one; the functions it calls read the global of that name. -/
def dispatch (int : ScanInterrupt) (k : Keyboard) : Keyboard :=
  if int.code = 0xE0 then { k with e0 := 1 }
  else if int.code = 0xE1 then { k with e0 := 2 }
  else
    match keyTable.getD int.code.toNat none with
    | none => k
    | some fn => k.call int fn

/-- `keyboard_handler`. The loop of `copy_to_cooked` turns at most 1023 times: that
is what `read_q` can hold. -/
def keyboardHandler (d : Display) (int : ScanInterrupt) (k : Keyboard) : Except Stop Keyboard :=
  (Tty.doTtyInterrupt d 1024 (k.dispatch int).tty).map fun tty => { k.dispatch int with tty := tty }

/-- The interrupts, one after another. -/
def run (d : Display) : List ScanInterrupt → Keyboard → Except Stop Keyboard
  | [], k => .ok k
  | int :: ints, k => (k.keyboardHandler d int).bind (run d ints)

end Keyboard

end Linux011

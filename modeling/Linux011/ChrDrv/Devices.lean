import Linux011.ChrDrv.Bounds
import Linux011.ChrDrv.Refines
import Linux011.ChrDrv.Wait
import Linux011.Kernel.Printk

/-! The character devices together. The keyboard is a transducer from scan codes to characters, which
does not know what is on the screen; the screen is a terminal that is given the echo of these
characters and the messages of the kernel, in the order in which they come. -/
namespace Linux011

open ByteMemory Vsprintf

/-- A terminal after the bytes `buf`, tabs among them. -/
def writeBytes (d : Display) (t : Terminal Cell) (buf : List (BitVec 8)) : Terminal Cell :=
  buf.foldl (fun t c =>
    if c = 9 then t.tab d.videoNumLines.toNat d.videoNumColumns.toNat eraseCell 8 else typeBytes d t [c]) t

section Write

variable {d : TextMode} {con : Console} {t : Terminal Cell}

theorem Shows.tab (h : Shows d con t) (hCoords : Coords d con) (hColumns : 8 ≤ d.videoNumColumns.toNat)
    (hEven : 2 ∣ (d.videoNumLines.toNat - 1) * d.videoNumColumns.toNat) :
    Shows d (con.tab d.toDisplay) (t.tab d.videoNumLines.toNat d.videoNumColumns.toNat eraseCell 8) := by
  have hX := h.x_eq
  have hXLe : con.x.toNat ≤ d.videoNumColumns.toNat := hCoords.x_le
  have hPos := hCoords.pos_eq
  have hPosLe := hCoords.pos_le
  have hSpare := d.spare
  have hSize := d.sizeRow_eq
  have hStop : (8 - (con.x &&& 7)).toNat = 8 - con.x.toNat % 8 := by
    have hMask : (con.x &&& 7).toNat = con.x.toNat % 8 := by
      rw [BitVec.toNat_and]
      exact Nat.and_two_pow_sub_one_eq_mod con.x.toNat 3
    rw [BitVec.toNat_sub, hMask]
    change (2 ^ 32 - con.x.toNat % 8 + 8) % 2 ^ 32 = _
    omega
  have hXNat : (con.x + (8 - (con.x &&& 7))).toNat = t.x + (8 - t.x % 8) := by
    rw [BitVec.toNat_add, hStop, hX]
    omega
  have hPosNat : (con.pos + ((8 - (con.x &&& 7)) <<< 1)).toNat =
      con.origin.toNat + con.y.toNat * d.videoSizeRow.toNat + 2 * (con.x + (8 - (con.x &&& 7))).toNat := by
    rw [BitVec.toNat_add, BitVec.toNat_shiftLeft, Nat.shiftLeft_eq, pow_one, hXNat, hStop]
    omega
  simp only [Console.tab, Terminal.tab, BitVec.lt_def, hXNat]
  split_ifs with hWrap
  · have hMoved := hCoords.wrapped (by omega) (by omega) hPosNat
    have hShown : Shows d
        { con with
          x := con.x + (8 - (con.x &&& 7)) - d.videoNumColumns
          pos := con.pos + ((8 - (con.x &&& 7)) <<< 1) - d.videoSizeRow }
        { t with x := t.x + (8 - t.x % 8) - d.videoNumColumns.toNat } := by
      refine ⟨?_, h.y_eq, h.grid_eq⟩
      dsimp only
      rw [BitVec.toNat_sub, hXNat]
      omega
    exact hShown.lf hMoved hEven
  · exact ⟨hXNat, h.y_eq, h.grid_eq⟩

theorem Shows.writeChar (h : Shows d con t) (hCoords : Coords d con) (hColumns : 8 ≤ d.videoNumColumns.toNat)
    (hEven : 2 ∣ (d.videoNumLines.toNat - 1) * d.videoNumColumns.toNat) (c : BitVec 8) :
    Shows d (con.writeChar d.toDisplay c) (writeBytes d.toDisplay t [c]) := by
  rw [writeBytes, List.foldl_cons, List.foldl_nil]
  split_ifs with hTab
  · have hWrite : con.writeChar d.toDisplay c = con.tab d.toDisplay := hTab ▸ Console.writeChar_tab d.toDisplay con
    rw [hWrite]
    exact h.tab hCoords hColumns hEven
  · rw [Console.writeChar_eq _ _ hTab]
    exact (h.printChars hCoords hEven [c]).2

theorem Shows.writeChars (h : Shows d con t) (hSafe : Safe d con) (hColumns : 8 ≤ d.videoNumColumns.toNat)
    (hEven : 2 ∣ (d.videoNumLines.toNat - 1) * d.videoNumColumns.toNat) (cs : List (BitVec 8)) :
    Safe d (cs.foldl (Console.writeChar d.toDisplay) con) ∧
      Shows d (cs.foldl (Console.writeChar d.toDisplay) con) (writeBytes d.toDisplay t cs) := by
  induction cs generalizing con t with
  | nil => exact ⟨hSafe, h⟩
  | cons c cs ih =>
      have hNext : Safe d (con.writeChar d.toDisplay c) :=
        ⟨hSafe.coords.writeChar hColumns c, hSafe.contained.writeChar hSafe.coords hColumns c⟩
      exact ih (h.writeChar hSafe.coords hColumns hEven c) hNext

end Write

/-- The variables of the driver that its functions look at. -/
structure Driver where
  scanCode : BitVec 8
  leds : BitVec 8
  mode : BitVec 8
  e0 : BitVec 8
  deriving DecidableEq, Repr

def Keyboard.driver (k : Keyboard) : Driver := ⟨k.scanCode, k.leds, k.mode, k.e0⟩

namespace Driver

def next (v : Driver) (code : BitVec 8) : Driver :=
  if code = 0xE0 then { v with e0 := 1 }
  else if code = 0xE1 then { v with e0 := 2 }
  else
    { scanCode := moveIndex v.scanCode code
      leds := ledsAfterCode code v.mode v.leds
      mode := modeAfterCode code v.e0 v.mode
      e0 := v.e0 }

/-- The character of a key, from the map under the global `scan_code`. -/
def own (v : Driver) (int : ScanInterrupt) : List (BitVec 8) :=
  let c := int.rmap (v.mode &&& 0x3 != 0) v.scanCode
  if c = 0 then [] else [capsLock v.mode c]

/-- The sequence of a cursor key, or the digit of a key of the keypad. -/
def arrow (v : Driver) : List (BitVec 8) :=
  let i := v.scanCode - 0x47
  if 12 < i then []
  else if v.e0 ≠ 0 ∨ v.leds &&& 0x2 ≠ 0 then
    let c := curTable.getD i.toNat 0
    (if c.toInt < 0x39 then [0x7e] else []) ++ [0x1b, 0x5b, c]
  else [numTable.getD i.toNat 0]

/-- The sequence of a function key. -/
def fKey (v : Driver) : List (BitVec 8) :=
  let i := v.scanCode - 0x3b
  let i := if 9 < i then i - 18 else i
  if 11 < i then [] else [0x1b, 0x5b, 0x5b, 0x41 + i]

/-- What an interrupt types. -/
def types (v : Driver) (int : ScanInterrupt) : List (BitVec 8) :=
  if int.code = 0xE0 ∨ int.code = 0xE1 then []
  else
    match keyTable.getD int.code.toNat none with
    | some .doSelf => v.own int
    | some .minus => if v.e0 = 1 then [0x2f] else v.own int
    | some .cursor => v.arrow
    | some .func => v.fKey
    | _ => []

end Driver

section Keys

variable {k : Keyboard} {int : ScanInterrupt}

theorem Keyboard.driver_dispatch (k : Keyboard) (int : ScanInterrupt) :
    (k.dispatch int).driver = k.driver.next int.code := by
  rw [Keyboard.dispatch, Driver.next]
  split_ifs
  · rfl
  · rfl
  · cases hTable : keyTable.getD int.code.toNat none with
    | none => simp only [driver, moveIndex, ledsAfterCode, modeAfterCode, hTable]
    | some fn =>
        obtain ⟨hMode, hE0⟩ := k.call_frame int fn
        simp only [driver, ledsAfterCode, modeAfterCode, hTable, call_scanCode hTable, k.call_leds int fn, hMode, hE0]

namespace Keyboard

theorem doSelf_types (int : ScanInterrupt) (k : Keyboard) : Puts k (k.doSelf int) (k.driver.own int) := by
  dsimp only [doSelf, Driver.own, driver]
  split_ifs
  · exact Puts.none rfl
  · exact (Puts.none rfl).putRead _

theorem cursor_types (k : Keyboard) : Puts k k.cursor k.driver.arrow := by
  have hMoved : Puts k { k with scanCode := k.scanCode - 0x47 } [] := Puts.none rfl
  dsimp only [cursor, Driver.arrow, driver]
  split_ifs
  · exact hMoved
  · exact (((hMoved.putRead _).putRead _).putRead _).putRead _
  · exact ((hMoved.putRead _).putRead _).putRead _
  · exact hMoved.putRead _

theorem func_types (k : Keyboard) : Puts k k.func k.driver.fKey := by
  dsimp only [func, Driver.fKey, driver]
  split_ifs
  · exact Puts.none rfl
  · exact ((((Puts.none rfl).putRead _).putRead _).putRead _).putRead _
  · exact Puts.none rfl
  · exact ((((Puts.none rfl).putRead _).putRead _).putRead _).putRead _

/-- An interrupt puts into `read_q` what it types, and changes nothing else behind the driver. -/
theorem dispatch_types (k : Keyboard) (int : ScanInterrupt) : Puts k (k.dispatch int) (k.driver.types int) := by
  rw [dispatch, Driver.types]
  by_cases hPrefix : int.code = 0xE0 ∨ int.code = 0xE1
  · rw [if_pos hPrefix]
    split_ifs
    · exact Puts.none rfl
    · exact Puts.none rfl
    · tauto
  · rw [if_neg hPrefix]
    rw [not_or] at hPrefix
    rw [if_neg hPrefix.1, if_neg hPrefix.2]
    cases keyTable.getD int.code.toNat none with
    | none => exact Puts.none rfl
    | some fn =>
        cases fn with
        | doSelf => exact doSelf_types int k
        | cursor => exact cursor_types k
        | func => exact func_types k
        | minus =>
            change Puts k (if k.e0 = 1 then k.putRead 0x2f else k.doSelf int)
              (if k.e0 = 1 then [0x2f] else k.driver.own int)
            by_cases hE0 : k.e0 = 1
            · rw [if_pos hE0, if_pos hE0]
              exact (Puts.none rfl).putRead _
            · rw [if_neg hE0, if_neg hE0]
              exact doSelf_types int k
        | ctrl | unctrl | caps =>
            refine Puts.none ?_
            simp only [call, ctrl, unctrl, caps]
            split_ifs <;> rfl
        | _ => exact Puts.none rfl

end Keyboard

theorem Driver.length_types_le (v : Driver) (int : ScanInterrupt) : (v.types int).length ≤ 4 := by
  have hOwn : (v.own int).length ≤ 1 := by
    simp only [Driver.own]
    split_ifs <;> simp
  have hArrow : v.arrow.length ≤ 4 := by
    simp only [Driver.arrow]
    split_ifs <;> simp
  have hFKey : v.fKey.length ≤ 4 := by
    simp only [Driver.fKey]
    split_ifs <;> simp
  rw [Driver.types]
  by_cases hPrefix : int.code = 0xE0 ∨ int.code = 0xE1
  · rw [if_pos hPrefix]
    exact Nat.zero_le 4
  · rw [if_neg hPrefix]
    split
    · omega
    · split_ifs
      · exact (by decide : 1 ≤ 4)
      · omega
    · exact hArrow
    · exact hFKey
    · exact Nat.zero_le 4

/-- The whole interrupt: the echo of what it types is written, and the queues are empty again. -/
theorem Keyboard.keyboardHandler_types (d : Display) (int : ScanInterrupt) (h : k.tty.Idle) :
    ∃ k', k.keyboardHandler d int = .ok k' ∧ k'.tty.Idle ∧ k'.driver = k.driver.next int.code ∧
      k'.tty.con = ((k.driver.types int).flatMap echoed).foldl (Console.writeChar d) k.tty.con := by
  have hLength := k.driver.length_types_le int
  have hPuts := dispatch_types k int
  have hRead := h.readQ.putAll (k.driver.types int) (by rw [List.length_nil]; omega)
  rw [List.nil_append] at hRead
  have hCooked : (k.dispatch int).tty.Cooked [] := by
    rw [hPuts]
    exact ⟨h.cooked.holds, h.cooked.most_le⟩
  have hHolds : (k.dispatch int).tty.readQ.Holds (k.driver.types int) := by
    rw [hPuts]
    exact hRead
  obtain ⟨tty, hEnd, hDone, hEmpty, hCon⟩ :=
    hCooked.copyToCooked (d := d) hHolds (show (k.driver.types int).length < 1024 by omega)
  refine ⟨{ k.dispatch int with tty := tty }, ?_, ⟨hDone, hEmpty⟩, k.driver_dispatch int, ?_⟩
  · rw [keyboardHandler, Tty.doTtyInterrupt, hEnd]
    rfl
  · rw [hCon, hPuts]

end Keys

/-- What happens to the devices: an interrupt of the keyboard, in which port 0x64 delivers `status`
and each wait is given `rounds` reads, or a message of the kernel. -/
inductive DeviceEvent where
  | key (int : ScanInterrupt) (status : Nat → BitVec 8) (rounds : Nat)
  | say (m : Message) (memory : Memory) (readable : m.Readable memory)

/-- The event, from its beginning to its end. Where an interrupt sends anything to the keyboard,
it is by `set_leds`. -/
def DeviceEvent.exec (d : Display) (k : Keyboard) : DeviceEvent → Option Keyboard
  | key int status rounds =>
      if (k.dispatch int).sent ≠ k.sent ∧ (Wait.setLeds status rounds (k.dispatch int).leds).2 = false then none
      else (k.keyboardHandler d int).toOption
  | say m memory _ => (m.printk d memory k.tty).map fun result => { k with tty := result.2.2 }

/-- The events, one after another. -/
def DeviceEvent.run (d : Display) : List DeviceEvent → Keyboard → Option Keyboard
  | [], k => some k
  | event :: events, k => (event.exec d k).bind (run d events)

/-- The keys with a light. -/
def LedKey (code : BitVec 8) : Prop :=
  keyTable.getD code.toNat none = some .caps ∨ keyTable.getD code.toNat none = some .num ∨
    keyTable.getD code.toNat none = some .scroll

/-- The two waits of `set_leds` end, when such a key calls it. -/
def DeviceEvent.WaitsEnd : DeviceEvent → Prop
  | key int status rounds => LedKey int.code → ∀ leds, (Wait.setLeds status rounds leds).2 = true
  | say _ _ _ => True

/-- What the devices are for: a keyboard and a terminal. -/
structure Desk where
  driver : Driver
  screen : Terminal Cell

def Desk.step (d : Display) (desk : Desk) : DeviceEvent → Desk
  | .key int _ _ =>
      { driver := desk.driver.next int.code
        screen := writeBytes d desk.screen ((desk.driver.types int).flatMap echoed) }
  | .say m memory _ => { desk with screen := typeBytes d desk.screen (m.text memory) }

/-- The devices are those of the desk, with nothing on its way between them. -/
structure Serves (d : TextMode) (k : Keyboard) (desk : Desk) : Prop where
  driver : k.driver = desk.driver
  shows : Shows d k.tty.con desk.screen
  idle : k.tty.Idle
  safe : Safe d k.tty.con

section Runs

variable {d : TextMode} {k : Keyboard} {desk : Desk}

/-- Only the keys with a light call `set_leds`. -/
theorem Keyboard.dispatch_sent {int : ScanInterrupt} (h : ¬LedKey int.code) : (k.dispatch int).sent = k.sent := by
  have hSelf (k : Keyboard) : (k.doSelf int).sent = k.sent := by
    rw [Keyboard.doSelf]
    split_ifs <;> rfl
  rw [Keyboard.dispatch]
  split_ifs
  · rfl
  · rfl
  · cases hTable : keyTable.getD int.code.toNat none with
    | none => rfl
    | some fn =>
        cases fn with
        | doSelf => exact hSelf k
        | caps => exact absurd (Or.inl hTable) h
        | num => exact absurd (Or.inr (Or.inl hTable)) h
        | scroll => exact absurd (Or.inr (Or.inr hTable)) h
        | cursor =>
            dsimp only [Keyboard.call, Keyboard.cursor]
            split_ifs <;> rfl
        | func =>
            dsimp only [Keyboard.call, Keyboard.func]
            split_ifs <;> rfl
        | minus =>
            dsimp only [Keyboard.call, Keyboard.minus]
            split_ifs
            · rfl
            · exact hSelf k
        | ctrl | unctrl =>
            dsimp only [Keyboard.call, Keyboard.ctrl, Keyboard.unctrl]
            split_ifs <;> rfl
        | _ => rfl

theorem Serves.exec (h : Serves d k desk) (hColumns : 8 ≤ d.videoNumColumns.toNat)
    (hEven : 2 ∣ (d.videoNumLines.toNat - 1) * d.videoNumColumns.toNat) {event : DeviceEvent}
    (hEnds : event.WaitsEnd) :
    ∃ k', event.exec d.toDisplay k = some k' ∧ Serves d k' (desk.step d.toDisplay event) := by
  cases event with
  | key int status rounds =>
      obtain ⟨k', hEnd, hIdle, hDriver, hCon⟩ := Keyboard.keyboardHandler_types d.toDisplay int h.idle
      obtain ⟨hSafe, hShows⟩ := h.shows.writeChars h.safe hColumns hEven ((k.driver.types int).flatMap echoed)
      refine ⟨k', ?_, ?_, ?_, hIdle, hCon ▸ hSafe⟩
      · rw [DeviceEvent.exec, if_neg, hEnd]
        · rfl
        · rintro ⟨hSent, hHangs⟩
          have hLed : LedKey int.code := by
            by_contra hNot
            exact hSent (Keyboard.dispatch_sent hNot)
          rw [hEnds hLed] at hHangs
          cases hHangs
      · rw [hDriver, h.driver]
        rfl
      · rw [hCon, Desk.step, ← h.driver]
        exact hShows
  | say m memory readable =>
      obtain ⟨-, hShows⟩ := h.shows.conPrint h.safe.coords hEven (m.text memory)
      refine ⟨{ k with tty := k.tty.ttyWrite d.toDisplay (m.text memory) }, ?_, h.driver, hShows,
        ⟨⟨h.idle.cooked.holds, h.idle.cooked.most_le⟩, h.idle.readQ⟩,
        h.safe.exec hColumns (.print (m.text memory))⟩
      rw [DeviceEvent.exec, readable.printk_eq]
      rfl

theorem Serves.run (h : Serves d k desk) (hColumns : 8 ≤ d.videoNumColumns.toNat)
    (hEven : 2 ∣ (d.videoNumLines.toNat - 1) * d.videoNumColumns.toNat) {events : List DeviceEvent}
    (hEnds : ∀ event ∈ events, event.WaitsEnd) : ∃ k', DeviceEvent.run d.toDisplay events k = some k' ∧
      Serves d k' (events.foldl (Desk.step d.toDisplay) desk) := by
  induction events generalizing k desk with
  | nil => exact ⟨k, rfl, h⟩
  | cons event events ih =>
      obtain ⟨next, hNext, hServes⟩ := h.exec hColumns hEven (hEnds event List.mem_cons_self)
      obtain ⟨k', hEnd, hLast⟩ := ih hServes fun later hLater => hEnds later (List.mem_cons_of_mem _ hLater)
      refine ⟨k', ?_, hLast⟩
      rw [DeviceEvent.run, hNext]
      exact hEnd

end Runs

/-- The devices behind `tty_init`: `con_init` has set up the screen, and the queues are empty. -/
def Keyboard.booted (boot : BootVideo) (mem : Memory) (crtc : Crtc) : Keyboard :=
  Keyboard.cleared
    { con := (Console.cleared mem crtc).conInit boot
      readQ := TtyQueue.cleared
      writeQ := TtyQueue.cleared
      most := 0 }

/-- The desk that they serve: no key has been pressed, and the screen shows what `con_init` leaves. -/
def Desk.booted (boot : BootVideo) (mem : Memory) (crtc : Crtc) : Desk where
  driver := ⟨0, 0, 0, 0⟩
  screen := ((Console.cleared mem crtc).conInit boot).terminal boot.display

theorem Serves.booted (boot : BootVideo) (hCols : boot.videoCols ≠ 0) (hLines : boot.videoLines ≠ 0)
    (hFits : boot.display.videoMemBase.toNat +
      boot.videoLines.toNat * (2 * boot.videoCols.toNat) ≤ boot.display.videoMemEnd.toNat)
    (hTwo : 2 ≤ boot.videoCols.toNat) (hX : boot.origX ≤ boot.videoCols) (hY : boot.origY < boot.videoLines)
    (mem : Memory) (crtc : Crtc) :
    Serves (boot.textMode hCols hLines hFits) (Keyboard.booted boot mem crtc) (Desk.booted boot mem crtc) where
  driver := rfl
  shows := Console.shows_terminal (boot.textMode hCols hLines hFits) _
  idle := ⟨⟨TtyQueue.holds_cleared, Nat.zero_le _⟩, TtyQueue.holds_cleared⟩
  safe := Safe.conInit boot hCols hLines hFits hTwo hX hY mem crtc

/-- The screen of a colour EGA with the cursor in the last row. -/
def egaBoot : BootVideo :=
  { origX := 0, origY := 24, videoMode := 3, videoCols := 80, videoEgaBx := 3, videoLines := 25 }

end Linux011

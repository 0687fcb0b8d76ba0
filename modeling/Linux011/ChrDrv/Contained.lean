import Linux011.ChrDrv.Coordinates

/-! Runs of console output from `con_init` on: the coordinates stay sound after
every character, and no byte outside video memory is stored or copied. -/
namespace Linux011

open ByteMemory

section Touched

variable {d : TextMode} {con con' : Console}

/-- `n` more bytes are touched, from `a` on. -/
theorem Contained.block (h : Contained d con) {a n : Nat}
    (hTouched : con'.touched = List.range' a n ++ con.touched)
    (hLow : d.videoMemBase.toNat ≤ a) (hHigh : a + n ≤ d.videoMemEnd.toNat) :
    Contained d con' := by
  intro b hb
  rw [hTouched, List.mem_append, List.mem_range'_1] at hb
  rcases hb with hNew | hOld
  · omega
  · exact h b hOld

/-- Filling cells within video memory. -/
theorem Contained.repStosw (h : Contained d con) (value : BitVec 16) {target count : BitVec 32}
    (hLow : d.videoMemBase.toNat ≤ target.toNat)
    (hHigh : target.toNat + 2 * count.toNat ≤ d.videoMemEnd.toNat) :
    Contained d (con.repStosw value target count) :=
  h.block rfl hLow hHigh

/-- Moving cells within video memory. -/
theorem Contained.repMovsl (h : Contained d con) {source target count : BitVec 32}
    (hSource : d.videoMemBase.toNat ≤ source.toNat)
    (hSourceEnd : source.toNat + 4 * count.toNat ≤ d.videoMemEnd.toNat)
    (hTarget : d.videoMemBase.toNat ≤ target.toNat)
    (hTargetEnd : target.toNat + 4 * count.toNat ≤ d.videoMemEnd.toNat) :
    Contained d (con.repMovsl source target count) := by
  have hStored : Contained d { con with
      touched := List.range' target.toNat (4 * count.toNat) ++ con.touched } :=
    h.block rfl hTarget hTargetEnd
  exact hStored.block (List.append_assoc _ _ _) hSource hSourceEnd

theorem Contained.home (h : Contained d con) (newX newY : BitVec 32) :
    Contained d (con.home d.toDisplay newX newY) := by
  rw [Console.home, Console.gotoxy]
  split_ifs <;> exact h

/-- The description has every other byte from `ptr` on. -/
theorem Contained.describe (h : Contained d con) (ptr : BitVec 32) (cs : List (BitVec 8))
    (hLow : d.videoMemBase.toNat ≤ ptr.toNat) (hHigh : ptr.toNat + 2 * cs.length ≤ d.videoMemEnd.toNat) :
    Contained d (Console.describe ptr cs con) := by
  induction cs generalizing ptr con with
  | nil => exact h
  | cons c cs ih =>
      rw [List.length_cons] at hHigh
      have hSpare := d.spare
      have hNext : (ptr + 2).toNat = ptr.toNat + 2 := by
        rw [BitVec.toNat_add, show (2 : BitVec 32).toNat = 2 from rfl, Nat.mod_eq_of_lt (by omega)]
      have hStored : Contained d (con.storeByte ptr c) := by
        intro a ha
        rcases List.mem_cons.1 ha with rfl | hOld
        · exact ⟨hLow, by omega⟩
        · exact h a hOld
      exact ih hStored (ptr + 2) (by omega) (by omega)

/-- The copy back to the start of video memory. -/
theorem Contained.copyBack (h : Contained d con) (hCoords : Coords d con) :
    Contained d ((con.advance d.toDisplay).copyBack d.toDisplay) := by
  obtain ⟨hOrigin, -, -⟩ := hCoords.advance_toNat
  have hFits := d.fits
  have hLast := d.lastRow
  have hCells := d.lastRow_cells
  have hCount := d.copyCount
  have hSize := d.sizeRow_eq
  have hScrEnd := hCoords.scrEnd_eq
  have hBase := hCoords.base_le
  have hEnd := hCoords.le_end
  have hAdvanced : Contained d (con.advance d.toDisplay) := h
  have hMoved : Contained d ((con.advance d.toDisplay).repMovsl
      (con.advance d.toDisplay).origin d.videoMemBase
      (((d.videoNumLines - 1) * d.videoNumColumns) >>> 1)) :=
    hAdvanced.repMovsl (by omega) (by omega) (Nat.le_refl _) (by omega)
  exact hMoved.repStosw videoEraseChar (by rw [d.copyEnd]; omega) (by rw [d.copyEnd]; omega)

/-- The new last row. -/
theorem Contained.clearLast (h : Contained d con) (hCoords : Coords d con)
    (hWindow : (con.advance d.toDisplay).scrEnd ≤ d.videoMemEnd) :
    Contained d ((con.advance d.toDisplay).clearLast d.toDisplay) := by
  obtain ⟨-, -, hScrEnd⟩ := hCoords.advance_toNat
  have hSize := d.sizeRow_eq
  have hBase := hCoords.base_le
  have hOld := hCoords.scrEnd_eq
  have hLe : (con.advance d.toDisplay).scrEnd.toNat ≤ d.videoMemEnd.toNat := hWindow
  have hTarget : ((con.advance d.toDisplay).scrEnd - d.videoSizeRow).toNat = con.scrEnd.toNat := by
    rw [BitVec.toNat_sub]
    omega
  have hAdvanced : Contained d (con.advance d.toDisplay) := h
  exact hAdvanced.repStosw videoEraseChar (by omega) (by omega)

theorem Contained.lf (h : Contained d con) (hCoords : Coords d con) :
    Contained d (con.lf d.toDisplay) := by
  rw [Console.lf]
  split_ifs
  · exact h
  · rw [hCoords.scrollUp_eq]
    have hScrolled : Contained d (if d.videoMemEnd < (con.advance d.toDisplay).scrEnd
        then (con.advance d.toDisplay).copyBack d.toDisplay
        else (con.advance d.toDisplay).clearLast d.toDisplay) := by
      split_ifs with hWindow
      · exact h.copyBack hCoords
      · exact h.clearLast hCoords (BitVec.not_lt.mp hWindow)
    exact hScrolled

theorem Contained.makeRoom (h : Contained d con) (hCoords : Coords d con) :
    Contained d (con.makeRoom d.toDisplay) := by
  rw [Console.makeRoom]
  split_ifs with hX
  · have hXLe := hCoords.x_le
    have hMoved : Contained d { con with
        x := con.x - d.videoNumColumns, pos := con.pos - d.videoSizeRow } := h
    exact hMoved.lf (hCoords.wrapped hX (by omega) hCoords.pos_eq)
  · exact h

theorem Contained.printable (h : Contained d con) (hCoords : Coords d con) (c : BitVec 8) :
    Contained d (con.printable d.toDisplay c) := by
  have hFits := hCoords.makeRoom.pos_fits hCoords.makeRoom_x
  have hNext : ((con.makeRoom d.toDisplay).pos + 1).toNat =
      (con.makeRoom d.toDisplay).pos.toNat + 1 := by
    have hSpare := d.spare
    rw [BitVec.toNat_add]
    change (_ + 1) % 2 ^ 32 = _
    omega
  have hChar : Contained d ((con.makeRoom d.toDisplay).storeByte
      (con.makeRoom d.toDisplay).pos c) :=
    (h.makeRoom hCoords).block (n := 1) rfl hFits.1 (by omega)
  exact hChar.block (n := 1) rfl (by rw [hNext]; omega) (by rw [hNext]; omega)

theorem Contained.del (h : Contained d con) (hCoords : Coords d con) : Contained d con.del := by
  rw [Console.del]
  split_ifs with hX
  · have hLeft := hCoords.left hX con.mem con.touched
    have hXLe := hCoords.x_le
    have hNe := BitVec.toNat_ne.mp hX
    have hPred : (con.x - 1).toNat < d.videoNumColumns.toNat := by
      rw [BitVec.toNat_sub]
      change (2 ^ 32 - 1 + con.x.toNat) % 2 ^ 32 < _
      change con.x.toNat ≠ 0 at hNe
      omega
    have hFits := hLeft.pos_fits hPred
    exact h.block rfl hFits.1 hFits.2
  · exact h

theorem Contained.tab (h : Contained d con) (hCoords : Coords d con)
    (hColumns : 8 ≤ d.videoNumColumns.toNat) : Contained d (con.tab d.toDisplay) := by
  obtain ⟨x, pos, hMoved, hTab | hTab⟩ := hCoords.tab_cases hColumns
  · exact hTab ▸ h
  · have hSame : Contained d { con with x := x, pos := pos } := h
    exact hTab ▸ hSame.lf hMoved

theorem Contained.backspace (h : Contained d con) : Contained d con.backspace := by
  rw [Console.backspace]
  split_ifs
  · exact h
  · exact h

theorem Contained.printChar (h : Contained d con) (hCoords : Coords d con) (c : BitVec 8) :
    Contained d (con.printChar d.toDisplay c) := by
  rw [Console.printChar]
  split_ifs
  · exact h.printable hCoords c
  · exact h.lf hCoords
  · exact h
  · exact h.del hCoords
  · exact h.backspace
  · exact h

theorem Contained.writeChar (h : Contained d con) (hCoords : Coords d con)
    (hColumns : 8 ≤ d.videoNumColumns.toNat) (c : BitVec 8) :
    Contained d (con.writeChar d.toDisplay c) := by
  rw [Console.writeChar]
  split_ifs
  · exact h.printable hCoords c
  · exact h.lf hCoords
  · exact h
  · exact h.del hCoords
  · exact h.backspace
  · exact h.tab hCoords hColumns
  · exact h

end Touched

/-- A call of one of the two ways to put text on the screen. `con_write` takes its
text from `write_q`, which can hold anything. -/
inductive ConsoleCall where
  | print (buf : List (BitVec 8))
  | write (writeQ : TtyQueue)

/-- One call of one of the two output paths. -/
def ConsoleCall.exec (d : Display) (con : Console) : ConsoleCall → Console
  | print buf => con.conPrint d buf
  | write writeQ => (con.conWrite d writeQ).1

/-- The console after the calls, one after another. -/
def ConsoleCall.run (d : Display) (con : Console) (calls : List ConsoleCall) : Console :=
  calls.foldl (exec d) con

/-- Sound coordinates, and no byte outside video memory used so far. -/
structure Safe (d : TextMode) (con : Console) : Prop where
  coords : Coords d con
  contained : Contained d con

section Runs

variable {d : TextMode} {con : Console}

theorem Safe.home {origX origY : BitVec 32} (hX : origX ≤ d.videoNumColumns)
    (hY : origY < d.videoNumLines) (mem : Memory) (crtc : Crtc) :
    Safe d ((Console.cleared mem crtc).home d.toDisplay origX origY) where
  coords := Coords.home hX hY _
  contained := by
    have hNone : Contained d (Console.cleared mem crtc) := fun a ha => absurd ha List.not_mem_nil
    exact hNone.home origX origY

/-- The rest of `con_init`: the description goes to the end of the second row. -/
theorem Safe.conInit (boot : BootVideo) (hCols : boot.videoCols ≠ 0) (hLines : boot.videoLines ≠ 0)
    (hFits : boot.display.videoMemBase.toNat +
      boot.videoLines.toNat * (2 * boot.videoCols.toNat) ≤ boot.display.videoMemEnd.toNat)
    (hTwo : 2 ≤ boot.videoCols.toNat) (hX : boot.origX ≤ boot.videoCols) (hY : boot.origY < boot.videoLines)
    (mem : Memory) (crtc : Crtc) :
    Safe (boot.textMode hCols hLines hFits) ((Console.cleared mem crtc).conInit boot) := by
  have hColumns : (boot.videoCols.setWidth 32 : BitVec 32).toNat = boot.videoCols.toNat := by
    rw [BitVec.toNat_setWidth, Nat.mod_eq_of_lt (by omega)]
  have hBase : boot.display.videoMemBase.toNat + 0x2000 ≤ boot.display.videoMemEnd.toNat ∧
      boot.display.videoMemEnd.toNat ≤ 0xc0000 := by
    simp only [BootVideo.display]
    split_ifs <;> decide
  have hRow : boot.display.videoSizeRow.toNat = 2 * boot.videoCols.toNat :=
    (boot.textMode hCols hLines hFits).sizeRow_eq.trans (congrArg (2 * ·) hColumns)
  have hSmall := boot.videoCols.isLt
  have hPtr : (boot.display.videoMemBase + boot.display.videoSizeRow * 2 - 8).toNat =
      boot.display.videoMemBase.toNat + 4 * boot.videoCols.toNat - 8 := by
    have hTwice : (boot.display.videoSizeRow * 2).toNat = 4 * boot.videoCols.toNat := by
      rw [BitVec.toNat_mul, hRow, show (2 : BitVec 32).toNat = 2 from rfl, Nat.mod_eq_of_lt (by omega)]
      omega
    rw [BitVec.toNat_sub, BitVec.toNat_add, hTwice, show (8 : BitVec 32).toNat = 8 from rfl]
    omega
  have hDesc : boot.displayDesc.length = 4 := by
    simp only [BootVideo.displayDesc]
    split_ifs <;> rfl
  have hNone : Contained (boot.textMode hCols hLines hFits) (Console.cleared mem crtc) :=
    fun a ha => absurd ha List.not_mem_nil
  have hDescribed := hNone.describe (boot.display.videoMemBase + boot.display.videoSizeRow * 2 - 8)
    boot.displayDesc
    (by change boot.display.videoMemBase.toNat ≤ _; omega)
    (by change _ ≤ boot.display.videoMemEnd.toNat; omega)
  have hXLe : (boot.origX.setWidth 32 : BitVec 32) ≤ boot.videoCols.setWidth 32 := by
    rw [BitVec.le_def, hColumns, BitVec.toNat_setWidth, Nat.mod_eq_of_lt (by omega)]
    exact hX
  have hYLess : (boot.origY.setWidth 32 : BitVec 32) < boot.videoLines.setWidth 32 := by
    rw [BitVec.lt_def, BitVec.toNat_setWidth, BitVec.toNat_setWidth, Nat.mod_eq_of_lt (by omega),
      Nat.mod_eq_of_lt (by omega)]
    exact hY
  exact ⟨Coords.home hXLe hYLess _, hDescribed.home _ _⟩

theorem Safe.printChars (h : Safe d con) (buf : List (BitVec 8)) :
    Safe d (buf.foldl (Console.printChar d.toDisplay) con) := by
  induction buf generalizing con with
  | nil => exact h
  | cons c buf ih => exact ih ⟨h.coords.printChar c, h.contained.printChar h.coords c⟩

theorem Safe.drain (h : Safe d con) (hColumns : 8 ≤ d.videoNumColumns.toNat) (nr : Nat)
    (q : TtyQueue) : Safe d (con.drain d.toDisplay nr q).1 := by
  induction nr generalizing con q with
  | zero => exact h
  | succ nr ih =>
      exact ih ⟨h.coords.writeChar hColumns _, h.contained.writeChar h.coords hColumns _⟩ _

theorem Safe.exec (h : Safe d con) (hColumns : 8 ≤ d.videoNumColumns.toNat)
    (call : ConsoleCall) : Safe d (call.exec d.toDisplay con) := by
  cases call with
  | print buf =>
      have hChars := h.printChars buf
      rw [ConsoleCall.exec, Console.conPrint, hChars.coords.gotoxy_self]
      exact ⟨hChars.coords.setCursor, hChars.contained⟩
  | write writeQ => exact h.drain hColumns _ _

/-- Any calls one after the other. -/
theorem Safe.run (h : Safe d con) (hColumns : 8 ≤ d.videoNumColumns.toNat)
    (calls : List ConsoleCall) : Safe d (ConsoleCall.run d.toDisplay con calls) := by
  induction calls generalizing con with
  | nil => exact h
  | cons call calls ih => exact ih (h.exec hColumns call)

end Runs

/-- After any calls from `con_init` on, and after every further character of a
`con_print` or a `con_write`, the coordinates are sound and only video memory has
been used; the `gotoxy` at the end of `con_print` finds everything in place. -/
theorem console_coordinates (d : TextMode) (hColumns : 8 ≤ d.videoNumColumns.toNat)
    (mem : Memory) (crtc : Crtc) {origX origY : BitVec 32} (hX : origX ≤ d.videoNumColumns)
    (hY : origY < d.videoNumLines) (calls : List ConsoleCall) :
    let con := ConsoleCall.run d.toDisplay
      ((Console.cleared mem crtc).home d.toDisplay origX origY) calls
    Safe d con ∧
      (∀ buf : List (BitVec 8), let printed := buf.foldl (Console.printChar d.toDisplay) con
        Safe d printed ∧ printed.gotoxy d.toDisplay printed.x printed.y = printed) ∧
      ∀ nr writeQ, Safe d (con.drain d.toDisplay nr writeQ).1 := by
  have hRun := (Safe.home hX hY mem crtc).run hColumns calls
  refine ⟨hRun, ?_, fun nr writeQ => hRun.drain hColumns nr writeQ⟩
  intro buf
  have hPrinted := hRun.printChars buf
  exact ⟨hPrinted, hPrinted.coords.gotoxy_self⟩

/-- The text mode that the firmware of a colour EGA leaves, with its 32 KB. -/
def ega80x25 : TextMode :=
  BootVideo.textMode
    { origX := 0, origY := 24, videoMode := 3, videoCols := 80, videoEgaBx := 3, videoLines := 25 }
    (by decide) (by decide) (by decide)

/-- Tabs that wrap on the bottom row of that screen. -/
theorem console_coordinates_ega80x25 :
    Safe ega80x25 (ConsoleCall.run ega80x25.toDisplay
      ((Console.cleared (fun _ => 0) ⟨0, fun _ => 0⟩).home ega80x25.toDisplay 79 24)
      [.print [9#8, 65#8, 10#8], .write { head := 2, tail := 0, buf := fun _ => 9#8 }]) :=
  (console_coordinates ega80x25 (by decide) (fun _ => 0) ⟨0, fun _ => 0⟩ (by decide) (by decide)
    [.print [9#8, 65#8, 10#8], .write { head := 2, tail := 0, buf := fun _ => 9#8 }]).1

end Linux011

import Linux011.Library.Terminal
import Linux011.ChrDrv.Contained

/-! `con_print` refines a plain terminal. The window moves through video memory and
back to its start; what it shows is the grid of the terminal all the time. -/
namespace Linux011

open ByteMemory

/-- A character and its attribute. -/
abbrev Cell := BitVec 8 × BitVec 8

/-- The cell that `video_erase_char` stands for. -/
def eraseCell : Cell := (0x20#8, 0x07#8)

/-- What a byte asks of a terminal. Bytes that are no ASCII, tabs and the remaining
control characters ask nothing. -/
def byteActions (c : BitVec 8) : List (Terminal.Action Cell) :=
  if 32 ≤ c.toNat ∧ c.toNat ≤ 126 then [.put (c, 0x07#8)]
  else if c = 10 ∨ c = 11 ∨ c = 12 then [.lineFeed]
  else if c = 13 then [.carriageReturn]
  else if c = 127 then [.rubout]
  else if c = 8 then [.backspace]
  else []

/-- A terminal of the size of the display, after the bytes `buf`. -/
def typeBytes (d : Display) (t : Terminal Cell) (buf : List (BitVec 8)) : Terminal Cell :=
  t.run d.videoNumLines.toNat d.videoNumColumns.toNat eraseCell (buf.flatMap byteActions)

theorem typeBytes_append (d : Display) (t : Terminal Cell) (buf buf' : List (BitVec 8)) :
    typeBytes d t (buf ++ buf') = typeBytes d (typeBytes d t buf) buf' := by
  rw [typeBytes, List.flatMap_append, Terminal.run_append]
  rfl

/-- The cell in row `r` and column `c` of the window. -/
def Console.cell (d : Display) (con : Console) (r c : Nat) : Cell :=
  let addr := con.origin.toNat + r * d.videoSizeRow.toNat + 2 * c
  (con.mem addr, con.mem (addr + 1))

/-- The terminal that shows what the console shows. -/
def Console.terminal (d : Display) (con : Console) : Terminal Cell where
  grid := con.cell d
  x := con.x.toNat
  y := con.y.toNat

/-- The window and the cursor of the console are those of the terminal. -/
structure Shows (d : TextMode) (con : Console) (t : Terminal Cell) : Prop where
  x_eq : con.x.toNat = t.x
  y_eq : con.y.toNat = t.y
  grid_eq : ∀ r c, r < d.videoNumLines.toNat → c < d.videoNumColumns.toNat →
    con.cell d.toDisplay r c = t.grid r c

section Cells

variable {d : TextMode} {con : Console}

theorem rowInside (row : Nat) {r n : Nat} (h : r < n) : r * row + row ≤ n * row := by
  rw [← Nat.succ_mul]
  exact Nat.mul_le_mul_right _ h

theorem fillUp16_erase (m : Memory) (a count : Nat) {c : Nat} (hc : c < count) :
    (fillUp16 m videoEraseChar a count (a + 2 * c),
      fillUp16 m videoEraseChar a count (a + 2 * c + 1)) = eraseCell := by
  have hLow := fillUp16_byte m videoEraseChar a count hc (k := 0) (by omega)
  have hHigh := fillUp16_byte m videoEraseChar a count hc (k := 1) (by omega)
  rw [Nat.add_zero] at hLow
  rw [hLow, hHigh]
  rfl

/-- A row is cleared behind the window, and the window moves onto it. -/
theorem Coords.cell_clearLast (h : Coords d con) {r c : Nat}
    (hr : r < d.videoNumLines.toNat) (hc : c < d.videoNumColumns.toNat) :
    ((con.advance d.toDisplay).clearLast d.toDisplay).cell d.toDisplay r c =
      if r + 1 < d.videoNumLines.toNat then con.cell d.toDisplay (r + 1) c else eraseCell := by
  obtain ⟨hOrigin, -, hScrEnd⟩ := h.advance_toNat
  have hSize := d.sizeRow_eq
  have hOld := h.scrEnd_eq
  have hTarget : ((con.advance d.toDisplay).scrEnd - d.videoSizeRow).toNat = con.scrEnd.toNat := by
    rw [BitVec.toNat_sub]
    omega
  simp only [Console.cell, Console.clearLast, Console.repStosw, hOrigin, hTarget]
  have hRow := rowInside d.videoSizeRow.toNat hr
  rw [Nat.succ_mul r]
  split_ifs with hLast
  · have hNext := rowInside d.videoSizeRow.toNat hLast
    rw [Nat.succ_mul] at hNext
    rw [fillUp16_outside _ _ _ _ (by omega), fillUp16_outside _ _ _ _ (by omega)]
    rw [show con.origin.toNat + d.videoSizeRow.toNat + r * d.videoSizeRow.toNat + 2 * c =
      con.origin.toNat + (r * d.videoSizeRow.toNat + d.videoSizeRow.toNat) + 2 * c by omega]
    rfl
  · have hBottom : r + 1 = d.videoNumLines.toNat := by omega
    have hMul : r * d.videoSizeRow.toNat + d.videoSizeRow.toNat =
        d.videoNumLines.toNat * d.videoSizeRow.toNat := by
      rw [← hBottom, Nat.succ_mul]
    rw [show con.origin.toNat + d.videoSizeRow.toNat + r * d.videoSizeRow.toNat + 2 * c =
      con.scrEnd.toNat + 2 * c by omega]
    exact fillUp16_erase _ _ _ hc

/-- All rows but the first are copied to the start of video memory, and the row
behind them is cleared. -/
theorem Coords.cell_copyBack (h : Coords d con)
    (hEven : 2 ∣ (d.videoNumLines.toNat - 1) * d.videoNumColumns.toNat) {r c : Nat}
    (hr : r < d.videoNumLines.toNat) (hc : c < d.videoNumColumns.toNat) :
    ((con.advance d.toDisplay).copyBack d.toDisplay).cell d.toDisplay r c =
      if r + 1 < d.videoNumLines.toNat then con.cell d.toDisplay (r + 1) c else eraseCell := by
  obtain ⟨hOrigin, -, -⟩ := h.advance_toNat
  have hSize := d.sizeRow_eq
  have hBase := h.base_le
  have hCells := d.lastRow_cells
  have hCount := d.copyCount
  have hCopied : 4 * ((d.videoNumLines.toNat - 1) * d.videoNumColumns.toNat / 2) =
      (d.videoNumLines.toNat - 1) * d.videoSizeRow.toNat := by omega
  have hTarget := d.copyEnd
  rw [hCopied] at hTarget
  simp only [Console.cell, Console.copyBack, Console.repStosw, Console.repMovsl, hTarget]
  rw [Nat.succ_mul r]
  split_ifs with hLast
  · have hRow := rowInside d.videoSizeRow.toNat (show r < d.videoNumLines.toNat - 1 by omega)
    rw [fillUp16_outside _ _ _ _ (by omega), fillUp16_outside _ _ _ _ (by omega)]
    have hByte : ∀ k, k < 2 → copyUp con.mem (con.advance d.toDisplay).origin.toNat
        d.videoMemBase.toNat (((d.videoNumLines - 1) * d.videoNumColumns) >>> 1).toNat
        (d.videoMemBase.toNat + r * d.videoSizeRow.toNat + 2 * c + k) =
        con.mem (con.origin.toNat + (r * d.videoSizeRow.toNat + d.videoSizeRow.toNat) + 2 * c + k) := by
      intro k hk
      rw [show d.videoMemBase.toNat + r * d.videoSizeRow.toNat + 2 * c + k =
        d.videoMemBase.toNat + (r * d.videoSizeRow.toNat + 2 * c + k) by omega]
      rw [copyUp_inside _ _ _ _ (by omega) (by omega), hOrigin]
      congr 1
      omega
    exact Prod.ext (hByte 0 (by omega)) (hByte 1 (by omega))
  · have hBottom : r = d.videoNumLines.toNat - 1 := by omega
    rw [hBottom]
    exact fillUp16_erase _ _ _ hc

/-- A scroll drops the first row of the window and appends a row of erase cells. -/
theorem Coords.cell_scrollUp (h : Coords d con)
    (hEven : 2 ∣ (d.videoNumLines.toNat - 1) * d.videoNumColumns.toNat) {r c : Nat}
    (hr : r < d.videoNumLines.toNat) (hc : c < d.videoNumColumns.toNat) :
    (con.scrollUp d.toDisplay).cell d.toDisplay r c =
      if r + 1 < d.videoNumLines.toNat then con.cell d.toDisplay (r + 1) c else eraseCell := by
  rw [h.scrollUp_eq]
  by_cases hWindow : d.videoMemEnd < (con.advance d.toDisplay).scrEnd
  · rw [if_pos hWindow]
    exact h.cell_copyBack hEven hr hc
  · rw [if_neg hWindow]
    exact h.cell_clearLast hr hc

/-- Different cells of the window have no byte in common. -/
theorem cell_apart {row columns r c r' c' : Nat} (hSize : row = 2 * columns) (hc : c < columns)
    (hc' : c' < columns) (h : ¬(r = r' ∧ c = c')) :
    r * row + 2 * c + 1 < r' * row + 2 * c' ∨ r' * row + 2 * c' + 1 < r * row + 2 * c := by
  rcases Nat.lt_trichotomy r r' with hLess | hSame | hMore
  · have hRow := rowInside row hLess
    omega
  · subst hSame
    omega
  · have hRow := rowInside row hMore
    omega

/-- A cell is stored at `p`, the place of row `y` and column `x`. -/
theorem cell_store (d : TextMode) (con con' : Console) (value : Cell) {p x y r c : Nat}
    (hOrigin : con'.origin = con.origin)
    (hp : p = con.origin.toNat + y * d.videoSizeRow.toNat + 2 * x)
    (hx : x < d.videoNumColumns.toNat) (hc : c < d.videoNumColumns.toNat)
    (hStored : (con'.mem p, con'.mem (p + 1)) = value)
    (hOther : ∀ a, a < p ∨ p + 1 < a → con'.mem a = con.mem a) :
    con'.cell d.toDisplay r c = if r = y ∧ c = x then value else con.cell d.toDisplay r c := by
  simp only [Console.cell, hOrigin]
  split_ifs with hHere
  · obtain ⟨rfl, rfl⟩ := hHere
    rw [← hp]
    exact hStored
  · have hApart := cell_apart d.sizeRow_eq hc hx hHere
    rw [hOther _ (by omega), hOther _ (by omega)]

end Cells

section Steps

variable {d : TextMode} {con : Console} {t : Terminal Cell}

theorem Shows.lf (h : Shows d con t) (hCoords : Coords d con)
    (hEven : 2 ∣ (d.videoNumLines.toNat - 1) * d.videoNumColumns.toNat) :
    Shows d (con.lf d.toDisplay) (t.lineFeed d.videoNumLines.toNat eraseCell) := by
  have hTest := hCoords.lf_test
  rw [h.y_eq] at hTest
  rw [Console.lf, Terminal.lineFeed]
  split_ifs with hRow hTerminal hTerminal
  · refine ⟨h.x_eq, ?_, h.grid_eq⟩
    dsimp only
    rw [← h.y_eq, BitVec.toNat_add]
    change (con.y.toNat + 1) % 2 ^ 32 = _
    have hY := hCoords.y_lt
    omega
  · exact absurd (hTest.mp hRow) hTerminal
  · exact absurd (hTest.mpr hTerminal) hRow
  · refine ⟨?_, ?_, ?_⟩
    · rw [← h.x_eq, Console.scrollUp_x]
    · rw [← h.y_eq, Console.scrollUp_y]
    · intro r c hr hc
      dsimp only
      rw [hCoords.cell_scrollUp hEven hr hc]
      split_ifs with hLast
      · exact h.grid_eq _ _ hLast hc
      · rfl

theorem Shows.makeRoom (h : Shows d con t) (hCoords : Coords d con)
    (hEven : 2 ∣ (d.videoNumLines.toNat - 1) * d.videoNumColumns.toNat) :
    Shows d (con.makeRoom d.toDisplay)
      (t.wrap d.videoNumLines.toNat d.videoNumColumns.toNat eraseCell) := by
  have hX := h.x_eq
  rw [Console.makeRoom, Terminal.wrap, ← hX]
  split_ifs with hFull hTerminal hTerminal
  · have hXLe := hCoords.x_le
    have hMoved : Shows d { con with
        x := con.x - d.videoNumColumns, pos := con.pos - d.videoSizeRow } { t with x := 0 } := by
      refine ⟨?_, h.y_eq, h.grid_eq⟩
      dsimp only
      rw [BitVec.le_antisymm hXLe hFull, BitVec.sub_self]
      rfl
    exact hMoved.lf (hCoords.wrapped hFull (by omega) hCoords.pos_eq) hEven
  · exact absurd hFull hTerminal
  · exact absurd hTerminal hFull
  · exact h

/-- A character is stored under the cursor, and the cursor moves behind it. -/
theorem Shows.shown (h : Shows d con t) (hCoords : Coords d con)
    (hX : con.x.toNat < d.videoNumColumns.toNat) (c : BitVec 8) :
    let stored := (con.storeByte con.pos c).storeByte (con.pos + 1) (attr.setWidth 8)
    Shows d { stored with pos := stored.pos + 2, x := stored.x + 1 }
      { t.setCell (c, 0x07#8) with x := t.x + 1 } := by
  have hFits := hCoords.pos_fits hX
  have hSpare := d.spare
  have hSize := d.sizeRow_eq
  have hNext : (con.pos + 1).toNat = con.pos.toNat + 1 := by
    rw [BitVec.toNat_add]
    change (con.pos.toNat + 1) % 2 ^ 32 = _
    omega
  have hXNext : (con.x + 1).toNat = con.x.toNat + 1 := by
    rw [BitVec.toNat_add]
    change (con.x.toNat + 1) % 2 ^ 32 = _
    omega
  refine ⟨hXNext.trans (congrArg (· + 1) h.x_eq), h.y_eq, ?_⟩
  intro r k hr hk
  dsimp only [Terminal.setCell]
  rw [cell_store d con _ (c, 0x07#8) ?_ hCoords.pos_eq hX hk, h.x_eq, h.y_eq, h.grid_eq r k hr hk]
  · simp only [Console.storeByte, hNext, Function.update_self]
    rw [Function.update_of_ne (by omega), Function.update_self]
    rfl
  · intro a ha
    simp only [Console.storeByte, hNext]
    rw [Function.update_of_ne (by omega), Function.update_of_ne (by omega)]
  · rfl

theorem Shows.printable (h : Shows d con t) (hCoords : Coords d con)
    (hEven : 2 ∣ (d.videoNumLines.toNat - 1) * d.videoNumColumns.toNat) (c : BitVec 8) :
    Shows d (con.printable d.toDisplay c)
      (t.put d.videoNumLines.toNat d.videoNumColumns.toNat eraseCell (c, 0x07#8)) :=
  (h.makeRoom hCoords hEven).shown hCoords.makeRoom hCoords.makeRoom_x c

theorem Shows.cr (h : Shows d con t) : Shows d con.cr { t with x := 0 } :=
  ⟨rfl, h.y_eq, h.grid_eq⟩

theorem x_pred {x : BitVec 32} (h : x ≠ 0) : (x - 1).toNat = x.toNat - 1 := by
  have hNe := BitVec.toNat_ne.mp h
  change x.toNat ≠ 0 at hNe
  rw [BitVec.toNat_sub]
  change (2 ^ 32 - 1 + x.toNat) % 2 ^ 32 = _
  omega

theorem Shows.x_zero (h : Shows d con t) : con.x = 0 ↔ t.x = 0 := by
  rw [← h.x_eq]
  exact BitVec.toNat_inj.symm

theorem Shows.left (h : Shows d con t) (hX : con.x ≠ 0) :
    Shows d { con with x := con.x - 1, pos := con.pos - 2 } t.left := by
  refine ⟨?_, h.y_eq, h.grid_eq⟩
  rw [Terminal.left, ← h.x_eq]
  exact x_pred hX

theorem Shows.backspace (h : Shows d con t) : Shows d con.backspace t.left := by
  rw [Console.backspace]
  split_ifs with hX
  · exact h.left hX
  · refine ⟨?_, h.y_eq, h.grid_eq⟩
    have hZero := h.x_zero.mp (not_not.mp hX)
    rw [h.x_eq, Terminal.left, hZero]

/-- The cell under the cursor is erased. -/
theorem Shows.erased (h : Shows d con t) (hCoords : Coords d con)
    (hX : con.x.toNat < d.videoNumColumns.toNat) :
    Shows d (con.storeWord con.pos videoEraseChar) (t.setCell eraseCell) := by
  refine ⟨h.x_eq, h.y_eq, ?_⟩
  intro r k hr hk
  dsimp only [Terminal.setCell]
  rw [cell_store d con _ eraseCell ?_ hCoords.pos_eq hX hk, h.x_eq, h.y_eq, h.grid_eq r k hr hk]
  · have hLow := store16_byte con.mem con.pos.toNat videoEraseChar (k := 0) (by omega)
    have hHigh := store16_byte con.mem con.pos.toNat videoEraseChar (k := 1) (by omega)
    rw [Nat.add_zero] at hLow
    dsimp only [Console.storeWord]
    rw [hLow, hHigh]
    rfl
  · intro a ha
    exact store16_outside _ _ _ (by omega)
  · rfl

theorem Shows.del (h : Shows d con t) (hCoords : Coords d con) :
    Shows d con.del (t.rubout eraseCell) := by
  rw [Console.del, Terminal.rubout]
  split_ifs with hX hZero hZero
  · exact absurd (h.x_zero.mpr hZero) hX
  · have hColumn : (con.x - 1).toNat < d.videoNumColumns.toNat := by
      have hXLe := hCoords.x_le
      have hNe := BitVec.toNat_ne.mp hX
      change con.x.toNat ≠ 0 at hNe
      rw [x_pred hX]
      omega
    exact (h.left hX).erased (hCoords.left hX con.mem con.touched) hColumn
  · exact h
  · exact absurd (h.x_zero.mp (not_not.mp hX)) hZero

theorem Shows.printChar (h : Shows d con t) (hCoords : Coords d con)
    (hEven : 2 ∣ (d.videoNumLines.toNat - 1) * d.videoNumColumns.toNat) (c : BitVec 8) :
    Shows d (con.printChar d.toDisplay c) (typeBytes d.toDisplay t [c]) := by
  have hPrintable : (31 < c.toInt ∧ c.toInt < 127) ↔ (32 ≤ c.toNat ∧ c.toNat ≤ 126) := by
    rw [BitVec.toInt_eq_toNat_cond]
    split_ifs <;> omega
  simp only [typeBytes, List.flatMap_cons, List.flatMap_nil, List.append_nil, byteActions,
    Console.printChar, hPrintable]
  split_ifs
  · exact h.printable hCoords hEven c
  · exact h.lf hCoords hEven
  · exact h.cr
  · exact h.del hCoords
  · exact h.backspace
  · exact h

theorem Shows.printChars (h : Shows d con t) (hCoords : Coords d con)
    (hEven : 2 ∣ (d.videoNumLines.toNat - 1) * d.videoNumColumns.toNat) (buf : List (BitVec 8)) :
    Coords d (buf.foldl (Console.printChar d.toDisplay) con) ∧
      Shows d (buf.foldl (Console.printChar d.toDisplay) con) (typeBytes d.toDisplay t buf) := by
  induction buf generalizing con t with
  | nil => exact ⟨hCoords, h⟩
  | cons c buf ih =>
      have hRest := ih (h.printChar hCoords hEven c) (hCoords.printChar c)
      rw [← typeBytes_append] at hRest
      exact hRest

theorem Shows.conPrint (h : Shows d con t) (hCoords : Coords d con)
    (hEven : 2 ∣ (d.videoNumLines.toNat - 1) * d.videoNumColumns.toNat) (buf : List (BitVec 8)) :
    Coords d (con.conPrint d.toDisplay buf) ∧
      Shows d (con.conPrint d.toDisplay buf) (typeBytes d.toDisplay t buf) := by
  obtain ⟨hCoordsEnd, hShowsEnd⟩ := h.printChars hCoords hEven buf
  rw [Console.conPrint, hCoordsEnd.gotoxy_self]
  exact ⟨hCoordsEnd.setCursor, hShowsEnd.x_eq, hShowsEnd.y_eq, hShowsEnd.grid_eq⟩

theorem Shows.conPrints (h : Shows d con t) (hCoords : Coords d con)
    (hEven : 2 ∣ (d.videoNumLines.toNat - 1) * d.videoNumColumns.toNat)
    (bufs : List (List (BitVec 8))) :
    Coords d (bufs.foldl (Console.conPrint d.toDisplay) con) ∧
      Shows d (bufs.foldl (Console.conPrint d.toDisplay) con)
        (bufs.foldl (typeBytes d.toDisplay) t) := by
  induction bufs generalizing con t with
  | nil => exact ⟨hCoords, h⟩
  | cons buf bufs ih =>
      obtain ⟨hCoordsEnd, hShowsEnd⟩ := h.conPrint hCoords hEven buf
      exact ih hShowsEnd hCoordsEnd

end Steps

theorem Console.shows_terminal (d : TextMode) (con : Console) :
    Shows d con (con.terminal d.toDisplay) :=
  ⟨rfl, rfl, fun _ _ _ _ => rfl⟩

/-- From `con_init` on, after any `con_print` calls and after every further character
of one, the window and the cursor are those of a terminal that started with the
same screen and was given the same bytes. -/
theorem console_refines_terminal (d : TextMode) (hLines : d.videoNumLines = 25) (mem : Memory)
    (crtc : Crtc) {origX origY : BitVec 32} (hX : origX ≤ d.videoNumColumns)
    (hY : origY < d.videoNumLines) (bufs : List (List (BitVec 8))) (buf : List (BitVec 8)) :
    let start := (Console.cleared mem crtc).home d.toDisplay origX origY
    let con := bufs.foldl (Console.conPrint d.toDisplay) start
    let t := bufs.foldl (typeBytes d.toDisplay) (start.terminal d.toDisplay)
    (Coords d con ∧ Shows d con t) ∧
      Coords d (buf.foldl (Console.printChar d.toDisplay) con) ∧
      Shows d (buf.foldl (Console.printChar d.toDisplay) con) (typeBytes d.toDisplay t buf) := by
  have hEven : 2 ∣ (d.videoNumLines.toNat - 1) * d.videoNumColumns.toNat := by
    rw [hLines]
    exact Dvd.dvd.mul_right (by decide) _
  have hCalls := (Console.shows_terminal d _).conPrints
    (Coords.home hX hY (Console.cleared mem crtc)) hEven bufs
  exact ⟨hCalls, hCalls.2.printChars hCalls.1 hEven buf⟩

/-- A line feed on the bottom row of a colour EGA, and a pending wrap there. -/
theorem console_refines_terminal_ega80x25 :
    let start := (Console.cleared (fun _ => 0) ⟨0, fun _ => 0⟩).home ega80x25.toDisplay 80 24
    Shows ega80x25 ([10#8, 65#8].foldl (Console.printChar ega80x25.toDisplay) start)
      (typeBytes ega80x25.toDisplay (start.terminal ega80x25.toDisplay) [10#8, 65#8]) :=
  (console_refines_terminal ega80x25 rfl (fun _ => 0) ⟨0, fun _ => 0⟩ (by decide) (by decide) []
    [10#8, 65#8]).2.2

end Linux011

import Linux011.ChrDrv.Console
import Mathlib.Tactic.Ring

/-! The coordinates of the console. `pos` is moved by increments in every branch
of the driver; the invariant ties it to the origin of the window and to the
column and the row, and keeps the window inside video memory. -/
namespace Linux011

open ByteMemory

/-- A display whose window fits into its memory, in an address space in which
the end of the row behind that memory still has an address. -/
structure TextMode extends Display where
  columns_pos : 0 < videoNumColumns.toNat
  lines_pos : 0 < videoNumLines.toNat
  sizeRow_eq : videoSizeRow.toNat = 2 * videoNumColumns.toNat
  fits : videoMemBase.toNat + videoNumLines.toNat * videoSizeRow.toNat ≤ videoMemEnd.toNat
  spare : videoMemEnd.toNat + videoSizeRow.toNat < 2 ^ 32
  ports_ne : videoPortReg ≠ videoPortVal

/-- What `con_init` sets up, if one screen fits into the memory it assumes. -/
def BootVideo.textMode (boot : BootVideo) (hCols : boot.videoCols ≠ 0) (hLines : boot.videoLines ≠ 0)
    (hFits : boot.display.videoMemBase.toNat +
      boot.videoLines.toNat * (2 * boot.videoCols.toNat) ≤ boot.display.videoMemEnd.toNat) :
    TextMode where
  toDisplay := boot.display
  columns_pos := by
    have hToNat : boot.display.videoNumColumns.toNat = boot.videoCols.toNat := by
      simp [display]; omega
    have hNe := BitVec.toNat_ne.mp hCols
    simp at hNe
    omega
  lines_pos := by
    have hToNat : boot.display.videoNumLines.toNat = boot.videoLines.toNat := by
      simp [display]; omega
    have hNe := BitVec.toNat_ne.mp hLines
    simp at hNe
    omega
  sizeRow_eq := by simp [display]; omega
  fits := by
    have hRow : boot.display.videoSizeRow.toNat = 2 * boot.videoCols.toNat := by
      simp [display]; omega
    have hLinesNat : boot.display.videoNumLines.toNat = boot.videoLines.toNat := by
      simp [display]; omega
    rw [hRow, hLinesNat]
    exact hFits
  spare := by
    have hRow : boot.display.videoSizeRow.toNat = 2 * boot.videoCols.toNat := by
      simp [display]; omega
    have hEnd : boot.display.videoMemEnd.toNat ≤ 0xc0000 := by
      simp only [display]
      split_ifs <;> decide
    omega
  ports_ne := by
    simp only [display]
    split_ifs <;> decide

/-- `con.x` and `con.y` lie on the screen, the window lies in video memory, and
`pos` and `scr_end` are where the coordinates say. -/
structure Coords (d : TextMode) (con : Console) : Prop where
  x_le : con.x.toNat ≤ d.videoNumColumns.toNat
  y_lt : con.y.toNat < d.videoNumLines.toNat
  pos_eq : con.pos.toNat =
    con.origin.toNat + con.y.toNat * d.videoSizeRow.toNat + 2 * con.x.toNat
  scrEnd_eq : con.scrEnd.toNat =
    con.origin.toNat + d.videoNumLines.toNat * d.videoSizeRow.toNat
  base_le : d.videoMemBase.toNat ≤ con.origin.toNat
  le_end : con.scrEnd.toNat ≤ d.videoMemEnd.toNat
  top_eq : con.top = 0
  bottom_eq : con.bottom = d.videoNumLines

/-- Every byte stored or copied so far lies in video memory. -/
def Contained (d : TextMode) (con : Console) : Prop :=
  ∀ a ∈ con.touched, d.videoMemBase.toNat ≤ a ∧ a < d.videoMemEnd.toNat

section Arithmetic

variable (d : TextMode)

theorem TextMode.lastRow :
    (d.videoNumLines.toNat - 1) * d.videoSizeRow.toNat + d.videoSizeRow.toNat =
      d.videoNumLines.toNat * d.videoSizeRow.toNat := by
  have hLines := d.lines_pos
  obtain ⟨n, hn⟩ : ∃ n, d.videoNumLines.toNat = n + 1 := ⟨d.videoNumLines.toNat - 1, by omega⟩
  rw [hn, Nat.add_sub_cancel, Nat.succ_mul]

theorem TextMode.lastRow_cells :
    (d.videoNumLines.toNat - 1) * d.videoSizeRow.toNat =
      2 * ((d.videoNumLines.toNat - 1) * d.videoNumColumns.toNat) := by
  rw [d.sizeRow_eq]
  ring

/-- `(video_num_lines-1)*video_num_columns>>1`. -/
theorem TextMode.copyCount :
    (((d.videoNumLines - 1) * d.videoNumColumns) >>> 1).toNat =
      (d.videoNumLines.toNat - 1) * d.videoNumColumns.toNat / 2 := by
  have hLines := d.lines_pos
  have hFits := d.fits
  have hSpare := d.spare
  have hLast := d.lastRow
  have hCells := d.lastRow_cells
  have hPred : (d.videoNumLines - 1).toNat = d.videoNumLines.toNat - 1 := by
    rw [BitVec.toNat_sub]
    change (2 ^ 32 - 1 + d.videoNumLines.toNat) % 2 ^ 32 = _
    omega
  rw [BitVec.toNat_ushiftRight, BitVec.toNat_mul, hPred, Nat.mod_eq_of_lt (by omega),
    Nat.shiftRight_eq_div_pow, pow_one]

/-- Where `rep movsl` leaves `%edi`. -/
theorem TextMode.copyEnd :
    (d.videoMemBase + (4 : BitVec 32) * (((d.videoNumLines - 1) * d.videoNumColumns) >>> 1)).toNat =
      d.videoMemBase.toNat + 4 * ((d.videoNumLines.toNat - 1) * d.videoNumColumns.toNat / 2) := by
  have hFits := d.fits
  have hSpare := d.spare
  have hLast := d.lastRow
  have hCells := d.lastRow_cells
  rw [BitVec.toNat_add, BitVec.toNat_mul, d.copyCount]
  change (d.videoMemBase.toNat + 4 * _ % 2 ^ 32) % 2 ^ 32 = _
  omega

end Arithmetic

section Window

variable {d : TextMode} {con : Console}

theorem Coords.rowBelow (h : Coords d con) :
    con.y.toNat * d.videoSizeRow.toNat + d.videoSizeRow.toNat ≤
      d.videoNumLines.toNat * d.videoSizeRow.toNat := by
  rw [← Nat.succ_mul]
  exact Nat.mul_le_mul_right _ h.y_lt

/-- A pending wrap at the end of the last row is as far as `pos` goes. -/
theorem Coords.pos_le (h : Coords d con) : con.pos.toNat ≤ d.videoMemEnd.toNat := by
  have hBelow := h.rowBelow
  have hX := h.x_le
  have hSize := d.sizeRow_eq
  have hPos := h.pos_eq
  have hScrEnd := h.scrEnd_eq
  have hEnd := h.le_end
  omega

theorem Coords.y_succ (h : Coords d con) : (con.y + 1).toNat = con.y.toNat + 1 := by
  have hY := h.y_lt
  rw [BitVec.toNat_add]
  change (con.y.toNat + 1) % 2 ^ 32 = _
  omega

/-- The three sums of `scroll_up` do not overflow. -/
theorem Coords.advance_toNat (h : Coords d con) :
    (con.advance d.toDisplay).origin.toNat = con.origin.toNat + d.videoSizeRow.toNat ∧
      (con.advance d.toDisplay).pos.toNat = con.pos.toNat + d.videoSizeRow.toNat ∧
      (con.advance d.toDisplay).scrEnd.toNat = con.scrEnd.toNat + d.videoSizeRow.toNat := by
  have hSpare := d.spare
  have hPos := h.pos_le
  have hScrEnd := h.scrEnd_eq
  have hEnd := h.le_end
  simp only [Console.advance, BitVec.toNat_add]
  omega

theorem Coords.setOrigin (h : Coords d con) : Coords d (con.setOrigin d.toDisplay) :=
  ⟨h.x_le, h.y_lt, h.pos_eq, h.scrEnd_eq, h.base_le, h.le_end, h.top_eq, h.bottom_eq⟩

theorem Coords.setCursor (h : Coords d con) : Coords d (con.setCursor d.toDisplay) :=
  ⟨h.x_le, h.y_lt, h.pos_eq, h.scrEnd_eq, h.base_le, h.le_end, h.top_eq, h.bottom_eq⟩

/-- The window that would pass the end of video memory goes back to its start. -/
theorem Coords.copyBack (h : Coords d con) :
    Coords d ((con.advance d.toDisplay).copyBack d.toDisplay) := by
  obtain ⟨hOrigin, hPosNew, hScrEndNew⟩ := h.advance_toNat
  have hFits := d.fits
  have hPos := h.pos_eq
  have hScrEnd := h.scrEnd_eq
  have hBase := h.base_le
  refine ⟨h.x_le, h.y_lt, ?_, ?_, Nat.le_refl _, ?_, h.top_eq, h.bottom_eq⟩
  all_goals
    simp only [Console.copyBack, Console.repStosw, Console.repMovsl, BitVec.toNat_sub] at *
    simp only [Console.advance] at *
    omega

/-- The window stays inside video memory when it moves down by one row. -/
theorem Coords.clearLast (h : Coords d con)
    (hEnd : (con.advance d.toDisplay).scrEnd ≤ d.videoMemEnd) :
    Coords d ((con.advance d.toDisplay).clearLast d.toDisplay) := by
  obtain ⟨hOrigin, hPosNew, hScrEndNew⟩ := h.advance_toNat
  have hPos := h.pos_eq
  have hScrEnd := h.scrEnd_eq
  have hBase := h.base_le
  have hLe : (con.advance d.toDisplay).scrEnd.toNat ≤ d.videoMemEnd.toNat := hEnd
  refine ⟨h.x_le, h.y_lt, ?_, ?_, ?_, hEnd, h.top_eq, h.bottom_eq⟩
  all_goals
    simp only [Console.clearLast, Console.repStosw]
    simp only [Console.advance] at *
    omega

/-- With the whole screen as scrolling region, the other branch is not taken. -/
theorem Coords.scrollUp_eq (h : Coords d con) :
    con.scrollUp d.toDisplay =
      Console.setOrigin d.toDisplay
        (if d.videoMemEnd < (con.advance d.toDisplay).scrEnd
          then (con.advance d.toDisplay).copyBack d.toDisplay
          else (con.advance d.toDisplay).clearLast d.toDisplay) := by
  rw [Console.scrollUp, if_pos ⟨h.top_eq, h.bottom_eq⟩]

theorem Coords.scrollUp (h : Coords d con) : Coords d (con.scrollUp d.toDisplay) := by
  rw [h.scrollUp_eq]
  apply Coords.setOrigin
  split_ifs with hEnd
  · exact h.copyBack
  · exact h.clearLast (BitVec.not_lt.mp hEnd)

/-- The test of `lf` for the bottom row. -/
theorem Coords.lf_test (h : Coords d con) :
    con.y + 1 < con.bottom ↔ con.y.toNat + 1 < d.videoNumLines.toNat := by
  rw [h.bottom_eq, BitVec.lt_def, h.y_succ]

theorem Coords.lf (h : Coords d con) : Coords d (con.lf d.toDisplay) := by
  rw [Console.lf]
  split_ifs with hTest
  · have hSpare := d.spare
    have hPos := h.pos_eq
    have hPosLe := h.pos_le
    refine ⟨h.x_le, ?_, ?_, h.scrEnd_eq, h.base_le, h.le_end, h.top_eq, h.bottom_eq⟩
    · rw [h.y_succ]
      exact h.lf_test.mp hTest
    · dsimp only
      rw [h.y_succ, Nat.succ_mul, BitVec.toNat_add]
      omega
  · exact h.scrollUp

theorem Coords.cr (h : Coords d con) : Coords d con.cr := by
  have hPos := h.pos_eq
  have hX := h.x_le
  have hSpare := d.spare
  have hSize := d.sizeRow_eq
  refine ⟨Nat.zero_le _, h.y_lt, ?_, h.scrEnd_eq, h.base_le, h.le_end, h.top_eq, h.bottom_eq⟩
  simp only [Console.cr, BitVec.toNat_sub, BitVec.toNat_shiftLeft, Nat.shiftLeft_eq, pow_one]
  change _ = con.origin.toNat + con.y.toNat * d.videoSizeRow.toNat + 2 * 0
  omega

/-- Backspace and delete move one cell to the left. -/
theorem Coords.left (h : Coords d con) (hX : con.x ≠ 0) (mem : Memory) (touched : List Nat) :
    Coords d { con with x := con.x - 1, pos := con.pos - 2, mem := mem, touched := touched } := by
  have hPos := h.pos_eq
  have hXLe := h.x_le
  have hXNat : (con.x - 1).toNat + 1 = con.x.toNat := by
    have hNe := BitVec.toNat_ne.mp hX
    rw [BitVec.toNat_sub]
    change (2 ^ 32 - 1 + con.x.toNat) % 2 ^ 32 + 1 = con.x.toNat
    change con.x.toNat ≠ 0 at hNe
    omega
  refine ⟨?_, h.y_lt, ?_, h.scrEnd_eq, h.base_le, h.le_end, h.top_eq, h.bottom_eq⟩
  · change (con.x - 1).toNat ≤ _
    omega
  · change (con.pos - 2).toNat = con.origin.toNat + con.y.toNat * d.videoSizeRow.toNat +
      2 * (con.x - 1).toNat
    rw [BitVec.toNat_sub]
    change (2 ^ 32 - 2 + con.pos.toNat) % 2 ^ 32 = _
    omega

theorem Coords.del (h : Coords d con) : Coords d con.del := by
  rw [Console.del]
  split_ifs with hX
  · exact h.left hX _ _
  · exact h

theorem Coords.backspace (h : Coords d con) : Coords d con.backspace := by
  rw [Console.backspace]
  split_ifs with hX
  · exact h.left hX _ _
  · exact h

/-- One row less and `x` columns less are the same place, as long as `pos` and `x`
agree; `x` may lie past the last column here. -/
theorem Coords.wrapped (h : Coords d con) {x pos : BitVec 32}
    (hX : d.videoNumColumns.toNat ≤ x.toNat) (hWide : x.toNat ≤ 2 * d.videoNumColumns.toNat)
    (hPos : pos.toNat = con.origin.toNat + con.y.toNat * d.videoSizeRow.toNat + 2 * x.toNat) :
    Coords d { con with x := x - d.videoNumColumns, pos := pos - d.videoSizeRow } := by
  have hSize := d.sizeRow_eq
  have hXNat : (x - d.videoNumColumns).toNat = x.toNat - d.videoNumColumns.toNat := by
    rw [BitVec.toNat_sub]
    omega
  refine ⟨?_, h.y_lt, ?_, h.scrEnd_eq, h.base_le, h.le_end, h.top_eq, h.bottom_eq⟩
  · dsimp only
    omega
  · dsimp only
    rw [hXNat, BitVec.toNat_sub]
    omega

theorem Coords.makeRoom (h : Coords d con) : Coords d (con.makeRoom d.toDisplay) := by
  rw [Console.makeRoom]
  split_ifs with hX
  · have hXLe := h.x_le
    exact (h.wrapped hX (by omega) h.pos_eq).lf
  · exact h

theorem Console.scrollUp_x (d : Display) (con : Console) : (con.scrollUp d).x = con.x := by
  rw [Console.scrollUp]
  split_ifs
  · dsimp only [Console.setOrigin]
    split_ifs <;> rfl
  · rfl

theorem Console.scrollUp_y (d : Display) (con : Console) : (con.scrollUp d).y = con.y := by
  rw [Console.scrollUp]
  split_ifs
  · dsimp only [Console.setOrigin]
    split_ifs <;> rfl
  · rfl

theorem Console.lf_x (d : Display) (con : Console) : (con.lf d).x = con.x := by
  rw [Console.lf]
  split_ifs
  · rfl
  · exact Console.scrollUp_x d con

theorem Coords.makeRoom_x (h : Coords d con) :
    (con.makeRoom d.toDisplay).x.toNat < d.videoNumColumns.toNat := by
  have hPos := d.columns_pos
  rw [Console.makeRoom]
  split_ifs with hX
  · have hEq : con.x = d.videoNumColumns := BitVec.le_antisymm h.x_le hX
    rw [Console.wrapLine, Console.lf_x, hEq, BitVec.sub_self]
    exact hPos
  · exact BitVec.not_le.mp hX

/-- Where the cursor stands there is a cell, unless a wrap is pending. -/
theorem Coords.pos_fits (h : Coords d con) (hX : con.x.toNat < d.videoNumColumns.toNat) :
    d.videoMemBase.toNat ≤ con.pos.toNat ∧ con.pos.toNat + 2 ≤ d.videoMemEnd.toNat := by
  have hBelow := h.rowBelow
  have hPos := h.pos_eq
  have hScrEnd := h.scrEnd_eq
  have hBase := h.base_le
  have hEnd := h.le_end
  have hSize := d.sizeRow_eq
  omega

/-- A character in the cell under the cursor, and the cursor behind it. -/
theorem Coords.right (h : Coords d con) (hX : con.x.toNat < d.videoNumColumns.toNat)
    (mem : Memory) (touched : List Nat) :
    Coords d { con with x := con.x + 1, pos := con.pos + 2, mem := mem, touched := touched } := by
  have hPos := h.pos_eq
  have hFits := h.pos_fits hX
  have hSpare := d.spare
  have hSize := d.sizeRow_eq
  have hNext : (con.x + 1).toNat = con.x.toNat + 1 := by
    rw [BitVec.toNat_add]
    change (con.x.toNat + 1) % 2 ^ 32 = _
    omega
  refine ⟨?_, h.y_lt, ?_, h.scrEnd_eq, h.base_le, h.le_end, h.top_eq, h.bottom_eq⟩
  · dsimp only
    omega
  · dsimp only
    rw [hNext, BitVec.toNat_add]
    change (con.pos.toNat + 2) % 2 ^ 32 = _
    omega

theorem Coords.printable (h : Coords d con) (c : BitVec 8) :
    Coords d (con.printable d.toDisplay c) :=
  h.makeRoom.right h.makeRoom_x _ _

/-- The distance to the next tab stop. -/
theorem tabWidth (x : BitVec 32) : 1 ≤ (8 - (x &&& 7)).toNat ∧ (8 - (x &&& 7)).toNat ≤ 8 := by
  have hMask : (x &&& 7).toNat ≤ 7 := by
    rw [BitVec.toNat_and]
    exact Nat.and_le_right
  rw [BitVec.toNat_sub]
  change 1 ≤ (2 ^ 32 - (x &&& 7).toNat + 8) % 2 ^ 32 ∧ (2 ^ 32 - (x &&& 7).toNat + 8) % 2 ^ 32 ≤ 8
  omega

/-- A tab goes at most eight columns too far, so one wrap is enough on a screen
that has eight columns. -/
theorem Coords.tab_cases (h : Coords d con) (hColumns : 8 ≤ d.videoNumColumns.toNat) :
    ∃ x pos, Coords d { con with x := x, pos := pos } ∧
      (con.tab d.toDisplay = { con with x := x, pos := pos } ∨
        con.tab d.toDisplay = Console.lf d.toDisplay { con with x := x, pos := pos }) := by
  have hPos := h.pos_eq
  have hPosLe := h.pos_le
  have hXLe := h.x_le
  have hSpare := d.spare
  have hSize := d.sizeRow_eq
  obtain ⟨-, hWidth⟩ := tabWidth con.x
  have hXNat : (con.x + (8 - (con.x &&& 7))).toNat = con.x.toNat + (8 - (con.x &&& 7)).toNat := by
    rw [BitVec.toNat_add]
    omega
  have hPosNat : (con.pos + ((8 - (con.x &&& 7)) <<< 1)).toNat =
      con.origin.toNat + con.y.toNat * d.videoSizeRow.toNat +
        2 * (con.x + (8 - (con.x &&& 7))).toNat := by
    rw [hXNat, BitVec.toNat_add, BitVec.toNat_shiftLeft, Nat.shiftLeft_eq, pow_one]
    omega
  simp only [Console.tab]
  split_ifs with hWrap
  · exact ⟨_, _, h.wrapped (Nat.le_of_lt hWrap) (by omega) hPosNat, .inr rfl⟩
  · have hTabbed : Coords d { con with
        x := con.x + (8 - (con.x &&& 7)), pos := con.pos + ((8 - (con.x &&& 7)) <<< 1) } :=
      ⟨BitVec.not_lt.mp hWrap, h.y_lt, hPosNat, h.scrEnd_eq, h.base_le, h.le_end, h.top_eq,
        h.bottom_eq⟩
    exact ⟨_, _, hTabbed, .inl rfl⟩

theorem Coords.tab (h : Coords d con) (hColumns : 8 ≤ d.videoNumColumns.toNat) :
    Coords d (con.tab d.toDisplay) := by
  obtain ⟨x, pos, hMoved, hTab | hTab⟩ := h.tab_cases hColumns
  · exact hTab ▸ hMoved
  · exact hTab ▸ hMoved.lf

theorem Coords.printChar (h : Coords d con) (c : BitVec 8) :
    Coords d (con.printChar d.toDisplay c) := by
  rw [Console.printChar]
  split_ifs
  · exact h.printable c
  · exact h.lf
  · exact h.cr
  · exact h.del
  · exact h.backspace
  · exact h

theorem Coords.writeChar (h : Coords d con) (hColumns : 8 ≤ d.videoNumColumns.toNat)
    (c : BitVec 8) : Coords d (con.writeChar d.toDisplay c) := by
  rw [Console.writeChar]
  split_ifs
  · exact h.printable c
  · exact h.lf
  · exact h.cr
  · exact h.del
  · exact h.backspace
  · exact h.tab hColumns
  · exact h

theorem Coords.home {origX origY : BitVec 32} (hX : origX ≤ d.videoNumColumns)
    (hY : origY < d.videoNumLines) (con : Console) :
    Coords d (con.home d.toDisplay origX origY) := by
  have hFits := d.fits
  have hSpare := d.spare
  have hSize := d.sizeRow_eq
  have hXLe : origX.toNat ≤ d.videoNumColumns.toNat := hX
  have hMul : origY.toNat * d.videoSizeRow.toNat + d.videoSizeRow.toNat ≤
      d.videoNumLines.toNat * d.videoSizeRow.toNat := by
    rw [← Nat.succ_mul]
    exact Nat.mul_le_mul_right _ hY
  have hInside : ¬(d.videoNumColumns < origX ∨ d.videoNumLines ≤ origY) := by
    rw [not_or, BitVec.not_lt, BitVec.not_le]
    exact ⟨hX, hY⟩
  have hScrEnd : (d.videoMemBase + d.videoNumLines * d.videoSizeRow).toNat =
      d.videoMemBase.toNat + d.videoNumLines.toNat * d.videoSizeRow.toNat := by
    rw [BitVec.toNat_add, BitVec.toNat_mul, Nat.mod_eq_of_lt (a := d.videoNumLines.toNat * _) (by omega)]
    omega
  have hPos : (d.videoMemBase + origY * d.videoSizeRow + (origX <<< 1)).toNat =
      d.videoMemBase.toNat + origY.toNat * d.videoSizeRow.toNat + 2 * origX.toNat := by
    rw [BitVec.toNat_add, BitVec.toNat_add, BitVec.toNat_mul, BitVec.toNat_shiftLeft,
      Nat.shiftLeft_eq, pow_one, Nat.mod_eq_of_lt (a := origY.toNat * _) (by omega)]
    omega
  rw [Console.home, Console.gotoxy, if_neg hInside]
  refine ⟨hX, hY, hPos, hScrEnd, Nat.le_refl _, ?_, rfl, rfl⟩
  exact hScrEnd ▸ d.fits

/-- On sound coordinates `gotoxy` computes what it finds. -/
theorem Coords.gotoxy_self (h : Coords d con) :
    con.gotoxy d.toDisplay con.x con.y = con := by
  have hPos := h.pos_eq
  have hInside : ¬(d.videoNumColumns < con.x ∨ d.videoNumLines ≤ con.y) := by
    rw [not_or, BitVec.not_lt, BitVec.not_le]
    exact ⟨h.x_le, h.y_lt⟩
  have hSame : con.origin + con.y * d.videoSizeRow + (con.x <<< 1) = con.pos := by
    apply BitVec.eq_of_toNat_eq
    rw [hPos, BitVec.toNat_add, BitVec.toNat_add, BitVec.toNat_mul, BitVec.toNat_shiftLeft,
      Nat.shiftLeft_eq, pow_one]
    have hLt := con.pos.isLt
    rw [Nat.mod_eq_of_lt (show con.y.toNat * d.videoSizeRow.toNat < 2 ^ 32 by omega)]
    omega
  rw [Console.gotoxy, if_neg hInside, hSame]

end Window

end Linux011

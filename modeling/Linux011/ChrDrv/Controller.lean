import Linux011.ChrDrv.Tty

/-! The display controller. `scroll_up` sets the start address whenever it moves
the window, but only `con_init` and `con_print` set the cursor: an echo moves
`pos` and leaves the cursor on the screen where the last message left it. -/
namespace Linux011

open ByteMemory

/-- The word in a pair of registers, upper half first. -/
def Crtc.pair (crtc : Crtc) (high low : BitVec 8) : BitVec 16 := crtc.regs high ++ crtc.regs low

/-- Registers 12 and 13 hold the cell at `origin`. -/
def StartRight (d : Display) (con : Console) : Prop :=
  con.crtc.pair 12 13 = ((con.origin - d.videoMemBase) >>> 1).setWidth 16

/-- Registers 14 and 15 hold the cell at `pos`. -/
def CursorRight (d : Display) (con : Console) : Prop :=
  con.crtc.pair 14 15 = ((con.pos - d.videoMemBase) >>> 1).setWidth 16

section Registers

/-- The two bytes that are sent to a pair of registers are the offset in cells. -/
theorem halves (offset : BitVec 32) :
    (0xff &&& (offset >>> 9)).setWidth 8 ++ (0xff &&& (offset >>> 1)).setWidth 8 =
      (offset >>> 1).setWidth 16 := by
  apply BitVec.eq_of_getLsbD_eq
  intro i hi
  have hMask : ∀ j, j < 8 → (0xff#32).getLsbD j = true := by decide
  simp only [BitVec.getLsbD_append, BitVec.getLsbD_setWidth, BitVec.getLsbD_and,
    BitVec.getLsbD_ushiftRight, hi]
  split_ifs with hLow
  · simp [hLow, hMask i hLow]
  · have hHigh : i - 8 < 8 := by omega
    have hIndex : 9 + (i - 8) = 1 + i := by omega
    simp [hHigh, hMask _ hHigh, hIndex]

variable (d : TextMode) (crtc : Crtc) (offset : BitVec 32)

theorem Crtc.setPair_regs (high low r : BitVec 8) :
    (crtc.setPair d.toDisplay high low offset).regs r =
      if r = low then (0xff &&& (offset >>> 1)).setWidth 8
      else if r = high then (0xff &&& (offset >>> 9)).setWidth 8
      else crtc.regs r := by
  have hPorts : d.videoPortVal ≠ d.videoPortReg := d.ports_ne.symm
  simp only [Crtc.setPair, Crtc.outbP, if_neg hPorts, if_true, Function.update_apply]

/-- What was sent is in the registers. -/
theorem Crtc.setPair_pair {high low : BitVec 8} (hNe : high ≠ low) :
    (crtc.setPair d.toDisplay high low offset).pair high low = (offset >>> 1).setWidth 16 := by
  rw [Crtc.pair, Crtc.setPair_regs, Crtc.setPair_regs, if_neg hNe, if_pos rfl, if_pos rfl, halves]

end Registers

section Steps

variable {d : TextMode} {con : Console}

/-- `set_origin` makes the start address right. -/
theorem StartRight.setOrigin (con : Console) :
    StartRight d.toDisplay (con.setOrigin d.toDisplay) :=
  Crtc.setPair_pair d con.crtc _ (by decide)

/-- `set_cursor` makes the cursor address right. -/
theorem CursorRight.setCursor (con : Console) :
    CursorRight d.toDisplay (con.setCursor d.toDisplay) :=
  Crtc.setPair_pair d con.crtc _ (by decide)

/-- It leaves the start address alone. -/
theorem StartRight.setCursor (h : StartRight d.toDisplay con) :
    StartRight d.toDisplay (con.setCursor d.toDisplay) := by
  have hHigh := Crtc.setPair_regs d con.crtc (con.pos - d.videoMemBase) 14 15 12
  have hLow := Crtc.setPair_regs d con.crtc (con.pos - d.videoMemBase) 14 15 13
  rw [if_neg (by decide), if_neg (by decide)] at hHigh hLow
  rw [StartRight, Crtc.pair]
  dsimp only [Console.setCursor]
  rw [hHigh, hLow]
  exact h

/-- Where `scroll_up` moves the window it sends the new origin. -/
theorem StartRight.scrollUp (h : StartRight d.toDisplay con) :
    StartRight d.toDisplay (con.scrollUp d.toDisplay) := by
  rw [Console.scrollUp]
  split_ifs
  · exact StartRight.setOrigin _
  · exact h

theorem StartRight.lf (h : StartRight d.toDisplay con) :
    StartRight d.toDisplay (con.lf d.toDisplay) := by
  rw [Console.lf]
  split_ifs
  · exact h
  · exact h.scrollUp

theorem StartRight.wrapLine (h : StartRight d.toDisplay con) :
    StartRight d.toDisplay (con.wrapLine d.toDisplay) := by
  have hMoved : StartRight d.toDisplay { con with
      x := con.x - d.videoNumColumns, pos := con.pos - d.videoSizeRow } := h
  exact hMoved.lf

theorem StartRight.printable (h : StartRight d.toDisplay con) (c : BitVec 8) :
    StartRight d.toDisplay (con.printable d.toDisplay c) := by
  have hRoom : StartRight d.toDisplay (con.makeRoom d.toDisplay) := by
    rw [Console.makeRoom]
    split_ifs
    · exact h.wrapLine
    · exact h
  exact hRoom

theorem StartRight.tab (h : StartRight d.toDisplay con) :
    StartRight d.toDisplay (con.tab d.toDisplay) := by
  have hMoved : StartRight d.toDisplay { con with
      x := con.x + (8 - (con.x &&& 7)), pos := con.pos + ((8 - (con.x &&& 7)) <<< 1) } := h
  simp only [Console.tab]
  split_ifs
  · exact hMoved.wrapLine
  · exact hMoved

theorem StartRight.del (h : StartRight d.toDisplay con) : StartRight d.toDisplay con.del := by
  rw [Console.del]
  split_ifs
  · exact h
  · exact h

theorem StartRight.backspace (h : StartRight d.toDisplay con) :
    StartRight d.toDisplay con.backspace := by
  rw [Console.backspace]
  split_ifs
  · exact h
  · exact h

theorem StartRight.writeChar (h : StartRight d.toDisplay con) (c : BitVec 8) :
    StartRight d.toDisplay (con.writeChar d.toDisplay c) := by
  rw [Console.writeChar]
  split_ifs
  · exact h.printable c
  · exact h.lf
  · exact h
  · exact h.del
  · exact h.backspace
  · exact h.tab
  · exact h

theorem StartRight.printChar (h : StartRight d.toDisplay con) (c : BitVec 8) :
    StartRight d.toDisplay (con.printChar d.toDisplay c) := by
  by_cases hTab : c = 9
  · rw [hTab]
    exact Console.printChar_tab d.toDisplay con ▸ h
  · rw [← Console.writeChar_eq d.toDisplay con hTab]
    exact h.writeChar c

theorem StartRight.conPrint (h : StartRight d.toDisplay con) (buf : List (BitVec 8)) :
    StartRight d.toDisplay (con.conPrint d.toDisplay buf) := by
  have hChars : StartRight d.toDisplay (buf.foldl (Console.printChar d.toDisplay) con) := by
    induction buf generalizing con with
    | nil => exact h
    | cons c buf ih => exact ih (h.printChar c)
  rw [Console.conPrint]
  apply StartRight.setCursor
  rw [Console.gotoxy]
  split_ifs
  · exact hChars
  · exact hChars

theorem StartRight.drain (h : StartRight d.toDisplay con) (nr : Nat) (q : TtyQueue) :
    StartRight d.toDisplay (con.drain d.toDisplay nr q).1 := by
  induction nr generalizing con q with
  | zero => exact h
  | succ nr ih => exact ih (h.writeChar _) _

/-- `con_init` does not write the start address; the firmware left it at page 0. -/
theorem StartRight.home {crtc : Crtc} (hPage : crtc.pair 12 13 = 0) (mem : Memory)
    (origX origY : BitVec 32) :
    StartRight d.toDisplay ((Console.cleared mem crtc).home d.toDisplay origX origY) := by
  have hBase : (0 : BitVec 16) =
      ((d.videoMemBase - d.videoMemBase) >>> 1).setWidth 16 := by
    rw [BitVec.sub_self]
    decide
  rw [Console.home]
  apply StartRight.setCursor
  rw [Console.gotoxy]
  split_ifs
  · exact hPage.trans hBase
  · exact hPage.trans hBase

end Steps

/-- Calls of `con_print` and echoes of whatever the keyboard put into `read_q`, one
after another; `allowed` restricts the echoes. -/
inductive Session (d : Display) (allowed : Console → TtyQueue → Prop) (start : Tty) : Tty → Prop where
  | start : Session d allowed start start
  | print {tty : Tty} (prior : Session d allowed start tty) (buf : List (BitVec 8)) :
      Session d allowed start (tty.ttyWrite d buf)
  | echo {tty tty' : Tty} (prior : Session d allowed start tty) (readQ : TtyQueue) {fuel : Nat}
      (hAllowed : allowed tty.con readQ)
      (last : Tty.copyToCooked d fuel { tty with readQ := readQ } = .ok tty') :
      Session d allowed start tty'

/-- An echo with nothing to show: no character waits, or the cursor is in column 0
and only asked to go further to the left. -/
def Quiet (con : Console) (readQ : TtyQueue) : Prop :=
  ∃ cs, readQ.Holds cs ∧ (cs = [] ∨ con.x = 0) ∧ ∀ c ∈ cs, c = 8 ∨ c = 13 ∨ c = 127

section Runs

variable {d : TextMode} {tty tty' : Tty}

/-- A whole echo leaves the start address right. -/
theorem StartRight.copyToCooked (h : StartRight d.toDisplay tty.con) {fuel : Nat}
    (hEcho : Tty.copyToCooked d.toDisplay fuel tty = .ok tty') :
    StartRight d.toDisplay tty'.con := by
  induction fuel generalizing tty with
  | zero => cases hEcho
  | succ fuel ih =>
      rw [Tty.copyToCooked] at hEcho
      split_ifs at hEcho
      · cases hEcho
        exact h
      · refine ih ?_ hEcho
        rw [Tty.conWrite, Tty.cook_con]
        exact StartRight.drain h _ _

theorem Console.cr_eq {con : Console} (hX : con.x = 0) : con.cr = con := by
  have hPos : con.pos - (con.x <<< 1) = con.pos := by
    rw [hX]
    exact BitVec.sub_zero _
  rw [Console.cr, hPos, ← hX]

/-- In column 0 these three go nowhere. -/
theorem echo_quiet (d : Display) {con : Console} (hX : con.x = 0) {c : BitVec 8}
    (hc : c = 8 ∨ c = 13 ∨ c = 127) : (echoed c).foldl (Console.writeChar d) con = con := by
  rcases hc with rfl | rfl | rfl
  · have hStep : con.writeChar d 8 = con.backspace := by simp [Console.writeChar]
    change con.writeChar d 8 = con
    rw [hStep, Console.backspace, if_neg (not_not.mpr hX)]
  · have hStep : con.writeChar d 13 = con.cr := by simp [Console.writeChar]
    change con.writeChar d 13 = con
    rw [hStep, Console.cr_eq hX]
  · have hStep : con.writeChar d 127 = con.del := by simp [Console.writeChar]
    change con.writeChar d 127 = con
    rw [hStep, Console.del, if_neg (not_not.mpr hX)]

/-- A quiet echo leaves the console as it was. -/
theorem Tty.Cooked.quiet {cs : List (BitVec 8)} (h : tty.Cooked []) (hRead : tty.readQ.Holds cs)
    (hX : cs = [] ∨ tty.con.x = 0) (hCs : ∀ c ∈ cs, c = 8 ∨ c = 13 ∨ c = 127) {fuel : Nat}
    (hEcho : Tty.copyToCooked d.toDisplay fuel tty = .ok tty') :
    tty'.Cooked [] ∧ tty'.con = tty.con := by
  induction cs generalizing tty fuel with
  | nil =>
      cases fuel with
      | zero => cases hEcho
      | succ fuel =>
          rw [Tty.copyToCooked, if_pos (hRead.empty_iff.mpr rfl)] at hEcho
          cases hEcho
          exact ⟨h, rfl⟩
  | cons c cs ih =>
      cases fuel with
      | zero => cases hEcho
      | succ fuel =>
          have hZero := hX.resolve_left (List.cons_ne_nil c cs)
          have hc := hCs c List.mem_cons_self
          obtain ⟨next, hNext, hNextRead, hCon, hTurn⟩ := h.turn (d := d.toDisplay) hRead
          rw [echo_quiet d.toDisplay hZero hc] at hCon
          rw [hTurn] at hEcho
          have hRest := ih hNext hNextRead (.inr (hCon ▸ hZero))
            (fun c' hc' => hCs c' (List.mem_cons_of_mem c hc')) hEcho
          rw [hCon] at hRest
          exact hRest

end Runs

/-- In every run the start address is that of the window, and after a `con_print` so
is the cursor address. In a run whose echoes are all quiet the cursor address is
right all the time. -/
theorem controller_follows (d : TextMode) (mem : Memory) (crtc : Crtc)
    (hPage : crtc.pair 12 13 = 0) (origX origY : BitVec 32) :
    let start := Tty.init d.toDisplay mem crtc origX origY
    (∀ tty, Session d.toDisplay (fun _ _ => True) start tty →
      StartRight d.toDisplay tty.con ∧
        ∀ buf, CursorRight d.toDisplay (tty.ttyWrite d.toDisplay buf).con) ∧
    ∀ tty, Session d.toDisplay Quiet start tty →
      StartRight d.toDisplay tty.con ∧ CursorRight d.toDisplay tty.con := by
  intro start
  have hStart : ∀ allowed tty, Session d.toDisplay allowed start tty →
      StartRight d.toDisplay tty.con := by
    intro allowed tty hSession
    induction hSession with
    | start => exact StartRight.home hPage mem origX origY
    | print prior buf ih => exact ih.conPrint buf
    | @echo tty tty' prior readQ fuel hAllowed last ih =>
        have hTaken : StartRight d.toDisplay ({ tty with readQ := readQ } : Tty).con := ih
        exact hTaken.copyToCooked last
  have hCursor : ∀ tty, Session d.toDisplay Quiet start tty →
      tty.Cooked [] ∧ CursorRight d.toDisplay tty.con := by
    intro tty hSession
    induction hSession with
    | start => exact ⟨⟨TtyQueue.holds_cleared, Nat.zero_le _⟩, CursorRight.setCursor _⟩
    | print prior buf ih => exact ⟨⟨ih.1.holds, ih.1.most_le⟩, CursorRight.setCursor _⟩
    | @echo tty tty' prior readQ fuel hAllowed last ih =>
        obtain ⟨cs, hRead, hX, hCs⟩ := hAllowed
        have hTaken : ({ tty with readQ := readQ } : Tty).Cooked [] := ⟨ih.1.holds, ih.1.most_le⟩
        obtain ⟨hCooked, hCon⟩ := hTaken.quiet hRead hX hCs last
        exact ⟨hCooked, hCon ▸ ih.2⟩
  refine ⟨fun tty hSession => ⟨hStart _ tty hSession, fun buf => CursorRight.setCursor _⟩,
    fun tty hSession => ⟨hStart _ tty hSession, (hCursor tty hSession).2⟩⟩

/-- A message that ends in column 0, and an Enter there, whose echo goes nowhere. -/
theorem controller_follows_ega80x25 :
    let start := Tty.init ega80x25.toDisplay (fun _ => 0) ⟨0, fun _ => 0⟩ 0 0
    ∃ fuel tty, Tty.copyToCooked ega80x25.toDisplay fuel
        { start.ttyWrite ega80x25.toDisplay [65#8, 13#8] with readQ := TtyQueue.cleared.putch 13#8 } = .ok tty ∧
      StartRight ega80x25.toDisplay tty.con ∧ CursorRight ega80x25.toDisplay tty.con := by
  intro start
  have hTaken : ({ start.ttyWrite ega80x25.toDisplay [65#8, 13#8] with
      readQ := TtyQueue.cleared.putch 13#8 } : Tty).Cooked [] := ⟨TtyQueue.holds_cleared, Nat.zero_le _⟩
  have hRead := TtyQueue.holds_cleared.putch (c := 13#8) (by decide)
  obtain ⟨tty, hEcho, -, -, -⟩ := hTaken.copyToCooked (d := ega80x25.toDisplay) hRead (Nat.lt_succ_self _)
  have hQuiet : Quiet (start.ttyWrite ega80x25.toDisplay [65#8, 13#8]).con (TtyQueue.cleared.putch 13#8) :=
    ⟨_, hRead, .inr (by decide), by simp⟩
  exact ⟨_, tty, hEcho, (controller_follows ega80x25 (fun _ => 0) ⟨0, fun _ => 0⟩ (by decide) 0 0).2 tty
    (.echo (.print .start [65#8, 13#8]) _ hQuiet hEcho)⟩

/-- One letter typed on an empty screen: `pos` is at cell 1, the cursor at cell 0. -/
theorem cursor_stays_behind :
    let start := Tty.init ega80x25.toDisplay (fun _ => 0) ⟨0, fun _ => 0⟩ 0 0
    ∃ tty, Session ega80x25.toDisplay (fun _ _ => True) start tty ∧
      tty.con.pos = ega80x25.videoMemBase + 2 ∧ tty.con.crtc.pair 14 15 = 0 ∧
      ¬CursorRight ega80x25.toDisplay tty.con := by
  intro start
  have hTaken : ({ start with readQ := TtyQueue.cleared.putch 97#8 } : Tty).Cooked [] :=
    ⟨TtyQueue.holds_cleared, Nat.zero_le _⟩
  have hRead := TtyQueue.holds_cleared.putch (c := 97#8) (by decide)
  obtain ⟨tty, hEcho, -, -, hCon⟩ :=
    hTaken.copyToCooked (d := ega80x25.toDisplay) hRead (Nat.lt_succ_self _)
  refine ⟨tty, .echo .start _ trivial hEcho, ?_⟩
  rw [CursorRight, hCon]
  decide

end Linux011

import Linux011.ChrDrv.Contained

/-! The two ways to the screen, `con_write` for the echo and `con_print` for the
kernel's messages, side by side. -/
namespace Linux011

open ByteMemory

/-- The same text in video memory, the same window and the same cursor. -/
structure Agree (con con' : Console) : Prop where
  mem_eq : con.mem = con'.mem
  x_eq : con.x = con'.x
  y_eq : con.y = con'.y
  pos_eq : con.pos = con'.pos
  origin_eq : con.origin = con'.origin
  scrEnd_eq : con.scrEnd = con'.scrEnd

theorem Agree.symm {con con' : Console} (h : Agree con con') : Agree con' con :=
  ⟨h.mem_eq.symm, h.x_eq.symm, h.y_eq.symm, h.pos_eq.symm, h.origin_eq.symm, h.scrEnd_eq.symm⟩

theorem Agree.trans {con con' con'' : Console} (h : Agree con con') (h' : Agree con' con'') :
    Agree con con'' :=
  ⟨h.mem_eq.trans h'.mem_eq, h.x_eq.trans h'.x_eq, h.y_eq.trans h'.y_eq,
    h.pos_eq.trans h'.pos_eq, h.origin_eq.trans h'.origin_eq, h.scrEnd_eq.trans h'.scrEnd_eq⟩

namespace Console

variable {con : Console}

/-- `con_write` takes the characters in the order in which they wait. -/
theorem drain_eq (d : Display) (con : Console) {q : TtyQueue} {cs : List (BitVec 8)} (h : q.Holds cs) :
    (con.drain d cs.length q).1 = cs.foldl (writeChar d) con ∧
      (con.drain d cs.length q).2.Holds [] := by
  induction cs generalizing con q with
  | nil => exact ⟨rfl, h⟩
  | cons c cs ih =>
      rw [List.length_cons, drain, h.getch_fst]
      exact ih _ h.getch

theorem conWrite_eq (d : Display) (con : Console) {q : TtyQueue} {cs : List (BitVec 8)} (h : q.Holds cs) :
    (con.conWrite d q).1 = cs.foldl (writeChar d) con ∧ (con.conWrite d q).2.Holds [] := by
  rw [conWrite, h.chars_toNat]
  exact drain_eq d con h

/-- But for the tab, the two loops do the same. -/
theorem writeChar_eq (d : Display) (con : Console) {c : BitVec 8} (hc : c ≠ 9) :
    con.writeChar d c = con.printChar d c := by
  rw [writeChar, printChar, if_neg hc]

theorem writeChars_eq (d : Display) {cs : List (BitVec 8)} (h : 9#8 ∉ cs) :
    cs.foldl (writeChar d) con = cs.foldl (printChar d) con := by
  induction cs generalizing con with
  | nil => rfl
  | cons c cs ih =>
      rw [List.mem_cons, not_or] at h
      rw [List.foldl_cons, List.foldl_cons, writeChar_eq d con (Ne.symm h.1)]
      exact ih h.2

theorem printChar_tab (d : Display) (con : Console) : con.printChar d 9#8 = con := by
  simp [printChar]

theorem writeChar_tab (d : Display) (con : Console) : con.writeChar d 9#8 = con.tab d := by
  simp [writeChar]

end Console

section Agreement

variable {d : TextMode} {con : Console}

theorem Coords.printChars (h : Coords d con) (buf : List (BitVec 8)) :
    Coords d (buf.foldl (Console.printChar d.toDisplay) con) := by
  induction buf generalizing con with
  | nil => exact h
  | cons c buf ih => exact ih (h.printChar c)

/-- `con_print` leaves what its loop leaves, up to the controller. -/
theorem Coords.conPrint_agree (h : Coords d con) (buf : List (BitVec 8)) :
    Agree (buf.foldl (Console.printChar d.toDisplay) con) (con.conPrint d.toDisplay buf) := by
  rw [Console.conPrint, (h.printChars buf).gotoxy_self]
  exact ⟨rfl, rfl, rfl, rfl, rfl, rfl⟩

/-- A row behind the screen: video memory is larger than one screen. -/
def TextMode.Roomy (d : TextMode) : Prop :=
  d.videoMemBase.toNat + d.videoNumLines.toNat * d.videoSizeRow.toNat + d.videoSizeRow.toNat ≤
    d.videoMemEnd.toNat

/-- A scroll moves the window, if there is a row to which it can move. -/
theorem Coords.scrollUp_origin (h : Coords d con) (hRoomy : d.Roomy) :
    (con.scrollUp d.toDisplay).origin ≠ con.origin := by
  obtain ⟨hOrigin, -, hScrEnd⟩ := h.advance_toNat
  have hColumns := d.columns_pos
  have hSize := d.sizeRow_eq
  have hOld := h.scrEnd_eq
  rw [h.scrollUp_eq]
  intro hSame
  split_ifs at hSame with hWindow
  · have hBase : d.videoMemBase = con.origin := hSame
    have hPast : d.videoMemEnd.toNat < (con.advance d.toDisplay).scrEnd.toNat := hWindow
    rw [TextMode.Roomy, hBase] at hRoomy
    omega
  · have hMoved : (con.advance d.toDisplay).origin = con.origin := hSame
    rw [hMoved] at hOrigin
    omega

theorem scrollUp_origin_moved (d : Display) (con : Console) (x pos : BitVec 32) :
    (Console.scrollUp d { con with x := x, pos := pos }).origin = (con.scrollUp d).origin := by
  rw [Console.scrollUp, Console.scrollUp]
  dsimp only [Console.advance, Console.setOrigin]
  split_ifs <;> rfl

/-- A tab moves the cursor or the window. -/
theorem Coords.tab_moves (h : Coords d con) (hRoomy : d.Roomy) :
    ¬Agree (con.tab d.toDisplay) con := by
  intro hAgree
  obtain ⟨hWidth, -⟩ := tabWidth con.x
  simp only [Console.tab, Console.wrapLine, Console.lf] at hAgree
  split_ifs at hAgree with hWrap hRow
  · have hY : con.y + 1 = con.y := hAgree.y_eq
    exact absurd (BitVec.add_right_eq_self.mp hY) (by decide)
  · have hOrigin := hAgree.origin_eq
    rw [scrollUp_origin_moved d.toDisplay { con with
      x := con.x + (8 - (con.x &&& 7)), pos := con.pos + ((8 - (con.x &&& 7)) <<< 1) },
      scrollUp_origin_moved] at hOrigin
    exact h.scrollUp_origin hRoomy hOrigin
  · have hX : con.x + (8 - (con.x &&& 7)) = con.x := hAgree.x_eq
    rw [BitVec.add_right_eq_self.mp hX] at hWidth
    exact absurd hWidth (by decide)

end Agreement

/-- Without a tab the two ways to the screen agree on every console. Where video
memory is larger than one screen, that is the only text on which they agree all
along: at the first tab, `con_write` moves the cursor or the window and `con_print`
does nothing. -/
theorem console_paths_agree_iff (d : TextMode) {con : Console} (hCoords : Coords d con)
    (buf : List (BitVec 8)) (hLength : buf.length ≤ 1023) :
    (9#8 ∉ buf → ∀ writeQ : TtyQueue, writeQ.Holds buf →
      Agree (con.conWrite d.toDisplay writeQ).1 (con.conPrint d.toDisplay buf)) ∧
    (d.Roomy →
      ((∀ early, early <+: buf → ∀ writeQ : TtyQueue, writeQ.Holds early →
        Agree (con.conWrite d.toDisplay writeQ).1 (con.conPrint d.toDisplay early)) ↔
      9#8 ∉ buf)) := by
  have hEnough : ∀ text : List (BitVec 8), 9#8 ∉ text → ∀ writeQ : TtyQueue, writeQ.Holds text →
      Agree (con.conWrite d.toDisplay writeQ).1 (con.conPrint d.toDisplay text) := by
    intro text hText writeQ hHolds
    rw [(Console.conWrite_eq d.toDisplay con hHolds).1, Console.writeChars_eq d.toDisplay hText]
    exact hCoords.conPrint_agree text
  refine ⟨hEnough buf, fun hRoomy => ⟨fun hAll hTab => ?_, fun hNone early hEarly => ?_⟩⟩
  · obtain ⟨early, late, hBuf, hEarly⟩ := List.eq_append_cons_of_mem hTab
    have hPrefix : early ++ [9#8] <+: buf := ⟨late, by rw [hBuf, List.append_assoc]; rfl⟩
    have hHolds := TtyQueue.holds_cleared.putAll (early ++ [9#8]) (by
      have hLe := hPrefix.length_le
      simp only [List.length_nil]
      omega)
    rw [List.nil_append] at hHolds
    have hAgree := hAll _ hPrefix _ hHolds
    rw [(Console.conWrite_eq d.toDisplay con hHolds).1, List.foldl_append, List.foldl_cons,
      List.foldl_nil, Console.writeChars_eq d.toDisplay hEarly, Console.writeChar_tab] at hAgree
    have hPrinted := hCoords.conPrint_agree (early ++ [9#8])
    rw [List.foldl_append, List.foldl_cons, List.foldl_nil, Console.printChar_tab] at hPrinted
    exact (hCoords.printChars early).tab_moves hRoomy (hAgree.trans hPrinted.symm)
  · exact hEnough early fun hMem => hNone (hEarly.subset hMem)

/-- A tab at the start of a line: the echo moves to column 8, a message does not. -/
theorem console_paths_differ :
    let con := (Console.cleared (fun _ => 0) ⟨0, fun _ => 0⟩).home ega80x25.toDisplay 0 0
    let writeQ := TtyQueue.cleared.putAll [9#8]
    Coords ega80x25 con ∧ writeQ.Holds [9#8] ∧
      (con.conWrite ega80x25.toDisplay writeQ).1.x = 8 ∧
      (con.conPrint ega80x25.toDisplay [9#8]).x = 0 ∧
      ¬Agree (con.conWrite ega80x25.toDisplay writeQ).1 (con.conPrint ega80x25.toDisplay [9#8]) :=
  ⟨Coords.home (by decide) (by decide) _, TtyQueue.holds_cleared.putAll [9#8] (by decide),
    by decide, by decide, fun h => absurd h.x_eq (by decide)⟩

/-- A line of text and its line end on the same screen. -/
theorem console_paths_agree_hello :
    let con := (Console.cleared (fun _ => 0) ⟨0, fun _ => 0⟩).home ega80x25.toDisplay 0 0
    let writeQ := TtyQueue.cleared.putAll [72#8, 105#8, 10#8, 13#8]
    Agree (con.conWrite ega80x25.toDisplay writeQ).1
      (con.conPrint ega80x25.toDisplay [72#8, 105#8, 10#8, 13#8]) :=
  (console_paths_agree_iff ega80x25 (Coords.home (by decide) (by decide) _)
    [72#8, 105#8, 10#8, 13#8] (by decide)).1 (by decide) _
    (TtyQueue.holds_cleared.putAll [72#8, 105#8, 10#8, 13#8] (by decide))

end Linux011

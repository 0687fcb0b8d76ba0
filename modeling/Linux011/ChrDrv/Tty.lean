import Linux011.Mm.Basic
import Linux011.ChrDrv.Paths

/-! The line discipline (`tty_io.c`): `copy_to_cooked` takes the keyboard's
characters out of `read_q` and shows them through `write_q`. -/
namespace Linux011

open ByteMemory

/-- The console and the two queues. `most` is ghost state: the largest number of
characters that `write_q` has held. -/
structure Tty where
  con : Console
  readQ : TtyQueue
  writeQ : TtyQueue
  most : Nat

namespace Tty

/-- `PUTCH(c, &write_q)`. -/
def putWrite (c : BitVec 8) (tty : Tty) : Tty :=
  { tty with
    writeQ := tty.writeQ.putch c
    most := max tty.most (tty.writeQ.putch c).chars.toNat }

def conWrite (d : Display) (tty : Tty) : Tty :=
  { tty with
    con := (tty.con.conWrite d tty.writeQ).1
    writeQ := (tty.con.conWrite d tty.writeQ).2 }

/-- The character `c` put into `write_q` in the form in which it is shown. -/
def cook (c : BitVec 8) (tty : Tty) : Tty :=
  if c = 10 then (tty.putWrite 10).putWrite 13
  else if c = 8 ∨ c = 9 ∨ c = 13 then tty.putWrite c
  else if 32 ≤ c.toInt ∧ c.toInt < 127 then tty.putWrite c
  else if c.toInt < 32 then (tty.putWrite 0x5e).putWrite (c + 64)
  else tty.putWrite c

/-- `copy_to_cooked`. The loop ends when `read_q` is empty, which indices outside
the array would never let it be. -/
def copyToCooked (d : Display) : Nat → Tty → Except Stop Tty
  | 0, _ => .error .hang
  | fuel + 1, tty =>
      if tty.readQ.empty then .ok tty
      else
        copyToCooked d fuel
          (conWrite d (cook tty.readQ.getch.1 { tty with readQ := tty.readQ.getch.2 }))

/-- `do_tty_interrupt`. -/
def doTtyInterrupt (d : Display) (fuel : Nat) (tty : Tty) : Except Stop Tty :=
  copyToCooked d fuel tty

/-- `tty_write`; the channel is not looked at. -/
def ttyWrite (d : Display) (buf : List (BitVec 8)) (tty : Tty) : Tty :=
  { tty with con := tty.con.conPrint d buf }

/-- The state in which `tty_init` leaves the console and the queues. -/
def init (d : Display) (mem : Memory) (crtc : Crtc) (origX origY : BitVec 32) : Tty where
  con := (Console.cleared mem crtc).home d origX origY
  readQ := TtyQueue.cleared
  writeQ := TtyQueue.cleared
  most := 0

end Tty

/-- What a character looks like on the screen: a line feed starts a new line, and
what can be neither shown nor carried out becomes a caret and a letter. -/
def echoed (c : BitVec 8) : List (BitVec 8) :=
  if c = 10 then [10, 13]
  else if c = 8 ∨ c = 9 ∨ c = 13 ∨ 32 ≤ c.toNat ∧ c.toNat < 128 then [c]
  else [0x5e, c + 64]

/-- `con_write` called with one character after another. -/
def Console.feed (d : Display) (con : Console) (cs : List (BitVec 8)) : Console :=
  cs.foldl (fun con c => (con.conWrite d (TtyQueue.cleared.putch c)).1) con

section Echo

variable {d : Display} {tty : Tty} {c : BitVec 8} {cs : List (BitVec 8)}

theorem Console.feed_eq (d : Display) (con : Console) (cs : List (BitVec 8)) :
    con.feed d cs = cs.foldl (Console.writeChar d) con := by
  have hOne : ∀ (con : Console) c,
      (con.conWrite d (TtyQueue.cleared.putch c)).1 = con.writeChar d c := by
    intro con c
    have hHolds := TtyQueue.holds_cleared.putch (c := c) (by decide)
    rw [(Console.conWrite_eq d con hHolds).1]
    rfl
  simp only [Console.feed, hOne]

/-- `write_q` holds `cs`, and has never held more than two characters. -/
structure Tty.Cooked (tty : Tty) (cs : List (BitVec 8)) : Prop where
  holds : tty.writeQ.Holds cs
  most_le : tty.most ≤ 2

theorem Tty.Cooked.putWrite (h : tty.Cooked cs) (hRoom : cs.length ≤ 1) :
    (tty.putWrite c).Cooked (cs ++ [c]) := by
  have hHolds := h.holds.putch (c := c) (by omega)
  refine ⟨hHolds, ?_⟩
  have hChars := hHolds.chars_toNat
  have hMost := h.most_le
  rw [List.length_append, List.length_singleton] at hChars
  dsimp only [Tty.putWrite]
  omega

theorem Tty.Cooked.cook (h : tty.Cooked []) (c : BitVec 8) : (tty.cook c).Cooked (echoed c) := by
  have hOne : (tty.putWrite c).Cooked [c] := h.putWrite (by decide)
  have hCaret : ((tty.putWrite 0x5e).putWrite (c + 64)).Cooked [0x5e, c + 64] :=
    (h.putWrite (by decide)).putWrite (by decide)
  have hSigned : (c.toInt = c.toNat ∧ c.toNat < 128) ∨ (c.toInt < 0 ∧ 128 ≤ c.toNat) := by
    rw [BitVec.toInt_eq_toNat_cond]
    split_ifs <;> omega
  rw [Tty.cook, echoed]
  by_cases hLf : c = 10
  · rw [if_pos hLf, if_pos hLf]
    exact (h.putWrite (by decide)).putWrite (by decide)
  rw [if_neg hLf, if_neg hLf]
  by_cases hPlain : c = 8 ∨ c = 9 ∨ c = 13
  · rw [if_pos hPlain, if_pos (by tauto)]
    exact hOne
  have hShownIff : (c = 8 ∨ c = 9 ∨ c = 13 ∨ 32 ≤ c.toNat ∧ c.toNat < 128) ↔
      (32 ≤ c.toNat ∧ c.toNat < 128) := by tauto
  simp only [if_neg hPlain, hShownIff]
  split_ifs
  · exact hOne
  · omega
  · omega
  · exact hCaret
  · exact hOne
  · omega

theorem Tty.cook_con (c : BitVec 8) (tty : Tty) : (tty.cook c).con = tty.con := by
  rw [Tty.cook]
  split_ifs <;> rfl

theorem Tty.cook_readQ (c : BitVec 8) (tty : Tty) : (tty.cook c).readQ = tty.readQ := by
  rw [Tty.cook]
  split_ifs <;> rfl

theorem Tty.Cooked.conWrite (h : tty.Cooked cs) :
    (tty.conWrite d).Cooked [] ∧
      (tty.conWrite d).con = cs.foldl (Console.writeChar d) tty.con := by
  obtain ⟨hCon, hRest⟩ := Console.conWrite_eq d tty.con h.holds
  exact ⟨⟨hRest, h.most_le⟩, hCon⟩

/-- One turn of the loop shows the oldest character of `read_q`. -/
theorem Tty.Cooked.turn (h : tty.Cooked []) (hRead : tty.readQ.Holds (c :: cs)) :
    ∃ tty' : Tty, tty'.Cooked [] ∧ tty'.readQ.Holds cs ∧
      tty'.con = (echoed c).foldl (Console.writeChar d) tty.con ∧
      ∀ fuel, tty.copyToCooked d (fuel + 1) = tty'.copyToCooked d fuel := by
  have hTaken : ({ tty with readQ := tty.readQ.getch.2 } : Tty).Cooked [] := ⟨h.holds, h.most_le⟩
  obtain ⟨hDone, hCon⟩ := (hTaken.cook c).conWrite (d := d)
  refine ⟨_, hDone, ?_, ?_, ?_⟩
  · change (Tty.cook c { tty with readQ := tty.readQ.getch.2 }).readQ.Holds cs
    rw [Tty.cook_readQ]
    exact hRead.getch
  · rw [hCon, Tty.cook_con]
  · intro fuel
    have hMore : ¬tty.readQ.empty = true := fun hEmpty =>
      List.cons_ne_nil c cs (hRead.empty_iff.mp hEmpty)
    rw [Tty.copyToCooked, if_neg hMore, hRead.getch_fst]

/-- The whole loop, from any number of characters. -/
theorem Tty.Cooked.copyToCooked (h : tty.Cooked []) (hRead : tty.readQ.Holds cs) {fuel : Nat}
    (hFuel : cs.length < fuel) :
    ∃ tty', tty.copyToCooked d fuel = .ok tty' ∧ tty'.Cooked [] ∧ tty'.readQ.Holds [] ∧
      tty'.con = (cs.flatMap echoed).foldl (Console.writeChar d) tty.con := by
  induction cs generalizing tty fuel with
  | nil =>
      cases fuel with
      | zero => exact absurd hFuel (Nat.not_lt_zero _)
      | succ fuel =>
          refine ⟨tty, ?_, h, hRead, rfl⟩
          rw [Tty.copyToCooked, if_pos (hRead.empty_iff.mpr rfl)]
  | cons c cs ih =>
      cases fuel with
      | zero => exact absurd hFuel (Nat.not_lt_zero _)
      | succ fuel =>
          obtain ⟨next, hNext, hNextRead, hCon, hTurn⟩ := h.turn (d := d) hRead
          obtain ⟨tty', hEnd, hCooked, hEmpty, hShown⟩ :=
            ih hNext hNextRead (Nat.lt_of_succ_lt_succ hFuel)
          refine ⟨tty', (hTurn fuel).trans hEnd, hCooked, hEmpty, ?_⟩
          rw [hShown, hCon, List.flatMap_cons, List.foldl_append]

end Echo

/-- Whatever the console shows and wherever the indices of the two queues stand:
`copy_to_cooked` ends with both queues empty, `write_q` has never held more than
two characters, and the console is as if `con_write` had been given the echo of
every character, in order. -/
theorem echo_complete (d : Display) (con : Console) {readQ writeQ : TtyQueue}
    {cs : List (BitVec 8)} (hRead : readQ.Holds cs) (hWrite : writeQ.Holds []) {fuel : Nat}
    (hFuel : cs.length < fuel) :
    ∃ tty, Tty.copyToCooked d fuel { con, readQ, writeQ, most := 0 } = .ok tty ∧
      tty.readQ.empty = true ∧ tty.writeQ.empty = true ∧ tty.most ≤ 2 ∧
      tty.con = con.feed d (cs.flatMap echoed) := by
  have hStart : ({ con, readQ, writeQ, most := 0 } : Tty).Cooked [] := ⟨hWrite, Nat.zero_le _⟩
  obtain ⟨tty, hEnd, hCooked, hEmpty, hCon⟩ := hStart.copyToCooked (d := d) hRead hFuel
  refine ⟨tty, hEnd, hEmpty.empty_iff.mpr rfl, hCooked.holds.empty_iff.mpr rfl,
    hCooked.most_le, ?_⟩
  rw [hCon, Console.feed_eq]

/-- Ctrl-C and Enter, from a `read_q` whose indices wrap in between. -/
theorem echo_complete_wrap :
    ∃ tty, Tty.copyToCooked ega80x25.toDisplay 3
        { con := (Console.cleared (fun _ => 0) ⟨0, fun _ => 0⟩).home ega80x25.toDisplay 0 0
          readQ := TtyQueue.putAll ⟨1023, 1023, fun _ => 0⟩ [3#8, 10#8]
          writeQ := ⟨7, 7, fun _ => 0⟩
          most := 0 } = .ok tty ∧
      tty.readQ.empty = true ∧ tty.writeQ.empty = true ∧ tty.most ≤ 2 ∧
      tty.con = Console.feed ega80x25.toDisplay
        ((Console.cleared (fun _ => 0) ⟨0, fun _ => 0⟩).home ega80x25.toDisplay 0 0)
        ([3#8, 10#8].flatMap echoed) :=
  echo_complete ega80x25.toDisplay _
    ((TtyQueue.Holds.of_empty (q := ⟨1023, 1023, fun _ => 0⟩) rfl (by decide)).putAll
      [3#8, 10#8] (by decide))
    (TtyQueue.Holds.of_empty rfl (by decide)) (by decide)

end Linux011

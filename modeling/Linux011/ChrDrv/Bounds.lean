import Linux011.ChrDrv.Locks

/-! Where the driver reads its character tables. `do_self` takes the global
`scan_code` for its index, which only the cursor and the function keys move. -/
namespace Linux011

/-- The arrays of the driver that are read with a computed index. -/
inductive KeyArray where
  | key
  | shift
  | cur
  | num
  deriving DecidableEq, Repr

/-- How many characters stand in the array. -/
def KeyArray.size : KeyArray → Nat
  | .key => keyMap.length
  | .shift => shiftMap.length
  | .cur => curTable.length
  | .num => numTable.length

theorem KeyArray.size_eq :
    KeyArray.key.size = 0x7f ∧ KeyArray.shift.size = 0x7f ∧ KeyArray.cur.size = 13 ∧
      KeyArray.num.size = 13 :=
  ⟨rfl, rfl, rfl, rfl⟩

namespace Keyboard

/-- `rmap[scan_code]`. -/
def doSelfReads (k : Keyboard) : List (KeyArray × Nat) :=
  [(if k.mode &&& 0x3 != 0 then .shift else .key, k.scanCode.toNat)]

/-- `cur_table[scan_code]` or `num_table[scan_code]`. -/
def cursorReads (k : Keyboard) : List (KeyArray × Nat) :=
  let scanCode := k.scanCode - 0x47
  if 12 < scanCode then []
  else if k.e0 ≠ 0 ∨ k.leds &&& 0x2 ≠ 0 then [(.cur, scanCode.toNat)]
  else [(.num, scanCode.toNat)]

/-- The reads that an interrupt makes, with their indices. -/
def reads (int : ScanInterrupt) (k : Keyboard) : List (KeyArray × Nat) :=
  if int.code = 0xE0 ∨ int.code = 0xE1 then []
  else
    match keyTable.getD int.code.toNat none with
    | some .doSelf => k.doSelfReads
    | some .minus => if k.e0 = 1 then [] else k.doSelfReads
    | some .cursor => k.cursorReads
    | _ => []

/-- Every index lies inside its array. -/
def InBounds (k : Keyboard) (int : ScanInterrupt) : Prop := ∀ read ∈ k.reads int, read.2 < read.1.size

end Keyboard

section Reads

variable {int int' : ScanInterrupt} {k : Keyboard}

theorem doSelf_congr (h : k.scanCode.toNat < 0x7f) : k.doSelf int' = k.doSelf int := by
  have hSame : int'.rmap (k.mode &&& 0x3 != 0) k.scanCode = int.rmap (k.mode &&& 0x3 != 0) k.scanCode := by
    rw [ScanInterrupt.rmap, ScanInterrupt.rmap, if_pos h, if_pos h]
  rw [Keyboard.doSelf, Keyboard.doSelf, hSame]

theorem doSelfReads_iff : (∀ read ∈ k.doSelfReads, read.2 < read.1.size) ↔ k.scanCode.toNat < 0x7f := by
  obtain ⟨hKey, hShift, -⟩ := KeyArray.size_eq
  rw [Keyboard.doSelfReads, List.forall_mem_singleton]
  split_ifs
  · rw [hShift]
  · rw [hKey]

/-- `cursor` checks its index. -/
theorem cursorReads_inBounds (k : Keyboard) : ∀ read ∈ k.cursorReads, read.2 < read.1.size := by
  obtain ⟨-, -, hCur, hNum⟩ := KeyArray.size_eq
  rw [Keyboard.cursorReads]
  split_ifs with hFar
  · exact List.forall_mem_nil _
  all_goals
    rw [List.forall_mem_singleton]
    have hNear : (k.scanCode - 0x47).toNat ≤ 12 := BitVec.le_def.mp (BitVec.not_lt.mp hFar)
  · rw [hCur]
    exact Nat.lt_succ_of_le hNear
  · rw [hNum]
    exact Nat.lt_succ_of_le hNear

/-- With its reads in bounds an interrupt does not depend on what lies behind
the arrays. -/
theorem dispatch_congr (h : k.InBounds int) (hCode : int'.code = int.code) : k.dispatch int' = k.dispatch int := by
  rw [Keyboard.InBounds, Keyboard.reads] at h
  rw [Keyboard.dispatch, Keyboard.dispatch, hCode]
  by_cases hPrefix : int.code = 0xE0 ∨ int.code = 0xE1
  · split_ifs
    · rfl
    · rfl
    · tauto
  · rw [if_neg hPrefix] at h
    rw [not_or] at hPrefix
    rw [if_neg hPrefix.1, if_neg hPrefix.2, if_neg hPrefix.1, if_neg hPrefix.2]
    cases hTable : keyTable.getD int.code.toNat none with
    | none => rfl
    | some fn =>
        rw [hTable] at h
        cases fn with
        | doSelf => exact doSelf_congr (doSelfReads_iff.mp h)
        | minus =>
            simp only [Keyboard.call, Keyboard.minus]
            split_ifs with hE0
            · rfl
            · simp only [if_neg hE0] at h
              exact doSelf_congr (doSelfReads_iff.mp h)
        | _ => rfl

end Reads

/-- What a code takes off the byte that `do_self` uses as its index. -/
def moveIndex (index code : BitVec 8) : BitVec 8 :=
  match keyTable.getD code.toNat none with
  | some .cursor => index - 0x47
  | some .func => if 9 < index - 0x3b then index - 0x3b - 18 else index - 0x3b
  | _ => index

/-- The index after the codes. -/
def charIndex (codes : List (BitVec 8)) : BitVec 8 := codes.foldl moveIndex 0

/-- The last prefix was 0xE0. -/
def AfterE0 (codes : List (BitVec 8)) : Prop := LastOf 0xE0 0xE1 codes

/-- The key of the code reads a character map: a character key, or the minus key
unless it is taken for the slash of the keypad. -/
def ReadsMap (codes : List (BitVec 8)) (code : BitVec 8) : Prop :=
  keyTable.getD code.toNat none = some .doSelf ∨ keyTable.getD code.toNat none = some .minus ∧ ¬AfterE0 codes

/-- The global `scan_code` and the part of `e0` that `minus` looks at follow the
codes. -/
structure Indexed (codes : List (BitVec 8)) (k : Keyboard) : Prop where
  scanCode : k.scanCode = charIndex codes
  e0 : k.e0 = 1 ↔ AfterE0 codes

section Index

variable {codes : List (BitVec 8)} {c : BitVec 8} {k : Keyboard} {int : ScanInterrupt}

theorem afterE0_snoc : AfterE0 (codes ++ [c]) ↔ c = 0xE0 ∨ c ≠ 0xE1 ∧ AfterE0 codes :=
  lastOf_snoc (by decide)

theorem charIndex_snoc : charIndex (codes ++ [c]) = moveIndex (charIndex codes) c := by
  rw [charIndex, List.foldl_append]
  rfl

theorem call_scanCode {fn : KeyFn} (hTable : keyTable.getD int.code.toNat none = some fn) :
    (k.call int fn).scanCode = moveIndex k.scanCode int.code := by
  rw [moveIndex, hTable]
  cases fn with
  | doSelf =>
      simp only [Keyboard.call, Keyboard.doSelf]
      split_ifs <;> rfl
  | minus =>
      simp only [Keyboard.call, Keyboard.minus, Keyboard.doSelf]
      split_ifs <;> rfl
  | cursor => exact cursor_scanCode k
  | func => exact func_scanCode k
  | ctrl | unctrl | caps =>
      simp only [Keyboard.call, Keyboard.ctrl, Keyboard.unctrl, Keyboard.caps]
      split_ifs <;> rfl
  | _ => rfl

theorem Indexed.dispatch (h : Indexed codes k) (int : ScanInterrupt) :
    Indexed (codes ++ [int.code]) (k.dispatch int) := by
  have hStay : ∀ c ∈ [0xE0#8, 0xE1#8], ∀ index, moveIndex index c = index := by
    intro c hc index
    simp only [List.mem_cons, List.not_mem_nil, or_false] at hc
    rcases hc with rfl | rfl <;> rfl
  rw [Keyboard.dispatch]
  split_ifs with hE0 hE1
  · refine ⟨?_, iff_of_true rfl (afterE0_snoc.mpr (.inl hE0))⟩
    rw [charIndex_snoc, ← h.scanCode, hE0, hStay _ (by decide)]
  · refine ⟨?_, iff_of_false (by decide : (2 : BitVec 8) ≠ 1) fun hAfter => ?_⟩
    · rw [charIndex_snoc, ← h.scanCode, hE1, hStay _ (by decide)]
    · rcases afterE0_snoc.mp hAfter with hFirst | ⟨hSecond, -⟩
      · exact hE0 hFirst
      · exact hSecond hE1
  · have hAfter : AfterE0 (codes ++ [int.code]) ↔ AfterE0 codes := by
      rw [afterE0_snoc]
      tauto
    cases hTable : keyTable.getD int.code.toNat none with
    | none =>
        refine ⟨?_, h.e0.trans hAfter.symm⟩
        rw [charIndex_snoc, ← h.scanCode, moveIndex, hTable]
    | some fn =>
        refine ⟨?_, ?_⟩
        · rw [charIndex_snoc, ← h.scanCode]
          exact call_scanCode hTable
        · rw [hAfter, ← h.e0]
          dsimp only
          rw [(k.call_frame int fn).2]

/-- Only a read of a character map can leave its array. -/
theorem Indexed.inBounds_iff (h : Indexed codes k) :
    k.InBounds int ↔ (ReadsMap codes int.code → (charIndex codes).toNat < 0x7f) := by
  have hPrefix : ∀ c ∈ [0xE0#8, 0xE1#8], keyTable.getD c.toNat none = none := by decide
  have hNone : ∀ read ∈ ([] : List (KeyArray × Nat)), read.2 < read.1.size := List.forall_mem_nil _
  rw [Keyboard.InBounds, Keyboard.reads, ReadsMap, ← h.e0, ← h.scanCode, ← doSelfReads_iff]
  by_cases hCode : int.code = 0xE0 ∨ int.code = 0xE1
  · have hTable : keyTable.getD int.code.toNat none = none := hPrefix _ (by simpa using hCode)
    rw [if_pos hCode, hTable]
    exact iff_of_true hNone fun hRead => by simp at hRead
  · rw [if_neg hCode]
    cases hTable : keyTable.getD int.code.toNat none with
    | none => exact iff_of_true hNone fun hRead => by simp at hRead
    | some fn =>
        cases fn with
        | doSelf => simp
        | minus =>
            by_cases hE0 : k.e0 = 1
            · rw [if_pos hE0]
              exact iff_of_true hNone fun hRead => by simp [hE0] at hRead
            · rw [if_neg hE0]
              exact ⟨fun hReads _ => hReads, fun hReads => hReads (.inr ⟨rfl, hE0⟩)⟩
        | cursor => exact iff_of_true (cursorReads_inBounds k) fun hRead => by simp at hRead
        | _ => exact iff_of_true hNone fun hRead => by simp at hRead

end Index

/-- From the start, for every sequence of interrupts: every index is in bounds if
and only if the byte that begins at 0, and from which each cursor and each function
key takes its share, is below 0x7f whenever a key reads a character map. -/
theorem table_reads_in_bounds_iff (d : Display) (tty : Tty) (hIdle : tty.Idle) (ints : List ScanInterrupt) :
    (∀ early int late, ints = early ++ int :: late →
        ∃ k, Keyboard.run d early (.cleared tty) = .ok k ∧ k.InBounds int) ↔
      ∀ early int late, ints = early ++ int :: late →
        ReadsMap (early.map ScanInterrupt.code) int.code →
          (charIndex (early.map ScanInterrupt.code)).toNat < 0x7f := by
  have hStart : Indexed [] (.cleared tty) := ⟨rfl, by simp [Keyboard.cleared, AfterE0, LastOf]⟩
  have hRun (early : List ScanInterrupt) : ∃ k, Keyboard.run d early (.cleared tty) = .ok k ∧
      Indexed (early.map ScanInterrupt.code) k := by
    obtain ⟨k, hEnd, -, hIndexed⟩ := Keyboard.run_invariant d Indexed
      (fun _ _ _ h => ⟨h.scanCode, h.e0⟩) (fun _ _ int h => h.dispatch int) (k := .cleared tty) hIdle hStart early
    exact ⟨k, hEnd, hIndexed⟩
  refine forall_congr' fun early => forall_congr' fun int => forall_congr' fun late =>
    forall_congr' fun _ => ?_
  obtain ⟨k, hEnd, hIndexed⟩ := hRun early
  constructor
  · rintro ⟨k', hEnd', hBounds⟩
    rw [hEnd] at hEnd'
    cases hEnd'
    exact hIndexed.inBounds_iff.mp hBounds
  · exact fun hBound => ⟨k, hEnd, hIndexed.inBounds_iff.mpr hBound⟩

/-- Where no cursor or function key has come before, the index is 0. -/
theorem charIndex_unmoved {codes : List (BitVec 8)}
    (h : ∀ c ∈ codes, keyTable.getD c.toNat none ≠ some .cursor ∧ keyTable.getD c.toNat none ≠ some .func) :
    charIndex codes = 0 := by
  induction codes using List.reverseRecOn with
  | nil => rfl
  | append_singleton codes c ih =>
      obtain ⟨hCursor, hFunc⟩ := h c (by simp)
      rw [charIndex_snoc, ih fun c' hc' => h c' (List.mem_append_left _ hc'), moveIndex]
      split
      · contradiction
      · contradiction
      · rfl

/-- The Up key and then the letter `a`: `key_map` is read at 0xB9. -/
theorem table_read_escapes :
    let tty := Tty.init ega80x25.toDisplay (fun _ => 0) ⟨0, fun _ => 0⟩ 0 0
    ¬∀ early int late, [ScanInterrupt.plain 0x48, .plain 0x1E] = early ++ int :: late →
      ∃ k, Keyboard.run ega80x25.toDisplay early (.cleared tty) = .ok k ∧ k.InBounds int := by
  intro tty hAll
  obtain ⟨k, hRun, hBounds⟩ := hAll [.plain 0x48] (.plain 0x1E) [] rfl
  obtain ⟨k', hEnd, -, hCode⟩ := handler_scanCode ega80x25.toDisplay (k := .cleared tty) (Tty.idle_init _)
    (by decide) (by decide : keyTable.getD (ScanInterrupt.plain 0x48).code.toNat none = some .cursor)
  rw [Keyboard.run_one, hEnd] at hRun
  obtain rfl := Except.ok.inj hRun
  rw [Keyboard.call, cursor_scanCode] at hCode
  have hIndex := doSelfReads_iff.mp (show ∀ read ∈ k'.doSelfReads, read.2 < read.1.size from hBounds)
  rw [hCode] at hIndex
  exact absurd hIndex (by decide)

/-- Letters and an Enter, before any cursor key. -/
theorem table_reads_in_bounds_plain :
    let tty := Tty.init ega80x25.toDisplay (fun _ => 0) ⟨0, fun _ => 0⟩ 0 0
    ∀ early int late, [ScanInterrupt.plain 0x1E, .plain 0x9E, .plain 0x1C] = early ++ int :: late →
      ∃ k, Keyboard.run ega80x25.toDisplay early (.cleared tty) = .ok k ∧ k.InBounds int := by
  intro tty
  refine (table_reads_in_bounds_iff ega80x25.toDisplay tty (Tty.idle_init _)
    [.plain 0x1E, .plain 0x9E, .plain 0x1C]).mpr ?_
  intro early int late hInts _
  have hPlain : ∀ c ∈ [0x1E#8, 0x9E#8, 0x1C#8], keyTable.getD c.toNat none ≠ some .cursor ∧
      keyTable.getD c.toNat none ≠ some .func := by
    decide
  have hZero : charIndex (early.map ScanInterrupt.code) = 0 := by
    apply charIndex_unmoved
    intro c hc
    apply hPlain
    have hMem : c ∈ ([ScanInterrupt.plain 0x1E, .plain 0x9E, .plain 0x1C]).map ScanInterrupt.code := by
      rw [hInts, List.map_append]
      exact List.mem_append_left _ hc
    exact hMem
  rw [hZero]
  decide

end Linux011

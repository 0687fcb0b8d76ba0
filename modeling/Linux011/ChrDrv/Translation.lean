import Linux011.ChrDrv.Modifiers

/-! From keys to characters. `do_self` looks up the global `scan_code`, which the
handler never sets, and treats Ctrl only under Caps Lock; the runs in which the
keyboard is translated as it should be are those in which this does not matter. -/
namespace Linux011

/-- What the codes seen so far say about the keys: a code behind a prefix is that of
the right Ctrl, and Caps Lock turns over when its key goes down. -/
structure Pressed where
  leftShift : Bool
  rightShift : Bool
  leftCtrl : Bool
  rightCtrl : Bool
  capsOn : Bool
  capsDown : Bool
  prefixed : Bool
  deriving DecidableEq, Repr

namespace Pressed

def none : Pressed := ⟨false, false, false, false, false, false, false⟩

/-- The state of a key that goes down with `make` and up with its break. -/
def key (make code : BitVec 8) (down : Bool) : Bool :=
  if code = make then true else if code = make ||| 0x80 then false else down

def step (p : Pressed) (code : BitVec 8) : Pressed :=
  if code = 0xE0 ∨ code = 0xE1 then { p with prefixed := true }
  else
    { leftShift := key 0x2A code p.leftShift
      rightShift := key 0x36 code p.rightShift
      leftCtrl := if p.prefixed then p.leftCtrl else key 0x1D code p.leftCtrl
      rightCtrl := if p.prefixed then key 0x1D code p.rightCtrl else p.rightCtrl
      capsOn := if code = 0x3A ∧ p.capsDown = false then !p.capsOn else p.capsOn
      capsDown := key 0x3A code p.capsDown
      prefixed := false }

def shift (p : Pressed) : Bool := p.leftShift || p.rightShift
def ctrl (p : Pressed) : Bool := p.leftCtrl || p.rightCtrl

/-- The keys after the interrupts. -/
def after (ints : List ScanInterrupt) : Pressed :=
  ints.foldl (fun p int => p.step int.code) none

end Pressed

/-- The map entry of a key, with or without Shift. -/
def mapEntry (shift : Bool) (code : BitVec 8) : BitVec 8 :=
  (if shift then shiftMap else keyMap).getD code.toNat 0

def isLetter (c : BitVec 8) : Bool :=
  (0x41 ≤ c.toNat && c.toNat ≤ 0x5a) || (0x61 ≤ c.toNat && c.toNat ≤ 0x7a)

/-- What Caps Lock makes of a character. -/
def upper (c : BitVec 8) : BitVec 8 := if 0x61 ≤ c.toNat ∧ c.toNat ≤ 0x7d then c - 0x20 else c

/-- The key of the interrupt puts into the empty `read_q` what it should: a release
nothing, and a character key one character, which is that of the map, the capital
under Caps Lock, and for a letter under Ctrl the control code. -/
structure Translated (p : Pressed) (int : ScanInterrupt) (k : Keyboard) : Prop where
  release : 0x80 ≤ int.code.toNat → (k.dispatch int).tty.readQ.Holds []
  noEntry : keyTable.getD int.code.toNat none = some .doSelf → mapEntry p.shift int.code = 0 →
    (k.dispatch int).tty.readQ.Holds []
  entry : keyTable.getD int.code.toNat none = some .doSelf → mapEntry p.shift int.code ≠ 0 →
    ∃ c, (k.dispatch int).tty.readQ.Holds [c] ∧
      (p.ctrl = false → p.capsOn = false → c = mapEntry p.shift int.code) ∧
      (p.ctrl = false → p.capsOn = true → c = upper (mapEntry p.shift int.code)) ∧
      (p.ctrl = true → isLetter (mapEntry p.shift int.code) = true →
        c = mapEntry p.shift int.code &&& 0x1f)

/-- The key of the interrupt is one that the driver gets right: a Ctrl without a
prefix finds `e0` clear; a character key finds its own map entry under the global
`scan_code`; and a letter comes with Ctrl only under Caps Lock. -/
structure Proper (p : Pressed) (int : ScanInterrupt) (k : Keyboard) : Prop where
  ctrl : int.code = 0x1D ∨ int.code = 0x9D → p.prefixed = false → k.e0 = 0
  scanCode : keyTable.getD int.code.toNat none = some .doSelf →
    int.rmap p.shift k.scanCode = mapEntry p.shift int.code
  letter : keyTable.getD int.code.toNat none = some .doSelf → p.ctrl = true →
    isLetter (mapEntry p.shift int.code) = true → p.capsOn = true

/-- The driver's variables follow the keys. -/
structure Follows (p : Pressed) (k : Keyboard) : Prop where
  leftShift : k.mode.getLsbD 0 = p.leftShift
  rightShift : k.mode.getLsbD 1 = p.rightShift
  leftCtrl : k.mode.getLsbD 2 = p.leftCtrl
  rightCtrl : k.mode.getLsbD 3 = p.rightCtrl
  capsOn : k.mode.getLsbD 6 = p.capsOn
  capsDown : k.mode.getLsbD 7 = p.capsDown
  prefixed : p.prefixed = true → k.e0 ≠ 0

section Step

variable {p : Pressed} {int : ScanInterrupt} {k : Keyboard}

/-- The two Ctrl bits, as far as a Ctrl code finds `e0` as its prefix demands. -/
theorem ctrl_step {c e0 : BitVec 8} {prefixed : Bool} (hSet : prefixed = true → e0 ≠ 0#8)
    (hCtrl : c = 0x1D#8 ∨ c = 0x9D#8 → prefixed = false → e0 = 0#8) (left right : Bool) :
    (if c = 0x1D#8 ∧ e0 = 0#8 then true else if c = 0x9D#8 ∧ e0 = 0#8 then false else left) =
        (if prefixed then left else Pressed.key 0x1D#8 c left) ∧
      (if c = 0x1D#8 ∧ e0 ≠ 0#8 then true else if c = 0x9D#8 ∧ e0 ≠ 0#8 then false else right) =
        (if prefixed then Pressed.key 0x1D#8 c right else right) := by
  have hBreak : (0x1D#8 ||| 0x80 : BitVec 8) = 0x9D#8 := rfl
  simp only [Pressed.key, hBreak]
  cases prefixed with
  | true =>
      have hNe := hSet rfl
      simp [hNe]
  | false =>
      by_cases hCode : c = 0x1D#8 ∨ c = 0x9D#8
      · have hZero := hCtrl hCode rfl
        simp [hZero]
      · rw [not_or] at hCode
        simp [hCode.1, hCode.2]

theorem Follows.dispatch (h : Follows p k) (hProper : Proper p int k) :
    Follows (p.step int.code) (k.dispatch int) := by
  rw [Pressed.step]
  by_cases hPrefix : int.code = 0xE0 ∨ int.code = 0xE1
  · obtain ⟨hMode, hE0⟩ := k.dispatch_prefix int hPrefix
    rw [if_pos hPrefix]
    exact ⟨hMode ▸ h.leftShift, hMode ▸ h.rightShift, hMode ▸ h.leftCtrl, hMode ▸ h.rightCtrl,
      hMode ▸ h.capsOn, hMode ▸ h.capsDown, fun _ => hE0⟩
  · obtain ⟨hMode, -⟩ := k.dispatch_code int hPrefix
    obtain ⟨hShift0, hShift1⟩ := modeAfterCode_shift int.code k.e0 k.mode
    obtain ⟨hCtrl2, hCtrl3⟩ := modeAfterCode_ctrl int.code k.e0 k.mode
    obtain ⟨hCaps6, hCaps7⟩ := modeAfterCode_caps int.code k.e0 k.mode
    obtain ⟨hLeft, hRight⟩ := ctrl_step h.prefixed hProper.ctrl p.leftCtrl p.rightCtrl
    rw [if_neg hPrefix]
    refine ⟨?_, ?_, ?_, ?_, ?_, ?_, fun hFalse => absurd hFalse Bool.false_ne_true⟩
    · rw [hMode, hShift0, h.leftShift]
      rfl
    · rw [hMode, hShift1, h.rightShift]
      rfl
    · rw [hMode, hCtrl2, h.leftCtrl]
      exact hLeft
    · rw [hMode, hCtrl3, h.rightCtrl]
      exact hRight
    · rw [hMode, hCaps6, h.capsOn, h.capsDown]
      rfl
    · rw [hMode, hCaps7, h.capsDown]
      rfl

/-- A character key has its entry inside the maps, and it is neither a release nor a
prefix. -/
theorem doSelf_code : ∀ c : BitVec 8, keyTable.getD c.toNat none = some .doSelf →
    c.toNat < 0x7f ∧ c ≠ 0xE0 ∧ c ≠ 0xE1 := by
  decide +kernel

/-- A release calls no function that puts a character. -/
theorem release_table : ∀ c : BitVec 8, 0x80 ≤ c.toNat → keyTable.getD c.toNat none ∈
    [none, some .unctrl, some .unlshift, some .unrshift, some .unalt, some .uncaps] := by
  decide +kernel

theorem dispatch_release (hCode : 0x80 ≤ int.code.toNat) : (k.dispatch int).tty = k.tty := by
  have hTable := release_table int.code hCode
  rw [Keyboard.dispatch]
  split_ifs
  · rfl
  · rfl
  · generalize keyTable.getD int.code.toNat none = entry at hTable
    simp only [List.mem_cons, List.not_mem_nil, or_false] at hTable
    rcases hTable with rfl | rfl | rfl | rfl | rfl | rfl
    · rfl
    · simp only [Keyboard.call, Keyboard.unctrl]
      split_ifs <;> rfl
    all_goals rfl

theorem dispatch_call {fn : KeyFn} (hPrefix : int.code ≠ 0xE0 ∧ int.code ≠ 0xE1)
    (hTable : keyTable.getD int.code.toNat none = some fn) : k.dispatch int = k.call int fn := by
  rw [Keyboard.dispatch, if_neg hPrefix.1, if_neg hPrefix.2, hTable]

/-- The handler leaves the global `scan_code` as the function of the key leaves it. -/
theorem handler_scanCode (d : Display) {fn : KeyFn} (hIdle : k.tty.Idle)
    (hPrefix : int.code ≠ 0xE0 ∧ int.code ≠ 0xE1)
    (hTable : keyTable.getD int.code.toNat none = some fn) :
    ∃ k', k.keyboardHandler d int = .ok k' ∧ k'.tty.Idle ∧
      k'.scanCode = (k.call int fn).scanCode := by
  obtain ⟨tty, hEnd, hTty⟩ := Keyboard.keyboardHandler_ok d int hIdle
  have hCall : k.dispatch int = k.call int fn := dispatch_call hPrefix hTable
  rw [hCall] at hEnd
  exact ⟨_, hEnd, hTty, rfl⟩

/-- The keys that move the global `scan_code`. -/
theorem cursor_scanCode (k : Keyboard) : k.cursor.scanCode = k.scanCode - 0x47 := by
  simp only [Keyboard.cursor]
  split_ifs <;> rfl

theorem func_scanCode (k : Keyboard) : k.func.scanCode =
    if 9 < k.scanCode - 0x3b then k.scanCode - 0x3b - 18 else k.scanCode - 0x3b := by
  simp only [Keyboard.func]
  split_ifs <;> rfl

theorem modeBits : ∀ mode : BitVec 8,
    (mode &&& 0x3 != 0) = (mode.getLsbD 0 || mode.getLsbD 1) ∧
    (mode &&& 0xc ≠ 0 ↔ (mode.getLsbD 2 || mode.getLsbD 3) = true) ∧
    (mode &&& 0x40 ≠ 0 ↔ mode.getLsbD 6 = true) := by
  decide +kernel

theorem capsLock_off {mode : BitVec 8} (hCaps : ¬mode &&& 0x40 ≠ 0) (c : BitVec 8) :
    capsLock mode c = c := by
  rw [capsLock, if_neg hCaps]

theorem capsLock_on {mode : BitVec 8} (hCaps : mode &&& 0x40 ≠ 0) (hCtrl : ¬mode &&& 0xc ≠ 0)
    (c : BitVec 8) : capsLock mode c = upper c := by
  have hRange : ∀ c : BitVec 8,
      (0x61 ≤ c.toInt ∧ c.toInt ≤ 0x7d ↔ 0x61 ≤ c.toNat ∧ c.toNat ≤ 0x7d) := by
    decide +kernel
  simp only [capsLock, if_pos hCaps, hCtrl, false_and, if_false, hRange]
  rfl

/-- Under Caps Lock, Ctrl makes a control code of a letter. -/
theorem capsLock_ctrl {mode : BitVec 8} (hCaps : mode &&& 0x40 ≠ 0) (hCtrl : mode &&& 0xc ≠ 0)
    {c : BitVec 8} (hLetter : isLetter c = true) : capsLock mode c = c &&& 0x1f := by
  have hLetters : ∀ c : BitVec 8, isLetter c = true →
      (if 64 ≤ (if 0x61 ≤ c.toInt ∧ c.toInt ≤ 0x7d then c - 0x20 else c).toInt ∧
          (if 0x61 ≤ c.toInt ∧ c.toInt ≤ 0x7d then c - 0x20 else c).toInt < 96
        then (if 0x61 ≤ c.toInt ∧ c.toInt ≤ 0x7d then c - 0x20 else c) - 0x40
        else (if 0x61 ≤ c.toInt ∧ c.toInt ≤ 0x7d then c - 0x20 else c)) = c &&& 0x1f := by
    decide +kernel
  simp only [capsLock, if_pos hCaps]
  simp only [ne_eq] at hCtrl
  simp only [ne_eq, hCtrl, not_false_eq_true, true_and]
  exact hLetters c hLetter

theorem Follows.translated (h : Follows p k) (hProper : Proper p int k)
    (hRead : k.tty.readQ.Holds []) : Translated p int k := by
  obtain ⟨hShiftBits, hCtrlBits, hCapsBits⟩ := modeBits k.mode
  rw [h.leftShift, h.rightShift] at hShiftBits
  rw [h.leftCtrl, h.rightCtrl] at hCtrlBits
  rw [h.capsOn] at hCapsBits
  have hSelf : keyTable.getD int.code.toNat none = some .doSelf →
      k.dispatch int = if mapEntry p.shift int.code = 0 then k
        else k.putRead (capsLock k.mode (mapEntry p.shift int.code)) := by
    intro hTable
    obtain ⟨-, hE0, hE1⟩ := doSelf_code int.code hTable
    have hEntry := hProper.scanCode hTable
    rw [dispatch_call ⟨hE0, hE1⟩ hTable]
    simp only [Keyboard.call, Keyboard.doSelf, hShiftBits]
    rw [Pressed.shift] at hEntry ⊢
    rw [hEntry]
  refine ⟨fun hCode => ?_, fun hTable hZero => ?_, fun hTable hNe => ?_⟩
  · rw [dispatch_release hCode]
    exact hRead
  · rw [hSelf hTable, if_pos hZero]
    exact hRead
  · refine ⟨capsLock k.mode (mapEntry p.shift int.code), ?_, fun _ hOff => ?_, fun hNone hOn => ?_,
      fun hHeld hLetter => ?_⟩
    · rw [hSelf hTable, if_neg hNe]
      exact hRead.putch (by decide)
    · exact capsLock_off (by rw [hCapsBits, hOff]; exact Bool.false_ne_true) _
    · refine capsLock_on (hCapsBits.mpr hOn) ?_ _
      rw [hCtrlBits]
      exact fun hSome => Bool.false_ne_true (hNone.symm.trans hSome)
    · exact capsLock_ctrl (hCapsBits.mpr (hProper.letter hTable hHeld hLetter))
        (hCtrlBits.mpr hHeld) hLetter

end Step

section Runs

variable {k : Keyboard} {p : Pressed}

/-- A run of proper interrupts translates every key, and leaves `read_q` empty in
between. -/
theorem Follows.run (d : Display) (h : Follows p k) (hIdle : k.tty.Idle)
    {ints : List ScanInterrupt}
    (hProper : ∀ early int late, ints = early ++ int :: late → ∀ k',
      Keyboard.run d early k = .ok k' →
        Proper (early.foldl (fun p int => p.step int.code) p) int k') :
    ∀ early int late, ints = early ++ int :: late → ∃ k', Keyboard.run d early k = .ok k' ∧
      k'.tty.Idle ∧ Translated (early.foldl (fun p int => p.step int.code) p) int k' := by
  induction ints generalizing k p with
  | nil =>
      intro early int late hInts
      simp at hInts
  | cons int ints ih =>
      have hFirst := hProper [] int ints rfl k rfl
      obtain ⟨tty, hEnd, hTty⟩ := Keyboard.keyboardHandler_ok d int hIdle
      have hNext : Follows (p.step int.code) { k.dispatch int with tty := tty } :=
        have hStep := h.dispatch hFirst
        ⟨hStep.leftShift, hStep.rightShift, hStep.leftCtrl, hStep.rightCtrl, hStep.capsOn,
          hStep.capsDown, hStep.prefixed⟩
      have hRun : ∀ early, Keyboard.run d (int :: early) k =
          Keyboard.run d early { k.dispatch int with tty := tty } := by
        intro early
        rw [Keyboard.run, hEnd]
        rfl
      intro early int' late hInts
      cases early with
      | nil =>
          cases hInts
          exact ⟨k, rfl, hIdle, h.translated hFirst hIdle.readQ⟩
      | cons first early =>
          cases hInts
          rw [hRun]
          refine ih hNext hTty ?_ early int' late rfl
          intro early' int'' late' hInts' k' hEnd'
          refine hProper (int :: early') int'' late' (by rw [hInts']; rfl) k' ?_
          rw [hRun]
          exact hEnd'

end Runs

/-- From the start, in every run of interrupts that are all proper, every interrupt
comes to its end and every key puts into `read_q` what it should. -/
theorem keyboard_translation (d : Display) (tty : Tty) (hIdle : tty.Idle) (ints : List ScanInterrupt)
    (hProper : ∀ early int late, ints = early ++ int :: late → ∀ k,
      Keyboard.run d early (.cleared tty) = .ok k → Proper (Pressed.after early) int k) :
    ∀ early int late, ints = early ++ int :: late → ∃ k,
      Keyboard.run d early (.cleared tty) = .ok k ∧ k.tty.readQ.empty = true ∧
        Translated (Pressed.after early) int k := by
  intro early int late hInts
  have hZero : ∀ i, (Keyboard.cleared tty).mode.getLsbD i = false := fun _ => BitVec.getLsbD_zero
  have hStart : Follows Pressed.none (.cleared tty) :=
    ⟨hZero 0, hZero 1, hZero 2, hZero 3, hZero 6, hZero 7,
      fun hFalse => absurd hFalse Bool.false_ne_true⟩
  obtain ⟨k, hEnd, hTty, hTranslated⟩ := hStart.run d hIdle hProper early int late hInts
  exact ⟨k, hEnd, hTty.readQ.empty_iff.mpr rfl, hTranslated⟩

/-- An interrupt with nothing behind the tables. -/
def ScanInterrupt.plain (code : BitVec 8) : ScanInterrupt where
  code := code
  behindKeyMap _ := 0
  behindShiftMap _ := 0

/-- The first key that is pressed after boot, `a`, puts nothing into `read_q`. -/
theorem keyboard_loses_a :
    let k := Keyboard.cleared (Tty.init ega80x25.toDisplay (fun _ => 0) ⟨0, fun _ => 0⟩ 0 0)
    mapEntry false 0x1E = ascii 'a' ∧ (k.dispatch (.plain 0x1E)).tty.readQ.empty = true ∧
      ¬Translated Pressed.none (.plain 0x1E) k := by
  intro k
  have hTable : keyTable.getD (ScanInterrupt.plain 0x1E).code.toNat none = some .doSelf := by decide
  have hDispatch : k.dispatch (.plain 0x1E) = k := by
    rw [dispatch_call (by decide) hTable]
    exact if_pos (by decide)
  have hSame : (k.dispatch (.plain 0x1E)).tty.readQ = TtyQueue.cleared := by
    rw [hDispatch]
    rfl
  refine ⟨by decide, hSame ▸ by decide, fun h => ?_⟩
  obtain ⟨c, hHolds, -⟩ := h.entry (by decide) (by decide)
  have hOne := hHolds.chars_toNat
  rw [hSame, List.length_singleton] at hOne
  exact absurd hOne (by decide)

/-- F1 and two cursor keys move the global `scan_code` to the code of `k`, without a
character; then that key is translated. -/
theorem keyboard_translation_k :
    let tty := Tty.init ega80x25.toDisplay (fun _ => 0) ⟨0, fun _ => 0⟩ 0 0
    ∃ k, Keyboard.run ega80x25.toDisplay [.plain 0x3B, .plain 0x48, .plain 0x48]
        (.cleared tty) = .ok k ∧
      k.tty.readQ.empty = true ∧
        Translated (Pressed.after [.plain 0x3B, .plain 0x48, .plain 0x48]) (.plain 0x25) k := by
  intro tty
  have hOther : ∀ p (k : Keyboard), ∀ code ∈ [0x3B#8, 0x48#8], Proper p (.plain code) k := by
    intro p k code hCode
    simp only [List.mem_cons, List.not_mem_nil, or_false] at hCode
    rcases hCode with rfl | rfl
    · exact ⟨fun h => absurd h (by decide), fun h => absurd h (by decide),
        fun h => absurd h (by decide)⟩
    · exact ⟨fun h => absurd h (by decide), fun h => absurd h (by decide),
        fun h => absurd h (by decide)⟩
  have hF1 : ∀ k : Keyboard, k.tty.Idle → k.scanCode = 0 → ∃ k',
      k.keyboardHandler ega80x25.toDisplay (.plain 0x3B) = .ok k' ∧ k'.tty.Idle ∧
        k'.scanCode = 0xB3 := by
    intro k hIdle hZero
    obtain ⟨k', hEnd, hTty, hCode⟩ := handler_scanCode ega80x25.toDisplay hIdle (by decide)
      (by decide : keyTable.getD (ScanInterrupt.plain 0x3B).code.toNat none = some .func)
    refine ⟨k', hEnd, hTty, ?_⟩
    rw [hCode, Keyboard.call, func_scanCode, hZero]
    decide
  have hUp : ∀ k : Keyboard, k.tty.Idle → ∃ k',
      k.keyboardHandler ega80x25.toDisplay (.plain 0x48) = .ok k' ∧ k'.tty.Idle ∧
        k'.scanCode = k.scanCode - 0x47 := by
    intro k hIdle
    obtain ⟨k', hEnd, hTty, hCode⟩ := handler_scanCode ega80x25.toDisplay hIdle (by decide)
      (by decide : keyTable.getD (ScanInterrupt.plain 0x48).code.toNat none = some .cursor)
    refine ⟨k', hEnd, hTty, ?_⟩
    rw [hCode, Keyboard.call, cursor_scanCode]
  have hMoved : ∀ k, Keyboard.run ega80x25.toDisplay [.plain 0x3B, .plain 0x48, .plain 0x48]
      (.cleared tty) = .ok k → k.scanCode = 0x25 := by
    intro k hRun
    obtain ⟨k₁, hEnd₁, hIdle₁, hCode₁⟩ := hF1 (.cleared tty) (Tty.idle_init _) rfl
    obtain ⟨k₂, hEnd₂, hIdle₂, hCode₂⟩ := hUp k₁ hIdle₁
    obtain ⟨k₃, hEnd₃, -, hCode₃⟩ := hUp k₂ hIdle₂
    have hLast : Keyboard.run ega80x25.toDisplay [.plain 0x3B, .plain 0x48, .plain 0x48]
        (.cleared tty) = .ok k₃ := by
      rw [Keyboard.run, hEnd₁]
      change Keyboard.run ega80x25.toDisplay [.plain 0x48, .plain 0x48] k₁ = .ok k₃
      rw [Keyboard.run, hEnd₂]
      change Keyboard.run ega80x25.toDisplay [.plain 0x48] k₂ = .ok k₃
      rw [Keyboard.run_one, hEnd₃]
    rw [hLast] at hRun
    cases hRun
    rw [hCode₃, hCode₂, hCode₁]
    decide
  refine keyboard_translation ega80x25.toDisplay tty (Tty.idle_init _)
    [.plain 0x3B, .plain 0x48, .plain 0x48, .plain 0x25] ?_ _ _ [] rfl
  intro early int late hInts k hRun
  rcases early with _ | ⟨_, _ | ⟨_, _ | ⟨_, _ | ⟨_, _ | ⟨_, early⟩⟩⟩⟩⟩
  · cases hInts
    exact hOther _ k _ (by decide)
  · cases hInts
    exact hOther _ k _ (by decide)
  · cases hInts
    exact hOther _ k _ (by decide)
  · cases hInts
    exact ⟨fun h => absurd h (by decide), fun _ => by rw [hMoved k hRun]; rfl,
      fun _ h => absurd h (by decide)⟩
  · simp at hInts
  · simp at hInts

end Linux011

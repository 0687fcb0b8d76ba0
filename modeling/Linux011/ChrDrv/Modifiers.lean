import Linux011.ChrDrv.Keyboard
import Mathlib.Data.List.Basic

/-! The modifier bits of the keyboard driver, and the keys that are held down. -/
namespace Linux011

/-- Nothing waits in either queue. -/
structure Tty.Idle (tty : Tty) : Prop where
  cooked : tty.Cooked []
  readQ : tty.readQ.Holds []

namespace Keyboard

variable {k k' : Keyboard} {int : ScanInterrupt}

/-- From `k` to `k'`, the console and the queues stay as they are but for `cs`, which
goes into `read_q`. -/
def Puts (k k' : Keyboard) (cs : List (BitVec 8)) : Prop :=
  k'.tty = { k.tty with readQ := k.tty.readQ.putAll cs }

theorem Puts.none (h : k'.tty = k.tty) : Puts k k' [] := h

theorem Puts.putRead {cs : List (BitVec 8)} (h : Puts k k' cs) (c : BitVec 8) :
    Puts k (k'.putRead c) (cs ++ [c]) := by
  rw [Puts] at h ⊢
  dsimp only [Keyboard.putRead]
  rw [h, TtyQueue.putAll, TtyQueue.putAll, List.foldl_append]
  rfl

theorem doSelf_puts (int : ScanInterrupt) (k : Keyboard) :
    ∃ cs, cs.length ≤ 1 ∧ Puts k (k.doSelf int) cs := by
  rw [doSelf]
  split_ifs
  · exact ⟨[], by decide, Puts.none rfl⟩
  · exact ⟨[_], by simp, (Puts.none rfl).putRead _⟩

theorem cursor_puts (k : Keyboard) : ∃ cs, cs.length ≤ 4 ∧ Puts k k.cursor cs := by
  have hMoved : Puts k { k with scanCode := k.scanCode - 0x47 } [] := Puts.none rfl
  simp only [cursor]
  split_ifs
  · exact ⟨[], by decide, hMoved⟩
  · exact ⟨[_, _, _, _], by simp, (((hMoved.putRead _).putRead _).putRead _).putRead _⟩
  · exact ⟨[_, _, _], by simp, ((hMoved.putRead _).putRead _).putRead _⟩
  · exact ⟨[_], by simp, hMoved.putRead _⟩

theorem func_puts (k : Keyboard) : ∃ cs, cs.length ≤ 4 ∧ Puts k k.func cs := by
  simp only [func]
  split_ifs
  · exact ⟨[], by decide, Puts.none rfl⟩
  · exact ⟨[_, _, _, _], by simp, ((((Puts.none rfl).putRead _).putRead _).putRead _).putRead _⟩
  · exact ⟨[], by decide, Puts.none rfl⟩
  · exact ⟨[_, _, _, _], by simp, ((((Puts.none rfl).putRead _).putRead _).putRead _).putRead _⟩

/-- A key puts at most four characters into `read_q`. -/
theorem call_puts (int : ScanInterrupt) (k : Keyboard) (fn : KeyFn) :
    ∃ cs, cs.length ≤ 4 ∧ Puts k (k.call int fn) cs := by
  obtain ⟨cs, hLength, hSelf⟩ := doSelf_puts int k
  cases fn with
  | doSelf => exact ⟨cs, by omega, hSelf⟩
  | cursor => exact cursor_puts k
  | func => exact func_puts k
  | minus =>
      simp only [call, minus]
      split_ifs
      · exact ⟨[_], by simp, (Puts.none rfl).putRead _⟩
      · exact ⟨cs, by omega, hSelf⟩
  | ctrl | unctrl | caps =>
      refine ⟨[], by decide, Puts.none ?_⟩
      simp only [call, ctrl, unctrl, caps]
      split_ifs <;> rfl
  | _ => exact ⟨[], by decide, Puts.none rfl⟩

theorem dispatch_puts (int : ScanInterrupt) (k : Keyboard) :
    ∃ cs, cs.length ≤ 4 ∧ Puts k (k.dispatch int) cs := by
  rw [dispatch]
  split_ifs
  · exact ⟨[], by decide, Puts.none rfl⟩
  · exact ⟨[], by decide, Puts.none rfl⟩
  · cases keyTable.getD int.code.toNat none with
    | none => exact ⟨[], by decide, Puts.none rfl⟩
    | some fn => exact call_puts int k fn

/-- The interrupt comes to its end, with both queues empty again; the globals of the
driver are those that the key left. -/
theorem keyboardHandler_ok (d : Display) (int : ScanInterrupt) (h : k.tty.Idle) :
    ∃ tty, k.keyboardHandler d int = .ok { k.dispatch int with tty := tty } ∧ tty.Idle := by
  obtain ⟨cs, hLength, hPuts⟩ := dispatch_puts int k
  have hRead := h.readQ.putAll cs (by rw [List.length_nil]; omega)
  rw [List.nil_append] at hRead
  have hCooked : (k.dispatch int).tty.Cooked [] := by
    rw [hPuts]
    exact ⟨h.cooked.holds, h.cooked.most_le⟩
  have hHolds : (k.dispatch int).tty.readQ.Holds cs := by
    rw [hPuts]
    exact hRead
  obtain ⟨tty, hEnd, hDone, hEmpty, -⟩ :=
    hCooked.copyToCooked (d := d) hHolds (show cs.length < 1024 by omega)
  refine ⟨tty, ?_, hDone, hEmpty⟩
  rw [keyboardHandler, Tty.doTtyInterrupt, hEnd]
  rfl

end Keyboard

/-- What a function of the table does to `mode`. -/
def KeyFn.modeAfter (fn : KeyFn) (e0 mode : BitVec 8) : BitVec 8 :=
  match fn with
  | .lshift => mode ||| 0x01
  | .unlshift => mode &&& 0xfe
  | .rshift => mode ||| 0x02
  | .unrshift => mode &&& 0xfd
  | .ctrl => if e0 ≠ 0 then mode ||| 0x08 else mode ||| 0x04
  | .unctrl => if e0 ≠ 0 then mode &&& 0xf7 else mode &&& 0xfb
  | .caps => if mode &&& 0x80 ≠ 0 then mode else (mode ^^^ 0x40) ||| 0x80
  | .uncaps => mode &&& 0x7f
  | _ => mode

theorem Keyboard.call_frame (int : ScanInterrupt) (k : Keyboard) (fn : KeyFn) :
    (k.call int fn).mode = fn.modeAfter k.e0 k.mode ∧ (k.call int fn).e0 = k.e0 := by
  cases fn with
  | doSelf =>
      simp only [call, doSelf, KeyFn.modeAfter]
      split_ifs <;> exact ⟨rfl, rfl⟩
  | minus =>
      simp only [call, minus, doSelf, KeyFn.modeAfter]
      split_ifs <;> exact ⟨rfl, rfl⟩
  | cursor =>
      simp only [call, cursor, KeyFn.modeAfter]
      split_ifs <;> exact ⟨rfl, rfl⟩
  | func =>
      simp only [call, func, KeyFn.modeAfter]
      split_ifs <;> exact ⟨rfl, rfl⟩
  | ctrl | unctrl | caps =>
      simp only [call, ctrl, unctrl, caps, KeyFn.modeAfter]
      split_ifs <;> exact ⟨rfl, rfl⟩
  | _ => exact ⟨rfl, rfl⟩

/-- What a code that is no prefix does to `mode`. -/
def modeAfterCode (c e0 mode : BitVec 8) : BitVec 8 :=
  match keyTable.getD c.toNat none with
  | none => mode
  | some fn => fn.modeAfter e0 mode

theorem Keyboard.dispatch_prefix (int : ScanInterrupt) (k : Keyboard)
    (hCode : int.code = 0xE0 ∨ int.code = 0xE1) :
    (k.dispatch int).mode = k.mode ∧ (k.dispatch int).e0 ≠ 0 := by
  rw [dispatch]
  split_ifs with hE0 hE1
  · exact ⟨rfl, (by decide : (1 : BitVec 8) ≠ 0)⟩
  · exact ⟨rfl, (by decide : (2 : BitVec 8) ≠ 0)⟩
  · tauto

theorem Keyboard.dispatch_code (int : ScanInterrupt) (k : Keyboard)
    (hCode : ¬(int.code = 0xE0 ∨ int.code = 0xE1)) :
    (k.dispatch int).mode = modeAfterCode int.code k.e0 k.mode ∧ (k.dispatch int).e0 = k.e0 := by
  rw [not_or] at hCode
  rw [dispatch, if_neg hCode.1, if_neg hCode.2, modeAfterCode]
  cases keyTable.getD int.code.toNat none with
  | none => exact ⟨rfl, rfl⟩
  | some fn => exact k.call_frame int fn

section Bits

/-- Each function that changes `mode` stands in the table under one code. -/
theorem keyTable_iff : ∀ entry ∈ [(KeyFn.lshift, 0x2A#8), (.unlshift, 0xAA#8), (.rshift, 0x36#8),
    (.unrshift, 0xB6#8), (.ctrl, 0x1D#8), (.unctrl, 0x9D#8), (.caps, 0x3A#8), (.uncaps, 0xBA#8)],
    ∀ c : BitVec 8, keyTable.getD c.toNat none = some entry.1 ↔ c = entry.2 := by
  decide +kernel

theorem getLsbD_seven (mode : BitVec 8) : mode &&& 0x80 ≠ 0 ↔ mode.getLsbD 7 = true := by
  revert mode
  decide +kernel

variable (c e0 mode : BitVec 8)

theorem modeAfterCode_shift :
    (modeAfterCode c e0 mode).getLsbD 0 =
        (if c = 0x2A#8 then true else if c = 0xAA#8 then false else mode.getLsbD 0) ∧
      (modeAfterCode c e0 mode).getLsbD 1 =
        (if c = 0x36#8 then true else if c = 0xB6#8 then false else mode.getLsbD 1) := by
  have hLShift := keyTable_iff (.lshift, 0x2A#8) (by decide) c
  have hUnLShift := keyTable_iff (.unlshift, 0xAA#8) (by decide) c
  have hRShift := keyTable_iff (.rshift, 0x36#8) (by decide) c
  have hUnRShift := keyTable_iff (.unrshift, 0xB6#8) (by decide) c
  dsimp only at hLShift hUnLShift hRShift hUnRShift
  simp only [modeAfterCode, ← hLShift, ← hUnLShift, ← hRShift, ← hUnRShift]
  cases keyTable.getD c.toNat none with
  | none => simp
  | some fn => cases fn <;> simp [KeyFn.modeAfter] <;> grind

theorem modeAfterCode_ctrl :
    (modeAfterCode c e0 mode).getLsbD 2 =
        (if c = 0x1D#8 ∧ e0 = 0 then true else if c = 0x9D#8 ∧ e0 = 0 then false
          else mode.getLsbD 2) ∧
      (modeAfterCode c e0 mode).getLsbD 3 =
        (if c = 0x1D#8 ∧ e0 ≠ 0 then true else if c = 0x9D#8 ∧ e0 ≠ 0 then false
          else mode.getLsbD 3) := by
  have hCtrl := keyTable_iff (.ctrl, 0x1D#8) (by decide) c
  have hUnCtrl := keyTable_iff (.unctrl, 0x9D#8) (by decide) c
  dsimp only at hCtrl hUnCtrl
  simp only [modeAfterCode, ← hCtrl, ← hUnCtrl]
  cases keyTable.getD c.toNat none with
  | none => simp
  | some fn => cases fn <;> simp [KeyFn.modeAfter] <;> split_ifs <;> simp_all

theorem modeAfterCode_caps :
    (modeAfterCode c e0 mode).getLsbD 6 =
        (if c = 0x3A#8 ∧ mode.getLsbD 7 = false then !mode.getLsbD 6 else mode.getLsbD 6) ∧
      (modeAfterCode c e0 mode).getLsbD 7 =
        (if c = 0x3A#8 then true else if c = 0xBA#8 then false else mode.getLsbD 7) := by
  have hCaps := keyTable_iff (.caps, 0x3A#8) (by decide) c
  have hUnCaps := keyTable_iff (.uncaps, 0xBA#8) (by decide) c
  have hSeven := getLsbD_seven mode
  dsimp only at hCaps hUnCaps
  simp only [modeAfterCode, ← hCaps, ← hUnCaps]
  cases keyTable.getD c.toNat none with
  | none => simp
  | some fn => cases fn <;> simp [KeyFn.modeAfter] <;> split_ifs <;> simp_all

end Bits

/-- A key of the keyboard, by the code of its make; `extended` keys send 0xE0 in
front of their codes. -/
structure Key where
  extended : Bool
  code : BitVec 8
  deriving DecidableEq, Repr

namespace Key

def leftShift : Key := ⟨false, 0x2A⟩
def rightShift : Key := ⟨false, 0x36⟩
def leftCtrl : Key := ⟨false, 0x1D⟩
def rightCtrl : Key := ⟨true, 0x1D⟩

/-- The code is one of a make, it is not taken for a prefix in a break, and it is no
fake shift. -/
structure Valid (key : Key) : Prop where
  make : key.code.toNat < 0x80
  not_prefix : key.code ≠ 0x60 ∧ key.code ≠ 0x61
  not_fake : ¬(key.extended = true ∧ (key.code = 0x2A ∨ key.code = 0x36))

end Key

/-- A key goes down, or is repeated, or goes up; with what lies behind the tables of
the driver when its code comes. -/
structure KeyEvent where
  key : Key
  down : Bool
  behindKeyMap : Nat → BitVec 8
  behindShiftMap : Nat → BitVec 8

namespace KeyEvent

/-- The code of the event, without its prefix. -/
def int (e : KeyEvent) : ScanInterrupt where
  code := if e.down then e.key.code else e.key.code ||| 0x80
  behindKeyMap := e.behindKeyMap
  behindShiftMap := e.behindShiftMap

def ints (e : KeyEvent) : List ScanInterrupt :=
  (if e.key.extended then [{ e.int with code := 0xE0 }] else []) ++ [e.int]

/-- The keys held down, after one more event. -/
def hold (held : Key → Bool) (e : KeyEvent) : Key → Bool := Function.update held e.key e.down

/-- Every key is one of the keyboard, and only a key held down goes up. -/
def WellFormed (held : Key → Bool) : List KeyEvent → Prop
  | [] => True
  | e :: events =>
      e.key.Valid ∧ (e.down = false → held e.key = true) ∧ WellFormed (hold held e) events

end KeyEvent

/-- The lower four bits of `mode` say which Shift and Ctrl keys are held. -/
structure Mirrors (mode : BitVec 8) (held : Key → Bool) : Prop where
  leftShift : mode.getLsbD 0 = held .leftShift
  rightShift : mode.getLsbD 1 = held .rightShift
  leftCtrl : mode.getLsbD 2 = held .leftCtrl
  rightCtrl : mode.getLsbD 3 = held .rightCtrl

theorem mirrors_iff {mode : BitVec 8} {held : Key → Bool} :
    Mirrors mode held ↔ mode.getLsbD 0 = held .leftShift ∧ mode.getLsbD 1 = held .rightShift ∧
      mode.getLsbD 2 = held .leftCtrl ∧ mode.getLsbD 3 = held .rightCtrl :=
  ⟨fun h => ⟨h.leftShift, h.rightShift, h.leftCtrl, h.rightCtrl⟩,
    fun h => ⟨h.1, h.2.1, h.2.2.1, h.2.2.2⟩⟩

section Events

variable {k : Keyboard} {held : Key → Bool} {e : KeyEvent}

/-- A code and its break differ in the top bit. -/
theorem breakCode : ∀ m ∈ [0x2A#8, 0x36#8, 0x1D#8], ∀ code : BitVec 8, code.toNat < 0x80 →
    (code ||| 0x80 = m ||| 0x80 ↔ code = m) ∧ code ||| 0x80 ≠ m ∧ code ≠ m ||| 0x80 := by
  decide +kernel

theorem Key.Valid.int_not_prefix (hValid : e.key.Valid) :
    ¬(e.int.code = 0xE0 ∨ e.int.code = 0xE1) := by
  have hCodes : ∀ code : BitVec 8, code.toNat < 0x80 → code ≠ 0x60 → code ≠ 0x61 →
      (code ≠ 0xE0 ∧ code ≠ 0xE1) ∧ code ||| 0x80 ≠ 0xE0 ∧ code ||| 0x80 ≠ 0xE1 := by
    decide +kernel
  obtain ⟨hDown, hUp⟩ := hCodes e.key.code hValid.make hValid.not_prefix.1 hValid.not_prefix.2
  rw [not_or, KeyEvent.int]
  dsimp only
  split_ifs
  · exact hDown
  · exact hUp

theorem Keyboard.run_append (d : Display) (ints ints' : List ScanInterrupt) (k : Keyboard) :
    Keyboard.run d (ints ++ ints') k = (Keyboard.run d ints k).bind (Keyboard.run d ints') := by
  induction ints generalizing k with
  | nil => rfl
  | cons int ints ih =>
      rw [List.cons_append, run, run]
      cases k.keyboardHandler d int with
      | error stop => rfl
      | ok k' => exact ih k'

theorem Keyboard.run_one (d : Display) (int : ScanInterrupt) (k : Keyboard) :
    Keyboard.run d [int] k = k.keyboardHandler d int := by
  rw [run]
  cases k.keyboardHandler d int with
  | error stop => rfl
  | ok k' => rfl

/-- `mode` and `e0` after an event: the prefix of an extended key stays. -/
theorem KeyEvent.run_ok (d : Display) (hValid : e.key.Valid) (hIdle : k.tty.Idle) :
    ∃ k', Keyboard.run d e.ints k = .ok k' ∧ k'.tty.Idle ∧
      k'.e0 = (if e.key.extended then 1 else k.e0) ∧
      k'.mode = modeAfterCode e.int.code k'.e0 k.mode := by
  have hCode := hValid.int_not_prefix
  have hPlain : ∀ k : Keyboard, k.tty.Idle → ∃ k', k.keyboardHandler d e.int = .ok k' ∧
      k'.tty.Idle ∧ k'.e0 = k.e0 ∧ k'.mode = modeAfterCode e.int.code k.e0 k.mode := by
    intro k hIdle
    obtain ⟨tty, hEnd, hTty⟩ := Keyboard.keyboardHandler_ok d e.int hIdle
    obtain ⟨hMode, hE0⟩ := k.dispatch_code e.int hCode
    exact ⟨_, hEnd, hTty, hE0, hMode⟩
  cases hExtended : e.key.extended with
  | false =>
      obtain ⟨k', hEnd, hTty, hE0, hMode⟩ := hPlain k hIdle
      refine ⟨k', ?_, hTty, hE0, hE0 ▸ hMode⟩
      rw [ints, hExtended, if_neg Bool.false_ne_true, List.nil_append, Keyboard.run_one, hEnd]
  | true =>
      obtain ⟨tty, hPrefix, hTty⟩ :=
        Keyboard.keyboardHandler_ok d { e.int with code := 0xE0 } hIdle
      obtain ⟨k', hEnd, hTty', hE0, hMode⟩ := hPlain
        { k.dispatch { e.int with code := 0xE0 } with tty := tty } hTty
      have hSet : (k.dispatch { e.int with code := 0xE0 }).e0 = 1 := rfl
      have hKept : (k.dispatch { e.int with code := 0xE0 }).mode = k.mode := rfl
      refine ⟨k', ?_, hTty', hE0.trans hSet, ?_⟩
      · rw [ints, hExtended, if_pos rfl, Keyboard.run_append, Keyboard.run_one, hPrefix]
        exact (Keyboard.run_one d e.int _).trans hEnd
      · rw [hMode, hE0]
        exact congrArg (modeAfterCode e.int.code _) hKept

theorem KeyEvent.hold_apply (held : Key → Bool) (e : KeyEvent) (key : Key) :
    KeyEvent.hold held e key = if key = e.key then e.down else held key :=
  Function.update_apply _ _ _ _

/-- An event keeps the mirror, unless it is one of the left Ctrl while `e0` is set;
then only a repeated make does, while the other Ctrl is held too. -/
theorem Mirrors.event_iff (h : Mirrors k.mode held) (hValid : e.key.Valid)
    (hBreak : e.down = false → held e.key = true) {e0 : BitVec 8}
    (hE0 : e0 = if e.key.extended then 1 else k.e0) :
    Mirrors (modeAfterCode e.int.code e0 k.mode) (KeyEvent.hold held e) ↔
      (e.key = .leftCtrl → k.e0 ≠ 0 →
        e.down = true ∧ held .leftCtrl = true ∧ held .rightCtrl = true) := by
  obtain ⟨hShift0, hShift1⟩ := modeAfterCode_shift e.int.code e0 k.mode
  obtain ⟨hCtrl2, hCtrl3⟩ := modeAfterCode_ctrl e.int.code e0 k.mode
  rw [mirrors_iff, hShift0, hShift1, hCtrl2, hCtrl3, h.leftShift, h.rightShift, h.leftCtrl,
    h.rightCtrl]
  simp only [KeyEvent.hold_apply]
  obtain ⟨⟨extended, code⟩, down, behindKeyMap, behindShiftMap⟩ := e
  obtain ⟨hMake, -, hFake⟩ := hValid
  have h2A := breakCode 0x2A (by decide) code hMake
  have h36 := breakCode 0x36 (by decide) code hMake
  have h1D := breakCode 0x1D (by decide) code hMake
  simp only [Key.leftShift, Key.rightShift, Key.leftCtrl, Key.rightCtrl, Key.mk.injEq,
    KeyEvent.int] at *
  cases extended with
  | false =>
      cases down with
      | false =>
        simp only [Bool.false_eq_true, if_false] at *
        grind
      | true =>
        simp only [if_true] at *
        grind
  | true =>
      cases down with
      | false =>
        simp only [Bool.false_eq_true, if_false, if_true] at *
        grind
      | true =>
        simp only [if_true] at *
        grind

/-- The bits are right after every event of a run exactly if every event of the left
Ctrl that finds `e0` set keeps them right. -/
theorem Mirrors.run_iff (d : Display) (h : Mirrors k.mode held) (hIdle : k.tty.Idle)
    {events : List KeyEvent} (hWell : KeyEvent.WellFormed held events) :
    (∀ early, early <+: events → ∃ k', Keyboard.run d (early.flatMap KeyEvent.ints) k = .ok k' ∧
      Mirrors k'.mode (early.foldl KeyEvent.hold held)) ↔
    ∀ early e late, events = early ++ e :: late → e.key = .leftCtrl →
      (k.e0 ≠ 0 ∨ ∃ e' ∈ early, e'.key.extended = true) →
      e.down = true ∧ early.foldl KeyEvent.hold held .leftCtrl = true ∧
        early.foldl KeyEvent.hold held .rightCtrl = true := by
  induction events generalizing k held with
  | nil =>
      refine ⟨fun _ early e late hEvents => by simp at hEvents, fun _ early hEarly => ?_⟩
      rw [List.prefix_nil.mp hEarly]
      exact ⟨k, rfl, h⟩
  | cons e events ih =>
      obtain ⟨hValid, hBreak, hRest⟩ := hWell
      obtain ⟨k₁, hRun, hIdle₁, hE0, hMode⟩ := KeyEvent.run_ok d hValid hIdle
      have hEvent := h.event_iff hValid hBreak hE0
      rw [← hMode] at hEvent
      have hPrefix : ∀ early : List KeyEvent, Keyboard.run d ((e :: early).flatMap KeyEvent.ints) k =
          Keyboard.run d (early.flatMap KeyEvent.ints) k₁ := by
        intro early
        rw [List.flatMap_cons, Keyboard.run_append, hRun]
        rfl
      have hSetIff : ∀ early : List KeyEvent,
          (k₁.e0 ≠ 0 ∨ ∃ e' ∈ early, e'.key.extended = true) ↔
            (k.e0 ≠ 0 ∨ ∃ e' ∈ e :: early, e'.key.extended = true) := by
        intro early
        rw [hE0]
        cases hExtended : e.key.extended <;> simp [hExtended]
      constructor
      · intro hAll
        have hFirst : Mirrors k₁.mode (KeyEvent.hold held e) := by
          obtain ⟨k', hEnd, hMirrors⟩ := hAll [e] ⟨events, rfl⟩
          rw [hPrefix] at hEnd
          cases hEnd
          exact hMirrors
        have hLater := (ih hFirst hIdle₁ hRest).mp fun early hEarly => by
          have hOne := hAll (e :: early) (List.cons_prefix_cons.mpr ⟨rfl, hEarly⟩)
          rwa [hPrefix] at hOne
        intro early e' late hEvents hKey hSet
        cases early with
        | nil =>
            cases hEvents
            exact hEvent.mp hFirst hKey (hSet.resolve_right (by simp))
        | cons first early =>
            cases hEvents
            exact hLater early e' late rfl hKey ((hSetIff early).mpr hSet)
      · intro hAll early hEarly
        have hFirst : Mirrors k₁.mode (KeyEvent.hold held e) :=
          hEvent.mpr fun hKey hSet => hAll [] e events rfl hKey (.inl hSet)
        cases early with
        | nil => exact ⟨k, rfl, h⟩
        | cons first early =>
            obtain ⟨rfl, hRestEarly⟩ := List.cons_prefix_cons.mp hEarly
            rw [hPrefix]
            refine (ih hFirst hIdle₁ hRest).mpr ?_ early hRestEarly
            intro before e' late hEvents hKey hSet
            exact hAll (first :: before) e' late (by rw [hEvents]; rfl) hKey
              ((hSetIff before).mp hSet)

end Events

/-- From `mode = 0`, for every well-formed stream of key events: after every event the
four bits say which Shift and Ctrl keys are held, if and only if no left Ctrl
changes after an extended key. Such a key sets `e0` for good, and from then on
the left Ctrl is taken for the right one; only its repetition while both Ctrl keys
are held does no harm. -/
theorem modifier_bits_iff (d : Display) {k : Keyboard} (hMode : k.mode = 0) (hE0 : k.e0 = 0)
    (hIdle : k.tty.Idle) (events : List KeyEvent)
    (hWell : KeyEvent.WellFormed (fun _ => false) events) :
    (∀ early, early <+: events → ∃ k', Keyboard.run d (early.flatMap KeyEvent.ints) k = .ok k' ∧
      Mirrors k'.mode (early.foldl KeyEvent.hold fun _ => false)) ↔
    ∀ early e late, events = early ++ e :: late → e.key = .leftCtrl →
      (∃ e' ∈ early, e'.key.extended = true) →
      e.down = true ∧ early.foldl KeyEvent.hold (fun _ => false) .leftCtrl = true ∧
        early.foldl KeyEvent.hold (fun _ => false) .rightCtrl = true := by
  have hStart : Mirrors k.mode fun _ => false := by
    rw [hMode]
    exact ⟨rfl, rfl, rfl, rfl⟩
  rw [hStart.run_iff d hIdle hWell]
  simp only [hE0, ne_eq, not_true_eq_false, false_or]

/-- The driver before the first interrupt. -/
def Keyboard.cleared (tty : Tty) : Keyboard where
  scanCode := 0
  leds := 0
  mode := 0
  e0 := 0
  sent := []
  tty := tty

def KeyEvent.plain (key : Key) (down : Bool) : KeyEvent where
  key := key
  down := down
  behindKeyMap _ := 0
  behindShiftMap _ := 0

theorem Tty.idle_init (d : Display) : (Tty.init d (fun _ => 0) ⟨0, fun _ => 0⟩ 0 0).Idle :=
  ⟨⟨TtyQueue.holds_cleared, Nat.zero_le _⟩, TtyQueue.holds_cleared⟩

/-- The right arrow key and then the left Ctrl: bit 3 is set, not bit 2. -/
theorem modifier_bits_stick :
    let events := [KeyEvent.plain ⟨true, 0x4D⟩ true, .plain ⟨true, 0x4D⟩ false, .plain .leftCtrl true]
    KeyEvent.WellFormed (fun _ => false) events ∧
      ¬∀ early, early <+: events → ∃ k', Keyboard.run ega80x25.toDisplay
          (early.flatMap KeyEvent.ints)
          (.cleared (Tty.init ega80x25.toDisplay (fun _ => 0) ⟨0, fun _ => 0⟩ 0 0)) = .ok k' ∧
        Mirrors k'.mode (early.foldl KeyEvent.hold fun _ => false) := by
  intro events
  have hWell : KeyEvent.WellFormed (fun _ => false) events :=
    ⟨⟨by decide, by decide, by decide⟩, by decide, ⟨by decide, by decide, by decide⟩, by decide,
      ⟨by decide, by decide, by decide⟩, by decide, trivial⟩
  refine ⟨hWell, fun hAll => ?_⟩
  have hStart : Mirrors (0 : BitVec 8) fun _ => false := ⟨rfl, rfl, rfl, rfl⟩
  have hHeld := (Mirrors.run_iff (k := .cleared _) ega80x25.toDisplay hStart
    (Tty.idle_init _) hWell).mp hAll [.plain ⟨true, 0x4D⟩ true, .plain ⟨true, 0x4D⟩ false]
    (.plain .leftCtrl true) [] rfl rfl (.inr ⟨_, List.mem_cons_self, rfl⟩)
  exact absurd hHeld.2.1 (by decide)

/-- A Shift and the left Ctrl, before any extended key. -/
theorem modifier_bits_plain :
    let events := [KeyEvent.plain .leftShift true, .plain .leftCtrl true, .plain .leftCtrl false]
    ∀ early, early <+: events → ∃ k', Keyboard.run ega80x25.toDisplay
        (early.flatMap KeyEvent.ints)
        (.cleared (Tty.init ega80x25.toDisplay (fun _ => 0) ⟨0, fun _ => 0⟩ 0 0)) = .ok k' ∧
      Mirrors k'.mode (early.foldl KeyEvent.hold fun _ => false) := by
  intro events
  refine (modifier_bits_iff (k := .cleared _) ega80x25.toDisplay rfl rfl (Tty.idle_init _) events
    ⟨⟨by decide, by decide, by decide⟩, by decide, ⟨by decide, by decide, by decide⟩, by decide,
      ⟨by decide, by decide, by decide⟩, by decide, trivial⟩).mpr ?_
  intro early e late hEvents _ ⟨e', hEarly, hExtended⟩
  have hPlain : ∀ e ∈ events, e.key.extended = false := by simp [events, KeyEvent.plain, Key.leftShift, Key.leftCtrl]
  have hMem : e' ∈ events := hEvents ▸ List.mem_append_left _ hEarly
  exact absurd ((hPlain e' hMem).symm.trans hExtended) Bool.false_ne_true

end Linux011

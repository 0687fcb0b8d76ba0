import Linux011.ChrDrv.Translation
import Mathlib.Data.List.Induction

/-! Caps Lock, Scroll Lock and Num Lock, and the LEDs that show them, after any
sequence of scan codes. -/
namespace Linux011

namespace Keyboard

/-- What every interrupt keeps, and taking the characters out of `read_q` too,
holds after every run. -/
theorem run_invariant (d : Display) (Inv : List (BitVec 8) → Keyboard → Prop)
    (hTaken : ∀ codes k tty, Inv codes k → Inv codes { k with tty := tty })
    (hStep : ∀ codes k (int : ScanInterrupt), Inv codes k → Inv (codes ++ [int.code]) (k.dispatch int))
    {k : Keyboard} (hIdle : k.tty.Idle) (hStart : Inv [] k) (ints : List ScanInterrupt) :
    ∃ k', run d ints k = .ok k' ∧ k'.tty.Idle ∧ Inv (ints.map ScanInterrupt.code) k' := by
  induction ints using List.reverseRecOn with
  | nil => exact ⟨k, rfl, hIdle, hStart⟩
  | append_singleton ints int ih =>
      obtain ⟨k', hRun, hIdle', hInv⟩ := ih
      obtain ⟨tty, hEnd, hTty⟩ := keyboardHandler_ok d int hIdle'
      refine ⟨{ k'.dispatch int with tty := tty }, ?_, hTty, ?_⟩
      · rw [run_append, hRun, ← hEnd]
        exact run_one d int k'
      · rw [List.map_append]
        exact hTaken _ _ tty (hStep _ k' int hInv)

end Keyboard

/-- What a function of the table does to `leds`. -/
def KeyFn.ledsAfter (fn : KeyFn) (mode leds : BitVec 8) : BitVec 8 :=
  match fn with
  | .caps => if mode &&& 0x80 ≠ 0 then leds else leds ^^^ 0x04
  | .scroll => leds ^^^ 0x01
  | .num => leds ^^^ 0x02
  | _ => leds

theorem Keyboard.call_leds (int : ScanInterrupt) (k : Keyboard) (fn : KeyFn) :
    (k.call int fn).leds = fn.ledsAfter k.mode k.leds := by
  cases fn with
  | doSelf =>
      simp only [call, doSelf, KeyFn.ledsAfter]
      split_ifs <;> rfl
  | minus =>
      simp only [call, minus, doSelf, KeyFn.ledsAfter]
      split_ifs <;> rfl
  | cursor =>
      simp only [call, cursor, KeyFn.ledsAfter]
      split_ifs <;> rfl
  | func =>
      simp only [call, func, KeyFn.ledsAfter]
      split_ifs <;> rfl
  | ctrl | unctrl | caps =>
      simp only [call, ctrl, unctrl, caps, KeyFn.ledsAfter]
      split_ifs <;> rfl
  | _ => rfl

/-- What a code that is no prefix does to `leds`. -/
def ledsAfterCode (c mode leds : BitVec 8) : BitVec 8 :=
  match keyTable.getD c.toNat none with
  | none => leds
  | some fn => fn.ledsAfter mode leds

theorem Keyboard.dispatch_leds (int : ScanInterrupt) (k : Keyboard)
    (hCode : ¬(int.code = 0xE0 ∨ int.code = 0xE1)) :
    (k.dispatch int).leds = ledsAfterCode int.code k.mode k.leds := by
  rw [not_or] at hCode
  rw [dispatch, if_neg hCode.1, if_neg hCode.2, ledsAfterCode]
  cases keyTable.getD int.code.toNat none with
  | none => rfl
  | some fn => exact k.call_leds int fn

theorem Keyboard.dispatch_prefix_leds (int : ScanInterrupt) (k : Keyboard)
    (hCode : int.code = 0xE0 ∨ int.code = 0xE1) : (k.dispatch int).leds = k.leds := by
  rw [dispatch]
  split_ifs
  · rfl
  · rfl
  · tauto

section Bits

variable (c mode leds : BitVec 8)

theorem keyTable_locks : ∀ entry ∈ [(KeyFn.caps, 0x3A#8), (.num, 0x45#8), (.scroll, 0x46#8)],
    ∀ c : BitVec 8, keyTable.getD c.toNat none = some entry.1 ↔ c = entry.2 := by
  decide +kernel

theorem ledsAfterCode_bits :
    (ledsAfterCode c mode leds).getLsbD 0 = (if c = 0x46#8 then !leds.getLsbD 0 else leds.getLsbD 0) ∧
      (ledsAfterCode c mode leds).getLsbD 1 = (if c = 0x45#8 then !leds.getLsbD 1 else leds.getLsbD 1) ∧
      (ledsAfterCode c mode leds).getLsbD 2 =
        (if c = 0x3A#8 ∧ mode.getLsbD 7 = false then !leds.getLsbD 2 else leds.getLsbD 2) := by
  have hCaps := keyTable_locks (.caps, 0x3A#8) (by decide) c
  have hNum := keyTable_locks (.num, 0x45#8) (by decide) c
  have hScroll := keyTable_locks (.scroll, 0x46#8) (by decide) c
  have hSeven := getLsbD_seven mode
  dsimp only at hCaps hNum hScroll
  simp only [ledsAfterCode, ← hCaps, ← hNum, ← hScroll]
  cases keyTable.getD c.toNat none with
  | none => simp
  | some fn =>
      cases fn <;> simp [KeyFn.ledsAfter]
      split_ifs <;> simp_all

end Bits

/-- Of the codes `a` and `b` the last one was `a`. -/
def LastOf (a b : BitVec 8) (codes : List (BitVec 8)) : Prop :=
  (codes.filter fun c => c = a ∨ c = b).getLast? = some a

/-- The last of the codes 0x3A and 0xBA was 0x3A. -/
def CapsDown (codes : List (BitVec 8)) : Prop := LastOf 0x3A#8 0xBA#8 codes

/-- Before the code with number `i` there is a 0x3A, and no 0xBA since. -/
def CapsHeld (codes : List (BitVec 8)) (i : Nat) : Prop :=
  ∃ j < i, codes[j]? = some 0x3A#8 ∧ ∀ m < i, j < m → codes[m]? ≠ some 0xBA#8

instance (codes : List (BitVec 8)) (i : Nat) : Decidable (CapsHeld codes i) :=
  inferInstanceAs (Decidable (∃ j < i, _ ∧ ∀ m < i, _))

/-- How many codes 0x3A are presses and no repetitions. -/
def capsPresses (codes : List (BitVec 8)) : Nat :=
  (List.range codes.length).countP fun i => codes[i]? = some 0x3A#8 ∧ ¬CapsHeld codes i

section Codes

variable {codes : List (BitVec 8)} {c : BitVec 8}

theorem capsHeld_append (late : List (BitVec 8)) {i : Nat} (hi : i ≤ codes.length) :
    CapsHeld (codes ++ late) i ↔ CapsHeld codes i := by
  have hSame {j : Nat} (hj : j < i) : (codes ++ late)[j]? = codes[j]? :=
    List.getElem?_append_left (by omega)
  constructor
  · rintro ⟨j, hj, hDown, hNone⟩
    exact ⟨j, hj, hSame hj ▸ hDown, fun m hm hjm => hSame hm ▸ hNone m hm hjm⟩
  · rintro ⟨j, hj, hDown, hNone⟩
    exact ⟨j, hj, (hSame hj).trans hDown, fun m hm hjm => (hSame hm).symm ▸ hNone m hm hjm⟩

theorem lastOf_snoc {a b : BitVec 8} (hne : a ≠ b) :
    LastOf a b (codes ++ [c]) ↔ c = a ∨ c ≠ b ∧ LastOf a b codes := by
  unfold LastOf
  rw [List.filter_append]
  by_cases hFirst : c = a
  · simp [hFirst]
  · by_cases hSecond : c = b
    · simp [hSecond, hne.symm]
    · simp [hFirst, hSecond]

theorem capsDown_snoc : CapsDown (codes ++ [c]) ↔ c = 0x3A#8 ∨ c ≠ 0xBA#8 ∧ CapsDown codes :=
  lastOf_snoc (by decide)

theorem capsHeld_snoc :
    CapsHeld (codes ++ [c]) (codes.length + 1) ↔ c = 0x3A#8 ∨ c ≠ 0xBA#8 ∧ CapsHeld codes codes.length := by
  have hLast : (codes ++ [c])[codes.length]? = some c := by simp
  have hSame {j : Nat} (hj : j < codes.length) : (codes ++ [c])[j]? = codes[j]? :=
    List.getElem?_append_left hj
  constructor
  · rintro ⟨j, hj, hDown, hNone⟩
    by_cases hEnd : j = codes.length
    · rw [hEnd, hLast] at hDown
      exact .inl (Option.some.inj hDown)
    · refine .inr ⟨fun hUp => ?_, j, by omega, ?_, fun m hm hjm => ?_⟩
      · exact hNone codes.length (by omega) (by omega) (hUp ▸ hLast)
      · exact (hSame (by omega)).symm.trans hDown
      · exact hSame hm ▸ hNone m (by omega) hjm
  · rintro (rfl | ⟨hUp, j, hj, hDown, hNone⟩)
    · exact ⟨codes.length, by omega, hLast, fun m hm hm' => by omega⟩
    · refine ⟨j, by omega, (hSame hj).trans hDown, fun m hm hjm => ?_⟩
      by_cases hEnd : m = codes.length
      · rw [hEnd, hLast]
        exact fun h => hUp (Option.some.inj h)
      · rw [hSame (by omega)]
        exact hNone m (by omega) hjm

/-- Held now, or pressed last: the two say the same. -/
theorem capsHeld_length (codes : List (BitVec 8)) : CapsHeld codes codes.length ↔ CapsDown codes := by
  induction codes using List.reverseRecOn with
  | nil => simp [CapsHeld, CapsDown, LastOf]
  | append_singleton codes c ih => rw [List.length_append, List.length_singleton, capsHeld_snoc, capsDown_snoc, ih]

theorem capsPresses_snoc :
    (capsPresses (codes ++ [c]) : Nat) =
      capsPresses codes + if c = 0x3A#8 ∧ ¬CapsHeld codes codes.length then 1 else 0 := by
  have hEarly : ∀ i ∈ List.range codes.length,
      (decide ((codes ++ [c])[i]? = some 0x3A#8 ∧ ¬CapsHeld (codes ++ [c]) i)) =
        decide (codes[i]? = some 0x3A#8 ∧ ¬CapsHeld codes i) := by
    intro i hi
    have hLt := List.mem_range.mp hi
    rw [List.getElem?_append_left hLt]
    exact decide_eq_decide.mpr (and_congr_right fun _ => not_congr (capsHeld_append [c] hLt.le))
  have hLast : (codes ++ [c])[codes.length]? = some c := by simp
  have hHeld : CapsHeld (codes ++ [c]) codes.length ↔ CapsHeld codes codes.length :=
    capsHeld_append [c] (Nat.le_refl _)
  rw [capsPresses, List.length_append, List.length_singleton, List.range_succ, List.countP_append,
    List.countP_congr fun i hi => by rw [hEarly i hi], capsPresses, List.countP_singleton, hLast]
  simp only [Option.some.injEq, hHeld, decide_eq_true_eq]

end Codes

/-- The lock keys after `codes`: the Caps Lock LED shows bit 6 of `mode`, which has
turned over at every press; bit 7 says that the key is down; the other two LEDs have
turned over at every code of their keys. -/
structure Locks (codes : List (BitVec 8)) (k : Keyboard) : Prop where
  led : k.leds.getLsbD 2 = k.mode.getLsbD 6
  down : k.mode.getLsbD 7 = true ↔ CapsDown codes
  caps : k.mode.getLsbD 6 = decide (capsPresses codes % 2 = 1)
  scroll : k.leds.getLsbD 0 = decide (codes.count 0x46#8 % 2 = 1)
  num : k.leds.getLsbD 1 = decide (codes.count 0x45#8 % 2 = 1)

/-- One more turn. -/
theorem parity_succ (n : Nat) : decide ((n + 1) % 2 = 1) = !decide (n % 2 = 1) := by
  rw [← decide_not]
  exact decide_eq_decide.mpr (by omega)

theorem parity_count (codes : List (BitVec 8)) (c key : BitVec 8) :
    decide ((codes ++ [c]).count key % 2 = 1) =
      if c = key then !decide (codes.count key % 2 = 1) else decide (codes.count key % 2 = 1) := by
  rw [List.count_append, List.count_singleton]
  by_cases hKey : c = key
  · simp only [hKey, beq_self_eq_true, if_true]
    exact parity_succ _
  · simp [hKey]

theorem Locks.dispatch {codes : List (BitVec 8)} {k : Keyboard} (h : Locks codes k) (int : ScanInterrupt) :
    Locks (codes ++ [int.code]) (k.dispatch int) := by
  have hHeld := capsHeld_length codes
  by_cases hPrefix : int.code = 0xE0 ∨ int.code = 0xE1
  · obtain ⟨hMode, -⟩ := k.dispatch_prefix int hPrefix
    have hLeds := k.dispatch_prefix_leds int hPrefix
    have hOther : int.code ≠ 0x3A#8 ∧ int.code ≠ 0xBA#8 ∧ int.code ≠ 0x45#8 ∧ int.code ≠ 0x46#8 := by
      rcases hPrefix with hCode | hCode <;> rw [hCode] <;> decide
    obtain ⟨hDown, hUp, hNum, hScroll⟩ := hOther
    refine ⟨?_, ?_, ?_, ?_, ?_⟩
    · rw [hLeds, hMode, h.led]
    · rw [hMode, h.down, capsDown_snoc]
      tauto
    · rw [hMode, h.caps, capsPresses_snoc, if_neg fun hPress => hDown hPress.1, Nat.add_zero]
    · rw [hLeds, h.scroll, parity_count, if_neg hScroll]
    · rw [hLeds, h.num, parity_count, if_neg hNum]
  · obtain ⟨hMode, -⟩ := k.dispatch_code int hPrefix
    have hLeds := k.dispatch_leds int hPrefix
    obtain ⟨hSix, hSeven⟩ := modeAfterCode_caps int.code k.e0 k.mode
    obtain ⟨hZero, hOne, hTwo⟩ := ledsAfterCode_bits int.code k.mode k.leds
    have hFree : k.mode.getLsbD 7 = false ↔ ¬CapsHeld codes codes.length := by
      rw [hHeld, ← h.down, Bool.not_eq_true]
    refine ⟨?_, ?_, ?_, ?_, ?_⟩
    · rw [hLeds, hMode, hTwo, hSix, h.led]
    · rw [hMode, hSeven, capsDown_snoc, ← h.down]
      split_ifs <;> simp_all
    · rw [hMode, hSix, h.caps, capsPresses_snoc]
      by_cases hPress : int.code = 0x3A#8 ∧ k.mode.getLsbD 7 = false
      · rw [if_pos hPress, if_pos ⟨hPress.1, hFree.mp hPress.2⟩]
        exact (parity_succ _).symm
      · rw [if_neg hPress, if_neg fun hNew => hPress ⟨hNew.1, hFree.mpr hNew.2⟩, Nat.add_zero]
    · rw [hLeds, hZero, h.scroll, parity_count]
    · rw [hLeds, hOne, h.num, parity_count]

/-- From `mode = leds = 0`, after every sequence of scan codes. -/
theorem caps_lock_never_drifts (d : Display) {k : Keyboard} (hMode : k.mode = 0) (hLeds : k.leds = 0)
    (hIdle : k.tty.Idle) (ints : List ScanInterrupt) :
    ∃ k', Keyboard.run d ints k = .ok k' ∧ Locks (ints.map ScanInterrupt.code) k' := by
  have hStart : Locks [] k := by
    refine ⟨?_, ?_, ?_, ?_, ?_⟩
    · rw [hLeds, hMode]
      rfl
    · rw [hMode]
      simp [CapsDown, LastOf]
    · rw [hMode]
      rfl
    · rw [hLeds]
      rfl
    · rw [hLeds]
      rfl
  obtain ⟨k', hRun, -, hLocks⟩ := Keyboard.run_invariant d Locks
    (fun _ _ _ h => ⟨h.led, h.down, h.caps, h.scroll, h.num⟩) (fun _ _ int h => h.dispatch int)
    hIdle hStart ints
  exact ⟨k', hRun, hLocks⟩

/-- Caps Lock pressed, repeated and released: one turn. -/
theorem caps_lock_never_drifts_repeat :
    ∃ k', Keyboard.run ega80x25.toDisplay [.plain 0x3A, .plain 0x3A, .plain 0xBA]
        (.cleared (Tty.init ega80x25.toDisplay (fun _ => 0) ⟨0, fun _ => 0⟩ 0 0)) = .ok k' ∧
      k'.leds.getLsbD 2 = true ∧ k'.mode.getLsbD 6 = true := by
  obtain ⟨k', hRun, hLocks⟩ := caps_lock_never_drifts (k := .cleared _) ega80x25.toDisplay rfl rfl
    (Tty.idle_init _) [.plain 0x3A, .plain 0x3A, .plain 0xBA]
  have hOn : k'.mode.getLsbD 6 = true := hLocks.caps
  exact ⟨k', hRun, hLocks.led.trans hOn, hOn⟩

end Linux011

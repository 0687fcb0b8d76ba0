import Linux011.Kernel.Scan

/-! What one directive prints. -/
namespace Linux011.Vsprintf

open Printf

/-- `while (--n > 0)` writes `n - 1` bytes and leaves nothing for a second one
like it. -/
theorem padFirst_eq (rounds : Nat) (n : BitVec 32) (hn : -2 ^ 31 < n.toInt)
    (hRounds : (n.toInt - 1).toNat ≤ rounds) :
    (padFirst rounds n).1 = List.replicate (n.toInt - 1).toNat (byte ' ') ∧
      (padFirst rounds n).2.toInt = min (n.toInt - 1) 0 := by
  have hDown := toInt_pred hn
  induction rounds generalizing n with
  | zero =>
      have hNone : (n.toInt - 1).toNat = 0 := by omega
      rw [padFirst, hNone]
      exact ⟨rfl, by simp only [hDown]; omega⟩
  | succ rounds ih =>
      rw [padFirst]
      by_cases hMore : (0#32).slt (n - 1#32)
      · have hPositive : 0 < (n - 1#32).toInt := BitVec.slt_iff_toInt_lt.1 hMore
        have hCount : (n.toInt - 1).toNat = ((n - 1#32).toInt - 1).toNat + 1 := by omega
        obtain ⟨hOut, hRest⟩ := ih (n - 1#32) (by omega) (by omega) (toInt_pred (by omega))
        simp only [if_pos hMore, hCount, List.replicate_succ]
        exact ⟨congrArg (byte ' ' :: ·) hOut, by rw [hRest]; omega⟩
      · have hNone : ¬ 0 < (n - 1#32).toInt := fun h => hMore (BitVec.slt_iff_toInt_lt.2 h)
        have hCount : (n.toInt - 1).toNat = 0 := by omega
        simp only [if_neg hMore, hCount]
        exact ⟨rfl, by omega⟩

/-- The blanks in front of a character. -/
theorem whileFirst_eq (n : BitVec 32) (hn : -2 ^ 31 < n.toInt) :
    (whileFirst n).1 = List.replicate (n.toInt - 1).toNat (byte ' ') ∧
      (whileFirst n).2.toInt = min (n.toInt - 1) 0 := by
  have hDown := toInt_pred hn
  have hCond := BitVec.toInt_eq_toNat_cond (n - 1#32)
  exact padFirst_eq _ n hn (by split_ifs at hCond <;> omega)

/-- `%c` prints a field of one byte. -/
theorem convertChar_eq (flags fieldWidth v : BitVec 32) (hWidth : -2 ^ 31 + 1 < fieldWidth.toInt) :
    convertChar flags fieldWidth v =
      field { styleOf flags with zero := false } fieldWidth.toInt.toNat [] [v.setWidth 8] := by
  obtain ⟨hOut, hRest⟩ := whileFirst_eq fieldWidth (by omega)
  have hBehind := (whileFirst_eq (whileFirst fieldWidth).2 (by omega)).1
  have hMissing : (fieldWidth.toInt - 1).toNat = fieldWidth.toInt.toNat - 1 := by omega
  have hNone : ((whileFirst fieldWidth).2.toInt - 1).toNat = 0 := by omega
  cases hLeft : flags[4] with
  | true => simp [convertChar, field, styleOf, hLeft, hOut, hMissing]
  | false => simp [convertChar, field, styleOf, hLeft, hOut, hBehind, hMissing, hNone]

/-- At most `n` bytes of the string at `p`. -/
def stringAt (memory : ByteMemory.Memory) : Nat → BitVec 32 → List Byte
  | 0, _ => []
  | n + 1, p => if memory p.toNat = 0#8 then [] else memory p.toNat :: stringAt memory n (p + 1#32)

/-- The string at `p`; one has fewer than `2 ^ 31` bytes. -/
def cString (memory : ByteMemory.Memory) (p : BitVec 32) : List Byte := stringAt memory (2 ^ 31) p

/-- The length of a string, as `vsprintf` counts it. -/
theorem strlenFrom_eq (memory : ByteMemory.Memory) (n : Nat) (p : BitVec 32) (rounds : Nat)
    (hEnds : (stringAt memory n p).length < n) (hRounds : n ≤ rounds) :
    strlenFrom memory rounds p = some (stringAt memory n p).length := by
  induction n generalizing p rounds with
  | zero => exact absurd hEnds (Nat.not_lt_zero _)
  | succ n ih =>
      cases rounds with
      | zero => exact absurd hRounds (Nat.not_succ_le_zero _)
      | succ rounds =>
          rw [stringAt] at hEnds ⊢
          rw [strlenFrom]
          by_cases hNul : memory p.toNat = 0#8
          · simp [hNul]
          · rw [if_neg hNul] at hEnds ⊢
            rw [if_neg hNul, ih (p + 1#32) rounds (by simpa using hEnds) (by omega)]
            rfl

theorem copyString_eq (memory : ByteMemory.Memory) (len : BitVec 32) (rounds : Nat) (i : Nat) (s : BitVec 32)
    (n : Nat) (hi : i ≤ len.toInt) (hRounds : len.toInt - i ≤ rounds)
    (hLength : len.toInt - i ≤ (stringAt memory n s).length) :
    copyString memory len rounds (BitVec.ofNat 32 i) s = (stringAt memory n s).take (len.toInt.toNat - i) := by
  have hLess := len.toInt_lt
  have hIndex : (BitVec.ofNat 32 i).toInt = i := toInt_ofNat_of_lt (by omega)
  induction rounds generalizing i s n with
  | zero =>
      have hNone : len.toInt.toNat - i = 0 := by omega
      rw [copyString, hNone, List.take_zero]
  | succ rounds ih =>
      rw [copyString]
      by_cases hMore : (BitVec.ofNat 32 i).slt len
      · have hUp : (i : Int) < len.toInt := by
          rw [← hIndex]
          exact BitVec.slt_iff_toInt_lt.1 hMore
        cases n with
        | zero =>
            simp only [stringAt, List.length_nil] at hLength
            omega
        | succ n =>
            rw [stringAt] at hLength ⊢
            by_cases hNul : memory s.toNat = 0#8
            · rw [if_pos hNul, List.length_nil] at hLength
              omega
            · rw [if_neg hNul] at hLength ⊢
              have hCount : len.toInt.toNat - i = len.toInt.toNat - (i + 1) + 1 := by omega
              rw [if_pos hMore, hCount, List.take_succ_cons, ← BitVec.ofNat_add]
              rw [List.length_cons] at hLength
              rw [ih (i + 1) (s + 1#32) n (by omega) (by omega) (by omega) (toInt_ofNat_of_lt (by omega))]
      · have hDone : ¬ (i : Int) < len.toInt := by
          rw [← hIndex]
          exact fun h => hMore (BitVec.slt_iff_toInt_lt.2 h)
        have hNone : len.toInt.toNat - i = 0 := by omega
        rw [if_neg hMore, hNone, List.take_zero]

theorem copyString_cString (memory : ByteMemory.Memory) (s len : BitVec 32)
    (hLow : 0 ≤ len.toInt) (hHigh : len.toInt ≤ (cString memory s).length) :
    copyString memory len len.toNat 0#32 s = (cString memory s).take len.toInt.toNat := by
  have hNat : len.toInt = len.toNat := by
    have := BitVec.toInt_eq_toNat_cond len
    split_ifs at this <;> omega
  rw [cString] at hHigh ⊢
  exact copyString_eq memory len len.toNat 0 s (2 ^ 31) (by omega) (by omega) (by omega)

/-- `%s` prints a field of the string, cut at the precision. -/
theorem convertString_eq (memory : ByteMemory.Memory) (flags fieldWidth precision s : BitVec 32)
    (hWidth : -2 ^ 31 + 1 < fieldWidth.toInt) (hString : (cString memory s).length < 2 ^ 31) :
    convertString memory flags fieldWidth precision s =
      some (field { styleOf flags with zero := false } fieldWidth.toInt.toNat []
        (if precision.toInt < 0 then cString memory s else (cString memory s).take precision.toInt.toNat)) := by
  have hStrlen : strlen memory s = some (BitVec.ofNat 32 (cString memory s).length) := by
    rw [strlen, strlenFrom_eq memory (2 ^ 31) s (2 ^ 32) hString (by decide)]
    rfl
  have hInt := toInt_ofNat_of_lt hString
  -- `len` is the shorter of the string and a precision that was given.
  obtain ⟨len, hLen, hLow, hHigh, hText⟩ : ∃ len : BitVec 32,
      (if precision.slt 0#32 then BitVec.ofNat 32 (cString memory s).length
        else if precision.slt (BitVec.ofNat 32 (cString memory s).length) then precision
          else BitVec.ofNat 32 (cString memory s).length) = len ∧
      0 ≤ len.toInt ∧ len.toInt ≤ (cString memory s).length ∧
      (cString memory s).take len.toInt.toNat =
        if precision.toInt < 0 then cString memory s else (cString memory s).take precision.toInt.toNat := by
    refine ⟨_, rfl, ?_⟩
    simp only [BitVec.slt_iff_toInt_lt, hInt, show (0#32).toInt = 0 from rfl]
    by_cases hNegative : precision.toInt < 0
    · simp [if_pos hNegative, hInt]
    · by_cases hShort : precision.toInt < (cString memory s).length
      · simp only [if_neg hNegative, if_pos hShort]
        exact ⟨by omega, by omega, trivial⟩
      · simp only [if_neg hNegative, if_neg hShort, hInt]
        refine ⟨by omega, le_refl _, ?_⟩
        rw [List.take_of_length_le (by omega), List.take_of_length_le (by omega)]
  have hCopy := copyString_cString memory s len hLow hHigh
  have hTextLength : (copyString memory len len.toNat 0#32 s).length = len.toInt.toNat := by
    rw [hCopy, List.length_take]
    omega
  obtain ⟨hOut, hRest⟩ := whileAbove_eq (byte ' ') fieldWidth len (by omega) (by omega)
  have hBehind := (whileAbove_eq (byte ' ') (whileAbove (byte ' ') fieldWidth len).2 len (by omega) (by omega)).1
  have hMissing : (fieldWidth.toInt - len.toInt).toNat = fieldWidth.toInt.toNat - len.toInt.toNat := by omega
  have hNone : ((whileAbove (byte ' ') fieldWidth len).2.toInt - len.toInt).toNat = 0 := by omega
  rw [← hText, ← hCopy]
  cases hLeft : flags[4] with
  | true => simp [convertString, hStrlen, hLen, field, styleOf, hLeft, hOut, hMissing, hTextLength]
  | false => simp [convertString, hStrlen, hLen, field, styleOf, hLeft, hOut, hBehind, hMissing, hNone, hTextLength]

/-- What `vsprintf` does at a conversion character of the language. -/
def converted (memory : ByteMemory.Memory) (scan : Scan) (v : BitVec 32) : Conversion → Option (List Byte)
  | .c => some (convertChar scan.flags scan.fieldWidth v)
  | .s => convertString memory scan.flags scan.fieldWidth scan.precision v
  | .o => number v 8#32 scan.fieldWidth scan.precision scan.flags
  | .p =>
      if scan.fieldWidth = -1#32 then number v 16#32 8#32 scan.precision (scan.flags ||| zeroPad)
      else number v 16#32 scan.fieldWidth scan.precision scan.flags
  | .x => number v 16#32 scan.fieldWidth scan.precision (scan.flags ||| small)
  | .upperX => number v 16#32 scan.fieldWidth scan.precision scan.flags
  | .d | .i => number v 10#32 scan.fieldWidth scan.precision (scan.flags ||| sign)
  | .u => number v 10#32 scan.fieldWidth scan.precision scan.flags

/-- A conversion byte takes its argument and prints it. -/
theorem convert_conversion (format : List Byte) (arg : Nat → BitVec 32) (printing : Printing) (scan : Scan)
    (conversion : Conversion) (rest : List Byte) (hAt : At format scan.fmt (conversion.byte :: rest)) :
    convert format arg printing scan =
      (converted printing.memory scan (arg scan.args) conversion).map fun out =>
        { printing with fmt := scan.fmt, args := scan.args + 1, str := printing.str ++ out } := by
  rw [convert]
  simp only [hAt.deref_cons, Option.bind_eq_bind, Option.bind_some]
  cases conversion with
  | p =>
      rw [converted]
      by_cases hWidth : scan.fieldWidth = -1#32
      · simp only [if_pos hWidth]
        rfl
      · simp only [if_neg hWidth]
        rfl
  | c | s | d | i | u | o | x | upperX => rfl

/-- The locals of `vsprintf` say what the directive says; -1 stands for a width
or a precision that is not there. -/
structure Represents (scan : Scan) (layout : Layout) : Prop where
  style : styleOf scan.flags = layout.style
  width : scan.fieldWidth.toInt = layout.width.elim (-1) Nat.cast
  precision : scan.precision.toInt = layout.precision.elim (-1) Nat.cast
  narrow : scan.fieldWidth.toInt < 2 ^ 29
  exact : scan.precision.toInt < 2 ^ 29

section

variable {scan : Scan} {layout : Layout}

theorem Represents.getD_width (h : Represents scan layout) :
    scan.fieldWidth.toInt.toNat = layout.width.getD 0 ∧ -1 ≤ scan.fieldWidth.toInt := by
  have hWidth := h.width
  cases hCase : layout.width with
  | none => simp_all
  | some w =>
      simp only [hCase, Option.elim_some] at hWidth
      simp only [Option.getD_some]
      omega

theorem Represents.getD_precision (h : Represents scan layout) :
    scan.precision.toInt.toNat = layout.precision.getD 0 ∧ -1 ≤ scan.precision.toInt := by
  have hPrecision := h.precision
  cases hCase : layout.precision with
  | none => simp_all
  | some p =>
      simp only [hCase, Option.elim_some] at hPrecision
      simp only [Option.getD_some]
      omega

/-- `number` as the numeric conversions call it. -/
theorem Represents.number_eq (h : Represents scan layout) (v base flags : BitVec 32) (hLow : 2 ≤ base.toNat)
    (hHigh : base.toNat ≤ 36) :
    number v base scan.fieldWidth scan.precision flags = some
      (numeral (styleOf flags) base.toNat (layout.width.getD 0) (layout.precision.getD 0) v) := by
  have hWidth := h.getD_width
  have hPrecision := h.getD_precision
  have hExact := h.exact
  rw [Vsprintf.number_eq v base _ _ flags hLow hHigh (by omega), hWidth.1, hPrecision.1]

theorem converted_eq (memory : ByteMemory.Memory) (v : BitVec 32) (conversion : Conversion)
    (h : Represents scan layout) (hString : conversion = .s → (cString memory v).length < 2 ^ 31) :
    converted memory scan v conversion = some (conversion.render (cString memory) layout v) := by
  have hStyle := h.style
  have hWidth := h.getD_width
  have hPrecision := h.getD_precision
  cases conversion with
  | c =>
      rw [converted, convertChar_eq _ _ _ (by omega), hStyle, hWidth.1]
      rfl
  | s =>
      rw [converted, convertString_eq _ _ _ _ _ (by omega) (hString rfl), hStyle, hWidth.1]
      have hText := h.precision
      cases hCase : layout.precision with
      | none =>
          rw [hCase] at hText
          rw [hText, if_pos (by decide)]
          simp [Conversion.render, hCase]
      | some p =>
          rw [hCase] at hText
          rw [hText, if_neg (by simp)]
          simp [Conversion.render, hCase]
  | d | i =>
      have hSigned : styleOf (scan.flags ||| sign) = { layout.style with signed := true } := by
        rw [← hStyle, styleOf_or]
        simp [styleOf, sign]
      rw [converted, h.number_eq v 10#32 _ (by decide) (by decide), hSigned]
      rfl
  | u =>
      rw [converted, h.number_eq v 10#32 _ (by decide) (by decide), hStyle]
      rfl
  | o =>
      rw [converted, h.number_eq v 8#32 _ (by decide) (by decide), hStyle]
      rfl
  | x =>
      have hSmall : styleOf (scan.flags ||| small) = { layout.style with small := true } := by
        rw [← hStyle, styleOf_or]
        simp [styleOf, small]
      rw [converted, h.number_eq v 16#32 _ (by decide) (by decide), hSmall]
      rfl
  | upperX =>
      rw [converted, h.number_eq v 16#32 _ (by decide) (by decide), hStyle]
      rfl
  | p =>
      have hField := h.width
      have hExact := h.exact
      cases hCase : layout.width with
      | none =>
          rw [hCase] at hField
          have hAbsent : scan.fieldWidth = -1#32 := BitVec.eq_of_toInt_eq hField
          have hZero : styleOf (scan.flags ||| zeroPad) = { layout.style with zero := true } := by
            rw [← hStyle, styleOf_or]
            simp [styleOf, zeroPad]
          rw [converted, if_pos hAbsent, Vsprintf.number_eq v 16#32 8#32 scan.precision _ (by decide) (by decide)
            (by rw [show (8#32).toInt = 8 from rfl]; omega), hZero, hPrecision.1]
          simp only [Conversion.render, hCase]
          rfl
      | some w =>
          rw [hCase] at hField
          have hPresent : scan.fieldWidth ≠ -1#32 := by
            intro hAbsent
            rw [hAbsent, Option.elim_some] at hField
            exact absurd hField (by simp)
          rw [converted, if_neg hPresent, h.number_eq v 16#32 _ (by decide) (by decide), hStyle]
          simp only [Conversion.render, hCase]
          rfl

end

end Linux011.Vsprintf

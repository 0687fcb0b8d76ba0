import Linux011.Kernel.Number

/-! How `vsprintf` moves over a directive. -/
namespace Linux011.Vsprintf

open Printf

variable (format : List Byte)

/-- At the cursor the format goes on with `suffix`. -/
def At (fmt : Nat) (suffix : List Byte) : Prop := ∃ before, format = before ++ suffix ∧ fmt = before.length

section

variable {format} {fmt : Nat} {c : Byte} {rest : List Byte}

/-- Before the first read the whole format is left. -/
theorem at_zero : At format 0 format := ⟨[], rfl, rfl⟩

/-- The next byte of the format is read. -/
theorem At.deref_cons (h : At format fmt (c :: rest)) : deref format fmt = some c := by
  obtain ⟨before, rfl, rfl⟩ := h
  simp [deref]

/-- At the end the NUL is read. -/
theorem At.deref_nil (h : At format fmt []) : deref format fmt = some 0#8 := by
  obtain ⟨before, rfl, rfl⟩ := h
  simp [deref]

/-- A component of the format is passed over. -/
theorem At.skip {xs : List Byte} (h : At format fmt (xs ++ rest)) : At format (fmt + xs.length) rest := by
  obtain ⟨before, rfl, rfl⟩ := h
  exact ⟨before ++ xs, by simp, by simp⟩

theorem At.next (h : At format fmt (c :: rest)) : At format (fmt + 1) rest :=
  show At format (fmt + [c].length) rest from At.skip h

/-- What is left is no longer than the format. -/
theorem At.length_le (h : At format fmt rest) : rest.length ≤ format.length := by
  obtain ⟨before, rfl, rfl⟩ := h
  simp

end

/-- The bit of `flags` for each flag. -/
def flagMask : Flag → BitVec 32
  | .left => left
  | .plus => plus
  | .space => space
  | .special => special
  | .zero => zeroPad

/-- The character of no flag. -/
def NoFlag (c : Byte) : Prop := c ≠ byte '-' ∧ c ≠ byte '+' ∧ c ≠ byte ' ' ∧ c ≠ byte '#' ∧ c ≠ byte '0'

instance (c : Byte) : Decidable (NoFlag c) := by
  unfold NoFlag
  infer_instance

/-- One flag more. -/
theorem scanFlags_flag (rounds fmt : Nat) (bits : BitVec 32) (flag : Flag) (rest : List Byte)
    (hAt : At format (fmt + 1) (flag.byte :: rest)) :
    scanFlags format (rounds + 1) fmt bits = scanFlags format rounds (fmt + 1) (bits ||| flagMask flag) := by
  rw [scanFlags]
  simp only [hAt.deref_cons, Option.bind_eq_bind, Option.bind_some]
  cases flag <;> rfl

/-- All flags of a directive, up to a byte that is none. -/
theorem scanFlags_eq (flags : List Flag) {c : Byte} (hc : NoFlag c) (rest : List Byte) (rounds fmt : Nat)
    (bits : BitVec 32) (hRounds : flags.length < rounds)
    (hAt : At format (fmt + 1) (flags.map Flag.byte ++ c :: rest)) :
    scanFlags format rounds fmt bits =
      some (flags.foldl (fun b f => b ||| flagMask f) bits, fmt + 1 + flags.length) := by
  induction flags generalizing rounds fmt bits with
  | nil =>
      cases rounds with
      | zero => exact absurd hRounds (Nat.not_lt_zero _)
      | succ rounds =>
          obtain ⟨h1, h2, h3, h4, h5⟩ := hc
          rw [scanFlags]
          simp [hAt.deref_cons, h1, h2, h3, h4, h5]
  | cons flag flags ih =>
      cases rounds with
      | zero => exact absurd hRounds (Nat.not_lt_zero _)
      | succ rounds =>
          rw [scanFlags_flag format rounds fmt bits flag _ hAt,
            ih rounds (fmt + 1) _ (by simpa using hRounds) hAt.next, List.foldl_cons, List.length_cons]
          congr 2
          omega

/-- What is written as a digit is read as one. -/
theorem isDigit_digitByte (d : Fin 10) : isDigit (digitByte d) = true := by
  decide +revert

theorem signExtend_digitByte (d : Fin 10) : (digitByte d).signExtend 32 = BitVec.ofNat 32 d.val + 0x30#32 := by
  decide +revert

/-- `skip_atoi` reads a number up to a byte that is no digit. -/
theorem skipAtoi_eq (digits : List (Fin 10)) {c : Byte} (hc : isDigit c = false) (rest : List Byte)
    (rounds fmt v : Nat) (hRounds : digits.length < rounds)
    (hAt : At format fmt (digits.map digitByte ++ c :: rest)) :
    skipAtoi format rounds fmt (BitVec.ofNat 32 v) =
      some (BitVec.ofNat 32 (digits.foldl (fun v d => 10 * v + d.val) v), fmt + digits.length) := by
  induction digits generalizing rounds fmt v with
  | nil =>
      cases rounds with
      | zero => exact absurd hRounds (Nat.not_lt_zero _)
      | succ rounds =>
          rw [skipAtoi]
          simp [hAt.deref_cons, hc]
  | cons d digits ih =>
      cases rounds with
      | zero => exact absurd hRounds (Nat.not_lt_zero _)
      | succ rounds =>
          have hValue : BitVec.ofNat 32 v * 10#32 + (digitByte d).signExtend 32 - 0x30#32 =
              BitVec.ofNat 32 (10 * v + d.val) := by
            rw [signExtend_digitByte, ← BitVec.add_assoc, BitVec.add_sub_cancel, BitVec.ofNat_add,
              BitVec.ofNat_mul, BitVec.mul_comm]
          rw [skipAtoi]
          simp only [List.map_cons, List.cons_append] at hAt
          simp only [hAt.deref_cons, Option.bind_eq_bind, Option.bind_some, isDigit_digitByte, if_true, hValue]
          rw [ih rounds (fmt + 1) _ (by simpa using hRounds) hAt.next, List.foldl_cons, List.length_cons]
          congr 2
          omega

section

variable {bound : Nat} (arg : Nat → BitVec 32) (scan : Scan) {c : Byte} (rest : List Byte)

/-- A width or a precision in digits, and -1 for none. -/
def amountWord : Option (Amount bound) → BitVec 32
  | some (.number n) => BitVec.ofNat 32 n.value
  | _ => -1#32

theorem scanWidth_none (hDigit : isDigit c = false) (hStar : c ≠ byte '*')
    (hAt : At format scan.fmt (c :: rest)) :
    scanWidth format arg scan = some { scan with fieldWidth := -1#32 } := by
  rw [scanWidth]
  simp [hAt.deref_cons, hDigit, hStar]

theorem exists_digits_cons (n : Decimal bound) : ∃ d digits, n.digits = d :: digits :=
  List.exists_cons_of_ne_nil n.nonempty

/-- A width that is written as a number. -/
theorem scanWidth_number (n : Decimal bound) (hDigit : isDigit c = false)
    (hAt : At format scan.fmt (n.bytes ++ c :: rest)) :
    scanWidth format arg scan = some
      { scan with fmt := scan.fmt + n.digits.length, fieldWidth := BitVec.ofNat 32 n.value } := by
  have hLength := hAt.length_le
  obtain ⟨d, digits, hCons⟩ := exists_digits_cons n
  have hFirst : At format scan.fmt (digitByte d :: (digits.map digitByte ++ c :: rest)) := by
    simpa [Decimal.bytes, hCons] using hAt
  have hSkip := skipAtoi_eq format n.digits hDigit rest (format.length + 1) scan.fmt 0
    (by simp [Decimal.bytes] at hLength; omega) hAt
  rw [scanWidth]
  simp only [hFirst.deref_cons, Option.bind_eq_bind, Option.bind_some, isDigit_digitByte, if_true]
  rw [hSkip]
  rfl

/-- Every width but a star. -/
theorem scanWidth_eq (w : Option (Amount bound)) (hw : w ≠ some .star) (hDigit : isDigit c = false)
    (hStar : c ≠ byte '*') (hAt : At format scan.fmt (widthBytes w ++ c :: rest)) :
    scanWidth format arg scan = some
      { scan with fmt := scan.fmt + (widthBytes w).length, fieldWidth := amountWord w } := by
  match w with
  | none => exact scanWidth_none format arg scan rest hDigit hStar hAt
  | some .star => exact absurd rfl hw
  | some (.number n) =>
      rw [scanWidth_number format arg scan rest n hDigit hAt]
      simp [widthBytes, Amount.bytes, Decimal.bytes, amountWord]

/-- The cursor stays at the star. -/
theorem scanWidth_star (hAt : At format scan.fmt (byte '*' :: rest)) :
    ∃ flags fieldWidth, scanWidth format arg scan =
      some { scan with args := scan.args + 1, flags, fieldWidth } := by
  rw [scanWidth]
  simp only [hAt.deref_cons, Option.bind_eq_bind, Option.bind_some, show isDigit (byte '*') = false by decide]
  by_cases hNegative : (arg scan.args).slt 0#32
  · simp only [if_pos hNegative]
    exact ⟨_, _, rfl⟩
  · simp only [if_neg hNegative]
    exact ⟨_, _, rfl⟩

theorem scanPrecision_none (hDot : c ≠ byte '.') (hAt : At format scan.fmt (c :: rest)) :
    scanPrecision format arg scan = some { scan with precision := -1#32 } := by
  rw [scanPrecision]
  simp [hAt.deref_cons, hDot]

/-- A precision that is written as a number. -/
theorem scanPrecision_number (n : Decimal bound) (hBound : bound ≤ 2 ^ 31) (hDigit : isDigit c = false)
    (hAt : At format scan.fmt (byte '.' :: (n.bytes ++ c :: rest))) :
    scanPrecision format arg scan = some
      { scan with fmt := scan.fmt + 1 + n.digits.length, precision := BitVec.ofNat 32 n.value } := by
  have hNext := hAt.next
  have hLength := hNext.length_le
  obtain ⟨d, digits, hCons⟩ := exists_digits_cons n
  have hFirst : At format (scan.fmt + 1) (digitByte d :: (digits.map digitByte ++ c :: rest)) := by
    simpa [Decimal.bytes, hCons] using hNext
  have hSkip := skipAtoi_eq format n.digits hDigit rest (format.length + 1) (scan.fmt + 1) 0
    (by simp [Decimal.bytes] at hLength; omega) hNext
  have hPositive : ¬ (BitVec.ofNat 32 n.value).slt 0#32 := by
    have hSmall : n.value < 2 ^ 31 := n.small.trans_le hBound
    rw [BitVec.slt_iff_toInt_lt, toInt_ofNat_of_lt hSmall]
    simp
  rw [scanPrecision]
  simp only [hAt.deref_cons, hFirst.deref_cons, Option.bind_eq_bind, Option.bind_some, isDigit_digitByte, if_true]
  rw [hSkip]
  simp only [Option.bind_some]
  exact if_neg hPositive

/-- Every precision but a star. -/
theorem scanPrecision_eq (p : Option (Amount bound)) (hp : p ≠ some .star) (hBound : bound ≤ 2 ^ 31)
    (hDigit : isDigit c = false) (hDot : c ≠ byte '.') (hAt : At format scan.fmt (precisionBytes p ++ c :: rest)) :
    scanPrecision format arg scan = some
      { scan with fmt := scan.fmt + (precisionBytes p).length, precision := amountWord p } := by
  match p with
  | none => exact scanPrecision_none format arg scan rest hDot hAt
  | some .star => exact absurd rfl hp
  | some (.number n) =>
      rw [scanPrecision_number format arg scan rest n hBound hDigit hAt]
      simp [precisionBytes, Amount.bytes, Decimal.bytes, amountWord, Nat.add_assoc, Nat.add_comm 1]

/-- A star takes an argument, but is not passed over. -/
theorem scanPrecision_star (hAt : At format scan.fmt (byte '.' :: byte '*' :: rest)) :
    ∃ precision, scanPrecision format arg scan =
      some { scan with fmt := scan.fmt + 1, args := scan.args + 1, precision } := by
  rw [scanPrecision]
  simp only [hAt.deref_cons, hAt.next.deref_cons, Option.bind_eq_bind, Option.bind_some,
    show isDigit (byte '*') = false by decide]
  by_cases hNegative : (arg scan.args).slt 0#32
  · exact ⟨0#32, if_pos hNegative⟩
  · exact ⟨arg scan.args, if_neg hNegative⟩

/-- A character behind which a directive is complete. -/
def Final (c : Byte) : Prop :=
  isDigit c = false ∧ c ≠ byte '*' ∧ NoFlag c ∧ c ≠ byte '.' ∧ c ≠ byte 'h' ∧ c ≠ byte 'l' ∧ c ≠ byte 'L'

/-- The qualifier, or none. -/
theorem scanQualifier_eq (q : Option Qualifier) (hc : c ≠ byte 'h' ∧ c ≠ byte 'l' ∧ c ≠ byte 'L')
    (hAt : At format scan.fmt (qualifierBytes q ++ c :: rest)) :
    scanQualifier format scan = some { scan with fmt := scan.fmt + (qualifierBytes q).length } := by
  obtain ⟨hh, hl, hL⟩ := hc
  rw [scanQualifier]
  cases q with
  | none =>
      simp only [qualifierBytes, List.nil_append] at hAt
      simp [hAt.deref_cons, hh, hl, hL, qualifierBytes]
  | some q =>
      simp only [qualifierBytes, List.cons_append] at hAt
      cases q <;> simp [hAt.deref_cons, Qualifier.byte, qualifierBytes]

/-- A qualifier and the letter behind it begin with no digit, star, flag or dot. -/
theorem head_qualifier (q : Option Qualifier) (hc : Final c) :
    ∃ c' rest', qualifierBytes q ++ c :: rest = c' :: rest' ∧
      isDigit c' = false ∧ c' ≠ byte '*' ∧ NoFlag c' ∧ c' ≠ byte '.' := by
  obtain ⟨hDigit, hStar, hFlag, hDot, -⟩ := hc
  cases q with
  | none => exact ⟨c, rest, rfl, hDigit, hStar, hFlag, hDot⟩
  | some q => exact ⟨q.byte, c :: rest, rfl, by cases q <;> decide⟩

/-- A precision and what is behind it begin with no digit, star or flag. -/
theorem head_precision (p : Option (Amount bound)) (q : Option Qualifier) (hc : Final c) :
    ∃ c' rest', precisionBytes p ++ (qualifierBytes q ++ c :: rest) = c' :: rest' ∧
      isDigit c' = false ∧ c' ≠ byte '*' ∧ NoFlag c' := by
  cases p with
  | none =>
      obtain ⟨c', rest', hEq, hDigit, hStar, hFlag, -⟩ := head_qualifier rest q hc
      exact ⟨c', rest', hEq, hDigit, hStar, hFlag⟩
  | some amount => exact ⟨byte '.', _, rfl, by decide⟩

/-- A width does not begin with a zero, which would be a flag. -/
theorem head_width (w p : Option (Amount bound)) (q : Option Qualifier) (hc : Final c)
    (hLeading : ∀ n, w = some (.number n) → n.digits.head? ≠ some 0) :
    ∃ c' rest', widthBytes w ++ (precisionBytes p ++ (qualifierBytes q ++ c :: rest)) = c' :: rest' ∧
      NoFlag c' := by
  match w with
  | none =>
      obtain ⟨c', rest', hEq, -, -, hFlag⟩ := head_precision rest p q hc
      exact ⟨c', rest', hEq, hFlag⟩
  | some .star => exact ⟨byte '*', _, rfl, by decide⟩
  | some (.number n) =>
      obtain ⟨d, digits, hCons⟩ := exists_digits_cons n
      have hFirst : d ≠ 0 := by
        intro h
        exact hLeading n rfl (by rw [hCons, h]; rfl)
      refine ⟨digitByte d, digits.map digitByte ++ (precisionBytes p ++ (qualifierBytes q ++ c :: rest)), ?_, ?_⟩
      · simp [widthBytes, Amount.bytes, Decimal.bytes, hCons]
      · revert hFirst
        clear hCons
        decide +revert

variable (flags : List Flag) (w p : Option (Amount bound)) (q : Option Qualifier) (fmt args : Nat)

/-- The flags are over where the width begins, or what comes instead of it. -/
theorem scanFlags_directive (hc : Final c) (hLeading : ∀ n, w = some (.number n) → n.digits.head? ≠ some 0)
    (hAt : At format fmt (byte '%' :: (flags.map Flag.byte ++ (widthBytes w ++ (precisionBytes p ++
      (qualifierBytes q ++ c :: rest)))))) :
    scanFlags format (format.length + 1) fmt 0#32 =
      some (flags.foldl (fun b f => b ||| flagMask f) 0#32, fmt + 1 + flags.length) := by
  have hLength := hAt.length_le
  obtain ⟨c', rest', hEq, hFlag⟩ := head_width rest w p q hc hLeading
  rw [hEq] at hAt hLength
  exact scanFlags_eq format flags hFlag rest' (format.length + 1) fmt 0#32
    (by simp at hLength; omega) hAt.next

/-- Without a star the scan ends at the character that says what to convert,
and no argument has been taken. -/
theorem scanDirective_eq (hc : Final c) (hLeading : ∀ n, w = some (.number n) → n.digits.head? ≠ some 0)
    (hBound : bound ≤ 2 ^ 31) (hw : w ≠ some .star) (hp : p ≠ some .star)
    (hAt : At format fmt (byte '%' :: (flags.map Flag.byte ++ (widthBytes w ++ (precisionBytes p ++
      (qualifierBytes q ++ c :: rest)))))) :
    ∃ fmt', At format fmt' (c :: rest) ∧ scanDirective format arg fmt args =
      some ⟨fmt', args, flags.foldl (fun b f => b ||| flagMask f) 0#32, amountWord w, amountWord p⟩ := by
  have hFlags := scanFlags_directive format rest flags w p q fmt hc hLeading hAt
  have hWidthAt : At format (fmt + 1 + flags.length) (widthBytes w ++ (precisionBytes p ++
      (qualifierBytes q ++ c :: rest))) := by
    simpa using hAt.next.skip
  have hPrecisionAt := hWidthAt.skip
  have hQualifierAt := hPrecisionAt.skip
  obtain ⟨c₁, rest₁, hEq₁, hDigit₁, hStar₁, -⟩ := head_precision rest p q hc
  obtain ⟨c₂, rest₂, hEq₂, hDigit₂, -, -, hDot₂⟩ := head_qualifier rest q hc
  rw [hEq₁] at hWidthAt
  rw [hEq₂] at hPrecisionAt
  obtain ⟨-, -, -, -, hQualifier⟩ := hc
  refine ⟨_, hQualifierAt.skip, ?_⟩
  rw [scanDirective, hFlags]
  simp only [Option.bind_eq_bind, Option.bind_some]
  rw [scanWidth_eq format arg _ rest₁ w hw hDigit₁ hStar₁ hWidthAt, Option.bind_some,
    scanPrecision_eq format arg _ rest₂ p hp hBound hDigit₂ hDot₂ hPrecisionAt, Option.bind_some,
    scanQualifier_eq format _ rest q hQualifier hQualifierAt]

/-- With a star the scan ends at it, after one argument; what follows it is
still unread. -/
theorem scanDirective_star (hc : Final c) (hLeading : ∀ n, w = some (.number n) → n.digits.head? ≠ some 0)
    (hStar : w = some .star ∨ p = some .star)
    (hAt : At format fmt (byte '%' :: (flags.map Flag.byte ++ (widthBytes w ++ (precisionBytes p ++
      (qualifierBytes q ++ c :: rest)))))) :
    ∃ scan, ∃ p' : Option (Amount bound), scanDirective format arg fmt args = some scan ∧ scan.args = args + 1 ∧
      At format scan.fmt (byte '*' :: (precisionBytes p' ++ (qualifierBytes q ++ c :: rest))) := by
  have hFlags := scanFlags_directive format rest flags w p q fmt hc hLeading hAt
  have hWidthAt : At format (fmt + 1 + flags.length) (widthBytes w ++ (precisionBytes p ++
      (qualifierBytes q ++ c :: rest))) := by
    simpa using hAt.next.skip
  have hNoQualifier : byte '*' ≠ byte 'h' ∧ byte '*' ≠ byte 'l' ∧ byte '*' ≠ byte 'L' := by decide
  rw [scanDirective, hFlags]
  simp only [Option.bind_eq_bind, Option.bind_some]
  by_cases hw : w = some .star
  · subst hw
    obtain ⟨flags', fieldWidth, hWidth⟩ := scanWidth_star format arg
      ⟨fmt + 1 + flags.length, args, flags.foldl (fun b f => b ||| flagMask f) 0#32, -1#32, -1#32⟩ _ hWidthAt
    rw [hWidth, Option.bind_some, scanPrecision_none format arg _ _ (by decide) hWidthAt, Option.bind_some,
      scanQualifier_eq format _ _ none hNoQualifier hWidthAt]
    exact ⟨_, p, rfl, rfl, hWidthAt⟩
  · have hp : p = some .star := hStar.resolve_left hw
    subst hp
    have hPrecisionAt := hWidthAt.skip
    rw [scanWidth_eq format arg _ _ w hw (by decide) (by decide) hWidthAt, Option.bind_some]
    obtain ⟨precision, hPrecision⟩ := scanPrecision_star format arg
      ⟨fmt + 1 + flags.length + (widthBytes w).length, args, flags.foldl (fun b f => b ||| flagMask f) 0#32,
        amountWord w, -1#32⟩ _ hPrecisionAt
    rw [hPrecision, Option.bind_some, scanQualifier_eq format _ _ none hNoQualifier hPrecisionAt.next]
    exact ⟨_, none, rfl, rfl, hPrecisionAt.next⟩

end

end Linux011.Vsprintf

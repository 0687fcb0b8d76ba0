import Linux011.Kernel.Vsprintf
import Linux011.Library.Numeral

/-! What `number` writes is a numeral of its field. -/
namespace Linux011.Vsprintf

open Printf

section

variable (type : BitVec 32)

/-- A test with one bit of `type`. -/
theorem and_bit {mask : BitVec 32} (k : Nat) (hMask : mask = BitVec.twoPow 32 k) (hk : k < 32) :
    type &&& mask = 0#32 ↔ type[k] = false := by
  rw [hMask, BitVec.and_twoPow, BitVec.getLsbD_eq_getElem hk]
  cases hBit : type[k] with
  | false => simp
  | true =>
      have hSet : (BitVec.twoPow 32 k).getLsbD k = true := by simp [hk]
      simp only [if_pos, Bool.true_eq_false, iff_false]
      intro h
      simp [h] at hSet

@[simp] theorem and_zeroPad : type &&& zeroPad = 0#32 ↔ type[0] = false :=
  and_bit type 0 rfl (by decide)

@[simp] theorem and_sign : type &&& sign = 0#32 ↔ type[1] = false :=
  and_bit type 1 rfl (by decide)

@[simp] theorem and_plus : type &&& plus = 0#32 ↔ type[2] = false :=
  and_bit type 2 rfl (by decide)

@[simp] theorem and_space : type &&& space = 0#32 ↔ type[3] = false :=
  and_bit type 3 rfl (by decide)

@[simp] theorem and_left : type &&& left = 0#32 ↔ type[4] = false :=
  and_bit type 4 rfl (by decide)

@[simp] theorem and_special : type &&& special = 0#32 ↔ type[5] = false :=
  and_bit type 5 rfl (by decide)

@[simp] theorem and_small : type &&& small = 0#32 ↔ type[6] = false :=
  and_bit type 6 rfl (by decide)

@[simp] theorem and_zeroPad_left :
    type &&& (zeroPad + left) = 0#32 ↔ type[0] = false ∧ type[4] = false := by
  rw [← and_zeroPad, ← and_left, show zeroPad + left = zeroPad ||| left from rfl, BitVec.and_or_distrib_left,
    BitVec.or_eq_zero_iff]

/-- The bits of `type` as the style of a numeral. -/
def styleOf : Style where
  left := type[4]
  plus := type[2]
  space := type[3]
  special := type[5]
  zero := type[0]
  small := type[6]
  signed := type[1]

/-- `type` where `number` tests it: left justified means no zeros. -/
def justified : BitVec 32 := if type &&& left ≠ 0#32 then type &&& ~~~zeroPad else type

theorem styleOf_justified :
    styleOf (justified type) = { styleOf type with zero := type[0] && !type[4] } := by
  have hMask : zeroPad[0] = true ∧ zeroPad[1] = false ∧ zeroPad[2] = false ∧ zeroPad[3] = false ∧
      zeroPad[4] = false ∧ zeroPad[5] = false ∧ zeroPad[6] = false := by
    decide
  cases hLeft : type[4] with
  | false =>
      have hSame : justified type = type := if_neg (by simp [hLeft])
      simp [hSame, styleOf, hLeft]
  | true =>
      have hMasked : justified type = type &&& ~~~zeroPad := if_pos (by simp [hLeft])
      simp [hMasked, styleOf, hLeft, hMask]

end

theorem styleOf_or (flags mask : BitVec 32) : styleOf (flags ||| mask) =
    { left := flags[4] || mask[4]
      plus := flags[2] || mask[2]
      space := flags[3] || mask[3]
      special := flags[5] || mask[5]
      zero := flags[0] || mask[0]
      small := flags[6] || mask[6]
      signed := flags[1] || mask[1] } := by
  simp [styleOf]

theorem justified_left (type : BitVec 32) : (justified type)[4] = type[4] :=
  congrArg Style.left (styleOf_justified type)

theorem justified_zero (type : BitVec 32) : (justified type)[0] = (type[0] && !type[4]) :=
  congrArg Style.zero (styleOf_justified type)

/-- A difference that does not go round. -/
theorem toInt_sub_of_le {n m : BitVec 32} (h : -2 ^ 31 ≤ n.toInt - m.toInt) (h' : n.toInt - m.toInt < 2 ^ 31) :
    (n - m).toInt = n.toInt - m.toInt := by
  rw [BitVec.toInt_sub]
  exact Int.bmod_eq_of_le (by simpa using h) (by simpa using h')

theorem toInt_pred {n : BitVec 32} (hn : -2 ^ 31 < n.toInt) : (n - 1#32).toInt = n.toInt - 1 :=
  toInt_sub_of_le (Int.le_sub_one_of_lt hn) (Int.sub_one_lt_of_le n.toInt_lt.le)

theorem toInt_ofNat_of_lt {k : Nat} (hk : k < 2 ^ 31) : (BitVec.ofNat 32 k).toInt = k := by
  rw [BitVec.toInt_ofNat', Int.bmod_eq_of_le (by omega) (by omega)]

theorem toInt_sub_ofNat {n : BitVec 32} {k : Nat} (hk : k < 2 ^ 31) (h : -2 ^ 31 + k ≤ n.toInt) :
    (n - BitVec.ofNat 32 k).toInt = n.toInt - k := by
  have hInt := toInt_ofNat_of_lt hk
  have hLess := n.toInt_lt
  rw [toInt_sub_of_le (by omega) (by omega), hInt]

/-- Where nothing wraps, `n - m` bytes are written and `n` ends one below. -/
theorem padDown_eq (c : BitVec 8) (m : BitVec 32) (hm : -2 ^ 31 < m.toInt) (rounds : Nat) (n : BitVec 32)
    (hn : -2 ^ 31 < n.toInt) (hRounds : (n.toInt - m.toInt).toNat ≤ rounds) :
    (padDown c m rounds n).1 = List.replicate (n.toInt - m.toInt).toNat c ∧
      (padDown c m rounds n).2.toInt = min n.toInt m.toInt - 1 := by
  have hDown := toInt_pred hn
  induction rounds generalizing n with
  | zero =>
      have hNone : (n.toInt - m.toInt).toNat = 0 := by omega
      rw [padDown, hNone]
      exact ⟨rfl, by simp only [hDown]; omega⟩
  | succ rounds ih =>
      rw [padDown]
      by_cases hMore : m.slt n
      · have hLess : m.toInt < n.toInt := BitVec.slt_iff_toInt_lt.1 hMore
        have hCount : (n.toInt - m.toInt).toNat = ((n - 1#32).toInt - m.toInt).toNat + 1 := by omega
        obtain ⟨hOut, hRest⟩ := ih (n - 1#32) (by omega) (by omega) (toInt_pred (by omega))
        rw [if_pos hMore, hCount, List.replicate_succ]
        exact ⟨congrArg (c :: ·) hOut, by simp only [hRest]; omega⟩
      · have hNone : ¬ m.toInt < n.toInt := fun h => hMore (BitVec.slt_iff_toInt_lt.2 h)
        have hCount : (n.toInt - m.toInt).toNat = 0 := by omega
        rw [if_neg hMore, hCount]
        exact ⟨rfl, by simp only [hDown]; omega⟩

/-- A loop that counts down writes as many characters as it has rounds. -/
theorem whileAbove_eq (c : BitVec 8) (n m : BitVec 32) (hn : -2 ^ 31 < n.toInt) (hm : -2 ^ 31 < m.toInt) :
    (whileAbove c n m).1 = List.replicate (n.toInt - m.toInt).toNat c ∧
      (whileAbove c n m).2.toInt = min n.toInt m.toInt - 1 := by
  have hRounds : (n.toInt - m.toInt).toNat ≤ (n - m).toNat := by
    rw [BitVec.toNat_sub, BitVec.toInt_eq_toNat_cond, BitVec.toInt_eq_toNat_cond]
    split_ifs <;> omega
  exact padDown_eq c m hm (n - m).toNat n hn hRounds

/-- Down to 0 no bound is needed for what is written. -/
theorem whileAbove_zero (c : BitVec 8) (n : BitVec 32) :
    (whileAbove c n 0#32).1 = List.replicate n.toInt.toNat c := by
  by_cases hMore : (0#32).slt n = true
  · have hPos : 0 < n.toInt := BitVec.slt_iff_toInt_lt.1 hMore
    simpa using (whileAbove_eq c n 0#32 (by omega) (by decide)).1
  · have hNot : ¬ 0 < n.toInt := fun h => hMore (BitVec.slt_iff_toInt_lt.2 h)
    rw [Int.toNat_of_nonpos (by omega), whileAbove]
    cases (n - 0#32).toNat with
    | zero => rfl
    | succ rounds => rw [padDown, if_neg hMore, List.replicate_zero]

theorem getElem_digitTable (type : BitVec 32) {i : Nat} (hi : i < 36) :
    (digitTable type)[i]? = some (numeralByte type[6] i) := by
  cases hSmall : type[6] with
  | false =>
      have hTable : ∀ j < 36, (digitTable 0#32)[j]? = some (numeralByte false j) := by decide
      rw [← hTable i hi, digitTable, digitTable, if_neg (by simp [hSmall]), if_neg (by decide)]
  | true =>
      have hTable : ∀ j < 36, (digitTable small)[j]? = some (numeralByte true j) := by decide
      rw [← hTable i hi, digitTable, digitTable, if_pos (by simp [hSmall]), if_pos (by decide)]

/-- With room for `room` digits the loop writes every number below
`base ^ room`. -/
theorem digitLoop_eq (type base : BitVec 32) (hLow : 2 ≤ base.toNat) (hHigh : base.toNat ≤ 36) (room : Nat)
    (num : BitVec 32) (tmp : List Byte) (hRoom : num.toNat < base.toNat ^ room) :
    digitLoop (digitTable type) base room num tmp =
      some (((Nat.digits base.toNat num.toNat).reverse.map (numeralByte type[6])) ++ tmp) := by
  induction room generalizing num tmp with
  | zero =>
      have hZero : num = 0#32 := BitVec.eq_of_toNat_eq (by simpa using hRoom)
      simp [digitLoop, hZero]
  | succ room ih =>
      by_cases hZero : num = 0#32
      · simp [digitLoop, hZero]
      · have hPos : 0 < num.toNat := Nat.pos_of_ne_zero fun h => hZero (BitVec.eq_of_toNat_eq (by simpa using h))
        have hDigit : num.toNat % base.toNat < 36 := (Nat.mod_lt _ (by omega)).trans_le hHigh
        have hQuotient : (num / base).toNat < base.toNat ^ room := by
          rw [BitVec.toNat_udiv]
          exact Nat.div_lt_of_lt_mul (by rwa [← Nat.pow_succ'])
        rw [digitLoop, if_neg hZero, doDiv, Nat.digits_def' (by omega) hPos]
        simp only [BitVec.toNat_umod, getElem_digitTable type hDigit, Option.bind_eq_bind, Option.bind_some]
        rw [ih _ _ hQuotient, BitVec.toNat_udiv]
        simp

/-- The digits, last one first. -/
theorem numberDigits_eq (type base : BitVec 32) (hLow : 2 ≤ base.toNat) (hHigh : base.toNat ≤ 36)
    (num : BitVec 32) :
    numberDigits (digitTable type) num base =
      some ((digitsOf base.toNat num.toNat).map (numeralByte type[6])) := by
  by_cases hZero : num = 0#32
  · simp [numberDigits, digitsOf, hZero, numeralByte]
  · have hPos : num.toNat ≠ 0 := fun h => hZero (BitVec.eq_of_toNat_eq (by simpa using h))
    have hRoom : num.toNat < base.toNat ^ 36 := by
      calc num.toNat < 2 ^ 32 := num.isLt
        _ ≤ 2 ^ 36 := by decide
        _ ≤ base.toNat ^ 36 := Nat.pow_le_pow_left hLow 36
    rw [numberDigits, if_neg hZero, digitLoop_eq type base hLow hHigh 36 num [] hRoom, digitsOf, if_neg hPos,
      List.append_nil]

theorem digitTable_justified (type : BitVec 32) : digitTable (justified type) = digitTable type := by
  have hSmall : (justified type)[6] = type[6] := congrArg Style.small (styleOf_justified type)
  simp only [digitTable, ne_eq, and_small, hSmall]

section

variable (num base type : BitVec 32)

theorem slt_zero : num.slt 0#32 = true ↔ num.toInt < 0 := BitVec.slt_iff_toInt_lt

/-- The sign. -/
theorem signByte_eq :
    (if signByte num type ≠ 0#8 then [signByte num type] else []) = signBytes (styleOf type) num := by
  have hSign : byte '-' ≠ 0#8 ∧ byte '+' ≠ 0#8 ∧ byte ' ' ≠ 0#8 := by decide
  simp only [signByte, signBytes, styleOf, ne_eq, and_sign, and_plus, and_space, slt_zero, Bool.not_eq_false]
  split_ifs <;> simp_all

/-- What is left of `num` when its sign has been written. -/
theorem toNat_unsigned :
    (if type &&& sign ≠ 0#32 ∧ num.slt 0#32 then -num else num).toNat = magnitude (styleOf type) num := by
  have hInt := BitVec.toInt_eq_toNat_cond num
  have hLess := num.isLt
  simp only [ne_eq, and_sign, slt_zero, Bool.not_eq_false]
  by_cases hSigned : type[1] = true
  · have hAbs : magnitude (styleOf type) num = num.toInt.natAbs := if_pos hSigned
    by_cases hNegative : num.toInt < 0
    · rw [if_pos ⟨hSigned, hNegative⟩, hAbs, BitVec.toNat_neg]
      omega
    · rw [if_neg (fun h => hNegative h.2), hAbs]
      omega
  · have hWhole : magnitude (styleOf type) num = num.toNat := if_neg hSigned
    rw [if_neg (fun h => hSigned h.1), hWhole]

/-- The prefix. -/
theorem specialBytes_eq : specialBytes (digitTable type) base type =
    some (prefixBytes (styleOf type) base.toNat, BitVec.ofNat 32 (prefixBytes (styleOf type) base.toNat).length) := by
  have hEight : base = 8#32 ↔ base.toNat = 8 := by rw [← BitVec.toNat_inj]; rfl
  have hSixteen : base = 16#32 ↔ base.toNat = 16 := by rw [← BitVec.toNat_inj]; rfl
  obtain ⟨x, hX, hLetter⟩ : ∃ x, (digitTable type)[33]? = some x ∧
      (if (styleOf type).small then byte 'x' else byte 'X') = x := by
    refine ⟨_, getElem_digitTable type (by decide), ?_⟩
    rw [show (styleOf type).small = type[6] from rfl]
    cases type[6] <;> rfl
  rw [specialBytes, prefixBytes, hLetter, hX]
  by_cases hSpecial : (styleOf type).special = true
  · have hBit : type &&& special ≠ 0#32 := by simpa [styleOf] using hSpecial
    simp only [if_pos hSpecial, if_pos hBit, hEight, hSixteen]
    split_ifs <;> rfl
  · have hBit : ¬ type &&& special ≠ 0#32 := by simpa [styleOf] using hSpecial
    rw [if_neg hSpecial, if_neg hBit]
    rfl

/-- How many loops on `size` come before the last one. -/
def earlierLoops : Nat := if type[4] then 0 else if type[0] then 1 else 2

/-- One of the three loops on `size` writes what is missing, and the others find
`size` used up. -/
theorem pad_eq (front body : List Byte) (size : BitVec 32) (hSize : -2 ^ 31 + earlierLoops type ≤ size.toInt) :
    let just := justified type
    let c := if just &&& zeroPad ≠ 0#32 then byte '0' else byte ' '
    let blanks := if just &&& (zeroPad + left) = 0#32 then whileAbove (byte ' ') size 0#32 else ([], size)
    let fill := if just &&& left = 0#32 then whileAbove c blanks.2 0#32 else ([], blanks.2)
    blanks.1 ++ front ++ fill.1 ++ body ++ (whileAbove (byte ' ') fill.2 0#32).1 =
      if type[4] then front ++ body ++ List.replicate size.toInt.toNat (byte ' ')
      else if type[0] then front ++ List.replicate size.toInt.toNat (byte '0') ++ body
      else List.replicate size.toInt.toNat (byte ' ') ++ front ++ body := by
  intro just c blanks fill
  have hAfter (b : Byte) (n : BitVec 32) (hn : -2 ^ 31 < n.toInt) :
      (whileAbove b n 0#32).2.toInt = min n.toInt 0 - 1 := by
    simpa using (whileAbove_eq b n 0#32 hn (by decide)).2
  have hNone (b : Byte) (n : BitVec 32) (hn : n.toInt < 0) : (whileAbove b n 0#32).1 = [] := by
    rw [whileAbove_zero, Int.toNat_of_nonpos (by omega), List.replicate_zero]
  have hLeft := justified_left type
  have hZero := justified_zero type
  rw [earlierLoops] at hSize
  cases hJust : type[4] with
  | true =>
      have hBlanks : blanks = ([], size) := if_neg (by simp [just, hLeft, hJust])
      have hFill : fill = ([], blanks.2) := if_neg (by simp [just, hLeft, hJust])
      rw [hFill, hBlanks, if_pos rfl, whileAbove_zero]
      simp
  | false =>
      have hFill : fill = whileAbove c blanks.2 0#32 := if_pos (by simp [just, hLeft, hJust])
      rw [hJust, if_neg Bool.false_ne_true] at hSize
      cases hPad : type[0] with
      | true =>
          have hBlanks : blanks = ([], size) := if_neg (by simp [just, hZero, hJust, hPad])
          have hc : c = byte '0' := if_pos (by simp [just, hZero, hJust, hPad])
          rw [hPad, if_pos rfl] at hSize
          have hZeros := hAfter (byte '0') size (by omega)
          rw [hFill, hBlanks, hc, hNone (byte ' ') (whileAbove (byte '0') size 0#32).2 (by omega),
            whileAbove_zero]
          simp
      | false =>
          have hBlanks : blanks = whileAbove (byte ' ') size 0#32 :=
            if_pos (by simp [just, hZero, hLeft, hJust, hPad])
          rw [hPad, if_neg Bool.false_ne_true] at hSize
          have hFront := hAfter (byte ' ') size (by omega)
          have hBetween := hAfter c (whileAbove (byte ' ') size 0#32).2 (by omega)
          rw [hFill, hBlanks, hNone c (whileAbove (byte ' ') size 0#32).2 (by omega),
            hNone (byte ' ') (whileAbove c (whileAbove (byte ' ') size 0#32).2 0#32).2 (by omega), whileAbove_zero]
          simp

/-- All parts in their order. -/
theorem writeNumber_eq (size precision : BitVec 32) (front tmp : List Byte) (hTmp : tmp.length ≤ 32)
    (hSize : -2 ^ 31 + earlierLoops type ≤ size.toInt - max precision.toInt tmp.length) :
    writeNumber (justified type) size precision front tmp =
      field (styleOf type) (size.toInt + front.length).toNat front
        (List.replicate (precision.toInt.toNat - tmp.length) (byte '0') ++ tmp) := by
  have hLength : (BitVec.ofNat 32 tmp.length).toInt = tmp.length := toInt_ofNat_of_lt (by omega)
  obtain ⟨precision', hPrecision, hMax⟩ : ∃ p : BitVec 32,
      (if precision.slt (BitVec.ofNat 32 tmp.length) then BitVec.ofNat 32 tmp.length else precision) = p ∧
        p.toInt = max precision.toInt tmp.length := by
    refine ⟨_, rfl, ?_⟩
    rw [BitVec.slt_eq_decide, hLength]
    split_ifs with h
    · have := of_decide_eq_true h
      omega
    · have := of_decide_eq_false (Bool.not_eq_true _ ▸ h)
      omega
  have hRest : (size - precision').toInt = size.toInt - precision'.toInt :=
    toInt_sub_of_le (by omega) (by have := size.toInt_lt; omega)
  have hZeros := (whileAbove_eq (byte '0') precision' (BitVec.ofNat 32 tmp.length) (by omega) (by omega)).1
  have hPad := pad_eq type front (List.replicate (precision'.toInt - tmp.length).toNat (byte '0') ++ tmp)
    (size - precision') (by omega)
  have hCount : (precision'.toInt - tmp.length).toNat = precision.toInt.toNat - tmp.length := by omega
  have hMissing : (size - precision').toInt.toNat = (size.toInt + front.length).toNat -
      (front.length + (List.replicate (precision.toInt.toNat - tmp.length) (byte '0') ++ tmp).length) := by
    rw [List.length_append, List.length_replicate]
    omega
  rw [hCount, hMissing] at hPad
  simp only [writeNumber, hPrecision, hZeros, hLength, hCount, field]
  simp only [List.append_assoc] at hPad ⊢
  exact hPad

end

theorem earlierLoops_le (type : BitVec 32) : earlierLoops type ≤ 2 := by
  rw [earlierLoops]
  split_ifs <;> decide

theorem length_digitsOf_le {base n : Nat} (hBase : 2 ≤ base) (hn : n < 2 ^ 32) : (digitsOf base n).length ≤ 32 := by
  rw [digitsOf]
  split_ifs
  · simp
  · rw [List.length_reverse, Nat.digits_length_le_iff hBase]
    exact hn.trans_le (Nat.pow_le_pow_left hBase 32)

theorem length_signBytes_le (style : Style) (v : BitVec 32) : (signBytes style v).length ≤ 1 := by
  rw [signBytes]
  split_ifs <;> decide

theorem length_prefixBytes_le (style : Style) (base : Nat) : (prefixBytes style base).length ≤ 2 := by
  rw [prefixBytes]
  split_ifs <;> simp

theorem magnitude_lt (style : Style) (v : BitVec 32) : magnitude style v < 2 ^ 32 := by
  have hLess := v.isLt
  have hInt := BitVec.toInt_eq_toNat_cond v
  rw [magnitude]
  split_ifs <;> omega

theorem base_guard {base : BitVec 32} (hLow : 2 ≤ base.toNat) (hHigh : base.toNat ≤ 36) :
    ¬ (base.slt 2#32 ∨ (36#32).slt base) := by
  have hInt : base.toInt = base.toNat := by rw [BitVec.toInt_eq_toNat_cond, if_pos (by omega)]
  rw [BitVec.slt_iff_toInt_lt, BitVec.slt_iff_toInt_lt, hInt]
  simp
  omega

/-- Whatever `size` does. -/
theorem number_writes (num base size precision type : BitVec 32) (hLow : 2 ≤ base.toNat) (hHigh : base.toNat ≤ 36) :
    ∃ out, number num base size precision type = some out := by
  rw [number]
  simp only [if_neg (base_guard hLow hHigh)]
  rw [← justified, ← digitTable_justified, specialBytes_eq, numberDigits_eq _ base hLow hHigh]
  exact ⟨_, rfl⟩

/-- As long as `size` does not go round below. -/
theorem number_exact (num base size precision type : BitVec 32) (hLow : 2 ≤ base.toNat) (hHigh : base.toNat ≤ 36)
    (hSize : -2 ^ 31 + earlierLoops type ≤
      size.toInt - (signBytes (styleOf type) num ++ prefixBytes (styleOf type) base.toNat).length -
        max precision.toInt (digitsOf base.toNat (magnitude (styleOf type) num)).length) :
    number num base size precision type =
      some (numeral (styleOf type) base.toNat size.toInt.toNat precision.toInt.toNat num) := by
  rw [List.length_append] at hSize
  have hGuard := base_guard hLow hHigh
  have hSign : (if signByte num (justified type) ≠ 0#8 then [signByte num (justified type)] else []) =
      signBytes (styleOf type) num := by
    rw [signByte_eq, styleOf_justified]
    rfl
  have hSpecial : specialBytes (digitTable type) base (justified type) =
      some (prefixBytes (styleOf type) base.toNat,
        BitVec.ofNat 32 (prefixBytes (styleOf type) base.toNat).length) := by
    rw [← digitTable_justified, specialBytes_eq, styleOf_justified]
    rfl
  have hDigits : numberDigits (digitTable type)
      (if justified type &&& sign ≠ 0#32 ∧ num.slt 0#32 then -num else num) base =
        some ((digitsOf base.toNat (magnitude (styleOf type) num)).map (numeralByte (styleOf type).small)) := by
    rw [numberDigits_eq type base hLow hHigh, toNat_unsigned, styleOf_justified]
    rfl
  have hSignSize : (if signByte num (justified type) ≠ 0#8 then size - 1#32 else size).toInt =
      size.toInt - (signBytes (styleOf type) num).length := by
    rw [← hSign] at hSize ⊢
    by_cases h : signByte num (justified type) ≠ 0#8
    · rw [if_pos h, List.length_singleton] at hSize
      rw [if_pos h, if_pos h]
      exact toInt_pred (by omega)
    · rw [if_neg h, if_neg h]
      exact (Int.sub_zero _).symm
  have hOne := length_signBytes_le (styleOf type) num
  have hTwo := length_prefixBytes_le (styleOf type) base.toNat
  have hFew : (digitsOf base.toNat (magnitude (styleOf type) num)).length ≤ 32 :=
    length_digitsOf_le hLow (magnitude_lt _ _)
  have hPrefixSize := toInt_sub_ofNat (n := if signByte num (justified type) ≠ 0#8 then size - 1#32 else size)
    (k := (prefixBytes (styleOf type) base.toNat).length) (by omega) (by omega)
  rw [number]
  simp only [if_neg hGuard]
  rw [← justified, hSpecial, hDigits, hSign]
  simp only [Option.bind_eq_bind, Option.bind_some]
  rw [writeNumber_eq type _ _ _ _ (by rwa [List.length_map]) (by rw [List.length_map]; omega), numeral,
    hPrefixSize, hSignSize, List.length_append]
  congr 2
  omega

theorem number_eq (num base size precision type : BitVec 32) (hLow : 2 ≤ base.toNat) (hHigh : base.toNat ≤ 36)
    (hSize : -2 ^ 31 + 64 ≤ size.toInt - max precision.toInt 0) :
    number num base size precision type =
      some (numeral (styleOf type) base.toNat size.toInt.toNat precision.toInt.toNat num) := by
  have hOne := length_signBytes_le (styleOf type) num
  have hTwo := length_prefixBytes_le (styleOf type) base.toNat
  have hFew : (digitsOf base.toNat (magnitude (styleOf type) num)).length ≤ 32 :=
    length_digitsOf_le hLow (magnitude_lt _ _)
  have hLoops := earlierLoops_le type
  refine number_exact num base size precision type hLow hHigh ?_
  rw [List.length_append]
  omega

/-- What `number` writes falls into parts that say `num`, and its digits fit `tmp`. -/
def NumberShows (num base size precision type : BitVec 32) : Prop :=
  ∃ p : Parts, number num base size precision type = some p.bytes ∧ p.digits.length ≤ 36 ∧
    p.Shows (styleOf type) base.toNat size.toInt precision.toInt num

/-- As long as `size` does not go round below. -/
theorem number_shows (num base size precision type : BitVec 32) (hLow : 2 ≤ base.toNat) (hHigh : base.toNat ≤ 36)
    (hSize : -2 ^ 31 + earlierLoops type ≤
      size.toInt - (signBytes (styleOf type) num ++ prefixBytes (styleOf type) base.toNat).length -
        max precision.toInt (digitsOf base.toNat (magnitude (styleOf type) num)).length) :
    NumberShows num base size precision type := by
  refine ⟨partsOf (styleOf type) base.toNat size.toInt precision.toInt num, ?_, ?_, ?_⟩
  · rw [number_exact num base size precision type hLow hHigh hSize, partsOf_bytes]
  · have hFew : (digitsOf base.toNat (magnitude (styleOf type) num)).length ≤ 32 :=
      length_digitsOf_le hLow (magnitude_lt _ _)
    rw [partsOf, List.length_map]
    omega
  · exact partsOf_shows _ _ _ _ _ hLow hHigh

/-- The smallest number, in 20 columns with zeros. -/
theorem number_shows_minimum : NumberShows 0x80000000#32 10#32 20#32 12#32 (zeroPad + sign) :=
  number_shows _ _ _ _ _ (by decide) (by decide) (by decide +kernel)

/-- Left justified, all that is missing comes last. -/
theorem writeNumber_left (type : BitVec 32) (hLeft : type[4] = true) (size precision : BitVec 32)
    (front tmp : List Byte) :
    let i := BitVec.ofNat 32 tmp.length
    let rest := size - if precision.slt i then i else precision
    ∃ written, writeNumber type size precision front tmp =
      written ++ List.replicate rest.toInt.toNat (byte ' ') := by
  have hPad : ¬type &&& (zeroPad + left) = 0#32 := by simp [hLeft]
  have hJust : ¬type &&& left = 0#32 := by simp [hLeft]
  simp only [writeNumber, if_neg hPad, if_neg hJust, whileAbove_zero]
  exact ⟨_, rfl⟩

/-- A size so far below 0 that what comes before the digits takes it round. -/
theorem number_goes_round :
    ¬∀ num base size precision type : BitVec 32, 2 ≤ base.toNat → base.toNat ≤ 36 →
      size.toInt.natAbs < 2 ^ 30 → precision.toInt.natAbs < 2 ^ 30 → NumberShows num base size precision type := by
  intro h
  obtain ⟨p, hNumber, hFew, hShows⟩ := h 0#32 16#32 0xC0000001#32 0x3FFFFFFF#32 (left + plus + special) (by decide)
    (by decide) (by decide) (by decide)
  have hEnds : number 0#32 16#32 0xC0000001#32 0x3FFFFFFF#32 (left + plus + special) =
      some (writeNumber (left + plus + special) 0xBFFFFFFE#32 0x3FFFFFFF#32 [byte '+', byte '0', byte 'X']
        [byte '0']) := rfl
  obtain ⟨written, hWritten⟩ := writeNumber_left (left + plus + special) rfl 0xBFFFFFFE#32 0x3FFFFFFF#32
    [byte '+', byte '0', byte 'X'] [byte '0']
  rw [hEnds, hWritten, Option.some.injEq] at hNumber
  have hRest : (0xBFFFFFFE#32 - if (0x3FFFFFFF#32).slt (BitVec.ofNat 32 [byte '0'].length) then
      BitVec.ofNat 32 [byte '0'].length else 0x3FFFFFFF#32).toInt = 2 ^ 31 - 1 := by
    decide
  have hLong : 2 ^ 31 - 1 ≤ p.bytes.length := by
    rw [← hNumber, List.length_append, List.length_replicate, hRest]
    omega
  have hLength := hShows.length
  have hSign : p.sign.length ≤ 1 := by
    rcases hShows.signs with hSign | hSign | hSign | hSign <;> simp [hSign]
  have hSpecial : p.special.length ≤ 2 := by
    rw [hShows.special]
    split_ifs <;> simp
  have hSize : (0xC0000001#32).toInt = -(2 ^ 30 - 1) := by decide
  have hPrecision : (0x3FFFFFFF#32).toInt = 2 ^ 30 - 1 := by decide
  rw [hSize, hPrecision] at hLength
  omega

end Linux011.Vsprintf

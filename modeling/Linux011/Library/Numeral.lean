import Linux011.Library.Printf
import Mathlib.Data.Nat.Digits.Lemmas

/-! Numerals, read back: the parts a printed number falls into, and what they say
about the number. -/
namespace Printf

/-- The value of a digit as it is written. -/
def readDigit (c : Byte) : Nat :=
  if c.toNat < 0x3a then c.toNat - 0x30
  else if c.toNat < 0x5b then c.toNat - 0x41 + 10 else c.toNat - 0x61 + 10

def readDigits (base : Nat) (bytes : List Byte) : Nat :=
  bytes.foldl (fun v c => base * v + readDigit c) 0

theorem readDigit_numeralByte (small : Bool) {d : Nat} (hd : d < 36) : readDigit (numeralByte small d) = d := by
  have hAll : ∀ small, ∀ d < 36, readDigit (numeralByte small d) = d := by decide
  exact hAll small d hd

theorem numeralByte_zero (small : Bool) : numeralByte small 0 = byte '0' := by
  rw [numeralByte, if_pos (by decide)]
  rfl

section

variable {base : Nat} (small : Bool)

theorem readDigits_map {digits : List Nat} (hDigits : ∀ d ∈ digits, d < 36) :
    readDigits base (digits.map (numeralByte small)) = digits.foldl (fun v d => base * v + d) 0 := by
  rw [readDigits, List.foldl_map]
  exact List.foldl_ext _ _ 0 fun v d hd => by rw [readDigit_numeralByte small (hDigits d hd)]

theorem digitsOf_lt (hBase : 2 ≤ base) (n : Nat) : ∀ d ∈ digitsOf base n, d < base := by
  intro d hd
  rw [digitsOf] at hd
  split_ifs at hd with hZero
  · rw [List.mem_singleton] at hd
    omega
  · exact Nat.digits_lt_base hBase (List.mem_reverse.mp hd)

theorem digitsOf_ne_nil (n : Nat) : digitsOf base n ≠ [] := by
  rw [digitsOf]
  split_ifs with hZero
  · simp
  · exact fun h => Nat.digits_ne_nil_iff_ne_zero.mpr hZero (List.reverse_eq_nil_iff.mp h)

/-- The digits, read from the left, are the number. -/
theorem foldl_digitsOf (n : Nat) : (digitsOf base n).foldl (fun v d => base * v + d) 0 = n := by
  rw [digitsOf]
  split_ifs with hZero
  · simp [hZero]
  · rw [List.foldl_reverse]
    have hValue := Nat.ofDigits_eq_foldr base (Nat.digits base n)
    rw [Nat.ofDigits_digits] at hValue
    conv_rhs => rw [hValue]
    congr 1
    funext d v
    rw [Nat.add_comm, Nat.cast_id]

/-- Only the number 0 begins with the digit 0. -/
theorem head_digitsOf {n : Nat} (hHead : (digitsOf base n).head? = some 0) : n = 0 := by
  by_contra hn
  rw [digitsOf, if_neg hn, List.head?_reverse,
    List.getLast?_eq_some_getLast (Nat.digits_ne_nil_iff_ne_zero.mpr hn), Option.some.injEq] at hHead
  exact Nat.getLast_digit_ne_zero base hn hHead

end

/-- What a printed number is made of, in order. -/
structure Parts where
  before : Nat
  sign : List Byte
  special : List Byte
  zeros : Nat
  digits : List Byte
  after : Nat

def Parts.bytes (p : Parts) : List Byte :=
  List.replicate p.before (byte ' ') ++ p.sign ++ p.special ++ List.replicate p.zeros (byte '0') ++ p.digits ++
    List.replicate p.after (byte ' ')

/-- The parts say `num`, in a field of `size` with at least `precision` digits. -/
structure Parts.Shows (p : Parts) (style : Style) (base : Nat) (size precision : Int) (num : BitVec 32) :
    Prop where
  /-- The digits are digits of the base, and denote the number. -/
  digit : ∀ c ∈ p.digits, ∃ d < base, c = numeralByte style.small d
  value : readDigits base p.digits = if style.signed then num.toInt.natAbs else num.toNat
  leading : p.digits.head? = some (byte '0') → p.digits = [byte '0']
  nonempty : p.digits ≠ []
  /-- What stands before them. -/
  minus : p.sign = [byte '-'] ↔ style.signed = true ∧ num.toInt < 0
  signs : p.sign = [] ∨ p.sign = [byte '-'] ∨ p.sign = [byte '+'] ∨ p.sign = [byte ' ']
  special : p.special =
    if style.special ∧ base = 8 then [byte '0']
    else if style.special ∧ base = 16 then [byte '0', if style.small then byte 'x' else byte 'X'] else []
  /-- The lengths, and where the padding is. -/
  enough : precision ≤ p.zeros + p.digits.length
  length : (p.bytes.length : Int) =
    max size (p.sign.length + p.special.length + max precision p.digits.length)
  left : style.left = true → p.before = 0 ∧ p.zeros = (precision - p.digits.length).toNat
  zero : style.left = false → style.zero = true → p.before = 0 ∧ p.after = 0
  blank : style.left = false → style.zero = false →
    p.after = 0 ∧ p.zeros = (precision - p.digits.length).toNat

section

variable (style : Style) (base : Nat) (size precision : Int) (num : BitVec 32)

/-- The parts of a numeral. -/
def partsOf : Parts :=
  let digits := (digitsOf base (magnitude style num)).map (numeralByte style.small)
  let sign := signBytes style num
  let special := prefixBytes style base
  let least := (precision - digits.length).toNat
  let missing := (size - (sign.length + special.length + (least + digits.length))).toNat
  { before := if style.left then 0 else if style.zero then 0 else missing
    sign, special
    zeros := if style.left then least else if style.zero then missing + least else least
    digits
    after := if style.left then missing else 0 }

theorem partsOf_bytes : (partsOf style base size precision num).bytes =
    numeral style base size.toNat precision.toNat num := by
  have hLeast (digits : List Byte) : (precision - digits.length).toNat = precision.toNat - digits.length := by
    omega
  have hMissing (front : Nat) : (size - front).toNat = size.toNat - front := by omega
  rw [numeral, field, Parts.bytes, partsOf]
  simp only [hLeast, List.length_append, List.length_replicate, ← Nat.cast_add, hMissing]
  cases style.left with
  | true => simp
  | false =>
      cases style.zero with
      | true =>
          simp only [Bool.false_eq_true, if_false, if_true, List.replicate_zero, List.nil_append,
            List.append_nil, List.replicate_add, List.append_assoc]
      | false => simp

theorem length_bytes (p : Parts) : p.bytes.length =
    p.before + p.sign.length + p.special.length + p.zeros + p.digits.length + p.after := by
  simp [Parts.bytes, Nat.add_assoc]

/-- A numeral reads back. -/
theorem partsOf_shows (hLow : 2 ≤ base) (hHigh : base ≤ 36) :
    (partsOf style base size precision num).Shows style base size precision num := by
  have hDigits := digitsOf_lt hLow (magnitude style num)
  refine ⟨?_, ?_, ?_, ?_, ?_, ?_, ?_, ?_, ?_, ?_, ?_, ?_⟩
  · intro c hc
    obtain ⟨d, hd, rfl⟩ := List.mem_map.mp hc
    exact ⟨d, hDigits d hd, rfl⟩
  · exact (readDigits_map style.small fun d hd => (hDigits d hd).trans_le hHigh).trans (foldl_digitsOf _)
  · intro hHead
    have hFirst : (digitsOf base (magnitude style num)).head? = some 0 := by
      rw [partsOf, List.head?_map, Option.map_eq_some_iff] at hHead
      obtain ⟨d, hd, hByte⟩ := hHead
      have hRead := readDigit_numeralByte style.small ((hDigits d (List.mem_of_head? hd)).trans_le hHigh)
      rw [hByte] at hRead
      rw [hd, ← hRead]
      rfl
    rw [partsOf, head_digitsOf hFirst, digitsOf, if_pos rfl, List.map_singleton, numeralByte_zero]
  · exact fun h => digitsOf_ne_nil _ (List.map_eq_nil_iff.mp h)
  · have hOther : byte '+' ≠ byte '-' ∧ byte ' ' ≠ byte '-' := by decide
    simp only [partsOf, signBytes]
    split_ifs <;> simp_all
  · simp only [partsOf, signBytes]
    split_ifs <;> simp
  · simp only [partsOf, prefixBytes]
    by_cases hSpecial : style.special = true <;> simp [hSpecial]
  · simp only [partsOf]
    split_ifs <;> omega
  · rw [length_bytes]
    simp only [partsOf]
    split_ifs <;> omega
  · intro hLeft
    simp [partsOf, hLeft]
  · intro hLeft hZero
    simp [partsOf, hLeft, hZero]
  · intro hLeft hZero
    simp [partsOf, hLeft, hZero]

end

end Printf

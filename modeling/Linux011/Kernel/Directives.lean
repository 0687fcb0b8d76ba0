import Linux011.Kernel.Format
import Linux011.Kernel.Parts

/-! How `vsprintf` moves over a format, whatever its bytes are. -/
namespace Linux011.Vsprintf

open Printf

variable (format : List Byte)

section

variable {format} {fmt : Nat} {rest : List Byte}

theorem At.deref (h : At format fmt rest) : deref format fmt = some (rest.headD 0#8) := by
  cases rest with
  | nil => exact h.deref_nil
  | cons c rest => exact h.deref_cons

theorem At.length_eq (h : At format fmt rest) : fmt + rest.length = format.length := by
  obtain ⟨before, rfl, rfl⟩ := h
  simp

theorem At.dropWhile (p : Byte → Bool) (h : At format fmt rest) :
    At format (fmt + (rest.takeWhile p).length) (rest.dropWhile p) :=
  At.skip (by rwa [List.takeWhile_append_dropWhile])

end

/-- The flags are read whatever they are, up to the first byte that is none. -/
theorem scanFlags_read (rest : List Byte) (rounds fmt : Nat) (bits : BitVec 32) (hRounds : rest.length < rounds)
    (hAt : At format (fmt + 1) rest) :
    ∃ flags, scanFlags format rounds fmt bits = some (flags, fmt + 1 + (rest.takeWhile isFlag).length) := by
  induction rest generalizing rounds fmt bits with
  | nil =>
      cases rounds with
      | zero => exact absurd hRounds (Nat.not_lt_zero _)
      | succ rounds =>
          rw [scanFlags]
          simp only [hAt.deref_nil, Option.bind_eq_bind, Option.bind_some]
          exact ⟨bits, rfl⟩
  | cons c rest ih =>
      cases rounds with
      | zero => exact absurd hRounds (Nat.not_lt_zero _)
      | succ rounds =>
          have hNext := fun bits => ih rounds (fmt + 1) bits (by simpa using hRounds) hAt.next
          rw [scanFlags]
          simp only [hAt.deref_cons, Option.bind_eq_bind, Option.bind_some]
          by_cases hFlag : NoFlag c
          · have hStop : isFlag c = false := by simp [isFlag, hFlag]
            obtain ⟨h1, h2, h3, h4, h5⟩ := hFlag
            simp [h1, h2, h3, h4, h5, hStop]
          · have hMore : isFlag c = true := by simp [isFlag, hFlag]
            rw [List.takeWhile_cons_of_pos hMore, List.length_cons,
              show fmt + 1 + ((rest.takeWhile isFlag).length + 1) =
                fmt + 1 + 1 + (rest.takeWhile isFlag).length by omega]
            split_ifs with h1 h2 h3 h4 h5
            · exact hNext _
            · exact hNext _
            · exact hNext _
            · exact hNext _
            · exact hNext _
            · exact absurd ⟨h1, h2, h3, h4, h5⟩ hFlag

/-- All digits are read; the number may go round. -/
theorem skipAtoi_read (rest : List Byte) (rounds fmt : Nat) (i : BitVec 32) (hRounds : rest.length < rounds)
    (hAt : At format fmt rest) :
    ∃ v, skipAtoi format rounds fmt i = some (v, fmt + (rest.takeWhile isDigit).length) := by
  induction rest generalizing rounds fmt i with
  | nil =>
      cases rounds with
      | zero => exact absurd hRounds (Nat.not_lt_zero _)
      | succ rounds =>
          rw [skipAtoi]
          simp only [hAt.deref_nil, Option.bind_eq_bind, Option.bind_some]
          exact ⟨i, rfl⟩
  | cons c rest ih =>
      cases rounds with
      | zero => exact absurd hRounds (Nat.not_lt_zero _)
      | succ rounds =>
          rw [skipAtoi]
          simp only [hAt.deref_cons, Option.bind_eq_bind, Option.bind_some]
          by_cases hDigit : isDigit c = true
          · obtain ⟨v, hv⟩ := ih rounds (fmt + 1) (i * 10#32 + c.signExtend 32 - 0x30#32) (by simpa using hRounds)
              hAt.next
            rw [if_pos hDigit, hv, List.takeWhile_cons_of_pos hDigit, List.length_cons]
            exact ⟨v, by congr 2; omega⟩
          · rw [if_neg hDigit, List.takeWhile_cons_of_neg hDigit]
            exact ⟨i, rfl⟩

/-- The argument that a star takes where a number could stand. -/
def starFirst (rest : List Byte) : Nat := if rest.head? = some (byte '*') then 1 else 0

/-- The same behind a dot. -/
def starBehindDot (rest : List Byte) : Nat := if rest.head? = some (byte '.') then starFirst rest.tail else 0

section

variable (arg : Nat → BitVec 32) (scan : Scan) (rest : List Byte)

theorem headD_eq_iff {c : Byte} (hc : c ≠ 0#8) : rest.headD 0#8 = c ↔ rest.head? = some c := by
  cases rest with
  | nil => simpa using hc.symm
  | cons b rest => simp

/-- A number, a star or neither of them. -/
theorem amount_cases {fmt : Nat} (hAt : At format fmt rest) :
    (isDigit (rest.headD 0#8) = true ∧ starFirst rest = 0 ∧
      ∃ v, skipAtoi format (format.length + 1) fmt 0#32 = some (v, fmt + (rest.takeWhile isDigit).length)) ∨
    (isDigit (rest.headD 0#8) = false ∧ rest.headD 0#8 = byte '*' ∧ starFirst rest = 1 ∧
      rest.takeWhile isDigit = []) ∨
    (isDigit (rest.headD 0#8) = false ∧ rest.headD 0#8 ≠ byte '*' ∧ starFirst rest = 0 ∧
      rest.takeWhile isDigit = []) := by
  have hLength := hAt.length_le
  have hHead := headD_eq_iff rest (show byte '*' ≠ 0#8 by decide)
  cases hDigit : isDigit (rest.headD 0#8) with
  | true =>
      refine .inl ⟨rfl, if_neg fun h => ?_, skipAtoi_read format rest _ fmt 0#32 (by omega) hAt⟩
      rw [hHead.2 h] at hDigit
      cases hDigit
  | false =>
      have hNone : rest.takeWhile isDigit = [] := by
        cases rest with
        | nil => rfl
        | cons c rest => exact List.takeWhile_cons_of_neg (by simpa using hDigit)
      by_cases hStar : rest.headD 0#8 = byte '*'
      · exact .inr (.inl ⟨rfl, hStar, if_pos (hHead.1 hStar), hNone⟩)
      · exact .inr (.inr ⟨rfl, hStar, if_neg fun h => hStar (hHead.2 h), hNone⟩)

/-- The width is read, digits or a star, whatever argument the star takes. -/
theorem scanWidth_read (hAt : At format scan.fmt rest) :
    ∃ flags fieldWidth, scanWidth format arg scan = some
      { scan with
        fmt := scan.fmt + (rest.takeWhile isDigit).length
        args := scan.args + starFirst rest
        flags
        fieldWidth } := by
  rw [scanWidth]
  simp only [hAt.deref, Option.bind_eq_bind, Option.bind_some]
  rcases amount_cases format rest hAt with ⟨hDigit, hTaken, v, hv⟩ | ⟨hDigit, hStar, hTaken, hNone⟩ |
    ⟨hDigit, hStar, hTaken, hNone⟩
  · rw [if_pos hDigit, hv, hTaken]
    exact ⟨scan.flags, v, rfl⟩
  · rw [hDigit, if_neg Bool.false_ne_true, if_pos hStar, hTaken, hNone]
    by_cases hNegative : (arg scan.args).slt 0#32
    · exact ⟨scan.flags ||| left, -arg scan.args, if_pos hNegative⟩
    · exact ⟨scan.flags, arg scan.args, if_neg hNegative⟩
  · rw [hDigit, if_neg Bool.false_ne_true, if_neg hStar, hTaken, hNone]
    exact ⟨scan.flags, -1#32, rfl⟩

theorem negative_precision (v : BitVec 32) :
    ∃ precision, (if v.slt 0#32 then some { scan with precision := 0#32 } else some { scan with precision := v }) =
      some { scan with precision } := by
  by_cases hNegative : v.slt 0#32
  · exact ⟨0#32, if_pos hNegative⟩
  · exact ⟨v, if_neg hNegative⟩

/-- The precision is read behind a dot, or nothing is. -/
theorem scanPrecision_read (hAt : At format scan.fmt rest) :
    ∃ fmt precision, At format fmt (cutPrecision rest).2 ∧ scanPrecision format arg scan = some
      { scan with fmt, args := scan.args + starBehindDot rest, precision } := by
  have hHead := headD_eq_iff rest (show byte '.' ≠ 0#8 by decide)
  rw [scanPrecision]
  simp only [hAt.deref, Option.bind_eq_bind, Option.bind_some]
  by_cases hDot : rest.headD 0#8 = byte '.'
  · obtain ⟨rest', rfl⟩ := List.head?_eq_some_iff.1 (hHead.1 hDot)
    have hTaken : starBehindDot (byte '.' :: rest') = starFirst rest' := if_pos rfl
    have hCut : (cutPrecision (byte '.' :: rest')).2 = rest'.dropWhile isDigit := by rw [cutPrecision, if_pos rfl]
    have hBehind := hAt.next.dropWhile isDigit
    simp only [if_pos hDot, hAt.next.deref, Option.bind_some, hTaken, hCut]
    refine ⟨scan.fmt + 1 + (rest'.takeWhile isDigit).length, ?_⟩
    rcases amount_cases format rest' hAt.next with ⟨hDigit, hTaken', v, hv⟩ | ⟨hDigit, hStar, hTaken', hNone⟩ |
      ⟨hDigit, hStar, hTaken', hNone⟩
    · obtain ⟨precision, hPrecision⟩ := negative_precision
        { scan with fmt := scan.fmt + 1 + (rest'.takeWhile isDigit).length } v
      rw [if_pos hDigit, hv, hTaken']
      exact ⟨precision, hBehind, hPrecision⟩
    · obtain ⟨precision, hPrecision⟩ := negative_precision
        { scan with fmt := scan.fmt + 1, args := scan.args + 1 } (arg scan.args)
      rw [hDigit, if_neg Bool.false_ne_true, if_pos hStar, hTaken', hNone]
      rw [hNone] at hBehind
      exact ⟨precision, hBehind, hPrecision⟩
    · rw [hDigit, if_neg Bool.false_ne_true, if_neg hStar, hTaken', hNone]
      rw [hNone] at hBehind
      exact ⟨0#32, hBehind, rfl⟩
  · have hTaken : starBehindDot rest = 0 := if_neg fun h => hDot (hHead.2 h)
    rw [if_neg hDot, hTaken, cutPrecision_no_dot rest fun h => hDot (hHead.2 h)]
    exact ⟨scan.fmt, -1#32, hAt, rfl⟩

/-- At most one qualifier is passed over. -/
theorem scanQualifier_read (hAt : At format scan.fmt rest) :
    ∃ fmt, At format fmt (cutQualifier rest).2 ∧ scanQualifier format scan = some { scan with fmt } := by
  rw [scanQualifier]
  cases rest with
  | nil =>
      simp only [hAt.deref_nil, Option.bind_eq_bind, Option.bind_some]
      exact ⟨scan.fmt, hAt, rfl⟩
  | cons c rest =>
      simp only [hAt.deref_cons, Option.bind_eq_bind, Option.bind_some]
      rw [cutQualifier]
      by_cases hQualifier : isQualifier c = true
      · rw [if_pos hQualifier]
        exact ⟨scan.fmt + 1, hAt.next, if_pos hQualifier⟩
      · rw [if_neg hQualifier]
        exact ⟨scan.fmt, hAt, if_neg hQualifier⟩

/-- What has been taken for a star is what the specification says. -/
theorem stars_cutDirective :
    starFirst (rest.dropWhile isFlag) + starBehindDot ((rest.dropWhile isFlag).dropWhile isDigit) =
      (cutDirective rest).1.stars := by
  have hStarByte : isDigit (byte '*') = false ∧ isQualifier (byte '*') = false ∧ byte '*' ≠ byte '.' := by decide
  rw [cutDirective, Specification.stars]
  generalize rest.dropWhile isFlag = width
  by_cases hWidth : width.head? = some (byte '*')
  · obtain ⟨width, rfl⟩ := List.head?_eq_some_iff.1 hWidth
    simp [starFirst, starBehindDot, cutPrecision, cutQualifier, hStarByte]
  rw [starFirst, if_neg hWidth, Nat.zero_add]
  by_cases hDot : (width.dropWhile isDigit).head? = some (byte '.')
  · obtain ⟨amount, hAmount⟩ := List.head?_eq_some_iff.1 hDot
    simp only [hAmount, starBehindDot, cutPrecision, List.head?_cons, List.tail_cons, if_true]
    by_cases hPrecision : amount.head? = some (byte '*')
    · obtain ⟨amount, rfl⟩ := List.head?_eq_some_iff.1 hPrecision
      simp [starFirst, cutQualifier, hStarByte]
    · rw [starFirst, if_neg hPrecision, if_neg]
      rintro ⟨hConversion, hQualifier, ⟨-, hNone⟩ | hEmpty⟩
      · cases hNone
      · rw [cutQualifier_of_none _ hQualifier, dropWhile_of_takeWhile _ _ (Option.some.inj hEmpty)] at hConversion
        exact hPrecision hConversion
  · simp only [starBehindDot, if_neg hDot, cutPrecision_no_dot _ hDot]
    rw [if_neg]
    rintro ⟨hConversion, hQualifier, ⟨hEmpty, -⟩ | hSome⟩
    · rw [cutQualifier_of_none _ hQualifier, dropWhile_of_takeWhile _ _ hEmpty] at hConversion
      exact hWidth hConversion
    · cases hSome

/-- The scan of a directive ends where the cut says, at what is to be
converted. -/
theorem scanDirective_read (fmt args : Nat) (hAt : At format fmt (byte '%' :: rest)) :
    ∃ scan, scanDirective format arg fmt args = some scan ∧
      At format scan.fmt ((cutDirective rest).1.conversion.toList ++ (cutDirective rest).2) ∧
      scan.args = args + (cutDirective rest).1.stars := by
  have hLength := hAt.length_le
  rw [List.length_cons] at hLength
  obtain ⟨flags, hFlags⟩ := scanFlags_read format rest (format.length + 1) fmt 0#32 (by omega) hAt.next
  have hWidthAt := hAt.next.dropWhile isFlag
  obtain ⟨flags', fieldWidth, hWidth⟩ := scanWidth_read format arg
    ⟨fmt + 1 + (rest.takeWhile isFlag).length, args, flags, -1#32, -1#32⟩ _ hWidthAt
  obtain ⟨fmt₁, precision, hBehindPrecision, hPrecision⟩ := scanPrecision_read format arg
    ⟨_, args + starFirst (rest.dropWhile isFlag), flags', fieldWidth, -1#32⟩ _ (hWidthAt.dropWhile isDigit)
  obtain ⟨fmt₂, hBehindQualifier, hQualifier⟩ := scanQualifier_read format
    ⟨fmt₁, _, flags', fieldWidth, precision⟩ _ hBehindPrecision
  refine ⟨⟨fmt₂, args + starFirst (rest.dropWhile isFlag) + starBehindDot ((rest.dropWhile isFlag).dropWhile isDigit),
    flags', fieldWidth, precision⟩, ?_, ?_, ?_⟩
  · rw [scanDirective, hFlags]
    simp only [Option.bind_eq_bind, Option.bind_some]
    rw [hWidth, Option.bind_some, hPrecision, Option.bind_some, hQualifier]
  · rw [cutDirective]
    simpa only [toList_head?_append_tail] using hBehindQualifier
  · rw [← stars_cutDirective, ← Nat.add_assoc]

variable (memory : ByteMemory.Memory)

/-- A NUL ends the search for the length. -/
theorem strlenFrom_ends (n : Nat) (p : BitVec 32) (rounds : Nat) (hRounds : n < rounds)
    (hNul : memory (p + BitVec.ofNat 32 n).toNat = 0#8) : ∃ len, strlenFrom memory rounds p = some len := by
  induction n generalizing p rounds with
  | zero =>
      cases rounds with
      | zero => exact absurd hRounds (Nat.not_lt_zero _)
      | succ rounds => exact ⟨0, by rw [strlenFrom, if_pos (by simpa using hNul)]⟩
  | succ n ih =>
      cases rounds with
      | zero => exact absurd hRounds (Nat.not_lt_zero _)
      | succ rounds =>
          rw [strlenFrom]
          by_cases hEnd : memory p.toNat = 0#8
          · exact ⟨0, if_pos hEnd⟩
          · have hNext : p + 1#32 + BitVec.ofNat 32 n = p + BitVec.ofNat 32 (n + 1) := by
              rw [BitVec.add_assoc, ← BitVec.ofNat_add, Nat.add_comm]
            obtain ⟨len, hLen⟩ := ih (p + 1#32) rounds (by omega) (by rwa [hNext])
            exact ⟨len + 1, by rw [if_neg hEnd, hLen]; rfl⟩

/-- A conversion of a string that ends comes to its end. -/
theorem convertString_ends (flags fieldWidth precision s : BitVec 32) (hEnds : ∃ nul, Ends memory s nul) :
    ∃ out, convertString memory flags fieldWidth precision s = some out := by
  obtain ⟨nul, ⟨n, rfl⟩, hNul⟩ := hEnds
  have hSame : BitVec.ofNat 32 n = BitVec.ofNat 32 (n % 2 ^ 32) :=
    BitVec.eq_of_toNat_eq (by simp only [BitVec.toNat_ofNat, Nat.mod_mod])
  obtain ⟨len, hLen⟩ := strlenFrom_ends memory (n % 2 ^ 32) s (2 ^ 32) (Nat.mod_lt _ (by decide)) (by rwa [← hSame])
  rw [convertString, strlen, hLen]
  exact ⟨_, rfl⟩

/-- So does every conversion that prints. -/
theorem converted_ends (v : BitVec 32) (conversion : Conversion)
    (hEnds : conversion = .s → ∃ nul, Ends memory v nul) : ∃ out, converted memory scan v conversion = some out := by
  have hNumber (base size type : BitVec 32) (hBase : 2 ≤ base.toNat ∧ base.toNat ≤ 36) :=
    number_writes v base size scan.precision type hBase.1 hBase.2
  cases conversion with
  | c => exact ⟨_, rfl⟩
  | s => exact convertString_ends memory _ _ _ v (hEnds rfl)
  | o => exact hNumber 8#32 _ _ (by decide)
  | x | upperX => exact hNumber 16#32 _ _ (by decide)
  | d | i | u => exact hNumber 10#32 _ _ (by decide)
  | p =>
      rw [converted]
      split_ifs
      · exact hNumber 16#32 _ _ (by decide)
      · exact hNumber 16#32 _ _ (by decide)

theorem takesArgument_iff (c : Byte) :
    takesArgument c = true ↔ c = byte 'n' ∨ ∃ conversion : Conversion, c = conversion.byte := by
  constructor
  · intro h
    simp only [takesArgument, List.map_cons, List.map_nil, List.contains_cons, List.contains_nil, Bool.or_eq_true,
      beq_iff_eq, Bool.or_false] at h
    rcases h with h | h | h | h | h | h | h | h | h | h
    · exact .inr ⟨.c, h⟩
    · exact .inr ⟨.s, h⟩
    · exact .inr ⟨.o, h⟩
    · exact .inr ⟨.p, h⟩
    · exact .inr ⟨.x, h⟩
    · exact .inr ⟨.upperX, h⟩
    · exact .inr ⟨.d, h⟩
    · exact .inr ⟨.i, h⟩
    · exact .inr ⟨.u, h⟩
    · exact .inl h
  · rintro (rfl | ⟨conversion, rfl⟩)
    · rfl
    · cases conversion <;> rfl

variable (printing : Printing)

/-- The end of the format: the cursor steps back. -/
theorem convert_end (hAt : At format scan.fmt []) : convert format arg printing scan = some
    { printing with fmt := scan.fmt - 1, args := scan.args, str := printing.str ++ [byte '%'] } := by
  rw [convert]
  simp only [hAt.deref_nil, Option.bind_eq_bind, Option.bind_some]
  rfl

/-- Any other byte is printed behind the percent. -/
theorem convert_other {c : Byte} (hc : c ≠ 0#8) (hTakes : takesArgument c = false)
    (hAt : At format scan.fmt (c :: rest)) : convert format arg printing scan = some
      { printing with
        fmt := scan.fmt
        args := scan.args
        str := printing.str ++ if c = byte '%' then [byte '%'] else [byte '%', c] } := by
  simp only [takesArgument, List.map_cons, List.map_nil, List.contains_cons, List.contains_nil, Bool.or_eq_false_iff,
    beq_eq_false_iff_ne, ne_eq] at hTakes
  obtain ⟨h1, h2, h3, h4, h5, h6, h7, h8, h9, h10, -⟩ := hTakes
  rw [convert]
  simp only [hAt.deref_cons, Option.bind_eq_bind, Option.bind_some, if_neg h1, if_neg h2, if_neg h3, if_neg h4,
    if_neg h5, if_neg h6, if_neg (not_or.2 ⟨h7, h8⟩), if_neg h9, if_neg h10, if_neg hc]
  by_cases hPercent : c = byte '%'
  · simp [hPercent]
  · simp [hPercent]

/-- A conversion byte takes its argument, prints, and the format is read behind it. -/
theorem convert_read {c : Byte} (hc : c ≠ 0#8) (hAt : At format scan.fmt (c :: rest))
    (hEnds : c = byte 's' → ∃ nul, Ends printing.memory (arg scan.args) nul) :
    ∃ out memory, convert format arg printing scan = some
        { fmt := scan.fmt
          args := scan.args + if takesArgument c then 1 else 0
          str := printing.str ++ out
          memory } ∧
      (∀ bytes, conversionLiteral c = some bytes → out = bytes) ∧
      ∀ a, (c = byte 'n' → a < (arg scan.args).toNat ∨ (arg scan.args).toNat + 4 ≤ a) →
        memory a = printing.memory a := by
  cases hTakes : takesArgument c with
  | true =>
      rcases (takesArgument_iff c).1 hTakes with rfl | ⟨conversion, rfl⟩
      · refine ⟨[], ByteMemory.store32 printing.memory (arg scan.args).toNat (BitVec.ofNat 32 printing.str.length),
          ?_, fun bytes hBytes => Option.some.inj hBytes, fun a ha => ByteMemory.store32_outside _ _ _ (ha rfl)⟩
        rw [convert]
        simp only [hAt.deref_cons, Option.bind_eq_bind, Option.bind_some]
        rfl
      · obtain ⟨out, hOut⟩ := converted_ends scan printing.memory (arg scan.args) conversion
          fun h => hEnds (by rw [h]; rfl)
        refine ⟨out, printing.memory, ?_, fun bytes hBytes => ?_, fun _ _ => rfl⟩
        · rw [convert_conversion format arg printing scan conversion rest hAt, hOut]
          rfl
        · cases conversion <;> cases hBytes
  | false =>
      refine ⟨_, printing.memory, convert_other format arg scan rest printing hc hTakes hAt, fun bytes hBytes => ?_,
        fun _ _ => rfl⟩
      have hStore : c ≠ byte 'n' := by
        rintro rfl
        cases hTakes
      rw [conversionLiteral, if_neg hStore, hTakes, if_neg Bool.false_ne_true] at hBytes
      split_ifs at hBytes ⊢ <;> exact Option.some.inj hBytes

theorem mem_of_conversion {c : Byte} (hc : (cutDirective rest).1.conversion = some c) : c ∈ rest := by
  rw [← cutDirective_bytes rest]
  simp [Specification.bytes, hc]

theorem behind_end (hc : (cutDirective rest).1.conversion = none) : (cutDirective rest).2 = [] :=
  congrArg List.tail (List.head?_eq_none_iff.1 hc)

/-- A round of the loop at a `'%'`, to behind the directive. -/
theorem printLoop_cut (rounds : Nat) (hAt : At format printing.fmt (byte '%' :: rest)) (hNul : 0#8 ∉ rest)
    (hEnds : (cutDirective rest).1.conversion = some (byte 's') →
      ∃ nul, Ends printing.memory (arg printing.args) nul) :
    ∃ fmt out memory, At format fmt (cutDirective rest).2 ∧
      printLoop format arg (rounds + 1) printing = printLoop format arg rounds
        { fmt
          args := printing.args + (Part.directive (cutDirective rest).1).used
          str := printing.str ++ out
          memory } ∧
      Prints (.directive (cutDirective rest).1) out ∧
      ∀ a, ((cutDirective rest).1.conversion = some (byte 'n') →
          a < (arg printing.args).toNat ∨ (arg printing.args).toNat + 4 ≤ a) →
        memory a = printing.memory a := by
  obtain ⟨scan, hScan, hEnd, hArgs⟩ := scanDirective_read format arg rest printing.fmt printing.args hAt
  rw [printLoop_directive format arg rounds printing hAt, hScan, Option.bind_some, Part.used, ← Nat.add_assoc, ← hArgs]
  have hNoStar : ∀ c, (cutDirective rest).1.conversion = some c → c ≠ byte '*' → scan.args = printing.args := by
    intro c hc hOther
    rw [hArgs, Specification.stars, if_neg, Nat.add_zero]
    rintro ⟨hStar, -⟩
    exact hOther (Option.some.inj (hc.symm.trans hStar))
  cases hc : (cutDirective rest).1.conversion with
  | none =>
      have hLast : (cutDirective rest).2 = [] := behind_end rest hc
      rw [hc, hLast] at hEnd
      have hHere := hAt.length_eq
      have hThere := hEnd.length_eq
      rw [List.length_cons] at hHere
      refine ⟨scan.fmt, [byte '%'], printing.memory, hLast ▸ hEnd, ?_, ?_, fun _ _ => rfl⟩
      · rw [convert_end format arg scan printing hEnd, Option.bind_some,
          Nat.sub_add_cancel (show 1 ≤ scan.fmt by simp at hThere; omega)]
        rfl
      · intro bytes hBytes
        rw [Part.literal, hc] at hBytes
        exact Option.some.inj hBytes
  | some c =>
      rw [hc] at hEnd
      have hByte : c ≠ 0#8 := fun h => hNul (h ▸ mem_of_conversion rest hc)
      obtain ⟨out, memory, hConvert, hPrints, hFrame⟩ := convert_read format arg scan _ printing hByte hEnd
        fun h => by rw [hNoStar c hc (by rw [h]; decide)]; exact hEnds (by rw [hc, h])
      refine ⟨scan.fmt + 1, out, memory, hEnd.next, ?_, ?_, fun a ha => hFrame a fun h => ?_⟩
      · rw [hConvert, Option.bind_some]
        rfl
      · intro bytes hBytes
        rw [Part.literal, hc] at hBytes
        exact hPrints bytes hBytes
      · rw [hNoStar c hc (by rw [h]; decide)]
        exact ha (by rw [h])

theorem mem_argumentsOf_behind {c : Byte} {k i : Nat} {d : Specification} {parts : List Part}
    (hi : i ∈ argumentsOf c (k + (Part.directive d).used) parts) : i ∈ argumentsOf c k (.directive d :: parts) := by
  rw [argumentsOf]
  split_ifs
  · exact List.mem_cons_of_mem k hi
  · exact hi

theorem mem_argumentsOf_first {c : Byte} (k : Nat) {d : Specification} (parts : List Part)
    (hc : d.conversion = some c) : k ∈ argumentsOf c k (.directive d :: parts) := by
  rw [argumentsOf, if_pos hc]
  exact List.mem_cons_self

/-- A directive that stores only where it may leaves the strings behind it with
an end. -/
theorem Safe.behind {memory' : ByteMemory.Memory} {k : Nat} {d : Specification} {parts : List Part}
    (h : Safe memory arg k (.directive d :: parts))
    (hFrame : ∀ a, (d.conversion = some (byte 'n') → a < (arg k).toNat ∨ (arg k).toNat + 4 ≤ a) →
      memory' a = memory a) :
    Safe memory' arg (k + (Part.directive d).used) parts := by
  intro i hi
  obtain ⟨nul, ⟨hReached, hNul⟩, hApart⟩ := h i (mem_argumentsOf_behind hi)
  refine ⟨nul, ⟨hReached, ?_⟩, fun j hj => hApart j (mem_argumentsOf_behind hj)⟩
  rw [hFrame nul.toNat fun hStore => hApart k (mem_argumentsOf_first k parts hStore), hNul]

/-- The loop of `vsprintf` over any format without a NUL, directive by directive. -/
theorem printLoop_split (rest : List Byte) (rounds : Nat) (printing : Printing) (hRounds : rest.length < rounds)
    (hAt : At format printing.fmt rest) (hNul : 0#8 ∉ rest)
    (hSafe : Safe printing.memory arg printing.args (split rest)) :
    ∃ chunks fmt memory, List.Forall₂ Prints (split rest) chunks ∧
      printLoop format arg rounds printing = some
        { fmt
          args := printing.args + used (split rest)
          str := printing.str ++ chunks.flatten
          memory } := by
  induction rest using split.induct generalizing rounds printing with
  | case1 =>
      cases rounds with
      | zero => exact absurd hRounds (Nat.not_lt_zero _)
      | succ rounds =>
          refine ⟨[], printing.fmt, printing.memory, by rw [split]; exact .nil, ?_⟩
          rw [printLoop]
          simp [hAt.deref_nil, split, used]
  | case2 rest ih =>
      cases rounds with
      | zero => exact absurd hRounds (Nat.not_lt_zero _)
      | succ rounds =>
          rw [split_directive] at hSafe ⊢
          have hRest : 0#8 ∉ rest := fun h => hNul (List.mem_cons_of_mem _ h)
          have hShort := length_cutDirective_le rest
          obtain ⟨fmt, out, memory, hBehind, hLoop, hPrints, hFrame⟩ := printLoop_cut format arg rest printing rounds
            hAt hRest fun hc => by
              obtain ⟨nul, hEnds, -⟩ := hSafe printing.args (mem_argumentsOf_first printing.args _ hc)
              exact ⟨nul, hEnds⟩
          have hBehindNul : 0#8 ∉ (cutDirective rest).2 := by
            intro h
            refine hRest ?_
            rw [← cutDirective_bytes rest]
            exact List.mem_append_right _ h
          obtain ⟨chunks, fmt', memory', hChunks, hEnd⟩ := ih rounds ⟨fmt, _, _, memory⟩
            (by simp only [List.length_cons] at hRounds; omega) hBehind hBehindNul
            (Safe.behind arg printing.memory hSafe hFrame)
          refine ⟨out :: chunks, fmt', memory', .cons hPrints hChunks, ?_⟩
          rw [hLoop, hEnd]
          simp [used, Nat.add_assoc]
  | case3 b rest hText ih =>
      cases rounds with
      | zero => exact absurd hRounds (Nat.not_lt_zero _)
      | succ rounds =>
          rw [split_text hText] at hSafe ⊢
          obtain ⟨hFirst, hRest⟩ := List.ne_and_not_mem_of_not_mem_cons hNul
          obtain ⟨chunks, fmt, memory, hChunks, hEnd⟩ := ih rounds
            { printing with fmt := printing.fmt + 1, str := printing.str ++ [b] } (by simpa using hRounds) hAt.next
            hRest hSafe
          refine ⟨[b] :: chunks, fmt, memory, .cons (fun bytes hBytes => Option.some.inj hBytes) hChunks, ?_⟩
          rw [printLoop_text format arg rounds printing ⟨hFirst.symm, hText⟩ hAt, hEnd]
          simp [used, Part.used]

/-- `vsprintf` comes back, without a look behind the NUL of the format; the
buffer has what the parts of the format print, in their order, and a NUL, and
the distance to it is returned. -/
def PrintsParts : Prop :=
  (split format).flatMap Part.bytes = format ∧
    ∃ printed chunks, vsprintf format arg memory = some printed ∧ List.Forall₂ Prints (split format) chunks ∧
      printed.buf = chunks.flatten ++ [0#8] ∧ printed.returned = BitVec.ofNat 32 chunks.flatten.length ∧
      printed.args = used (split format)

/-- Wherever the format ends and whatever its directives are. -/
theorem vsprintf_prints (hNul : 0#8 ∉ format) (hSafe : Safe memory arg 0 (split format)) :
    PrintsParts format arg memory := by
  obtain ⟨chunks, fmt, memory', hChunks, hLoop⟩ := printLoop_split format arg format (format.length + 1)
    ⟨0, 0, [], memory⟩ (Nat.lt_succ_self _) at_zero hNul hSafe
  refine ⟨split_bytes format, ?_⟩
  rw [vsprintf, hLoop]
  exact ⟨_, chunks, rfl, hChunks, by simp, by simp, by simp⟩

end

/-- `"%s%n%"`: a string, a store and half a directive. -/
def halfFormat : List Byte := [byte '%', byte 's', byte '%', byte 'n', byte '%']

def halfArgs (i : Nat) : BitVec 32 := if i = 0 then 0x1000#32 else 0x2000#32

theorem split_halfFormat : split halfFormat =
    [.directive ⟨[], [], none, none, some (byte 's')⟩, .directive ⟨[], [], none, none, some (byte 'n')⟩,
      .directive ⟨[], [], none, none, none⟩] := by
  have hFirst : cutDirective [byte 's', byte '%', byte 'n', byte '%'] =
      (⟨[], [], none, none, some (byte 's')⟩, [byte '%', byte 'n', byte '%']) := rfl
  have hSecond : cutDirective [byte 'n', byte '%'] = (⟨[], [], none, none, some (byte 'n')⟩, [byte '%']) := rfl
  have hLast : cutDirective [] = (⟨[], [], none, none, none⟩, []) := rfl
  rw [halfFormat, split_directive, hFirst, split_directive, hSecond, split_directive, hLast, split]

theorem safe_halfFormat : Safe testing halfArgs 0 (split halfFormat) := by
  rw [split_halfFormat]
  intro i hi
  obtain rfl : i = 0 := by simpa using (show i ∈ [0] from hi)
  refine ⟨0x1007#32, ⟨⟨7, by decide⟩, by decide +kernel⟩, fun j hj => ?_⟩
  obtain rfl : j = 1 := by simpa using (show j ∈ [1] from hj)
  exact .inl (by decide)

theorem vsprintf_prints_half : PrintsParts halfFormat halfArgs testing :=
  vsprintf_prints halfFormat halfArgs testing (by decide) safe_halfFormat

end Linux011.Vsprintf

import Linux011.Kernel.Conversion

/-! `vsprintf` over a whole format. -/
namespace Linux011.Vsprintf

open Printf

/-- Widths and precisions are below this. -/
def amountBound : Nat := 2 ^ 20

abbrev Format := List (Piece amountBound)

/-- A star for the width or for the precision. -/
def starred (d : Directive amountBound) : Prop := d.width = some .star ∨ d.precision = some .star

instance (d : Directive amountBound) : Decidable (starred d) := by
  unfold starred
  infer_instance

/-- The flags as `vsprintf` collects them. -/
def flagBits (flags : List Flag) : BitVec 32 := flags.foldl (fun b f => b ||| flagMask f) 0#32

/-- Each flag of the language has a bit of its own. -/
theorem getElem_flagBits {k : Nat} (hk : k < 32) (flag : Flag)
    (hMask : ∀ f, (flagMask f)[k] = decide (f = flag)) (flags : List Flag) :
    (flagBits flags)[k] = decide (flag ∈ flags) := by
  have hFold : ∀ bits : BitVec 32, (flags.foldl (fun b f => b ||| flagMask f) bits)[k] =
      (bits[k] || decide (flag ∈ flags)) := by
    induction flags with
    | nil => simp
    | cons f flags ih =>
        intro bits
        rw [List.foldl_cons, ih, BitVec.getElem_or, hMask]
        by_cases h : f = flag
        · simp [h]
        · simp [h, Ne.symm h]
  exact (hFold 0#32).trans (by simp)

theorem getElem_flagBits_other {k : Nat} (hk : k < 32) (hMask : ∀ f, (flagMask f)[k] = false) (flags : List Flag) :
    (flagBits flags)[k] = false := by
  have hFold : ∀ bits : BitVec 32, (flags.foldl (fun b f => b ||| flagMask f) bits)[k] = bits[k] := by
    induction flags with
    | nil => intro bits; rfl
    | cons f flags ih =>
        intro bits
        rw [List.foldl_cons, ih, BitVec.getElem_or, hMask, Bool.or_false]
  exact (hFold 0#32).trans (by simp)

/-- What the bits make of the field. -/
theorem styleOf_flagBits (flags : List Flag) : styleOf (flagBits flags) =
    { left := .left ∈ flags
      plus := .plus ∈ flags
      space := .space ∈ flags
      special := .special ∈ flags
      zero := .zero ∈ flags
      small := false
      signed := false } := by
  rw [styleOf, getElem_flagBits (by decide) .left (by intro f; cases f <;> rfl),
    getElem_flagBits (by decide) .plus (by intro f; cases f <;> rfl),
    getElem_flagBits (by decide) .space (by intro f; cases f <;> rfl),
    getElem_flagBits (by decide) .special (by intro f; cases f <;> rfl),
    getElem_flagBits (by decide) .zero (by intro f; cases f <;> rfl),
    getElem_flagBits_other (by decide) (by intro f; cases f <;> rfl),
    getElem_flagBits_other (by decide) (by intro f; cases f <;> rfl)]

/-- A width or a precision that was read from digits, or is not there. -/
theorem toInt_amountWord {amount : Option (Amount amountBound)} (h : amount ≠ some .star) (arg : Nat → BitVec 32)
    (k : Nat) :
    (amountWord amount).toInt = (amount.map (Amount.value arg k)).elim (-1) id ∧
      (amountWord amount).toInt < 2 ^ 29 := by
  match amount with
  | none => exact ⟨rfl, by decide⟩
  | some .star => exact absurd rfl h
  | some (.number n) =>
      have hSmall : n.value < 2 ^ 20 := n.small
      rw [amountWord, toInt_ofNat_of_lt (by omega)]
      exact ⟨rfl, by omega⟩

section

variable (format : List Byte) (arg : Nat → BitVec 32) (d : Directive amountBound)

theorem final_conversion (conversion : Conversion) : Final conversion.byte := by
  cases conversion <;> unfold Final <;> decide

theorem final_percent : Final (byte '%') := by
  unfold Final
  decide

/-- The scan of a directive without stars has read what the directive says. -/
theorem represents (hStar : ¬ starred d) (fmt k : Nat) :
    Represents ⟨fmt, k, flagBits d.flags, amountWord d.width, amountWord d.precision⟩ (d.layout arg k) := by
  obtain ⟨hw, hp⟩ := not_or.1 hStar
  obtain ⟨hWidth, hNarrow⟩ := toInt_amountWord hw arg k
  obtain ⟨hPrecision, hExact⟩ := toInt_amountWord hp arg (k + starCount d.width)
  have hNatural : ∀ {amount : Option (Amount amountBound)} (_ : amount ≠ some .star) (k : Nat),
      ∀ v ∈ amount.map (Amount.value arg k), 0 ≤ v := by
    intro amount hAmount k v hv
    match amount with
    | none => cases hv
    | some .star => exact absurd rfl hAmount
    | some (.number n) =>
        obtain rfl : (n.value : Int) = v := by simpa [Amount.value] using hv
        exact Int.natCast_nonneg _
  refine ⟨?_, ?_, ?_, hNarrow, hExact⟩
  · have hNotNegative : (d.width.map (Amount.value arg k)).any (· < 0) = false := by
      cases hCase : d.width.map (Amount.value arg k) with
      | none => rfl
      | some v =>
          have hv := hNatural hw k v hCase
          simpa using hv
    simp only [Directive.layout, hNotNegative, Bool.or_false, styleOf_flagBits]
  · rw [hWidth]
    cases hCase : d.width.map (Amount.value arg k) with
    | none => simp [Directive.layout, hCase]
    | some v =>
        have hv := hNatural hw k v hCase
        simp only [Directive.layout, hCase, Option.map_some, Option.elim_some, id]
        omega
  · rw [hPrecision]
    cases hCase : d.precision.map (Amount.value arg (k + starCount d.width)) with
    | none => simp [Directive.layout, hCase]
    | some v =>
        have hv := hNatural hp _ v hCase
        simp only [Directive.layout, hCase, Option.map_some, Option.elim_some, id]
        omega

theorem stars_eq_zero (hStar : ¬ starred d) : d.stars = 0 := by
  obtain ⟨hw, hp⟩ := not_or.1 hStar
  have hCount : ∀ amount : Option (Amount amountBound), amount ≠ some .star → starCount amount = 0 := by
    intro amount h
    match amount with
    | none => rfl
    | some (.number n) => rfl
    | some .star => exact absurd rfl h
  rw [Directive.stars, hCount _ hw, hCount _ hp]

variable (rounds : Nat) (printing : Printing) {rest : List Byte}

/-- One byte of text is copied. -/
theorem printLoop_text {b : Byte} (hb : b ≠ 0#8 ∧ b ≠ byte '%') (hAt : At format printing.fmt (b :: rest)) :
    printLoop format arg (rounds + 1) printing =
      printLoop format arg rounds { printing with fmt := printing.fmt + 1, str := printing.str ++ [b] } := by
  rw [printLoop]
  simp [hAt.deref_cons, hb.1, hb.2]

/-- A round of the loop at a `'%'`. -/
theorem printLoop_directive (hAt : At format printing.fmt (byte '%' :: rest)) :
    printLoop format arg (rounds + 1) printing =
      (scanDirective format arg printing.fmt printing.args).bind fun scan =>
        (convert format arg printing scan).bind fun printing =>
          printLoop format arg rounds { printing with fmt := printing.fmt + 1 } := by
  rw [printLoop]
  simp only [hAt.deref_cons, Option.bind_eq_bind, Option.bind_some]
  rfl

/-- Two percent signs print one. -/
theorem printLoop_percent (hAt : At format printing.fmt (byte '%' :: byte '%' :: rest)) :
    ∃ fmt, At format fmt rest ∧ printLoop format arg (rounds + 1) printing =
      printLoop format arg rounds { printing with fmt, str := printing.str ++ [byte '%'] } := by
  obtain ⟨fmt, hEnd, hScan⟩ := scanDirective_eq format arg rest [] none none none printing.fmt printing.args
    final_percent (by simp) (show amountBound ≤ 2 ^ 31 by decide) (by simp) (by simp) hAt
  refine ⟨fmt + 1, hEnd.next, ?_⟩
  rw [printLoop_directive format arg rounds printing hAt, hScan]
  simp only [Option.bind_eq_bind, Option.bind_some, convert, hEnd.deref_cons]
  rfl

theorem Directive.bytes_append (rest : List Byte) : d.bytes ++ rest =
    byte '%' :: (d.flags.map Flag.byte ++ (widthBytes d.width ++ (precisionBytes d.precision ++
      (qualifierBytes d.qualifier ++ d.conversion.byte :: rest)))) := by
  simp [Directive.bytes]

/-- A directive without stars prints what the language says it prints. -/
theorem printLoop_render (hStar : ¬ starred d)
    (hString : d.conversion = .s → (cString printing.memory (arg (printing.args + d.stars))).length < 2 ^ 31)
    (hAt : At format printing.fmt (d.bytes ++ rest)) :
    ∃ fmt, At format fmt rest ∧ printLoop format arg (rounds + 1) printing =
      printLoop format arg rounds
        { printing with
          fmt
          args := printing.args + 1
          str := printing.str ++ d.render (cString printing.memory) arg printing.args } := by
  obtain ⟨hw, hp⟩ := not_or.1 hStar
  rw [Directive.bytes_append] at hAt
  rw [stars_eq_zero d hStar, Nat.add_zero] at hString
  obtain ⟨fmt, hEnd, hScan⟩ := scanDirective_eq format arg rest d.flags d.width d.precision d.qualifier printing.fmt
    printing.args (final_conversion d.conversion) d.leading (show amountBound ≤ 2 ^ 31 by decide) hw hp hAt
  have hConverted := converted_eq printing.memory (arg printing.args) d.conversion
    (represents arg d hStar fmt printing.args) hString
  have hConvert := convert_conversion format arg printing
    ⟨fmt, printing.args, flagBits d.flags, amountWord d.width, amountWord d.precision⟩ d.conversion rest hEnd
  rw [hConverted, Option.map_some] at hConvert
  refine ⟨fmt + 1, hEnd.next, ?_⟩
  rw [printLoop_directive format arg rounds printing hAt, hScan, Option.bind_some, ← flagBits, hConvert,
    Option.bind_some, Directive.render, stars_eq_zero d hStar]
  rfl

end

/-- The arguments fit: where a string is wanted there is one. -/
def Matching (memory : ByteMemory.Memory) (arg : Nat → BitVec 32) : Nat → Format → Prop
  | _, [] => True
  | k, piece :: pieces =>
      (∀ d, piece = .directive d → d.conversion = .s → (cString memory (arg (k + d.stars))).length < 2 ^ 31) ∧
        Matching memory arg (k + piece.taken) pieces

section

variable (format : List Byte) (arg : Nat → BitVec 32)

/-- A format without stars is printed as it is rendered, piece by piece. -/
theorem printLoop_eq (pieces : Format) (hStar : ∀ d, .directive d ∈ pieces → ¬ starred d) (rounds : Nat)
    (printing : Printing) (hRounds : pieces.length < rounds)
    (hMatch : Matching printing.memory arg printing.args pieces)
    (hAt : At format printing.fmt (formatBytes pieces)) :
    ∃ fmt, printLoop format arg rounds printing = some
      { printing with
        fmt
        args := printing.args + taken pieces
        str := printing.str ++ render (cString printing.memory) arg printing.args pieces } := by
  induction pieces generalizing rounds printing with
  | nil =>
      cases rounds with
      | zero => exact absurd hRounds (Nat.not_lt_zero _)
      | succ rounds =>
          refine ⟨printing.fmt, ?_⟩
          rw [printLoop]
          simp [hAt.deref_nil, taken, render]
  | cons piece pieces ih =>
      cases rounds with
      | zero => exact absurd hRounds (Nat.not_lt_zero _)
      | succ rounds =>
          have hRest := fun d hd => hStar d (List.mem_cons_of_mem _ hd)
          have hLess : pieces.length < rounds := by simpa using hRounds
          rw [formatBytes, List.flatMap_cons, ← formatBytes] at hAt
          cases piece with
          | text b plain =>
              rw [printLoop_text format arg rounds printing plain hAt]
              obtain ⟨fmt, hFmt⟩ := ih hRest rounds
                { printing with fmt := printing.fmt + 1, str := printing.str ++ [b] } hLess hMatch.2 hAt.next
              exact ⟨fmt, by rw [hFmt]; simp [taken, render, Piece.taken, Piece.render]⟩
          | percent =>
              obtain ⟨fmt', hAt', hLoop⟩ := printLoop_percent format arg rounds printing hAt
              obtain ⟨fmt, hFmt⟩ := ih hRest rounds
                { printing with fmt := fmt', str := printing.str ++ [byte '%'] } hLess hMatch.2 hAt'
              exact ⟨fmt, by rw [hLoop, hFmt]; simp [taken, render, Piece.taken, Piece.render]⟩
          | directive d =>
              have hPlain := hStar d List.mem_cons_self
              obtain ⟨fmt', hAt', hLoop⟩ := printLoop_render format arg d rounds printing hPlain
                (hMatch.1 d rfl) hAt
              have hTaken : (Piece.directive d).taken = 1 := by rw [Piece.taken, stars_eq_zero d hPlain]
              have hMatch' := hMatch.2
              rw [hTaken] at hMatch'
              obtain ⟨fmt, hFmt⟩ := ih hRest rounds
                { printing with
                  fmt := fmt'
                  args := printing.args + 1
                  str := printing.str ++ d.render (cString printing.memory) arg printing.args } hLess hMatch' hAt'
              exact ⟨fmt, by rw [hLoop, hFmt]; simp [taken, render, hTaken, Piece.render, Nat.add_assoc]⟩

/-- The code takes one argument for a directive, stars or not. -/
def directives : Format → Nat
  | [] => 0
  | .directive _ :: pieces => directives pieces + 1
  | _ :: pieces => directives pieces

theorem directives_le_taken (pieces : Format) : directives pieces ≤ taken pieces := by
  induction pieces with
  | nil => exact Nat.le_refl 0
  | cons piece pieces ih =>
      simp only [taken, List.map_cons, List.sum_cons] at ih ⊢
      cases piece <;> simp only [directives, Piece.taken] <;> omega

theorem not_starred_of_taken (pieces : Format) (h : directives pieces = taken pieces) (d : Directive amountBound)
    (hd : .directive d ∈ pieces) : ¬ starred d := by
  induction pieces with
  | nil => cases hd
  | cons piece pieces ih =>
      have hLess := directives_le_taken pieces
      simp only [taken, List.map_cons, List.sum_cons] at h hLess ih
      rcases List.mem_cons.1 hd with rfl | hd
      · simp only [directives, Piece.taken] at h
        rintro (hStar | hStar) <;>
        · simp only [Directive.stars, hStar, starCount] at h
          omega
      · refine ih ?_ hd
        cases piece <;> simp only [directives, Piece.taken] at h <;> omega

theorem plain_conversion (conversion : Conversion) :
    conversion.byte ≠ 0#8 ∧ conversion.byte ≠ byte '%' := by
  cases conversion <;> decide

theorem plain_digitByte (d : Fin 10) : digitByte d ≠ 0#8 ∧ digitByte d ≠ byte '%' := by
  decide +revert

/-- What a star leaves unread of its directive looks like text. -/
theorem plain_tail (p : Option (Amount amountBound)) (q : Option Qualifier) (conversion : Conversion) :
    ∀ b ∈ precisionBytes p ++ (qualifierBytes q ++ [conversion.byte]), b ≠ 0#8 ∧ b ≠ byte '%' := by
  intro b hb
  simp only [List.mem_append, List.mem_singleton] at hb
  rcases hb with hb | hb | rfl
  · rcases p with _ | n | _
    · cases hb
    · simp only [precisionBytes, Amount.bytes, Decimal.bytes, List.mem_cons, List.mem_map] at hb
      rcases hb with rfl | ⟨d, -, rfl⟩
      · decide
      · exact plain_digitByte d
    · simp only [precisionBytes, Amount.bytes, List.mem_cons, List.not_mem_nil, or_false] at hb
      rcases hb with rfl | rfl <;> decide
  · cases q with
    | none => cases hb
    | some q =>
        obtain rfl := List.mem_singleton.1 hb
        cases q <;> decide
  · exact plain_conversion conversion

/-- Bytes that are none of a directive are copied. -/
theorem printLoop_plain (tail rest : List Byte) (hPlain : ∀ b ∈ tail, b ≠ 0#8 ∧ b ≠ byte '%') (rounds : Nat)
    (printing last : Printing) (hAt : At format printing.fmt (tail ++ rest))
    (hLast : printLoop format arg rounds printing = some last) :
    ∃ rounds' printing', At format printing'.fmt rest ∧ printing'.args = printing.args ∧
      printLoop format arg rounds' printing' = some last := by
  induction tail generalizing rounds printing with
  | nil => exact ⟨rounds, printing, hAt, rfl, hLast⟩
  | cons b tail ih =>
      cases rounds with
      | zero => cases hLast
      | succ rounds =>
          rw [printLoop_text format arg rounds printing (hPlain b List.mem_cons_self) hAt] at hLast
          exact ih (fun b' hb' => hPlain b' (List.mem_cons_of_mem _ hb')) rounds
            { printing with fmt := printing.fmt + 1, str := printing.str ++ [b] } hAt.next hLast

/-- A directive with a star: the code prints `"%*"` and goes on behind the star
as if the rest were text. -/
theorem printLoop_starred (d : Directive amountBound) (hStar : starred d) (rest : List Byte) (rounds : Nat)
    (printing last : Printing) (hAt : At format printing.fmt (d.bytes ++ rest))
    (hLast : printLoop format arg (rounds + 1) printing = some last) :
    ∃ rounds' printing', At format printing'.fmt rest ∧ printing'.args = printing.args + 1 ∧
      printLoop format arg rounds' printing' = some last := by
  rw [Directive.bytes_append] at hAt
  obtain ⟨scan, p, hScan, hArgs, hEnd⟩ := scanDirective_star format arg rest d.flags d.width d.precision d.qualifier
    printing.fmt printing.args (final_conversion d.conversion) d.leading hStar hAt
  have hConvert : convert format arg printing scan = some
      { printing with
        fmt := scan.fmt
        args := scan.args
        str := printing.str ++ [byte '%'] ++ [byte '*'] } := by
    rw [convert]
    simp only [hEnd.deref_cons, Option.bind_eq_bind, Option.bind_some]
    rfl
  rw [printLoop_directive format arg rounds printing hAt, hScan, Option.bind_some, hConvert, Option.bind_some]
    at hLast
  have hTail : At format (scan.fmt + 1) ((precisionBytes p ++ (qualifierBytes d.qualifier ++ [d.conversion.byte])) ++
      rest) := by
    simpa using hEnd.next
  obtain ⟨rounds', printing', hAt', hArgs', hLast'⟩ := printLoop_plain format arg _ rest
    (plain_tail p d.qualifier d.conversion) rounds _ last hTail hLast
  exact ⟨rounds', printing', hAt', hArgs'.trans hArgs, hLast'⟩

/-- A directive without a star, whatever its argument is. -/
theorem printLoop_unstarred (d : Directive amountBound) (hStar : ¬ starred d) (rest : List Byte) (rounds : Nat)
    (printing last : Printing) (hAt : At format printing.fmt (d.bytes ++ rest))
    (hLast : printLoop format arg (rounds + 1) printing = some last) :
    ∃ printing', At format printing'.fmt rest ∧ printing'.args = printing.args + 1 ∧
      printLoop format arg rounds printing' = some last := by
  obtain ⟨hw, hp⟩ := not_or.1 hStar
  rw [Directive.bytes_append] at hAt
  obtain ⟨fmt, hEnd, hScan⟩ := scanDirective_eq format arg rest d.flags d.width d.precision d.qualifier printing.fmt
    printing.args (final_conversion d.conversion) d.leading (show amountBound ≤ 2 ^ 31 by decide) hw hp hAt
  rw [printLoop_directive format arg rounds printing hAt, hScan, Option.bind_some,
    convert_conversion format arg printing _ d.conversion rest hEnd] at hLast
  obtain ⟨printing', hMap, hRest⟩ := Option.bind_eq_some_iff.1 hLast
  obtain ⟨out, -, rfl⟩ := Option.map_eq_some_iff.1 hMap
  exact ⟨_, hEnd.next, rfl, hRest⟩

/-- Each directive takes one argument, stars or not. -/
theorem printLoop_args (pieces : Format) (rounds : Nat) (printing last : Printing)
    (hAt : At format printing.fmt (formatBytes pieces))
    (hLast : printLoop format arg rounds printing = some last) :
    last.args = printing.args + directives pieces := by
  induction pieces generalizing rounds printing with
  | nil =>
      cases rounds with
      | zero => cases hLast
      | succ rounds =>
          rw [printLoop] at hLast
          simp only [formatBytes, List.flatMap_nil] at hAt
          simp only [hAt.deref_nil, Option.bind_eq_bind, Option.bind_some, if_true, Option.some.injEq] at hLast
          rw [← hLast]
          rfl
  | cons piece pieces ih =>
      cases rounds with
      | zero => cases hLast
      | succ rounds =>
          rw [formatBytes, List.flatMap_cons, ← formatBytes] at hAt
          cases piece with
          | text b plain =>
              rw [printLoop_text format arg rounds printing plain hAt] at hLast
              exact ih rounds { printing with fmt := printing.fmt + 1, str := printing.str ++ [b] } hAt.next hLast
          | percent =>
              obtain ⟨fmt, hAt', hLoop⟩ := printLoop_percent format arg rounds printing hAt
              rw [hLoop] at hLast
              exact ih rounds { printing with fmt, str := printing.str ++ [byte '%'] } hAt' hLast
          | directive d =>
              rw [directives]
              by_cases hStar : starred d
              · obtain ⟨rounds', printing', hAt', hArgs, hLast'⟩ := printLoop_starred format arg d hStar _ rounds
                  printing last hAt hLast
                have := ih rounds' printing' hAt' hLast'
                omega
              · obtain ⟨printing', hAt', hArgs, hLast'⟩ := printLoop_unstarred format arg d hStar _ rounds
                  printing last hAt hLast
                have := ih rounds printing' hAt' hLast'
                omega

end

/-- What the language promises for a format: the output and its NUL, its
length, and that every argument was used once. -/
def Implements (memory : ByteMemory.Memory) (arg : Nat → BitVec 32) (pieces : Format) : Prop :=
  let output := render (cString memory) arg 0 pieces
  vsprintf (formatBytes pieces) arg memory =
    some ⟨output ++ [0#8], BitVec.ofNat 32 output.length, taken pieces, memory⟩

theorem length_le_formatBytes (pieces : Format) : pieces.length ≤ (formatBytes pieces).length := by
  induction pieces with
  | nil => exact Nat.le_refl 0
  | cons piece pieces ih =>
      rw [formatBytes, List.flatMap_cons, ← formatBytes, List.length_append, List.length_cons]
      have hOne : 1 ≤ piece.bytes.length := by cases piece <;> simp [Piece.bytes, Directive.bytes]
      omega

/-- `vsprintf` implements the language of its formats, but for the stars. -/
theorem vsprintf_implements_iff (memory : ByteMemory.Memory) (arg : Nat → BitVec 32) (pieces : Format)
    (hMatch : Matching memory arg 0 pieces) :
    Implements memory arg pieces ↔ ∀ d, .directive d ∈ pieces → ¬ starred d := by
  constructor
  · intro h
    rw [Implements, vsprintf] at h
    obtain ⟨last, hLast, hPrinted⟩ := Option.bind_eq_some_iff.1 h
    have hCount := printLoop_args (formatBytes pieces) arg pieces _ _ last at_zero hLast
    have hTaken : last.args = taken pieces := congrArg Printed.args (Option.some.inj hPrinted)
    exact not_starred_of_taken pieces (by rw [← hTaken, hCount, Nat.zero_add])
  · intro hStar
    obtain ⟨fmt, hLast⟩ := printLoop_eq (formatBytes pieces) arg pieces hStar ((formatBytes pieces).length + 1)
      ⟨0, 0, [], memory⟩ (by have := length_le_formatBytes pieces; omega) hMatch at_zero
    rw [Implements, vsprintf, hLast]
    simp

/-- A directive without flags and qualifier. -/
def bare (width precision : Option (Amount amountBound)) (conversion : Conversion)
    (leading : ∀ n, width = some (.number n) → n.digits.head? ≠ some 0) : Directive amountBound :=
  ⟨[], width, precision, none, conversion, leading⟩

def five : Decimal amountBound := ⟨[5], by decide, by decide⟩

/-- `"%5d"`. -/
def fiveFormat : Format := [.directive (bare (some (.number five)) none .d (by simp [five]))]

theorem matching_five : Matching (fun _ => 0#8) (fun _ => 42#32) 0 fiveFormat := by
  refine ⟨fun d hd hs => ?_, trivial⟩
  obtain rfl := Piece.directive.inj hd
  cases hs

theorem vsprintf_implements_five :
    Implements (fun _ => 0#8) (fun _ => 42#32) fiveFormat ↔
      ∀ d, .directive d ∈ fiveFormat → ¬ starred d :=
  vsprintf_implements_iff (fun _ => 0#8) (fun _ => 42#32) fiveFormat matching_five

/-- `printk("%.*s", 3, "Testing")`, the example of the source. -/
def testing : ByteMemory.Memory := fun a =>
  ([byte 'T', byte 'e', byte 's', byte 't', byte 'i', byte 'n', byte 'g'][a - 0x1000]?).getD 0#8

def testingArgs (i : Nat) : BitVec 32 := if i = 0 then 3#32 else 0x1000#32

def testingFormat : Format := [.directive (bare none (some .star) .s (by simp))]

/-- The language says `"Tes"`; the code prints `"%*s"`. -/
theorem vsprintf_star_fails :
    render (cString testing) testingArgs 0 testingFormat = [byte 'T', byte 'e', byte 's'] ∧
      (vsprintf (formatBytes testingFormat) testingArgs testing).map Printed.buf =
        some [byte '%', byte '*', byte 's', 0#8] ∧
      ¬ Implements testing testingArgs testingFormat := by
  have hRender : render (cString testing) testingArgs 0 testingFormat = [byte 'T', byte 'e', byte 's'] := by
    decide +kernel
  have hPrinted : (vsprintf (formatBytes testingFormat) testingArgs testing).map Printed.buf =
      some [byte '%', byte '*', byte 's', 0#8] := by
    decide +kernel
  refine ⟨hRender, hPrinted, fun h => ?_⟩
  rw [Implements] at h
  rw [h, Option.map_some, hRender] at hPrinted
  revert hPrinted
  decide

end Linux011.Vsprintf

import Linux011.Kernel.Scan

/-! Any bytes as a format: the text and the directives it falls into, what these
print and which arguments they take. -/
namespace Linux011.Vsprintf

open Printf

def isFlag (c : Byte) : Bool := !decide (NoFlag c)

def isQualifier (c : Byte) : Bool := c = byte 'h' || c = byte 'l' || c = byte 'L'

/-- What follows a `'%'`, each component as long as it can be. A star is not
passed over, so it is the conversion; where the format ends there is none. -/
structure Specification where
  flags : List Byte
  width : List Byte
  precision : Option (List Byte)
  qualifier : Option Byte
  conversion : Option Byte

def Specification.bytes (d : Specification) : List Byte :=
  d.flags ++ (d.width ++ (d.precision.elim [] (byte '.' :: ·) ++ (d.qualifier.toList ++ d.conversion.toList)))

/-- The precision in front of the rest: its digits behind the dot. -/
def cutPrecision : List Byte → Option (List Byte) × List Byte
  | [] => (none, [])
  | c :: rest =>
      if c = byte '.' then (some (rest.takeWhile isDigit), rest.dropWhile isDigit) else (none, c :: rest)

/-- The qualifier in front of the rest. -/
def cutQualifier : List Byte → Option Byte × List Byte
  | [] => (none, [])
  | c :: rest => if isQualifier c then (some c, rest) else (none, c :: rest)

/-- The directive that begins here, and what is behind it. -/
def cutDirective (rest : List Byte) : Specification × List Byte :=
  let flags := rest.takeWhile isFlag
  let rest := rest.dropWhile isFlag
  let width := rest.takeWhile isDigit
  let (precision, rest) := cutPrecision (rest.dropWhile isDigit)
  let (qualifier, rest) := cutQualifier rest
  (⟨flags, width, precision, qualifier, rest.head?⟩, rest.tail)

/-- A text byte, or a directive as it is cut from the format. -/
inductive Part where
  | text (b : Byte)
  | directive (d : Specification)

def Part.bytes : Part → List Byte
  | .text b => [b]
  | .directive d => byte '%' :: d.bytes

theorem cutPrecision_bytes (rest : List Byte) :
    (cutPrecision rest).1.elim [] (byte '.' :: ·) ++ (cutPrecision rest).2 = rest := by
  cases rest with
  | nil => rfl
  | cons c rest =>
      rw [cutPrecision]
      by_cases hDot : c = byte '.'
      · simp [hDot]
      · simp [hDot]

theorem cutQualifier_bytes (rest : List Byte) : (cutQualifier rest).1.toList ++ (cutQualifier rest).2 = rest := by
  cases rest with
  | nil => rfl
  | cons c rest =>
      rw [cutQualifier]
      split_ifs <;> rfl

theorem dropWhile_of_takeWhile (rest : List Byte) (p : Byte → Bool) (h : rest.takeWhile p = []) :
    rest.dropWhile p = rest := by
  simpa [h] using List.takeWhile_append_dropWhile (p := p) (l := rest)

theorem cutQualifier_of_none (rest : List Byte) (h : (cutQualifier rest).1 = none) : (cutQualifier rest).2 = rest := by
  simpa [h] using cutQualifier_bytes rest

theorem cutPrecision_no_dot (rest : List Byte) (h : rest.head? ≠ some (byte '.')) :
    cutPrecision rest = (none, rest) := by
  cases rest with
  | nil => rfl
  | cons c rest => rw [cutPrecision, if_neg (by simpa using h)]

theorem toList_head?_append_tail (rest : List Byte) : rest.head?.toList ++ rest.tail = rest := by
  cases rest <;> rfl

/-- A directive and what is behind it are the format again. -/
theorem cutDirective_bytes (rest : List Byte) : (cutDirective rest).1.bytes ++ (cutDirective rest).2 = rest := by
  simp only [cutDirective, Specification.bytes, List.append_assoc, toList_head?_append_tail, cutQualifier_bytes,
    cutPrecision_bytes, List.takeWhile_append_dropWhile]

theorem length_cutDirective_le (rest : List Byte) : (cutDirective rest).2.length ≤ rest.length := by
  conv_rhs => rw [← cutDirective_bytes rest]
  simp

/-- The whole format, cut. -/
def split : List Byte → List Part
  | [] => []
  | b :: rest =>
      if b = byte '%' then .directive (cutDirective rest).1 :: split (cutDirective rest).2
      else .text b :: split rest
termination_by format => format.length
decreasing_by
  · exact Nat.lt_succ_of_le (length_cutDirective_le rest)
  · exact Nat.lt_succ_self _

theorem split_directive (rest : List Byte) :
    split (byte '%' :: rest) = .directive (cutDirective rest).1 :: split (cutDirective rest).2 := by
  rw [split, if_pos rfl]

theorem split_text {b : Byte} (hText : b ≠ byte '%') (rest : List Byte) :
    split (b :: rest) = .text b :: split rest := by
  rw [split, if_neg hText]

/-- The parts are the format. -/
theorem split_bytes (format : List Byte) : (split format).flatMap Part.bytes = format := by
  fun_induction split format with
  | case1 => rfl
  | case2 rest ih => rw [List.flatMap_cons, ih, Part.bytes, List.cons_append, cutDirective_bytes]
  | case3 b rest hText ih => rw [List.flatMap_cons, ih, Part.bytes, List.singleton_append]

/-- The conversions that take an argument. -/
def takesArgument (c : Byte) : Bool :=
  (['c', 's', 'o', 'p', 'x', 'X', 'd', 'i', 'u', 'n'].map byte).contains c

/-- A star takes its argument before it is converted. -/
def Specification.stars (d : Specification) : Nat :=
  if d.conversion = some (byte '*') ∧ d.qualifier = none ∧ (d.width = [] ∧ d.precision = none ∨ d.precision = some [])
  then 1 else 0

def Part.used : Part → Nat
  | .text _ => 0
  | .directive d => d.stars + if d.conversion.any takesArgument then 1 else 0

/-- The arguments of the conversion `c`; `k` have been taken before. -/
def argumentsOf (c : Byte) : Nat → List Part → List Nat
  | _, [] => []
  | k, .text _ :: parts => argumentsOf c k parts
  | k, .directive d :: parts =>
      let behind := argumentsOf c (k + (Part.directive d).used) parts
      if d.conversion = some c then k :: behind else behind

/-- How many arguments all the parts take. -/
def used (parts : List Part) : Nat := (parts.map Part.used).sum

/-- What a conversion prints if that does not depend on its argument. -/
def conversionLiteral (c : Byte) : Option (List Byte) :=
  if c = byte '%' then some [byte '%']
  else if c = byte 'n' then some []
  else if takesArgument c then none
  else some [byte '%', c]

def Part.literal : Part → Option (List Byte)
  | .text b => some [b]
  | .directive d => d.conversion.elim (some [byte '%']) conversionLiteral

/-- What a part has to print when it takes no argument. -/
def Prints (part : Part) (out : List Byte) : Prop := ∀ bytes, part.literal = some bytes → out = bytes

/-- `nul` ends the string at `s`. -/
def Ends (memory : ByteMemory.Memory) (s nul : BitVec 32) : Prop :=
  (∃ n, nul = s + BitVec.ofNat 32 n) ∧ memory nul.toNat = 0#8

/-- Each string has an end, and no `%n` stores there. -/
def Safe (memory : ByteMemory.Memory) (arg : Nat → BitVec 32) (k : Nat) (parts : List Part) : Prop :=
  ∀ i ∈ argumentsOf (byte 's') k parts, ∃ nul, Ends memory (arg i) nul ∧
    ∀ j ∈ argumentsOf (byte 'n') k parts, nul.toNat < (arg j).toNat ∨ (arg j).toNat + 4 ≤ nul.toNat

end Linux011.Vsprintf

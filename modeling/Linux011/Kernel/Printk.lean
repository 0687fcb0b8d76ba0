import Linux011.ChrDrv.Tty
import Linux011.Kernel.Format

/-! `printk`, and everything that the kernel says with it. -/
namespace Linux011

open ByteMemory Printf Vsprintf

/-- A string literal, without its NUL. -/
def literal (s : String) : List Byte := s.toList.map byte

/-- `static char buf[1024]`. -/
def printkBuf : Nat := 1024

/-- `printk`: what is returned, memory, and the console behind `tty_write`. There is no result where
the text runs over the end of `buf`. -/
def printk (d : Display) (fmt : List Byte) (arg : Nat → BitVec 32) (memory : Memory) (tty : Tty) :
    Option (BitVec 32 × Memory × Tty) := do
  let printed ← vsprintf fmt arg memory
  if printed.buf.length ≤ printkBuf then
    some (printed.returned, printed.memory, tty.ttyWrite d (printed.buf.take printed.returned.toNat))
  else none

/-- The formats that `printk` is called with, in `main`, `sched.c`, `panic` and `traps.c`. -/
inductive Form where
  | memory | noQueue | wakeStopped | wakeZombie | panic | swapper
  | trap | frame | segment | limits | stack | pointer | newLine | code
  | general | index | segments | flags
  deriving DecidableEq, Repr

def Form.fmt : Form → String
  | memory => "\n\rmemory start: %d, end: %d\n\r"
  | noQueue => "Warning: *p = NULL\n\r"
  | wakeStopped => "wake_up: TASK_STOPPED"
  | wakeZombie => "wake_up: TASK_ZOMBIE"
  | panic => "Kernel panic: %s\n\r"
  | swapper => "In swapper task - not syncing\n\r"
  | trap => "\n\r%s: %04x\n\r"
  | frame => "EIP:\t%04x:%p\n\rEFLAGS:\t%p\n\rESP:\t%04x:%p\n\r"
  | segment => "fs: %04x\n\r"
  | limits => "base: %p, limit: %p\n\r"
  | stack => "Stack: "
  | pointer => "%p "
  | newLine => "\n\r"
  | code => "%02x "
  | general => "eax\t\tebx\t\tecx\t\tedx\n\r%8x\t%8x\t%8x\t%8x\n\r"
  | index => "esi\t\tedi\t\tebp\t\tesp\n\r%8x\t%8x\t%8x\t%8x\n\r"
  | segments => "\n\rds\tes\tfs\ttr\n\r%4x\t%4x\t%4x\t%4x\n\r"
  | flags => "EIP: %8x   CS: %4x  EFLAGS: %8x\n\r"

/-- A call of `printk`. -/
structure Message where
  form : Form
  args : List (BitVec 32)
  deriving DecidableEq, Repr

namespace Message

/-- What `va_arg` finds. -/
def arg (m : Message) (i : Nat) : BitVec 32 := m.args.getD i 0#32

def printk (d : Display) (memory : Memory) (tty : Tty) (m : Message) : Option (BitVec 32 × Memory × Tty) :=
  Linux011.printk d (literal m.form.fmt) m.arg memory tty

end Message

section Length

variable {bound : Nat} (string : BitVec 32 → List Byte) (arg : Nat → BitVec 32)

/-- A field is as long as its width or as what is in it. -/
theorem length_field (style : Style) (width : Nat) (head body : List Byte) :
    (field style width head body).length = max width (head.length + body.length) := by
  rw [field]
  split_ifs <;>
  · simp only [List.length_append, List.length_replicate]
    omega

/-- Bounds the length of a number by its width and precision. -/
theorem length_numeral_le (style : Style) {base : Nat} (hBase : 2 ≤ base) (width precision : Nat) (v : BitVec 32) :
    (numeral style base width precision v).length ≤ max width (35 + precision) := by
  have hSign := length_signBytes_le style v
  have hPrefix := length_prefixBytes_le style base
  have hDigits := length_digitsOf_le hBase (magnitude_lt style v)
  rw [numeral, length_field]
  simp only [List.length_append, List.length_replicate, List.length_map]
  omega

/-- Strings have at most `n` bytes where the format asks for one. -/
def Within (n : Nat) : Nat → List (Piece bound) → Prop
  | _, [] => True
  | k, piece :: pieces =>
      (∀ d, piece = .directive d → d.conversion = .s → (string (arg (k + d.stars))).length ≤ n) ∧
        Within n (k + piece.taken) pieces

/-- A width or a precision in digits. -/
def amountRoom : Option (Amount bound) → Nat
  | some (.number k) => k.value
  | _ => 0

/-- Room for what a piece prints. -/
def pieceRoom (n : Nat) : Piece bound → Nat
  | .directive d => max (amountRoom d.width) (if d.conversion = .s then n else 35 + amountRoom d.precision)
  | _ => 1

theorem amountRoom_eq {amount : Option (Amount bound)} (h : amount ≠ some .star) (k : Nat) :
    ((amount.map (Amount.value arg k)).map Int.natAbs).getD 0 = amountRoom amount ∧
      ((amount.map (Amount.value arg k)).map Int.toNat).getD 0 = amountRoom amount := by
  match amount with
  | none => exact ⟨rfl, rfl⟩
  | some .star => exact absurd rfl h
  | some (.number a) => exact ⟨Int.natAbs_natCast _, Int.toNat_natCast _⟩

/-- Bounds what one directive prints. -/
theorem length_directive_le {n k : Nat} {d : Directive bound}
    (hStar : d.width ≠ some .star ∧ d.precision ≠ some .star)
    (hString : d.conversion = .s → (string (arg (k + d.stars))).length ≤ n) :
    (d.render string arg k).length ≤
      max (amountRoom d.width) (if d.conversion = .s then n else 35 + amountRoom d.precision) := by
  have hWidth := (amountRoom_eq arg hStar.1 k).1
  have hPrecision := (amountRoom_eq arg hStar.2 (k + starCount d.width)).2
  have hNumeral (style : Style) (base : Nat) (hBase : 2 ≤ base) (v : BitVec 32) :
      (numeral style base ((d.layout arg k).width.getD 0) ((d.layout arg k).precision.getD 0) v).length ≤
        max (amountRoom d.width) (35 + amountRoom d.precision) := by
    simp only [Directive.layout, hWidth, hPrecision]
    exact length_numeral_le style hBase _ _ v
  rw [Directive.render]
  cases hConversion : d.conversion with
  | c =>
      rw [Conversion.render, length_field, if_neg (by decide)]
      simp only [Directive.layout, hWidth, List.length_nil, List.length_singleton]
      omega
  | s =>
      have hText := hString hConversion
      rw [Conversion.render, length_field, if_pos rfl]
      simp only [Directive.layout, hWidth, List.length_nil]
      split
      · omega
      · rw [List.length_take]
        omega
  | d | i | u => exact hNumeral _ 10 (by decide) _
  | o => exact hNumeral _ 8 (by decide) _
  | x | upperX => exact hNumeral _ 16 (by decide) _
  | p =>
      rw [Conversion.render, if_neg (by decide)]
      split
      · have hLength := length_numeral_le { (d.layout arg k).style with zero := true } (show 2 ≤ 16 by decide) 8
          (amountRoom d.precision) (arg (k + d.stars))
        simp only [Directive.layout, hPrecision] at hLength ⊢
        omega
      · rename_i width hSome
        have hLayout := hNumeral (d.layout arg k).style 16 (by decide) (arg (k + d.stars))
        rwa [hSome, Option.getD_some] at hLayout

/-- Bounds what a format prints by the room of its pieces. -/
theorem length_render_le {n : Nat} (pieces : List (Piece bound)) (k : Nat)
    (hStar : ∀ d, .directive d ∈ pieces → d.width ≠ some .star ∧ d.precision ≠ some .star)
    (hWithin : Within string arg n k pieces) :
    (render string arg k pieces).length ≤ (pieces.map (pieceRoom n)).sum := by
  induction pieces generalizing k with
  | nil => exact Nat.le_refl 0
  | cons piece pieces ih =>
      have hRest := ih (k + piece.taken) (fun d hd => hStar d (List.mem_cons_of_mem _ hd)) hWithin.2
      rw [render, List.length_append, List.map_cons, List.sum_cons]
      refine Nat.add_le_add ?_ hRest
      cases piece with
      | text b plain => exact Nat.le_refl 1
      | percent => exact Nat.le_refl 1
      | directive d => exact length_directive_le string arg (hStar d List.mem_cons_self) (hWithin.1 d rfl)

end Length

/-- Text without NUL and without `'%'`. -/
def plainText (s : String) : Format :=
  s.toList.filterMap fun c => if h : byte c ≠ 0#8 ∧ byte c ≠ byte '%' then some (.text (byte c) h) else none

theorem leading_none (n : Decimal amountBound) (h : none = some (Amount.number n)) : n.digits.head? ≠ some 0 :=
  absurd h (Option.some_ne_none _).symm

def bareDirective (conversion : Conversion) : Piece amountBound := .directive (bare none none conversion leading_none)

theorem oneDigit_nonempty (digit : Fin 10) : [digit] ≠ [] := List.cons_ne_nil _ _

theorem oneDigit_small (digit : Fin 10) : [digit].foldl (fun v d => 10 * v + d.val) 0 < amountBound := by
  have hSmall := digit.isLt
  rw [List.foldl_cons, List.foldl_nil, amountBound]
  omega

def oneDigit (digit : Fin 10) : Decimal amountBound := ⟨[digit], oneDigit_nonempty digit, oneDigit_small digit⟩

theorem leading_oneDigit (digit : Fin 10) (hDigit : digit.val ≠ 0) (n : Decimal amountBound)
    (h : some (Amount.number (oneDigit digit)) = some (.number n)) : n.digits.head? ≠ some 0 := by
  obtain rfl := Amount.number.inj (Option.some.inj h)
  exact fun hZero => hDigit (congrArg Fin.val (Option.some.inj hZero))

/-- `%x` with a width of one digit. -/
def hexDirective (flags : List Flag) (digit : Fin 10) (hDigit : digit.val ≠ 0) : Piece amountBound :=
  .directive
    { flags
      width := some (.number (oneDigit digit))
      precision := none
      qualifier := none
      conversion := .x
      leading := leading_oneDigit digit hDigit }

namespace Form

/-- `%04x`, `%4x`, `%8x` and `%02x`. -/
def hex04 : Piece amountBound := hexDirective [.zero] ⟨4, by decide⟩ (by decide)
def hex4 : Piece amountBound := hexDirective [] ⟨4, by decide⟩ (by decide)
def hex8 : Piece amountBound := hexDirective [] ⟨8, by decide⟩ (by decide)
def hex02 : Piece amountBound := hexDirective [.zero] ⟨2, by decide⟩ (by decide)

/-- `"%8x\t%8x\t%8x\t%8x\n\r"`. -/
def row : Format :=
  hex8 :: plainText "\t" ++ hex8 :: plainText "\t" ++ hex8 :: plainText "\t" ++ hex8 :: plainText "\n\r"

def pieces : Form → Format
  | memory =>
      plainText "\n\rmemory start: " ++ bareDirective .d :: plainText ", end: " ++ bareDirective .d ::
        plainText "\n\r"
  | panic => plainText "Kernel panic: " ++ bareDirective .s :: plainText "\n\r"
  | trap => plainText "\n\r" ++ bareDirective .s :: plainText ": " ++ hex04 :: plainText "\n\r"
  | frame =>
      plainText "EIP:\t" ++ hex04 :: plainText ":" ++ bareDirective .p :: plainText "\n\rEFLAGS:\t" ++
        bareDirective .p :: plainText "\n\rESP:\t" ++ hex04 :: plainText ":" ++ bareDirective .p ::
        plainText "\n\r"
  | segment => plainText "fs: " ++ hex04 :: plainText "\n\r"
  | limits =>
      plainText "base: " ++ bareDirective .p :: plainText ", limit: " ++ bareDirective .p :: plainText "\n\r"
  | pointer => bareDirective .p :: plainText " "
  | code => hex02 :: plainText " "
  | general => plainText "eax\t\tebx\t\tecx\t\tedx\n\r" ++ row
  | index => plainText "esi\t\tedi\t\tebp\t\tesp\n\r" ++ row
  | segments =>
      plainText "\n\rds\tes\tfs\ttr\n\r" ++ hex4 :: plainText "\t" ++ hex4 :: plainText "\t" ++ hex4 ::
        plainText "\t" ++ hex4 :: plainText "\n\r"
  | flags =>
      plainText "EIP: " ++ hex8 :: plainText "   CS: " ++ hex4 :: plainText "  EFLAGS: " ++ hex8 ::
        plainText "\n\r"
  | form => plainText form.fmt

/-- The pieces are the format as the source has it. -/
theorem formatBytes_pieces (form : Form) : formatBytes form.pieces = literal form.fmt := by
  cases form <;> decide +kernel

/-- Strings of 600 bytes leave room in `buf` whatever the other arguments are. -/
theorem room (form : Form) : (form.pieces.map (pieceRoom 600)).sum < printkBuf := by
  cases form <;> decide +kernel

def Unstarred : Piece amountBound → Bool
  | .directive d => !decide (starred d)
  | _ => true

theorem pieces_unstarred (form : Form) : form.pieces.all Unstarred = true := by
  cases form <;> decide +kernel

theorem not_starred {form : Form} {d : Directive amountBound} (hd : .directive d ∈ form.pieces) : ¬starred d := by
  have hPiece : (!decide (starred d)) = true := List.all_eq_true.mp form.pieces_unstarred _ hd
  simpa using hPiece

def Stringless : Piece amountBound → Bool
  | .directive d => !decide (d.conversion = .s)
  | _ => true

theorem pieces_stringless {form : Form} (hPanic : form ≠ .panic) (hTrap : form ≠ .trap) :
    form.pieces.all Stringless = true := by
  cases form with
  | panic => contradiction
  | trap => contradiction
  | _ => decide +kernel

theorem no_string {form : Form} (hPanic : form ≠ .panic) (hTrap : form ≠ .trap) {d : Directive amountBound}
    (hd : .directive d ∈ form.pieces) : d.conversion ≠ .s := by
  have hPiece : (!decide (d.conversion = .s)) = true :=
    List.all_eq_true.mp (pieces_stringless hPanic hTrap) _ hd
  simpa using hPiece

end Form

/-- A bound on the strings is what `vsprintf` asks for. -/
theorem Within.matching {memory : Memory} {arg : Nat → BitVec 32} {n k : Nat} {pieces : Format} (hn : n < 2 ^ 31)
    (h : Within (cString memory) arg n k pieces) : Matching memory arg k pieces := by
  induction pieces generalizing k with
  | nil => trivial
  | cons piece pieces ih => exact ⟨fun d hd hs => Nat.lt_of_le_of_lt (h.1 d hd hs) hn, ih h.2⟩

theorem Within.of_no_string {bound : Nat} {string : BitVec 32 → List Byte} {arg : Nat → BitVec 32} {n k : Nat}
    {pieces : List (Piece bound)} (h : ∀ d, .directive d ∈ pieces → d.conversion ≠ .s) :
    Within string arg n k pieces := by
  induction pieces generalizing k with
  | nil => trivial
  | cons piece pieces ih =>
      refine ⟨fun d hd hs => absurd hs (h d (hd ▸ List.mem_cons_self)), ?_⟩
      exact ih fun d hd => h d (List.mem_cons_of_mem piece hd)

theorem Within.skip {bound : Nat} {string : BitVec 32 → List Byte} {arg : Nat → BitVec 32} {n k : Nat}
    {before pieces : List (Piece bound)} (hBefore : ∀ piece ∈ before, ∃ b hb, piece = .text b hb)
    (h : Within string arg n k pieces) : Within string arg n k (before ++ pieces) := by
  induction before with
  | nil => exact h
  | cons piece before ih =>
      obtain ⟨b, hb, rfl⟩ := hBefore piece List.mem_cons_self
      refine ⟨fun d hd => (nomatch hd), ?_⟩
      exact ih fun piece hPiece => hBefore piece (List.mem_cons_of_mem _ hPiece)

theorem text_of_mem_plainText {s : String} {piece : Piece amountBound} (h : piece ∈ plainText s) :
    ∃ b hb, piece = .text b hb := by
  obtain ⟨c, -, hc⟩ := List.mem_filterMap.mp h
  split_ifs at hc with hByte
  exact ⟨byte c, hByte, (Option.some.inj hc).symm⟩

/-- A format without stars, whose text fits in `buf`. -/
theorem printk_render (d : Display) (memory : Memory) (tty : Tty) (arg : Nat → BitVec 32) {pieces : Format}
    (hStar : ∀ d, .directive d ∈ pieces → ¬starred d) (hMatch : Matching memory arg 0 pieces)
    (hFits : (render (cString memory) arg 0 pieces).length < printkBuf) :
    printk d (formatBytes pieces) arg memory tty =
      some (BitVec.ofNat 32 (render (cString memory) arg 0 pieces).length, memory,
        tty.ttyWrite d (render (cString memory) arg 0 pieces)) := by
  have hRounds := length_le_formatBytes pieces
  obtain ⟨fmt, hLoop⟩ := printLoop_eq (formatBytes pieces) arg pieces hStar ((formatBytes pieces).length + 1)
    ⟨0, 0, [], memory⟩ (by omega) hMatch at_zero
  generalize render (cString memory) arg 0 pieces = text at hLoop hFits ⊢
  have hReturned : (BitVec.ofNat 32 text.length).toNat = text.length := by
    unfold printkBuf at hFits
    rw [BitVec.toNat_ofNat]
    omega
  have hRoom : (text ++ [0#8]).length ≤ printkBuf := by
    rw [List.length_append, List.length_singleton]
    exact hFits
  rw [printk, vsprintf, hLoop]
  simp only [Option.bind_eq_bind, Option.bind_some, List.nil_append, if_pos hRoom, hReturned, List.take_left]

namespace Message

variable {m : Message} {memory : Memory}

/-- What the message says. -/
def text (memory : Memory) (m : Message) : List Byte := render (cString memory) m.arg 0 m.form.pieces

/-- Where the format wants a string there is one, of at most 600 bytes. -/
def Readable (memory : Memory) (m : Message) : Prop := Within (cString memory) m.arg 600 0 m.form.pieces

/-- Only two of the formats ask for a string. -/
theorem readable (hPanic : m.form ≠ .panic) (hTrap : m.form ≠ .trap) : m.Readable memory :=
  Within.of_no_string fun _ hd => Form.no_string hPanic hTrap hd

theorem readable_trap {name nr : BitVec 32} (h : (cString memory name).length ≤ 600) :
    (⟨.trap, [name, nr]⟩ : Message).Readable memory := by
  have hRest : (plainText ": " ++ Form.hex04 :: plainText "\n\r").all Form.Stringless = true := by
    decide +kernel
  have hSplit : Form.trap.pieces = plainText "\n\r" ++
      bareDirective .s :: (plainText ": " ++ Form.hex04 :: plainText "\n\r") := by
    rw [Form.pieces, List.append_assoc, List.cons_append]
  rw [Readable, hSplit]
  refine Within.skip (fun _ => text_of_mem_plainText) ⟨fun d hd _ => ?_, ?_⟩
  · obtain rfl := Piece.directive.inj hd
    exact h
  · exact Within.of_no_string fun d hd => by simpa [Form.Stringless] using List.all_eq_true.mp hRest _ hd

/-- A readable message fits in the buffer of `printk`. -/
theorem Readable.length_text_lt (h : m.Readable memory) : (m.text memory).length < printkBuf := by
  have hText := length_render_le (cString memory) m.arg m.form.pieces 0
    (fun d hd => not_or.mp (Form.not_starred hd)) h
  exact Nat.lt_of_le_of_lt hText m.form.room

/-- Whatever its arguments are, a message of the kernel fits in `buf`, and all of it is shown. -/
theorem Readable.printk_eq (h : m.Readable memory) (d : Display) (tty : Tty) :
    m.printk d memory tty =
      some (BitVec.ofNat 32 (m.text memory).length, memory, tty.ttyWrite d (m.text memory)) := by
  rw [Message.printk, ← m.form.formatBytes_pieces]
  exact printk_render d memory tty m.arg (fun d hd => Form.not_starred hd) (h.matching (by decide)) h.length_text_lt

end Message

end Linux011

import Linux011.Library.Ring
import Mathlib.Data.List.TakeDrop

/-! The ring buffer between the keyboard, the line discipline and the console
(`linux/tty.h` and the four helpers of `tty_io.c`), and that it is a FIFO queue. -/
namespace Linux011

def ttyBufSize : BitVec 32 := 1024#32

/-- `struct tty_queue`. `buf` is addressed from the start of the array; `data` and
`proc_list` are read nowhere. -/
structure TtyQueue where
  head : BitVec 32
  tail : BitVec 32
  buf : Nat → BitVec 8

namespace TtyQueue

/-- `{0, 0, 0, 0, ""}`, as `tty_init` leaves both queues. -/
def cleared : TtyQueue where
  head := 0
  tail := 0
  buf _ := 0

def chars (q : TtyQueue) : BitVec 32 := (q.head - q.tail) &&& (ttyBufSize - 1)

def putch (c : BitVec 8) (q : TtyQueue) : TtyQueue where
  head := (q.head + 1) &&& (ttyBufSize - 1)
  tail := q.tail
  buf := Function.update q.buf q.head.toNat c

def getch (q : TtyQueue) : BitVec 8 × TtyQueue :=
  (q.buf q.tail.toNat, { q with tail := (q.tail + 1) &&& (ttyBufSize - 1) })

def empty (q : TtyQueue) : Bool := q.head == q.tail

theorem masked_toNat (v : BitVec 32) : (v &&& (ttyBufSize - 1)).toNat = v.toNat % 1024 := by
  rw [BitVec.toNat_and]
  exact Nat.and_two_pow_sub_one_eq_mod v.toNat 10

theorem next_toNat (v : BitVec 32) :
    ((v + 1) &&& (ttyBufSize - 1)).toNat = (v.toNat + 1) % 1024 := by
  rw [masked_toNat, BitVec.toNat_add]
  change (v.toNat + 1) % 2 ^ 32 % 1024 = (v.toNat + 1) % 1024
  omega

/-- The characters `cs` wait in the queue, the oldest first. -/
def Holds (q : TtyQueue) (cs : List (BitVec 8)) : Prop :=
  Ring.Holds 1024 q.buf q.head.toNat q.tail.toNat cs

section Operations

variable {q : TtyQueue} {c : BitVec 8} {cs : List (BitVec 8)}

theorem Holds.of_empty (hEmpty : q.head = q.tail) (hTail : q.tail.toNat < 1024) : q.Holds [] := by
  rw [Holds, hEmpty]
  exact Ring.Holds.of_empty q.buf hTail

theorem holds_cleared : cleared.Holds [] := Holds.of_empty rfl (by decide)

theorem Holds.chars_toNat (h : q.Holds cs) : q.chars.toNat = cs.length := by
  have hHead := Ring.Holds.head_lt h
  have hTail := h.tail_lt
  rw [chars, masked_toNat, BitVec.toNat_sub, ← h.length_eq]
  omega

theorem Holds.empty_iff (h : q.Holds cs) : q.empty = true ↔ cs = [] := by
  rw [empty, beq_iff_eq, ← Ring.Holds.empty_iff h]
  exact BitVec.toNat_inj.symm

theorem Holds.putch (h : q.Holds cs) (hRoom : cs.length < 1023) :
    (q.putch c).Holds (cs ++ [c]) := by
  rw [Holds, TtyQueue.putch, next_toNat]
  exact Ring.Holds.put h (by omega)

/-- `cs` put into the queue, in order. -/
def putAll (q : TtyQueue) (cs : List (BitVec 8)) : TtyQueue := cs.foldl (fun q c => q.putch c) q

theorem Holds.putAll (h : q.Holds cs) (cs' : List (BitVec 8))
    (hRoom : cs.length + cs'.length ≤ 1023) : (q.putAll cs').Holds (cs ++ cs') := by
  induction cs' generalizing q cs with
  | nil => simpa [TtyQueue.putAll] using h
  | cons c cs' ih =>
      rw [List.length_cons] at hRoom
      have hRest := ih (h.putch (c := c) (by omega)) (by
        rw [List.length_append, List.length_singleton]
        omega)
      rw [List.append_assoc] at hRest
      exact hRest

theorem Holds.getch_fst (h : q.Holds (c :: cs)) : q.getch.1 = c := h.slot_tail

theorem Holds.getch (h : q.Holds (c :: cs)) : q.getch.2.Holds cs := by
  rw [Holds, TtyQueue.getch, next_toNat]
  exact Ring.Holds.get h

end Operations

end TtyQueue

/-- A call of one of the two operations that change a queue. -/
inductive QueueCall where
  | put (c : BitVec 8)
  | get
  deriving DecidableEq, Repr

namespace QueueCall

/-- The characters that the calls put, in order. -/
def puts : List QueueCall → List (BitVec 8)
  | [] => []
  | put c :: calls => c :: puts calls
  | get :: calls => puts calls

/-- How many of the calls get a character. -/
def gets : List QueueCall → Nat
  | [] => 0
  | put _ :: calls => gets calls
  | get :: calls => gets calls + 1

/-- The calls, one after another: the characters got, and the queue at the end. -/
def run (q : TtyQueue) : List QueueCall → List (BitVec 8) × TtyQueue
  | [] => ([], q)
  | put c :: calls => run (q.putch c) calls
  | get :: calls => (q.getch.1 :: (run q.getch.2 calls).1, (run q.getch.2 calls).2)

/-- After every call, the characters put but not yet got number between 0 and
1023, when `waiting` of them are there at the start. -/
def Pending (waiting : Nat) (calls : List QueueCall) : Prop :=
  ∀ early, early <+: calls →
    gets early ≤ waiting + (puts early).length ∧ waiting + (puts early).length ≤ gets early + 1023

theorem Pending.put {waiting : Nat} {c : BitVec 8} {calls : List QueueCall}
    (h : Pending waiting (.put c :: calls)) : waiting < 1023 ∧ Pending (waiting + 1) calls := by
  constructor
  · have hFirst := h [.put c] (by simp)
    simp only [puts, gets, List.length_cons, List.length_nil] at hFirst
    omega
  · intro early hEarly
    have hLater := h (.put c :: early) (by simpa using hEarly)
    simp only [puts, gets, List.length_cons] at hLater
    omega

theorem Pending.get {waiting : Nat} {calls : List QueueCall}
    (h : Pending waiting (.get :: calls)) : ∃ rest, waiting = rest + 1 ∧ Pending rest calls := by
  have hFirst := h [.get] (by simp)
  simp only [puts, gets, List.length_nil] at hFirst
  refine ⟨waiting - 1, by omega, ?_⟩
  intro early hEarly
  have hLater := h (.get :: early) (by simpa using hEarly)
  simp only [puts, gets] at hLater
  omega

/-- What a run gets is what was put first, and the rest waits in the queue. -/
theorem run_holds {q : TtyQueue} {cs : List (BitVec 8)} {calls : List QueueCall} (h : q.Holds cs)
    (hPending : Pending cs.length calls) :
    (run q calls).1 = (cs ++ puts calls).take (gets calls) ∧
      (run q calls).2.Holds ((cs ++ puts calls).drop (gets calls)) := by
  induction calls generalizing q cs with
  | nil => simpa [run, puts, gets] using h
  | cons call calls ih =>
      cases call with
      | put c =>
          obtain ⟨hRoom, hRest⟩ := hPending.put
          have hLater := ih (h.putch (c := c) hRoom) (by simpa using hRest)
          simpa [run, puts, gets] using hLater
      | get =>
          obtain ⟨rest, hLength, hRest⟩ := hPending.get
          cases cs with
          | nil => simp at hLength
          | cons c cs =>
              have hLater := ih h.getch (by simpa [← Nat.succ.inj hLength] using hRest)
              simpa [run, puts, gets, h.getch_fst] using hLater

end QueueCall

/-- From any empty queue, whatever its buffer holds: the characters come out in
the order in which they went in, none is lost or repeated however often the
indices wrap, and `CHARS` and `EMPTY` count those that are still inside. -/
theorem tty_queue_fifo (q : TtyQueue) (hEmpty : q.head = q.tail) (hTail : q.tail.toNat < 1024)
    (calls : List QueueCall) (hPending : QueueCall.Pending 0 calls) :
    let (got, final) := QueueCall.run q calls
    final.head.toNat < 1024 ∧ final.tail.toNat < 1024 ∧
      got = (QueueCall.puts calls).take (QueueCall.gets calls) ∧
      got.length = QueueCall.gets calls ∧
      got.length + final.chars.toNat = (QueueCall.puts calls).length ∧
      (final.empty = true ↔ got.length = (QueueCall.puts calls).length) := by
  have hRun := QueueCall.run_holds (TtyQueue.Holds.of_empty hEmpty hTail) hPending
  obtain ⟨hGot, hHolds⟩ := hRun
  rw [List.nil_append] at hGot hHolds
  have hGets := (hPending calls (List.prefix_refl _)).1
  have hLength : (QueueCall.run q calls).1.length = QueueCall.gets calls := by
    rw [hGot, List.length_take]
    omega
  have hChars := hHolds.chars_toNat
  rw [List.length_drop] at hChars
  have hEmptyIff := hHolds.empty_iff
  rw [List.drop_eq_nil_iff] at hEmptyIff
  refine ⟨Ring.Holds.head_lt hHolds, hHolds.tail_lt, hGot, hLength, by omega, ?_⟩
  rw [hEmptyIff]
  omega

/-- Two characters through a queue whose head wraps from the last slot to the first. -/
theorem tty_queue_fifo_wrap :
    let q : TtyQueue := { head := 1023#32, tail := 1023#32, buf := fun _ => 0 }
    (QueueCall.run q [.put 97#8, .put 98#8, .get, .get]).1 = [97#8, 98#8] :=
  (tty_queue_fifo { head := 1023#32, tail := 1023#32, buf := fun _ => 0 } rfl (by decide)
    [.put 97#8, .put 98#8, .get, .get] (by
      intro early hEarly
      obtain ⟨n, rfl⟩ : ∃ n, early = [QueueCall.put 97#8, .put 98#8, .get, .get].take n :=
        ⟨early.length, (List.prefix_iff_eq_take.mp hEarly)⟩
      match n with
      | 0 | 1 | 2 | 3 => decide
      | n + 4 => simp [QueueCall.puts, QueueCall.gets])).2.2.1

end Linux011

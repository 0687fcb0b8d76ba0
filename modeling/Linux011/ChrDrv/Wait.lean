import Mathlib.Tactic.Common
import Mathlib.Data.Nat.Find

/-! The waits for the keyboard controller: `kb_wait` of `kboard.c` and `empty_8042`
of `setup.S`. The status bytes that port 0x64 delivers are a stream; byte `n` is what
read number `n` gets. -/
namespace Linux011.Wait

/-- Bit 1 of the status: the input buffer of the controller is full. -/
def Full (status : BitVec 8) : Prop := status &&& 0x2 ≠ 0

instance (status : BitVec 8) : Decidable (Full status) := inferInstanceAs (Decidable (_ ≠ _))

/-- Reads from number `n` on until `stop`; the number of the read that would come
next. The first argument bounds the reads. -/
def poll (stop : BitVec 8 → Bool) (status : Nat → BitVec 8) : Nat → Nat → Option Nat
  | 0, _ => none
  | rounds + 1, n => if stop (status n) then some (n + 1) else poll stop status rounds (n + 1)

/-- `while(1)`, left when `a == 0x2`. -/
def kbWait : (Nat → BitVec 8) → Nat → Nat → Option Nat := poll fun a => a == 0x2

/-- `testb $2, %al` and `jnz empty_8042`. -/
def empty8042 : (Nat → BitVec 8) → Nat → Nat → Option Nat := poll fun al => al &&& 2 == 0

/-- `set_leds`: what it has written to port 0x60, each byte with the number of status
bytes read before, and whether it has returned. -/
def setLeds (status : Nat → BitVec 8) (rounds : Nat) (leds : BitVec 8) : List (BitVec 8 × Nat) × Bool :=
  match kbWait status rounds 0 with
  | none => ([], false)
  | some n =>
      match kbWait status rounds n with
      | none => ([(0xed, n)], false)
      | some m => ([(0xed, n), (leds, m)], true)

section

variable {stop : BitVec 8 → Bool} {status : Nat → BitVec 8} {n m : Nat}

/-- The loop ends behind the first byte that stops it. -/
theorem poll_eq_some {rounds : Nat} :
    poll stop status rounds n = some m ↔
      n < m ∧ m ≤ n + rounds ∧ stop (status (m - 1)) = true ∧
        ∀ j, n ≤ j → j < m - 1 → stop (status j) = false := by
  induction rounds generalizing n with
  | zero =>
      rw [poll]
      exact iff_of_false (by simp) fun h => by omega
  | succ rounds ih =>
      rw [poll]
      cases hStop : stop (status n) with
      | true =>
          rw [if_pos rfl, Option.some.injEq]
          constructor
          · rintro rfl
            exact ⟨by omega, by omega, hStop, fun j hj hj' => by omega⟩
          · rintro ⟨hLt, _, _, hBefore⟩
            by_contra hne
            have hGo := hBefore n (Nat.le_refl n) (by omega)
            rw [hStop] at hGo
            cases hGo
      | false =>
          rw [if_neg Bool.false_ne_true, ih]
          constructor
          · rintro ⟨hLt, hLe, hEnd, hBefore⟩
            refine ⟨by omega, by omega, hEnd, fun j hj hj' => ?_⟩
            rcases Nat.eq_or_lt_of_le hj with rfl | hLater
            · exact hStop
            · exact hBefore j hLater hj'
          · rintro ⟨hLt, hLe, hEnd, hBefore⟩
            have hne : m ≠ n + 1 := by
              rintro rfl
              rw [Nat.add_sub_cancel, hStop] at hEnd
              cases hEnd
            exact ⟨by omega, by omega, hEnd, fun j hj hj' => hBefore j (by omega) hj'⟩

/-- With enough rounds. -/
theorem exists_poll_iff :
    (∃ rounds, poll stop status rounds 0 = some (n + 1)) ↔
      stop (status n) = true ∧ ∀ j < n, stop (status j) = false := by
  simp only [poll_eq_some, Nat.add_sub_cancel]
  constructor
  · rintro ⟨_, _, _, hEnd, hBefore⟩
    exact ⟨hEnd, fun j hj => hBefore j (Nat.zero_le j) hj⟩
  · rintro ⟨hEnd, hBefore⟩
    exact ⟨n + 1, by omega, by omega, hEnd, fun j _ hj => hBefore j hj⟩

theorem empty8042_stop {al : BitVec 8} : (al &&& 2 == 0) = true ↔ ¬Full al := by
  rw [beq_iff_eq, Full, not_not]

/-- `empty_8042` ends at the first byte that says the buffer is empty. -/
theorem empty8042_iff :
    (∃ rounds, empty8042 status rounds 0 = some (n + 1)) ↔ ¬Full (status n) ∧ ∀ j < n, Full (status j) := by
  rw [empty8042, exists_poll_iff, empty8042_stop]
  refine and_congr_right fun _ => forall_congr' fun j => forall_congr' fun _ => ?_
  rw [← Bool.not_eq_true, empty8042_stop, not_not]

/-- `kb_wait` ends at the first byte 0x02: the buffer is full then, and no other bit
is set. -/
theorem kbWait_iff :
    (∃ rounds, kbWait status rounds 0 = some (n + 1)) ↔ status n = 0x2 ∧ ∀ j < n, status j ≠ 0x2 := by
  rw [kbWait, exists_poll_iff, beq_iff_eq]
  refine and_congr_right fun _ => forall_congr' fun j => forall_congr' fun _ => ?_
  exact beq_eq_false_iff_ne

theorem full_two : Full 0x2 := by decide

/-- Whatever `set_leds` writes, it writes while the buffer is full. -/
theorem setLeds_full {rounds : Nat} {leds : BitVec 8} :
    ∀ write ∈ (setLeds status rounds leds).1, Full (status (write.2 - 1)) := by
  have hStop {n m : Nat} (hWait : kbWait status rounds n = some m) : Full (status (m - 1)) := by
    obtain ⟨_, _, hEnd, _⟩ := poll_eq_some.mp hWait
    rw [beq_iff_eq.mp hEnd]
    exact full_two
  intro write hWrite
  rw [setLeds] at hWrite
  cases hFirst : kbWait status rounds 0 with
  | none => simp [hFirst] at hWrite
  | some n =>
      cases hSecond : kbWait status rounds n with
      | none =>
          simp only [hFirst, hSecond, List.mem_singleton] at hWrite
          rw [hWrite]
          exact hStop hFirst
      | some m =>
          simp only [hFirst, hSecond, List.mem_cons, List.not_mem_nil, or_false] at hWrite
          rcases hWrite with rfl | rfl
          · exact hStop hFirst
          · exact hStop hSecond

end

/-- The two waits end at the same read, the first with an empty buffer; `set_leds`
writes into an empty buffer only, and returns when there are two reads with an empty
buffer for its two waits. -/
structure WaitsAgree (status : Nat → BitVec 8) (leds : BitVec 8) : Prop where
  same : ∀ n, (∃ rounds, kbWait status rounds 0 = some n) ↔ ∃ rounds, empty8042 status rounds 0 = some n
  first : ∀ n, (∃ rounds, kbWait status rounds 0 = some (n + 1)) ↔
    ¬Full (status n) ∧ ∀ j < n, Full (status j)
  writes : ∀ rounds, ∀ write ∈ (setLeds status rounds leds).1, ¬Full (status (write.2 - 1))
  returns : ∀ n m, n < m → ¬Full (status n) → ¬Full (status m) →
    ∃ rounds, (setLeds status rounds leds).2 = true

/-- They agree on a stream only if both wait for ever: the controller never gets
ready, and never reports a full buffer without any other bit. -/
theorem waits_agree_iff (status : Nat → BitVec 8) (leds : BitVec 8) :
    WaitsAgree status leds ↔ ∀ n, Full (status n) ∧ status n ≠ 0x2 := by
  constructor
  · intro h
    have hFull : ∀ n, Full (status n) := by
      by_contra hSome
      push Not at hSome
      -- `empty_8042` stops at the first ready byte, and that is no 0x02
      have hFirst := (h.first (Nat.find hSome)).mpr ⟨Nat.find_spec hSome, fun j hj =>
        not_not.mp (Nat.find_min hSome hj)⟩
      exact Nat.find_spec hSome ((kbWait_iff.mp hFirst).1 ▸ full_two)
    refine fun n => ⟨hFull n, fun hTwo => ?_⟩
    have hSome : ∃ n, status n = 0x2 := ⟨n, hTwo⟩
    have hStops := kbWait_iff.mpr ⟨Nat.find_spec hSome, fun j hj => Nat.find_min hSome hj⟩
    exact ((h.first _).mp hStops).1 (hFull _)
  · intro h
    have hNever : ∀ n rounds m, kbWait status rounds n ≠ some m := by
      intro n rounds m hWait
      obtain ⟨_, _, hEnd, _⟩ := poll_eq_some.mp hWait
      exact (h (m - 1)).2 (beq_iff_eq.mp hEnd)
    refine ⟨fun n => ?_, fun n => ?_, fun rounds write hWrite => ?_, fun n m _ hReady => ?_⟩
    · refine iff_of_false (fun ⟨rounds, hWait⟩ => hNever 0 rounds n hWait) fun ⟨rounds, hEmpty⟩ => ?_
      obtain ⟨_, _, hEnd, _⟩ := poll_eq_some.mp hEmpty
      exact empty8042_stop.mp hEnd (h (n - 1)).1
    · exact iff_of_false (fun ⟨rounds, hWait⟩ => hNever 0 rounds _ hWait) fun hReady => hReady.1 (h n).1
    · have hNone : kbWait status rounds 0 = none :=
        Option.eq_none_iff_forall_ne_some.mpr fun m => hNever 0 rounds m
      rw [setLeds, hNone] at hWrite
      exact absurd hWrite (List.not_mem_nil)
    · exact absurd (h n).1 hReady

/-- A controller that is ready all the time: `kb_wait` hangs. -/
theorem waits_differ :
    ¬WaitsAgree (fun _ => 0x14) 0 ∧ (∃ rounds, empty8042 (fun _ => 0x14) rounds 0 = some 1) ∧
      ∀ rounds, kbWait (fun _ => 0x14) rounds 0 = none := by
  have hReady : ¬Full 0x14 := by decide
  have hNever : ∀ rounds m, kbWait (fun _ => 0x14) rounds 0 ≠ some m := by
    intro rounds m hWait
    obtain ⟨_, _, hEnd, _⟩ := poll_eq_some.mp hWait
    exact absurd (beq_iff_eq.mp hEnd) (by decide)
  refine ⟨fun h => ?_, empty8042_iff.mpr ⟨hReady, fun j hj => by omega⟩, fun rounds => ?_⟩
  · obtain ⟨rounds, hWait⟩ := (h.first 0).mpr ⟨hReady, fun j hj => by omega⟩
    exact hNever rounds _ hWait
  · exact Option.eq_none_iff_forall_ne_some.mpr fun m => hNever rounds m

end Linux011.Wait

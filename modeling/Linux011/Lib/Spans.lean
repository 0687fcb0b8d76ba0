import Linux011.Lib.Strtok

/-! `strspn`, `strcspn` and `strpbrk`. -/
namespace Linux011.StringC

open StringInstr

/-- What the loop needs: the rest `l` of the string, and the bytes `t` that it asks for, if any. -/
structure Spanning (c : Cpu) (q : BitVec 32) (l t : List Byte) : Prop where
  rest : Holds c.mem c.esi (l ++ [0#8])
  noNul : 0#8 ∉ l
  asked : Holds c.mem q t
  edx : c.edx = BitVec.ofNat 32 t.length
  length : t.length < 2 ^ 32

section

variable {c c₁ : Cpu} {p q : BitVec 32} {s l t : List Byte} {x : Byte} {fuel : Nat}

theorem Spanning.next (h : Spanning c q (x :: l) t) (hPassed : Passed c 1 c₁) : Spanning c₁ q l t where
  rest := by
    rw [hPassed.mem, hPassed.esi]
    exact h.rest.2
  noNul hMem := h.noNul (List.mem_cons_of_mem x hMem)
  asked := hPassed.mem ▸ h.asked
  edx := hPassed.edx.trans h.edx
  length := h.length

/-- With nothing to ask for, the flags are those of `testb`. -/
theorem Spanning.among (h : Spanning c q (x :: l) t) :
    ∃ c₁, StringC.among (c.loaded x).testAl q = some c₁ ∧ c₁.zf = decide (x ∈ t) ∧ Passed c 1 c₁ := by
  have hx : x ≠ 0#8 := fun hZero => h.noNul (hZero ▸ List.mem_cons_self)
  by_cases hSome : t = []
  · have hEdx : (c.loaded x).testAl.edx = 0#32 := by
      rw [show (c.loaded x).testAl.edx = c.edx from rfl, h.edx, hSome]
      rfl
    refine ⟨{ (c.loaded x).testAl with edi := q, ecx := (c.loaded x).testAl.edx }, ?_, ?_, rfl, rfl, rfl, rfl⟩
    · exact repneScasb_zero hEdx
    · change (c.loaded x).testAl.zf = _
      rw [zf_testAl, al_loaded, hSome, beq_eq_false_iff_ne.mpr hx]
      rfl
  · obtain ⟨-, -, c₁, hRun, hZf, hPassed⟩ := Splitting.ask (l := l)
      ⟨h.rest, h.noNul, h.asked, hSome, h.edx, h.length⟩
    exact ⟨c₁, hRun, Bool.eq_iff_iff.mpr (hZf.trans decide_eq_true_iff.symm), hPassed⟩

/-- The loop ends behind the first byte that does not jump back, which may be the NUL. -/
theorem spanLoop_eq (again : Bool) (h : Spanning c q l t) (hFuel : l.length < fuel) :
    ∃ c', spanLoop q again fuel c = some (l.all fun x => decide (x ∈ t) == again, c') ∧
      c'.esi = c.esi + BitVec.ofNat 32 ((l.takeWhile fun x => decide (x ∈ t) == again).length + 1) ∧
      c'.mem = c.mem := by
  induction l generalizing c fuel with
  | nil =>
      obtain ⟨fuel, rfl⟩ := Nat.exists_eq_succ_of_ne_zero (Nat.ne_zero_of_lt hFuel)
      have hTest : (c.loaded 0#8).testAl.zf = true := by rw [zf_testAl, al_loaded, beq_self_eq_true]
      refine ⟨(c.loaded 0#8).testAl, ?_, rfl, rfl⟩
      rw [spanLoop, lodsb_eq h.rest.1]
      exact if_pos hTest
  | cons x l ih =>
      obtain ⟨fuel, rfl⟩ := Nat.exists_eq_succ_of_ne_zero (Nat.ne_zero_of_lt hFuel)
      have hx : x ≠ 0#8 := fun hZero => h.noNul (hZero ▸ List.mem_cons_self)
      have hTest : ¬(c.loaded x).testAl.zf = true := by rwa [zf_testAl, al_loaded, beq_iff_eq]
      obtain ⟨c₁, hAmong, hZf, hPassed⟩ := h.among
      have hRound : spanLoop q again (fuel + 1) c =
          if decide (x ∈ t) = again then spanLoop q again fuel c₁ else some (false, c₁) := by
        rw [spanLoop, lodsb_eq h.rest.1]
        simp only [Option.bind_eq_bind, Option.bind_some, if_neg hTest, hAmong, hZf]
      rw [hRound]
      by_cases hAgain : decide (x ∈ t) = again
      · obtain ⟨c', hRun, hEsi, hMem⟩ := ih (h.next hPassed) (Nat.lt_of_succ_lt_succ hFuel)
        have hHere : (decide (x ∈ t) == again) = true := beq_iff_eq.mpr hAgain
        have hTake : ((x :: l).takeWhile fun x => decide (x ∈ t) == again) =
            x :: l.takeWhile fun x => decide (x ∈ t) == again := List.takeWhile_cons_of_pos hHere
        refine ⟨c', ?_, ?_, hMem.trans hPassed.mem⟩
        · rw [if_pos hAgain, hRun, List.all_cons, hHere, Bool.true_and]
        · rw [hEsi, hPassed.esi, hTake, List.length_cons]
          exact add_one_add _ _
      · have hHere : (decide (x ∈ t) == again) = false := beq_eq_false_iff_ne.mpr hAgain
        have hTake : ((x :: l).takeWhile fun x => decide (x ∈ t) == again) = [] :=
          List.takeWhile_cons_of_neg (by rw [hHere]; exact Bool.false_ne_true)
        refine ⟨c₁, ?_, ?_, hPassed.mem⟩
        · rw [if_neg hAgain, List.all_cons, hHere, Bool.false_and]
        · rw [hTake]
          exact hPassed.esi

theorem span_eq (again : Bool) (hS : IsString c.mem p s) (hT : IsString c.mem q t) (hFuel : s.length < fuel) :
    ∃ c', span again fuel c p q = some (s.all fun x => decide (x ∈ t) == again, c') ∧
      c'.decEsi.esi = p + BitVec.ofNat 32 (s.takeWhile fun x => decide (x ∈ t) == again).length ∧
      c'.mem = c.mem := by
  have hLength := hT.length_lt
  obtain ⟨c₁, hMeasure, hAll⟩ := measure_eq (c := { c with eax := 0#32, ecx := 0xffffffff#32, esi := p }) hT rfl rfl
  have hMem : c₁.mem = c.mem := hAll.mem
  have hEsi : c₁.esi = p := hAll.esi
  have hSpanning : Spanning { c₁ with edx := c₁.ecx } q s t := by
    refine ⟨?_, hS.noNul, ?_, hAll.ecx, by omega⟩
    · rw [hMem, hEsi]
      exact hS.holds
    · rw [hMem]
      exact (holds_append.mp hT.holds).1
  obtain ⟨c', hRun, hEnd, hSame⟩ := spanLoop_eq again hSpanning hFuel
  refine ⟨c', ?_, ?_, hSame.trans hMem⟩
  · rw [span, hMeasure]
    exact hRun
  · change c'.esi - 1#32 = _
    rw [hEnd, BitVec.ofNat_add, ← BitVec.add_assoc, BitVec.add_sub_cancel]
    exact congrArg (· + _) hEsi

end

/-- `strspn` is the length of the longest start of the string in which all bytes are among those of
`ct`, `strcspn` of the longest one in which none is, and `strpbrk` finds the first one that is. An empty
`ct` is no exception. -/
theorem spans_measure (c : Cpu) {p q : BitVec 32} {s t : List Byte} {fuel : Nat} (hS : IsString c.mem p s)
    (hT : IsString c.mem q t) (hFuel : s.length < fuel) :
    (∃ c', strspn fuel c p q = some (BitVec.ofNat 32 (s.takeWhile (· ∈ t)).length, c') ∧ c'.mem = c.mem) ∧
      (∃ c', strcspn fuel c p q = some (BitVec.ofNat 32 (s.takeWhile (· ∉ t)).length, c') ∧ c'.mem = c.mem) ∧
      ∃ c', strpbrk fuel c p q =
          some (if ∃ x ∈ s, x ∈ t then p + BitVec.ofNat 32 (s.takeWhile (· ∉ t)).length else 0#32, c') ∧
        c'.mem = c.mem := by
  have hIn : (fun x => decide (x ∈ t) == true) = fun x => decide (x ∈ t) := by
    funext x
    exact beq_true _
  have hOut : (fun x => decide (x ∈ t) == false) = fun x => decide (x ∉ t) := by
    funext x
    rw [beq_false, decide_not]
  obtain ⟨c₁, hRun₁, hEsi₁, hMem₁⟩ := span_eq true hS hT hFuel
  obtain ⟨c₂, hRun₂, hEsi₂, hMem₂⟩ := span_eq false hS hT hFuel
  rw [hIn] at hRun₁ hEsi₁
  rw [hOut] at hRun₂ hEsi₂
  have hBehind (a b : BitVec 32) : a + b - a = b := by
    rw [BitVec.add_comm, BitVec.add_sub_cancel]
  refine ⟨⟨c₁.decEsi, ?_, hMem₁⟩, ⟨c₂.decEsi, ?_, hMem₂⟩, ?_⟩
  · rw [strspn, hRun₁]
    simp only [Option.bind_eq_bind, Option.bind_some, hEsi₁, hBehind]
  · rw [strcspn, hRun₂]
    simp only [Option.bind_eq_bind, Option.bind_some, hEsi₂, hBehind]
  · rw [strpbrk, hRun₂]
    by_cases hFound : ∃ x ∈ s, x ∈ t
    · have hAll : (s.all fun x => decide (x ∉ t)) = false := by simpa using hFound
      refine ⟨c₂.decEsi, ?_, hMem₂⟩
      simp only [Option.bind_eq_bind, Option.bind_some, hAll, Bool.false_eq_true, if_false, if_pos hFound, hEsi₂]
    · have hAll : (s.all fun x => decide (x ∉ t)) = true := by simpa using hFound
      refine ⟨c₂.xorEsi, ?_, hMem₂⟩
      simp only [Option.bind_eq_bind, Option.bind_some, hAll, if_true, if_neg hFound]
      rfl

/-- `"aab"` at 0x1000 and nothing but a NUL at 0x2000. -/
theorem spans_measure_empty : ∃ c', strcspn 4 (.blank (layout [(0x1000#32, [0x61#8, 0x61#8, 0x62#8, 0#8]),
    (0x2000#32, [0#8])])) 0x1000#32 0x2000#32 = some (3#32, c') := by
  have hS : IsString (layout [(0x1000#32, [0x61#8, 0x61#8, 0x62#8, 0#8]), (0x2000#32, [0#8])]) 0x1000#32
      [0x61#8, 0x61#8, 0x62#8] := ⟨⟨rfl, rfl, rfl, rfl, trivial⟩, by decide, by decide, by decide⟩
  have hT : IsString (layout [(0x1000#32, [0x61#8, 0x61#8, 0x62#8, 0#8]), (0x2000#32, [0#8])]) 0x2000#32 [] :=
    ⟨⟨rfl, trivial⟩, by decide, by decide, by decide⟩
  obtain ⟨-, ⟨c', hRun, -⟩, -⟩ := spans_measure (.blank _) hS hT
    (show [0x61#8, 0x61#8, 0x62#8].length < 4 by decide)
  exact ⟨c', hRun⟩

end Linux011.StringC

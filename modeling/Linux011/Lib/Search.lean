import Linux011.Lib.StringC
import Linux011.Library.FirstDifference
import Mathlib.Order.Bounds.Defs

/-! `strstr`. -/
namespace Linux011.StringC

open StringInstr FirstDifference

section

variable {c : Cpu} {p q : BitVec 32} {s t : List Byte} {fuel : Nat}

/-- The processor behind `measure`. -/
structure Measured (c : Cpu) (t : List Byte) (c' : Cpu) : Prop where
  ecx : c'.ecx = BitVec.ofNat 32 t.length
  zf : c'.zf = true ↔ t = []
  esi : c'.esi = c.esi
  ebx : c'.ebx = c.ebx
  mem : c'.mem = c.mem

theorem measure_eq (h : IsString c.mem q t) (hAl : c.al = 0#8) (hEcx : c.ecx = 0xffffffff#32) :
    ∃ c', measure c q = some c' ∧ Measured c t c' := by
  have hLength := h.length_lt
  obtain ⟨c₁, hScan, hLeft, hEsi, hEbx, hMem⟩ : ∃ c₁, { c with edi := q }.repneScasb = some c₁ ∧
      c₁.ecx = ~~~BitVec.ofNat 32 (t.length + 1) ∧ c₁.esi = c.esi ∧ c₁.ebx = c.ebx ∧ c₁.mem = c.mem :=
    ⟨_, repneScasb_string (c := { c with edi := q }) h hAl hEcx, rfl, rfl, rfl, rfl⟩
  have hCount : c₁.notEcx.ecx = BitVec.ofNat 32 (t.length + 1) := by
    change ~~~c₁.ecx = _
    rw [hLeft, BitVec.not_not]
  refine ⟨c₁.notEcx.decEcx, ?_, ecx_decEcx hCount, ?_, hEsi, hEbx, hMem⟩
  · rw [measure, hScan]
    rfl
  · rw [zf_decEcx hCount (by omega), List.length_eq_zero_iff]

/-- With nothing to compare the flags are those of `decl`. -/
theorem strstrLoop_empty (hEdx : c.edx = 0#32) (hZf : c.zf = true) (hFuel : 0 < fuel) :
    ∃ c', strstrLoop q fuel c = some c' ∧ c'.eax = c.esi := by
  obtain ⟨fuel, rfl⟩ := Nat.exists_eq_succ_of_ne_zero (Nat.ne_zero_of_lt hFuel)
  refine ⟨{ c with edi := q, eax := c.esi, ecx := c.edx }, ?_, rfl⟩
  rw [strstrLoop, hEdx]
  exact if_pos hZf

/-- Behind `repe cmpsb` at a place where `ct` stands. -/
theorem strstrLoop_here (fuel : Nat) (hS : Holds c.mem c.esi (s ++ [0#8])) (hT : Holds c.mem q t) (hSome : t ≠ [])
    (hEdx : c.edx = BitVec.ofNat 32 t.length) (hLength : t.length < 2 ^ 32) (hPrefix : t <+: s) :
    ∃ c', strstrLoop q (fuel + 1) c = some c' ∧ c'.eax = c.esi := by
  obtain ⟨rest, rfl⟩ := hPrefix
  rw [List.append_assoc] at hS
  have hCount : c.edx.toNat = t.length := by
    rw [hEdx, BitVec.toNat_ofNat, Nat.mod_eq_of_lt hLength]
  obtain ⟨c', hRun, hZf, hEax⟩ : ∃ c', { c with edi := q, eax := c.esi, ecx := c.edx }.repeCmpsb = some c' ∧
      c'.zf = true ∧ c'.eax = c.esi := by
    obtain ⟨esi, edi, ecx, sf, of, hRun⟩ := repeCmpsb_equal (c := { c with edi := q, eax := c.esi, ecx := c.edx })
      (holds_append.mp hS).1 hT hSome hCount
    exact ⟨_, hRun, rfl, rfl⟩
  refine ⟨c', ?_, hEax⟩
  rw [strstrLoop]
  simp only [hRun, Option.bind_eq_bind, Option.bind_some, if_pos hZf]

/-- Where it does not stand, the byte of `cs` that differs says whether to go on. -/
theorem strstrLoop_differ (fuel : Nat) {before : List Byte} {x y : Byte} (hS : Holds c.mem c.esi (before ++ [x]))
    (hT : Holds c.mem q (before ++ [y])) (hNe : x ≠ y) (hEdx : before.length < c.edx.toNat) :
    ∃ c₁ : Cpu, c₁.esi = c.esi + 1#32 ∧ c₁.edx = c.edx ∧ c₁.mem = c.mem ∧
      strstrLoop q (fuel + 1) c = if x = 0#8 then some c₁.xorEax else strstrLoop q fuel c₁ := by
  obtain ⟨c₁, hRun, hZf, hEax, hEsi, hEdx', hMem⟩ : ∃ c₁, { c with edi := q, eax := c.esi, ecx := c.edx }.repeCmpsb =
      some c₁ ∧ ¬c₁.zf = true ∧ c₁.eax = c.esi ∧ c₁.esi = c.esi + BitVec.ofNat 32 (before.length + 1) ∧
      c₁.edx = c.edx ∧ c₁.mem = c.mem := by
    refine ⟨_, repeCmpsbLoop_differ (c := { c with edi := q, eax := c.esi, ecx := c.edx }) hS hT hNe hEdx, ?_, rfl,
      rfl, rfl, rfl⟩
    change ¬(c.compare x y).zf = true
    rwa [zf_compare, beq_iff_eq]
  generalize hSwap : Cpu.incEsi { c₁ with eax := c₁.esi, esi := c₁.eax } = c₂
  obtain ⟨hStart, hAt, hSame, hMem'⟩ : c₂.esi = c.esi + 1#32 ∧ c₂.eax = c₁.esi ∧ c₂.edx = c.edx ∧ c₂.mem = c.mem := by
    rw [← hSwap, ← hEax, ← hEdx', ← hMem]
    exact ⟨rfl, rfl, rfl, rfl⟩
  have hLast : c₂.mem (c₂.eax - 1#32) = some x := by
    rw [hMem', hAt, hEsi, BitVec.ofNat_add, ← BitVec.add_assoc, BitVec.add_sub_cancel]
    exact ((holds_append.mp hS).2).1
  refine ⟨c₂.compare x 0#8, hStart, hSame, hMem', ?_⟩
  rw [strstrLoop]
  simp only [hRun, Option.bind_eq_bind, Option.bind_some, if_neg hZf, hSwap, cmpbZero_eq hLast, zf_compare, beq_iff_eq]

theorem length_le_of_nul {before rest : List Byte} (hNoNul : 0#8 ∉ s) (h : s ++ [0#8] = before ++ 0#8 :: rest) :
    s.length ≤ before.length := by
  by_contra hShort
  have hByte : (s ++ [0#8])[before.length]? = some 0#8 := by
    rw [h, List.getElem?_append_right (Nat.le_refl _), Nat.sub_self]
    rfl
  rw [List.getElem?_append_left (by omega)] at hByte
  exact hNoNul (List.mem_of_getElem? hByte)

theorem strstrLoop_finds (hS : Holds c.mem c.esi (s ++ [0#8])) (hNoNul : 0#8 ∉ s) (hT : Holds c.mem q t)
    (hNoNul' : 0#8 ∉ t) (hSome : t ≠ []) (hEdx : c.edx = BitVec.ofNat 32 t.length) (hLength : t.length < 2 ^ 32)
    (hFuel : s.length < fuel) : ∃ c', strstrLoop q fuel c = some c' ∧
      ((∃ i, IsLeast {i | t <+: s.drop i} i ∧ c'.eax = c.esi + BitVec.ofNat 32 i) ∨
        (∀ i, ¬t <+: s.drop i) ∧ c'.eax = 0#32) := by
  induction fuel generalizing c s with
  | zero => exact absurd hFuel (Nat.not_lt_zero _)
  | succ fuel ih =>
      by_cases hHere : t <+: s
      · obtain ⟨c', hRun, hEax⟩ := strstrLoop_here fuel hS hT hSome hEdx hLength hHere
        refine ⟨c', hRun, Or.inl ⟨0, ⟨by simpa using hHere, fun _ _ => Nat.zero_le _⟩, ?_⟩⟩
        rw [hEax, BitVec.add_zero]
      · obtain ⟨before, x, y, rest, rest', hHay, hNeedle, hNe⟩ := exists_difference_of_not_prefix hNoNul' hHere
        have hX : Holds c.mem c.esi (before ++ [x]) := by
          rw [hHay, List.append_cons] at hS
          exact (holds_append.mp hS).1
        have hY : Holds c.mem q (before ++ [y]) := by
          rw [hNeedle, List.append_cons] at hT
          exact (holds_append.mp hT).1
        have hCount : before.length < c.edx.toNat := by
          rw [hEdx, BitVec.toNat_ofNat, Nat.mod_eq_of_lt hLength, hNeedle]
          simp
        obtain ⟨c₁, hEsi, hEdx', hMem, hRun⟩ := strstrLoop_differ fuel hX hY hNe hCount
        rw [hRun]
        by_cases hEnd : x = 0#8
        · have hWhole : s.length ≤ before.length := length_le_of_nul hNoNul (hEnd ▸ hHay)
          refine ⟨c₁.xorEax, if_pos hEnd, Or.inr ⟨fun i hi => ?_, rfl⟩⟩
          have hShort := hi.length_le
          rw [hNeedle, List.length_append, List.length_cons, List.length_drop] at hShort
          omega
        · rw [if_neg hEnd]
          cases s with
          | nil =>
              obtain ⟨_, hFirst⟩ := List.append_eq_singleton_iff.mp hHay.symm |>.resolve_right (by simp)
              exact absurd (List.cons.inj hFirst).1 hEnd
          | cons u s =>
              obtain ⟨c', hRest, hFound⟩ := ih (c := c₁) (s := s) (hMem ▸ hEsi ▸ hS.2)
                (fun h => hNoNul (List.mem_cons_of_mem _ h)) (hMem ▸ hT) (hEdx'.trans hEdx)
                (Nat.lt_of_succ_lt_succ hFuel)
              refine ⟨c', hRest, ?_⟩
              rw [hEsi] at hFound
              rcases hFound with ⟨i, ⟨hAt, hLeast⟩, hEax⟩ | ⟨hNone, hEax⟩
              · refine Or.inl ⟨i + 1, ⟨hAt, fun j hj => ?_⟩, by rw [hEax, add_one_add]⟩
                cases j with
                | zero => exact absurd hj hHere
                | succ j => exact Nat.succ_le_succ (hLeast hj)
              · refine Or.inr ⟨fun i hi => ?_, hEax⟩
                cases i with
                | zero => exact hHere hi
                | succ i => exact hNone i hi

/-- `strstr` finds the first place where `ct` stands in `cs`, or returns 0 if there is none. The
memory behind the two terminators need not be mapped. -/
theorem strstr_finds (hS : IsString c.mem p s) (hT : IsString c.mem q t) (hFuel : s.length < fuel) :
    ∃ found c', strstr fuel c p q = some (found, c') ∧
      ((∃ i, IsLeast {i | t <+: s.drop i} i ∧ found = p + BitVec.ofNat 32 i) ∨
        (∀ i, ¬t <+: s.drop i) ∧ found = 0#32) := by
  have hLength := hT.length_lt
  obtain ⟨c₁, hMeasure, hAll⟩ := measure_eq (c := { c with eax := 0#32, ecx := 0xffffffff#32, esi := p }) hT rfl rfl
  have hHolds : Holds c₁.mem q t := by
    rw [hAll.mem]
    exact (holds_append.mp hT.holds).1
  by_cases hEmpty : t = []
  · obtain ⟨c', hRun, hEax⟩ := strstrLoop_empty (c := { c₁ with edx := c₁.ecx }) (q := q)
      (hAll.ecx.trans (by rw [hEmpty]; rfl)) (hAll.zf.mpr hEmpty) (Nat.zero_lt_of_lt hFuel)
    have hWhole : c'.eax = p := hEax.trans hAll.esi
    refine ⟨p, c', ?_, ?_⟩
    · rw [strstr, hMeasure]
      simp only [Option.bind_eq_bind, Option.bind_some, hRun, hWhole]
    · exact Or.inl ⟨0, ⟨by simp [hEmpty], fun _ _ => Nat.zero_le _⟩, (BitVec.add_zero p).symm⟩
  · obtain ⟨c', hRun, hFound⟩ := strstrLoop_finds (c := { c₁ with edx := c₁.ecx }) (hAll.esi ▸ hAll.mem ▸ hS.holds)
      hS.noNul hHolds hT.noNul hEmpty hAll.ecx (by omega) hFuel
    refine ⟨c'.eax, c', ?_, ?_⟩
    · rw [strstr, hMeasure]
      simp only [Option.bind_eq_bind, Option.bind_some, hRun]
    · rw [hAll.esi] at hFound
      exact hFound

end

/-- `"aab"` and `"ab"`, and nothing else in memory. -/
def aab : Cpu :=
  .blank (layout [(0x1000#32, [0x61#8, 0x61#8, 0x62#8, 0#8]), (0x2000#32, [0x61#8, 0x62#8, 0#8])])

theorem strstr_finds_ab : ∃ found c', strstr 4 aab 0x1000#32 0x2000#32 = some (found, c') ∧
    ((∃ i, IsLeast {i | [0x61#8, 0x62#8] <+: [0x61#8, 0x61#8, 0x62#8].drop i} i ∧
        found = 0x1000#32 + BitVec.ofNat 32 i) ∨
      (∀ i, ¬[0x61#8, 0x62#8] <+: [0x61#8, 0x61#8, 0x62#8].drop i) ∧ found = 0#32) :=
  strstr_finds (c := aab) ⟨⟨rfl, rfl, rfl, rfl, trivial⟩, by decide, by decide, by decide⟩
    ⟨⟨rfl, rfl, rfl, trivial⟩, by decide, by decide, by decide⟩ (by decide)

end Linux011.StringC

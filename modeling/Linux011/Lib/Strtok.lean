import Linux011.Lib.Search
import Linux011.Library.Runs

/-! `strtok`. -/
namespace Linux011.StringC

open StringInstr Runs

/-- What the loops leave alone, and how far they have come. -/
structure Passed (c : Cpu) (n : Nat) (c' : Cpu) : Prop where
  esi : c'.esi = c.esi + BitVec.ofNat 32 n
  ebx : c'.ebx = c.ebx
  edx : c'.edx = c.edx
  mem : c'.mem = c.mem

/-- What the loops need: the rest `l` of the string, and the delimiters `t`. -/
structure Splitting (c : Cpu) (q : BitVec 32) (l t : List Byte) : Prop where
  rest : Holds c.mem c.esi (l ++ [0#8])
  noNul : 0#8 ∉ l
  delimiters : Holds c.mem q t
  nonempty : t ≠ []
  edx : c.edx = BitVec.ofNat 32 t.length
  length : t.length < 2 ^ 32

section

variable {c c₁ c₂ : Cpu} {q : BitVec 32} {l t front gap run rest : List Byte} {x d : Byte} {n k fuel : Nat}

theorem Passed.trans (h : Passed c n c₁) (h' : Passed c₁ k c₂) : Passed c (n + k) c₂ where
  esi := by rw [h'.esi, h.esi, BitVec.add_assoc, ← BitVec.ofNat_add]
  ebx := h'.ebx.trans h.ebx
  edx := h'.edx.trans h.edx
  mem := h'.mem.trans h.mem

theorem Splitting.behind (front : List Byte) (h : Splitting c q (front ++ l) t) (hPassed : Passed c front.length c₁) :
    Splitting c₁ q l t where
  rest := by
    have hHolds := h.rest
    rw [List.append_assoc, holds_append] at hHolds
    rw [hPassed.mem, hPassed.esi]
    exact hHolds.2
  noNul hMem := h.noNul (List.mem_append_right _ hMem)
  delimiters := hPassed.mem ▸ h.delimiters
  nonempty := h.nonempty
  edx := hPassed.edx.trans h.edx
  length := h.length

/-- Up to the answer of `among`, which both loops ask of a byte that is not the last one. -/
theorem Splitting.ask (h : Splitting c q (x :: l) t) :
    c.lodsb = some (c.loaded x) ∧ ¬(c.loaded x).testAl.zf = true ∧ ∃ c₁, among (c.loaded x).testAl q = some c₁ ∧
      (c₁.zf = true ↔ x ∈ t) ∧ Passed c 1 c₁ := by
  have hx : x ≠ 0#8 := fun hZero => h.noNul (hZero ▸ List.mem_cons_self)
  refine ⟨lodsb_eq h.rest.1, ?_, ?_⟩
  · rwa [zf_testAl, al_loaded, beq_iff_eq]
  · have hCount : c.edx.toNat = t.length := by
      rw [h.edx, BitVec.toNat_ofNat, Nat.mod_eq_of_lt h.length]
    have hAl : (c.loaded x).testAl.al = x := al_loaded
    obtain ⟨edi, ecx, sf, of, hRun⟩ := repneScasb_mem
      (c := { (c.loaded x).testAl with edi := q, ecx := (c.loaded x).testAl.edx }) h.delimiters h.nonempty hCount
    refine ⟨_, hRun, ?_, rfl, rfl, rfl, rfl⟩
    change decide ((c.loaded x).testAl.al ∈ t) = true ↔ _
    rw [hAl, decide_eq_true_iff]

/-- `decl` and `cmpb $0`, at a byte that is not the last one. -/
theorem Passed.back (h : Passed c 1 c₁) (hAt : c.mem c.esi = some x) (hx : x ≠ 0#8) :
    ∃ c₂, c₁.decEsi.cmpbZero c₁.decEsi.esi = some c₂ ∧ ¬c₂.zf = true ∧ Passed c 0 c₂ := by
  have hEsi : c₁.decEsi.esi = c.esi := by
    change c₁.esi - 1#32 = _
    rw [h.esi, BitVec.add_sub_cancel]
  refine ⟨c₁.decEsi.compare x 0#8, cmpbZero_eq ?_, ?_, ⟨?_, h.ebx, h.edx, h.mem⟩⟩
  · rw [hEsi]
    exact (congrFun h.mem _).trans hAt
  · rwa [zf_compare, beq_iff_eq]
  · rw [BitVec.add_zero]
    exact hEsi

/-- A loop whose rounds do nothing with some bytes has passed a stretch of them. -/
theorem Splitting.pass {β : Type} {loop : Nat → Cpu → β} {Q : Byte → Prop}
    (hRound : ∀ {fuel c x l}, Splitting c q (x :: l) t → Q x → ∃ c₁, Passed c 1 c₁ ∧ loop (fuel + 1) c = loop fuel c₁)
    (h : Splitting c q (front ++ rest) t) (hFront : ∀ x ∈ front, Q x) (hFuel : front.length ≤ fuel) :
    ∃ c₁, Passed c front.length c₁ ∧ Splitting c₁ q rest t ∧ loop fuel c = loop (fuel - front.length) c₁ := by
  induction front generalizing c fuel with
  | nil => exact ⟨c, ⟨(BitVec.add_zero _).symm, rfl, rfl, rfl⟩, h, rfl⟩
  | cons x front ih =>
      obtain ⟨fuel, rfl⟩ := Nat.exists_eq_add_of_le' (Nat.le_trans (Nat.succ_pos _) hFuel)
      obtain ⟨c₁, hPassed, hRun⟩ := hRound h (hFront x List.mem_cons_self)
      obtain ⟨c₂, hAll, hSplitting, hRest⟩ := ih (h.behind [x] hPassed)
        (fun y hy => hFront y (List.mem_cons_of_mem _ hy)) (Nat.le_of_succ_le_succ hFuel)
      have hLength : 1 + front.length = (x :: front).length := Nat.add_comm 1 _
      refine ⟨c₂, hLength ▸ hPassed.trans hAll, hSplitting, ?_⟩
      rw [hRun, hRest, List.length_cons, Nat.add_sub_add_right]

theorem strtokSkip_round (fuel : Nat) (h : Splitting c q (x :: l) t) : ∃ c₁ c₂, Passed c 1 c₁ ∧ Passed c 0 c₂ ∧
    strtokSkip q (fuel + 1) c = if x ∈ t then strtokSkip q fuel c₁ else some (false, c₂) := by
  obtain ⟨hLoad, hTest, c₁, hAmong, hZf, hPassed⟩ := h.ask
  have hx : x ≠ 0#8 := fun hZero => h.noNul (hZero ▸ List.mem_cons_self)
  obtain ⟨c₂, hByte, hNot, hBack⟩ := hPassed.back h.rest.1 hx
  refine ⟨c₁, c₂, hPassed, hBack, ?_⟩
  rw [strtokSkip, hLoad]
  simp only [Option.bind_eq_bind, Option.bind_some, if_neg hTest, hAmong, hZf, hByte, Bool.not_eq_true] at hNot ⊢
  rw [hNot]

theorem strtokSkip_delimiter (h : Splitting c q (x :: l) t) (hx : x ∈ t) :
    ∃ c₁, Passed c 1 c₁ ∧ strtokSkip q (fuel + 1) c = strtokSkip q fuel c₁ := by
  obtain ⟨c₁, _, hPassed, _, hRun⟩ := strtokSkip_round fuel h
  exact ⟨c₁, hPassed, hRun.trans (if_pos hx)⟩

theorem strtokSkip_end (fuel : Nat) (h : Splitting c q [] t) : ∃ c₁, strtokSkip q (fuel + 1) c = some (true, c₁) ∧
    Passed c 1 c₁ := by
  refine ⟨(c.loaded 0#8).testAl, ?_, rfl, rfl, rfl, rfl⟩
  have hTest : (c.loaded 0#8).testAl.zf = true := by rw [zf_testAl, al_loaded, beq_self_eq_true]
  rw [strtokSkip, lodsb_eq h.rest.1]
  exact if_pos hTest

/-- Before the end of the string there are only delimiters. -/
theorem strtokSkip_all (h : Splitting c q l t) (hGap : ∀ x ∈ l, x ∈ t) (hFuel : l.length < fuel) :
    ∃ c₁, strtokSkip q fuel c = some (true, c₁) ∧ c₁.ebx = c.ebx ∧ c₁.mem = c.mem := by
  rw [← List.append_nil l] at h
  obtain ⟨c₁, hPassed, hRest, hRun⟩ := h.pass strtokSkip_delimiter hGap (Nat.le_of_lt hFuel)
  obtain ⟨rounds, hRounds⟩ := Nat.exists_eq_add_of_lt hFuel
  rw [show fuel - l.length = rounds + 1 by omega] at hRun
  obtain ⟨c₂, hEnd, hLast⟩ := strtokSkip_end rounds hRest
  exact ⟨c₂, hRun.trans hEnd, hLast.ebx.trans hPassed.ebx, hLast.mem.trans hPassed.mem⟩

/-- `strtokSkip` stops at the first byte that is no delimiter. -/
theorem strtokSkip_gap (h : Splitting c q (gap ++ x :: rest) t) (hGap : ∀ y ∈ gap, y ∈ t) (hx : x ∉ t)
    (hFuel : gap.length < fuel) : ∃ c₁, strtokSkip q fuel c = some (false, c₁) ∧ Passed c gap.length c₁ ∧
      Splitting c₁ q (x :: rest) t := by
  obtain ⟨c₁, hPassed, hRest, hRun⟩ := h.pass strtokSkip_delimiter hGap (Nat.le_of_lt hFuel)
  obtain ⟨rounds, hRounds⟩ := Nat.exists_eq_add_of_lt hFuel
  rw [show fuel - gap.length = rounds + 1 by omega] at hRun
  obtain ⟨_, c₂, _, hHere, hStop⟩ := strtokSkip_round rounds hRest
  exact ⟨c₂, hRun.trans (hStop.trans (if_neg hx)), hPassed.trans hHere, hRest.behind [] hHere⟩

theorem strtokScan_round (fuel : Nat) (h : Splitting c q (x :: l) t) : ∃ c₁ c₂, Passed c 1 c₁ ∧ c₂.esi = c.esi + 1#32 ∧
    c₂.ebx = c.ebx ∧ c₂.mem = Function.update c.mem c.esi (some 0#8) ∧
    strtokScan q (fuel + 1) c = if x ∈ t then some c₂ else strtokScan q fuel c₁ := by
  obtain ⟨hLoad, hTest, c₁, hAmong, hZf, hPassed⟩ := h.ask
  have hx : x ≠ 0#8 := fun hZero => h.noNul (hZero ▸ List.mem_cons_self)
  obtain ⟨c₂, hByte, hNot, hBack⟩ := hPassed.back h.rest.1 hx
  have hEsi : c₂.esi = c.esi := hBack.esi.trans (BitVec.add_zero _)
  have hStore : c₂.store c₂.esi 0#8 = some { c₂ with mem := Function.update c₂.mem c₂.esi (some 0#8) } := by
    rw [Cpu.store, hBack.mem, hEsi, h.rest.1]
    rfl
  refine ⟨c₁, Cpu.incEsi { c₂ with mem := Function.update c₂.mem c₂.esi (some 0#8) }, hPassed,
    congrArg (· + 1#32) hEsi, hBack.ebx, ?_, ?_⟩
  · change Function.update c₂.mem c₂.esi (some 0#8) = _
    rw [hBack.mem, hEsi]
  · rw [strtokScan, hLoad]
    simp only [Option.bind_eq_bind, Option.bind_some, if_neg hTest, hAmong, hZf, hByte, if_neg hNot, hStore]

theorem strtokScan_inside (h : Splitting c q (x :: l) t) (hx : x ∉ t) :
    ∃ c₁, Passed c 1 c₁ ∧ strtokScan q (fuel + 1) c = strtokScan q fuel c₁ := by
  obtain ⟨c₁, _, hPassed, _, _, _, hRun⟩ := strtokScan_round fuel h
  exact ⟨c₁, hPassed, hRun.trans (if_neg hx)⟩

/-- A token that the end of the string ends. -/
theorem strtokScan_last (h : Splitting c q run t) (hRun : ∀ x ∈ run, x ∉ t) (hFuel : run.length < fuel) :
    ∃ c₁, strtokScan q fuel c = some c₁ ∧ c₁.esi = 0#32 ∧ c₁.ebx = c.ebx ∧ c₁.mem = c.mem := by
  rw [← List.append_nil run] at h
  obtain ⟨c₁, hPassed, hRest, hLoop⟩ := h.pass strtokScan_inside hRun (Nat.le_of_lt hFuel)
  obtain ⟨rounds, hRounds⟩ := Nat.exists_eq_add_of_lt hFuel
  rw [show fuel - run.length = rounds + 1 by omega] at hLoop
  have hTest : (c₁.loaded 0#8).testAl.zf = true := by rw [zf_testAl, al_loaded, beq_self_eq_true]
  refine ⟨(c₁.loaded 0#8).testAl.xorEsi, hLoop.trans ?_, rfl, hPassed.ebx, hPassed.mem⟩
  rw [strtokScan, lodsb_eq hRest.rest.1]
  exact if_pos hTest

/-- A token that a delimiter ends. -/
theorem strtokScan_more (h : Splitting c q (run ++ d :: rest) t) (hRun : ∀ x ∈ run, x ∉ t) (hd : d ∈ t)
    (hFuel : run.length < fuel) : ∃ c₁, strtokScan q fuel c = some c₁ ∧
      c₁.esi = c.esi + BitVec.ofNat 32 (run.length + 1) ∧ c₁.ebx = c.ebx ∧
      c₁.mem = Function.update c.mem (c.esi + BitVec.ofNat 32 run.length) (some 0#8) := by
  obtain ⟨c₁, hPassed, hRest, hLoop⟩ := h.pass strtokScan_inside hRun (Nat.le_of_lt hFuel)
  obtain ⟨rounds, hRounds⟩ := Nat.exists_eq_add_of_lt hFuel
  rw [show fuel - run.length = rounds + 1 by omega] at hLoop
  obtain ⟨_, c₂, _, hEsi, hEbx, hMem, hStop⟩ := strtokScan_round rounds hRest
  refine ⟨c₂, hLoop.trans (hStop.trans (if_pos hd)), ?_, hEbx.trans hPassed.ebx, ?_⟩
  · rw [hEsi, hPassed.esi, BitVec.add_assoc, ← BitVec.ofNat_add]
  · rw [hMem, hPassed.mem, hPassed.esi]

/-- What `strtokFrom` leaves: the token, the pointer for the next call, and memory. -/
structure Returns (c : Cpu) (found saved : BitVec 32) (m : Memory) : Prop where
  ebx : c.ebx = found
  esi : c.esi = saved
  mem : c.mem = m

theorem zf_logic {v : BitVec 32} : (c.logic v).zf = true ↔ v = 0#32 := beq_iff_eq

theorem strtokEnd_none (h : c.ebx = 0#32) : Returns (strtokEnd c) 0#32 0#32 c.mem := by
  rw [strtokEnd, if_pos (zf_logic.mpr h)]
  exact ⟨h, h, rfl⟩

theorem strtokEnd_some (h : c.ebx ≠ 0#32) : Returns (strtokEnd c) c.ebx c.esi c.mem := by
  rw [strtokEnd, if_neg fun hZf => h (zf_logic.mp hZf)]
  exact ⟨rfl, rfl, rfl⟩

/-- Up to label 2 nothing depends on what is in the string. -/
theorem strtokFrom_start (fuel : Nat) (hS : IsString c.mem c.esi l) (hT : IsString c.mem q t) (hSome : t ≠ []) :
    ∃ c₁, Splitting c₁ q l t ∧ c₁.esi = c.esi ∧ c₁.ebx = 0#32 ∧ c₁.mem = c.mem ∧
      (∀ c₂, strtokSkip q fuel c₁ = some (true, c₂) → strtokFrom fuel c q = some (strtokEnd c₂)) ∧
      ∀ c₂ c₃ x, strtokSkip q fuel c₁ = some (false, c₂) → strtokScan q fuel { c₂ with ebx := c₂.esi } = some c₃ →
        c₃.mem c₃.ebx = some x → x ≠ 0#8 → strtokFrom fuel c q = some (strtokEnd (c₃.compare x 0#8)) := by
  have hLength := hT.length_lt
  obtain ⟨c₁, hMeasure, hAll⟩ := measure_eq
    (c := { { c.xorEbx with ecx := -1#32 }.logic 0#32 with eax := 0#32 }) hT rfl rfl
  have hNot : ¬c₁.zf = true := fun hZf => hSome (hAll.zf.mp hZf)
  have hMem : c₁.mem = c.mem := hAll.mem
  have hEsi : c₁.esi = c.esi := hAll.esi
  refine ⟨{ c₁ with edx := c₁.ecx }, ⟨?_, hS.noNul, ?_, hSome, hAll.ecx, by omega⟩, hEsi, hAll.ebx, hMem, ?_, ?_⟩
  · rw [hMem, hEsi]
    exact hS.holds
  · rw [hMem]
    exact (holds_append.mp hT.holds).1
  · intro c₂ hSkip
    rw [strtokFrom, hMeasure]
    simp only [Option.bind_eq_bind, Option.bind_some, if_neg hNot, hSkip, if_true]
  · intro c₂ c₃ x hSkip hScan hByte hx
    have hZf : ¬(c₃.compare x 0#8).zf = true := by rwa [zf_compare, beq_iff_eq]
    rw [strtokFrom, hMeasure]
    simp only [Option.bind_eq_bind, Option.bind_some, if_neg hNot, hSkip, hScan, cmpbZero_eq hByte, if_neg hZf,
      Bool.false_eq_true, if_false]

theorem strtokFrom_none (hS : IsString c.mem c.esi gap) (hT : IsString c.mem q t) (hSome : t ≠ [])
    (hGap : ∀ x ∈ gap, x ∈ t) (hFuel : gap.length < fuel) :
    ∃ c', strtokFrom fuel c q = some c' ∧ Returns c' 0#32 0#32 c.mem := by
  obtain ⟨c₁, hSplitting, _, hEbx, hMem, hEnded, _⟩ := strtokFrom_start fuel hS hT hSome
  obtain ⟨c₂, hSkip, hEbx', hMem'⟩ := strtokSkip_all hSplitting hGap hFuel
  exact ⟨_, hEnded c₂ hSkip, (hMem'.trans hMem) ▸ strtokEnd_none (hEbx'.trans hEbx)⟩

/-- At a token, its end decides. -/
theorem strtokFrom_token {b : Byte} {tail : List Byte} (hS : IsString c.mem c.esi (gap ++ b :: tail))
    (hT : IsString c.mem q t) (hSome : t ≠ []) (hGap : ∀ x ∈ gap, x ∈ t) (hb : b ∉ t) (hFuel : gap.length < fuel) :
    ∃ c₁, Splitting c₁ q (b :: tail) t ∧ c₁.esi = c.esi + BitVec.ofNat 32 gap.length ∧ c₁.ebx = c₁.esi ∧
      c₁.mem = c.mem ∧ ∀ c₂, strtokScan q fuel c₁ = some c₂ → c₂.ebx = c₁.ebx → c₂.mem c₁.esi = some b →
        ∃ c', strtokFrom fuel c q = some c' ∧ Returns c' c₁.esi c₂.esi c₂.mem := by
  obtain ⟨c₁, hSplitting, hEsi, _, hMem, _, hToken⟩ := strtokFrom_start fuel hS hT hSome
  obtain ⟨c₂, hSkip, hPassed, hRest⟩ := strtokSkip_gap hSplitting hGap hb hFuel
  have hAt : c₂.esi = c.esi + BitVec.ofNat 32 gap.length := hPassed.esi.trans (by rw [hEsi])
  have hNull : c₂.esi ≠ 0#32 := hAt ▸ hS.drop.notNull
  have hByte : b ≠ 0#8 := fun hZero => hS.noNul (hZero ▸ List.mem_append_right _ List.mem_cons_self)
  refine ⟨{ c₂ with ebx := c₂.esi }, ⟨hRest.rest, hRest.noNul, hRest.delimiters, hSome, hRest.edx, hRest.length⟩, hAt,
    rfl, hPassed.mem.trans hMem, fun c₃ hScan hEbx hFirst => ?_⟩
  have hSame : c₃.ebx = c₂.esi := hEbx
  refine ⟨_, hToken c₂ c₃ b hSkip hScan (hSame ▸ hFirst) hByte, ?_⟩
  have hEnd := strtokEnd_some (c := c₃.compare b 0#8) (hSame ▸ hNull)
  exact ⟨hEnd.ebx.trans hSame, hEnd.esi, hEnd.mem⟩

theorem strtokFrom_last (hS : IsString c.mem c.esi (gap ++ run)) (hT : IsString c.mem q t) (hSome : t ≠ [])
    (hGap : ∀ x ∈ gap, x ∈ t) (hToken : run ≠ []) (hRun : ∀ x ∈ run, x ∉ t) (hFuel : (gap ++ run).length < fuel) :
    ∃ c', strtokFrom fuel c q = some c' ∧ Returns c' (c.esi + BitVec.ofNat 32 gap.length) 0#32 c.mem := by
  rw [List.length_append] at hFuel
  have hGapFuel : gap.length < fuel := by omega
  have hRunFuel : run.length < fuel := by omega
  obtain ⟨b, tail, rfl⟩ := List.exists_cons_of_ne_nil hToken
  obtain ⟨c₁, hSplitting, hEsi, _, hMem, hFrom⟩ := strtokFrom_token hS hT hSome hGap (hRun b List.mem_cons_self)
    hGapFuel
  obtain ⟨c₂, hScan, hEnd, hEbx, hMem'⟩ := strtokScan_last hSplitting hRun hRunFuel
  obtain ⟨c', hCall, hReturns⟩ := hFrom c₂ hScan hEbx (hMem' ▸ hSplitting.rest.1)
  exact ⟨c', hCall, hReturns.ebx.trans hEsi, hReturns.esi.trans hEnd, hReturns.mem.trans (hMem'.trans hMem)⟩

theorem strtokFrom_more (hS : IsString c.mem c.esi (gap ++ (run ++ d :: rest))) (hT : IsString c.mem q t)
    (hSome : t ≠ []) (hGap : ∀ x ∈ gap, x ∈ t) (hToken : run ≠ []) (hRun : ∀ x ∈ run, x ∉ t) (hd : d ∈ t)
    (hFuel : (gap ++ (run ++ d :: rest)).length < fuel) : ∃ c', strtokFrom fuel c q = some c' ∧
      Returns c' (c.esi + BitVec.ofNat 32 gap.length) (c.esi + BitVec.ofNat 32 (gap.length + run.length + 1))
        (Function.update c.mem (c.esi + BitVec.ofNat 32 (gap.length + run.length)) (some 0#8)) := by
  have hFits := hS.length_lt
  rw [List.length_append, List.length_append] at hFuel hFits
  have hGapFuel : gap.length < fuel := by omega
  have hRunFuel : run.length < fuel := by omega
  obtain ⟨b, tail, rfl⟩ := List.exists_cons_of_ne_nil hToken
  obtain ⟨c₁, hSplitting, hEsi, _, hMem, hFrom⟩ := strtokFrom_token hS hT hSome hGap (hRun b List.mem_cons_self)
    hGapFuel
  obtain ⟨c₂, hScan, hEnd, hEbx, hMem'⟩ := strtokScan_more hSplitting hRun hd hRunFuel
  have hFirst : c₂.mem c₁.esi = some b := by
    have hApart := ofNat_ne (p := c₁.esi) (i := 0) (j := (b :: tail).length) (by omega) (by omega)
      (Nat.succ_ne_zero _).symm
    rw [BitVec.add_zero] at hApart
    rw [hMem', Function.update_of_ne hApart]
    exact hSplitting.rest.1
  obtain ⟨c', hCall, hReturns⟩ := hFrom c₂ hScan hEbx hFirst
  refine ⟨c', hCall, hReturns.ebx.trans hEsi, hReturns.esi.trans ?_, hReturns.mem.trans ?_⟩
  · rw [hEnd, hEsi, BitVec.add_assoc, ← BitVec.ofNat_add, Nat.add_assoc]
  · rw [hMem', hMem, hEsi, BitVec.add_assoc, ← BitVec.ofNat_add]

/-- A call starts at `s`, or where the last one left off. -/
theorem strtok_start (fuel : Nat) {p saved s : BitVec 32} (hNull : p ≠ 0#32) (hStart : s = p ∨ s = 0#32 ∧ saved = p) :
    ∃ c₁ : Cpu, c₁.esi = p ∧ c₁.mem = c.mem ∧
      strtok fuel c saved s q = (strtokFrom fuel c₁ q).bind fun c' => some (c'.ebx, c'.esi, c') := by
  rcases hStart with rfl | ⟨rfl, rfl⟩
  · have hZf : ¬(Cpu.logic { c with ebx := saved, esi := s } s).zf = true := fun hZf => hNull (zf_logic.mp hZf)
    refine ⟨Cpu.logic { c with ebx := saved, esi := s } s, rfl, rfl, ?_⟩
    rw [strtok]
    simp only [if_neg hZf, Option.bind_eq_bind]
  · have hZf : (Cpu.logic { c with ebx := saved, esi := 0#32 } 0#32).zf = true := rfl
    have hZf' : ¬(Cpu.logic (Cpu.logic { c with ebx := saved, esi := 0#32 } 0#32) saved).zf = true :=
      fun hZf => hNull (zf_logic.mp hZf)
    refine ⟨{ Cpu.logic (Cpu.logic { c with ebx := saved, esi := 0#32 } 0#32) saved with esi := saved }, rfl, rfl, ?_⟩
    rw [strtok]
    simp only [if_pos hZf, Option.bind_eq_bind]
    exact if_neg hZf'

/-- With nothing left a call does nothing. -/
theorem strtok_over : ∃ c', strtok fuel c 0#32 0#32 q = some (0#32, 0#32, c') ∧ c'.mem = c.mem := by
  refine ⟨Cpu.logic (Cpu.logic { c with ebx := 0#32, esi := 0#32 } 0#32) 0#32, ?_, rfl⟩
  rw [strtok]
  rfl

/-- `strtok(s, ct)`, then `strtok(NULL, ct)` again and again: a call for each of the processors,
which have memory in common. What the calls return, and memory behind each of them. -/
def strtokCalls (fuel : Nat) (ct : BitVec 32) :
    BitVec 32 → BitVec 32 → Memory → List Cpu → Option (List (BitVec 32 × Memory))
  | _, _, _, [] => some []
  | saved, s, m, c :: cs => do
      let (token, saved, c) ← strtok fuel { c with mem := m } saved s ct
      let rest ← strtokCalls fuel ct saved 0#32 c.mem cs
      some ((token, c.mem) :: rest)

/-- Memory in which the byte behind each of these runs is NUL. -/
def cut (m : Memory) (p : BitVec 32) (n : Nat) (runs : List (Nat × Nat)) : Memory := fun a =>
  if ∃ r ∈ runs, r.2 < n ∧ a = p + BitVec.ofNat 32 r.2 then some 0#8 else m a

/-- What the call number `i` does, for the string `s` that was at `p`. -/
structure Answers (m : Memory) (p : BitVec 32) (s : List Byte) (runs : List (Nat × Nat)) (i : Nat)
    (out : BitVec 32 × Memory) : Prop where
  mem : out.2 = cut m p s.length (runs.take (i + 1))
  token : ∀ r, runs[i]? = some r → out.1 = p + BitVec.ofNat 32 r.1 ∧ IsString out.2 out.1 (s.extract r.1 r.2)
  none : runs[i]? = none → out.1 = 0#32

/-- As many calls as one likes give these answers. -/
def Splits (fuel : Nat) (q saved arg : BitVec 32) (m : Memory) (p : BitVec 32) (s : List Byte)
    (runs : List (Nat × Nat)) : Prop :=
  ∀ cs, ∃ outs, strtokCalls fuel q saved arg m cs = some outs ∧ outs.length = cs.length ∧
    ∀ i out, outs[i]? = some out → Answers m p s runs i out

section

variable {m : Memory} {p saved saved' arg token : BitVec 32} {s : List Byte} {r : Nat × Nat} {runs : List (Nat × Nat)}
  {i base : Nat} {out : BitVec 32 × Memory} {cs : List Cpu} {outs : List (BitVec 32 × Memory)}

theorem cut_nil : cut m p n [] = m := funext fun _ => if_neg (by simp)

/-- At the end of the string there is a NUL already. -/
theorem cut_end (h : ¬r.2 < n) : cut m p n [r] = m := funext fun _ => if_neg (by simp [h])

theorem cut_inside (h : r.2 < n) : cut m p n [r] = Function.update m (p + BitVec.ofNat 32 r.2) (some 0#8) := by
  funext a
  simp [cut, h, Function.update_apply]

theorem cut_cons : cut (cut m p n [r]) p n runs = cut m p n (r :: runs) := by
  funext a
  by_cases hRest : ∃ r ∈ runs, r.2 < n ∧ a = p + BitVec.ofNat 32 r.2
  · have hAny : ∃ r' ∈ r :: runs, r'.2 < n ∧ a = p + BitVec.ofNat 32 r'.2 := by
      obtain ⟨r', hMem, hAt⟩ := hRest
      exact ⟨r', List.mem_cons_of_mem _ hMem, hAt⟩
    exact (if_pos hRest).trans (if_pos hAny).symm
  · refine (if_neg hRest).trans (if_congr ?_ rfl rfl)
    simp [hRest]

theorem Answers.cons (h : Answers (cut m p s.length [r]) p s runs i out) : Answers m p s (r :: runs) (i + 1) out where
  mem := h.mem.trans cut_cons
  token := h.token
  none := h.none

theorem strtokCalls_cons (hCall : strtok fuel { c with mem := m } saved arg q = some (token, saved', c₁))
    (hRest : strtokCalls fuel q saved' 0#32 c₁.mem cs = some outs) :
    strtokCalls fuel q saved arg m (c :: cs) = some ((token, c₁.mem) :: outs) := by
  rw [strtokCalls, hCall]
  simp only [Option.bind_eq_bind, Option.bind_some, hRest]

/-- A call that finds a token, and the calls that follow it. -/
theorem Splits.cons (saved' : BitVec 32) (hCall : ∀ c : Cpu, ∃ c', strtok fuel { c with mem := m } saved arg q =
      some (p + BitVec.ofNat 32 r.1, saved', c') ∧ c'.mem = cut m p s.length [r])
    (hToken : IsString (cut m p s.length [r]) (p + BitVec.ofNat 32 r.1) (s.extract r.1 r.2))
    (hRest : Splits fuel q saved' 0#32 (cut m p s.length [r]) p s runs) :
    Splits fuel q saved arg m p s (r :: runs) := by
  intro cs
  cases cs with
  | nil => exact ⟨[], rfl, rfl, fun i out hOut => by simp at hOut⟩
  | cons c cs =>
      obtain ⟨c', hRun, hMem⟩ := hCall c
      obtain ⟨outs, hRuns, hLength, hAnswers⟩ := hRest cs
      refine ⟨_, strtokCalls_cons hRun (hMem ▸ hRuns), congrArg (· + 1) hLength, fun i out hOut => ?_⟩
      cases i with
      | zero =>
          obtain rfl := Option.some.inj hOut
          refine ⟨hMem, fun r' hr => ?_, fun hNone => ?_⟩
          · obtain rfl := Option.some.inj hr
            exact ⟨rfl, hMem ▸ hToken⟩
          · cases hNone
      | succ i => exact (hAnswers i out hOut).cons

/-- A call that finds nothing: neither does any later one. -/
theorem Splits.nil (hCall : ∀ c : Cpu, ∃ c', strtok fuel { c with mem := m } saved arg q = some (0#32, 0#32, c') ∧
    c'.mem = m) : Splits fuel q saved arg m p s [] := by
  intro cs
  induction cs generalizing saved arg with
  | nil => exact ⟨[], rfl, rfl, fun i out hOut => by simp at hOut⟩
  | cons c cs ih =>
      obtain ⟨c', hRun, hMem⟩ := hCall c
      obtain ⟨outs, hRuns, hLength, hAnswers⟩ := ih fun c => strtok_over (c := { c with mem := m })
      refine ⟨_, strtokCalls_cons hRun (hMem ▸ hRuns), congrArg (· + 1) hLength, fun i out hOut => ?_⟩
      cases i with
      | zero =>
          obtain rfl := Option.some.inj hOut
          exact ⟨hMem.trans cut_nil.symm, fun r hr => (by cases hr), fun _ => rfl⟩
      | succ i =>
          have hRest := hAnswers i out hOut
          exact ⟨hRest.mem, hRest.token, hRest.none⟩

end

section

variable {m : Memory} {p saved arg : BitVec 32} {s : List Byte} {runs : List (Nat × Nat)} {base : Nat}

/-- The state between two calls: the rest of the string, from `base` on, is still to be split. -/
structure Between (m : Memory) (p q : BitVec 32) (s t : List Byte) (base : Nat) (l : List Byte) : Prop where
  rest : s.drop base = l
  string : IsString m (p + BitVec.ofNat 32 base) l
  delimiters : IsString m q t
  nonempty : t ≠ []
  apart : Apart p (s.length + 1) q (t.length + 1)
  fits : p.toNat + s.length < 2 ^ 32

/-- A run in the rest is one in the string. -/
theorem Between.extract (h : Between m p q s t base l) (hParts : l = gap ++ (run ++ rest)) :
    s.extract (base + gap.length) (base + gap.length + run.length) = run := by
  rw [List.extract_eq_take_drop, Nat.add_sub_cancel_left, ← List.drop_drop, h.rest, hParts,
    List.drop_left, List.take_left]

theorem Between.length (h : Between m p q s t base l) (hSome : l ≠ []) : base + l.length = s.length := by
  have hLength := congrArg List.length h.rest
  have hPos := List.length_pos_iff.mpr hSome
  rw [List.length_drop] at hLength
  omega

theorem add_ofNat_add (p : BitVec 32) (a b : Nat) :
    p + BitVec.ofNat 32 a + BitVec.ofNat 32 b = p + BitVec.ofNat 32 (a + b) := by
  rw [BitVec.add_assoc, ← BitVec.ofNat_add]

/-- Any call in such a state runs `strtokFrom` there. -/
theorem Between.call (h : Between m p q s t base l)
    (hStart : arg = p + BitVec.ofNat 32 base ∨ arg = 0#32 ∧ saved = p + BitVec.ofNat 32 base) {found next : BitVec 32}
    {m' : Memory} (hFrom : ∀ c₁ : Cpu, c₁.esi = p + BitVec.ofNat 32 base → c₁.mem = m →
      ∃ c', strtokFrom fuel c₁ q = some c' ∧ Returns c' found next m') (c : Cpu) :
    ∃ c', strtok fuel { c with mem := m } saved arg q = some (found, next, c') ∧ c'.mem = m' := by
  obtain ⟨c₁, hEsi, hMem, hRun⟩ := strtok_start (c := { c with mem := m }) (q := q) fuel h.string.notNull
    hStart
  obtain ⟨c', hCall, hReturns⟩ := hFrom c₁ hEsi hMem
  refine ⟨c', ?_, hReturns.mem⟩
  rw [hRun, hCall, Option.bind_some, hReturns.ebx, hReturns.esi]

/-- Behind a token and the delimiter that ended it. -/
theorem Between.next (h : Between m p q s t base (gap ++ (run ++ d :: rest))) :
    Between (Function.update m (p + BitVec.ofNat 32 (base + gap.length + run.length)) (some 0#8)) p q s t
      (base + gap.length + run.length + 1) rest := by
  have hAll := h.length (by simp)
  have hFits := h.fits
  rw [List.length_append, List.length_append, List.length_cons] at hAll
  refine ⟨?_, ?_, h.delimiters.update fun i hi j hj => ?_, h.nonempty, h.apart, h.fits⟩
  · rw [Nat.add_assoc, Nat.add_assoc, ← List.drop_drop, h.rest, ← List.drop_drop, List.drop_left, ← List.drop_drop,
      List.drop_left, List.drop_one, List.tail_cons]
  · have hString := h.string
    rw [← List.append_assoc, List.append_cons] at hString
    have hRest := hString.drop
    rw [add_ofNat_add, List.length_append, List.length_append, List.length_singleton, ← Nat.add_assoc,
      ← Nat.add_assoc] at hRest
    refine hRest.update fun i hi j hj => ?_
    obtain rfl : j = 0 := by omega
    rw [add_ofNat_add, BitVec.add_zero]
    exact ofNat_ne (by omega) (by omega) (by omega)
  · obtain rfl : j = 0 := by omega
    rw [BitVec.add_zero]
    exact h.apart.symm i hi _ (by omega)

/-- The token is a string until something else is stored there. -/
theorem Between.token (h : Between m p q s t base (gap ++ (run ++ d :: rest))) :
    IsString (Function.update m (p + BitVec.ofNat 32 (base + gap.length + run.length)) (some 0#8))
      (p + BitVec.ofNat 32 (base + gap.length)) run := by
  have hCut := h.string.drop.cut
  simp only [add_ofNat_add] at hCut
  exact hCut

/-- The calls take the string apart as `Split` does. -/
theorem splits_between (hSplit : Split (· ∉ t) base l runs) (h : Between m p q s t base l) (hFuel : s.length < fuel)
    (hStart : arg = p + BitVec.ofNat 32 base ∨ arg = 0#32 ∧ saved = p + BitVec.ofNat 32 base) :
    Splits fuel q saved arg m p s runs := by
  induction hSplit generalizing m saved arg with
  | none hGap =>
      have hShort := List.length_drop ▸ congrArg List.length h.rest
      refine .nil (h.call hStart fun c₁ hEsi hMem => ?_)
      exact hMem ▸ strtokFrom_none (hEsi ▸ hMem ▸ h.string) (hMem ▸ h.delimiters) h.nonempty
        (fun x hx => not_not.mp (hGap x hx)) (by omega)
  | @last base gap run hGap hSome hRun =>
      have hAll := h.length (by simp [hSome])
      have hBound : (gap ++ run).length < fuel := by omega
      rw [List.length_append] at hAll
      have hSame : cut m p s.length [(base + gap.length, base + gap.length + run.length)] = m :=
        cut_end (by change ¬base + gap.length + run.length < s.length; omega)
      have hExtract := h.extract (congrArg (gap ++ ·) (List.append_nil run).symm)
      refine .cons 0#32 (h.call hStart fun c₁ hEsi hMem => ?_) ?_ (.nil fun c => ?_)
      · have hFrom := strtokFrom_last (c := c₁) (hEsi ▸ hMem ▸ h.string) (hMem ▸ h.delimiters) h.nonempty
          (fun x hx => not_not.mp (hGap x hx)) hSome hRun hBound
        rw [hEsi, hMem, add_ofNat_add] at hFrom
        rw [hSame]
        exact hFrom
      · rw [hSame, hExtract, ← add_ofNat_add]
        exact h.string.drop
      · exact strtok_over
  | @more base gap run rest d runs hGap hSome hRun hNot _ ih =>
      have hAll := h.length (by simp)
      have hBound : (gap ++ (run ++ d :: rest)).length < fuel := by omega
      rw [List.length_append, List.length_append, List.length_cons] at hAll
      have hCut := cut_inside (m := m) (p := p) (r := (base + gap.length, base + gap.length + run.length))
        (show base + gap.length + run.length < s.length by omega)
      refine .cons (p + BitVec.ofNat 32 (base + gap.length + run.length + 1))
        (h.call hStart fun c₁ hEsi hMem => ?_) ?_ ?_
      · have hFrom := strtokFrom_more (c := c₁) (hEsi ▸ hMem ▸ h.string) (hMem ▸ h.delimiters) h.nonempty
          (fun x hx => not_not.mp (hGap x hx)) hSome hRun (not_not.mp hNot) hBound
        simp only [hEsi, hMem, add_ofNat_add, ← Nat.add_assoc] at hFrom
        rw [hCut]
        exact hFrom
      · rw [hCut, h.extract rfl]
        exact h.token
      · rw [hCut]
        exact ih h.next (Or.inr ⟨rfl, rfl⟩)

end

/-- `strtok` returns the maximal runs without delimiters one after the other, each as a string,
and 0 behind the last one. It changes nothing but the delimiters behind the runs it has returned. -/
theorem strtok_splits (hS : IsString m p s) (hT : IsString m q t) (hSome : t ≠ [])
    (hApart : Apart p (s.length + 1) q (t.length + 1)) (hFuel : s.length < fuel) (saved : BitVec 32) :
    ∃ runs, (∀ i j, (i, j) ∈ runs ↔ IsRun (· ∉ t) s i j) ∧ runs.Pairwise (fun r r' => r.2 < r'.1) ∧
      Splits fuel q saved p m p s runs := by
  obtain ⟨runs, hSplit⟩ := exists_split (P := (· ∉ t)) 0 s
  refine ⟨runs, fun i j => hSplit.mem_iff.trans ?_, hSplit.increasing.2, ?_⟩
  · constructor
    · rintro ⟨i, j, rfl, rfl, hRun⟩
      rwa [Nat.zero_add, Nat.zero_add]
    · exact fun hRun => ⟨i, j, (Nat.zero_add i).symm, (Nat.zero_add j).symm, hRun⟩
  · exact splits_between hSplit ⟨rfl, by rwa [BitVec.add_zero], hT, hSome, hApart, hS.fits⟩ hFuel
      (Or.inl (BitVec.add_zero p).symm)

end

/-- `",ab,c"` and `","`. -/
def commas : Memory :=
  layout [(0x1000#32, [0x2c#8, 0x61#8, 0x62#8, 0x2c#8, 0x63#8, 0#8]), (0x2000#32, [0x2c#8, 0#8])]

theorem strtok_splits_commas :
    ∃ runs, (∀ i j, (i, j) ∈ runs ↔ IsRun (· ∉ [0x2c#8]) [0x2c#8, 0x61#8, 0x62#8, 0x2c#8, 0x63#8] i j) ∧
      runs.Pairwise (fun r r' => r.2 < r'.1) ∧
      Splits 6 0x2000#32 0#32 0x1000#32 commas 0x1000#32 [0x2c#8, 0x61#8, 0x62#8, 0x2c#8, 0x63#8] runs :=
  strtok_splits (m := commas) (s := [0x2c#8, 0x61#8, 0x62#8, 0x2c#8, 0x63#8]) (t := [0x2c#8])
    ⟨⟨rfl, rfl, rfl, rfl, rfl, rfl, trivial⟩, by decide, by decide, by decide⟩
    ⟨⟨rfl, rfl, trivial⟩, by decide, by decide, by decide⟩ (by decide) (by unfold Apart; decide) (by decide) 0#32

end Linux011.StringC

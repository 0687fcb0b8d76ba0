import Linux011.Lib.Search

/-! `strchr`, `strrchr` and `memchr`. -/
namespace Linux011.StringC

open StringInstr

/-- The first place of a byte. -/
def First (bytes : List Byte) (x : Byte) (i : Nat) : Prop :=
  ∃ before after, bytes = before ++ x :: after ∧ x ∉ before ∧ i = before.length

/-- The last place of a byte. -/
def Last (bytes : List Byte) (x : Byte) (i : Nat) : Prop :=
  ∃ before after, bytes = before ++ x :: after ∧ x ∉ after ∧ i = before.length

/-- The address of such a place, or what is given where the byte does not occur. -/
def Located (place : List Byte → Byte → Nat → Prop) (bytes : List Byte) (x : Byte) (p none v : BitVec 32) : Prop :=
  (∃ i, place bytes x i ∧ v = p + BitVec.ofNat 32 i) ∨ (x ∉ bytes ∧ v = none)

section

variable {c : Cpu} {p none v : BitVec 32} {bytes l : List Byte} {x ch : Byte} {fuel : Nat}

theorem First.here (h : x = ch) : First (x :: l) ch 0 := ⟨[], l, by rw [h]; rfl, List.not_mem_nil, rfl⟩

/-- The first place, counted from one byte earlier. -/
theorem First.behind {i : Nat} (h : First l ch i) (hx : x ≠ ch) : First (x :: l) ch (i + 1) := by
  obtain ⟨before, after, rfl, hNot, rfl⟩ := h
  exact ⟨x :: before, after, rfl, fun hMem => (List.mem_cons.mp hMem).elim (fun hEq => hx hEq.symm) hNot, rfl⟩

theorem Last.here (h : x = ch) (hNot : ch ∉ l) : Last (x :: l) ch 0 := ⟨[], l, by rw [h]; rfl, hNot, rfl⟩

/-- The last place, counted from one byte earlier. -/
theorem Last.behind {i : Nat} (h : Last l ch i) : Last (x :: l) ch (i + 1) := by
  obtain ⟨before, after, rfl, hNot, rfl⟩ := h
  exact ⟨x :: before, after, rfl, hNot, rfl⟩

/-- The rest of the bytes lies one address further on. -/
theorem Located.behind {place : List Byte → Byte → Nat → Prop} (h : Located place l ch (p + 1#32) none v)
    (hPlace : ∀ i, place l ch i → place (x :: l) ch (i + 1)) (hx : x ≠ ch) :
    Located place (x :: l) ch p none v := by
  obtain ⟨i, hi, rfl⟩ | ⟨hNot, rfl⟩ := h
  · exact .inl ⟨i + 1, hPlace i hi, add_one_add p i⟩
  · exact .inr ⟨fun hMem => (List.mem_cons.mp hMem).elim (fun hEq => hx hEq.symm) hNot, rfl⟩

theorem ah_loaded : (c.loaded x).ah = c.ah := by
  apply BitVec.eq_of_getLsbD_eq
  intro i hi
  change ((c.eax.extractLsb' 8 24 ++ x).extractLsb' 8 8).getLsbD i = (c.eax.extractLsb' 8 8).getLsbD i
  simp only [BitVec.getLsbD_extractLsb', BitVec.getLsbD_append]
  grind

theorem ah_movbAlAh : c.movbAlAh.ah = c.al := by
  apply BitVec.eq_of_getLsbD_eq
  intro i hi
  change ((c.eax.extractLsb' 16 16 ++ (c.al ++ c.al)).extractLsb' 8 8).getLsbD i = c.al.getLsbD i
  simp only [BitVec.getLsbD_extractLsb', BitVec.getLsbD_append]
  grind

/-- Behind `lodsb` and `cmpb %ah, %al`. -/
def looked (c : Cpu) (x : Byte) : Cpu := (c.loaded x).compare (c.loaded x).al (c.loaded x).ah

theorem zf_looked : (looked c x).zf = true ↔ x = c.ah := by
  rw [looked, zf_compare, al_loaded, ah_loaded, beq_iff_eq]

theorem ah_looked : (looked c x).ah = c.ah := ah_loaded

theorem zf_testAl_looked : (looked c x).testAl.zf = true ↔ x = 0#8 := by
  have hAl : (looked c x).al = x := al_loaded
  rw [zf_testAl, hAl, beq_iff_eq]

theorem esi_looked : (looked c x).esi - 1#32 = c.esi + BitVec.ofNat 32 0 := by
  change c.esi + 1#32 - 1#32 = _
  rw [BitVec.add_sub_cancel, BitVec.add_zero]

/-- `decl` behind `movl $1`. -/
theorem one_sub_one : 1#32 - 1#32 = 0#32 := by decide

theorem strchrLoop_round (fuel : Nat) (hAt : c.mem c.esi = some x) : strchrLoop (fuel + 1) c =
    if x = c.ah then some (looked c x)
    else if x = 0#8 then some { (looked c x).testAl with esi := 1#32 }
    else strchrLoop fuel (looked c x).testAl := by
  rw [strchrLoop, lodsb_eq hAt]
  exact if_congr zf_looked rfl (if_congr zf_testAl_looked rfl rfl)

/-- The loop of `strchr` finds the first place in the rest of the string. -/
theorem strchrLoop_eq (hHolds : Holds c.mem c.esi (l ++ [0#8])) (hNoNul : 0#8 ∉ l) (hAh : c.ah = ch)
    (hFuel : l.length < fuel) : ∃ c', strchrLoop fuel c = some c' ∧
      Located First (l ++ [0#8]) ch c.esi 0#32 (c'.esi - 1#32) ∧ c'.mem = c.mem := by
  induction l generalizing c fuel with
  | nil =>
      obtain ⟨fuel, rfl⟩ := Nat.exists_eq_succ_of_ne_zero (Nat.ne_zero_of_lt hFuel)
      have hRound := strchrLoop_round fuel hHolds.1
      rw [hAh, if_pos rfl] at hRound
      by_cases hHere : (0#8 : Byte) = ch
      · exact ⟨looked c 0#8, hRound.trans (if_pos hHere), .inl ⟨0, First.here hHere, esi_looked⟩, rfl⟩
      · exact ⟨_, hRound.trans (if_neg hHere), .inr ⟨fun hMem => hHere (List.mem_singleton.mp hMem).symm, one_sub_one⟩,
          rfl⟩
  | cons x l ih =>
      obtain ⟨fuel, rfl⟩ := Nat.exists_eq_succ_of_ne_zero (Nat.ne_zero_of_lt hFuel)
      have hx : x ≠ 0#8 := fun hZero => hNoNul (hZero ▸ List.mem_cons_self)
      have hRound := strchrLoop_round fuel hHolds.1
      rw [hAh, if_neg hx] at hRound
      by_cases hHere : x = ch
      · exact ⟨looked c x, hRound.trans (if_pos hHere), .inl ⟨0, First.here hHere, esi_looked⟩, rfl⟩
      · obtain ⟨c', hRun, hLocated, hMem⟩ := ih (c := (looked c x).testAl) hHolds.2
          (fun h => hNoNul (List.mem_cons_of_mem x h)) (ah_looked.trans hAh) (Nat.lt_of_succ_lt_succ hFuel)
        exact ⟨c', (hRound.trans (if_neg hHere)).trans hRun, hLocated.behind (fun i hi => hi.behind hHere) hHere, hMem⟩

/-- Behind label 2, where the place has been noted. -/
def noted (c : Cpu) (x : Byte) : Cpu :=
  if x = c.ah then { looked c x with edx := (looked c x).esi }.decEdx else looked c x

theorem al_noted : (noted c x).al = x := by
  have hAl : (looked c x).al = x := al_loaded
  rw [noted]
  split_ifs
  · exact hAl
  · exact hAl

/-- What a round of `strrchr` leaves besides `al`. -/
theorem noted_fields : (noted c x).ah = c.ah ∧ (noted c x).esi = c.esi + 1#32 ∧ (noted c x).mem = c.mem ∧
    (noted c x).edx = if x = c.ah then c.esi else c.edx := by
  rw [noted]
  split_ifs
  · exact ⟨ah_looked, rfl, rfl, BitVec.add_sub_cancel _ _⟩
  · exact ⟨ah_looked, rfl, rfl, rfl⟩

theorem strrchrLoop_round (fuel : Nat) (hAt : c.mem c.esi = some x) : strrchrLoop (fuel + 1) c =
    if x = 0#8 then some (noted c x).testAl else strrchrLoop fuel (noted c x).testAl := by
  have hNoted : (if (looked c x).zf = true then { looked c x with edx := (looked c x).esi }.decEdx else looked c x) =
      noted c x := if_congr zf_looked rfl rfl
  have hTest : (noted c x).testAl.zf = true ↔ x = 0#8 := by
    rw [zf_testAl, al_noted, beq_iff_eq]
  rw [strrchrLoop, lodsb_eq hAt]
  simp only [Option.bind_eq_bind, Option.bind_some]
  rw [← looked, hNoted]
  exact if_congr hTest rfl rfl

/-- The loop of `strrchr` keeps in `edx` the last place seen. -/
theorem strrchrLoop_eq (hHolds : Holds c.mem c.esi (l ++ [0#8])) (hNoNul : 0#8 ∉ l) (hAh : c.ah = ch)
    (hFuel : l.length < fuel) : ∃ c', strrchrLoop fuel c = some c' ∧
      Located Last (l ++ [0#8]) ch c.esi c.edx c'.edx ∧ c'.mem = c.mem := by
  induction l generalizing c fuel with
  | nil =>
      obtain ⟨fuel, rfl⟩ := Nat.exists_eq_succ_of_ne_zero (Nat.ne_zero_of_lt hFuel)
      obtain ⟨-, -, hMem, hEdx⟩ := noted_fields (c := c) (x := 0#8)
      refine ⟨(noted c 0#8).testAl, (strrchrLoop_round fuel hHolds.1).trans (if_pos rfl), ?_, hMem⟩
      change Located Last _ ch c.esi c.edx (noted c 0#8).edx
      rw [hEdx, hAh]
      split_ifs with hHere
      · exact .inl ⟨0, Last.here hHere List.not_mem_nil, (BitVec.add_zero _).symm⟩
      · exact .inr ⟨fun hMem => hHere (List.mem_singleton.mp hMem).symm, rfl⟩
  | cons x l ih =>
      obtain ⟨fuel, rfl⟩ := Nat.exists_eq_succ_of_ne_zero (Nat.ne_zero_of_lt hFuel)
      have hx : x ≠ 0#8 := fun hZero => hNoNul (hZero ▸ List.mem_cons_self)
      obtain ⟨hAh₁, hEsi, hMem, hEdx⟩ := noted_fields (c := c) (x := x)
      have hRest : Holds (noted c x).mem (noted c x).esi (l ++ [0#8]) := by
        rw [hMem, hEsi]
        exact hHolds.2
      obtain ⟨c', hEnd, hLocated, hSame⟩ := ih (c := (noted c x).testAl) hRest
        (fun h => hNoNul (List.mem_cons_of_mem x h)) (hAh₁.trans hAh) (Nat.lt_of_succ_lt_succ hFuel)
      refine ⟨c', ((strrchrLoop_round fuel hHolds.1).trans (if_neg hx)).trans hEnd, ?_, hSame.trans hMem⟩
      change Located Last _ ch (noted c x).esi (noted c x).edx c'.edx at hLocated
      rw [hEsi, hEdx, hAh] at hLocated
      by_cases hHere : x = ch
      · rw [if_pos hHere] at hLocated
        -- Only where the rest has no such byte this one counts.
        obtain ⟨i, hi, hAddr⟩ | ⟨hNot, hAddr⟩ := hLocated
        · exact .inl ⟨i + 1, hi.behind, hAddr.trans (add_one_add _ i)⟩
        · exact .inl ⟨0, Last.here hHere hNot, hAddr.trans (BitVec.add_zero _).symm⟩
      · rw [if_neg hHere] at hLocated
        exact hLocated.behind (fun _ hi => hi.behind) hHere

/-- `memchr` finds the first place in a region, an empty one included. -/
theorem memchr_eq {count : BitVec 32} (hHolds : Holds c.mem p bytes) (hCount : count.toNat = bytes.length) :
    ∃ v c', memchr c p ch count = some (v, c') ∧ Located First bytes ch p 0#32 v ∧ c'.mem = c.mem := by
  by_cases hZero : count = 0#32
  · have hNil : bytes = [] := List.length_eq_zero_iff.mp (by rw [← hCount, hZero]; rfl)
    refine ⟨0#32, c, if_pos hZero, .inr ⟨?_, rfl⟩, rfl⟩
    rw [hNil]
    exact List.not_mem_nil
  rw [memchr, if_neg hZero]
  have hAl : ({ c.setAl ch with edi := p, ecx := count } : Cpu).al = ch := al_setAl c
  by_cases hMem : ch ∈ bytes
  · obtain ⟨before, after, rfl, hNot⟩ := List.eq_append_cons_of_mem hMem
    have hStart : Holds c.mem p (before ++ [ch]) := by
      rw [List.append_cons, holds_append] at hHolds
      exact hHolds.1
    have hLess : before.length < count.toNat := by
      rw [hCount, List.length_append, List.length_cons]
      omega
    obtain ⟨c₁, hRun, hZf, hEdi, hSame⟩ : ∃ c₁, { c.setAl ch with edi := p, ecx := count }.repneScasb = some c₁ ∧
        c₁.zf = true ∧ c₁.edi = p + BitVec.ofNat 32 (before.length + 1) ∧ c₁.mem = c.mem :=
      ⟨_, repneScasbLoop_found (hAl.symm ▸ hStart) (hAl.symm ▸ hNot) hLess, by rw [zf_compare, beq_self_eq_true],
        rfl, rfl⟩
    rw [hRun]
    simp only [Option.bind_eq_bind, Option.bind_some, if_pos hZf]
    refine ⟨_, _, rfl, .inl ⟨before.length, ⟨before, after, rfl, hNot, rfl⟩, ?_⟩, hSame⟩
    change c₁.edi - 1#32 = _
    rw [hEdi, BitVec.ofNat_add, ← BitVec.add_assoc, BitVec.add_sub_cancel]
  · have hSome : bytes ≠ [] := by
      rintro rfl
      exact hZero (BitVec.eq_of_toNat_eq hCount)
    obtain ⟨edi, ecx, sf, of, hRun⟩ := repneScasb_mem (c := { c.setAl ch with edi := p, ecx := count }) hHolds hSome
      hCount
    rw [hRun, hAl]
    simp only [Option.bind_eq_bind, Option.bind_some, decide_eq_true_eq, if_neg hMem]
    exact ⟨_, _, rfl, .inr ⟨hMem, one_sub_one⟩, rfl⟩

end

/-- `strchr` finds the first place of a byte in a string, `strrchr` the last one, the NUL included, and
`memchr` the first one among the bytes of a region; where there is none they give 0. -/
theorem searches_find (c : Cpu) {p q count : BitVec 32} {s bytes : List Byte} {fuel : Nat} (ch : Byte)
    (hS : IsString c.mem p s) (hFuel : s.length < fuel) (hBytes : Holds c.mem q bytes)
    (hCount : count.toNat = bytes.length) :
    (∃ v c', strchr fuel c p ch = some (v, c') ∧ Located First (s ++ [0#8]) ch p 0#32 v ∧ c'.mem = c.mem) ∧
      (∃ v c', strrchr fuel c p ch = some (v, c') ∧ Located Last (s ++ [0#8]) ch p 0#32 v ∧ c'.mem = c.mem) ∧
      ∃ v c', memchr c q ch count = some (v, c') ∧ Located First bytes ch q 0#32 v ∧ c'.mem = c.mem := by
  refine ⟨?_, ?_, memchr_eq hBytes hCount⟩
  · have hAl : ({ c.setAl ch with esi := p } : Cpu).al = ch := al_setAl c
    have hAh : ({ c.setAl ch with esi := p } : Cpu).movbAlAh.ah = ch := by rw [ah_movbAlAh, hAl]
    obtain ⟨c', hRun, hLocated, hMem⟩ := strchrLoop_eq hS.holds hS.noNul hAh hFuel
    refine ⟨c'.esi - 1#32, { c' with eax := c'.esi }.decEax, ?_, hLocated, hMem⟩
    rw [strchr, hRun]
    rfl
  · have hAl : ({ c.setAl ch with edx := 0#32, esi := p } : Cpu).al = ch := al_setAl c
    have hAh : ({ c.setAl ch with edx := 0#32, esi := p } : Cpu).movbAlAh.ah = ch := by rw [ah_movbAlAh, hAl]
    obtain ⟨c', hRun, hLocated, hMem⟩ := strrchrLoop_eq hS.holds hS.noNul hAh hFuel
    refine ⟨c'.edx, c', ?_, hLocated, hMem⟩
    rw [strrchr, hRun]
    rfl

/-- The byte `b` in `"bab"`. -/
theorem searches_find_bab : ∃ v c', strrchr 4 (.blank (layout [(0x1000#32, [0x62#8, 0x61#8, 0x62#8, 0#8])]))
    0x1000#32 0x62#8 = some (v, c') ∧ Located Last [0x62#8, 0x61#8, 0x62#8, 0#8] 0x62#8 0x1000#32 0#32 v := by
  have hS : IsString (layout [(0x1000#32, [0x62#8, 0x61#8, 0x62#8, 0#8])]) 0x1000#32 [0x62#8, 0x61#8, 0x62#8] :=
    ⟨⟨rfl, rfl, rfl, rfl, trivial⟩, by decide, by decide, by decide⟩
  obtain ⟨-, ⟨v, c', hRun, hLocated, -⟩, -⟩ := searches_find (.blank _) 0x62#8 hS
    (show [0x62#8, 0x61#8, 0x62#8].length < 4 by decide) (show Holds _ 0x1000#32 [0x62#8] from ⟨rfl, trivial⟩)
    (show (1#32).toNat = 1 by decide)
  exact ⟨v, c', hRun, hLocated⟩

end Linux011.StringC

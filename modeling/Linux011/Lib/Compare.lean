import Linux011.Lib.Copies
import Linux011.Library.FirstDifference

/-! `strcmp`, `strncmp` and `memcmp`. -/
namespace Linux011.StringC

open StringInstr FirstDifference

/-- What the comparisons make of the first bytes that differ: the one of `cs` and the one of
`ct`. -/
def verdict : Option (Byte × Byte) → BitVec 32
  | none => 0#32
  | some (x, y) => if y.slt x then 1#32 else -1#32

section

variable {c : Cpu} {a b : List Byte} {x y : Byte} {n fuel : Nat}

theorem eax_differs : (differs c).eax = if c.less then 1#32 else -1#32 := by
  change (if c.less then { c with eax := 1#32 } else { c with eax := 1#32 }.negEax).eax = _
  split_ifs <;> rfl

/-- Behind `lodsb` and `scasb`. -/
def met (c : Cpu) (x y : Byte) : Cpu := (c.loaded y).matched x

theorem zf_met : (met c x y).zf = true ↔ x = y := by
  rw [met, zf_matched, al_loaded, eq_comm]

theorem eax_met (h : x ≠ y) : (differs (met c x y)).eax = verdict (firstDifference (x :: a) (y :: b)) := by
  have hLess : (met c x y).less = y.slt x := by
    change ((c.loaded y).compare (c.loaded y).al x).less = _
    rw [al_loaded, less_compare]
  rw [eax_differs, hLess, firstDifference_cons_of_ne h]
  rfl

theorem zf_testAl_met : (met c x y).testAl.zf = true ↔ y = 0#8 := by
  change ((c.loaded y).al == 0#8) = true ↔ _
  rw [al_loaded, beq_iff_eq]

theorem strcmpLoop_round (hX : c.mem c.edi = some x) (hY : c.mem c.esi = some y) : strcmpLoop (fuel + 1) c =
    if x = y then
      if y = 0#8 then some (met c x y).testAl.xorEax else strcmpLoop fuel (met c x y).testAl
    else some (differs (met c x y)) := by
  have hScan : (c.loaded y).scasb = some (met c x y) := scasb_eq hX
  rw [strcmpLoop, lodsb_eq hY]
  simp only [Option.bind_eq_bind, Option.bind_some, hScan]
  exact if_congr zf_met (if_congr zf_testAl_met rfl rfl) rfl

theorem strcmpLoop_eq (hA : Holds c.mem c.edi (a ++ [0#8])) (hB : Holds c.mem c.esi (b ++ [0#8])) (hNoNul : 0#8 ∉ a)
    (hNoNul' : 0#8 ∉ b) (hFuel : a.length < fuel) :
    ∃ c', strcmpLoop fuel c = some c' ∧ c'.eax = verdict (firstDifference (a ++ [0#8]) (b ++ [0#8])) := by
  induction fuel generalizing c a b with
  | zero => exact absurd hFuel (Nat.not_lt_zero _)
  | succ fuel ih =>
      cases a with
      | nil =>
          cases b with
          | nil => exact ⟨_, strcmpLoop_round hA.1 hB.1, rfl⟩
          | cons y b =>
              have hy : 0#8 ≠ y := fun h => hNoNul' (h ▸ List.mem_cons_self)
              exact ⟨_, (strcmpLoop_round hA.1 hB.1).trans (if_neg hy), eax_met hy⟩
      | cons x a =>
          have hx : x ≠ 0#8 := fun h => hNoNul (h ▸ List.mem_cons_self)
          cases b with
          | nil => exact ⟨_, (strcmpLoop_round hA.1 hB.1).trans (if_neg hx), eax_met hx⟩
          | cons y b =>
              rw [strcmpLoop_round hA.1 hB.1]
              by_cases hSame : x = y
              · rw [if_pos hSame, if_neg (hSame ▸ hx), List.cons_append, List.cons_append, hSame,
                  firstDifference_cons_self]
                exact ih hA.2 hB.2 (fun h => hNoNul (List.mem_cons_of_mem _ h))
                  (fun h => hNoNul' (List.mem_cons_of_mem _ h)) (Nat.lt_of_succ_lt_succ hFuel)
              · rw [if_neg hSame]
                exact ⟨_, rfl, eax_met hSame⟩

theorem strncmpLoop_round (hMore : ¬c.decEcx.sf = true) (hX : c.mem c.edi = some x) (hY : c.mem c.esi = some y) :
    strncmpLoop (fuel + 1) c =
      if x = y then
        if y = 0#8 then some (met c.decEcx x y).testAl.xorEax else strncmpLoop fuel (met c.decEcx x y).testAl
      else some (differs (met c.decEcx x y)) := by
  have hLoad : c.decEcx.lodsb = some (c.decEcx.loaded y) := lodsb_eq hY
  have hScan : (c.decEcx.loaded y).scasb = some (met c.decEcx x y) := scasb_eq hX
  rw [strncmpLoop]
  simp only [if_neg hMore, hLoad, hScan, Option.bind_eq_bind, Option.bind_some]
  exact if_congr zf_met (if_congr zf_testAl_met rfl rfl) rfl

/-- Only the first `n` bytes are looked at, and none behind a terminator. -/
theorem strncmpLoop_eq (hA : Holds c.mem c.edi ((a ++ [0#8]).take n)) (hB : Holds c.mem c.esi ((b ++ [0#8]).take n))
    (hNoNul : 0#8 ∉ a) (hNoNul' : 0#8 ∉ b) (hEcx : c.ecx = BitVec.ofNat 32 n) (hn : n < 2 ^ 31)
    (hFuel : a.length < fuel) : ∃ c', strncmpLoop fuel c = some c' ∧
      c'.eax = verdict (firstDifference ((a ++ [0#8]).take n) ((b ++ [0#8]).take n)) := by
  induction fuel generalizing c a b n with
  | zero => exact absurd hFuel (Nat.not_lt_zero _)
  | succ fuel ih =>
      cases n with
      | zero =>
          refine ⟨c.decEcx.xorEax, if_pos ((sf_decEcx hEcx hn).mpr rfl), ?_⟩
          rw [List.take_zero]
          rfl
      | succ n =>
          have hMore : ¬c.decEcx.sf = true := fun h => Nat.succ_ne_zero n ((sf_decEcx hEcx hn).mp h)
          cases a with
          | nil =>
              cases b with
              | nil => exact ⟨_, strncmpLoop_round hMore hA.1 hB.1, by rw [firstDifference_self]; rfl⟩
              | cons y b =>
                  have hy : 0#8 ≠ y := fun h => hNoNul' (h ▸ List.mem_cons_self)
                  exact ⟨_, (strncmpLoop_round hMore hA.1 hB.1).trans (if_neg hy), eax_met hy⟩
          | cons x a =>
              have hx : x ≠ 0#8 := fun h => hNoNul (h ▸ List.mem_cons_self)
              cases b with
              | nil => exact ⟨_, (strncmpLoop_round hMore hA.1 hB.1).trans (if_neg hx), eax_met hx⟩
              | cons y b =>
                  rw [strncmpLoop_round hMore hA.1 hB.1]
                  by_cases hSame : x = y
                  · rw [if_pos hSame, if_neg (hSame ▸ hx), List.cons_append, List.cons_append, List.take_succ_cons,
                      List.take_succ_cons, hSame, firstDifference_cons_self]
                    exact ih hA.2 hB.2 (fun h => hNoNul (List.mem_cons_of_mem _ h))
                      (fun h => hNoNul' (List.mem_cons_of_mem _ h)) (ecx_decEcx hEcx) (Nat.lt_of_succ_lt hn)
                      (Nat.lt_of_succ_lt_succ hFuel)
                  · rw [if_neg hSame]
                    exact ⟨_, rfl, eax_met hSame⟩

theorem memcmp_eq {p q count : BitVec 32} (hA : Holds c.mem p a) (hB : Holds c.mem q b)
    (hLength : a.length = count.toNat) (hLength' : b.length = count.toNat) (hSome : 0 < count.toNat) :
    ∃ c', memcmp c p q count = some (verdict (firstDifference a b), c') := by
  rw [memcmp]
  cases hCase : firstDifference a b with
  | none =>
      obtain rfl := eq_of_firstDifference hCase (hLength.trans hLength'.symm)
      obtain ⟨esi, edi, ecx, sf, of, hRun⟩ := repeCmpsb_equal
        (c := { c with eax := 0#32, edi := p, esi := q, ecx := count }) hB hA (fun h => by simp [h] at hLength; omega)
        hLength.symm
      rw [hRun]
      exact ⟨_, rfl⟩
  | some bytes =>
      obtain ⟨x, y⟩ := bytes
      obtain ⟨hNe, before, rest, rest', hBefore, hBefore'⟩ := firstDifference_eq_some hCase
      have hX : Holds c.mem p (before ++ [x]) := by
        rw [hBefore, List.append_cons] at hA
        exact (holds_append.mp hA).1
      have hY : Holds c.mem q (before ++ [y]) := by
        rw [hBefore', List.append_cons] at hB
        exact (holds_append.mp hB).1
      have hCount : before.length < count.toNat := by
        rw [← hLength, hBefore]
        simp
      obtain ⟨c', hRun, hZf, hLess⟩ : ∃ c', { c with eax := 0#32, edi := p, esi := q, ecx := count }.repeCmpsb =
          some c' ∧ ¬c'.zf = true ∧ c'.less = y.slt x := by
        refine ⟨_, repeCmpsbLoop_differ (c := { c with eax := 0#32, edi := p, esi := q, ecx := count }) hY hX hNe.symm
          hCount, ?_, less_compare c⟩
        change ¬(c.compare y x).zf = true
        rw [zf_compare, beq_iff_eq]
        exact hNe.symm
      refine ⟨differs c', ?_⟩
      rw [hRun, Option.bind_eq_bind, Option.bind_some]
      simp only [if_neg hZf, eax_differs, hLess]
      rfl

/-- With nothing to compare, `memcmp` looks at the flags of earlier code. -/
theorem memcmp_zero (c : Cpu) (p q : BitVec 32) :
    ∃ c', memcmp c p q 0#32 = some (if c.zf then 0#32 else if c.less then 1#32 else -1#32, c') := by
  rw [memcmp]
  change ∃ c', some (_, _) = _
  by_cases hZf : c.zf = true
  · exact ⟨_, by simp only [if_pos hZf]; rfl⟩
  · refine ⟨differs { c with eax := 0#32, edi := p, esi := q, ecx := 0#32 }, ?_⟩
    simp only [if_neg hZf, eax_differs]
    rfl

end

/-- In memory `m` the function returns `v`, whatever registers and flags hold. -/
def Gives (f : Cpu → Option (BitVec 32 × Cpu)) (m : Memory) (v : BitVec 32) : Prop :=
  ∀ c : Cpu, c.mem = m → ∃ c', f c = some (v, c')

theorem Gives.unique {f : Cpu → Option (BitVec 32 × Cpu)} {m : Memory} {v w : BitVec 32} (hv : Gives f m v)
    (hw : Gives f m w) : v = w := by
  obtain ⟨c, hRun⟩ := hv (.blank m) rfl
  obtain ⟨c', hRun'⟩ := hw (.blank m) rfl
  exact (Prod.mk.inj (Option.some.inj (hRun.symm.trans hRun'))).1

section

variable {m : Memory} {p q n : BitVec 32} {a b x y : List Byte} {fuel : Nat}

theorem strcmp_gives (hA : IsString m p a) (hB : IsString m q b) (hFuel : a.length < fuel) :
    Gives (strcmp fuel · p q) m (verdict (firstDifference (a ++ [0#8]) (b ++ [0#8]))) := by
  rintro c rfl
  obtain ⟨c', hRun, hEax⟩ := strcmpLoop_eq (c := { c with edi := p, esi := q }) hA.holds hB.holds hA.noNul hB.noNul
    hFuel
  refine ⟨c', ?_⟩
  beta_reduce
  rw [strcmp, hRun, ← hEax]
  rfl

theorem strncmp_gives (hA : Holds m p ((a ++ [0#8]).take n.toNat)) (hB : Holds m q ((b ++ [0#8]).take n.toNat))
    (hNoNul : 0#8 ∉ a) (hNoNul' : 0#8 ∉ b) (hCount : 0 ≤ n.toInt) (hFuel : a.length < fuel) :
    Gives (strncmp fuel · p q n) m (verdict (firstDifference (a.take n.toNat ++ [0#8]) (b.take n.toNat ++ [0#8]))) := by
  rintro c rfl
  obtain ⟨c', hRun, hEax⟩ := strncmpLoop_eq (c := { c with edi := p, esi := q, ecx := n }) hA hB hNoNul hNoNul'
    (by rw [BitVec.ofNat_toNat, BitVec.setWidth_eq]) (count_lt hCount) hFuel
  rw [firstDifference_take hNoNul hNoNul'] at hEax
  refine ⟨c', ?_⟩
  beta_reduce
  rw [strncmp, hRun, ← hEax]
  rfl

theorem memcmp_gives (hX : Holds m p x) (hY : Holds m q y) (hLength : x.length = n.toNat)
    (hLength' : y.length = n.toNat) (hSome : 0 < n.toNat) :
    Gives (memcmp · p q n) m (verdict (firstDifference x y)) := by
  rintro c rfl
  exact memcmp_eq hX hY hLength hLength' hSome

/-- No value is right for all flags. -/
theorem memcmp_zero_gives (v : BitVec 32) : ¬Gives (memcmp · p q 0#32) m v := by
  intro h
  obtain ⟨c, hRun⟩ := h { Cpu.blank m with zf := true } rfl
  obtain ⟨c', hRun'⟩ := h (.blank m) rfl
  obtain ⟨d, hZero⟩ := memcmp_zero { Cpu.blank m with zf := true } p q
  obtain ⟨d', hOne⟩ := memcmp_zero (.blank m) p q
  have hFirst : v = 0#32 := (Prod.mk.inj (Option.some.inj (hRun.symm.trans hZero))).1
  have hSecond : v = -1#32 := (Prod.mk.inj (Option.some.inj (hRun'.symm.trans hOne))).1
  exact absurd (hFirst.symm.trans hSecond) (by decide)

end

section

variable {a b d l l' : List Byte}

theorem verdict_eq_zero (o : Option (Byte × Byte)) : verdict o = 0#32 ↔ o = none := by
  cases o with
  | none => exact iff_of_true rfl rfl
  | some bytes =>
      refine iff_of_false ?_ (Option.some_ne_none _)
      rw [verdict]
      split_ifs <;> decide

theorem verdict_negative {o : Option (Byte × Byte)} :
    (verdict o).toInt < 0 ↔ ∃ x y, o = some (x, y) ∧ ¬y.slt x = true := by
  cases o with
  | none => simp [verdict]
  | some bytes =>
      obtain ⟨x, y⟩ := bytes
      rw [verdict]
      by_cases h : y.slt x = true
      · simp [h]
      · simp [h]

theorem neg_verdict (l l' : List Byte) : verdict (firstDifference l l') = -verdict (firstDifference l' l) := by
  rw [firstDifference_swap l l']
  cases h : firstDifference l l' with
  | none => rfl
  | some bytes =>
      obtain ⟨x, y⟩ := bytes
      have hNe := (firstDifference_eq_some h).1
      have hNe' : x.toInt ≠ y.toInt := fun hEq => hNe (BitVec.eq_of_toInt_eq hEq)
      simp only [verdict, Option.map_some, Prod.swap_prod_mk, BitVec.slt_iff_toInt_lt]
      by_cases hLess : y.toInt < x.toInt
      · rw [if_pos hLess, if_neg (by omega)]
        rfl
      · rw [if_neg hLess, if_pos (by omega)]

/-- The order of the comparisons: lexicographic, with the bytes as signed numbers. -/
theorem verdict_negative_iff (l l' : List Byte) (hLength : firstDifference l l' = none → l = l') :
    (verdict (firstDifference l l')).toInt < 0 ↔ l.map BitVec.toInt < l'.map BitVec.toInt := by
  have hMap := firstDifference_map (f := BitVec.toInt) (fun _ _ => BitVec.eq_of_toInt_eq) l l'
  rw [verdict_negative]
  cases h : firstDifference l l' with
  | none =>
      rw [hLength h]
      simp
  | some bytes =>
      obtain ⟨x, y⟩ := bytes
      have hNe := (firstDifference_eq_some h).1
      have hNe' : x.toInt ≠ y.toInt := fun hEq => hNe (BitVec.eq_of_toInt_eq hEq)
      rw [h] at hMap
      rw [lt_iff_of_difference (fun z : Int => lt_irrefl z) hMap]
      simp only [Option.some.injEq, Prod.mk.injEq, BitVec.slt_iff_toInt_lt]
      constructor
      · rintro ⟨_, _, ⟨rfl, rfl⟩, hLess⟩
        omega
      · exact fun hLess => ⟨x, y, ⟨rfl, rfl⟩, by omega⟩

/-- Where the two lists first differ, both bytes are ASCII or neither is. -/
def SameHalf (l l' : List Byte) : Prop := ∀ x y, firstDifference l l' = some (x, y) → x.msb = y.msb

/-- Signed and unsigned order agree within one half of the bytes, and only there. -/
theorem signed_iff_unsigned {x y : Byte} (h : x ≠ y) : (¬y.slt x = true ↔ x < y) ↔ x.msb = y.msb := by
  have hX := BitVec.toInt_eq_toNat_cond x
  have hY := BitVec.toInt_eq_toNat_cond y
  have hNe : x.toNat ≠ y.toNat := fun hEq => h (BitVec.eq_of_toNat_eq hEq)
  rw [BitVec.slt_iff_toInt_lt, BitVec.lt_def, BitVec.msb_eq_decide, BitVec.msb_eq_decide, decide_eq_decide]
  split_ifs at hX hY <;> omega

theorem unsigned_iff_sameHalf (hEq : firstDifference l l' = none → l = l') :
    ((verdict (firstDifference l l')).toInt < 0 ↔ l < l') ↔ SameHalf l l' := by
  rw [verdict_negative, SameHalf]
  cases h : firstDifference l l' with
  | none =>
      rw [hEq h]
      simp
  | some bytes =>
      obtain ⟨x, y⟩ := bytes
      rw [lt_iff_of_difference (fun z => BitVec.lt_irrefl z) h]
      simpa using signed_iff_unsigned (firstDifference_eq_some h).1

theorem string_lt_iff (ha : 0#8 ∉ a) (hb : 0#8 ∉ b) : a ++ [0#8] < b ++ [0#8] ↔ a < b := by
  refine terminated_lt_iff (fun z => BitVec.lt_irrefl z) (fun x hx => ?_) ha hb
  have hPos : x.toNat ≠ 0 := fun hZero => hx (BitVec.eq_of_toNat_eq hZero)
  exact ⟨show 0 < x.toNat by omega, show ¬x.toNat < 0 by omega⟩

theorem unsigned_string_iff (ha : 0#8 ∉ a) (hb : 0#8 ∉ b) :
    ((verdict (firstDifference (a ++ [0#8]) (b ++ [0#8]))).toInt < 0 ↔ a < b) ↔
      SameHalf (a ++ [0#8]) (b ++ [0#8]) := by
  rw [← string_lt_iff ha hb]
  exact unsigned_iff_sameHalf fun h => by rw [(firstDifference_terminated ha hb).mp h]

/-- A difference within the first `n` bytes is the first difference. -/
theorem SameHalf.take (ha : 0#8 ∉ a) (hb : 0#8 ∉ b) (h : SameHalf (a ++ [0#8]) (b ++ [0#8])) (n : Nat) :
    SameHalf (a.take n ++ [0#8]) (b.take n ++ [0#8]) :=
  fun x y hDifference => h x y (firstDifference_of_take ha hb hDifference)

theorem verdict_trans (ha : 0#8 ∉ a) (hb : 0#8 ∉ b) (hd : 0#8 ∉ d)
    (h : (verdict (firstDifference (a ++ [0#8]) (b ++ [0#8]))).toInt < 0)
    (h' : (verdict (firstDifference (b ++ [0#8]) (d ++ [0#8]))).toInt < 0) :
    (verdict (firstDifference (a ++ [0#8]) (d ++ [0#8]))).toInt < 0 := by
  have hEq {l l' : List Byte} (hl : 0#8 ∉ l) (hl' : 0#8 ∉ l')
      (hNone : firstDifference (l ++ [0#8]) (l' ++ [0#8]) = none) : l ++ [0#8] = l' ++ [0#8] := by
    rw [(firstDifference_terminated hl hl').mp hNone]
  rw [verdict_negative_iff _ _ (hEq ha hb)] at h
  rw [verdict_negative_iff _ _ (hEq hb hd)] at h'
  rw [verdict_negative_iff _ _ (hEq ha hd)]
  exact List.lt_trans h h'

end

/-- Three strings, the first `n` bytes of two of them as strings of their own, and two buffers
of `n` bytes without a NUL. -/
structure Operands where
  mem : Memory
  cuts : Memory
  n : BitVec 32
  count : 0 ≤ n.toInt
  a : List Byte
  b : List Byte
  d : List Byte
  x : List Byte
  y : List Byte
  atA : BitVec 32
  atB : BitVec 32
  atD : BitVec 32
  atX : BitVec 32
  atY : BitVec 32
  cutA : BitVec 32
  cutB : BitVec 32
  isA : IsString mem atA a
  isB : IsString mem atB b
  isD : IsString mem atD d
  isCutA : IsString cuts cutA (a.take n.toNat)
  isCutB : IsString cuts cutB (b.take n.toNat)
  holdsX : Holds mem atX x
  holdsY : Holds mem atY y
  lengthX : x.length = n.toNat
  lengthY : y.length = n.toNat
  noNulX : 0#8 ∉ x
  noNulY : 0#8 ∉ y

/-- The comparison functions are one order, that of `unsigned char`, and look at nothing but
memory. -/
structure Consistent (fuel : Nat) (o : Operands) : Prop where
  strcmp : ∃ ab ba bd ad, Gives (strcmp fuel · o.atA o.atB) o.mem ab ∧ Gives (strcmp fuel · o.atB o.atA) o.mem ba ∧
    Gives (strcmp fuel · o.atB o.atD) o.mem bd ∧ Gives (strcmp fuel · o.atA o.atD) o.mem ad ∧
    (ab = 0#32 ↔ o.a = o.b) ∧ ab = -ba ∧ (ab.toInt < 0 → bd.toInt < 0 → ad.toInt < 0) ∧ (ab.toInt < 0 ↔ o.a < o.b)
  strncmp : ∃ v, Gives (strncmp fuel · o.atA o.atB o.n) o.mem v ∧ Gives (StringC.strcmp fuel · o.cutA o.cutB) o.cuts v ∧
    (v.toInt < 0 ↔ o.a.take o.n.toNat < o.b.take o.n.toNat)
  memcmp : ∃ v w, Gives (memcmp · o.atX o.atY o.n) o.mem v ∧ Gives (StringC.strncmp fuel · o.atX o.atY o.n) o.mem w ∧
    v.toInt.sign = w.toInt.sign ∧ (o.n = 0#32 → v = 0#32) ∧ (v.toInt < 0 ↔ o.x < o.y)

section

variable {fuel : Nat} {o : Operands}

/-- `strncmp` on the buffers is what `memcmp` is. -/
theorem Operands.strncmp_buffers (hFuel : o.x.length < fuel) :
    Gives (StringC.strncmp fuel · o.atX o.atY o.n) o.mem (verdict (firstDifference o.x o.y)) := by
  have hCut (l : List Byte) (hLength : l.length = o.n.toNat) : (l ++ [0#8]).take o.n.toNat = l := by
    rw [List.take_left' hLength]
  have hGives := @strncmp_gives o.mem o.atX o.atY o.n o.x o.y fuel ((hCut o.x o.lengthX).symm ▸ o.holdsX)
    ((hCut o.y o.lengthY).symm ▸ o.holdsY) o.noNulX o.noNulY o.count hFuel
  rwa [← firstDifference_take o.noNulX o.noNulY, hCut o.x o.lengthX, hCut o.y o.lengthY] at hGives

theorem Operands.take_holds {m : Memory} {p : BitVec 32} {l : List Byte} (h : IsString m p l) (n : Nat) :
    Holds m p ((l ++ [0#8]).take n) := by
  have hHolds := h.holds
  rw [← List.take_append_drop n (l ++ [0#8]), holds_append] at hHolds
  exact hHolds.1

/-- Signed bytes and a count of 0 are all that is wrong. -/
theorem comparisons_consistent_iff (hA : o.a.length < fuel) (hB : o.b.length < fuel) (hX : o.x.length < fuel) :
    Consistent fuel o ↔
      0 < o.n.toNat ∧ SameHalf (o.a ++ [0#8]) (o.b ++ [0#8]) ∧ SameHalf o.x o.y := by
  have hAB := strcmp_gives o.isA o.isB hA
  have hEqual : firstDifference o.x o.y = none → o.x = o.y := fun h =>
    eq_of_firstDifference h (o.lengthX.trans o.lengthY.symm)
  constructor
  · intro h
    obtain ⟨ab, _, _, _, hAB', _, _, _, _, _, _, hOrder⟩ := h.strcmp
    obtain ⟨v, _, hMemcmp, _, _, _, hOrder'⟩ := h.memcmp
    have hSome : 0 < o.n.toNat := by
      by_contra hNone
      have hZero : o.n = 0#32 := BitVec.eq_of_toNat_eq (show o.n.toNat = 0 by omega)
      rw [hZero] at hMemcmp
      exact memcmp_zero_gives v hMemcmp
    rw [hAB'.unique hAB] at hOrder
    rw [hMemcmp.unique (memcmp_gives o.holdsX o.holdsY o.lengthX o.lengthY hSome)] at hOrder'
    exact ⟨hSome, (unsigned_string_iff o.isA.noNul o.isB.noNul).mp hOrder, (unsigned_iff_sameHalf hEqual).mp hOrder'⟩
  · rintro ⟨hSome, hHalf, hHalf'⟩
    refine ⟨⟨_, _, _, _, hAB, strcmp_gives o.isB o.isA hB, strcmp_gives o.isB o.isD hB, strcmp_gives o.isA o.isD hA,
      ?_, neg_verdict _ _, verdict_trans o.isA.noNul o.isB.noNul o.isD.noNul,
      (unsigned_string_iff o.isA.noNul o.isB.noNul).mpr hHalf⟩, ⟨_, ?_, strcmp_gives o.isCutA o.isCutB ?_, ?_⟩,
      ⟨_, _, memcmp_gives o.holdsX o.holdsY o.lengthX o.lengthY hSome, o.strncmp_buffers hX, rfl, ?_,
        (unsigned_iff_sameHalf hEqual).mpr hHalf'⟩⟩
    · rw [verdict_eq_zero, firstDifference_terminated o.isA.noNul o.isB.noNul]
    · exact strncmp_gives (Operands.take_holds o.isA _) (Operands.take_holds o.isB _) o.isA.noNul o.isB.noNul o.count hA
    · rw [List.length_take]
      omega
    · exact (unsigned_string_iff o.isCutA.noNul o.isCutB.noNul).mpr (hHalf.take o.isA.noNul o.isB.noNul _)
    · intro hZero
      rw [hZero] at hSome
      exact absurd hSome (by decide)

end

theorem isString_singleton {m : Memory} {p : BitVec 32} {x : Byte} (hByte : m p = some x)
    (hNul : m (p + 1#32) = some 0#8) (hx : x ≠ 0#8) (hNull : p ≠ 0#32) (hFits : p.toNat + 1 < 2 ^ 32) :
    IsString m p [x] :=
  ⟨⟨hByte, hNul, trivial⟩, by simpa using hx.symm, hNull, hFits⟩

/-- Strings of one byte, which are buffers of one byte as well. -/
def oneByte (x y : Byte) (hx : x ≠ 0#8) (hy : y ≠ 0#8) : Operands where
  mem := layout [(0x1000#32, [x, 0#8]), (0x2000#32, [y, 0#8])]
  cuts := layout [(0x1000#32, [x, 0#8]), (0x2000#32, [y, 0#8])]
  n := 1#32
  count := by decide
  a := [x]
  b := [y]
  d := [y]
  x := [x]
  y := [y]
  atA := 0x1000#32
  atB := 0x2000#32
  atD := 0x2000#32
  atX := 0x1000#32
  atY := 0x2000#32
  cutA := 0x1000#32
  cutB := 0x2000#32
  isA := isString_singleton rfl rfl hx (by decide) (by decide)
  isB := isString_singleton rfl rfl hy (by decide) (by decide)
  isD := isString_singleton rfl rfl hy (by decide) (by decide)
  isCutA := isString_singleton rfl rfl hx (by decide) (by decide)
  isCutB := isString_singleton rfl rfl hy (by decide) (by decide)
  holdsX := ⟨rfl, trivial⟩
  holdsY := ⟨rfl, trivial⟩
  lengthX := rfl
  lengthY := rfl
  noNulX := by simpa using hx.symm
  noNulY := by simpa using hy.symm

/-- `"a"` and `"b"`. -/
theorem comparisons_consistent_ascii : Consistent 2 (oneByte 0x61#8 0x62#8 (by decide) (by decide)) := by
  refine (comparisons_consistent_iff (by decide) (by decide) (by decide)).mpr ⟨by decide, ?_, ?_⟩
  · rintro x y ⟨⟩
    rfl
  · rintro x y ⟨⟩
    rfl

/-- The byte 0x80 comes before `"a"`; and where there is nothing to compare there is a difference
as long as `ZF` is clear. -/
theorem comparisons_inconsistent :
    let o := oneByte 0x80#8 0x61#8 (by decide) (by decide)
    (∃ c', strcmp 2 (.blank o.mem) o.atA o.atB = some (-1#32, c')) ∧ ¬o.a < o.b ∧
      (∃ c', memcmp (.blank o.mem) o.atX o.atY 0#32 = some (-1#32, c')) ∧ ¬Consistent 2 o := by
  intro o
  have hGives : Gives (strcmp 2 · o.atA o.atB) o.mem (-1#32) := strcmp_gives o.isA o.isB (by decide)
  have hNotLess : ¬o.a < o.b := by decide
  refine ⟨hGives _ rfl, hNotLess, memcmp_zero (.blank o.mem) o.atX o.atY, fun h => ?_⟩
  obtain ⟨ab, _, _, _, hAB, _, _, _, _, _, _, hOrder⟩ := h.strcmp
  rw [hAB.unique hGives] at hOrder
  exact hNotLess (hOrder.mp (by decide))

end Linux011.StringC

import Linux011.Lib.StringC

/-! `strncpy` and `strncat`. -/
namespace Linux011.StringC

open StringInstr

/-- Behind `decl`, `lodsb`, `stosb` and `testb`. -/
def copied (c : Cpu) (x : Byte) : Cpu := (c.decEcx.loaded x).stored.testAl

section

variable {c : Cpu} {s : List Byte} {x : Byte} {n k fuel : Nat}

theorem zf_copied : (copied c x).zf = true ↔ x = 0#8 := by
  change ((c.decEcx.loaded x).al == 0#8) = true ↔ _
  rw [al_loaded, beq_iff_eq]

theorem mem_copied : (copied c x).mem = Function.update c.mem c.edi (some x) := by
  change Function.update c.mem c.edi (some (c.decEcx.loaded x).al) = _
  rw [al_loaded]

theorem al_copied : (copied c x).al = x := al_loaded

/-- What a loop that copies up to `n` bytes of a string needs, to a place of `k` bytes. -/
structure Copying (c : Cpu) (s : List Byte) (n k : Nat) : Prop where
  source : Holds c.mem c.esi (s ++ [0#8])
  noNul : 0#8 ∉ s
  count : c.ecx = BitVec.ofNat 32 n
  small : n < 2 ^ 31
  target : Mapped c.mem c.edi k
  apart : Apart c.esi (s.length + 1) c.edi k

theorem Copying.done (h : Copying c s 0 k) : c.decEcx.sf = true := (sf_decEcx h.count h.small).mpr rfl

theorem Copying.more (h : Copying c s (n + 1) k) : ¬c.decEcx.sf = true := fun hDone =>
  Nat.succ_ne_zero n ((sf_decEcx h.count h.small).mp hDone)

theorem Copying.next (h : Copying c (x :: s) (n + 1) (k + 1)) : Copying (copied c x) s n k where
  source := by
    rw [mem_copied]
    exact h.source.2.update (h.apart.tail.mono (by simp) (Nat.succ_pos k))
  noNul hMem := h.noNul (List.mem_cons_of_mem _ hMem)
  count := ecx_decEcx h.count
  small := Nat.lt_of_succ_lt h.small
  target := by
    rw [mem_copied]
    exact h.target.next
  apart := h.apart.next

/-- The byte that the next round copies. -/
theorem Copying.load (h : Copying c s n (k + 1)) (hx : (s ++ [0#8]).head? = some x) :
    c.decEcx.lodsb = some (c.decEcx.loaded x) ∧ (c.decEcx.loaded x).stosb = some (c.decEcx.loaded x).stored := by
  refine ⟨lodsb_eq ?_, stosb_eq h.target.first⟩
  cases s with
  | nil => exact h.source.1.trans hx
  | cons y s => exact h.source.1.trans hx

/-- What `strncpy` writes. -/
def padded (s : List Byte) (n : Nat) : List Byte := s.take n ++ List.replicate (n - s.length) 0#8

theorem strncpyLoop_round (h : Copying c s (n + 1) (k + 1)) (hx : (s ++ [0#8]).head? = some x) :
    strncpyLoop (fuel + 1) c =
      if x = 0#8 then (copied c x).repStosb else strncpyLoop fuel (copied c x) := by
  obtain ⟨hLoad, hStore⟩ := h.load hx
  rw [strncpyLoop]
  simp only [if_neg h.more, hLoad, hStore, Option.bind_eq_bind, Option.bind_some]
  exact if_congr zf_copied rfl rfl

theorem strncpyLoop_eq (h : Copying c s n n) (hFuel : s.length < fuel) :
    ∃ c', strncpyLoop fuel c = some c' ∧ c'.mem = write c.mem c.edi (padded s n) := by
  induction fuel generalizing c s n with
  | zero => exact absurd hFuel (Nat.not_lt_zero _)
  | succ fuel ih =>
      cases n with
      | zero => exact ⟨_, if_pos h.done, by rw [padded, List.take_zero, Nat.zero_sub]; rfl⟩
      | succ n =>
          cases s with
          | nil =>
              have hCount : (copied c 0#8).ecx.toNat = n := by
                have hSmall := h.small
                rw [show (copied c 0#8).ecx = BitVec.ofNat 32 n from ecx_decEcx h.count, BitVec.toNat_ofNat]
                omega
              have hRest : Mapped (copied c 0#8).mem (copied c 0#8).edi (copied c 0#8).ecx.toNat := by
                rw [hCount, mem_copied]
                exact h.target.next
              refine ⟨_, (strncpyLoop_round h rfl).trans ((if_pos rfl).trans (repStosb_eq hRest)), ?_⟩
              change write (copied c 0#8).mem (c.edi + 1#32) _ = _
              rw [hCount, al_copied, mem_copied]
              rfl
          | cons x s =>
              have hx : x ≠ 0#8 := fun hZero => h.noNul (hZero ▸ List.mem_cons_self)
              obtain ⟨c', hRun, hMem⟩ := ih h.next (Nat.lt_of_succ_lt_succ hFuel)
              refine ⟨c', (strncpyLoop_round h rfl).trans ((if_neg hx).trans hRun), hMem.trans ?_⟩
              have hPad : padded (x :: s) (n + 1) = x :: padded s n := by
                simp [padded]
              rw [hPad, write, mem_copied]
              rfl

theorem strncatLoop_round (h : Copying c s (n + 1) (k + 1)) (hx : (s ++ [0#8]).head? = some x) :
    strncatLoop (fuel + 1) c = if x = 0#8 then some (copied c x) else strncatLoop fuel (copied c x) := by
  obtain ⟨hLoad, hStore⟩ := h.load hx
  rw [strncatLoop]
  simp only [if_neg h.more, hLoad, hStore, Option.bind_eq_bind, Option.bind_some]
  exact if_congr zf_copied rfl rfl

/-- What the loop of `strncat` writes, which is followed by a NUL in any case. -/
def appended (s : List Byte) (n : Nat) : List Byte := if n ≤ s.length then s.take n else s ++ [0#8]

theorem strncatLoop_eq (h : Copying c s n (min n (s.length + 1))) (hFuel : s.length < fuel) :
    ∃ c', strncatLoop fuel c = some c' ∧ c'.mem = write c.mem c.edi (appended s n) ∧
      c'.edi = c.edi + BitVec.ofNat 32 (appended s n).length := by
  induction fuel generalizing c s n with
  | zero => exact absurd hFuel (Nat.not_lt_zero _)
  | succ fuel ih =>
      cases n with
      | zero =>
          refine ⟨_, if_pos h.done, ?_⟩
          rw [appended, if_pos (Nat.zero_le _), List.take_zero]
          exact ⟨rfl, (BitVec.add_zero _).symm⟩
      | succ n =>
          rw [Nat.add_min_add_right] at h
          cases s with
          | nil =>
              refine ⟨_, (strncatLoop_round h rfl).trans (if_pos rfl), ?_⟩
              rw [appended, if_neg (by simp), mem_copied]
              exact ⟨rfl, rfl⟩
          | cons x s =>
              have hx : x ≠ 0#8 := fun hZero => h.noNul (hZero ▸ List.mem_cons_self)
              obtain ⟨c', hRun, hMem, hEdi⟩ := ih h.next (Nat.lt_of_succ_lt_succ hFuel)
              have hCons : appended (x :: s) (n + 1) = x :: appended s n := by
                simp only [appended, List.length_cons, Nat.add_le_add_iff_right]
                split_ifs <;> rfl
              refine ⟨c', (strncatLoop_round h rfl).trans ((if_neg hx).trans hRun), hMem.trans ?_, hEdi.trans ?_⟩
              · rw [hCons, write, mem_copied]
                rfl
              · rw [hCons, List.length_cons, ← add_one_add]
                rfl

end

section

variable {c : Cpu} {dest src count : BitVec 32} {s d : List Byte} {fuel : Nat}

theorem length_padded (s : List Byte) (n : Nat) : (padded s n).length = n := by
  simp only [padded, List.length_append, List.length_take, List.length_replicate]
  omega

theorem count_lt (hCount : 0 ≤ count.toInt) : count.toNat < 2 ^ 31 := by
  have hCond := BitVec.toInt_eq_toNat_cond count
  split_ifs at hCond <;> omega

theorem strncpy_stored (hSrc : IsString c.mem src s) (hCount : 0 ≤ count.toInt)
    (hMapped : Mapped c.mem dest count.toNat) (hApart : Apart src (s.length + 1) dest count.toNat)
    (hFuel : s.length < fuel) : ∃ c', strncpy fuel c dest src count = some (dest, c') ∧
      Stored c.mem dest (padded s count.toNat) c'.mem := by
  have hSmall := count_lt hCount
  obtain ⟨c', hRun, hMem⟩ := strncpyLoop_eq (c := { c with esi := src, edi := dest, ecx := count })
    ⟨hSrc.holds, hSrc.noNul, by rw [BitVec.ofNat_toNat, BitVec.setWidth_eq], hSmall, hMapped, hApart⟩ hFuel
  refine ⟨c', ?_, hMem ▸ stored_write (by rw [length_padded]; omega)⟩
  rw [strncpy, hRun]
  rfl

/-- `strncat` when its loop is over. -/
theorem strncat_loop (hSrc : IsString c.mem src s) (hDest : IsString c.mem dest d) (hCount : 0 ≤ count.toInt)
    (hRoom : Mapped c.mem dest (d.length + (min count.toNat s.length + 1)))
    (hApart : Apart src (s.length + 1) dest (d.length + (min count.toNat s.length + 1))) (hFuel : s.length < fuel) :
    ∃ c' : Cpu, strncat fuel c dest src count = (c'.xorEax.stosb).map (dest, ·) ∧
      c'.mem = write c.mem (dest + BitVec.ofNat 32 d.length) (appended s count.toNat) ∧
      c'.edi = dest + BitVec.ofNat 32 d.length + BitVec.ofNat 32 (appended s count.toNat).length := by
  have hScan := repneScasb_string (c := { c with esi := src, edi := dest, eax := 0#32, ecx := 0xffffffff#32 })
    hDest rfl rfl
  have hEdi : dest + BitVec.ofNat 32 (d.length + 1) - 1#32 = dest + BitVec.ofNat 32 d.length := by
    rw [BitVec.ofNat_add, ← BitVec.add_assoc, BitVec.add_sub_cancel]
  have hPlace : min count.toNat (s.length + 1) ≤ min count.toNat s.length + 1 := by omega
  generalize hBehind : { c with esi := src, edi := dest, eax := 0#32, ecx := 0xffffffff#32 }.compare 0#8 0#8 = c₀
    at hScan
  have hEsi : src = c₀.esi := hBehind ▸ rfl
  have hMem : c.mem = c₀.mem := hBehind ▸ rfl
  have hStart : Copying { Cpu.decEdi { c₀ with
      edi := dest + BitVec.ofNat 32 (d.length + 1), ecx := ~~~BitVec.ofNat 32 (d.length + 1) } with ecx := count }
      s count.toNat (min count.toNat (s.length + 1)) := by
    rw [hMem, hEsi] at hSrc
    rw [hMem] at hRoom
    rw [hEsi] at hApart
    refine ⟨hSrc.holds, hSrc.noNul, ?_, count_lt hCount, ?_, ?_⟩
    · rw [BitVec.ofNat_toNat, BitVec.setWidth_eq]
    · change Mapped c₀.mem (dest + BitVec.ofNat 32 (d.length + 1) - 1#32) _
      rw [hEdi]
      exact fun i hi => hRoom.drop i (by omega)
    · change Apart c₀.esi _ (dest + BitVec.ofNat 32 (d.length + 1) - 1#32) _
      rw [hEdi]
      exact hApart.drop.mono (Nat.le_refl _) hPlace
  obtain ⟨c', hRun, hWritten, hAt⟩ := strncatLoop_eq hStart hFuel
  refine ⟨c', ?_, hWritten.trans (congrArg₂ (write · · _) hMem.symm hEdi), hAt.trans (congrArg (· + _) hEdi)⟩
  rw [strncat]
  simp only [hScan, Option.bind_eq_bind, Option.bind_some, hRun]
  cases c'.xorEax.stosb <;> rfl

/-- Dest is the concatenation, with its NUL, and nothing else has changed. -/
structure Concatenated (m : Memory) (dest : BitVec 32) (d s : List Byte) (m' : Memory) : Prop where
  joined : Holds m' dest (d ++ s ++ [0#8])
  frame : ∀ a, (∀ i ≤ s.length, a ≠ dest + BitVec.ofNat 32 (d.length + i)) → m' a = m a

theorem concatenated_write {m : Memory} (hDest : Holds m dest d) (hFit : d.length + s.length + 1 < 2 ^ 32) :
    Concatenated m dest d s (write m (dest + BitVec.ofNat 32 d.length) (s ++ [0#8])) where
  joined := by
    rw [List.append_assoc, holds_append]
    refine ⟨hDest.congr fun i hi => write_outside fun j hj => ?_, holds_write ?_⟩
    · rw [List.length_append, List.length_singleton] at hj
      rw [BitVec.add_assoc, ← BitVec.ofNat_add]
      exact ofNat_ne (by omega) (by omega) (by omega)
    · rw [List.length_append, List.length_singleton]
      omega
  frame a hOut := by
    refine write_outside fun i hi => ?_
    rw [List.length_append, List.length_singleton] at hi
    rw [BitVec.add_assoc, ← BitVec.ofNat_add]
    exact hOut i (by omega)

/-- The NUL that `strncat` writes last. -/
theorem stosb_xorEax (c : Cpu) : c.xorEax.stosb = (c.mem c.edi).map fun _ => c.xorEax.stored := by
  rw [Cpu.stosb, Cpu.store]
  cases h : c.mem c.edi with
  | none => simp [Cpu.xorEax, Cpu.logic, h]
  | some old =>
      simp only [Cpu.xorEax, Cpu.logic, h]
      rfl

theorem strncat_short (hSrc : IsString c.mem src s) (hDest : IsString c.mem dest d) (hCount : 0 ≤ count.toInt)
    (hRoom : Mapped c.mem dest (d.length + (min count.toNat s.length + 1)))
    (hApart : Apart src (s.length + 1) dest (d.length + (min count.toNat s.length + 1))) (hFuel : s.length < fuel)
    (hShort : count.toNat ≤ s.length) : ∃ c', strncat fuel c dest src count = some (dest, c') ∧
      c'.mem = write c.mem (dest + BitVec.ofNat 32 d.length) (s.take count.toNat ++ [0#8]) := by
  obtain ⟨c', hRun, hMem, hEdi⟩ := strncat_loop hSrc hDest hCount hRoom hApart hFuel
  rw [appended, if_pos hShort] at hMem hEdi
  have hPlace : (c'.mem c'.edi).isSome := by
    rw [hMem, hEdi, List.length_take, BitVec.add_assoc, ← BitVec.ofNat_add]
    exact isSome_write (hRoom _ (by omega))
  obtain ⟨old, hOld⟩ := Option.isSome_iff_exists.mp hPlace
  refine ⟨c'.xorEax.stored, by rw [hRun, stosb_xorEax, hOld]; rfl, ?_⟩
  change Function.update c'.mem c'.edi (some 0#8) = _
  rw [write_append, hMem, hEdi]
  rfl

/-- The loop has already written the NUL, and another one follows it. -/
theorem strncat_long (hSrc : IsString c.mem src s) (hDest : IsString c.mem dest d) (hCount : 0 ≤ count.toInt)
    (hRoom : Mapped c.mem dest (d.length + (min count.toNat s.length + 1)))
    (hApart : Apart src (s.length + 1) dest (d.length + (min count.toNat s.length + 1))) (hFuel : s.length < fuel)
    (hLong : s.length < count.toNat) : ∃ c' : Cpu, strncat fuel c dest src count =
        (c.mem (dest + BitVec.ofNat 32 (d.length + s.length + 1))).map (fun _ => (dest, c')) ∧
      c'.mem = Function.update (write c.mem (dest + BitVec.ofNat 32 d.length) (s ++ [0#8]))
        (dest + BitVec.ofNat 32 (d.length + s.length + 1)) (some 0#8) := by
  obtain ⟨c', hRun, hMem, hEdi⟩ := strncat_loop hSrc hDest hCount hRoom hApart hFuel
  have hFit := hApart.lt
  rw [appended, if_neg (by omega)] at hMem hEdi
  rw [List.length_append, List.length_singleton, BitVec.add_assoc, ← BitVec.ofNat_add, ← Nat.add_assoc] at hEdi
  have hBehind : c'.mem c'.edi = c.mem c'.edi := by
    rw [hMem]
    refine write_outside fun i hi => ?_
    rw [List.length_append, List.length_singleton] at hi
    rw [hEdi, BitVec.add_assoc, ← BitVec.ofNat_add]
    exact ofNat_ne (by omega) (by omega) (by omega)
  refine ⟨c'.xorEax.stored, ?_, ?_⟩
  · rw [hRun, stosb_xorEax, hBehind, hEdi]
    cases c.mem (dest + BitVec.ofNat 32 (d.length + s.length + 1)) <;> rfl
  · change Function.update c'.mem c'.edi (some 0#8) = _
    rw [hMem, hEdi]

/-- Both bounded copies write what they should and nowhere else, but `strncat` adds a second
NUL when the string ends before the count: that is harmless only where a NUL was before. -/
theorem bounded_copies_iff (hSrc : IsString c.mem src s) (hDest : IsString c.mem dest d) (hCount : 0 ≤ count.toInt)
    (hRoom : Mapped c.mem dest (d.length + (min count.toNat s.length + 1)))
    (hApart : Apart src (s.length + 1) dest (d.length + (min count.toNat s.length + 1))) (hFuel : s.length < fuel) :
    ((Mapped c.mem dest count.toNat → Apart src (s.length + 1) dest count.toNat →
        ∃ c', strncpy fuel c dest src count = some (dest, c') ∧
          Stored c.mem dest (padded s count.toNat) c'.mem) ∧
      ∃ c', strncat fuel c dest src count = some (dest, c') ∧
        Concatenated c.mem dest d (s.take count.toNat) c'.mem) ↔
      count.toNat ≤ s.length ∨ c.mem (dest + BitVec.ofNat 32 (d.length + s.length + 1)) = some 0#8 := by
  have hFit := hApart.lt
  have hHolds : Holds c.mem dest d := (holds_append.mp hDest.holds).1
  have hTake : (s.take count.toNat).length = min count.toNat s.length := List.length_take
  by_cases hShort : count.toNat ≤ s.length
  · refine iff_of_true ⟨fun hMapped hApart' => strncpy_stored hSrc hCount hMapped hApart' hFuel, ?_⟩ (Or.inl hShort)
    obtain ⟨c', hRun, hMem⟩ := strncat_short hSrc hDest hCount hRoom hApart hFuel hShort
    exact ⟨c', hRun, hMem ▸ concatenated_write hHolds (by omega)⟩
  · obtain ⟨c', hRun, hMem⟩ := strncat_long hSrc hDest hCount hRoom hApart hFuel (Nat.lt_of_not_le hShort)
    have hWhole : s.take count.toNat = s := List.take_of_length_le (by omega)
    have hWritten := concatenated_write (s := s) hHolds (by omega)
    have hOut : ∀ i ≤ s.length, dest + BitVec.ofNat 32 (d.length + s.length + 1) ≠
        dest + BitVec.ofNat 32 (d.length + i) := fun i hi => ofNat_ne (by omega) (by omega) (by omega)
    rw [hWhole, or_iff_right hShort]
    constructor
    · rintro ⟨_, c'', hRun'', hAll⟩
      rw [hRun, Option.map_eq_some_iff] at hRun''
      obtain ⟨_, _, hSame⟩ := hRun''
      rw [← hAll.frame _ hOut, ← (Prod.mk.inj hSame).2, hMem, Function.update_self]
    · intro hNul
      refine ⟨fun hMapped hApart' => strncpy_stored hSrc hCount hMapped hApart' hFuel, c', ?_, ?_⟩
      · rw [hRun, hNul]
        rfl
      · have hSame := hWritten.frame _ hOut
        rw [hMem, ← hNul, ← hSame, Function.update_eq_self]
        exact hWritten

end

/-- `"a"` with two bytes behind its NUL, and `"b"`. -/
def ab : Cpu := .blank (layout [(0x1000#32, [0x61#8, 0#8, 0x58#8, 0x59#8]), (0x2000#32, [0x62#8, 0#8])])

theorem ab_strings : IsString ab.mem 0x1000#32 [0x61#8] ∧ IsString ab.mem 0x2000#32 [0x62#8] :=
  ⟨⟨⟨rfl, rfl, trivial⟩, by decide, by decide, by decide⟩, ⟨⟨rfl, rfl, trivial⟩, by decide, by decide, by decide⟩⟩

theorem ab_room : Mapped ab.mem 0x1000#32 3 ∧ Apart 0x2000#32 2 0x1000#32 3 := by
  unfold Mapped Apart
  decide

/-- `strncat(dest, "b", 1)`. -/
theorem bounded_copies_ab : ∃ c', strncat 2 ab 0x1000#32 0x2000#32 1#32 = some (0x1000#32, c') ∧
    Concatenated ab.mem 0x1000#32 [0x61#8] [0x62#8] c'.mem :=
  ((@bounded_copies_iff ab 0x1000#32 0x2000#32 1#32 [0x62#8] [0x61#8] 2 ab_strings.2 ab_strings.1 (by decide)
    ab_room.1 ab_room.2 (by decide)).mpr (Or.inl (by decide))).2

/-- `strncat(dest, "b", 5)`: the byte behind the new terminator is lost. -/
theorem strncat_spoils : IsString ab.mem 0x1000#32 [0x61#8] ∧ IsString ab.mem 0x2000#32 [0x62#8] ∧
    ab.mem 0x1003#32 = some 0x59#8 ∧ ∃ c', strncat 2 ab 0x1000#32 0x2000#32 5#32 = some (0x1000#32, c') ∧
      c'.mem 0x1003#32 = some 0#8 ∧ ¬Concatenated ab.mem 0x1000#32 [0x61#8] [0x62#8] c'.mem := by
  obtain ⟨c', hRun, hMem⟩ := @strncat_long ab 0x1000#32 0x2000#32 5#32 [0x62#8] [0x61#8] 2 ab_strings.2
    ab_strings.1 (by decide) ab_room.1 ab_room.2 (by decide) (by decide)
  have hByte : c'.mem 0x1003#32 = some 0#8 := by
    rw [hMem]
    exact Function.update_self _ _ _
  refine ⟨ab_strings.1, ab_strings.2, rfl, c', hRun, hByte, fun hAll => ?_⟩
  have hSame := hAll.frame 0x1003#32 (by decide)
  rw [hByte] at hSame
  revert hSame
  decide

end Linux011.StringC

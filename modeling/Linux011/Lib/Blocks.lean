import Linux011.Lib.StringC

/-! `memcpy` and `memmove`. -/
namespace Linux011.StringC

open StringInstr

/-- `m` with the `n` bytes at `src` at `dest` as well. -/
def moved (m : Memory) (dest src : BitVec 32) (n : Nat) : Memory := fun a =>
  if (a - dest).toNat < n then m (src + (a - dest)) else m a

/-- What comes of one byte after another, upwards: where the target begins inside of the source,
only the bytes in front of it are there to be copied, again and again. -/
def repeated (m : Memory) (dest src : BitVec 32) (n : Nat) : Memory := fun a =>
  if (a - dest).toNat < n then m (src + BitVec.ofNat 32 ((a - dest).toNat % (dest - src).toNat)) else m a

section

variable {m : Memory} {dest src a : BitVec 32} {b : Option Byte} {n : Nat}

theorem succ_mod_cases (p : Nat) {k : Nat} (hk : 0 < k) :
    (p % k + 1 = k ∧ (p + 1) % k = 0) ∨ (p % k + 1 < k ∧ (p + 1) % k = p % k + 1) := by
  have hLess := Nat.mod_lt p hk
  have hSucc : (p + 1) % k = (p % k + 1) % k := (Nat.mod_add_mod p k 1).symm
  by_cases hLast : p % k + 1 = k
  · exact .inl ⟨hLast, by rw [hSucc, hLast, Nat.mod_self]⟩
  · exact .inr ⟨by omega, by rw [hSucc, Nat.mod_eq_of_lt (by omega)]⟩

/-- The first byte, and then the others. -/
theorem repeated_succ (hb : m src = b) (hn : n + 1 ≤ 2 ^ 32) :
    repeated (Function.update m dest b) (dest + 1#32) (src + 1#32) n = repeated m dest src (n + 1) := by
  funext a
  have hApart : dest + 1#32 - (src + 1#32) = dest - src := by bv_omega
  rw [repeated, repeated, hApart]
  by_cases hFirst : a = dest
  · have hWrap : ¬(a - (dest + 1#32)).toNat < n := by bv_omega
    have hZero : (a - dest).toNat = 0 := by bv_omega
    rw [if_neg hWrap, hZero, if_pos (Nat.succ_pos n), Nat.zero_mod, BitVec.add_zero, hFirst, Function.update_self, hb]
  · obtain ⟨p, hp⟩ : ∃ p, (a - dest).toNat = p + 1 := ⟨(a - dest).toNat - 1, by bv_omega⟩
    have hRest : (a - (dest + 1#32)).toNat = p := by bv_omega
    rw [hRest, hp]
    by_cases hInside : p < n
    · rw [if_pos hInside, if_pos (by omega)]
      by_cases hSame : (dest - src).toNat = 0
      · have hAddr : src + 1#32 + BitVec.ofNat 32 p = src + BitVec.ofNat 32 (p + 1) := add_one_add src p
        rw [hSame, Nat.mod_zero, Nat.mod_zero, hAddr, Function.update_of_ne (by bv_omega)]
      · have hAddr := add_one_add src (p % (dest - src).toNat)
        obtain ⟨hLast, hZero⟩ | ⟨hMore, hNext⟩ := succ_mod_cases p (Nat.pos_of_ne_zero hSame)
        · rw [hAddr, hLast, hZero, BitVec.ofNat_toNat, BitVec.setWidth_eq, BitVec.add_comm, BitVec.sub_add_cancel,
            Function.update_self, BitVec.add_zero, hb]
        · rw [hAddr, hNext, Function.update_of_ne]
          intro hEq
          have hNat : (dest - src).toNat = p % (dest - src).toNat + 1 := by
            have hLt := (dest - src).isLt
            bv_omega
          omega
    · rw [if_neg hInside, if_neg (by omega), Function.update_of_ne hFirst]

/-- The last byte, and then the others: no byte is stored over before it has been read. -/
theorem moved_succ (hb : m (src + BitVec.ofNat 32 n) = b) (hn : n + 1 ≤ 2 ^ 32)
    (hApart : src = dest ∨ n + 1 ≤ (src - dest).toNat) :
    moved (Function.update m (dest + BitVec.ofNat 32 n) b) dest src n = moved m dest src (n + 1) := by
  funext a
  rw [moved, moved]
  by_cases hLast : a = dest + BitVec.ofNat 32 n
  · have hIndex : (a - dest).toNat = n := by bv_omega
    have hOffset : a - dest = BitVec.ofNat 32 n := by bv_omega
    rw [if_neg (by omega), if_pos (by omega), hOffset, hb, hLast, Function.update_self]
  · have hIndex : (a - dest).toNat ≠ n := by bv_omega
    by_cases hInside : (a - dest).toNat < n
    · rw [if_pos hInside, if_pos (by omega), Function.update_of_ne (by bv_omega)]
    · rw [if_neg hInside, if_neg (by omega), Function.update_of_ne hLast]

/-- Going upwards is a move exactly where the part that is stored over repeats itself. -/
theorem repeated_eq_moved_iff (hn : n ≤ 2 ^ 32) : repeated m dest src n = moved m dest src n ↔
    ∀ i, i + (dest - src).toNat < n → m (src + BitVec.ofNat 32 i) = m (dest + BitVec.ofNat 32 i) := by
  have hBehind (i : Nat) : src + BitVec.ofNat 32 (i + (dest - src).toNat) = dest + BitVec.ofNat 32 i := by bv_omega
  constructor
  · intro hEq i hi
    have hAt (j : Nat) (hj : j < n) :
        m (src + BitVec.ofNat 32 (j % (dest - src).toNat)) = m (src + BitVec.ofNat 32 j) := by
      have hByte := congrFun hEq (dest + BitVec.ofNat 32 j)
      have hIndex : (dest + BitVec.ofNat 32 j - dest).toNat = j := by bv_omega
      have hOffset : dest + BitVec.ofNat 32 j - dest = BitVec.ofNat 32 j := by bv_omega
      rwa [repeated, moved, hIndex, hOffset, if_pos hj, if_pos hj] at hByte
    rw [← hBehind, ← hAt i (by omega), ← hAt (i + (dest - src).toNat) hi, Nat.add_mod_right]
  · intro hPeriod
    have hAll (j : Nat) : j < n → m (src + BitVec.ofNat 32 (j % (dest - src).toNat)) = m (src + BitVec.ofNat 32 j) := by
      induction j using Nat.strongRecOn with
      | ind j ih =>
          intro hj
          by_cases hZero : (dest - src).toNat = 0
          · rw [hZero, Nat.mod_zero]
          by_cases hBefore : j < (dest - src).toNat
          · rw [Nat.mod_eq_of_lt hBefore]
          · obtain ⟨i, rfl⟩ := Nat.exists_eq_add_of_le' (Nat.le_of_not_lt hBefore)
            rw [Nat.add_mod_right, ih i (by omega) (by omega), hBehind, hPeriod i hj]
    funext a
    rw [repeated, moved]
    split_ifs with hInside
    · rw [hAll _ hInside, BitVec.ofNat_toNat, BitVec.setWidth_eq]
    · rfl

end

section

variable {c : Cpu} {dest src : BitVec 32} {n : Nat}

theorem repMovsbLoop_upwards (hSource : Mapped c.mem c.esi n) (hTarget : Mapped c.mem c.edi n) (hn : n ≤ 2 ^ 32) :
    ∃ c', repMovsbLoop false n c = some c' ∧ c'.mem = repeated c.mem c.edi c.esi n := by
  induction n generalizing c with
  | zero => exact ⟨c, rfl, funext fun _ => (if_neg (Nat.not_lt_zero _)).symm⟩
  | succ n ih =>
      obtain ⟨b, hb⟩ := Option.isSome_iff_exists.mp hSource.first
      have hNext : Mapped (c.moving false b).mem (c.esi + 1#32) n := by
        intro i hi
        rw [add_one_add]
        exact isSome_update _ (hSource (i + 1) (by omega))
      obtain ⟨c', hRun, hMem⟩ := ih (c := c.moving false b) hNext hTarget.next (by omega)
      refine ⟨c', (repMovsbLoop_succ hb hTarget.first).trans hRun, hMem.trans ?_⟩
      exact repeated_succ hb hn

theorem repMovsbLoop_downwards (hEsi : c.esi = src + BitVec.ofNat 32 n - 1#32)
    (hEdi : c.edi = dest + BitVec.ofNat 32 n - 1#32) (hSource : Mapped c.mem src n) (hTarget : Mapped c.mem dest n)
    (hn : n ≤ 2 ^ 32) (hApart : src = dest ∨ n ≤ (src - dest).toNat) :
    ∃ c', repMovsbLoop true n c = some c' ∧ c'.mem = moved c.mem dest src n := by
  induction n generalizing c with
  | zero => exact ⟨c, rfl, funext fun _ => (if_neg (Nat.not_lt_zero _)).symm⟩
  | succ n ih =>
      have hLast (p : BitVec 32) : p + BitVec.ofNat 32 (n + 1) - 1#32 = p + BitVec.ofNat 32 n := by
        rw [BitVec.ofNat_add, ← BitVec.add_assoc, BitVec.add_sub_cancel]
      rw [hLast] at hEsi hEdi
      obtain ⟨b, hb⟩ := Option.isSome_iff_exists.mp (hSource n (Nat.lt_succ_self n))
      have hRoom : (c.mem c.edi).isSome := hEdi ▸ hTarget n (Nat.lt_succ_self n)
      have hEsiNext : (c.moving true b).esi = src + BitVec.ofNat 32 n - 1#32 := by
        rw [BitVec.sub_eq_add_neg, ← hEsi]
        rfl
      have hEdiNext : (c.moving true b).edi = dest + BitVec.ofNat 32 n - 1#32 := by
        rw [BitVec.sub_eq_add_neg, ← hEdi]
        rfl
      obtain ⟨c', hRun, hMem⟩ := ih hEsiNext hEdiNext (fun i hi => isSome_update _ (hSource i (by omega)))
        (fun i hi => isSome_update _ (hTarget i (by omega))) (by omega) (hApart.imp_right (by omega))
      refine ⟨c', (repMovsbLoop_succ (hEsi ▸ hb) hRoom).trans hRun, hMem.trans ?_⟩
      rw [← moved_succ hb hn hApart, ← hEdi]
      rfl

end

/-- Whatever way the regions overlap, `memmove` moves; it leaves the direction flag set where it has gone
downwards. `memcpy` is right where no byte that is still to be copied has changed. -/
theorem memmove_moves (c : Cpu) (dest src n : BitVec 32) (hSource : Mapped c.mem src n.toNat)
    (hTarget : Mapped c.mem dest n.toNat) (hSrc : src.toNat + n.toNat ≤ 2 ^ 32)
    (hDest : dest.toNat + n.toNat ≤ 2 ^ 32) :
    (∃ c', memmove c dest src n = some (dest, decide (src ≤ dest), c') ∧
      c'.mem = moved c.mem dest src n.toNat) ∧
    ∃ c', memcpy c dest src n = some (dest, false, c') ∧
      (c'.mem = moved c.mem dest src n.toNat ↔
        ∀ i, i + (dest - src).toNat < n.toNat →
          c.mem (src + BitVec.ofNat 32 i) = c.mem (dest + BitVec.ofNat 32 i)) := by
  have hSmall : n.toNat ≤ 2 ^ 32 := Nat.le_of_lt n.isLt
  obtain ⟨up, hUp, hUpMem⟩ := repMovsbLoop_upwards (c := { c with ecx := n, esi := src, edi := dest }) hSource
    hTarget hSmall
  refine ⟨?_, up, ?_, ?_⟩
  · by_cases hBelow : dest < src
    · refine ⟨up, ?_, hUpMem.trans ((repeated_eq_moved_iff hSmall).mpr fun i hi => ?_)⟩
      · rw [memmove, if_pos hBelow, Cpu.repMovsb, hUp, decide_eq_false (by bv_omega)]
        rfl
      · bv_omega
    · have hOrder : src = dest ∨ n.toNat ≤ (src - dest).toNat := by
        by_cases hSame : src = dest
        · exact .inl hSame
        · exact .inr (by bv_omega)
      obtain ⟨down, hDown, hDownMem⟩ := repMovsbLoop_downwards
        (c := { c with ecx := n, esi := src + n - 1#32, edi := dest + n - 1#32 })
        (by rw [BitVec.ofNat_toNat, BitVec.setWidth_eq]) (by rw [BitVec.ofNat_toNat, BitVec.setWidth_eq]) hSource
        hTarget hSmall hOrder
      refine ⟨down, ?_, hDownMem⟩
      rw [memmove, if_neg hBelow, Cpu.repMovsb, hDown, decide_eq_true (by bv_omega)]
      rfl
  · rw [memcpy, Cpu.repMovsb, hUp]
    rfl
  · rw [hUpMem]
    exact repeated_eq_moved_iff hSmall

/-- Four bytes. -/
def oneTwoThree : Cpu := .blank (layout [(0x1000#32, [1#8, 2#8, 3#8, 4#8])])

/-- Three of them, one byte up. -/
theorem memmove_moves_up :
    (∃ c', memmove oneTwoThree 0x1001#32 0x1000#32 3#32 = some (0x1001#32, true, c') ∧
      c'.mem 0x1001#32 = some 1#8 ∧ c'.mem 0x1002#32 = some 2#8 ∧ c'.mem 0x1003#32 = some 3#8) ∧
    ∃ c', memcpy oneTwoThree 0x1001#32 0x1000#32 3#32 = some (0x1001#32, false, c') ∧
      c'.mem ≠ moved oneTwoThree.mem 0x1001#32 0x1000#32 3 := by
  have hSource : Mapped oneTwoThree.mem 0x1000#32 3 := by
    unfold Mapped
    decide
  have hTarget : Mapped oneTwoThree.mem 0x1001#32 3 := by
    unfold Mapped
    decide
  obtain ⟨⟨c₁, hMove, hMem⟩, c₂, hCopy, hIff⟩ := memmove_moves oneTwoThree 0x1001#32 0x1000#32 3#32 hSource hTarget
    (by decide) (by decide)
  refine ⟨⟨c₁, hMove, ?_, ?_, ?_⟩, c₂, hCopy, fun hMoved => ?_⟩
  · rw [hMem]
    rfl
  · rw [hMem]
    rfl
  · rw [hMem]
    rfl
  · exact absurd (hIff.mp hMoved 0 (by decide)) (by decide)

end Linux011.StringC

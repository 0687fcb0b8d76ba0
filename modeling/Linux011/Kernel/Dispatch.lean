import Linux011.Kernel.SystemCall

/-! Which calls `system_call` makes: it looks at `eax` for nothing but the table entry. -/
namespace Linux011

open I386

/-- The entry that `eax` names, if there is one and it is not 0. -/
def namedCall (eax : BitVec 32) : Option SysCall := sysCallTable[eax.toNat]?.join

/-- `int 0x80` calls what `eax` names and refuses everything else, and it keeps the other
registers. -/
structure Dispatched (env : Surroundings) (x : Context) (k : Kernel) : Prop where
  called : ∀ call, sysCallAt (x.reg .eax) = some (some call) → namedCall (x.reg .eax) = some call
  refused : namedCall (x.reg .eax) = none → ∃ e k', int80 env x k = .ok (returning x e, k') ∧ e.msb = true
  inTable : int80 env x k ≠ .error .wild
  restored : ∀ x' k', int80 env x k = .ok (x', k') → ∃ result, x' = returning x result

section

variable (env : Surroundings) (x : Context) (k : Kernel)

/-- Only `fork` is there. -/
theorem sysCallTable_entry (i : Nat) : sysCallTable[i]?.join = if i = 2 then some .sysFork else none := by
  match i with
  | 0 => rfl
  | 1 => rfl
  | 2 => rfl
  | i + 3 =>
      change (List.replicate 84 (none : Option SysCall))[i]?.join = none
      rw [List.getElem?_replicate]
      split_ifs <;> rfl

theorem namedCall_eq (eax : BitVec 32) : namedCall eax = if eax = 2#32 then some .sysFork else none := by
  have hTwo : eax.toNat = 2 ↔ eax = 2#32 := BitVec.toNat_inj (y := 2#32)
  rw [namedCall, sysCallTable_entry]
  exact if_congr hTwo rfl rfl

/-- No check comes before the `call`. -/
theorem int80_wild (hNone : (sysCallAt (x.reg .eax)).join = none) : int80 env x k = .error .wild := by
  have hEax : (run env.high systemCallEntry (trap env.high env.above (k.heap k.current).tss.esp0 x)).reg .eax =
      x.reg .eax := rfl
  rw [int80, systemCall, hEax]
  cases hEntry : sysCallAt (x.reg .eax) with
  | none => rfl
  | some entry =>
      cases entry with
      | none => rfl
      | some call =>
          rw [hEntry] at hNone
          cases hNone

theorem Dispatched.fork (hEax : x.reg .eax = 2#32) : Dispatched env x k := by
  have hNamed : namedCall (x.reg .eax) = some .sysFork := by
    rw [namedCall_eq, if_pos hEax]
  have hCall := int80_fork env x k hEax
  refine ⟨fun call hAt => ?_, fun hNone => ?_, fun hWild => ?_, fun x' k' hRun => ?_⟩
  · cases call
    exact hNamed
  · rw [hNamed] at hNone
    cases hNone
  · rw [hCall] at hWild
    cases hFork : sysFork env.ram (forkFrame env (k.heap k.current).tss.esp0 x) k <;> rw [hFork] at hWild <;>
      cases hWild
  · rw [hCall] at hRun
    cases hFork : sysFork env.ram (forkFrame env (k.heap k.current).tss.esp0 x) k with
    | error stop =>
        rw [hFork] at hRun
        cases hRun
    | ok found =>
        rw [hFork] at hRun
        exact ⟨found.1, (Prod.mk.inj (Except.ok.inj hRun)).1.symm⟩

/-- Any other number goes through an entry that it does not name. -/
theorem not_dispatched (hEax : x.reg .eax ≠ 2#32) : ¬Dispatched env x k := by
  intro h
  have hNamed : namedCall (x.reg .eax) = none := by
    rw [namedCall_eq, if_neg hEax]
  cases hAt : (sysCallAt (x.reg .eax)).join with
  | none => exact h.inTable (int80_wild env x k hAt)
  | some call =>
      rw [Option.join_eq_some_iff] at hAt
      rw [h.called call hAt] at hNamed
      cases hNamed

/-- `system_call` keeps to its table for one number, 2. -/
theorem dispatched_iff : Dispatched env x k ↔ x.reg .eax = 2#32 := by
  constructor
  · intro h
    by_contra hEax
    exact not_dispatched env x k hEax h
  · exact Dispatched.fork env x k

end

/-- `sys_setup` is a jump to address 0, 87 is read behind the table, and 0x40000002 is `fork` once more. -/
theorem dispatch_escapes :
    int80 someSurroundings (returning forkingContext 0#32) (smallKernel 15360#16) = .error .wild ∧
      int80 someSurroundings (returning forkingContext 87#32) (smallKernel 15360#16) = .error .wild ∧
      sysCallAt 0x40000002#32 = some (some .sysFork) ∧ namedCall 0x40000002#32 = none ∧
      ¬Dispatched someSurroundings (returning forkingContext 0#32) (smallKernel 15360#16) :=
  ⟨int80_wild _ _ _ (by decide), int80_wild _ _ _ (by decide), by decide, by decide, not_dispatched _ _ _ (by decide)⟩

end Linux011

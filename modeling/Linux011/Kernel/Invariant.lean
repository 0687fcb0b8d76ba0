import Linux011.Kernel.Fork
import Linux011.Kernel.Sched
import Linux011.Mm.Boot
import Linux011.Mm.Copy

/-! The invariant of the task table, the segments and the page directory taken
together, and `copy_page_tables` at the addresses that `copy_mem` uses. -/
namespace Linux011

open ByteMemory SharedRefs

/-- Slot `s` runs on `init_task` for `s = 0`, on its task structure otherwise. -/
def taskAddr (image : Image) (k : Kernel) (s : Nat) : BitVec 32 :=
  if s = 0 then image.initTask else k.task s

structure Occupied (k : Kernel) (s : Nat) : Prop where
  pos : 1 ≤ s
  lt : s < 64
  task : k.task s ≠ 0#32

/-- Slot 0 runs whatever the table says; the others are live when occupied. -/
def Live (k : Kernel) (s : Nat) : Prop := s = 0 ∨ Occupied k s

/-- The segment limit of `INIT_TASK`, which every child inherits. -/
def dataLimit : BitVec 32 := 0x1000000#32

structure Segments (s : Nat) (t : TaskStruct) : Prop where
  codeBase : t.ldt1.base = taskBase s
  dataBase : t.ldt2.base = taskBase s
  codeLimit : getLimit t.ldt1 = dataLimit
  dataLimit : getLimit t.ldt2 = dataLimit

/-- How many entries of each table a fork by `p` copies. -/
def copyCount (p : Nat) : Nat := if p = 0 then 0xa0 else 1024

structure KernelInvariant (extMemK : BitVec 16) (image : Image) (k : Kernel) : Prop where
  mm : MmInvariant extMemK k.task k.mm
  slotZero : k.task 0 = 0#32
  shape : ∀ d < 1024, userDir d → (Present (k.mm.pde d) ↔ k.task (d / 16) ≠ 0#32 ∧ d % 16 < 4)
  init : Segments 0 (k.heap image.initTask)
  segments : ∀ s, Occupied k s → Segments s (k.heap (k.task s))
  windows : (∃ s, Occupied k s) → SourcesUsed 0 0xa0 k.mm

theorem segments_initTask (image : Image) : Segments 0 (initTask image) where
  codeBase := (by decide : Desc.base ⟨0xfff#32, 0xc0fa00#32⟩ = taskBase 0)
  dataBase := (by decide : Desc.base ⟨0xfff#32, 0xc0f200#32⟩ = taskBase 0)
  codeLimit := (by decide : getLimit ⟨0xfff#32, 0xc0fa00#32⟩ = Linux011.dataLimit)
  dataLimit := (by decide : getLimit ⟨0xfff#32, 0xc0f200#32⟩ = Linux011.dataLimit)

theorem taskBase_zero_iff {p : Nat} (hp : p < 64) : taskBase p = 0#32 ↔ p = 0 := by
  have hAll : ∀ p : Fin 64, taskBase p = 0#32 ↔ p.val = 0 := by decide
  exact hAll ⟨p, hp⟩

theorem taskBase_aligned {p : Nat} (hp : p < 64) : taskBase p &&& 0x3fffff#32 = 0#32 := by
  have hAll : ∀ p : Fin 64, taskBase p &&& 0x3fffff#32 = 0#32 := by decide
  exact hAll ⟨p, hp⟩

theorem taskBase_dir {p : Nat} (hp : p < 64) :
    ((taskBase p >>> 20) &&& 0xffc#32).toNat = 4 * (16 * p + 0) := by
  have hAll : ∀ p : Fin 64, ((taskBase p >>> 20) &&& 0xffc#32).toNat = 4 * (16 * p.val + 0) := by decide
  exact hAll ⟨p, hp⟩

section Calls

variable {extMemK : BitVec 16} {task : Nat → BitVec 32} {mm : Mm} {p nr : Nat}

/-- The directory when a fork from `p` to the empty address space `nr` starts. -/
structure ForkReady (p nr : Nat) (mm : Mm) : Prop where
  parent : p < 64
  child : 1 ≤ nr ∧ nr < 64
  apart : p ≠ nr
  fromDirs : ∀ i < 4, Present (mm.pde (16 * p + i))
  empty : ∀ i < 16, ¬Present (mm.pde (16 * nr + i))

theorem ForkReady.window (ready : ForkReady p nr mm) (h : MmInvariant extMemK task mm) :
    Window extMemK task p nr (copyCount p) 0 mm := by
  have hNone {i n : Nat} : ¬Done (copyCount p) 0 0 i n := by
    unfold Done
    omega
  refine ⟨h, ⟨?_, ?_⟩, ready.parent, ready.child, ready.apart, ?_, ready.fromDirs, ?_, ?_⟩
  · intro i hi n e
    refine iff_of_false (fun hMaps => ready.empty i hi hMaps.table) ?_
    exact fun hDone => hNone hDone.1
  · exact fun i _ n _ hDone => absurd hDone hNone
  · unfold copyCount
    split_ifs <;> omega
  · exact fun i hi => absurd hi (Nat.not_lt_zero i)
  · exact fun i hi _ => ready.empty i hi

/-- On such a directory `copy_page_tables` copies four tables, or comes to one for which no
page is left. -/
theorem copyPageTables_cases (ready : ForkReady p nr mm) (h : MmInvariant extMemK task mm) :
    (CopyPagesFound mm (taskBase p) (taskBase nr) dataLimit ∧ ∃ mm',
      DirsCopied extMemK task p nr (copyCount p) 0 4 mm mm' ∧
        copyPageTables mm (taskBase p) (taskBase nr) dataLimit = .ok (0#32, mm')) ∨
    ¬CopyPagesFound mm (taskBase p) (taskBase nr) dataLimit ∧ ∃ t mm', t < 4 ∧
      DirsCopied extMemK task p nr (copyCount p) 0 t mm mm' ∧ mm'.freePages = ∅ := by
  have hCount : (if taskBase p = 0#32 then 0xa0 else 1024) = copyCount p := by
    simp only [taskBase_zero_iff ready.parent, copyCount]
  have hSize : ((dataLimit + 0x3fffff#32) >>> 22).toNat = 4 := by decide
  have hCall : copyPageTables mm (taskBase p) (taskBase nr) dataLimit =
      copyPageDirs (taskBase p) 4 (4 * (16 * p + 0)) (4 * (16 * nr + 0)) mm := by
    rw [copyPageTables, if_neg, hSize, taskBase_dir ready.parent, taskBase_dir ready.child.2]
    rw [taskBase_aligned ready.parent, taskBase_aligned ready.child.2]
    simp
  rw [hCall, CopyPagesFound, hSize, taskBase_dir ready.parent, taskBase_dir ready.child.2]
  exact (ready.window h).copyPageDirs (by omega) hCount

/-- A task's own entries name pages in use. -/
theorem MmInvariant.sourcesUsed (h : MmInvariant extMemK task mm) (hp : 1 ≤ p) (count : Nat) :
    SourcesUsed p count mm := by
  intro i _ n _ e hMaps hLow hMem
  have hUser : userDir (16 * p + i) := by
    unfold userDir
    omega
  exact h.release_used hUser hMaps hLow (Mm.mem_freePages.mp hMem).2

end Calls

end Linux011

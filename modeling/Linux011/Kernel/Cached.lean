import Linux011.Library.Tlb
import Linux011.Kernel.Run

/-! The kernel on a processor with a translation cache. It is loaded from the page tables at any
time, also in the middle of a call, and emptied by `invalidate()` only. -/
namespace Linux011

open ByteMemory SharedRefs

/-- By page of the linear address space: the directory entry and the table entry. -/
abbrev Cache := Nat → Option (BitVec 32 × BitVec 32)

/-- The tables as the processor walks them. -/
def Mm.walk (mm : Mm) : Cache := fun page =>
  if page < 0x100000 ∧ Present (mm.pde (page / 1024)) ∧ Present (mm.pte (page / 1024) (page % 1024)) then
    some (mm.pde (page / 1024), mm.pte (page / 1024) (page % 1024))
  else none

/-- `cr3` loaded with 0. -/
def invalidate : Cache := Tlb.flush

def freePageTablesCached (mm : Mm) (from_ size : BitVec 32) : Except Stop (Mm × Cache) := do
  let mm ← freePageTables mm from_ size
  .ok (mm, invalidate)

/-- The `return -1` comes before `invalidate()`; `stale` is what the cache would hold there. -/
def copyPageTablesCached (stale : Cache) (mm : Mm) (from_ to_ size : BitVec 32) :
    Except Stop (BitVec 32 × Mm × Cache) := do
  let (failed, mm) ← copyPageTables mm from_ to_ size
  .ok (failed, mm, if failed = 0#32 then invalidate else stale)

/-- Both branches of `un_wp_page` end in `invalidate()`. -/
def doWpPageCached (mm : Mm) (address : BitVec 32) : Except Stop (Mm × Cache) := do
  let mm ← doWpPage mm address
  .ok (mm, invalidate)

def copyMemCached (stale : Cache) (ram : BitVec 32 → BitVec 8) (nr : Nat) (p : BitVec 32) (k : Kernel) :
    Except Stop (BitVec 32 × Kernel × Cache) :=
  let codeLimit := getLimit (k.heap k.current).ldt1
  let dataLimit := getLimit (k.heap k.current).ldt2
  let oldCodeBase := getBase ram (ldtAddr k.current + 8#32) (k.heap k.current).ldt1
  let oldDataBase := getBase ram (ldtAddr k.current + 16#32) (k.heap k.current).ldt2
  if oldDataBase ≠ oldCodeBase then
    .error (.panic "Do not support different code and data base addresses")
  else if dataLimit < codeLimit then .error (.panic "Data limit is less than code limit")
  else do
    let newBase := taskBase nr
    let k := k.place p { k.heap p with ldt1 := setBase (k.heap p).ldt1 newBase }
    let k := k.place p { k.heap p with ldt2 := setBase (k.heap p).ldt2 newBase }
    let (failed, mm, cache) ← copyPageTablesCached stale k.mm oldDataBase newBase dataLimit
    let k := { k with mm := mm }.reread p
    if failed ≠ 0#32 then
      let (mm, cache) ← freePageTablesCached k.mm newBase dataLimit
      .ok (-enomem, { k with mm := mm }, cache)
    else .ok (0#32, k, cache)

/-- `get_free_page` writes no table entry and does not call `invalidate()`, nor does
`free_page`. -/
def copyProcessCached (stale : Cache) (ram : BitVec 32 → BitVec 8) (nr : Nat) (regs : ForkFrame) (k : Kernel)
    (cache : Cache) :
    Except Stop (BitVec 32 × Kernel × Cache) := do
  let (p, mm) ← getFreePage k.mm
  let k := { k with mm := mm }
  if p = 0#32 then .ok (-eagain, k, cache)
  else
    let k := k.setSlot nr p
    let k := k.place p (childTask (k.heap k.current) nr p k.current k.lastPid regs)
    let (failed, k, cache) ← copyMemCached stale ram nr p k
    if failed ≠ 0#32 then
      let k := k.setSlot nr 0#32
      let mm ← freePage k.mm p
      .ok (-eagain, { k with mm := mm }, cache)
    else
      let k := k.setGdt (nr <<< 1 + firstTssEntry) (tssDesc (tssAddr p))
      let k := k.setGdt (nr <<< 1 + firstLdtEntry) (ldtDesc (ldtAddr p))
      .ok (k.lastPid, k, cache)

def sysForkCached (stale : Cache) (ram : BitVec 32 → BitVec 8) (regs : ForkFrame) (k : Kernel) (cache : Cache) :
    Except Stop (BitVec 32 × Kernel × Cache) := do
  let (nr, k) ← findEmptyProcess k
  if nr.msb then .ok (nr, k, cache) else copyProcessCached stale ram nr.toNat regs k cache

/-- A run on such a processor: what a task may do is up to the translation of the page. The kernel's
own accesses are to physical addresses, and its forks and write faults find their pages. -/
inductive ReachesCached (extMemK : BitVec 16) (image : Image) : Kernel → Cache → Nat → Prop where
  | boot (m : Memory) (heap : BitVec 32 → TaskStruct) (gdt : Nat → Desc) :
      ReachesCached extMemK image (bootKernel extMemK image m heap gdt) invalidate 0
  | fill {k : Kernel} {cache : Cache} {forks : Nat} (prior : ReachesCached extMemK image k cache forks) (page : Nat) :
      ReachesCached extMemK image k (Tlb.fill k.mm.walk cache page) forks
  | evict {k : Kernel} {cache : Cache} {forks : Nat} (prior : ReachesCached extMemK image k cache forks) (page : Nat) :
      ReachesCached extMemK image k (Tlb.evict cache page) forks
  | fork {k k' : Kernel} {cache cache' : Cache} {forks s : Nat} {ram : BitVec 32 → BitVec 8} {regs : ForkFrame}
      {result : BitVec 32} (prior : ReachesCached extMemK image k cache forks) (stale : Cache) (live : Live k s)
      (provided : ForkProvided ram { k with current := taskAddr image k s })
      (call : sysForkCached stale ram regs { k with current := taskAddr image k s } cache = .ok (result, k', cache')) :
      ReachesCached extMemK image k' cache' (if s = 0 ∧ result.msb = false then forks + 1 else forks)
  | fault {k : Kernel} {cache cache' : Cache} {mm : Mm} {forks s : Nat} {address pde pte : BitVec 32}
      (prior : ReachesCached extMemK image k cache forks) (live : Occupied k s) (inside : InSegment k s address)
      (translation : Tlb.translate k.mm.walk cache (address.toNat / 4096) = some (pde, pte))
      (readOnly : ¬Writable pte) (free : ∃ i < pagingPages, k.mm.memMap i = 0#8)
      (call : doWpPageCached k.mm address = .ok (mm, cache')) :
      ReachesCached extMemK image { k with mm := mm } cache' forks
  | store {k : Kernel} {cache : Cache} {forks s : Nat} {address pde pte : BitVec 32}
      (prior : ReachesCached extMemK image k cache forks) (live : Occupied k s) (inside : InSegment k s address)
      (translation : Tlb.translate k.mm.walk cache (address.toNat / 4096) = some (pde, pte))
      (dirWritable : Writable pde) (dirUser : User pde) (writable : Writable pte) (user : User pte) (v : BitVec 8) :
      ReachesCached extMemK image { k with mm := k.mm.storeByte (physical pte address) v } cache forks

section Walk

variable {mm mm' : Mm} {page d n : Nat} {pde pte address : BitVec 32}

theorem Mm.walk_eq_some : mm.walk page = some (pde, pte) ↔
    mm.pde (page / 1024) = pde ∧ mm.Maps (page / 1024) (page % 1024) pte := by
  unfold Mm.walk
  constructor
  · intro hWalk
    split_ifs at hWalk with hPresent
    obtain ⟨hPage, hDir, hEntry⟩ := hPresent
    obtain ⟨rfl, rfl⟩ := Prod.mk.inj (Option.some.inj hWalk)
    exact ⟨rfl, by omega, by omega, hDir, rfl, hEntry⟩
  · rintro ⟨rfl, hMaps⟩
    have hDir := hMaps.dir
    obtain rfl := hMaps.entry
    rw [if_pos ⟨by omega, hMaps.table, hMaps.present⟩]

theorem page_dir (address : BitVec 32) : address.toNat / 4096 / 1024 = dirIndex address := by
  unfold dirIndex
  omega

theorem page_table (address : BitVec 32) : address.toNat / 4096 % 1024 = tableIndex address := by
  unfold tableIndex
  omega

theorem Mm.walk_address : mm.walk (address.toNat / 4096) = some (pde, pte) ↔
    mm.pde (dirIndex address) = pde ∧ mm.Maps (dirIndex address) (tableIndex address) pte := by
  rw [Mm.walk_eq_some, page_dir, page_table]

theorem SameTables.walk (h : SameTables mm mm') : mm'.walk = mm.walk := by
  funext page
  unfold Mm.walk
  by_cases hPage : page < 0x100000
  · have hDir := h.pde (page / 1024) (by omega)
    by_cases hPresent : Present (mm.pde (page / 1024))
    · rw [hDir, h.pte (page / 1024) (by omega) hPresent (page % 1024) (by omega)]
    · rw [hDir, if_neg (fun hBoth => hPresent hBoth.2.1), if_neg (fun hBoth => hPresent hBoth.2.1)]
  · rw [if_neg (fun hBoth => hPage hBoth.1), if_neg (fun hBoth => hPage hBoth.1)]

end Walk

section Calls

variable {extMemK : BitVec 16} {image : Image} {stale cache cache' : Cache} {k k' : Kernel} {nr : Nat}
  {ram : BitVec 32 → BitVec 8} {p result : BitVec 32} {regs : ForkFrame} {mm : Mm} {address : BitVec 32}

theorem doWpPageCached_ok (hCall : doWpPageCached k.mm address = .ok (mm, cache')) :
    doWpPage k.mm address = .ok mm ∧ cache' = invalidate := by
  unfold doWpPageCached at hCall
  cases hPlain : doWpPage k.mm address with
  | error stop =>
      rw [hPlain] at hCall
      cases hCall
  | ok mm' =>
      rw [hPlain] at hCall
      obtain ⟨rfl, rfl⟩ := Prod.mk.inj (Except.ok.inj hCall)
      exact ⟨rfl, rfl⟩

theorem copyPageTablesCached_eq (stale : Cache) (mm : Mm) (from_ to_ size : BitVec 32) :
    copyPageTablesCached stale mm from_ to_ size =
      (copyPageTables mm from_ to_ size).map fun (failed, mm) => (failed, mm, invalidate) := by
  unfold copyPageTablesCached
  cases hCopy : copyPageTables mm from_ to_ size with
  | error stop => rfl
  | ok copied =>
      have hZero : copied.1 = 0#32 := copyPageTables_zero (hCopy.trans (congrArg _ (Prod.eta copied).symm))
      simp only [bind, Except.bind, Except.map, hZero, if_true]

/-- What `copy_mem` does with the tables; `put` reads the structure of the child again. -/
theorem copied_or_undone (stale : Cache) (mm : Mm) (from_ to_ size : BitVec 32) (put : Mm → Kernel) :
    (do
      let (failed, mm, cache) ← copyPageTablesCached stale mm from_ to_ size
      let k := put mm
      if failed ≠ 0#32 then
        let (mm, cache) ← freePageTablesCached k.mm to_ size
        .ok (-enomem, { k with mm := mm }, cache)
      else .ok (0#32, k, cache)) =
    Except.map (fun (failed, k) => (failed, k, invalidate)) (do
      let (failed, mm) ← copyPageTables mm from_ to_ size
      let k := put mm
      if failed ≠ 0#32 then
        let mm ← freePageTables k.mm to_ size
        .ok (-enomem, { k with mm := mm })
      else .ok (0#32, k)) := by
  rw [copyPageTablesCached_eq]
  rcases copyPageTables mm from_ to_ size with stop | ⟨failed, mm⟩
  · rfl
  · simp only [bind, Except.bind, Except.map]
    by_cases hFailed : failed = 0#32
    · rw [if_neg (not_not.mpr hFailed), if_neg (not_not.mpr hFailed)]
    · rw [if_pos hFailed, if_pos hFailed, freePageTablesCached]
      generalize freePageTables _ _ _ = freed
      cases freed <;> rfl

theorem copyMemCached_eq (stale : Cache) (ram : BitVec 32 → BitVec 8) (nr : Nat) (p : BitVec 32) (k : Kernel) :
    copyMemCached stale ram nr p k = (copyMem ram nr p k).map fun (failed, k) => (failed, k, invalidate) := by
  unfold copyMemCached copyMem
  extract_lets codeLimit dataLimit oldCodeBase oldDataBase newBase _ _ _ k₂
  split_ifs with hBases hLimits
  · rfl
  · rfl
  · exact copied_or_undone stale k₂.mm oldDataBase newBase dataLimit fun mm => { k₂ with mm := mm }.reread p

theorem copyProcessCached_eq (stale : Cache) (ram : BitVec 32 → BitVec 8) (nr : Nat) (regs : ForkFrame) (k : Kernel)
    (cache : Cache) : copyProcessCached stale ram nr regs k cache =
      (copyProcess ram nr regs k).map fun (result, k') => (result, k', invalidate) := by
  unfold copyProcessCached copyProcess
  simp only [copyMemCached_eq]
  cases hPage : getFreePage k.mm with
  | error stop => rfl
  | ok r =>
      obtain ⟨page, mm⟩ := r
      simp only [bind, Except.bind]
      rw [if_neg (getFreePage_ne_zero hPage), if_neg (getFreePage_ne_zero hPage)]
      generalize copyMem _ _ _ _ = copied
      rcases copied with stop | ⟨failed, k₁⟩
      · rfl
      · simp only [Except.map]
        by_cases hFailed : failed = 0#32
        · rw [if_neg (not_not.mpr hFailed), if_neg (not_not.mpr hFailed)]
        · rw [if_pos hFailed, if_pos hFailed]
          generalize freePage _ _ = freed
          cases freed <;> rfl

/-- A fork either empties the cache or leaves it and the tables alone. -/
theorem sysForkCached_ok (hCall : sysForkCached stale ram regs k cache = .ok (result, k', cache')) :
    sysFork ram regs k = .ok (result, k') ∧ (cache' = invalidate ∨ cache' = cache ∧ k'.mm = k.mm) := by
  unfold sysForkCached at hCall
  unfold sysFork
  obtain ⟨pid, _, ⟨nr, _, _, _, hRun⟩ | ⟨_, hRun⟩⟩ := findEmptyProcess_cases k
  · rw [hRun] at hCall ⊢
    simp only [bind, Except.bind] at hCall ⊢
    split_ifs at hCall ⊢ with hNegative
    · cases hCall
      exact ⟨rfl, Or.inr ⟨rfl, rfl⟩⟩
    · rw [copyProcessCached_eq] at hCall
      cases hPlain : copyProcess ram (BitVec.ofNat 32 nr).toNat regs { k with lastPid := pid } with
      | error stop =>
          rw [hPlain] at hCall
          cases hCall
      | ok r =>
          rw [hPlain] at hCall
          cases hCall
          exact ⟨rfl, Or.inl rfl⟩
  · rw [hRun] at hCall ⊢
    simp only [bind, Except.bind] at hCall ⊢
    rw [if_pos (by decide)] at hCall ⊢
    cases hCall
    exact ⟨rfl, Or.inr ⟨rfl, rfl⟩⟩

theorem sysForkCached_empty (hCall : sysFork ram regs k = .ok (result, k')) :
    sysForkCached stale ram regs k invalidate = .ok (result, k', invalidate) := by
  unfold sysFork at hCall
  unfold sysForkCached
  cases hSlot : findEmptyProcess k with
  | error stop =>
      rw [hSlot] at hCall
      cases hCall
  | ok r =>
      rw [hSlot] at hCall
      simp only [bind, Except.bind] at hCall ⊢
      split_ifs at hCall ⊢ with hNegative
      · cases hCall
        rfl
      · rw [copyProcessCached_eq, hCall]
        rfl

end Calls

section Run

variable {extMemK : BitVec 16} {image : Image} {k : Kernel} {cache : Cache} {forks : Nat}

theorem ReachesCached.refines (run : ReachesCached extMemK image k cache forks) :
    Reaches extMemK image k forks ∧ Tlb.Coherent k.mm.walk cache := by
  induction run with
  | boot m heap gdt => exact ⟨Reaches.boot m heap gdt, Tlb.coherent_flush _⟩
  | fill prior page ih => exact ⟨ih.1, ih.2.fill page⟩
  | evict prior page ih => exact ⟨ih.1, ih.2.evict page⟩
  | fork prior stale live provided call ih =>
      obtain ⟨hRun, hCoherent⟩ := ih
      obtain ⟨hPlain, hFlushed | ⟨rfl, hSame⟩⟩ := sysForkCached_ok call
      · subst hFlushed
        exact ⟨hRun.fork live provided hPlain, Tlb.coherent_flush _⟩
      · refine ⟨hRun.fork live provided hPlain, ?_⟩
        rw [hSame]
        exact hCoherent
  | fault prior live inside translation readOnly free call ih =>
      obtain ⟨hRun, hCoherent⟩ := ih
      obtain ⟨hPlain, rfl⟩ := doWpPageCached_ok call
      rw [hCoherent.translate, Mm.walk_address] at translation
      exact ⟨hRun.fault live inside translation.2 readOnly free hPlain, Tlb.coherent_flush _⟩
  | @store k cache forks s address pde pte prior live inside translation dirWritable dirUser writable user v ih =>
      obtain ⟨hRun, hCoherent⟩ := ih
      rw [hCoherent.translate, Mm.walk_address] at translation
      obtain ⟨rfl, hMaps⟩ := translation
      have hTables := hRun.inv.mm.sameTables_storeByte (hRun.inv.user_of_inSegment live inside) hMaps writable
        address v
      exact ⟨hRun.store live inside ⟨hMaps, dirWritable, dirUser, writable, user⟩ v,
        hCoherent.tables fun page _ => congrFun hTables.walk page⟩

/-- The processor that caches nothing. -/
theorem Reaches.cached (run : Reaches extMemK image k forks) : ReachesCached extMemK image k invalidate forks := by
  induction run with
  | boot m heap gdt => exact ReachesCached.boot m heap gdt
  | fork prior live provided call ih => exact ih.fork invalidate live provided (sysForkCached_empty call)
  | fault prior live inside maps readOnly free call ih =>
      refine ih.fault live inside (Mm.walk_address.mpr ⟨rfl, maps⟩) readOnly free ?_
      unfold doWpPageCached
      rw [call]
      rfl
  | store prior live inside writable v ih =>
      exact ih.store live inside (Mm.walk_address.mpr ⟨rfl, writable.maps⟩) writable.dirWritable writable.dirUser
        writable.writable writable.user v

/-- The cache makes no difference, whenever it is loaded, also between the stores of a call: it
reaches the states that are reached without one, and there every page has the translation that the
tables give it. -/
theorem cache_transparent (extMemK : BitVec 16) (image : Image) (k : Kernel) (forks : Nat) :
    ((∃ cache, ReachesCached extMemK image k cache forks) ↔ Reaches extMemK image k forks) ∧
      ∀ cache, ReachesCached extMemK image k cache forks →
        ∀ page, Tlb.translate k.mm.walk cache page = k.mm.walk page :=
  ⟨⟨fun ⟨_, run⟩ => run.refines.1, fun run => ⟨_, run.cached⟩⟩, fun _ run => run.refines.2.translate⟩

/-- Page 0 is in the cache. -/
theorem cache_transparent_boot (extMemK : BitVec 16) : Tlb.translate (smallKernel extMemK).mm.walk
    (Tlb.fill (smallKernel extMemK).mm.walk invalidate 0) 0 = (smallKernel extMemK).mm.walk 0 :=
  (cache_transparent extMemK smallImage (smallKernel extMemK) 0).2 _
    ((ReachesCached.boot (fun _ => 0) (fun _ => initTask smallImage) fun _ => ⟨0, 0⟩).fill 0) 0

end Run

end Linux011

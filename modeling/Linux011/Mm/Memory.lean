import Linux011.Mm.Swap

/-! `mm/memory.c`: releasing, sharing and un-sharing pages. Pointers into page
tables are physical addresses. -/
namespace Linux011

open ByteMemory

def taskSize : BitVec 32 := 0x04000000#32

/-- `mem_map[addr]--` is tested before the decrement; a zero count is put back
and reported. -/
def freePage (mm : Mm) (addr : BitVec 32) : Except Stop Mm :=
  if addr < lowMem then .ok mm
  else if mm.highMemory ≤ addr then .error (.panic "Trying to free memory above HIGH_MEMORY")
  else if mm.memMap (mapNr addr) ≠ 0#8 then .ok (mm.decr (mapNr addr))
  else .error (.panic "Trying to free an unallocated page")

/-- The inner loop of `free_page_tables` over the entries from `pgTable` on. -/
def freePageTable : Nat → Nat → Mm → Except Stop Mm
  | 0, _, mm => .ok mm
  | nr + 1, pgTable, mm =>
      let entry := mm.load pgTable
      if entry = 0#32 then freePageTable nr (pgTable + 4) mm
      else if 1#32 &&& entry = 0#32 then freePageTable nr (pgTable + 4) (mm.store pgTable 0#32)
      else do
        let mm ← freePage mm (0xfffff000#32 &&& entry)
        freePageTable nr (pgTable + 4) (mm.store pgTable 0#32)

/-- The outer loop of `free_page_tables` over the directory entries from `dir`
on. The table is found with the mask `0xfffff00` and released with
`0xfffff000`. -/
def freePageDirs : Nat → Nat → Mm → Except Stop Mm
  | 0, _, mm => .ok mm
  | size + 1, dir, mm =>
      if 1#32 &&& mm.load dir = 0#32 then freePageDirs size (dir + 4) mm
      else do
        let mm ← freePageTable 1024 (0xfffff00#32 &&& mm.load dir).toNat mm
        let mm ← freePage mm (0xfffff000#32 &&& mm.load dir)
        freePageDirs size (dir + 4) (mm.store dir 0#32)

def freePageTables (mm : Mm) (from_ size : BitVec 32) : Except Stop Mm :=
  if from_ &&& 0x3fffff#32 ≠ 0#32 then
    .error (.panic "free_page_tables called with unaligned address")
  else if from_ = 0#32 then .error (.panic "Trying to free up swapper memory space")
  else
    freePageDirs ((size + 0x3fffff#32) >>> 22).toNat ((from_ >>> 20) &&& 0xffc#32).toNat mm

/-- The inner loop of `copy_page_tables`. -/
def copyPageTable : Nat → Nat → Nat → Mm → Mm
  | 0, _, _, mm => mm
  | nr + 1, fromPageTable, toPageTable, mm =>
      let thisPage := mm.load fromPageTable
      if thisPage = 0#32 then copyPageTable nr (fromPageTable + 4) (toPageTable + 4) mm
      else if 1#32 &&& thisPage = 0#32 then
        copyPageTable nr (fromPageTable + 4) (toPageTable + 4) mm
      else
        let thisPage := thisPage &&& ~~~2#32
        let mm := mm.store toPageTable thisPage
        let mm := if lowMem < thisPage then (mm.store fromPageTable thisPage).incr (mapNr thisPage)
          else mm
        copyPageTable nr (fromPageTable + 4) (toPageTable + 4) mm

/-- The outer loop of `copy_page_tables`; -1 when `get_free_page` returns 0 for the
next table. -/
def copyPageDirs (from_ : BitVec 32) : Nat → Nat → Nat → Mm → Except Stop (BitVec 32 × Mm)
  | 0, _, _, mm => .ok (0#32, mm)
  | size + 1, fromDir, toDir, mm =>
      if 1#32 &&& mm.load toDir ≠ 0#32 then
        .error (.panic "copy_page_tables called with already present page table")
      else if 1#32 &&& mm.load fromDir = 0#32 then
        copyPageDirs from_ size (fromDir + 4) (toDir + 4) mm
      else do
        let fromPageTable := 0xfffff00#32 &&& mm.load fromDir
        let (toPageTable, mm) ← getFreePage mm
        if toPageTable = 0#32 then .ok (-1#32, mm)
        else
          let mm := mm.store toDir (toPageTable ||| 7#32)
          let nr := if from_ = 0#32 then 0xa0 else 1024
          copyPageDirs from_ size (fromDir + 4) (toDir + 4)
            (copyPageTable nr fromPageTable.toNat toPageTable.toNat mm)

def copyPageTables (mm : Mm) (from_ to_ size : BitVec 32) : Except Stop (BitVec 32 × Mm) :=
  if from_ &&& 0x3fffff#32 ≠ 0#32 ∨ to_ &&& 0x3fffff#32 ≠ 0#32 then
    .error (.panic "copy_page_tables called with unaligned address")
  else
    copyPageDirs from_ ((size + 0x3fffff#32) >>> 22).toNat ((from_ >>> 20) &&& 0xffc#32).toNat
      ((to_ >>> 20) &&& 0xffc#32).toNat mm

/-- Every `get_free_page` of the outer loop finds a page. -/
def PagesFound (from_ : BitVec 32) : Nat → Nat → Nat → Mm → Prop
  | 0, _, _, _ => True
  | size + 1, fromDir, toDir, mm =>
      if 1#32 &&& mm.load fromDir = 0#32 then PagesFound from_ size (fromDir + 4) (toDir + 4) mm
      else
        ∃ page mm', getFreePage mm = .ok (page, mm') ∧ page ≠ noPage ∧
          PagesFound from_ size (fromDir + 4) (toDir + 4)
            (copyPageTable (if from_ = 0#32 then 0xa0 else 1024) (0xfffff00#32 &&& mm.load fromDir).toNat
              page.toNat (mm'.store toDir (page ||| 7#32)))

/-- Those of a call of `copy_page_tables`. -/
def CopyPagesFound (mm : Mm) (from_ to_ size : BitVec 32) : Prop :=
  PagesFound from_ ((size + 0x3fffff#32) >>> 22).toNat ((from_ >>> 20) &&& 0xffc#32).toNat
    ((to_ >>> 20) &&& 0xffc#32).toNat mm

/-- `copy_page`: `cld; rep; movsl` with 1024 words. -/
def Mm.copyPage (mm : Mm) (source target : BitVec 32) : Mm :=
  { mm with mem := copyUp mm.mem source.toNat target.toNat 1024 }

/-- The copying branch does not test the result of `get_free_page`. -/
def unWpPage (mm : Mm) (tableEntry : Nat) : Except Stop Mm :=
  let oldPage := 0xfffff000#32 &&& mm.load tableEntry
  if lowMem ≤ oldPage ∧ mm.memMap (mapNr oldPage) = 1#8 then
    .ok (mm.store tableEntry (mm.load tableEntry ||| 2#32))
  else do
    let (newPage, mm) ← getFreePage mm
    let mm := if lowMem ≤ oldPage then mm.decr (mapNr oldPage) else mm
    .ok ((mm.copyPage oldPage newPage).store tableEntry (newPage ||| 7#32))

/-- The page table is found through the directory at physical address 0. -/
def doWpPage (mm : Mm) (address : BitVec 32) : Except Stop Mm :=
  if address < taskSize then .error (.panic "do_wp_page called for user space address")
  else
    let dir := mm.load ((address >>> 20) &&& 0xffc#32).toNat
    unWpPage mm (((address >>> 10) &&& 0xffc#32) + (0xfffff000#32 &&& dir)).toNat

theorem pagesFound_absent {from_ : BitVec 32} {size fromDir toDir : Nat} {mm : Mm}
    (hFrom : 1#32 &&& mm.load fromDir = 0#32) :
    PagesFound from_ (size + 1) fromDir toDir mm ↔ PagesFound from_ size (fromDir + 4) (toDir + 4) mm := by
  rw [PagesFound, if_pos hFrom]

theorem pagesFound_page {from_ page : BitVec 32} {size fromDir toDir : Nat} {mm mm' : Mm}
    (hFrom : ¬1#32 &&& mm.load fromDir = 0#32) (hCall : getFreePage mm = .ok (page, mm')) :
    PagesFound from_ (size + 1) fromDir toDir mm ↔ page ≠ noPage ∧
      PagesFound from_ size (fromDir + 4) (toDir + 4)
        (copyPageTable (if from_ = 0#32 then 0xa0 else 1024) (0xfffff00#32 &&& mm.load fromDir).toNat page.toNat
          (mm'.store toDir (page ||| 7#32))) := by
  rw [PagesFound, if_neg hFrom]
  constructor
  · rintro ⟨page', mm1, hCall', hPage, hRest⟩
    obtain ⟨rfl, rfl⟩ := Prod.mk.inj (Except.ok.inj (hCall.symm.trans hCall'))
    exact ⟨hPage, hRest⟩
  · exact fun ⟨hPage, hRest⟩ => ⟨page, mm', hCall, hPage, hRest⟩

/-- Without a free page the next table has none. -/
theorem not_pagesFound {from_ : BitVec 32} {size fromDir toDir : Nat} {mm mm' : Mm}
    (hFrom : ¬1#32 &&& mm.load fromDir = 0#32) (hCall : getFreePage mm = .ok (noPage, mm')) :
    ¬PagesFound from_ (size + 1) fromDir toDir mm := fun hFound =>
  ((pagesFound_page hFrom hCall).mp hFound).1 rfl

@[simp] theorem Mm.copyPage_memMap (mm : Mm) (source target : BitVec 32) :
    (mm.copyPage source target).memMap = mm.memMap := rfl

@[simp] theorem Mm.copyPage_highMemory (mm : Mm) (source target : BitVec 32) :
    (mm.copyPage source target).highMemory = mm.highMemory := rfl

@[simp] theorem Mm.copyPage_wrapped (mm : Mm) (source target : BitVec 32) :
    (mm.copyPage source target).wrapped = mm.wrapped := rfl

theorem Mm.copyPage_outside (mm : Mm) (source target : BitVec 32) {a : Nat}
    (h : a < target.toNat ∨ target.toNat + 4096 ≤ a) : (mm.copyPage source target).mem a = mm.mem a :=
  copyUp_outside _ _ _ _ (by omega)

theorem Mm.copyPage_inside (mm : Mm) {source target : BitVec 32}
    (hOrder : source.toNat + 4096 ≤ target.toNat ∨ target.toNat ≤ source.toNat) {b : Nat} (hb : b < 4096) :
    (mm.copyPage source target).mem (target.toNat + b) = mm.mem (source.toNat + b) :=
  copyUp_inside _ _ _ _ (by omega) (by omega)

theorem freePage_low {mm : Mm} {addr : BitVec 32} (h : addr < lowMem) : freePage mm addr = .ok mm :=
  if_pos h

theorem freePage_managed {mm : Mm} {addr : BitVec 32} (hLow : lowMem ≤ addr)
    (hHigh : addr < mm.highMemory) (hUsed : mm.memMap (mapNr addr) ≠ 0#8) :
    freePage mm addr = .ok (mm.decr (mapNr addr)) := by
  rw [freePage, if_neg (BitVec.not_lt.mpr hLow), if_neg (BitVec.not_le.mpr hHigh), if_pos hUsed]

end Linux011

import Linux011.Kernel.Idt
import Linux011.Library.Pic
import Mathlib.Data.List.Pairwise

/-! Hardware interrupts: the two controllers as `setup.S`, `trap_init`, `sched_init` and `con_init`
program them, the interrupt flag, and the handlers that are under way, in every order in which
requests come in and handlers go on. -/
namespace Linux011

open Pic

structure Pics where
  master : Chip
  slave : Chip

namespace Pics

/-- `outb`; the other ports belong to other devices. -/
def outb (port : BitVec 16) (value : BitVec 8) (p : Pics) : Pics :=
  if port = 0x20#16 then { p with master := p.master.command value }
  else if port = 0x21#16 then { p with master := p.master.data value }
  else if port = 0xa0#16 then { p with slave := p.slave.command value }
  else if port = 0xa1#16 then { p with slave := p.slave.data value }
  else p

/-- `inb` of a mask. -/
def inb (port : BitVec 16) (p : Pics) : BitVec 8 := if port = 0x21#16 then p.master.imr else p.slave.imr

/-- The writes of `setup.S`. -/
def setup (p : Pics) : Pics :=
  p
  |> outb 0x20 0x11 |> outb 0xa0 0x11
  |> outb 0x21 0x20 |> outb 0xa1 0x28
  |> outb 0x21 0x04 |> outb 0xa1 0x02
  |> outb 0x21 0x01 |> outb 0xa1 0x01
  |> outb 0x21 0xff |> outb 0xa1 0xff

def trapInit (p : Pics) : Pics :=
  let p := p.outb 0x21 (p.inb 0x21 &&& 0xfb#8)
  p.outb 0xa1 (p.inb 0xa1 &&& 0xdf#8)

def schedInit (p : Pics) : Pics := p.outb 0x21 (p.inb 0x21 &&& ~~~0x01#8)

def conInit (p : Pics) : Pics := p.outb 0x21 (p.inb 0x21 &&& 0xfd#8)

def boot (p : Pics) : Pics := p.setup.trapInit.schedInit.conInit

end Pics

/-- A handler that is under way: the line it was requested on, the interrupt flag that its `iret`
puts back, and whether it has sent its end of interrupt. -/
structure Frame where
  entry : Entry
  line : Option (Fin 8)
  saved : Bool
  acked : Bool

/-- The innermost handler comes first; there is none in ring 3. -/
structure Irqs where
  pics : Pics
  enabled : Bool
  frames : List Frame

/-- `timer_interrupt` and `keyboard_handler` write 0x20 to port 0x20, and nothing else does. -/
def Entry.acks (e : Entry) : Bool := e == .timerInterrupt || e == .keyboardInterrupt

/-- The handlers that do not end in the loop of `die`. -/
def Entry.returns (e : Entry) : Bool :=
  e ∈ [.timerInterrupt, .keyboardInterrupt, .systemCall, .pageFault, .ignoreInt, .noError .doInt3]

def vectorOf (base : BitVec 8) (i : Fin 8) : Fin 256 := ⟨(base + BitVec.ofNat 8 i).toNat, BitVec.isLt _⟩

/-- The line of the master that the slave is on. -/
abbrev cascade : Fin 8 := ⟨2, by decide⟩

namespace Irqs

def deliver (s : Irqs) (vector : Fin 256) (line : Option (Fin 8)) : Irqs :=
  { s with
    enabled := s.enabled && !(idt vector).clearsIf
    frames := ⟨idt vector, line, s.enabled, false⟩ :: s.frames }

/-- The processor takes line `i` of the master. Behind the cascade the slave gives the vector, its
last one where it has nothing to pass on. -/
def accept (s : Irqs) (i : Fin 8) : Irqs :=
  if i = cascade then
    match s.pics.slave.pending with
    | some j =>
        { s with pics := ⟨s.pics.master.acknowledge cascade, s.pics.slave.acknowledge j⟩ }.deliver
          (vectorOf s.pics.slave.base j) (some cascade)
    | none =>
        { s with pics := ⟨s.pics.master.acknowledge cascade, s.pics.slave⟩ }.deliver
          (vectorOf s.pics.slave.base (Fin.last 7)) (some cascade)
  else
    { s with pics := ⟨s.pics.master.acknowledge i, s.pics.slave⟩ }.deliver (vectorOf s.pics.master.base i) (some i)

/-- A request on a line of the slave, which the slave passes on to the master. -/
def requestSlave (s : Irqs) (i : Fin 8) : Irqs :=
  let slave := s.pics.slave.request i
  { s with pics := ⟨if slave.pending.isSome then s.pics.master.request cascade else s.pics.master, slave⟩ }

/-- What the handlers do: whether they raise exceptions themselves, and the bytes that each has pushed
when it sends its end of interrupt. -/
structure Conduct where
  faults : Bool
  use : Entry → Nat

/-- The bytes of the kernel stack that are in use: SS and ESP of ring 3, and for each handler EFLAGS, CS
and EIP and what it has pushed at the least. -/
def stack (use : Entry → Nat) (s : Irqs) : Nat :=
  (if s.frames.isEmpty then 0 else 8) + (s.frames.map fun f => 12 + if f.acked then use f.entry else 0).sum

/-- The kernel stack of a task: its page behind the 148 bytes of its `task_struct`. -/
def stackRoom : Nat := 4096 - 148

/-- A run from the first instruction in ring 3, of one step of a device, of the processor or of the
innermost handler after the other, up to where the kernel stack would run into the `task_struct`. -/
inductive Reaches (conduct : Conduct) : Irqs → Prop where
  | boot (p : Pics) : Reaches conduct ⟨p.boot, true, []⟩
  | request {s : Irqs} (prior : Reaches conduct s) (i : Fin 8) :
      Reaches conduct { s with pics := { s.pics with master := s.pics.master.request i } }
  | requestSlave {s : Irqs} (prior : Reaches conduct s) (i : Fin 8) : Reaches conduct (s.requestSlave i)
  | accept {s : Irqs} {i : Fin 8} (prior : Reaches conduct s) (enabled : s.enabled = true)
      (pending : s.pics.master.pending = some i) (room : (s.accept i).stack conduct.use ≤ stackRoom) :
      Reaches conduct (s.accept i)
  /-- A system call or an exception, in ring 3 or in a handler that raises some. -/
  | trap {s : Irqs} (prior : Reaches conduct s) (vector : Fin 256) (user : s.frames = [] ∨ conduct.faults = true)
      (other : (idt vector).acks = false) (room : (s.deliver vector none).stack conduct.use ≤ stackRoom) :
      Reaches conduct (s.deliver vector none)
  | endOfInterrupt {s : Irqs} {f : Frame} {rest : List Frame} (prior : Reaches conduct s)
      (inner : s.frames = f :: rest) (sends : f.entry.acks = true) (first : f.acked = false)
      (room : ({ s with frames := { f with acked := true } :: rest } : Irqs).stack conduct.use ≤ stackRoom) :
      Reaches conduct { s with pics := s.pics.outb 0x20 0x20, frames := { f with acked := true } :: rest }
  /-- `cli` and `sti` of `set_cursor` and `set_origin`. -/
  | setIf {s : Irqs} {f : Frame} {rest : List Frame} (prior : Reaches conduct s) (inner : s.frames = f :: rest)
      (prints : f.entry.clearsIf = false) (flag : Bool) : Reaches conduct { s with enabled := flag }
  | iret {s : Irqs} {f : Frame} {rest : List Frame} (prior : Reaches conduct s) (inner : s.frames = f :: rest)
      (returns : f.entry.returns = true) (done : f.entry.acks = true → f.acked = true) :
      Reaches conduct { s with enabled := f.saved, frames := rest }
  /-- The tick that gives the processor to a child that has not run yet, whose flags are those of
  a task in ring 3. -/
  | fresh {s : Irqs} {f : Frame} (prior : Reaches conduct s) (inner : s.frames = [f])
      (timer : f.entry = .timerInterrupt) (done : f.acked = true) :
      Reaches conduct { s with enabled := true, frames := [] }

end Irqs

/-- The line that the handler still has in service. -/
def Frame.open (f : Frame) : Option (Fin 8) := if f.acked then none else f.line

def Irqs.open (s : Irqs) : List (Fin 8) := s.frames.filterMap Frame.open

/-- The invariant. The lines in service are those of the handlers that have not sent their end of
interrupt, in the order of the priorities; the timer is only ever the innermost handler. -/
structure Orderly (s : Irqs) : Prop where
  imr : s.pics.master.imr = 0xf8#8
  base : s.pics.master.base = 0x20#8
  slaveBase : s.pics.slave.base = 0x28#8
  service : ∀ i, s.pics.master.isr i = true ↔ i ∈ s.open
  order : s.open.Pairwise (· < ·)
  line : ∀ f ∈ s.frames, f.entry.acks = true → f.line ≠ none
  kind : ∀ f ∈ s.frames, f.line ≠ none → f.entry.acks = true ∨ f.entry.returns = false
  inner : ∀ f ∈ s.frames.tail, f.entry ≠ .timerInterrupt
  off : ∀ f rest, s.frames = f :: rest → f.entry = .timerInterrupt → s.enabled = false
  saved : ∀ f ∈ s.frames, f.saved = true
  user : s.frames = [] → s.enabled = true

/-- The four interrupts that are asked for are let through: lines 0, 1 and 2, and line 5 of the
slave. -/
theorem boot_eq (p : Pics) : p.boot = ⟨⟨0xf8#8, fun _ => false, fun _ => false, 0x20#8, []⟩,
    ⟨0xdf#8, fun _ => false, fun _ => false, 0x28#8, []⟩⟩ := by
  simp [Pics.boot, Pics.setup, Pics.trapInit, Pics.schedInit, Pics.conInit, Pics.outb, Pics.inb, Chip.command,
    Chip.data]

theorem Pics.outb_endOfInterrupt (p : Pics) : p.outb 0x20 0x20 = ⟨p.master.endOfInterrupt, p.slave⟩ := by
  simp [Pics.outb, Chip.command]

namespace Orderly

variable {s : Irqs} {f : Frame} {rest : List Frame} {i : Fin 8}

theorem boot (p : Pics) : Orderly ⟨p.boot, true, []⟩ where
  imr := by rw [boot_eq]
  base := by rw [boot_eq]
  slaveBase := by rw [boot_eq]
  service := by
    intro i
    rw [boot_eq]
    simp [Irqs.open]
  order := List.Pairwise.nil
  line := by simp
  kind := by simp
  inner := by simp
  off := by simp
  saved := by simp
  user := fun _ => rfl

/-- A step that leaves the handlers and the masks alone. -/
theorem set_pics (h : Orderly s) {p : Pics} (hImr : p.master.imr = s.pics.master.imr)
    (hBase : p.master.base = s.pics.master.base) (hSlave : p.slave.base = s.pics.slave.base)
    (hIsr : p.master.isr = s.pics.master.isr) : Orderly { s with pics := p } where
  imr := hImr.trans h.imr
  base := hBase.trans h.base
  slaveBase := hSlave.trans h.slaveBase
  service := by
    intro i
    rw [hIsr]
    exact h.service i
  order := h.order
  line := h.line
  kind := h.kind
  inner := h.inner
  off := h.off
  saved := h.saved
  user := h.user

/-- While interrupts are enabled the timer is not under way at all. -/
theorem not_timer (h : Orderly s) (hOn : s.enabled = true) : ∀ f ∈ s.frames, f.entry ≠ .timerInterrupt := by
  intro f hf hTimer
  cases hFrames : s.frames with
  | nil =>
      rw [hFrames] at hf
      cases hf
  | cons g rest =>
      rw [hFrames] at hf
      rcases List.mem_cons.mp hf with rfl | hRest
      · have hOff := h.off f rest hFrames hTimer
        rw [hOn] at hOff
        cases hOff
      · exact h.inner f (by rw [hFrames]; exact hRest) hTimer

theorem deliver (h : Orderly s) (hOn : s.enabled = true) {p : Pics} {vector : Fin 256} {line : Option (Fin 8)}
    (hImr : p.master.imr = s.pics.master.imr) (hBase : p.master.base = s.pics.master.base)
    (hSlave : p.slave.base = s.pics.slave.base)
    (hService : ∀ i, p.master.isr i = true ↔ line = some i ∨ s.pics.master.isr i = true)
    (hFirst : ∀ i j, line = some i → s.pics.master.isr j = true → i < j)
    (hLine : (idt vector).acks = true → line ≠ none)
    (hKind : line ≠ none → (idt vector).acks = true ∨ (idt vector).returns = false) :
    Orderly (Irqs.deliver { s with pics := p } vector line) where
  imr := hImr.trans h.imr
  base := hBase.trans h.base
  slaveBase := hSlave.trans h.slaveBase
  service := by
    intro i
    refine (hService i).trans ?_
    rw [h.service]
    cases line with
    | none => simp only [Irqs.open, Irqs.deliver, Frame.open, List.filterMap_cons_none, reduceCtorEq, false_or,
        Bool.false_eq_true, if_false]
    | some j =>
        change _ ↔ i ∈ j :: s.open
        rw [List.mem_cons, Option.some.injEq, eq_comm]
  order := by
    cases line with
    | none => exact h.order
    | some i => exact List.Pairwise.cons (fun j hj => hFirst i j rfl ((h.service j).mpr hj)) h.order
  line := by
    intro f hf
    rcases List.mem_cons.mp hf with rfl | hOld
    · exact hLine
    · exact h.line f hOld
  kind := by
    intro f hf
    rcases List.mem_cons.mp hf with rfl | hOld
    · exact hKind
    · exact h.kind f hOld
  inner := h.not_timer hOn
  off := by
    intro f rest hFrames hTimer
    obtain ⟨rfl, _⟩ := List.cons.inj hFrames
    have hClears : (idt vector).clearsIf = true := by
      dsimp only at hTimer
      rw [hTimer]
      rfl
    dsimp only [Irqs.deliver]
    rw [hClears, Bool.not_true, Bool.and_false]
  saved := by
    intro f hf
    rcases List.mem_cons.mp hf with rfl | hOld
    · exact hOn
    · exact h.saved f hOld
  user := fun hNone => nomatch hNone

theorem open_lines : ∀ i : Fin 8, (0xf8#8).getLsbD i = false → i = 0 ∨ i = 1 ∨ i = 2 := by decide

theorem lines_open : ∀ i : Fin 8, i < 3 → (0xf8#8).getLsbD i = false := by decide

theorem slave_vectors : ∀ j : Fin 8,
    (idt (vectorOf 0x28#8 j)).acks = false ∧ (idt (vectorOf 0x28#8 j)).returns = false := by
  decide +kernel

theorem master_vectors : ∀ i : Fin 8, i = 0 ∨ i = 1 → (idt (vectorOf 0x20#8 i)).acks = true := by decide +kernel

theorem accept (h : Orderly s) (hOn : s.enabled = true) (hPending : s.pics.master.pending = some i) :
    Orderly (s.accept i) := by
  obtain ⟨_, hOpen, hFirst⟩ := Chip.pending_some hPending
  rw [h.imr] at hOpen
  have hService {line : Fin 8} (k : Fin 8) : Function.update s.pics.master.isr line true k = true ↔
      some line = some k ∨ s.pics.master.isr k = true := by
    by_cases hSame : k = line
    · subst hSame
      simp
    · simp [Function.update_of_ne hSame, Ne.symm hSame]
  unfold Irqs.accept
  split_ifs with hSlaveLine
  · subst hSlaveLine
    obtain ⟨hAcks, hReturns⟩ := slave_vectors 7
    cases hSlave : s.pics.slave.pending with
    | none =>
        refine h.deliver hOn rfl rfl rfl hService (fun k j hk hj => ?_) (fun hYes => ?_) fun _ => ?_
        · obtain rfl := Option.some.inj hk
          exact hFirst j hj
        · exact Option.some_ne_none 2
        · rw [h.slaveBase]
          exact Or.inr hReturns
    | some j =>
        refine h.deliver hOn rfl rfl rfl hService (fun k j hk hj => ?_) (fun hYes => ?_) fun _ => ?_
        · obtain rfl := Option.some.inj hk
          exact hFirst j hj
        · exact Option.some_ne_none 2
        · rw [h.slaveBase]
          exact Or.inr (slave_vectors j).2
  · refine h.deliver hOn rfl rfl rfl hService (fun k j hk hj => ?_) (fun hYes => ?_) fun _ => ?_
    · obtain rfl := Option.some.inj hk
      exact hFirst j hj
    · exact Option.some_ne_none i
    · rw [h.base]
      refine Or.inl (master_vectors i ?_)
      rcases open_lines i hOpen with hZero | hOne | hTwo
      · exact Or.inl hZero
      · exact Or.inr hOne
      · exact absurd hTwo hSlaveLine

theorem trap (h : Orderly s) (hUser : s.frames = []) {vector : Fin 256} (hOther : (idt vector).acks = false) :
    Orderly (s.deliver vector none) := by
  refine h.deliver (h.user hUser) rfl rfl rfl (fun i => ?_) (fun i j hi => nomatch hi) (fun hYes => ?_) fun hNot => ?_
  · simp
  · rw [hOther] at hYes
    cases hYes
  · exact absurd rfl hNot

/-- The end of interrupt goes to the line of the handler that sends it. -/
theorem inService (h : Orderly s) (hFrames : s.frames = f :: rest) (hSends : f.entry.acks = true)
    (hFirst : f.acked = false) : ∃ i, f.line = some i ∧ s.pics.master.inService = some i ∧
      s.open = i :: rest.filterMap Frame.open := by
  obtain ⟨i, hLine⟩ := Option.ne_none_iff_exists'.mp (h.line f (by rw [hFrames]; exact List.mem_cons_self ..) hSends)
  have hOpen : s.open = i :: rest.filterMap Frame.open := by
    rw [Irqs.open, hFrames, List.filterMap_cons_some]
    rw [Frame.open, hFirst, hLine]
    rfl
  refine ⟨i, hLine, Chip.inService_some.mpr ⟨?_, fun j hj => ?_⟩, hOpen⟩
  · rw [h.service, hOpen]
    exact List.mem_cons_self ..
  · rw [Bool.eq_false_iff, ne_eq, h.service, hOpen]
    intro hMem
    have hOrder := h.order
    rw [hOpen] at hOrder
    rcases List.mem_cons.mp hMem with rfl | hRest
    · exact lt_irrefl _ hj
    · exact lt_asymm hj (List.rel_of_pairwise_cons hOrder hRest)

theorem endOfInterrupt (h : Orderly s) (hFrames : s.frames = f :: rest) (hSends : f.entry.acks = true)
    (hFirst : f.acked = false) :
    Orderly { s with pics := s.pics.outb 0x20 0x20, frames := { f with acked := true } :: rest } := by
  obtain ⟨i, hLine, hService, hOpen⟩ := h.inService hFrames hSends hFirst
  have hOrder := h.order
  rw [hOpen] at hOrder
  have hPics : s.pics.outb 0x20 0x20 =
      ⟨{ s.pics.master with isr := Function.update s.pics.master.isr i false }, s.pics.slave⟩ := by
    rw [s.pics.outb_endOfInterrupt, Chip.endOfInterrupt_eq hService]
  have hNew : ({ f with acked := true } : Frame).open = none := rfl
  rw [hPics]
  have hAll {P : Frame → Prop} (hOld : ∀ g ∈ s.frames, P g) (hSame : P f → P { f with acked := true }) :
      ∀ g ∈ ({ f with acked := true } : Frame) :: rest, P g := by
    intro g hg
    rw [hFrames] at hOld
    rcases List.mem_cons.mp hg with rfl | hRest
    · exact hSame (hOld f (List.mem_cons_self ..))
    · exact hOld g (List.mem_cons_of_mem f hRest)
  constructor
  · exact h.imr
  · exact h.base
  · exact h.slaveBase
  · intro k
    rw [Irqs.open, List.filterMap_cons_none hNew]
    dsimp only
    by_cases hSame : k = i
    · subst hSame
      simp only [Function.update_self, Bool.false_eq_true, false_iff]
      exact fun hMem => lt_irrefl _ (List.rel_of_pairwise_cons hOrder hMem)
    · rw [Function.update_of_ne hSame, h.service, hOpen, List.mem_cons, or_iff_right hSame]
  · rw [Irqs.open, List.filterMap_cons_none hNew]
    exact hOrder.of_cons
  · exact hAll h.line id
  · exact hAll h.kind id
  · have hInner := h.inner
    rw [hFrames] at hInner
    exact hInner
  · intro g rest' hEq hTimer
    obtain ⟨rfl, _⟩ := List.cons.inj hEq
    exact h.off f rest hFrames hTimer
  · exact hAll h.saved id
  · exact fun hNone => nomatch hNone

theorem setIf (h : Orderly s) (hFrames : s.frames = f :: rest) (hPrints : f.entry.clearsIf = false) (flag : Bool) :
    Orderly { s with enabled := flag } where
  imr := h.imr
  base := h.base
  slaveBase := h.slaveBase
  service := h.service
  order := h.order
  line := h.line
  kind := h.kind
  inner := h.inner
  off := by
    intro g rest' hEq hTimer
    obtain ⟨rfl, _⟩ := List.cons.inj (hFrames.symm.trans hEq)
    rw [hTimer] at hPrints
    cases hPrints
  saved := h.saved
  user := by
    intro hNone
    rw [hFrames] at hNone
    cases hNone

/-- The innermost handler is over and has nothing in service. -/
theorem pop (h : Orderly s) (hFrames : s.frames = f :: rest) (hOpen : f.open = none) :
    Orderly { s with enabled := true, frames := rest } := by
  have hSame : s.open = rest.filterMap Frame.open := by
    rw [Irqs.open, hFrames, List.filterMap_cons_none hOpen]
  have hInner := h.inner
  rw [hFrames, List.tail_cons] at hInner
  have hAll {P : Frame → Prop} (hOld : ∀ g ∈ s.frames, P g) : ∀ g ∈ rest, P g := by
    intro g hg
    exact hOld g (by rw [hFrames]; exact List.mem_cons_of_mem f hg)
  constructor
  · exact h.imr
  · exact h.base
  · exact h.slaveBase
  · intro i
    rw [h.service, hSame]
    rfl
  · have hOrder := h.order
    rw [hSame] at hOrder
    exact hOrder
  · exact hAll h.line
  · exact hAll h.kind
  · exact fun g hg => hInner g (List.mem_of_mem_tail hg)
  · intro g rest' hEq hTimer
    exact absurd hTimer (hInner g (by rw [show rest = g :: rest' from hEq]; exact List.mem_cons_self ..))
  · exact hAll h.saved
  · exact fun _ => rfl

theorem iret (h : Orderly s) (hFrames : s.frames = f :: rest) (hReturns : f.entry.returns = true)
    (hDone : f.entry.acks = true → f.acked = true) : Orderly { s with enabled := f.saved, frames := rest } := by
  have hMem : f ∈ s.frames := by
    rw [hFrames]
    exact List.mem_cons_self ..
  have hOpen : f.open = none := by
    unfold Frame.open
    split_ifs with hAcked
    · rfl
    · by_contra hLine
      rcases h.kind f hMem hLine with hSends | hNot
      · exact hAcked (hDone hSends)
      · rw [hReturns] at hNot
        cases hNot
  rw [h.saved f hMem]
  exact h.pop hFrames hOpen

end Orderly

/-- Nothing interrupts the timer. -/
theorem Orderly.timer_head {s : Irqs} {f : Frame} (h : Orderly s) (hf : f ∈ s.frames)
    (hTimer : f.entry = .timerInterrupt) : ∃ rest, s.frames = f :: rest := by
  cases hFrames : s.frames with
  | nil =>
      rw [hFrames] at hf
      cases hf
  | cons g rest =>
      rw [hFrames] at hf
      rcases List.mem_cons.mp hf with rfl | hRest
      · exact ⟨rest, rfl⟩
      · exact absurd hTimer (h.inner f (by rw [hFrames]; exact hRest))

theorem Irqs.Reaches.orderly {use : Entry → Nat} {s : Irqs} (run : Irqs.Reaches ⟨false, use⟩ s) : Orderly s := by
  induction run with
  | boot p => exact Orderly.boot p
  | request prior i ih => exact ih.set_pics rfl rfl rfl rfl
  | requestSlave prior i ih =>
      refine ih.set_pics ?_ ?_ rfl ?_
      all_goals
        dsimp only
        split_ifs <;> rfl
  | accept prior enabled pending room ih => exact ih.accept enabled pending
  | trap prior vector user other room ih =>
      rcases user with hUser | hFaults
      · exact ih.trap hUser other
      · cases hFaults
  | endOfInterrupt prior inner sends first room ih => exact ih.endOfInterrupt inner sends first
  | setIf prior inner prints flag ih => exact ih.setIf inner prints flag
  | iret prior inner returns done ih => exact ih.iret inner returns done
  | fresh prior inner timer done ih => exact ih.pop inner (if_pos done)

/-- In every order of requests and of handlers that raise no exception: an end of interrupt always ends
the interrupt of the handler that sends it; the timer interrupt is under way at most once, with
nothing inside it and interrupts off; and in ring 3 interrupts are on and nothing is in service, so
of the lines that are let through none is held back. -/
theorem interrupts_orderly {use : Entry → Nat} {s : Irqs} (run : Irqs.Reaches ⟨false, use⟩ s) :
    (∀ f rest, s.frames = f :: rest → f.entry.acks = true → f.acked = false →
      ∃ i, f.line = some i ∧ s.pics.master.inService = some i) ∧
    (s.frames.filter fun f => f.entry = .timerInterrupt).length ≤ 1 ∧
    (∀ f ∈ s.frames, f.entry = .timerInterrupt → s.frames.head? = some f ∧ s.enabled = false) ∧
    (s.frames = [] → s.enabled = true ∧ (∀ i, s.pics.master.isr i = false) ∧
      ∀ i : Fin 8, i < 3 → s.pics.master.irr i = true → ∃ j ≤ i, s.pics.master.pending = some j) := by
  have h := run.orderly
  refine ⟨fun f rest hFrames hSends hFirst => ?_, ?_, fun f hf hTimer => ?_, fun hUser => ?_⟩
  · obtain ⟨i, hLine, hService, _⟩ := h.inService hFrames hSends hFirst
    exact ⟨i, hLine, hService⟩
  · cases hFrames : s.frames with
    | nil => exact Nat.zero_le 1
    | cons g rest =>
        have hInner := h.inner
        rw [hFrames, List.tail_cons] at hInner
        have hRest : rest.filter (fun f => f.entry = .timerInterrupt) = [] :=
          List.filter_eq_nil_iff.mpr fun f hf => by simpa using hInner f hf
        rw [List.filter_cons, hRest]
        split_ifs
        · exact Nat.le_refl 1
        · exact Nat.zero_le 1
  · obtain ⟨rest, hFrames⟩ := h.timer_head hf hTimer
    exact ⟨by rw [hFrames, List.head?_cons], h.off f rest hFrames hTimer⟩
  · have hIdle : ∀ i, s.pics.master.isr i = false := by
      intro i
      rw [Bool.eq_false_iff, ne_eq, h.service, Irqs.open, hUser]
      exact List.not_mem_nil
    refine ⟨h.user hUser, hIdle, fun i hi hRequest => Chip.pending_of_idle hIdle hRequest ?_⟩
    rw [h.imr]
    exact Orderly.lines_open i hi

/-- Two controllers with nothing to do. -/
def idlePics : Pics :=
  let chip : Chip := ⟨0#8, fun _ => false, fun _ => false, 0#8, []⟩
  ⟨chip, chip⟩

/-- The first tick in ring 3. -/
theorem interrupts_orderly_tick : ∃ s : Irqs, Irqs.Reaches ⟨false, fun _ => 42⟩ s ∧ s.enabled = false ∧
    ∃ f ∈ s.frames, f.entry = .timerInterrupt := by
  have hRun := (Irqs.Reaches.boot idlePics : Irqs.Reaches ⟨false, fun _ => 42⟩ _).request 0
  rw [boot_eq] at hRun
  obtain ⟨s, hReached, f, hMem, hTimer⟩ : ∃ s : Irqs, Irqs.Reaches ⟨false, fun _ => 42⟩ s ∧
      ∃ f ∈ s.frames, f.entry = .timerInterrupt := by
    refine ⟨_, hRun.accept (i := 0) rfl (by decide) (by decide),
      ⟨idt (vectorOf 0x20#8 0), some 0, true, false⟩, ?_, ?_⟩
    · exact List.mem_cons_self ..
    · change idt (vectorOf 0x20#8 0) = .timerInterrupt
      decide +kernel
  exact ⟨s, hReached, ((interrupts_orderly hReached).2.2.1 f hMem hTimer).2, f, hMem, hTimer⟩

/-- The kernel stack of a run stays within the page. -/
theorem Irqs.Reaches.room {conduct : Irqs.Conduct} {s : Irqs} (run : Irqs.Reaches conduct s) :
    s.stack conduct.use ≤ Irqs.stackRoom := by
  induction run with
  | boot p => exact Nat.zero_le _
  | request prior i ih => exact ih
  | requestSlave prior i ih => exact ih
  | accept prior enabled pending room ih => exact room
  | trap prior vector user other room ih => exact room
  | endOfInterrupt prior inner sends first room ih => exact room
  | setIf prior inner prints flag ih => exact ih
  | @iret s f rest prior inner returns done ih =>
      rw [Irqs.stack, inner, List.map_cons, List.sum_cons, List.isEmpty_cons, if_neg Bool.false_ne_true] at ih
      rw [Irqs.stack]
      dsimp only
      split_ifs <;> omega
  | fresh prior inner timer done ih => exact Nat.zero_le _

/-- Where a handler raises an exception, the timer can be inside itself: `die` prints, and
`set_cursor` ends with `sti`. -/
theorem timer_inside_itself : ∃ s : Irqs, Irqs.Reaches ⟨true, fun _ => 42⟩ s ∧
    s.frames.countP (fun f => f.entry = .timerInterrupt) = 2 := by
  have hTick := (Irqs.Reaches.boot idlePics : Irqs.Reaches ⟨true, fun _ => 42⟩ _).request 0
  rw [boot_eq] at hTick
  have hTaken := hTick.accept (i := 0) rfl (by decide) (by decide)
  have hSent := hTaken.endOfInterrupt rfl (by decide +kernel) rfl (by decide +kernel)
  have hRaised := hSent.trap 13 (Or.inr rfl) (by decide +kernel) (by decide +kernel)
  have hOn := hRaised.setIf rfl (by decide +kernel) true
  have hAgain := (hOn.request 0).accept (i := 0) rfl (by decide +kernel) (by decide +kernel)
  exact ⟨_, hAgain, by decide +kernel⟩

end Linux011

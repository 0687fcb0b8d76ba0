import Linux011.ChrDrv.Devices
import Linux011.Kernel.Interrupts

/-! `traps.c`: what the kernel says about an exception. Its functions find the frame that the processor
has left through the pointer that the entry stub has pushed, and the registers that the stub has saved
as their own arguments. -/
namespace Linux011

open I386 ByteMemory Vsprintf

/-- What the functions look at beside the stack. `segByte` is memory through a selector in ring 0, as
far as a read there does not fault, and `tr` what `str %ax` leaves in `eax`, with an upper half of its
own. -/
structure Scene where
  address : BitVec 32
  current : TaskStruct
  memory : Memory
  segByte : BitVec 16 → BitVec 32 → Option (BitVec 8)
  tr : BitVec 32
  name : Handler → BitVec 32

namespace Scene

variable (s : Scene)

/-- `get_seg_long`. -/
def segLong (seg : BitVec 16) (address : BitVec 32) : Option (BitVec 32) := do
  let a ← s.segByte seg address
  let b ← s.segByte seg (address + 1)
  let c ← s.segByte seg (address + 2)
  let d ← s.segByte seg (address + 3)
  some (d ++ c ++ b ++ a)

/-- The loop of `die` over the stack of the program, and the test in front of it. -/
def stackDump (ss esp : BitVec 32) : Option (List Message) :=
  if ss = 0x17#32 then do
    let longs ← (List.range 4).mapM fun i => s.segLong 0x17#16 (esp + BitVec.ofNat 32 (4 * i))
    some (⟨.stack, []⟩ :: longs.map (fun long => ⟨.pointer, [long]⟩) ++ [⟨.newLine, []⟩])
  else some []

/-- Its loop over the code; `get_seg_byte` gives a signed `char`. -/
def codeDump (cs : BitVec 16) (eip : BitVec 32) : Option (List Message) := do
  let bytes ← (List.range 10).mapM fun i => s.segByte cs (eip + BitVec.ofNat 32 i)
  some (bytes.map (fun byte => ⟨.code, [0xff#32 &&& byte.signExtend 32]⟩) ++ [⟨.newLine, []⟩])

/-- `get_base(current->ldt[1])`, which takes one of the four bytes from elsewhere. -/
def base : BitVec 32 := getBase (fun a => s.memory a.toNat) (ldtAddr s.address + 8#32) s.current.ldt1

end Scene

/-- `die`, up to its endless loop, where none of its reads faults. -/
def die (s : Scene) (str espPtr nr : BitVec 32) (c : Cpu) : Option (List Message) := do
  let esp (i : Nat) := c.longAt (espPtr + BitVec.ofNat 32 (4 * i))
  let stack ← s.stackDump (esp 4) (esp 3)
  let code ← s.codeDump (lowHalf (esp 1)) (esp 0)
  some ([⟨.trap, [str, nr &&& 0xffff#32]⟩,
    ⟨.frame, [esp 1, esp 0, esp 2, esp 4, esp 3]⟩,
    ⟨.segment, [(c.seg .fs).setWidth 32]⟩,
    ⟨.limits, [s.base, getLimit s.current.ldt2]⟩] ++ stack ++ code)

/-- `do_int3`, whose parameters are the registers in the order of the stub. -/
def doInt3 (s : Scene) (c : Cpu) : List Message :=
  let esp (i : Nat) := c.longAt (c.arg 0 + BitVec.ofNat 32 (4 * i))
  [⟨.general, [c.arg 11, c.arg 10, c.arg 9, c.arg 8]⟩,
    ⟨.index, [c.arg 6, c.arg 7, c.arg 5, c.arg 0]⟩,
    ⟨.segments, [c.arg 4, c.arg 3, c.arg 2, s.tr]⟩,
    ⟨.flags, [esp 0, esp 1, esp 2]⟩]

/-- What the functions hand to `die`. -/
def Handler.text : Handler → Option String
  | .doDivideError => some "divide error"
  | .doNmi => some "nmi"
  | .doOverflow => some "overflow"
  | .doBounds => some "bounds"
  | .doInvalidOp => some "invalid_op"
  | .doCoprocessorSegmentOverrun => some "coprocessor segment overrun"
  | .doReserved => some "reserved (15,17-47) error"
  | .doDoubleFault => some "double fault"
  | .doInvalidTSS => some "invalid tss"
  | .doSegmentNotPresent => some "segment not present"
  | .doStackSegment => some "stack segment"
  | .doGeneralProtection => some "general protection"
  | .doAlignmentCheck => some "alignment check"
  | .doInt3 | .doWpPage | .doTimer | .keyboardHandler => none

/-- What a function of `traps.c` says, at its first instruction. -/
def Handler.messages (s : Scene) (handler : Handler) (c : Cpu) : Option (List Message) :=
  if handler = .doInt3 then some (Linux011.doInt3 s c)
  else handler.text.bind fun _ => die s (s.name handler) (c.arg 0) (c.arg 1) c

/-- The exception of a program in ring 3, as `die` reports it: the program's own registers, but for
`fs`, which is that of the kernel. `esp0` is the top of the kernel stack. -/
def crashReport (s : Scene) (high : BitVec 32 → BitVec 16) (esp0 name error : BitVec 32) (x : Context) :
    Option (List Message) := do
  let cs := segWord high (esp0 - 16#32) x.cs
  let ss := segWord high (esp0 - 4#32) x.ss
  let stack ← s.stackDump ss x.esp
  let code ← s.codeDump x.cs x.eip
  some ([⟨.trap, [name, error &&& 0xffff#32]⟩,
    ⟨.frame, [cs, x.eip, x.eflags, ss, x.esp]⟩,
    ⟨.segment, [0x10#32]⟩,
    ⟨.limits, [s.base, getLimit s.current.ldt2]⟩] ++ stack ++ code)

/-- A breakpoint or a step of a program in ring 3: its registers, but for `esp`, which is the address of
the frame on the kernel stack. -/
def debugReport (s : Scene) (high : BitVec 32 → BitVec 16) (esp0 : BitVec 32) (x : Context) : List Message :=
  [⟨.general, [x.reg .eax, x.reg .ebx, x.reg .ecx, x.reg .edx]⟩,
    ⟨.index, [x.reg .esi, x.reg .edi, x.reg .ebp, esp0 - 20#32]⟩,
    ⟨.segments, [segWord high (esp0 - 52#32) (x.seg .ds), segWord high (esp0 - 56#32) (x.seg .es),
      segWord high (esp0 - 60#32) (x.seg .fs), s.tr]⟩,
    ⟨.flags, [x.eip, segWord high (esp0 - 16#32) x.cs, x.eflags]⟩]

/-- The report about an exception. -/
def Handler.report (s : Scene) (high : BitVec 32 → BitVec 16) (esp0 error : BitVec 32) (x : Context)
    (handler : Handler) : Option (List Message) :=
  if handler = .doInt3 then some (debugReport s high esp0 x)
  else handler.text.bind fun _ => crashReport s high esp0 (s.name handler) error x

/-- The bytes that the report shows can be read: sixteen of the stack, when it is that of `0x17`, and
ten of the code. -/
structure Scene.Readable (s : Scene) (high : BitVec 32 → BitVec 16) (esp0 : BitVec 32) (x : Context) : Prop where
  stack : segWord high (esp0 - 4#32) x.ss = 0x17#32 → ∀ i < 16, (s.segByte 0x17#16 (x.esp + BitVec.ofNat 32 i)).isSome
  code : ∀ i < 10, (s.segByte x.cs (x.eip + BitVec.ofNat 32 i)).isSome

/-- What a function finds at its first instruction: `c` is the processor with its frame. -/
structure Argued (link : Linkage) (error : BitVec 32) (c called : Cpu) : Prop where
  espPtr : called.arg 0 = c.esp
  error : called.arg 1 = error
  fs : called.arg 2 = segWord link.high (c.esp - 40#32) (c.seg .fs)
  es : called.arg 3 = segWord link.high (c.esp - 36#32) (c.seg .es)
  ds : called.arg 4 = segWord link.high (c.esp - 32#32) (c.seg .ds)
  ebp : called.arg 5 = c.reg .ebp
  esi : called.arg 6 = c.reg .esi
  edi : called.arg 7 = c.reg .edi
  edx : called.arg 8 = c.reg .edx
  ecx : called.arg 9 = c.reg .ecx
  ebx : called.arg 10 = c.reg .ebx
  eax : called.arg 11 = c.reg .eax
  frame : ∀ i < 5, called.longAt (c.esp + BitVec.ofNat 32 (4 * i)) = long i c.stack
  kernelFs : called.seg .fs = 0x10#16

section

variable (link : Linkage) (handler : Handler) (error : BitVec 32) (c : Cpu)

theorem longAt_above {called : Cpu} (hEsp : called.esp = c.esp - 52#32)
    (hStack : ∀ i, long (i + 13) called.stack = long i c.stack) {i : Nat} (hi : i < 5) :
    called.longAt (c.esp + BitVec.ofNat 32 (4 * i)) = long i c.stack := by
  have hIndex : (c.esp + BitVec.ofNat 32 (4 * i) - called.esp).toNat / 4 = i + 13 := by
    rw [hEsp]
    bv_omega
  rw [Cpu.longAt, hIndex, hStack]

theorem argued_noErrorCode :
    Argued link 0#32 c (((noErrorCode link handler).atCall link c).push link.returnAddress) := by
  constructor
  case frame =>
    intro i hi
    refine longAt_above c ?_ (fun i => ?_) hi
    · simp [Stub.atCall, noErrorCode, exec, Cpu.push, Cpu.setReg, Cpu.setSeg, BitVec.sub_sub]
    · simp [Stub.atCall, noErrorCode, exec, Cpu.push, Cpu.setReg, Cpu.setSeg]
  case kernelFs => rfl
  all_goals
    simp [Cpu.arg, Stub.atCall, noErrorCode, exec, Cpu.push, Cpu.setReg, Cpu.setSeg, BitVec.sub_sub]

theorem argued_errorCode :
    Argued link error c (((errorCode link handler).atCall link (c.push error)).push link.returnAddress) := by
  constructor
  case frame =>
    intro i hi
    refine longAt_above c ?_ (fun i => ?_) hi
    · simp [Stub.atCall, errorCode, exec, Cpu.push, Cpu.setReg, Cpu.setSeg, BitVec.sub_sub]
    · simp [Stub.atCall, errorCode, exec, Cpu.push, Cpu.setReg, Cpu.setSeg]
  case kernelFs => rfl
  all_goals
    simp [Cpu.arg, Stub.atCall, errorCode, exec, Cpu.push, Cpu.setReg, Cpu.setSeg, BitVec.sub_sub]

theorem argued_stub {entry : Entry} {stub : Stub} (hStub : entry.stub link = some stub)
    (hEntry : entry = .noError handler ∨ entry = .error handler) :
    Argued link (if entry.removesErrorCode then error else 0#32) c
      ((stub.atCall link (if entry.removesErrorCode then c.push error else c)).push link.returnAddress) := by
  rcases hEntry with rfl | rfl
  · cases hStub
    exact argued_noErrorCode link handler c
  · cases hStub
    exact argued_errorCode link handler error c

end

section Reports

variable {link : Linkage} {error esp0 : BitVec 32} {above : Stream' (BitVec 16)} {x : Context} {called : Cpu}

/-- The frame of a program in ring 3. -/
theorem frame_trap (high : BitVec 32 → BitVec 16) (above : Stream' (BitVec 16)) (esp0 : BitVec 32) (x : Context) :
    let c := trap high above esp0 x
    c.esp = esp0 - 20#32 ∧ long 0 c.stack = x.eip ∧ long 1 c.stack = segWord high (esp0 - 16#32) x.cs ∧
      long 2 c.stack = x.eflags ∧ long 3 c.stack = x.esp ∧ long 4 c.stack = segWord high (esp0 - 4#32) x.ss := by
  simp [trap, Cpu.push, BitVec.sub_sub]

/-- What lies behind the pointer. -/
theorem Argued.longs (h : Argued link error (trap link.high above esp0 x) called) :
    called.longAt (called.arg 0 + BitVec.ofNat 32 (4 * 0)) = x.eip ∧
      called.longAt (called.arg 0 + BitVec.ofNat 32 (4 * 1)) = segWord link.high (esp0 - 16#32) x.cs ∧
      called.longAt (called.arg 0 + BitVec.ofNat 32 (4 * 2)) = x.eflags ∧
      called.longAt (called.arg 0 + BitVec.ofNat 32 (4 * 3)) = x.esp ∧
      called.longAt (called.arg 0 + BitVec.ofNat 32 (4 * 4)) = segWord link.high (esp0 - 4#32) x.ss := by
  obtain ⟨-, hEip, hCs, hEflags, hEsp, hSs⟩ := frame_trap link.high above esp0 x
  rw [h.espPtr, ← hEip, ← hCs, ← hEflags, ← hEsp, ← hSs]
  exact ⟨h.frame 0 (by decide), h.frame 1 (by decide), h.frame 2 (by decide), h.frame 3 (by decide),
    h.frame 4 (by decide)⟩

theorem Argued.die (h : Argued link error (trap link.high above esp0 x) called) (s : Scene) (name : BitVec 32) :
    Linux011.die s name (called.arg 0) (called.arg 1) called = crashReport s link.high esp0 name error x := by
  obtain ⟨hEip, hCs, hEflags, hEsp, hSs⟩ := h.longs
  simp only [Linux011.die, crashReport, hEip, hCs, hEflags, hEsp, hSs, h.error, h.kernelFs, lowHalf_segWord]
  rfl

theorem Argued.doInt3 (h : Argued link error (trap link.high above esp0 x) called) (s : Scene) :
    Linux011.doInt3 s called = debugReport s link.high esp0 x := by
  obtain ⟨hEip, hCs, hEflags, -, -⟩ := h.longs
  have hPtr : (trap link.high above esp0 x).esp = esp0 - 20#32 := (frame_trap link.high above esp0 x).1
  have hReg : (trap link.high above esp0 x).reg = x.reg := rfl
  have hSeg : (trap link.high above esp0 x).seg = x.seg := rfl
  simp only [Linux011.doInt3, debugReport, hEip, hCs, hEflags]
  simp only [h.espPtr, h.fs, h.es, h.ds, h.ebp, h.esi, h.edi, h.edx, h.ecx, h.ebx, h.eax, hReg, hSeg, hPtr,
    BitVec.sub_sub]
  rfl

theorem Argued.messages (h : Argued link error (trap link.high above esp0 x) called) (s : Scene) (handler : Handler) :
    handler.messages s called = handler.report s link.high esp0 error x := by
  rw [Handler.messages, Handler.report, h.doInt3, h.die]

end Reports

section Shown

variable {s : Scene}

theorem isSome_mapM {α β : Type} (f : α → Option β) (l : List α) :
    (l.mapM f).isSome = true ↔ ∀ x ∈ l, (f x).isSome = true := by
  induction l with
  | nil => simp
  | cons x l ih =>
      rw [List.mapM_cons, List.forall_mem_cons, ← ih]
      cases f x with
      | none => simp
      | some y => cases l.mapM f <;> simp

namespace Scene

theorem isSome_segLong (seg : BitVec 16) (address : BitVec 32) :
    (s.segLong seg address).isSome = true ↔ ∀ j < 4, (s.segByte seg (address + BitVec.ofNat 32 j)).isSome = true := by
  have hFour (p : Nat → Prop) : (∀ j < 4, p j) ↔ p 0 ∧ p 1 ∧ p 2 ∧ p 3 :=
    ⟨fun h => ⟨h 0 (by omega), h 1 (by omega), h 2 (by omega), h 3 (by omega)⟩,
      fun ⟨h0, h1, h2, h3⟩ j hj => by
        obtain rfl | rfl | rfl | rfl : j = 0 ∨ j = 1 ∨ j = 2 ∨ j = 3 := by omega
        · exact h0
        · exact h1
        · exact h2
        · exact h3⟩
  rw [hFour, BitVec.add_zero, segLong]
  cases s.segByte seg address <;> cases s.segByte seg (address + 1) <;> cases s.segByte seg (address + 2) <;>
    cases s.segByte seg (address + 3) <;> simp

theorem isSome_stackDump (ss esp : BitVec 32) : (s.stackDump ss esp).isSome = true ↔
    (ss = 0x17#32 → ∀ i < 16, (s.segByte 0x17#16 (esp + BitVec.ofNat 32 i)).isSome = true) := by
  rw [stackDump]
  split_ifs with hStack
  · have hLongs := isSome_mapM (fun i => s.segLong 0x17#16 (esp + BitVec.ofNat 32 (4 * i))) (List.range 4)
    simp only [List.mem_range, isSome_segLong] at hLongs
    have hDump (found : Option (List (BitVec 32))) (say : List (BitVec 32) → List Message) :
        (found.bind fun longs => some (say longs)).isSome = true ↔ found.isSome = true := by
      cases found <;> simp
    refine (hDump _ _).trans (hLongs.trans ⟨fun h _ i hi => ?_, fun h i hi j hj => ?_⟩)
    · have hByte := h (i / 4) (by omega) (i % 4) (by omega)
      rwa [BitVec.add_assoc, ← BitVec.ofNat_add, show 4 * (i / 4) + i % 4 = i by omega] at hByte
    · rw [BitVec.add_assoc, ← BitVec.ofNat_add]
      exact h hStack (4 * i + j) (by omega)
  · exact iff_of_true rfl fun h => absurd h hStack

theorem isSome_codeDump (cs : BitVec 16) (eip : BitVec 32) :
    (s.codeDump cs eip).isSome = true ↔ ∀ i < 10, (s.segByte cs (eip + BitVec.ofNat 32 i)).isSome = true := by
  have hAll := isSome_mapM (fun i => s.segByte cs (eip + BitVec.ofNat 32 i)) (List.range 10)
  simp only [List.mem_range] at hAll
  rw [← hAll, codeDump]
  cases (List.range 10).mapM fun i => s.segByte cs (eip + BitVec.ofNat 32 i) <;> simp

end Scene

/-- The report is completed where these bytes can be read. -/
theorem isSome_crashReport (high : BitVec 32 → BitVec 16) (esp0 name error : BitVec 32) (x : Context) :
    (crashReport s high esp0 name error x).isSome = true ↔ s.Readable high esp0 x := by
  have hParts : (crashReport s high esp0 name error x).isSome = true ↔
      (s.stackDump (segWord high (esp0 - 4#32) x.ss) x.esp).isSome = true ∧ (s.codeDump x.cs x.eip).isSome = true := by
    rw [crashReport]
    cases s.stackDump (segWord high (esp0 - 4#32) x.ss) x.esp <;> cases s.codeDump x.cs x.eip <;> simp
  rw [hParts, Scene.isSome_stackDump, Scene.isSome_codeDump]
  exact ⟨fun h => ⟨h.1, h.2⟩, fun h => ⟨h.stack, h.code⟩⟩

theorem readable_stackDump {ss esp : BitVec 32} {messages : List Message} (h : s.stackDump ss esp = some messages) :
    ∀ m ∈ messages, m.Readable s.memory := by
  rw [Scene.stackDump] at h
  split_ifs at h
  · obtain ⟨longs, -, hMessages⟩ := Option.bind_eq_some_iff.mp h
    obtain rfl := Option.some.inj hMessages
    intro m hm
    simp only [List.mem_append, List.mem_cons, List.mem_map, List.not_mem_nil, or_false] at hm
    obtain (rfl | ⟨long, -, rfl⟩) | rfl := hm
    · exact Message.readable (by simp) (by simp)
    · exact Message.readable (by simp) (by simp)
    · exact Message.readable (by simp) (by simp)
  · obtain rfl := Option.some.inj h
    exact fun m hm => absurd hm List.not_mem_nil

theorem readable_codeDump {cs : BitVec 16} {eip : BitVec 32} {messages : List Message}
    (h : s.codeDump cs eip = some messages) : ∀ m ∈ messages, m.Readable s.memory := by
  obtain ⟨bytes, -, hMessages⟩ := Option.bind_eq_some_iff.mp h
  obtain rfl := Option.some.inj hMessages
  intro m hm
  simp only [List.mem_append, List.mem_map, List.mem_singleton] at hm
  obtain ⟨byte, -, rfl⟩ | rfl := hm
  · exact Message.readable (by simp) (by simp)
  · exact Message.readable (by simp) (by simp)

theorem readable_crashReport {name : BitVec 32} (hName : (cString s.memory name).length ≤ 600)
    {high : BitVec 32 → BitVec 16} {esp0 error : BitVec 32} {x : Context} {messages : List Message}
    (h : crashReport s high esp0 name error x = some messages) : ∀ m ∈ messages, m.Readable s.memory := by
  rw [crashReport] at h
  obtain ⟨stack, hStack, hRest⟩ := Option.bind_eq_some_iff.mp h
  obtain ⟨code, hCode, hMessages⟩ := Option.bind_eq_some_iff.mp hRest
  obtain rfl := Option.some.inj hMessages
  intro m hm
  simp only [List.mem_append, List.mem_cons, List.not_mem_nil, or_false] at hm
  obtain ((rfl | rfl | rfl | rfl) | hm) | hm := hm
  · exact Message.readable_trap hName
  · exact Message.readable (by simp) (by simp)
  · exact Message.readable (by simp) (by simp)
  · exact Message.readable (by simp) (by simp)
  · exact readable_stackDump hStack m hm
  · exact readable_codeDump hCode m hm

theorem readable_debugReport (high : BitVec 32 → BitVec 16) (esp0 : BitVec 32) (x : Context) :
    ∀ m ∈ debugReport s high esp0 x, m.Readable s.memory := by
  intro m hm
  simp only [debugReport, List.mem_cons, List.not_mem_nil, or_false] at hm
  obtain rfl | rfl | rfl | rfl := hm
  · exact Message.readable (by simp) (by simp)
  · exact Message.readable (by simp) (by simp)
  · exact Message.readable (by simp) (by simp)
  · exact Message.readable (by simp) (by simp)

theorem Handler.length_text_le {handler : Handler} {text : String} (h : handler.text = some text) :
    (literal text).length ≤ 600 := by
  cases handler <;> cases h <;> decide

/-- The names are where the functions say. -/
def Scene.Named (s : Scene) (handler : Handler) : Prop :=
  ∀ text, handler.text = some text → cString s.memory (s.name handler) = literal text

theorem Scene.Named.readable {handler : Handler} (h : s.Named handler) {high : BitVec 32 → BitVec 16}
    {esp0 error : BitVec 32} {x : Context} {messages : List Message}
    (hReport : handler.report s high esp0 error x = some messages) : ∀ m ∈ messages, m.Readable s.memory := by
  rw [Handler.report] at hReport
  split_ifs at hReport
  · obtain rfl := Option.some.inj hReport
    exact readable_debugReport high esp0 x
  · obtain ⟨text, hText, hCrash⟩ := Option.bind_eq_some_iff.mp hReport
    have hLength := Handler.length_text_le hText
    rw [← h text hText] at hLength
    exact readable_crashReport hLength hCrash

/-- Messages one after another, as events of the devices. -/
def saying (memory : Memory) (messages : List Message) (h : ∀ m ∈ messages, m.Readable memory) : List DeviceEvent :=
  messages.pmap (fun m hm => .say m memory hm) h

theorem waitsEnd_saying (memory : Memory) (messages : List Message) (h : ∀ m ∈ messages, m.Readable memory) :
    ∀ event ∈ saying memory messages h, event.WaitsEnd := by
  intro event hEvent
  obtain ⟨m, _, rfl⟩ := List.mem_pmap.mp hEvent
  exact trivial

theorem foldl_saying (d : Display) (memory : Memory) (messages : List Message)
    (h : ∀ m ∈ messages, m.Readable memory) (desk : Desk) :
    (saying memory messages h).foldl (Desk.step d) desk =
      { desk with screen := typeBytes d desk.screen (messages.flatMap (Message.text memory)) } := by
  induction messages generalizing desk with
  | nil => rfl
  | cons m messages ih =>
      rw [saying, List.pmap, List.foldl_cons, ← saying, ih, List.flatMap_cons, typeBytes_append]
      rfl

end Shown

/-- Whatever a program in ring 3 is doing when an exception with a function in `traps.c` comes: this
function is called with the frame of the program and reports what `Handler.report` says of it, which
`die` completes exactly where the bytes that it shows can be read; all of such a report is shown, behind
what the screen had; and behind `do_int3` the program goes on as it was. -/
theorem exception_reported (link : Linkage) (s : Scene) (vector : Fin 256) (stub : Stub) (handler : Handler)
    (hStub : (idt vector).stub link = some stub)
    (hHandler : idt vector = .noError handler ∨ idt vector = .error handler) (hNamed : s.Named handler)
    (error : BitVec 32) (above : Stream' (BitVec 16)) (esp0 : BitVec 32) (x : Context) :
    let arrived := arrive vector error (trap link.high above esp0 x)
    let reported := handler.report s link.high esp0 (if pushesErrorCode vector then error else 0#32) x
    handler.messages s ((stub.atCall link arrived).push link.returnAddress) = reported ∧
      (∀ text, handler.text = some text → (reported.isSome = true ↔ s.Readable link.high esp0 x)) ∧
      (∀ messages, reported = some messages → ∃ hReadable : ∀ m ∈ messages, m.Readable s.memory,
        ∀ (d : TextMode) (k : Keyboard) (desk : Desk), 8 ≤ d.videoNumColumns.toNat →
          2 ∣ (d.videoNumLines.toNat - 1) * d.videoNumColumns.toNat → Serves d k desk →
          ∃ k', DeviceEvent.run d.toDisplay (saying s.memory messages hReadable) k = some k' ∧
            Serves d k' { desk with
              screen := typeBytes d.toDisplay desk.screen (messages.flatMap (Message.text s.memory)) }) ∧
      (handler = .doInt3 → iret (stub.atIret link arrived) = x) := by
  intro arrived reported
  have hNotIgnored : idt vector ≠ .ignoreInt := by
    rcases hHandler with h | h <;> rw [h] <;> exact Entry.noConfusion
  refine ⟨?_, fun text hText => ?_, fun messages hMessages => ⟨hNamed.readable hMessages, ?_⟩, fun _ => ?_⟩
  · have hArgued := argued_stub link handler error (trap link.high above esp0 x) hStub hHandler
    rw [← idt_removesErrorCode] at hArgued
    exact hArgued.messages s handler
  · have hNotInt3 : handler ≠ .doInt3 := by
      rintro rfl
      cases hText
    have hCrash : reported = crashReport s link.high esp0 (s.name handler)
        (if pushesErrorCode vector then error else 0#32) x := by
      change Handler.report _ _ _ _ _ _ = _
      rw [Handler.report, if_neg hNotInt3, hText]
      rfl
    rw [hCrash, isSome_crashReport]
  · intro d k desk hColumns hEven hServes
    obtain ⟨k', hEnd, hLast⟩ := hServes.run hColumns hEven
      (waitsEnd_saying s.memory messages (hNamed.readable hMessages))
    rw [foldl_saying] at hLast
    exact ⟨k', hEnd, hLast⟩
  · exact iret_interrupt link vector error stub above esp0 x hStub fun h => absurd h hNotIgnored

/-- `"general protection"` at 0x2000, and a program of zeros up to 0x5000 with nothing behind. -/
def zeroScene : Scene where
  address := smallImage.initTask
  current := Linux011.initTask smallImage
  memory a := if 0x2000 ≤ a then (literal "general protection").getD (a - 0x2000) 0#8 else 0#8
  segByte _ a := if a < 0x5000#32 then some 0#8 else none
  tr := 0x28#32
  name _ := 0x2000#32

/-- A program in ring 3 at 0x1234. -/
def zeroProgram : Context :=
  ⟨fun _ => 7#32, fun _ => 0x17#16, 0x1234#32, 0x0f#16, 0x202#32, 0x4000#32, 0x17#16⟩

/-- It has loaded a selector that is not its own. -/
theorem exception_reported_generalProtection :
    let arrived := arrive 13 0x58#32 (trap (fun _ => 0#16) (Stream'.const 0#16) 0x9000#32 zeroProgram)
    ∃ report, Handler.messages zeroScene .doGeneralProtection
        (((errorCode bareLinkage .doGeneralProtection).atCall bareLinkage arrived).push 0#32) = some report ∧
      (report.take 2).flatMap (Message.text zeroScene.memory) = literal
        "\n\rgeneral protection: 0058\n\rEIP:\t000f:00001234\n\rEFLAGS:\t00000202\n\rESP:\t0017:00004000\n\r" ∧
      ∃ hReadable k, DeviceEvent.run egaBoot.display (saying zeroScene.memory report hReadable)
        (Keyboard.booted egaBoot (fun _ => 0) ⟨0, fun _ => 0⟩) = some k := by
  intro arrived
  have hGate : idt 13 = .error .doGeneralProtection := by decide +kernel
  have hNamed : zeroScene.Named .doGeneralProtection := by
    intro text hText
    obtain rfl := Option.some.inj hText
    decide +kernel
  have hThere : zeroScene.Readable (fun _ => 0#16) 0x9000#32 zeroProgram :=
    ⟨fun _ => by decide +kernel, by decide +kernel⟩
  obtain ⟨hMessages, hSome, hShown, -⟩ := exception_reported bareLinkage zeroScene 13
    (errorCode bareLinkage .doGeneralProtection) .doGeneralProtection (by rw [hGate]; rfl) (.inr hGate) hNamed
    0x58#32 (Stream'.const 0#16) 0x9000#32 zeroProgram
  obtain ⟨report, hReport⟩ := Option.isSome_iff_exists.mp ((hSome _ rfl).mpr hThere)
  have hText : (((crashReport zeroScene (fun _ => 0#16) 0x9000#32 0x2000#32 0x58#32
      zeroProgram).getD []).take 2).flatMap (Message.text zeroScene.memory) = literal
        "\n\rgeneral protection: 0058\n\rEIP:\t000f:00001234\n\rEFLAGS:\t00000202\n\rESP:\t0017:00004000\n\r" := by
    decide +kernel
  have hCrash : crashReport zeroScene (fun _ => 0#16) 0x9000#32 0x2000#32 0x58#32 zeroProgram = some report := hReport
  rw [hCrash] at hText
  refine ⟨report, hMessages.trans hReport, hText, ?_⟩
  obtain ⟨hReadable, hRun⟩ := hShown report hReport
  obtain ⟨k, hEnd, -⟩ := hRun (egaBoot.textMode (by decide) (by decide) (by decide)) _ _ (by decide) (by decide)
    (Serves.booted egaBoot (by decide) (by decide) (by decide) (by decide) (by decide) (by decide) (fun _ => 0)
      ⟨0, fun _ => 0⟩)
  exact ⟨hReadable, k, hEnd⟩

end Linux011

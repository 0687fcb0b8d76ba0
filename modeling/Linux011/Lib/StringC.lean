import Linux011.Library.StringInstr

/-! `lib/string.c`. The operands of each `asm` are loaded as its constraints say, and the
other registers and the flags are what they were; a function that returns gives its value
and the processor behind it. A condition on `zf` is a `je` or `jne`, one on `sf` a `js`. The first
number bounds the rounds of the loops. -/
namespace Linux011.StringC

open StringInstr

/-- The loop of `strncpy`, with its padding. -/
def strncpyLoop : Nat → Cpu → Option Cpu
  | 0, _ => none
  | fuel + 1, c => do
      let c := c.decEcx
      if c.sf then some c
      else
        let c ← c.lodsb
        let c ← c.stosb
        let c := c.testAl
        if c.zf then c.repStosb
        else strncpyLoop fuel c

def strncpy (fuel : Nat) (c : Cpu) (dest src count : BitVec 32) : Option (BitVec 32 × Cpu) := do
  let c ← strncpyLoop fuel { c with esi := src, edi := dest, ecx := count }
  some (dest, c)

/-- From label 1 to label 2. -/
def strncatLoop : Nat → Cpu → Option Cpu
  | 0, _ => none
  | fuel + 1, c => do
      let c := c.decEcx
      if c.sf then some c
      else
        let c ← c.lodsb
        let c ← c.stosb
        let c := c.testAl
        if c.zf then some c
        else strncatLoop fuel c

def strncat (fuel : Nat) (c : Cpu) (dest src count : BitVec 32) : Option (BitVec 32 × Cpu) := do
  let c := { c with esi := src, edi := dest, eax := 0#32, ecx := 0xffffffff#32 }
  let c ← c.repneScasb
  let c := c.decEdi
  let c ← strncatLoop fuel { c with ecx := count }
  let c ← c.xorEax.stosb
  some (dest, c)

/-- The direction flag behind the function is its second result. -/
def memcpy (c : Cpu) (dest src n : BitVec 32) : Option (BitVec 32 × Bool × Cpu) := do
  let c ← { c with ecx := n, esi := src, edi := dest }.repMovsb false
  some (dest, false, c)

def memmove (c : Cpu) (dest src n : BitVec 32) : Option (BitVec 32 × Bool × Cpu) :=
  if dest < src then do
    let c ← { c with ecx := n, esi := src, edi := dest }.repMovsb false
    some (dest, false, c)
  else do
    let c ← { c with ecx := n, esi := src + n - 1#32, edi := dest + n - 1#32 }.repMovsb true
    some (dest, true, c)

/-- The end that the three comparisons share, where bytes differ. -/
def differs (c : Cpu) : Cpu :=
  let c := { c with eax := 1#32 }
  if c.less then c else c.negEax

/-- The loop of `strcmp`. -/
def strcmpLoop : Nat → Cpu → Option Cpu
  | 0, _ => none
  | fuel + 1, c => do
      let c ← c.lodsb
      let c ← c.scasb
      if c.zf then
        let c := c.testAl
        if c.zf then some c.xorEax
        else strcmpLoop fuel c
      else some (differs c)

def strcmp (fuel : Nat) (c : Cpu) (cs ct : BitVec 32) : Option (BitVec 32 × Cpu) := do
  let c ← strcmpLoop fuel { c with edi := cs, esi := ct }
  some (c.eax, c)

/-- The loop of `strncmp`. -/
def strncmpLoop : Nat → Cpu → Option Cpu
  | 0, _ => none
  | fuel + 1, c => do
      let c := c.decEcx
      if c.sf then some c.xorEax
      else
        let c ← c.lodsb
        let c ← c.scasb
        if c.zf then
          let c := c.testAl
          if c.zf then some c.xorEax
          else strncmpLoop fuel c
        else some (differs c)

def strncmp (fuel : Nat) (c : Cpu) (cs ct count : BitVec 32) : Option (BitVec 32 × Cpu) := do
  let c ← strncmpLoop fuel { c with edi := cs, esi := ct, ecx := count }
  some (c.eax, c)

def memcmp (c : Cpu) (cs ct count : BitVec 32) : Option (BitVec 32 × Cpu) := do
  let c ← { c with eax := 0#32, edi := cs, esi := ct, ecx := count }.repeCmpsb
  let c := if c.zf then c else differs c
  some (c.eax, c)

/-- The loop of `strchr`. -/
def strchrLoop : Nat → Cpu → Option Cpu
  | 0, _ => none
  | fuel + 1, c => do
      let c ← c.lodsb
      let c := c.compare c.al c.ah
      if c.zf then some c
      else
        let c := c.testAl
        if c.zf then some { c with esi := 1#32 }
        else strchrLoop fuel c

def strchr (fuel : Nat) (c : Cpu) (s : BitVec 32) (ch : Byte) : Option (BitVec 32 × Cpu) := do
  let c ← strchrLoop fuel { c.setAl ch with esi := s }.movbAlAh
  let c := { c with eax := c.esi }.decEax
  some (c.eax, c)

/-- The loop of `strrchr`. -/
def strrchrLoop : Nat → Cpu → Option Cpu
  | 0, _ => none
  | fuel + 1, c => do
      let c ← c.lodsb
      let c := c.compare c.al c.ah
      let c := if c.zf then { c with edx := c.esi }.decEdx else c
      let c := c.testAl
      if c.zf then some c
      else strrchrLoop fuel c

def strrchr (fuel : Nat) (c : Cpu) (s : BitVec 32) (ch : Byte) : Option (BitVec 32 × Cpu) := do
  let c ← strrchrLoop fuel { c.setAl ch with edx := 0#32, esi := s }.movbAlAh
  some (c.edx, c)

def memchr (c : Cpu) (cs : BitVec 32) (ch : Byte) (count : BitVec 32) : Option (BitVec 32 × Cpu) :=
  if count = 0#32 then some (0#32, c)
  else do
    let c ← { c.setAl ch with edi := cs, ecx := count }.repneScasb
    let c := if c.zf then c else { c with edi := 1#32 }
    let c := c.decEdi
    some (c.edi, c)

/-- `repne scasb` over `ct`, `notl` and `decl`: the length of `ct` in `ecx`. -/
def measure (c : Cpu) (ct : BitVec 32) : Option Cpu := do
  let c ← { c with edi := ct }.repneScasb
  some c.notEcx.decEcx

/-- From label 1 on; `repe cmpsb` with 0 in `ecx` leaves the flags alone. -/
def strstrLoop (ct : BitVec 32) : Nat → Cpu → Option Cpu
  | 0, _ => none
  | fuel + 1, c => do
      let c := { c with edi := ct, eax := c.esi, ecx := c.edx }
      let c ← c.repeCmpsb
      if c.zf then some c
      else
        let c := { c with eax := c.esi, esi := c.eax }
        let c := c.incEsi
        let c ← c.cmpbZero (c.eax - 1#32)
        if c.zf then some c.xorEax
        else strstrLoop ct fuel c

def strstr (fuel : Nat) (c : Cpu) (cs ct : BitVec 32) : Option (BitVec 32 × Cpu) := do
  let c ← measure { c with eax := 0#32, ecx := 0xffffffff#32, esi := cs } ct
  let c ← strstrLoop ct fuel { c with edx := c.ecx }
  some (c.eax, c)

/-- `repne scasb` over the `edx` bytes of `ct`: `ZF` says whether `al` is one of them. -/
def among (c : Cpu) (ct : BitVec 32) : Option Cpu := { c with edi := ct, ecx := c.edx }.repneScasb

/-- From label 1 on; `again` is the answer of `among` that jumps back. The result says whether the end
of the string came. -/
def spanLoop (ct : BitVec 32) (again : Bool) : Nat → Cpu → Option (Bool × Cpu)
  | 0, _ => none
  | fuel + 1, c => do
      let c ← c.lodsb
      let c := c.testAl
      if c.zf then some (true, c)
      else
        let c ← among c ct
        if c.zf = again then spanLoop ct again fuel c
        else some (false, c)

def span (again : Bool) (fuel : Nat) (c : Cpu) (cs ct : BitVec 32) : Option (Bool × Cpu) := do
  let c ← measure { c with eax := 0#32, ecx := 0xffffffff#32, esi := cs } ct
  spanLoop ct again fuel { c with edx := c.ecx }

def strspn (fuel : Nat) (c : Cpu) (cs ct : BitVec 32) : Option (BitVec 32 × Cpu) := do
  let (_, c) ← span true fuel c cs ct
  let c := c.decEsi
  some (c.esi - cs, c)

def strcspn (fuel : Nat) (c : Cpu) (cs ct : BitVec 32) : Option (BitVec 32 × Cpu) := do
  let (_, c) ← span false fuel c cs ct
  let c := c.decEsi
  some (c.esi - cs, c)

def strpbrk (fuel : Nat) (c : Cpu) (cs ct : BitVec 32) : Option (BitVec 32 × Cpu) := do
  let (ended, c) ← span false fuel c cs ct
  let c := if ended then c.xorEsi else c.decEsi
  some (c.esi, c)

/-- Label 2 skips delimiters; the result says whether the end of the string came first. -/
def strtokSkip (ct : BitVec 32) : Nat → Cpu → Option (Bool × Cpu)
  | 0, _ => none
  | fuel + 1, c => do
      let c ← c.lodsb
      let c := c.testAl
      if c.zf then some (true, c)
      else
        let c ← among c ct
        if c.zf then strtokSkip ct fuel c
        else
          let c := c.decEsi
          let c ← c.cmpbZero c.esi
          some (c.zf, c)

/-- Label 3 looks for the end of the token, up to label 6. -/
def strtokScan (ct : BitVec 32) : Nat → Cpu → Option Cpu
  | 0, _ => none
  | fuel + 1, c => do
      let c ← c.lodsb
      let c := c.testAl
      if c.zf then some c.xorEsi
      else
        let c ← among c ct
        if c.zf then
          let c := c.decEsi
          let c ← c.cmpbZero c.esi
          if c.zf then some c.xorEsi
          else
            let c ← c.store c.esi 0#8
            some c.incEsi
        else strtokScan ct fuel c

/-- Label 7. -/
def strtokEnd (c : Cpu) : Cpu :=
  let c := c.logic c.ebx
  if c.zf then { c with esi := c.ebx } else c

/-- From label 1 on. -/
def strtokFrom (fuel : Nat) (c : Cpu) (ct : BitVec 32) : Option Cpu := do
  let c := { c.xorEbx with ecx := -1#32 }
  let c := { c.logic 0#32 with eax := 0#32 }
  let c ← measure c ct
  if c.zf then some (strtokEnd c)
  else
    let (ended, c) ← strtokSkip ct fuel { c with edx := c.ecx }
    if ended then some (strtokEnd c)
    else
      let c ← strtokScan ct fuel { c with ebx := c.esi }
      let c ← c.cmpbZero c.ebx
      if c.zf then some (strtokEnd c.xorEbx)
      else some (strtokEnd c)

/-- `saved` is `___strtok`, before and after. -/
def strtok (fuel : Nat) (c : Cpu) (saved s ct : BitVec 32) : Option (BitVec 32 × BitVec 32 × Cpu) := do
  let c := { c with ebx := saved, esi := s }
  let c := c.logic c.esi
  let c ←
    if c.zf then
      let c := c.logic c.ebx
      if c.zf then some c
      else strtokFrom fuel { c with esi := c.ebx } ct
    else strtokFrom fuel c ct
  some (c.ebx, c.esi, c)

end Linux011.StringC

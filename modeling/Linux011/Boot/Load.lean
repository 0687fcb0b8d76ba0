import Linux011.Boot.Bootsect

/-! What the boot sector has in memory when it jumps to setup. -/
namespace Linux011.Boot

open ByteMemory RealMode

theorem transfer_inside {disk : Nat → Byte} {source target count x : Nat} {m : Memory} (hx : x < count) :
    transfer disk source target count m (target + x) = disk (source + x) := by
  rw [transfer, if_pos (by omega), Nat.add_sub_cancel_left]

theorem transfer_outside {disk : Nat → Byte} {source target count x : Nat} {m : Memory}
    (hx : x < target ∨ target + count ≤ x) : transfer disk source target count m x = m x :=
  if_neg (by omega)

/-- The memory that the BIOS leaves alone. -/
def Free (x : Nat) : Prop := 0x600 ≤ x ∧ x < 0x9f000

/-- A loader that has come to the end of a request: the sectors are in the buffer, and the
variables are as they were. -/
structure ReadDone (bios : Bios) (r : Request) (ld ld' : Loader) : Prop where
  sectors : ld'.sectors = ld.sectors
  sread : ld'.sread = ld.sread
  head : ld'.head = ld.head
  track : ld'.track = ld.track
  attempts : ld'.attempts.length ≤ ld.attempts.length
  buffer : ∀ x < r.bytes, ld'.mem (r.buffer + x) = bios.disk (512 * r.position.index bios.spt.toNat + x)
  outside : ∀ x, Free x → x < r.buffer ∨ r.buffer + r.bytes ≤ x → ld'.mem x = ld.mem x

section

variable {bios : Bios} {r : Request} {ld ld' : Loader} {fuel : Nat}

theorem scratch_eq {m : Memory} {x : Nat} (hx : Free x) : bios.scratch m x = m x :=
  bios.scratch_free m x hx.1 hx.2

theorem interrupt_mem {x : Nat} (hx : Free x) : (bios.interrupt ld).mem x = ld.mem x := scratch_eq hx

theorem okLoadSetup_mem {x : Nat} (hx : Free x) : (okLoadSetup bios ld).mem x = ld.mem x := scratch_eq hx

/-- The memory of a read without an error. -/
theorem readDone_good (hLow : 0x600 ≤ r.buffer) (hHigh : r.buffer + r.bytes ≤ 0x9f000)
    {attempts : List (Option (Nat → Byte))} (hAttempts : attempts.length ≤ ld.attempts.length) :
    ReadDone bios r ld (bios.interrupt { ld with
      mem := transfer bios.disk (512 * r.position.index bios.spt.toNat) r.buffer r.bytes ld.mem
      attempts := attempts }) where
  sectors := rfl
  sread := rfl
  head := rfl
  track := rfl
  attempts := hAttempts
  buffer x hx := (scratch_eq ⟨by omega, by omega⟩).trans (transfer_inside hx)
  outside _ hFree hx := (scratch_eq hFree).trans (transfer_outside hx)

theorem ReadDone.after_error {junk : Nat → Byte} {rest : List (Option (Nat → Byte))}
    (h : ReadDone bios r (bios.interrupt (bios.interrupt { ld with
      mem := transfer junk 0 r.buffer r.bytes ld.mem, attempts := rest })) ld')
    (hRest : rest.length ≤ ld.attempts.length) : ReadDone bios r ld ld' where
  sectors := h.sectors
  sread := h.sread
  head := h.head
  track := h.track
  attempts := h.attempts.trans hRest
  buffer := h.buffer
  outside x hFree hx := by
    rw [h.outside x hFree hx]
    exact (scratch_eq hFree).trans ((scratch_eq hFree).trans (transfer_outside hx))

/-- A request that the drive can do is done after finitely many errors. -/
theorem Bios.readAgain_ok (hReadable : r.Readable bios.spt.toNat) (hLow : 0x600 ≤ r.buffer)
    (hHigh : r.buffer + r.bytes ≤ 0x9f000) (hFuel : ld.attempts.length < fuel) :
    ∃ ld', bios.readAgain r fuel ld = .ok ld' ∧ ReadDone bios r ld ld' := by
  induction fuel generalizing ld with
  | zero => omega
  | succ fuel ih =>
      rw [Bios.readAgain, Bios.read, if_pos hReadable]
      cases hAttempts : ld.attempts with
      | nil =>
          refine ⟨_, rfl, ?_⟩
          rw [← hAttempts]
          exact readDone_good hLow hHigh (Nat.le_refl _)
      | cons attempt rest =>
          rw [hAttempts, List.length_cons] at hFuel
          cases attempt with
          | none => exact ⟨_, rfl, readDone_good hLow hHigh (by rw [hAttempts, List.length_cons]; omega)⟩
          | some junk =>
              obtain ⟨ld', hRun, hDone⟩ := @ih (bios.interrupt (bios.interrupt { ld with
                mem := transfer junk 0 r.buffer r.bytes ld.mem, attempts := rest })) (by
                  change rest.length < fuel
                  omega)
              exact ⟨ld', hRun, hDone.after_error (by rw [hAttempts, List.length_cons]; omega)⟩

end

/-- Where the next read starts. -/
def Loader.position (ld : Loader) : Floppy.Position := ⟨ld.track.toNat, ld.head.toNat, ld.sread.toNat⟩

section

variable {bios : Bios} {ld : Loader} {ax bx es : BitVec 16} {spt : Nat}

theorem trackRequest_dh (h : ld.head.toNat < 2) : (trackRequest ax bx es ld).dh.toNat = ld.head.toNat := by
  have hBit : (trackRequest ax bx es ld).dh = ld.head.setWidth 8 &&& 1#8 := by
    change (ld.head.setWidth 8 ++ 0#8 &&& (1#8 ++ 0#8)).extractLsb' 8 8 = _
    rw [BitVec.and_append, BitVec.extractLsb'_append_eq_left]
  rw [hBit, BitVec.toNat_and, BitVec.toNat_setWidth]
  change ld.head.toNat % 2 ^ 8 &&& 1 = _
  rw [Nat.and_one_is_mod]
  omega

theorem trackRequest_dl : (trackRequest ax bx es ld).dl = 0#8 := by
  change (ld.head.setWidth 8 ++ 0#8 &&& (1#8 ++ 0#8)).setWidth 8 = _
  rw [BitVec.and_append, low_append]
  rfl

theorem trackRequest_ch (h : ld.track.toNat < 256) : (trackRequest ax bx es ld).ch.toNat = ld.track.toNat := by
  change ((ld.track.setWidth 8 ++ (ld.sread + 1#16).setWidth 8).extractLsb' 8 8).toNat = _
  rw [BitVec.extractLsb'_append_eq_left, BitVec.toNat_setWidth]
  omega

theorem trackRequest_cl (h : ld.sread.toNat < 255) : (trackRequest ax bx es ld).cl.toNat = ld.sread.toNat + 1 := by
  change ((ld.track.setWidth 8 ++ (ld.sread + 1#16).setWidth 8).setWidth 8).toNat = _
  rw [low_append, BitVec.toNat_setWidth, BitVec.toNat_add]
  change (ld.sread.toNat + 1) % 2 ^ 16 % 2 ^ 8 = _
  omega

theorem trackRequest_position (hTrack : ld.track.toNat < 256) (hHead : ld.head.toNat < 2)
    (hSector : ld.sread.toNat < 63) : (trackRequest ax bx es ld).position = ld.position := by
  rw [Request.position, Loader.position, trackRequest_ch hTrack, trackRequest_dh hHead, trackRequest_cl (by omega),
    show (ld.sread.toNat + 1) / 64 = 0 by omega, show (ld.sread.toNat + 1) % 64 - 1 = ld.sread.toNat by omega]
  rfl

/-- As many sectors as are left of the track, if they fit into the segment. -/
theorem ok2Read_toNat (hSector : ld.sread.toNat ≤ ld.sectors.toNat) (hTrack : ld.sectors.toNat ≤ 63)
    (hBx : bx.toNat % 512 = 0) :
    (ok2Read bx ld).toNat = min (ld.sectors.toNat - ld.sread.toNat) ((0x10000 - bx.toNat) / 512) := by
  have hOff := bx.isLt
  have hLeft : (ld.sectors - ld.sread).toNat = ld.sectors.toNat - ld.sread.toNat :=
    BitVec.toNat_sub_of_le (by rwa [BitVec.le_def])
  have hBytes : ((ld.sectors - ld.sread) <<< 9).toNat = 512 * (ld.sectors.toNat - ld.sread.toNat) := by
    rw [BitVec.toNat_shiftLeft, Nat.shiftLeft_eq, hLeft]
    omega
  have hRoom : ((0#16 - bx) >>> 9).toNat = (0x10000 - bx.toNat) % 0x10000 / 512 := by
    rw [BitVec.toNat_ushiftRight, Nat.shiftRight_eq_div_pow, BitVec.toNat_sub]
    simp
  rw [ok2Read]
  by_cases hOver : 0x10000 < 512 * (ld.sectors.toNat - ld.sread.toNat) + bx.toNat
  · have hCarry : carry ((ld.sectors - ld.sread) <<< 9) bx = true := by
      rw [carry, hBytes]
      exact decide_eq_true (by omega)
    have hNonzero : ((ld.sectors - ld.sread) <<< 9 + bx != 0#16) = true := by
      rw [bne_iff_ne]
      intro hZero
      have hSum := congrArg BitVec.toNat hZero
      rw [BitVec.toNat_add, hBytes, BitVec.toNat_ofNat] at hSum
      omega
    rw [hCarry, hNonzero, if_pos (by decide), hRoom]
    omega
  · have hFits :
        (carry ((ld.sectors - ld.sread) <<< 9) bx && ((ld.sectors - ld.sread) <<< 9 + bx != 0#16)) = false := by
      by_cases hExact : 512 * (ld.sectors.toNat - ld.sread.toNat) + bx.toNat = 0x10000
      · have hZero : (ld.sectors - ld.sread) <<< 9 + bx = 0#16 := by
          apply BitVec.eq_of_toNat_eq
          rw [BitVec.toNat_add, hBytes, hExact]
          rfl
        rw [hZero, bne_self_eq_false, Bool.and_false]
      · have hCarry : carry ((ld.sectors - ld.sread) <<< 9) bx = false := by
          rw [carry, hBytes]
          exact decide_eq_false (by omega)
        rw [hCarry, Bool.false_and]
    rw [hFits, if_neg (by decide), hLeft]
    omega

@[simp] theorem ok3Read_mem : (ok3Read ax ld).mem = ld.mem := by
  unfold ok3Read
  split_ifs <;> rfl

@[simp] theorem ok3Read_sectors : (ok3Read ax ld).sectors = ld.sectors := by
  unfold ok3Read
  split_ifs <;> rfl

@[simp] theorem ok3Read_attempts : (ok3Read ax ld).attempts = ld.attempts := by
  unfold ok3Read
  split_ifs <;> rfl

theorem ok3Read_position (hSectors : ld.sectors.toNat = spt) (hSpt : spt ≤ 63) (hHead : ld.head.toNat < 2)
    (hTrack : ld.track.toNat < 256) (hFit : ld.sread.toNat + ax.toNat ≤ spt) :
    (ok3Read ax ld).position = ld.position.skip spt ax.toNat := by
  have hSum : (ax + ld.sread).toNat = ld.sread.toNat + ax.toNat := by
    rw [BitVec.toNat_add]
    omega
  have hEnd : ax + ld.sread = ld.sectors ↔ ld.sread.toNat + ax.toNat = spt := by
    rw [← BitVec.toNat_inj, hSum, hSectors]
  rw [ok3Read, Floppy.Position.skip]
  by_cases hAll : ax + ld.sread = ld.sectors
  · rw [if_pos hAll, if_pos (show ld.position.sector + ax.toNat = spt from hEnd.mp hAll)]
    have hOther : (1#16 - ld.head).toNat = 1 - ld.head.toNat :=
      BitVec.toNat_sub_of_le (by rw [BitVec.le_def]; change ld.head.toNat ≤ 1; omega)
    have hZero : 1#16 - ld.head = 0#16 ↔ ¬ld.head.toNat = 0 := by
      rw [← BitVec.toNat_inj, hOther]
      change 1 - ld.head.toNat = 0 ↔ _
      omega
    have hNext : (ld.track + 1#16).toNat = ld.track.toNat + 1 := toNat_add (by omega)
    simp only [Loader.position, hOther, hZero, ite_not]
    by_cases hFirst : ld.head.toNat = 0
    · rw [if_pos hFirst]
      exact congrArg (Floppy.Position.mk · (1 - ld.head.toNat) 0) (if_pos hFirst).symm
    · rw [if_neg hFirst, hNext]
      exact congrArg (Floppy.Position.mk · (1 - ld.head.toNat) 0) (if_neg hFirst).symm
  · rw [if_neg hAll, if_neg (show ¬ld.position.sector + ax.toNat = spt from fun h => hAll (hEnd.mpr h))]
    rw [Loader.position, hSum]
    rfl

end

/-- `rp_read` when `n` sectors of the system are in memory. What `m` holds from `INITSEG` on
is still there. -/
structure Loading (bios : Bios) (m : Memory) (n : Nat) (es bx : BitVec 16) (ld : Loader) : Prop where
  bound : n ≤ 384
  sectors : ld.sectors.toNat = bios.spt.toNat
  valid : ld.position.Valid bios.spt.toNat
  index : ld.position.index bios.spt.toNat = 5 + n
  segment : es.toNat = 0x1000 * (1 + n / 128)
  offset : bx.toNat = 512 * (n % 128)
  system : ∀ x < 512 * n, ld.mem (0x10000 + x) = bios.disk (512 * 5 + x)
  frame : ∀ x, 0x90000 ≤ x → x < 0x9f000 → ld.mem x = m x

section

variable {bios : Bios} {m : Memory} {ld ld' : Loader} {es bx : BitVec 16} {n fuel : Nat}

/-- No more than 33 tracks are read, whatever the format. -/
theorem Loading.track_lt (h : Loading bios m n es bx ld) (hSpt : 6 ≤ bios.spt.toNat) : ld.track.toNat < 40 := by
  have hBound := h.bound
  have hIndex := ld.position.track_mul_le bios.spt.toNat
  rw [h.index] at hIndex
  have hLeast : ld.track.toNat * 12 ≤ ld.position.track * (2 * bios.spt.toNat) :=
    Nat.mul_le_mul_left _ (by omega)
  omega

/-- The number of sectors of the next read. -/
structure Chunk (spt n : Nat) (ax : BitVec 16) (ld : Loader) : Prop where
  pos : 1 ≤ ax.toNat
  track : ld.sread.toNat + ax.toNat ≤ spt
  segment : n % 128 + ax.toNat ≤ 128

theorem Loading.chunk (h : Loading bios m n es bx ld) (hSpt : bios.spt.toNat ≤ 63) :
    Chunk bios.spt.toNat n (ok2Read bx ld) ld := by
  have hSector : ld.sread.toNat < bios.spt.toNat := h.valid.sector
  have hSectors := h.sectors
  have hOffset := h.offset
  have hCount := @ok2Read_toNat ld bx (by omega) (by omega) (by omega)
  exact ⟨by omega, by omega, by omega⟩

theorem Loading.buffer (h : Loading bios m n es bx ld) : addr es bx = 0x10000 + 512 * n := by
  have hSegment := h.segment
  have hOffset := h.offset
  rw [addr]
  omega

theorem Chunk.bytes {spt : Nat} {ax : BitVec 16} (h : Chunk spt n ax ld) :
    (trackRequest ax bx es ld).bytes = 512 * ax.toNat := by
  have hSegment := h.segment
  change 512 * (ax.setWidth 8).toNat = _
  rw [BitVec.toNat_setWidth]
  omega

theorem Loading.readable (h : Loading bios m n es bx ld) (hSpt : 6 ≤ bios.spt.toNat ∧ bios.spt.toNat ≤ 63)
    {ax : BitVec 16} (hChunk : Chunk bios.spt.toNat n ax ld) :
    (trackRequest ax bx es ld).Readable bios.spt.toNat := by
  have hTrack := h.track_lt hSpt.1
  have hHead : ld.head.toNat < 2 := h.valid.head
  have hSector : ld.sread.toNat < bios.spt.toNat := h.valid.sector
  have hOffset := h.offset
  have hBuffer := h.buffer
  have hBytes : (trackRequest ax bx es ld).bytes = 512 * ax.toNat := hChunk.bytes
  have hCount := hChunk.pos
  have hFit := hChunk.track
  have hSegment := hChunk.segment
  have hCl : (trackRequest ax bx es ld).cl.toNat = ld.sread.toNat + 1 := trackRequest_cl (by omega)
  have hAl : (trackRequest ax bx es ld).al.toNat = ax.toNat := by
    change (ax.setWidth 8).toNat = _
    rw [BitVec.toNat_setWidth]
    omega
  refine ⟨trackRequest_dl, ?_, ?_, by omega, by omega, by omega, ?_, ?_⟩
  · rw [trackRequest_position (by omega) hHead (by omega)]
    exact hTrack
  · rw [trackRequest_dh hHead]
    exact hHead
  · change bx.toNat + _ ≤ _
    omega
  · change addr es bx % _ + _ ≤ _
    omega

/-- A read that is done has the next sectors where they belong. -/
theorem Loading.next (h : Loading bios m n es bx ld) (hSpt : 6 ≤ bios.spt.toNat ∧ bios.spt.toNat ≤ 63)
    (hMore : n < 384) {ax : BitVec 16} (hChunk : Chunk bios.spt.toNat n ax ld)
    (hDone : ReadDone bios (trackRequest ax bx es ld) ld ld') {es' bx' : BitVec 16}
    (hSegment : es'.toNat = 0x1000 * (1 + (n + ax.toNat) / 128)) (hOffset : bx'.toNat = 512 * ((n + ax.toNat) % 128)) :
    Loading bios m (n + ax.toNat) es' bx' (ok3Read ax ld') := by
  have hTrack := h.track_lt hSpt.1
  have hHead : ld.head.toNat < 2 := h.valid.head
  have hSector : ld.sread.toNat < bios.spt.toNat := h.valid.sector
  have hFit := hChunk.track
  have hRoom := hChunk.segment
  have hSame : ld'.position = ld.position := by
    rw [Loader.position, hDone.track, hDone.head, hDone.sread, Loader.position]
  have hPosition : (ok3Read ax ld').position = ld.position.skip bios.spt.toNat ax.toNat := by
    rw [ok3Read_position (by rw [hDone.sectors, h.sectors]) hSpt.2 (by rwa [hDone.head]) (by rw [hDone.track]; omega)
      (by rwa [hDone.sread]), hSame]
  have hBuffer : (trackRequest ax bx es ld).buffer = 0x10000 + 512 * n := h.buffer
  have hBytes : (trackRequest ax bx es ld).bytes = 512 * ax.toNat := hChunk.bytes
  refine ⟨by omega, ?_, ?_, ?_, hSegment, hOffset, fun x hx => ?_, fun x hx hx' => ?_⟩
  · rw [ok3Read_sectors, hDone.sectors, h.sectors]
  · rw [hPosition]
    exact h.valid.skip hFit
  · rw [hPosition, Floppy.Position.index_skip h.valid, h.index, Nat.add_assoc]
  · rw [ok3Read_mem]
    by_cases hOld : x < 512 * n
    · rw [hDone.outside _ ⟨by omega, by omega⟩ (by omega)]
      exact h.system x hOld
    · have hNew := hDone.buffer (x - 512 * n) (by omega)
      rw [trackRequest_position (by omega) hHead (by omega), h.index, hBuffer] at hNew
      rwa [show 0x10000 + 512 * n + (x - 512 * n) = 0x10000 + x by omega,
        show 512 * (5 + n) + (x - 512 * n) = 512 * 5 + x by omega] at hNew
  · rw [ok3Read_mem, hDone.outside _ ⟨by omega, by omega⟩ (by omega)]
    exact h.frame x hx hx'

/-- The registers after a read go on behind it, in the next segment if this one is full. -/
theorem Loading.read (h : Loading bios m n es bx ld) (hSpt : 6 ≤ bios.spt.toNat ∧ bios.spt.toNat ≤ 63)
    (hMore : n < 384) (hFuel : ld.attempts.length < fuel) : ∃ ld',
      readTrack bios (ok2Read bx ld) bx es fuel ld = .ok ld' ∧ ld'.attempts.length ≤ ld.attempts.length ∧
      if carry bx (ok2Read bx ld <<< 9) then
        Loading bios m (n + (ok2Read bx ld).toNat) (es + 0x1000#16) 0#16 (ok3Read (ok2Read bx ld) ld')
      else
        Loading bios m (n + (ok2Read bx ld).toNat) es (bx + ok2Read bx ld <<< 9) (ok3Read (ok2Read bx ld) ld') := by
  have hChunk := h.chunk hSpt.2
  generalize ok2Read bx ld = ax at hChunk ⊢
  have hPos := hChunk.pos
  have hFit := hChunk.track
  have hRoom := hChunk.segment
  have hSegment := h.segment
  have hOffset := h.offset
  have hBuffer : (trackRequest ax bx es ld).buffer = 0x10000 + 512 * n := h.buffer
  have hBytes : (trackRequest ax bx es ld).bytes = 512 * ax.toNat := hChunk.bytes
  obtain ⟨ld', hRun, hDone⟩ := Bios.readAgain_ok (h.readable hSpt hChunk) (by omega) (by omega) hFuel
  have hCx : (ax <<< 9).toNat = 512 * ax.toNat := by
    rw [BitVec.toNat_shiftLeft, Nat.shiftLeft_eq]
    omega
  refine ⟨ld', hRun, hDone.attempts, ?_⟩
  by_cases hFull : n % 128 + ax.toNat = 128
  · have hCarry : carry bx (ax <<< 9) = true := by
      rw [carry, hCx]
      exact decide_eq_true (by omega)
    rw [if_pos hCarry]
    refine h.next hSpt hMore hChunk hDone ?_ ?_
    · rw [BitVec.toNat_add, hSegment]
      change (0x1000 * (1 + n / 128) + 0x1000) % 2 ^ 16 = _
      omega
    · change 0 = _
      omega
  · have hCarry : ¬carry bx (ax <<< 9) = true := by
      rw [carry, hCx, decide_eq_true_eq]
      omega
    rw [if_neg hCarry]
    refine h.next hSpt hMore hChunk hDone ?_ ?_
    · omega
    · rw [BitVec.toNat_add, hCx]
      omega

/-- The whole of 192KB arrives, however many reads fail on the way. -/
theorem Loading.rpRead (h : Loading bios m n es bx ld) (hSpt : 6 ≤ bios.spt.toNat ∧ bios.spt.toNat ≤ 63)
    (hFuel : 384 - n + ld.attempts.length < fuel) :
    ∃ ld' es' bx', rpRead bios fuel es bx ld = .ok ld' ∧ Loading bios m 384 es' bx' ld' := by
  induction fuel generalizing n es bx ld with
  | zero => omega
  | succ fuel ih =>
      have hBound := h.bound
      have hSegment := h.segment
      rw [Linux011.Boot.rpRead]
      by_cases hMore : n < 384
      · have hBelow : es < ENDSEG := by
          rw [BitVec.lt_def, hSegment]
          change _ < 0x4000
          omega
        have hAhead := (h.chunk hSpt.2).pos
        obtain ⟨ld', hRun, hAttempts, hNext⟩ := h.read hSpt hMore (show ld.attempts.length < fuel by omega)
        rw [if_pos hBelow]
        dsimp only
        rw [ok_bind hRun]
        split_ifs at hNext ⊢ with hCarry
        · exact ih hNext (by rw [ok3Read_attempts]; omega)
        · exact ih hNext (by rw [ok3Read_attempts]; omega)
      · have hEnd : ¬es < ENDSEG := by
          rw [BitVec.lt_def, hSegment]
          change ¬_ < 0x4000
          omega
        rw [if_neg hEnd]
        rw [show n = 384 by omega] at h
        exact ⟨ld, es, bx, rfl, h⟩

end

/-- What the boot sector leaves for setup. -/
structure Started (bios : Bios) (ld : Loader) : Prop where
  system : ∀ x < 512 * 384, ld.mem (0x10000 + x) = bios.disk (512 * 5 + x)
  setup : ∀ x < 2048, ld.mem (0x90200 + x) = bios.disk (512 + x)

section

variable {bios : Bios} {m : Memory} {ld ld' : Loader} {fuel : Nat} {attempts : List (Option (Nat → Byte))}

theorem start2_copy {x : Nat} (hx : x < 512) : start2 m (0x90000 + x) = m (0x7c00 + x) := by
  rw [start2, repMovsw_eq (by decide) (by decide)]
  exact copyUp16_inside m _ _ 256 (by decide) (by omega)

/-- Sectors 2 to 5 of the first track, whatever the format. -/
theorem loadSetup_ok (hSpt : 6 ≤ bios.spt.toNat) (hFuel : ld.attempts.length < fuel) :
    ∃ ld', loadSetup bios fuel ld = .ok ld' ∧ ld'.sread = ld.sread ∧ ld'.head = ld.head ∧ ld'.track = ld.track ∧
      ld'.attempts.length ≤ ld.attempts.length ∧ (∀ x < 2048, ld'.mem (0x90200 + x) = bios.disk (512 + x)) ∧
      ∀ x, Free x → x < 0x90200 → ld'.mem x = ld.mem x := by
  generalize hRequest : Request.mk (SETUPLEN.setWidth 8) 0x00#8 0x02#8 0x00#8 0x00#8 INITSEG 0x0200#16 = r
  have hPosition : r.position = ⟨0, 0, 1⟩ := by
    rw [← hRequest]
    rfl
  have hBuffer : r.buffer = 0x90200 := by
    rw [← hRequest]
    rfl
  have hBytes : r.bytes = 2048 := by
    rw [← hRequest]
    rfl
  have hReadable : r.Readable bios.spt.toNat := by
    refine ⟨?_, ?_, ?_, ?_, ?_, ?_, ?_, by omega⟩ <;> rw [← hRequest]
    · decide
    · decide
    · decide
    · decide
    · change 1 + 4 ≤ bios.spt.toNat
      omega
    · decide
  obtain ⟨ld', hRun, hDone⟩ := Bios.readAgain_ok hReadable (by omega) (by omega) hFuel
  refine ⟨ld', ?_, hDone.sread, hDone.head, hDone.track, hDone.attempts, fun x hx => ?_, fun x hFree hx => ?_⟩
  · rw [loadSetup, hRequest]
    exact hRun
  · have hByte := hDone.buffer x (by omega)
    rwa [hBuffer, hPosition, Floppy.Position.index, Nat.mul_zero, Nat.add_zero, Nat.zero_mul, Nat.zero_add,
      Nat.mul_one] at hByte
  · exact hDone.outside x hFree (Or.inl (by omega))

theorem root_addr : addr INITSEG 508#16 = 0x901fc := rfl

/-- A root device in the image is left as it is. -/
theorem rootDefined_ok (hRoot : load16 ld.mem 0x901fc ≠ 0#16) :
    ∃ ld', rootDefined ld = .ok ld' ∧ ∀ x, x < 0x901fc ∨ 0x901fe ≤ x → ld'.mem x = ld.mem x := by
  refine ⟨{ ld with mem := store16 ld.mem 0x901fc (load16 ld.mem 0x901fc) }, ?_, fun x hx => ?_⟩
  · rw [rootDefined, root_addr]
    exact if_pos hRoot
  · exact store16_outside _ _ _ (by omega)

/-- The first round of the loop. -/
theorem loading_first (hSpt : 6 ≤ bios.spt.toNat) (hSectors : ld.sectors.toNat = bios.spt.toNat)
    (hSread : ld.sread = 1#16 + SETUPLEN) (hHead : ld.head = 0#16) (hTrack : ld.track = 0#16) :
    Loading bios ld.mem 0 SYSSEG 0#16 ld := by
  have hPosition : ld.position = ⟨0, 0, 5⟩ := by
    rw [Loader.position, hSread, hHead, hTrack]
    rfl
  refine ⟨by omega, hSectors, ?_, ?_, rfl, rfl, fun x hx => absurd hx (by omega), fun _ _ _ => rfl⟩
  · rw [hPosition]
    exact ⟨by decide, show 5 < bios.spt.toNat by omega⟩
  · rw [hPosition, Floppy.Position.index, Nat.mul_zero, Nat.add_zero, Nat.zero_mul]
    rfl

theorem loading_start (hSpt : 6 ≤ bios.spt.toNat) (hSread : ld.sread = 1#16 + SETUPLEN) (hHead : ld.head = 0#16)
    (hTrack : ld.track = 0#16) :
    Loading bios (okLoadSetup bios ld).mem 0 SYSSEG 0#16 (okLoadSetup bios ld) := by
  refine loading_first hSpt ?_ hSread hHead hTrack
  change (0x00#8 ++ bios.spt).toNat = _
  rw [BitVec.toNat_append]
  simp

/-- The boot sector of a disk whose image names a root device. -/
theorem bootsect_ok (hSpt : 6 ≤ bios.spt.toNat ∧ bios.spt.toNat ≤ 63)
    (hBoot : ∀ x < 512, m (0x7c00 + x) = bios.disk x) (hRoot : bios.disk 509 ++ bios.disk 508 ≠ 0#16)
    (hFuel : 384 + attempts.length < fuel) :
    ∃ ld, bootsect bios fuel attempts m = .ok ld ∧ Started bios ld := by
  obtain ⟨ld1, hSetup, hSread, hHead, hTrack, hAttempts, hFile, hKept⟩ := @loadSetup_ok bios
    ⟨start2 m, attempts, 0#16, 1#16 + SETUPLEN, 0#16, 0#16⟩ fuel hSpt.1 (show attempts.length < fuel by omega)
  have hStart := loading_start hSpt.1 hSread hHead hTrack
  have hFuel' : 384 - 0 + (okLoadSetup bios ld1).attempts.length < fuel := by
    change 384 + ld1.attempts.length < fuel
    change ld1.attempts.length ≤ attempts.length at hAttempts
    omega
  obtain ⟨ld2, es, bx, hRun, hLoaded⟩ := hStart.rpRead hSpt hFuel'
  -- the copy of the boot sector and setup are where they were before the loop
  have hSector {x : Nat} (hx : x < 512) : ld2.mem (0x90000 + x) = bios.disk x := by
    have hFree : Free (0x90000 + x) := ⟨by omega, by omega⟩
    rw [hLoaded.frame _ (by omega) (by omega), okLoadSetup_mem hFree, hKept _ hFree (by omega)]
    change start2 m (0x90000 + x) = _
    rw [start2_copy hx, hBoot x hx]
  have hTwo {x : Nat} (hx : x < 2048) : ld2.mem (0x90200 + x) = bios.disk (512 + x) := by
    rw [hLoaded.frame _ (by omega) (by omega), okLoadSetup_mem ⟨by omega, by omega⟩]
    exact hFile x hx
  have hWord : load16 ld2.mem 0x901fc = bios.disk 509 ++ bios.disk 508 := by
    rw [load16, ← hSector (x := 509) (by omega), ← hSector (x := 508) (by omega)]
  obtain ⟨ld3, hDefined, hRest⟩ := rootDefined_ok (hWord ▸ hRoot)
  have hEnd {x : Nat} (hFree : Free x) (hx : x < 0x901fc ∨ 0x901fe ≤ x) :
      (bios.interrupt (bios.interrupt ld3)).mem x = ld2.mem x := by
    rw [interrupt_mem hFree, interrupt_mem hFree, hRest x hx]
  refine ⟨bios.interrupt (bios.interrupt ld3), ?_, fun x hx => ?_, fun x hx => ?_⟩
  · rw [bootsect, ok_bind hSetup, readIt, if_neg (by decide), ok_bind hRun, ok_bind hDefined]
  · rw [hEnd ⟨by omega, by omega⟩ (by omega)]
    exact hLoaded.system x hx
  · rw [hEnd ⟨by omega, by omega⟩ (by omega)]
    exact hTwo hx

end

end Linux011.Boot

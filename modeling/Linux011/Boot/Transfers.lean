import Linux011.Boot.Arrives

/-! The transfers that `read_it` asks the BIOS for. -/
namespace Linux011.Boot

open ByteMemory RealMode

section

variable (bios : Bios)

/-- `Bios.readAgain` with the reads that went well. -/
def Bios.readLogged (r : Request) : Nat → Loader → Except Stop (List Request × Loader)
  | 0, _ => .error .hang
  | fuel + 1, ld =>
      let (carry, ld) := bios.read r ld
      if carry then Bios.readLogged r fuel (bios.interrupt ld) else .ok ([r], ld)

/-- `rpRead` with the reads that went well, and `es` and `bx` behind it. -/
def rpReadLogged : Nat → BitVec 16 → BitVec 16 → Loader → Except Stop (List Request × BitVec 16 × BitVec 16 × Loader)
  | 0, _, _, _ => .error .hang
  | fuel + 1, es, bx, ld =>
      if es < ENDSEG then
        let ax := ok2Read bx ld
        (bios.readLogged (trackRequest ax bx es ld) fuel ld).bind fun (reads, ld) =>
          let ld := ok3Read ax ld
          let cx := ax <<< 9
          let rest :=
            if carry bx cx then rpReadLogged fuel (es + 0x1000#16) 0#16 ld else rpReadLogged fuel es (bx + cx) ld
          rest.map fun (more, out) => (reads ++ more, out)
      else .ok ([], es, bx, ld)

def readItLogged (fuel : Nat) (es : BitVec 16) (ld : Loader) :
    Except Stop (List Request × BitVec 16 × BitVec 16 × Loader) :=
  if es &&& 0x0fff#16 ≠ 0#16 then .error .hang else rpReadLogged bios fuel es 0#16 ld

variable {bios} {r : Request} {ld ld' : Loader} {es bx : BitVec 16} {fuel : Nat}

/-- The log is only a log. -/
theorem Bios.readLogged_map : (bios.readLogged r fuel ld).map Prod.snd = bios.readAgain r fuel ld := by
  induction fuel generalizing ld with
  | zero => rfl
  | succ fuel ih =>
      rw [Bios.readLogged, Bios.readAgain]
      dsimp only
      split_ifs
      · exact ih
      · rfl

theorem map_log (reads : List Request) (x : Except Stop (List Request × BitVec 16 × BitVec 16 × Loader)) :
    (x.map fun (more, out) => (reads ++ more, out)).map (fun out => out.2.2.2) = x.map fun out => out.2.2.2 := by
  cases x <;> rfl

theorem rpReadLogged_map :
    (rpReadLogged bios fuel es bx ld).map (fun out => out.2.2.2) = rpRead bios fuel es bx ld := by
  induction fuel generalizing es bx ld with
  | zero => rfl
  | succ fuel ih =>
      rw [rpReadLogged, rpRead]
      split_ifs
      · dsimp only
        rw [readTrack, ← Bios.readLogged_map]
        cases bios.readLogged (trackRequest (ok2Read bx ld) bx es ld) fuel ld with
        | error e => rfl
        | ok out =>
            obtain ⟨reads, ld'⟩ := out
            rw [ok_bind rfl]
            dsimp only
            rw [map_log]
            dsimp only [Except.map, Except.bind]
            split_ifs
            · exact ih
            · exact ih
      · rfl

/-- A request that succeeds is issued until it does, and no other. -/
theorem Bios.readLogged_ok (h : bios.readAgain r fuel ld = .ok ld') : bios.readLogged r fuel ld = .ok ([r], ld') := by
  induction fuel generalizing ld with
  | zero => cases h
  | succ fuel ih =>
      rw [Bios.readAgain] at h
      rw [Bios.readLogged]
      dsimp only at h ⊢
      split_ifs at h ⊢
      · exact ih h
      · rw [Except.ok.inj h]

end

/-- Which sector of the disk comes to which address, in order. -/
def Request.places (spt : Nat) (r : Request) : List (Nat × Nat) :=
  (List.range r.al.toNat).map fun i => (r.position.index spt + i, r.buffer + 512 * i)

/-- The sectors of the system from the number `n` on, where they belong. -/
def placesFrom (n count : Nat) : List (Nat × Nat) :=
  (List.range' n count).map fun j => (5 + j, 0x10000 + 512 * j)

theorem placesFrom_append (n count count' : Nat) :
    placesFrom n count ++ placesFrom (n + count) count' = placesFrom n (count + count') := by
  rw [placesFrom, placesFrom, placesFrom, ← List.map_append, List.range'_append_1]

/-- A transfer is of one side of one track and stays in 64KB. -/
structure Request.Contained (spt : Nat) (r : Request) : Prop where
  count : 1 ≤ r.al.toNat
  head : r.position.head < 2
  track : r.position.sector + r.al.toNat ≤ spt
  page : r.buffer / 0x10000 = (r.buffer + r.bytes - 1) / 0x10000

section

variable {bios : Bios} {r : Request} {m : Memory} {ld : Loader} {es bx : BitVec 16} {n fuel : Nat}

theorem Request.Readable.contained {spt : Nat} (h : r.Readable spt) : r.Contained spt := by
  have hBytes : r.bytes = 512 * r.al.toNat := rfl
  have hPage := h.page
  have hCount := h.count
  exact ⟨hCount, h.head, h.track, by omega⟩

theorem Loading.places (h : Loading bios m n es bx ld) (hSpt : 6 ≤ bios.spt.toNat ∧ bios.spt.toNat ≤ 63)
    {ax : BitVec 16} (hChunk : Chunk bios.spt.toNat n ax ld) :
    (trackRequest ax bx es ld).places bios.spt.toNat = placesFrom n ax.toNat := by
  have hTrack := h.track_lt hSpt.1
  have hHead : ld.head.toNat < 2 := h.valid.head
  have hSector : ld.sread.toNat < bios.spt.toNat := h.valid.sector
  have hSegment := hChunk.segment
  have hAl : (trackRequest ax bx es ld).al.toNat = ax.toNat := by
    change (ax.setWidth 8).toNat = _
    rw [BitVec.toNat_setWidth]
    omega
  have hBuffer : (trackRequest ax bx es ld).buffer = 0x10000 + 512 * n := h.buffer
  rw [Request.places, placesFrom, hAl, trackRequest_position (by omega) hHead (by omega), h.index, hBuffer,
    List.range'_eq_map_range, List.map_map]
  refine List.map_congr_left fun i _ => Prod.ext ?_ ?_
  · exact Nat.add_assoc 5 n i
  · change 0x10000 + 512 * n + 512 * i = 0x10000 + 512 * (n + i)
    omega

/-- The log of the loop covers what is left of the system. -/
theorem Loading.rpReadLogged (h : Loading bios m n es bx ld) (hSpt : 6 ≤ bios.spt.toNat ∧ bios.spt.toNat ≤ 63)
    (hFuel : 384 - n + ld.attempts.length < fuel) :
    ∃ reads es' bx' ld', rpReadLogged bios fuel es bx ld = .ok (reads, es', bx', ld') ∧
      Loading bios m 384 es' bx' ld' ∧ reads.flatMap (Request.places bios.spt.toNat) = placesFrom n (384 - n) ∧
      ∀ r ∈ reads, r.Contained bios.spt.toNat := by
  induction fuel generalizing n es bx ld with
  | zero => omega
  | succ fuel ih =>
      have hBound := h.bound
      have hSegment := h.segment
      rw [Linux011.Boot.rpReadLogged]
      by_cases hMore : n < 384
      · have hBelow : es < ENDSEG := by
          rw [BitVec.lt_def, hSegment]
          change _ < 0x4000
          omega
        have hChunk := h.chunk hSpt.2
        obtain ⟨ld', hRun, hAttempts, hNext⟩ := h.read hSpt hMore (show ld.attempts.length < fuel by omega)
        have hPlaces := h.places hSpt hChunk
        have hContained := (h.readable hSpt hChunk).contained
        have hPos := hChunk.pos
        generalize ok2Read bx ld = ax at *
        have hFuel' : 384 - (n + ax.toNat) + (ok3Read ax ld').attempts.length < fuel := by
          rw [ok3Read_attempts]
          omega
        obtain ⟨hEnd, more, es', bx', ld'', hMoreRun, hLoaded, hMorePlaces, hMoreContained⟩ : n + ax.toNat ≤ 384 ∧
            ∃ more es' bx' ld'', (if carry bx (ax <<< 9) then
              Linux011.Boot.rpReadLogged bios fuel (es + 0x1000#16) 0#16 (ok3Read ax ld')
            else Linux011.Boot.rpReadLogged bios fuel es (bx + ax <<< 9) (ok3Read ax ld')) =
              .ok (more, es', bx', ld'') ∧ Loading bios m 384 es' bx' ld'' ∧
            more.flatMap (Request.places bios.spt.toNat) = placesFrom (n + ax.toNat) (384 - (n + ax.toNat)) ∧
            ∀ r ∈ more, r.Contained bios.spt.toNat := by
          split_ifs at hNext ⊢ with hCarry
          · exact ⟨hNext.bound, ih hNext hFuel'⟩
          · exact ⟨hNext.bound, ih hNext hFuel'⟩
        refine ⟨trackRequest ax bx es ld :: more, es', bx', ld'', ?_, hLoaded, ?_, ?_⟩
        · rw [if_pos hBelow]
          dsimp only
          rw [ok_bind (Bios.readLogged_ok hRun)]
          dsimp only
          rw [hMoreRun]
          rfl
        · rw [List.flatMap_cons, hPlaces, hMorePlaces, placesFrom_append]
          congr 1
          omega
        · exact List.forall_mem_cons.mpr ⟨hContained, hMoreContained⟩
      · have hEnd : ¬es < ENDSEG := by
          rw [BitVec.lt_def, hSegment]
          change ¬_ < 0x4000
          omega
        obtain rfl : n = 384 := by omega
        exact ⟨[], es, bx, ld, if_neg hEnd, h, rfl, by simp⟩

/-- `read_it` brings the sectors from 5 on to `SYSSEG`, each of them once and in order, up to the
last one that `ENDSEG` leaves room for, by transfers that the drive can do. -/
theorem readIt_covers (hSpt : 6 ≤ bios.spt.toNat ∧ bios.spt.toNat ≤ 63)
    (hSectors : ld.sectors.toNat = bios.spt.toNat) (hSread : ld.sread = 1#16 + SETUPLEN) (hHead : ld.head = 0#16)
    (hTrack : ld.track = 0#16) (hFuel : 384 + ld.attempts.length < fuel) :
    ∃ reads ld', readItLogged bios fuel SYSSEG ld = .ok (reads, ENDSEG, 0#16, ld') ∧
      readIt bios fuel SYSSEG ld = .ok ld' ∧
      reads.flatMap (Request.places bios.spt.toNat) = (List.range 384).map (fun j => (5 + j, 0x10000 + 512 * j)) ∧
      (∀ r ∈ reads, r.Contained bios.spt.toNat) ∧
      ∀ x < 512 * 384, ld'.mem (0x10000 + x) = bios.disk (512 * 5 + x) := by
  have hStart := loading_first hSpt.1 hSectors hSread hHead hTrack
  obtain ⟨reads, es, bx, ld', hRun, hLoaded, hPlaces, hContained⟩ := hStart.rpReadLogged hSpt (by omega)
  have hEs : es = ENDSEG := BitVec.eq_of_toNat_eq hLoaded.segment
  have hBx : bx = 0#16 := BitVec.eq_of_toNat_eq hLoaded.offset
  rw [hEs, hBx] at hRun
  refine ⟨reads, ld', ?_, ?_, ?_, hContained, hLoaded.system⟩
  · rw [readItLogged, if_neg (by decide), hRun]
  · rw [readIt, if_neg (by decide), ← rpReadLogged_map, hRun]
    rfl
  · rw [hPlaces, placesFrom, List.range_eq_range']

end

/-- A disk of 18 sectors a track, each of them filled with its number. -/
def numberedDisk : Bios := { floppy [] with disk := fun i => BitVec.ofNat 8 (i / 512) }

/-- The loader in front of its first read, which fails. -/
def firstLoader : Loader := ⟨fun _ => 0#8, [some fun _ => 0#8], 18#16, 5#16, 0#16, 0#16⟩

theorem readIt_covers_numbered : ∃ reads ld', readItLogged numberedDisk 386 SYSSEG firstLoader =
      .ok (reads, ENDSEG, 0#16, ld') ∧ readIt numberedDisk 386 SYSSEG firstLoader = .ok ld' ∧
    reads.flatMap (Request.places 18) = (List.range 384).map (fun j => (5 + j, 0x10000 + 512 * j)) ∧
    (∀ r ∈ reads, r.Contained 18) ∧
    ∀ x < 512 * 384, ld'.mem (0x10000 + x) = BitVec.ofNat 8 ((512 * 5 + x) / 512) :=
  @readIt_covers numberedDisk firstLoader 386 ⟨by decide, by decide⟩ rfl rfl rfl rfl (by decide)

end Linux011.Boot

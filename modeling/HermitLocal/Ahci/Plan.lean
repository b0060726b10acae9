import HermitLocal.Ahci.MemoryDb

/-! The two loops that write many sectors, each as one flat list of sector writes. The
chunking of `append_memory_db` and `erase_memory_db` is invisible at this level:
a payload occupies consecutive sectors, the last one padded with zeros. -/

namespace HermitLocal.Ahci.Plan
open Lib.Wire Lib.BlockProgram Lib.BlockProgram.Program List
open Ahci.Layout Ahci.MemoryDb

def dataWrites (lba : Nat) (payload : List UInt8) : List (Nat × Sector) :=
  place lba ((range (sectorsForBytes payload.length)).map (sectorAt payload))

@[simp] theorem dataWrites_length (lba : Nat) (payload : List UInt8) :
    (dataWrites lba payload).length = sectorsForBytes payload.length := by
  simp [dataWrites]

theorem dataWrites_bounds (lba : Nat) (payload : List UInt8) (write : Nat × Sector)
    (member : write ∈ dataWrites lba payload) :
    lba ≤ write.1 ∧ write.1 < lba + sectorsForBytes payload.length := by
  have bounds := place_bounds lba _ write member
  simpa using bounds

theorem sectorsForBytes_eq (bytes : Nat) : sectorsForBytes bytes = (bytes + 511) / 512 := rfl

theorem sectorsForBytes_pos (bytes : Nat) (some : 0 < bytes) : 0 < sectorsForBytes bytes := by
  rw [sectorsForBytes_eq]
  omega

theorem sectorAt_drop (payload : List UInt8) (first index : Nat) :
    sectorAt (payload.drop (first * SECTOR_SIZE)) index = sectorAt payload (first + index) := by
  funext i
  have shift : first * SECTOR_SIZE + (index * SECTOR_SIZE + i.val) =
      (first + index) * SECTOR_SIZE + i.val := by ring
  simp only [sectorAt, getD_eq_getElem?_getD, getElem?_drop, shift]

theorem sectorAt_tail (payload : List UInt8) (full tail : Nat)
    (whole : full * SECTOR_SIZE + tail = payload.length) :
    sectorAt ((payload.drop (full * SECTOR_SIZE)).take tail) 0 = sectorAt payload full := by
  have all : (payload.drop (full * SECTOR_SIZE)).take tail = payload.drop (full * SECTOR_SIZE) := by
    apply take_of_length_le
    simp only [length_drop]
    omega
  rw [all, sectorAt_drop, Nat.add_zero]

theorem dataWrites_split (lba : Nat) (payload : List UInt8) (full : Nat)
    (inside : full * SECTOR_SIZE ≤ payload.length) :
    dataWrites lba payload = place lba ((range full).map (sectorAt payload)) ++
      dataWrites (lba + full) (payload.drop (full * SECTOR_SIZE)) := by
  have count : sectorsForBytes payload.length =
      full + sectorsForBytes (payload.drop (full * SECTOR_SIZE)).length := by
    simp only [SECTOR_SIZE] at inside
    simp only [length_drop, sectorsForBytes_eq, SECTOR_SIZE]
    omega
  have later : ∀ n, (range n).map (sectorAt payload ∘ (full + ·)) =
      (range n).map (sectorAt (payload.drop (full * SECTOR_SIZE))) := by
    intro n
    apply map_congr_left
    intro i _
    exact (sectorAt_drop payload full i).symm
  rw [dataWrites, count, range_add, map_append, map_map, later, place_append]
  simp [dataWrites]

theorem appendChunk_eq (rest : List UInt8) (chunk lba : Nat) (small : chunk ≤ MODEL_IO_SECTORS * SECTOR_SIZE)
    (shape : chunk = rest.length ∨ chunk ≤ rest.length ∧ chunk % SECTOR_SIZE = 0) : appendChunk rest chunk lba =
      writeAll (place lba ((range (sectorsForBytes chunk)).map (sectorAt rest))) >>= fun _ =>
        pure (sectorsForBytes chunk) := by
  have u16 : tryFrom 16 (chunk / SECTOR_SIZE) = .ok (chunk / SECTOR_SIZE) := by
    have bound : chunk / SECTOR_SIZE < 2 ^ 16 := by
      simp only [SECTOR_SIZE, MODEL_IO_SECTORS] at small ⊢
      omega
    exact if_pos bound
  have head : (if chunk / SECTOR_SIZE > 0 then
      writeAll (place lba ((range (chunk / SECTOR_SIZE)).map (sectorAt rest))) else pure ()) =
      (writeAll (place lba ((range (chunk / SECTOR_SIZE)).map (sectorAt rest))) : Driver Unit) := by
    split_ifs with some
    · rfl
    · rw [Nat.eq_zero_of_not_pos some]
      rfl
  by_cases tail : chunk - chunk / SECTOR_SIZE * SECTOR_SIZE > 0
  · have last : chunk = rest.length := by
      simp only [SECTOR_SIZE] at tail shape
      omega
    have whole : chunk / SECTOR_SIZE * SECTOR_SIZE + (chunk - chunk / SECTOR_SIZE * SECTOR_SIZE) =
        rest.length := by
      omega
    have count : sectorsForBytes chunk = chunk / SECTOR_SIZE + 1 := by
      simp only [SECTOR_SIZE] at tail
      simp only [sectorsForBytes_eq, SECTOR_SIZE]
      omega
    rw [count, range_succ, map_append, place_append, writeAll_append]
    simp only [appendChunk, u16, lift_ok, pure_bind, head, tail, if_true, writeSectors, length_map,
      length_range, range_one, map_cons, map_nil, sectorAt_tail rest _ _ whole,
      bind_assoc]
  · have count : sectorsForBytes chunk = chunk / SECTOR_SIZE := by
      simp only [SECTOR_SIZE] at tail
      simp only [sectorsForBytes_eq, SECTOR_SIZE]
      omega
    rw [count]
    simp only [appendChunk, u16, lift_ok, pure_bind, head, tail, if_false, writeSectors, Nat.add_zero]

theorem appendChunks_nil (limit written lba : Nat) : appendChunks limit [] written lba = pure (written, lba) := by
  rw [appendChunks]
  simp

theorem appendChunks_step (limit : Nat) (rest : List UInt8) (written lba : Nat) (content : rest.length ≠ 0)
    (room : limit - lba ≠ 0) : ∃ chunk, 0 < chunk ∧ sectorsForBytes chunk ≤ limit - lba ∧
      (chunk = rest.length ∨ chunk < rest.length ∧ chunk = sectorsForBytes chunk * SECTOR_SIZE) ∧
      appendChunks limit rest written lba =
        writeAll (place lba ((range (sectorsForBytes chunk)).map (sectorAt rest))) >>= fun _ =>
          appendChunks limit (rest.drop chunk) (written + chunk) (lba + sectorsForBytes chunk) := by
  -- the saturating product never decides the minimum, since a chunk is at most 4 MiB
  have chunkEq : min (min rest.length (satMul (limit - lba) SECTOR_SIZE))
      (MODEL_IO_SECTORS * SECTOR_SIZE) = min (min rest.length ((limit - lba) * 512)) 4194304 := by
    simp only [satMul, SECTOR_SIZE, MODEL_IO_SECTORS, WORD]
    omega
  rw [appendChunks]
  simp only [content, room, if_false]
  rw [chunkEq]
  generalize chunkIs : min (min rest.length ((limit - lba) * 512)) 4194304 = chunk
  have chunkPos : chunk ≠ 0 := by omega
  have some : sectorsForBytes chunk ≠ 0 := (sectorsForBytes_pos chunk (by omega)).ne'
  have shape : chunk = rest.length ∨ chunk ≤ rest.length ∧ chunk % SECTOR_SIZE = 0 := by
    simp only [SECTOR_SIZE]
    omega
  refine ⟨chunk, by omega, ?_, ?_, ?_⟩
  · rw [sectorsForBytes_eq]
    omega
  · simp only [sectorsForBytes_eq, SECTOR_SIZE] at shape ⊢
    omega
  · simp only [chunkPos, dite_false]
    rw [appendChunk_eq rest chunk lba (by simp only [SECTOR_SIZE, MODEL_IO_SECTORS]; omega) shape]
    simp only [bind_assoc, pure_bind, some, if_false]

theorem dataWrites_take {limit lba chunk : Nat} {rest : List UInt8} (inside : chunk ≤ rest.length)
    (aligned : chunk = sectorsForBytes chunk * SECTOR_SIZE) (fits : sectorsForBytes chunk ≤ limit - lba) :
    (dataWrites lba rest).take (limit - lba) =
      place lba ((range (sectorsForBytes chunk)).map (sectorAt rest)) ++
        (dataWrites (lba + sectorsForBytes chunk) (rest.drop chunk)).take
          (limit - (lba + sectorsForBytes chunk)) := by
  have split := dataWrites_split lba rest (sectorsForBytes chunk) (by omega)
  rw [← aligned] at split
  have first : (place lba ((range (sectorsForBytes chunk)).map (sectorAt rest))).take (limit - lba) =
      place lba ((range (sectorsForBytes chunk)).map (sectorAt rest)) := by
    apply take_of_length_le
    simpa using fits
  rw [split, take_append, first, place_length, length_map, length_range, Nat.sub_sub]

theorem appendChunks_eq (limit : Nat) (rest : List UInt8) (written lba : Nat) (inside : lba ≤ limit) :
    appendChunks limit rest written lba =
      writeAll ((dataWrites lba rest).take (limit - lba)) >>= fun _ =>
        if lba + sectorsForBytes rest.length ≤ limit then
          pure (written + rest.length, lba + sectorsForBytes rest.length)
        else fail := by
  induction size : rest.length using Nat.strong_induction_on generalizing rest written lba with
  | _ total ih =>
  subst size
  by_cases nothing : rest.length = 0
  · have same : rest = [] := length_eq_zero_iff.mp nothing
    subst same
    simp [appendChunks_nil, dataWrites, place, writeAll, sectorsForBytes_eq, inside]
  have sectorsPos := sectorsForBytes_pos rest.length (by omega)
  by_cases full : limit - lba = 0
  · have beyond : ¬lba + sectorsForBytes rest.length ≤ limit := by omega
    rw [appendChunks]
    simp [nothing, full, beyond, writeAll]
  obtain ⟨chunk, positive, fits, last | ⟨shorter, aligned⟩, step⟩ :=
    appendChunks_step limit rest written lba nothing full
  · subst last
    have room : lba + sectorsForBytes rest.length ≤ limit := by omega
    rw [step, drop_length, take_of_length_le (by simpa using fits)]
    simp only [appendChunks_nil, room, if_true, dataWrites]
  · -- the chunk is a whole number of sectors, and the loop goes on behind it
    have later : (rest.drop chunk).length < rest.length := by
      rw [length_drop]
      omega
    have goes := ih _ later (rest.drop chunk) (written + chunk) (lba + sectorsForBytes chunk) (by omega) rfl
    have bytes : chunk + (rest.drop chunk).length = rest.length := by
      rw [length_drop]
      omega
    have sectors : sectorsForBytes chunk + sectorsForBytes (rest.drop chunk).length =
        sectorsForBytes rest.length := by
      simp only [sectorsForBytes_eq, SECTOR_SIZE, length_drop] at aligned ⊢
      omega
    rw [step, goes, dataWrites_take shorter.le aligned fits, writeAll_append]
    simp only [bind_assoc, Nat.add_assoc, sectors, bytes]

theorem sectorAt_nil (index : Nat) : sectorAt [] index = zeros := rfl

theorem eraseChunks_eq (limit lba : Nat) :
    eraseChunks limit lba = writeAll (place lba (replicate (limit - lba) zeros)) := by
  induction size : limit - lba using Nat.strong_induction_on generalizing lba with
  | _ left ih =>
  subst size
  rw [eraseChunks]
  by_cases inside : lba < limit
  · have chunkPos : 0 < min (limit - lba) MEMORY_DB_ERASE_CHUNK_SECTORS := by
      simp only [MEMORY_DB_ERASE_CHUNK_SECTORS]
      omega
    have chunkLe : min (limit - lba) MEMORY_DB_ERASE_CHUNK_SECTORS ≤ limit - lba := Nat.min_le_left _ _
    have chunkSmall : min (limit - lba) MEMORY_DB_ERASE_CHUNK_SECTORS < 2 ^ 16 :=
      lt_of_le_of_lt (Nat.min_le_right _ _) (by decide)
    generalize min (limit - lba) MEMORY_DB_ERASE_CHUNK_SECTORS = chunk at chunkPos chunkLe chunkSmall ⊢
    have goes := ih (limit - (lba + chunk)) (by omega) (lba + chunk) rfl
    have sum : limit - lba = chunk + (limit - (lba + chunk)) := by omega
    have zeroed : (range chunk).map (sectorAt []) = replicate chunk zeros := by
      rw [show sectorAt [] = fun _ => zeros from funext sectorAt_nil]
      simp
    have u16 : tryFrom 16 chunk = .ok chunk := if_pos chunkSmall
    rw [sum, replicate_add, place_append, writeAll_append]
    simp [inside, goes, u16, writeSectors, zeroed]
  · have none : limit - lba = 0 := by omega
    simp [inside, none, place, writeAll]

end HermitLocal.Ahci.Plan

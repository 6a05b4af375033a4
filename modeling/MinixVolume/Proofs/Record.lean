import MinixVolume.Proofs.Image
import MinixVolume.Proofs.Scene

namespace MinixVolume

namespace Bytes

theorem word16_ofWord16 (w : UInt16) : word16 w.toUInt8 (w >>> 8).toUInt8 = w := by
  apply UInt16.toBitVec_inj.mp
  apply BitVec.eq_of_getLsbD_eq
  intro i hi
  simp only [word16, UInt16.toBitVec_or, UInt16.toBitVec_shiftLeft, UInt8.toBitVec_toUInt16,
    UInt16.toBitVec_toUInt8, UInt16.toBitVec_shiftRight, UInt16.toBitVec_ofNat,
    BitVec.getLsbD_or, BitVec.getLsbD_setWidth, BitVec.shiftLeft_eq', BitVec.getLsbD_shiftLeft]
  grind

theorem word32_ofWord32 (w : UInt32) :
    word32 w.toUInt8 (w >>> 8).toUInt8 (w >>> 16).toUInt8 (w >>> 24).toUInt8 = w := by
  apply UInt32.toBitVec_inj.mp
  apply BitVec.eq_of_getLsbD_eq
  intro i hi
  simp only [word32, UInt32.toBitVec_or, UInt32.toBitVec_shiftLeft, UInt8.toBitVec_toUInt32,
    UInt32.toBitVec_toUInt8, UInt32.toBitVec_shiftRight, UInt32.toBitVec_ofNat,
    BitVec.getLsbD_or, BitVec.getLsbD_setWidth, BitVec.shiftLeft_eq', BitVec.getLsbD_shiftLeft,
    BitVec.ushiftRight_eq', BitVec.getLsbD_ushiftRight]
  have byte : i / 8 = 0 ∨ i / 8 = 1 ∨ i / 8 = 2 ∨ i / 8 = 3 := by omega
  rcases byte with h | h | h | h
  · grind
  · grind
  · grind
  · grind

theorem word16At_flatMap {l : List UInt16} {i : Nat} (h : i < l.length) :
    word16At (l.flatMap ofWord16) (2 * i) = l[i] := by
  induction l generalizing i with
  | nil => cases h
  | cons w l ih =>
      rw [List.flatMap_cons]
      cases i with
      | zero => exact word16_ofWord16 w
      | succ i => exact ih (Nat.lt_of_succ_lt_succ h)

end Bytes

namespace Superblock

theorem ofRecord_encode (sb : Superblock) : ofRecord sb.encode = sb := by
  obtain ⟨inodes, zones, inodeMapBlocks, zoneMapBlocks, firstDataZone, logZoneSize, maxSize,
    magic, state⟩ := sb
  simp only [ofRecord, encode, Bytes.ofWord16, Bytes.ofWord32, Bytes.word16At, Bytes.word32At,
    Bytes.byteAt, List.cons_append, List.nil_append, List.getD_cons_succ, List.getD_cons_zero,
    Bytes.word16_ofWord16, Bytes.word32_ofWord32]

variable {δ : Type} [Disk δ] [ImageDisk δ] {m : Mount δ} {steady : Prop} {s : Scene}

theorem ends_load (h : m.Shows steady s) (inside : 2048 ≤ s.image.size) :
    Mount.Ends load m (fun sb m' => sb = Image.header s.image ∧ m'.Shows steady s)
      (fun t m' => Mishap steady 0 t ∧ m'.Shows steady s) := by
  have place : (Superblock.block * blockSize).toNat = 1024 := rfl
  have length : blockSize.toNat = 1024 := rfl
  have read := Mount.ends_readAt h (Superblock.block * blockSize) blockSize
    (by rw [place, length]; exact inside)
  refine Mount.Ends.next (Mount.ends_during (Mount.ends_small read (by decide))) ?_
  rintro b m' ⟨rfl, h'⟩
  rw [place, length]
  have size := Buffer.size_window (show 1024 + 1024 ≤ s.image.size from inside)
  have front : (s.image.window 1024 1024).extract 0 recordSize
      = s.image.window 1024 recordSize := by
    have inner : (s.image.window 1024 1024).window 0 recordSize
        = s.image.window (1024 + 0) recordSize := Buffer.window_window (by decide)
    rwa [Buffer.window, Nat.zero_add, Nat.add_zero] at inner
  have data : decode (s.image.window 1024 1024) = .ok (Image.header s.image) := by
    rw [decode, if_neg (by rw [size]; decide), front, Image.header]
  rw [data]
  exact Mount.Ends.of_exec (Mount.exec_liftExcept _ m') ⟨rfl, h'⟩

end Superblock

namespace Inode

theorem ofRecord_encode (ip : Inode) : ofRecord ip.encode = ip := by
  obtain ⟨mode, owner, size, modified, group, links, zone⟩ := ip
  have places : (Vector.ofFn fun i : Fin 9 =>
      Bytes.word16At (zone.toList.flatMap Bytes.ofWord16) (2 * i.val)) = zone := by
    ext i hi
    rw [Vector.getElem_ofFn, Bytes.word16At_flatMap (by rw [Vector.length_toList]; exact hi),
      Vector.getElem_toList]
  simp only [ofRecord, encode, Bytes.ofWord16, Bytes.ofWord32, Bytes.word16At, Bytes.word32At,
    Bytes.byteAt, List.cons_append, List.nil_append, List.getD_cons_succ, List.getD_cons_zero,
    Bytes.word16_ofWord16, Bytes.word32_ofWord32]
  congr 1

theorem zones_oneZone {ip : Inode} {z : UInt16} (one : ip.zone = oneZone z) (h : z ≠ 0) :
    ip.zones = [z.toUInt64] := by
  have list : (oneZone z).toList = [z, 0, 0, 0, 0, 0, 0, 0, 0] := rfl
  rw [zones, one, list]
  simp [h]

variable {sb : Superblock} {size : Nat}

theorem offset_of_inside {n : UInt64} (pos : 1 ≤ n.toNat)
    (inside : sb.recordPlace n.toNat + 32 ≤ size) (limit : size < sizeLimit) :
    offset sb.inodeTableStart n = .ok (UInt64.ofNat (sb.recordPlace n.toNat)) ∧
      (UInt64.ofNat (sb.recordPlace n.toNat)).toNat = sb.recordPlace n.toNat := by
  have nonzero : n ≠ 0 := by
    rintro rfl
    exact absurd pos (by decide)
  have : sizeLimit < UInt64.size := by decide
  have place : (UInt64.ofNat (sb.recordPlace n.toNat)).toNat = sb.recordPlace n.toNat :=
    UInt64.toNat_ofNat_of_lt' (by omega)
  refine ⟨?_, place⟩
  rw [offset, if_neg nonzero]
  congr 1
  apply UInt64.toNat.inj
  rw [place, UInt64.toNat_add, UInt64.toNat_mul, UInt64.toNat_sub_of_le _ _
    (by rw [UInt64.le_iff_toNat_le]; exact pos), Superblock.toNat_inodeTableStart]
  rw [Superblock.recordPlace] at *
  simp only [UInt64.reduceToNat, UInt64.size] at *
  omega

theorem record_inside (hf : sb.Fits size) {n : Nat} (hn : sb.IsInode n) :
    sb.recordPlace n + 32 ≤ size := by
  have table := hf.tableEnd_le_size
  have := hn.1
  have := hn.2
  rw [Superblock.recordPlace]
  omega

theorem offset_eq (hf : sb.Fits size) {n : UInt64} (hn : sb.IsInode n.toNat) :
    ∃ off, offset sb.inodeTableStart n = .ok off ∧ off.toNat = sb.recordPlace n.toNat ∧
      sb.recordPlace n.toNat + 32 ≤ size := by
  have inside := record_inside hf hn
  obtain ⟨offset, place⟩ := offset_of_inside hn.1 inside hf.size_lt
  exact ⟨_, offset, place, inside⟩

variable {δ : Type} [Disk δ] [ImageDisk δ] {m : Mount δ} {steady : Prop} {s : Scene}

theorem ends_load (h : m.Shows steady s) (hf : sb.Fits s.image.size) {n : UInt64}
    (hn : sb.IsInode n.toNat) :
    Mount.Ends (load sb.inodeTableStart n) m
      (fun ip m' => ip = Image.inode sb s.image n.toNat ∧ m'.Shows steady s)
      (fun t m' => Mishap steady 0 t ∧ m'.Shows steady s) := by
  obtain ⟨off, offset, place, fits⟩ := offset_eq hf hn
  have length : (32 : UInt64).toNat = 32 := rfl
  have read := Mount.ends_readAt h off 32 (by rw [place, length]; exact fits)
  rw [load, offset]
  apply Mount.Ends.ok_bind
  refine Mount.Ends.next (Mount.ends_during (Mount.ends_small read (by decide))) ?_
  rintro b m₁ ⟨rfl, h₁⟩
  have data : decode (s.image.window (sb.recordPlace n.toNat) 32)
      = .ok (Image.inode sb s.image n.toNat) := by
    rw [decode, if_neg (not_not_intro (by rw [Buffer.size_window fits, recordSize]))]
    rfl
  rw [place, length, data]
  refine Mount.Ends.next (Mount.ends_trace h₁ _) ?_
  intro _ m₂ h₂
  exact Mount.Ends.of_exec (Mount.exec_liftExcept _ m₂) ⟨rfl, h₂⟩

theorem ends_store_told (h : m.Shows steady s) {n : UInt64} (pos : 1 ≤ n.toNat)
    (inside : sb.recordPlace n.toNat + 32 ≤ s.image.size) (ip : Inode) :
    Mount.Ends (store sb.inodeTableStart n ip) m
      (fun _ m' => m'.Shows steady { s with image := (Update.inode n.toNat ip).apply sb s.image })
      (fun t m' => ∃ e : Error, t = .error (.during .write (.inode n) e) ∧ e.Calm ∧ ¬ steady ∧
        (Disk.write (UInt64.ofNat (sb.recordPlace n.toNat)) (Buffer.ofBytes ip.encode)).run.run
          m.disk = (.error (.error e), m'.disk) ∧ m'.Shows steady s) := by
  obtain ⟨offset, place⟩ := offset_of_inside pos inside h.size_lt
  have size : (Buffer.ofBytes ip.encode).size = 32 := by
    rw [Buffer.size_ofBytes, length_encode]
  have write := Mount.ends_writeAt_told h (UInt64.ofNat (sb.recordPlace n.toNat))
    (Buffer.ofBytes ip.encode) (by rw [place, size]; exact inside)
  rw [place] at write
  rw [store, offset]
  apply Mount.Ends.ok_bind
  refine Mount.Ends.next (Mount.Ends.wrapping write ?_ ?_) fun _ m₁ h₁ => Mount.ends_trace h₁ _
  · rintro e m' ⟨_, ⟨⟩, told⟩
    exact ⟨e, rfl, told⟩
  · rintro _ _ ⟨_, ⟨⟩, -⟩

theorem ends_store (h : m.Shows steady s) (hf : sb.Fits s.image.size) {n : UInt64}
    (hn : sb.IsInode n.toNat) (ip : Inode) :
    Mount.Ends (store sb.inodeTableStart n ip) m
      (fun _ m' => m'.Shows steady { s with image := (Update.inode n.toNat ip).apply sb s.image })
      (fun t m' => Mishap steady 0 t ∧ m'.Shows steady s) := by
  refine (ends_store_told h hn.1 (record_inside hf hn) ip).mono (fun _ _ h' => h') ?_
  rintro _ m' ⟨e, rfl, calm, failing, -, h'⟩
  exact ⟨.fault _ calm failing, h'⟩

end Inode

end MinixVolume

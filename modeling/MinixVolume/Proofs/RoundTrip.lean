import MinixVolume.Proofs.Addresses
import MinixVolume.Proofs.Agreement

namespace MinixVolume

namespace Bytes

def slice (b : Bytes) (i n : Nat) : Bytes :=
  (b.drop i).take n

theorem slice_append (b : Bytes) {i j m n : Nat} (h : j = i + m) :
    b.slice i m ++ b.slice j n = b.slice i (m + n) := by
  simp [slice, h, List.take_add]

theorem slice_one {b : Bytes} {i : Nat} (h : i < b.length) : b.slice i 1 = [b.byteAt i] := by
  rw [slice, List.drop_eq_getElem_cons h, byteAt, List.getD_eq_getElem?_getD,
    List.getElem?_eq_getElem h]
  rfl

theorem slice_two {b : Bytes} {i : Nat} (h : i + 2 ≤ b.length) :
    b.slice i 2 = [b.byteAt i, b.byteAt (i + 1)] := by
  rw [← slice_append b rfl (m := 1) (n := 1), slice_one (by omega), slice_one (by omega)]
  rfl

theorem getLsbD_word16 (b₀ b₁ : UInt8) (i : Nat) :
    (word16 b₀ b₁).toBitVec.getLsbD i
      = if i < 8 then b₀.toBitVec.getLsbD i else b₁.toBitVec.getLsbD (i - 8) := by
  simp only [word16, UInt16.toBitVec_or, UInt16.toBitVec_shiftLeft, UInt8.toBitVec_toUInt16,
    UInt16.toBitVec_ofNat, BitVec.getLsbD_or, BitVec.getLsbD_setWidth, BitVec.shiftLeft_eq',
    BitVec.getLsbD_shiftLeft]
  grind

theorem getLsbD_word32 (b₀ b₁ b₂ b₃ : UInt8) (i : Nat) :
    (word32 b₀ b₁ b₂ b₃).toBitVec.getLsbD i
      = if i < 8 then b₀.toBitVec.getLsbD i
        else if i < 16 then b₁.toBitVec.getLsbD (i - 8)
        else if i < 24 then b₂.toBitVec.getLsbD (i - 16)
        else b₃.toBitVec.getLsbD (i - 24) := by
  simp only [word32, UInt32.toBitVec_or, UInt32.toBitVec_shiftLeft, UInt8.toBitVec_toUInt32,
    UInt32.toBitVec_ofNat, BitVec.getLsbD_or, BitVec.getLsbD_setWidth, BitVec.shiftLeft_eq',
    BitVec.getLsbD_shiftLeft]
  grind

theorem toUInt8_eq {x y : UInt8}
    (h : ∀ i, i < 8 → x.toBitVec.getLsbD i = y.toBitVec.getLsbD i) : x = y :=
  UInt8.toBitVec_inj.mp (BitVec.eq_of_getLsbD_eq h)

theorem ofWord16_word16 (b₀ b₁ : UInt8) : ofWord16 (word16 b₀ b₁) = [b₀, b₁] := by
  have bits := getLsbD_word16 b₀ b₁
  have low : (word16 b₀ b₁).toUInt8 = b₀ := toUInt8_eq fun i hi => by
    simp [bits, hi]
  have high : (word16 b₀ b₁ >>> 8).toUInt8 = b₁ := toUInt8_eq fun i hi => by
    simp [bits, hi]
  rw [ofWord16, low, high]

theorem ofWord32_word32 (b₀ b₁ b₂ b₃ : UInt8) :
    ofWord32 (word32 b₀ b₁ b₂ b₃) = [b₀, b₁, b₂, b₃] := by
  have bits := getLsbD_word32 b₀ b₁ b₂ b₃
  have first : (word32 b₀ b₁ b₂ b₃).toUInt8 = b₀ := toUInt8_eq fun i hi => by
    simp [bits, hi]
  have second : (word32 b₀ b₁ b₂ b₃ >>> 8).toUInt8 = b₁ := toUInt8_eq fun i hi => by
    simp [bits, hi, show ¬ 8 + i < 8 by omega, show 8 + i < 16 by omega]
  have third : (word32 b₀ b₁ b₂ b₃ >>> 16).toUInt8 = b₂ := toUInt8_eq fun i hi => by
    simp [bits, hi, show ¬ 16 + i < 8 by omega, show ¬ 16 + i < 16 by omega,
      show 16 + i < 24 by omega]
  have fourth : (word32 b₀ b₁ b₂ b₃ >>> 24).toUInt8 = b₃ := toUInt8_eq fun i hi => by
    simp [bits, hi, show ¬ 24 + i < 8 by omega, show ¬ 24 + i < 16 by omega,
      show ¬ 24 + i < 24 by omega]
  rw [ofWord32, first, second, third, fourth]

theorem ofWord16_word16At {b : Bytes} {i : Nat} (h : i + 2 ≤ b.length) :
    ofWord16 (b.word16At i) = b.slice i 2 := by
  rw [word16At, ofWord16_word16, slice_two h]

theorem ofWord32_word32At {b : Bytes} {i : Nat} (h : i + 4 ≤ b.length) :
    ofWord32 (b.word32At i) = b.slice i 4 := by
  rw [word32At, ofWord32_word32, ← slice_append b rfl (m := 2) (n := 2), slice_two (by omega),
    slice_two (by omega)]
  rfl

theorem flatMap_word16At {b : Bytes} {i n : Nat} (h : i + 2 * n ≤ b.length) :
    (List.ofFn fun k : Fin n => b.word16At (i + 2 * k.val)).flatMap ofWord16
      = b.slice i (2 * n) := by
  induction n with
  | zero => simp [slice]
  | succ n ih =>
      have last := ofWord16_word16At (b := b) (i := i + 2 * n) (by omega)
      rw [List.ofFn_succ_last, List.flatMap_append, List.flatMap_singleton]
      simp only [Fin.val_last, Fin.val_castSucc]
      rw [ih (by omega), last, slice_append b rfl]
      rfl

end Bytes

namespace Buffer

theorem ofBytes_toBytes (b : Buffer) : ofBytes (toBytes b) = b := rfl

theorem window_append (b tail : Buffer) : (b ++ tail).window 0 b.size = b := by
  rw [window, Nat.zero_add]
  exact ByteArray.extract_append_eq_left rfl

theorem agreeOn_splice {b d : Buffer} {off : Nat} (h : off + d.size ≤ b.size) :
    AgreeOn (fun k => ¬ Run off d.size k) b (b.splice off d) := by
  refine ⟨(size_splice h).symm, fun k outside => ?_⟩
  exact ((getElem?_splice h k).trans (if_neg outside)).symm

end Buffer

namespace Inode

theorem encode_ofRecord {b : Bytes} (h : b.length = 32) : (ofRecord b).encode = b := by
  have bytes : [b.byteAt 12, b.byteAt 13] = b.slice 12 2 := (Bytes.slice_two (by omega)).symm
  have places := Bytes.flatMap_word16At (b := b) (i := 14) (n := 9) (by omega)
  -- every field is a slice of the record, and each slice starts where the one before it ends
  simp (disch := omega) only [encode, ofRecord, Vector.toList_ofFn, Bytes.ofWord16_word16At,
    Bytes.ofWord32_word32At, bytes, places, Bytes.slice_append]
  exact List.take_of_length_le (Nat.le_of_eq h)

theorem decode_eq_ok {b : Buffer} {ip : Inode} :
    decode b = .ok ip ↔ b.size = 32 ∧ ip = ofRecord (Buffer.toBytes b) := by
  rw [decode]
  by_cases size : b.size = 32
  · simp [size, recordSize, eq_comm]
  · simp [size, recordSize]

theorem decode_encode (ip : Inode) : decode (Buffer.ofBytes ip.encode) = .ok ip := by
  refine decode_eq_ok.mpr ⟨?_, ?_⟩
  · exact ip.size_encode
  · rw [Buffer.toBytes_ofBytes, ofRecord_encode]

end Inode

namespace Superblock

theorem encode_ofRecord {b : Bytes} (h : b.length = 20) : (ofRecord b).encode = b := by
  simp (disch := omega) only [encode, ofRecord, Bytes.ofWord16_word16At, Bytes.ofWord32_word32At,
    Bytes.slice_append]
  exact List.take_of_length_le (Nat.le_of_eq h)

theorem decode_eq_ok {b : Buffer} {sb : Superblock} :
    decode b = .ok sb ↔ 20 ≤ b.size ∧ sb = ofRecord (Buffer.toBytes (b.window 0 20)) := by
  rw [decode]
  by_cases short : b.size < 20
  · simp [short, recordSize, Nat.not_le_of_lt short]
  · simp [short, recordSize, Nat.le_of_not_lt short, eq_comm, Buffer.window]

theorem size_encode (sb : Superblock) : (Buffer.ofBytes sb.encode).size = 20 := by
  rw [Buffer.size_ofBytes, length_encode, recordSize]

theorem decode_encode_append (sb : Superblock) (tail : Buffer) :
    decode (Buffer.ofBytes sb.encode ++ tail) = .ok sb := by
  refine decode_eq_ok.mpr ⟨?_, ?_⟩
  · rw [ByteArray.size_append, size_encode]
    omega
  · have front := Buffer.window_append (Buffer.ofBytes sb.encode) tail
    rw [size_encode] at front
    rw [front, Buffer.toBytes_ofBytes, ofRecord_encode]

end Superblock

theorem Mount.ends_within {δ α : Type} {x : MountM δ α} {m : Mount δ} {Q : α → Mount δ → Prop}
    {P : Mount δ → Prop} {size off n : Nat}
    (h : Ends x m Q fun t m' => Refused size off n t ∧ P m') (inside : off + n ≤ size)
    (small : n ≤ Word.largestBuffer.toNat) : Ends x m Q fun _ _ => False := by
  refine h.mono (fun _ _ q => q) ?_
  rintro t m' ⟨refused, -⟩
  exact absurd inside (Nat.not_le_of_lt (refused.of_small small).1)

section Disks

variable {δ : Type} [Disk δ] [ImageDisk δ] [ExactDisk δ] {m : Mount δ}
  (sound : ImageDisk.Sound m.disk)

namespace Inode

variable {table number : UInt64}

theorem place_disjoint {other : UInt64} (pos : 1 ≤ number.toNat) (pos' : 1 ≤ other.toNat)
    (ne : other ≠ number) :
    place table other + 32 ≤ place table number ∨ place table number + 32 ≤ place table other := by
  have apart : other.toNat ≠ number.toNat := fun same => ne (UInt64.toNat.inj same)
  rw [place, place]
  omega

theorem offset_place {size : Nat} (pos : 1 ≤ number.toNat) (inside : place table number + 32 ≤ size)
    (limit : size < sizeLimit) :
    ∃ off, offset table number = .ok off ∧ off.toNat = place table number := by
  obtain ⟨off, offset, wrapped⟩ := offset_wrapped table pos
  have word : sizeLimit < UInt64.size := by decide
  exact ⟨off, offset, wrapped.trans (Nat.mod_eq_of_lt (by omega))⟩

include sound

theorem exec_load_place (pos : 1 ≤ number.toNat)
    (inside : place table number + 32 ≤ (ImageDisk.image m.disk).size) :
    (Mount.exec (load table number) m).1 = .ok (ofRecord
      (Buffer.toBytes ((ImageDisk.image m.disk).window (place table number) 32))) := by
  obtain ⟨off, offset, there⟩ := offset_place pos inside (ImageDisk.size_lt sound)
  rw [← there] at inside ⊢
  have load := ends_load_at offset (Mount.shows_scene sound (ExactDisk.reliable sound))
  obtain ⟨_, m', run, -, rfl, -⟩ := (Mount.ends_within load inside (by decide)).exec_ok
  rw [run]
  rfl

theorem exec_store_place (pos : 1 ≤ number.toNat)
    (inside : place table number + 32 ≤ (ImageDisk.image m.disk).size) (ip : Inode) :
    ∃ m', Mount.exec (store table number ip) m = (.ok (), m') ∧ ImageDisk.Sound m'.disk ∧
      ImageDisk.image m'.disk
        = (ImageDisk.image m.disk).splice (place table number) (Buffer.ofBytes ip.encode) := by
  obtain ⟨off, offset, there⟩ := offset_place pos inside (ImageDisk.size_lt sound)
  rw [← there] at inside ⊢
  have store := ends_store_at offset (Mount.shows_scene sound (ExactDisk.reliable sound)) ip
  obtain ⟨_, m', run, -, h'⟩ := (Mount.ends_within store inside (by decide)).exec_ok
  exact ⟨m', run, h'.sound, h'.image⟩

theorem load_store (pos : 1 ≤ number.toNat)
    (inside : place table number + 32 ≤ (ImageDisk.image m.disk).size) (ip : Inode) :
    ∃ m', Mount.exec (store table number ip) m = (.ok (), m') ∧
      (Mount.exec (load table number) m').1 = .ok ip ∧
      (∀ other : UInt64, 1 ≤ other.toNat → other ≠ number →
        place table other + 32 ≤ (ImageDisk.image m.disk).size →
        ∃ old, (Mount.exec (load table other) m).1 = .ok old ∧
          (Mount.exec (load table other) m').1 = .ok old) ∧
      Buffer.AgreeOn (fun k => ¬ Run (place table number) 32 k) (ImageDisk.image m.disk)
        (ImageDisk.image m'.disk) := by
  obtain ⟨m', run, sound', image⟩ := exec_store_place sound pos inside ip
  have size := ip.size_encode
  rw [← size] at inside
  have kept := Buffer.size_splice inside
  have self := Buffer.window_splice_self inside
  have outside := Buffer.agreeOn_splice inside
  rw [size] at self outside inside
  refine ⟨m', run, ?_, ?_, image ▸ outside⟩
  · rw [exec_load_place sound' pos (by rw [image, kept]; exact inside), image, self,
      Buffer.toBytes_ofBytes, ofRecord_encode]
  · intro other pos' ne inside'
    have disjoint : place table other + 32 ≤ place table number ∨
        place table number + 32 ≤ place table other := place_disjoint pos pos' ne
    refine ⟨_, exec_load_place sound pos' inside', ?_⟩
    rw [exec_load_place sound' pos' (by rw [image, kept]; exact inside'), image,
      Buffer.window_splice_of_disjoint (by rw [size]; exact inside) (by rw [size]; exact disjoint)]

end Inode

namespace Superblock

include sound

omit [ExactDisk δ] in
theorem exec_load_header (inside : 2048 ≤ (ImageDisk.image m.disk).size)
    (reliable : ImageDisk.Reliable m.disk) :
    (Mount.exec load m).1 = .ok (Image.header (ImageDisk.image m.disk)) := by
  have load := ends_load (Mount.shows_scene sound reliable) inside
  obtain ⟨_, m', run, rfl, -⟩ := (Mount.ends_sure load (Nat.zero_le _)).exec_ok
  rw [run]
  rfl

omit [ExactDisk δ] in
theorem exec_store_header (inside : 2048 ≤ (ImageDisk.image m.disk).size)
    (reliable : ImageDisk.Reliable m.disk) (sb : Superblock) :
    ∃ m', Mount.exec sb.store m = (.ok (), m') ∧ ImageDisk.Sound m'.disk ∧
      ImageDisk.Reliable m'.disk ∧
      ImageDisk.image m'.disk
        = (ImageDisk.image m.disk).splice 1024 (Buffer.ofBytes sb.encode) := by
  have place : (Superblock.block * blockSize).toNat = 1024 := rfl
  have write := Mount.ends_writeAt (Mount.shows_scene sound reliable)
    (Superblock.block * blockSize) (Buffer.ofBytes sb.encode)
    (by rw [place, size_encode]; exact Nat.le_trans (by decide) inside)
  rw [place] at write
  obtain ⟨_, m', run, h'⟩ := (Mount.ends_sure (Mount.ends_during write) (Nat.zero_le _)).exec_ok
  exact ⟨m', run, h'.sound, h'.reliable trivial, h'.image⟩

theorem load_store (inside : 2048 ≤ (ImageDisk.image m.disk).size) (sb : Superblock) :
    ∃ m', Mount.exec sb.store m = (.ok (), m') ∧ (Mount.exec load m').1 = .ok sb ∧
      Buffer.AgreeOn (fun k => ¬ Run 1024 20 k) (ImageDisk.image m.disk)
        (ImageDisk.image m'.disk) := by
  obtain ⟨m', run, sound', reliable', image⟩ :=
    exec_store_header sound inside (ExactDisk.reliable sound) sb
  have fits : 1024 + (Buffer.ofBytes sb.encode).size ≤ (ImageDisk.image m.disk).size := by
    rw [size_encode]
    omega
  have kept := Buffer.size_splice fits
  have self := Buffer.window_splice_self fits
  have outside := Buffer.agreeOn_splice fits
  rw [size_encode] at self outside
  refine ⟨m', run, ?_, image ▸ outside⟩
  rw [exec_load_header sound' (by rw [image, kept]; exact inside) reliable', image, Image.header,
    recordSize, self, Buffer.toBytes_ofBytes, ofRecord_encode]

end Superblock

include sound in
theorem records_round_trip :
    (∀ b, (∃ ip, Inode.decode b = .ok ip) ↔ b.size = 32) ∧
    (∀ b ip, Inode.decode b = .ok ip → Buffer.ofBytes ip.encode = b) ∧
    (∀ ip, Inode.decode (Buffer.ofBytes ip.encode) = .ok ip) ∧
    (∀ b, (∃ sb, Superblock.decode b = .ok sb) ↔ 20 ≤ b.size) ∧
    (∀ b sb, Superblock.decode b = .ok sb → Buffer.ofBytes sb.encode = b.window 0 20) ∧
    (∀ sb tail, Superblock.decode (Buffer.ofBytes sb.encode ++ tail) = .ok sb) ∧
    (∀ (table number : UInt64) (ip : Inode), 1 ≤ number.toNat →
      Inode.place table number + 32 ≤ (ImageDisk.image m.disk).size →
      ∃ m', Mount.exec (Inode.store table number ip) m = (.ok (), m') ∧
        (Mount.exec (Inode.load table number) m').1 = .ok ip ∧
        (∀ other : UInt64, 1 ≤ other.toNat → other ≠ number →
          Inode.place table other + 32 ≤ (ImageDisk.image m.disk).size →
          ∃ old, (Mount.exec (Inode.load table other) m).1 = .ok old ∧
            (Mount.exec (Inode.load table other) m').1 = .ok old) ∧
        Buffer.AgreeOn (fun k => ¬ Run (Inode.place table number) 32 k) (ImageDisk.image m.disk)
          (ImageDisk.image m'.disk)) ∧
    (∀ sb : Superblock, 2048 ≤ (ImageDisk.image m.disk).size →
      ∃ m', Mount.exec sb.store m = (.ok (), m') ∧ (Mount.exec Superblock.load m').1 = .ok sb ∧
        Buffer.AgreeOn (fun k => ¬ Run 1024 20 k) (ImageDisk.image m.disk)
          (ImageDisk.image m'.disk)) := by
  refine ⟨?_, ?_, Inode.decode_encode, ?_, ?_, Superblock.decode_encode_append, ?_, ?_⟩
  · intro b
    simp [Inode.decode_eq_ok]
  · intro b ip read
    obtain ⟨size, rfl⟩ := Inode.decode_eq_ok.mp read
    rw [Inode.encode_ofRecord (by rw [Buffer.length_toBytes, size]), Buffer.ofBytes_toBytes]
  · intro b
    simp [Superblock.decode_eq_ok]
  · intro b sb read
    obtain ⟨size, rfl⟩ := Superblock.decode_eq_ok.mp read
    have front : (b.window 0 20).size = 20 := Buffer.size_window (by omega)
    rw [Superblock.encode_ofRecord (by rw [Buffer.length_toBytes, front]), Buffer.ofBytes_toBytes]
  · exact fun table number ip pos inside => Inode.load_store sound pos inside ip
  · exact fun sb inside => Superblock.load_store sound inside sb

theorem records_round_trip_last :
    ∃ (m' : Mount MemoryDisk) (old : Inode),
      Mount.exec (Inode.store 4096 128 { links := 7 })
        (⟨⟨Buffer.zeros 8192⟩, {}, {}, #[]⟩ : Mount MemoryDisk) = (.ok (), m') ∧
      (Mount.exec (Inode.load 4096 128) m').1 = .ok { links := 7 } ∧
      (Mount.exec (Inode.load 4096 127) m').1 = .ok old ∧
      Buffer.AgreeOn (fun k => ¬ Run 8160 32 k) (Buffer.zeros 8192) m'.disk.image := by
  have size := Buffer.size_zeros 8192
  generalize Buffer.zeros 8192 = img at size
  have sound := MemoryDisk.sound_of_size size (by decide)
  obtain ⟨-, -, -, -, -, -, stored, -⟩ := records_round_trip
    (m := (⟨⟨img⟩, {}, {}, #[]⟩ : Mount MemoryDisk)) sound
  have inside : 8192 ≤ (ImageDisk.image (MemoryDisk.mk img)).size := Nat.le_of_eq size.symm
  obtain ⟨m', run, read, others, outside⟩ := stored 4096 128 { links := 7 } (by decide) inside
  obtain ⟨old, -, after⟩ := others 127 (by decide) (by decide) (Nat.le_trans (by decide) inside)
  exact ⟨m', old, run, read, after, outside⟩

end Disks

end MinixVolume

import MinixVolume.Format
import MinixVolume.Proofs.Consistency

namespace MinixVolume

namespace FormatOptions

structure Accepted (sb : Superblock) : Prop where
  magic : sb.magic = Superblock.shortNameMagic ∨ sb.magic = Superblock.longNameMagic
  log : sb.logZoneSize = 0
  inodes_pos : 1 ≤ sb.inodes.toNat
  inodeMap : sb.inodeMapBlocks.toNat = (sb.inodes.toNat + 8192) / 8192
  zoneMap : sb.zoneMapBlocks.toNat = (sb.zones.toNat + 8191) / 8192
  first : sb.firstDataZone.toNat
    = 2 + sb.inodeMapBlocks.toNat + sb.zoneMapBlocks.toNat + (sb.inodes.toNat + 31) / 32
  first_lt : sb.firstDataZone.toNat < sb.zones.toNat

theorem toNat_toUInt16 {w : UInt64} (h : w.toNat < 65536) : w.toUInt16.toNat = w.toNat := by
  rw [UInt64.toNat_toUInt16]
  exact Nat.mod_eq_of_lt h

theorem toNat_defaultInodes (blocks : UInt64) :
    (defaultInodes blocks).toNat = min 65535 (32 * ((blocks.toNat / 3 + 31) / 32)) := by
  have lt : blocks.toNat < UInt64.size := blocks.toNat_lt
  rw [UInt64.size] at lt
  have third : (blocks / 3).toNat = blocks.toNat / 3 := UInt64.toNat_div _ _
  have unit : Superblock.inodesPerBlock.toNat = 32 := rfl
  have most : maxInodes.toNat = 65535 := rfl
  have quotient : (Word.quotientUp (blocks / 3) Superblock.inodesPerBlock).toNat
      = (blocks.toNat / 3 + 31) / 32 := by
    rw [Word.toNat_quotientUp (by decide) (by rw [third, unit, UInt64.size]; omega), third, unit,
      Nat.add_sub_assoc (by decide)]
  have product : (Word.quotientUp (blocks / 3) Superblock.inodesPerBlock
      * Superblock.inodesPerBlock).toNat = 32 * ((blocks.toNat / 3 + 31) / 32) := by
    rw [UInt64.toNat_mul, quotient, unit]
    omega
  rw [defaultInodes, Word.smaller, ← product]
  split <;> rename_i order <;> rw [UInt64.lt_iff_toNat_lt] at order <;> omega

theorem completed_inodes_pos (o : FormatOptions) (lower : 3 ≤ o.completed.blocks.toNat) :
    1 ≤ o.completed.inodes.toNat := by
  simp only [completed] at lower ⊢
  by_cases given : o.inodes = 0
  · rw [if_pos given, toNat_defaultInodes]
    omega
  · rw [if_neg given]
    have : o.inodes.toNat ≠ 0 := fun zero => given (UInt64.toNat.inj zero)
    omega

theorem magic_known {width : UInt64} {magic : UInt16} (h : magic? width = some magic) :
    magic = Superblock.shortNameMagic ∨ magic = Superblock.longNameMagic := by
  unfold magic? at h
  split at h
  · cases h
    exact .inl rfl
  · split at h
    · cases h
      exact .inr rfl
    · cases h

def plan (c : FormatOptions) (magic : UInt16) : Superblock where
  inodes := c.inodes.toUInt16
  zones := c.blocks.toUInt16
  inodeMapBlocks := (Word.quotientUp (c.inodes + 1) bitsPerBlock).toUInt16
  zoneMapBlocks := (Word.quotientUp c.blocks bitsPerBlock).toUInt16
  firstDataZone := (2 + Word.quotientUp (c.inodes + 1) bitsPerBlock
    + Word.quotientUp c.blocks bitsPerBlock
    + Word.quotientUp c.inodes Superblock.inodesPerBlock).toUInt16
  logZoneSize := 0
  maxSize := maxFileSize
  magic := magic
  state := 1

theorem layout_eq_ok {o : FormatOptions} {sb : Superblock} (h : o.layout = .ok sb) :
    ∃ magic, magic? o.completed.nameWidth = some magic ∧ o.completed.blocks.toNat < 65536 ∧
      o.completed.inodes.toNat < 65536 ∧
      (2 + Word.quotientUp (o.completed.inodes + 1) bitsPerBlock
        + Word.quotientUp o.completed.blocks bitsPerBlock
        + Word.quotientUp o.completed.inodes Superblock.inodesPerBlock).toNat
        < o.completed.blocks.toNat ∧
      sb = plan o.completed magic := by
  have blocks : maxBlocks.toNat = 65535 := rfl
  have inodes : maxInodes.toNat = 65535 := rfl
  unfold layout at h
  generalize o.completed = c at h
  dsimp only at h
  split at h
  · cases h
  next magic known =>
  split at h
  · cases h
  next few =>
  split at h
  · cases h
  next some =>
  split at h
  · cases h
  next wide =>
  rw [UInt64.lt_iff_toNat_lt] at few some
  rw [UInt64.le_iff_toNat_le] at wide
  cases h
  exact ⟨magic, known, by omega, by omega, by omega, rfl⟩

section Sizes

variable {c : FormatOptions}

theorem toNat_inodeMap (inodes : c.inodes.toNat < 65536) :
    (Word.quotientUp (c.inodes + 1) bitsPerBlock).toNat = (c.inodes.toNat + 8192) / 8192 := by
  have bits : bitsPerBlock.toNat = 8192 := rfl
  have one : (1 : UInt64).toNat = 1 := rfl
  have next : (c.inodes + 1).toNat = c.inodes.toNat + 1 := by
    rw [UInt64.toNat_add, one]
    omega
  rw [Word.toNat_quotientUp (by decide) (by rw [next, bits, UInt64.size]; omega), next, bits,
    show c.inodes.toNat + 1 + 8192 - 1 = c.inodes.toNat + 8192 by omega]

theorem toNat_zoneMap (blocks : c.blocks.toNat < 65536) :
    (Word.quotientUp c.blocks bitsPerBlock).toNat = (c.blocks.toNat + 8191) / 8192 := by
  have bits : bitsPerBlock.toNat = 8192 := rfl
  rw [Word.toNat_quotientUp (by decide) (by rw [bits, UInt64.size]; omega), bits,
    Nat.add_sub_assoc (by decide)]

theorem toNat_table (inodes : c.inodes.toNat < 65536) :
    (Word.quotientUp c.inodes Superblock.inodesPerBlock).toNat = (c.inodes.toNat + 31) / 32 := by
  have unit : Superblock.inodesPerBlock.toNat = 32 := rfl
  rw [Word.toNat_quotientUp (by decide) (by rw [unit, UInt64.size]; omega), unit,
    Nat.add_sub_assoc (by decide)]

theorem toNat_first (blocks : c.blocks.toNat < 65536) (inodes : c.inodes.toNat < 65536) :
    (2 + Word.quotientUp (c.inodes + 1) bitsPerBlock + Word.quotientUp c.blocks bitsPerBlock
      + Word.quotientUp c.inodes Superblock.inodesPerBlock).toNat
      = 2 + (c.inodes.toNat + 8192) / 8192 + (c.blocks.toNat + 8191) / 8192
        + (c.inodes.toNat + 31) / 32 := by
  have two : (2 : UInt64).toNat = 2 := rfl
  rw [UInt64.toNat_add, UInt64.toNat_add, UInt64.toNat_add, toNat_inodeMap inodes,
    toNat_zoneMap blocks, toNat_table inodes, two]
  omega

end Sizes

theorem accepted_of_layout {o : FormatOptions} {sb : Superblock} (h : o.layout = .ok sb) :
    Accepted sb := by
  obtain ⟨magic, known, blocks, inodes, wide, rfl⟩ := layout_eq_ok h
  have pos := o.completed_inodes_pos
  generalize o.completed = c at known blocks inodes wide pos
  have inodeMap := toNat_inodeMap inodes
  have zoneMap := toNat_zoneMap blocks
  have first := toNat_first blocks inodes
  rw [first] at wide
  refine ⟨magic_known known, rfl, ?_, ?_, ?_, ?_, ?_⟩
  · rw [plan, toNat_toUInt16 inodes]
    exact pos (by omega)
  · rw [plan, toNat_toUInt16 (by omega), toNat_toUInt16 inodes, inodeMap]
  · rw [plan, toNat_toUInt16 (by omega), toNat_toUInt16 blocks, zoneMap]
  · rw [plan, toNat_toUInt16 (by omega), toNat_toUInt16 (by omega), toNat_toUInt16 (by omega),
      toNat_toUInt16 inodes, first, inodeMap, zoneMap]
  · rw [plan, toNat_toUInt16 (by omega), toNat_toUInt16 blocks, first]
    exact wide

namespace Accepted

variable {sb : Superblock} (h : Accepted sb)
include h

theorem zoneSize_eq : sb.zoneSize = 1024 := by
  rw [Superblock.zoneSize, h.log]
  rfl

theorem zoneSize_le : sb.zoneSize.toNat ≤ Word.largestBuffer.toNat := by
  rw [h.zoneSize_eq]
  decide

theorem toNat_zoneOffset {z : UInt64} (lt : z.toNat < 65536) :
    (sb.zoneOffset z).toNat = 1024 * z.toNat := by
  have unit : blockSize.toNat = 1024 := rfl
  rw [Superblock.zoneOffset, h.log, UInt64.toNat_mul, Word.toNat_shiftUp, unit]
  change z.toNat <<< 0 % UInt64.size * 1024 % UInt64.size = _
  rw [Nat.shiftLeft_zero, UInt64.size]
  omega

theorem fits {size : Nat} (room : sb.zones.toNat * 1024 ≤ size) (lt : size < sizeLimit) :
    sb.Fits size := by
  have inodes := sb.inodes.toNat_lt
  have zones := sb.zones.toNat_lt
  have inodeMap := h.inodeMap
  have zoneMap := h.zoneMap
  have first := h.first
  have first_lt := h.first_lt
  have dataZones : sb.dataZones.toNat = sb.zones.toNat - sb.firstDataZone.toNat := by
    rw [Superblock.dataZones, if_neg (by rw [UInt16.lt_iff_toNat_lt]; omega),
      UInt64.toNat_sub_of_le, UInt16.toNat_toUInt64, UInt16.toNat_toUInt64]
    rw [UInt64.le_iff_toNat_le, UInt16.toNat_toUInt64, UInt16.toNat_toUInt64]
    omega
  refine ⟨h.magic, h.inodes_pos, by omega, by omega, by omega, by omega, ?_, ?_, lt⟩
  · rw [Superblock.toNat_inodeTableStart, Superblock.tablePlace,
      h.toNat_zoneOffset (by rw [UInt16.toNat_toUInt64]; omega), UInt16.toNat_toUInt64]
    omega
  · rw [h.log]
    change sb.zones.toNat <<< 0 * 1024 ≤ size
    rw [Nat.shiftLeft_zero]
    exact room

end Accepted

end FormatOptions

namespace Bitmap

theorem setFrom_eq (bm : Bitmap) (n left : Nat) (h : n + left ≤ 8 * bm.data.size)
    (short : 8 * bm.data.size < UInt64.size) :
    ∃ data, setFrom n left bm = .ok ⟨bm.start, bm.max, data⟩ ∧ data.size = bm.data.size ∧
      ∀ k, data.bit k = true ↔ bm.data.bit k = true ∨ n ≤ k ∧ k < n + left := by
  induction left generalizing n bm with
  | zero =>
      refine ⟨bm.data, rfl, rfl, fun k => ⟨.inl, ?_⟩⟩
      rintro (set | range)
      · exact set
      · omega
  | succ left ih =>
      have index : (UInt64.ofNat n).toNat = n := UInt64.toNat_ofNat_of_lt' (by omega)
      have set : bm.set (UInt64.ofNat n) = .ok ⟨bm.start, bm.max, bm.data.setBit n true⟩ := by
        rw [set_eq (by omega), index]
      have size := Buffer.size_setBit bm.data n true
      obtain ⟨data, run, length, bits⟩ :=
        ih ⟨bm.start, bm.max, bm.data.setBit n true⟩ (n + 1) (by rw [size]; omega)
          (by rw [size]; exact short)
      refine ⟨data, ?_, length.trans size, ?_⟩
      · rw [setFrom, set]
        exact run
      · intro k
        rw [bits, Buffer.bit_setBit (by omega)]
        by_cases e : k = n
        · rw [if_pos e]
          exact ⟨fun _ => .inr (by omega), fun _ => .inl rfl⟩
        · rw [if_neg e]
          constructor
          · rintro (set | range)
            · exact .inl set
            · exact .inr (by omega)
          · rintro (set | range)
            · exact .inl set
            · exact .inr (by omega)

end Bitmap

theorem Buffer.bit_zeros (n k : Nat) : (zeros n).bit k = false := by
  rw [bit, getElem?_zeros]
  split
  · exact BitVec.getLsbD_zero
  · exact BitVec.getLsbD_zero

structure Mount.InOrder {δ : Type} [Disk δ] [ImageDisk δ] (m : Mount δ) : Prop where
  sound : ImageDisk.Sound m.disk
  reliable : ImageDisk.Reliable m.disk
  consistent : Image.Consistent (ImageDisk.image m.disk)

namespace Format

theorem freshMap_eq (start blocks max : UInt64) (hb : blocks.toNat < 65536)
    (hm : max.toNat < 8192 * blocks.toNat) (pos : 1 ≤ max.toNat) :
    ∃ data, freshMap start blocks max = .ok ⟨start, max, data⟩ ∧
      data.size = 1024 * blocks.toNat ∧
      ∀ k, k < 8192 * blocks.toNat → (data.bit k = true ↔ k ≤ 1 ∨ max.toNat < k) := by
  have bytes := Bitmap.toNat_blockBytes hb
  have bits := Bitmap.toNat_blockBits hb
  have size₀ := Buffer.size_zeros (blocks * blockSize).toNat
  have blank₀ := Buffer.bit_zeros (blocks * blockSize).toNat
  rw [freshMap]
  generalize Buffer.zeros (blocks * blockSize).toNat = blank at *
  have empty := Bitmap.ofData_eq start max hb (size₀.trans bytes)
  rw [Bitmap.reach_eq hb hm] at empty
  have zero : (0 : UInt64).toNat = 0 := rfl
  have one : (1 : UInt64).toNat = 1 := rfl
  have set₀ : Bitmap.set ⟨start, max, blank⟩ 0 = .ok ⟨start, max, blank.setBit 0 true⟩ :=
    Bitmap.set_eq (by dsimp only; omega)
  have size₁ := Buffer.size_setBit blank 0 true
  have set₁ : Bitmap.set ⟨start, max, blank.setBit 0 true⟩ 1
      = .ok ⟨start, max, (blank.setBit 0 true).setBit 1 true⟩ :=
    Bitmap.set_eq (by dsimp only; omega)
  have size₂ := Buffer.size_setBit (blank.setBit 0 true) 1 true
  obtain ⟨data, run, length, range⟩ := Bitmap.setFrom_eq
    ⟨start, max, (blank.setBit 0 true).setBit 1 true⟩ (max.toNat + 1)
    ((blocks * bitsPerBlock).toNat - (max.toNat + 1))
    (by dsimp only; omega) (by rw [UInt64.size]; dsimp only; omega)
  refine ⟨data, ?_, ?_, ?_⟩
  · rw [empty]
    simp only [bind, Except.bind, set₀, set₁]
    exact run
  · rw [length, size₂, size₁, size₀, bytes]
  · intro k hk
    rw [range, Buffer.bit_setBit (by omega), Buffer.bit_setBit (by omega), blank₀, bits]
    by_cases e₁ : k = 1
    · rw [if_pos e₁]
      exact ⟨fun _ => .inl (by omega), fun _ => .inl rfl⟩
    · rw [if_neg e₁]
      by_cases e₀ : k = 0
      · rw [if_pos e₀]
        exact ⟨fun _ => .inl (by omega), fun _ => .inl rfl⟩
      · rw [if_neg e₀]
        simp only [Bool.false_eq_true, false_or]
        omega

def Cleared (sb : Superblock) (img : Buffer) : Prop :=
  ∀ n, sb.IsInode n → Image.record sb img n = Buffer.ofBytes ({} : Inode).encode

/-- An image with the header, both maps and the inode table of a fresh volume. -/
structure Prepared (sb : Superblock) (img : Buffer) : Prop where
  fits : sb.Fits img.size
  header : Image.header img = sb
  cleared : Cleared sb img
  inodes : ∀ n, n < 8192 * sb.inodeMapBlocks.toNat →
    (Image.inodeUsed sb img n = true ↔ n ≤ 1 ∨ sb.inodes.toNat < n)
  zones : ∀ k, k < 8192 * sb.zoneMapBlocks.toNat →
    (img.bit (8 * sb.zoneMapPlace + k) = true ↔ k ≤ 1 ∨ sb.dataZones.toNat < k)

theorem cleared_of_zeros {sb : Superblock} {img : Buffer} {n : Nat} (fit : n ≤ img.size)
    (table : sb.tablePlace + 32 * sb.inodes.toNat ≤ n) :
    Cleared sb (img.splice 0 (Buffer.zeros n)) := by
  have blank : ({} : Inode).encode = List.replicate 32 0 := by decide
  rintro k ⟨pos, le⟩
  rw [Image.record, blank, ← Buffer.toBytes_zeros]
  apply Buffer.ext_getElem?
  intro i
  change _ = (Buffer.zeros 32).data[i]?
  rw [Buffer.getElem?_window, Buffer.getElem?_splice (by rw [Buffer.size_zeros]; omega),
    Buffer.getElem?_zeros 32, Buffer.size_zeros, Superblock.recordPlace]
  by_cases lt : i < 32
  · rw [if_pos lt, if_pos lt, if_pos (by omega), Buffer.getElem?_zeros, if_pos (by omega)]
  · rw [if_neg lt, if_neg lt]

structure FreshMaps (sb : Superblock) (inodeMap zoneMap : Buffer) : Prop where
  inodeMap_eq : freshMap sb.inodeMapStart sb.inodeMapBlocks.toUInt64 sb.inodes.toUInt64
    = .ok ⟨sb.inodeMapStart, sb.inodes.toUInt64, inodeMap⟩
  zoneMap_eq : freshMap sb.zoneMapStart sb.zoneMapBlocks.toUInt64 sb.dataZones
    = .ok ⟨sb.zoneMapStart, sb.dataZones, zoneMap⟩
  inodeMap_size : inodeMap.size = 1024 * sb.inodeMapBlocks.toNat
  zoneMap_size : zoneMap.size = 1024 * sb.zoneMapBlocks.toNat
  inodes : ∀ k, k < 8192 * sb.inodeMapBlocks.toNat →
    (inodeMap.bit k = true ↔ k ≤ 1 ∨ sb.inodes.toNat < k)
  zones : ∀ k, k < 8192 * sb.zoneMapBlocks.toNat →
    (zoneMap.bit k = true ↔ k ≤ 1 ∨ sb.dataZones.toNat < k)

theorem exists_freshMaps {sb : Superblock} {size : Nat} (hf : sb.Fits size)
    (zones_pos : 1 ≤ sb.dataZones.toNat) :
    ∃ inodeMap zoneMap, FreshMaps sb inodeMap zoneMap := by
  have blocks₁ := UInt16.toNat_toUInt64 sb.inodeMapBlocks
  have blocks₂ := UInt16.toNat_toUInt64 sb.zoneMapBlocks
  have inodes := UInt16.toNat_toUInt64 sb.inodes
  have lt₁ := sb.inodeMapBlocks.toNat_lt
  have lt₂ := sb.zoneMapBlocks.toNat_lt
  obtain ⟨inodeMap, run₁, size₁, bits₁⟩ := freshMap_eq sb.inodeMapStart
    sb.inodeMapBlocks.toUInt64 sb.inodes.toUInt64 (by omega)
    (by rw [blocks₁, inodes]; exact hf.inodes_lt) (by rw [inodes]; exact hf.inodes_pos)
  obtain ⟨zoneMap, run₂, size₂, bits₂⟩ := freshMap_eq sb.zoneMapStart
    sb.zoneMapBlocks.toUInt64 sb.dataZones (by omega)
    (by rw [blocks₂]; exact hf.dataZones_lt) zones_pos
  rw [blocks₁] at size₁ bits₁
  rw [blocks₂] at size₂ bits₂
  rw [inodes] at bits₁
  exact ⟨inodeMap, zoneMap, run₁, run₂, size₁, size₂, bits₁, bits₂⟩

def marked (sb : Superblock) (inodeMap zoneMap img : Buffer) : Buffer :=
  ((img.splice 1024 (Buffer.ofBytes sb.encode)).splice sb.inodeMapPlace inodeMap).splice
    sb.zoneMapPlace zoneMap

theorem prepared_marked {sb : Superblock} {img : Buffer} (hf : sb.Fits img.size)
    (cleared : Cleared sb img) {inodeMap zoneMap : Buffer} (maps : FreshMaps sb inodeMap zoneMap) :
    Prepared sb (marked sb inodeMap zoneMap img) := by
  have size₁ := maps.inodeMap_size
  have size₂ := maps.zoneMap_size
  have table := hf.tableEnd_le_size
  rw [Superblock.tablePlace] at table
  have size : (Buffer.ofBytes sb.encode).size = 20 := rfl
  have place₁ : sb.inodeMapPlace = 2048 := rfl
  have place₂ : sb.zoneMapPlace = 1024 * (2 + sb.inodeMapBlocks.toNat) := rfl
  have fit₀ : 1024 + (Buffer.ofBytes sb.encode).size ≤ img.size := by omega
  have length₁ := Buffer.size_splice fit₀
  have fit₁ : sb.inodeMapPlace + inodeMap.size
      ≤ (img.splice 1024 (Buffer.ofBytes sb.encode)).size := by omega
  have length₂ := Buffer.size_splice fit₁
  have fit₂ : sb.zoneMapPlace + zoneMap.size ≤ ((img.splice 1024
      (Buffer.ofBytes sb.encode)).splice sb.inodeMapPlace inodeMap).size := by omega
  rw [marked]
  refine ⟨?_, ?_, ?_, ?_, ?_⟩
  · rw [Buffer.size_splice fit₂, length₂, length₁]
    exact hf
  · rw [Image.header, show Superblock.recordSize = 20 from rfl,
      Buffer.window_splice_of_disjoint fit₂ (by omega),
      Buffer.window_splice_of_disjoint fit₁ (by omega), ← size, Buffer.window_splice_self fit₀,
      Buffer.toBytes_ofBytes, Superblock.ofRecord_encode]
  · intro n hn
    have place : sb.tablePlace ≤ sb.recordPlace n := Nat.le_add_right _ _
    rw [Superblock.tablePlace] at place
    rw [Image.record, Buffer.window_splice_of_disjoint fit₂ (by omega),
      Buffer.window_splice_of_disjoint fit₁ (by omega),
      Buffer.window_splice_of_disjoint fit₀ (by omega)]
    exact cleared n hn
  · intro n hn
    rw [Image.inodeUsed, Buffer.bit_splice_of_outside fit₂ (by omega),
      Buffer.bit_splice_self fit₁ (by omega)]
    exact maps.inodes n hn
  · intro k hk
    rw [Buffer.bit_splice_self fit₂ (by omega)]
    exact maps.zones k hk

variable {δ : Type} [Disk δ] [ImageDisk δ] {m : Mount δ} {s : Scene}

theorem ends_write (h : m.Shows True s) (wrap : Error → Error) (off : UInt64) (data : Buffer)
    (inside : off.toNat + data.size ≤ s.image.size) :
    Mount.Ends (Mount.wrapping wrap (Mount.writeAt off data)) m
      (fun _ m' => m'.Shows True { s with image := s.image.splice off.toNat data })
      (fun _ _ => False) := by
  refine Mount.Ends.wrapping (Mount.ends_writeAt h off data inside) ?_ ?_
  · intro e m' h
    exact h.1.not_steady trivial
  · intro p m' h
    exact h.1.not_steady trivial

def freshImage (sb : Superblock) (modified : UInt32) (img : Buffer) : Buffer :=
  Update.applyAll sb img
    [.zone sb.firstDataZone.toUInt64 (Image.newZone sb Inode.root),
     .inode 1 (rootInode sb sb.width modified)]

section Fresh

variable {sb : Superblock} {img : Buffer} (prepared : Prepared sb img)
  (accepted : FormatOptions.Accepted sb) (modified : UInt32)
include prepared accepted

theorem valid_fresh : ∀ u ∈ [Update.zone sb.firstDataZone.toUInt64 (Image.newZone sb Inode.root),
    .inode 1 (rootInode sb sb.width modified)], u.Valid sb := by
  have first := Superblock.Fits.toNat_firstDataZone sb
  have first_lt := accepted.first_lt
  intro u hu
  rcases List.mem_cons.mp hu with rfl | hu
  · exact ⟨⟨by omega, by omega⟩, Image.size_newZone prepared.fits.zoneSize_ge _⟩
  · rw [List.mem_singleton.mp hu]
    exact ⟨Nat.le_refl 1, prepared.fits.inodes_pos⟩

theorem fits_fresh : sb.Fits (freshImage sb modified img).size := by
  rw [freshImage, Update.size_applyAll (valid_fresh prepared accepted modified) prepared.fits]
  exact prepared.fits

theorem header_fresh : Image.header (freshImage sb modified img) = sb := by
  have valid := valid_fresh prepared accepted modified
  have fits := prepared.fits
  rw [← Update.size_apply (valid _ List.mem_cons_self) prepared.fits] at fits
  exact (Update.header_apply (valid _ (List.mem_cons_of_mem _ List.mem_cons_self)) fits).trans
    ((Update.header_apply (valid _ List.mem_cons_self) prepared.fits).trans prepared.header)

theorem usedInodes_fresh : Image.usedInodes sb (freshImage sb modified img) = [1] := by
  have fits := prepared.fits
  have pos := fits.inodes_pos
  have lt := fits.inodes_lt
  have used (n : Nat) (hn : n ≤ sb.inodes.toNat) :
      Image.inodeUsed sb (freshImage sb modified img) n = true ↔ n ≤ 1 := by
    rw [freshImage, Update.inodeUsed_applyAll (valid_fresh prepared accepted modified) fits
      (by omega)]
    change Image.inodeUsed sb img n = true ↔ _
    rw [prepared.inodes n (by omega)]
    omega
  have split : List.range' 1 sb.inodes.toNat = 1 :: List.range' 2 (sb.inodes.toNat - 1) := by
    rw [show sb.inodes.toNat = sb.inodes.toNat - 1 + 1 by omega, List.range'_succ]
    rfl
  rw [Image.usedInodes, split, List.filter_cons_of_pos ((used 1 pos).mpr (Nat.le_refl 1))]
  congr 1
  rw [List.filter_eq_nil_iff]
  intro n hn
  have range := List.mem_range'_1.mp hn
  rw [used n (by omega)]
  omega

theorem inode_fresh :
    Image.inode sb (freshImage sb modified img) 1 = rootInode sb sb.width modified := by
  apply Image.inode_of_record
  rw [freshImage, Update.record_applyAll (valid_fresh prepared accepted modified) prepared.fits
    ⟨Nat.le_refl 1, prepared.fits.inodes_pos⟩]
  rfl

omit prepared in
theorem zones_rootInode :
    (rootInode sb sb.width modified).zones = [sb.firstDataZone.toUInt64] := by
  refine Inode.zones_oneZone rfl ?_
  intro zero
  have first := accepted.first
  rw [zero] at first
  change 0 = _ at first
  omega

theorem zone_fresh :
    Image.zone sb (freshImage sb modified img) sb.firstDataZone.toUInt64
      = Image.newZone sb Inode.root := by
  have valid := valid_fresh prepared accepted modified
  rw [freshImage, Update.zone_applyAll valid prepared.fits (valid _ List.mem_cons_self).1]
  exact if_pos rfl

theorem entries_fresh :
    Image.entries sb (freshImage sb modified img)
        (Image.inode sb (freshImage sb modified img) 1)
      = newDirectory Inode.root Inode.root := by
  rw [inode_fresh prepared accepted, Image.entries, zones_rootInode accepted,
    List.flatMap_singleton, zone_fresh prepared accepted,
    Image.zoneEntries_newZone prepared.fits.zoneSize_ge (by decide) (by decide)]
  rfl

theorem zoneUsed_fresh :
    Image.zoneUsed sb (freshImage sb modified img) sb.firstDataZone.toUInt64 = true := by
  have fits := prepared.fits
  have dataZones := Superblock.toNat_dataZones sb
  have lt := fits.dataZones_lt
  have first_lt := accepted.first_lt
  have number : sb.zoneNumber sb.firstDataZone.toUInt64 = 1 := by
    rw [Superblock.zoneNumber, Superblock.Fits.toNat_firstDataZone, Nat.sub_self]
  rw [Image.zoneUsed, number, freshImage,
    Update.zoneMapBit_applyAll (valid_fresh prepared accepted modified) fits (by omega)]
  exact (prepared.zones 1 (by omega)).mpr (.inl (Nat.le_refl 1))

theorem eq_root_of_zoneUsed {z : UInt64} (hz : sb.IsDataZone z)
    (used : Image.zoneUsed sb (freshImage sb modified img) z = true) :
    z = sb.firstDataZone.toUInt64 := by
  have fits := prepared.fits
  have dataZones := Superblock.toNat_dataZones sb
  have lt := fits.zoneNumber_lt hz
  rw [Image.zoneUsed, freshImage,
    Update.zoneMapBit_applyAll (valid_fresh prepared accepted modified) fits lt] at used
  have range := (prepared.zones _ lt).mp used
  have lower := hz.1
  have upper := hz.2
  rw [Superblock.zoneNumber] at range
  apply UInt64.toNat.inj
  rw [Superblock.Fits.toNat_firstDataZone]
  omega

theorem consistent_fresh : Image.Consistent (freshImage sb modified img) := by
  have header := header_fresh prepared accepted modified
  have used := usedInodes_fresh prepared accepted modified
  have root := inode_fresh prepared accepted modified
  have entries := entries_fresh prepared accepted modified
  have owned : Image.ownedZones sb (freshImage sb modified img)
      = [sb.firstDataZone.toUInt64] := by
    rw [Image.ownedZones, used, List.flatMap_singleton, root, zones_rootInode accepted]
  have isDirectory : (Image.inode sb (freshImage sb modified img) 1).isDirectory = true := by
    rw [root]
    exact (by decide : (rootMode &&& Inode.typeMask == Inode.directoryType) = true)
  have directories : Image.directories sb (freshImage sb modified img) = [1] := by
    rw [Image.directories, used]
    exact List.filter_cons_of_pos isDirectory
  have all : Image.allEntries sb (freshImage sb modified img)
      = newDirectory Inode.root Inode.root := by
    rw [Image.allEntries, directories, List.flatMap_singleton, entries]
  have valid := valid_fresh prepared accepted modified
  have orderly : Image.Orderly (freshImage sb modified img) := by
    refine ⟨?_, ?_, ?_, ?_, ?_, ?_, ?_⟩ <;> rw [header]
    · exact fits_fresh prepared accepted modified
    · have mem : 1 ∈ Image.usedInodes sb (freshImage sb modified img) := by
        rw [used]
        exact List.mem_singleton.mpr rfl
      exact (Image.mem_usedInodes.mp mem).2
    · exact isDirectory
    · intro z hz
      rw [owned] at hz
      rw [List.mem_singleton.mp hz]
      exact ⟨(valid _ List.mem_cons_self).1, zoneUsed_fresh prepared accepted modified⟩
    · rw [owned]
      exact List.nodup_singleton _
    · intro e he
      rw [all] at he
      rw [used, List.mem_singleton]
      simp only [newDirectory, List.mem_cons, List.not_mem_nil, or_false] at he
      rcases he with rfl | rfl
      · rfl
      · rfl
    · rw [entries]
      decide
  refine ⟨orderly, ?_⟩
  rw [header]
  intro n hn
  rw [used] at hn
  rw [List.mem_singleton.mp hn, root, all]
  rfl

end Fresh

theorem ends_blockCount (h : m.Shows True s) :
    Mount.Ends Mount.blockCount m
      (fun n m' => n.toNat = s.image.size / 1024 ∧ m'.Shows True s) (fun _ _ => False) := by
  refine Mount.Ends.next (Mount.ends_size h trivial) ?_
  rintro n m' ⟨rfl, h'⟩
  refine Mount.Ends.pure ⟨?_, h'⟩
  have lt := h.size_lt
  have : sizeLimit < UInt64.size := by decide
  rw [UInt64.toNat_div, UInt64.toNat_ofNat_of_lt' (by omega)]
  rfl

theorem ends_prepare (h : m.Shows True s) {sb : Superblock} (hf : sb.Fits s.image.size)
    {inodeMap zoneMap : Buffer} (maps : FreshMaps sb inodeMap zoneMap) {β : Type}
    {f : MountM δ β} {Q : β → Mount δ → Prop}
    (rest : ∀ m', m'.Shows True { s with image := marked sb inodeMap zoneMap s.image } →
      Mount.Ends f m' Q fun _ _ => False) :
    Mount.Ends (do
        sb.store
        let inodeMap ← liftExcept
          (freshMap sb.inodeMapStart sb.inodeMapBlocks.toUInt64 sb.inodes.toUInt64)
        inodeMap.store
        let zoneMap ← liftExcept (freshMap sb.zoneMapStart sb.zoneMapBlocks.toUInt64 sb.dataZones)
        zoneMap.store
        f) m Q (fun _ _ => False) := by
  have table := hf.tableEnd_le_size
  rw [Superblock.tablePlace] at table
  have place₀ : (Superblock.block * blockSize).toNat = 1024 := rfl
  have place₁ : sb.inodeMapPlace = 2048 := rfl
  have place₂ : sb.zoneMapPlace = 1024 * (2 + sb.inodeMapBlocks.toNat) := rfl
  have size : (Buffer.ofBytes sb.encode).size = 20 := rfl
  have size₁ := maps.inodeMap_size
  have size₂ := maps.zoneMap_size
  have fit₀ : (Superblock.block * blockSize).toNat + (Buffer.ofBytes sb.encode).size
      ≤ s.image.size := by omega
  have length₀ := Buffer.size_splice fit₀
  refine Mount.Ends.next (ends_write h _ _ _ fit₀) ?_
  intro _ m₁ h₁
  rw [maps.inodeMap_eq]
  apply Mount.Ends.ok_bind
  have start₁ := Superblock.toNat_inodeMapOffset sb
  have fit₁ : (sb.inodeMapStart * blockSize).toNat + inodeMap.size ≤ (s.image.splice
      (Superblock.block * blockSize).toNat (Buffer.ofBytes sb.encode)).size := by omega
  have length₁ := Buffer.size_splice fit₁
  refine Mount.Ends.next (ends_write h₁ _ _ _ fit₁) ?_
  intro _ m₂ h₂
  rw [maps.zoneMap_eq]
  apply Mount.Ends.ok_bind
  have start₂ := Superblock.toNat_zoneMapOffset sb
  have fit₂ : (sb.zoneMapStart * blockSize).toNat + zoneMap.size ≤ ((s.image.splice
      (Superblock.block * blockSize).toNat (Buffer.ofBytes sb.encode)).splice
        (sb.inodeMapStart * blockSize).toNat inodeMap).size := by omega
  refine Mount.Ends.next (ends_write h₂ _ _ _ fit₂) ?_
  intro _ m₃ h₃
  refine rest m₃ ?_
  dsimp only at h₃
  rw [start₂, start₁, place₀] at h₃
  exact h₃

omit [ImageDisk δ] in
theorem clearBlocks_eq {sb : Superblock} (accepted : FormatOptions.Accepted sb) :
    (clearBlocks 0 (sb.firstDataZone.toUInt64 + 1) : MountM δ Unit)
      = Mount.writeAt 0 (Buffer.zeros (1024 * (sb.firstDataZone.toNat + 1))) := by
  have first := Superblock.Fits.toNat_firstDataZone sb
  have first_lt := accepted.first_lt
  have zones_lt := sb.zones.toNat_lt
  have one : (1 : UInt64).toNat = 1 := rfl
  have next : (sb.firstDataZone.toUInt64 + 1).toNat = sb.firstDataZone.toNat + 1 := by
    rw [UInt64.toNat_add, first, one]
    omega
  have nonzero : ¬ sb.firstDataZone.toUInt64 + 1 = 0 := by
    intro zero
    rw [zero] at next
    cases next
  rw [clearBlocks, if_neg nonzero, Bitmap.toNat_blockBytes (by omega), next]
  rfl

def blanked (sb : Superblock) (img : Buffer) : Buffer :=
  img.splice 0 (Buffer.zeros (1024 * (sb.firstDataZone.toNat + 1)))

section Blanked

variable {sb : Superblock} (accepted : FormatOptions.Accepted sb) {img : Buffer}
  (hf : sb.Fits img.size)
include accepted hf

theorem fit_blanked :
    0 + (Buffer.zeros (1024 * (sb.firstDataZone.toNat + 1))).size ≤ img.size := by
  have room := hf.zones_mul_le
  have first_lt := accepted.first_lt
  rw [accepted.zoneSize_eq, show (1024 : UInt64).toNat = 1024 from rfl] at room
  rw [Buffer.size_zeros]
  omega

theorem fits_blanked : sb.Fits (blanked sb img).size := by
  rw [blanked, Buffer.size_splice (fit_blanked accepted hf)]
  exact hf

theorem prepared_blanked {inodeMap zoneMap : Buffer} (maps : FreshMaps sb inodeMap zoneMap) :
    Prepared sb (marked sb inodeMap zoneMap (blanked sb img)) := by
  refine prepared_marked (fits_blanked accepted hf) ?_ maps
  have fit := fit_blanked accepted hf
  rw [Buffer.size_zeros] at fit
  refine cleared_of_zeros (Nat.le_of_add_left_le fit) ?_
  have table := hf.tableEnd_le_first
  rw [Superblock.zonePlace, accepted.toNat_zoneOffset (by
    rw [UInt16.toNat_toUInt64]; exact sb.firstDataZone.toNat_lt), UInt16.toNat_toUInt64] at table
  omega

end Blanked

theorem ends_run_eq (h : m.Shows True s) {o : FormatOptions} {sb : Superblock}
    (layout : o.layout = .ok sb) (room : sb.zones.toNat * 1024 ≤ s.image.size)
    {inodeMap zoneMap : Buffer} (maps : FreshMaps sb inodeMap zoneMap) :
    Mount.Ends (run o) m
      (fun sb' m' => sb' = sb ∧ m'.Shows True { s with
        image := freshImage sb o.modified
          (marked sb inodeMap zoneMap (blanked sb s.image)) })
      (fun _ _ => False) := by
  have accepted := FormatOptions.accepted_of_layout layout
  have hf := accepted.fits room h.size_lt
  have first_lt := accepted.first_lt
  have first := Superblock.Fits.toNat_firstDataZone sb
  have isZone : sb.IsDataZone sb.firstDataZone.toUInt64 := ⟨by omega, by omega⟩
  have wide : ¬ Word.largestBuffer < sb.zoneSize :=
    mt UInt64.lt_iff_toNat_lt.mp (Nat.not_lt_of_le accepted.zoneSize_le)
  rw [run, layout]
  apply Mount.Ends.ok_bind
  refine Mount.Ends.next (ends_blockCount h) ?_
  rintro n m₁ ⟨count, h₁⟩
  rw [if_neg (by rw [UInt64.lt_iff_toNat_lt, UInt16.toNat_toUInt64]; omega), hf.nameWidth_eq]
  apply Mount.Ends.ok_bind
  refine Mount.Ends.next (Mount.ends_trace h₁ _) ?_
  intro _ m₂ h₂
  have cleared := ends_write h₂ Error.clearing 0 _ (fit_blanked accepted hf)
  rw [← clearBlocks_eq accepted] at cleared
  refine Mount.Ends.next cleared ?_
  intro _ m₃ h₃
  have prepared := prepared_blanked accepted hf maps
  refine ends_prepare h₃ (fits_blanked accepted hf) maps ?_
  intro m₄ h₄
  rw [Image.block_newDirectory prepared.fits.zoneSize_ge, if_neg wide]
  apply Mount.Ends.ok_bind
  have size := Image.size_newZone prepared.fits.zoneSize_ge Inode.root
  have valid : (Update.zone sb.firstDataZone.toUInt64 (Image.newZone sb Inode.root)).Valid sb :=
    ⟨isZone, size⟩
  refine Mount.Ends.next (ends_write h₄ _ _ _ ?_) ?_
  · rw [size]
    exact prepared.fits.zoneEnd_le isZone
  intro _ m₅ h₅
  have fits₅ := prepared.fits
  rw [← Update.size_apply valid prepared.fits] at fits₅
  refine Mount.Ends.bind (Inode.ends_store h₅ fits₅ (n := Inode.root)
    ⟨Nat.le_refl 1, hf.inodes_pos⟩ _) ?_ ?_
  · intro _ m₆ h₆
    exact Mount.Ends.pure ⟨rfl, h₆⟩
  · intro t m' h
    exact h.1.not_steady trivial

theorem ends_run (h : m.Shows True s) {o : FormatOptions} {sb : Superblock}
    (layout : o.layout = .ok sb) (room : sb.zones.toNat * 1024 ≤ s.image.size) :
    Mount.Ends (run o) m
      (fun sb' m' => sb' = sb ∧ ∃ img, Prepared sb img ∧
        m'.Shows True { s with image := freshImage sb o.modified img })
      (fun _ _ => False) := by
  have accepted := FormatOptions.accepted_of_layout layout
  have hf := accepted.fits room h.size_lt
  have first_lt := accepted.first_lt
  obtain ⟨inodeMap, zoneMap, maps⟩ :=
    exists_freshMaps hf (by rw [Superblock.toNat_dataZones]; omega)
  refine (ends_run_eq h layout room maps).imp ?_
  rintro sb' m' ⟨rfl, h'⟩
  exact ⟨rfl, _, prepared_blanked accepted hf maps, h'⟩

theorem exec_run (sound : ImageDisk.Sound m.disk) (reliable : ImageDisk.Reliable m.disk)
    {o : FormatOptions} {sb : Superblock} (layout : o.layout = .ok sb)
    (room : sb.zones.toNat * 1024 ≤ (ImageDisk.image m.disk).size) :
    ∃ m' img, Mount.exec (run o) m = (.ok sb, m') ∧ Prepared sb img ∧
      m'.Shows True { m.scene with image := freshImage sb o.modified img } := by
  have shows := Mount.shows_scene sound reliable
  rcases (ends_run shows layout room).exec_eq with
    ⟨_, m', run, rfl, img, prepared, h'⟩ | ⟨_, _, _, impossible⟩
  · exact ⟨m', img, run, prepared, h'⟩
  · cases impossible

theorem inOrder_run (sound : ImageDisk.Sound m.disk) (reliable : ImageDisk.Reliable m.disk)
    {o : FormatOptions} {sb : Superblock} (layout : o.layout = .ok sb)
    (room : sb.zones.toNat * 1024 ≤ (ImageDisk.image m.disk).size) :
    ∃ m', Mount.exec (run o) m = (.ok sb, m') ∧ m'.InOrder ∧
      Image.header (ImageDisk.image m'.disk) = sb := by
  have accepted := FormatOptions.accepted_of_layout layout
  obtain ⟨m', img, run, prepared, h'⟩ := exec_run sound reliable layout room
  refine ⟨m', run, ⟨h'.sound, h'.reliable trivial, ?_⟩, ?_⟩
  · rw [h'.image]
    exact consistent_fresh prepared accepted _
  · rw [h'.image]
    exact header_fresh prepared accepted _

theorem sound_of_size {sb : Superblock} {b : Buffer} (size : b.size = sb.zones.toNat * 1024) :
    ImageDisk.Sound (⟨b⟩ : MemoryDisk) := by
  have lt := sb.zones.toNat_lt
  have limit : 65536 * 1024 < sizeLimit := by decide
  change b.size < sizeLimit
  omega

theorem room_small :
    ∃ sb b, FormatOptions.layout { blocks := 8, inodes := 32 } = .ok sb ∧ b = Buffer.zeros 8192 ∧
      b.size = sb.zones.toNat * 1024 := by
  have layout : FormatOptions.layout { blocks := 8, inodes := 32 }
      = .ok ⟨32, 8, 1, 1, 5, 0, FormatOptions.maxFileSize, Superblock.shortNameMagic, 1⟩ := rfl
  refine ⟨_, Buffer.zeros 8192, layout, rfl, ?_⟩
  rw [Buffer.size_zeros]
  decide

theorem inOrder_small :
    ∃ sb m, Mount.exec (run { blocks := 8, inodes := 32 })
        (⟨⟨Buffer.zeros 8192⟩, {}, {}, #[]⟩ : Mount MemoryDisk) = (.ok sb, m) ∧
      m.InOrder ∧ (Image.header (ImageDisk.image m.disk)).zoneSize = 1024 := by
  obtain ⟨sb, b, layout, blank, size⟩ := room_small
  obtain ⟨m, run, inOrder, header⟩ := inOrder_run (m := (⟨⟨b⟩, {}, {}, #[]⟩ : Mount MemoryDisk))
    (sound_of_size size) trivial layout (Nat.le_of_eq size.symm)
  rw [blank] at run
  refine ⟨sb, m, run, inOrder, ?_⟩
  rw [header]
  exact (FormatOptions.accepted_of_layout layout).zoneSize_eq

end Format

end MinixVolume

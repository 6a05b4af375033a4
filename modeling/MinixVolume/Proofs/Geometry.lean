import MinixVolume.Proofs.ImageDisk
import MinixVolume.Superblock

namespace MinixVolume

theorem Word.toNat_ofNat_of_le {n : Nat} {w : UInt64} (h : n ≤ w.toNat) :
    (UInt64.ofNat n).toNat = n :=
  UInt64.toNat_ofNat_of_lt' (Nat.lt_of_le_of_lt h w.toNat_lt)

namespace Superblock

def width (sb : Superblock) : UInt64 :=
  if sb.magic = shortNameMagic then 14 else 30

def slotBytes (sb : Superblock) : Nat :=
  2 + sb.width.toNat

def slots (sb : Superblock) : Nat :=
  sb.zoneSize.toNat / sb.slotBytes

def inodeMapPlace (_ : Superblock) : Nat := 2048

def zoneMapPlace (sb : Superblock) : Nat :=
  1024 * (2 + sb.inodeMapBlocks.toNat)

def tablePlace (sb : Superblock) : Nat :=
  1024 * (2 + sb.inodeMapBlocks.toNat + sb.zoneMapBlocks.toNat)

def recordPlace (sb : Superblock) (n : Nat) : Nat :=
  sb.tablePlace + 32 * (n - 1)

def zonePlace (sb : Superblock) (z : UInt64) : Nat :=
  (sb.zoneOffset z).toNat

def slotPlace (sb : Superblock) (z : UInt64) (k : Nat) : Nat :=
  sb.zonePlace z + k * sb.slotBytes

def IsInode (sb : Superblock) (n : Nat) : Prop :=
  1 ≤ n ∧ n ≤ sb.inodes.toNat

def IsDataZone (sb : Superblock) (z : UInt64) : Prop :=
  sb.firstDataZone.toNat ≤ z.toNat ∧ z.toNat < sb.zones.toNat

structure Fits (sb : Superblock) (size : Nat) : Prop where
  magic : sb.magic = shortNameMagic ∨ sb.magic = longNameMagic
  inodes_pos : 1 ≤ sb.inodes.toNat
  inodes_lt : sb.inodes.toNat < 8192 * sb.inodeMapBlocks.toNat
  dataZones_lt : sb.dataZones.toNat < 8192 * sb.zoneMapBlocks.toNat
  firstDataZone_pos : 1 ≤ sb.firstDataZone.toNat
  firstDataZone_le : sb.firstDataZone.toNat ≤ sb.zones.toNat
  table_end : sb.inodeTableStart.toNat + 32 * sb.inodes.toNat ≤
    (sb.zoneOffset sb.firstDataZone.toUInt64).toNat
  zones_end : (sb.zones.toNat <<< sb.logZoneSize.toNat) * 1024 ≤ size
  size_lt : size < sizeLimit

theorem width_cases (sb : Superblock) : sb.width = 14 ∨ sb.width = 30 := by
  unfold width
  split
  · exact .inl rfl
  · exact .inr rfl

theorem slotBytes_cases (sb : Superblock) : sb.slotBytes = 16 ∨ sb.slotBytes = 32 := by
  unfold slotBytes
  rcases sb.width_cases with h | h
  · exact .inl (by rw [h]; rfl)
  · exact .inr (by rw [h]; rfl)

theorem toNat_slotSize (sb : Superblock) : (2 + sb.width).toNat = sb.slotBytes := by
  unfold slotBytes
  rcases sb.width_cases with h | h
  · rw [h]; rfl
  · rw [h]; rfl

theorem toNat_zoneMapStart (sb : Superblock) :
    sb.zoneMapStart.toNat = 2 + sb.inodeMapBlocks.toNat := by
  have := sb.inodeMapBlocks.toNat_lt
  simp only [zoneMapStart, inodeMapStart, UInt64.toNat_add, UInt16.toNat_toUInt64,
    UInt64.reduceToNat]
  omega

theorem toNat_zoneMapOffset (sb : Superblock) :
    (sb.zoneMapStart * blockSize).toNat = sb.zoneMapPlace := by
  have := sb.inodeMapBlocks.toNat_lt
  rw [UInt64.toNat_mul, toNat_zoneMapStart, zoneMapPlace, blockSize]
  simp only [UInt64.reduceToNat]
  omega

theorem toNat_inodeMapOffset (sb : Superblock) :
    (sb.inodeMapStart * blockSize).toNat = sb.inodeMapPlace := by
  change ((2 : UInt64) * 1024).toNat = 2048
  decide

theorem toNat_inodeTableStart (sb : Superblock) : sb.inodeTableStart.toNat = sb.tablePlace := by
  have := sb.inodeMapBlocks.toNat_lt
  have := sb.zoneMapBlocks.toNat_lt
  rw [inodeTableStart, UInt64.toNat_mul, UInt64.toNat_add, toNat_zoneMapStart,
    UInt16.toNat_toUInt64, tablePlace, blockSize]
  simp only [UInt64.reduceToNat]
  omega

theorem toNat_dataZones (sb : Superblock) :
    sb.dataZones.toNat = sb.zones.toNat - sb.firstDataZone.toNat := by
  have zones := UInt16.toNat_toUInt64 sb.zones
  have first := UInt16.toNat_toUInt64 sb.firstDataZone
  rw [dataZones]
  split
  · next none =>
      rw [UInt16.lt_iff_toNat_lt] at none
      change 0 = _
      omega
  · next some =>
      rw [UInt16.lt_iff_toNat_lt] at some
      rw [UInt64.toNat_sub_of_le _ _ (by rw [UInt64.le_iff_toNat_le]; omega), zones, first]

theorem isDataZone_of_lt {sb : Superblock} {n : Nat} (lt : n < sb.dataZones.toNat) :
    sb.IsDataZone (UInt64.ofNat (sb.firstDataZone.toNat + n)) ∧
      (UInt64.ofNat (sb.firstDataZone.toNat + n)).toNat = sb.firstDataZone.toNat + n := by
  have zones := sb.zones.toNat_lt
  rw [toNat_dataZones] at lt
  have word : (UInt64.ofNat (sb.firstDataZone.toNat + n)).toNat = sb.firstDataZone.toNat + n :=
    UInt64.toNat_ofNat_of_lt' (by change _ < 2 ^ 64; omega)
  exact ⟨⟨by omega, by omega⟩, word⟩

theorem shiftLeft_eq_mul (n bits : Nat) : n <<< bits = n * (1 <<< bits) := by
  rw [Nat.shiftLeft_eq, Nat.shiftLeft_eq, Nat.one_mul]

theorem zonePlace_eq_mod (sb : Superblock) (z : UInt64) :
    sb.zonePlace z = z.toNat * sb.zoneSize.toNat % UInt64.size := by
  have block : blockSize.toNat = 1024 := rfl
  rw [zonePlace, zoneOffset, zoneSize, UInt64.toNat_mul, Word.toNat_shiftUp, Word.toNat_shiftUp,
    shiftLeft_eq_mul, shiftLeft_eq_mul blockSize.toNat, block]
  change _ % UInt64.size * 1024 % UInt64.size = _
  rw [Nat.mod_mul_mod, Nat.mul_mod_mod, Nat.mul_assoc, Nat.mul_comm (1 <<< _)]

namespace Fits

variable {sb : Superblock} {size : Nat}

theorem nameWidth_eq (h : sb.Fits size) : sb.nameWidth = .ok sb.width := by
  unfold nameWidth width
  rcases h.magic with hm | hm
  · rw [if_pos hm, if_pos hm]
  · rw [hm]
    rfl

theorem zones_pos (h : sb.Fits size) : 1 ≤ sb.zones.toNat :=
  Nat.le_trans h.firstDataZone_pos h.firstDataZone_le

theorem toNat_zoneSize (h : sb.Fits size) :
    sb.zoneSize.toNat = 1024 <<< sb.logZoneSize.toNat := by
  have fit := h.zones_end
  have limit := h.size_lt
  have least : 1 * (1 <<< sb.logZoneSize.toNat) ≤ sb.zones.toNat * (1 <<< sb.logZoneSize.toNat) :=
    Nat.mul_le_mul_right _ h.zones_pos
  have : sizeLimit < UInt64.size := by decide
  rw [shiftLeft_eq_mul] at fit
  rw [zoneSize, Word.toNat_shiftUp]
  change 1024 <<< sb.logZoneSize.toNat % UInt64.size = _
  rw [shiftLeft_eq_mul]
  exact Nat.mod_eq_of_lt (by omega)

theorem zoneSize_ge (h : sb.Fits size) : 1024 ≤ sb.zoneSize.toNat := by
  have one : 0 < 1 <<< sb.logZoneSize.toNat := by
    rw [Nat.one_shiftLeft]
    exact Nat.two_pow_pos _
  rw [h.toNat_zoneSize, shiftLeft_eq_mul]
  exact Nat.le_mul_of_pos_right _ one

theorem slots_mul_slotBytes (h : sb.Fits size) : sb.slots * sb.slotBytes = sb.zoneSize.toNat := by
  have divides : sb.slotBytes ∣ 1024 := by
    rcases sb.slotBytes_cases with e | e
    · rw [e]
      decide
    · rw [e]
      decide
  rw [slots]
  apply Nat.div_mul_cancel
  rw [h.toNat_zoneSize, shiftLeft_eq_mul]
  exact Nat.dvd_mul_right_of_dvd divides _

theorem shift_mul_eq (h : sb.Fits size) (n : Nat) :
    n <<< sb.logZoneSize.toNat * 1024 = n * sb.zoneSize.toNat := by
  rw [h.toNat_zoneSize, shiftLeft_eq_mul, shiftLeft_eq_mul 1024, Nat.mul_assoc,
    Nat.mul_comm 1024]

theorem zones_mul_le (h : sb.Fits size) : sb.zones.toNat * sb.zoneSize.toNat ≤ size := by
  rw [← h.shift_mul_eq]
  exact h.zones_end

theorem zonePlace_eq (h : sb.Fits size) {z : UInt64} (hz : z.toNat ≤ sb.zones.toNat) :
    sb.zonePlace z = z.toNat * sb.zoneSize.toNat := by
  have fit := h.zones_mul_le
  have limit := h.size_lt
  have : sizeLimit < UInt64.size := by decide
  have le : z.toNat * sb.zoneSize.toNat ≤ sb.zones.toNat * sb.zoneSize.toNat :=
    Nat.mul_le_mul_right _ hz
  rw [zonePlace_eq_mod]
  exact Nat.mod_eq_of_lt (by omega)

theorem toNat_firstDataZone (sb : Superblock) :
    sb.firstDataZone.toUInt64.toNat = sb.firstDataZone.toNat :=
  UInt16.toNat_toUInt64 _

theorem tableEnd_le_first (h : sb.Fits size) :
    sb.tablePlace + 32 * sb.inodes.toNat ≤ sb.zonePlace sb.firstDataZone.toUInt64 := by
  have table := h.table_end
  rwa [toNat_inodeTableStart] at table

theorem zonePlace_mono (h : sb.Fits size) {z z' : UInt64} (le : z.toNat ≤ z'.toNat)
    (hz : z'.toNat ≤ sb.zones.toNat) : sb.zonePlace z ≤ sb.zonePlace z' := by
  rw [h.zonePlace_eq hz, h.zonePlace_eq (Nat.le_trans le hz)]
  exact Nat.mul_le_mul_right _ le

theorem tableEnd_le (h : sb.Fits size) {z : UInt64} (hz : sb.IsDataZone z) :
    sb.tablePlace + 32 * sb.inodes.toNat ≤ sb.zonePlace z :=
  Nat.le_trans h.tableEnd_le_first
    (h.zonePlace_mono (by rw [toNat_firstDataZone]; exact hz.1) (Nat.le_of_lt hz.2))

theorem zoneEnd_le (h : sb.Fits size) {z : UInt64} (hz : sb.IsDataZone z) :
    sb.zonePlace z + sb.zoneSize.toNat ≤ size := by
  have fit := h.zones_mul_le
  have le : (z.toNat + 1) * sb.zoneSize.toNat ≤ sb.zones.toNat * sb.zoneSize.toNat :=
    Nat.mul_le_mul_right _ hz.2
  rw [Nat.succ_mul] at le
  rw [h.zonePlace_eq (Nat.le_of_lt hz.2)]
  omega

theorem zones_apart (h : sb.Fits size) {z z' : UInt64} (hz : sb.IsDataZone z)
    (hz' : sb.IsDataZone z') (ne : z ≠ z') :
    sb.zonePlace z + sb.zoneSize.toNat ≤ sb.zonePlace z' ∨
      sb.zonePlace z' + sb.zoneSize.toNat ≤ sb.zonePlace z := by
  have ne : z.toNat ≠ z'.toNat := fun e => ne (UInt64.toNat.inj e)
  rw [h.zonePlace_eq (Nat.le_of_lt hz.2), h.zonePlace_eq (Nat.le_of_lt hz'.2)]
  rcases Nat.lt_or_gt_of_ne ne with lt | lt
  · left
    have le : (z.toNat + 1) * sb.zoneSize.toNat ≤ z'.toNat * sb.zoneSize.toNat :=
      Nat.mul_le_mul_right _ lt
    rwa [Nat.succ_mul] at le
  · right
    have le : (z'.toNat + 1) * sb.zoneSize.toNat ≤ z.toNat * sb.zoneSize.toNat :=
      Nat.mul_le_mul_right _ lt
    rwa [Nat.succ_mul] at le

theorem tableEnd_le_size (h : sb.Fits size) : sb.tablePlace + 32 * sb.inodes.toNat ≤ size := by
  have table := h.tableEnd_le_first
  have le : sb.firstDataZone.toNat * sb.zoneSize.toNat ≤ sb.zones.toNat * sb.zoneSize.toNat :=
    Nat.mul_le_mul_right _ h.firstDataZone_le
  rw [h.zonePlace_eq (by rw [toNat_firstDataZone]; exact h.firstDataZone_le),
    toNat_firstDataZone] at table
  exact Nat.le_trans table (Nat.le_trans le h.zones_mul_le)

theorem slotEnd_le (sb : Superblock) {k : Nat} (hk : k < sb.slots) :
    k * sb.slotBytes + sb.slotBytes ≤ sb.zoneSize.toNat := by
  have le : (k + 1) * sb.slotBytes ≤ sb.slots * sb.slotBytes := Nat.mul_le_mul_right _ hk
  have := Nat.div_mul_le_self sb.zoneSize.toNat sb.slotBytes
  rw [Nat.succ_mul] at le
  rw [slots] at le
  omega

end Fits

end Superblock

end MinixVolume

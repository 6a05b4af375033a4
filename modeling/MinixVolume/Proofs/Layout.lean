import Mathlib.Algebra.Order.Floor.Div
import MinixVolume.Proofs.Format

namespace MinixVolume

theorem Superblock.toNat_inodeTableBlocks (sb : Superblock) :
    sb.inodeTableBlocks.toNat = (sb.inodes.toNat + 31) / 32 := by
  have unit : inodesPerBlock.toNat = 32 := rfl
  have lt := sb.inodes.toNat_lt
  rw [inodeTableBlocks, Word.toNat_quotientUp (by decide)
    (by rw [unit, UInt16.toNat_toUInt64, UInt64.size]; omega), unit, UInt16.toNat_toUInt64,
    Nat.add_sub_assoc (by decide)]

namespace FormatOptions

def wantedBlocks (o : FormatOptions) : Nat :=
  if o.blocks = 0 then 1440 else o.blocks.toNat

def wantedInodes (o : FormatOptions) : Nat :=
  if o.inodes = 0 then min 65535 (32 * ((o.wantedBlocks / 3) ⌈/⌉ 32)) else o.inodes.toNat

def wantedWidth (o : FormatOptions) : Nat :=
  if o.nameWidth = 0 then 14 else o.nameWidth.toNat

def Feasible (o : FormatOptions) : Prop :=
  (o.wantedWidth = 14 ∨ o.wantedWidth = 30) ∧ o.wantedBlocks ≤ 65535 ∧ o.wantedInodes ≤ 65535 ∧
    2 + (o.wantedInodes + 1) ⌈/⌉ 8192 + o.wantedBlocks ⌈/⌉ 8192 + o.wantedInodes ⌈/⌉ 32
      < o.wantedBlocks

instance (o : FormatOptions) : Decidable o.Feasible :=
  inferInstanceAs (Decidable (_ ∧ _))

/-- A superblock that says what was wanted. Nothing in it is cut off, its maps reach every number,
and its regions follow each other without a gap. -/
structure Planned (o : FormatOptions) (sb : Superblock) : Prop where
  inodes : sb.inodes.toNat = o.wantedInodes
  inodes_pos : 1 ≤ sb.inodes.toNat
  zones : sb.zones.toNat = o.wantedBlocks
  width : ∃ w, sb.nameWidth = .ok w ∧ w.toNat = o.wantedWidth
  inodeMap : sb.inodeMapBlocks.toNat = (o.wantedInodes + 1) ⌈/⌉ 8192
  zoneMap : sb.zoneMapBlocks.toNat = o.wantedBlocks ⌈/⌉ 8192
  table : sb.inodeTableBlocks.toNat = o.wantedInodes ⌈/⌉ 32
  first : sb.firstDataZone.toNat = 2 + (o.wantedInodes + 1) ⌈/⌉ 8192
    + o.wantedBlocks ⌈/⌉ 8192 + o.wantedInodes ⌈/⌉ 32
  log : sb.logZoneSize = 0
  inode_lt : sb.inodes.toNat < 8192 * sb.inodeMapBlocks.toNat
  inode_reach :
    Bitmap.reach sb.inodeMapBlocks.toUInt64 sb.inodes.toUInt64 = sb.inodes.toUInt64
  zone_lt : sb.dataZones.toNat < 8192 * sb.zoneMapBlocks.toNat
  zone_reach : Bitmap.reach sb.zoneMapBlocks.toUInt64 sb.dataZones = sb.dataZones
  zoneMapStart : sb.zoneMapStart.toNat = 2 + sb.inodeMapBlocks.toNat
  tableStart :
    sb.inodeTableStart.toNat = (sb.zoneMapStart.toNat + sb.zoneMapBlocks.toNat) * 1024
  tableEnd : sb.inodeTableStart.toNat + sb.inodeTableBlocks.toNat * 1024
    = (sb.zoneOffset sb.firstDataZone.toUInt64).toNat
  record : ∀ n : UInt64, 1 ≤ n.toNat → n.toNat ≤ sb.inodes.toNat →
    ∃ off, Inode.offset sb.inodeTableStart n = .ok off ∧
      sb.inodeTableStart.toNat ≤ off.toNat ∧
      off.toNat + 32 ≤ sb.inodeTableStart.toNat + sb.inodeTableBlocks.toNat * 1024
  first_lt : sb.firstDataZone.toNat < sb.zones.toNat

section Completed

variable (o : FormatOptions)

theorem toNat_completed_blocks : o.completed.blocks.toNat = o.wantedBlocks := by
  simp only [completed, wantedBlocks]
  split <;> rfl

theorem toNat_completed_inodes : o.completed.inodes.toNat = o.wantedInodes := by
  have blocks := o.toNat_completed_blocks
  simp only [completed] at blocks
  simp only [completed, wantedInodes]
  split
  · rw [toNat_defaultInodes, blocks, Nat.ceilDiv_eq_add_pred_div, Nat.add_sub_assoc (by decide)]
  · rfl

theorem toNat_completed_width : o.completed.nameWidth.toNat = o.wantedWidth := by
  simp only [completed, wantedWidth]
  split <;> rfl

theorem nameWidth_of_magic {width : UInt64} {magic : UInt16} (h : magic? width = some magic)
    {sb : Superblock} (known : sb.magic = magic) : sb.nameWidth = .ok width := by
  unfold magic? at h
  split at h
  next short =>
      cases h
      rw [Superblock.nameWidth, if_pos known, short]
  next =>
      split at h
      next long =>
          cases h
          rw [Superblock.nameWidth, known, long]
          rfl
      next => cases h

theorem magic_isSome_iff (width : UInt64) :
    (∃ magic, magic? width = some magic) ↔ width.toNat = 14 ∨ width.toNat = 30 := by
  have short : width = 14 ↔ width.toNat = 14 := UInt64.toNat_inj.symm
  have long : width = 30 ↔ width.toNat = 30 := UInt64.toNat_inj.symm
  rw [← short, ← long]
  clear short long
  unfold magic?
  split
  next short => simp [short]
  next short =>
      split
      next long => simp [long]
      next long => simp [short, long]

theorem feasible_iff : o.Feasible ↔
    (∃ magic, magic? o.completed.nameWidth = some magic) ∧ o.completed.blocks.toNat < 65536 ∧
      o.completed.inodes.toNat < 65536 ∧
      2 + (o.completed.inodes.toNat + 8192) / 8192 + (o.completed.blocks.toNat + 8191) / 8192
        + (o.completed.inodes.toNat + 31) / 32 < o.completed.blocks.toNat := by
  rw [magic_isSome_iff, toNat_completed_width, toNat_completed_blocks, toNat_completed_inodes,
    Feasible, Nat.ceilDiv_eq_add_pred_div, Nat.ceilDiv_eq_add_pred_div,
    Nat.ceilDiv_eq_add_pred_div]
  constructor
  · rintro ⟨width, blocks, inodes, room⟩
    exact ⟨width, by omega, by omega, by omega⟩
  · rintro ⟨width, blocks, inodes, room⟩
    exact ⟨width, by omega, by omega, by omega⟩

end Completed

theorem layout_of_feasible {o : FormatOptions} (h : o.Feasible) : ∃ sb, o.layout = .ok sb := by
  obtain ⟨⟨magic, known⟩, blocks, inodes, room⟩ := o.feasible_iff.mp h
  have first := toNat_first blocks inodes
  have most : maxBlocks.toNat = 65535 := rfl
  have most' : maxInodes.toNat = 65535 := rfl
  refine ⟨plan o.completed magic, ?_⟩
  simp only [layout, known]
  rw [if_neg (by rw [UInt64.lt_iff_toNat_lt]; omega),
    if_neg (by rw [UInt64.lt_iff_toNat_lt]; omega),
    if_neg (by rw [UInt64.le_iff_toNat_le]; omega)]
  rfl

theorem feasible_of_layout {o : FormatOptions} {sb : Superblock} (h : o.layout = .ok sb) :
    o.Feasible := by
  obtain ⟨magic, known, blocks, inodes, wide, -⟩ := layout_eq_ok h
  rw [toNat_first blocks inodes] at wide
  exact o.feasible_iff.mpr ⟨⟨magic, known⟩, blocks, inodes, wide⟩

theorem usage_of_layout {o : FormatOptions} {t : Stop} (h : o.layout = .error t) :
    ∃ e, t = .error e ∧ e.kinds = [.usage] := by
  simp only [layout] at h
  repeat' split at h
  all_goals cases h
  all_goals exact ⟨_, rfl, rfl⟩

theorem planned_of_layout {o : FormatOptions} {sb : Superblock} (h : o.layout = .ok sb) :
    Planned o sb := by
  have accepted := accepted_of_layout h
  have fits := accepted.fits (Nat.le_refl _) (Nat.lt_of_lt_of_le
    (Nat.mul_lt_mul_of_pos_right sb.zones.toNat_lt (by decide)) (by decide))
  obtain ⟨magic, known, blocks, inodes, -, eq⟩ := layout_eq_ok h
  have inodes_eq : sb.inodes.toNat = o.wantedInodes := by
    rw [eq, ← o.toNat_completed_inodes]
    exact toNat_toUInt16 inodes
  have zones_eq : sb.zones.toNat = o.wantedBlocks := by
    rw [eq, ← o.toNat_completed_blocks]
    exact toNat_toUInt16 blocks
  have inode_lt := fits.inodes_lt
  have zone_lt := fits.dataZones_lt
  have table := sb.toNat_inodeTableBlocks
  have first := accepted.first
  have tableEnd : sb.inodeTableStart.toNat + sb.inodeTableBlocks.toNat * 1024
      = (sb.zoneOffset sb.firstDataZone.toUInt64).toNat := by
    have lt := sb.firstDataZone.toNat_lt
    rw [Superblock.toNat_inodeTableStart, Superblock.tablePlace, table,
      accepted.toNat_zoneOffset (by rw [UInt16.toNat_toUInt64]; exact lt), UInt16.toNat_toUInt64]
    omega
  have ceil₁ : (o.wantedInodes + 1) ⌈/⌉ 8192 = (sb.inodes.toNat + 8192) / 8192 := by
    rw [inodes_eq, Nat.ceilDiv_eq_add_pred_div, Nat.add_right_comm, Nat.add_sub_cancel]
  have ceil₂ : o.wantedBlocks ⌈/⌉ 8192 = (sb.zones.toNat + 8191) / 8192 := by
    rw [zones_eq, Nat.ceilDiv_eq_add_pred_div, Nat.add_sub_assoc (by decide)]
  have ceil₃ : o.wantedInodes ⌈/⌉ 32 = (sb.inodes.toNat + 31) / 32 := by
    rw [inodes_eq, Nat.ceilDiv_eq_add_pred_div, Nat.add_sub_assoc (by decide)]
  refine ⟨inodes_eq, accepted.inodes_pos, zones_eq, ?_, accepted.inodeMap.trans ceil₁.symm,
    accepted.zoneMap.trans ceil₂.symm, table.trans ceil₃.symm, ?_, accepted.log, inode_lt, ?_,
    zone_lt, ?_, sb.toNat_zoneMapStart, ?_, tableEnd, ?_, accepted.first_lt⟩
  · exact ⟨_, nameWidth_of_magic known (by rw [eq]; rfl), o.toNat_completed_width⟩
  · rw [first, accepted.inodeMap, accepted.zoneMap, ceil₁, ceil₂, ceil₃]
  · exact Bitmap.reach_eq (by rw [UInt16.toNat_toUInt64]; exact sb.inodeMapBlocks.toNat_lt)
      (by rw [UInt16.toNat_toUInt64, UInt16.toNat_toUInt64]; exact inode_lt)
  · exact Bitmap.reach_eq (by rw [UInt16.toNat_toUInt64]; exact sb.zoneMapBlocks.toNat_lt)
      (by rw [UInt16.toNat_toUInt64]; exact zone_lt)
  · rw [Superblock.toNat_inodeTableStart, Superblock.tablePlace, sb.toNat_zoneMapStart]
    omega
  · intro n pos le
    obtain ⟨off, offset, place, -⟩ := Inode.offset_eq fits ⟨pos, le⟩
    rw [Superblock.recordPlace] at place
    rw [Superblock.toNat_inodeTableStart, table]
    exact ⟨off, offset, by omega, by omega⟩

theorem layout_exact (o : FormatOptions) :
    if o.Feasible then ∃ sb, o.layout = .ok sb ∧ Planned o sb
    else ∃ e, o.layout = .error (.error e) ∧ e.kinds = [.usage] := by
  split
  next feasible =>
      obtain ⟨sb, layout⟩ := layout_of_feasible feasible
      exact ⟨sb, layout, planned_of_layout layout⟩
  next infeasible =>
      cases layout : o.layout with
      | ok sb => exact absurd (feasible_of_layout layout) infeasible
      | error t =>
          obtain ⟨e, rfl, kinds⟩ := usage_of_layout layout
          exact ⟨e, rfl, kinds⟩

end FormatOptions

end MinixVolume

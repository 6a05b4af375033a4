import MinixVolume.Volume

namespace MinixVolume

structure Report where
  superblock : Superblock
  inodeMapBlock : UInt64
  zoneMapBlock : UInt64
  inodeTableOffset : UInt64
  inodeTableBlocks : UInt64
  zoneSize : UInt64
  dataZones : UInt64
  nameWidth : UInt64
  freeInodes : UInt64
  freeZones : UInt64
deriving DecidableEq, Repr

namespace Report

def mapping (title : String) (fields : List (String × Nat)) : String :=
  title ++ ":\n" ++ String.join
    (fields.map fun f => "  " ++ f.1 ++ ": " ++ Text.decimal f.2 ++ "\n")

def text (r : Report) : String :=
  let sb := r.superblock
  mapping "superblock"
      [("ninodes", sb.inodes.toNat), ("nzones", sb.zones.toNat),
       ("imap_blocks", sb.inodeMapBlocks.toNat), ("zmap_blocks", sb.zoneMapBlocks.toNat),
       ("first_data_zone", sb.firstDataZone.toNat), ("log_zone_size", sb.logZoneSize.toNat),
       ("max_size", sb.maxSize.toNat), ("magic", sb.magic.toNat), ("state", sb.state.toNat)]
    ++ mapping "geometry"
      [("inode_map_block", r.inodeMapBlock.toNat), ("zone_map_block", r.zoneMapBlock.toNat),
       ("inode_table_offset", r.inodeTableOffset.toNat),
       ("inode_table_blocks", r.inodeTableBlocks.toNat), ("zone_size", r.zoneSize.toNat),
       ("data_zones", r.dataZones.toNat), ("name_width", r.nameWidth.toNat)]
    ++ mapping "usage"
      [("free_inodes", r.freeInodes.toNat), ("free_zones", r.freeZones.toNat)]

def partLength : Nat := 123

end Report

namespace Volume

variable {δ : Type} [Disk δ]

def report (v : Volume) : MountM δ Report := do
  let sb := v.superblock
  let inodeMap ← sb.loadInodeMap
  let zoneMap ← sb.loadZoneMap
  let freeInodes ← liftExcept inodeMap.freeCount
  let freeZones ← liftExcept zoneMap.freeCount
  return {
    superblock := sb
    inodeMapBlock := sb.inodeMapStart
    zoneMapBlock := sb.zoneMapStart
    inodeTableOffset := sb.inodeTableStart
    inodeTableBlocks := sb.inodeTableBlocks
    zoneSize := sb.zoneSize
    dataZones := sb.dataZones
    nameWidth := v.nameWidth
    freeInodes := freeInodes
    freeZones := freeZones }

def info (v : Volume) : MountM δ Unit := do
  let r ← v.report
  Mount.wrapping .report
    (((Bytes.ofString r.text).parts Report.partLength).forM fun p => Mount.put (Buffer.ofBytes p))

end Volume

end MinixVolume

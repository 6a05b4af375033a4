import MinixVolume.Layout
import MinixVolume.Bitmap
import MinixVolume.Record

namespace MinixVolume

namespace Format

def dot : Bytes := [0x2e]

def dotDot : Bytes := [0x2e, 0x2e]

def newDirectory (self parent : UInt64) : List Entry :=
  [⟨self, dot⟩, ⟨parent, dotDot⟩]

def freshMap (start blocks max : UInt64) : Except Stop Bitmap := do
  let bm ← Bitmap.ofData start blocks max (Buffer.zeros (blocks * blockSize).toNat)
  let bm ← bm.set 0
  let bm ← bm.set 1
  let next := bm.max.toNat + 1
  Bitmap.setFrom next ((blocks * bitsPerBlock).toNat - next) bm

def rootMode : UInt16 := Inode.directoryType ||| 0o755

variable {δ : Type} [Disk δ]

def clearBlocks (start count : UInt64) : MountM δ Unit :=
  if count = 0 then return
  else Mount.writeAt (start * blockSize) (Buffer.zeros (count * blockSize).toNat)

def rootInode (sb : Superblock) (width : UInt64) (modified : UInt32) : Inode :=
  { mode := rootMode
    links := 2
    modified := modified
    size := (2 * Entry.slotSize width).toUInt32
    zone := Inode.oneZone sb.firstDataZone }

/-- Writes a fresh volume. All blocks up to the root directory are overwritten, and those behind it
are left as they are. -/
def run (options : FormatOptions) : MountM δ Superblock := do
  let sb ← liftExcept options.layout
  let blocks ← Mount.blockCount
  if blocks < sb.zones.toUInt64 then Mount.fail (.imageTooSmall blocks sb.zones)
  let width ← liftExcept sb.nameWidth
  Mount.trace (.formatted sb)
  let rootZone := sb.firstDataZone.toUInt64
  Mount.wrapping .clearing (clearBlocks 0 (rootZone + 1))
  sb.store
  let inodeMap ← liftExcept
    (freshMap sb.inodeMapStart sb.inodeMapBlocks.toUInt64 sb.inodes.toUInt64)
  inodeMap.store
  let zoneMap ← liftExcept (freshMap sb.zoneMapStart sb.zoneMapBlocks.toUInt64 sb.dataZones)
  zoneMap.store
  let block ← liftExcept (Entry.block (newDirectory Inode.root Inode.root) width sb.zoneSize)
  Mount.wrapping (.during .write .rootDirectory) (Mount.writeAt (sb.zoneOffset rootZone) block)
  Inode.store sb.inodeTableStart Inode.root (rootInode sb width options.modified)
  return sb

end Format

end MinixVolume

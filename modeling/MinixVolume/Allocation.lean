import MinixVolume.Bitmap

namespace MinixVolume

namespace Bitmap

variable {δ : Type}

def search (bm : Bitmap) : MountM δ (Option UInt64) := do
  match ← liftExcept bm.findFree with
  | none => return none
  | some (n, byte) =>
      Mount.trace (.foundFree bm.start n byte)
      return some n

def claim [Disk δ] (bm : Bitmap) : MountM δ (Option UInt64) := do
  match ← bm.search with
  | none => return none
  | some n =>
      let bm ← liftExcept (bm.set n)
      bm.store
      return some n

def release [Disk δ] (bm : Bitmap) (n : UInt64) : MountM δ Unit := do
  let bm ← liftExcept (bm.clear n)
  bm.store

end Bitmap

namespace Superblock

variable {δ : Type} [Disk δ]

def loadInodeMap (sb : Superblock) : MountM δ Bitmap :=
  Bitmap.load sb.inodeMapStart sb.inodeMapBlocks.toUInt64 sb.inodes.toUInt64

def loadZoneMap (sb : Superblock) : MountM δ Bitmap :=
  Bitmap.load sb.zoneMapStart sb.zoneMapBlocks.toUInt64 sb.dataZones

def allocateInode (sb : Superblock) : MountM δ UInt64 := do
  let bm ← sb.loadInodeMap
  match ← bm.claim with
  | none => Mount.fail (.noFreeInode bm.max)
  | some n =>
      Mount.trace (.allocatedInode n)
      return n

def allocateZone (sb : Superblock) : MountM δ UInt64 := do
  let bm ← sb.loadZoneMap
  match ← bm.claim with
  | none => Mount.fail (.noFreeZone bm.max)
  | some n =>
      let z := n + sb.firstDataZone.toUInt64 - 1
      Mount.trace (.allocatedZone n z)
      return z

def freeInode (sb : Superblock) (number : UInt64) : MountM δ Unit := do
  if number = 0 then throw (.panic .freeingNullInode)
  (← sb.loadInodeMap).release number

def freeZone (sb : Superblock) (z : UInt64) : MountM δ Unit := do
  if z < sb.firstDataZone.toUInt64 then throw (.panic .freeingReservedZone)
  (← sb.loadZoneMap).release (z - sb.firstDataZone.toUInt64 + 1)

end Superblock

end MinixVolume

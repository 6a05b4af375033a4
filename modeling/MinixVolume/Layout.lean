import MinixVolume.Superblock

namespace MinixVolume

structure FormatOptions where
  blocks : UInt64 := 0
  /-- A third of the blocks, rounded up to a full block of inodes, if zero. -/
  inodes : UInt64 := 0
  nameWidth : UInt64 := 0
  modified : UInt32 := 0
deriving DecidableEq, Repr

namespace FormatOptions

def defaultBlocks : UInt64 := 1440

def maxBlocks : UInt64 := 0xffff

def maxInodes : UInt64 := 0xffff

def defaultInodes (blocks : UInt64) : UInt64 :=
  Word.smaller maxInodes
    (Word.quotientUp (blocks / 3) Superblock.inodesPerBlock * Superblock.inodesPerBlock)

def completed (o : FormatOptions) : FormatOptions :=
  let blocks := if o.blocks = 0 then defaultBlocks else o.blocks
  { o with
    blocks := blocks
    inodes := if o.inodes = 0 then defaultInodes blocks else o.inodes
    nameWidth := if o.nameWidth = 0 then 14 else o.nameWidth }

def magic? (width : UInt64) : Option UInt16 :=
  if width = 14 then some Superblock.shortNameMagic
  else if width = 30 then some Superblock.longNameMagic
  else none

/-- The largest file that seven direct zones, one indirect zone and one doubly indirect zone of
1024 bytes can hold. -/
def maxFileSize : UInt32 := (7 + 512 + 512 * 512) * 1024

def layout (options : FormatOptions) : Except Stop Superblock :=
  let o := options.completed
  match magic? o.nameWidth with
  | none => .error (.error (.badNameWidth o.nameWidth))
  | some magic =>
      if maxBlocks < o.blocks then .error (.error (.tooManyBlocks o.blocks))
      else if maxInodes < o.inodes then .error (.error (.tooManyInodes o.inodes))
      else
        let inodeMap := Word.quotientUp (o.inodes + 1) bitsPerBlock
        let zoneMap := Word.quotientUp o.blocks bitsPerBlock
        let table := Word.quotientUp o.inodes Superblock.inodesPerBlock
        let firstDataZone := 2 + inodeMap + zoneMap + table
        if o.blocks ≤ firstDataZone then .error (.error (.tooFewBlocks o.blocks o.inodes))
        else .ok {
          inodes := o.inodes.toUInt16
          zones := o.blocks.toUInt16
          inodeMapBlocks := inodeMap.toUInt16
          zoneMapBlocks := zoneMap.toUInt16
          firstDataZone := firstDataZone.toUInt16
          logZoneSize := 0
          maxSize := maxFileSize
          magic := magic
          state := 1 }

end FormatOptions

end MinixVolume

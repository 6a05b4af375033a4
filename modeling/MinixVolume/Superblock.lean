import MinixVolume.Word

namespace MinixVolume

structure Superblock where
  inodes : UInt16 := 0
  zones : UInt16 := 0
  inodeMapBlocks : UInt16 := 0
  zoneMapBlocks : UInt16 := 0
  firstDataZone : UInt16 := 0
  logZoneSize : UInt16 := 0
  maxSize : UInt32 := 0
  magic : UInt16 := 0
  state : UInt16 := 0
deriving DecidableEq, Repr, Inhabited

namespace Superblock

def block : UInt64 := 1

def recordSize : Nat := 20

def shortNameMagic : UInt16 := 0x137f

def longNameMagic : UInt16 := 0x138f

def encode (sb : Superblock) : Bytes :=
  Bytes.ofWord16 sb.inodes ++ Bytes.ofWord16 sb.zones ++ Bytes.ofWord16 sb.inodeMapBlocks
    ++ Bytes.ofWord16 sb.zoneMapBlocks ++ Bytes.ofWord16 sb.firstDataZone
    ++ Bytes.ofWord16 sb.logZoneSize ++ Bytes.ofWord32 sb.maxSize ++ Bytes.ofWord16 sb.magic
    ++ Bytes.ofWord16 sb.state

def ofRecord (b : Bytes) : Superblock where
  inodes := b.word16At 0
  zones := b.word16At 2
  inodeMapBlocks := b.word16At 4
  zoneMapBlocks := b.word16At 6
  firstDataZone := b.word16At 8
  logZoneSize := b.word16At 10
  maxSize := b.word32At 12
  magic := b.word16At 16
  state := b.word16At 18

def decode (b : Buffer) : Except Stop Superblock :=
  if b.size < recordSize then .error (.error (.shortSuperblock b.size))
  else .ok (ofRecord (Buffer.toBytes (b.extract 0 recordSize)))

theorem length_encode (sb : Superblock) : sb.encode.length = recordSize := rfl

def nameWidth (sb : Superblock) : Except Stop UInt64 :=
  if sb.magic = shortNameMagic then .ok 14
  else if sb.magic = longNameMagic then .ok 30
  else .error (.error (.unknownMagic sb.magic))

def inodeMapStart (_ : Superblock) : UInt64 := 2

def zoneMapStart (sb : Superblock) : UInt64 :=
  sb.inodeMapStart + sb.inodeMapBlocks.toUInt64

def inodeTableStart (sb : Superblock) : UInt64 :=
  (sb.zoneMapStart + sb.zoneMapBlocks.toUInt64) * blockSize

def inodesPerBlock : UInt64 := 32

def inodeTableBlocks (sb : Superblock) : UInt64 :=
  Word.quotientUp sb.inodes.toUInt64 inodesPerBlock

/-- The bytes of one zone; zero when the exponent is so large that no bit is left. -/
def zoneSize (sb : Superblock) : UInt64 :=
  Word.shiftUp blockSize sb.logZoneSize.toNat

def zoneOffset (sb : Superblock) (z : UInt64) : UInt64 :=
  Word.shiftUp z sb.logZoneSize.toNat * blockSize

/-- How many zones hold file data; also the highest number of the zone map in use. -/
def dataZones (sb : Superblock) : UInt64 :=
  if sb.zones < sb.firstDataZone then 0
  else sb.zones.toUInt64 - sb.firstDataZone.toUInt64

def summary (sb : Superblock) : String :=
  s!"ninodes {sb.inodes} nzones {sb.zones} imap {sb.inodeMapBlocks} zmap {sb.zoneMapBlocks}"
    ++ s!" firstdatazone {sb.firstDataZone} logzone {sb.logZoneSize} maxsize {sb.maxSize}"
    ++ " magic 0x" ++ Text.hex sb.magic.toNat ++ s!" state {sb.state}"

end Superblock

end MinixVolume

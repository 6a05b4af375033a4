import MinixVolume.Word

namespace MinixVolume

/-- The field `zone` holds zone numbers, where 0 marks an unused place. -/
structure Inode where
  mode : UInt16 := 0
  owner : UInt16 := 0
  size : UInt32 := 0
  modified : UInt32 := 0
  group : UInt8 := 0
  links : UInt8 := 0
  zone : Vector UInt16 9 := Vector.replicate 9 0
deriving DecidableEq, Repr

namespace Inode

instance : Inhabited Inode := ⟨{}⟩

def recordSize : Nat := 32

def root : UInt64 := 1

def oneZone (z : UInt16) : Vector UInt16 9 :=
  (Vector.replicate 9 0).set 0 z

def encode (ip : Inode) : Bytes :=
  Bytes.ofWord16 ip.mode ++ Bytes.ofWord16 ip.owner ++ Bytes.ofWord32 ip.size
    ++ Bytes.ofWord32 ip.modified ++ [ip.group, ip.links]
    ++ ip.zone.toList.flatMap Bytes.ofWord16

def ofRecord (b : Bytes) : Inode where
  mode := b.word16At 0
  owner := b.word16At 2
  size := b.word32At 4
  modified := b.word32At 8
  group := b.byteAt 12
  links := b.byteAt 13
  zone := Vector.ofFn fun i => b.word16At (14 + 2 * i.val)

def decode (b : Buffer) : Except Stop Inode :=
  if b.size ≠ recordSize then .error (.error (.inodeLength b.size))
  else .ok (ofRecord (Buffer.toBytes b))

def offset (tableStart number : UInt64) : Except Stop UInt64 :=
  if number = 0 then .error (.panic .nullInode)
  else .ok (tableStart + (number - 1) * 32)

def typeMask : UInt16 := 0xf000

def regularType : UInt16 := 0x8000

def directoryType : UInt16 := 0x4000

def isDirectory (ip : Inode) : Bool :=
  ip.mode &&& typeMask == directoryType

def isRegular (ip : Inode) : Bool :=
  ip.mode &&& typeMask == regularType

def zones (ip : Inode) : List UInt64 :=
  (ip.zone.toList.filter (· ≠ 0)).map UInt16.toUInt64

def typeLetters : List Char :=
  ['?', 'p', 'c', '?', 'd', '?', 'b', '?', '-', '?', 'l', '?', 's', '?', '?', '?']

/-- Read, write and execute of one class of users. A special bit shows in the place of execute, as a
capital where execute is off. -/
def permissionLetters (bits : UInt16) (special : Bool) (mark capital : Char) : List Char :=
  let execute := bits &&& 1 ≠ 0
  [if bits &&& 4 ≠ 0 then 'r' else '-',
   if bits &&& 2 ≠ 0 then 'w' else '-',
   if special then (if execute then mark else capital) else (if execute then 'x' else '-')]

def modeLetters (ip : Inode) : String :=
  let m := ip.mode
  String.ofList (typeLetters.getD (m >>> 12).toNat '?' ::
    (permissionLetters (m >>> 6) (m &&& 0x800 ≠ 0) 's' 'S'
      ++ permissionLetters (m >>> 3) (m &&& 0x400 ≠ 0) 's' 'S'
      ++ permissionLetters m (m &&& 0x200 ≠ 0) 't' 'T'))

end Inode

end MinixVolume

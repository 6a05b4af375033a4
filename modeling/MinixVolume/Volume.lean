import MinixVolume.Allocation
import MinixVolume.Directory
import MinixVolume.Content
import MinixVolume.Format

namespace MinixVolume

/-- The superblock and the root inode are read once, bitmaps and all other inodes by each operation
that needs them. -/
structure Volume where
  superblock : Superblock
  nameWidth : UInt64
  clock : Int64 := 0
  color : Bool := false

namespace Volume

variable {δ : Type} [Disk δ]

def openDisk (clock : Int64) (color : Bool) : MountM δ Volume := do
  let sb ← Superblock.load
  let width ← liftExcept sb.nameWidth
  let root ← Mount.wrapping (.during .read .rootInode) (Inode.load sb.inodeTableStart Inode.root)
  Mount.modifyDirectory fun _ => root
  Mount.trace (.opened sb width)
  return ⟨sb, width, clock, color⟩

def timestamp (v : Volume) : UInt32 :=
  v.clock.toUInt64.toUInt32

def loadInode (v : Volume) (number : UInt64) : MountM δ Inode :=
  Inode.load v.superblock.inodeTableStart number

def storeInode (v : Volume) (number : UInt64) (ip : Inode) : MountM δ Unit :=
  Inode.store v.superblock.inodeTableStart number ip

def highlighted (name : Bytes) : Bytes :=
  Bytes.ofString "\x1b[34;1m" ++ name ++ Bytes.ofString "\x1b[0;22m"

def shortLine (name : Bytes) : Bytes :=
  name ++ [0x0a]

def longLine (v : Volume) (ip : Inode) (name : Bytes) : Bytes :=
  Bytes.ofString (ip.modeLetters ++ " " ++ Text.decimalPadded 3 ip.links.toNat ++ " "
      ++ Text.decimalPadded 8 ip.size.toNat ++ " ")
    ++ (if ip.isDirectory && v.color then highlighted name else name) ++ [0x0a]

def listEntries (v : Volume) (long : Bool) : List Entry → MountM δ Unit
  | [] => return
  | e :: rest => do
      if long then
        let ip ← v.loadInode e.inode
        Mount.put (Buffer.ofBytes (v.longLine ip e.name))
      else
        Mount.put (Buffer.ofBytes (shortLine e.name))
      v.listEntries long rest

def ls (v : Volume) (long : Bool) : MountM δ Unit := do
  let entries ← Directory.list v.superblock (← get).directory v.nameWidth
  v.listEntries long entries

def lookup (v : Volume) (ip : Inode) (name : Bytes) : MountM δ UInt64 := do
  match ← Directory.lookup v.superblock ip name v.nameWidth with
  | some number => return number
  | none => Mount.fail (.noSuchName name)

def follow (v : Volume) : Inode → List Bytes → MountM δ Inode
  | ip, [] => return ip
  | ip, name :: rest => do
      let number ← v.lookup ip name
      let next ← v.loadInode number
      if rest ≠ [] && !next.isDirectory then Mount.fail (.notDirectory name)
      v.follow next rest

def resolve (v : Volume) (path : Bytes) : MountM δ Inode := do
  let names := Bytes.pieces 0x2f path
  if 2 < names.length then Mount.fail (.pathTooDeep path)
  v.follow (← get).directory names

def cat (v : Volume) (path : Bytes) : MountM δ Unit := do
  let ip ← v.resolve path
  let content ← Content.read v.superblock ip
  Mount.put content

end Volume

end MinixVolume

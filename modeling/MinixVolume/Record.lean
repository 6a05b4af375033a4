import MinixVolume.Mount

namespace MinixVolume

variable {δ : Type} [Disk δ]

namespace Superblock

def load : MountM δ Superblock := do
  let b ← Mount.wrapping (.during .read .superblock) (Mount.readBlock Superblock.block)
  liftExcept (decode b)

/-- Writes the header and leaves the rest of its block alone. -/
def store (sb : Superblock) : MountM δ Unit :=
  Mount.wrapping (.during .write .superblock)
    (Mount.writeAt (Superblock.block * blockSize) (Buffer.ofBytes sb.encode))

end Superblock

namespace Inode

def load (tableStart number : UInt64) : MountM δ Inode := do
  let off ← liftExcept (offset tableStart number)
  let b ← Mount.wrapping (.during .read (.inode number)) (Mount.readAt off 32)
  Mount.trace (.readInode number (Buffer.toBytes b))
  liftExcept (decode b)

def store (tableStart number : UInt64) (ip : Inode) : MountM δ Unit := do
  let off ← liftExcept (offset tableStart number)
  Mount.wrapping (.during .write (.inode number)) (Mount.writeAt off (Buffer.ofBytes ip.encode))
  Mount.trace (.wroteInode number ip)

end Inode

end MinixVolume

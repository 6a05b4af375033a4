import MinixVolume.Record

namespace MinixVolume

namespace Content

variable {δ : Type} [Disk δ]

def gather (sb : Superblock) (size : UInt64) (got : Buffer) : List UInt64 → MountM δ Buffer
  | [] => return got
  | z :: rest =>
      let filled := UInt64.ofNat got.size
      if size ≤ filled then return got
      else do
        let b ← Mount.wrapping (.during .read (.zone z))
          (Mount.readAt (sb.zoneOffset z) (Word.smaller sb.zoneSize (size - filled)))
        gather sb size (got ++ b) rest

def read (sb : Superblock) (ip : Inode) : MountM δ Buffer :=
  gather sb ip.size.toUInt64 .empty ip.zones

end Content

end MinixVolume

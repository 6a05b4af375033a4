import MinixVolume.Disk

namespace MinixVolume

structure MemoryDisk where
  image : Buffer

namespace MemoryDisk

def blank (blocks : UInt64) : Except Stop MemoryDisk := do
  let bytes := blocks * blockSize
  Word.checkAllocation bytes
  return ⟨Buffer.zeros bytes.toNat⟩

def imageSize (d : MemoryDisk) : UInt64 :=
  UInt64.ofNat d.image.size

def read (off n : UInt64) (d : MemoryDisk) : Except Stop Buffer := do
  checkBounds .read off n d.imageSize
  Word.checkAllocation n
  return d.image.extract off.toNat (off.toNat + n.toNat)

def write (off : UInt64) (data : Buffer) (d : MemoryDisk) : Except Stop Unit × MemoryDisk :=
  match checkData off data d.imageSize with
  | .error e => (.error e, d)
  | .ok _ => (.ok (), ⟨d.image.splice off.toNat data⟩)

instance : Disk MemoryDisk where
  read off n := ExceptT.mk fun d => (d.read off n, d)
  write off data := ExceptT.mk fun d => d.write off data
  size := ExceptT.mk fun d => (.ok d.imageSize, d)
  barrier := pure ()
  close := pure ()
  traced _ := false

end MemoryDisk

end MinixVolume

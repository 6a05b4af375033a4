import MinixVolume.Disk.Memory
import MinixVolume.Disk.Paged
import MinixVolume.Disk.File

namespace MinixVolume

def PagedDisk.load (files : FileTree) (path : Bytes) : Except Stop PagedDisk :=
  match files.openFile path with
  | .ok (_, content) => .ok (PagedDisk.ofImage content.toBuffer)
  | .error .isDirectory =>
      .error (.error (.loading path (.during .read (.file path) (.host .isDirectory))))
  | .error e => .error (.error (.loading path (.opening path (.host e))))

inductive Device where
  | memory (d : MemoryDisk)
  | paged (d : PagedDisk)
  | file (h : FileHandle)

structure HostedDisk where
  files : FileTree
  device : Device

namespace HostedDisk

variable {α : Type}

def dispatch (memory : ExceptT Stop (StateM MemoryDisk) α)
    (paged : ExceptT Stop (StateM PagedDisk) α) (file : ExceptT Stop (StateM FileDisk) α) :
    ExceptT Stop (StateM HostedDisk) α :=
  ExceptT.mk fun
    | ⟨files, .memory d⟩ =>
        let (r, d) := memory.run d
        (r, ⟨files, .memory d⟩)
    | ⟨files, .paged d⟩ =>
        let (r, d) := paged.run d
        (r, ⟨files, .paged d⟩)
    | ⟨files, .file h⟩ =>
        let (r, d) := file.run ⟨files, h, []⟩
        (r, ⟨d.files, .file d.handle⟩)

instance : Disk HostedDisk where
  read off n := dispatch (Disk.read off n) (Disk.read off n) (Disk.read off n)
  write off data := dispatch (Disk.write off data) (Disk.write off data) (Disk.write off data)
  size := dispatch Disk.size Disk.size Disk.size
  barrier := dispatch Disk.barrier Disk.barrier Disk.barrier
  close := dispatch Disk.close Disk.close Disk.close
  traced d :=
    match d.device with
    | .file _ => true
    | _ => false

def image? (d : HostedDisk) : Option Buffer :=
  match d.device with
  | .memory m => some m.image
  | .paged p => p.image?
  | .file h => (d.files.content? h.path).map HostFile.toBuffer

end HostedDisk

end MinixVolume

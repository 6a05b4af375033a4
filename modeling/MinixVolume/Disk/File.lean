import MinixVolume.Disk
import MinixVolume.FileTree

namespace MinixVolume

structure FileHandle where
  path : List Bytes
  size : UInt64
  isOpen : Bool := true

structure FileDisk where
  files : FileTree
  handle : FileHandle
  /-- The most bytes the host moves in each of its next calls; past the end of the list it moves
  all that is asked for. At least one byte is moved. -/
  portions : List Nat := []

namespace FileDisk

def openExisting (files : FileTree) (path : Bytes) : Except Stop FileDisk :=
  match files.openFile path with
  | .error e => .error (.error (.opening path (.host e)))
  | .ok (p, content) => .ok ⟨files, ⟨p, UInt64.ofNat content.size, true⟩, []⟩

/-- Opens the file, or makes it, and gives it the size of `blocks` blocks. The file is there
afterwards even if it cannot be resized. -/
def create (files : FileTree) (path : Bytes) (blocks : UInt64) : Except Stop FileDisk × FileTree :=
  match files.createFile path with
  | .error e => (.error (.error (.opening path (.host e))), files)
  | .ok (p, content, files) =>
      let want := blocks * blockSize
      if files.isSink p || content.size = want.toNat then
        (.ok ⟨files, ⟨p, want, true⟩, []⟩, files)
      else
        match files.resize p content want.toInt64.toInt with
        | .error e => (.error (.error (.truncating path want (.host e))), files)
        | .ok files => (.ok ⟨files, ⟨p, want, true⟩, []⟩, files)

def portion (portions : List Nat) (n : Nat) : Nat :=
  match portions with
  | [] => n
  | p :: _ => min n (max p 1)

theorem portion_pos (portions : List Nat) {n : Nat} (h : n ≠ 0) : 0 < portion portions n := by
  unfold portion
  split <;> omega

/-- Collects `n` bytes from `pos` on behind those already `got`; where the file ends too early, the
answer is the place of its end. -/
def readFrom (content : HostFile) (pos n : Nat) (got : Buffer) (portions : List Nat) :
    Except Nat Buffer × List Nat :=
  if n = 0 then (.ok got, portions)
  else
    let m := min (portion portions n) (content.size - pos)
    if m = 0 then (.error pos, portions.tail)
    else readFrom content (pos + m) (n - m) (got ++ content.read pos m) portions.tail
termination_by n

def writeFrom (content : HostFile) (off : Nat) (data : Buffer) (done : Nat) (portions : List Nat) :
    HostFile × List Nat :=
  if data.size ≤ done then (content, portions)
  else
    let m := portion portions (data.size - done)
    writeFrom (content.write (off + done) (data.extract done (done + m))) off data (done + m)
      portions.tail
termination_by data.size - done
decreasing_by
  have : data.size - done ≠ 0 := by omega
  have := portion_pos portions this
  omega

def placeLimit : Nat := 0x8000000000000000

/-- The content of the file, for a transfer of `n` bytes at `off`. A place that cannot be named is
refused even if the file is closed. -/
def content (d : FileDisk) (off n : Nat) : Except HostError HostFile :=
  if placeLimit ≤ off then .error .invalidArgument
  else if !d.handle.isOpen then .error .badDescriptor
  else if placeLimit ≤ off + n then .error .invalidArgument
  else
    match d.files.content? d.handle.path with
    | none => .error .badDescriptor
    | some content => .ok content

def read (off n : UInt64) (d : FileDisk) : Except Stop Buffer × FileDisk :=
  match checkBounds .read off n d.handle.size *> Word.checkAllocation n with
  | .error e => (.error e, d)
  | .ok _ =>
      if n = 0 then (.ok .empty, d)
      else
        match d.content off.toNat n.toNat with
        | .error e => (.error (.error (.during .read (.offset off) (.host e))), d)
        | .ok content =>
            let (r, portions) := readFrom content off.toNat n.toNat .empty d.portions
            let d := { d with portions := portions }
            match r with
            | .ok b => (.ok b, d)
            | .error pos => (.error (.error (.outOfBounds .read off n (UInt64.ofNat pos))), d)

def write (off : UInt64) (data : Buffer) (d : FileDisk) : Except Stop Unit × FileDisk :=
  match checkData off data d.handle.size with
  | .error e => (.error e, d)
  | .ok _ =>
      if data.size = 0 then (.ok (), d)
      else
        match d.content off.toNat data.size with
        | .error e => (.error (.error (.during .write (.offset off) (.host e))), d)
        | .ok content =>
            let (content, portions) := writeFrom content off.toNat data 0 d.portions
            (.ok (), ⟨d.files.store d.handle.path content, d.handle, portions⟩)

/-- A device without content cannot make it durable. -/
def barrier (d : FileDisk) : Except Stop Unit :=
  if !d.handle.isOpen then .error (.error (.syncing (.host .badDescriptor)))
  else if d.files.isSink d.handle.path then .error (.error (.syncing (.host .invalidArgument)))
  else .ok ()

def close (d : FileDisk) : Except Stop Unit × FileDisk :=
  if d.handle.isOpen then (.ok (), { d with handle := { d.handle with isOpen := false } })
  else (.error (.error (.closing (.host .badDescriptor))), d)

instance : Disk FileDisk where
  read off n := ExceptT.mk fun d => d.read off n
  write off data := ExceptT.mk fun d => d.write off data
  size := ExceptT.mk fun d => (.ok d.handle.size, d)
  barrier := ExceptT.mk fun d => (d.barrier, d)
  close := ExceptT.mk fun d => d.close
  traced _ := true

end FileDisk

end MinixVolume

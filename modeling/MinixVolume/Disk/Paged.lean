import MinixVolume.Disk

namespace MinixVolume

def pageSize : Nat := 4096

structure PagedDisk where
  pages : Array Buffer
  size : UInt64

namespace PagedDisk

def blankPages (count : Nat) : Array Buffer :=
  Array.replicate count (Buffer.zeros pageSize)

/-- A disk of `size` bytes, which may be more than the pages hold. -/
def blank (pages size : UInt64) : Except Stop PagedDisk :=
  if Word.largestBuffer.toNat < pages.toNat * pageSize then .error (.panic .allocation)
  else .ok ⟨blankPages pages.toNat, size⟩

def loadPage (pages : Array Buffer) (page : Nat) : Except Stop Buffer :=
  match pages[page]? with
  | some b => .ok b
  | none => .error (.panic (.missingPage .read (UInt64.ofNat page)))

def storePage (pages : Array Buffer) (page : Nat) (b : Buffer) :
    Except Stop Unit × Array Buffer :=
  if page < pages.size then (.ok (), pages.set! page b)
  else (.error (.panic (.missingPage .write (UInt64.ofNat page))), pages)

def share (pos n : Nat) : Nat :=
  min (pageSize - pos % pageSize) n

theorem share_pos (pos : Nat) {n : Nat} (h : n ≠ 0) : 0 < share pos n := by
  have := Nat.mod_lt pos (show 0 < pageSize by decide)
  simp only [share]
  omega

def readFrom (pages : Array Buffer) (pos n : Nat) (got : Buffer) : Except Stop Buffer :=
  if n = 0 then .ok got
  else
    match loadPage pages (pos / pageSize) with
    | .error e => .error e
    | .ok b =>
        let start := pos % pageSize
        let m := share pos n
        readFrom pages (pos + m) (n - m) (got ++ b.extract start (start + m))
termination_by n
decreasing_by
  have := share_pos pos ‹_›
  omega

/-- Stores `data` from its byte `done` on at `pos`. Pages stored before a stop stay stored. -/
def writeFrom (pages : Array Buffer) (pos : Nat) (data : Buffer) (done : Nat) :
    Except Stop Unit × Array Buffer :=
  if data.size ≤ done then (.ok (), pages)
  else
    let m := share pos (data.size - done)
    let old := if m = pageSize then .ok (Buffer.zeros pageSize) else loadPage pages (pos / pageSize)
    match old with
    | .error e => (.error e, pages)
    | .ok b =>
        let patched := b.splice (pos % pageSize) (data.extract done (done + m))
        match storePage pages (pos / pageSize) patched with
        | (.error e, pages) => (.error e, pages)
        | (.ok _, pages) => writeFrom pages (pos + m) data (done + m)
termination_by data.size - done
decreasing_by
  have : data.size - done ≠ 0 := by omega
  have := share_pos pos this
  omega

def read (off n : UInt64) (d : PagedDisk) : Except Stop Buffer := do
  checkBounds .read off n d.size
  Word.checkAllocation n
  readFrom d.pages off.toNat n.toNat .empty

def write (off : UInt64) (data : Buffer) : PagedDisk → Except Stop Unit × PagedDisk
  | ⟨pages, size⟩ =>
      match checkData off data size with
      | .error e => (.error e, ⟨pages, size⟩)
      | .ok _ =>
          let (r, pages) := writeFrom pages off.toNat data 0
          (r, ⟨pages, size⟩)

instance : Disk PagedDisk where
  read off n := ExceptT.mk fun d => (d.read off n, d)
  write off data := ExceptT.mk fun d => d.write off data
  size := ExceptT.mk fun d => (.ok d.size, d)
  barrier := pure ()
  close := pure ()
  traced _ := false

/-- A copy of `image` in just enough pages. What is in memory already has the size of a buffer, and
so have the pages: the largest buffer is a whole number of them, and `blank` would not refuse. -/
def ofImage (image : Buffer) : PagedDisk :=
  let size := UInt64.ofNat image.size
  let pages := blankPages (Word.quotientUp size (UInt64.ofNat pageSize)).toNat
  (PagedDisk.write 0 image ⟨pages, size⟩).2

def image? (d : PagedDisk) : Option Buffer :=
  if d.pages.size * pageSize < d.size.toNat then none
  else (readFrom d.pages 0 d.size.toNat .empty).toOption

end PagedDisk

end MinixVolume

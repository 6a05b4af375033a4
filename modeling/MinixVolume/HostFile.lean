import MinixVolume.Bytes

namespace MinixVolume

structure HostFile where
  size : Nat := 0
  /-- The newest first, each with the place of its first byte; none goes beyond the size. -/
  writes : List (Nat × Buffer) := []

namespace HostFile

def ofBuffer (b : Buffer) : HostFile :=
  ⟨b.size, [(0, b)]⟩

def write (f : HostFile) (off : Nat) (data : Buffer) : HostFile :=
  ⟨max f.size (off + data.size), (off, data) :: f.writes⟩

def resize (f : HostFile) (n : Nat) : HostFile :=
  if n < f.size then ⟨n, f.writes.map fun w => (w.1, w.2.extract 0 (n - w.1))⟩
  else ⟨n, f.writes⟩

def lay (pos : Nat) (w : Nat × Buffer) (b : Buffer) : Buffer :=
  let start := max w.1 pos
  let stop := min (w.1 + w.2.size) (pos + b.size)
  if start < stop then b.splice (start - pos) (w.2.extract (start - w.1) (stop - w.1)) else b

def read (f : HostFile) (pos n : Nat) : Buffer :=
  f.writes.foldr (lay pos) (Buffer.zeros n)

def toBuffer (f : HostFile) : Buffer :=
  f.read 0 f.size

def byteOf (w : Nat × Buffer) (i : Nat) : Option UInt8 :=
  if w.1 ≤ i then w.2.data[i - w.1]? else none

def byteAt (f : HostFile) (i : Nat) : UInt8 :=
  (f.writes.findSome? fun w => byteOf w i).getD 0

theorem byteAt_write (f : HostFile) (off : Nat) (data : Buffer) (i : Nat) :
    (f.write off data).byteAt i = (byteOf (off, data) i).getD (f.byteAt i) := by
  simp only [byteAt, write, List.findSome?_cons]
  cases byteOf (off, data) i with
  | none => rfl
  | some b => rfl

theorem size_lay (pos : Nat) (w : Nat × Buffer) (b : Buffer) : (lay pos w b).size = b.size := by
  simp only [lay]
  split
  · simp only [← ByteArray.size_data, Buffer.data_splice, Array.size_append, Array.size_extract,
      ByteArray.data_extract]
    simp only [ByteArray.size_data] at *
    omega
  · rfl

theorem getElem?_lay (pos : Nat) (w : Nat × Buffer) {b : Buffer} {i : Nat} (h : i < b.size) :
    (lay pos w b).data[i]? = (byteOf w (pos + i)).or b.data[i]? := by
  have hb : b.data.size = b.size := ByteArray.size_data
  have hw : w.2.data.size = w.2.size := ByteArray.size_data
  simp only [lay, byteOf]
  split
  · simp only [Buffer.data_splice, ByteArray.data_extract, ByteArray.size_extract,
      Array.getElem?_append, Array.getElem?_extract, Array.size_append, Array.size_extract]
    grind
  · split
    · have outside : w.2.data[pos + i - w.1]? = none := Array.getElem?_eq_none (by omega)
      rw [outside]
      rfl
    · rfl

theorem size_read (f : HostFile) (pos n : Nat) : (f.read pos n).size = n := by
  rw [read]
  induction f.writes with
  | nil =>
      rw [List.foldr_nil, ← ByteArray.size_data, ← Array.length_toList]
      exact (congrArg List.length (Buffer.toBytes_zeros n)).trans List.length_replicate
  | cons w ws ih => rw [List.foldr_cons, size_lay, ih]

theorem getElem?_read (f : HostFile) (pos : Nat) {n i : Nat} (h : i < n) :
    (f.read pos n).data[i]? = some (f.byteAt (pos + i)) := by
  have size (ws : List (Nat × Buffer)) := size_read ⟨f.size, ws⟩ pos n
  simp only [read, byteAt] at size ⊢
  induction f.writes with
  | nil =>
      have := congrArg (fun l => l[i]?) (Buffer.toBytes_zeros n)
      simpa [Buffer.toBytes, h] using this
  | cons w ws ih =>
      rw [List.foldr_cons, getElem?_lay pos w (by rw [size]; exact h), ih, List.findSome?_cons]
      cases byteOf w (pos + i) with
      | none => rfl
      | some b => rfl

end HostFile

end MinixVolume

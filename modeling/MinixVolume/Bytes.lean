namespace MinixVolume

abbrev Bytes := List UInt8

namespace Bytes

def ofWord16 (w : UInt16) : Bytes :=
  [w.toUInt8, (w >>> 8).toUInt8]

def ofWord32 (w : UInt32) : Bytes :=
  [w.toUInt8, (w >>> 8).toUInt8, (w >>> 16).toUInt8, (w >>> 24).toUInt8]

def word16 (b₀ b₁ : UInt8) : UInt16 :=
  b₀.toUInt16 ||| b₁.toUInt16 <<< 8

def word32 (b₀ b₁ b₂ b₃ : UInt8) : UInt32 :=
  b₀.toUInt32 ||| b₁.toUInt32 <<< 8 ||| b₂.toUInt32 <<< 16 ||| b₃.toUInt32 <<< 24

def byteAt (b : Bytes) (i : Nat) : UInt8 :=
  b.getD i 0

def word16At (b : Bytes) (i : Nat) : UInt16 :=
  word16 (b.byteAt i) (b.byteAt (i + 1))

def word32At (b : Bytes) (i : Nat) : UInt32 :=
  word32 (b.byteAt i) (b.byteAt (i + 1)) (b.byteAt (i + 2)) (b.byteAt (i + 3))

/-- The bytes in front of the first NUL. -/
def trimmed (b : Bytes) : Bytes :=
  b.takeWhile (· ≠ 0)

theorem trimmed_eq_self {b : Bytes} (h : 0 ∉ b) : b.trimmed = b := by
  induction b with
  | nil => rfl
  | cons x b ih =>
      simp only [List.mem_cons, not_or] at h
      simp only [trimmed] at ih ⊢
      rw [List.takeWhile_cons, ih h.2]
      simp [Ne.symm h.1]

def pieces (separator : UInt8) : Bytes → List Bytes
  | [] => [[]]
  | c :: rest =>
      if c = separator then [] :: pieces separator rest
      else
        match pieces separator rest with
        | [] => [[c]]
        | p :: ps => (c :: p) :: ps

theorem length_pieces (separator : UInt8) (b : Bytes) :
    (b.pieces separator).length = b.count separator + 1 := by
  induction b with
  | nil => rfl
  | cons c b ih =>
      by_cases h : c = separator
      · simp [pieces, h, ih]
      · simp only [pieces, h, if_false, List.count_cons, beq_iff_eq]
        split
        · next hp => simp [hp] at ih
        · next hp => simpa [hp] using ih

def parts (n : Nat) (b : Bytes) : List Bytes :=
  if n = 0 ∨ b = [] then []
  else b.take n :: parts n (b.drop n)
termination_by b.length
decreasing_by
  rename_i h
  rw [not_or] at h
  have := List.length_pos_iff.mpr h.2
  rw [List.length_drop]
  omega

def ofString (s : String) : Bytes :=
  s.toUTF8.data.toList

end Bytes

abbrev Buffer := ByteArray

namespace Buffer

def ofBytes (b : Bytes) : Buffer :=
  ⟨b.toArray⟩

def toBytes (b : Buffer) : Bytes :=
  b.data.toList

@[simp] theorem toBytes_ofBytes (b : Bytes) : toBytes (ofBytes b) = b := rfl

def zeros (n : Nat) : Buffer :=
  if n = 0 then .empty
  else
    let half := zeros (n / 2)
    if n % 2 = 0 then half ++ half else (half ++ half).push 0

theorem toBytes_zeros (n : Nat) : toBytes (zeros n) = List.replicate n 0 := by
  induction n using Nat.strongRecOn with
  | ind n ih =>
      rw [zeros]
      split
      · next h => subst h; rfl
      · next h =>
          have half := ih (n / 2) (by omega)
          simp only [toBytes] at half
          split
          · next h2 =>
              simp only [toBytes, ByteArray.data_append, Array.toList_append, half,
                List.replicate_append_replicate]
              congr 1; omega
          · next h2 =>
              simp only [toBytes, ByteArray.data_push, ByteArray.data_append, Array.toList_push,
                Array.toList_append, half, List.replicate_append_replicate,
                ← List.replicate_succ']
              congr 1; omega

def splice (b : Buffer) (off : Nat) (data : Buffer) : Buffer :=
  data.copySlice 0 b off data.size

theorem data_splice (b : Buffer) (off : Nat) (data : Buffer) :
    (b.splice off data).data =
      b.data.extract 0 off ++ data.data ++ b.data.extract (off + data.size) := by
  simp [splice, ByteArray.copySlice, ← ByteArray.size_data]

def isZero (b : Buffer) : Bool :=
  b.data.all (· == 0)

end Buffer

end MinixVolume

import MinixVolume.Error

namespace MinixVolume

namespace Word

def quotientUp (n unit : UInt64) : UInt64 :=
  (n + unit - 1) / unit

theorem toNat_quotientUp {n unit : UInt64} (pos : 0 < unit.toNat)
    (lt : n.toNat + unit.toNat < UInt64.size) :
    (quotientUp n unit).toNat = (n.toNat + unit.toNat - 1) / unit.toNat := by
  have one : (1 : UInt64).toNat = 1 := rfl
  have sum : (n + unit).toNat = n.toNat + unit.toNat := by
    rw [UInt64.toNat_add]
    exact Nat.mod_eq_of_lt lt
  rw [quotientUp, UInt64.toNat_div, UInt64.toNat_sub_of_le, sum, one]
  rw [UInt64.le_iff_toNat_le, sum, one]
  omega

def roundUp (n unit : UInt64) : Except Stop UInt64 :=
  if unit = 0 then .error (.panic .divisionByZero) else .ok (quotientUp n unit)

def smaller (n m : UInt64) : UInt64 :=
  if n < m then n else m

def sumOverflows (n m : UInt64) : Bool :=
  n + m < n

theorem sumOverflows_iff (n m : UInt64) :
    sumOverflows n m = true ↔ UInt64.size ≤ n.toNat + m.toNat := by
  have hn := n.toNat_lt
  have hm := m.toNat_lt
  simp only [sumOverflows, decide_eq_true_eq, UInt64.lt_iff_toNat_lt, UInt64.toNat_add,
    UInt64.size]
  omega

/-- The word moved up by `bits` binary places; what leaves it is lost. -/
def shiftUp (n : UInt64) (bits : Nat) : UInt64 :=
  UInt64.ofNat (n.toNat <<< bits)

theorem toNat_shiftUp (n : UInt64) (bits : Nat) :
    (shiftUp n bits).toNat = n.toNat <<< bits % UInt64.size := by
  simp [shiftUp, UInt64.size]

def largestBuffer : UInt64 := 0x1000000000000

def checkAllocation (n : UInt64) : Except Stop Unit :=
  if largestBuffer < n then .error (.panic .allocation) else .ok ()

end Word

structure BitAddress where
  block : UInt64
  bit : UInt64
deriving DecidableEq, Repr

def blockSize : UInt64 := 1024

def bitsPerBlock : UInt64 := 8192

namespace BitAddress

@[inline] def ofIndex (start n : UInt64) : BitAddress :=
  ⟨start + n / bitsPerBlock, n % bitsPerBlock⟩

@[inline] def byteOffset (a : BitAddress) : UInt64 :=
  a.block * blockSize + a.bit / 8

@[inline] def mask (a : BitAddress) : UInt8 :=
  1 <<< (a.bit % 8).toUInt8

end BitAddress

end MinixVolume

import MinixVolume.Word

namespace MinixVolume

/-- Operations of a disk, from a state `δ` to the next. Whatever the answer, the new state is that
of the disk afterwards. -/
class Disk (δ : Type) where
  read (off n : UInt64) : ExceptT Stop (StateM δ) Buffer
  write (off : UInt64) (data : Buffer) : ExceptT Stop (StateM δ) Unit
  size : ExceptT Stop (StateM δ) UInt64
  barrier : ExceptT Stop (StateM δ) Unit
  close : ExceptT Stop (StateM δ) Unit
  traced (d : δ) : Bool

def checkBounds (op : Transfer) (off n size : UInt64) : Except Stop Unit :=
  if Word.sumOverflows off n || size < off + n then .error (.error (.outOfBounds op off n size))
  else .ok ()

theorem checkBounds_eq_ok_iff (op : Transfer) (off n size : UInt64) :
    checkBounds op off n size = .ok () ↔ off.toNat + n.toNat ≤ size.toNat := by
  have := off.toNat_lt
  have := n.toNat_lt
  have := size.toNat_lt
  have overflow := Word.sumOverflows_iff off n
  simp only [checkBounds, Bool.or_eq_true, overflow, decide_eq_true_eq, UInt64.lt_iff_toNat_lt,
    UInt64.toNat_add, UInt64.size]
  split <;> simp <;> omega

theorem checkBounds_eq (op : Transfer) (off n size : UInt64) :
    checkBounds op off n size =
      if off.toNat + n.toNat ≤ size.toNat then .ok ()
      else .error (.error (.outOfBounds op off n size)) := by
  have bounds := checkBounds_eq_ok_iff op off n size
  by_cases inside : off.toNat + n.toNat ≤ size.toNat
  · rw [if_pos inside, bounds.mpr inside]
  · rw [if_neg inside]
    unfold checkBounds at bounds ⊢
    split
    · rfl
    · next hc => exact absurd (bounds.mp (if_neg hc)) inside

/-- The same for data to be stored, which may be longer than a word can tell. -/
def checkData (off : UInt64) (data : Buffer) (size : UInt64) : Except Stop Unit :=
  if UInt64.size ≤ data.size then
    .error (.error (.outOfBounds .write off (UInt64.ofNat data.size) size))
  else checkBounds .write off (UInt64.ofNat data.size) size

theorem checkData_eq (off : UInt64) (data : Buffer) (size : UInt64) :
    checkData off data size =
      if off.toNat + data.size ≤ size.toNat then .ok ()
      else .error (.error (.outOfBounds .write off (UInt64.ofNat data.size) size)) := by
  have := size.toNat_lt
  rw [checkData]
  by_cases long : UInt64.size ≤ data.size
  · rw [if_pos long, if_neg (by simp only [UInt64.size] at long; omega)]
  · rw [if_neg long, checkBounds_eq, UInt64.toNat_ofNat_of_lt' (by omega)]

end MinixVolume

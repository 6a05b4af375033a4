import MinixVolume.Content
import MinixVolume.Proofs.Record

namespace MinixVolume

namespace Image

variable (sb : Superblock) (img : Buffer)

def gathered (size : Nat) (got : Buffer) : List UInt64 → Buffer
  | [] => got
  | z :: rest =>
      if size ≤ got.size then got
      else gathered size
        (got ++ (zone sb img z).window 0 (min sb.zoneSize.toNat (size - got.size))) rest

def content (ip : Inode) : Buffer :=
  gathered sb img ip.size.toNat .empty ip.zones

variable {sb img}

theorem gathered_congr {img' : Buffer} {zs : List UInt64}
    (same : ∀ z ∈ zs, zone sb img' z = zone sb img z) (size : Nat) (got : Buffer) :
    gathered sb img' size got zs = gathered sb img size got zs := by
  induction zs generalizing got with
  | nil => rfl
  | cons z zs ih =>
      have rest : ∀ z' ∈ zs, zone sb img' z' = zone sb img z' :=
        fun z' hz' => same z' (List.mem_cons_of_mem _ hz')
      rw [gathered, gathered, same z List.mem_cons_self]
      split
      · rfl
      · exact ih rest _

end Image

theorem Word.toNat_smaller (n m : UInt64) : (smaller n m).toNat = min n.toNat m.toNat := by
  rw [smaller]
  split
  · next lt =>
      rw [UInt64.lt_iff_toNat_lt] at lt
      omega
  · next ge =>
      rw [UInt64.lt_iff_toNat_lt] at ge
      omega

namespace Content

variable {δ : Type} [Disk δ] [ImageDisk δ] {m : Mount δ} {steady : Prop} {s : Scene}
  {sb : Superblock}

theorem ends_gather (h : m.Shows steady s) {zs : List UInt64}
    (inside : ∀ z ∈ zs, sb.zonePlace z + sb.zoneSize.toNat ≤ s.image.size) {size : UInt64}
    (small : size.toNat ≤ Word.largestBuffer.toNat) (got : Buffer) (le : got.size ≤ size.toNat) :
    Mount.Ends (gather sb size got zs) m
      (fun b m' => b = Image.gathered sb s.image size.toNat got zs ∧ m'.Shows steady s)
      (fun t m' => Mishap steady 0 t ∧ m'.Shows steady s) := by
  induction zs generalizing m got with
  | nil => exact Mount.Ends.pure ⟨rfl, h⟩
  | cons z zs ih =>
      have filled : (UInt64.ofNat got.size).toNat = got.size := Word.toNat_ofNat_of_le le
      rw [gather, Image.gathered]
      by_cases full : size ≤ UInt64.ofNat got.size
      · rw [if_pos full]
        rw [UInt64.le_iff_toNat_le, filled] at full
        rw [if_pos full]
        exact Mount.Ends.pure ⟨rfl, h⟩
      rw [if_neg full]
      have left : (size - UInt64.ofNat got.size).toNat = size.toNat - got.size := by
        rw [UInt64.toNat_sub_of_le _ _ (by rw [UInt64.le_iff_toNat_le, filled]; exact le), filled]
      rw [UInt64.le_iff_toNat_le, filled] at full
      rw [if_neg full]
      have length : (Word.smaller sb.zoneSize (size - UInt64.ofNat got.size)).toNat
          = min sb.zoneSize.toNat (size.toNat - got.size) := by
        rw [Word.toNat_smaller, left]
      have here := inside z List.mem_cons_self
      have read := Mount.ends_readAt h (sb.zoneOffset z)
        (Word.smaller sb.zoneSize (size - UInt64.ofNat got.size))
        (by rw [length]; change sb.zonePlace z + _ ≤ _; omega)
      refine Mount.Ends.next (Mount.ends_during (Mount.ends_small read (by omega))) ?_
      rintro b m₁ ⟨rfl, h₁⟩
      have part : s.image.window (sb.zoneOffset z).toNat
          (min sb.zoneSize.toNat (size.toNat - got.size))
          = (Image.zone sb s.image z).window 0
            (min sb.zoneSize.toNat (size.toNat - got.size)) := by
        rw [Image.zone, Buffer.window_window (by omega)]
        rfl
      rw [length, part]
      refine ih h₁ (fun z' hz' => inside z' (List.mem_cons_of_mem _ hz')) _ ?_
      rw [ByteArray.size_append, Buffer.size_window]
      · omega
      · rw [Image.zone, Buffer.size_window here]
        omega

theorem ends_read (h : m.Shows steady s) {ip : Inode}
    (inside : ∀ z ∈ ip.zones, sb.zonePlace z + sb.zoneSize.toNat ≤ s.image.size) :
    Mount.Ends (read sb ip) m
      (fun b m' => b = Image.content sb s.image ip ∧ m'.Shows steady s)
      (fun t m' => Mishap steady 0 t ∧ m'.Shows steady s) := by
  have size := UInt32.toNat_toUInt64 ip.size
  have lt := ip.size.toNat_lt
  have large : Word.largestBuffer.toNat = 0x1000000000000 := rfl
  have small : ip.size.toUInt64.toNat ≤ Word.largestBuffer.toNat := by omega
  have gather := ends_gather h inside small .empty (Nat.zero_le _)
  rw [size] at gather
  exact gather

end Content

end MinixVolume

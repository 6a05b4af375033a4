import MinixVolume.Allocation
import MinixVolume.Proofs.Image
import MinixVolume.Proofs.Scene

namespace MinixVolume

namespace Bitmap

theorem and_bitMask_eq_zero_iff (x : UInt8) (j : Nat) :
    x &&& Buffer.bitMask j = 0 ↔ x.toBitVec.getLsbD (j % 8) = false := by
  have hj : j % 8 < 8 := Nat.mod_lt _ (by decide)
  constructor
  · intro h
    have bit := congrArg (fun y : UInt8 => y.toBitVec.getLsbD (j % 8)) h
    simpa [Buffer.getLsbD_bitMask hj] using bit
  · intro h
    apply UInt8.toBitVec_inj.mp
    apply BitVec.eq_of_getLsbD_eq
    intro i hi
    rw [UInt8.toBitVec_and, BitVec.getLsbD_and, Buffer.getLsbD_bitMask hi]
    by_cases e : i = j % 8
    · rw [e, h]
      simp
    · simp [e]

theorem locate_eq (bm : Bitmap) (n : UInt64) :
    bm.locate n = (n / 8, Buffer.bitMask n.toNat) := by
  have hn := n.toNat_lt
  have hs := bm.start.toNat_lt
  unfold locate
  refine Prod.ext ?_ ?_
  · apply UInt64.toNat.inj
    simp only [BitAddress.ofIndex, BitAddress.byteOffset, blockSize, bitsPerBlock,
      UInt64.toNat_sub, UInt64.toNat_add, UInt64.toNat_mul, UInt64.toNat_div, UInt64.toNat_mod,
      UInt64.reduceToNat]
    omega
  · have low : (n % bitsPerBlock % 8).toUInt8 = UInt8.ofNat (n.toNat % 8) := by
      apply UInt8.toNat.inj
      simp only [bitsPerBlock, UInt64.toNat_toUInt8, UInt64.toNat_mod, UInt64.reduceToNat,
        UInt8.toNat_ofNat']
      omega
    change 1 <<< (n % bitsPerBlock % 8).toUInt8 = Buffer.bitMask n.toNat
    rw [low, Buffer.bitMask]

theorem byteAt_eq {bm : Bitmap} {i : UInt64} (h : i.toNat < bm.data.size) :
    bm.byteAt i = .ok (bm.data.data[i.toNat]?.getD 0) := by
  have hs : bm.data.data.size = bm.data.size := ByteArray.size_data
  rw [byteAt, dif_pos h, Array.getElem?_eq_getElem (by omega)]
  rfl

theorem byteAt_of_bit {bm : Bitmap} {n : UInt64} (h : n.toNat < 8 * bm.data.size) :
    bm.byteAt (n / 8) = .ok (bm.data.data[n.toNat / 8]?.getD 0) := by
  have index : (n / 8).toNat = n.toNat / 8 := by
    rw [UInt64.toNat_div]
    rfl
  rw [byteAt_eq (by omega), index]

theorem isSet_eq {bm : Bitmap} {n : UInt64} (h : n.toNat < 8 * bm.data.size) :
    bm.isSet n = .ok (bm.data.bit n.toNat) := by
  have mask := and_bitMask_eq_zero_iff (bm.data.data[n.toNat / 8]?.getD 0) n.toNat
  rw [isSet, locate_eq]
  simp only [byteAt_of_bit h, Except.map, Buffer.bit]
  cases hb : (bm.data.data[n.toNat / 8]?.getD 0).toBitVec.getLsbD (n.toNat % 8) with
  | true =>
      rw [hb] at mask
      simp only [Bool.true_eq_false, iff_false] at mask
      simp [mask]
  | false =>
      have e := mask.mpr hb
      simp [e]

theorem updateByte_eq {bm : Bitmap} {n : UInt64} (h : n.toNat < 8 * bm.data.size) (on : Bool) :
    bm.updateByte (fun b mask => Buffer.switched on mask b) n =
      .ok ⟨bm.start, bm.max, bm.data.setBit n.toNat on⟩ := by
  obtain ⟨start, max, data⟩ := bm
  have hs : data.data.size = data.size := ByteArray.size_data
  have index : (n / 8).toNat = n.toNat / 8 := by
    rw [UInt64.toNat_div]
    rfl
  have inside : (n / 8).toNat < data.size := by
    simp only at h
    omega
  rw [updateByte, locate_eq]
  simp only [dif_pos inside]
  congr 2
  apply Buffer.ext_getElem?
  intro k
  change (data.data.set (n / 8).toNat _ (by omega))[k]? = _
  rw [Array.getElem?_set, Buffer.setBit, Array.getElem?_modify, ← index]
  by_cases e : (n / 8).toNat = k
  · rw [if_pos e, if_pos e, ← e, Array.getElem?_eq_getElem (by omega), Option.map_some]
    rfl
  · rw [if_neg e, if_neg e]

theorem set_eq {bm : Bitmap} {n : UInt64} (h : n.toNat < 8 * bm.data.size) :
    bm.set n = .ok ⟨bm.start, bm.max, bm.data.setBit n.toNat true⟩ :=
  updateByte_eq h true

theorem clear_eq {bm : Bitmap} {n : UInt64} (h : n.toNat < 8 * bm.data.size) :
    bm.clear n = .ok ⟨bm.start, bm.max, bm.data.setBit n.toNat false⟩ :=
  updateByte_eq h false

def Found (bm : Bitmap) (n : Nat) : Option (Nat × UInt8) → Prop
  | none => ∀ k, n ≤ k → k ≤ bm.max.toNat → bm.data.bit k = true
  | some (k, _) => n ≤ k ∧ k ≤ bm.max.toNat ∧ bm.data.bit k = false ∧
      ∀ j, n ≤ j → j < k → bm.data.bit j = true

theorem Found.of_later {bm : Bitmap} {n n' : Nat} {r : Option (Nat × UInt8)}
    (h : bm.Found n' r) (le : n ≤ n') (full : ∀ k, n ≤ k → k < n' → bm.data.bit k = true) :
    bm.Found n r := by
  have all : ∀ k, n ≤ k → (n' ≤ k → bm.data.bit k = true) → bm.data.bit k = true := by
    intro k h₁ h₂
    by_cases hk : k < n'
    · exact full k h₁ hk
    · exact h₂ (by omega)
  cases r with
  | none => exact fun k h₁ h₂ => all k h₁ fun h₃ => h k h₃ h₂
  | some p =>
      obtain ⟨h₁, h₂, h₃, h₄⟩ := h
      exact ⟨by omega, h₂, h₃, fun j hj hk => all j hj fun h₅ => h₄ j h₅ hk⟩

theorem bit_eq_false_iff {bm : Bitmap} {n : Nat} :
    bm.data.bit n = false ↔ bm.data.data[n / 8]?.getD 0 &&& Buffer.bitMask n = 0 :=
  (and_bitMask_eq_zero_iff _ n).symm

theorem findFrom_found {bm : Bitmap} {n : Nat}
    (hm : n ≤ bm.max.toNat → bm.max.toNat < 8 * bm.data.size) :
    ∃ r, bm.findFrom n = .ok r ∧ bm.Found n r := by
  fun_induction findFrom bm n with
  | case1 n hn i mask hl e hb =>
      rw [locate_eq] at hl
      cases hl
      have word := Word.toNat_ofNat_of_le hn
      rw [byteAt_of_bit (by omega)] at hb
      cases hb
  | case2 n hn i mask hl hb ih =>
      rw [locate_eq] at hl
      cases hl
      have word := Word.toNat_ofNat_of_le hn
      rw [byteAt_of_bit (by omega), word] at hb
      obtain ⟨r, hr, found⟩ := ih fun _ => hm hn
      refine ⟨r, hr, found.of_later (by omega) ?_⟩
      -- every bit of the byte is set, so also those from `n` to its end
      intro k h₁ h₂
      have byte : bm.data.data[n / 8]?.getD 0 = 0xff := Except.ok.inj hb
      rw [Buffer.bit, show k / 8 = n / 8 by omega, byte]
      have hk : k % 8 < 8 := Nat.mod_lt _ (by decide)
      generalize k % 8 = j at hk
      revert j
      decide
  | case3 n hn i mask hl b hb ne clear =>
      rw [locate_eq] at hl
      cases hl
      have word := Word.toNat_ofNat_of_le hn
      rw [byteAt_of_bit (by omega), word] at hb
      rw [word, ← Except.ok.inj hb] at clear
      exact ⟨_, rfl, Nat.le_refl n, hn, bit_eq_false_iff.mpr clear, fun j h₁ h₂ => by omega⟩
  | case4 n hn i mask hl b hb ne used ih =>
      rw [locate_eq] at hl
      cases hl
      have word := Word.toNat_ofNat_of_le hn
      rw [byteAt_of_bit (by omega), word] at hb
      rw [word, ← Except.ok.inj hb, ← bit_eq_false_iff] at used
      obtain ⟨r, hr, found⟩ := ih fun _ => hm hn
      refine ⟨r, hr, found.of_later (by omega) ?_⟩
      intro k h₁ h₂
      rw [show k = n by omega]
      exact Bool.not_eq_false _ ▸ used
  | case5 n hn => exact ⟨none, rfl, fun k h₁ h₂ => by omega⟩

theorem countFrom_eq {bm : Bitmap} {n left : Nat} (words : n + left ≤ UInt64.size)
    (hm : 1 ≤ left → n + left ≤ 8 * bm.data.size) (count : Nat) :
    bm.countFrom n count left
      = .ok (count + (List.range' n left).countP fun k => !bm.data.bit k) := by
  induction left generalizing n count with
  | zero => rfl
  | succ left ih =>
      have inside := hm (by omega)
      have word : (UInt64.ofNat n).toNat = n := UInt64.toNat_ofNat_of_lt' (by omega)
      have set : bm.isSet (UInt64.ofNat n) = .ok (bm.data.bit n) := by
        rw [isSet_eq (by omega), word]
      simp only [countFrom, set]
      rw [ih (by omega) fun _ => by omega, List.range'_succ, List.countP_cons]
      cases bm.data.bit n with
      | true => simp
      | false => simp [Nat.add_assoc, Nat.add_comm 1]

theorem freeCount_eq {bm : Bitmap} (hm : 1 ≤ bm.max.toNat → bm.max.toNat < 8 * bm.data.size) :
    bm.freeCount
      = .ok (UInt64.ofNat ((List.range' 1 bm.max.toNat).countP fun k => !bm.data.bit k)) := by
  have lt := bm.max.toNat_lt
  rw [freeCount, countFrom_eq (by simp only [UInt64.size]; omega) (by omega), Nat.zero_add]
  rfl

variable {δ : Type} [Disk δ] [ImageDisk δ] {m : Mount δ} {steady : Prop} {s : Scene}

/-- The bitmap is what the image holds in the `n` bytes from `off` on, with a limit within them. -/
structure Covers (bm : Bitmap) (img : Buffer) (off n : Nat) : Prop where
  place : (bm.start * blockSize).toNat = off
  data : bm.data = img.window off n
  inside : off + n ≤ img.size
  max_lt : bm.max.toNat < 8 * n

theorem Covers.size {bm : Bitmap} {img : Buffer} {off n : Nat} (h : bm.Covers img off n) :
    bm.data.size = n := by
  rw [h.data, Buffer.size_window h.inside]

theorem toNat_blockBytes {blocks : UInt64} (hb : blocks.toNat < 65536) :
    (blocks * blockSize).toNat = 1024 * blocks.toNat := by
  rw [UInt64.toNat_mul]
  simp only [blockSize, UInt64.reduceToNat]
  omega

theorem toNat_blockBits {blocks : UInt64} (hb : blocks.toNat < 65536) :
    (blocks * bitsPerBlock).toNat = 8192 * blocks.toNat := by
  rw [UInt64.toNat_mul]
  simp only [bitsPerBlock, UInt64.reduceToNat]
  omega

@[simp] theorem reach_zero (max : UInt64) : reach 0 max = 0 := rfl

theorem reach_lt {blocks : UInt64} (hb : blocks.toNat < 65536) (pos : 0 < blocks.toNat)
    (max : UInt64) :
    (reach blocks max).toNat ≤ max.toNat ∧ (reach blocks max).toNat < 8192 * blocks.toNat := by
  have bits := toNat_blockBits hb
  have nonzero : blocks ≠ 0 := by
    rintro rfl
    exact absurd pos (Nat.lt_irrefl 0)
  rw [reach, if_neg nonzero]
  split
  · next far =>
      rw [UInt64.le_iff_toNat_le] at far
      have one : (1 : UInt64) ≤ blocks * bitsPerBlock := by
        rw [UInt64.le_iff_toNat_le, bits]
        change 1 ≤ _
        omega
      have last : (blocks * bitsPerBlock - 1).toNat = 8192 * blocks.toNat - 1 := by
        rw [UInt64.toNat_sub_of_le _ _ one, bits]
        rfl
      rw [last]
      omega
  · next near =>
      rw [UInt64.le_iff_toNat_le, bits] at near
      omega

theorem reach_eq {blocks max : UInt64} (hb : blocks.toNat < 65536)
    (hm : max.toNat < 8192 * blocks.toNat) : reach blocks max = max := by
  have bits := toNat_blockBits hb
  have nonzero : blocks ≠ 0 := by
    rintro rfl
    exact absurd hm (Nat.not_lt_zero _)
  rw [reach, if_neg nonzero, if_neg (by rw [UInt64.le_iff_toNat_le]; omega)]

theorem ofData_eq (start max : UInt64) {blocks : UInt64} (hb : blocks.toNat < 65536)
    {data : Buffer} (size : data.size = 1024 * blocks.toNat) :
    ofData start blocks max data = .ok ⟨start, reach blocks max, data⟩ := by
  have whole : UInt64.ofNat data.size = blocks * blockSize := by
    rw [size, ← toNat_blockBytes hb, UInt64.ofNat_toNat]
  rw [ofData, if_neg (not_not_intro whole)]

/-- The bytes of as many blocks, with a limit that they reach, if it is not 0. -/
structure Reaches (bm : Bitmap) (blocks : Nat) : Prop where
  size : bm.data.size = 1024 * blocks
  max : bm.max.toNat = 0 ∨ bm.max.toNat < 8192 * blocks

theorem reaches_reach (start max : UInt64) {blocks : UInt64} (hb : blocks.toNat < 65536)
    {data : Buffer} (size : data.size = 1024 * blocks.toNat) :
    Reaches ⟨start, reach blocks max, data⟩ blocks.toNat := by
  refine ⟨size, ?_⟩
  change (reach blocks max).toNat = 0 ∨ (reach blocks max).toNat < _
  rcases Nat.eq_zero_or_pos blocks.toNat with zero | pos
  · have none : blocks = 0 := UInt64.toNat.inj zero
    rw [none]
    exact .inl rfl
  · exact .inr (reach_lt hb pos max).2

theorem ends_load (h : m.Shows steady s) (start blocks max : UInt64) {off : Nat}
    (place : (start * blockSize).toNat = off) (hb : blocks.toNat < 65536)
    (inside : off + 1024 * blocks.toNat ≤ s.image.size) :
    Mount.Ends (load start blocks max) m
      (fun bm m' => bm.max = reach blocks max ∧
        (0 < blocks.toNat → bm.Covers s.image off (1024 * blocks.toNat)) ∧ m'.Shows steady s)
      (fun t m' => Mishap steady 0 t ∧ m'.Shows steady s) := by
  have length := toNat_blockBytes hb
  have small : (blocks * blockSize).toNat ≤ Word.largestBuffer.toNat := by
    rw [length]
    simp only [Word.largestBuffer, UInt64.reduceToNat]
    omega
  have read := Mount.ends_readAt h (start * blockSize) (blocks * blockSize) (by omega)
  refine Mount.Ends.next (Mount.ends_during (Mount.ends_small read small)) ?_
  rintro b m' ⟨rfl, h'⟩
  rw [place, length, ofData_eq start max hb (Buffer.size_window inside)]
  refine Mount.Ends.of_exec (Mount.exec_liftExcept _ m') ⟨rfl, fun pos => ?_, h'⟩
  have lt := (reach_lt hb pos max).2
  exact ⟨place, rfl, inside, show (reach blocks max).toNat < _ by omega⟩

theorem ends_store (h : m.Shows steady s) {bm : Bitmap} {off n : Nat}
    (hc : bm.Covers s.image off n) {k : Nat} (hk : k < 8 * n) (on : Bool) :
    Mount.Ends (store ⟨bm.start, bm.max, bm.data.setBit k on⟩) m
      (fun _ m' => m'.Shows steady { s with image := s.image.setBit (8 * off + k) on })
      (fun t m' => Mishap steady 0 t ∧ m'.Shows steady s) := by
  have size : (bm.data.setBit k on).size = n := by rw [Buffer.size_setBit, hc.size]
  have write := Mount.ends_writeAt h (bm.start * blockSize) (bm.data.setBit k on)
    (by rw [hc.place, size]; exact hc.inside)
  rw [hc.place, hc.data, Buffer.splice_setBit_window hc.inside hk, ← hc.data] at write
  exact Mount.ends_during write

structure Least (bit : Nat → Bool) (max n : Nat) : Prop where
  pos : 1 ≤ n
  le_max : n ≤ max
  free : bit n = false
  below : ∀ j, 1 ≤ j → j < n → bit j = true

def Full (bit : Nat → Bool) (max : Nat) : Prop :=
  ∀ j, 1 ≤ j → j ≤ max → bit j = true

theorem findFree_found {bm : Bitmap}
    (hm : 1 ≤ bm.max.toNat → bm.max.toNat < 8 * bm.data.size) :
    bm.findFree = .ok none ∧ Full bm.data.bit bm.max.toNat ∨
      ∃ n b, bm.findFree = .ok (some (n, b)) ∧ Least bm.data.bit bm.max.toNat n.toNat := by
  obtain ⟨r, hr, found⟩ := findFrom_found hm
  rw [findFree, hr]
  cases r with
  | none => exact .inl ⟨rfl, found⟩
  | some p =>
      obtain ⟨n, b⟩ := p
      obtain ⟨h₁, h₂, h₃, h₄⟩ := found
      have word := Word.toNat_ofNat_of_le h₂
      refine .inr ⟨UInt64.ofNat n, b, rfl, ?_⟩
      rw [word]
      exact ⟨h₁, h₂, h₃, h₄⟩

theorem ends_search (h : m.Shows steady s) {bm : Bitmap}
    (hm : bm.max.toNat < 8 * bm.data.size) {E : Stop → Mount δ → Prop} :
    Mount.Ends bm.search m
      (fun r m' => m'.Shows steady s ∧
        ((r = none ∧ Full bm.data.bit bm.max.toNat) ∨
          ∃ n, r = some n ∧ Least bm.data.bit bm.max.toNat n.toNat)) E := by
  unfold search
  rcases findFree_found fun _ => hm with ⟨e, full⟩ | ⟨n, b, e, least⟩
  · rw [e]
    exact Mount.Ends.of_exec rfl ⟨h, .inl ⟨rfl, full⟩⟩
  · rw [e]
    exact Mount.Ends.of_exec rfl ⟨h.log _, .inr ⟨n, rfl, least⟩⟩

theorem ends_claim (h : m.Shows steady s) {bm : Bitmap} {off n : Nat}
    (hc : bm.Covers s.image off n) :
    Mount.Ends bm.claim m
      (fun r m' =>
        (r = none ∧ Full (fun k => s.image.bit (8 * off + k)) bm.max.toNat ∧
          m'.Shows steady s) ∨
        ∃ k, r = some k ∧ Least (fun k => s.image.bit (8 * off + k)) bm.max.toNat k.toNat ∧
          m'.Shows steady { s with image := s.image.setBit (8 * off + k.toNat) true })
      (fun t m' => Mishap steady 0 t ∧ m'.Shows steady s) := by
  have max_lt := hc.max_lt
  have bits : ∀ k, k ≤ bm.max.toNat → bm.data.bit k = s.image.bit (8 * off + k) := by
    intro k hk
    rw [hc.data, Buffer.bit_window (by omega)]
  have search := ends_search h (by rw [hc.size]; exact hc.max_lt)
    (E := fun t m' => Mishap steady 0 t ∧ m'.Shows steady s)
  refine Mount.Ends.next search ?_
  rintro r m' ⟨h', ⟨rfl, full⟩ | ⟨k, rfl, least⟩⟩
  · refine Mount.Ends.pure (.inl ⟨rfl, ?_, h'⟩)
    intro j h₁ h₂
    exact (bits j h₂).symm.trans (full j h₁ h₂)
  · have le := least.le_max
    have shown : Least (fun k => s.image.bit (8 * off + k)) bm.max.toNat k.toNat := by
      refine ⟨least.pos, le, (bits _ le).symm.trans least.free, ?_⟩
      intro j h₁ h₂
      exact (bits j (by omega)).symm.trans (least.below j h₁ h₂)
    dsimp only
    rw [set_eq (by rw [hc.size]; omega)]
    apply Mount.Ends.ok_bind
    refine Mount.Ends.next (ends_store h' hc (by omega) true) ?_
    intro _ m₂ h₂
    exact Mount.Ends.pure (.inr ⟨k, rfl, shown, h₂⟩)

theorem ends_release (h : m.Shows steady s) {bm : Bitmap} {off n : Nat}
    (hc : bm.Covers s.image off n) {k : UInt64} (hk : k.toNat < 8 * n) :
    Mount.Ends (bm.release k) m
      (fun _ m' => m'.Shows steady { s with image := s.image.setBit (8 * off + k.toNat) false })
      (fun t m' => Mishap steady 0 t ∧ m'.Shows steady s) := by
  unfold release
  rw [clear_eq (by rw [hc.size]; exact hk)]
  apply Mount.Ends.ok_bind
  exact ends_store h hc hk false

end Bitmap

end MinixVolume

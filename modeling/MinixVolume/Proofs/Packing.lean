import MinixVolume.Proofs.Allocation
import MinixVolume.Proofs.Directory

namespace MinixVolume

namespace Image

theorem filter_used_eq {slot : Nat → Entry} {es : List Entry} {n : Nat} (room : es.length ≤ n)
    (used : ∀ k (h : k < es.length), slot k = es.get ⟨k, h⟩)
    (free : ∀ k, es.length ≤ k → k < n → (slot k).inode = 0) (nonzero : ∀ e ∈ es, e.inode ≠ 0) :
    ((List.range n).map slot).filter (·.inode ≠ 0) = es := by
  have split : List.range n = List.range es.length ++ List.range' es.length (n - es.length) := by
    rw [List.range_eq_range', List.range_eq_range', ← Nat.add_sub_cancel' room,
      ← List.range'_append_1, Nat.zero_add, Nat.add_sub_cancel_left]
  have front : (List.range es.length).map slot = es := by
    apply List.ext_getElem
    · rw [List.length_map, List.length_range]
    · intro k _ lt
      rw [List.getElem_map, List.getElem_range, used k lt]
      rfl
  rw [split, List.map_append, List.filter_append, front,
    List.filter_eq_self.mpr fun e he => decide_eq_true (nonzero e he)]
  refine (List.append_right_eq_self).mpr (List.filter_eq_nil_iff.mpr ?_)
  intro e he
  obtain ⟨k, hk, rfl⟩ := List.mem_map.mp he
  have range := List.mem_range'_1.mp hk
  rw [free k range.1 (by omega)]
  decide

structure Packed (sb : Superblock) (zone : Buffer) (es : List Entry) : Prop where
  size : zone.size = sb.zoneSize.toNat
  room : es.length ≤ sb.slots
  used : ∀ k (h : k < es.length), slotEntry sb zone k = es.get ⟨k, h⟩
  free : ∀ k, es.length ≤ k → k < sb.slots → (slotEntry sb zone k).inode = 0
  nonzero : ∀ e ∈ es, e.inode ≠ 0

namespace Packed

variable {sb : Superblock} {zone : Buffer} {es : List Entry} (h : Packed sb zone es)
include h

theorem used_nonzero {k : Nat} (lt : k < es.length) : (slotEntry sb zone k).inode ≠ 0 := by
  rw [h.used k lt]
  exact h.nonzero _ (List.get_mem es _)

theorem zoneEntries_eq : zoneEntries sb zone = es :=
  filter_used_eq h.room h.used h.free h.nonzero

theorem length_of_least {k : Nat} (lt : k < sb.slots) (free : (slotEntry sb zone k).inode = 0)
    (below : ∀ j, j < k → (slotEntry sb zone j).inode ≠ 0) : k = es.length := by
  rcases Nat.lt_trichotomy k es.length with less | eq | more
  · exact absurd free (h.used_nonzero less)
  · exact eq
  · exact absurd (h.free _ (Nat.le_refl _) (by omega)) (below _ more)

theorem not_occupied (lt : es.length < sb.slots) : ¬ Occupied sb zone :=
  fun occupied => occupied _ lt (h.free _ (Nat.le_refl _) lt)

theorem fill (lt : es.length < sb.slots) {data : Buffer} (length : data.size = sb.slotBytes)
    {e : Entry} (entry : Entry.ofSlot (Buffer.toBytes data) = e) (nonzero : e.inode ≠ 0) :
    Packed sb (zone.splice (es.length * sb.slotBytes) data) (es ++ [e]) := by
  have fits := Superblock.Fits.slotEnd_le sb lt
  have slot := slotEntry_splice h.size length lt
  have longer : (es ++ [e]).length = es.length + 1 := by simp
  refine ⟨?_, by omega, ?_, ?_, ?_⟩
  · rw [Buffer.size_splice (by rw [h.size, length]; exact fits)]
    exact h.size
  · intro k hk
    rw [slot]
    by_cases last : k = es.length
    · subst last
      rw [if_pos rfl, entry]
      simp
    · have before : k < es.length := by omega
      rw [if_neg last, h.used k before]
      simp [List.getElem_append_left before]
  · intro k hk below
    rw [slot, if_neg (by omega)]
    exact h.free k (by omega) below
  · intro e' he
    rcases List.mem_append.mp he with he | he
    · exact h.nonzero e' he
    · rw [List.mem_singleton.mp he]
      exact nonzero

theorem clear {k : Nat} (lt : k < sb.slots) (unused : (slotEntry sb zone k).inode = 0)
    {data : Buffer} (length : data.size = sb.slotBytes)
    (zero : (Entry.ofSlot (Buffer.toBytes data)).inode = 0) :
    Packed sb (zone.splice (k * sb.slotBytes) data) es := by
  have fits := Superblock.Fits.slotEnd_le sb lt
  have slot := slotEntry_splice h.size length lt
  refine ⟨?_, h.room, ?_, ?_, h.nonzero⟩
  · rw [Buffer.size_splice (by rw [h.size, length]; exact fits)]
    exact h.size
  · intro j hj
    rw [slot, if_neg]
    · exact h.used j hj
    · rintro rfl
      exact h.used_nonzero hj unused
  · intro j hj below
    rw [slot]
    split
    · exact zero
    · exact h.free j hj below

end Packed

theorem packed_newZone {sb : Superblock} (wide : 1024 ≤ sb.zoneSize.toNat) {number : UInt64}
    (pos : number ≠ 0) (lt : number.toNat < 65536) :
    Packed sb (newZone sb number) (Format.newDirectory number Inode.root) := by
  have slot := slotEntry_newZone wide lt
  refine ⟨size_newZone wide number, two_le_slots wide, ?_, ?_, ?_⟩
  · intro k hk
    rw [slot]
    match k, hk with
    | 0, _ => rfl
    | 1, _ => rfl
  · intro k hk _
    have two : 2 ≤ k := hk
    rw [slot, if_neg (by omega), if_neg (by omega)]
    exact slotEntry_zeros _ k
  · intro e he
    simp only [Format.newDirectory, List.mem_cons, List.not_mem_nil, or_false] at he
    rcases he with rfl | rfl
    · exact pos
    · exact (by decide : Inode.root ≠ 0)

end Image

namespace Bitmap

variable {bm : Bitmap} {last : Nat}
  (filled : ∀ k, 1 ≤ k → k ≤ bm.max.toNat → (bm.data.bit k = true ↔ k ≤ last))
  (inside : bm.max.toNat < 8 * bm.data.size)
include filled inside

theorem freeCount_filled (le : last ≤ bm.max.toNat) :
    bm.freeCount = .ok (UInt64.ofNat (bm.max.toNat - last)) := by
  have split : List.range' 1 bm.max.toNat
      = List.range' 1 last ++ List.range' (1 + last) (bm.max.toNat - last) := by
    rw [List.range'_append_1, Nat.add_sub_cancel' le]
  have front : (List.range' 1 last).countP (fun k => !bm.data.bit k) = 0 := by
    rw [List.countP_eq_zero]
    intro k hk
    have range := List.mem_range'_1.mp hk
    simp [(filled k range.1 (by omega)).mpr (by omega)]
  have rest : (List.range' (1 + last) (bm.max.toNat - last)).countP (fun k => !bm.data.bit k)
      = bm.max.toNat - last := by
    rw [List.countP_eq_length.mpr, List.length_range']
    intro k hk
    have range := List.mem_range'_1.mp hk
    have clear := mt (filled k (by omega) (by omega)).mp (by omega)
    simpa using clear
  rw [freeCount_eq fun _ => inside, split, List.countP_append, front, rest, Nat.zero_add]

end Bitmap

end MinixVolume

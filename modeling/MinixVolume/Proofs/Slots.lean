import MinixVolume.Proofs.Growth

namespace MinixVolume.Image

section

variable (sb : Superblock) (img : Buffer) (ip : Inode)

def slotsOf (zone : Buffer) : List Entry :=
  (List.range sb.slots).map (slotEntry sb zone)

def slotList : List Entry :=
  ip.zones.flatMap fun z => slotsOf sb (zone sb img z)

/-- The number of the first empty slot, or how many slots there are if none is empty. -/
def firstEmpty : Nat :=
  (slotList sb img ip).findIdx (·.inode == 0)

def SlotUsed (i : Nat) : Prop :=
  ∃ e, (slotList sb img ip)[i]? = some e ∧ e.inode ≠ 0

end

variable {sb : Superblock} {img img' : Buffer} {ip : Inode}

theorem length_slotsOf (zone : Buffer) : (slotsOf sb zone).length = sb.slots := by
  simp [slotsOf]

theorem length_flatMap_slotsOf (zones : List UInt64) :
    (zones.flatMap fun z => slotsOf sb (zone sb img z)).length = zones.length * sb.slots := by
  induction zones with
  | nil => simp
  | cons z zones ih => simp [ih, length_slotsOf, Nat.succ_mul, Nat.add_comm]

theorem length_slotList : (slotList sb img ip).length = ip.zones.length * sb.slots :=
  length_flatMap_slotsOf ip.zones

theorem filter_slotList : (slotList sb img ip).filter (·.inode ≠ 0) = entries sb img ip := by
  simp only [slotList, entries, List.filter_flatMap]
  rfl

theorem slotList_of_zones {ip' : Inode} (same : ip'.zones = ip.zones) :
    slotList sb img ip' = slotList sb img ip := by
  rw [slotList, slotList, same]

theorem slotUsed_of_zones {ip' : Inode} (same : ip'.zones = ip.zones) {i : Nat} :
    SlotUsed sb img ip' i ↔ SlotUsed sb img ip i := by
  rw [SlotUsed, SlotUsed, slotList_of_zones same]

theorem slotUsed_of_single {z : UInt64} (single : ip.zones = [z]) {i : Nat} :
    SlotUsed sb img ip i ↔ i < sb.slots ∧ (slotEntry sb (zone sb img z) i).inode ≠ 0 := by
  simp [SlotUsed, slotList, single, slotsOf, List.getElem?_eq_some_iff]

theorem SlotUsed.lt {i : Nat} (h : SlotUsed sb img ip i) : i < ip.zones.length * sb.slots := by
  obtain ⟨e, there, -⟩ := h
  rw [← @length_slotList sb img ip]
  exact (List.getElem?_eq_some_iff.mp there).1

theorem slotUsed_congr (same : ∀ z ∈ ip.zones,
    (slotsOf sb (zone sb img' z)).map (·.inode) = (slotsOf sb (zone sb img z)).map (·.inode))
    {i : Nat} : SlotUsed sb img' ip i ↔ SlotUsed sb img ip i := by
  have numbers : (slotList sb img' ip).map (·.inode) = (slotList sb img ip).map (·.inode) := by
    rw [slotList, slotList, List.map_flatMap, List.map_flatMap]
    exact List.flatMap_congr same
  have told (img : Buffer) : SlotUsed sb img ip i ↔
      ∃ n, ((slotList sb img ip).map (·.inode))[i]? = some n ∧ n ≠ 0 := by
    simp [SlotUsed]
  rw [told, told, numbers]

theorem mem_slotsOf {zone : Buffer} {e : Entry} :
    e ∈ slotsOf sb zone ↔ ∃ k, k < sb.slots ∧ slotEntry sb zone k = e := by
  simp [slotsOf]

theorem occupied_iff {zone : Buffer} :
    Occupied sb zone ↔ ∀ e ∈ slotsOf sb zone, e.inode ≠ 0 := by
  simp [Occupied, mem_slotsOf]

theorem forall_slotList_iff :
    (∀ e ∈ slotList sb img ip, e.inode ≠ 0) ↔
      ∀ z ∈ ip.zones, Occupied sb (zone sb img z) := by
  simp only [slotList, List.mem_flatMap, occupied_iff]
  exact ⟨fun h z hz e he => h e ⟨z, hz, he⟩, fun h e ⟨z, hz, he⟩ => h z hz e he⟩

theorem insertIdx_length {α : Type} (front back : List α) (a : α) :
    (front ++ back).insertIdx front.length a = front ++ a :: back := by
  induction front with
  | nil => rfl
  | cons b front ih =>
      simpa [List.insertIdx_succ_cons] using ih

structure Filled (before after : List Entry) (e : Entry) (i : Nat) : Prop where
  split : ∃ used free rest, before = used ++ free :: rest ∧ after = used ++ e :: rest ∧
    (∀ u ∈ used, u.inode ≠ 0) ∧ free.inode = 0 ∧ used.length = i

namespace Filled

variable {before after : List Entry} {e : Entry} {i : Nat} (h : Filled before after e i)
include h

theorem lt_length : i < before.length := by
  obtain ⟨used, free, rest, rfl, -, -, -, rfl⟩ := h.split
  simp

theorem findIdx_eq : before.findIdx (·.inode == 0) = i := by
  obtain ⟨used, free, rest, rfl, -, nonzero, zero, rfl⟩ := h.split
  have none : used.findIdx (·.inode == 0) = used.length :=
    List.findIdx_eq_length.mpr fun u hu => by simpa using nonzero u hu
  rw [List.findIdx_append, none, if_neg (Nat.lt_irrefl _), List.findIdx_cons, zero]
  simp

theorem set_eq : after = before.set i e := by
  obtain ⟨used, free, rest, rfl, rfl, -, -, rfl⟩ := h.split
  simp

theorem used_below {j : Nat} (lt : j < i) : ∃ x, before[j]? = some x ∧ x.inode ≠ 0 := by
  obtain ⟨used, free, rest, rfl, -, all, -, rfl⟩ := h.split
  refine ⟨used.get ⟨j, lt⟩, ?_, all _ (List.get_mem _ _)⟩
  simp [List.getElem?_append_left lt]

theorem not_used : ¬ ∃ x, before[i]? = some x ∧ x.inode ≠ 0 := by
  obtain ⟨used, free, rest, rfl, -, -, zero, rfl⟩ := h.split
  simp [zero]

theorem used_iff (nonzero : e.inode ≠ 0) {j : Nat} :
    (∃ x, after[j]? = some x ∧ x.inode ≠ 0) ↔
      j = i ∨ ∃ x, before[j]? = some x ∧ x.inode ≠ 0 := by
  have lt := h.lt_length
  rw [h.set_eq, List.getElem?_set]
  by_cases same : i = j
  · subst same
    simp [lt, nonzero]
  · simp [same, Ne.symm same]

theorem filter_split (nonzero : e.inode ≠ 0) :
    ∃ front back, before.filter (·.inode ≠ 0) = front ++ back ∧
      after.filter (·.inode ≠ 0) = front ++ e :: back ∧ front.length = i := by
  obtain ⟨used, free, rest, rfl, rfl, all, zero, rfl⟩ := h.split
  have front : used.filter (·.inode ≠ 0) = used :=
    List.filter_eq_self.mpr fun u hu => by simpa using all u hu
  refine ⟨used, rest.filter (·.inode ≠ 0), ?_, ?_, rfl⟩
  · rw [List.filter_append, front, List.filter_cons_of_neg (by simp [zero])]
  · rw [List.filter_append, front, List.filter_cons_of_pos (by simp [nonzero])]

theorem filter_eq (nonzero : e.inode ≠ 0) :
    after.filter (·.inode ≠ 0) = (before.filter (·.inode ≠ 0)).insertIdx i e := by
  obtain ⟨front, back, old, new, rfl⟩ := h.filter_split nonzero
  rw [old, new, insertIdx_length]

theorem append {front : List Entry} (used : ∀ u ∈ front, u.inode ≠ 0) (back : List Entry) :
    Filled (front ++ (before ++ back)) (front ++ (after ++ back)) e (front.length + i) := by
  obtain ⟨used', free, rest, rfl, rfl, all, zero, rfl⟩ := h.split
  refine ⟨front ++ used', free, rest ++ back, ?_, ?_, ?_, zero, List.length_append⟩
  · simp
  · simp
  · intro u hu
    rcases List.mem_append.mp hu with hu | hu
    · exact used u hu
    · exact all u hu

end Filled

theorem filled_slotsOf {zone data : Buffer} (size : zone.size = sb.zoneSize.toNat)
    (length : data.size = sb.slotBytes) {k : Nat} (hk : k < sb.slots)
    (free : (slotEntry sb zone k).inode = 0)
    (below : ∀ j, j < k → (slotEntry sb zone j).inode ≠ 0) :
    Filled (slotsOf sb zone) (slotsOf sb (zone.splice (k * sb.slotBytes) data))
      (Entry.ofSlot (Buffer.toBytes data)) k := by
  obtain ⟨behind, split, beyond⟩ : ∃ behind, List.range sb.slots = List.range k ++ k :: behind ∧
      k ∉ behind := by
    refine ⟨(List.range (sb.slots - (k + 1))).map (k + 1 + ·), ?_, by simp; omega⟩
    rw [List.append_cons, ← List.range_succ, ← List.range_add]
    congr 1
    omega
  have out : k ∉ List.range k := by simp
  refine ⟨(List.range k).map (slotEntry sb zone), slotEntry sb zone k,
    behind.map (slotEntry sb zone), ?_, ?_, ?_, free, by simp⟩
  · rw [slotsOf, split, List.map_append, List.map_cons]
  · rw [slotsOf, split, List.map_append, List.map_cons,
      map_slotEntry_splice size length hk out, map_slotEntry_splice size length hk beyond,
      slotEntry_splice size length hk, if_pos rfl]
  · intro u hu
    obtain ⟨j, hj, rfl⟩ := List.mem_map.mp hu
    exact below j (List.mem_range.mp hj)

theorem FirstSlot.filled {z : UInt64} {k : Nat} (first : FirstSlot sb img ip.zones z k)
    (once : ip.zones.Nodup) (size : (zone sb img z).size = sb.zoneSize.toNat) {data : Buffer}
    (length : data.size = sb.slotBytes)
    (there : zone sb img' z = (zone sb img z).splice (k * sb.slotBytes) data)
    (others : ∀ z' ∈ ip.zones, z' ≠ z → zone sb img' z' = zone sb img z') :
    ∃ i, ip.zones[i]? = some z ∧
      Filled (slotList sb img ip) (slotList sb img' ip) (Entry.ofSlot (Buffer.toBytes data))
        (i * sb.slots + k) := by
  obtain ⟨front, back, split, occupied⟩ := first.before
  have filled := filled_slotsOf size length first.lt first.free first.below
  rw [← there] at filled
  rw [split] at once others
  rw [List.nodup_append, List.nodup_cons] at once
  have same (zs : List UInt64) (part : ∀ z' ∈ zs, z' ∈ front ++ z :: back ∧ z' ≠ z) :
      zs.flatMap (fun z' => slotsOf sb (zone sb img' z'))
        = zs.flatMap (fun z' => slotsOf sb (zone sb img z')) := by
    apply List.flatMap_congr
    intro z' hz'
    rw [others z' (part z' hz').1 (part z' hz').2]
  have before := same front fun z' hz' =>
    ⟨List.mem_append_left _ hz', once.2.2 z' hz' z List.mem_cons_self⟩
  have behind := same back fun z' hz' =>
    ⟨List.mem_append_right _ (List.mem_cons_of_mem _ hz'), fun e => once.2.1.1 (e ▸ hz')⟩
  have used : ∀ u ∈ front.flatMap fun z' => slotsOf sb (zone sb img z'), u.inode ≠ 0 := by
    intro u hu
    obtain ⟨z', hz', mem⟩ := List.mem_flatMap.mp hu
    exact occupied_iff.mp (occupied z' hz') u mem
  refine ⟨front.length, by rw [split]; simp, ?_⟩
  have whole := filled.append used (back.flatMap fun z' => slotsOf sb (zone sb img z'))
  rw [length_flatMap_slotsOf] at whole
  rw [slotList, slotList, split, List.flatMap_append, List.flatMap_append, List.flatMap_cons,
    List.flatMap_cons, before, behind]
  exact whole

theorem FirstSlot.filled_entering {s : Scene} {c : Creation} {z : UInt64} {k : Nat}
    (first : FirstSlot sb s.image s.directory.zones z k) (fresh : c.Fresh sb s)
    (hf : sb.Fits s.image.size)
    (zones : ∀ z ∈ s.directory.zones, sb.IsDataZone z ∧ zoneUsed sb s.image z = true)
    (once : s.directory.zones.Nodup) (root : Option Inode) :
    ∃ i, s.directory.zones[i]? = some z ∧
      Filled (slotList sb s.image s.directory)
        (slotList sb (Update.applyAll sb s.image (c.entering sb z k root)) s.directory) c.entry
        (i * sb.slots + k) := by
  have filled := first.filled once (size_zone (hf.zoneEnd_le (zones z first.mem).1))
    (Entry.size_slotData fresh.writable.short)
    (fresh.slotZone_entering hf first.toFreeSlot zones root)
    fun z' hz' ne => fresh.otherZone_entering hf first.toFreeSlot zones root hz' ne
  rw [Entry.ofSlot_slotData fresh.writable] at filled
  exact filled

theorem FirstSlot.slotUsed_entering {s : Scene} {c : Creation} {z : UInt64} {k : Nat}
    (first : FirstSlot sb s.image s.directory.zones z k) (fresh : c.Fresh sb s)
    (hf : sb.Fits s.image.size)
    (zones : ∀ z ∈ s.directory.zones, sb.IsDataZone z ∧ zoneUsed sb s.image z = true)
    (once : s.directory.zones.Nodup) (root : Option Inode) :
    ∃ new, (∀ j, j < new → SlotUsed sb s.image s.directory j) ∧
      ¬ SlotUsed sb s.image s.directory new ∧
      ∀ j, SlotUsed sb (Update.applyAll sb s.image (c.entering sb z k root)) s.directory j ↔
        j = new ∨ SlotUsed sb s.image s.directory j := by
  obtain ⟨i, -, filled⟩ := first.filled_entering fresh hf zones once root
  exact ⟨_, fun _ lt => filled.used_below lt, filled.not_used,
    fun _ => filled.used_iff fresh.nonzero⟩

end MinixVolume.Image

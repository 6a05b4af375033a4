import Mathlib.Data.List.Basic
import MinixVolume.Format
import MinixVolume.Proofs.Record

namespace MinixVolume

theorem Bytes.trimmed_append_zeros {b : Bytes} (h : 0 ∉ b) (n : Nat) :
    trimmed (b ++ List.replicate n 0) = b := by
  have plain := trimmed_eq_self h
  unfold trimmed at plain ⊢
  rw [List.takeWhile_append, plain, if_pos rfl, List.takeWhile_replicate]
  simp

namespace Entry

structure Writable (sb : Superblock) (e : Entry) : Prop where
  short : e.name.length ≤ sb.width.toNat
  plain : 0 ∉ e.name
  number : e.inode.toNat < 65536

def slotData (sb : Superblock) (e : Entry) : Buffer :=
  Buffer.ofBytes (Bytes.ofWord16 e.inode.toUInt16 ++ e.name)
    ++ Buffer.zeros (sb.width.toNat - e.name.length)

theorem decode_eq {b : Bytes} (h : 2 ≤ b.length) : decode b = .ok (ofSlot b) := by
  match b, h with
  | b₀ :: b₁ :: rest, _ => rfl

variable {sb : Superblock} {e : Entry}

theorem encode_eq (short : e.name.length ≤ sb.width.toNat) :
    e.encode sb.width = .ok (e.slotData sb) := by
  have wide : ¬ slotSize sb.width < 2 ∧ ¬ Word.largestBuffer < slotSize sb.width := by
    rcases sb.width_cases with h | h
    · rw [h]
      decide
    · rw [h]
      decide
  rw [encode, if_neg (by omega), if_neg wide.1, Word.checkAllocation, if_neg wide.2]
  rfl

theorem toBytes_slotData :
    Buffer.toBytes (e.slotData sb) = Bytes.ofWord16 e.inode.toUInt16 ++ e.name
      ++ List.replicate (sb.width.toNat - e.name.length) 0 := by
  rw [slotData, Buffer.toBytes_append, Buffer.toBytes_ofBytes, Buffer.toBytes_zeros]

theorem size_slotData (short : e.name.length ≤ sb.width.toNat) :
    (e.slotData sb).size = sb.slotBytes := by
  have number : (Bytes.ofWord16 e.inode.toUInt16).length = 2 := rfl
  rw [← Buffer.length_toBytes, toBytes_slotData, List.length_append, List.length_append,
    List.length_replicate, number, Superblock.slotBytes]
  omega

theorem ofSlot_slotData (h : e.Writable sb) : ofSlot (Buffer.toBytes (e.slotData sb)) = e := by
  obtain ⟨inode, name⟩ := e
  have number : inode.toUInt16.toUInt64 = inode := by
    have lt := h.number
    apply UInt64.toNat.inj
    rw [UInt16.toNat_toUInt64, UInt64.toNat_toUInt16]
    exact Nat.mod_eq_of_lt lt
  have word : Bytes.word16At (Buffer.toBytes (slotData sb ⟨inode, name⟩)) 0
      = inode.toUInt16 := by
    rw [toBytes_slotData]
    exact Bytes.word16_ofWord16 _
  have rest : (Buffer.toBytes (slotData sb ⟨inode, name⟩)).drop 2
      = name ++ List.replicate (sb.width.toNat - name.length) 0 := by
    rw [toBytes_slotData]
    rfl
  rw [ofSlot, word, rest, number, Bytes.trimmed_append_zeros h.plain]

theorem ofSlot_zeros (n : Nat) : (ofSlot (Buffer.toBytes (Buffer.zeros n))).inode = 0 := by
  have byte (i : Nat) : Bytes.byteAt (List.replicate n 0) i = 0 := by
    rw [Bytes.byteAt, List.getD_eq_getElem?_getD, List.getElem?_replicate]
    split
    · rfl
    · rfl
  rw [ofSlot, Buffer.toBytes_zeros, Bytes.word16At, byte, byte]
  rfl

end Entry

namespace Image

variable {sb : Superblock}

theorem size_zone {img : Buffer} {z : UInt64}
    (inside : sb.zonePlace z + sb.zoneSize.toNat ≤ img.size) :
    (zone sb img z).size = sb.zoneSize.toNat :=
  Buffer.size_window inside

theorem slot_eq_window (zone : Buffer) (k : Nat) :
    Directory.slot zone sb.width k
      = Buffer.toBytes (zone.window (k * sb.slotBytes) sb.slotBytes) := by
  rw [Directory.slot, Entry.slotSize, Superblock.toNat_slotSize, Buffer.window, Nat.succ_mul]

theorem length_slot {zone : Buffer} (size : zone.size = sb.zoneSize.toNat) {k : Nat}
    (hk : k < sb.slots) : (Directory.slot zone sb.width k).length = sb.slotBytes := by
  have fits := Superblock.Fits.slotEnd_le sb hk
  rw [slot_eq_window, Buffer.length_toBytes, Buffer.size_window (by omega)]

theorem decode_slot {zone : Buffer} (size : zone.size = sb.zoneSize.toNat) {k : Nat}
    (hk : k < sb.slots) :
    Entry.decode (Directory.slot zone sb.width k) = .ok (slotEntry sb zone k) := by
  have wide := sb.slotBytes_cases
  exact Entry.decode_eq (by rw [length_slot size hk]; omega)

theorem slotEntry_splice {zone data : Buffer} (size : zone.size = sb.zoneSize.toNat)
    (length : data.size = sb.slotBytes) {k : Nat} (hk : k < sb.slots) (j : Nat) :
    slotEntry sb (zone.splice (k * sb.slotBytes) data) j
      = if j = k then Entry.ofSlot (Buffer.toBytes data) else slotEntry sb zone j := by
  have fits := Superblock.Fits.slotEnd_le sb hk
  unfold slotEntry
  rw [slot_eq_window, slot_eq_window]
  by_cases e : j = k
  · subst e
    have self := Buffer.window_splice_self
      (show j * sb.slotBytes + data.size ≤ zone.size by omega)
    rw [length] at self
    rw [if_pos rfl, self]
  · rw [if_neg e, Buffer.window_splice_of_disjoint (by omega)]
    rcases Nat.lt_or_gt_of_ne e with lt | lt
    · left
      have le : (j + 1) * sb.slotBytes ≤ k * sb.slotBytes := Nat.mul_le_mul_right _ lt
      rwa [Nat.succ_mul] at le
    · right
      have le : (k + 1) * sb.slotBytes ≤ j * sb.slotBytes := Nat.mul_le_mul_right _ lt
      rw [Nat.succ_mul] at le
      omega

theorem range_split {n k : Nat} (hk : k < n) :
    ∃ before behind, List.range n = before ++ k :: behind ∧ k ∉ before ∧ k ∉ behind := by
  obtain ⟨before, behind, split⟩ := List.append_of_mem (List.mem_range.mpr hk)
  have once := List.nodup_range (n := n)
  rw [split, List.nodup_append, List.nodup_cons] at once
  refine ⟨before, behind, split, ?_, once.2.1.1⟩
  intro mem
  exact once.2.2 k mem k List.mem_cons_self rfl

theorem map_slotEntry_splice {zone data : Buffer} (size : zone.size = sb.zoneSize.toNat)
    (length : data.size = sb.slotBytes) {k : Nat} (hk : k < sb.slots) {l : List Nat}
    (out : k ∉ l) :
    l.map (slotEntry sb (zone.splice (k * sb.slotBytes) data)) = l.map (slotEntry sb zone) := by
  apply List.map_congr_left
  intro j hj
  rw [slotEntry_splice size length hk, if_neg]
  rintro rfl
  exact out hj

theorem zoneEntries_fill {zone data : Buffer} (size : zone.size = sb.zoneSize.toNat)
    (length : data.size = sb.slotBytes) {k : Nat} (hk : k < sb.slots)
    (free : (slotEntry sb zone k).inode = 0) {e : Entry}
    (entry : Entry.ofSlot (Buffer.toBytes data) = e) (used : e.inode ≠ 0) :
    ∃ before behind, zoneEntries sb zone = before ++ behind ∧
      zoneEntries sb (zone.splice (k * sb.slotBytes) data) = before ++ e :: behind := by
  obtain ⟨l₁, l₂, split, out₁, out₂⟩ := range_split hk
  refine ⟨(l₁.map (slotEntry sb zone)).filter (·.inode ≠ 0),
    (l₂.map (slotEntry sb zone)).filter (·.inode ≠ 0), ?_, ?_⟩
  · rw [zoneEntries, split, List.map_append, List.filter_append, List.map_cons,
      List.filter_cons_of_neg (by simp [free])]
  · rw [zoneEntries, split, List.map_append, List.filter_append, List.map_cons,
      map_slotEntry_splice size length hk out₁, map_slotEntry_splice size length hk out₂,
      slotEntry_splice size length hk, if_pos rfl, entry,
      List.filter_cons_of_pos (by simp [used])]

theorem zoneEntries_clear {zone data : Buffer} (size : zone.size = sb.zoneSize.toNat)
    (length : data.size = sb.slotBytes) {k : Nat} (hk : k < sb.slots)
    (free : (slotEntry sb zone k).inode = 0)
    (clear : (Entry.ofSlot (Buffer.toBytes data)).inode = 0) :
    zoneEntries sb (zone.splice (k * sb.slotBytes) data) = zoneEntries sb zone := by
  obtain ⟨l₁, l₂, split, out₁, out₂⟩ := range_split hk
  rw [zoneEntries, zoneEntries, split, List.map_append, List.map_append, List.filter_append,
    List.filter_append, List.map_cons, List.map_cons,
    map_slotEntry_splice size length hk out₁, map_slotEntry_splice size length hk out₂,
    slotEntry_splice size length hk, if_pos rfl, List.filter_cons_of_neg (by simp [clear]),
    List.filter_cons_of_neg (by simp [free])]

variable {img img' : Buffer} {ip : Inode}

theorem entries_congr (same : ∀ z ∈ ip.zones, zoneEntries sb (zone sb img' z)
    = zoneEntries sb (zone sb img z)) : entries sb img' ip = entries sb img ip :=
  List.flatMap_congr same

theorem entries_insert {z : UInt64} (hz : z ∈ ip.zones) (once : ip.zones.Nodup)
    (others : ∀ z' ∈ ip.zones, z' ≠ z → zone sb img' z' = zone sb img z') {e : Entry}
    (inserted : ∃ before behind, zoneEntries sb (zone sb img z) = before ++ behind ∧
      zoneEntries sb (zone sb img' z) = before ++ e :: behind) :
    ∃ before behind, entries sb img ip = before ++ behind ∧
      entries sb img' ip = before ++ e :: behind := by
  obtain ⟨a, b, old, new⟩ := inserted
  obtain ⟨l₁, l₂, split⟩ := List.append_of_mem hz
  unfold entries
  rw [split] at once others ⊢
  rw [List.nodup_append, List.nodup_cons] at once
  have front : l₁.flatMap (fun z => zoneEntries sb (zone sb img' z))
      = l₁.flatMap (fun z => zoneEntries sb (zone sb img z)) := by
    apply List.flatMap_congr
    intro z' hz'
    have ne : z' ≠ z := once.2.2 z' hz' z List.mem_cons_self
    rw [others z' (List.mem_append_left _ hz') ne]
  have rear : l₂.flatMap (fun z => zoneEntries sb (zone sb img' z))
      = l₂.flatMap (fun z => zoneEntries sb (zone sb img z)) := by
    apply List.flatMap_congr
    intro z' hz'
    have ne : z' ≠ z := fun eq => once.2.1.1 (eq ▸ hz')
    rw [others z' (List.mem_append_right _ (List.mem_cons_of_mem _ hz')) ne]
  refine ⟨l₁.flatMap (fun z => zoneEntries sb (zone sb img z)) ++ a,
    b ++ l₂.flatMap (fun z => zoneEntries sb (zone sb img z)), ?_, ?_⟩
  · rw [List.flatMap_append, List.flatMap_cons, old, List.append_assoc, List.append_assoc]
  · rw [List.flatMap_append, List.flatMap_cons, new, front, rear, List.append_assoc,
      List.append_assoc, List.cons_append]

def newZone (sb : Superblock) (number : UInt64) : Buffer :=
  (Buffer.zeros sb.zoneSize.toNat).splice 0
    (Entry.slotData sb ⟨number, Format.dot⟩ ++ Entry.slotData sb ⟨Inode.root, Format.dotDot⟩)

theorem writable_of_short {e : Entry} (short : e.name.length ≤ 14) (plain : 0 ∉ e.name)
    (number : e.inode.toNat < 65536) : e.Writable sb := by
  refine ⟨Nat.le_trans short ?_, plain, number⟩
  rcases sb.width_cases with w | w
  · rw [w]
    decide
  · rw [w]
    decide

theorem writable_dot (number : UInt64) (h : number.toNat < 65536) :
    Entry.Writable sb ⟨number, Format.dot⟩ :=
  writable_of_short (show Format.dot.length ≤ 14 by decide) (show 0 ∉ Format.dot by decide) h

theorem writable_dotDot (number : UInt64) (h : number.toNat < 65536) :
    Entry.Writable sb ⟨number, Format.dotDot⟩ :=
  writable_of_short (show Format.dotDot.length ≤ 14 by decide)
    (show 0 ∉ Format.dotDot by decide) h

theorem size_dot (sb : Superblock) (number : UInt64) :
    (Entry.slotData sb ⟨number, Format.dot⟩).size = sb.slotBytes :=
  Entry.size_slotData (writable_dot 0 (by decide)).short

theorem size_dotDot (sb : Superblock) (number : UInt64) :
    (Entry.slotData sb ⟨number, Format.dotDot⟩).size = sb.slotBytes :=
  Entry.size_slotData (writable_dotDot 0 (by decide)).short

theorem two_le_slots (wide : 1024 ≤ sb.zoneSize.toNat) : 2 ≤ sb.slots := by
  rw [Superblock.slots]
  rcases sb.slotBytes_cases with h | h
  · rw [h]
    omega
  · rw [h]
    omega

theorem block_newDirectory (wide : 1024 ≤ sb.zoneSize.toNat) (number : UInt64) :
    Entry.block (Format.newDirectory number Inode.root) sb.width sb.zoneSize
      = if Word.largestBuffer < sb.zoneSize then .error (.panic .allocation)
        else .ok (newZone sb number) := by
  have room : ¬ sb.zoneSize < UInt64.ofNat (Format.newDirectory number Inode.root).length
      * Entry.slotSize sb.width := by
    rw [UInt64.lt_iff_toNat_lt]
    rcases sb.width_cases with w | w
    · rw [w]
      change ¬ sb.zoneSize.toNat < 32
      omega
    · rw [w]
      change ¬ sb.zoneSize.toNat < 64
      omega
  have dot : Entry.encode ⟨number, Format.dot⟩ sb.width
      = .ok (Entry.slotData sb ⟨number, Format.dot⟩) :=
    Entry.encode_eq (writable_dot 0 (by decide)).short
  have dotDot : Entry.encode ⟨Inode.root, Format.dotDot⟩ sb.width
      = .ok (Entry.slotData sb ⟨Inode.root, Format.dotDot⟩) :=
    Entry.encode_eq (writable_dotDot 0 (by decide)).short
  rw [Entry.block, if_neg room, Word.checkAllocation]
  split
  · rfl
  · simp only [Format.newDirectory, List.mapM_cons, dot, dotDot]
    rfl

theorem newZone_eq (wide : 1024 ≤ sb.zoneSize.toNat) (number : UInt64) :
    newZone sb number
      = ((Buffer.zeros sb.zoneSize.toNat).splice (0 * sb.slotBytes)
          (Entry.slotData sb ⟨number, Format.dot⟩)).splice (1 * sb.slotBytes)
          (Entry.slotData sb ⟨Inode.root, Format.dotDot⟩) := by
  have slots := sb.slotBytes_cases
  have dot := size_dot sb number
  have dotDot := size_dotDot sb Inode.root
  rw [newZone, Buffer.splice_append (by rw [dot, dotDot, Buffer.size_zeros]; omega), dot,
    Nat.zero_mul, Nat.one_mul, Nat.zero_add]

theorem size_newZone (wide : 1024 ≤ sb.zoneSize.toNat) (number : UInt64) :
    (newZone sb number).size = sb.zoneSize.toNat := by
  have slots := sb.slotBytes_cases
  have dot := size_dot sb number
  have dotDot := size_dotDot sb Inode.root
  rw [newZone, Buffer.size_splice, Buffer.size_zeros]
  rw [ByteArray.size_append, dot, dotDot, Buffer.size_zeros]
  omega

theorem slotEntry_zeros (n k : Nat) : (slotEntry sb (Buffer.zeros n) k).inode = 0 := by
  have byte (i : Nat) (off len : Nat) :
      Bytes.byteAt (Buffer.toBytes ((Buffer.zeros n).window off len)) i = 0 := by
    rw [Bytes.byteAt, List.getD_eq_getElem?_getD, Buffer.getElem?_toBytes, Buffer.getElem?_window,
      Buffer.getElem?_zeros]
    split
    · split
      · rfl
      · rfl
    · rfl
  rw [slotEntry, slot_eq_window, Entry.ofSlot, Bytes.word16At, byte, byte]
  rfl

theorem slotEntry_newZone (wide : 1024 ≤ sb.zoneSize.toNat) {number : UInt64}
    (lt : number.toNat < 65536) (k : Nat) :
    slotEntry sb (newZone sb number) k
      = if k = 1 then ⟨Inode.root, Format.dotDot⟩
        else if k = 0 then ⟨number, Format.dot⟩
        else slotEntry sb (Buffer.zeros sb.zoneSize.toNat) k := by
  have slots := two_le_slots wide
  have bytes := sb.slotBytes_cases
  have dot : Entry.Writable sb _ := writable_dot number lt
  have dotDot : Entry.Writable sb _ := writable_dotDot Inode.root (by decide)
  rw [newZone_eq wide, slotEntry_splice _ (Entry.size_slotData dotDot.short) (by omega),
    slotEntry_splice (Buffer.size_zeros _) (Entry.size_slotData dot.short) (by omega),
    Entry.ofSlot_slotData dotDot, Entry.ofSlot_slotData dot]
  rw [Buffer.size_splice, Buffer.size_zeros]
  rw [Entry.size_slotData dot.short, Buffer.size_zeros]
  omega

theorem zoneEntries_newZone (wide : 1024 ≤ sb.zoneSize.toNat) {number : UInt64}
    (pos : number ≠ 0) (lt : number.toNat < 65536) :
    zoneEntries sb (newZone sb number)
      = [⟨number, Format.dot⟩, ⟨Inode.root, Format.dotDot⟩] := by
  have slots := two_le_slots wide
  have split : List.range sb.slots = 0 :: 1 :: List.range' 2 (sb.slots - 2) := by
    rw [List.range_eq_range', show sb.slots = sb.slots - 2 + 1 + 1 by omega, List.range'_succ,
      List.range'_succ]
    rfl
  have rest : ((List.range' 2 (sb.slots - 2)).map (slotEntry sb (newZone sb number))).filter
      (·.inode ≠ 0) = [] := by
    rw [List.filter_eq_nil_iff]
    intro e mem
    obtain ⟨k, hk, rfl⟩ := List.mem_map.mp mem
    have ge := (List.mem_range'_1.mp hk).1
    rw [slotEntry_newZone wide lt, if_neg (by omega), if_neg (by omega), slotEntry_zeros]
    decide
  rw [zoneEntries, split, List.map_cons, List.map_cons, slotEntry_newZone wide lt,
    slotEntry_newZone wide lt, if_neg (by decide), if_pos rfl, if_pos rfl,
    List.filter_cons_of_pos (by simp [pos]), List.filter_cons_of_pos (by decide), rest]

end Image

end MinixVolume

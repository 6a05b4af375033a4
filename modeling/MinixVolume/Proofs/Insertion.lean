import MinixVolume.Proofs.Dangling
import MinixVolume.Proofs.Slots

namespace MinixVolume

namespace Superblock

variable (sb : Superblock)

/-- The same volume with names of that width: only the magic number tells the width, and it tells
nothing else. -/
def withWidth (width : UInt64) : Superblock :=
  { sb with magic := if width = 14 then shortNameMagic else longNameMagic }

theorem width_withWidth {width : UInt64} (known : width = 14 ∨ width = 30) :
    (sb.withWidth width).width = width := by
  rcases known with rfl | rfl
  · rfl
  · rfl

end Superblock

namespace Directory

section Width

variable {δ : Type} [Disk δ] (sb : Superblock) (w width : UInt64)

theorem listZones_withWidth (zones : List UInt64) :
    (listZones (sb.withWidth w) width zones : MountM δ _) = listZones sb width zones := by
  induction zones with
  | nil => rfl
  | cons z zones ih =>
      rw [listZones, listZones, ih]
      rfl

theorem list_withWidth (ip : Inode) :
    (list (sb.withWidth w) ip width : MountM δ _) = list sb ip width :=
  listZones_withWidth sb w width ip.zones

theorem lookup_withWidth (ip : Inode) (name : Bytes) :
    (lookup (sb.withWidth w) ip name width : MountM δ _) = lookup sb ip name width := by
  rw [lookup, lookup, list_withWidth]

theorem findSlot_withWidth (zones : List UInt64) :
    (findSlot (sb.withWidth w) width zones : MountM δ _) = findSlot sb width zones := by
  induction zones with
  | nil => rfl
  | cons z zones ih =>
      rw [findSlot, findSlot, ih]
      rfl

theorem add_withWidth (number : UInt64) (e : Entry) :
    (add (sb.withWidth w) number e width : MountM δ _) = add sb number e width := by
  unfold add
  simp only [findSlot_withWidth]
  rfl

end Width

/-- A directory of an image of that size. Its record and its zones lie inside the image, no zone is
named twice, and none overlaps the record. -/
structure Placed (sb : Superblock) (number : UInt64) (ip : Inode) (size : Nat) : Prop where
  small : size < Word.largestBuffer.toNat
  pos : 1 ≤ number.toNat
  record : sb.recordPlace number.toNat + 32 ≤ size
  zones : ∀ z ∈ ip.zones, sb.zonePlace z + sb.zoneSize.toNat ≤ size
  once : ip.zones.Nodup
  apart : ∀ z ∈ ip.zones, sb.zonePlace z + sb.zoneSize.toNat ≤ sb.recordPlace number.toNat ∨
    sb.recordPlace number.toNat + 32 ≤ sb.zonePlace z

namespace Placed

variable {sb : Superblock} {number : UInt64} {ip : Inode} {img : Buffer}

theorem zoneSize_le {size : Nat} (h : Placed sb number ip size) {z : UInt64} (hz : z ∈ ip.zones) :
    sb.zoneSize.toNat ≤ Word.largestBuffer.toNat := by
  have := h.small
  have := h.zones z hz
  omega

theorem zonePlace_eq {size : Nat} (h : Placed sb number ip size) {z : UInt64}
    (hz : z ∈ ip.zones) : sb.zonePlace z = z.toNat * sb.zoneSize.toNat := by
  have large : Word.largestBuffer.toNat = 0x1000000000000 := rfl
  have small := h.small
  have inside := h.zones z hz
  obtain ⟨w, -, rfl⟩ := List.mem_map.mp hz
  have le : w.toNat * sb.zoneSize.toNat ≤ 0xffff * 0xffffffffffff :=
    Nat.mul_le_mul (Nat.le_of_lt_succ w.toNat_lt) (by omega)
  rw [Superblock.zonePlace_eq_mod, UInt16.toNat_toUInt64]
  exact Nat.mod_eq_of_lt (Nat.lt_of_le_of_lt le (by decide))

theorem zones_apart {size : Nat} (h : Placed sb number ip size) {z z' : UInt64}
    (hz : z ∈ ip.zones) (hz' : z' ∈ ip.zones) (ne : z' ≠ z) :
    sb.zonePlace z' + sb.zoneSize.toNat ≤ sb.zonePlace z ∨
      sb.zonePlace z + sb.zoneSize.toNat ≤ sb.zonePlace z' := by
  rw [h.zonePlace_eq hz, h.zonePlace_eq hz', ← Nat.succ_mul, ← Nat.succ_mul]
  rcases Nat.lt_or_gt_of_ne fun same => ne (UInt64.toNat.inj same) with lt | lt
  · exact .inl (Nat.mul_le_mul_right _ lt)
  · exact .inr (Nat.mul_le_mul_right _ lt)

variable (h : Placed sb number ip img.size)
include h

section Slot

variable {z : UInt64} (hz : z ∈ ip.zones) {k : Nat} (hk : k < sb.slots) {data : Buffer}
  (length : data.size = sb.slotBytes)
include hz hk

theorem slotEnd_le :
    sb.slotPlace z k + sb.slotBytes ≤ sb.zonePlace z + sb.zoneSize.toNat ∧
      sb.slotPlace z k + sb.slotBytes ≤ img.size := by
  have inside := h.zones z hz
  have fits := Superblock.Fits.slotEnd_le sb hk
  rw [Superblock.slotPlace]
  omega

include length

theorem size_slot : (img.splice (sb.slotPlace z k) data).size = img.size := by
  have inside := h.slotEnd_le hz hk
  exact Buffer.size_splice (by omega)

theorem zone_slot :
    Image.zone sb (img.splice (sb.slotPlace z k) data) z
      = (Image.zone sb img z).splice (k * sb.slotBytes) data := by
  have inside := h.slotEnd_le hz hk
  rw [Superblock.slotPlace] at inside ⊢
  rw [Image.zone, Buffer.window_splice_within (h.zones z hz) (Nat.le_add_right _ _) (by omega),
    Nat.add_sub_cancel_left, Image.zone]

theorem otherZone_slot {z' : UInt64} (hz' : z' ∈ ip.zones) (ne : z' ≠ z) :
    Image.zone sb (img.splice (sb.slotPlace z k) data) z' = Image.zone sb img z' := by
  have inside := h.slotEnd_le hz hk
  have apart := h.zones_apart hz hz' ne
  have lower : sb.zonePlace z ≤ sb.slotPlace z k := Nat.le_add_right _ _
  exact Buffer.window_splice_of_disjoint (by omega) (by omega)

theorem record_slot :
    Image.record sb (img.splice (sb.slotPlace z k) data) number.toNat
      = Image.record sb img number.toNat := by
  have inside := h.slotEnd_le hz hk
  have apart := h.apart z hz
  have lower : sb.zonePlace z ≤ sb.slotPlace z k := Nat.le_add_right _ _
  exact Buffer.window_splice_of_disjoint (by omega) (by omega)

end Slot

section Record

variable (ip' : Inode)

omit h in
theorem size_encode : (Buffer.ofBytes ip'.encode).size = 32 := by
  rw [Buffer.size_ofBytes, Inode.length_encode]

theorem record_fits :
    sb.recordPlace number.toNat + (Buffer.ofBytes ip'.encode).size ≤ img.size := by
  rw [size_encode]
  exact h.record

theorem size_stored :
    (img.splice (sb.recordPlace number.toNat) (Buffer.ofBytes ip'.encode)).size = img.size :=
  Buffer.size_splice (h.record_fits ip')

theorem zone_stored {z : UInt64} (hz : z ∈ ip.zones) :
    Image.zone sb (img.splice (sb.recordPlace number.toNat) (Buffer.ofBytes ip'.encode)) z
      = Image.zone sb img z := by
  have apart := h.apart z hz
  exact Buffer.window_splice_of_disjoint (h.record_fits ip') (by rw [size_encode]; omega)

theorem record_stored :
    Image.record sb (img.splice (sb.recordPlace number.toNat) (Buffer.ofBytes ip'.encode))
      number.toNat = Buffer.ofBytes ip'.encode := by
  have self := Buffer.window_splice_self (h.record_fits ip')
  rwa [size_encode] at self

theorem getElem?_stored {p : Nat}
    (outside : p < sb.recordPlace number.toNat ∨ sb.recordPlace number.toNat + 32 ≤ p) :
    (img.splice (sb.recordPlace number.toNat) (Buffer.ofBytes ip'.encode)).data[p]?
      = img.data[p]? := by
  rw [Buffer.getElem?_splice (h.record_fits ip'), size_encode, if_neg (by omega)]

end Record

end Placed

end Directory

namespace Entry

def stored (e : Entry) : Entry :=
  ⟨e.inode % 65536, e.name⟩

structure Fitting (width : UInt64) (e : Entry) : Prop where
  short : e.name.length ≤ width.toNat
  plain : 0 ∉ e.name
  number : e.inode.toUInt16 ≠ 0

variable {sb : Superblock} {e : Entry}

theorem ofSlot_slotData_stored (h : Fitting sb.width e) :
    ofSlot (Buffer.toBytes (e.slotData sb)) = e.stored := by
  have word : e.inode.toUInt16 = (e.inode % 65536).toUInt16 := by
    apply UInt16.toNat.inj
    simp
  have same : e.slotData sb = e.stored.slotData sb := by
    rw [slotData, slotData, stored, word]
  have writable : e.stored.Writable sb := by
    refine ⟨h.short, h.plain, ?_⟩
    rw [stored, UInt64.toNat_mod]
    exact Nat.mod_lt _ (by decide)
  rw [same, ofSlot_slotData writable]

theorem Fitting.stored_used {width : UInt64} (h : Fitting width e) : e.stored.inode ≠ 0 := by
  intro zero
  apply h.number
  have := congrArg UInt64.toNat zero
  apply UInt16.toNat.inj
  simpa [stored] using this

end Entry

namespace Image

structure SlotChanged (sb : Superblock) (zones : List UInt64) (img img' : Buffer) (z : UInt64)
    (k : Nat) (data : Buffer) : Prop extends FreeSlot sb img zones z k where
  size : img'.size = img.size
  now : img'.window (sb.slotPlace z k) sb.slotBytes = data
  rest : ∀ p, p < sb.slotPlace z k ∨ sb.slotPlace z k + sb.slotBytes ≤ p →
    img'.data[p]? = img.data[p]?

namespace Filled

variable {before after : List Entry} {e : Entry} {i : Nat} (h : Filled before after e i)
  (nonzero : e.inode ≠ 0)
include h nonzero

theorem find?_other {name : Bytes} (ne : name ≠ e.name) :
    (after.filter (·.inode ≠ 0)).find? (·.name == name)
      = (before.filter (·.inode ≠ 0)).find? (·.name == name) := by
  obtain ⟨front, back, old, new, -⟩ := h.filter_split nonzero
  rw [old, new]
  simp [Ne.symm ne]

theorem find?_new (absent : (before.filter (·.inode ≠ 0)).find? (·.name == e.name) = none) :
    (after.filter (·.inode ≠ 0)).find? (·.name == e.name) = some e := by
  obtain ⟨front, back, old, new, -⟩ := h.filter_split nonzero
  rw [old, List.find?_append, Option.or_eq_none_iff] at absent
  rw [new]
  simp [List.find?_append, absent.1]

end Filled

end Image

namespace Directory

structure Entered (sb : Superblock) (number : UInt64) (e : Entry) (img img' : Buffer)
    (ip ip' : Inode) : Prop where
  inode : ip' = { ip with size := ip.size + (2 + sb.width).toUInt32 }
  slots : Image.Filled (Image.slotList sb img ip) (Image.slotList sb img' ip') e.stored
    (Image.firstEmpty sb img ip)
  record : Image.record sb img' number.toNat = Buffer.ofBytes ip'.encode
  size : img'.size = img.size
  rest : ∃ i z k, ip.zones[i]? = some z ∧ k < sb.slots ∧
    i * sb.slots + k = Image.firstEmpty sb img ip ∧
    ∀ p, p < sb.slotPlace z k ∨ sb.slotPlace z k + sb.slotBytes ≤ p →
      p < sb.recordPlace number.toNat ∨ sb.recordPlace number.toNat + 32 ≤ p →
      img'.data[p]? = img.data[p]?

namespace Placed

variable {sb : Superblock} {number : UInt64} {ip : Inode} {img : Buffer} {z : UInt64} {k : Nat}
  (h : Placed sb number ip img.size)
include h

theorem slotChanged (free : Image.FreeSlot sb img ip.zones z k) {data : Buffer}
    (length : data.size = sb.slotBytes) :
    Image.SlotChanged sb ip.zones img (img.splice (sb.slotPlace z k) data) z k data := by
  have inside := h.slotEnd_le free.mem free.lt
  refine ⟨free, h.size_slot free.mem free.lt length, ?_, fun p outside => ?_⟩
  · rw [← length]
    exact Buffer.window_splice_self (by omega)
  · rw [Buffer.getElem?_splice (by omega), if_neg (by omega)]

theorem entries_cleared (free : Image.FreeSlot sb img ip.zones z k) :
    Image.entries sb (img.splice (sb.slotPlace z k) (Buffer.zeros sb.slotBytes)) ip
      = Image.entries sb img ip := by
  have length := Buffer.size_zeros sb.slotBytes
  apply Image.entries_congr
  intro z' hz'
  by_cases same : z' = z
  · subst same
    rw [h.zone_slot hz' free.lt length]
    exact Image.zoneEntries_clear (Image.size_zone (h.zones z' hz')) length free.lt free.free
      (Entry.ofSlot_zeros _)
  · rw [h.otherZone_slot free.mem free.lt length hz' same]

theorem cleared_eq (free : Image.FreeSlot sb img ip.zones z k) {data : Buffer}
    (length : data.size = sb.slotBytes) :
    Update.applyAll sb img [.slot z k data, .slot z k (Buffer.zeros sb.slotBytes)]
      = img.splice (sb.slotPlace z k) (Buffer.zeros sb.slotBytes) := by
  have inside := h.slotEnd_le free.mem free.lt
  exact Buffer.splice_splice (by omega) (by rw [length, Buffer.size_zeros])

theorem entered (first : Image.FirstSlot sb img ip.zones z k) {e : Entry}
    (fitting : e.Fitting sb.width) :
    Entered sb number e img
      (Update.applyAll sb img [.slot z k (e.slotData sb), .inode number.toNat (grown sb ip)])
      ip (grown sb ip) := by
  have length := Entry.size_slotData fitting.short
  have changed := h.slotChanged first.toFreeSlot length
  have later : Placed sb number ip (img.splice (sb.slotPlace z k) (e.slotData sb)).size := by
    rwa [changed.size]
  obtain ⟨i, there, filled⟩ := first.filled h.once (Image.size_zone (h.zones z first.mem)) length
    ((later.zone_stored (grown sb ip) first.mem).trans (h.zone_slot first.mem first.lt length))
    fun z' hz' ne => (later.zone_stored (grown sb ip) hz').trans
      (h.otherZone_slot first.mem first.lt length hz' ne)
  rw [Entry.ofSlot_slotData_stored fitting] at filled
  have index : i * sb.slots + k = Image.firstEmpty sb img ip := filled.findIdx_eq.symm
  rw [index] at filled
  exact ⟨rfl, filled, later.record_stored _, (later.size_stored _).trans changed.size, i, z, k,
    there, first.lt, index,
    fun p slot record => (later.getElem?_stored _ record).trans (changed.rest p slot)⟩

end Placed

variable {δ : Type} [Disk δ] [ImageDisk δ] {m m' : Mount δ} {steady : Prop} {s s' : Scene}
  {sb : Superblock} {number width : UInt64} {e : Entry}

namespace Placed

variable {ip : Inode}

theorem withWidth {size : Nat} (h : Placed sb number ip size) (width : UInt64) :
    Placed (sb.withWidth width) number ip size :=
  ⟨h.small, h.pos, h.record, h.zones, h.once, h.apart⟩

variable (known : width = 14 ∨ width = 30)
include known

section Answers

variable (placed : Placed sb number ip s.image.size) (h : m.Shows True s)
include placed h

theorem list_eq :
    (Mount.exec (list sb ip width) m).1
      = .ok (Image.entries (sb.withWidth width) s.image ip) := by
  have wide := placed.withWidth width
  have answer := answer_list h wide.zones fun _ => wide.zoneSize_le
  rwa [sb.width_withWidth known, list_withWidth] at answer

theorem lookup_eq (name : Bytes) :
    (Mount.exec (lookup sb ip name width) m).1
      = .ok (((Image.entries (sb.withWidth width) s.image ip).find? (·.name == name)).map
          (·.inode)) := by
  have wide := placed.withWidth width
  have answer := answer_lookup h wide.zones (fun _ => wide.zoneSize_le) name
  rwa [sb.width_withWidth known, lookup_withWidth] at answer

end Answers

theorem ends_add (placed : Placed sb number s.directory s.image.size) (h : m.Shows steady s)
    (short : e.name.length ≤ width.toNat) :
    Mount.Ends (add sb number e width) m
      (fun r m' => ∃ s', m'.Shows steady s' ∧
        Ended (sb.withWidth width) number e steady Word.largestBuffer.toNat s m'.disk (.ok r) s')
      (fun t m' => ∃ s', m'.Shows steady s' ∧
        Ended (sb.withWidth width) number e steady Word.largestBuffer.toNat s m'.disk (.error t)
          s') := by
  have wide := placed.withWidth width
  have same := sb.width_withWidth known
  have add := ends_add_inside h wide.pos wide.record wide.zones (fun _ => wide.zoneSize_le)
    (same.symm ▸ short)
  rwa [same, add_withWidth] at add

omit [Disk δ] [ImageDisk δ] in
theorem list_again {img img' : Buffer} (placed : Placed sb number ip img.size)
    (size : img'.size = img.size)
    (same : Image.entries (sb.withWidth width) img' ip
      = Image.entries (sb.withWidth width) img ip) (m m' : Mount δ) :
    ∃ es, (Mount.exec (list sb ip width) (m.onto (⟨img⟩ : MemoryDisk))).1 = .ok es ∧
      (Mount.exec (list sb ip width) (m'.onto (⟨img'⟩ : MemoryDisk))).1 = .ok es := by
  have shows {img : Buffer} (placed : Placed sb number ip img.size) (m : Mount δ) :
      (m.onto (⟨img⟩ : MemoryDisk)).Shows True ⟨img, m.directory, m.output⟩ := by
    have limit : Word.largestBuffer.toNat < sizeLimit := by decide
    exact ⟨Nat.lt_trans placed.small limit, fun _ => trivial, rfl, rfl, rfl⟩
  have placed' : Placed sb number ip img'.size := by rwa [size]
  have again := placed'.list_eq known (shows placed' m')
  rw [same] at again
  exact ⟨_, placed.list_eq known (shows placed m), again⟩

end Placed

/-- What there is to see of a new entry, where the disk is read in state `m` before and in state
`m'` after. -/
structure Inserted (sb : Superblock) (width number : UInt64) (e : Entry) (m m' : Mount δ) :
    Prop where
  entered : Entered (sb.withWidth width) number e (ImageDisk.image m.disk)
    (ImageDisk.image m'.disk) m.directory m'.directory
  listed : ∃ es, (Mount.exec (list sb m.directory width) m).1 = .ok es ∧
    (Mount.exec (list sb m'.directory width) m').1 = .ok (es.insertIdx
      (Image.firstEmpty (sb.withWidth width) (ImageDisk.image m.disk) m.directory) e.stored)
  found : (Mount.exec (lookup sb m.directory e.name width) m).1 = .ok none →
    (Mount.exec (lookup sb m'.directory e.name width) m').1 = .ok (some e.stored.inode)
  others : ∀ name, name ≠ e.name → ∃ r,
    (Mount.exec (lookup sb m.directory name width) m).1 = .ok r ∧
    (Mount.exec (lookup sb m'.directory name width) m').1 = .ok r

theorem Entered.inserted (known : width = 14 ∨ width = 30)
    (entered : Entered (sb.withWidth width) number e s.image s'.image s.directory s'.directory)
    (placed : Placed sb number s.directory s.image.size) (fitting : e.Fitting width)
    (before : m.Shows True s) (after : m'.Shows True s') :
    Inserted sb width number e m m' := by
  have placed' : Placed sb number s'.directory s'.image.size := by
    rw [entered.size, entered.inode]
    exact ⟨placed.small, placed.pos, placed.record, placed.zones, placed.once, placed.apart⟩
  have filled := entered.slots
  have used := fitting.stored_used
  constructor
  · rw [before.image, after.image, before.directory, after.directory]
    exact entered
  · rw [before.directory, after.directory, before.image, placed.list_eq known before,
      placed'.list_eq known after, ← Image.filter_slotList, ← Image.filter_slotList,
      filled.filter_eq used]
    exact ⟨_, rfl, rfl⟩
  · rw [before.directory, after.directory, placed.lookup_eq known before,
      placed'.lookup_eq known after, ← Image.filter_slotList, ← Image.filter_slotList]
    intro absent
    injection absent with absent
    have name : e.name = e.stored.name := rfl
    rw [name, filled.find?_new used (Option.map_eq_none_iff.mp absent)]
    rfl
  · intro name ne
    rw [before.directory, after.directory, placed.lookup_eq known before,
      placed'.lookup_eq known after, ← Image.filter_slotList, ← Image.filter_slotList,
      filled.find?_other used ne]
    exact ⟨_, rfl, rfl⟩

structure TakenBack (sb : Superblock) (width : UInt64) (m m' : Mount δ) : Prop where
  listed : ∃ es,
    (Mount.exec (list sb m.directory width)
      (m.onto (⟨ImageDisk.image m.disk⟩ : MemoryDisk))).1 = .ok es ∧
    (Mount.exec (list sb m'.directory width)
      (m'.onto (⟨ImageDisk.image m'.disk⟩ : MemoryDisk))).1 = .ok es
  image : ImageDisk.image m'.disk = ImageDisk.image m.disk ∨
    ∃ z k, Image.SlotChanged (sb.withWidth width) m.directory.zones (ImageDisk.image m.disk)
      (ImageDisk.image m'.disk) z k (Buffer.zeros (sb.withWidth width).slotBytes)

/-- The entry is in its slot, and the directory was not written back. The disk took neither that
write, which failed as `first` says, nor the zeros that were to clear the slot. -/
structure LeftBehind (sb : Superblock) (width number : UInt64) (e : Entry) (m m' : Mount δ)
    (err first second : Error) : Prop where
  error : err = .joined (.during .write (.inode number) first) (.entryLeft e.name number second)
  kinds : ∀ kind, first.hasKind kind = true → err.hasKind kind = true
  slot : ∃ z k data, e.encode width = .ok data ∧
    Entry.decode (Buffer.toBytes data) = .ok e.stored ∧
    Image.SlotChanged (sb.withWidth width) m.directory.zones (ImageDisk.image m.disk)
      (ImageDisk.image m'.disk) z k data ∧
    Refused (sb.withWidth width) number m.directory z k m'.disk first second

structure Failed (sb : Superblock) (width number : UInt64) (e : Entry) (m m' : Mount δ)
    (err : Error) : Prop where
  inode : m'.directory = m.directory
  record : Image.record sb (ImageDisk.image m'.disk) number.toNat
    = Image.record sb (ImageDisk.image m.disk) number.toNat
  entry : if err.hasKind .inconsistent then
      ∃ first second, LeftBehind sb width number e m m' err first second
    else TakenBack sb width m m'

namespace Failed

variable (known : width = 14 ∨ width = 30)
  (placed : Placed sb number m.directory (ImageDisk.image m.disk).size)
include known placed

theorem of_kept {err : Error} (calm : err.Calm) (after : m'.Shows steady m.scene) :
    Failed sb width number e m m' err := by
  have image : ImageDisk.image m'.disk = ImageDisk.image m.disk := after.image
  have directory : m'.directory = m.directory := after.directory
  refine ⟨directory, by rw [image], ?_⟩
  rw [calm, if_neg Bool.false_ne_true]
  refine ⟨?_, .inl image⟩
  rw [image, directory]
  exact Placed.list_again known placed rfl rfl m m'

variable {z : UInt64} {k : Nat}
  (free : Image.FreeSlot (sb.withWidth width) (ImageDisk.image m.disk) m.directory.zones z k)
include free

theorem of_cleared {err : Error} (calm : err.Calm) {data : Buffer}
    (length : data.size = (sb.withWidth width).slotBytes)
    (after : m'.Shows steady
      { m.scene with
        image := Update.applyAll (sb.withWidth width) (ImageDisk.image m.disk)
          [.slot z k data, .slot z k (Buffer.zeros (sb.withWidth width).slotBytes)] }) :
    Failed sb width number e m m' err := by
  have wide := placed.withWidth width
  have zeros := Buffer.size_zeros (sb.withWidth width).slotBytes
  have image := after.image.trans (wide.cleared_eq free length)
  have directory : m'.directory = m.directory := after.directory
  have changed := wide.slotChanged free zeros
  refine ⟨directory, ?_, ?_⟩
  · rw [image]
    exact wide.record_slot free.mem free.lt zeros
  · rw [calm, if_neg Bool.false_ne_true]
    refine ⟨?_, .inr ⟨z, k, image ▸ changed⟩⟩
    rw [image, directory]
    exact Placed.list_again known placed changed.size (wide.entries_cleared free) m m'

theorem of_left (fitting : e.Fitting width) {first second : Error}
    (refused : Refused (sb.withWidth width) number m.directory z k m'.disk first second)
    (after : m'.Shows steady
      { m.scene with
        image := Update.applyAll (sb.withWidth width) (ImageDisk.image m.disk)
          [.slot z k (e.slotData (sb.withWidth width))] }) :
    Failed sb width number e m m'
      (.joined (.during .write (.inode number) first) (.entryLeft e.name number second)) := by
  have wide := placed.withWidth width
  have same := sb.width_withWidth known
  have fitting' : e.Fitting (sb.withWidth width).width := same.symm ▸ fitting
  have length := Entry.size_slotData fitting'.short
  have image : ImageDisk.image m'.disk = (ImageDisk.image m.disk).splice
      ((sb.withWidth width).slotPlace z k) (e.slotData (sb.withWidth width)) := after.image
  have encoded := Entry.encode_eq fitting'.short
  rw [same] at encoded
  have decoded : Entry.decode (Buffer.toBytes (e.slotData (sb.withWidth width)))
      = .ok e.stored := by
    rw [Entry.decode_eq (by rw [Buffer.length_toBytes, length, Superblock.slotBytes]; omega),
      Entry.ofSlot_slotData_stored fitting']
  refine ⟨after.directory, ?_, ?_⟩
  · rw [image]
    exact wide.record_slot free.mem free.lt length
  · rw [if_pos (by simp [Error.hasKind, Error.kinds])]
    refine ⟨first, second, rfl, fun kind has => ?_, z, k, _, encoded, decoded,
      image ▸ wide.slotChanged free length, refused⟩
    simp_all [Error.hasKind, Error.kinds]

end Failed

variable (sound : ImageDisk.Sound m.disk) (known : width = 14 ∨ width = 30)
  (placed : Placed sb number m.directory (ImageDisk.image m.disk).size) (fitting : e.Fitting width)

include sound known placed fitting in
theorem add_inserts_one (reliable : ImageDisk.Reliable m.disk) :
    ((∃ slot ∈ Image.slotList (sb.withWidth width) (ImageDisk.image m.disk) m.directory,
        slot.inode = 0) →
      ∃ m', Mount.exec (add sb number e width) m = (.ok (), m') ∧
        Inserted sb width number e m m') ∧
    ((∀ slot ∈ Image.slotList (sb.withWidth width) (ImageDisk.image m.disk) m.directory,
        slot.inode ≠ 0) →
      ∃ err m', Mount.exec (add sb number e width) m = (.error (.error err), m') ∧
        err.hasKind .directoryFull = true ∧
        ImageDisk.image m'.disk = ImageDisk.image m.disk ∧ m'.directory = m.directory) := by
  have before := Mount.shows_scene sound reliable
  rcases (Placed.ends_add known placed before fitting.short).exec_eq with
    ⟨_, m', run, s', after, ended⟩ | ⟨t, m', run, s', after, ended⟩
  · cases ended with
    | entered first =>
        have entered := (placed.withWidth width).entered first
          ((sb.width_withWidth known).symm ▸ fitting)
        refine ⟨fun _ => ⟨m', run, entered.inserted known placed fitting before after⟩, ?_⟩
        intro full
        exact absurd first.free (Image.forall_slotList_iff.mp full _ first.mem _ first.lt)
  · cases ended with
    | full full =>
        refine ⟨?_, fun _ => ⟨_, m', run, rfl, after.image, after.directory⟩⟩
        rintro ⟨slot, mem, free⟩
        exact absurd free (Image.forall_slotList_iff.mpr full slot mem)
    | stopped mishap => exact absurd trivial (mishap.of_small (Nat.le_refl _)).1
    | withdrawn _ _ failing => exact absurd trivial failing
    | left _ _ failing => exact absurd trivial failing

def smallDirectory : Inode :=
  { zone := #v[1, 0, 0, 0, 0, 0, 0, 0, 0] }

theorem zones_small : smallDirectory.zones = [1] :=
  Inode.zones_oneZone (show smallDirectory.zone = Inode.oneZone 1 from rfl) (by decide)

theorem placed_small : Placed {} 1 smallDirectory (Buffer.zeros 2080).size := by
  rw [Buffer.size_zeros]
  refine ⟨by decide, by decide, by decide, ?_, ?_, ?_⟩
  · rw [zones_small, List.forall_mem_singleton]
    decide
  · rw [zones_small]
    exact List.nodup_singleton 1
  · rw [zones_small, List.forall_mem_singleton]
    decide

theorem sound_small : ImageDisk.Sound (MemoryDisk.mk (Buffer.zeros 2080)) := by
  change (Buffer.zeros 2080).size < sizeLimit
  rw [Buffer.size_zeros]
  decide

theorem slotList_small {width : UInt64} (known : width = 14 ∨ width = 30) :
    (∀ slot ∈ Image.slotList (({} : Superblock).withWidth width) (Buffer.zeros 2080)
      smallDirectory, slot.inode = 0) ∧
    ∃ slot ∈ Image.slotList (({} : Superblock).withWidth width) (Buffer.zeros 2080)
      smallDirectory, slot.inode = 0 := by
  have zone : Image.zone (({} : Superblock).withWidth width) (Buffer.zeros 2080) 1
      = Buffer.zeros 1024 :=
    Buffer.window_zeros (show ({} : Superblock).zonePlace 1 + 1024 ≤ 2080 by decide)
  have some : 0 < (({} : Superblock).withWidth width).slots := by
    rcases known with rfl | rfl
    · decide
    · decide
  rw [Image.slotList, zones_small, List.flatMap_singleton, zone]
  constructor
  · intro slot mem
    obtain ⟨k, -, rfl⟩ := Image.mem_slotsOf.mp mem
    exact Image.slotEntry_zeros 1024 k
  · exact ⟨_, Image.mem_slotsOf.mpr ⟨0, some, rfl⟩, Image.slotEntry_zeros 1024 0⟩

theorem add_inserts_one_small :
    ∃ m', Mount.exec (add {} 1 ⟨65543, [0x61]⟩ 14)
        (⟨⟨Buffer.zeros 2080⟩, smallDirectory, {}, #[]⟩ : Mount MemoryDisk) = (.ok (), m') ∧
      (Mount.exec (lookup {} m'.directory [0x61] 14) m').1 = .ok (some 7) := by
  have sound := sound_small
  have placed := placed_small
  obtain ⟨empty, room⟩ := slotList_small (.inl rfl)
  generalize Buffer.zeros 2080 = img at sound placed empty room
  have shows : (⟨⟨img⟩, smallDirectory, {}, #[]⟩ : Mount MemoryDisk).Shows True
      ⟨img, smallDirectory, {}⟩ := Mount.shows_scene sound trivial
  have none : Image.entries (({} : Superblock).withWidth 14) img smallDirectory = [] := by
    rw [← Image.filter_slotList, List.filter_eq_nil_iff]
    simpa using empty
  have absent := placed.lookup_eq (.inl rfl) shows [0x61]
  rw [none] at absent
  obtain ⟨m', run, inserted⟩ := (add_inserts_one
    (m := (⟨⟨img⟩, smallDirectory, {}, #[]⟩ : Mount MemoryDisk)) sound (.inl rfl) placed
    (e := ⟨65543, [0x61]⟩) ⟨by decide, by decide, by decide⟩ trivial).1 room
  exact ⟨m', run, inserted.found absent⟩

theorem ends_add_left {m : Mount (FaultyDisk δ)} (h : m.Bears 1 2 s)
    (placed : Placed sb number s.directory s.image.size)
    (room : ∃ slot ∈ Image.slotList sb s.image s.directory, slot.inode = 0)
    (short : e.name.length ≤ sb.width.toNat) :
    Mount.Ends (add sb number e sb.width) m (fun _ _ => False)
      (fun t _ => ∃ err : Error, t = .error err ∧ err.hasKind .inconsistent = true) := by
  have find := Mount.ends_sure
    (ends_findSlot h.shows placed.zones fun _ => placed.zoneSize_le) (Nat.le_refl _)
  have reads := FaultyDisk.sameReads_writes (δ := δ) 1 2
  have directory : m.directory = s.directory := h.shows.directory
  have length := Entry.size_slotData short
  rw [add, Entry.encode_eq short]
  apply Mount.Ends.ok_bind
  apply Mount.ends_get
  rw [directory]
  refine Mount.Ends.next
    (h.ends (alike_findSlot reads sb sb.width fun _ _ => trivial).tracks find) ?_
  rintro r m₁ ⟨m₀, ⟨shows, ⟨rfl, full⟩ | ⟨z, k, rfl, first⟩⟩, twins⟩
  · obtain ⟨slot, mem, free⟩ := room
    exact absurd free (Image.forall_slotList_iff.mpr full slot mem)
  have h₁ := Mount.Bears.of_twins twins shows
  have enter := ends_writeSlot_told h₁.shows (placed.zones z first.mem) first.lt length
  refine Mount.Ends.next (h₁.ends (Mount.tracks_writeAt _ _).wrapping
    (Mount.Ends.wrapping enter (E := fun _ _ => False) ?_ ?_)) ?_
  · rintro _ _ ⟨_, -, -, failing, -⟩
    exact failing trivial
  · rintro _ _ ⟨_, -, -, failing, -⟩
    exact failing trivial
  rintro _ m₂ ⟨m₀', shows', twins'⟩
  have h₂ := Mount.Bears.of_twins twins' shows'
  refine Mount.Ends.next (Mount.Ends.of_exec (Mount.exec_trace _ m₂)
    (Q := fun _ m' => m'.Bears 0 2 _) ⟨h₂.rules, h₂.shows.log _⟩) ?_
  intro _ m₃ h₃
  refine Mount.Ends.next (h₃.ends_modifyDirectory _) ?_
  intro _ m₄ h₄
  apply Mount.ends_get
  have size := placed.size_slot first.mem first.lt length
  have store := Inode.ends_store_cut h₄ placed.pos
    (Nat.le_trans placed.record (Nat.le_of_eq size.symm)) m₄.directory
  refine Mount.Ends.next store.attempt_stop ?_
  rintro _ m₅ ⟨⟨err, rfl⟩, h₅⟩
  refine Mount.Ends.next (h₅.ends_modifyDirectory _) ?_
  intro _ m₆ h₆
  refine Mount.Ends.next (Mount.Ends.attempt_stop (P := fun _ => True)
    ((h₆.ends_writeAt_cut _ _).mono (fun _ _ h => h) fun _ _ cut => ⟨⟨_, cut.1⟩, trivial⟩)) ?_
  rintro _ m₇ ⟨⟨cause, rfl⟩, -⟩
  exact Mount.Ends.fail ⟨_, rfl, by simp [Error.hasKind, Error.kinds]⟩

include sound known placed fitting in
theorem add_all_or_nothing :
    match Mount.exec (add sb number e width) m with
    | (.ok _, m') => Entered (sb.withWidth width) number e (ImageDisk.image m.disk)
        (ImageDisk.image m'.disk) m.directory m'.directory
    | (.error (.error err), m') => Failed sb width number e m m' err
    | (.error (.panic _), _) => False := by
  have before : m.Shows False m.scene := ⟨sound, False.elim, rfl, rfl, rfl⟩
  have fitting' : e.Fitting (sb.withWidth width).width :=
    (sb.width_withWidth known).symm ▸ fitting
  rcases (Placed.ends_add known placed before fitting.short).exec_eq with
    ⟨_, m', run, s', after, ended⟩ | ⟨t, m', run, s', after, ended⟩
  · rw [run]
    cases ended with
    | entered first =>
        have entered := (placed.withWidth width).entered first fitting'
        change Entered _ _ _ _ (ImageDisk.image m'.disk) _ m'.directory
        rw [after.image, after.directory]
        exact entered
  · rw [run]
    cases ended with
    | full _ => exact .of_kept known placed rfl after
    | stopped mishap =>
        obtain ⟨-, err, calm, rfl⟩ := mishap.of_small (Nat.le_refl _)
        exact .of_kept known placed calm after
    | withdrawn first calm _ =>
        exact .of_cleared known placed first.toFreeSlot calm
          (Entry.size_slotData fitting'.short) after
    | left first refused _ => exact .of_left known placed first.toFreeSlot fitting refused after

theorem add_all_or_nothing_small :
    ∃ err m', Mount.exec (add {} 1 ⟨65543, [0x61]⟩ 30)
        (⟨⟨⟨Buffer.zeros 2080⟩, FaultRule.writes 1 2⟩, smallDirectory, {}, #[]⟩ :
          Mount (FaultyDisk MemoryDisk)) = (.error (.error err), m') ∧
      err.hasKind .inconsistent = true ∧
      Failed {} 30 1 ⟨65543, [0x61]⟩
        (⟨⟨⟨Buffer.zeros 2080⟩, FaultRule.writes 1 2⟩, smallDirectory, {}, #[]⟩ :
          Mount (FaultyDisk MemoryDisk)) m' err := by
  have sound := sound_small
  have placed := placed_small
  obtain ⟨-, room⟩ := slotList_small (.inr rfl)
  generalize Buffer.zeros 2080 = img at sound placed room
  have shows : (⟨⟨img⟩, smallDirectory, {}, #[]⟩ : Mount MemoryDisk).Shows True
      ⟨img, smallDirectory, {}⟩ := Mount.shows_scene sound trivial
  have bears : (⟨⟨⟨img⟩, FaultRule.writes 1 2⟩, smallDirectory, {}, #[]⟩ :
      Mount (FaultyDisk MemoryDisk)).Bears 1 2 ⟨img, smallDirectory, {}⟩ := ⟨rfl, shows⟩
  have ends := ends_add_left bears (e := ⟨65543, [0x61]⟩) (placed.withWidth 30) room (by decide)
  rw [Superblock.width_withWidth _ (.inr rfl), add_withWidth] at ends
  have told := add_all_or_nothing
    (m := (⟨⟨⟨img⟩, FaultRule.writes 1 2⟩, smallDirectory, {}, #[]⟩ :
      Mount (FaultyDisk MemoryDisk))) sound (.inr rfl) placed
    (e := ⟨65543, [0x61]⟩) ⟨by decide, by decide, by decide⟩
  rcases ends.exec_eq with ⟨_, _, _, impossible⟩ | ⟨_, m', run, err, rfl, inconsistent⟩
  · cases impossible
  · rw [run] at told
    exact ⟨err, m', run, inconsistent, told⟩

end Directory

end MinixVolume

import MinixVolume.Proofs.Format
import MinixVolume.Proofs.Run

namespace MinixVolume

namespace Volume

variable {δ : Type} [Disk δ] [ImageDisk δ] {m : Mount δ} {s : Scene} {v : Volume}

/-- Where the root directory has no zones, only the block of a new directory asks for a buffer of
the size of a zone. -/
theorem exec_mkdir_stranded (h : m.Shows True s) (ready : v.Ready s)
    (large : Word.largestBuffer.toNat < v.superblock.zoneSize.toNat) (bare : s.directory.zones = [])
    {name : Bytes} (plain : ¬ OddName name) (short : name.length ≤ v.superblock.width.toNat)
    (links : s.directory.links ≠ 0xff)
    (inode : ∃ n, v.superblock.IsInode n ∧ Image.inodeUsed v.superblock s.image n = false)
    (zone : ∃ z, v.superblock.IsDataZone z ∧ Image.zoneUsed v.superblock s.image z = false) :
    ∃ m' s', Mount.exec (v.mkdir name) m = (.error (.panic .allocation), m') ∧
      m'.Shows True s' ∧ Stranded v.superblock s s' := by
  obtain ⟨n, hn, freeInode⟩ := inode
  obtain ⟨z, hz, freeZone⟩ := zone
  have readable : Directory.need v.superblock s.directory ≤ Word.largestBuffer.toNat :=
    Directory.need_le_iff.mpr fun z hz => by rw [bare] at hz; cases hz
  have slotless {z : UInt64} {k : Nat}
      (found : Image.FreeSlot v.superblock s.image s.directory.zones z k) : False := by
    have mem := found.mem
    rw [bare] at mem
    cases mem
  rcases (ends_mkdir h ready name).exec_eq with
    ⟨i, m', -, s', -, made⟩ | ⟨t, m', run, s', h', failed⟩
  · cases made with
    | made _ _ found => exact (slotless found.toFreeSlot).elim
  cases failed with
  | refused why =>
      cases why with
      | name misnamed =>
          cases misnamed with
          | odd odd => exact absurd odd plain
          | long _ long => omega
          | taken _ _ _ taken =>
              rw [Image.entries, bare] at taken
              cases taken
      | links _ _ saturated => exact absurd saturated links
      | inodes _ _ full =>
          rw [full n hn] at freeInode
          cases freeInode
      | unreadable _ _ lt => omega
      | mishap stopped => exact absurd trivial stopped.not_steady
  | left _ _ found _ _ => exact (slotless found).elim
  | undone _ _ _ setback _ =>
      cases setback with
      | zones _ _ _ full =>
          rw [full z hz] at freeZone
          cases freeZone
      | slots planned _ buildable _ =>
          obtain ⟨-, number, zone, rfl⟩ := planned
          exact absurd large (Nat.not_lt_of_le (buildable zone rfl))
      | fault _ failing => exact absurd trivial failing
  | crashed _ fresh taking _ _ => exact ⟨m', _, run, h', fresh.stranded taking bare large⟩

end Volume

namespace Bare

def root : Inode :=
  { mode := Inode.directoryType ||| 0o755 }

/-- What the record of a free inode may still hold. -/
def stale : Inode :=
  { mode := Inode.regularType ||| 0o644, links := 1 }

def blank (sb : Superblock) (size : Nat) : Buffer :=
  (Buffer.zeros size).splice 1024 (Buffer.ofBytes sb.encode)

def image (sb : Superblock) (size : Nat) : Buffer :=
  Update.applyAll sb (blank sb size) [.inodeBit 1 true, .inode 1 root, .inode 2 stale]

def mount (sb : Superblock) (size : Nat) : Mount MemoryDisk :=
  ⟨⟨image sb size⟩, {}, {}, #[]⟩

theorem zones_root : root.zones = [] := by
  decide

section Image

variable {sb : Superblock} {size : Nat} (fits : sb.Fits size)
include fits

theorem room_header : 1024 + (Buffer.ofBytes sb.encode).size ≤ (Buffer.zeros size).size := by
  have table := fits.tableEnd_le_size
  rw [Buffer.size_ofBytes, Superblock.length_encode, Superblock.recordSize, Buffer.size_zeros]
  rw [Superblock.tablePlace] at table
  omega

theorem fits_blank : sb.Fits (blank sb size).size := by
  rw [blank, Buffer.size_splice (room_header fits), Buffer.size_zeros]
  exact fits

theorem header_blank : Image.header (blank sb size) = sb := by
  have self := Buffer.window_splice_self (room_header fits)
  rw [Buffer.size_ofBytes, Superblock.length_encode] at self
  rw [Image.header, blank, self, Buffer.toBytes_ofBytes, Superblock.ofRecord_encode]

theorem bit_blank {k : Nat} (outside : 2048 ≤ k / 8) : (blank sb size).bit k = false := by
  have length : (Buffer.ofBytes sb.encode).size = 20 := by
    rw [Buffer.size_ofBytes, Superblock.length_encode, Superblock.recordSize]
  rw [blank, Buffer.bit_splice_of_outside (room_header fits) (.inr (by omega)), Buffer.bit,
    Buffer.getElem?_zeros]
  split
  · exact BitVec.getLsbD_zero
  · exact BitVec.getLsbD_zero

variable (several : 2 ≤ sb.inodes.toNat)
include several

omit fits in
theorem valid : ∀ u ∈ [Update.inodeBit 1 true, .inode 1 root, .inode 2 stale], u.Valid sb := by
  have one : sb.IsInode 1 := ⟨Nat.le_refl 1, by omega⟩
  have two : sb.IsInode 2 := ⟨by decide, several⟩
  simp only [List.forall_mem_cons, List.not_mem_nil, false_implies, implies_true, and_true]
  exact ⟨one, one, two⟩

theorem size_image : (image sb size).size = size := by
  rw [image, Update.size_applyAll (valid several) (fits_blank fits), blank,
    Buffer.size_splice (room_header fits), Buffer.size_zeros]

theorem header_image : Image.header (image sb size) = sb := by
  rw [image, Update.part_applyAll Image.header (fun old _ => old) Update.header_apply
    (valid several) (fits_blank fits)]
  exact header_blank fits

theorem inodeUsed_image {n : Nat} (hn : sb.IsInode n) :
    Image.inodeUsed sb (image sb size) n = decide (n = 1) := by
  have lt := fits.inodes_lt
  have le := hn.2
  rw [image, Update.inodeUsed_applyAll (valid several) (fits_blank fits) (by omega),
    Image.inodeUsed, bit_blank fits (by rw [Superblock.inodeMapPlace]; omega)]
  simp [Update.onInodeBit]

theorem zoneUsed_image {z : UInt64} (hz : sb.IsDataZone z) :
    Image.zoneUsed sb (image sb size) z = false := by
  rw [Image.zoneUsed, image,
    Update.zoneMapBit_applyAll (valid several) (fits_blank fits) (fits.zoneNumber_lt hz),
    bit_blank fits (by rw [Superblock.zoneMapPlace]; omega)]
  rfl

theorem inode_image_one : Image.inode sb (image sb size) 1 = root := by
  apply Image.inode_of_record
  rw [image, Update.record_applyAll (valid several) (fits_blank fits) ⟨Nat.le_refl 1, by omega⟩]
  rfl

theorem inode_image_two : Image.inode sb (image sb size) 2 = stale := by
  apply Image.inode_of_record
  rw [image, Update.record_applyAll (valid several) (fits_blank fits) ⟨by decide, several⟩]
  rfl

theorem mem_usedInodes {n : Nat} :
    n ∈ Image.usedInodes sb (image sb size) ↔ n = 1 := by
  rw [Image.mem_usedInodes]
  constructor
  · rintro ⟨hn, used⟩
    rw [inodeUsed_image fits several hn] at used
    exact of_decide_eq_true used
  · rintro rfl
    have one : sb.IsInode 1 := ⟨Nat.le_refl 1, by omega⟩
    exact ⟨one, inodeUsed_image fits several one⟩

omit fits several in
theorem allEntries_eq_nil {img : Buffer}
    (bare : ∀ n ∈ Image.directories sb img, (Image.inode sb img n).zones = []) :
    Image.allEntries sb img = [] := by
  rw [Image.allEntries, List.flatMap_eq_nil_iff]
  intro n hn
  rw [Image.entries, bare n hn]
  rfl

theorem consistent : Image.Consistent (image sb size) := by
  have bare : ∀ n ∈ Image.usedInodes sb (image sb size),
      (Image.inode sb (image sb size) n).zones = [] := by
    intro n hn
    rw [(mem_usedInodes fits several).mp hn, inode_image_one fits several, zones_root]
  have entries := allEntries_eq_nil fun n hn => bare n (List.mem_filter.mp hn).1
  have owned : Image.ownedZones sb (image sb size) = [] := List.flatMap_eq_nil_iff.mpr bare
  refine ⟨⟨?_, ?_, ?_, ?_, ?_, ?_, ?_⟩, ?_⟩ <;> rw [header_image fits several]
  · rw [size_image fits several]
    exact fits
  · exact inodeUsed_image fits several ⟨Nat.le_refl 1, by omega⟩
  · rw [inode_image_one fits several]
    decide
  · rw [owned]
    exact List.forall_mem_nil _
  · rw [owned]
    exact List.nodup_nil
  · rw [entries]
    exact List.forall_mem_nil _
  · rw [inode_image_one fits several, Image.entries, zones_root]
    exact List.nodup_nil
  · rw [entries]
    intro n hn
    rw [(mem_usedInodes fits several).mp hn, inode_image_one fits several]
    rfl

theorem inOrder : (mount sb size).InOrder := by
  refine ⟨?_, trivial, consistent fits several⟩
  change (image sb size).size < sizeLimit
  rw [size_image fits several]
  exact fits.size_lt

theorem exec_openDisk : ∃ v m, Mount.exec (Volume.openDisk 0 false) (mount sb size) = (.ok v, m) ∧
    v.IsOpen (image sb size) m := by
  have inOrder := inOrder fits several
  obtain ⟨v, m, run, isOpen, -⟩ :=
    Volume.exec_openDisk inOrder.sound trivial inOrder.consistent.fits 0 false
  exact ⟨v, m, run, isOpen⟩

theorem eq_two_of_firstFree {n : Nat} (first : Image.FirstFree sb (image sb size) n) : n = 2 := by
  have free := first.free
  rw [inodeUsed_image fits several first.isInode, decide_eq_false_iff_not] at free
  have pos := first.isInode.1
  by_contra ne
  have used := first.least 2 (by decide) (by omega)
  rw [inodeUsed_image fits several ⟨by decide, several⟩] at used
  exact absurd used (by decide)

/-- The stranded inode has the record of a file that no entry names. -/
theorem not_consistent_of_stranded {s s' : Scene} (start : s.image = image sb size)
    (h : Stranded sb s s') : ¬ Image.Consistent s'.image := by
  obtain ⟨number, z, first, firstZone, rfl⟩ := h.taken
  rw [start] at first
  obtain rfl := eq_two_of_firstFree fits several first
  have one : sb.IsInode 1 := ⟨Nat.le_refl 1, by omega⟩
  have two : sb.IsInode 2 := first.isInode
  have fits' : sb.Fits (image sb size).size := by
    rw [size_image fits several]
    exact fits
  have valid : ∀ u ∈ [Update.inodeBit 2 true, .zoneBit z true], u.Valid sb := by
    simp only [List.forall_mem_cons, List.not_mem_nil, false_implies, implies_true, and_true]
    exact ⟨two, firstZone.isZone⟩
  dsimp only
  rw [start]
  generalize eq : Update.applyAll sb (image sb size) [.inodeBit 2 true, .zoneBit z true] = img
  have header : Image.header img = sb := by
    rw [← eq, Update.part_applyAll Image.header (fun old _ => old) Update.header_apply valid fits']
    exact header_image fits several
  have same {n : Nat} (hn : sb.IsInode n) :
      Image.inode sb img n = Image.inode sb (image sb size) n := by
    apply Image.inode_congr
    rw [← eq, Update.record_applyAll valid fits' hn]
    rfl
  have record := (same two).trans (inode_image_two fits several)
  have used {n : Nat} (hn : sb.IsInode n) :
      Image.inodeUsed sb img n = decide (n = 1 ∨ n = 2) := by
    have lt := fits.inodes_lt
    have le := hn.2
    rw [← eq, Update.inodeUsed_applyAll valid fits' (by omega), inodeUsed_image fits several hn]
    simp only [List.foldl_cons, List.foldl_nil, Update.onInodeBit]
    by_cases e : n = 2 <;> simp [e]
  have entries : Image.allEntries sb img = [] := by
    apply allEntries_eq_nil
    intro n hn
    obtain ⟨mem, directory⟩ := List.mem_filter.mp hn
    obtain ⟨hn, isUsed⟩ := Image.mem_usedInodes.mp mem
    rw [used hn, decide_eq_true_eq] at isUsed
    obtain rfl | rfl := isUsed
    · rw [same one, inode_image_one fits several, zones_root]
    · rw [record] at directory
      exact absurd directory (by decide)
  intro consistent
  have links := consistent.links
  rw [header] at links
  have none := links 2 (Image.mem_usedInodes.mpr ⟨two, by rw [used two]; rfl⟩)
  rw [record, entries] at none
  exact absurd none (by decide)

/-- Making a directory strands an inode. -/
theorem exec_mkdir (large : Word.largestBuffer.toNat < sb.zoneSize.toNat)
    (zone : sb.firstDataZone.toNat < sb.zones.toNat) {v : Volume} {m : Mount MemoryDisk}
    (isOpen : v.IsOpen (image sb size) m) {name : Bytes} (plain : ¬ OddName name)
    (short : name.length ≤ sb.width.toNat) :
    ∃ m' s', Mount.exec (v.mkdir name) m = (.error (.panic .allocation), m') ∧
      m'.Shows True s' ∧ Stranded sb (Volume.opened (image sb size) m.output) s' := by
  have superblock : v.superblock = sb := isOpen.superblock.trans (header_image fits several)
  have sound : ImageDisk.Sound m.disk := by
    change (ImageDisk.image m.disk).size < sizeLimit
    rw [isOpen.image, size_image fits several]
    exact fits.size_lt
  have directory : (Volume.opened (image sb size) m.output).directory = root := by
    rw [Volume.opened, header_image fits several, inode_image_one fits several]
  have shows : m.Shows True (Volume.opened (image sb size) m.output) :=
    ⟨sound, fun _ => trivial, isOpen.image, isOpen.directory, rfl⟩
  have orderly := (consistent fits several).toOrderly
  have start := Image.Grown.refl orderly (s := Volume.opened (image sb size) m.output) rfl rfl
  have ready := start.ready orderly isOpen.superblock isOpen.width
  have two : sb.IsInode 2 := ⟨by decide, several⟩
  have first := Superblock.Fits.toNat_firstDataZone sb
  have isZone : sb.IsDataZone sb.firstDataZone.toUInt64 := ⟨by omega, by omega⟩
  have stranding := Volume.exec_mkdir_stranded shows ready
  rw [superblock, directory] at stranding
  exact stranding large zones_root plain short (by decide)
    ⟨2, two, inodeUsed_image fits several two⟩ ⟨_, isZone, zoneUsed_image fits several isZone⟩

end Image

/-- Zones of 2⁴⁹ bytes, of which one is a data zone. -/
def wide : Superblock where
  inodes := 2
  zones := 2
  inodeMapBlocks := 1
  zoneMapBlocks := 1
  firstDataZone := 1
  logZoneSize := 39
  magic := Superblock.shortNameMagic
  state := 1

theorem fits_wide : wide.Fits 0x4000000000000 := by
  constructor <;> decide

end Bare

end MinixVolume

import MinixVolume.Proofs.Layout
import MinixVolume.Proofs.Packing
import MinixVolume.Proofs.Run

namespace MinixVolume

namespace Buffer

def written (b : Buffer) (writes : List (Nat × Buffer)) : Buffer :=
  writes.foldl (fun b w => b.splice w.1 w.2) b

theorem size_written {b : Buffer} {writes : List (Nat × Buffer)}
    (inside : ∀ w ∈ writes, w.1 + w.2.size ≤ b.size) : (b.written writes).size = b.size := by
  induction writes generalizing b with
  | nil => rfl
  | cons w writes ih =>
      have size := size_splice (inside w List.mem_cons_self)
      have rest : ∀ w' ∈ writes, w'.1 + w'.2.size ≤ (b.splice w.1 w.2).size := by
        intro w' hw'
        rw [size]
        exact inside w' (List.mem_cons_of_mem _ hw')
      exact (ih rest).trans size

theorem written_front {b a : Buffer} (h : a.size ≤ b.size) {writes : List (Nat × Buffer)}
    (inside : ∀ w ∈ writes, w.1 + w.2.size ≤ a.size) :
    (b.splice 0 a).written writes = b.splice 0 (a.written writes) := by
  induction writes generalizing a with
  | nil => rfl
  | cons w writes ih =>
      have here := inside w List.mem_cons_self
      have size := size_splice here
      have rest : ∀ w' ∈ writes, w'.1 + w'.2.size ≤ (a.splice w.1 w.2).size := by
        intro w' hw'
        rw [size]
        exact inside w' (List.mem_cons_of_mem _ hw')
      have next := ih (by rw [size]; exact h) rest
      rw [← splice_front h here] at next
      exact next

theorem getElem?_written {b : Buffer} {writes : List (Nat × Buffer)}
    (inside : ∀ w ∈ writes, w.1 + w.2.size ≤ b.size) {k : Nat}
    (outside : ∀ w ∈ writes, k < w.1 ∨ w.1 + w.2.size ≤ k) :
    (b.written writes).data[k]? = b.data[k]? := by
  induction writes generalizing b with
  | nil => rfl
  | cons w writes ih =>
      have here := inside w List.mem_cons_self
      have rest : ∀ w' ∈ writes, w'.1 + w'.2.size ≤ (b.splice w.1 w.2).size := by
        intro w' hw'
        rw [size_splice here]
        exact inside w' (List.mem_cons_of_mem _ hw')
      refine (ih rest fun w' hw' => outside w' (List.mem_cons_of_mem _ hw')).trans ?_
      have := outside w List.mem_cons_self
      rw [getElem?_splice here, if_neg (by omega)]

end Buffer

namespace Bitmap

structure FreshUpTo (bm : Bitmap) (blocks max : Nat) : Prop where
  isSet : ∀ n, n < 8192 * blocks →
    bm.isSet (UInt64.ofNat n) = .ok (decide (n ≤ 1 ∨ max < n))
  freeCount : bm.freeCount = .ok (UInt64.ofNat (max - 1))

theorem Covers.freshUpTo {bm : Bitmap} {img : Buffer} {off blocks : Nat}
    (covers : bm.Covers img off (1024 * blocks)) (few : blocks < 65536)
    (pos : 1 ≤ bm.max.toNat)
    (bits : ∀ n, n < 8192 * blocks →
      (img.bit (8 * off + n) = true ↔ n ≤ 1 ∨ bm.max.toNat < n)) :
    bm.FreshUpTo blocks bm.max.toNat := by
  have size := covers.size
  have max_lt := covers.max_lt
  have bit (n : Nat) (lt : n < 8192 * blocks) : bm.data.bit n = img.bit (8 * off + n) := by
    rw [covers.data, Buffer.bit_window (by omega)]
  constructor
  · intro n lt
    have word : (UInt64.ofNat n).toNat = n :=
      UInt64.toNat_ofNat_of_lt' (by rw [UInt64.size]; omega)
    rw [isSet_eq (by rw [word]; omega), word, bit n lt]
    congr 1
    rw [Bool.eq_iff_iff, bits n lt, decide_eq_true_eq]
  · have filled : ∀ k, 1 ≤ k → k ≤ bm.max.toNat → (bm.data.bit k = true ↔ k ≤ 1) := by
      intro k _ le
      rw [bit k (by omega), bits k (by omega)]
      omega
    exact freeCount_filled filled (by omega) pos

end Bitmap

namespace Format

def writes (sb : Superblock) (modified : UInt32) (inodeMap zoneMap : Buffer) :
    List (Nat × Buffer) :=
  [(1024, Buffer.ofBytes sb.encode), (sb.inodeMapPlace, inodeMap), (sb.zoneMapPlace, zoneMap),
    (sb.zonePlace sb.firstDataZone.toUInt64, Image.newZone sb Inode.root),
    (sb.recordPlace 1, Buffer.ofBytes (rootInode sb sb.width modified).encode)]

theorem freshImage_marked (sb : Superblock) (modified : UInt32) (inodeMap zoneMap img : Buffer) :
    freshImage sb modified (marked sb inodeMap zoneMap img)
      = img.written (writes sb modified inodeMap zoneMap) := rfl

def frontSize (sb : Superblock) : Nat :=
  1024 * (sb.firstDataZone.toNat + 1)

def front (sb : Superblock) (modified : UInt32) (inodeMap zoneMap : Buffer) : Buffer :=
  (Buffer.zeros (frontSize sb)).written (writes sb modified inodeMap zoneMap)

section Front

variable {sb : Superblock} (accepted : FormatOptions.Accepted sb) {inodeMap zoneMap : Buffer}
  (maps : FreshMaps sb inodeMap zoneMap) (modified : UInt32)
include accepted

theorem zonePlace_first :
    sb.zonePlace sb.firstDataZone.toUInt64 = 1024 * sb.firstDataZone.toNat := by
  rw [Superblock.zonePlace, accepted.toNat_zoneOffset (by
    rw [UInt16.toNat_toUInt64]; exact sb.firstDataZone.toNat_lt), UInt16.toNat_toUInt64]

include maps

theorem writes_cases {w : Nat × Buffer} (hw : w ∈ writes sb modified inodeMap zoneMap) :
    w.1 + w.2.size ≤ sb.tablePlace ∨ w.1 = sb.tablePlace ∧ w.2.size = 32 ∨
      w.1 = 1024 * sb.firstDataZone.toNat ∧ w.2.size = 1024 := by
  have wide : 1024 ≤ sb.zoneSize.toNat := by
    rw [accepted.zoneSize_eq]
    decide
  have length := Image.size_newZone wide Inode.root
  rw [accepted.zoneSize_eq, show (1024 : UInt64).toNat = 1024 from rfl] at length
  have size₁ := maps.inodeMap_size
  have size₂ := maps.zoneMap_size
  have record := Inode.length_encode (rootInode sb sb.width modified)
  simp only [writes, List.mem_cons, List.not_mem_nil, or_false] at hw
  rcases hw with rfl | rfl | rfl | rfl | rfl
  · left
    simp only [Buffer.size_ofBytes, Superblock.length_encode, Superblock.recordSize,
      Superblock.tablePlace]
    omega
  · left
    simp only [Superblock.inodeMapPlace, Superblock.tablePlace]
    omega
  · left
    simp only [Superblock.zoneMapPlace, Superblock.tablePlace]
    omega
  · exact .inr (.inr ⟨zonePlace_first accepted, length⟩)
  · exact .inr (.inl ⟨rfl, by rw [Buffer.size_ofBytes, record]⟩)

theorem writes_inside {w : Nat × Buffer} (hw : w ∈ writes sb modified inodeMap zoneMap) :
    w.1 + w.2.size ≤ frontSize sb := by
  have place := writes_cases accepted maps modified hw
  have first := accepted.first
  have pos := accepted.inodes_pos
  rw [Superblock.tablePlace] at place
  rw [frontSize]
  omega

theorem size_front : (front sb modified inodeMap zoneMap).size = frontSize sb := by
  rw [front, Buffer.size_written, Buffer.size_zeros]
  intro w hw
  rw [Buffer.size_zeros]
  exact writes_inside accepted maps modified hw

theorem freshImage_eq {img : Buffer} (hf : sb.Fits img.size) :
    freshImage sb modified (marked sb inodeMap zoneMap (blanked sb img))
      = img.splice 0 (front sb modified inodeMap zoneMap) := by
  have fit := fit_blanked accepted hf
  rw [Nat.zero_add] at fit
  rw [freshImage_marked, blanked, Buffer.written_front fit, front, frontSize]
  intro w hw
  rw [Buffer.size_zeros]
  exact writes_inside accepted maps modified hw

theorem getElem?_front {k : Nat} (lower : sb.tablePlace + 32 ≤ k)
    (upper : k < 1024 * sb.firstDataZone.toNat) :
    (front sb modified inodeMap zoneMap).data[k]? = some 0 := by
  rw [front, Buffer.getElem?_written, Buffer.getElem?_zeros, if_pos (by rw [frontSize]; omega)]
  · intro w hw
    rw [Buffer.size_zeros]
    exact writes_inside accepted maps modified hw
  · intro w hw
    have place := writes_cases accepted maps modified hw
    omega

end Front

variable {δ : Type} [Disk δ] [ImageDisk δ]

def freshRoot (o : FormatOptions) (sb : Superblock) : Inode where
  mode := rootMode
  size := UInt32.ofNat (2 * (2 + sb.width.toNat))
  links := 2
  modified := o.modified
  zone := Inode.oneZone sb.firstDataZone

theorem rootInode_eq (o : FormatOptions) (sb : Superblock) :
    rootInode sb sb.width o.modified = freshRoot o sb := by
  rcases sb.width_cases with short | long
  · simp only [rootInode, freshRoot, short]
    rfl
  · simp only [rootInode, freshRoot, long]
    rfl

structure Reads (o : FormatOptions) (sb : Superblock) (m : Mount δ) : Prop where
  header : (Mount.exec Superblock.load m).1 = .ok sb
  inodeMap : ∃ bm, (Mount.exec sb.loadInodeMap m).1 = .ok bm ∧
    bm.FreshUpTo sb.inodeMapBlocks.toNat sb.inodes.toNat
  zoneMap : ∃ bm, (Mount.exec sb.loadZoneMap m).1 = .ok bm ∧
    bm.FreshUpTo sb.zoneMapBlocks.toNat sb.dataZones.toNat
  record : (Mount.exec (Inode.load sb.inodeTableStart 1) m).1 = .ok (freshRoot o sb)
  table : ∀ k, sb.inodeTableStart.toNat + 32 ≤ k →
    k < sb.inodeTableStart.toNat + sb.inodeTableBlocks.toNat * 1024 →
    (ImageDisk.image m.disk).data[k]? = some 0
  opens : ∀ (clock : Int64) (color : Bool), ∃ m',
    Mount.exec (Volume.openDisk clock color) m = (.ok ⟨sb, sb.width, clock, color⟩, m') ∧
      m'.directory = freshRoot o sb ∧
      (Mount.exec (Directory.list sb m'.directory sb.width) m').1
        = .ok [⟨1, Bytes.ofString "."⟩, ⟨1, Bytes.ofString ".."⟩]

section Reading

variable {m : Mount δ} {sb : Superblock} {img : Buffer} (prepared : Prepared sb img)
  (accepted : FormatOptions.Accepted sb) (o : FormatOptions) {s : Scene}
  (h : m.Shows True { s with image := freshImage sb o.modified img })
include prepared accepted h

theorem exec_load_fresh : (Mount.exec Superblock.load m).1 = .ok sb := by
  have fits := fits_fresh prepared accepted o.modified
  have table := fits.tableEnd_le_size
  rw [Superblock.tablePlace] at table
  have load := Mount.ends_sure (Superblock.ends_load h (by dsimp only; omega)) (Nat.zero_le _)
  obtain ⟨_, m', run, rfl, -⟩ := load.exec_ok
  rw [run]
  exact congrArg Except.ok (header_fresh prepared accepted o.modified)

theorem exec_loadInodeMap_fresh :
    ∃ bm, (Mount.exec sb.loadInodeMap m).1 = .ok bm ∧
      bm.FreshUpTo sb.inodeMapBlocks.toNat sb.inodes.toNat := by
  have fits := fits_fresh prepared accepted o.modified
  have load := Mount.ends_sure (Superblock.ends_loadInodeMap h fits) (Nat.zero_le _)
  obtain ⟨bm, m', run, max, covers, -⟩ := load.exec_ok
  have count : bm.max.toNat = sb.inodes.toNat := by rw [max, UInt16.toNat_toUInt64]
  refine ⟨bm, by rw [run], ?_⟩
  rw [← count]
  refine covers.freshUpTo sb.inodeMapBlocks.toNat_lt (by rw [count]; exact fits.inodes_pos) ?_
  intro n lt
  rw [count, ← prepared.inodes n lt]
  exact iff_of_eq (congrArg (· = true)
    (Update.inodeUsed_applyAll (valid_fresh prepared accepted o.modified) prepared.fits lt))

theorem exec_loadZoneMap_fresh :
    ∃ bm, (Mount.exec sb.loadZoneMap m).1 = .ok bm ∧
      bm.FreshUpTo sb.zoneMapBlocks.toNat sb.dataZones.toNat := by
  have fits := fits_fresh prepared accepted o.modified
  have zones := sb.toNat_dataZones
  have first_lt := accepted.first_lt
  have load := Mount.ends_sure (Superblock.ends_loadZoneMap h fits) (Nat.zero_le _)
  obtain ⟨bm, m', run, max, covers, -⟩ := load.exec_ok
  refine ⟨bm, by rw [run], ?_⟩
  rw [← max]
  refine covers.freshUpTo sb.zoneMapBlocks.toNat_lt (by rw [max]; omega) ?_
  intro n lt
  rw [max, ← prepared.zones n lt]
  exact iff_of_eq (congrArg (· = true)
    (Update.zoneMapBit_applyAll (valid_fresh prepared accepted o.modified) prepared.fits lt))

theorem exec_loadRoot_fresh :
    (Mount.exec (Inode.load sb.inodeTableStart 1) m).1 = .ok (freshRoot o sb) := by
  have fits := fits_fresh prepared accepted o.modified
  have load := Mount.ends_sure (Inode.ends_load h fits (n := 1) ⟨Nat.le_refl 1, fits.inodes_pos⟩)
    (Nat.zero_le _)
  obtain ⟨_, m', run, rfl, -⟩ := load.exec_ok
  rw [run, ← rootInode_eq]
  exact congrArg Except.ok (inode_fresh prepared accepted o.modified)

theorem exec_openDisk_fresh (clock : Int64) (color : Bool) : ∃ m',
    Mount.exec (Volume.openDisk clock color) m = (.ok ⟨sb, sb.width, clock, color⟩, m') ∧
      m'.directory = freshRoot o sb ∧
      (Mount.exec (Directory.list sb m'.directory sb.width) m').1
        = .ok [⟨1, Bytes.ofString "."⟩, ⟨1, Bytes.ofString ".."⟩] := by
  have fits := fits_fresh prepared accepted o.modified
  have header := header_fresh prepared accepted o.modified
  have root := inode_fresh prepared accepted o.modified
  have entries := entries_fresh prepared accepted o.modified
  have isZone := (valid_fresh prepared accepted o.modified _ List.mem_cons_self).1
  have opening := Volume.ends_openDisk_eq h (by dsimp only; rw [header]; exact fits) clock color
  dsimp only at opening
  rw [header, root] at opening
  obtain ⟨_, m', run, rfl, h'⟩ := (Mount.ends_sure opening (Nat.zero_le _)).exec_ok
  have inside : ∀ z ∈ (rootInode sb sb.width o.modified).zones,
      sb.zonePlace z + sb.zoneSize.toNat ≤ (freshImage sb o.modified img).size := by
    rw [zones_rootInode accepted]
    intro z hz
    rw [List.mem_singleton.mp hz]
    exact fits.zoneEnd_le isZone
  have list := Directory.ends_list h' inside
  rw [accepted.zoneSize_eq] at list
  obtain ⟨_, m'', listed, rfl, -⟩ := (Mount.ends_sure list (by decide)).exec_ok
  refine ⟨m', run, h'.directory.trans (rootInode_eq o sb), ?_⟩
  rw [h'.directory, listed]
  rw [root] at entries
  exact congrArg Except.ok entries

end Reading

def Rejects (o : FormatOptions) (m : Mount δ) : Prop :=
  ∃ e m', Mount.exec (run o) m = (.error (.error e), m') ∧ e.kinds = [.usage] ∧
    ImageDisk.image m'.disk = ImageDisk.image m.disk

structure Writes (o : FormatOptions) (front : Buffer) (sb : Superblock) (m m' : Mount δ) :
    Prop where
  answer : Mount.exec (run o) m = (.ok sb, m')
  size_front : front.size = (sb.firstDataZone.toNat + 1) * 1024
  size : (ImageDisk.image m'.disk).size = (ImageDisk.image m.disk).size
  before : (ImageDisk.image m'.disk).window 0 front.size = front
  behind : ∀ k, front.size ≤ k →
    (ImageDisk.image m'.disk).data[k]? = (ImageDisk.image m.disk).data[k]?
  reads : Reads o sb m'

theorem rejects_of_layout {o : FormatOptions} {t : Stop} (layout : o.layout = .error t)
    (m : Mount δ) : Rejects o m := by
  obtain ⟨e, rfl, kinds⟩ := FormatOptions.usage_of_layout layout
  refine ⟨e, m, ?_, kinds, rfl⟩
  rw [run, layout, Mount.exec_bind, Mount.exec_liftExcept]

theorem rejects_of_small {o : FormatOptions} {sb : Superblock} (layout : o.layout = .ok sb)
    {m : Mount δ} (sound : ImageDisk.Sound m.disk) (reliable : ImageDisk.Reliable m.disk)
    (small : (ImageDisk.image m.disk).size / 1024 < sb.zones.toNat) : Rejects o m := by
  have shows := Mount.shows_scene sound reliable
  have stops : Mount.Ends (run o) m (fun _ _ => False)
      (fun t m' => (∃ e, t = .error e ∧ e.kinds = [.usage]) ∧
        ImageDisk.image m'.disk = ImageDisk.image m.disk) := by
    rw [run, layout]
    apply Mount.Ends.ok_bind
    refine Mount.Ends.bind (ends_blockCount shows) ?_ fun _ _ impossible => impossible.elim
    rintro n m₁ ⟨count, h₁⟩
    rw [if_pos (by rw [UInt64.lt_iff_toNat_lt, UInt16.toNat_toUInt64, count]; exact small)]
    exact Mount.Ends.fail_bind ⟨⟨_, rfl, rfl⟩, h₁.image⟩
  rcases stops.exec_eq with ⟨_, _, _, impossible⟩ | ⟨_, m', run, ⟨e, rfl, kinds⟩, image⟩
  · cases impossible
  · exact ⟨e, m', run, kinds, image⟩

theorem writes_of_room {o : FormatOptions} {sb : Superblock} (layout : o.layout = .ok sb)
    {inodeMap zoneMap : Buffer} (maps : FreshMaps sb inodeMap zoneMap) {m : Mount δ}
    (sound : ImageDisk.Sound m.disk) (reliable : ImageDisk.Reliable m.disk)
    (room : sb.zones.toNat ≤ (ImageDisk.image m.disk).size / 1024) :
    ∃ m', Writes o (front sb o.modified inodeMap zoneMap) sb m m' := by
  have accepted := FormatOptions.accepted_of_layout layout
  have planned := FormatOptions.planned_of_layout layout
  have shows := Mount.shows_scene sound reliable
  have room : sb.zones.toNat * 1024 ≤ m.scene.image.size := by
    change sb.zones.toNat * 1024 ≤ (ImageDisk.image m.disk).size
    omega
  have hf := accepted.fits room shows.size_lt
  have prepared := prepared_blanked accepted hf maps
  have size := size_front accepted maps o.modified
  have fit : 0 + (front sb o.modified inodeMap zoneMap).size ≤ m.scene.image.size := by
    have first_lt := accepted.first_lt
    rw [size, frontSize]
    omega
  obtain ⟨_, m', run, rfl, h'⟩ := (ends_run_eq shows layout room maps).exec_ok
  have image := h'.image
  dsimp only at image
  rw [freshImage_eq accepted maps o.modified hf] at image
  refine ⟨m', run, ?_, ?_, ?_, ?_, ?_, ?_, ?_, ?_, ?_, ?_⟩
  · rw [size, frontSize, Nat.mul_comm]
  · rw [image, Buffer.size_splice fit]
    rfl
  · rw [image, Buffer.window_splice_self fit]
  · intro k behind
    rw [image, Buffer.getElem?_splice fit, if_neg (by omega)]
    rfl
  · exact exec_load_fresh prepared accepted o h'
  · exact exec_loadInodeMap_fresh prepared accepted o h'
  · exact exec_loadZoneMap_fresh prepared accepted o h'
  · exact exec_loadRoot_fresh prepared accepted o h'
  · intro k lower upper
    rw [planned.tableEnd] at upper
    rw [Superblock.toNat_inodeTableStart] at lower
    have place := zonePlace_first accepted
    rw [Superblock.zonePlace] at place
    rw [image, Buffer.getElem?_splice fit, if_pos (by rw [size, frontSize]; omega), Nat.sub_zero]
    exact getElem?_front accepted maps o.modified lower (by omega)
  · exact exec_openDisk_fresh prepared accepted o h'

theorem run_exact (o : FormatOptions) :
    ∃ front : Buffer, ∀ {δ : Type} [Disk δ] [ImageDisk δ] (m : Mount δ),
      ImageDisk.Sound m.disk → ImageDisk.Reliable m.disk →
        match o.layout with
        | .error _ => Rejects o m
        | .ok sb =>
            if (ImageDisk.image m.disk).size / 1024 < sb.zones.toNat then Rejects o m
            else ∃ m', Writes o front sb m m' := by
  cases layout : o.layout with
  | error t => exact ⟨.empty, fun m _ _ => rejects_of_layout layout m⟩
  | ok sb =>
      have accepted := FormatOptions.accepted_of_layout layout
      have first_lt := accepted.first_lt
      have hf := FormatOptions.Accepted.fits accepted (Nat.le_refl _) (Nat.lt_of_lt_of_le
        (Nat.mul_lt_mul_of_pos_right sb.zones.toNat_lt (by decide)) (by decide))
      obtain ⟨inodeMap, zoneMap, maps⟩ :=
        exists_freshMaps hf (by rw [Superblock.toNat_dataZones]; omega)
      refine ⟨front sb o.modified inodeMap zoneMap, ?_⟩
      intro δ _ _ m sound reliable
      dsimp only
      split
      next small => exact rejects_of_small layout sound reliable small
      next room => exact writes_of_room layout maps sound reliable (Nat.le_of_not_lt room)

theorem run_exact_small :
    ∃ (front : Buffer) (sb : Superblock) (m' : Mount MemoryDisk),
      Writes { blocks := 8, inodes := 32 } front sb ⟨⟨Buffer.zeros 8192⟩, {}, {}, #[]⟩ m' := by
  obtain ⟨sb, b, layout, rfl, size⟩ := room_small
  obtain ⟨front, run⟩ := run_exact { blocks := 8, inodes := 32 }
  have written := run (⟨⟨Buffer.zeros 8192⟩, {}, {}, #[]⟩ : Mount MemoryDisk)
    (sound_of_size size) trivial
  rw [layout] at written
  dsimp only at written
  rw [if_neg] at written
  · obtain ⟨m', writes⟩ := written
    exact ⟨front, sb, m', writes⟩
  · change ¬ (Buffer.zeros 8192).size / 1024 < sb.zones.toNat
    omega

end Format

end MinixVolume

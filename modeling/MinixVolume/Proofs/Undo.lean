import MinixVolume.Proofs.Format
import MinixVolume.Proofs.Run

namespace MinixVolume

namespace Image

/-- A failed command `c` has been taken back. What it may leave is an inode record, a zone if it was
to make a directory, and zeros in a slot of the root directory, all of which were free and are
free. -/
structure Undone (c : Command) (img₀ img : Buffer) : Prop where
  size : img.size = img₀.size
  maps : img.window (header img₀).inodeMapPlace
      (1024 * ((header img₀).inodeMapBlocks.toNat + (header img₀).zoneMapBlocks.toNat))
    = img₀.window (header img₀).inodeMapPlace
      (1024 * ((header img₀).inodeMapBlocks.toNat + (header img₀).zoneMapBlocks.toNat))
  root : record (header img₀) img 1 = record (header img₀) img₀ 1
  entries : entries (header img₀) img (inode (header img₀) img 1)
    = entries (header img₀) img₀ (inode (header img₀) img₀ 1)
  rest : ∃ (number : Option Nat) (free : Option UInt64) (slot : Option (UInt64 × Nat)),
    (∀ n ∈ number, (header img₀).IsInode n ∧ inodeUsed (header img₀) img₀ n = false ∧
      inodeUsed (header img₀) img n = false) ∧
    (∀ z ∈ free, (∃ name, c = .mkdir name) ∧ (header img₀).IsDataZone z ∧
      zoneUsed (header img₀) img₀ z = false ∧ zoneUsed (header img₀) img z = false) ∧
    (∀ z k, (z, k) ∈ slot →
      FreeSlot (header img₀) img₀ (inode (header img₀) img₀ 1).zones z k ∧
      (zone (header img₀) img z).window (k * (header img₀).slotBytes) (header img₀).slotBytes
        = Buffer.zeros (header img₀).slotBytes) ∧
    ∀ p, (∀ n ∈ number, p < (header img₀).recordPlace n ∨ (header img₀).recordPlace n + 32 ≤ p) →
      (∀ z ∈ free, p < (header img₀).zonePlace z ∨
        (header img₀).zonePlace z + (header img₀).zoneSize.toNat ≤ p) →
      (∀ z k, (z, k) ∈ slot → p < (header img₀).slotPlace z k ∨
        (header img₀).slotPlace z k + (header img₀).slotBytes ≤ p) →
      img.data[p]? = img₀.data[p]?

theorem Undone.refl (c : Command) (img : Buffer) : Undone c img img where
  size := rfl
  maps := rfl
  root := rfl
  entries := rfl
  rest := ⟨none, none, none, fun _ h => (nomatch h), fun _ h => (nomatch h),
    fun _ _ h => (nomatch h), fun _ _ _ _ => rfl⟩

end Image

namespace Attempted

variable {sb : Superblock} {s : Scene} {c : Creation} {us : List Update}
  {slot : Option (UInt64 × Nat)} (h : Attempted sb s c slot us) (fresh : c.Fresh sb s)
  (zones : ∀ z ∈ s.directory.zones, sb.IsDataZone z ∧ Image.zoneUsed sb s.image z = true)
  (hf : sb.Fits s.image.size)
include h fresh zones hf

theorem maps_again {p : Nat} (lower : sb.inodeMapPlace ≤ p) (upper : p < sb.tablePlace) :
    (Update.applyAll sb s.image (us ++ releases c.number.toNat c.zone)).data[p]?
      = s.image.data[p]? := by
  have given := List.Subset.refl (releases c.number.toNat c.zone)
  have foot := h.footprint fresh given zones
  obtain ⟨freeInode, freeZone⟩ := h.free_again fresh given zones hf rfl
  have place₁ : sb.inodeMapPlace = 2048 := rfl
  have place₂ : sb.zoneMapPlace = 1024 * (2 + sb.inodeMapBlocks.toNat) := rfl
  have place₃ : sb.tablePlace
      = 1024 * (2 + sb.inodeMapBlocks.toNat + sb.zoneMapBlocks.toNat) := rfl
  -- One bit of each map was set for a while; every other bit was left alone all the time.
  apply Buffer.getElem?_eq_of_bits (foot.size_eq hf)
  intro k hk
  by_cases first : p < sb.zoneMapPlace
  · obtain ⟨n, rfl⟩ : ∃ n, k = 8 * sb.inodeMapPlace + n := ⟨k - 8 * sb.inodeMapPlace, by omega⟩
    by_cases e : n = c.number.toNat
    · rw [e]
      exact freeInode.trans fresh.free.symm
    · exact Update.inodeUsed_of_local foot.valid hf foot.within (by omega) e
  · obtain ⟨n, rfl⟩ : ∃ n, k = 8 * sb.zoneMapPlace + n := ⟨k - 8 * sb.zoneMapPlace, by omega⟩
    by_cases e : ∃ z ∈ c.zone, n = sb.zoneNumber z
    · obtain ⟨z, hz, rfl⟩ := e
      exact (freeZone z hz).trans (fresh.zone z hz).2.1.symm
    · exact Update.zoneMapBit_of_local foot.valid hf foot.within (by omega)
        fun z hz eq => e ⟨z, hz, eq⟩

theorem getElem?_again (notRoot : c.number.toNat ≠ 1) {p : Nat}
    (record : p < sb.recordPlace c.number.toNat ∨ sb.recordPlace c.number.toNat + 32 ≤ p)
    (free : ∀ z ∈ c.zone, p < sb.zonePlace z ∨ sb.zonePlace z + sb.zoneSize.toNat ≤ p)
    (slots : ∀ z k, (z, k) ∈ slot →
      p < sb.slotPlace z k ∨ sb.slotPlace z k + sb.slotBytes ≤ p) :
    (Update.applyAll sb s.image (us ++ releases c.number.toNat c.zone)).data[p]?
      = s.image.data[p]? := by
  have given := List.Subset.refl (releases c.number.toNat c.zone)
  have foot := h.footprint fresh given zones
  by_cases maps : sb.inodeMapPlace ≤ p ∧ p < sb.tablePlace
  · exact h.maps_again fresh zones hf maps.1 maps.2
  · refine Update.getElem?_of_local foot.valid hf foot.within (by omega) record ?_ free slots
    rintro ⟨u, hu, ip, rfl⟩
    exact absurd (h.within_append given _ hu).symm notRoot

end Attempted

theorem Image.undone_of_attempted {s : Scene} (orderly : Orderly s.image)
    (directory : s.directory = inode (header s.image) s.image 1) {c : Creation}
    {slot : Option (UInt64 × Nat)} {us : List Update}
    (h : Attempted (header s.image) s c slot us) (fresh : c.Fresh (header s.image) s)
    {command : Command} (making : ∀ z ∈ c.zone, ∃ name, command = .mkdir name) :
    Undone command s.image
      (Update.applyAll (header s.image) s.image (us ++ releases c.number.toNat c.zone)) := by
  have start := Grown.refl orderly rfl directory
  have hf := orderly.fits
  have zones := start.zones_used orderly
  have notRoot := start.number_ne_one orderly fresh
  have given := List.Subset.refl (releases c.number.toNat c.zone)
  have foot := h.footprint fresh given zones
  have root := h.record_one fresh given zones hf notRoot
  obtain ⟨freeInode, freeZone⟩ := h.free_again fresh given zones hf rfl
  refine ⟨foot.size_eq hf, ?_, root, ?_, some c.number.toNat, c.zone, slot, ?_, ?_, ?_, ?_⟩
  · apply Buffer.window_congr
    intro p lower upper
    apply h.maps_again fresh zones hf lower
    rw [Superblock.inodeMapPlace] at upper
    rw [Superblock.tablePlace]
    omega
  · rw [inode_congr root, ← directory]
    exact entries_congr fun z hz => h.rootEntries fresh given zones hf hz
  · rintro n ⟨⟩
    exact ⟨fresh.isInode, fresh.free, freeInode⟩
  · intro z hz
    obtain ⟨isZone, free, -⟩ := fresh.zone z hz
    exact ⟨making z hz, isZone, free, freeZone z hz⟩
  · intro z k mem
    have found := h.freeSlot mem
    have inside := Superblock.Fits.slotEnd_le _ found.lt
    rw [← size_zone (hf.zoneEnd_le (zones z found.mem).1),
      ← Buffer.size_zeros (Superblock.slotBytes _)] at inside
    refine ⟨directory ▸ found, ?_⟩
    rw [h.slotZone fresh given zones hf mem]
    have self := Buffer.window_splice_self inside
    rw [Buffer.size_zeros] at self
    exact self
  · intro p record free slots
    exact h.getElem?_again fresh zones hf notRoot (record _ rfl) free slots

theorem Directory.list_alike {δ δ' : Type} {sb : Superblock} {ip : Inode} {img img' : Buffer}
    (limit : img.size < sizeLimit) (size : img'.size = img.size)
    (inside : ∀ z ∈ ip.zones, sb.zonePlace z + sb.zoneSize.toNat ≤ img.size)
    (same : Image.entries sb img' ip = Image.entries sb img ip) (m : Mount δ) (m' : Mount δ') :
    (Mount.exec (list sb ip sb.width) (m'.onto (⟨img'⟩ : MemoryDisk))).1
      = (Mount.exec (list sb ip sb.width) (m.onto (⟨img⟩ : MemoryDisk))).1 := by
  have limit' : img'.size < sizeLimit := Nat.lt_of_le_of_lt (Nat.le_of_eq size) limit
  by_cases small : sb.zoneSize.toNat ≤ Word.largestBuffer.toNat
  · have shows {δ : Type} (m : Mount δ) {img : Buffer} (limit : img.size < sizeLimit) :
        (m.onto (⟨img⟩ : MemoryDisk)).Shows True ⟨img, m.directory, m.output⟩ :=
      ⟨limit, fun _ => trivial, rfl, rfl, rfl⟩
    rw [answer_list (shows m limit) inside fun _ _ => small,
      answer_list (shows m' limit') (by rwa [size]) fun _ _ => small, same]
  · have large : Word.largestBuffer.toNat < sb.zoneSize.toNat := by omega
    rw [list]
    cases zones : ip.zones with
    | nil => rfl
    | cons z zs =>
        have inside := inside z (zones ▸ List.mem_cons_self)
        rw [listZones, Mount.exec_bind, Mount.exec_bind,
          exec_readZone_oversized (m := m.onto (⟨img⟩ : MemoryDisk)) limit large inside,
          exec_readZone_oversized (m := m'.onto (⟨img'⟩ : MemoryDisk)) limit' large
            (Nat.le_trans inside (Nat.le_of_eq size.symm))]

namespace Format

variable {sb : Superblock} {img : Buffer} (prepared : Prepared sb img)
  (accepted : FormatOptions.Accepted sb) (modified : UInt32)
include prepared accepted

theorem inodeUsed_fresh {n : Nat} (hn : sb.IsInode n) (notRoot : n ≠ 1) :
    Image.inodeUsed sb (freshImage sb modified img) n = false := by
  by_contra used
  have mem := Image.mem_usedInodes.mpr ⟨hn, Bool.not_eq_false _ ▸ used⟩
  rw [usedInodes_fresh prepared accepted modified] at mem
  exact notRoot (List.mem_singleton.mp mem)

theorem full_fresh (one : sb.zones.toNat = sb.firstDataZone.toNat + 1) (z : UInt64)
    (hz : sb.IsDataZone z) : Image.zoneUsed sb (freshImage sb modified img) z = true := by
  have first := Superblock.Fits.toNat_firstDataZone sb
  obtain ⟨lower, upper⟩ := hz
  obtain rfl : z = sb.firstDataZone.toUInt64 := UInt64.toNat_inj.mp (by omega)
  exact zoneUsed_fresh prepared accepted modified

end Format

namespace Volume

def Unreleased (e : Error) (log : Log) : Prop :=
  ∃ (cause f : Error) (fs : List Error) (inode zone : UInt64),
    e = cause.joinAll (f :: fs) ∧ log.back? = some (.notReleased inode zone (f.joinAll fs))

theorem undone_of_outcome {s s' : Scene} (orderly : Image.Orderly s.image)
    (directory : s.directory = Image.inode (Image.header s.image) s.image 1) {v : Volume}
    {c : Command} {name : Bytes} {steady : Prop} {e : Error} {log : Log}
    (h : Outcome (Image.header s.image) name (v.Plan s.directory c) steady s (.error (.error e)) s'
      log)
    (whole : e.hasKind .inconsistent = false) (released : ¬ Unreleased e log) :
    s'.directory = s.directory ∧ Image.Undone c s.image s'.image := by
  cases h with
  | refused _ => exact ⟨rfl, .refl c s.image⟩
  | left _ _ _ inconsistent _ =>
      rw [whole] at inconsistent
      cases inconsistent
  | undone planned fresh attempted _ given =>
      cases given with
      | part _ _ logged => exact absurd ⟨_, _, _, _, _, rfl, logged⟩ released
      | all =>
          refine ⟨rfl, Image.undone_of_attempted orderly directory attempted fresh ?_⟩
          intro z hz
          rcases planned with bare | planned
          · rw [bare.1] at hz
            cases hz
          · exact planned.mkdir_of_zone hz

variable {δ : Type} [Disk δ] [ImageDisk δ]

theorem joinAll_ne {e : Error} (single : ∀ a b, e ≠ .joined a b) (cause f : Error)
    (fs : List Error) : e ≠ cause.joinAll (f :: fs) := by
  induction fs generalizing cause f with
  | nil => exact single cause f
  | cons f' fs ih => exact ih (cause.joined f) f'

theorem exec_mkdir_full {m : Mount δ} {s : Scene} {v : Volume} {steady : Prop}
    (h : m.Shows steady s) (working : steady) (ready : v.Ready s)
    (small : v.superblock.zoneSize.toNat ≤ Word.largestBuffer.toNat)
    {name : Bytes} (new : NewName v.superblock s name) (links : s.directory.links ≠ 0xff)
    {n : Nat} (hn : v.superblock.IsInode n) (free : Image.inodeUsed v.superblock s.image n = false)
    (full : ∀ z, v.superblock.IsDataZone z → Image.zoneUsed v.superblock s.image z = true) :
    ∃ e m', Mount.exec ((Command.mkdir name).run v) m = (.error (.error e), m') ∧
      e.hasKind .inconsistent = false ∧ ¬ Unreleased e m'.log := by
  have run : Mount.exec ((Command.mkdir name).run v) m
      = ((Mount.exec (v.mkdir name) m).1.map (fun _ => ()), (Mount.exec (v.mkdir name) m).2) :=
    Mount.exec_map _ (v.mkdir name) m
  rcases (ends_mkdir h ready name).exec_eq with
    ⟨i, m', eq, s', -, made⟩ | ⟨t, m', eq, s', -, failed⟩
  · cases made with
    | made planned fresh _ =>
        obtain ⟨-, number, zone, rfl⟩ := planned
        obtain ⟨isZone, unused, -⟩ := fresh.zone zone rfl
        rw [full zone isZone] at unused
        cases unused
  · rw [eq] at run
    cases failed with
    | refused why =>
        cases why with
        | name misnamed => exact absurd new misnamed.not_newName
        | links _ _ saturated => exact absurd saturated links
        | inodes _ _ used =>
            rw [used n hn] at free
            cases free
        | unreadable _ _ large =>
            exact absurd large (Nat.not_lt_of_le (Directory.need_le_of_small small))
        | mishap stopped => exact absurd working stopped.not_steady
    | left _ _ _ _ failing => exact absurd working failing
    | undone _ _ _ setback given =>
        cases given with
        | part _ failing _ => exact absurd working failing
        | all =>
            refine ⟨_, m', run, setback.calm, ?_⟩
            rintro ⟨cause, f, fs, inode, zone, joined, -⟩
            refine joinAll_ne ?_ _ _ _ joined
            cases setback with
            | zones _ _ _ _ => exact fun _ _ => Error.noConfusion
            | slots _ _ _ _ => exact fun _ _ => Error.noConfusion
            | fault _ failing => exact absurd working failing
    | crashed _ _ _ _ large => omega

theorem exec_mkdir_fresh {m₀ : Mount δ} (sound : ImageDisk.Sound m₀.disk)
    (reliable : ImageDisk.Reliable m₀.disk) {sb : Superblock} {img : Buffer}
    (prepared : Format.Prepared sb img) (accepted : FormatOptions.Accepted sb) {modified : UInt32}
    (image : ImageDisk.image m₀.disk = Format.freshImage sb modified img)
    (one : sb.zones.toNat = sb.firstDataZone.toNat + 1) (several : sb.IsInode 2) (name : Bytes)
    (nonempty : name ≠ []) (plain : 0x2f ∉ name ∧ 0 ∉ name) (short : name.length ≤ sb.width.toNat)
    (fresh : name ∉ (Format.newDirectory Inode.root Inode.root).map (·.name)) (clock : Int64)
    (color : Bool) :
    ∃ v m e m', Mount.exec (openDisk clock color) m₀ = (.ok v, m) ∧
      Mount.exec ((Command.mkdir name).run v) (m.onto m₀.disk) = (.error (.error e), m') ∧
      e.hasKind .inconsistent = false ∧ ¬ Unreleased e m'.log := by
  have header := Format.header_fresh prepared accepted modified
  have orderly := (Format.consistent_fresh prepared accepted modified).toOrderly
  rw [← image] at orderly
  obtain ⟨v, m, opening, isOpen, -⟩ :=
    exec_openDisk sound reliable orderly.fits clock color
  have start := Image.Grown.refl orderly (s := opened _ m.output) rfl rfl
  have small := accepted.zoneSize_le
  have new : NewName sb (opened (Format.freshImage sb modified img) m.output) name := by
    refine ⟨nonempty, plain, short, Directory.need_le_of_small small, ?_⟩
    rw [opened, header, Format.entries_fresh prepared accepted modified]
    exact fresh
  have links : (opened (Format.freshImage sb modified img) m.output).directory.links ≠ 0xff := by
    rw [opened, header, Format.inode_fresh prepared accepted modified]
    exact (by decide : (2 : UInt8) ≠ 0xff)
  have free := Format.inodeUsed_fresh prepared accepted modified several (by decide)
  have full := Format.full_fresh prepared accepted modified one
  have superblock : v.superblock = sb := by
    rw [isOpen.superblock, image, header]
  rw [← image] at new links free full
  rw [← superblock] at new several free full small
  obtain ⟨e, m', failed, calm, released⟩ := exec_mkdir_full (isOpen.shows_onto sound rfl)
    reliable (start.ready orderly isOpen.superblock isOpen.width) small new links several free full
  exact ⟨v, m, e, m', opening, failed, calm, released⟩

/-- A volume was opened on a working disk, and one create fails, on whatever disk with that image
and whichever of its calls fail. Unless the error says otherwise, the create is undone: the root is
as it was and is listed as it was. -/
theorem failed_create_undone {m₀ : Mount δ} (sound : ImageDisk.Sound m₀.disk)
    (reliable : ImageDisk.Reliable m₀.disk) (orderly : Image.Orderly (ImageDisk.image m₀.disk))
    (clock : Int64) (color : Bool) :
    ∃ v m, Mount.exec (openDisk clock color) m₀ = (.ok v, m) ∧
      ∀ (δ' : Type) [Disk δ'] [ImageDisk δ'] (d : δ'), ImageDisk.Sound d →
        ImageDisk.image d = ImageDisk.image m₀.disk →
        ∀ c : Command, c.mutates = true → ∀ (e : Error) (m' : Mount δ'),
          Mount.exec (c.run v) (m.onto d) = (.error (.error e), m') →
          e.hasKind .inconsistent = false → ¬ Unreleased e m'.log →
          m'.directory = m.directory ∧
          Image.Undone c (ImageDisk.image m₀.disk) (ImageDisk.image m'.disk) ∧
          (Mount.exec (Directory.list v.superblock m'.directory v.nameWidth)
              (m'.onto (⟨ImageDisk.image m'.disk⟩ : MemoryDisk))).1
            = (Mount.exec (Directory.list v.superblock m.directory v.nameWidth)
              (m.onto (⟨ImageDisk.image m₀.disk⟩ : MemoryDisk))).1 := by
  obtain ⟨v, m, run, isOpen, -⟩ := exec_openDisk sound reliable orderly.fits clock color
  refine ⟨v, m, run, ?_⟩
  intro δ' _ _ d hd image c change e m' failed whole released
  obtain ⟨name, r, s', answer, shows, outcome⟩ := isOpen.exec_create orderly hd image change
  rw [failed] at answer shows outcome
  obtain rfl : r = .error (.error e) := by
    cases r with
    | ok i => cases answer
    | error t =>
        cases answer
        rfl
  obtain ⟨directory, undone⟩ := undone_of_outcome (s := opened _ m.output) orderly rfl outcome
    whole released
  have root : m'.directory = m.directory := by
    rw [shows.directory, isOpen.directory]
    exact directory
  rw [shows.image]
  refine ⟨root, undone, ?_⟩
  have same := undone.entries
  rw [Image.inode_congr undone.root] at same
  rw [root, isOpen.width, isOpen.superblock, isOpen.directory]
  exact Directory.list_alike (ImageDisk.size_lt sound) undone.size
    (fun z hz => orderly.fits.zoneEnd_le (orderly.zone_used orderly.one_mem hz).1) same m m'

theorem failed_create_undone_small :
    ∃ sb m₀ v m e m',
      Mount.exec (Format.run { blocks := 6, inodes := 32 })
        (⟨⟨Buffer.zeros 6144⟩, {}, {}, #[]⟩ : Mount MemoryDisk) = (.ok sb, m₀) ∧
      Mount.exec (openDisk 0 false) m₀ = (.ok v, m) ∧
      Mount.exec ((Command.mkdir [0x61]).run v) (m.onto m₀.disk) = (.error (.error e), m') ∧
      m'.directory = m.directory ∧
      Image.Undone (.mkdir [0x61]) m₀.disk.image m'.disk.image := by
  obtain ⟨sb, layout, inodes, zones, first, wide⟩ : ∃ sb,
      FormatOptions.layout { blocks := 6, inodes := 32 } = .ok sb ∧ sb.inodes = 32 ∧
        sb.zones = 6 ∧ sb.firstDataZone = 5 ∧ 1 ≤ sb.width.toNat :=
    ⟨⟨32, 6, 1, 1, 5, 0, FormatOptions.maxFileSize, Superblock.shortNameMagic, 1⟩, rfl, rfl, rfl,
      rfl, by decide⟩
  have accepted := FormatOptions.accepted_of_layout layout
  have size : (Buffer.zeros 6144).size = sb.zones.toNat * 1024 := by
    rw [Buffer.size_zeros, zones]
    decide
  generalize Buffer.zeros 6144 = blank at size
  obtain ⟨m₀, img, formatted, prepared, shows⟩ := Format.exec_run
    (m := (⟨⟨blank⟩, {}, {}, #[]⟩ : Mount MemoryDisk)) (Format.sound_of_size size) trivial layout
    (Nat.le_of_eq size.symm)
  have image : ImageDisk.image m₀.disk = Format.freshImage sb 0 img := shows.image
  have isInode : sb.IsInode 2 := ⟨by decide, by rw [inodes]; decide⟩
  obtain ⟨v, m, e, m', opening, failed, calm, released⟩ := exec_mkdir_fresh
    shows.sound (shows.reliable trivial) prepared accepted image
    (by rw [zones, first]; decide) isInode [0x61] (by decide) (by decide) wide (by decide) 0 false
  have orderly := (Format.consistent_fresh prepared accepted 0).toOrderly
  rw [← image] at orderly
  obtain ⟨v', m'', opening', undoes⟩ := failed_create_undone shows.sound (shows.reliable trivial)
    orderly 0 false
  obtain ⟨rfl, rfl⟩ : v = v' ∧ m = m'' := by
    rw [opening] at opening'
    cases opening'
    exact ⟨rfl, rfl⟩
  obtain ⟨root, undone, -⟩ := undoes MemoryDisk m₀.disk shows.sound rfl (.mkdir [0x61]) rfl e m'
    failed calm released
  exact ⟨sb, m₀, v, m, e, m', formatted, opening, failed, root, undone⟩

end Volume

end MinixVolume

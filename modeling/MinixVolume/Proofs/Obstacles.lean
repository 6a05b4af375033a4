import MinixVolume.Proofs.Inventory
import MinixVolume.Proofs.Slots

namespace MinixVolume

inductive Obstacle where
  | name
  | length
  | reading
  | taken
  | links
  | inodes
  | zones
  | building
  | slots
deriving DecidableEq, Repr

namespace Obstacle

def order : List Obstacle :=
  [.name, .length, .reading, .taken, .links, .inodes, .zones, .building, .slots]

/-- The kind of the error that tells of the obstacle. Where a buffer cannot be had, a panic does. -/
def kind : Obstacle → Option ErrorKind
  | .name => some .usage
  | .length => some .nameTooLong
  | .reading => none
  | .taken => some .alreadyExists
  | .links => some .tooManyLinks
  | .inodes => some .noFreeInode
  | .zones => some .noFreeZone
  | .building => none
  | .slots => some .directoryFull

/-- A request meets the obstacle on a volume with that image and that root directory. Only a
directory takes a zone and a link of the root. -/
def Applies (sb : Superblock) (img : Buffer) (root : Inode) (r : Request) : Obstacle → Prop
  | .name => OddName r.name
  | .length => sb.width.toNat < r.name.length
  | .reading => root.zones ≠ [] ∧ Word.largestBuffer.toNat < sb.zoneSize.toNat
  | .taken => r.name ∈ (Image.entries sb img root).map (·.name)
  | .links => r.kind = .directory ∧ root.links = 255
  | .inodes => ∀ n, sb.IsInode n → Image.inodeUsed sb img n = true
  | .zones => r.kind = .directory ∧
      ∀ z, sb.IsDataZone z → Image.zoneUsed sb img z = true
  | .building => r.kind = .directory ∧ Word.largestBuffer.toNat < sb.zoneSize.toNat
  | .slots => ∀ e ∈ Image.slotList sb img root, e.inode ≠ 0

variable {sb : Superblock} {img : Buffer} {root : Inode} {r : Request}

theorem forall_inodes_iff :
    (∀ n ∈ List.range' 1 sb.inodes.toNat, Image.inodeUsed sb img n = true) ↔
      ∀ n, sb.IsInode n → Image.inodeUsed sb img n = true := by
  refine forall_congr' fun n => imp_congr_left ?_
  rw [List.mem_range'_1, Superblock.IsInode, Nat.add_comm, Nat.lt_succ_iff]

theorem forall_zones_iff :
    (∀ n ∈ List.range sb.dataZones.toNat,
        Image.zoneUsed sb img (UInt64.ofNat (sb.firstDataZone.toNat + n)) = true) ↔
      ∀ z, sb.IsDataZone z → Image.zoneUsed sb img z = true := by
  constructor
  · intro all z hz
    have lt : z.toNat - sb.firstDataZone.toNat < sb.dataZones.toNat := by
      have := hz.1
      have := hz.2
      rw [Superblock.toNat_dataZones]
      omega
    have used := all _ (List.mem_range.mpr lt)
    rwa [Nat.add_sub_cancel' hz.1, UInt64.ofNat_toNat] at used
  · intro all n hn
    exact all _ (Superblock.isDataZone_of_lt (List.mem_range.mp hn)).1

instance : DecidablePred (Applies sb img root r)
  | .name => inferInstanceAs (Decidable (OddName _))
  | .length => inferInstanceAs (Decidable (_ < _))
  | .reading => inferInstanceAs (Decidable (_ ∧ _))
  | .taken => inferInstanceAs (Decidable (_ ∈ _))
  | .links => inferInstanceAs (Decidable (_ ∧ _))
  | .inodes => decidable_of_iff _ forall_inodes_iff
  | .zones =>
      have := decidable_of_iff _ (@forall_zones_iff sb img)
      inferInstanceAs (Decidable (_ ∧ _))
  | .building => inferInstanceAs (Decidable (_ ∧ _))
  | .slots => inferInstanceAs (Decidable (∀ e ∈ Image.slotList sb img root, _))

def first (sb : Superblock) (img : Buffer) (root : Inode) (r : Request) : Option Obstacle :=
  order.find? fun o => o.Applies sb img root r

theorem first_eq_some {o : Obstacle} (before : List Obstacle) {behind : List Obstacle}
    (split : order = before ++ o :: behind)
    (clear : ∀ o' ∈ before, ¬ o'.Applies sb img root r) (applies : o.Applies sb img root r) :
    first sb img root r = some o := by
  rw [first, List.find?_eq_some_iff_append]
  exact ⟨by simpa using applies, before, behind, split, by simpa using clear⟩

theorem first_eq_none (clear : ∀ o : Obstacle, ¬ o.Applies sb img root r) :
    first sb img root r = none := by
  rw [first, List.find?_eq_none]
  intro o _
  simpa using clear o

theorem first_congr {img' : Buffer} {root' : Inode} (directory : root'.zones = root.zones)
    (entries : Image.entries sb img' root' = Image.entries sb img root)
    (slots : Image.slotList sb img' root' = Image.slotList sb img root)
    (links : root'.links = root.links)
    (inodes : ∀ n, sb.IsInode n → Image.inodeUsed sb img' n = Image.inodeUsed sb img n)
    (zones : ∀ z, sb.IsDataZone z → Image.zoneUsed sb img' z = Image.zoneUsed sb img z)
    (r : Request) : first sb img' root' r = first sb img root r := by
  have applies (o : Obstacle) : o.Applies sb img' root' r ↔ o.Applies sb img root r := by
    cases o with
    | name => exact Iff.rfl
    | length => exact Iff.rfl
    | reading => rw [Applies, Applies, directory]
    | taken => rw [Applies, Applies, entries]
    | links => rw [Applies, Applies, links]
    | inodes =>
        refine forall₂_congr fun n hn => ?_
        rw [inodes n hn]
    | zones =>
        refine and_congr_right' (forall₂_congr fun z hz => ?_)
        rw [zones z hz]
    | building => exact Iff.rfl
    | slots => rw [Applies, Applies, slots]
  simp only [first, applies]

section Clear

variable {s : Scene} {v : Volume} {c : Creation}

theorem name_clear (new : NewName sb s r.name) :
    ∀ o ∈ [name, length, reading, taken], ¬ o.Applies sb s.image s.directory r := by
  simp only [List.forall_mem_cons, List.not_mem_nil, false_implies, implies_true, and_true]
  refine ⟨?_, ?_, ?_, new.fresh⟩
  · rintro (empty | slash | zero)
    · exact new.nonempty empty
    · exact new.plain.1 slash
    · exact new.plain.2 zero
  · exact Nat.not_lt_of_le new.short
  · exact mt Directory.lt_need_iff.mpr (Nat.not_lt_of_le new.readable)

theorem links_clear (planned : v.RequestPlan r s.directory c) :
    ¬ links.Applies sb s.image s.directory r := by
  rintro ⟨kind, saturated⟩
  obtain ⟨-, file⟩ | ⟨plan, -⟩ := planned.cases
  · rw [file] at kind
    cases kind
  · exact plan.1 saturated

theorem inodes_clear (fresh : c.Fresh sb s) : ¬ inodes.Applies sb s.image s.directory r := by
  intro full
  have free := fresh.free
  rw [full _ fresh.isInode] at free
  cases free

theorem zones_clear (planned : v.RequestPlan r s.directory c) (fresh : c.Fresh sb s) :
    ¬ zones.Applies sb s.image s.directory r := by
  rintro ⟨kind, full⟩
  obtain ⟨z, hz⟩ := planned.zone_of_directory kind
  obtain ⟨isZone, free, -⟩ := fresh.zone z hz
  rw [full z isZone] at free
  cases free

theorem building_clear (planned : v.RequestPlan r s.directory c) (buildable : c.Buildable sb) :
    ¬ building.Applies sb s.image s.directory r := by
  rintro ⟨kind, large⟩
  obtain ⟨z, hz⟩ := planned.zone_of_directory kind
  exact Nat.not_lt_of_le (buildable z hz) large

theorem slots_clear {z : UInt64} {k : Nat}
    (found : Image.FreeSlot sb s.image s.directory.zones z k) :
    ¬ slots.Applies sb s.image s.directory r := by
  intro full
  exact Image.forall_slotList_iff.mp full z found.mem k found.lt found.free

theorem all_clear (planned : v.RequestPlan r s.directory c) (fresh : c.Fresh sb s) {z : UInt64}
    {k : Nat}
    (found : Image.FreeSlot sb s.image s.directory.zones z k) (o : Obstacle) :
    ¬ o.Applies sb s.image s.directory r := by
  have new := fresh.name
  rw [planned.name_eq] at new
  have front := name_clear new
  have small := Directory.need_le_iff.mp new.readable z found.mem
  cases o with
  | name => exact front .name (by simp)
  | length => exact front .length (by simp)
  | reading => exact front .reading (by simp)
  | taken => exact front .taken (by simp)
  | links => exact links_clear planned
  | inodes => exact inodes_clear fresh
  | zones => exact zones_clear planned fresh
  | building => exact building_clear planned fun _ _ => small
  | slots => exact slots_clear found

end Clear

section Met

variable {s : Scene} {v : Volume} {e : Error}

def Told (sb : Superblock) (s : Scene) (r : Request) (e : Error) : Prop :=
  ∃ o k, first sb s.image s.directory r = some o ∧ o.kind = some k ∧ e.kinds = [k]

theorem told_of_misnamed (h : Misnamed sb s r.name e) : Told sb s r e := by
  cases h with
  | odd odd => exact ⟨.name, _, first_eq_some [] rfl (List.forall_mem_nil _) odd, rfl, rfl⟩
  | long plain long =>
      exact ⟨.length, _, first_eq_some [.name] rfl (List.forall_mem_singleton.mpr plain) long, rfl,
        rfl⟩
  | taken plain short readable taken =>
      have unread := mt Directory.lt_need_iff.mpr (Nat.not_lt_of_le readable)
      exact ⟨.taken, _, first_eq_some [.name, .length, .reading] rfl (List.forall_mem_cons.mpr
        ⟨plain, List.forall_mem_cons.mpr ⟨Nat.not_lt_of_le short,
          List.forall_mem_singleton.mpr unread⟩⟩) taken, rfl, rfl⟩

theorem told_of_refusal
    (h : Refusal sb (v.RequestPlan r s.directory) s r.name True (.error e)) : Told sb s r e := by
  cases h with
  | name misnamed => exact told_of_misnamed misnamed
  | links new none saturated =>
      refine ⟨.links, _, first_eq_some [.name, .length, .reading, .taken] rfl (name_clear new)
        ⟨?_, saturated⟩, rfl, rfl⟩
      cases kind : r.kind with
      | file =>
          refine absurd ?_ (none (.file { v with clock := r.clock } r.name s.directory 0))
          rw [Volume.RequestPlan, kind]
          exact ⟨0, rfl⟩
      | directory => rfl
  | inodes new some full =>
      obtain ⟨c, planned⟩ := some
      refine ⟨.inodes, _, first_eq_some [.name, .length, .reading, .taken, .links] rfl ?_ full, rfl,
        rfl⟩
      exact List.forall_mem_append.mpr
        ⟨name_clear new, List.forall_mem_singleton.mpr (links_clear planned)⟩
  | mishap stopped => exact absurd trivial stopped.not_steady

theorem first_of_unreadable (plain : ¬ OddName r.name) (short : r.name.length ≤ sb.width.toNat)
    (large : Word.largestBuffer.toNat < Directory.need sb s.directory) :
    first sb s.image s.directory r = some .reading :=
  first_eq_some [.name, .length] rfl (List.forall_mem_cons.mpr
    ⟨plain, List.forall_mem_singleton.mpr (Nat.not_lt_of_le short)⟩)
    (Directory.lt_need_iff.mp large)

theorem allocated_clear {c : Creation} (planned : v.RequestPlan r s.directory c)
    (fresh : c.Fresh sb s) : ∀ o ∈ [name, length, reading, taken, links, inodes, zones],
      ¬ o.Applies sb s.image s.directory r := by
  have new := fresh.name
  rw [planned.name_eq] at new
  refine List.forall_mem_append.mpr ⟨name_clear new, List.forall_mem_cons.mpr
    ⟨links_clear planned, List.forall_mem_cons.mpr ⟨inodes_clear fresh, ?_⟩⟩⟩
  exact List.forall_mem_singleton.mpr (zones_clear planned fresh)

theorem first_of_crash {c : Creation} (planned : v.RequestPlan r s.directory c)
    (fresh : c.Fresh sb s) {z : UInt64} (hz : c.zone = some z)
    (large : Word.largestBuffer.toNat < sb.zoneSize.toNat) :
    first sb s.image s.directory r = some .building := by
  refine first_eq_some [.name, .length, .reading, .taken, .links, .inodes, .zones] rfl
    (allocated_clear planned fresh) ⟨?_, large⟩
  obtain ⟨⟨number, rfl⟩, -⟩ | ⟨-, directory⟩ := planned.cases
  · cases hz
  · exact directory

theorem told_of_setback {c : Creation} (fresh : c.Fresh sb s)
    (h : Setback sb (v.RequestPlan r s.directory) s True e) : Told sb s r e := by
  cases h with
  | zones planned new taking full =>
      rw [planned.name_eq] at new
      refine ⟨.zones, _, first_eq_some [.name, .length, .reading, .taken, .links, .inodes] rfl ?_
        ⟨?_, full⟩, rfl, rfl⟩
      · refine List.forall_mem_append.mpr ⟨name_clear new, List.forall_mem_cons.mpr
          ⟨links_clear planned, List.forall_mem_singleton.mpr (inodes_clear fresh)⟩⟩
      · obtain ⟨⟨number, rfl⟩, -⟩ | ⟨-, directory⟩ := planned.cases
        · exact absurd rfl (taking _ planned)
        · exact directory
  | slots planned fresh' buildable occupied =>
      refine ⟨.slots, _, first_eq_some
        [.name, .length, .reading, .taken, .links, .inodes, .zones, .building] rfl ?_
        (Image.forall_slotList_iff.mpr occupied), rfl, rfl⟩
      exact List.forall_mem_append.mpr ⟨allocated_clear planned fresh',
        List.forall_mem_singleton.mpr (building_clear planned buildable)⟩
  | fault _ failing => exact absurd trivial failing

end Met

end Obstacle

namespace Volume

variable {δ : Type} [Disk δ] [ImageDisk δ]

/-- A request was met. The new entry has gone into the first empty slot of the root directory, the
inode and the zone are the first free ones, and nothing else has been written but their records and
that of the root. -/
structure Met (v : Volume) (r : Request) (c : Creation) (m m' : Mount δ) : Prop where
  answer : Mount.exec (v.create r) m = (.ok c.number, m')
  plan : v.RequestPlan r m.directory c
  isInode : v.superblock.IsInode c.number.toNat
  inode_free : Image.inodeUsed v.superblock (ImageDisk.image m.disk) c.number.toNat = false
  inode_least : ∀ n, 1 ≤ n → n < c.number.toNat →
    Image.inodeUsed v.superblock (ImageDisk.image m.disk) n = true
  zone : ∀ z ∈ c.zone, v.superblock.IsDataZone z ∧
    Image.zoneUsed v.superblock (ImageDisk.image m.disk) z = false ∧
    ∀ z', v.superblock.IsDataZone z' → z'.toNat < z.toNat →
      Image.zoneUsed v.superblock (ImageDisk.image m.disk) z' = true
  image : ∃ i z k, m.directory.zones[i]? = some z ∧ k < v.superblock.slots ∧
    Image.firstEmpty v.superblock (ImageDisk.image m.disk) m.directory
      = i * v.superblock.slots + k ∧
    ImageDisk.image m'.disk = Update.applyAll v.superblock (ImageDisk.image m.disk)
      (c.entering v.superblock z k (some c.root))
  stands : c.Stands v.superblock (ImageDisk.image m'.disk)
  root : m'.directory = c.root
  root_stored : Image.inode v.superblock (ImageDisk.image m'.disk) 1 = c.root
  entries : Image.entries v.superblock (ImageDisk.image m'.disk) m'.directory
    = (Image.entries v.superblock (ImageDisk.image m.disk) m.directory).insertIdx
      (Image.firstEmpty v.superblock (ImageDisk.image m.disk) m.directory) ⟨c.number, r.name⟩
  listed : ∃ old,
    (Mount.exec (Directory.list v.superblock m.directory v.nameWidth) m).1 = .ok old ∧
    (Mount.exec (Directory.list v.superblock m'.directory v.nameWidth) m').1
      = .ok (old.insertIdx
        (Image.firstEmpty v.superblock (ImageDisk.image m.disk) m.directory) ⟨c.number, r.name⟩)

/-- What a request comes to that an obstacle stands in the way of. A panic leaves everything as it
was, or an inode stranded. -/
inductive Hindered (v : Volume) (r : Request) (m : Mount δ) : Obstacle → Prop
  | refused {o : Obstacle} {k : ErrorKind} {e : Error} {m' : Mount δ} : o.kind = some k →
      Mount.exec (v.create r) m = (.error (.error e), m') → e.kinds = [k] → Hindered v r m o
  | unread {m' : Mount δ} : Mount.exec (v.create r) m = (.error (.panic .allocation), m') →
      m'.scene = m.scene → Hindered v r m .reading
  | stranded {m' : Mount δ} : Mount.exec (v.create r) m = (.error (.panic .allocation), m') →
      Stranded v.superblock m.scene m'.scene → Hindered v r m .building

theorem Hindered.fails {v : Volume} {r : Request} {m : Mount δ} {o : Obstacle}
    (h : v.Hindered r m o) : ∃ t m', Mount.exec (v.create r) m = (.error t, m') := by
  cases h with
  | refused _ run _ => exact ⟨_, _, run⟩
  | unread run _ => exact ⟨_, _, run⟩
  | stranded run _ => exact ⟨_, _, run⟩

end Volume

namespace Image.Grown

variable {δ : Type} [Disk δ] [ImageDisk δ] {img₀ : Buffer} {cs : List Creation} {s : Scene}
  (h : Grown img₀ cs s) (orderly : Orderly img₀) {m : Mount δ} (shows : m.Shows True s)
  {v : Volume} (superblock : v.superblock = header img₀)
  (width : v.nameWidth = v.superblock.width) {r : Request}
include h orderly shows superblock width

theorem exec_list (small : v.superblock.zoneSize.toNat ≤ Word.largestBuffer.toNat) :
    (Mount.exec (Directory.list v.superblock m.directory v.nameWidth) m).1
      = .ok (Image.entries v.superblock (ImageDisk.image m.disk) m.directory) := by
  have ready := h.ready orderly superblock width
  have inside : ∀ z ∈ m.directory.zones,
      v.superblock.zonePlace z + v.superblock.zoneSize.toNat ≤ s.image.size := by
    intro z hz
    rw [shows.directory] at hz
    exact ready.fits.zoneEnd_le (ready.zones z hz).1
  rw [width, shows.image]
  obtain ⟨_, m', run, rfl, -⟩ :=
    (Mount.ends_sure (Directory.ends_list shows inside) small).exec_ok
  rw [run]

theorem met_of_made {c : Creation} {z : UInt64} {k : Nat}
    (planned : v.RequestPlan r s.directory c) (fresh : c.Fresh (header img₀) s)
    (first : FirstSlot (header img₀) s.image s.directory.zones z k) {m' : Mount δ}
    (run : Mount.exec (v.create r) m = (.ok c.number, m'))
    (shows' : m'.Shows True { s with
      image := Update.applyAll (header img₀) s.image (c.entering (header img₀) z k (some c.root))
      directory := c.root }) : v.Met r c m m' := by
  have found := first.toFreeSlot
  have genuine := Volume.genuine_of_plan (planned.cases.imp And.left And.left)
  rw [show Volume.superblock _ = header img₀ from superblock] at genuine
  have grown := h.enter orderly fresh found (some c.root) genuine.1 (by
    rintro ip ⟨⟩
    exact genuine.2)
  have image : ImageDisk.image m.disk = s.image := shows.image
  have directory : m.directory = s.directory := shows.directory
  have image' := shows'.image
  have directory' := shows'.directory
  dsimp only at image' directory'
  obtain ⟨i, there, filled⟩ := first.filled_entering fresh (h.fits orderly)
    (h.zones_used orderly) (h.zones_nodup orderly) (some c.root)
  have index : firstEmpty (header img₀) s.image s.directory
      = i * (header img₀).slots + k := filled.findIdx_eq
  have entries_eq : Image.entries v.superblock (ImageDisk.image m'.disk) m'.directory
      = (Image.entries v.superblock (ImageDisk.image m.disk) m.directory).insertIdx
        (firstEmpty v.superblock (ImageDisk.image m.disk) m.directory) ⟨c.number, r.name⟩ := by
    rw [superblock, image, directory, image', directory', entries_of_zones genuine.2.1,
      ← filter_slotList, ← filter_slotList, index, ← planned.name_eq]
    exact filled.filter_eq fresh.nonzero
  refine ⟨run, directory ▸ planned, superblock ▸ fresh.isInode, ?_, ?_, ?_, ?_, ?_, directory',
    ?_, entries_eq, ?_⟩
  · rw [superblock, image]
    exact fresh.free
  · rw [superblock, image]
    exact fresh.least
  · rw [superblock, image]
    intro z' hz'
    obtain ⟨isZone, free, -, least⟩ := fresh.zone z' hz'
    exact ⟨isZone, free, least⟩
  · rw [superblock, image, directory, image']
    exact ⟨i, z, k, there, first.lt, index, rfl⟩
  · rw [superblock, image']
    exact h.stands_entering orderly fresh found (some c.root)
  · rw [superblock, image']
    exact (h.directory_entering orderly fresh found (some c.root)).symm
  · have small : v.superblock.zoneSize.toNat ≤ Word.largestBuffer.toNat := by
      rw [superblock]
      exact Directory.need_le_iff.mp fresh.name.readable z found.mem
    refine ⟨_, h.exec_list orderly shows superblock width small, ?_⟩
    rw [← entries_eq]
    exact grown.exec_list orderly shows' superblock width small

theorem exec_create_exact (r : Request) :
    match Obstacle.first v.superblock (ImageDisk.image m.disk) m.directory r with
    | some o => v.Hindered r m o
    | none => ∃ c m', v.Met r c m m' := by
  have ready := h.ready orderly superblock width
  have same : m.scene = s := shows.scene_eq
  rw [shows.image, shows.directory]
  rcases (Volume.ends_create shows ready r).exec_eq with
    ⟨i, m', run, s', shows', outcome⟩ | ⟨t, m', run, s', shows', outcome⟩
  · rw [superblock] at outcome
    cases outcome with
    | @made c z k _ planned fresh first =>
        rw [Obstacle.first_eq_none (superblock ▸
          Obstacle.all_clear planned fresh first.toFreeSlot)]
        exact ⟨c, m', h.met_of_made orderly shows superblock width planned fresh first run shows'⟩
  · have stop {e : Error} (answer : t = .error e) (told : Obstacle.Told v.superblock s r e) :
        match Obstacle.first v.superblock s.image s.directory r with
        | some o => v.Hindered r m o
        | none => ∃ c m', v.Met r c m m' := by
      obtain ⟨o, k, first, kind, kinds⟩ := told
      rw [first]
      exact .refused kind (answer ▸ run) kinds
    cases outcome with
    | refused why =>
        cases t with
        | error e => exact stop rfl (Obstacle.told_of_refusal why)
        | panic p =>
            cases why with
            | unreadable plain short large =>
                rw [Obstacle.first_of_unreadable plain short large]
                exact .unread run (shows'.scene_eq.trans same.symm)
            | mishap stopped => exact absurd trivial stopped.not_steady
    | left _ _ _ _ failing => exact absurd trivial failing
    | undone _ fresh _ setback given =>
        cases given with
        | all => exact stop rfl (Obstacle.told_of_setback fresh setback)
        | part _ failing _ => exact absurd trivial failing
    | crashed planned fresh taking bare large =>
        rw [Obstacle.first_of_crash planned fresh taking large]
        refine .stranded run ?_
        rw [same, shows'.scene_eq]
        exact fresh.stranded taking bare large

theorem first_eq_none {number : UInt64} {m' : Mount δ}
    (run : Mount.exec (v.create r) m = (.ok number, m')) :
    Obstacle.first v.superblock (ImageDisk.image m.disk) m.directory r = none := by
  have met := h.exec_create_exact orderly shows superblock width r
  split at met
  · obtain ⟨t, m'', failed⟩ := met.fails
    rw [run] at failed
    cases failed
  · next none => exact none

end Image.Grown

namespace Volume

variable {δ : Type} [Disk δ] [ImageDisk δ]

theorem IsOpen.shows {v : Volume} {img : Buffer} {m : Mount δ} (h : v.IsOpen img m)
    (sound : ImageDisk.Sound m.disk) (reliable : ImageDisk.Reliable m.disk) :
    m.Shows True (opened img m.output) :=
  ⟨sound, fun _ => reliable, h.image, h.directory, rfl⟩

theorem IsOpen.sound {v : Volume} {img : Buffer} {m : Mount MemoryDisk} (h : v.IsOpen img m)
    (small : img.size < sizeLimit) : ImageDisk.Sound m.disk := by
  change (ImageDisk.image m.disk).size < sizeLimit
  rw [h.image]
  exact small

/-- What stands in the way of a create, and what the create does if nothing does. Nine things are
looked for, always in the same order: two of them are buffers for zones of more than 2⁴⁸ bytes. -/
theorem create_exact {m₀ : Mount δ} (sound : ImageDisk.Sound m₀.disk)
    (reliable : ImageDisk.Reliable m₀.disk) (orderly : Image.Orderly (ImageDisk.image m₀.disk))
    (clock : Int64) (color : Bool) :
    ∃ v m, Mount.exec (openDisk clock color) m₀ = (.ok v, m) ∧
      v.IsOpen (ImageDisk.image m₀.disk) m ∧
      ∀ r : Request,
        match Obstacle.first v.superblock (ImageDisk.image m.disk) m.directory r with
        | some o => v.Hindered r m o
        | none => ∃ c m', v.Met r c m m' := by
  obtain ⟨v, m, opening, isOpen, sound', reliable'⟩ :=
    exec_openDisk sound reliable orderly.fits clock color
  have start := Image.Grown.refl orderly (s := opened _ m.output) rfl rfl
  refine ⟨v, m, opening, isOpen, ?_⟩
  exact start.exec_create_exact orderly (isOpen.shows sound' reliable') isOpen.superblock
    isOpen.width

theorem create_exact_small :
    ∃ sb m₁ v m c m', Mount.exec (Format.run { blocks := 8, inodes := 32 })
        (⟨⟨Buffer.zeros 8192⟩, {}, {}, #[]⟩ : Mount MemoryDisk) = (.ok sb, m₁) ∧
      Mount.exec (openDisk 0 false) m₁ = (.ok v, m) ∧
      v.Met ⟨7, .directory, [0x64]⟩ c m m' := by
  obtain ⟨sb, m₁, accepted, inodes, dataZones, wide, slots, formatted, inOrder, header, stocked⟩ :=
    Format.stocked_small
  have orderly := inOrder.consistent.toOrderly
  obtain ⟨v, m, opening, isOpen, exact⟩ := create_exact inOrder.sound trivial orderly 0 false
  have admitted : Request.Admitted sb (List.map Creation.item []) ⟨7, .directory, [0x64]⟩ :=
    ⟨by decide, by decide, wide, by decide, inodes, slots, fun _ => dataZones⟩
  rw [← header] at accepted admitted
  obtain ⟨number, m', run⟩ := ((stocked m.output).next_iff orderly accepted
    (isOpen.shows (isOpen.sound inOrder.sound) trivial) isOpen.superblock isOpen.width _).mpr
    admitted
  have met := exact ⟨7, .directory, [0x64]⟩
  rw [(stocked m.output).first_eq_none orderly (isOpen.shows (isOpen.sound inOrder.sound) trivial)
    isOpen.superblock isOpen.width run] at met
  obtain ⟨c, m', met⟩ := met
  exact ⟨sb, m₁, v, m, c, m', formatted, opening, met⟩

end Volume

/-- A root directory without zones has no empty slot. Nothing else is in the way but buffers. -/
theorem Obstacle.applies_bare_iff {sb : Superblock} {size : Nat} (fits : sb.Fits size)
    (several : 2 ≤ sb.inodes.toNat) (zone : sb.firstDataZone.toNat < sb.zones.toNat) {clock : Int64}
    {name : Bytes} (plain : ¬ OddName name) (short : name.length ≤ sb.width.toNat) {o : Obstacle}
    (told : o.kind ≠ none) :
    o.Applies sb (Bare.image sb size) Bare.root ⟨clock, .directory, name⟩ ↔ o = .slots := by
  have bare := Bare.zones_root
  refine ⟨fun applies => ?_, ?_⟩
  · cases o with
    | name => exact absurd applies plain
    | length => exact absurd applies (Nat.not_lt_of_le short)
    | reading => exact absurd rfl told
    | taken =>
        rw [Obstacle.Applies, Image.entries, bare] at applies
        cases applies
    | links => exact absurd applies.2 (by decide)
    | inodes =>
        have isInode : sb.IsInode 2 := ⟨by decide, several⟩
        have used := applies 2 isInode
        rw [Bare.inodeUsed_image fits several isInode] at used
        exact absurd used (by decide)
    | zones =>
        have first := Superblock.Fits.toNat_firstDataZone sb
        have isZone : sb.IsDataZone sb.firstDataZone.toUInt64 := ⟨by omega, by omega⟩
        have used := applies.2 _ isZone
        rw [Bare.zoneUsed_image fits several isZone] at used
        cases used
    | building => exact absurd rfl told
    | slots => rfl
  · rintro rfl
    rw [Obstacle.Applies, Image.slotList, bare]
    exact List.forall_mem_nil _

namespace Volume

/-- A buffer for the block of a directory is asked for before a slot for its entry. -/
theorem create_unbuilt :
    (Bare.mount Bare.wide 0x4000000000000).InOrder ∧
      ∃ (v : Volume) (m m' : Mount MemoryDisk),
        Mount.exec (openDisk 0 false) (Bare.mount Bare.wide 0x4000000000000) = (.ok v, m) ∧
        (∀ o : Obstacle, o.kind ≠ none →
          (o.Applies v.superblock (ImageDisk.image m.disk) m.directory ⟨0, .directory, [0x64]⟩ ↔
            o = .slots)) ∧
        Mount.exec (v.create ⟨0, .directory, [0x64]⟩) m = (.error (.panic .allocation), m') := by
  have fits := Bare.fits_wide
  have several : 2 ≤ Bare.wide.inodes.toNat := by decide
  have plain : ¬ OddName [0x64] := by decide
  obtain ⟨v, m, opening, isOpen⟩ := Bare.exec_openDisk fits several
  obtain ⟨m', -, run, -⟩ := Bare.exec_mkdir fits several (by decide) (by decide)
    (isOpen.at_clock 0) plain (by decide)
  refine ⟨Bare.inOrder fits several, v, m, m', opening, fun o told => ?_, run⟩
  have superblock := isOpen.superblock
  have root := isOpen.directory
  rw [Bare.header_image fits several] at superblock root
  rw [Bare.inode_image_one fits several] at root
  rw [superblock, root, isOpen.image]
  exact Obstacle.applies_bare_iff fits several (by decide) plain (by decide) told

end Volume

end MinixVolume

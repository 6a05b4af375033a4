import MinixVolume.Proofs.Format
import MinixVolume.Proofs.Run

namespace MinixVolume

namespace Image

def IsNewFile (sb : Superblock) (img : Buffer) (e : Entry) : Prop :=
  ∃ modified, inode sb img e.inode.toNat
    = { mode := Volume.fileMode, links := 1, modified := modified }

def IsNewDirectory (sb : Superblock) (img : Buffer) (e : Entry) : Prop :=
  ∃ modified z,
    inode sb img e.inode.toNat
      = { mode := Volume.directoryMode
          links := 2
          modified := modified
          size := (2 * Entry.slotSize sb.width).toUInt32
          zone := Inode.oneZone z } ∧
    zoneEntries sb (zone sb img z.toUInt64) = Format.newDirectory e.inode Inode.root

structure Owned (sb : Superblock) (img : Buffer) (ns : List Nat) : Prop where
  once : (ns.flatMap fun n => (inode sb img n).zones).Nodup
  used : ∀ n ∈ ns, ∀ z ∈ (inode sb img n).zones, sb.IsDataZone z ∧ zoneUsed sb img z = true

/-- The image `img`, with `root` as its root directory in memory, has all that `img₀` had, and new
entries only with whole files and directories behind them. -/
structure Undamaged (img₀ img : Buffer) (root : Inode) : Prop where
  superblock : img.window 1024 1024 = img₀.window 1024 1024
  directory : root = inode (header img₀) img 1
  kept : ∀ n ∈ usedInodes (header img₀) img₀, n ∈ usedInodes (header img₀) img ∧
    (n ≠ 1 → record (header img₀) img n = record (header img₀) img₀ n ∧
      ∀ z ∈ (inode (header img₀) img₀ n).zones,
        zone (header img₀) img z = zone (header img₀) img₀ z)
  entries_used : ∀ e ∈ entries (header img₀) img root,
    e.inode.toNat ∈ usedInodes (header img₀) img
  names_once : ((entries (header img₀) img root).map (·.name)).Nodup
  added : ∃ added : List Entry,
    (entries (header img₀) img root).Perm
      (entries (header img₀) img₀ (inode (header img₀) img₀ 1) ++ added) ∧
    (added.map (·.inode)).Nodup ∧
    (∀ e ∈ added, inodeUsed (header img₀) img₀ e.inode.toNat = false ∧
      (IsNewFile (header img₀) img e ∨ IsNewDirectory (header img₀) img e)) ∧
    Owned (header img₀) img
      (usedInodes (header img₀) img₀ ++ added.map (·.inode.toNat))

end Image

theorem Superblock.Fits.dataZone_toUInt16 {sb : Superblock} {size : Nat} (h : sb.Fits size)
    {z : UInt64} (hz : sb.IsDataZone z) : z.toUInt16.toUInt64 = z ∧ z.toUInt16 ≠ 0 := by
  have lt := hz.2
  have small := sb.zones.toNat_lt
  have pos := h.firstDataZone_pos
  have le := hz.1
  have same : z.toUInt16.toUInt64 = z := by
    apply UInt64.toNat.inj
    rw [UInt16.toNat_toUInt64, UInt64.toNat_toUInt16]
    omega
  refine ⟨same, ?_⟩
  intro zero
  rw [zero] at same
  rw [← same] at le
  have : (0 : UInt16).toUInt64.toNat = 0 := rfl
  omega

namespace Creation.Genuine

theorem zones_record {sb : Superblock} {c : Creation} (h : c.Genuine sb) {size : Nat}
    (hf : sb.Fits size) (isZone : ∀ z ∈ c.zone, sb.IsDataZone z) :
    c.record.zones = c.zone.toList := by
  obtain ⟨v, name, root, rfl, ⟨number, rfl⟩ | ⟨-, number, z, rfl⟩⟩ := h
  · rfl
  · obtain ⟨same, nonzero⟩ := hf.dataZone_toUInt16 (isZone z rfl)
    rw [Inode.zones_oneZone rfl nonzero, same]
    rfl

variable {sb : Superblock} {c : Creation} (h : c.Genuine sb) {img : Buffer}
  (hf : sb.Fits img.size) (stands : c.Stands sb img)
include h hf stands

theorem zones_eq : (Image.inode sb img c.number.toNat).zones = c.zone.toList := by
  rw [Image.inode_of_record stands.record]
  exact h.zones_record hf fun z hz => (stands.zone z hz).1

theorem zoneEntries_eq {z : UInt64} (hz : z ∈ c.zone) :
    Image.zoneEntries sb (Image.zone sb img z) = Format.newDirectory c.number Inode.root := by
  have lt : c.number.toNat < 65536 :=
    Nat.lt_of_le_of_lt stands.isInode.2 sb.inodes.toNat_lt
  have nonzero : c.number ≠ 0 := by
    intro zero
    have pos := stands.isInode.1
    rw [zero] at pos
    exact absurd pos (by decide)
  rw [(stands.zone z hz).2.2]
  obtain ⟨v, name, root, rfl, ⟨number, rfl⟩ | ⟨-, number, z', rfl⟩⟩ := h
  · cases hz
  · exact Image.zoneEntries_newZone hf.zoneSize_ge nonzero lt

theorem complete : Image.IsNewFile sb img c.entry ∨ Image.IsNewDirectory sb img c.entry := by
  have record := Image.inode_of_record stands.record
  have content {z : UInt64} (hz : z ∈ c.zone) := zoneEntries_eq h hf stands hz
  obtain ⟨v, name, root, rfl, ⟨number, rfl⟩ | ⟨-, number, z, rfl⟩⟩ := h
  · exact .inl ⟨_, record⟩
  · refine .inr ⟨_, _, record, ?_⟩
    rw [(hf.dataZone_toUInt16 (stands.zone z rfl).1).1]
    exact content rfl

end Creation.Genuine

namespace Image.Grown

variable {img₀ : Buffer} {cs : List Creation} {s : Scene} (h : Grown img₀ cs s)
  (orderly : Orderly img₀)
include h

theorem zones_kept {n : Nat} (hn : n ∈ usedInodes (header img₀) img₀) :
    (inode (header img₀) s.image n).zones = (inode (header img₀) img₀ n).zones := by
  by_cases one : n = 1
  · rw [one, ← h.directory, h.root_zones]
  · rw [inode_congr (h.standing.records n hn one)]

include orderly

theorem zones_created {c : Creation} (hc : c ∈ cs) :
    (inode (header img₀) s.image c.number.toNat).zones = c.zone.toList :=
  (h.genuine c hc).zones_eq (h.fits orderly) (h.standing.stands c hc)

theorem heldZones_eq :
    ((usedInodes (header img₀) img₀ ++ cs.map (·.number.toNat)).flatMap fun n =>
      (inode (header img₀) s.image n).zones)
      = ownedZones (header img₀) img₀ ++ cs.flatMap (·.zone.toList) := by
  have old : ((usedInodes (header img₀) img₀).flatMap fun n =>
      (inode (header img₀) s.image n).zones) = ownedZones (header img₀) img₀ :=
    List.flatMap_congr fun n hn => h.zones_kept hn
  have new : (cs.flatMap fun c => (inode (header img₀) s.image c.number.toNat).zones)
      = cs.flatMap (·.zone.toList) :=
    List.flatMap_congr fun c hc => h.zones_created orderly hc
  rw [List.flatMap_append, List.flatMap_map, old, new]

theorem owned : Owned (header img₀) s.image
    (usedInodes (header img₀) img₀ ++ cs.map (·.number.toNat)) := by
  constructor
  · rw [h.heldZones_eq orderly, List.nodup_append]
    refine ⟨orderly.zones_once, h.zones_once, ?_⟩
    rintro z old z' new rfl
    obtain ⟨c, hc, hz⟩ := List.mem_flatMap.mp new
    have free := h.standing.zones_new c hc z (by simpa using hz)
    rw [(orderly.zones_used z old).2] at free
    cases free
  · intro n hn z hz
    rcases List.mem_append.mp hn with hn | hn
    · rw [h.zones_kept hn] at hz
      obtain ⟨isZone, used⟩ := orderly.zone_used hn hz
      exact ⟨isZone, h.standing.zonesUsed z isZone used⟩
    · obtain ⟨c, hc, rfl⟩ := List.mem_map.mp hn
      rw [h.zones_created orderly hc] at hz
      obtain ⟨isZone, used, -⟩ := (h.standing.stands c hc).zone z (by simpa using hz)
      exact ⟨isZone, used⟩

theorem entries_used {e : Entry} (he : e ∈ Image.entries (header img₀) s.image s.directory) :
    e.inode.toNat ∈ usedInodes (header img₀) s.image := by
  rcases List.mem_append.mp (h.entries.mem_iff.mp he) with he | he
  · have used := orderly.entry_used orderly.root_directories he
    exact mem_usedInodes.mpr ⟨(mem_usedInodes.mp used).1, h.standing.inodes _ used⟩
  · obtain ⟨c, hc, rfl⟩ := List.mem_map.mp he
    have stands := h.standing.stands c hc
    exact mem_usedInodes.mpr ⟨stands.isInode, stands.used⟩

theorem undamaged : Undamaged img₀ s.image s.directory where
  superblock := by
    apply Buffer.window_congr
    intro p _ hp
    exact Buffer.getElem?_of_window_eq h.standing.blocks (Nat.zero_le _) hp
  directory := h.directory
  kept := by
    intro n hn
    refine ⟨mem_usedInodes.mpr ⟨(mem_usedInodes.mp hn).1, h.standing.inodes n hn⟩, ?_⟩
    intro notRoot
    refine ⟨h.standing.records n hn notRoot, ?_⟩
    intro z hz
    obtain ⟨isZone, used⟩ := orderly.zone_used hn hz
    refine h.standing.zones z isZone used ?_
    intro root
    exact notRoot (orderly.owner_eq hn orderly.one_mem hz root)
  entries_used _ he := h.entries_used orderly he
  names_once := h.names_once
  added := by
    refine ⟨_, h.entries, ?_, ?_, ?_⟩
    · rw [List.map_map]
      exact h.numbers_once
    · intro e he
      obtain ⟨c, hc, rfl⟩ := List.mem_map.mp he
      exact ⟨h.standing.numbers_new c hc,
        (h.genuine c hc).complete (h.fits orderly) (h.standing.stands c hc)⟩
    · rw [List.map_map]
      exact h.owned orderly

end Image.Grown

namespace Volume

variable {δ : Type} [Disk δ] [ImageDisk δ]

/-- A volume that was opened on a working disk stays undamaged through every run of commands, on
whatever disk with that image the run goes on and whichever of its calls fail. -/
theorem undamaged_runAll {m₀ : Mount δ} (sound : ImageDisk.Sound m₀.disk)
    (reliable : ImageDisk.Reliable m₀.disk) (orderly : Image.Orderly (ImageDisk.image m₀.disk))
    (clock : Int64) (color : Bool) :
    ∃ v m, Mount.exec (openDisk clock color) m₀ = (.ok v, m) ∧
      ∀ (δ' : Type) [Disk δ'] [ImageDisk δ'] (d : δ'), ImageDisk.Sound d →
        ImageDisk.image d = ImageDisk.image m₀.disk →
        ∀ commands : List (Int64 × Command),
          Image.Undamaged (ImageDisk.image m₀.disk)
            (ImageDisk.image (v.runAll commands (m.onto d)).2.disk)
            (v.runAll commands (m.onto d)).2.directory := by
  obtain ⟨v, m, run, isOpen, -⟩ := exec_openDisk sound reliable orderly.fits clock color
  refine ⟨v, m, run, ?_⟩
  intro δ' _ _ d hd image commands
  have start := Image.Grown.refl orderly (s := opened _ m.output) rfl rfl
  obtain ⟨s, cs, shows, grown⟩ := start.grown_runAll orderly (isOpen.shows_onto hd image)
    isOpen.superblock isOpen.width commands
  rw [shows.image, shows.directory]
  exact grown.undamaged orderly

theorem undamaged_runAll_small :
    ∃ sb m₀ v m answers m',
      Mount.exec (Format.run { blocks := 8, inodes := 32 })
        (⟨⟨Buffer.zeros 8192⟩, {}, {}, #[]⟩ : Mount MemoryDisk) = (.ok sb, m₀) ∧
      Mount.exec (openDisk 0 false) m₀ = (.ok v, m) ∧
      v.runAll [(0, .mkdir [0x61]), (1, .touch [0x62])]
        (m.onto (⟨m₀.disk, [{ on := .write, skip := 3 }]⟩ : FaultyDisk MemoryDisk))
          = (answers, m') ∧
      Image.Undamaged m₀.disk.image m'.disk.disk.image m'.directory := by
  obtain ⟨sb, m₀, formatted, inOrder, -⟩ := Format.inOrder_small
  obtain ⟨v, m, opened, runs⟩ := undamaged_runAll inOrder.sound inOrder.reliable
    inOrder.consistent.toOrderly 0 false
  refine ⟨sb, m₀, v, m, _, _, formatted, opened, rfl, ?_⟩
  exact runs (FaultyDisk MemoryDisk) ⟨m₀.disk, [{ on := .write, skip := 3 }]⟩ inOrder.sound rfl
    [(0, .mkdir [0x61]), (1, .touch [0x62])]

end Volume

end MinixVolume

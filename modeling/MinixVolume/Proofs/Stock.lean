import MinixVolume.Proofs.Packing
import MinixVolume.Proofs.Preservation

namespace MinixVolume

inductive Kind where
  | file
  | directory
deriving DecidableEq

structure Request where
  clock : Int64
  kind : Kind
  name : Bytes

structure Item where
  kind : Kind
  name : Bytes
  number : UInt64

namespace Item

def directories (items : List Item) : List Item :=
  items.filter (·.kind = .directory)

end Item

/-- A request that can be met once `items` are there: by its name, and by an inode, a slot and, for
a directory, a zone that are left. -/
structure Request.Admitted (sb : Superblock) (items : List Item) (r : Request) : Prop where
  nonempty : r.name ≠ []
  plain : 0x2f ∉ r.name ∧ 0 ∉ r.name
  short : r.name.length ≤ sb.width.toNat
  fresh : r.name ≠ Format.dot ∧ r.name ≠ Format.dotDot ∧ r.name ∉ items.map (·.name)
  inode : items.length + 1 < sb.inodes.toNat
  slot : 2 + items.length < 1024 / (2 + sb.width.toNat)
  zone : r.kind = .directory → (Item.directories items).length + 1 < sb.dataZones.toNat

namespace Volume

variable {δ : Type} [Disk δ]

def create (v : Volume) (r : Request) : MountM δ UInt64 :=
  match r.kind with
  | .file => touch { v with clock := r.clock } r.name
  | .directory => mkdir { v with clock := r.clock } r.name

def RequestPlan (v : Volume) (r : Request) (root : Inode) : Creation → Prop :=
  match r.kind with
  | .file => FilePlan { v with clock := r.clock } r.name root
  | .directory => DirectoryPlan { v with clock := r.clock } r.name root

def createAll (v : Volume) : List Request → Mount δ → List Item × Mount δ
  | [], m => ([], m)
  | r :: rest, m =>
      match Mount.exec (v.create r) m with
      | (.ok number, m) =>
          let (items, m) := v.createAll rest m
          (⟨r.kind, r.name, number⟩ :: items, m)
      | (.error _, m) => v.createAll rest m

end Volume

namespace Creation

def item (c : Creation) : Item where
  kind := if c.zone = none then .file else .directory
  name := c.name
  number := c.number

def taken (cs : List Creation) : List UInt64 :=
  cs.flatMap (·.zone.toList)

theorem taken_concat (cs : List Creation) (c : Creation) :
    taken (cs ++ [c]) = taken cs ++ c.zone.toList := by
  rw [taken, taken, List.flatMap_append, List.flatMap_singleton]

theorem countP_inner_root {c : Creation} (notRoot : c.number.toNat ≠ 1) :
    c.inner.countP (·.inode.toNat = 1) = c.zone.toList.length := by
  cases zone : c.zone with
  | none => simp [inner, zone]
  | some z => simp [inner, zone, Format.newDirectory, Inode.root, notRoot]

theorem directories_item (cs : List Creation) :
    Item.directories (cs.map item) = (cs.filter (·.zone ≠ none)).map item := by
  rw [Item.directories, List.filter_map]
  congr 1
  apply List.filter_congr
  intro c _
  by_cases none : c.zone = none
  · simp [item, none]
  · simp [item, none]

theorem map_zone_filter (cs : List Creation) :
    (cs.filter (·.zone ≠ none)).map (·.zone.toList) = (taken cs).map fun z => [z] := by
  induction cs with
  | nil => rfl
  | cons c cs ih =>
      rw [taken, List.flatMap_cons]
      cases zone : c.zone with
      | none =>
          rw [List.filter_cons_of_neg (by simp [zone]), ih]
          rfl
      | some z =>
          rw [List.filter_cons_of_pos (by simp [zone]), List.map_cons, ih, zone]
          rfl

theorem length_directories (cs : List Creation) :
    (Item.directories (cs.map item)).length = (taken cs).length := by
  have lengths := congrArg List.length (map_zone_filter cs)
  rw [List.length_map, List.length_map] at lengths
  rw [directories_item, List.length_map, lengths]

theorem toNat_size_root {v : Volume} {name : Bytes} {root : Inode} {c : Creation}
    (planned : v.FilePlan name root c ∨ v.DirectoryPlan name root c) :
    c.root.size.toNat = (root.size.toNat + v.superblock.slotBytes) % 4294967296 := by
  have wide := v.superblock.slotBytes_cases
  have bytes : (Entry.slotSize v.superblock.width).toUInt32.toNat = v.superblock.slotBytes := by
    rw [UInt64.toNat_toUInt32, Entry.slotSize, Superblock.toNat_slotSize]
    exact Nat.mod_eq_of_lt (by omega)
  have size : c.root.size = root.size + (Entry.slotSize v.superblock.width).toUInt32 := by
    obtain ⟨number, rfl⟩ | ⟨-, number, zone, rfl⟩ := planned
    · rfl
    · rfl
  rw [size, UInt32.toNat_add, bytes]

end Creation

namespace Volume.RequestPlan

variable {v : Volume} {r : Request} {root : Inode} {c : Creation} (h : v.RequestPlan r root c)
include h

theorem cases : FilePlan { v with clock := r.clock } r.name root c ∧ r.kind = .file ∨
    DirectoryPlan { v with clock := r.clock } r.name root c ∧ r.kind = .directory := by
  unfold RequestPlan at h
  cases kind : r.kind with
  | file =>
      rw [kind] at h
      exact .inl ⟨h, rfl⟩
  | directory =>
      rw [kind] at h
      exact .inr ⟨h, rfl⟩

theorem item_eq : c.item = ⟨r.kind, r.name, c.number⟩ := by
  obtain ⟨⟨number, rfl⟩, kind⟩ | ⟨⟨-, number, zone, rfl⟩, kind⟩ := h.cases
  · rw [kind]
    rfl
  · rw [kind]
    rfl

theorem name_eq : c.name = r.name :=
  congrArg Item.name h.item_eq

theorem zone_of_directory (kind : r.kind = .directory) : ∃ z, z ∈ c.zone := by
  obtain ⟨-, kind'⟩ | ⟨⟨-, number, zone, rfl⟩, -⟩ := h.cases
  · rw [kind] at kind'
    cases kind'
  · exact ⟨zone, rfl⟩

end Volume.RequestPlan

namespace Image

/-- The scene has come from a fresh image by creations that took inodes, zones and slots each in
order. -/
structure Stocked (img₀ : Buffer) (cs : List Creation) (s : Scene) : Prop
    extends Grown img₀ cs s where
  root_zone : s.directory.zones = [(header img₀).firstDataZone.toUInt64]
  inodes : ∀ n, (header img₀).IsInode n →
    (inodeUsed (header img₀) s.image n = true ↔ n ≤ cs.length + 1)
  zones : ∀ z, (header img₀).IsDataZone z →
    (zoneUsed (header img₀) s.image z = true ↔
      z.toNat ≤ (header img₀).firstDataZone.toNat + (Creation.taken cs).length)
  packed : Packed (header img₀)
    (zone (header img₀) s.image (header img₀).firstDataZone.toUInt64)
    (Format.newDirectory Inode.root Inode.root ++ cs.map (·.entry))
  plain : ∀ c ∈ cs, 0x2f ∉ c.name
  numbers : cs.map (·.number.toNat) = List.range' 2 cs.length
  taken : (Creation.taken cs).map (·.toNat)
    = List.range' ((header img₀).firstDataZone.toNat + 1) (Creation.taken cs).length
  size : s.directory.size.toNat = (2 + cs.length) * (header img₀).slotBytes
  links : s.directory.links.toNat = 2 + (Creation.taken cs).length

namespace Stocked

variable {img₀ : Buffer} {cs : List Creation} {s : Scene} (h : Stocked img₀ cs s)
  (orderly : Orderly img₀)
include h

theorem entries_eq : Image.entries (header img₀) s.image s.directory
    = Format.newDirectory Inode.root Inode.root ++ cs.map (·.entry) := by
  rw [Image.entries, h.root_zone, List.flatMap_singleton]
  exact h.packed.zoneEntries_eq

theorem names_eq : (Image.entries (header img₀) s.image s.directory).map (·.name)
    = Format.dot :: Format.dotDot :: (cs.map Creation.item).map (·.name) := by
  rw [h.entries_eq, List.map_append, List.map_map, List.map_map]
  rfl

omit h in
theorem length_packed (cs : List Creation) :
    (Format.newDirectory Inode.root Inode.root ++ cs.map (·.entry)).length = 2 + cs.length := by
  rw [List.length_append, List.length_map]
  rfl

theorem number_eq {c : Creation} (fresh : c.Fresh (header img₀) s) :
    c.number.toNat = cs.length + 2 := by
  have isInode := fresh.isInode
  have free : ¬ c.number.toNat ≤ cs.length + 1 := by
    intro le
    have used := (h.inodes _ isInode).mpr le
    rw [fresh.free] at used
    cases used
  by_contra more
  have used := fresh.least (cs.length + 2) (by omega) (by omega)
  have le := (h.inodes _ ⟨by omega, by have := isInode.2; omega⟩).mp used
  omega

theorem zone_eq {c : Creation} (fresh : c.Fresh (header img₀) s) {z : UInt64} (hz : z ∈ c.zone) :
    z.toNat = (header img₀).firstDataZone.toNat + (Creation.taken cs).length + 1 := by
  obtain ⟨isZone, unused, -, least⟩ := fresh.zone z hz
  have free : ¬ z.toNat ≤ (header img₀).firstDataZone.toNat + (Creation.taken cs).length := by
    intro le
    rw [(h.zones z isZone).mpr le] at unused
    cases unused
  by_contra more
  have word := Word.toNat_ofNat_of_le (w := z)
    (n := (header img₀).firstDataZone.toNat + (Creation.taken cs).length + 1) (by omega)
  have upper := isZone.2
  have isZone' : (header img₀).IsDataZone (UInt64.ofNat
      ((header img₀).firstDataZone.toNat + (Creation.taken cs).length + 1)) :=
    ⟨by omega, by omega⟩
  have le := (h.zones _ isZone').mp (least _ isZone' (by omega))
  omega

theorem slot_eq {z : UInt64} {k : Nat}
    (found : FreeSlot (header img₀) s.image s.directory.zones z k) :
    z = (header img₀).firstDataZone.toUInt64 ∧ k = 2 + cs.length := by
  have mem := found.mem
  rw [h.root_zone] at mem
  obtain rfl := List.mem_singleton.mp mem
  refine ⟨rfl, ?_⟩
  rw [← length_packed cs]
  exact h.packed.length_of_least found.lt found.free found.below

omit h in
theorem size_root {v : Volume} {name : Bytes} {root : Inode} {c : Creation}
    (planned : v.FilePlan name root c ∨ v.DirectoryPlan name root c)
    (superblock : v.superblock = header img₀)
    (small : root.size.toNat + (header img₀).slotBytes < 4294967296) :
    c.root.size.toNat = root.size.toNat + (header img₀).slotBytes := by
  rw [Creation.toNat_size_root planned, superblock]
  exact Nat.mod_eq_of_lt small

theorem taken_entered {c : Creation} (fresh : c.Fresh (header img₀) s) :
    (Creation.taken (cs ++ [c])).map (·.toNat)
      = List.range' ((header img₀).firstDataZone.toNat + 1)
        (Creation.taken (cs ++ [c])).length := by
  rw [Creation.taken_concat, List.map_append, h.taken]
  cases zone : c.zone with
  | none => simp
  | some z =>
      have last := h.zone_eq fresh (z := z) (by simp [zone])
      simp only [Option.toList_some, List.map_singleton, List.length_append,
        List.length_singleton, List.range'_1_concat, last]
      congr 2
      omega

section Enter

variable {c : Creation} (fresh : c.Fresh (header img₀) s) {z : UInt64} {k : Nat}
  (found : FreeSlot (header img₀) s.image s.directory.zones z k) (root : Option Inode)
include orderly fresh found

theorem inodes_entered {n : Nat} (hn : (header img₀).IsInode n) :
    inodeUsed (header img₀)
        (Update.applyAll (header img₀) s.image (c.entering (header img₀) z k root)) n = true ↔
      n ≤ (cs ++ [c]).length + 1 := by
  have fits := h.fits orderly
  have used := h.zones_used orderly
  have foot := fresh.footprint_entering fits.inodes_pos found (fun z hz => (used z hz).1) root
  have number := h.number_eq fresh
  have inodes_lt := fits.inodes_lt
  have le := hn.2
  rw [List.length_append, List.length_singleton]
  by_cases same : n = c.number.toNat
  · rw [same, fresh.inodeUsed_entering fits found used root, number]
    simp
  · rw [Update.inodeUsed_of_local foot.valid fits foot.within (by omega) same, h.inodes n hn]
    omega

theorem zones_entered {z' : UInt64} (hz : (header img₀).IsDataZone z') :
    zoneUsed (header img₀)
        (Update.applyAll (header img₀) s.image (c.entering (header img₀) z k root)) z' = true ↔
      z'.toNat ≤ (header img₀).firstDataZone.toNat + (Creation.taken (cs ++ [c])).length := by
  have fits := h.fits orderly
  have used := h.zones_used orderly
  have foot := fresh.footprint_entering fits.inodes_pos found (fun z hz => (used z hz).1) root
  rw [Creation.taken_concat, List.length_append]
  by_cases mem : z' ∈ c.zone
  · have last := h.zone_eq fresh mem
    have one : c.zone.toList.length = 1 := by
      rw [Option.mem_def.mp mem]
      rfl
    rw [fresh.zoneUsed_entering fits found used root mem, last, one, Nat.add_assoc]
    simp
  · rw [Update.zoneUsed_of_local foot.valid fits foot.within (fun z hz => (fresh.zone z hz).1) hz
      mem, h.zones z' hz]
    cases zone : c.zone with
    | none => rfl
    | some last =>
        have number := h.zone_eq fresh (z := last) (by simp [zone])
        have ne : z'.toNat ≠ last.toNat := by
          intro same
          obtain rfl : z' = last := UInt64.toNat.inj same
          exact mem zone
        change _ ↔ _ ≤ _ + (_ + 1)
        omega

theorem packed_entered :
    Packed (header img₀)
      (zone (header img₀) (Update.applyAll (header img₀) s.image
        (c.entering (header img₀) z k root)) (header img₀).firstDataZone.toUInt64)
      (Format.newDirectory Inode.root Inode.root ++ (cs ++ [c]).map (·.entry)) := by
  obtain ⟨rfl, rfl⟩ := h.slot_eq found
  have length := length_packed cs
  have packed := h.packed.fill (by rw [length]; exact found.lt)
    (Entry.size_slotData fresh.writable.short) (Entry.ofSlot_slotData fresh.writable) fresh.nonzero
  rw [length, List.append_assoc, ← fresh.slotZone_entering (h.fits orderly) found
    (h.zones_used orderly) root] at packed
  rw [List.map_append]
  exact packed

theorem enter (accepted : FormatOptions.Accepted (header img₀)) {v : Volume} {name : Bytes}
    (planned : v.FilePlan name s.directory c ∨ v.DirectoryPlan name s.directory c)
    (superblock : v.superblock = header img₀) :
    Stocked img₀ (cs ++ [c])
      { s with
        image := Update.applyAll (header img₀) s.image
          (c.entering (header img₀) z k (some c.root))
        directory := c.root } := by
  have genuine := Volume.genuine_of_plan planned
  rw [superblock] at genuine
  have notRoot := h.number_ne_one orderly fresh
  have slotEnd := Superblock.Fits.slotEnd_le _ found.lt
  rw [accepted.zoneSize_eq, (h.slot_eq found).2] at slotEnd
  change _ ≤ 1024 at slotEnd
  have grown := h.toGrown.enter orderly fresh found (some c.root) genuine.1 (by
    rintro ip ⟨⟩
    exact genuine.2)
  refine ⟨grown, genuine.2.1.trans h.root_zone,
    fun n hn => h.inodes_entered orderly fresh found (some c.root) hn,
    fun z hz => h.zones_entered orderly fresh found (some c.root) hz,
    h.packed_entered orderly fresh found (some c.root), ?_, ?_, h.taken_entered fresh, ?_, ?_⟩
  · intro c' hc
    rcases List.mem_append.mp hc with hc | hc
    · exact h.plain c' hc
    · rw [List.mem_singleton.mp hc]
      exact fresh.name.plain.1
  · rw [List.map_append, h.numbers, List.length_append, List.map_singleton, h.number_eq fresh]
    simp [List.range'_1_concat, Nat.add_comm]
  · have size := size_root planned superblock (by rw [h.size]; omega)
    change c.root.size.toNat = _
    rw [size, h.size, List.length_append, List.length_singleton, ← Nat.add_assoc, Nat.succ_mul]
  · change c.root.links.toNat = _
    rw [Creation.links_root planned notRoot, Creation.countP_inner_root notRoot, h.links,
      Creation.taken_concat, List.length_append, Nat.add_assoc]

end Enter

include orderly in
theorem undo {c : Creation} (fresh : c.Fresh (header img₀) s) {slot : Option (UInt64 × Nat)}
    {us : List Update} (attempted : Attempted (header img₀) s c slot us) :
    Stocked img₀ cs
      { s with
        image := Update.applyAll (header img₀) s.image
          (us ++ releases c.number.toNat c.zone) } := by
  have fits := h.fits orderly
  have used := h.zones_used orderly
  have given := List.Subset.refl (releases c.number.toNat c.zone)
  have foot := attempted.footprint fresh given used
  obtain ⟨freeInode, freeZone⟩ := attempted.free_again fresh given used fits rfl
  refine ⟨h.keep orderly fresh attempted given, h.root_zone, ?_, ?_, ?_, h.plain, h.numbers,
    h.taken, h.size, h.links⟩
  · intro n hn
    have inodes_lt := fits.inodes_lt
    have le := hn.2
    rw [← h.inodes n hn]
    by_cases same : n = c.number.toNat
    · rw [same, freeInode, fresh.free]
    · rw [Update.inodeUsed_of_local foot.valid fits foot.within (by omega) same]
  · intro z hz
    rw [← h.zones z hz]
    by_cases mem : z ∈ c.zone
    · rw [freeZone z mem, (fresh.zone z mem).2.1]
    · rw [Update.zoneUsed_of_local foot.valid fits foot.within
        (fun z hz => (fresh.zone z hz).1) hz mem]
  · have root := h.root_zone
    obtain ⟨isZone, inUse⟩ := used (header img₀).firstDataZone.toUInt64 (by simp [root])
    by_cases mem : ∃ k, ((header img₀).firstDataZone.toUInt64, k) ∈ slot
    · obtain ⟨k, mem⟩ := mem
      have found := attempted.freeSlot mem
      rw [attempted.slotZone fresh given used fits mem]
      exact h.packed.clear found.lt found.free (Buffer.size_zeros _) (Entry.ofSlot_zeros _)
    · rw [Update.zone_of_local foot.valid fits foot.within isZone _ fun k hk => mem ⟨k, hk⟩]
      · exact h.packed
      · intro taken
        rw [(fresh.zone _ taken).2.1] at inUse
        cases inUse

section Admission

variable {v : Volume} {r : Request}

theorem newName_iff (accepted : FormatOptions.Accepted (header img₀)) :
    NewName (header img₀) s r.name ↔
    r.name ≠ [] ∧ (0x2f ∉ r.name ∧ 0 ∉ r.name) ∧ r.name.length ≤ (header img₀).width.toNat ∧
      r.name ≠ Format.dot ∧ r.name ≠ Format.dotDot ∧
      r.name ∉ (cs.map Creation.item).map (·.name) := by
  constructor
  · intro new
    have fresh := new.fresh
    rw [h.names_eq, List.mem_cons, List.mem_cons, not_or, not_or] at fresh
    exact ⟨new.nonempty, new.plain, new.short, fresh⟩
  · rintro ⟨nonempty, plain, short, fresh⟩
    refine ⟨nonempty, plain, short, Directory.need_le_of_small accepted.zoneSize_le, ?_⟩
    rw [h.names_eq, List.mem_cons, List.mem_cons, not_or, not_or]
    exact fresh

omit h in
theorem slots_eq (accepted : FormatOptions.Accepted (header img₀)) :
    (header img₀).slots = 1024 / (2 + (header img₀).width.toNat) := by
  rw [Superblock.slots, accepted.zoneSize_eq]
  rfl

/-- The root never has so many links that no directory could be made: its slots run out first. -/
theorem links_lt (accepted : FormatOptions.Accepted (header img₀)) : s.directory.links ≠ 0xff := by
  intro saturated
  have links := h.links
  rw [saturated] at links
  change 255 = _ at links
  have room := h.packed.room
  have directories : (Creation.taken cs).length ≤ cs.length := by
    rw [← Creation.length_directories]
    exact Nat.le_trans (List.length_filter_le _ _) (Nat.le_of_eq (List.length_map _))
  rw [length_packed, slots_eq accepted] at room
  have few : 1024 / (2 + (header img₀).width.toNat) ≤ 64 := by
    rcases (header img₀).width_cases with w | w
    · rw [w]
      decide
    · rw [w]
      decide
  omega

theorem not_admitted_of_refusal (accepted : FormatOptions.Accepted (header img₀)) {t : Stop}
    (why : Refusal (header img₀) (v.RequestPlan r s.directory) s r.name True t) :
    ¬ r.Admitted (header img₀) (cs.map Creation.item) := by
  intro admitted
  cases why with
  | name misnamed =>
      exact misnamed.not_newName ((h.newName_iff accepted).mpr ⟨admitted.nonempty, admitted.plain,
        admitted.short, admitted.fresh⟩)
  | links _ _ saturated => exact h.links_lt accepted saturated
  | inodes _ _ used =>
      have left := admitted.inode
      rw [List.length_map] at left
      have isInode : (header img₀).IsInode (cs.length + 2) := ⟨by omega, by omega⟩
      have le := (h.inodes _ isInode).mp (used _ isInode)
      omega
  | unreadable _ _ large =>
      exact absurd large (Nat.not_lt_of_le (Directory.need_le_of_small accepted.zoneSize_le))
  | mishap stopped => exact stopped.not_steady trivial

variable (accepted : FormatOptions.Accepted (header img₀))
include accepted

theorem admitted_of_made {c : Creation} (planned : v.RequestPlan r s.directory c)
    (fresh : c.Fresh (header img₀) s) {z : UInt64} {k : Nat}
    (found : FreeSlot (header img₀) s.image s.directory.zones z k) :
    r.Admitted (header img₀) (cs.map Creation.item) := by
  have new := fresh.name
  rw [planned.name_eq] at new
  obtain ⟨nonempty, plain, short, unlike⟩ := (h.newName_iff accepted).mp new
  have number := h.number_eq fresh
  have isInode := fresh.isInode.2
  have slot := found.lt
  rw [(h.slot_eq found).2, slots_eq accepted] at slot
  refine ⟨nonempty, plain, short, unlike, ?_, ?_, ?_⟩
  · rw [List.length_map]
    omega
  · rw [List.length_map]
    exact slot
  · intro kind
    obtain ⟨z, hz⟩ := planned.zone_of_directory kind
    have zone := h.zone_eq fresh hz
    have upper := (fresh.zone z hz).1.2
    rw [Creation.length_directories, Superblock.toNat_dataZones]
    omega

theorem not_admitted_of_setback {e : Error}
    (why : Setback (header img₀) (v.RequestPlan r s.directory) s True e) :
    ¬ r.Admitted (header img₀) (cs.map Creation.item) := by
  intro admitted
  cases why with
  | zones _ _ taking full =>
      cases kind : r.kind with
      | file =>
          refine taking (.file { v with clock := r.clock } r.name s.directory 0) ?_ rfl
          rw [Volume.RequestPlan, kind]
          exact ⟨0, rfl⟩
      | directory =>
          have left := admitted.zone kind
          rw [Creation.length_directories] at left
          obtain ⟨isZone, word⟩ := Superblock.isDataZone_of_lt left
          have le := (h.zones _ isZone).mp (full _ isZone)
          omega
  | slots _ _ _ occupied =>
      have left := admitted.slot
      rw [List.length_map, ← slots_eq accepted] at left
      refine h.packed.not_occupied (by rw [length_packed]; exact left) (occupied _ ?_)
      simp [h.root_zone]
  | fault _ failing => exact failing trivial

include orderly in
theorem outcome (superblock : v.superblock = header img₀) {answer : Except Stop UInt64}
    {s' : Scene} {log : Log}
    (outcome : Outcome (header img₀) r.name (v.RequestPlan r s.directory) True s answer s' log) :
    (∃ c, answer = .ok c.number ∧ c.item = ⟨r.kind, r.name, c.number⟩ ∧
        Stocked img₀ (cs ++ [c]) s' ∧ r.Admitted (header img₀) (cs.map Creation.item)) ∨
      ∃ t, answer = .error t ∧ Stocked img₀ cs s' ∧
        ¬ r.Admitted (header img₀) (cs.map Creation.item) := by
  cases outcome with
  | refused why => exact .inr ⟨_, rfl, h, h.not_admitted_of_refusal accepted why⟩
  | @made c z k _ planned fresh found =>
      have found := found.toFreeSlot
      refine .inl ⟨c, rfl, planned.item_eq, ?_, h.admitted_of_made accepted planned fresh found⟩
      exact h.enter orderly fresh found accepted (planned.cases.imp And.left And.left) superblock
  | left _ _ _ _ failing => exact absurd trivial failing
  | undone _ fresh attempted why given =>
      cases given with
      | all => exact .inr ⟨_, rfl, h.undo orderly fresh attempted,
          h.not_admitted_of_setback accepted why⟩
      | part _ failing _ => exact absurd trivial failing
  | crashed _ _ _ _ large => exact absurd large (Nat.not_lt_of_le accepted.zoneSize_le)

end Admission

end Stocked

end Image

namespace Volume

variable {δ : Type} [Disk δ] [ImageDisk δ] {m : Mount δ} {steady : Prop} {s : Scene} {v : Volume}

theorem ends_create (h : m.Shows steady s) (ready : v.Ready s) (r : Request) :
    Mount.Ends (v.create r) m
      (fun i m' => v.Comes r.name (v.RequestPlan r s.directory) steady s (.ok i) m')
      (fun t m' => v.Comes r.name (v.RequestPlan r s.directory) steady s (.error t) m') := by
  have ready : Ready { v with clock := r.clock } s := ⟨ready.fits, ready.width, ready.zones⟩
  unfold create RequestPlan
  cases r.kind with
  | file => exact ends_touch h ready r.name
  | directory => exact ends_mkdir h ready r.name

end Volume

end MinixVolume

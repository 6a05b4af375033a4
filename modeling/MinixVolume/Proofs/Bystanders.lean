import MinixVolume.Proofs.Content
import MinixVolume.Proofs.Format
import MinixVolume.Proofs.Resilience

namespace MinixVolume

namespace Image

variable (sb : Superblock) (img : Buffer)

def follow : Nat → List Bytes → Option Nat
  | n, [] => some n
  | n, name :: rest =>
      match (entries sb img (inode sb img n)).find? (·.name == name) with
      | none => none
      | some e =>
          if rest ≠ [] && !(inode sb img e.inode.toNat).isDirectory then none
          else follow e.inode.toNat rest

def target (path : Bytes) : Option Nat :=
  if 2 < (path.pieces 0x2f).length then none else follow sb img 1 (path.pieces 0x2f)

variable {sb img}

theorem find?_of_mem {es : List Entry} (once : (es.map (·.name)).Nodup) {e : Entry} (he : e ∈ es) :
    es.find? (·.name == e.name) = some e := by
  induction es with
  | nil => cases he
  | cons e' es ih =>
      rw [List.map_cons, List.nodup_cons] at once
      rcases List.mem_cons.mp he with rfl | he
      · exact List.find?_cons_of_pos (p := fun x : Entry => x.name == e.name) (by simp)
      · have ne : ¬ (e'.name == e.name) = true := by
          intro same
          exact once.1 (List.mem_map.mpr ⟨e, he, (eq_of_beq same).symm⟩)
        rw [List.find?_cons_of_neg (p := fun x : Entry => x.name == e.name) ne]
        exact ih once.2 he

theorem zones_of_target {path : Bytes} {n : Nat} (found : target sb img path = some n) :
    ¬ 2 < (path.pieces 0x2f).length ∧ ∃ z zs, (inode sb img 1).zones = z :: zs := by
  have length := Bytes.length_pieces 0x2f path
  rw [target] at found
  split at found
  · cases found
  next short =>
  refine ⟨short, ?_⟩
  cases names : path.pieces 0x2f with
  | nil =>
      rw [names] at length
      cases length
  | cons name rest =>
      cases zones : (inode sb img 1).zones with
      | nil =>
          rw [names, follow, entries, zones] at found
          cases found
      | cons z zs => exact ⟨z, zs, rfl⟩

section Resolving

variable {δ : Type} [Disk δ] [ImageDisk δ] {m : Mount δ} {s : Scene} (orderly : Orderly s.image)
  {v : Volume} (superblock : v.superblock = header s.image)
  (width : v.nameWidth = v.superblock.width)
include orderly superblock width

theorem ends_lookup (hm : m.Shows True s) {d : Nat}
    (hd : d ∈ directories (header s.image) s.image) (name : Bytes) :
    Mount.Ends (v.lookup (inode (header s.image) s.image d) name) m
      (fun number m' => ∃ e, (entries (header s.image) s.image
          (inode (header s.image) s.image d)).find? (·.name == name) = some e ∧
        number = e.inode ∧ m'.Shows True s)
      (fun t _ => (entries (header s.image) s.image
          (inode (header s.image) s.image d)).find? (·.name == name) = none ∨
        Volume.Oversized (header s.image) t) := by
  have inside : ∀ z ∈ (inode (header s.image) s.image d).zones,
      (header s.image).zonePlace z + (header s.image).zoneSize.toNat ≤ s.image.size := by
    intro z hz
    exact orderly.fits.zoneEnd_le (orderly.zone_used (List.mem_filter.mp hd).1 hz).1
  rw [Volume.lookup, width, superblock]
  refine Mount.Ends.bind (Directory.ends_lookup hm name inside) ?_ ?_
  · rintro r m₁ ⟨rfl, h₁⟩
    cases found : (entries (header s.image) s.image
        (inode (header s.image) s.image d)).find? (·.name == name) with
    | none => exact Mount.Ends.fail (.inl rfl)
    | some e => exact Mount.Ends.pure ⟨e, rfl, rfl, h₁⟩
  · rintro t m' ⟨mishap, -⟩
    cases mishap with
    | fault _ _ failing => exact absurd trivial failing
    | memory large => exact .inr ⟨rfl, large⟩

theorem ends_follow (hm : m.Shows True s) {names : List Bytes} {d : Nat}
    (hd : names ≠ [] → d ∈ directories (header s.image) s.image) :
    Mount.Ends (v.follow (inode (header s.image) s.image d) names) m
      (fun ip _ => ∃ n, follow (header s.image) s.image d names = some n ∧
        ip = inode (header s.image) s.image n)
      (fun t _ => follow (header s.image) s.image d names = none ∨
        Volume.Oversized (header s.image) t) := by
  induction names generalizing d m with
  | nil => exact Mount.Ends.pure ⟨d, rfl, rfl⟩
  | cons name rest ih =>
      have hd := hd (List.cons_ne_nil _ _)
      rw [Volume.follow, follow]
      refine Mount.Ends.bind (ends_lookup orderly superblock width hm hd name) ?_ ?_
      · rintro _ m₁ ⟨e, found, rfl, h₁⟩
        have used := orderly.entry_used hd (List.mem_of_find?_eq_some found)
        have load := Inode.ends_load h₁ orderly.fits (mem_usedInodes.mp used).1
        rw [← superblock] at load
        refine Mount.Ends.bind load ?_ fun t m' h => absurd trivial h.1.not_steady
        rintro _ m₂ ⟨rfl, h₂⟩
        rw [superblock, found]
        dsimp only
        by_cases stuck : (rest ≠ [] && !(inode (header s.image) s.image e.inode.toNat).isDirectory)
            = true
        · rw [if_pos stuck, if_pos stuck]
          exact Mount.Ends.fail_bind (.inl rfl)
        · rw [if_neg stuck, if_neg stuck]
          refine ih h₂ ?_
          intro more
          exact List.mem_filter.mpr ⟨used, by simpa [more] using stuck⟩
      · rintro t m' (missing | crash)
        · rw [missing]
          exact .inl rfl
        · exact .inr crash

theorem ends_resolve (hm : m.Shows True s)
    (directory : s.directory = inode (header s.image) s.image 1) (path : Bytes) :
    Mount.Ends (v.resolve path) m
      (fun ip _ => ∃ n, target (header s.image) s.image path = some n ∧
        ip = inode (header s.image) s.image n)
      (fun t _ => target (header s.image) s.image path = none ∨
        Volume.Oversized (header s.image) t) := by
  rw [Volume.resolve, target]
  by_cases deep : 2 < (path.pieces 0x2f).length
  · rw [if_pos deep, if_pos deep]
    exact Mount.Ends.fail_bind (.inl rfl)
  · rw [if_neg deep, if_neg deep]
    apply Mount.ends_get
    rw [hm.directory, directory]
    exact ends_follow orderly superblock width hm fun _ => orderly.root_directories

end Resolving

namespace Grown

variable {img₀ : Buffer} {cs : List Creation} {s : Scene} (h : Grown img₀ cs s)
  (orderly : Orderly img₀)
include h orderly

theorem find?_kept {d : Nat} (hd : d ∈ directories (header img₀) img₀) {ip : Inode}
    (zones : ip.zones = (inode (header img₀) img₀ d).zones) {name : Bytes} {e : Entry}
    (found : (Image.entries (header img₀) img₀ (inode (header img₀) img₀ d)).find?
      (·.name == name) = some e) :
    (Image.entries (header img₀) s.image ip).find? (·.name == name) = some e := by
  have used := (List.mem_filter.mp hd).1
  by_cases one : d = 1
  -- New entries may stand anywhere among the old ones of the root, but no name occurs twice.
  · subst one
    have mem := List.mem_append_left (cs.map (·.entry)) (List.mem_of_find?_eq_some found)
    have same : e.name = name := eq_of_beq (by simpa using List.find?_some found)
    have here := find?_of_mem h.names_once (h.entries.mem_iff.mpr mem)
    rw [same] at here
    rw [entries_of_zones (zones.trans h.root_zones.symm)]
    exact here
  · have kept := (((h.undamaged orderly).kept d used).2 one).2
    have same : Image.entries (header img₀) s.image (inode (header img₀) img₀ d)
        = Image.entries (header img₀) img₀ (inode (header img₀) img₀ d) := by
      apply entries_congr
      intro z hz
      rw [kept z hz]
    rw [entries_of_zones zones, same]
    exact found

omit orderly in
theorem isDirectory_kept {n : Nat} (hn : n ∈ usedInodes (header img₀) img₀) :
    (inode (header img₀) s.image n).isDirectory = (inode (header img₀) img₀ n).isDirectory := by
  by_cases one : n = 1
  · rw [one, ← h.directory]
    exact Inode.isDirectory_congr h.root_mode
  · rw [inode_congr (h.standing.records n hn one)]

theorem zoneEnd_le {n : Nat} (hn : n ∈ usedInodes (header img₀) img₀) :
    ∀ z ∈ (inode (header img₀) s.image n).zones,
      (header img₀).zonePlace z + (header img₀).zoneSize.toNat ≤ s.image.size := by
  intro z hz
  rw [h.zones_kept hn] at hz
  exact (h.fits orderly).zoneEnd_le (orderly.zone_used hn hz).1

section Following

variable {δ : Type} [Disk δ] [ImageDisk δ] {m : Mount δ} {directory : Inode} {v : Volume}
  (hm : m.Shows True { s with directory := directory })
  (superblock : v.superblock = header img₀) (width : v.nameWidth = v.superblock.width)
  (small : (header img₀).zoneSize.toNat ≤ Word.largestBuffer.toNat)
include hm superblock width small

theorem ends_lookup {d : Nat} (hd : d ∈ directories (header img₀) img₀) {ip : Inode}
    (zones : ip.zones = (inode (header img₀) img₀ d).zones) {name : Bytes} {e : Entry}
    (found : (Image.entries (header img₀) img₀ (inode (header img₀) img₀ d)).find?
      (·.name == name) = some e) :
    Mount.Ends (v.lookup ip name) m
      (fun number m' => number = e.inode ∧ m'.Shows True { s with directory := directory })
      (fun _ _ => False) := by
  have used := (List.mem_filter.mp hd).1
  have inside : ∀ z ∈ ip.zones,
      (header img₀).zonePlace z + (header img₀).zoneSize.toNat ≤ s.image.size := by
    intro z hz
    rw [zones, ← h.zones_kept used] at hz
    exact h.zoneEnd_le orderly used z hz
  rw [Volume.lookup, width, superblock]
  refine Mount.Ends.bind (Directory.ends_lookup hm name inside) ?_
    fun t m' h => (h.1.of_small small).1 trivial
  rintro r m₁ ⟨rfl, h₁⟩
  rw [h.find?_kept orderly hd zones found]
  exact Mount.Ends.pure ⟨rfl, h₁⟩

theorem ends_follow {names : List Bytes} {d n : Nat}
    (hd : names ≠ [] → d ∈ directories (header img₀) img₀) {ip : Inode}
    (zones : ip.zones = (inode (header img₀) img₀ d).zones)
    (found : follow (header img₀) img₀ d names = some n) :
    Mount.Ends (v.follow ip names) m
      (fun ip' m' => (names = [] → ip' = ip) ∧
        (names ≠ [] → n ∈ usedInodes (header img₀) img₀ ∧
          ip' = inode (header img₀) s.image n) ∧
        m'.Shows True { s with directory := directory })
      (fun _ _ => False) := by
  induction names generalizing d ip m with
  | nil => exact Mount.Ends.pure ⟨fun _ => rfl, fun ne => absurd rfl ne, hm⟩
  | cons name rest ih =>
      have hd := hd (List.cons_ne_nil _ _)
      rw [follow] at found
      split at found
      · cases found
      next e entry =>
      split at found
      · cases found
      next goes =>
      have used := orderly.entry_used hd (List.mem_of_find?_eq_some entry)
      have next := h.isDirectory_kept used
      refine Mount.Ends.next (h.ends_lookup orderly hm superblock width small hd zones entry) ?_
      rintro _ m₁ ⟨rfl, h₁⟩
      have load := Inode.ends_load h₁ (h.fits orderly) (mem_usedInodes.mp used).1
      rw [← superblock] at load
      refine Mount.Ends.bind load ?_ fun t m' h => h.1.not_steady trivial
      rintro _ m₂ ⟨rfl, h₂⟩
      rw [superblock, if_neg (by rw [next]; exact goes)]
      refine (ih h₂ ?_ (h.zones_kept used) found).imp ?_
      · intro more
        refine List.mem_filter.mpr ⟨used, ?_⟩
        simpa [more] using goes
      · rintro ip' m₃ ⟨last, further, h₃⟩
        refine ⟨fun nil => absurd nil (List.cons_ne_nil _ _), fun _ => ?_, h₃⟩
        by_cases more : rest = []
        · subst more
          cases found
          exact ⟨used, last rfl⟩
        · exact further more

theorem exec_cat (zones : directory.zones = (inode (header img₀) img₀ 1).zones) {path : Bytes}
    {n : Nat} (found : target (header img₀) img₀ path = some n) (notRoot : n ≠ 1) :
    ∃ m' : Mount δ, m'.output = s.output ∧ Mount.exec (v.cat path) m
      = Mount.exec (Mount.put (content (header img₀) img₀ (inode (header img₀) img₀ n))) m' := by
  have some : path.pieces 0x2f ≠ [] := by
    intro nil
    have length := Bytes.length_pieces 0x2f path
    rw [nil] at length
    cases length
  have resolve : Mount.Ends (v.resolve path) m
      (fun ip m' => n ∈ usedInodes (header img₀) img₀ ∧ ip = inode (header img₀) s.image n ∧
        m'.Shows True { s with directory := directory }) (fun _ _ => False) := by
    rw [target] at found
    split at found
    · cases found
    next short =>
    rw [Volume.resolve, if_neg short]
    apply Mount.ends_get
    rw [hm.directory]
    refine (h.ends_follow orderly hm superblock width small (fun _ => orderly.root_directories)
      zones found).imp ?_
    rintro ip m' ⟨-, last, h'⟩
    exact ⟨(last some).1, (last some).2, h'⟩
  rcases resolve.exec_eq with ⟨ip, m₁, run₁, used, rfl, h₁⟩ | ⟨_, _, _, impossible⟩
  · have read := Content.ends_read h₁ (h.zoneEnd_le orderly used)
    rcases read.exec_eq with ⟨b, m₂, run₂, rfl, h₂⟩ | ⟨_, _, _, mishap, _⟩
    · obtain ⟨record, zones⟩ := ((h.undamaged orderly).kept n used).2 notRoot
      have same : content (header img₀) s.image (inode (header img₀) img₀ n)
          = content (header img₀) img₀ (inode (header img₀) img₀ n) :=
        gathered_congr zones _ _
      refine ⟨m₂, h₂.output, ?_⟩
      rw [Volume.cat, Mount.exec_bind, run₁]
      dsimp only
      rw [Mount.exec_bind, superblock, run₂]
      dsimp only
      rw [inode_congr record, same]
    · exact absurd trivial mishap.not_steady
  · cases impossible

end Following

end Grown

end Image

/-- Nothing that was in use has changed, apart from the root inode and from one slot of its zones
that was free. -/
structure Image.Spared (img₀ img : Buffer) : Prop where
  blocks : img.window 0 2048 = img₀.window 0 2048
  inodes : ∀ n ∈ usedInodes (header img₀) img₀, n ≠ 1 →
    inodeUsed (header img₀) img n = true ∧
    record (header img₀) img n = record (header img₀) img₀ n ∧
    ∀ z ∈ (inode (header img₀) img₀ n).zones,
      zone (header img₀) img z = zone (header img₀) img₀ z
  zones : ∃ slot : Option (UInt64 × Nat),
    (∀ z k, (z, k) ∈ slot →
      FreeSlot (header img₀) img₀ (inode (header img₀) img₀ 1).zones z k) ∧
    ∀ z, (header img₀).IsDataZone z → zoneUsed (header img₀) img₀ z = true →
      ∀ i, i < (header img₀).zoneSize.toNat →
        (∀ k, (z, k) ∈ slot → i < k * (header img₀).slotBytes ∨
          k * (header img₀).slotBytes + (header img₀).slotBytes ≤ i) →
        (zone (header img₀) img z).data[i]? = (zone (header img₀) img₀ z).data[i]?

theorem Update.Footprint.spared {s : Scene} (orderly : Image.Orderly s.image)
    (directory : s.directory = Image.inode (Image.header s.image) s.image 1) {n : Nat}
    {free : Option UInt64} {slot : Option (UInt64 × Nat)} {us : List Update}
    (foot : Footprint (Image.header s.image) s n free slot us) :
    Image.Spared s.image (applyAll (Image.header s.image) s.image us) where
  blocks := foot.blocks_eq orderly.fits
  inodes := by
    intro m hm notRoot
    obtain ⟨isInode, used⟩ := Image.mem_usedInodes.mp hm
    refine ⟨foot.inodeUsed orderly.fits isInode used,
      foot.record orderly.fits isInode used notRoot, ?_⟩
    intro z hz
    obtain ⟨isZone, used⟩ := orderly.zone_used hm hz
    apply foot.zone_eq orderly.fits isZone used
    rw [directory]
    intro root
    exact notRoot (orderly.owner_eq hm orderly.one_mem hz root)
  zones := by
    refine ⟨slot, fun z k mem => directory ▸ foot.slot z k mem, ?_⟩
    intro z hz used i lt out
    rw [Image.zone, Image.zone, Buffer.getElem?_window, Buffer.getElem?_window, if_pos lt,
      if_pos lt]
    apply foot.getElem?_zone orderly.fits hz used (Nat.le_add_right _ _) (by omega)
    intro z' k mem
    rw [Superblock.slotPlace]
    by_cases same : z' = z
    · subst same
      have := out k mem
      omega
    · have found := foot.slot z' k mem
      have isZone := (orderly.zone_used orderly.one_mem (directory ▸ found.mem)).1
      have apart := orderly.fits.zones_apart hz isZone (Ne.symm same)
      have inside := Superblock.Fits.slotEnd_le _ found.lt
      omega

theorem Mount.put_congr {δ δ' : Type} {m : Mount δ} {m' : Mount δ'} (same : m'.output = m.output)
    (data : Buffer) :
    (exec (put data) m').1 = (exec (put data) m).1 ∧
      (exec (put data) m').2.output = (exec (put data) m).2.output := by
  obtain ⟨disk, directory, output, log⟩ := m
  obtain ⟨disk', directory', output', log'⟩ := m'
  obtain rfl : output' = output := same
  obtain ⟨written, none | left⟩ := output'
  · exact ⟨rfl, rfl⟩
  · cases left with
    | zero => exact ⟨rfl, rfl⟩
    | succ left => exact ⟨rfl, rfl⟩

namespace Volume

theorem ends_cat_oversized {m : Mount MemoryDisk} {v : Volume}
    (size : m.disk.image.size < sizeLimit)
    (large : Word.largestBuffer.toNat < v.superblock.zoneSize.toNat) {z : UInt64}
    {zs : List UInt64} (zones : m.directory.zones = z :: zs)
    (inside : v.superblock.zonePlace z + v.superblock.zoneSize.toNat ≤ m.disk.image.size)
    {path : Bytes} (short : ¬ 2 < (path.pieces 0x2f).length) :
    Mount.Ends (v.cat path) m (fun _ _ => False)
      (fun t m' => t = .panic .allocation ∧ m'.output = m.output) := by
  obtain ⟨name, rest, names⟩ : ∃ name rest, path.pieces 0x2f = name :: rest := by
    have length := Bytes.length_pieces 0x2f path
    cases names : path.pieces 0x2f with
    | nil =>
        rw [names] at length
        cases length
    | cons name rest => exact ⟨name, rest, rfl⟩
  have read : Mount.Ends (Directory.readZone v.superblock z) m (fun _ _ => False)
      (fun t m' => t = .panic .allocation ∧ m'.output = m.output) :=
    Mount.Ends.of_exec_error (Directory.exec_readZone_oversized size large inside) ⟨rfl, rfl⟩
  have stuck {α β : Type} {x : MountM MemoryDisk α} {f : α → MountM MemoryDisk β}
      (ends : Mount.Ends x m (fun _ _ => False)
        (fun t m' => t = .panic .allocation ∧ m'.output = m.output)) :
      Mount.Ends (x >>= f) m (fun _ _ => False)
        (fun t m' => t = .panic .allocation ∧ m'.output = m.output) :=
    Mount.Ends.next ends fun _ _ h => h.elim
  apply stuck
  rw [resolve, if_neg short, names]
  apply Mount.ends_get
  rw [follow, lookup]
  apply stuck
  apply stuck
  rw [Directory.lookup, Directory.list, zones, Directory.listZones]
  apply stuck
  exact stuck read

def shown {δ : Type} [Disk δ] [ImageDisk δ] (v : Volume) (m : Mount δ) (path : Bytes) :
    Except Stop Unit × Output :=
  Prod.map id (·.output)
    (Mount.exec (v.cat path) (m.onto (⟨ImageDisk.image m.disk⟩ : MemoryDisk)))

theorem cat_alike {δ δ' : Type} {img₀ : Buffer} (orderly : Image.Orderly img₀)
    {cs : List Creation} {s : Scene} (grown : Image.Grown img₀ cs s)
    (limit : img₀.size < sizeLimit) {v : Volume} (superblock : v.superblock = Image.header img₀)
    (width : v.nameWidth = v.superblock.width)
    {m : Mount δ} {m' : Mount δ'} (root : m.directory = Image.inode (Image.header img₀) img₀ 1)
    (zones : m'.directory.zones = m.directory.zones) (output : m'.output = m.output)
    {path : Bytes} {n : Nat} (found : Image.target (Image.header img₀) img₀ path = some n)
    (notRoot : n ≠ 1) :
    (Mount.exec (v.cat path) (m'.onto (⟨s.image⟩ : MemoryDisk))).1
        = (Mount.exec (v.cat path) (m.onto (⟨img₀⟩ : MemoryDisk))).1 ∧
      (Mount.exec (v.cat path) (m'.onto (⟨s.image⟩ : MemoryDisk))).2.output
        = (Mount.exec (v.cat path) (m.onto (⟨img₀⟩ : MemoryDisk))).2.output := by
  have size : s.image.size = img₀.size := grown.standing.size
  by_cases small : (Image.header img₀).zoneSize.toNat ≤ Word.largestBuffer.toNat
  · have start := Image.Grown.refl orderly (s := opened img₀ m.output) rfl rfl
    have shows : (m.onto (⟨img₀⟩ : MemoryDisk)).Shows True
        { opened img₀ m.output with directory := m.directory } :=
      ⟨limit, fun _ => trivial, rfl, rfl, rfl⟩
    obtain ⟨m₁, output₁, run₁⟩ := start.exec_cat orderly shows superblock width small
      (by rw [root]) found notRoot
    have shows' : (m'.onto (⟨s.image⟩ : MemoryDisk)).Shows True
        { s with output := m'.output, directory := m'.directory } :=
      ⟨Nat.lt_of_le_of_lt (Nat.le_of_eq size) limit, fun _ => trivial, rfl, rfl, rfl⟩
    obtain ⟨m₂, output₂, run₂⟩ := (grown.still m'.output).exec_cat orderly shows' superblock width
      small (by rw [zones, root]) found notRoot
    rw [run₁, run₂]
    exact Mount.put_congr (output₂.trans (output.trans output₁.symm)) _
  -- Both readings stop alike where the first zone of the root does not go into a buffer.
  · obtain ⟨short, z, zs, first⟩ := Image.zones_of_target found
    have isZone := (orderly.zone_used orderly.one_mem (first ▸ List.mem_cons_self)).1
    have inside := orderly.fits.zoneEnd_le isZone
    have stop {δ : Type} {m : Mount δ} (zones : m.directory.zones = z :: zs) {img : Buffer}
        (size : img.size = img₀.size) :=
      ends_cat_oversized (m := m.onto (⟨img⟩ : MemoryDisk)) (v := v)
        (Nat.lt_of_le_of_lt (Nat.le_of_eq size) limit) (by rw [superblock]; omega) zones
        (by rw [superblock]; exact Nat.le_trans inside (Nat.le_of_eq size.symm)) short
    rcases (stop (root ▸ first) rfl).exec_eq with
      ⟨_, _, _, impossible⟩ | ⟨_, m₁, run₁, rfl, output₁⟩
    · cases impossible
    rcases (stop (zones.trans (root ▸ first)) size).exec_eq with
      ⟨_, _, _, impossible⟩ | ⟨_, m₂, run₂, rfl, output₂⟩
    · cases impossible
    rw [run₁, run₂]
    exact ⟨rfl, output₂.trans (output.trans output₁.symm)⟩

/-- A create, whichever calls of the disk fail in it, spares everything that belongs to somebody
else; so every path to a file other than the root shows the same content as before. -/
theorem create_spares_others {δ : Type} [Disk δ] [ImageDisk δ] {m₀ : Mount δ}
    (sound : ImageDisk.Sound m₀.disk) (reliable : ImageDisk.Reliable m₀.disk)
    (orderly : Image.Orderly (ImageDisk.image m₀.disk)) (clock : Int64) (color : Bool) :
    ∃ v m, Mount.exec (openDisk clock color) m₀ = (.ok v, m) ∧
      ∀ (δ' : Type) [Disk δ'] [ImageDisk δ'] (d : δ'), ImageDisk.Sound d →
        ImageDisk.image d = ImageDisk.image m₀.disk →
        ∀ c : Command, c.mutates = true → ∀ m' : Mount δ',
          m' = (Mount.exec (c.run v) (m.onto d)).2 →
          Image.Spared (ImageDisk.image m₀.disk) (ImageDisk.image m'.disk) ∧
          ∀ path,
            (∀ ip m₁, Mount.exec (v.resolve path)
                (m.onto (⟨ImageDisk.image m.disk⟩ : MemoryDisk)) = (.ok ip, m₁) →
              ∃ n, Image.target v.superblock (ImageDisk.image m.disk) path = some n ∧
                ip = Image.inode v.superblock (ImageDisk.image m.disk) n) ∧
            ∀ n, Image.target v.superblock (ImageDisk.image m.disk) path = some n → n ≠ 1 →
              v.shown m' path = v.shown m path := by
  obtain ⟨v, m, run, isOpen, -⟩ := exec_openDisk sound reliable orderly.fits clock color
  refine ⟨v, m, run, ?_⟩
  rintro δ' _ _ d hd image c change m' rfl
  have start := Image.Grown.refl orderly (s := opened _ m.output) rfl rfl
  obtain ⟨name, r, s', -, shows, outcome⟩ := isOpen.exec_create orderly hd image change
  have genuine (new : Creation)
      (plan : v.Plan (opened (ImageDisk.image m₀.disk) m.output).directory c new) := plan.genuine
  rw [isOpen.superblock] at genuine
  obtain ⟨added, grown⟩ := start.outcome orderly outcome genuine
  obtain ⟨_, _, _, us, after, foot⟩ := outcome.footprint orderly.fits.inodes_pos
    (start.zones_used orderly)
  constructor
  · rw [shows.image, after]
    exact Update.Footprint.spared (s := opened _ m.output) orderly rfl foot
  intro path
  rw [isOpen.superblock, isOpen.image]
  constructor
  · intro ip m₁ resolved
    have shows₀ : (m.onto (⟨ImageDisk.image m₀.disk⟩ : MemoryDisk)).Shows True
        (opened (ImageDisk.image m₀.disk) m.output) :=
      ⟨ImageDisk.size_lt sound, fun _ => trivial, rfl, isOpen.directory, rfl⟩
    have ends := Image.ends_resolve (s := opened _ m.output) orderly isOpen.superblock
      isOpen.width shows₀ rfl path
    rw [Mount.Ends, resolved] at ends
    exact ends
  · intro n found notRoot
    have zones' : (Mount.exec (c.run v) (m.onto d)).2.directory.zones = m.directory.zones := by
      rw [shows.directory, isOpen.directory]
      exact grown.root_zones
    have output' : (Mount.exec (c.run v) (m.onto d)).2.output = m.output := by
      rw [shows.output]
      exact outcome.output_eq
    rw [shown, shown, shows.image, isOpen.image]
    obtain ⟨answer, output⟩ := cat_alike orderly grown (ImageDisk.size_lt sound)
      isOpen.superblock isOpen.width isOpen.directory zones' output' found notRoot
    exact Prod.ext answer output

theorem create_spares_others_small :
    ∃ sb m₀ v m answer m',
      Mount.exec (Format.run { blocks := 8, inodes := 32 })
        (⟨⟨Buffer.zeros 8192⟩, {}, {}, #[]⟩ : Mount MemoryDisk) = (.ok sb, m₀) ∧
      Mount.exec (openDisk 0 false) m₀ = (.ok v, m) ∧
      Mount.exec ((Command.mkdir [0x61]).run v)
        (m.onto (⟨m₀.disk, [{ on := .write, length? := some 32 }]⟩ : FaultyDisk MemoryDisk))
          = (answer, m') ∧
      Image.Spared m₀.disk.image m'.disk.disk.image := by
  obtain ⟨sb, m₀, formatted, inOrder, -⟩ := Format.inOrder_small
  obtain ⟨v, m, opened, spares⟩ := create_spares_others inOrder.sound inOrder.reliable
    inOrder.consistent.toOrderly 0 false
  refine ⟨sb, m₀, v, m, _, _, formatted, opened, rfl, ?_⟩
  exact (spares (FaultyDisk MemoryDisk) ⟨m₀.disk, [{ on := .write, length? := some 32 }]⟩
    inOrder.sound rfl (.mkdir [0x61]) rfl _ rfl).1

end Volume

end MinixVolume

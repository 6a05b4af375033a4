import MinixVolume.Proofs.Format
import MinixVolume.Proofs.Resilience
import MinixVolume.Proofs.Stranding

namespace MinixVolume

theorem flatMap_perm_cons {α β : Type} [DecidableEq α] {l : List α} {f g : α → List β} {a : α}
    {x : β} (once : l.Nodup) (mem : a ∈ l) (same : ∀ b ∈ l, b ≠ a → g b = f b)
    (new : (g a).Perm (x :: f a)) : (l.flatMap g).Perm (x :: l.flatMap f) := by
  have front (h : α → List β) : (l.flatMap h).Perm (h a ++ (l.erase a).flatMap h) := by
    have perm := (List.perm_cons_erase mem).flatMap_right h
    rwa [List.flatMap_cons] at perm
  have rest : (l.erase a).flatMap g = (l.erase a).flatMap f := by
    apply List.flatMap_congr
    intro b hb
    have ne := (once.mem_erase_iff.mp hb).1
    exact same b (List.mem_of_mem_erase hb) ne
  refine (front g).trans ?_
  rw [rest]
  exact (new.append_right _).trans ((front f).symm.cons x)

namespace Creation

def inner (c : Creation) : List Entry :=
  c.zone.toList.flatMap fun _ => Format.newDirectory c.number Inode.root

variable {v : Volume} {name : Bytes} {root : Inode} {c : Creation}

theorem mem_inner {e : Entry} (he : e ∈ c.inner) : e.inode = c.number ∨ e.inode = Inode.root := by
  obtain ⟨z, -, he⟩ := List.mem_flatMap.mp he
  rcases List.mem_cons.mp he with rfl | he
  · exact .inl rfl
  · rw [List.mem_singleton.mp he]
    exact .inr rfl

theorem countP_inner_other {n : Nat} (ne : n ≠ c.number.toNat) (notRoot : n ≠ 1) :
    c.inner.countP (·.inode.toNat = n) = 0 := by
  rw [List.countP_eq_zero]
  intro e he same
  have same := of_decide_eq_true same
  rcases mem_inner he with eq | eq
  · rw [eq] at same
    exact ne same.symm
  · rw [eq] at same
    exact notRoot same.symm

variable (h : v.FilePlan name root c ∨ v.DirectoryPlan name root c)
include h

theorem isDirectory_record : c.record.isDirectory = c.zone.isSome := by
  obtain ⟨number, rfl⟩ | ⟨-, number, zone, rfl⟩ := h
  · exact (by decide : (Volume.fileMode &&& Inode.typeMask == Inode.directoryType) = false)
  · exact (by decide : (Volume.directoryMode &&& Inode.typeMask == Inode.directoryType) = true)

theorem links_record (notRoot : c.number.toNat ≠ 1) :
    c.record.links.toNat = 1 + c.inner.countP (·.inode.toNat = c.number.toNat) := by
  obtain ⟨number, rfl⟩ | ⟨-, number, zone, rfl⟩ := h
  · rfl
  · have apart : ¬ 1 = number.toNat := fun e => notRoot e.symm
    simp [inner, directory, Format.newDirectory, Inode.root, apart]

theorem links_root (notRoot : c.number.toNat ≠ 1) :
    c.root.links.toNat = root.links.toNat + c.inner.countP (·.inode.toNat = 1) := by
  obtain ⟨number, rfl⟩ | ⟨free, number, zone, rfl⟩ := h
  · rfl
  · have apart : ¬ number.toNat = 1 := notRoot
    have lt := root.links.toNat_lt
    have ne : root.links.toNat ≠ 255 := fun e => free (UInt8.toNat.inj e)
    have sum : (root.links + 1).toNat = root.links.toNat + 1 := by
      rw [UInt8.toNat_add]
      change (root.links.toNat + 1) % 256 = _
      omega
    change (root.links + 1).toNat = _
    rw [sum]
    simp [inner, directory, Format.newDirectory, Inode.root, apart]

end Creation

namespace Image

section Made

variable {s : Scene} (h : Consistent s.image)
  (directory : s.directory = inode (header s.image) s.image 1) {c : Creation} {v : Volume}
  {name : Bytes} (planned : v.FilePlan name s.directory c ∨ v.DirectoryPlan name s.directory c)
  (superblock : v.superblock = header s.image) (fresh : c.Fresh (header s.image) s) {z : UInt64}
  {k : Nat} (found : FreeSlot (header s.image) s.image s.directory.zones z k)

def made (s : Scene) (c : Creation) (z : UInt64) (k : Nat) : Buffer :=
  Update.applyAll (header s.image) s.image (c.entering (header s.image) z k (some c.root))

include h directory planned superblock fresh found

theorem grown_made :
    Grown s.image [c] { s with image := made s c z k, directory := c.root } := by
  have genuine := Volume.genuine_of_plan planned
  rw [superblock] at genuine
  refine (Grown.refl h.toOrderly rfl directory).enter h.toOrderly fresh found (some c.root)
    genuine.1 ?_
  rintro ip ⟨⟩
  exact genuine.2

theorem usedInodes_made :
    (usedInodes (header s.image) (made s c z k)).Perm
      (usedInodes (header s.image) s.image ++ [c.number.toNat]) := by
  have start := Grown.refl h.toOrderly rfl directory
  have grown := grown_made h directory planned superblock fresh found
  have zones := start.zones_used h.toOrderly
  have foot := fresh.footprint_entering h.fits.inodes_pos found (fun z hz => (zones z hz).1)
    (some c.root)
  rw [List.perm_ext_iff_of_nodup nodup_usedInodes]
  · intro n
    rw [List.mem_append, List.mem_singleton, mem_usedInodes, mem_usedInodes]
    by_cases e : n = c.number.toNat
    · have stands := grown.standing.stands c List.mem_cons_self
      rw [e]
      exact ⟨fun _ => .inr rfl, fun _ => ⟨stands.isInode, stands.used⟩⟩
    · have lt := h.fits.inodes_lt
      constructor
      · rintro ⟨isInode, used⟩
        have le := isInode.2
        rw [made, Update.inodeUsed_of_local foot.valid h.fits foot.within (by omega) e] at used
        exact .inl ⟨isInode, used⟩
      · rintro (⟨isInode, used⟩ | eq)
        · have le := isInode.2
          rw [made, Update.inodeUsed_of_local foot.valid h.fits foot.within (by omega) e]
          exact ⟨isInode, used⟩
        · exact absurd eq e
  · rw [List.nodup_append]
    refine ⟨nodup_usedInodes, List.nodup_singleton _, ?_⟩
    rintro n mem n' mem' rfl
    have used := (mem_usedInodes.mp mem).2
    rw [List.mem_singleton.mp mem', fresh.free] at used
    cases used

theorem isDirectory_made {n : Nat} (hn : n ∈ usedInodes (header s.image) s.image) :
    (inode (header s.image) (made s c z k) n).isDirectory
      = (inode (header s.image) s.image n).isDirectory := by
  have grown := grown_made h directory planned superblock fresh found
  by_cases one : n = 1
  · rw [one, ← show c.root = inode (header s.image) (made s c z k) 1 from grown.directory]
    exact Inode.isDirectory_congr grown.root_mode
  · rw [inode_congr (grown.standing.records n hn one)]

theorem directories_made :
    (directories (header s.image) (made s c z k)).Perm
      (directories (header s.image) s.image ++ c.zone.toList.map fun _ => c.number.toNat) := by
  have grown := grown_made h directory planned superblock fresh found
  have record := inode_of_record (grown.standing.stands c List.mem_cons_self).record
  have kind := Creation.isDirectory_record planned
  have perm := (usedInodes_made h directory planned superblock fresh found).filter
    fun n => (inode (header s.image) (made s c z k) n).isDirectory
  have old : (usedInodes (header s.image) s.image).filter
      (fun n => (inode (header s.image) (made s c z k) n).isDirectory)
      = directories (header s.image) s.image :=
    List.filter_congr fun n hn => isDirectory_made h directory planned superblock fresh found hn
  have new : [c.number.toNat].filter
      (fun n => (inode (header s.image) (made s c z k) n).isDirectory)
      = c.zone.toList.map fun _ => c.number.toNat := by
    rw [← record] at kind
    cases hz : c.zone with
    | none =>
        rw [hz] at kind
        exact List.filter_cons_of_neg (by rw [kind]; decide)
    | some z =>
        rw [hz] at kind
        exact List.filter_cons_of_pos kind
  rw [List.filter_append, old, new] at perm
  exact perm

theorem entries_made {n : Nat} (hn : n ∈ usedInodes (header s.image) s.image) (notRoot : n ≠ 1) :
    entries (header s.image) (made s c z k) (inode (header s.image) (made s c z k) n)
      = entries (header s.image) s.image (inode (header s.image) s.image n) := by
  have grown := grown_made h directory planned superblock fresh found
  obtain ⟨record, zones⟩ := ((grown.undamaged h.toOrderly).kept n hn).2 notRoot
  rw [inode_congr record]
  apply entries_congr
  intro z' hz'
  rw [zones z' hz']

theorem rootEntries_made :
    (entries (header s.image) (made s c z k) (inode (header s.image) (made s c z k) 1)).Perm
      (c.entry :: entries (header s.image) s.image (inode (header s.image) s.image 1)) := by
  have grown := grown_made h directory planned superblock fresh found
  rw [← show c.root = inode (header s.image) (made s c z k) 1 from grown.directory]
  exact grown.entries.trans (List.perm_append_singleton _ _)

theorem innerEntries_made :
    ((c.zone.toList.map fun _ => c.number.toNat).flatMap fun n =>
      entries (header s.image) (made s c z k) (inode (header s.image) (made s c z k) n))
      = c.inner := by
  have grown := grown_made h directory planned superblock fresh found
  have stands := grown.standing.stands c List.mem_cons_self
  have genuine := grown.genuine c List.mem_cons_self
  have fits := grown.fits h.toOrderly
  have inner : entries (header s.image) (made s c z k)
      (inode (header s.image) (made s c z k) c.number.toNat) = c.inner := by
    have owns : (inode (header s.image) (made s c z k) c.number.toNat).zones = c.zone.toList :=
      genuine.zones_eq fits stands
    rw [entries, owns]
    exact List.flatMap_congr fun z hz => genuine.zoneEntries_eq fits stands (by simpa using hz)
  rw [List.flatMap_map]
  cases hz : c.zone with
  | none => rw [Creation.inner, hz, Option.toList_none, List.flatMap_nil, List.flatMap_nil]
  | some z' => rw [Option.toList_some, List.flatMap_singleton, inner]

theorem allEntries_made :
    (allEntries (header s.image) (made s c z k)).Perm
      (c.entry :: allEntries (header s.image) s.image ++ c.inner) := by
  have perm := (directories_made h directory planned superblock fresh found).flatMap_right
    fun n => entries (header s.image) (made s c z k) (inode (header s.image) (made s c z k) n)
  rw [List.flatMap_append, innerEntries_made h directory planned superblock fresh found] at perm
  refine perm.trans (List.Perm.append_right _ ?_)
  refine flatMap_perm_cons (nodup_usedInodes.filter _) h.root_directories ?_
    (rootEntries_made h directory planned superblock fresh found)
  intro n hn notRoot
  exact entries_made h directory planned superblock fresh found (List.mem_filter.mp hn).1 notRoot

theorem links_made {n : Nat} (hn : n ∈ usedInodes (header s.image) (made s c z k)) :
    (inode (header s.image) (made s c z k) n).links.toNat
      = (allEntries (header s.image) (made s c z k)).countP (·.inode.toNat = n) := by
  have grown := grown_made h directory planned superblock fresh found
  have notRoot := (Grown.refl h.toOrderly rfl directory).number_ne_one h.toOrderly fresh
  have count := (allEntries_made h directory planned superblock fresh found).countP_eq
    (fun e => e.inode.toNat = n)
  have mem := (usedInodes_made h directory planned superblock fresh found).mem_iff.mp hn
  rw [count, List.countP_append, List.countP_cons]
  rcases List.mem_append.mp mem with old | new
  · have links := h.links n old
    have ne : n ≠ c.number.toNat := by
      rintro rfl
      have used := (mem_usedInodes.mp old).2
      rw [fresh.free] at used
      cases used
    rw [Creation.inode_entry, if_neg (by simpa using ne.symm), Nat.add_zero]
    by_cases one : n = 1
    · subst one
      rw [← show c.root = inode (header s.image) (made s c z k) 1 from grown.directory,
        Creation.links_root planned notRoot, directory, links]
    · rw [inode_congr (grown.standing.records n old one), links,
        Creation.countP_inner_other ne one, Nat.add_zero]
  · rw [List.mem_singleton.mp new] at count ⊢
    have none : (allEntries (header s.image) s.image).countP
        (·.inode.toNat = c.number.toNat) = 0 := by
      rw [List.countP_eq_zero]
      intro e he same
      have used := (mem_usedInodes.mp (h.entries_used e he)).2
      rw [of_decide_eq_true same, fresh.free] at used
      cases used
    rw [inode_of_record (grown.standing.stands c List.mem_cons_self).record,
      Creation.links_record planned notRoot, none, Creation.inode_entry,
      if_pos (decide_eq_true rfl), Nat.zero_add]

theorem consistent_made : Consistent (made s c z k) := by
  have grown := grown_made h directory planned superblock fresh found
  have perm := usedInodes_made h directory planned superblock fresh found
  have same : header (made s c z k) = header s.image := header_congr grown.standing.blocks
  have owned := grown.owned h.toOrderly
  have old {n : Nat} (hn : n ∈ usedInodes (header s.image) s.image) :
      n ∈ usedInodes (header s.image) (made s c z k) :=
    perm.mem_iff.mpr (List.mem_append_left _ hn)
  have orderly : Orderly (made s c z k) := by
    refine ⟨?_, ?_, ?_, ?_, ?_, ?_, ?_⟩ <;> rw [same]
    · exact grown.fits h.toOrderly
    · exact grown.root_used h.toOrderly
    · rw [isDirectory_made h directory planned superblock fresh found h.one_mem]
      exact h.root_directory
    · intro z' hz'
      obtain ⟨n, hn, hz'⟩ := List.mem_flatMap.mp hz'
      exact owned.used n (perm.mem_iff.mp hn) z' hz'
    · exact (perm.flatMap_right _).nodup_iff.mpr owned.once
    · intro e he
      rw [(allEntries_made h directory planned superblock fresh found).mem_iff, List.mem_append,
        List.mem_cons] at he
      rcases he with (rfl | he) | he
      · exact perm.mem_iff.mpr (List.mem_append_right _ (List.mem_singleton.mpr rfl))
      · exact old (h.entries_used e he)
      · rcases Creation.mem_inner he with eq | eq
        · rw [eq]
          exact perm.mem_iff.mpr (List.mem_append_right _ (List.mem_singleton.mpr rfl))
        · rw [eq]
          exact old h.one_mem
    · have names := grown.names_once
      rw [show c.root = inode (header s.image) (made s c z k) 1 from grown.directory] at names
      exact names
  refine ⟨orderly, ?_⟩
  rw [same]
  intro n hn
  exact links_made h directory planned superblock fresh found hn

end Made

theorem Consistent.congr {img img' : Buffer} (h : Consistent img)
    (superblock : header img' = header img) (size : img'.size = img.size)
    (used : usedInodes (header img) img' = usedInodes (header img) img)
    (inodes : ∀ n ∈ usedInodes (header img) img,
      (inode (header img) img' n).zones = (inode (header img) img n).zones ∧
        (inode (header img) img' n).mode = (inode (header img) img n).mode ∧
        (inode (header img) img' n).links = (inode (header img) img n).links)
    (zones : ∀ z ∈ ownedZones (header img) img, zoneUsed (header img) img' z = true)
    (entries : ∀ n ∈ directories (header img) img,
      entries (header img) img' (inode (header img) img n)
        = entries (header img) img (inode (header img) img n)) : Consistent img' := by
  have owned : ownedZones (header img) img' = ownedZones (header img) img := by
    rw [ownedZones, used]
    apply List.flatMap_congr
    intro n hn
    rw [(inodes n hn).1]
  have directories : directories (header img) img' = directories (header img) img := by
    rw [Image.directories, used]
    apply List.filter_congr
    intro n hn
    exact Inode.isDirectory_congr (inodes n hn).2.1
  have all : allEntries (header img) img' = allEntries (header img) img := by
    rw [allEntries, directories]
    apply List.flatMap_congr
    intro n hn
    rw [entries_of_zones (inodes n (List.mem_filter.mp hn).1).1, entries n hn]
  have root := inodes 1 h.one_mem
  have orderly : Orderly img' := by
    refine ⟨?_, ?_, ?_, ?_, ?_, ?_, ?_⟩ <;> rw [superblock]
    · rw [size]
      exact h.fits
    · have mem := h.one_mem
      rw [← used] at mem
      exact (mem_usedInodes.mp mem).2
    · rw [Inode.isDirectory_congr root.2.1]
      exact h.root_directory
    · rw [owned]
      intro z hz
      exact ⟨(h.zones_used z hz).1, zones z hz⟩
    · rw [owned]
      exact h.zones_once
    · rw [all, used]
      exact h.entries_used
    · rw [entries_of_zones root.1, entries 1 h.root_directories]
      exact h.names_once
  refine ⟨orderly, ?_⟩
  rw [superblock, used, all]
  intro n hn
  rw [(inodes n hn).2.2]
  exact h.links n hn

theorem consistent_undone {s : Scene} (h : Consistent s.image)
    (directory : s.directory = inode (header s.image) s.image 1) {c : Creation}
    (fresh : c.Fresh (header s.image) s) {slot : Option (UInt64 × Nat)} {us : List Update}
    (attempted : Attempted (header s.image) s c slot us) :
    Consistent (Update.applyAll (header s.image) s.image
      (us ++ releases c.number.toNat c.zone)) := by
  have start := Grown.refl h.toOrderly rfl directory
  have zones := start.zones_used h.toOrderly
  have notRoot := start.number_ne_one h.toOrderly fresh
  have given := List.Subset.refl (releases c.number.toNat c.zone)
  have foot := attempted.footprint fresh given zones
  have free := attempted.free_again fresh given zones h.fits rfl
  refine h.congr (header_congr (foot.blocks_eq h.fits)) (foot.size_eq h.fits) ?_ ?_ ?_ ?_
  · apply List.filter_congr
    intro n hn
    have range := List.mem_range'_1.mp hn
    have lt := h.fits.inodes_lt
    by_cases e : n = c.number.toNat
    · rw [e, free.1, fresh.free]
    · exact Update.inodeUsed_of_local foot.valid h.fits foot.within (by omega) e
  · intro n hn
    obtain ⟨isInode, used⟩ := mem_usedInodes.mp hn
    have same : record (header s.image) (Update.applyAll (header s.image) s.image
        (us ++ releases c.number.toNat c.zone)) n = record (header s.image) s.image n := by
      by_cases one : n = 1
      · rw [one]
        exact attempted.record_one fresh given zones h.fits notRoot
      · exact foot.record h.fits isInode used one
    rw [inode_congr same]
    exact ⟨rfl, rfl, rfl⟩
  · intro z hz
    obtain ⟨isZone, used⟩ := h.zones_used z hz
    exact foot.zoneUsed h.fits isZone used
  · intro n hn
    have hn := (List.mem_filter.mp hn).1
    apply entries_congr
    intro z hz
    by_cases root : z ∈ s.directory.zones
    · exact attempted.rootEntries fresh given zones h.fits root
    · obtain ⟨isZone, used⟩ := h.zone_used hn hz
      rw [foot.zone_eq h.fits isZone used root]

theorem Consistent.outcome {s : Scene} (h : Consistent s.image)
    (directory : s.directory = inode (header s.image) s.image 1) {v : Volume} {name : Bytes}
    {plan : Creation → Prop} (superblock : v.superblock = header s.image)
    (planned : ∀ c, plan c → ∃ name,
      v.FilePlan name s.directory c ∨ v.DirectoryPlan name s.directory c)
    {steady : Prop} (hp : steady) {r : Except Stop UInt64} {s' : Scene} {log : Log}
    (outcome : Outcome (header s.image) name plan steady s r s' log) :
    Consistent s'.image ∨ (∃ c z, plan c ∧ z ∈ c.zone) ∧ r = .error (.panic .allocation) ∧
      Stranded (header s.image) s s' := by
  cases outcome with
  | refused _ => exact .inl h
  | @made c z k _ plan fresh found =>
      obtain ⟨name, planned⟩ := planned c plan
      exact .inl (consistent_made h directory planned superblock fresh found.toFreeSlot)
  | left _ _ _ _ failing => exact absurd hp failing
  | @undone c _ _ _ _ _ _ _ fresh attempted _ given =>
      cases given with
      | all => exact .inl (consistent_undone h directory fresh attempted)
      | part _ failing _ => exact absurd hp failing
  | crashed planned fresh taking bare large =>
      exact .inr ⟨⟨_, _, planned, taking⟩, rfl, fresh.stranded taking bare large⟩

end Image

namespace Volume

variable {δ : Type} [Disk δ] [ImageDisk δ]

structure Agrees (v : Volume) (s : Scene) : Prop where
  consistent : Image.Consistent s.image
  superblock : v.superblock = Image.header s.image
  directory : s.directory = Image.inode (Image.header s.image) s.image 1

theorem Agrees.exec_command_told {v : Volume} {m : Mount δ} {s : Scene} (h : v.Agrees s)
    (hm : m.Shows True s) (width : v.nameWidth = v.superblock.width) (c : Command) :
    ∃ s', (Mount.exec (c.run v) m).2.Shows True s' ∧
      (v.Agrees s' ∨ (∃ name, c = .mkdir name) ∧
        (Mount.exec (c.run v) m).1 = .error (.panic .allocation) ∧
        Stranded v.superblock s s') := by
  have orderly := h.consistent.toOrderly
  have start := Image.Grown.refl orderly rfl h.directory
  refine exec_command hm (start.ready orderly h.superblock width) (P := fun r s' =>
    v.Agrees s' ∨ (∃ name, c = .mkdir name) ∧ r = .error (.panic .allocation) ∧
      Stranded v.superblock s s') c
    (fun _ _ => .inl ⟨h.consistent, h.superblock, h.directory⟩) ?_
  intro _ name r s' log outcome
  have planned (new : Creation) (plan : v.Plan s.directory c new) := plan.cases
  have genuine (new : Creation) (plan : v.Plan s.directory c new) := plan.genuine
  rw [h.superblock] at outcome genuine ⊢
  rcases h.consistent.outcome h.directory h.superblock planned trivial outcome with
    consistent | ⟨⟨new, z, plan, hz⟩, rfl, stranded⟩
  · obtain ⟨added, grown⟩ := start.outcome orderly outcome genuine
    have same := Image.header_congr grown.standing.blocks
    refine .inl ⟨consistent, h.superblock.trans same.symm, ?_⟩
    rw [same]
    exact grown.directory
  · exact .inr ⟨plan.mkdir_of_zone hz, rfl, stranded⟩

theorem Agrees.exec_command {v : Volume} {m : Mount δ} {s : Scene} (h : v.Agrees s)
    (hm : m.Shows True s) (width : v.nameWidth = v.superblock.width)
    (small : v.superblock.zoneSize.toNat ≤ Word.largestBuffer.toNat) (c : Command) :
    ∃ s', (Mount.exec (c.run v) m).2.Shows True s' ∧ v.Agrees s' := by
  obtain ⟨s', h', agrees | ⟨-, -, stranded⟩⟩ := h.exec_command_told hm width c
  · exact ⟨s', h', agrees⟩
  · exact absurd stranded.large (Nat.not_lt_of_le small)

structure Upright (v : Volume) (m : Mount δ) : Prop where
  inOrder : m.InOrder
  isOpen : v.IsOpen (ImageDisk.image m.disk) m

theorem Upright.agrees {v : Volume} {m : Mount δ} (h : v.Upright m) : v.Agrees m.scene :=
  ⟨h.inOrder.consistent, h.isOpen.superblock, h.isOpen.directory⟩

theorem Upright.of_agrees {v : Volume} {m : Mount δ} {s : Scene} (agrees : v.Agrees s)
    (shows : m.Shows True s) (width : v.nameWidth = v.superblock.width) : v.Upright m := by
  refine ⟨⟨shows.sound, shows.reliable trivial, ?_⟩, ?_⟩
  · rw [shows.image]
    exact agrees.consistent
  · rw [shows.image]
    exact ⟨agrees.superblock, width, shows.image, shows.directory.trans agrees.directory⟩

theorem Upright.runAll {v : Volume} {m : Mount δ} (h : v.Upright m)
    (commands : List (Int64 × Command)) :
    v.Upright (v.runAll commands m).2 ∨ ∃ before clock c after,
      commands = before ++ (clock, c) :: after ∧ v.Upright (v.runAll before m).2 ∧
      (∃ name, c = .mkdir name) ∧ ∃ m',
        Mount.exec (c.run { v with clock := clock }) (v.runAll before m).2
          = (.error (.panic .allocation), m') ∧
        Stranded v.superblock (v.runAll before m).2.scene m'.scene := by
  refine holds_runAll (T := fun clock c m => (∃ name, c = .mkdir name) ∧ ∃ m',
    Mount.exec (c.run { v with clock := clock }) m = (.error (.panic .allocation), m') ∧
      Stranded v.superblock m.scene m'.scene) ?_ commands h
  intro clock c m h
  have agrees : Agrees { v with clock := clock } m.scene :=
    ⟨h.inOrder.consistent, h.isOpen.superblock, h.isOpen.directory⟩
  obtain ⟨s', h', kept | ⟨mkdir, answer, stranded⟩⟩ := agrees.exec_command_told
    (Mount.shows_scene h.inOrder.sound h.inOrder.reliable) h.isOpen.width c
  · exact .inl (.of_agrees ⟨kept.consistent, kept.superblock, kept.directory⟩ h' h.isOpen.width)
  · refine .inr ⟨mkdir, _, Prod.ext answer rfl, ?_⟩
    rw [h'.scene_eq]
    exact stranded

end Volume

/-- A volume is consistent from the start and stays so. Formatting a disk with room enough makes it
consistent; opening a consistent volume succeeds, and every run of commands leaves it consistent and
open, up to a directory that strands its inode, as zones are larger than any buffer. -/
theorem Mount.InOrder.format_and_runAll {δ : Type} [Disk δ] [ImageDisk δ] (m : Mount δ) :
    (∀ (options : FormatOptions) (sb : Superblock), ImageDisk.Sound m.disk →
      ImageDisk.Reliable m.disk → options.layout = .ok sb →
      sb.zones.toNat * 1024 ≤ (ImageDisk.image m.disk).size →
      ∃ m', Mount.exec (Format.run options) m = (.ok sb, m') ∧ m'.InOrder ∧
        Image.header (ImageDisk.image m'.disk) = sb) ∧
    ∀ (clock : Int64) (color : Bool), m.InOrder →
      ∃ v m', Mount.exec (Volume.openDisk clock color) m = (.ok v, m') ∧
        ∀ commands : List (Int64 × Command),
          v.Upright (v.runAll commands m').2 ∨
          ∃ before clock name after m'', commands = before ++ (clock, .mkdir name) :: after ∧
            v.Upright (v.runAll before m').2 ∧
            Mount.exec ((Command.mkdir name).run { v with clock := clock }) (v.runAll before m').2
              = (.error (.panic .allocation), m'') ∧
            Stranded (Image.header (ImageDisk.image m.disk)) (v.runAll before m').2.scene
              m''.scene := by
  constructor
  · intro options sb sound reliable layout room
    exact Format.inOrder_run sound reliable layout room
  · intro clock color inOrder
    obtain ⟨v, m', run, isOpen, sound, reliable⟩ := Volume.exec_openDisk inOrder.sound
      inOrder.reliable inOrder.consistent.fits clock color
    refine ⟨v, m', run, ?_⟩
    have upright : v.Upright m' := by
      refine ⟨⟨sound, reliable, ?_⟩, ?_⟩ <;> rw [isOpen.image]
      · exact inOrder.consistent
      · exact isOpen
    rw [← isOpen.superblock]
    intro commands
    rcases upright.runAll commands with kept |
      ⟨before, clock, c, after, split, upright, ⟨name, rfl⟩, m'', answer, stranded⟩
    · exact .inl kept
    · exact .inr ⟨before, clock, name, after, m'', split, upright, answer, stranded⟩

theorem Mount.InOrder.format_and_runAll_small :
    ∃ sb m v m',
      Mount.exec (Format.run { blocks := 8, inodes := 32 })
        (⟨⟨Buffer.zeros 8192⟩, {}, {}, #[]⟩ : Mount MemoryDisk) = (.ok sb, m) ∧ m.InOrder ∧
      Mount.exec (Volume.openDisk 0 false) m = (.ok v, m') ∧
      v.Upright (v.runAll [(0, .touch [0x61]), (1, .mkdir [0x62]), (2, .touch [0x61])] m').2 := by
  obtain ⟨sb, b, layout, blank, size⟩ := Format.room_small
  obtain ⟨m, run, inOrder, header⟩ := (Mount.InOrder.format_and_runAll
    (⟨⟨b⟩, {}, {}, #[]⟩ : Mount MemoryDisk)).1 _ sb (Format.sound_of_size size) trivial layout
      (Nat.le_of_eq size.symm)
  obtain ⟨v, m', opened, runs⟩ := (Mount.InOrder.format_and_runAll m).2 0 false inOrder
  rw [header] at runs
  rw [blank] at run
  refine ⟨sb, m, v, m', run, inOrder, opened, ?_⟩
  rcases runs _ with kept | ⟨_, _, _, _, _, -, -, -, stranded⟩
  · exact kept
  · have small := (FormatOptions.accepted_of_layout layout).zoneSize_le
    exact absurd stranded.large (Nat.not_lt_of_le small)

/-- Where zones are larger than any buffer, a directory may be lost with its inode. -/
theorem Bare.exec_mkdir_lost {sb : Superblock} {size : Nat} (fits : sb.Fits size)
    (several : 2 ≤ sb.inodes.toNat) (zone : sb.firstDataZone.toNat < sb.zones.toNat)
    (large : Word.largestBuffer.toNat < sb.zoneSize.toNat) {name : Bytes} (plain : ¬ OddName name)
    (short : name.length ≤ sb.width.toNat) :
    ∃ v m, Mount.exec (Volume.openDisk 0 false) (mount sb size) = (.ok v, m) ∧
      ¬ (v.runAll [(0, .mkdir name)] m).2.InOrder := by
  obtain ⟨v, m, opening, isOpen⟩ := exec_openDisk fits several
  refine ⟨v, m, opening, ?_⟩
  intro after
  obtain ⟨m', s', run, shows, stranded⟩ :=
    exec_mkdir fits several large zone (isOpen.at_clock 0) plain short
  have consistent := after.consistent
  have last : (v.runAll [(0, .mkdir name)] m).2 = m' := by
    have discarded : Mount.exec (discard (Volume.mkdir { v with clock := 0 } name)) m = _ :=
      Mount.exec_map (fun _ => ()) _ m
    change (Mount.exec (discard (Volume.mkdir { v with clock := 0 } name)) m).2 = m'
    rw [discarded, run]
  rw [last, shows.image] at consistent
  exact not_consistent_of_stranded fits several (by rw [Volume.opened]) stranded consistent

theorem Mount.InOrder.lost_by_mkdir :
    (Bare.mount Bare.wide 0x4000000000000).InOrder ∧ ∃ v m,
      Mount.exec (Volume.openDisk 0 false) (Bare.mount Bare.wide 0x4000000000000) = (.ok v, m) ∧
      ¬ (v.runAll [(0, .mkdir [0x64])] m).2.InOrder := by
  have several : 2 ≤ Bare.wide.inodes.toNat := by decide
  have plain : ¬ OddName [0x64] := by decide
  exact ⟨Bare.inOrder Bare.fits_wide several,
    Bare.exec_mkdir_lost Bare.fits_wide several (by decide) (by decide) plain (by decide)⟩

end MinixVolume

import MinixVolume.Proofs.Consistency

namespace MinixVolume

def Creation.Genuine (sb : Superblock) (c : Creation) : Prop :=
  ∃ (v : Volume) (name : Bytes) (root : Inode), v.superblock = sb ∧
    (v.FilePlan name root c ∨ v.DirectoryPlan name root c)

structure Creation.Stands (sb : Superblock) (img : Buffer) (c : Creation) : Prop where
  isInode : sb.IsInode c.number.toNat
  used : Image.inodeUsed sb img c.number.toNat = true
  record : Image.record sb img c.number.toNat = Buffer.ofBytes c.record.encode
  zone : ∀ z ∈ c.zone, sb.IsDataZone z ∧ Image.zoneUsed sb img z = true ∧
    Image.zone sb img z = c.block

namespace Creation.Fresh

variable {sb : Superblock} {s : Scene} {c : Creation} (h : c.Fresh sb s)
include h

theorem writable : c.entry.Writable sb := by
  have le := h.isInode.2
  have lt := sb.inodes.toNat_lt
  exact ⟨h.name.short, h.name.plain.2, show c.number.toNat < _ by omega⟩

theorem nonzero : c.entry.inode ≠ 0 := by
  intro zero
  have pos := h.isInode.1
  rw [show c.number = 0 from zero] at pos
  exact absurd pos (by decide)

end Creation.Fresh

namespace Volume

theorem genuine_of_plan {v : Volume} {name : Bytes} {root : Inode} {c : Creation}
    (h : v.FilePlan name root c ∨ v.DirectoryPlan name root c) :
    c.Genuine v.superblock ∧ c.root.zones = root.zones ∧ c.root.mode = root.mode := by
  refine ⟨⟨v, name, root, rfl, h⟩, ?_⟩
  obtain ⟨number, rfl⟩ | ⟨-, number, zone, rfl⟩ := h
  · exact ⟨rfl, rfl⟩
  · exact ⟨rfl, rfl⟩

end Volume

namespace Image

/-- All that was in use in `img₀` is as it was, apart from the root, and the creations stand. -/
structure Standing (img₀ : Buffer) (cs : List Creation) (img : Buffer) : Prop where
  blocks : img.window 0 2048 = img₀.window 0 2048
  size : img.size = img₀.size
  inodes : ∀ n ∈ usedInodes (header img₀) img₀, inodeUsed (header img₀) img n = true
  records : ∀ n ∈ usedInodes (header img₀) img₀, n ≠ 1 →
    record (header img₀) img n = record (header img₀) img₀ n
  zonesUsed : ∀ z, (header img₀).IsDataZone z → zoneUsed (header img₀) img₀ z = true →
    zoneUsed (header img₀) img z = true
  zones : ∀ z, (header img₀).IsDataZone z → zoneUsed (header img₀) img₀ z = true →
    z ∉ (inode (header img₀) img₀ 1).zones → zone (header img₀) img z = zone (header img₀) img₀ z
  stands : ∀ c ∈ cs, c.Stands (header img₀) img
  numbers_new : ∀ c ∈ cs, inodeUsed (header img₀) img₀ c.number.toNat = false
  zones_new : ∀ c ∈ cs, ∀ z ∈ c.zone, zoneUsed (header img₀) img₀ z = false

/-- The scene has come from the image `img₀` by entering the creations `cs`. -/
structure Grown (img₀ : Buffer) (cs : List Creation) (s : Scene) : Prop where
  standing : Standing img₀ cs s.image
  directory : s.directory = inode (header img₀) s.image 1
  root_zones : s.directory.zones = (inode (header img₀) img₀ 1).zones
  root_mode : s.directory.mode = (inode (header img₀) img₀ 1).mode
  genuine : ∀ c ∈ cs, c.Genuine (header img₀)
  numbers_once : (cs.map (·.number)).Nodup
  zones_once : (cs.flatMap (·.zone.toList)).Nodup
  entries : (entries (header img₀) s.image s.directory).Perm
    (entries (header img₀) img₀ (inode (header img₀) img₀ 1) ++ cs.map (·.entry))
  names_once : ((Image.entries (header img₀) s.image s.directory).map (·.name)).Nodup

variable {img₀ : Buffer} {cs : List Creation}

theorem Standing.refl (img₀ : Buffer) : Standing img₀ [] img₀ where
  blocks := rfl
  size := rfl
  inodes _ hn := (mem_usedInodes.mp hn).2
  records _ _ _ := rfl
  zonesUsed _ _ used := used
  zones _ _ _ _ := rfl
  stands _ hc := nomatch hc
  numbers_new _ hc := nomatch hc
  zones_new _ hc := nomatch hc

theorem Grown.refl (h : Orderly img₀) {s : Scene} (image : s.image = img₀)
    (directory : s.directory = inode (header img₀) img₀ 1) : Grown img₀ [] s := by
  subst image
  refine ⟨Standing.refl _, directory, by rw [directory], by rw [directory],
    fun _ hc => (nomatch hc), List.nodup_nil, List.nodup_nil, ?_, ?_⟩
  · rw [directory, List.map_nil, List.append_nil]
  · rw [directory]
    exact h.names_once

theorem Standing.fits (h : Standing img₀ cs img) (orderly : Orderly img₀) :
    (header img₀).Fits img.size := by
  rw [h.size]
  exact orderly.fits

theorem Standing.add {img : Buffer} (h : Standing img₀ cs img) {c : Creation}
    (stands : c.Stands (header img₀) img)
    (number : inodeUsed (header img₀) img₀ c.number.toNat = false)
    (zones : ∀ z ∈ c.zone, zoneUsed (header img₀) img₀ z = false) :
    Standing img₀ (cs ++ [c]) img := by
  have mem {c' : Creation} (hc : c' ∈ cs ++ [c]) : c' ∈ cs ∨ c' = c := by
    simpa using hc
  refine ⟨h.blocks, h.size, h.inodes, h.records, h.zonesUsed, h.zones, ?_, ?_, ?_⟩
  · intro c' hc
    rcases mem hc with hc | rfl
    · exact h.stands c' hc
    · exact stands
  · intro c' hc
    rcases mem hc with hc | rfl
    · exact h.numbers_new c' hc
    · exact number
  · intro c' hc
    rcases mem hc with hc | rfl
    · exact h.zones_new c' hc
    · exact zones

theorem Standing.footprint {s : Scene} (h : Standing img₀ cs s.image) (orderly : Orderly img₀)
    (root : s.directory.zones = (inode (header img₀) img₀ 1).zones) {n : Nat}
    {free : Option UInt64} {slot : Option (UInt64 × Nat)} {us : List Update}
    (foot : Update.Footprint (header img₀) s n free slot us) :
    Standing img₀ cs (Update.applyAll (header img₀) s.image us) := by
  have fits := h.fits orderly
  refine ⟨(foot.blocks_eq fits).trans h.blocks, (foot.size_eq fits).trans h.size, ?_, ?_, ?_, ?_,
    ?_, h.numbers_new, h.zones_new⟩
  · intro m hm
    exact foot.inodeUsed fits (mem_usedInodes.mp hm).1 (h.inodes m hm)
  · intro m hm notRoot
    rw [foot.record fits (mem_usedInodes.mp hm).1 (h.inodes m hm) notRoot]
    exact h.records m hm notRoot
  · intro z hz used
    exact foot.zoneUsed fits hz (h.zonesUsed z hz used)
  · intro z hz used out
    rw [foot.zone_eq fits hz (h.zonesUsed z hz used) (root ▸ out)]
    exact h.zones z hz used out
  · intro c hc
    have stands := h.stands c hc
    refine ⟨stands.isInode, foot.inodeUsed fits stands.isInode stands.used, ?_, ?_⟩
    · rw [foot.record fits stands.isInode stands.used]
      · exact stands.record
      · intro one
        have new := h.numbers_new c hc
        rw [one, orderly.root_used] at new
        cases new
    · intro z hz
      obtain ⟨isZone, used, content⟩ := stands.zone z hz
      refine ⟨isZone, foot.zoneUsed fits isZone used, ?_⟩
      rw [foot.zone_eq fits isZone used]
      · exact content
      · rw [root]
        intro mem
        have new := h.zones_new c hc z hz
        rw [(orderly.zone_used orderly.one_mem mem).2] at new
        cases new

namespace Grown

variable {s : Scene} (h : Grown img₀ cs s) (orderly : Orderly img₀)
include h orderly

theorem fits : (header img₀).Fits s.image.size :=
  h.standing.fits orderly

theorem zones_used : ∀ z ∈ s.directory.zones,
    (header img₀).IsDataZone z ∧ zoneUsed (header img₀) s.image z = true := by
  intro z hz
  rw [h.root_zones] at hz
  obtain ⟨isZone, used⟩ := orderly.zone_used orderly.one_mem hz
  exact ⟨isZone, h.standing.zonesUsed z isZone used⟩

theorem zones_nodup : s.directory.zones.Nodup := by
  rw [h.root_zones]
  exact orderly.zones_nodup orderly.one_mem

theorem root_used : inodeUsed (header img₀) s.image 1 = true :=
  h.standing.inodes 1 orderly.one_mem

theorem ready {v : Volume} (superblock : v.superblock = header img₀)
    (width : v.nameWidth = v.superblock.width) : v.Ready s where
  fits := superblock ▸ h.fits orderly
  width := width
  zones := superblock ▸ h.zones_used orderly

theorem number_ne_one {c : Creation} (fresh : c.Fresh (header img₀) s) :
    c.number.toNat ≠ 1 := by
  intro one
  have free := fresh.free
  rw [one, h.root_used orderly] at free
  cases free

theorem keep {c : Creation} {slot : Option (UInt64 × Nat)} {us back : List Update}
    (fresh : c.Fresh (header img₀) s) (attempted : Attempted (header img₀) s c slot us)
    (given : back ⊆ releases c.number.toNat c.zone) :
    Grown img₀ cs { s with image := Update.applyAll (header img₀) s.image (us ++ back) } := by
  have zones := h.zones_used orderly
  have foot := attempted.footprint fresh given zones
  have same : Image.entries (header img₀) (Update.applyAll (header img₀) s.image (us ++ back))
      s.directory = Image.entries (header img₀) s.image s.directory :=
    entries_congr fun z hz => attempted.rootEntries fresh given zones (h.fits orderly) hz
  refine ⟨h.standing.footprint orderly h.root_zones foot, ?_, h.root_zones, h.root_mode, h.genuine,
    h.numbers_once, h.zones_once, ?_, ?_⟩
  · exact h.directory.trans (inode_congr (attempted.record_one fresh given zones (h.fits orderly)
      (h.number_ne_one orderly fresh))).symm
  · have entries := h.entries
    rw [← same] at entries
    exact entries
  · have names := h.names_once
    rw [← same] at names
    exact names

section Enter

variable {c : Creation} {z : UInt64} {k : Nat} (fresh : c.Fresh (header img₀) s)
  (found : FreeSlot (header img₀) s.image s.directory.zones z k) (root : Option Inode)
include fresh found

theorem stands_entering :
    c.Stands (header img₀)
      (Update.applyAll (header img₀) s.image (c.entering (header img₀) z k root)) := by
  have fits := h.fits orderly
  have zones := h.zones_used orderly
  refine ⟨fresh.isInode, fresh.inodeUsed_entering fits found zones root,
    fresh.record_entering fits found zones root (h.number_ne_one orderly fresh), ?_⟩
  intro z' hz
  exact ⟨(fresh.zone z' hz).1, fresh.zoneUsed_entering fits found zones root hz,
    fresh.zone_entering fits found zones root hz⟩

theorem standing_entering :
    Standing img₀ (cs ++ [c])
      (Update.applyAll (header img₀) s.image (c.entering (header img₀) z k root)) := by
  have fits := h.fits orderly
  have zones := h.zones_used orderly
  have foot := fresh.footprint_entering fits.inodes_pos found (fun z hz => (zones z hz).1) root
  refine (h.standing.footprint orderly h.root_zones foot).add
    (h.stands_entering orderly fresh found root) ?_ ?_
  · by_contra used
    have mem : c.number.toNat ∈ usedInodes (header img₀) img₀ :=
      mem_usedInodes.mpr ⟨fresh.isInode, Bool.not_eq_false _ ▸ used⟩
    have still := h.standing.inodes _ mem
    rw [fresh.free] at still
    cases still
  · intro z' hz
    obtain ⟨isZone, free, -⟩ := fresh.zone z' hz
    by_contra used
    have still := h.standing.zonesUsed z' isZone (Bool.not_eq_false _ ▸ used)
    rw [free] at still
    cases still

theorem directory_entering :
    root.getD s.directory = inode (header img₀)
      (Update.applyAll (header img₀) s.image (c.entering (header img₀) z k root)) 1 := by
  have record := fresh.record_one_entering (h.fits orderly) found (h.zones_used orderly) root
    (h.number_ne_one orderly fresh)
  cases root with
  | none => exact h.directory.trans (inode_congr record).symm
  | some ip => exact (inode_of_record record).symm

theorem entries_entering :
    ∃ before behind, Image.entries (header img₀) s.image s.directory = before ++ behind ∧
      Image.entries (header img₀)
        (Update.applyAll (header img₀) s.image (c.entering (header img₀) z k root)) s.directory
        = before ++ c.entry :: behind := by
  have fits := h.fits orderly
  have zones := h.zones_used orderly
  have writable := fresh.writable
  refine entries_insert found.mem (h.zones_nodup orderly) ?_ ?_
  · intro z' hz' ne
    exact fresh.otherZone_entering fits found zones root hz' ne
  · rw [fresh.slotZone_entering fits found zones root]
    exact zoneEntries_fill (size_zone (fits.zoneEnd_le (zones z found.mem).1))
      (Entry.size_slotData writable.short) found.lt found.free (Entry.ofSlot_slotData writable)
      fresh.nonzero

omit found orderly in
theorem numbers_entering : ((cs ++ [c]).map (·.number)).Nodup := by
  rw [List.map_append, List.nodup_append]
  refine ⟨h.numbers_once, List.nodup_singleton _, ?_⟩
  rintro n mem n' mem' rfl
  obtain ⟨c', hc, rfl⟩ := List.mem_map.mp mem
  have used := (h.standing.stands c' hc).used
  rw [show c'.number = c.number by simpa using mem', fresh.free] at used
  cases used

omit found orderly in
theorem zones_entering : ((cs ++ [c]).flatMap (·.zone.toList)).Nodup := by
  rw [List.flatMap_append, List.nodup_append]
  refine ⟨h.zones_once, ?_, ?_⟩
  · cases hz : c.zone <;> simp [hz]
  · rintro z' mem z'' mem'' rfl
    obtain ⟨c', hc, hz⟩ := List.mem_flatMap.mp mem
    have used := ((h.standing.stands c' hc).zone z' (by simpa using hz)).2.1
    rw [(fresh.zone z' (by simpa using mem'')).2.1] at used
    cases used

theorem enter (genuine : c.Genuine (header img₀))
    (same : ∀ ip ∈ root, ip.zones = s.directory.zones ∧ ip.mode = s.directory.mode) :
    Grown img₀ (cs ++ [c])
      { s with
        image := Update.applyAll (header img₀) s.image (c.entering (header img₀) z k root)
        directory := root.getD s.directory } := by
  obtain ⟨zones, mode⟩ : (root.getD s.directory).zones = s.directory.zones ∧
      (root.getD s.directory).mode = s.directory.mode := by
    cases root with
    | none => exact ⟨rfl, rfl⟩
    | some ip => exact same ip rfl
  obtain ⟨before, behind, old, new⟩ := h.entries_entering orderly fresh found root
  rw [← entries_of_zones zones] at new
  have perm : (Image.entries (header img₀)
      (Update.applyAll (header img₀) s.image (c.entering (header img₀) z k root))
      (root.getD s.directory)).Perm
      (c.entry :: Image.entries (header img₀) s.image s.directory) := by
    rw [new, old]
    exact List.perm_middle
  refine ⟨h.standing_entering orderly fresh found root,
    h.directory_entering orderly fresh found root, zones.trans h.root_zones,
    mode.trans h.root_mode, ?_, h.numbers_entering fresh, h.zones_entering fresh, ?_, ?_⟩
  · intro c' hc
    rcases List.mem_append.mp hc with hc | hc
    · exact h.genuine c' hc
    · exact List.mem_singleton.mp hc ▸ genuine
  · rw [List.map_append, ← List.append_assoc]
    exact perm.trans ((h.entries.cons _).trans (List.perm_append_singleton _ _).symm)
  · refine (perm.map _).nodup_iff.mpr ?_
    rw [List.map_cons, List.nodup_cons]
    exact ⟨fresh.name.fresh, h.names_once⟩

end Enter

theorem outcome {name : Bytes} {plan : Creation → Prop} {steady : Prop}
    {r : Except Stop UInt64} {s' : Scene} {log : Log}
    (outcome : Outcome (header img₀) name plan steady s r s' log)
    (genuine : ∀ c, plan c → c.Genuine (header img₀) ∧ c.root.zones = s.directory.zones ∧
      c.root.mode = s.directory.mode) :
    ∃ added, Grown img₀ (cs ++ added) s' := by
  cases outcome with
  | refused _ => exact ⟨[], by rwa [List.append_nil]⟩
  | @made c z k _ planned fresh found =>
      refine ⟨[c], h.enter orderly fresh found.toFreeSlot (some c.root) (genuine c planned).1 ?_⟩
      rintro ip ⟨⟩
      exact (genuine c planned).2
  | @left c z k _ _ planned fresh found _ _ =>
      have entered := h.enter orderly fresh found none (genuine c planned).1
        fun _ mem => nomatch mem
      rw [Creation.entering, Option.map_none, Option.toList_none, List.append_nil] at entered
      exact ⟨[c], entered⟩
  | undone _ fresh attempted _ given =>
      refine ⟨[], ?_⟩
      rw [List.append_nil]
      exact h.keep orderly fresh attempted given.subset
  | crashed _ fresh taking _ _ =>
      refine ⟨[], ?_⟩
      have kept := h.keep orderly fresh (.steps (Creation.allocations_prefix taking))
        (List.nil_subset _)
      rw [List.append_nil] at kept ⊢
      exact kept

end Grown

end Image

end MinixVolume

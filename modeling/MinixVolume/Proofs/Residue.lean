import MinixVolume.Proofs.Agreement
import MinixVolume.Proofs.Content
import MinixVolume.Proofs.Pages
import MinixVolume.Proofs.Preservation

namespace MinixVolume

namespace Image

variable (sb : Superblock) (img : Buffer)

def InUse (k : Nat) : Prop :=
  k < sb.zonePlace sb.firstDataZone.toUInt64 ∨
    ∃ z, sb.IsDataZone z ∧ zoneUsed sb img z = true ∧ Run (sb.zonePlace z) sb.zoneSize.toNat k

structure SameInUse (img' : Buffer) : Prop where
  front : img.window 0 (sb.zonePlace sb.firstDataZone.toUInt64)
    = img'.window 0 (sb.zonePlace sb.firstDataZone.toUInt64)
  zones : ∀ z, sb.IsDataZone z → zoneUsed sb img z = zoneUsed sb img' z ∧
    (zoneUsed sb img z = true → zone sb img z = zone sb img' z)

variable {sb img} {img' : Buffer} (fits : sb.Fits img.size)
include fits

section Front

variable (agree : Buffer.AgreeOn (· < sb.zonePlace sb.firstDataZone.toUInt64) img img')
include agree

theorem inodeUsed_eq {n : Nat} (hn : sb.IsInode n) :
    inodeUsed sb img n = inodeUsed sb img' n := by
  have table := fits.tableEnd_le_first
  have lt := fits.inodes_lt
  have le := hn.2
  apply agree.bit_eq
  simp only [Superblock.inodeMapPlace, Superblock.tablePlace] at *
  omega

theorem zoneUsed_eq {z : UInt64} (hz : sb.IsDataZone z) :
    zoneUsed sb img z = zoneUsed sb img' z := by
  have table := fits.tableEnd_le_first
  have lt := fits.zoneNumber_lt hz
  apply agree.bit_eq
  simp only [Superblock.zoneMapPlace, Superblock.tablePlace] at *
  omega

theorem inode_eq {n : Nat} (hn : sb.IsInode n) : inode sb img' n = inode sb img n := by
  have table := fits.tableEnd_le_first
  obtain ⟨pos, le⟩ := hn
  apply inode_congr
  refine (agree.window_eq ?_).symm
  rintro k ⟨-, lt⟩
  rw [Superblock.recordPlace] at lt
  omega

theorem FirstFree.unique {n n' : Nat} (h : FirstFree sb img n) (h' : FirstFree sb img' n') :
    n = n' := by
  have free := h.free
  have free' := h'.free
  rw [inodeUsed_eq fits agree h.isInode] at free
  rw [← inodeUsed_eq fits agree h'.isInode] at free'
  rcases Nat.lt_trichotomy n n' with lt | eq | gt
  · rw [h'.least n h.isInode.1 lt] at free
    cases free
  · exact eq
  · rw [h.least n' h'.isInode.1 gt] at free'
    cases free'

end Front

section Used

variable (agree : Buffer.AgreeOn (InUse sb img) img img')
include agree

omit fits in
theorem zone_eq {z : UInt64} (hz : sb.IsDataZone z) (used : zoneUsed sb img z = true) :
    zone sb img' z = zone sb img z :=
  (agree.window_eq fun _ run => .inr ⟨z, hz, used, run⟩).symm

theorem sameInUse : SameInUse sb img img' := by
  refine ⟨agree.window_eq ?_, ?_⟩
  · rintro k ⟨-, lt⟩
    exact .inl (by omega)
  · intro z hz
    exact ⟨zoneUsed_eq fits (agree.mono fun _ => .inl) hz,
      fun used => (zone_eq agree hz used).symm⟩

end Used

theorem legible {root : Inode}
    (used : ∀ z ∈ root.zones, sb.IsDataZone z ∧ zoneUsed sb img z = true) :
    sb.Legible (Covered (InUse sb img)) fun ip => ip.zones = root.zones := by
  have table := fits.tableEnd_le_first
  have bytes {blocks : UInt16} : (blocks.toUInt64 * blockSize).toNat = 1024 * blocks.toNat := by
    have lt := blocks.toNat_lt
    have value := UInt16.toNat_toUInt64 blocks
    rw [Bitmap.toNat_blockBytes (by omega), value]
  refine ⟨?_, ?_, ?_, ?_⟩
  · rintro k ⟨-, lt⟩
    rw [Superblock.toNat_inodeMapOffset, bytes] at lt
    simp only [Superblock.inodeMapPlace, Superblock.tablePlace] at *
    exact .inl (by omega)
  · rintro k ⟨-, lt⟩
    rw [Superblock.toNat_zoneMapOffset, bytes] at lt
    simp only [Superblock.zoneMapPlace, Superblock.tablePlace] at *
    exact .inl (by omega)
  · intro ip same z hz k run
    obtain ⟨isZone, used⟩ := used z (same ▸ hz)
    exact .inr ⟨z, isZone, used, run⟩
  · intro ip ip' same same'
    exact same'.trans same

end Image

variable {δ δ' : Type} [Disk δ] [ImageDisk δ] [ExactDisk δ] [Disk δ'] [ImageDisk δ'] [ExactDisk δ']

section Reading

open Mount

/-- On every disk with that image the action answers with `a`, and leaves all there is to see as it
is. -/
def Mount.Yields {α : Type} (img : Buffer) (x : MountM δ α) (a : α) : Prop :=
  ∀ (m : Mount δ) (s : Scene), s.image = img → m.Shows True s →
    Ends x m (fun b m' => b = a ∧ m'.Shows True s) fun _ _ => False

def Holding (img img' b b' : Buffer) : Prop :=
  b = img ∧ b' = img'

variable {img img' : Buffer} {P : Inode → Prop} {α β : Type}

theorem Mount.Alike.yield_bind {x : MountM δ α} {x' : MountM δ' α} {a : α}
    (hx : Yields img x a) (hx' : Yields img' x' a) {f : α → MountM δ β} {f' : α → MountM δ' β}
    (hf : Alike (Between (Holding img img')) P (f a) (f' a)) :
    Alike (Between (Holding img img')) P (x >>= f) (x' >>= f') := by
  intro m m' twins
  obtain ⟨sound, sound', image, image'⟩ := twins.disk
  obtain ⟨_, m₁, run, rfl, h⟩ :=
    (hx m m.scene image (shows_scene sound (ExactDisk.reliable sound))).exec_ok
  obtain ⟨_, m₁', run', rfl, h'⟩ :=
    (hx' m' m'.scene image' (shows_scene sound' (ExactDisk.reliable sound'))).exec_ok
  rw [exec_bind, exec_bind, run, run']
  refine hf m₁ m₁' ⟨⟨h.sound, h'.sound, ?_, ?_⟩, ?_, ?_, ?_⟩
  · exact h.image.trans image
  · exact h'.image.trans image'
  · exact h.directory.trans (twins.directory.trans h'.directory.symm)
  · exact h.output.trans (twins.output.trans h'.output.symm)
  · rw [h.directory]
    exact twins.root

variable {sb : Superblock} (agree : Buffer.AgreeOn (Image.InUse sb img) img img')
  (fits : sb.Fits img.size) (small : sb.zoneSize.toNat ≤ Word.largestBuffer.toNat)
include agree fits

theorem Inode.alike_loadUsed {n : UInt64} (hn : sb.IsInode n.toNat) {f : Inode → MountM δ β}
    {f' : Inode → MountM δ' β} (hf : Alike (Between (Holding img img')) P
      (f (Image.inode sb img n.toNat)) (f' (Image.inode sb img n.toNat))) :
    Alike (Between (Holding img img')) P (load sb.inodeTableStart n >>= f)
      (load sb.inodeTableStart n >>= f') := by
  refine .yield_bind ?_ ?_ hf
  · rintro m s rfl h
    exact ends_sure (Inode.ends_load h fits hn) (Nat.zero_le _)
  · rintro m s rfl h
    rw [← Image.inode_eq fits (agree.mono fun _ => .inl) hn]
    exact ends_sure (Inode.ends_load h (agree.size ▸ fits) hn) (Nat.zero_le _)

section Owned

variable {ip : Inode} (used : ∀ z ∈ ip.zones, sb.IsDataZone z ∧ Image.zoneUsed sb img z = true)
include used

theorem Content.alike_readUsed {f : Buffer → MountM δ β} {f' : Buffer → MountM δ' β}
    (hf : ∀ b, Alike (Between (Holding img img')) P (f b) (f' b)) :
    Alike (Between (Holding img img')) P (read sb ip >>= f) (read sb ip >>= f') := by
  refine .yield_bind (a := Image.content sb img ip) ?_ ?_ (hf _)
  · rintro m s rfl h
    exact ends_sure (Content.ends_read h fun z hz => fits.zoneEnd_le (used z hz).1)
      (Nat.zero_le _)
  · rintro m s rfl h
    have same : Image.content sb s.image ip = Image.content sb img ip :=
      Image.gathered_congr (fun z hz => Image.zone_eq agree (used z hz).1 (used z hz).2) _ _
    rw [← same]
    exact ends_sure (Content.ends_read h fun z hz => (agree.size ▸ fits).zoneEnd_le (used z hz).1)
      (Nat.zero_le _)

include small

theorem Directory.alike_listUsed {f : List Entry → MountM δ β} {f' : List Entry → MountM δ' β}
    (hf : Alike (Between (Holding img img')) P (f (Image.entries sb img ip))
      (f' (Image.entries sb img ip))) :
    Alike (Between (Holding img img')) P (list sb ip sb.width >>= f)
      (list sb ip sb.width >>= f') := by
  refine .yield_bind ?_ ?_ hf
  · rintro m s rfl h
    exact ends_sure (Directory.ends_list h fun z hz => fits.zoneEnd_le (used z hz).1) small
  · rintro m s rfl h
    have same : Image.entries sb s.image ip = Image.entries sb img ip := by
      apply Image.entries_congr
      intro z hz
      rw [Image.zone_eq agree (used z hz).1 (used z hz).2]
    rw [← same]
    exact ends_sure (Directory.ends_list h fun z hz =>
      (agree.size ▸ fits).zoneEnd_le (used z hz).1) small

end Owned

end Reading

section Commands

open Mount

variable {img img' : Buffer} {v : Volume} (width : v.nameWidth = v.superblock.width)
  (superblock : v.superblock = Image.header img) (orderly : Image.Orderly img)
  (agree : Buffer.AgreeOn (Image.InUse v.superblock img) img img')
  (small : v.superblock.zoneSize.toNat ≤ Word.largestBuffer.toNat)
include superblock orderly agree

namespace Volume

theorem alike_listUsed {P : Inode → Prop} (long : Bool) {es : List Entry}
    (used : ∀ e ∈ es, e.inode.toNat ∈ Image.usedInodes v.superblock img) :
    Alike (Between (Holding img img')) P (v.listEntries long es : MountM δ Unit)
      (v.listEntries long es : MountM δ' Unit) := by
  have fits := superblock ▸ orderly.fits
  induction es with
  | nil => exact .pure _
  | cons e es ih =>
      have rest := ih fun e' he' => used e' (List.mem_cons_of_mem _ he')
      have here := (Image.mem_usedInodes.mp (used e List.mem_cons_self)).1
      rw [listEntries, listEntries]
      split
      · exact Inode.alike_loadUsed agree fits here (.bind (.put _) fun _ => rest)
      · exact .bind (.put _) fun _ => rest

include width small

theorem alike_lsUsed (long : Bool) :
    Alike (Between (Holding img img'))
      (fun ip => ip.zones = (Image.inode v.superblock img 1).zones)
      (v.ls long : MountM δ Unit) (v.ls long : MountM δ' Unit) := by
  have fits := superblock ▸ orderly.fits
  refine .get_bind fun m m' twins => ?_
  have root := twins.root
  rw [twins.directory] at root ⊢
  rw [width]
  refine Directory.alike_listUsed agree fits small ?_ ?_
  · intro z hz
    rw [root, superblock] at hz
    rw [superblock]
    exact orderly.zone_used orderly.one_mem hz
  · refine v.alike_listUsed superblock orderly agree long ?_
    intro e he
    rw [Image.entries_of_zones root, superblock] at he
    rw [superblock]
    exact orderly.entry_used orderly.root_directories he

theorem alike_followUsed {P : Inode → Prop} {β : Type} {f : Inode → MountM δ β}
    {f' : Inode → MountM δ' β}
    (hf : ∀ ip : Inode,
      (∀ z ∈ ip.zones, v.superblock.IsDataZone z ∧ Image.zoneUsed v.superblock img z = true) →
        Alike (Between (Holding img img')) P (f ip) (f' ip))
    {names : List Bytes} {n : Nat} {ip : Inode}
    (zones : ip.zones = (Image.inode v.superblock img n).zones)
    (mem : n ∈ Image.usedInodes v.superblock img)
    (directory : names ≠ [] → n ∈ Image.directories v.superblock img) :
    Alike (Between (Holding img img')) P (v.follow ip names >>= f) (v.follow ip names >>= f') := by
  have fits := superblock ▸ orderly.fits
  have used {n : Nat} {ip : Inode} (zones : ip.zones = (Image.inode v.superblock img n).zones)
      (mem : n ∈ Image.usedInodes v.superblock img) : ∀ z ∈ ip.zones,
      v.superblock.IsDataZone z ∧ Image.zoneUsed v.superblock img z = true := by
    intro z hz
    rw [zones, superblock] at hz
    rw [superblock] at mem ⊢
    exact orderly.zone_used mem hz
  induction names generalizing n ip with
  | nil =>
      rw [follow, follow, pure_bind, pure_bind]
      exact hf ip (used zones mem)
  | cons name rest ih =>
      simp only [follow, lookup, Directory.lookup, bind_assoc, pure_bind, width]
      refine Directory.alike_listUsed agree fits small (used zones mem) ?_
      cases found : (Image.entries v.superblock img ip).find? (·.name == name) with
      | none => exact .fail_bind
      | some e =>
          have entry := List.mem_of_find?_eq_some found
          rw [Image.entries_of_zones zones] at entry
          have next : e.inode.toNat ∈ Image.usedInodes v.superblock img := by
            have directory := directory (List.cons_ne_nil _ _)
            rw [superblock] at entry directory ⊢
            exact orderly.entry_used directory entry
          rw [Option.map_some]
          dsimp only
          rw [pure_bind, pure_bind]
          refine Inode.alike_loadUsed agree fits (Image.mem_usedInodes.mp next).1 ?_
          split
          · rw [bind_assoc, bind_assoc]
            exact .fail_bind
          · next go =>
              refine ih rfl next fun nonempty => List.mem_filter.mpr ⟨next, ?_⟩
              simpa [nonempty] using go

theorem alike_catUsed (path : Bytes) :
    Alike (Between (Holding img img'))
      (fun ip => ip.zones = (Image.inode v.superblock img 1).zones)
      (v.cat path : MountM δ Unit) (v.cat path : MountM δ' Unit) := by
  have fits := superblock ▸ orderly.fits
  rw [cat, cat, resolve, resolve]
  dsimp only
  split
  · simp only [bind_assoc]
    exact .fail_bind
  · rw [bind_assoc, bind_assoc]
    refine .get_bind fun m m' twins => ?_
    have root := twins.root
    rw [twins.directory] at root ⊢
    refine v.alike_followUsed width superblock orderly agree small ?_ root ?_ fun _ => ?_
    · intro ip used
      exact Content.alike_readUsed agree fits used fun _ => .put _
    · rw [superblock]
      exact orderly.one_mem
    · rw [superblock]
      exact orderly.root_directories

end Volume

include width small in
theorem Command.alike_read {c : Command} (still : c.mutates = false) :
    Alike (Between (Holding img img'))
      (fun ip => ip.zones = (Image.inode v.superblock img 1).zones)
      (c.run v : MountM δ Unit) (c.run v : MountM δ' Unit) := by
  cases c with
  | ls long => exact v.alike_lsUsed width superblock orderly agree small long
  | cat path => exact v.alike_catUsed width superblock orderly agree small path
  | info =>
      refine v.alike_info (sameReads_between ?_) (Image.legible (superblock ▸ orderly.fits) ?_)
      · rintro _ _ ⟨rfl, rfl⟩
        exact agree
      · intro z hz
        rw [superblock] at hz ⊢
        exact orderly.zone_used orderly.one_mem hz
  | _ => cases still

end Commands

theorem Outcome.zone_taken {v : Volume} {root : Inode} {command : Command} {name : Bytes}
    {s s' : Scene} {r : Except Stop UInt64} {log : Log}
    (h : Outcome v.superblock name (v.Plan root command) True s r s' log)
    (fits : v.superblock.Fits s.image.size)
    (small : v.superblock.zoneSize.toNat ≤ Word.largestBuffer.toNat)
    (zones : ∀ z ∈ s.directory.zones,
      v.superblock.IsDataZone z ∧ Image.zoneUsed v.superblock s.image z = true)
    {z : UInt64} (hz : v.superblock.IsDataZone z)
    (free : Image.zoneUsed v.superblock s.image z = false)
    (used : Image.zoneUsed v.superblock s'.image z = true) :
    ∃ number : UInt64, Image.FirstFree v.superblock s.image number.toNat ∧
      Image.zone v.superblock s'.image z = Image.newZone v.superblock number := by
  have changed :
      Image.zoneUsed v.superblock s'.image z ≠ Image.zoneUsed v.superblock s.image z := by
    rw [free, used]
    decide
  cases h with
  | refused _ => exact absurd rfl changed
  | @made c z' k _ planned fresh found =>
      have found := found.toFreeSlot
      have foot := fresh.footprint_entering fits.inodes_pos found (fun z hz => (zones z hz).1)
        (some c.root)
      by_cases mem : z ∈ c.zone
      · refine ⟨c.number, ⟨fresh.isInode, fresh.free, fresh.least⟩,
          (fresh.zone_entering fits found zones (some c.root) mem).trans ?_⟩
        obtain ⟨_, ⟨number, rfl⟩ | ⟨-, number, zone, rfl⟩⟩ := planned.cases
        · cases mem
        · rfl
      · exact absurd (Update.zoneUsed_of_local foot.valid fits foot.within
          (fun z hz => (foot.zone z hz).1) hz mem) changed
  | left _ _ _ _ failing => exact absurd trivial failing
  | @undone c slot us back _ _ _ _ fresh attempted _ given =>
      have foot := attempted.footprint fresh given.subset zones
      have mem : z ∈ c.zone := by
        by_contra out
        exact changed (Update.zoneUsed_of_local foot.valid fits foot.within
          (fun z hz => (foot.zone z hz).1) hz out)
      cases given with
      | all =>
          have again := (attempted.free_again fresh (List.Subset.refl _) zones fits rfl).2 z mem
          exact absurd (again.trans free.symm) changed
      | part _ failing _ => exact absurd trivial failing
  | crashed _ _ _ _ large => exact absurd large (Nat.not_lt_of_le small)

omit [ExactDisk δ] in
theorem Volume.Agrees.zone_taken {v : Volume} {m : Mount δ} {s s₁ : Scene} (h : v.Agrees s)
    (hm : m.Shows True s) (width : v.nameWidth = v.superblock.width)
    (small : v.superblock.zoneSize.toNat ≤ Word.largestBuffer.toNat) {c : Command}
    (change : c.mutates = true)
    (h₁ : (Mount.exec (c.run v) m).2.Shows True s₁) {z : UInt64} (hz : v.superblock.IsDataZone z)
    (free : Image.zoneUsed v.superblock s.image z = false)
    (used : Image.zoneUsed v.superblock s₁.image z = true) :
    ∃ number : UInt64, Image.FirstFree v.superblock s.image number.toNat ∧
      Image.zone v.superblock s₁.image z = Image.newZone v.superblock number := by
  have orderly := h.consistent.toOrderly
  have ready := (Image.Grown.refl orderly rfl h.directory).ready orderly h.superblock width
  obtain ⟨name, r, s₂, -, h₂, outcome⟩ := exec_create hm ready change
  obtain rfl := h₂.unique h₁
  exact outcome.zone_taken ready.fits small ready.zones hz free used

structure Parallel (sb : Superblock) (s s' : Scene) : Prop where
  consistent : Image.Consistent s.image
  consistent' : Image.Consistent s'.image
  header : sb = Image.header s.image
  header' : sb = Image.header s'.image
  root : s.directory = Image.inode sb s.image 1
  directory : s.directory = s'.directory
  output : s.output = s'.output
  images : Buffer.AgreeOn (Image.InUse sb s.image) s.image s'.image

namespace Parallel

variable {v : Volume} {s s' : Scene} (h : Parallel v.superblock s s')
include h

theorem fits : v.superblock.Fits s.image.size :=
  h.header ▸ h.consistent.fits

theorem agrees : v.Agrees s :=
  ⟨h.consistent, h.header, h.header ▸ h.root⟩

theorem agrees' : v.Agrees s' := by
  have root : s'.directory = Image.inode v.superblock s'.image 1 := by
    rw [← h.directory, h.root]
    exact (Image.inode_eq h.fits (h.images.mono fun _ => .inl)
      ⟨Nat.le_refl 1, h.fits.inodes_pos⟩).symm
  exact ⟨h.consistent', h.header', h.header' ▸ root⟩

theorem zones_used : ∀ z ∈ s.directory.zones,
    v.superblock.IsDataZone z ∧ Image.zoneUsed v.superblock s.image z = true := by
  intro z hz
  rw [h.root, h.header] at hz
  rw [h.header]
  exact h.consistent.zone_used h.consistent.one_mem hz

omit [ExactDisk δ] [ExactDisk δ'] in
theorem twins {m : Mount δ} {m' : Mount δ'} (hm : m.Shows True s) (hm' : m'.Shows True s')
    {I : Buffer → Buffer → Prop} (images : I s.image s'.image) :
    Mount.Twins (Between I) (fun ip => ip.zones = (Image.inode v.superblock s.image 1).zones)
      m m' := by
  refine ⟨⟨hm.sound, hm'.sound, ?_⟩, ?_, ?_, ?_⟩
  · rw [hm.image, hm'.image]
    exact images
  · rw [hm.directory, hm'.directory, h.directory]
  · rw [hm.output, hm'.output, h.output]
  · rw [hm.directory, h.root]

variable (width : v.nameWidth = v.superblock.width)
  (small : v.superblock.zoneSize.toNat ≤ Word.largestBuffer.toNat)
  {m : Mount δ} {m' : Mount δ'} (hm : m.Shows True s) (hm' : m'.Shows True s') {c : Command}
include width small hm hm'

theorem exec_read (still : c.mutates = false) :
    (Mount.exec (c.run v) m).1 = (Mount.exec (c.run v) m').1 ∧
      ∃ s₁ s₁', (Mount.exec (c.run v) m).2.Shows True s₁ ∧
        (Mount.exec (c.run v) m').2.Shows True s₁' ∧ Parallel v.superblock s₁ s₁' := by
  obtain ⟨answer, after⟩ := Command.alike_read width h.header h.consistent.toOrderly h.images small
    still m m' (h.twins hm hm' ⟨rfl, rfl⟩)
  obtain ⟨output, h₁⟩ := (Command.keeps_run v still).stillShows hm
  obtain ⟨output', h₁'⟩ := (Command.keeps_run v still).stillShows hm'
  refine ⟨answer, _, _, h₁, h₁', h.consistent, h.consistent', h.header, h.header', h.root,
    h.directory, ?_, h.images⟩
  exact h₁.output.symm.trans (after.output.trans h₁'.output)

theorem exec_create (change : c.mutates = true) :
    (Mount.exec (c.run v) m).1 = (Mount.exec (c.run v) m').1 ∧
      ∃ s₁ s₁', (Mount.exec (c.run v) m).2.Shows True s₁ ∧
        (Mount.exec (c.run v) m').2.Shows True s₁' ∧ Parallel v.superblock s₁ s₁' := by
  have legible := Image.legible h.fits (h.root ▸ h.zones_used)
  obtain ⟨answer, after⟩ := Command.alike_create sameTransfers_between legible change m m'
    (h.twins hm hm' h.images)
  obtain ⟨s₁, h₁, agrees⟩ := h.agrees.exec_command hm width small c
  obtain ⟨s₁', h₁', agrees'⟩ := h.agrees'.exec_command hm' width small c
  have kept := after.disk.images
  rw [h₁.image, h₁'.image] at kept
  have fits₁ : v.superblock.Fits s₁.image.size := agrees.superblock ▸ agrees.consistent.fits
  refine ⟨answer, s₁, s₁', h₁, h₁', agrees.consistent, agrees'.consistent, agrees.superblock,
    agrees'.superblock, agrees.superblock ▸ agrees.directory, ?_, ?_, kept.size, ?_⟩
  · exact h₁.directory.symm.trans (after.directory.trans h₁'.directory)
  · exact h₁.output.symm.trans (after.output.trans h₁'.output)
  rintro k (front | ⟨z, hz, used, run⟩)
  · exact kept.bytes k (.inl front)
  cases before : Image.zoneUsed v.superblock s.image z with
  | true => exact kept.bytes k (.inr ⟨z, hz, before, run⟩)
  | false =>
      -- The zone was taken by this very command, which has written all of it.
      have before' := Image.zoneUsed_eq h.fits (h.images.mono fun _ => .inl) hz
      have used' := Image.zoneUsed_eq fits₁ (kept.mono fun _ => .inl) hz
      rw [before] at before'
      rw [used] at used'
      obtain ⟨n, first, content⟩ := h.agrees.zone_taken hm width small change h₁ hz before used
      obtain ⟨n', first', content'⟩ :=
        h.agrees'.zone_taken hm' width small change h₁' hz before'.symm used'.symm
      obtain rfl : n = n' :=
        UInt64.toNat.inj (first.unique h.fits (h.images.mono fun _ => .inl) first')
      exact Buffer.getElem?_of_window_eq (content.trans content'.symm) run.1 run.2

theorem exec_command (c : Command) :
    (Mount.exec (c.run v) m).1 = (Mount.exec (c.run v) m').1 ∧
      ∃ s₁ s₁', (Mount.exec (c.run v) m).2.Shows True s₁ ∧
        (Mount.exec (c.run v) m').2.Shows True s₁' ∧ Parallel v.superblock s₁ s₁' := by
  cases change : c.mutates with
  | false => exact h.exec_read width small hm hm' change
  | true => exact h.exec_create width small hm hm' change

theorem runAll (commands : List (Int64 × Command)) :
    (v.runAll commands m).1 = (v.runAll commands m').1 ∧
      ∃ s₁ s₁', (v.runAll commands m).2.Shows True s₁ ∧
        (v.runAll commands m').2.Shows True s₁' ∧ Parallel v.superblock s₁ s₁' := by
  induction commands generalizing m m' s s' with
  | nil => exact ⟨rfl, s, s', hm, hm', h⟩
  | cons command rest ih =>
      obtain ⟨clock, c⟩ := command
      have here : Parallel (Volume.superblock { v with clock := clock }) s s' := h
      obtain ⟨answer, s₁, s₁', h₁, h₁', parallel⟩ := here.exec_command width small hm hm' c
      obtain ⟨answers, after⟩ := ih parallel h₁ h₁'
      exact ⟨congrArg₂ List.cons answer answers, after⟩

end Parallel

namespace Format

open Mount

theorem tracks_run {o : FormatOptions} {sb : Superblock} (layout : o.layout = .ok sb) :
    Tracks (Between (Buffer.AgreeOn fun _ => False))
      (Between (Buffer.AgreeOn (· < 1024 * (sb.firstDataZone.toNat + 1))))
      (run o : MountM δ Superblock) (run o : MountM δ' Superblock) := by
  have accepted := FormatOptions.accepted_of_layout layout
  have transfers : SameTransfers (Between (Buffer.AgreeOn
      (· < 1024 * (sb.firstDataZone.toNat + 1))) : δ → δ' → Prop) _ := sameTransfers_between
  have clear : Tracks (Between (Buffer.AgreeOn fun _ => False))
      (Between (Buffer.AgreeOn (· < 1024 * (sb.firstDataZone.toNat + 1))))
      (clearBlocks 0 (sb.firstDataZone.toUInt64 + 1) : MountM δ Unit)
      (clearBlocks 0 (sb.firstDataZone.toUInt64 + 1) : MountM δ' Unit) := by
    rw [clearBlocks_eq accepted, clearBlocks_eq accepted]
    refine (tracks_overwrite _ _).imp fun d d' h => ⟨h.sound, h.sound', h.images.mono ?_⟩
    intro k lt
    rw [Buffer.size_zeros, UInt64.toNat_zero, Run, Nat.zero_add]
    exact .inr ⟨Nat.zero_le k, lt⟩
  rw [run, run, layout]
  refine alike_blockCount.tracks.bind fun blocks => .guard ?_
  refine (Alike.liftExcept _).tracks.bind fun width => (Alike.trace _).tracks.bind fun _ =>
    clear.wrapping.bind fun _ => Alike.tracks ?_
  refine .bind (.wrapping (.writeAt transfers _ _)) fun _ => ?_
  refine .bind (.liftExcept _) fun inodeMap => (inodeMap.alike_store transfers).bind fun _ => ?_
  refine .bind (.liftExcept _) fun zoneMap => (zoneMap.alike_store transfers).bind fun _ => ?_
  refine .bind (.liftExcept _) fun block => .bind (.wrapping (.writeAt transfers _ _)) fun _ => ?_
  exact (Inode.alike_store transfers _ _ _).bind fun _ => .pure _

theorem lt_of_inUse {sb : Superblock} {img : Buffer} (prepared : Prepared sb img)
    (accepted : FormatOptions.Accepted sb) (modified : UInt32) {k : Nat}
    (h : Image.InUse sb (freshImage sb modified img) k) :
    k < 1024 * (sb.firstDataZone.toNat + 1) := by
  have first := Superblock.Fits.toNat_firstDataZone sb
  have lt := sb.firstDataZone.toNat_lt
  have place : sb.zonePlace sb.firstDataZone.toUInt64 = 1024 * sb.firstDataZone.toNat := by
    rw [Superblock.zonePlace, accepted.toNat_zoneOffset (by omega), first]
  rcases h with front | ⟨z, hz, used, -, upper⟩
  · omega
  · rw [eq_root_of_zoneUsed prepared accepted modified hz used, place, accepted.zoneSize_eq,
      show (1024 : UInt64).toNat = 1024 from rfl] at upper
    omega

omit [ExactDisk δ] in
theorem exec_openFresh {sb : Superblock} {img : Buffer} (prepared : Prepared sb img)
    (accepted : FormatOptions.Accepted sb) {modified : UInt32} {m : Mount δ} {s : Scene}
    (h : m.Shows True { s with image := freshImage sb modified img }) (clock : Int64)
    (color : Bool) :
    ∃ m', exec (Volume.openDisk clock color) m = (.ok ⟨sb, sb.width, clock, color⟩, m') ∧
      m'.Shows True
        ⟨freshImage sb modified img, Image.inode sb (freshImage sb modified img) 1, s.output⟩ := by
  have header := header_fresh prepared accepted modified
  have opens := Volume.ends_openDisk_eq h (consistent_fresh prepared accepted modified).fits clock
    color
  rw [header] at opens
  obtain ⟨_, m', run, rfl, h'⟩ := (ends_sure opens (Nat.zero_le _)).exec_ok
  exact ⟨m', run, h'⟩

theorem parallel_fresh {sb : Superblock} {img img' : Buffer} (prepared : Prepared sb img)
    (prepared' : Prepared sb img') (accepted : FormatOptions.Accepted sb) (modified : UInt32)
    (agree : Buffer.AgreeOn (· < 1024 * (sb.firstDataZone.toNat + 1))
      (freshImage sb modified img) (freshImage sb modified img')) (output : Output) :
    Parallel sb
      ⟨freshImage sb modified img, Image.inode sb (freshImage sb modified img) 1, output⟩
      ⟨freshImage sb modified img', Image.inode sb (freshImage sb modified img') 1, output⟩ where
  consistent := consistent_fresh prepared accepted modified
  consistent' := consistent_fresh prepared' accepted modified
  header := (header_fresh prepared accepted modified).symm
  header' := (header_fresh prepared' accepted modified).symm
  root := rfl
  directory := by
    rw [inode_fresh prepared accepted modified, inode_fresh prepared' accepted modified]
  output := rfl
  images := agree.mono fun _ => lt_of_inUse prepared accepted modified

end Format

/-- Formatting and opening two disks of one size gives the same volume on both, whatever they held
before. From then on the same commands get the same answers and write the same output, and the
images differ nowhere but in data zones that are not in use. -/
theorem Volume.residue_never_shows {d : δ} {d' : δ'} (sound : ImageDisk.Sound d)
    (sound' : ImageDisk.Sound d')
    (size : (ImageDisk.image d).size = (ImageDisk.image d').size) (output : Output)
    (log log' : Log) {options : FormatOptions} {sb : Superblock}
    (layout : options.layout = .ok sb)
    (room : sb.zones.toNat * 1024 ≤ (ImageDisk.image d).size) (clock : Int64) (color : Bool) :
    ∃ m₁ m₁' v m₂ m₂',
      Mount.exec (Format.run options) { disk := d, output := output, log := log } = (.ok sb, m₁) ∧
      Mount.exec (Format.run options) { disk := d', output := output, log := log' }
        = (.ok sb, m₁') ∧
      Mount.exec (openDisk clock color) m₁ = (.ok v, m₂) ∧
      Mount.exec (openDisk clock color) m₁' = (.ok v, m₂') ∧
      ∀ commands : List (Int64 × Command),
        (v.runAll commands m₂).1 = (v.runAll commands m₂').1 ∧
        (v.runAll commands m₂).2.output = (v.runAll commands m₂').2.output ∧
        Image.SameInUse sb (ImageDisk.image (v.runAll commands m₂).2.disk)
          (ImageDisk.image (v.runAll commands m₂').2.disk) := by
  have accepted := FormatOptions.accepted_of_layout layout
  obtain ⟨m₁, img, run, prepared, h₁⟩ := Format.exec_run
    (m := { disk := d, output := output, log := log }) sound (ExactDisk.reliable sound) layout room
  obtain ⟨m₁', img', run', prepared', h₁'⟩ := Format.exec_run
    (m := { disk := d', output := output, log := log' }) sound' (ExactDisk.reliable sound') layout
    (size ▸ room)
  obtain ⟨m₂, opening, h₂⟩ := Format.exec_openFresh prepared accepted h₁ clock color
  obtain ⟨m₂', opening', h₂'⟩ := Format.exec_openFresh prepared' accepted h₁' clock color
  refine ⟨m₁, m₁', ⟨sb, sb.width, clock, color⟩, m₂, m₂', run, run', opening, opening', ?_⟩
  have start : Mount.Twins (Between (Buffer.AgreeOn fun _ => False)) Mount.AnyRoot
      ({ disk := d, output := output, log := log } : Mount δ)
      ({ disk := d', output := output, log := log' } : Mount δ') :=
    ⟨⟨sound, sound', size, fun _ h => h.elim⟩, rfl, rfl, trivial⟩
  obtain ⟨_, again, twins⟩ := Format.tracks_run layout _ _ _ _ start run
  rw [run'] at again
  cases again
  have images := twins.disk.images
  rw [h₁.image, h₁'.image] at images
  have parallel :=
    Format.parallel_fresh prepared prepared' accepted options.modified images output
  intro commands
  obtain ⟨answers, s, s', h, h', after⟩ := parallel.runAll
    (v := ⟨sb, sb.width, clock, color⟩) rfl accepted.zoneSize_le h₂ h₂' commands
  refine ⟨answers, h.output.trans (after.output.trans h'.output.symm), ?_⟩
  rw [h.image, h'.image]
  exact Image.sameInUse after.fits after.images

theorem Volume.residue_never_shows_small :
    ∃ (dirty : Buffer) (commands : List (Int64 × Command)) (sb : Superblock)
      (m₁ : Mount MemoryDisk) (m₁' : Mount PagedDisk) (v : Volume) (m₂ : Mount MemoryDisk)
      (m₂' : Mount PagedDisk),
      dirty = .ofBytes (List.replicate 8192 0xe5) ∧
      commands = [(7, .mkdir [0x61]), (8, .cat [0x61]), (9, .touch [0x62]), (9, .ls true)] ∧
      Mount.exec (Format.run { blocks := 8, inodes := 32 }) { disk := ⟨.zeros 8192⟩ }
        = (.ok sb, m₁) ∧
      Mount.exec (Format.run { blocks := 8, inodes := 32 }) { disk := .ofImage dirty }
        = (.ok sb, m₁') ∧
      Mount.exec (openDisk 0 false) m₁ = (.ok v, m₂) ∧
      Mount.exec (openDisk 0 false) m₁' = (.ok v, m₂') ∧
      (v.runAll commands m₂).1 = (v.runAll commands m₂').1 ∧
      (v.runAll commands m₂).2.output = (v.runAll commands m₂').2.output ∧
      Image.SameInUse sb (ImageDisk.image (v.runAll commands m₂).2.disk)
        (ImageDisk.image (v.runAll commands m₂').2.disk) := by
  obtain ⟨sb, b, layout, blank, room⟩ := Format.room_small
  have clean : b.size = 8192 := by rw [blank, Buffer.size_zeros]
  obtain ⟨dirty, hd⟩ : ∃ dirty, dirty = Buffer.ofBytes (List.replicate 8192 0xe5) := ⟨_, rfl⟩
  have size : dirty.size = 8192 := by
    rw [hd, Buffer.size_ofBytes, List.length_replicate]
  have short : dirty.size < sizeLimit := by
    rw [size]
    decide
  have holds := PagedDisk.holds_ofImage short
  have held : ImageDisk.image (PagedDisk.ofImage dirty) = dirty := holds.held_eq
  have sound : ImageDisk.Sound (PagedDisk.ofImage dirty) := by
    refine ⟨?_, ?_⟩
    · rw [show (PagedDisk.ofImage dirty).held = dirty from held]
      exact short
    · rw [show (PagedDisk.ofImage dirty).held = dirty from held]
      exact holds
  obtain ⟨m₁, m₁', v, m₂, m₂', run, run', opening, opening', same⟩ :=
    Volume.residue_never_shows (d := (⟨b⟩ : MemoryDisk)) (Format.sound_of_size room) sound
      (by rw [held, size]; exact clean) {} #[] #[] layout (Nat.le_of_eq room.symm) 0 false
  rw [blank] at run
  exact ⟨dirty, _, sb, m₁, m₁', v, m₂, m₂', hd, rfl, run, run', opening, opening', same _⟩

end MinixVolume

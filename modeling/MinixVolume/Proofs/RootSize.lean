import MinixVolume.Proofs.Obstacles

namespace MinixVolume

namespace Image

section

variable (sb : Superblock) (img : Buffer) (ip : Inode)

def capacity : Nat :=
  ip.zones.length * sb.zoneSize.toNat

/-- The size of a directory counts whole slots, covers every used one and stays in the zones. -/
structure SizeValid : Prop where
  multiple : sb.slotBytes ∣ ip.size.toNat
  covers : ∀ i, SlotUsed sb img ip i → (i + 1) * sb.slotBytes ≤ ip.size.toNat
  within : ip.size.toNat ≤ capacity sb ip

def Gapless : Prop :=
  ∀ i, (i + 1) * sb.slotBytes ≤ ip.size.toNat → SlotUsed sb img ip i

end

/-- What the size of the root directory comes to with `n` more entries, in a word of any length. -/
def grownSize (img₀ : Buffer) (n : Nat) : Nat :=
  (inode (header img₀) img₀ 1).size.toNat + n * (header img₀).slotBytes

structure Resized (img₀ : Buffer) (n : Nat) (img : Buffer) (root : Inode) : Prop where
  stored : inode (header img₀) img 1 = root
  zones : root.zones = (inode (header img₀) img₀ 1).zones
  size : root.size.toNat = grownSize img₀ n % 4294967296
  multiple : (header img₀).slotBytes ∣ root.size.toNat
  covers : grownSize img₀ n < 4294967296 →
    ∀ i, SlotUsed (header img₀) img root i → (i + 1) * (header img₀).slotBytes ≤ root.size.toNat
  valid_iff : grownSize img₀ n < 4294967296 → (SizeValid (header img₀) img root ↔
    grownSize img₀ n ≤ capacity (header img₀) (inode (header img₀) img₀ 1))
  valid_of_gapless : grownSize img₀ n < 4294967296 →
    Gapless (header img₀) img₀ (inode (header img₀) img₀ 1) → SizeValid (header img₀) img root

variable {sb : Superblock} {img img₀ : Buffer} {ip : Inode} {s : Scene} {cs : List Creation}

theorem grownSize_zero : grownSize img₀ 0 = (inode (header img₀) img₀ 1).size.toNat := by
  rw [grownSize, Nat.zero_mul, Nat.add_zero]

theorem grownSize_succ (n : Nat) :
    grownSize img₀ (n + 1) = grownSize img₀ n + (header img₀).slotBytes := by
  rw [grownSize, grownSize, Nat.succ_mul, Nat.add_assoc]

theorem SlotUsed.end_le {size : Nat} (hf : sb.Fits size) {i : Nat} (used : SlotUsed sb img ip i) :
    (i + 1) * sb.slotBytes ≤ capacity sb ip := by
  have le := Nat.mul_le_mul_right sb.slotBytes (Nat.succ_le_of_lt used.lt)
  rwa [Nat.mul_assoc, hf.slots_mul_slotBytes] at le

theorem le_capacity {size : Nat} (hf : sb.Fits size) {n : Nat} (multiple : sb.slotBytes ∣ n)
    (used : ∀ i, (i + 1) * sb.slotBytes ≤ n → SlotUsed sb img ip i) : n ≤ capacity sb ip := by
  obtain ⟨k, rfl⟩ := multiple
  rw [Nat.mul_comm] at used ⊢
  cases k with
  | zero =>
      rw [Nat.zero_mul]
      exact Nat.zero_le _
  | succ k => exact (used k (Nat.le_refl _)).end_le hf

theorem sizeValid_of_full {size : Nat} (hf : sb.Fits size)
    (full : ip.size.toNat = capacity sb ip) : SizeValid sb img ip := by
  refine ⟨?_, ?_, Nat.le_of_eq full⟩
  · rw [full, capacity, ← hf.slots_mul_slotBytes, ← Nat.mul_assoc]
    exact Nat.dvd_mul_left _ _
  · intro i used
    rw [full]
    exact used.end_le hf

theorem Resized.not_sizeValid_of_full {root : Inode} (h : Resized img₀ 1 img root)
    (full : (inode (header img₀) img₀ 1).size.toNat
      = capacity (header img₀) (inode (header img₀) img₀ 1))
    (small : capacity (header img₀) (inode (header img₀) img₀ 1) + (header img₀).slotBytes
      < 4294967296) : ¬ SizeValid (header img₀) img root := by
  have wide := (header img₀).slotBytes_cases
  have total : grownSize img₀ 1 = capacity (header img₀) (inode (header img₀) img₀ 1)
      + (header img₀).slotBytes := by
    rw [grownSize_succ, grownSize_zero, full]
  rw [h.valid_iff (by omega)]
  omega

/-- Every entry is below what the size comes to, and if it was so before, every empty slot is not.
This is kept apart from the word that records the size, which may be too short for it. -/
structure Sized (img₀ : Buffer) (cs : List Creation) (s : Scene) : Prop
    extends Grown img₀ cs s where
  size : s.directory.size.toNat = grownSize img₀ cs.length % 4294967296
  covers : ∀ i, SlotUsed (header img₀) s.image s.directory i →
    (i + 1) * (header img₀).slotBytes ≤ grownSize img₀ cs.length
  gapless : Gapless (header img₀) img₀ (inode (header img₀) img₀ 1) →
    ∀ i, (i + 1) * (header img₀).slotBytes ≤ grownSize img₀ cs.length →
      SlotUsed (header img₀) s.image s.directory i

namespace Sized

theorem refl (orderly : Orderly img₀)
    (valid : SizeValid (header img₀) img₀ (inode (header img₀) img₀ 1)) (output : Output) :
    Sized img₀ [] (Volume.opened img₀ output) := by
  refine ⟨Grown.refl orderly rfl rfl, ?_, ?_, ?_⟩ <;> rw [List.length_nil, grownSize_zero]
  · exact (Nat.mod_eq_of_lt (inode (header img₀) img₀ 1).size.toNat_lt).symm
  · exact valid.covers
  · exact id

variable (h : Sized img₀ cs s) (orderly : Orderly img₀)
include h orderly

theorem enter {v : Volume} (superblock : v.superblock = header img₀) {r : Request} {c : Creation}
    {z : UInt64} {k : Nat} (planned : v.RequestPlan r s.directory c)
    (fresh : c.Fresh (header img₀) s)
    (first : FirstSlot (header img₀) s.image s.directory.zones z k) :
    Sized img₀ (cs ++ [c]) { s with
      image := Update.applyAll (header img₀) s.image (c.entering (header img₀) z k (some c.root))
      directory := c.root } := by
  have cases := planned.cases.imp And.left And.left
  have genuine := Volume.genuine_of_plan cases
  have size := Creation.toNat_size_root cases
  rw [show Volume.superblock _ = header img₀ from superblock] at genuine size
  have grown := h.toGrown.enter orderly fresh first.toFreeSlot (some c.root) genuine.1 (by
    rintro ip ⟨⟩
    exact genuine.2)
  obtain ⟨new, below, free, used⟩ := first.slotUsed_entering fresh (h.fits orderly)
    (h.zones_used orderly) (h.zones_nodup orderly) (some c.root)
  -- the slot before the new one is used, so the size reaches up to the new one
  have reached : new * (header img₀).slotBytes ≤ grownSize img₀ cs.length := by
    cases new with
    | zero =>
        rw [Nat.zero_mul]
        exact Nat.zero_le _
    | succ j => exact h.covers j (below j (Nat.lt_succ_self j))
  have length : grownSize img₀ (cs ++ [c]).length
      = grownSize img₀ cs.length + (header img₀).slotBytes := by
    rw [List.length_append, List.length_singleton, grownSize_succ]
  refine ⟨grown, ?_, ?_, ?_⟩ <;> rw [length]
  · rw [size, h.size, Nat.mod_add_mod]
  · intro j hj
    rcases (used j).mp ((slotUsed_of_zones genuine.2.1).mp hj) with rfl | old
    · rw [Nat.succ_mul]
      exact Nat.add_le_add_right reached _
    · exact Nat.le_trans (h.covers j old) (Nat.le_add_right _ _)
  · intro gapless j hj
    refine (slotUsed_of_zones genuine.2.1).mpr ((used j).mpr ?_)
    by_cases old : (j + 1) * (header img₀).slotBytes ≤ grownSize img₀ cs.length
    · exact .inr (h.gapless gapless j old)
    · have last : j * (header img₀).slotBytes ≤ grownSize img₀ cs.length := by
        rw [Nat.succ_mul] at hj
        omega
      have beyond := Nat.lt_of_not_le (mt (h.gapless gapless new) free)
      left
      rw [← Nat.div_eq_of_lt_le last (Nat.lt_of_not_le old), Nat.div_eq_of_lt_le reached beyond]

theorem keep {c : Creation} {slot : Option (UInt64 × Nat)} {us back : List Update}
    (fresh : c.Fresh (header img₀) s) (attempted : Attempted (header img₀) s c slot us)
    (given : back ⊆ releases c.number.toNat c.zone) :
    Sized img₀ cs { s with image := Update.applyAll (header img₀) s.image (us ++ back) } := by
  have fits := h.fits orderly
  have zones := h.zones_used orderly
  have used {j : Nat} : SlotUsed (header img₀) (Update.applyAll (header img₀) s.image (us ++ back))
      s.directory j ↔ SlotUsed (header img₀) s.image s.directory j := by
    apply slotUsed_congr
    intro z hz
    obtain same | ⟨k, lt, free, cleared⟩ := attempted.rootZone fresh given zones fits hz
    · rw [same]
    · rw [cleared, slotsOf, slotsOf, List.map_map, List.map_map]
      apply List.map_congr_left
      intro j _
      have entry := slotEntry_splice (size_zone (fits.zoneEnd_le (zones z hz).1))
        (Buffer.size_zeros (header img₀).slotBytes) lt j
      rw [Function.comp_apply, Function.comp_apply, entry]
      split
      next same => rw [same, free, Entry.ofSlot_zeros]
      next => rfl
  exact ⟨h.toGrown.keep orderly fresh attempted given, h.size, fun i hi => h.covers i (used.mp hi),
    fun gapless i hi => used.mpr (h.gapless gapless i hi)⟩

theorem resized (multiple : (header img₀).slotBytes ∣ (inode (header img₀) img₀ 1).size.toNat) :
    Resized img₀ cs.length s.image s.directory := by
  have divides : (header img₀).slotBytes ∣ grownSize img₀ cs.length :=
    Nat.dvd_add multiple (Nat.dvd_mul_left _ _)
  have word : (header img₀).slotBytes ∣ 4294967296 := by
    rcases (header img₀).slotBytes_cases with e | e
    · rw [e]
      decide
    · rw [e]
      decide
  have exact (small : grownSize img₀ cs.length < 4294967296) :
      s.directory.size.toNat = grownSize img₀ cs.length := by
    rw [h.size, Nat.mod_eq_of_lt small]
  have multiple' : (header img₀).slotBytes ∣ s.directory.size.toNat := by
    rw [h.size]
    exact (Nat.dvd_mod_iff word).mpr divides
  have covers (small : grownSize img₀ cs.length < 4294967296) (i : Nat)
      (used : SlotUsed (header img₀) s.image s.directory i) :
      (i + 1) * (header img₀).slotBytes ≤ s.directory.size.toNat := by
    rw [exact small]
    exact h.covers i used
  have capacity_eq : capacity (header img₀) s.directory
      = capacity (header img₀) (inode (header img₀) img₀ 1) := by
    rw [capacity, capacity, h.root_zones]
  have valid_iff (small : grownSize img₀ cs.length < 4294967296) :
      SizeValid (header img₀) s.image s.directory ↔
        grownSize img₀ cs.length ≤ capacity (header img₀) (inode (header img₀) img₀ 1) := by
    rw [← exact small, ← capacity_eq]
    exact ⟨SizeValid.within, fun within => ⟨multiple', covers small, within⟩⟩
  refine ⟨h.directory.symm, h.root_zones, h.size, multiple', covers, valid_iff, ?_⟩
  intro small gapless
  rw [valid_iff small, ← capacity_eq]
  exact le_capacity (h.fits orderly) divides (h.gapless gapless)

section Run

variable {δ : Type} [Disk δ] [ImageDisk δ] {m : Mount δ} (shows : m.Shows True s) {v : Volume}
  (superblock : v.superblock = header img₀) (width : v.nameWidth = v.superblock.width)
include shows superblock width

theorem exec_create_ok {r : Request} {number : UInt64} {m' : Mount δ}
    (run : Mount.exec (v.create r) m = (.ok number, m')) :
    ∃ c s', m'.Shows True s' ∧ Sized img₀ (cs ++ [c]) s' := by
  rcases (Volume.ends_create shows (h.ready orderly superblock width) r).exec_eq with
    ⟨i, m₁, run', s', shows', outcome⟩ | ⟨t, m₁, run', -⟩
  · rw [run] at run'
    cases run'
    rw [superblock] at outcome
    cases outcome with
    | @made c z k _ planned fresh first =>
        exact ⟨c, _, shows', h.enter orderly superblock planned fresh first⟩
  · rw [run] at run'
    cases run'

theorem exec_create_error {r : Request} {e : Error} {m' : Mount δ}
    (run : Mount.exec (v.create r) m = (.error (.error e), m')) :
    ∃ s', m'.Shows True s' ∧ Sized img₀ cs s' := by
  rcases (Volume.ends_create shows (h.ready orderly superblock width) r).exec_eq with
    ⟨i, m₁, run', -⟩ | ⟨t, m₁, run', s', shows', outcome⟩
  · rw [run] at run'
    cases run'
  · rw [run] at run'
    cases run'
    rw [superblock] at outcome
    refine ⟨s', shows', ?_⟩
    cases outcome with
    | refused _ => exact h
    | left _ _ _ _ failing => exact absurd trivial failing
    | undone _ fresh attempted _ given => exact h.keep orderly fresh attempted given.subset

end Run

end Sized

end Image

namespace Volume

variable {δ : Type} [Disk δ]

inductive Creates (v : Volume) (m : Mount δ) : Nat → Mount δ → Prop
  | none : Creates v m 0 m
  | made {n : Nat} {m₁ m₂ : Mount δ} {r : Request} {number : UInt64} : Creates v m n m₁ →
      Mount.exec (v.create r) m₁ = (.ok number, m₂) → Creates v m (n + 1) m₂
  | failed {n : Nat} {m₁ m₂ : Mount δ} {r : Request} {e : Error} : Creates v m n m₁ →
      Mount.exec (v.create r) m₁ = (.error (.error e), m₂) → Creates v m n m₂

variable [ImageDisk δ]

theorem Creates.sized {img : Buffer} {s : Scene} (start : Image.Sized img [] s)
    (orderly : Image.Orderly img) {v : Volume} (superblock : v.superblock = Image.header img)
    (width : v.nameWidth = v.superblock.width) {m m' : Mount δ} (shows : m.Shows True s) {n : Nat}
    (run : v.Creates m n m') :
    ∃ cs s', cs.length = n ∧ m'.Shows True s' ∧ Image.Sized img cs s' := by
  induction run with
  | none => exact ⟨[], s, rfl, shows, start⟩
  | made _ step ih =>
      obtain ⟨cs, s₁, rfl, shows₁, sized⟩ := ih
      obtain ⟨c, s₂, shows₂, sized₂⟩ :=
        sized.exec_create_ok orderly shows₁ superblock width step
      exact ⟨cs ++ [c], s₂, by simp, shows₂, sized₂⟩
  | failed _ step ih =>
      obtain ⟨cs, s₁, length, shows₁, sized⟩ := ih
      obtain ⟨s₂, shows₂, sized₂⟩ := sized.exec_create_error orderly shows₁ superblock width step
      exact ⟨cs, s₂, length, shows₂, sized₂⟩

theorem IsOpen.resized {v : Volume} {img : Buffer} {m m' : Mount δ} (h : v.IsOpen img m)
    (sound : ImageDisk.Sound m.disk) (reliable : ImageDisk.Reliable m.disk)
    (orderly : Image.Orderly img)
    (valid : Image.SizeValid (Image.header img) img (Image.inode (Image.header img) img 1))
    {n : Nat} (run : v.Creates m n m') :
    Image.Resized img n (ImageDisk.image m'.disk) m'.directory := by
  have start := Image.Sized.refl orderly valid m.output
  obtain ⟨cs, s, rfl, shows, sized⟩ :=
    run.sized start orderly h.superblock h.width (h.shows sound reliable)
  rw [shows.image, shows.directory]
  exact sized.resized orderly valid.multiple

end Volume

namespace Image.Stocked

variable {img₀ : Buffer} {cs : List Creation} {s : Scene} (h : Stocked img₀ cs s)
include h

theorem slotUsed_iff {i : Nat} :
    SlotUsed (header img₀) s.image s.directory i ↔ i < 2 + cs.length := by
  have length := length_packed cs
  have room := h.packed.room
  rw [slotUsed_of_single h.root_zone, ← length]
  constructor
  · rintro ⟨lt, used⟩
    by_contra behind
    exact used (h.packed.free i (Nat.le_of_not_lt behind) lt)
  · intro lt
    exact ⟨Nat.lt_of_lt_of_le lt room, h.packed.used_nonzero lt⟩

theorem gapless : Gapless (header img₀) s.image s.directory := by
  intro i le
  rw [h.size] at le
  exact h.slotUsed_iff.mpr (Nat.le_of_mul_le_mul_right le (by
    have := (header img₀).slotBytes_cases
    omega))

theorem sizeValid (orderly : Orderly img₀) : SizeValid (header img₀) s.image s.directory := by
  have multiple : (header img₀).slotBytes ∣ s.directory.size.toNat := by
    rw [h.size]
    exact Nat.dvd_mul_left _ _
  refine ⟨multiple, ?_, le_capacity (h.fits orderly) multiple h.gapless⟩
  intro i used
  rw [h.size]
  exact Nat.mul_le_mul_right _ (h.slotUsed_iff.mp used)

end Image.Stocked

namespace Inode

def withSize (ip : Inode) (size : UInt32) : Inode :=
  { ip with size := size }

variable (ip : Inode) (size : UInt32)

@[simp] theorem size_withSize : (ip.withSize size).size = size := rfl

@[simp] theorem zones_withSize : (ip.withSize size).zones = ip.zones := rfl

@[simp] theorem mode_withSize : (ip.withSize size).mode = ip.mode := rfl

@[simp] theorem links_withSize : (ip.withSize size).links = ip.links := rfl

end Inode

namespace Image

def withRootSize (img : Buffer) (size : UInt32) : Buffer :=
  (Update.inode 1 ((inode (header img) img 1).withSize size)).apply (header img) img

section WithRootSize

variable {img : Buffer} (orderly : Orderly img) (size : UInt32)
include orderly

theorem valid_rootSize :
    (Update.inode 1 ((inode (header img) img 1).withSize size)).Valid (header img) :=
  ⟨Nat.le_refl 1, orderly.fits.inodes_pos⟩

theorem header_withRootSize : header (withRootSize img size) = header img :=
  Update.header_apply (valid_rootSize orderly size) orderly.fits

theorem inodeUsed_withRootSize {n : Nat} (hn : (header img).IsInode n) :
    inodeUsed (header img) (withRootSize img size) n = inodeUsed (header img) img n :=
  Update.inodeUsed_apply (valid_rootSize orderly size) orderly.fits
    (Nat.lt_of_le_of_lt hn.2 orderly.fits.inodes_lt)

theorem zoneUsed_withRootSize {z : UInt64} (hz : (header img).IsDataZone z) :
    zoneUsed (header img) (withRootSize img size) z = zoneUsed (header img) img z :=
  Update.zoneUsed_apply (valid_rootSize orderly size) orderly.fits hz

theorem zone_withRootSize {z : UInt64} (hz : (header img).IsDataZone z) :
    zone (header img) (withRootSize img size) z = zone (header img) img z :=
  Update.zone_apply (valid_rootSize orderly size) orderly.fits hz

theorem inode_withRootSize {n : Nat} (hn : (header img).IsInode n) :
    inode (header img) (withRootSize img size) n
      = if n = 1 then (inode (header img) img 1).withSize size
        else inode (header img) img n := by
  have record : record (header img) (withRootSize img size) n = if n = 1 then _ else _ :=
    Update.record_apply (valid_rootSize orderly size) orderly.fits hn
  split
  next one =>
      rw [if_pos one] at record
      exact inode_of_record record
  next other =>
      rw [if_neg other] at record
      exact inode_congr record

theorem root_withRootSize :
    inode (header img) (withRootSize img size) 1 = (inode (header img) img 1).withSize size := by
  rw [inode_withRootSize orderly size ⟨Nat.le_refl 1, orderly.fits.inodes_pos⟩, if_pos rfl]

theorem full_withRootSize
    (full : size.toNat = capacity (header img) (inode (header img) img 1)) :
    (inode (header img) (withRootSize img size) 1).size.toNat
      = capacity (header img) (inode (header img) (withRootSize img size) 1) := by
  rw [root_withRootSize orderly size, capacity, Inode.zones_withSize, Inode.size_withSize]
  exact full

theorem entries_withRootSize {n : Nat} (hn : n ∈ usedInodes (header img) img) :
    entries (header img) (withRootSize img size) (inode (header img) img n)
      = entries (header img) img (inode (header img) img n) := by
  apply entries_congr
  intro z hz
  rw [zone_withRootSize orderly size (orderly.zone_used hn hz).1]

theorem slotList_withRootSize :
    slotList (header img) (withRootSize img size) (inode (header img) img 1)
      = slotList (header img) img (inode (header img) img 1) := by
  apply List.flatMap_congr
  intro z hz
  rw [zone_withRootSize orderly size (orderly.zone_used orderly.one_mem hz).1]

end WithRootSize

theorem Consistent.withRootSize {img : Buffer} (h : Consistent img) (size : UInt32) :
    Consistent (withRootSize img size) := by
  have orderly := h.toOrderly
  refine h.congr (header_withRootSize orderly size)
    (Update.size_apply (valid_rootSize orderly size) h.fits) ?_ ?_ ?_ ?_
  · apply List.filter_congr
    intro n hn
    have range := List.mem_range'_1.mp hn
    exact inodeUsed_withRootSize orderly size ⟨range.1, by omega⟩
  · intro n hn
    by_cases one : n = 1
    · rw [one, root_withRootSize orderly size]
      simp
    · rw [inode_withRootSize orderly size (mem_usedInodes.mp hn).1, if_neg one]
      exact ⟨rfl, rfl, rfl⟩
  · intro z hz
    obtain ⟨isZone, used⟩ := h.zones_used z hz
    rw [zoneUsed_withRootSize orderly size isZone]
    exact used
  · intro n hn
    exact entries_withRootSize orderly size (List.mem_filter.mp hn).1

end Image

theorem Obstacle.first_withRootSize {img : Buffer} (orderly : Image.Orderly img) (size : UInt32)
    (r : Request) :
    first (Image.header img) (Image.withRootSize img size)
        (Image.inode (Image.header img) (Image.withRootSize img size) 1) r
      = first (Image.header img) img (Image.inode (Image.header img) img 1) r := by
  have root := Image.root_withRootSize orderly size
  have zones : (Image.inode (Image.header img) (Image.withRootSize img size) 1).zones
      = (Image.inode (Image.header img) img 1).zones := by
    rw [root, Inode.zones_withSize]
  refine first_congr zones ?_ ?_ (by rw [root, Inode.links_withSize])
    (fun n hn => Image.inodeUsed_withRootSize orderly size hn)
    (fun z hz => Image.zoneUsed_withRootSize orderly size hz) r
  · rw [Image.entries_of_zones zones]
    exact Image.entries_withRootSize orderly size orderly.one_mem
  · rw [Image.slotList_of_zones zones]
    exact Image.slotList_withRootSize orderly size

namespace Volume

variable {δ : Type} [Disk δ] [ImageDisk δ]

theorem exec_create_beyond {m₀ : Mount δ} (sound : ImageDisk.Sound m₀.disk)
    (reliable : ImageDisk.Reliable m₀.disk) {img : Buffer} {size : UInt32}
    (image : ImageDisk.image m₀.disk = Image.withRootSize img size)
    (consistent : Image.Consistent img)
    (full : size.toNat
      = Image.capacity (Image.header img) (Image.inode (Image.header img) img 1))
    (small : size.toNat + (Image.header img).slotBytes < 4294967296) {r : Request}
    (clear : Obstacle.first (Image.header img) img (Image.inode (Image.header img) img 1) r = none)
    (clock : Int64) (color : Bool) :
    ∃ v m number m', Image.Consistent (ImageDisk.image m₀.disk) ∧
      Image.SizeValid (Image.header img) (ImageDisk.image m₀.disk)
        (Image.inode (Image.header img) (ImageDisk.image m₀.disk) 1) ∧
      Mount.exec (openDisk clock color) m₀ = (.ok v, m) ∧
      Mount.exec (v.create r) m = (.ok number, m') ∧
      ¬ Image.SizeValid (Image.header img) (ImageDisk.image m'.disk)
        (Image.inode (Image.header img) (ImageDisk.image m'.disk) 1) := by
  have header := Image.header_withRootSize consistent.toOrderly size
  have root := Image.root_withRootSize consistent.toOrderly size
  have consistent' := consistent.withRootSize size
  have orderly' := consistent'.toOrderly
  have full' := Image.full_withRootSize consistent.toOrderly size full
  have valid : Image.SizeValid (Image.header img) (Image.withRootSize img size)
      (Image.inode (Image.header img) (Image.withRootSize img size) 1) :=
    Image.sizeValid_of_full (header ▸ orderly'.fits) full'
  obtain ⟨v, m, opening, isOpen, sound', reliable'⟩ :=
    exec_openDisk sound reliable (by rw [image]; exact orderly'.fits) clock color
  rw [image] at isOpen
  have shows := isOpen.shows sound' reliable'
  have start := Image.Grown.refl orderly' (s := opened _ m.output) rfl rfl
  have exact := start.exec_create_exact orderly' shows isOpen.superblock isOpen.width r
  rw [isOpen.superblock, isOpen.image, isOpen.directory, header,
    Obstacle.first_withRootSize consistent.toOrderly, clear] at exact
  obtain ⟨c, m', met⟩ := exact
  have resized := isOpen.resized sound' reliable' orderly' (by rw [header]; exact valid)
    (.made .none met.answer)
  have beyond := resized.not_sizeValid_of_full (by rw [header]; exact full')
  rw [header] at beyond
  refine ⟨v, m, c.number, m', ?_, ?_, opening, met.answer, ?_⟩
  · rw [image]
    exact consistent'
  · rw [image]
    exact valid
  · have stored := resized.stored
    rw [header] at stored
    rw [stored]
    refine beyond ?_
    rw [← full', root, Inode.size_withSize]
    exact small

theorem size_of_creates {m₀ : Mount δ} (sound : ImageDisk.Sound m₀.disk)
    (reliable : ImageDisk.Reliable m₀.disk) (orderly : Image.Orderly (ImageDisk.image m₀.disk))
    (valid : Image.SizeValid (Image.header (ImageDisk.image m₀.disk)) (ImageDisk.image m₀.disk)
      (Image.inode (Image.header (ImageDisk.image m₀.disk)) (ImageDisk.image m₀.disk) 1))
    (clock : Int64) (color : Bool) :
    ∃ v m, Mount.exec (openDisk clock color) m₀ = (.ok v, m) ∧
      v.IsOpen (ImageDisk.image m₀.disk) m ∧
      ∀ n m', v.Creates m n m' →
        Image.Resized (ImageDisk.image m₀.disk) n (ImageDisk.image m'.disk) m'.directory := by
  obtain ⟨v, m, opening, isOpen, sound', reliable'⟩ :=
    exec_openDisk sound reliable orderly.fits clock color
  refine ⟨v, m, opening, isOpen, ?_⟩
  intro n m' run
  exact isOpen.resized sound' reliable' orderly valid run

theorem size_of_creates_small :
    ∃ sb m₁ v m m', Mount.exec (Format.run { blocks := 8, inodes := 32 })
        (⟨⟨Buffer.zeros 8192⟩, {}, {}, #[]⟩ : Mount MemoryDisk) = (.ok sb, m₁) ∧
      Mount.exec (openDisk 0 false) m₁ = (.ok v, m) ∧
      Image.SizeValid sb (ImageDisk.image m.disk) m.directory ∧ v.Creates m 1 m' ∧
      Image.SizeValid sb (ImageDisk.image m'.disk) m'.directory ∧
      m'.directory.size.toNat = 3 * sb.slotBytes := by
  obtain ⟨sb, m₁, accepted, inodes, -, wide, slots, formatted, inOrder, header, stocked⟩ :=
    Format.stocked_small
  have orderly := inOrder.consistent.toOrderly
  have valid := (stocked m₁.output).sizeValid orderly
  obtain ⟨v, m, opening, isOpen, resized⟩ :=
    size_of_creates inOrder.sound trivial orderly valid 0 false
  have admitted : Request.Admitted sb (List.map Creation.item []) ⟨7, .file, [0x61]⟩ :=
    ⟨by decide, by decide, wide, by decide, inodes, slots, fun h => nomatch h⟩
  rw [← header] at accepted admitted
  obtain ⟨number, m', run⟩ := ((stocked m.output).next_iff orderly accepted
    (isOpen.shows (isOpen.sound inOrder.sound) trivial) isOpen.superblock isOpen.width _).mpr
    admitted
  have creates : v.Creates m 1 m' := .made .none run
  have after := resized 1 m' creates
  have total : Image.grownSize (ImageDisk.image m₁.disk) 1
      = 3 * (Image.header (ImageDisk.image m₁.disk)).slotBytes := by
    rw [Image.grownSize_succ, Image.grownSize_zero]
    have size := (stocked m₁.output).size
    change (Image.inode _ _ 1).size.toNat = (2 + 0) * _ at size
    omega
  have small : Image.grownSize (ImageDisk.image m₁.disk) 1 < 4294967296 := by
    have := (Image.header (ImageDisk.image m₁.disk)).slotBytes_cases
    omega
  refine ⟨sb, m₁, v, m, m', formatted, opening, ?_, creates, ?_, ?_⟩ <;> rw [← header]
  · rw [isOpen.image, isOpen.directory]
    exact valid
  · exact after.valid_of_gapless small (stocked m₁.output).gapless
  · rw [after.size, Nat.mod_eq_of_lt small, total]

theorem size_beyond_capacity :
    ∃ sb m₁ m₂ v m number m', Mount.exec (Format.run { blocks := 8, inodes := 32 })
        (⟨⟨Buffer.zeros 8192⟩, {}, {}, #[]⟩ : Mount MemoryDisk) = (.ok sb, m₁) ∧
      Mount.exec (Inode.store sb.inodeTableStart 1
        ((Image.inode sb (ImageDisk.image m₁.disk) 1).withSize 1024)) m₁ = (.ok (), m₂) ∧
      Image.Consistent (ImageDisk.image m₂.disk) ∧
      Image.SizeValid sb (ImageDisk.image m₂.disk)
        (Image.inode sb (ImageDisk.image m₂.disk) 1) ∧
      Mount.exec (openDisk 0 false) m₂ = (.ok v, m) ∧
      Mount.exec (v.create ⟨0, .file, [0x61]⟩) m = (.ok number, m') ∧
      ¬ Image.SizeValid sb (ImageDisk.image m'.disk)
        (Image.inode sb (ImageDisk.image m'.disk) 1) := by
  obtain ⟨sb, m₁, accepted, inodes, -, wide, slots, formatted, inOrder, rfl, stocked⟩ :=
    Format.stocked_small
  have orderly := inOrder.consistent.toOrderly
  have admitted : Request.Admitted (Image.header (ImageDisk.image m₁.disk))
      (List.map Creation.item []) ⟨0, .file, [0x61]⟩ :=
    ⟨by decide, by decide, wide, by decide, inodes, slots, fun h => nomatch h⟩
  -- the create goes well on the volume as it is, and a larger size does not hinder it
  obtain ⟨v₁, n₁, -, isOpen₁, -⟩ := exec_openDisk inOrder.sound trivial orderly.fits 0 false
  have shows₁ := isOpen₁.shows (isOpen₁.sound inOrder.sound) trivial
  obtain ⟨_, _, run₁⟩ := ((stocked n₁.output).next_iff orderly accepted shows₁ isOpen₁.superblock
    isOpen₁.width _).mpr admitted
  have clear := (stocked n₁.output).first_eq_none orderly shows₁ isOpen₁.superblock isOpen₁.width
    run₁
  rw [isOpen₁.superblock, isOpen₁.image, isOpen₁.directory] at clear
  have store := Mount.ends_sure (Inode.ends_store (Mount.shows_scene inOrder.sound trivial)
    orderly.fits (n := 1) ⟨Nat.le_refl 1, orderly.fits.inodes_pos⟩
    ((Image.inode (Image.header (ImageDisk.image m₁.disk)) (ImageDisk.image m₁.disk)
      1).withSize 1024)) (Nat.zero_le _)
  obtain ⟨_, m₂, stored, h₂⟩ := store.exec_ok
  have full : (1024 : UInt32).toNat = Image.capacity (Image.header (ImageDisk.image m₁.disk))
      (Image.inode (Image.header (ImageDisk.image m₁.disk)) (ImageDisk.image m₁.disk) 1) := by
    have zones : (Image.inode (Image.header (ImageDisk.image m₁.disk)) (ImageDisk.image m₁.disk)
        1).zones = _ := (stocked m₁.output).root_zone
    rw [Image.capacity, zones, accepted.zoneSize_eq, List.length_singleton, Nat.one_mul]
    decide
  have small : (1024 : UInt32).toNat + (Image.header (ImageDisk.image m₁.disk)).slotBytes
      < 4294967296 := by
    rcases (Image.header (ImageDisk.image m₁.disk)).slotBytes_cases with e | e
    · rw [e]
      decide
    · rw [e]
      decide
  obtain ⟨v, m, number, m', rest⟩ := exec_create_beyond h₂.sound trivial h₂.image
    inOrder.consistent full small clear 0 false
  exact ⟨_, m₁, m₂, v, m, number, m', formatted, stored, rest⟩

end Volume

end MinixVolume

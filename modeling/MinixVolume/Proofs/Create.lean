import MinixVolume.Proofs.Directory
import MinixVolume.Proofs.Rollback

namespace MinixVolume

/-- A name that a new entry of the root directory can have. That it is a new one is seen by reading
the directory. -/
structure NewName (sb : Superblock) (s : Scene) (name : Bytes) : Prop where
  nonempty : name ≠ []
  plain : 0x2f ∉ name ∧ 0 ∉ name
  short : name.length ≤ sb.width.toNat
  readable : Directory.need sb s.directory ≤ Word.largestBuffer.toNat
  fresh : name ∉ (Image.entries sb s.image s.directory).map (·.name)

/-- What a create is about to make: a numbered inode, its entry in the root directory, for a
directory a zone of its own, and the root inode as it will be. -/
structure Creation where
  number : UInt64
  name : Bytes
  record : Inode
  zone : Option UInt64
  block : Buffer
  root : Inode

namespace Creation

def entry (c : Creation) : Entry :=
  ⟨c.number, c.name⟩

/-- Nothing is taken but an inode, whose record tells of no zones. -/
def Bare (c : Creation) : Prop :=
  c.zone = none ∧ c.record.zones = []

@[simp] theorem inode_entry (c : Creation) : c.entry.inode = c.number := rfl

def steps (c : Creation) : List Update :=
  .inodeBit c.number.toNat true :: (c.zone.map (.zoneBit · true)).toList
    ++ (c.zone.map (.zone · c.block)).toList ++ [.inode c.number.toNat c.record]

def entered (sb : Superblock) (c : Creation) (z : UInt64) (k : Nat) : List Update :=
  c.steps ++ [.slot z k (c.entry.slotData sb)]

def Buildable (sb : Superblock) (c : Creation) : Prop :=
  ∀ z ∈ c.zone, sb.zoneSize.toNat ≤ Word.largestBuffer.toNat

structure Fresh (sb : Superblock) (s : Scene) (c : Creation) : Prop where
  name : NewName sb s c.name
  isInode : sb.IsInode c.number.toNat
  free : Image.inodeUsed sb s.image c.number.toNat = false
  least : ∀ j, 1 ≤ j → j < c.number.toNat → Image.inodeUsed sb s.image j = true
  zone : ∀ z ∈ c.zone, sb.IsDataZone z ∧ Image.zoneUsed sb s.image z = false ∧
    c.block.size = sb.zoneSize.toNat ∧
    ∀ z', sb.IsDataZone z' → z'.toNat < z.toNat → Image.zoneUsed sb s.image z' = true

def file (v : Volume) (name : Bytes) (root : Inode) (number : UInt64) : Creation where
  number := number
  name := name
  record := { mode := Volume.fileMode, links := 1, modified := v.timestamp }
  zone := none
  block := .empty
  root := Directory.grown v.superblock root

def directory (v : Volume) (name : Bytes) (root : Inode) (number zone : UInt64) : Creation where
  number := number
  name := name
  record :=
    { mode := Volume.directoryMode
      links := 2
      modified := v.timestamp
      size := (2 * Entry.slotSize v.superblock.width).toUInt32
      zone := Inode.oneZone zone.toUInt16 }
  zone := some zone
  block := Image.newZone v.superblock number
  root := Directory.grown v.superblock (Volume.link root)

variable {sb : Superblock} {s : Scene} {c : Creation}

theorem allocations_prefix {z : UInt64} (hz : c.zone = some z) :
    [.inodeBit c.number.toNat true, .zoneBit z true] <+: c.steps := by
  rw [steps, hz]
  exact ⟨_, rfl⟩

theorem mem_steps {u : Update} (h : u ∈ c.steps) :
    u = .inodeBit c.number.toNat true ∨ (∃ z ∈ c.zone, u = .zoneBit z true) ∨
      (∃ z ∈ c.zone, u = .zone z c.block) ∨ u = .inode c.number.toNat c.record := by
  obtain ⟨number, name, record, zone, block, root⟩ := c
  cases zone with
  | none => simpa [steps] using h
  | some z => simpa [steps] using h

theorem Fresh.valid_steps (h : c.Fresh sb s) : ∀ u ∈ c.steps, u.Valid sb := by
  intro u hu
  rcases mem_steps hu with rfl | ⟨z, hz, rfl⟩ | ⟨z, hz, rfl⟩ | rfl
  · exact h.isInode
  · exact (h.zone z hz).1
  · exact ⟨(h.zone z hz).1, (h.zone z hz).2.2.1⟩
  · exact h.isInode

theorem Fresh.fits_part (h : c.Fresh sb s) (hf : sb.Fits s.image.size) {us : List Update}
    (part : us <+: c.steps) : sb.Fits (Update.applyAll sb s.image us).size := by
  rw [Update.size_applyAll (fun u hu => h.valid_steps u (part.subset hu)) hf]
  exact hf

theorem Fresh.zone_steps (h : c.Fresh sb s) (hf : sb.Fits s.image.size) {z : UInt64}
    (hz : sb.IsDataZone z) (used : Image.zoneUsed sb s.image z = true) :
    Image.zone sb (Update.applyAll sb s.image c.steps) z = Image.zone sb s.image z := by
  have ne : ∀ z' ∈ c.zone, z ≠ z' := by
    rintro z' hz' rfl
    rw [(h.zone z hz').2.1] at used
    cases used
  rw [Update.zone_applyAll h.valid_steps hf hz]
  obtain ⟨number, name, record, zone, block, root⟩ := c
  cases zone with
  | none => rfl
  | some z' =>
      have ne := ne z' rfl
      simp [steps, Update.onZone, ne]

end Creation

theorem Image.FreeSlot.congr {sb : Superblock} {img img' : Buffer} {zones : List UInt64}
    {z : UInt64} {k : Nat} (h : FreeSlot sb img zones z k)
    (same : Image.zone sb img' z = Image.zone sb img z) : FreeSlot sb img' zones z k := by
  refine ⟨h.mem, h.lt, ?_, ?_⟩
  · rw [same]
    exact h.free
  · rw [same]
    exact h.below

theorem Image.FirstSlot.congr {sb : Superblock} {img img' : Buffer} {zones : List UInt64}
    {z : UInt64} {k : Nat} (h : FirstSlot sb img zones z k)
    (same : ∀ z ∈ zones, Image.zone sb img' z = Image.zone sb img z) :
    FirstSlot sb img' zones z k := by
  obtain ⟨front, back, split, occupied⟩ := h.before
  refine ⟨h.toFreeSlot.congr (same z h.mem), front, back, split, ?_⟩
  intro z' hz'
  rw [same z' (split ▸ List.mem_append_left _ hz')]
  exact occupied z' hz'

def OddName (name : Bytes) : Prop :=
  name = [] ∨ 0x2f ∈ name ∨ 0 ∈ name

instance : DecidablePred OddName :=
  fun _ => inferInstanceAs (Decidable (_ ∨ _ ∨ _))

inductive Misnamed (sb : Superblock) (s : Scene) (name : Bytes) : Error → Prop
  | odd : OddName name → Misnamed sb s name (.invalidName name)
  | long : ¬ OddName name → sb.width.toNat < name.length →
      Misnamed sb s name (.nameTooLong name sb.width)
  | taken : ¬ OddName name → name.length ≤ sb.width.toNat →
      Directory.need sb s.directory ≤ Word.largestBuffer.toNat →
      name ∈ (Image.entries sb s.image s.directory).map (·.name) →
      Misnamed sb s name (.nameTaken name)

theorem Misnamed.not_newName {sb : Superblock} {s : Scene} {name : Bytes} {e : Error}
    (h : Misnamed sb s name e) : ¬ NewName sb s name := by
  intro new
  cases h with
  | odd odd => exact odd.elim new.nonempty fun odd => odd.elim new.plain.1 new.plain.2
  | long _ long => exact Nat.not_le_of_lt long new.short
  | taken _ _ _ taken => exact new.fresh taken

inductive Refusal (sb : Superblock) (plan : Creation → Prop) (s : Scene) (name : Bytes)
    (steady : Prop) : Stop → Prop
  | name {e : Error} : Misnamed sb s name e → Refusal sb plan s name steady (.error e)
  | links : NewName sb s name → (∀ c, ¬ plan c) → s.directory.links = 0xff →
      Refusal sb plan s name steady (.error (.linksSaturated s.directory.links))
  | inodes : NewName sb s name → (∃ c, plan c) →
      (∀ j, sb.IsInode j → Image.inodeUsed sb s.image j = true) →
      Refusal sb plan s name steady (.error (.noFreeInode sb.inodes.toUInt64))
  | unreadable : ¬ OddName name → name.length ≤ sb.width.toNat →
      Word.largestBuffer.toNat < Directory.need sb s.directory →
      Refusal sb plan s name steady (.panic .allocation)
  | mishap {t : Stop} : Mishap steady 0 t → Refusal sb plan s name steady t

structure Image.FirstFree (sb : Superblock) (img : Buffer) (n : Nat) : Prop where
  isInode : sb.IsInode n
  free : inodeUsed sb img n = false
  least : ∀ j, 1 ≤ j → j < n → inodeUsed sb img j = true

structure Image.FirstFreeZone (sb : Superblock) (img : Buffer) (z : UInt64) : Prop where
  isZone : sb.IsDataZone z
  free : zoneUsed sb img z = false
  least : ∀ z', sb.IsDataZone z' → z'.toNat < z.toNat → zoneUsed sb img z' = true

/-- What a directory leaves that cannot be built, as its zone is larger than any buffer: its inode
and its zone are taken, and nothing else is changed. The root directory has no zones of its own,
or it could not have been read. -/
structure Stranded (sb : Superblock) (s s' : Scene) : Prop where
  large : Word.largestBuffer.toNat < sb.zoneSize.toNat
  bare : s.directory.zones = []
  taken : ∃ number z, Image.FirstFree sb s.image number ∧ Image.FirstFreeZone sb s.image z ∧
    s' = { s with
      image := Update.applyAll sb s.image [.inodeBit number true, .zoneBit z true] }

theorem Creation.Fresh.stranded {sb : Superblock} {s : Scene} {c : Creation} (h : c.Fresh sb s)
    {z : UInt64} (hz : c.zone = some z) (bare : s.directory.zones = [])
    (large : Word.largestBuffer.toNat < sb.zoneSize.toNat) :
    Stranded sb s
      { s with
        image := Update.applyAll sb s.image [.inodeBit c.number.toNat true, .zoneBit z true] } := by
  obtain ⟨isZone, free, -, least⟩ := h.zone z hz
  exact ⟨large, bare, _, z, ⟨h.isInode, h.free, h.least⟩, ⟨isZone, free, least⟩, rfl⟩

/-- Why a create stopped half-way. Only one that plans to take a zone can fall short of zones, and
only one that has all it needs finds out that there is no slot. -/
inductive Setback (sb : Superblock) (plan : Creation → Prop) (s : Scene) (steady : Prop) :
    Error → Prop
  | zones {c : Creation} : plan c → NewName sb s c.name → (∀ c, plan c → c.zone ≠ none) →
      (∀ z, sb.IsDataZone z → Image.zoneUsed sb s.image z = true) →
      Setback sb plan s steady (.noFreeZone sb.dataZones)
  | slots {c : Creation} {number : UInt64} : plan c → c.Fresh sb s → c.Buildable sb →
      (∀ z ∈ s.directory.zones, Image.Occupied sb (Image.zone sb s.image z)) →
      Setback sb plan s steady (.directoryFull number)
  | fault {e : Error} : e.Calm → ¬ steady → Setback sb plan s steady e

theorem Setback.calm {sb : Superblock} {plan : Creation → Prop} {s : Scene} {steady : Prop}
    {e : Error} (h : Setback sb plan s steady e) : e.hasKind .inconsistent = false := by
  cases h with
  | zones _ _ _ _ => rfl
  | slots _ _ _ _ => rfl
  | fault calm _ => exact calm

/-- What a create had done when it stopped: some of its steps, or all of them and an entry that it
has taken out of its slot again. -/
inductive Attempted (sb : Superblock) (s : Scene) (c : Creation) :
    Option (UInt64 × Nat) → List Update → Prop
  | steps {us : List Update} : us <+: c.steps → Attempted sb s c none us
  | cleared {z : UInt64} {k : Nat} : Image.FreeSlot sb s.image s.directory.zones z k →
      Attempted sb s c (some (z, k))
        (c.entered sb z k ++ [.slot z k (Buffer.zeros sb.slotBytes)])

theorem Attempted.valid {sb : Superblock} {s : Scene} {c : Creation} {us : List Update}
    {slot : Option (UInt64 × Nat)} (h : Attempted sb s c slot us) (fresh : c.Fresh sb s)
    (zones : ∀ z ∈ s.directory.zones, sb.IsDataZone z) : ∀ u ∈ us, u.Valid sb := by
  intro u hu
  cases h with
  | steps part => exact fresh.valid_steps u (part.subset hu)
  | @cleared z k found =>
      rcases List.mem_append.mp hu with hu | hu
      · rcases List.mem_append.mp hu with hu | hu
        · exact fresh.valid_steps u hu
        · rw [List.mem_singleton.mp hu]
          exact ⟨zones z found.mem, found.lt, Entry.size_slotData fresh.name.short⟩
      · rw [List.mem_singleton.mp hu]
        exact ⟨zones z found.mem, found.lt, Buffer.size_zeros _⟩

inductive Outcome (sb : Superblock) (name : Bytes) (plan : Creation → Prop) (steady : Prop)
    (s : Scene) : Except Stop UInt64 → Scene → Log → Prop
  | refused {t : Stop} {log : Log} : Refusal sb plan s name steady t →
      Outcome sb name plan steady s (.error t) s log
  | made {c : Creation} {z : UInt64} {k : Nat} {log : Log} : plan c → c.Fresh sb s →
      Image.FirstSlot sb s.image s.directory.zones z k →
      Outcome sb name plan steady s (.ok c.number)
        { s with
          image := Update.applyAll sb s.image (c.entered sb z k ++ [.inode 1 c.root])
          directory := c.root } log
  | left {c : Creation} {z : UInt64} {k : Nat} {e : Error} {log : Log} : plan c →
      c.Fresh sb s → Image.FreeSlot sb s.image s.directory.zones z k →
      e.hasKind .inconsistent = true → ¬ steady →
      Outcome sb name plan steady s (.error (.error e))
        { s with image := Update.applyAll sb s.image (c.entered sb z k) } log
  | undone {c : Creation} {slot : Option (UInt64 × Nat)} {us back : List Update}
      {cause e : Error} {log : Log} :
      c.Bare ∨ plan c → c.Fresh sb s → Attempted sb s c slot us →
      Setback sb plan s steady cause → GivenBack steady c.number c.zone cause back e log →
      Outcome sb name plan steady s (.error (.error e))
        { s with image := Update.applyAll sb s.image (us ++ back) } log
  | crashed {c : Creation} {z : UInt64} {log : Log} : plan c → c.Fresh sb s → c.zone = some z →
      s.directory.zones = [] → Word.largestBuffer.toNat < sb.zoneSize.toNat →
      Outcome sb name plan steady s (.error (.panic .allocation))
        { s with
          image := Update.applyAll sb s.image
            [.inodeBit c.number.toNat true, .zoneBit z true] } log

theorem Outcome.relog {sb : Superblock} {name : Bytes} {plan : Creation → Prop} {steady : Prop}
    {s s' : Scene} {i : UInt64} {log : Log} (h : Outcome sb name plan steady s (.ok i) s' log)
    (log' : Log) : Outcome sb name plan steady s (.ok i) s' log' := by
  cases h with
  | made planned fresh slot => exact .made planned fresh slot

theorem Outcome.output_eq {sb : Superblock} {name : Bytes} {plan : Creation → Prop} {steady : Prop}
    {s s' : Scene} {r : Except Stop UInt64} {log : Log}
    (h : Outcome sb name plan steady s r s' log) : s'.output = s.output := by
  cases h <;> rfl

namespace Volume

structure Ready (v : Volume) (s : Scene) : Prop where
  fits : v.superblock.Fits s.image.size
  width : v.nameWidth = v.superblock.width
  zones : ∀ z ∈ s.directory.zones,
    v.superblock.IsDataZone z ∧ Image.zoneUsed v.superblock s.image z = true

variable {δ : Type} [Disk δ] [ImageDisk δ] {m : Mount δ} {steady : Prop} {s : Scene} {v : Volume}
  {name : Bytes} {plan : Creation → Prop}

def Comes (v : Volume) (name : Bytes) (plan : Creation → Prop) (steady : Prop) (s : Scene)
    (r : Except Stop UInt64) (m' : Mount δ) : Prop :=
  ∃ s', m'.Shows steady s' ∧ Outcome v.superblock name plan steady s r s' m'.log

theorem ends_checkNew (h : m.Shows steady s) (ready : v.Ready s) (name : Bytes) :
    Mount.Ends (v.checkNew name) m
      (fun _ m' => m'.Shows steady s ∧ NewName v.superblock s name)
      (fun t m' => m'.Shows steady s ∧ Refusal v.superblock plan s name steady t) := by
  have odd_iff : (name.isEmpty || name.contains 0x2f || name.contains 0) = true ↔
      OddName name := by
    simp [OddName, or_assoc]
  rw [checkNew, ready.width]
  by_cases odd : OddName name
  · rw [if_pos (odd_iff.mpr odd)]
    exact Mount.Ends.fail_bind ⟨h, .name (.odd odd)⟩
  rw [if_neg (mt odd_iff.mp odd)]
  by_cases long : v.superblock.width.toNat < name.length
  · rw [if_pos long]
    exact Mount.Ends.fail_bind ⟨h, .name (.long odd long)⟩
  rw [if_neg long]
  apply Mount.ends_get
  rw [h.directory]
  have short := Nat.le_of_not_lt long
  refine Mount.Ends.bind (Directory.ends_lookup_told h name
    fun z hz => ready.fits.zoneEnd_le (ready.zones z hz).1) ?_ ?_
  · rintro r m₁ ⟨rfl, readable, h₁⟩
    cases found : (Image.entries v.superblock s.image s.directory).find? (·.name == name) with
    | some e =>
        have mem := List.mem_of_find?_eq_some found
        have eq := List.find?_some found
        exact Mount.Ends.fail ⟨h₁, .name (.taken odd short readable
          (List.mem_map.mpr ⟨e, mem, by simpa using eq⟩))⟩
    | none =>
        refine Mount.Ends.pure ⟨h₁, ?_⟩
        simp only [OddName, not_or] at odd
        refine ⟨odd.1, odd.2, short, readable, ?_⟩
        intro mem
        obtain ⟨e, he, eq⟩ := List.mem_map.mp mem
        exact List.find?_eq_none.mp found e he (by simpa using eq)
  · rintro t m' ⟨mishap, h'⟩
    cases mishap with
    | fault e calm failing => exact ⟨h', .mishap (.fault e calm failing)⟩
    | memory large => exact ⟨h', .unreadable odd short large⟩

theorem ends_setback (ready : v.Ready s) {c : Creation} (us : List Update) {cause : Error}
    (h : m.Shows steady { s with image := Update.applyAll v.superblock s.image us })
    (planned : c.Bare ∨ plan c) (fresh : c.Fresh v.superblock s)
    {slot : Option (UInt64 × Nat)} (attempted : Attempted v.superblock s c slot us)
    (setback : Setback v.superblock plan s steady cause) {E : Stop → Mount δ → Prop} :
    Mount.Ends (v.giveBack cause c.number (c.zone.getD 0)) m
      (fun e m' => v.Comes name plan steady s (.error (.error e)) m') E := by
  have fits : v.superblock.Fits (Update.applyAll v.superblock s.image us).size := by
    rw [Update.size_applyAll (attempted.valid fresh fun z hz => (ready.zones z hz).1) ready.fits]
    exact ready.fits
  refine (ends_giveBack h fits fresh.isInode (fun z hz => (fresh.zone z hz).1)
    setback.calm).imp ?_
  rintro e m' ⟨back, given, h'⟩
  rw [← Update.applyAll_append] at h'
  exact ⟨_, h', .undone planned fresh attempted setback given⟩

theorem ends_stepOrGiveBack (ready : v.Ready s) {α : Type} {x : MountM δ α} {c : Creation}
    (us : List Update) {Q : α → Mount δ → Prop}
    (h : Mount.Ends x m Q fun t m' => Mishap steady 0 t ∧
      m'.Shows steady { s with image := Update.applyAll v.superblock s.image us })
    (planned : c.Bare ∨ plan c) (fresh : c.Fresh v.superblock s) (part : us <+: c.steps) :
    Mount.Ends (v.orGiveBack c.number (c.zone.getD 0) x) m Q
      (fun t m' => v.Comes name plan steady s (.error t) m') := by
  refine ends_orGiveBack h ?_ ?_
  · rintro e m' ⟨mishap, h'⟩
    cases mishap with
    | fault e calm failing =>
        exact ends_setback ready _ h' planned fresh (.steps part) (.fault calm failing)
  · rintro p m' ⟨mishap, h'⟩
    exact mishap.not_panic.elim

theorem ends_enterOrGiveBack (ready : v.Ready s) {x : MountM δ Unit} {c : Creation} (root : Inode)
    (same : root.zones = s.directory.zones) (grown : c.root = Directory.grown v.superblock root)
    (h : Mount.Ends x m
      (fun r m' => ∃ s', m'.Shows steady s' ∧ Directory.Added v.superblock Inode.root c.entry steady
        ⟨Update.applyAll v.superblock s.image c.steps, root, s.output⟩ (.ok r) s')
      (fun t m' => ∃ s', m'.Shows steady { s' with directory := s.directory } ∧
        Directory.Added v.superblock Inode.root c.entry steady
          ⟨Update.applyAll v.superblock s.image c.steps, root, s.output⟩ (.error t) s'))
    (planned : plan c) (fresh : c.Fresh v.superblock s) (buildable : c.Buildable v.superblock) :
    Mount.Ends (v.orGiveBack c.number (c.zone.getD 0) x) m
      (fun _ m' => v.Comes name plan steady s (.ok c.number) m')
      (fun t m' => v.Comes name plan steady s (.error t) m') := by
  have zone : ∀ z ∈ s.directory.zones,
      Image.zone v.superblock (Update.applyAll v.superblock s.image c.steps) z
        = Image.zone v.superblock s.image z := by
    intro z hz
    exact fresh.zone_steps ready.fits (ready.zones z hz).1 (ready.zones z hz).2
  -- The steps leave the zones of the root alone, so a slot that is free now was free before.
  have slot {z : UInt64} {k : Nat} (found : Image.FreeSlot v.superblock
      (Update.applyAll v.superblock s.image c.steps) root.zones z k) :
      Image.FreeSlot v.superblock s.image s.directory.zones z k := by
    rw [same] at found
    exact found.congr (zone z found.mem).symm
  have first {z : UInt64} {k : Nat} (found : Image.FirstSlot v.superblock
      (Update.applyAll v.superblock s.image c.steps) root.zones z k) :
      Image.FirstSlot v.superblock s.image s.directory.zones z k := by
    rw [same] at found
    exact found.congr fun z hz => (zone z hz).symm
  refine (ends_orGiveBack h ?_ ?_).imp ?_
  · rintro e m' ⟨s', h', added⟩
    cases added with
    | full occupied =>
        refine ends_setback ready _ h' (.inr planned) fresh (.steps (List.prefix_refl _))
          (.slots planned fresh buildable ?_)
        intro z hz
        rw [← zone z hz]
        exact occupied z (same ▸ hz)
    | stopped mishap =>
        cases mishap with
        | fault e calm failing =>
            exact ends_setback ready _ h' (.inr planned) fresh (.steps (List.prefix_refl _))
              (.fault calm failing)
    | withdrawn found calm failing =>
        refine ends_setback ready (c.entered v.superblock _ _ ++ [_]) ?_ (.inr planned)
          fresh (.cleared (slot found)) (.fault calm failing)
        rw [Creation.entered, List.append_assoc, Update.applyAll_append]
        exact h'
    | left found kind failing =>
        refine (ends_giveBack_left h' kind _ _).imp ?_
        rintro e m'' ⟨rfl, h''⟩
        refine ⟨_, h'', ?_⟩
        rw [← Update.applyAll_append]
        exact .left planned fresh (slot found) kind failing
  · rintro p m' ⟨s', -, added⟩
    cases added with
    | stopped mishap =>
        exact mishap.not_panic.elim
  · rintro _ m' ⟨s', h', added⟩
    cases added with
    | entered found =>
        refine ⟨_, h', ?_⟩
        rw [← grown, ← Update.applyAll_append]
        have made : Outcome v.superblock name plan steady s _ _ m'.log :=
          .made planned fresh (first found)
        rw [Creation.entered, List.append_assoc] at made
        exact made

def FilePlan (v : Volume) (name : Bytes) (root : Inode) (c : Creation) : Prop :=
  ∃ number, c = .file v name root number

def DirectoryPlan (v : Volume) (name : Bytes) (root : Inode) (c : Creation) : Prop :=
  root.links ≠ 0xff ∧ ∃ number zone, c = .directory v name root number zone

theorem ends_takeInode (plan : Creation → Prop) (some : ∃ c, plan c) (h : m.Shows steady s)
    (ready : v.Ready s) {name : Bytes} (new : NewName v.superblock s name) :
    Mount.Ends v.superblock.allocateInode m
      (fun i m' => (Creation.file v name s.directory i).Fresh v.superblock s ∧
        m'.Shows steady
          { s with image := Update.applyAll v.superblock s.image [.inodeBit i.toNat true] })
      (fun t m' => v.Comes name plan steady s (.error t) m') := by
  refine (Superblock.ends_allocateInode h ready.fits).mono ?_ ?_
  · rintro i m' ⟨isInode, free, least, h'⟩
    exact ⟨⟨new, isInode, free, least, fun z hz => nomatch hz⟩, h'⟩
  · rintro t m' ⟨h', mishap | ⟨rfl, full⟩⟩
    · exact ⟨s, h', .refused (.mishap mishap)⟩
    · exact ⟨s, h', .refused (.inodes new some full)⟩

theorem ends_touch (h : m.Shows steady s) (ready : v.Ready s) (name : Bytes) :
    Mount.Ends (v.touch name) m
      (fun i m' => v.Comes name (v.FilePlan name s.directory) steady s (.ok i) m')
      (fun t m' => v.Comes name (v.FilePlan name s.directory) steady s (.error t) m') := by
  refine Mount.Ends.bind (ends_checkNew h ready name) ?_ fun t m' h => ⟨s, h.1, .refused h.2⟩
  rintro _ m₁ ⟨h₁, new⟩
  refine Mount.Ends.next
    (ends_takeInode (v.FilePlan name s.directory) ⟨_, 0, rfl⟩ h₁ ready new) ?_
  rintro i m₂ ⟨fresh, h₂⟩
  have planned : v.FilePlan name s.directory (.file v name s.directory i) := ⟨i, rfl⟩
  have part : [.inodeBit i.toNat true] <+: (Creation.file v name s.directory i).steps := ⟨_, rfl⟩
  have store := Inode.ends_store h₂ (fresh.fits_part ready.fits part) fresh.isInode
    (Creation.file v name s.directory i).record
  refine Mount.Ends.next (ends_stepOrGiveBack ready (c := .file v name s.directory i)
    [.inodeBit i.toNat true] store (.inr planned) fresh part) ?_
  intro _ m₃ h₃
  have fits := fresh.fits_part ready.fits (List.prefix_refl _)
  have add := Directory.ends_add h₃ fits Inode.root ⟨Nat.le_refl 1, ready.fits.inodes_pos⟩
    (fun z hz => (ready.zones z hz).1) new.readable (e := ⟨i, name⟩) new.short
  rw [ready.width]
  refine Mount.Ends.next (ends_enterOrGiveBack ready (c := .file v name s.directory i)
    s.directory rfl rfl (add.mono (fun _ _ h => h) ?_) planned fresh fun _ hz => nomatch hz) ?_
  · rintro t m' ⟨s', h', added⟩
    refine ⟨s', ?_, added⟩
    cases added <;> exact h'
  · rintro _ m₄ ⟨s', h₄, outcome⟩
    refine Mount.Ends.next (Mount.ends_trace h₄ _) ?_
    intro _ m₅ h₅
    exact Mount.Ends.pure ⟨s', h₅, outcome.relog _⟩

theorem unlink_link (ip : Inode) : unlink (link ip) = ip := by
  obtain ⟨mode, owner, size, modified, group, links, zone⟩ := ip
  simp only [unlink, link, UInt8.add_sub_cancel]

theorem ends_addLinked (h : m.Shows steady s) (width : v.nameWidth = v.superblock.width)
    (fits : v.superblock.Fits s.image.size)
    (zones : ∀ z ∈ s.directory.zones, v.superblock.IsDataZone z)
    (readable : Directory.need v.superblock s.directory ≤ Word.largestBuffer.toNat) {e : Entry}
    (short : e.name.length ≤ v.superblock.width.toNat) :
    Mount.Ends (v.addLinked e) m
      (fun r m' => ∃ s', m'.Shows steady s' ∧ Directory.Added v.superblock Inode.root e steady
        { s with directory := link s.directory } (.ok r) s')
      (fun t m' => ∃ s', m'.Shows steady { s' with directory := s.directory } ∧
        Directory.Added v.superblock Inode.root e steady
          { s with directory := link s.directory } (.error t) s') := by
  refine Mount.Ends.next (Mount.ends_modifyDirectory h link) ?_
  intro _ m₁ h₁
  rw [width]
  have add := Directory.ends_add h₁ fits Inode.root
    ⟨Nat.le_refl 1, fits.inodes_pos⟩ zones readable short
  refine Mount.Ends.next (Mount.Ends.attempt
    (P := fun r m' => ∃ s', m'.Shows steady s' ∧ Directory.Added v.superblock Inode.root e steady
      { s with directory := link s.directory } (r.mapError .error) s') add
    (fun a m' h => h) (fun err m' h => h) ?_) ?_
  · rintro p m' ⟨s', -, added⟩
    cases added with
    | stopped mishap =>
        exact mishap.not_panic.elim
  · rintro r m₂ ⟨s', h₂, added⟩
    cases r with
    | ok a => exact Mount.Ends.pure ⟨s', h₂, added⟩
    | error err =>
        have same : unlink s'.directory = s.directory := by
          cases added <;> exact unlink_link s.directory
        refine Mount.Ends.next (Mount.ends_modifyDirectory h₂ unlink) ?_
        intro _ m₃ h₃
        rw [same] at h₃
        exact Mount.Ends.fail ⟨s', h₃, added⟩

theorem ends_writeZone (h : m.Shows steady s) {sb : Superblock} (hf : sb.Fits s.image.size)
    {z : UInt64} (hz : sb.IsDataZone z) {data : Buffer} (size : data.size = sb.zoneSize.toNat) :
    Mount.Ends (Mount.wrapping (.during .write (.zone z)) (Mount.writeAt (sb.zoneOffset z) data)) m
      (fun _ m' => m'.Shows steady { s with image := (Update.zone z data).apply sb s.image })
      (fun t m' => Mishap steady 0 t ∧ m'.Shows steady s) := by
  apply Mount.ends_during
  apply Mount.ends_writeAt h
  rw [size]
  exact hf.zoneEnd_le hz

theorem ends_takeZone (name : Bytes) {c : Creation} (planned : plan c) (named : c.name = name)
    (taking : ∀ c, plan c → c.zone ≠ none) (ready : v.Ready s) {i : UInt64}
    (fresh : (Creation.file v name s.directory i).Fresh v.superblock s)
    (h : m.Shows steady
      { s with image := Update.applyAll v.superblock s.image [.inodeBit i.toNat true] }) :
    Mount.Ends (v.orGiveBack i 0 v.superblock.allocateZone) m
      (fun z m' => (Creation.directory v name s.directory i z).Fresh v.superblock s ∧
        m'.Shows steady
          { s with
            image := Update.applyAll v.superblock s.image
              [.inodeBit i.toNat true, .zoneBit z true] })
      (fun t m' => v.Comes name plan steady s (.error t) m') := by
  have part : [.inodeBit i.toNat true] <+: (Creation.file v name s.directory i).steps := ⟨_, rfl⟩
  have same {z : UInt64} (hz : v.superblock.IsDataZone z) :
      Image.zoneUsed v.superblock
        (Update.applyAll v.superblock s.image [.inodeBit i.toNat true]) z
        = Image.zoneUsed v.superblock s.image z :=
    Update.zoneUsed_apply (u := .inodeBit i.toNat true) fresh.isInode ready.fits hz
  have bare : (Creation.file v name s.directory i).Bare := ⟨rfl, rfl⟩
  have allocate := Superblock.ends_allocateZone h (fresh.fits_part ready.fits part)
  refine (ends_orGiveBack allocate ?_ ?_).imp ?_
  · rintro e m' ⟨h', mishap | ⟨eq, full⟩⟩
    · cases mishap with
      | fault e calm failing =>
          exact ends_setback ready _ h' (.inl bare) fresh (.steps part) (.fault calm failing)
    · cases eq
      exact ends_setback ready _ h' (.inl bare) fresh (.steps part)
        (.zones planned (named ▸ fresh.name) taking
          fun z hz => (same hz).symm.trans (full z hz))
  · rintro p m' ⟨h', mishap | ⟨eq, -⟩⟩
    · exact mishap.not_panic.elim
    · cases eq
  · rintro z m' ⟨hz, free, least, h'⟩
    rw [same hz] at free
    refine ⟨⟨fresh.name, fresh.isInode, fresh.free, fresh.least, ?_⟩, h'⟩
    rintro z' ⟨⟩
    exact ⟨hz, free, Image.size_newZone ready.fits.zoneSize_ge i,
      fun z' hz' lt => (same hz').symm.trans (least z' hz' lt)⟩

omit [Disk δ] [ImageDisk δ] in
theorem ends_newBlock {size : Nat} (fits : v.superblock.Fits size) (i : UInt64) :
    Mount.Ends (liftExcept (Entry.block (Format.newDirectory i Inode.root)
        v.superblock.width v.superblock.zoneSize)) m
      (fun b m' => b = Image.newZone v.superblock i ∧
        v.superblock.zoneSize.toNat ≤ Word.largestBuffer.toNat ∧ m' = m)
      (fun t m' => t = .panic .allocation ∧
        Word.largestBuffer.toNat < v.superblock.zoneSize.toNat ∧ m' = m) := by
  rw [Image.block_newDirectory fits.zoneSize_ge]
  split
  · next large =>
      exact Mount.Ends.of_exec_error rfl ⟨rfl, UInt64.lt_iff_toNat_lt.mp large, rfl⟩
  · next small =>
      exact Mount.Ends.of_exec rfl
        ⟨rfl, Nat.le_of_not_lt (mt UInt64.lt_iff_toNat_lt.mpr small), rfl⟩

theorem ends_buildOrGiveBack (ready : v.Ready s) {i z : UInt64}
    (planned : plan (.directory v name s.directory i z))
    (fresh : (Creation.directory v name s.directory i z).Fresh v.superblock s)
    (h : m.Shows steady
      { s with
        image := Update.applyAll v.superblock s.image
          [.inodeBit i.toNat true, .zoneBit z true] }) :
    Mount.Ends (v.orGiveBack i z (liftExcept (Entry.block (Format.newDirectory i Inode.root)
        v.superblock.width v.superblock.zoneSize))) m
      (fun b m' => b = Image.newZone v.superblock i ∧
        v.superblock.zoneSize.toNat ≤ Word.largestBuffer.toNat ∧ m' = m)
      (fun t m' => v.Comes name plan steady s (.error t) m') := by
  refine ends_orGiveBack (ends_newBlock ready.fits i) ?_ ?_
  · rintro e m' ⟨⟨⟩, -⟩
  · rintro _ _ ⟨⟨⟩, large, rfl⟩
    have none : s.directory.zones = [] := by
      by_contra some
      exact Nat.not_lt_of_le fresh.name.readable (Directory.lt_need_iff.mpr ⟨some, large⟩)
    exact ⟨_, h, .crashed planned fresh rfl none large⟩

theorem ends_mkdir (h : m.Shows steady s) (ready : v.Ready s) (name : Bytes) :
    Mount.Ends (v.mkdir name) m
      (fun i m' => v.Comes name (v.DirectoryPlan name s.directory) steady s (.ok i) m')
      (fun t m' => v.Comes name (v.DirectoryPlan name s.directory) steady s (.error t) m') := by
  refine Mount.Ends.bind (ends_checkNew h ready name) ?_ fun t m' h => ⟨s, h.1, .refused h.2⟩
  rintro _ m₁ ⟨h₁, new⟩
  apply Mount.ends_get
  rw [h₁.directory]
  by_cases saturated : s.directory.links = 0xff
  · rw [if_pos saturated]
    exact Mount.Ends.fail_bind
      ⟨s, h₁, .refused (.links new (fun c planned => planned.1 saturated) saturated)⟩
  rw [if_neg saturated]
  have some : v.DirectoryPlan name s.directory (.directory v name s.directory 0 0) :=
    ⟨saturated, 0, 0, rfl⟩
  refine Mount.Ends.next
    (ends_takeInode (v.DirectoryPlan name s.directory) ⟨_, some⟩ h₁ ready new) ?_
  rintro i m₂ ⟨fresh₀, h₂⟩
  have taking : ∀ c, v.DirectoryPlan name s.directory c → c.zone ≠ none := by
    rintro c ⟨-, number, zone, rfl⟩
    exact Option.some_ne_none zone
  refine Mount.Ends.next (ends_takeZone name some rfl taking ready fresh₀ h₂) ?_
  rintro z m₃ ⟨fresh, h₃⟩
  have planned : v.DirectoryPlan name s.directory (.directory v name s.directory i z) :=
    ⟨saturated, i, z, rfl⟩
  have taken : [.inodeBit i.toNat true, .zoneBit z true]
      <+: (Creation.directory v name s.directory i z).steps := ⟨_, rfl⟩
  have filled : [.inodeBit i.toNat true, .zoneBit z true, .zone z (Image.newZone v.superblock i)]
      <+: (Creation.directory v name s.directory i z).steps := ⟨_, rfl⟩
  obtain ⟨hz, -, size, -⟩ := fresh.zone z rfl
  rw [ready.width]
  refine Mount.Ends.next (ends_buildOrGiveBack ready planned fresh h₃) ?_
  rintro b m₄ ⟨rfl, small, rfl⟩
  have write := ends_writeZone h₃ (fresh.fits_part ready.fits taken) hz size
  refine Mount.Ends.next (ends_stepOrGiveBack ready (c := .directory v name s.directory i z)
    [.inodeBit i.toNat true, .zoneBit z true] write (.inr planned) fresh taken) ?_
  intro _ m₅ h₅
  have fits₅ := fresh.fits_part ready.fits filled
  have store := Inode.ends_store h₅ fits₅ fresh.isInode
    (Creation.directory v name s.directory i z).record
  refine Mount.Ends.next (ends_stepOrGiveBack ready (c := .directory v name s.directory i z)
    [.inodeBit i.toNat true, .zoneBit z true, .zone z (Image.newZone v.superblock i)] store
    (.inr planned) fresh filled) ?_
  intro _ m₆ h₆
  have fits := fresh.fits_part ready.fits (List.prefix_refl _)
  have add := ends_addLinked h₆ ready.width fits (fun z hz => (ready.zones z hz).1) new.readable
    (e := ⟨i, name⟩) new.short
  refine Mount.Ends.next (ends_enterOrGiveBack ready (c := .directory v name s.directory i z)
    (link s.directory) rfl rfl add planned fresh fun _ _ => small) ?_
  rintro _ m₇ ⟨s', h₇, outcome⟩
  refine Mount.Ends.next (Mount.ends_trace h₇ _) ?_
  intro _ m₈ h₈
  exact Mount.Ends.pure ⟨s', h₈, outcome.relog _⟩

end Volume

end MinixVolume

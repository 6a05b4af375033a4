import MinixVolume.Proofs.Growth
import MinixVolume.Proofs.Reading

namespace MinixVolume

/-- The mount with another disk in place of its own, say one whose calls fail from now on. -/
def Mount.onto {δ δ' : Type} (m : Mount δ) (d : δ') : Mount δ' where
  disk := d
  directory := m.directory
  output := m.output
  log := m.log

namespace Volume

variable {δ : Type} [Disk δ]

def runAll (v : Volume) : List (Int64 × Command) → Mount δ → List (Except Stop Unit) × Mount δ
  | [], m => ([], m)
  | (clock, c) :: rest, m =>
      let (r, m) := Mount.exec (c.run { v with clock := clock }) m
      let (rs, m) := v.runAll rest m
      (r :: rs, m)

theorem runAll_append (v : Volume) (before after : List (Int64 × Command)) (m : Mount δ) :
    v.runAll (before ++ after) m =
      ((v.runAll before m).1 ++ (v.runAll after (v.runAll before m).2).1,
        (v.runAll after (v.runAll before m).2).2) := by
  induction before generalizing m with
  | nil => rfl
  | cons command before ih =>
      obtain ⟨clock, c⟩ := command
      simp only [List.cons_append, runAll, ih]

/-- What every command keeps, or else ends up in `T`, a run keeps up to the first command that
does not. -/
theorem holds_runAll {v : Volume} {P : Mount δ → Prop} {T : Int64 → Command → Mount δ → Prop}
    (step : ∀ (clock : Int64) (c : Command) (m : Mount δ), P m →
      P (Mount.exec (c.run { v with clock := clock }) m).2 ∨ T clock c m)
    (commands : List (Int64 × Command)) {m : Mount δ} (h : P m) :
    P (v.runAll commands m).2 ∨ ∃ before clock c after,
      commands = before ++ (clock, c) :: after ∧ P (v.runAll before m).2 ∧
        T clock c (v.runAll before m).2 := by
  -- Each command starts from the mount that the one before has left.
  induction commands generalizing m with
  | nil => exact .inl h
  | cons command rest ih =>
      obtain ⟨clock, c⟩ := command
      rcases step clock c m h with kept | stops
      · rcases ih kept with kept | ⟨before, clock', c', after, split, kept, stops⟩
        · exact .inl kept
        · exact .inr ⟨(clock, c) :: before, clock', c', after, congrArg _ split, kept, stops⟩
      · exact .inr ⟨[], clock, c, rest, rfl, h, stops⟩

theorem kept_runAll {v : Volume} {P : Mount δ → Prop}
    (step : ∀ (clock : Int64) (c : Command) (m : Mount δ), P m →
      P (Mount.exec (c.run { v with clock := clock }) m).2)
    (commands : List (Int64 × Command)) {m : Mount δ} (h : P m) : P (v.runAll commands m).2 := by
  rcases holds_runAll (T := fun _ _ _ => False) (fun clock c m h => .inl (step clock c m h))
    commands h with kept | ⟨_, _, _, _, _, _, impossible⟩
  · exact kept
  · exact impossible.elim

variable [ImageDisk δ] {m : Mount δ} {steady : Prop} {s : Scene}

theorem ends_openDisk_eq (h : m.Shows steady s)
    (fits : (Image.header s.image).Fits s.image.size) (clock : Int64) (color : Bool) :
    Mount.Ends (openDisk clock color) m
      (fun v m' =>
        v = ⟨Image.header s.image, (Image.header s.image).width, clock, color⟩ ∧
        m'.Shows steady { s with directory := Image.inode (Image.header s.image) s.image 1 })
      (fun t m' => Mishap steady 0 t ∧ m'.Shows steady s) := by
  have table := fits.tableEnd_le_size
  have inside : 2048 ≤ s.image.size := by
    rw [Superblock.tablePlace] at table
    omega
  refine Mount.Ends.next (Superblock.ends_load h inside) ?_
  rintro sb m₁ ⟨rfl, h₁⟩
  rw [fits.nameWidth_eq]
  apply Mount.Ends.ok_bind
  refine Mount.Ends.next (Mount.ends_during (Inode.ends_load h₁ fits (n := Inode.root)
    ⟨Nat.le_refl 1, fits.inodes_pos⟩)) ?_
  rintro root m₂ ⟨rfl, h₂⟩
  refine Mount.Ends.next (Mount.ends_modifyDirectory h₂ _) ?_
  intro _ m₃ h₃
  refine Mount.Ends.next (Mount.ends_trace h₃ _) ?_
  intro _ m₄ h₄
  exact Mount.Ends.pure ⟨rfl, h₄⟩

theorem ends_openDisk (h : m.Shows steady s)
    (fits : (Image.header s.image).Fits s.image.size) (clock : Int64) (color : Bool) :
    Mount.Ends (openDisk clock color) m
      (fun v m' => v.superblock = Image.header s.image ∧ v.nameWidth = v.superblock.width ∧
        m'.Shows steady { s with directory := Image.inode (Image.header s.image) s.image 1 })
      (fun t m' => Mishap steady 0 t ∧ m'.Shows steady s) := by
  refine (ends_openDisk_eq h fits clock color).imp ?_
  rintro v m' ⟨rfl, h'⟩
  exact ⟨rfl, rfl, h'⟩

structure IsOpen (v : Volume) (img : Buffer) (m : Mount δ) : Prop where
  superblock : v.superblock = Image.header img
  width : v.nameWidth = v.superblock.width
  image : ImageDisk.image m.disk = img
  directory : m.directory = Image.inode (Image.header img) img 1

theorem IsOpen.at_clock {v : Volume} {img : Buffer} (h : v.IsOpen img m) (clock : Int64) :
    IsOpen { v with clock := clock } img m :=
  ⟨h.superblock, h.width, h.image, h.directory⟩

theorem exec_openDisk (sound : ImageDisk.Sound m.disk) (reliable : ImageDisk.Reliable m.disk)
    (fits : (Image.header (ImageDisk.image m.disk)).Fits (ImageDisk.image m.disk).size)
    (clock : Int64) (color : Bool) :
    ∃ v m', Mount.exec (openDisk clock color) m = (.ok v, m') ∧
      v.IsOpen (ImageDisk.image m.disk) m' ∧ ImageDisk.Sound m'.disk ∧
      ImageDisk.Reliable m'.disk := by
  have shows := Mount.shows_scene sound reliable
  rcases (ends_openDisk shows fits clock color).exec_eq with
    ⟨v, m', run, superblock, width, h⟩ | ⟨t, m', -, mishap, -⟩
  · exact ⟨v, m', run, ⟨superblock, width, h.image, h.directory⟩, h.sound, h.reliable trivial⟩
  · exact absurd trivial mishap.not_steady

theorem exec_openDisk_of_known (sound : ImageDisk.Sound m.disk)
    (reliable : ImageDisk.Reliable m.disk) {sb : Superblock}
    (header : Image.header (ImageDisk.image m.disk) = sb) (known : sb.nameWidth = .ok sb.width)
    (inside : sb.tablePlace + 32 ≤ (ImageDisk.image m.disk).size) (clock : Int64)
    (color : Bool) :
    ∃ m', Mount.exec (openDisk clock color) m = (.ok ⟨sb, sb.width, clock, color⟩, m') := by
  have h := Mount.shows_scene sound reliable
  have blocks : 2048 ≤ m.scene.image.size := by
    change 2048 ≤ (ImageDisk.image m.disk).size
    rw [Superblock.tablePlace] at inside
    omega
  have place : (sb.inodeTableStart + (Inode.root - 1) * 32).toNat = sb.tablePlace := by
    rw [show (Inode.root - 1) * 32 = 0 from rfl, UInt64.add_zero, Superblock.toNat_inodeTableStart]
  have offset : Inode.offset sb.inodeTableStart Inode.root
      = .ok (sb.inodeTableStart + (Inode.root - 1) * 32) := rfl
  have opens : Mount.Ends (openDisk clock color) m
      (fun v _ => v = ⟨sb, sb.width, clock, color⟩) (fun t _ => Mishap True 0 t) := by
    refine Mount.Ends.bind (Superblock.ends_load h blocks) ?_ fun _ _ h => h.1
    rintro sb' m₁ ⟨rfl, h₁⟩
    rw [show Image.header m.scene.image = sb from header, known]
    apply Mount.Ends.ok_bind
    have read := Mount.ends_readAt h₁ (sb.inodeTableStart + (Inode.root - 1) * 32) 32
      (by rw [place]; exact inside)
    have load : Mount.Ends (Inode.load sb.inodeTableStart Inode.root) m₁
        (fun _ m' => m'.Shows True m.scene)
        (fun t m' => Mishap True 0 t ∧ m'.Shows True m.scene) := by
      rw [Inode.load, offset]
      apply Mount.Ends.ok_bind
      refine Mount.Ends.next (Mount.ends_during (Mount.ends_small read (by decide))) ?_
      rintro b m₂ ⟨rfl, h₂⟩
      have size : (m.scene.image.window sb.tablePlace (32 : UInt64).toNat).size
          = Inode.recordSize := Buffer.size_window inside
      rw [place]
      refine Mount.Ends.next (Mount.ends_trace h₂ _) fun _ m₃ h₃ => ?_
      rw [Inode.decode, if_neg (not_not_intro size)]
      exact Mount.Ends.of_exec (Mount.exec_liftExcept _ m₃) h₃
    refine Mount.Ends.bind (Mount.ends_during load) ?_ fun _ _ h => h.1
    intro root m₂ h₂
    refine Mount.Ends.next (Mount.ends_modifyDirectory h₂ _) fun _ m₃ h₃ => ?_
    exact Mount.Ends.next (Mount.ends_trace h₃ _) fun _ m₄ h₄ => Mount.Ends.pure rfl
  rcases opens.exec_eq with ⟨v, m', run, rfl⟩ | ⟨t, m', -, mishap⟩
  · exact ⟨m', run⟩
  · exact absurd trivial mishap.not_steady

def opened (img : Buffer) (output : Output) : Scene where
  image := img
  directory := Image.inode (Image.header img) img 1
  output := output

theorem IsOpen.shows_onto {v : Volume} {img : Buffer} (h : v.IsOpen img m) {δ' : Type} [Disk δ']
    [ImageDisk δ'] {d : δ'} (sound : ImageDisk.Sound d) (image : ImageDisk.image d = img) :
    (m.onto d).Shows (ImageDisk.Reliable d) (opened img m.output) :=
  ⟨sound, id, image, h.directory, rfl⟩

def Oversized (sb : Superblock) (t : Stop) : Prop :=
  t = .panic .allocation ∧ Word.largestBuffer.toNat < sb.zoneSize.toNat

def Plan (v : Volume) (root : Inode) : Command → Creation → Prop
  | .touch name => v.FilePlan name root
  | .mkdir name => v.DirectoryPlan name root
  | _ => fun _ => False

theorem Plan.cases {v : Volume} {root : Inode} {c : Command} {new : Creation}
    (h : v.Plan root c new) : ∃ name, v.FilePlan name root new ∨ v.DirectoryPlan name root new := by
  cases c with
  | touch name => exact ⟨name, .inl h⟩
  | mkdir name => exact ⟨name, .inr h⟩
  | _ => cases h

theorem Plan.mkdir_of_zone {v : Volume} {root : Inode} {c : Command} {new : Creation}
    (h : v.Plan root c new) {z : UInt64} (hz : z ∈ new.zone) : ∃ name, c = .mkdir name := by
  cases c with
  | touch name =>
      obtain ⟨number, rfl⟩ := h
      cases hz
  | mkdir name => exact ⟨name, rfl⟩
  | _ => cases h

theorem Plan.genuine {v : Volume} {root : Inode} {c : Command} {new : Creation}
    (h : v.Plan root c new) : new.Genuine v.superblock ∧ new.root.zones = root.zones ∧
      new.root.mode = root.mode :=
  h.cases.elim fun _ => genuine_of_plan

theorem exec_create {v : Volume} (h : m.Shows steady s) (ready : v.Ready s) {c : Command}
    (change : c.mutates = true) :
    ∃ name r s', (Mount.exec (c.run v) m).1 = r.map (fun _ => ()) ∧
      (Mount.exec (c.run v) m).2.Shows steady s' ∧
      Outcome v.superblock name (v.Plan s.directory c) steady s r s'
        (Mount.exec (c.run v) m).2.log := by
  have create {name : Bytes} {plan : Creation → Prop} {x : MountM δ UInt64}
      (ends : Mount.Ends x m (fun i m' => v.Comes name plan steady s (.ok i) m')
        (fun t m' => v.Comes name plan steady s (.error t) m')) :
      ∃ r s', (Mount.exec (discard x) m).1 = r.map (fun _ => ()) ∧
        (Mount.exec (discard x) m).2.Shows steady s' ∧
        Outcome v.superblock name plan steady s r s' (Mount.exec (discard x) m).2.log := by
    have run : Mount.exec (discard x) m
        = ((Mount.exec x m).1.map (fun _ => ()), (Mount.exec x m).2) := Mount.exec_map _ x m
    rw [run]
    rcases ends.exec_eq with ⟨i, m', eq, s', h', outcome⟩ | ⟨t, m', eq, s', h', outcome⟩
    · rw [eq]
      exact ⟨.ok i, s', rfl, h', outcome⟩
    · rw [eq]
      exact ⟨.error t, s', rfl, h', outcome⟩
  cases c with
  | touch name => exact ⟨name, create (ends_touch h ready name)⟩
  | mkdir name => exact ⟨name, create (ends_mkdir h ready name)⟩
  | _ => cases change

theorem IsOpen.exec_create {v : Volume} {img : Buffer} (h : v.IsOpen img m)
    (orderly : Image.Orderly img) {δ' : Type} [Disk δ'] [ImageDisk δ'] {d : δ'}
    (sound : ImageDisk.Sound d) (image : ImageDisk.image d = img) {c : Command}
    (change : c.mutates = true) :
    ∃ name r s', (Mount.exec (c.run v) (m.onto d)).1 = r.map (fun _ => ()) ∧
      (Mount.exec (c.run v) (m.onto d)).2.Shows (ImageDisk.Reliable d) s' ∧
      Outcome (Image.header img) name (v.Plan (opened img m.output).directory c)
        (ImageDisk.Reliable d) (opened img m.output) r s'
        (Mount.exec (c.run v) (m.onto d)).2.log := by
  have start := Image.Grown.refl orderly (s := opened img m.output) rfl rfl
  have outcome := Volume.exec_create (h.shows_onto sound image)
    (start.ready orderly h.superblock h.width) change
  rw [h.superblock] at outcome
  exact outcome

theorem exec_command {v : Volume} (h : m.Shows steady s) (ready : v.Ready s)
    {P : Except Stop Unit → Scene → Prop} (c : Command)
    (still : ∀ r output, P r { s with output := output })
    (outcome : c.mutates = true →
      ∀ {name : Bytes} {r : Except Stop UInt64} {s' : Scene} {log : Log},
      Outcome v.superblock name (v.Plan s.directory c) steady s r s' log →
      P (r.map fun _ => ()) s') :
    ∃ s', (Mount.exec (c.run v) m).2.Shows steady s' ∧ P (Mount.exec (c.run v) m).1 s' := by
  cases change : c.mutates with
  | false =>
      obtain ⟨output, h'⟩ := (Command.keeps_run v change).stillShows h
      exact ⟨_, h', still _ output⟩
  | true =>
      obtain ⟨name, r, s', answer, h', comes⟩ := exec_create h ready change
      rw [answer]
      exact ⟨s', h', outcome change comes⟩

end Volume

namespace Image.Grown

variable {δ : Type} [Disk δ] [ImageDisk δ] {m : Mount δ} {steady : Prop} {s : Scene}
  {img₀ : Buffer} {cs : List Creation}

theorem still (h : Grown img₀ cs s) (output : Output) :
    Grown img₀ cs { s with output := output } :=
  ⟨h.standing, h.directory, h.root_zones, h.root_mode, h.genuine, h.numbers_once, h.zones_once,
    h.entries, h.names_once⟩

theorem grown_runAll (h : Grown img₀ cs s) (orderly : Orderly img₀) (hm : m.Shows steady s)
    {v : Volume} (superblock : v.superblock = header img₀)
    (width : v.nameWidth = v.superblock.width) (commands : List (Int64 × Command)) :
    ∃ s' cs', (v.runAll commands m).2.Shows steady s' ∧ Grown img₀ cs' s' := by
  refine Volume.kept_runAll
    (P := fun m => ∃ s cs, m.Shows steady s ∧ Grown img₀ cs s) ?_ commands ⟨s, cs, hm, h⟩
  rintro clock c m ⟨s, cs, hm, h⟩
  have outcome {name : Bytes} {r : Except Stop UInt64} {s' : Scene} {log : Log}
      (outcome : Outcome v.superblock name (Volume.Plan { v with clock := clock } s.directory c)
        steady s r s' log) : ∃ cs', Grown img₀ cs' s' := by
    have genuine (new : Creation)
        (planned : Volume.Plan { v with clock := clock } s.directory c new) := planned.genuine
    rw [show Volume.superblock _ = header img₀ from superblock] at outcome genuine
    obtain ⟨added, grown⟩ := h.outcome orderly outcome genuine
    exact ⟨_, grown⟩
  obtain ⟨s', h', cs', grown⟩ := Volume.exec_command (v := { v with clock := clock }) hm
    (h.ready orderly superblock width) (P := fun _ s' => ∃ cs', Grown img₀ cs' s') c
    (fun _ output => ⟨cs, h.still output⟩) fun _ => outcome
  exact ⟨s', cs', h', grown⟩

end Image.Grown

end MinixVolume

import MinixVolume.Proofs.Format
import MinixVolume.Proofs.Run
import MinixVolume.Proofs.Twins

namespace MinixVolume

structure Glimpse where
  answer : Except Stop Unit
  output : Output
  image : Buffer

namespace Volume

variable {δ : Type} [Disk δ] [ImageDisk δ]

/-- What commands show one after the other, each run by `step`. Nothing follows a crash. -/
def watch (step : Int64 × Command → MountM δ Unit) : List (Int64 × Command) → Mount δ → List Glimpse
  | [], _ => []
  | c :: rest, m =>
      let (r, m) := Mount.exec (step c) m
      ⟨r, m.output, ImageDisk.image m.disk⟩ ::
        match r with
        | .error (.panic _) => []
        | _ => watch step rest m

def within (v : Volume) (c : Int64 × Command) : MountM δ Unit :=
  c.2.run { v with clock := c.1 }

def afresh (color : Bool) (c : Int64 × Command) : MountM δ Unit := do
  let v ← openDisk c.1 color
  c.2.run v

/-- Reading from a disk that works as it should leaves it alone. -/
def Quiet (δ : Type) [Disk δ] [ImageDisk δ] : Prop :=
  ∀ (off n : UInt64) (d : δ), ImageDisk.Sound d → ImageDisk.Reliable d →
    ((Disk.read off n).run.run d).2 = d

theorem exec_openDisk_again (quiet : Quiet δ) {m : Mount δ} (sound : ImageDisk.Sound m.disk)
    (reliable : ImageDisk.Reliable m.disk)
    (fits : (Image.header (ImageDisk.image m.disk)).Fits (ImageDisk.image m.disk).size)
    (clock : Int64) (color : Bool) :
    ∃ m', Mount.exec (openDisk clock color) m
        = (.ok ⟨Image.header (ImageDisk.image m.disk),
          (Image.header (ImageDisk.image m.disk)).width, clock, color⟩, m') ∧
      m'.disk = m.disk ∧ m'.output = m.output ∧
      m'.directory
        = Image.inode (Image.header (ImageDisk.image m.disk)) (ImageDisk.image m.disk) 1 := by
  have reads : SameReads (fun d d' : δ => d = m.disk ∧ d' = m.disk) Anywhere := by
    constructor
    · rintro _ _ off n - ⟨rfl, rfl⟩
      rfl
    · rintro _ _ off n - ⟨rfl, rfl⟩
      exact ⟨quiet off n _ sound reliable, quiet off n _ sound reliable⟩
  have disk := (alike_openDisk reads clock color m m ⟨⟨rfl, rfl⟩, rfl, rfl, trivial⟩).2.disk.1
  obtain ⟨_, m', run, rfl, h⟩ := (Mount.ends_sure
    (ends_openDisk_eq (Mount.shows_scene sound reliable) fits clock color) (Nat.zero_le _)).exec_ok
  rw [run] at disk
  exact ⟨m', run, disk, h.output, h.directory⟩

structure Abreast (img₀ : Buffer) (m m' : Mount δ) : Prop where
  disk : m'.disk = m.disk
  output : m'.output = m.output
  grown : ∃ s cs, m.Shows True s ∧ Image.Grown img₀ cs s

section Step

variable {img₀ : Buffer} (orderly : Image.Orderly img₀) (quiet : Quiet δ) {v : Volume}
  (superblock : v.superblock = Image.header img₀) (width : v.nameWidth = v.superblock.width)
  {m m' : Mount δ} (abreast : Abreast img₀ m m') (c : Int64 × Command)
include orderly quiet superblock width abreast

theorem Abreast.exec_afresh :
    ∃ m'', Mount.exec (afresh v.color c) m' = Mount.exec (v.within c) m'' ∧
      m.Twins Eq Mount.AnyRoot m'' := by
  obtain ⟨clock, command⟩ := c
  obtain ⟨s, cs, shows, grown⟩ := abreast.grown
  have image : ImageDisk.image m'.disk = s.image := by
    rw [abreast.disk]
    exact shows.image
  have header : Image.header s.image = Image.header img₀ :=
    Image.header_congr grown.standing.blocks
  have fits : (Image.header (ImageDisk.image m'.disk)).Fits (ImageDisk.image m'.disk).size := by
    rw [image, header]
    exact grown.fits orderly
  obtain ⟨m'', run, disk, output, directory⟩ := exec_openDisk_again quiet
    (abreast.disk ▸ shows.sound) (abreast.disk ▸ shows.reliable trivial) fits clock v.color
  rw [image, header] at run directory
  refine ⟨m'', ?_, ?_⟩
  · rw [afresh, Mount.exec_bind, run, within, width, superblock]
  · refine ⟨?_, ?_, ?_, trivial⟩
    · rw [disk, abreast.disk]
    · rw [directory, shows.directory, grown.directory]
    · rw [output, abreast.output]

theorem Abreast.exec_within :
    (Mount.exec (v.within c) m).1 = (Mount.exec (afresh v.color c) m').1 ∧
      (Mount.exec (v.within c) m).2.Twins Eq Mount.AnyRoot
        (Mount.exec (afresh v.color c) m').2 ∧
      Abreast img₀ (Mount.exec (v.within c) m).2 (Mount.exec (afresh v.color c) m').2 := by
  obtain ⟨m'', run, twins⟩ := abreast.exec_afresh orderly quiet superblock width c
  obtain ⟨answer, after⟩ :=
    Command.alike_run SameTransfers.eq { v with clock := c.1 } c.2 m m'' twins
  rw [run]
  refine ⟨answer, after, ?_⟩
  obtain ⟨s, cs, shows, grown⟩ := abreast.grown
  obtain ⟨s', cs', shows', grown'⟩ := grown.grown_runAll orderly shows superblock width [c]
  exact ⟨after.disk.symm, after.output.symm, s', cs', shows', grown'⟩

end Step

theorem Abreast.watch_eq {img₀ : Buffer} (orderly : Image.Orderly img₀) (quiet : Quiet δ)
    {v : Volume} (superblock : v.superblock = Image.header img₀)
    (width : v.nameWidth = v.superblock.width) (commands : List (Int64 × Command))
    {m m' : Mount δ} (abreast : Abreast img₀ m m') :
    watch v.within commands m = watch (afresh v.color) commands m' := by
  induction commands generalizing m m' with
  | nil => rfl
  | cons c rest ih =>
      obtain ⟨answer, twins, next⟩ := abreast.exec_within orderly quiet superblock width c
      rw [watch, watch]
      rcases run : Mount.exec (v.within c) m with ⟨r, m₁⟩
      rcases run' : Mount.exec (afresh v.color c) m' with ⟨r', m₁'⟩
      rw [run, run'] at answer twins next
      cases answer
      have disk : m₁.disk = m₁'.disk := twins.disk
      have output : m₁.output = m₁'.output := twins.output
      dsimp only
      rw [disk, output]
      rcases r with (e | p) | a
      · exact congrArg _ (ih next)
      · rfl
      · exact congrArg _ (ih next)

/-- One volume that stays open shows, command by command, what is shown when it is opened again
before each of them: the directory in memory goes with the image through every success and every
failure. -/
theorem watch_afresh (quiet : Quiet δ) {m₀ : Mount δ} (sound : ImageDisk.Sound m₀.disk)
    (reliable : ImageDisk.Reliable m₀.disk)
    (orderly : Image.Orderly (ImageDisk.image m₀.disk)) (clock : Int64) (color : Bool) :
    ∃ v m, Mount.exec (openDisk clock color) m₀ = (.ok v, m) ∧
      ∀ commands : List (Int64 × Command),
        watch v.within commands m = watch (afresh color) commands m₀ := by
  obtain ⟨m, run, disk, output, directory⟩ :=
    exec_openDisk_again quiet sound reliable orderly.fits clock color
  refine ⟨_, m, run, fun commands => Abreast.watch_eq orderly quiet rfl rfl commands ?_⟩
  refine ⟨disk.symm, output.symm, ⟨ImageDisk.image m₀.disk, m.directory, m.output⟩, [], ?_,
    Image.Grown.refl orderly rfl directory⟩
  exact ⟨disk ▸ sound, fun _ => disk ▸ reliable, congrArg ImageDisk.image disk, rfl, rfl⟩

theorem watch_afresh_small :
    ∃ sb m₀ v m, Mount.exec (Format.run { blocks := 8, inodes := 32 })
        (⟨⟨Buffer.zeros 8192⟩, {}, {}, #[]⟩ : Mount MemoryDisk) = (.ok sb, m₀) ∧
      Mount.exec (openDisk 0 false) m₀ = (.ok v, m) ∧
      watch v.within [(0, .touch [0x61]), (1, .mkdir [0x62]), (2, .touch [0x61]), (3, .ls true)] m
        = watch (afresh false)
          [(0, .touch [0x61]), (1, .mkdir [0x62]), (2, .touch [0x61]), (3, .ls true)] m₀ := by
  obtain ⟨sb, m₀, run, inOrder, -⟩ := Format.inOrder_small
  obtain ⟨v, m, opened, same⟩ := watch_afresh (fun _ _ _ _ _ => rfl) inOrder.sound inOrder.reliable
    inOrder.consistent.toOrderly 0 false
  exact ⟨sb, m₀, v, m, run, opened, same _⟩

end Volume

end MinixVolume

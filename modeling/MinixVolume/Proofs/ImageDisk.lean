import MinixVolume.Disk.Faulty
import MinixVolume.Disk.Memory
import MinixVolume.Proofs.Ending
import MinixVolume.Proofs.Window

namespace MinixVolume

/-- An error that does not tell of an inconsistent image. -/
def Error.Calm (e : Error) : Prop :=
  e.hasKind .inconsistent = false

def sizeLimit : Nat := 0x8000000000000000

inductive ReadAnswer (image : Buffer) (reliable : Prop) (off n : Nat) : Except Stop Buffer → Prop
  | bytes : off + n ≤ image.size → n ≤ Word.largestBuffer.toNat →
      ReadAnswer image reliable off n (.ok (image.window off n))
  | failed (e : Error) : e.Calm → (reliable → image.size < off + n) →
      ReadAnswer image reliable off n (.error (.error e))
  | exhausted : Word.largestBuffer.toNat < n →
      ReadAnswer image reliable off n (.error (.panic .allocation))

inductive WriteAnswer (image : Buffer) (reliable : Prop) (off : Nat) (data : Buffer) :
    Except Stop Unit → Buffer → Prop
  | stored : off + data.size ≤ image.size →
      WriteAnswer image reliable off data (.ok ()) (image.splice off data)
  | failed (e : Error) : e.Calm → (reliable → image.size < off + data.size) →
      WriteAnswer image reliable off data (.error (.error e)) image

/-- A disk that holds one image. A call that fails leaves the image alone, and nothing is said of
which calls fail, unless the disk is reliable. -/
class ImageDisk (δ : Type) [Disk δ] where
  image : δ → Buffer
  /-- The disk is in working order and can serve calls. -/
  Sound : δ → Prop
  /-- No call within the image fails, now or later. -/
  Reliable : δ → Prop
  size_lt : ∀ {d}, Sound d → (image d).size < sizeLimit
  read_answer : ∀ {d} (off n : UInt64), Sound d →
    ReadAnswer (image d) (Reliable d) off.toNat n.toNat ((Disk.read off n).run.run d).1
  read_image : ∀ {d} (off n : UInt64), Sound d →
    image ((Disk.read off n).run.run d).2 = image d
  read_keeps : ∀ {d} (off n : UInt64), Sound d →
    Sound ((Disk.read off n).run.run d).2 ∧
      (Reliable d → Reliable ((Disk.read off n).run.run d).2)
  write_answer : ∀ {d} (off : UInt64) {data : Buffer}, Sound d → data.size < UInt64.size →
    WriteAnswer (image d) (Reliable d) off.toNat data ((Disk.write off data).run.run d).1
      (image ((Disk.write off data).run.run d).2)
  write_keeps : ∀ {d} (off : UInt64) {data : Buffer}, Sound d → data.size < UInt64.size →
    Sound ((Disk.write off data).run.run d).2 ∧
      (Reliable d → Reliable ((Disk.write off data).run.run d).2)
  size_answer : ∀ {d}, Sound d → Reliable d →
    ((Disk.size (δ := δ)).run.run d).1 = .ok (UInt64.ofNat (image d).size)
  size_image : ∀ {d}, Sound d → image ((Disk.size (δ := δ)).run.run d).2 = image d
  size_keeps : ∀ {d}, Sound d →
    Sound ((Disk.size (δ := δ)).run.run d).2 ∧
      (Reliable d → Reliable ((Disk.size (δ := δ)).run.run d).2)

namespace MemoryDisk

theorem toNat_imageSize {d : MemoryDisk} (h : d.image.size < sizeLimit) :
    d.imageSize.toNat = d.image.size :=
  UInt64.toNat_ofNat_of_lt' (Nat.lt_trans h (by decide))

theorem read_eq {d : MemoryDisk} (h : d.image.size < sizeLimit) (off n : UInt64) :
    d.read off n =
      if off.toNat + n.toNat ≤ d.image.size then
        if Word.largestBuffer.toNat < n.toNat then .error (.panic .allocation)
        else .ok (d.image.window off.toNat n.toNat)
      else .error (.error (.outOfBounds .read off n d.imageSize)) := by
  simp only [read, checkBounds_eq, toNat_imageSize h, Word.checkAllocation,
    UInt64.lt_iff_toNat_lt]
  split
  · split
    · rfl
    · rfl
  · rfl

theorem write_eq {d : MemoryDisk} (h : d.image.size < sizeLimit) (off : UInt64) (data : Buffer) :
    d.write off data =
      if off.toNat + data.size ≤ d.image.size then (.ok (), ⟨d.image.splice off.toNat data⟩)
      else (.error (.error (.outOfBounds .write off (UInt64.ofNat data.size) d.imageSize)), d) := by
  rw [write, checkData_eq, toNat_imageSize h]
  by_cases hb : off.toNat + data.size ≤ d.image.size
  · rw [if_pos hb, if_pos hb]
  · rw [if_neg hb, if_neg hb]

instance : ImageDisk MemoryDisk where
  image := MemoryDisk.image
  Sound d := d.image.size < sizeLimit
  Reliable _ := True
  size_lt h := h
  read_answer := by
    intro d off n h
    change ReadAnswer _ _ _ _ (d.read off n)
    rw [read_eq h]
    split
    · split
      · exact .exhausted ‹_›
      · exact .bytes ‹_› (Nat.le_of_not_lt ‹_›)
    · exact .failed _ rfl fun _ => by omega
  read_image := by
    intro d off n h
    rfl
  read_keeps := by
    intro d off n h
    exact ⟨h, id⟩
  write_answer := by
    intro d off data h hd
    change WriteAnswer _ _ _ _ (d.write off data).1 (d.write off data).2.image
    rw [write_eq h off data]
    split
    · exact .stored ‹_›
    · exact .failed _ rfl fun _ => by omega
  write_keeps := by
    intro d off data h hd
    change (d.write off data).2.image.size < sizeLimit ∧ _
    rw [write_eq h off data]
    split
    · exact ⟨by rw [Buffer.size_splice ‹_›]; exact h, id⟩
    · exact ⟨h, id⟩
  size_answer := by
    intro d _ _
    rfl
  size_image := by
    intro d h
    rfl
  size_keeps := by
    intro d h
    exact ⟨h, id⟩

end MemoryDisk

structure ActsAsMemory {δ : Type} [Disk δ] (Holds : δ → Buffer → Prop) : Prop where
  read_eq : ∀ {d bytes} (off n : UInt64), bytes.size < sizeLimit → Holds d bytes →
    ((Disk.read off n).run.run d).1 = MemoryDisk.read off n ⟨bytes⟩ ∧
      Holds ((Disk.read off n).run.run d).2 bytes
  write_eq : ∀ {d bytes} (off : UInt64) (data : Buffer), bytes.size < sizeLimit → Holds d bytes →
    ((Disk.write off data).run.run d).1 = (MemoryDisk.write off data ⟨bytes⟩).1 ∧
      Holds ((Disk.write off data).run.run d).2 (MemoryDisk.write off data ⟨bytes⟩).2.image
  size_eq : ∀ {d bytes}, bytes.size < sizeLimit → Holds d bytes →
    (Disk.size (δ := δ)).run.run d = (.ok (UInt64.ofNat bytes.size), d)
  barrier_eq : ∀ {d bytes}, Holds d bytes → (Disk.barrier (δ := δ)).run.run d = (.ok (), d)

theorem ActsAsMemory.of_since {δ : Type} [Disk δ] {Since : δ → δ → Prop}
    {Holds : δ → Buffer → Prop} (refl : ∀ d, Since d d)
    (acts : ∀ d₀, ActsAsMemory fun d bytes => Since d₀ d ∧ Holds d bytes) :
    ActsAsMemory Holds where
  read_eq := by
    intro d bytes off n short h
    obtain ⟨answer, -, after⟩ := (acts d).read_eq off n short ⟨refl d, h⟩
    exact ⟨answer, after⟩
  write_eq := by
    intro d bytes off data short h
    obtain ⟨answer, -, after⟩ := (acts d).write_eq off data short ⟨refl d, h⟩
    exact ⟨answer, after⟩
  size_eq := by
    intro d bytes short h
    exact (acts d).size_eq short ⟨refl d, h⟩
  barrier_eq := by
    intro d bytes h
    exact (acts d).barrier_eq ⟨refl d, h⟩

theorem MemoryDisk.size_write {bytes : Buffer} (h : bytes.size < sizeLimit) (off : UInt64)
    (data : Buffer) : (MemoryDisk.write off data ⟨bytes⟩).2.image.size = bytes.size := by
  rw [write_eq h]
  split
  · next inside => exact Buffer.size_splice inside
  · rfl

@[reducible] def ActsAsMemory.imageDisk {δ : Type} [Disk δ] {Holds : δ → Buffer → Prop}
    (acts : ActsAsMemory Holds) (image : δ → Buffer)
    (unique : ∀ {d bytes}, Holds d bytes → image d = bytes) : ImageDisk δ where
  image := image
  Sound d := (image d).size < sizeLimit ∧ Holds d (image d)
  Reliable _ := True
  size_lt h := h.1
  read_answer := by
    intro d off n h
    rw [(acts.read_eq off n h.1 h.2).1]
    exact ImageDisk.read_answer (d := MemoryDisk.mk (image d)) off n h.1
  read_image := by
    intro d off n h
    exact unique (acts.read_eq off n h.1 h.2).2
  read_keeps := by
    intro d off n h
    have after := (acts.read_eq off n h.1 h.2).2
    rw [unique after]
    exact ⟨⟨h.1, after⟩, id⟩
  write_answer := by
    intro d off data h hd
    obtain ⟨answer, after⟩ := acts.write_eq off data h.1 h.2
    rw [answer, unique after]
    exact ImageDisk.write_answer (d := MemoryDisk.mk (image d)) off h.1 hd
  write_keeps := by
    intro d off data h hd
    have after := (acts.write_eq off data h.1 h.2).2
    rw [unique after, MemoryDisk.size_write h.1]
    exact ⟨⟨h.1, after⟩, id⟩
  size_answer := by
    intro d h _
    rw [acts.size_eq h.1 h.2]
  size_image := by
    intro d h
    rw [acts.size_eq h.1 h.2]
  size_keeps := by
    intro d h
    rw [acts.size_eq h.1 h.2]
    exact ⟨h, id⟩

class ExactDisk (δ : Type) [Disk δ] [ImageDisk δ] : Prop where
  acts : ActsAsMemory fun (d : δ) bytes => ImageDisk.Sound d ∧ ImageDisk.image d = bytes
  reliable : ∀ {d : δ}, ImageDisk.Sound d → ImageDisk.Reliable d

theorem ActsAsMemory.exactDisk {δ : Type} [Disk δ] {Holds : δ → Buffer → Prop}
    (acts : ActsAsMemory Holds) (image : δ → Buffer)
    (unique : ∀ {d bytes}, Holds d bytes → image d = bytes) :
    @ExactDisk δ _ (acts.imageDisk image unique) := by
  have sound {d : δ} {bytes : Buffer} (short : bytes.size < sizeLimit) (h : Holds d bytes) :
      ((image d).size < sizeLimit ∧ Holds d (image d)) ∧ image d = bytes := by
    rw [unique h]
    exact ⟨⟨short, h⟩, rfl⟩
  refine @ExactDisk.mk δ _ (acts.imageDisk image unique) ⟨?_, ?_, ?_, ?_⟩ fun _ => trivial
  · rintro d _ off n short ⟨h, rfl⟩
    obtain ⟨answer, after⟩ := acts.read_eq off n short h.2
    exact ⟨answer, sound short after⟩
  · rintro d _ off data short ⟨h, rfl⟩
    obtain ⟨answer, after⟩ := acts.write_eq off data short h.2
    refine ⟨answer, sound ?_ after⟩
    rw [MemoryDisk.size_write short]
    exact short
  · rintro d _ short ⟨h, rfl⟩
    exact acts.size_eq short h.2
  · rintro d _ ⟨h, rfl⟩
    exact acts.barrier_eq h.2

instance : ExactDisk MemoryDisk where
  acts := by
    refine ⟨?_, ?_, ?_, ?_⟩
    · rintro d _ off n short ⟨h, rfl⟩
      exact ⟨rfl, h, rfl⟩
    · rintro d _ off data short ⟨h, rfl⟩
      exact ⟨rfl, Nat.lt_of_le_of_lt (Nat.le_of_eq (MemoryDisk.size_write h off data)) h, rfl⟩
    · rintro d _ short ⟨h, rfl⟩
      rfl
    · rintro d _ ⟨h, rfl⟩
      rfl
  reliable _ := trivial

namespace FaultyDisk

variable {δ α : Type}

theorem guarded_cases (c : DiskCall) (x : ExceptT Stop (StateM δ) α) (d : FaultyDisk δ) :
    (d.rules ≠ [] ∧ ∃ rules,
      (guarded c x).run.run d = (.error (.error .injected), ⟨d.disk, rules⟩)) ∨
    ∃ rules, (d.rules = [] → rules = []) ∧
      (guarded c x).run.run d = ((x.run.run d.disk).1, ⟨(x.run.run d.disk).2, rules⟩) := by
  obtain ⟨disk, rules⟩ := d
  rcases h : FaultRule.strike c rules with ⟨hit, rules'⟩
  cases hit with
  | true =>
      refine .inl ⟨?_, rules', ?_⟩
      · rintro rfl
        cases h
      · simp only [guarded, ExceptT.run_mk, StateT.run, h]
  | false =>
      refine .inr ⟨rules', ?_, ?_⟩
      · rintro rfl
        cases h
        rfl
      · simp only [guarded, ExceptT.run_mk, StateT.run, h]
        rfl

variable [Disk δ] [ImageDisk δ]

theorem image_guarded (c : DiskCall) {x : ExceptT Stop (StateM δ) α} {d : FaultyDisk δ}
    (hx : ImageDisk.image (x.run.run d.disk).2 = ImageDisk.image d.disk) :
    ImageDisk.image ((guarded c x).run.run d).2.disk = ImageDisk.image d.disk := by
  rcases guarded_cases c x d with ⟨-, rules, e⟩ | ⟨rules, -, e⟩
  · rw [e]
  · rw [e]
    exact hx

theorem guarded_keeps (c : DiskCall) {x : ExceptT Stop (StateM δ) α} {d : FaultyDisk δ}
    (h : ImageDisk.Sound d.disk)
    (hx : ImageDisk.Sound (x.run.run d.disk).2 ∧
      (ImageDisk.Reliable d.disk → ImageDisk.Reliable (x.run.run d.disk).2)) :
    ImageDisk.Sound ((guarded c x).run.run d).2.disk ∧
      (d.rules = [] ∧ ImageDisk.Reliable d.disk →
        ((guarded c x).run.run d).2.rules = [] ∧
          ImageDisk.Reliable ((guarded c x).run.run d).2.disk) := by
  rcases guarded_cases c x d with ⟨hr, rules, e⟩ | ⟨rules, hn, e⟩
  · rw [e]
    exact ⟨h, fun hq => absurd hq.1 hr⟩
  · rw [e]
    exact ⟨hx.1, fun hq => ⟨hn hq.1, hx.2 hq.2⟩⟩

instance : ImageDisk (FaultyDisk δ) where
  image d := ImageDisk.image d.disk
  Sound d := ImageDisk.Sound d.disk
  Reliable d := d.rules = [] ∧ ImageDisk.Reliable d.disk
  size_lt h := ImageDisk.size_lt (δ := δ) h
  read_answer := by
    intro d off n h
    change ReadAnswer _ _ _ _ ((guarded (.read off n) (Disk.read off n)).run.run d).1
    have answer := ImageDisk.read_answer (δ := δ) off n h
    rcases guarded_cases (.read off n) (Disk.read off n) d with ⟨hr, rules, e⟩ | ⟨rules, -, e⟩
    · rw [e]
      exact .failed _ rfl fun hq => absurd hq.1 hr
    · rw [e]
      generalize ((Disk.read off n).run.run d.disk).1 = r at answer ⊢
      cases answer with
      | bytes hb hn => exact .bytes hb hn
      | failed e hc hq => exact .failed e hc fun hr => hq hr.2
      | exhausted hn => exact .exhausted hn
  read_image := by
    intro d off n h
    exact image_guarded (.read off n) (ImageDisk.read_image off n h)
  read_keeps := by
    intro d off n h
    exact guarded_keeps (.read off n) h (ImageDisk.read_keeps off n h)
  write_answer := by
    intro d off data h hd
    change WriteAnswer _ _ _ _ ((guarded (.write off data) (Disk.write off data)).run.run d).1
      (ImageDisk.image ((guarded (.write off data) (Disk.write off data)).run.run d).2.disk)
    have answer := ImageDisk.write_answer (δ := δ) off h hd
    rcases guarded_cases (.write off data) (Disk.write off data) d with
      ⟨hr, rules, e⟩ | ⟨rules, -, e⟩
    · rw [e]
      exact .failed _ rfl fun hq => absurd hq.1 hr
    · rw [e]
      generalize (Disk.write off data).run.run d.disk = ending at answer ⊢
      obtain ⟨r, d'⟩ := ending
      dsimp only at answer ⊢
      generalize ImageDisk.image d' = after at answer ⊢
      cases answer with
      | stored hb => exact .stored hb
      | failed e hc hq => exact .failed e hc fun hr => hq hr.2
  write_keeps := by
    intro d off data h hd
    exact guarded_keeps (.write off data) h (ImageDisk.write_keeps off h hd)
  size_answer := by
    intro d h hq
    change ((guarded .size Disk.size).run.run d).1 = _
    rcases guarded_cases .size Disk.size d with ⟨hr, rules, e⟩ | ⟨rules, -, e⟩
    · exact absurd hq.1 hr
    · rw [e]
      exact ImageDisk.size_answer (δ := δ) h hq.2
  size_image := by
    intro d h
    exact image_guarded .size (ImageDisk.size_image h)
  size_keeps := by
    intro d h
    exact guarded_keeps .size h (ImageDisk.size_keeps h)

end FaultyDisk

end MinixVolume

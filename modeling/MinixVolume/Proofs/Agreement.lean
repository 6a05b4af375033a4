import MinixVolume.Proofs.ImageDisk
import MinixVolume.Proofs.Twins

namespace MinixVolume

structure Buffer.AgreeOn (B : Nat → Prop) (b b' : Buffer) : Prop where
  size : b.size = b'.size
  bytes : ∀ k, B k → b.data[k]? = b'.data[k]?

def Run (off n k : Nat) : Prop :=
  off ≤ k ∧ k < off + n

def Covered (B : Nat → Prop) (off n : UInt64) : Prop :=
  ∀ k, Run off.toNat n.toNat k → B k

namespace Buffer.AgreeOn

variable {B C : Nat → Prop} {b b' : Buffer} {off n : Nat}

theorem mono (h : AgreeOn B b b') (sub : ∀ k, C k → B k) : AgreeOn C b b' :=
  ⟨h.size, fun k hk => h.bytes k (sub k hk)⟩

theorem window_eq (h : AgreeOn B b b') (inside : ∀ k, Run off n k → B k) :
    b.window off n = b'.window off n :=
  window_congr fun k lower upper => h.bytes k (inside k ⟨lower, upper⟩)

theorem bit_eq (h : AgreeOn B b b') {k : Nat} (hk : B (k / 8)) : b.bit k = b'.bit k :=
  bit_eq_of_getElem? (h.bytes _ hk)

theorem splice (h : AgreeOn B b b') {data : Buffer} (fits : off + data.size ≤ b.size) :
    AgreeOn (fun k => B k ∨ Run off data.size k) (b.splice off data) (b'.splice off data) := by
  have fits' : off + data.size ≤ b'.size := by
    rw [← h.size]
    exact fits
  refine ⟨by rw [size_splice fits, size_splice fits', h.size], ?_⟩
  intro k hk
  rw [getElem?_splice fits, getElem?_splice fits']
  by_cases inside : off ≤ k ∧ k < off + data.size
  · rw [if_pos inside, if_pos inside]
  · rw [if_neg inside, if_neg inside]
    rcases hk with hk | run
    · exact h.bytes k hk
    · exact absurd run inside

variable (short : b.size < sizeLimit)
include short

theorem read_eq (h : AgreeOn B b b') {off n : UInt64} (covered : Covered B off n) :
    MemoryDisk.read off n ⟨b⟩ = MemoryDisk.read off n ⟨b'⟩ := by
  have short' : b'.size < sizeLimit := h.size ▸ short
  rw [MemoryDisk.read_eq short, MemoryDisk.read_eq short']
  simp only [MemoryDisk.imageSize, h.size, h.window_eq covered]

theorem write_eq (h : AgreeOn B b b') (off : UInt64) (data : Buffer) :
    (MemoryDisk.write off data ⟨b⟩).1 = (MemoryDisk.write off data ⟨b'⟩).1 ∧
      AgreeOn B (MemoryDisk.write off data ⟨b⟩).2.image
        (MemoryDisk.write off data ⟨b'⟩).2.image := by
  have short' : b'.size < sizeLimit := h.size ▸ short
  rw [MemoryDisk.write_eq short, MemoryDisk.write_eq short']
  simp only [MemoryDisk.imageSize, h.size]
  by_cases inside : off.toNat + data.size ≤ b'.size
  · rw [if_pos inside, if_pos inside]
    exact ⟨rfl, (h.splice (h.size ▸ inside)).mono fun _ hk => .inl hk⟩
  · rw [if_neg inside, if_neg inside]
    exact ⟨rfl, h⟩

end Buffer.AgreeOn

variable {δ δ' : Type} [Disk δ] [ImageDisk δ] [Disk δ'] [ImageDisk δ']

structure Between (I : Buffer → Buffer → Prop) (d : δ) (d' : δ') : Prop where
  sound : ImageDisk.Sound d
  sound' : ImageDisk.Sound d'
  images : I (ImageDisk.image d) (ImageDisk.image d')

variable [ExactDisk δ] [ExactDisk δ'] {B : Nat → Prop}

theorem sameReads_between {I : Buffer → Buffer → Prop}
    (agree : ∀ {b b'}, I b b' → Buffer.AgreeOn B b b') :
    SameReads (Between I : δ → δ' → Prop) (Covered B) where
  answer := by
    intro d d' off n covered h
    have short := ImageDisk.size_lt h.sound
    have short' := ImageDisk.size_lt h.sound'
    rw [(ExactDisk.acts.read_eq off n short ⟨h.sound, rfl⟩).1,
      (ExactDisk.acts.read_eq off n short' ⟨h.sound', rfl⟩).1]
    exact (agree h.images).read_eq short covered
  keeps := by
    intro d d' off n covered h
    have short := ImageDisk.size_lt h.sound
    have short' := ImageDisk.size_lt h.sound'
    obtain ⟨-, sound, image⟩ := ExactDisk.acts.read_eq off n short ⟨h.sound, rfl⟩
    obtain ⟨-, sound', image'⟩ := ExactDisk.acts.read_eq off n short' ⟨h.sound', rfl⟩
    refine ⟨sound, sound', ?_⟩
    rw [image, image']
    exact h.images

theorem sameTransfers_between :
    SameTransfers (Between (Buffer.AgreeOn B) : δ → δ' → Prop) (Covered B) := by
  refine ⟨sameReads_between id, ?_, ?_⟩
  · intro d d' off data h
    have short := ImageDisk.size_lt h.sound
    have short' := ImageDisk.size_lt h.sound'
    rw [(ExactDisk.acts.write_eq off data short ⟨h.sound, rfl⟩).1,
      (ExactDisk.acts.write_eq off data short' ⟨h.sound', rfl⟩).1]
    exact (h.images.write_eq short off data).1
  · intro d d' off data h
    have short := ImageDisk.size_lt h.sound
    have short' := ImageDisk.size_lt h.sound'
    obtain ⟨-, sound, image⟩ := ExactDisk.acts.write_eq off data short ⟨h.sound, rfl⟩
    obtain ⟨-, sound', image'⟩ := ExactDisk.acts.write_eq off data short' ⟨h.sound', rfl⟩
    refine ⟨sound, sound', ?_⟩
    rw [image, image']
    exact (h.images.write_eq short off data).2

namespace Mount

theorem alike_blockCount {P : Inode → Prop} :
    Alike (Between (Buffer.AgreeOn B)) P (blockCount : MountM δ UInt64)
      (blockCount : MountM δ' UInt64) := by
  have size : Alike (Between (Buffer.AgreeOn B)) P (Mount.size : MountM δ UInt64)
      (Mount.size : MountM δ' UInt64) := by
    intro m m' h
    have run := ExactDisk.acts.size_eq (ImageDisk.size_lt h.disk.sound) ⟨h.disk.sound, rfl⟩
    have run' := ExactDisk.acts.size_eq (ImageDisk.size_lt h.disk.sound') ⟨h.disk.sound', rfl⟩
    rw [Mount.size, Mount.size, exec_onDisk, exec_onDisk, run, run', h.disk.images.size]
    exact ⟨rfl, h⟩
  exact size.bind fun _ => .pure _

theorem tracks_overwrite (off : UInt64) (data : Buffer) :
    Tracks (Between (Buffer.AgreeOn B))
      (Between (Buffer.AgreeOn fun k => B k ∨ Run off.toNat data.size k))
      (writeAt off data : MountM δ Unit) (writeAt off data : MountM δ' Unit) := by
  have transfer : Tracks (Between (Buffer.AgreeOn B))
      (Between (Buffer.AgreeOn fun k => B k ∨ Run off.toNat data.size k))
      (onDisk (Disk.write off data) : MountM δ Unit)
      (onDisk (Disk.write off data) : MountM δ' Unit) := by
    intro m m' a m₁ h run
    have short := ImageDisk.size_lt h.disk.sound
    have short' := ImageDisk.size_lt h.disk.sound'
    obtain ⟨answer, sound, image⟩ := ExactDisk.acts.write_eq off data short ⟨h.disk.sound, rfl⟩
    obtain ⟨answer', sound', image'⟩ :=
      ExactDisk.acts.write_eq off data short' ⟨h.disk.sound', rfl⟩
    rw [exec_onDisk] at run
    obtain ⟨done, rfl⟩ := Prod.mk.inj run
    rw [answer, MemoryDisk.write_eq short] at done
    rw [MemoryDisk.write_eq short] at image
    rw [MemoryDisk.write_eq short', ← h.disk.images.size] at answer' image'
    by_cases inside : off.toNat + data.size ≤ (ImageDisk.image m.disk).size
    · rw [if_pos inside] at image answer' image'
      refine ⟨{ m' with disk := ((Disk.write off data).run.run m'.disk).2 }, ?_,
        ⟨sound, sound', ?_⟩, h.directory, h.output, trivial⟩
      · rw [exec_onDisk, answer']
      · rw [image, image']
        exact h.disk.images.splice inside
    · rw [if_neg inside] at done
      cases done
  exact transfer.bind fun _ => (Alike.traced _ ()).tracks

end Mount

end MinixVolume

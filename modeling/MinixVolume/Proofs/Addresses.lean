import MinixVolume.Proofs.Record

namespace MinixVolume

def Inode.place (table number : UInt64) : Nat :=
  table.toNat + (number.toNat - 1) * 32

inductive Access where
  | readBlocks (block count : UInt64)
  | readBlock (block : UInt64)
  | writeBlock (block : UInt64) (data : Buffer)
  | readInode (table number : UInt64)
  | writeInode (table number : UInt64) (ip : Inode)

namespace Access

inductive Found where
  | bytes (b : Buffer)
  | inode (ip : Inode)
  | done

def Ready : Access → Prop
  | .writeBlock _ data => data.size = 1024
  | .readInode _ number | .writeInode _ number _ => 1 ≤ number.toNat
  | .readBlocks .. | .readBlock _ => True

/-- Where the bytes are that the call is about, in exact arithmetic. -/
def place : Access → Nat
  | .readBlocks block _ | .readBlock block | .writeBlock block _ => block.toNat * 1024
  | .readInode table number | .writeInode table number _ => Inode.place table number

def length : Access → Nat
  | .readBlocks _ count => count.toNat * 1024
  | .readBlock _ | .writeBlock .. => 1024
  | .readInode .. | .writeInode .. => 32

def run {δ : Type} [Disk δ] : Access → MountM δ Found
  | .readBlocks block count => .bytes <$> Mount.readBlocks block count
  | .readBlock block => .bytes <$> Mount.readBlock block
  | .writeBlock block data => (fun _ => .done) <$> Mount.writeBlock block data
  | .readInode table number => .inode <$> Inode.load table number
  | .writeInode table number ip => (fun _ => .done) <$> Inode.store table number ip

def found (img : Buffer) (off n : Nat) : Access → Found
  | .readBlocks .. | .readBlock _ => .bytes (img.window off n)
  | .readInode .. => .inode (Inode.ofRecord (Buffer.toBytes (img.window off n)))
  | .writeBlock .. | .writeInode .. => .done

def effect (img : Buffer) (off : Nat) : Access → Buffer
  | .writeBlock _ data => img.splice off data
  | .writeInode _ _ ip => img.splice off (Buffer.ofBytes ip.encode)
  | .readBlocks .. | .readBlock _ | .readInode .. => img

/-- The call is answered as a transfer of `n` bytes at `off`. Inside the image it succeeds, beyond
the end it fails and changes nothing. -/
structure AnsweredAt (a : Access) (img : Buffer) (off n : Nat) (answer : Except Stop Found)
    (after : Buffer) : Prop where
  inside : off + n ≤ img.size →
    answer = .ok (a.found img off n) ∧ after = a.effect img off
  outside : img.size < off + n →
    (∃ e : Error, answer = .error (.error e) ∧ e.hasKind .unexpectedEnd = true) ∧ after = img

/-- The call is about bytes past the end of the image, but the words it computes with are not. -/
def Slips (a : Access) (size : Nat) : Prop :=
  size < a.place + a.length ∧ a.place % UInt64.size + a.length % UInt64.size ≤ size

/-- The words that the call computes with are about bytes of the image, and about more of them than
a buffer can have. -/
def Oversized (a : Access) (size : Nat) : Prop :=
  a.place % UInt64.size + a.length % UInt64.size ≤ size ∧
    Word.largestBuffer.toNat < a.length % UInt64.size

instance (a : Access) (size : Nat) : Decidable (a.Slips size) :=
  inferInstanceAs (Decidable (_ ∧ _))

instance (a : Access) (size : Nat) : Decidable (a.Oversized size) :=
  inferInstanceAs (Decidable (_ ∧ _))

theorem not_slips {a : Access} (lt : a.place + a.length < UInt64.size) (size : Nat) :
    ¬ a.Slips size := by
  rintro ⟨beyond, within⟩
  rw [Nat.mod_eq_of_lt (by omega), Nat.mod_eq_of_lt (by omega)] at within
  omega

theorem toNat_blocks (n : UInt64) : (n * blockSize).toNat = n.toNat * 1024 % UInt64.size := by
  rw [UInt64.toNat_mul]
  rfl

end Access

theorem Inode.size_encode (ip : Inode) : (Buffer.ofBytes ip.encode).size = 32 := by
  rw [Buffer.size_ofBytes, length_encode]

theorem Inode.offset_wrapped (table : UInt64) {number : UInt64} (pos : 1 ≤ number.toNat) :
    ∃ off, Inode.offset table number = .ok off ∧
      off.toNat = place table number % UInt64.size := by
  have nonzero : number ≠ 0 := by
    rintro rfl
    exact absurd pos (by decide)
  refine ⟨_, if_neg nonzero, ?_⟩
  have less : (number - 1).toNat = number.toNat - 1 :=
    UInt64.toNat_sub_of_le _ _ (by rw [UInt64.le_iff_toNat_le]; exact pos)
  rw [UInt64.toNat_add, UInt64.toNat_mul, less, place]
  simp [UInt64.size]

theorem MemoryDisk.sound_of_size {img : Buffer} {n : Nat} (size : img.size = n)
    (lt : n < sizeLimit) : ImageDisk.Sound (MemoryDisk.mk img) := by
  change img.size < sizeLimit
  rw [size]
  exact lt

theorem Mount.Ends.map {δ α β : Type} {x : MountM δ α} {m : Mount δ} {Q : α → Mount δ → Prop}
    {P : β → Mount δ → Prop} {E : Stop → Mount δ → Prop} {f : α → β} (h : Ends x m Q E)
    (hQ : ∀ a m', Q a m' → P (f a) m') : Ends (f <$> x) m P E := by
  rw [map_eq_pure_bind]
  exact h.next fun a m' ha => Ends.pure (hQ a m' ha)

section Transfers

variable {δ : Type} [Disk δ] [ImageDisk δ] [ExactDisk δ] {m : Mount δ} {s : Scene}

omit [ExactDisk δ] in
theorem Mount.ends_during_refused {α : Type} {x : MountM δ α} {Q : α → Mount δ → Prop}
    {off n : Nat} (op : Transfer) (place : Place)
    (h : Ends x m Q fun t m' => Refused s.image.size off n t ∧ m'.Shows True s) :
    Ends (wrapping (.during op place) x) m Q
      fun t m' => Refused s.image.size off n t ∧ m'.Shows True s := by
  refine h.wrapping ?_ fun _ _ stop => stop
  rintro e m' ⟨refused, h'⟩
  exact ⟨refused.during op place, h'⟩

namespace Inode

variable {table number off : UInt64} (offset : Inode.offset table number = .ok off)
include offset

theorem ends_load_at (h : m.Shows True s) :
    Mount.Ends (load table number) m
      (fun ip m' => off.toNat + 32 ≤ s.image.size ∧
        ip = ofRecord (Buffer.toBytes (s.image.window off.toNat 32)) ∧ m'.Shows True s)
      (fun t m' => Mount.Refused s.image.size off.toNat 32 t ∧ m'.Shows True s) := by
  have read := Mount.ends_readAt_refused h off 32
  rw [load, offset]
  apply Mount.Ends.ok_bind
  refine Mount.Ends.next (Mount.ends_during_refused .read (.inode number) read) ?_
  rintro b m₁ ⟨inside, rfl, -, h₁⟩
  have data : decode (s.image.window off.toNat 32)
      = .ok (ofRecord (Buffer.toBytes (s.image.window off.toNat 32))) :=
    if_neg (not_not_intro (Buffer.size_window inside))
  refine Mount.Ends.next (Mount.ends_trace h₁ _) ?_
  intro _ m₂ h₂
  exact Mount.Ends.of_exec ((Mount.exec_liftExcept _ m₂).trans (congrArg (·, m₂) data))
    ⟨inside, rfl, h₂⟩

theorem ends_store_at (h : m.Shows True s) (ip : Inode) :
    Mount.Ends (store table number ip) m
      (fun _ m' => off.toNat + 32 ≤ s.image.size ∧
        m'.Shows True { s with image := s.image.splice off.toNat (Buffer.ofBytes ip.encode) })
      (fun t m' => Mount.Refused s.image.size off.toNat 32 t ∧ m'.Shows True s) := by
  have write := Mount.ends_writeAt_refused h off (Buffer.ofBytes ip.encode)
  rw [ip.size_encode] at write
  rw [store, offset]
  apply Mount.Ends.ok_bind
  refine Mount.Ends.next (Mount.ends_during_refused .write (.inode number) write) ?_
  rintro _ m₁ ⟨inside, h₁⟩
  exact (Mount.ends_trace h₁ _).imp fun _ m₂ h₂ => ⟨inside, h₂⟩

end Inode

namespace Access

theorem ends_run (h : m.Shows True s) {a : Access} (ready : a.Ready) {off n : Nat}
    (place : off = a.place % UInt64.size) (length : n = a.length % UInt64.size) :
    Mount.Ends a.run m
      (fun r m' => off + n ≤ s.image.size ∧ r = a.found s.image off n ∧
        n ≤ Word.largestBuffer.toNat ∧ m'.Shows True { s with image := a.effect s.image off })
      (fun t m' => Mount.Refused s.image.size off n t ∧ m'.Shows True s) := by
  subst place length
  cases a with
  | readBlocks block count =>
      have read := Mount.ends_readAt_refused h (block * blockSize) (count * blockSize)
      rw [toNat_blocks, toNat_blocks] at read
      refine Mount.Ends.map read ?_
      rintro _ m' ⟨inside, rfl, room, h'⟩
      exact ⟨inside, rfl, room, h'⟩
  | readBlock block =>
      have read := Mount.ends_readAt_refused h (block * blockSize) blockSize
      rw [toNat_blocks] at read
      refine Mount.Ends.map read ?_
      rintro _ m' ⟨inside, rfl, room, h'⟩
      exact ⟨inside, rfl, room, h'⟩
  | writeBlock block data =>
      have write := Mount.ends_writeAt_refused h (block * blockSize) data
      have sized : data.size = 1024 := ready
      have small : 1024 % UInt64.size ≤ Word.largestBuffer.toNat := by decide
      rw [toNat_blocks, sized] at write
      have whole : Mount.writeBlock block data = Mount.writeAt (δ := δ) (block * blockSize) data :=
        if_neg (not_not_intro sized)
      rw [run, whole]
      refine Mount.Ends.map write ?_
      rintro _ m' ⟨inside, h'⟩
      exact ⟨inside, rfl, small, h'⟩
  | readInode table number =>
      obtain ⟨off, offset, place⟩ := Inode.offset_wrapped table ready
      have load := Inode.ends_load_at offset h
      have small : 32 % UInt64.size ≤ Word.largestBuffer.toNat := by decide
      rw [place] at load
      refine Mount.Ends.map load ?_
      rintro _ m' ⟨inside, rfl, h'⟩
      exact ⟨inside, rfl, small, h'⟩
  | writeInode table number ip =>
      obtain ⟨off, offset, place⟩ := Inode.offset_wrapped table ready
      have store := Inode.ends_store_at offset h ip
      have small : 32 % UInt64.size ≤ Word.largestBuffer.toNat := by decide
      rw [place] at store
      refine Mount.Ends.map store ?_
      rintro _ m' ⟨inside, h'⟩
      exact ⟨inside, rfl, small, h'⟩

theorem answered_wrapped (sound : ImageDisk.Sound m.disk) {a : Access} (ready : a.Ready) :
    ∃ answer m', Mount.exec a.run m = (answer, m') ∧
      (¬ a.Oversized (ImageDisk.image m.disk).size →
        a.AnsweredAt (ImageDisk.image m.disk) (a.place % UInt64.size) (a.length % UInt64.size)
          answer (ImageDisk.image m'.disk)) ∧
      (a.Oversized (ImageDisk.image m.disk).size →
        answer = .error (.panic .allocation) ∧
          ImageDisk.image m'.disk = ImageDisk.image m.disk) := by
  have shows := Mount.shows_scene sound (ExactDisk.reliable sound)
  rcases (ends_run shows ready rfl rfl).exec_eq with
    ⟨r, m', run, inside, rfl, room, h'⟩ | ⟨t, m', run, refused, h'⟩
  · refine ⟨_, m', run, fun _ => ⟨fun _ => ⟨rfl, h'.image⟩, fun beyond => ?_⟩, ?_⟩
    · exact absurd inside (Nat.not_le_of_lt beyond)
    · rintro ⟨-, large⟩
      exact absurd large (Nat.not_lt_of_le room)
  · refine ⟨_, m', run, ?_⟩
    cases refused with
    | beyond e lt kinds =>
        refine ⟨fun _ => ⟨fun inside => absurd inside (Nat.not_le_of_lt lt), fun _ => ?_⟩, ?_⟩
        · refine ⟨⟨e, rfl, ?_⟩, h'.image⟩
          rw [Error.hasKind, kinds]
          rfl
        · rintro ⟨inside, -⟩
          exact absurd inside (Nat.not_le_of_lt lt)
    | memory inside large =>
        exact ⟨fun able => absurd ⟨inside, large⟩ able, fun _ => ⟨rfl, h'.image⟩⟩

theorem not_answeredAt_panic {a : Access} {img after : Buffer} {off n : Nat} {p : Panic} :
    ¬ a.AnsweredAt img off n (.error (.panic p)) after := by
  intro answered
  rcases Nat.lt_or_ge img.size (off + n) with beyond | inside
  · obtain ⟨⟨e, answer, -⟩, -⟩ := answered.outside beyond
    cases answer
  · cases (answered.inside inside).1

theorem AnsweredAt.exact_iff {a : Access} {img after : Buffer} {answer : Except Stop Found}
    (short : img.size < UInt64.size)
    (h : a.AnsweredAt img (a.place % UInt64.size) (a.length % UInt64.size) answer after) :
    a.AnsweredAt img a.place a.length answer after ↔ ¬ a.Slips img.size := by
  constructor
  · rintro exactly ⟨beyond, within⟩
    obtain ⟨⟨e, rfl, -⟩, -⟩ := exactly.outside beyond
    cases (h.inside within).1
  · intro kept
    refine ⟨fun inside => ?_, fun beyond => ?_⟩
    · rw [Nat.mod_eq_of_lt (by omega), Nat.mod_eq_of_lt (by omega)] at h
      exact h.inside inside
    · exact h.outside (Nat.lt_of_not_le fun within => kept ⟨beyond, within⟩)

/-- Offsets and lengths are taken modulo the size of a word. Exactly the calls that slip, and those
that no buffer is large enough for, are answered otherwise than exact arithmetic demands. No call
slips whose end is a word. -/
theorem answered_exactly_iff (sound : ImageDisk.Sound m.disk) (a : Access) (ready : a.Ready) :
    ∃ answer m', Mount.exec a.run m = (answer, m') ∧
      (¬ a.Oversized (ImageDisk.image m.disk).size →
        a.AnsweredAt (ImageDisk.image m.disk) (a.place % UInt64.size) (a.length % UInt64.size)
          answer (ImageDisk.image m'.disk)) ∧
      (a.Oversized (ImageDisk.image m.disk).size →
        answer = .error (.panic .allocation) ∧
          ImageDisk.image m'.disk = ImageDisk.image m.disk) ∧
      (a.AnsweredAt (ImageDisk.image m.disk) a.place a.length answer (ImageDisk.image m'.disk) ↔
        ¬ a.Slips (ImageDisk.image m.disk).size ∧ ¬ a.Oversized (ImageDisk.image m.disk).size) ∧
      (a.place + a.length < UInt64.size → ¬ a.Slips (ImageDisk.image m.disk).size) := by
  obtain ⟨answer, m', run, answered, panicked⟩ := answered_wrapped sound ready
  have limit : sizeLimit < UInt64.size := by decide
  have short := Nat.lt_trans (ImageDisk.size_lt sound) limit
  refine ⟨answer, m', run, answered, panicked, ?_, fun lt => not_slips lt _⟩
  by_cases oversized : a.Oversized (ImageDisk.image m.disk).size
  · rw [(panicked oversized).1]
    exact iff_of_false not_answeredAt_panic fun fine => fine.2 oversized
  · rw [(answered oversized).exact_iff short]
    exact (and_iff_left oversized).symm

theorem answered_exactly_iff_last :
    ∃ (a : Access) (answer : Except Stop Found) (m' : Mount MemoryDisk),
      a = .writeInode 4096 128 {} ∧ a.Ready ∧ ¬ a.Slips 8192 ∧
      Mount.exec a.run (⟨⟨Buffer.zeros 8192⟩, {}, {}, #[]⟩ : Mount MemoryDisk) = (answer, m') ∧
      a.AnsweredAt (Buffer.zeros 8192) 8160 32 answer m'.disk.image := by
  have size := Buffer.size_zeros 8192
  have sound := MemoryDisk.sound_of_size size (by decide)
  have ready : (writeInode 4096 128 {}).Ready := show 1 ≤ (128 : UInt64).toNat by decide
  have kept : ¬ (writeInode 4096 128 {}).Slips 8192 := by decide
  have able : ¬ (writeInode 4096 128 {}).Oversized 8192 := by decide
  obtain ⟨answer, m', run, -, -, exactly, -⟩ := answered_exactly_iff
    (m := (⟨⟨Buffer.zeros 8192⟩, {}, {}, #[]⟩ : Mount MemoryDisk)) sound (writeInode 4096 128 {})
    ready
  refine ⟨_, answer, m', rfl, ready, kept, run, exactly.mpr ?_⟩
  change ¬ (writeInode 4096 128 {}).Slips (Buffer.zeros 8192).size ∧
    ¬ (writeInode 4096 128 {}).Oversized (Buffer.zeros 8192).size
  rw [size]
  exact ⟨kept, able⟩

theorem answered_exactly_fails :
    ∃ (a : Access) (answer : Except Stop Found) (m' : Mount MemoryDisk),
      a = .readBlock 0x40000000000000 ∧ a.Ready ∧ 8192 < a.place + a.length ∧
      Mount.exec a.run (⟨⟨Buffer.zeros 8192⟩, {}, {}, #[]⟩ : Mount MemoryDisk) = (answer, m') ∧
      answer = .ok (.bytes ((Buffer.zeros 8192).window 0 1024)) ∧
      ¬ a.AnsweredAt (Buffer.zeros 8192) a.place a.length answer m'.disk.image := by
  have size := Buffer.size_zeros 8192
  have sound := MemoryDisk.sound_of_size size (by decide)
  have slips : (readBlock 0x40000000000000).Slips (Buffer.zeros 8192).size := by
    rw [size]
    decide
  have able : ¬ (readBlock 0x40000000000000).Oversized (Buffer.zeros 8192).size := by
    rw [size]
    decide
  obtain ⟨answer, m', run, answered, -⟩ := answered_wrapped
    (m := (⟨⟨Buffer.zeros 8192⟩, {}, {}, #[]⟩ : Mount MemoryDisk)) (a := readBlock 0x40000000000000)
    sound trivial
  refine ⟨_, answer, m', rfl, trivial, by decide, run, ?_, ?_⟩
  · exact ((answered able).inside slips.2).1
  · have short : (Buffer.zeros 8192).size < UInt64.size := by
      rw [size]
      decide
    exact fun exactly => ((answered able).exact_iff short).mp exactly slips

end Access

end Transfers

end MinixVolume

import MinixVolume.Disk.File
import MinixVolume.Proofs.ImageDisk

namespace MinixVolume

namespace HostFile

variable {f : HostFile}

theorem getElem?_toBuffer (f : HostFile) (k : Nat) :
    f.toBuffer.data[k]? = if k < f.size then some (f.byteAt k) else none := by
  have size : f.toBuffer.data.size = f.size := ByteArray.size_data.trans (f.size_read 0 f.size)
  by_cases hk : k < f.size
  · rw [if_pos hk, toBuffer, getElem?_read f 0 hk, Nat.zero_add]
  · rw [if_neg hk, Array.getElem?_eq_none (by omega)]

@[simp] theorem size_toBuffer (f : HostFile) : f.toBuffer.size = f.size :=
  f.size_read 0 f.size

theorem read_eq {pos n : Nat} (inside : pos + n ≤ f.size) :
    f.read pos n = f.toBuffer.window pos n := by
  have size : (f.read pos n).data.size = n := ByteArray.size_data.trans (f.size_read pos n)
  apply Buffer.ext_getElem?
  intro k
  rw [Buffer.getElem?_window, getElem?_toBuffer]
  by_cases hk : k < n
  · rw [if_pos hk, if_pos (by omega), getElem?_read f pos hk]
  · rw [if_neg hk, Array.getElem?_eq_none (by omega)]

theorem size_write {off : Nat} {data : Buffer} (inside : off + data.size ≤ f.size) :
    (f.write off data).size = f.size :=
  Nat.max_eq_left inside

theorem toBuffer_write {off : Nat} {data : Buffer} (inside : off + data.size ≤ f.size) :
    (f.write off data).toBuffer = f.toBuffer.splice off data := by
  have hd : data.data.size = data.size := ByteArray.size_data
  apply Buffer.ext_getElem?
  intro k
  rw [Buffer.getElem?_splice (by rw [size_toBuffer]; exact inside), getElem?_toBuffer,
    getElem?_toBuffer, size_write inside, byteAt_write, byteOf]
  dsimp only
  by_cases within : off ≤ k ∧ k < off + data.size
  · rw [if_pos (by omega), if_pos within, if_pos within.1,
      Array.getElem?_eq_getElem (by omega), Option.getD_some]
  · rw [if_neg within]
    split
    · split
      · rw [Array.getElem?_eq_none (by omega), Option.getD_none]
      · rfl
    · rfl

end HostFile

theorem FileTree.find?_store {t : FileTree} {p : List Bytes} {content : HostFile}
    (h : t.find? p = some (.file content)) (after : HostFile) (q : List Bytes) :
    (t.store p after).find? q = if q = p then some (.file after) else t.find? q := by
  have below : ¬ p.isPrefixOf t.workingDirectory = true := by
    intro above
    rw [find?, if_pos above] at h
    cases h
  have plain : t.isSink p = false := by
    rw [isSink, h]
  rw [store, plain, if_neg Bool.false_ne_true, find?, insert, lookup_replace]
  by_cases same : q = p
  · rw [if_pos same, if_pos same, same, if_neg below]
  · rw [if_neg same, if_neg same]
    rfl

namespace FileDisk

theorem portion_le (portions : List Nat) (n : Nat) : portion portions n ≤ n := by
  unfold portion
  split
  · exact Nat.le_refl n
  · exact Nat.min_le_left _ _

theorem readFrom_eq (content : HostFile) (pos n : Nat) (got : Buffer) (portions : List Nat)
    (inside : pos + n ≤ content.size) :
    ∃ rest, readFrom content pos n got portions =
      (.ok (got ++ content.toBuffer.window pos n), rest) := by
  fun_induction readFrom content pos n got portions with
  | case1 pos got portions =>
      exact ⟨portions, by rw [Buffer.window_zero, ByteArray.append_empty]⟩
  | case2 pos n got portions hn m stuck =>
      have := portion_pos portions hn
      omega
  | case3 pos n got portions hn m moved ih =>
      have le := portion_le portions n
      have moved_le : m ≤ n := Nat.le_trans (Nat.min_le_left _ _) le
      obtain ⟨rest, run⟩ := ih (by omega)
      refine ⟨rest, ?_⟩
      rw [run, HostFile.read_eq (by omega), ByteArray.append_assoc,
        Buffer.window_append_window (by rw [HostFile.size_toBuffer]; omega),
        Nat.add_sub_cancel' moved_le]

theorem writeFrom_eq (content : HostFile) (off : Nat) (data : Buffer) (done : Nat)
    (portions : List Nat) (le : done ≤ data.size) (inside : off + data.size ≤ content.size) :
    (writeFrom content off data done portions).1.toBuffer =
      content.toBuffer.splice (off + done) (data.window done (data.size - done)) := by
  fun_induction writeFrom content off data done portions with
  | case1 content done portions finished =>
      rw [Nat.sub_eq_zero_of_le finished, Buffer.window_zero, Buffer.splice_empty]
  | case2 content done portions unfinished m ih =>
      have moved : m ≤ data.size - done := portion_le portions _
      have size : (data.window done m).size = m := Buffer.size_window (by omega)
      have room : off + done + (data.window done m).size ≤ content.size := by omega
      have join := Buffer.window_append_window (b := data) (n := data.size - (done + m))
        (show done + m ≤ data.size by omega)
      rw [show m + (data.size - (done + m)) = data.size - done by omega] at join
      rw [← Buffer.window, HostFile.size_write room] at ih
      rw [← Buffer.window, ih (by omega) inside, HostFile.toBuffer_write room, ← join,
        Buffer.splice_append, size, Nat.add_assoc]
      rw [size, Buffer.size_window (by omega), HostFile.size_toBuffer]
      omega

structure Holds (d : FileDisk) (bytes : Buffer) : Prop where
  isOpen : d.handle.isOpen = true
  content : ∃ content, d.files.find? d.handle.path = some (.file content) ∧
    content.toBuffer = bytes
  size : d.handle.size.toNat = bytes.size

structure Beside (d after : FileDisk) : Prop where
  handle : after.handle = d.handle
  others : ∀ q, q ≠ d.handle.path → after.files.find? q = d.files.find? q

theorem Beside.refl (d : FileDisk) : Beside d d :=
  ⟨rfl, fun _ _ => rfl⟩

theorem Beside.trans {d₀ d₁ d₂ : FileDisk} (h₁ : Beside d₀ d₁) (h₂ : Beside d₁ d₂) :
    Beside d₀ d₂ := by
  refine ⟨h₂.handle.trans h₁.handle, fun q hq => ?_⟩
  rw [h₂.others q (by rw [h₁.handle]; exact hq), h₁.others q hq]

section Calls

variable {d : FileDisk} {bytes : Buffer} (h : d.Holds bytes)
include h

theorem Holds.size_eq : d.handle.size = UInt64.ofNat bytes.size := by
  rw [← h.size, UInt64.ofNat_toNat]

theorem Holds.content_eq (short : bytes.size < sizeLimit) {off n : Nat}
    (inside : off + n ≤ bytes.size) :
    ∃ content, d.content off n = .ok content ∧
      d.files.find? d.handle.path = some (.file content) ∧ content.toBuffer = bytes := by
  have limit : placeLimit = sizeLimit := rfl
  obtain ⟨content, found, toBuffer⟩ := h.content
  refine ⟨content, ?_, found, toBuffer⟩
  rw [FileDisk.content, if_neg (by omega), h.isOpen, Bool.not_true, if_neg Bool.false_ne_true,
    if_neg (by omega), FileTree.content?, found]

theorem Holds.read_eq (short : bytes.size < sizeLimit) (off n : UInt64) :
    ∃ rest, d.read off n = (MemoryDisk.read off n ⟨bytes⟩, { d with portions := rest }) := by
  rw [MemoryDisk.read_eq short, read, checkBounds_eq, h.size]
  by_cases inside : off.toNat + n.toNat ≤ bytes.size
  · rw [if_pos inside, if_pos inside, Word.checkAllocation]
    by_cases long : Word.largestBuffer < n
    · rw [if_pos long, if_pos (UInt64.lt_iff_toNat_lt.mp long)]
      exact ⟨d.portions, rfl⟩
    rw [if_neg long, if_neg (mt UInt64.lt_iff_toNat_lt.mpr long)]
    dsimp only [SeqRight.seqRight, Except.bind]
    by_cases none : n = 0
    · rw [if_pos none, none, UInt64.toNat_zero, Buffer.window_zero]
      exact ⟨d.portions, rfl⟩
    obtain ⟨content, opened, -, toBuffer⟩ := h.content_eq short inside
    have room : off.toNat + n.toNat ≤ content.size := by
      rw [← HostFile.size_toBuffer, toBuffer]
      exact inside
    obtain ⟨rest, run⟩ := readFrom_eq content off.toNat n.toNat .empty d.portions room
    refine ⟨rest, ?_⟩
    rw [if_neg none, opened]
    dsimp only
    rw [run, toBuffer, ByteArray.empty_append]
  · rw [if_neg inside, if_neg inside, h.size_eq]
    exact ⟨d.portions, rfl⟩

theorem Holds.write_eq (short : bytes.size < sizeLimit) (off : UInt64) (data : Buffer) :
    ∃ after, d.write off data = ((MemoryDisk.write off data ⟨bytes⟩).1, after) ∧ Beside d after ∧
      after.Holds (MemoryDisk.write off data ⟨bytes⟩).2.image := by
  rw [MemoryDisk.write_eq short, write, checkData_eq, h.size]
  by_cases inside : off.toNat + data.size ≤ bytes.size
  · rw [if_pos inside, if_pos inside]
    dsimp only
    by_cases none : data.size = 0
    · have empty : data = .empty := ByteArray.size_eq_zero_iff.mp none
      rw [if_pos none, empty, Buffer.splice_empty]
      exact ⟨d, rfl, .refl d, h⟩
    obtain ⟨content, opened, found, toBuffer⟩ := h.content_eq short inside
    have room : off.toNat + data.size ≤ content.size := by
      rw [← HostFile.size_toBuffer, toBuffer]
      exact inside
    have patched := writeFrom_eq content off.toNat data 0 d.portions (Nat.zero_le _) room
    rw [Nat.add_zero, Nat.sub_zero, Buffer.window_self, toBuffer] at patched
    have store := FileTree.find?_store found
      (writeFrom content off.toNat data 0 d.portions).1
    rw [if_neg none, opened]
    refine ⟨_, rfl, ⟨rfl, fun q hq => ?_⟩, h.isOpen, ⟨_, ?_, patched⟩, ?_⟩
    · rw [store, if_neg hq]
    · rw [store, if_pos rfl]
    · rw [Buffer.size_splice inside]
      exact h.size
  · rw [if_neg inside, if_neg inside, h.size_eq]
    exact ⟨d, rfl, .refl d, h⟩

end Calls

theorem actsBeside (d₀ : FileDisk) :
    ActsAsMemory fun d bytes => Beside d₀ d ∧ Holds d bytes where
  read_eq := by
    rintro d bytes off n short ⟨beside, h⟩
    obtain ⟨rest, run⟩ := h.read_eq short off n
    change (d.read off n).1 = _ ∧ Beside d₀ (d.read off n).2 ∧ Holds (d.read off n).2 bytes
    rw [run]
    exact ⟨rfl, ⟨beside.handle, beside.others⟩, h.isOpen, h.content, h.size⟩
  write_eq := by
    rintro d bytes off data short ⟨beside, h⟩
    obtain ⟨after, run, next, holds⟩ := h.write_eq short off data
    change (d.write off data).1 = _ ∧ Beside d₀ (d.write off data).2 ∧
      Holds (d.write off data).2 _
    rw [run]
    exact ⟨rfl, beside.trans next, holds⟩
  size_eq := by
    rintro d bytes _ ⟨-, h⟩
    change (Except.ok d.handle.size, d) = _
    rw [h.size_eq]
  barrier_eq := by
    rintro d bytes ⟨-, h⟩
    obtain ⟨content, found, -⟩ := h.content
    change (d.barrier, d) = _
    rw [barrier, h.isOpen, FileTree.isSink, found]
    rfl

theorem actsAsMemory : ActsAsMemory Holds :=
  .of_since Beside.refl actsBeside

def held (d : FileDisk) : Buffer :=
  ((d.files.content? d.handle.path).map HostFile.toBuffer).getD .empty

theorem Holds.held_eq {d : FileDisk} {bytes : Buffer} (h : d.Holds bytes) : d.held = bytes := by
  obtain ⟨content, found, toBuffer⟩ := h.content
  rw [held, FileTree.content?, found]
  exact toBuffer

instance : ImageDisk FileDisk :=
  actsAsMemory.imageDisk held Holds.held_eq

instance : ExactDisk FileDisk :=
  actsAsMemory.exactDisk held Holds.held_eq

end FileDisk

end MinixVolume

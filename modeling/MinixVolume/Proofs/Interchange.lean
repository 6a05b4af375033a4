import MinixVolume.Proofs.Pages
import MinixVolume.Proofs.Portions

namespace MinixVolume

inductive Reply where
  | bytes (b : Buffer)
  | length (n : UInt64)
  | done

namespace DiskCall

variable {δ : Type} [Disk δ]

def serve : DiskCall → ExceptT Stop (StateM δ) Reply
  | .read off n => .bytes <$> Disk.read off n
  | .write off data => (fun _ => .done) <$> Disk.write off data
  | .size => .length <$> Disk.size
  | .barrier => (fun _ => .done) <$> Disk.barrier

def serveAll : List DiskCall → δ → List (Except Stop Reply) × δ
  | [], d => ([], d)
  | c :: rest, d =>
      let (answer, d) := c.serve.run.run d
      let (answers, d) := serveAll rest d
      (answer :: answers, d)

def extent : DiskCall → Nat
  | .read _ n => n.toNat
  | .write _ data => data.size
  | .size | .barrier => 0

/-- A read within the array that asks for more bytes than a buffer can have. -/
def Oversized (bytes : Buffer) (c : DiskCall) : Prop :=
  ∃ off n, c = .read off n ∧ off.toNat + n.toNat ≤ bytes.size ∧ Word.largestBuffer < n

def reply (bytes : Buffer) : DiskCall → Reply
  | .read off n => .bytes (bytes.window off.toNat n.toNat)
  | .size => .length (UInt64.ofNat bytes.size)
  | .write .. | .barrier => .done

def effect (bytes : Buffer) : DiskCall → Buffer
  | .write off data => bytes.splice off.toNat data
  | .read .. | .size | .barrier => bytes

/-- A call on an array of bytes. Within the array, in exact arithmetic, it succeeds; beyond the end
it fails and changes nothing. -/
structure Served (bytes : Buffer) (c : DiskCall) (answer : Except Stop Reply) (after : Buffer) :
    Prop where
  inside : c.offset.toNat + c.extent ≤ bytes.size →
    answer = .ok (c.reply bytes) ∧ after = c.effect bytes
  outside : bytes.size < c.offset.toNat + c.extent →
    (∃ e, answer = .error (.error e) ∧ e.hasKind .unexpectedEnd = true) ∧ after = bytes

inductive History : Buffer → List DiskCall → List (Except Stop Reply) → Buffer → Prop
  | nil (bytes : Buffer) : History bytes [] [] bytes
  | served {bytes between after : Buffer} {c : DiskCall} {answer : Except Stop Reply}
      {calls : List DiskCall} {answers : List (Except Stop Reply)} :
      ¬ c.Oversized bytes → Served bytes c answer between → History between calls answers after →
      History bytes (c :: calls) (answer :: answers) after
  | unread {bytes after : Buffer} {c : DiskCall} {calls : List DiskCall}
      {answers : List (Except Stop Reply)} : c.Oversized bytes →
      History bytes calls answers after →
      History bytes (c :: calls) (.error (.panic .allocation) :: answers) after

omit [Disk δ] in
theorem run_map {α β : Type} (f : α → β) (x : ExceptT Stop (StateM δ) α) (d : δ) :
    (f <$> x).run.run d = ((x.run.run d).1.map f, (x.run.run d).2) := by
  rw [ExceptT.run_map]
  rfl

theorem serve_eq {Holds : δ → Buffer → Prop} (acts : ActsAsMemory Holds) {d : δ} {bytes : Buffer}
    (short : bytes.size < sizeLimit) (h : Holds d bytes) (c : DiskCall) :
    (c.serve.run.run d).1 = (c.serve.run.run (MemoryDisk.mk bytes)).1 ∧
      Holds (c.serve.run.run d).2 (c.serve.run.run (MemoryDisk.mk bytes)).2.image := by
  cases c with
  | read off n =>
      obtain ⟨answer, after⟩ := acts.read_eq off n short h
      rw [serve, serve, run_map, run_map, answer]
      exact ⟨rfl, after⟩
  | write off data =>
      obtain ⟨answer, after⟩ := acts.write_eq off data short h
      rw [serve, serve, run_map, run_map, answer]
      exact ⟨rfl, after⟩
  | size =>
      rw [serve, serve, run_map, run_map, acts.size_eq short h]
      exact ⟨rfl, h⟩
  | barrier =>
      rw [serve, serve, run_map, run_map, acts.barrier_eq h]
      exact ⟨rfl, h⟩

section Memory

variable {bytes : Buffer} {c : DiskCall}

theorem served_outside (beyond : ¬ c.offset.toNat + c.extent ≤ bytes.size)
    {e : Error} (kind : e.hasKind .unexpectedEnd = true) :
    Served bytes c (.error (.error e)) bytes where
  inside within := absurd within beyond
  outside _ := ⟨⟨e, rfl, kind⟩, rfl⟩

theorem served_inside (within : c.offset.toNat + c.extent ≤ bytes.size) :
    Served bytes c (.ok (c.reply bytes)) (c.effect bytes) where
  inside _ := ⟨rfl, rfl⟩
  outside beyond := absurd within (Nat.not_le_of_lt beyond)

theorem served_memory (short : bytes.size < sizeLimit) (able : ¬ c.Oversized bytes) :
    Served bytes c (c.serve.run.run (MemoryDisk.mk bytes)).1
      (c.serve.run.run (MemoryDisk.mk bytes)).2.image := by
  cases c with
  | read off n =>
      rw [serve, run_map]
      change Served bytes _ ((MemoryDisk.read off n ⟨bytes⟩).map _) bytes
      rw [MemoryDisk.read_eq short]
      by_cases within : off.toNat + n.toNat ≤ bytes.size
      · have room : ¬ Word.largestBuffer.toNat < n.toNat := fun long =>
          able ⟨off, n, rfl, within, UInt64.lt_iff_toNat_lt.mpr long⟩
        rw [if_pos within, if_neg room]
        exact served_inside within
      · rw [if_neg within]
        exact served_outside (c := .read off n) within rfl
  | write off data =>
      rw [serve, run_map]
      change Served bytes _ ((MemoryDisk.write off data ⟨bytes⟩).1.map _)
        (MemoryDisk.write off data ⟨bytes⟩).2.image
      rw [MemoryDisk.write_eq short]
      by_cases within : off.toNat + data.size ≤ bytes.size
      · rw [if_pos within]
        exact served_inside within
      · rw [if_neg within]
        exact served_outside (c := .write off data) within rfl
  | size => exact served_inside (Nat.zero_le _)
  | barrier => exact served_inside (Nat.zero_le _)

theorem unread_memory (short : bytes.size < sizeLimit) (oversized : c.Oversized bytes) :
    c.serve.run.run (MemoryDisk.mk bytes) = (.error (.panic .allocation), ⟨bytes⟩) := by
  obtain ⟨off, n, rfl, within, long⟩ := oversized
  rw [serve, run_map]
  change ((MemoryDisk.read off n ⟨bytes⟩).map _, MemoryDisk.mk bytes) = _
  rw [MemoryDisk.read_eq short, if_pos within, if_pos (UInt64.lt_iff_toNat_lt.mp long)]
  rfl

theorem size_effect (within : c.offset.toNat + c.extent ≤ bytes.size) :
    (c.effect bytes).size = bytes.size := by
  cases c with
  | write off data => exact Buffer.size_splice within
  | read off n => rfl
  | size => rfl
  | barrier => rfl

variable {answer : Except Stop Reply} {after : Buffer}

theorem Served.size_eq (h : Served bytes c answer after) : after.size = bytes.size := by
  rcases Nat.lt_or_ge bytes.size (c.offset.toNat + c.extent) with beyond | within
  · rw [(h.outside beyond).2]
  · rw [(h.inside within).2]
    exact size_effect within

theorem Served.not_panic {p : Panic} (h : Served bytes c (.error (.panic p)) after) : False := by
  rcases Nat.lt_or_ge bytes.size (c.offset.toNat + c.extent) with beyond | within
  · obtain ⟨⟨e, answer, -⟩, -⟩ := h.outside beyond
    cases answer
  · cases (h.inside within).1

theorem size_memory (short : bytes.size < sizeLimit) (c : DiskCall) :
    (c.serve.run.run (MemoryDisk.mk bytes)).2.image.size = bytes.size := by
  by_cases oversized : c.Oversized bytes
  · rw [unread_memory short oversized]
  · exact (served_memory short oversized).size_eq

end Memory

theorem serveAll_eq {Holds : δ → Buffer → Prop} (acts : ActsAsMemory Holds)
    (calls : List DiskCall) {d : δ} {bytes : Buffer} (short : bytes.size < sizeLimit)
    (h : Holds d bytes) :
    (serveAll calls d).1 = (serveAll calls (MemoryDisk.mk bytes)).1 ∧
      Holds (serveAll calls d).2 (serveAll calls (MemoryDisk.mk bytes)).2.image := by
  induction calls generalizing d bytes with
  | nil => exact ⟨rfl, h⟩
  | cons c calls ih =>
      obtain ⟨answer, after⟩ := serve_eq acts short h c
      have size := size_memory short c
      obtain ⟨answers, final⟩ := ih (by omega) after
      rw [serveAll, serveAll]
      exact ⟨congr (congrArg List.cons answer) answers, final⟩

theorem history_memory (calls : List DiskCall) {bytes : Buffer}
    (short : bytes.size < sizeLimit) :
    History bytes calls (serveAll calls (MemoryDisk.mk bytes)).1
      (serveAll calls (MemoryDisk.mk bytes)).2.image := by
  induction calls generalizing bytes with
  | nil => exact .nil bytes
  | cons c calls ih =>
      rw [serveAll]
      by_cases oversized : c.Oversized bytes
      · rw [unread_memory short oversized]
        exact .unread oversized (ih short)
      · have served := served_memory short oversized
        have size := served.size_eq
        exact .served oversized served (ih (by omega))

theorem History.panicked {bytes after : Buffer} {calls : List DiskCall}
    {answers : List (Except Stop Reply)} (h : History bytes calls answers after) {p : Panic}
    (mem : .error (.panic p) ∈ answers) :
    p = .allocation ∧ Word.largestBuffer.toNat < bytes.size := by
  induction h with
  | nil bytes => cases mem
  | served _ served _ ih =>
      rcases List.mem_cons.mp mem with rfl | later
      · exact served.not_panic.elim
      · rw [← served.size_eq]
        exact ih later
  | unread oversized _ ih =>
      rcases List.mem_cons.mp mem with here | later
      · obtain ⟨off, n, -, within, long⟩ := oversized
        cases here
        have longer : Word.largestBuffer.toNat < n.toNat := UInt64.lt_iff_toNat_lt.mp long
        exact ⟨rfl, by omega⟩
      · exact ih later

/-- Whatever the calls, the three disks answer them alike, as the array of bytes that they hold
does, but for reads of more bytes than a buffer can have. No page is missed, and none is changed
behind the end of the disk. -/
theorem disks_interchangeable {bytes : Buffer} (short : bytes.size < sizeLimit) {file : FileDisk}
    (inFile : file.Holds bytes) {paged : PagedDisk} (inPages : paged.Holds bytes)
    (calls : List DiskCall) :
    ∃ answers after file' paged',
      serveAll calls (MemoryDisk.mk bytes) = (answers, ⟨after⟩) ∧
      serveAll calls file = (answers, file') ∧ file'.Holds after ∧
      serveAll calls paged = (answers, paged') ∧ paged'.Holds after ∧
      History bytes calls answers after ∧
      (∀ p, .error (.panic p) ∈ answers →
        p = .allocation ∧ Word.largestBuffer.toNat < bytes.size) ∧
      paged'.pages.size = paged.pages.size ∧
      ∀ k, bytes.size ≤ k → (PagedDisk.contents paged'.pages).data[k]? =
        (PagedDisk.contents paged.pages).data[k]? := by
  have history := history_memory calls short
  obtain ⟨fileAnswers, fileAfter⟩ := serveAll_eq FileDisk.actsAsMemory calls short inFile
  obtain ⟨pagedAnswers, spared, pagedAfter⟩ :=
    serveAll_eq (PagedDisk.actsSparing paged) calls short ⟨.refl paged, inPages⟩
  refine ⟨_, _, _, _, rfl, Prod.ext fileAnswers rfl, fileAfter, Prod.ext pagedAnswers rfl,
    pagedAfter, history, fun _ => history.panicked, spared.pages, fun k hk => ?_⟩
  exact spared.beyond k (by rw [inPages.size]; exact hk)

theorem holds_zeros (size : UInt64) (portions : List Nat) :
    FileDisk.Holds ⟨⟨[], [([[0x61]], .file ⟨size.toNat, []⟩)]⟩, ⟨[[0x61]], size, true⟩, portions⟩
      (Buffer.zeros size.toNat) := by
  refine ⟨rfl, ⟨⟨size.toNat, []⟩, rfl, ?_⟩, ?_⟩
  · rw [HostFile.toBuffer, HostFile.read, List.foldr_nil]
  · rw [Buffer.size_zeros]

theorem disks_interchangeable_small :
    ∃ (calls : List DiskCall) (file : FileDisk) (paged : PagedDisk),
      calls = [.write 4090 ⟨#[1, 2, 3, 4, 5, 6, 7, 8, 9]⟩, .read 4094 4, .read (-1) 2] ∧
      file.portions = [1, 3, 0] ∧ file.Holds (Buffer.zeros 5000) ∧
      paged.Holds (Buffer.zeros 5000) ∧
      ∃ answers after file' paged',
        serveAll calls (MemoryDisk.mk (Buffer.zeros 5000)) = (answers, ⟨after⟩) ∧
        serveAll calls file = (answers, file') ∧ file'.Holds after ∧
        serveAll calls paged = (answers, paged') ∧ paged'.Holds after := by
  have short : (Buffer.zeros 5000).size < sizeLimit := by
    rw [Buffer.size_zeros]
    decide
  have inFile := holds_zeros 5000 [1, 3, 0]
  have inPages := PagedDisk.holds_ofImage short
  obtain ⟨answers, after, file', paged', inMemory, onFile, fileAfter, onPages, pagedAfter, -⟩ :=
    disks_interchangeable short inFile inPages
      [.write 4090 ⟨#[1, 2, 3, 4, 5, 6, 7, 8, 9]⟩, .read 4094 4, .read (-1) 2]
  exact ⟨_, _, _, rfl, rfl, inFile, inPages, answers, after, file', paged', inMemory, onFile,
    fileAfter, onPages, pagedAfter⟩

theorem disks_interchangeable_too_large :
    ∃ (bytes : Buffer) (file : FileDisk) (paged : PagedDisk) (off n : UInt64),
      bytes.size < sizeLimit ∧ file.Holds bytes ∧ paged.Holds bytes ∧
      off.toNat + n.toNat ≤ bytes.size ∧
      ((serve (.read off n)).run.run (MemoryDisk.mk bytes)).1 = .error (.panic .allocation) ∧
      ((serve (.read off n)).run.run file).1 = .error (.panic .allocation) ∧
      ((serve (.read off n)).run.run paged).1 = .error (.panic .allocation) := by
  have size : (Buffer.zeros (0x1000000000001 : UInt64).toNat).size = 0x1000000000001 :=
    Buffer.size_zeros _
  have short : (Buffer.zeros (0x1000000000001 : UInt64).toNat).size < sizeLimit := by
    rw [size]
    decide
  have within : (0 : UInt64).toNat + (0x1000000000001 : UInt64).toNat
      ≤ (Buffer.zeros (0x1000000000001 : UInt64).toNat).size := by
    rw [size]
    decide
  have inFile := holds_zeros 0x1000000000001 []
  have inPages := PagedDisk.holds_ofImage short
  have memory := unread_memory short ⟨0, 0x1000000000001, rfl, within, by decide⟩
  have file := (serve_eq FileDisk.actsAsMemory short inFile (.read 0 0x1000000000001)).1
  have paged := (serve_eq (PagedDisk.actsSparing _) short ⟨.refl _, inPages⟩
    (.read 0 0x1000000000001)).1
  rw [memory] at file paged
  exact ⟨_, _, _, _, _, short, inFile, inPages, within, congrArg Prod.fst memory, file, paged⟩

end DiskCall

end MinixVolume

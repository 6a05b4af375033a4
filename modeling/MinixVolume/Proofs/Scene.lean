import MinixVolume.Proofs.ImageDisk

namespace MinixVolume

structure Scene where
  image : Buffer
  directory : Inode
  output : Output

/-- Why an action with room for `n` bytes stops although all it does is in order: the disk failed,
which a steady one does not, or the bytes could not be had. -/
inductive Mishap (steady : Prop) (n : Nat) : Stop → Prop
  | fault (e : Error) : e.Calm → ¬ steady → Mishap steady n (.error e)
  | memory : Word.largestBuffer.toNat < n → Mishap steady n (.panic .allocation)

namespace Mishap

variable {steady : Prop} {n k : Nat} {s : Stop}

theorem mono (h : Mishap steady n s) (hn : n ≤ k) : Mishap steady k s := by
  cases h with
  | fault e hc hp => exact .fault e hc hp
  | memory hm => exact .memory (Nat.lt_of_lt_of_le hm hn)

theorem during {e : Error} (op : Transfer) (place : Place) (h : Mishap steady n (.error e)) :
    Mishap steady n (.error (.during op place e)) := by
  cases h with
  | fault e hc hp => exact .fault _ hc hp

theorem small (h : Mishap steady n s) (hn : n ≤ Word.largestBuffer.toNat) :
    Mishap steady 0 s := by
  cases h with
  | fault e hc hp => exact .fault e hc hp
  | memory hm => omega

theorem of_small (h : Mishap steady n s) (hn : n ≤ Word.largestBuffer.toNat) :
    ¬ steady ∧ ∃ e : Error, e.Calm ∧ s = .error e := by
  cases h with
  | fault e hc hp => exact ⟨hp, e, hc, rfl⟩
  | memory hm => omega

theorem not_steady (h : Mishap steady 0 s) : ¬ steady :=
  (h.of_small (Nat.zero_le _)).1

theorem not_panic {p : Panic} (h : Mishap steady 0 (.panic p)) : False := by
  cases h with
  | memory lt => omega

end Mishap

namespace Mount

variable {δ : Type} [Disk δ] [ImageDisk δ]

structure Shows (m : Mount δ) (steady : Prop) (s : Scene) : Prop where
  sound : ImageDisk.Sound m.disk
  reliable : steady → ImageDisk.Reliable m.disk
  image : ImageDisk.image m.disk = s.image
  directory : m.directory = s.directory
  output : m.output = s.output

def scene (m : Mount δ) : Scene :=
  ⟨ImageDisk.image m.disk, m.directory, m.output⟩

theorem shows_scene {m : Mount δ} (sound : ImageDisk.Sound m.disk)
    (reliable : ImageDisk.Reliable m.disk) : m.Shows True m.scene :=
  ⟨sound, fun _ => reliable, rfl, rfl, rfl⟩

variable {m : Mount δ} {steady : Prop} {s : Scene}

theorem Shows.size_lt (h : m.Shows steady s) : s.image.size < sizeLimit := by
  rw [← h.image]
  exact ImageDisk.size_lt h.sound

theorem Shows.unique {s' : Scene} (h : m.Shows steady s) (h' : m.Shows steady s') : s = s' := by
  obtain ⟨image, directory, output⟩ := s
  obtain ⟨image', directory', output'⟩ := s'
  congr 1
  · exact h.image.symm.trans h'.image
  · exact h.directory.symm.trans h'.directory
  · exact h.output.symm.trans h'.output

theorem Shows.scene_eq (h : m.Shows steady s) : m.scene = s := by
  obtain ⟨image, directory, output⟩ := s
  rw [scene, h.image, h.directory, h.output]

theorem Shows.log (h : m.Shows steady s) (log : Log) : { m with log := log }.Shows steady s :=
  ⟨h.sound, h.reliable, h.image, h.directory, h.output⟩

theorem Shows.modifyDirectory (h : m.Shows steady s) (f : Inode → Inode) :
    { m with directory := f m.directory }.Shows steady
      { s with directory := f s.directory } :=
  ⟨h.sound, h.reliable, h.image, congrArg f h.directory, h.output⟩

theorem ends_attempt {α : Type} {x : MountM δ α} {Q : α → Mount δ → Prop}
    (h : Ends x m Q fun t m' => Mishap steady 0 t ∧ m'.Shows steady s)
    {E : Stop → Mount δ → Prop} :
    Ends (attempt x) m
      (fun r m' => (∃ a, r = .ok a ∧ Q a m') ∨
        ∃ e : Error, r = .error e ∧ e.Calm ∧ ¬ steady ∧ m'.Shows steady s) E := by
  refine Ends.attempt h (fun a m' h => .inl ⟨a, rfl, h⟩) ?_ ?_
  · rintro e m' ⟨mishap, h⟩
    cases mishap with
    | fault e calm failing => exact .inr ⟨e, rfl, calm, failing, h⟩
  · rintro p m' ⟨mishap, -⟩
    exact mishap.not_panic.elim

section Stops

variable {α : Type} {x : MountM δ α} {Q : α → Mount δ → Prop} {n : Nat}
  (h : Ends x m Q fun t m' => Mishap steady n t ∧ m'.Shows steady s)
include h

theorem ends_small (hn : n ≤ Word.largestBuffer.toNat) :
    Ends x m Q fun t m' => Mishap steady 0 t ∧ m'.Shows steady s :=
  h.mono (fun _ _ h => h) fun _ _ h => ⟨h.1.small hn, h.2⟩

theorem ends_during {op : Transfer} {place : Place} :
    Ends (wrapping (.during op place) x) m Q
      fun t m' => Mishap steady n t ∧ m'.Shows steady s := by
  refine Ends.wrapping h ?_ fun _ _ h => h
  intro e m' h
  exact ⟨h.1.during op place, h.2⟩

end Stops

theorem ends_sure {α : Type} {x : MountM δ α} {Q : α → Mount δ → Prop} {n : Nat}
    (h : Ends x m Q fun t m' => Mishap True n t ∧ m'.Shows True s)
    (small : n ≤ Word.largestBuffer.toNat) : Ends x m Q fun _ _ => False :=
  h.mono (fun _ _ h => h) fun _ _ stop => (stop.1.of_small small).1 trivial

theorem ends_trace (h : m.Shows steady s) (t : Trace) {E : Stop → Mount δ → Prop} :
    Ends (trace t) m (fun _ m' => m'.Shows steady s) E :=
  Ends.of_exec (exec_trace t m) (h.log _)

theorem ends_modifyDirectory (h : m.Shows steady s) (f : Inode → Inode)
    {E : Stop → Mount δ → Prop} :
    Ends (modifyDirectory f) m
      (fun _ m' => m'.Shows steady { s with directory := f s.directory }) E :=
  Ends.of_exec (exec_modifyDirectory f m) (h.modifyDirectory f)

theorem ends_traced {α : Type} {a : α} (h : m.Shows steady s) (t : Trace)
    {E : Stop → Mount δ → Prop} :
    Ends (do if Disk.traced (← get).disk then trace t
             return a) m (fun b m' => b = a ∧ m'.Shows steady s) E := by
  apply ends_get
  split
  · exact Ends.next (ends_trace h t) fun _ m' h' => Ends.pure ⟨rfl, h'⟩
  · exact Ends.pure ⟨rfl, h⟩

theorem ends_readAt_told (h : m.Shows steady s) (off n : UInt64)
    (inside : off.toNat + n.toNat ≤ s.image.size) :
    Ends (readAt off n) m
      (fun b m' => b = s.image.window off.toNat n.toNat ∧
        n.toNat ≤ Word.largestBuffer.toNat ∧ m'.Shows steady s)
      (fun t m' => Mishap steady n.toNat t ∧ m'.Shows steady s) := by
  have answer := ImageDisk.read_answer off n h.sound
  have keeps := ImageDisk.read_keeps off n h.sound
  have after : { m with disk := ((Disk.read off n).run.run m.disk).2 }.Shows steady s :=
    ⟨keeps.1, fun hp => keeps.2 (h.reliable hp),
      (ImageDisk.read_image off n h.sound).trans h.image, h.directory, h.output⟩
  rw [h.image] at answer
  have run : Ends (onDisk (Disk.read off n)) m
      (fun b m' => b = s.image.window off.toNat n.toNat ∧
        n.toNat ≤ Word.largestBuffer.toNat ∧ m'.Shows steady s)
      (fun t m' => Mishap steady n.toNat t ∧ m'.Shows steady s) := by
    unfold Ends
    rw [exec_onDisk]
    generalize ((Disk.read off n).run.run m.disk).1 = r at answer ⊢
    cases answer with
    | bytes _ room => exact ⟨rfl, room, after⟩
    | failed e hc hq =>
        exact ⟨.fault e hc fun hp => absurd (hq (h.reliable hp)) (by omega), after⟩
    | exhausted hn => exact ⟨.memory hn, after⟩
  refine Ends.next run ?_
  rintro b m' ⟨rfl, room, h'⟩
  exact (ends_traced h' _).imp fun _ _ traced => ⟨traced.1, room, traced.2⟩

theorem ends_readAt (h : m.Shows steady s) (off n : UInt64)
    (inside : off.toNat + n.toNat ≤ s.image.size) :
    Ends (readAt off n) m
      (fun b m' => b = s.image.window off.toNat n.toNat ∧ m'.Shows steady s)
      (fun t m' => Mishap steady n.toNat t ∧ m'.Shows steady s) :=
  (ends_readAt_told h off n inside).imp fun _ _ read => ⟨read.1, read.2.2⟩

theorem ends_writeAt_told (h : m.Shows steady s) (off : UInt64) (data : Buffer)
    (inside : off.toNat + data.size ≤ s.image.size) :
    Ends (writeAt off data) m
      (fun _ m' => m'.Shows steady { s with image := s.image.splice off.toNat data })
      (fun t m' => ∃ e : Error, t = .error e ∧ e.Calm ∧ ¬ steady ∧
        (Disk.write off data).run.run m.disk = (.error (.error e), m'.disk) ∧
        m'.Shows steady s) := by
  have short : data.size < UInt64.size := by
    have := h.size_lt
    have : sizeLimit < UInt64.size := by decide
    omega
  have answer := ImageDisk.write_answer off h.sound short
  have keeps := ImageDisk.write_keeps off h.sound short
  rw [h.image] at answer
  have run : Ends (onDisk (Disk.write off data)) m
      (fun _ m' => m'.Shows steady { s with image := s.image.splice off.toNat data })
      (fun t m' => ∃ e : Error, t = .error e ∧ e.Calm ∧ ¬ steady ∧
        (Disk.write off data).run.run m.disk = (.error (.error e), m'.disk) ∧
        m'.Shows steady s) := by
    unfold Ends
    rw [exec_onDisk]
    generalize (Disk.write off data).run.run m.disk = ending at answer keeps ⊢
    obtain ⟨r, d⟩ := ending
    dsimp only at answer keeps ⊢
    generalize hi : ImageDisk.image d = image at answer
    cases answer with
    | stored _ =>
        exact ⟨keeps.1, fun hp => keeps.2 (h.reliable hp), hi, h.directory, h.output⟩
    | failed e hc hq =>
        exact ⟨e, rfl, hc, fun hp => absurd (hq (h.reliable hp)) (by omega), rfl,
          keeps.1, fun hp => keeps.2 (h.reliable hp), hi, h.directory, h.output⟩
  refine Ends.next run ?_
  intro _ m' h'
  apply ends_get
  split
  · exact ends_trace h' _
  · exact Ends.pure h'

theorem ends_writeAt (h : m.Shows steady s) (off : UInt64) (data : Buffer)
    (inside : off.toNat + data.size ≤ s.image.size) :
    Ends (writeAt off data) m
      (fun _ m' => m'.Shows steady { s with image := s.image.splice off.toNat data })
      (fun t m' => Mishap steady 0 t ∧ m'.Shows steady s) := by
  refine (ends_writeAt_told h off data inside).mono (fun _ _ h' => h') ?_
  rintro _ m' ⟨e, rfl, calm, failing, -, h'⟩
  exact ⟨.fault e calm failing, h'⟩

theorem ends_size (h : m.Shows steady s) (hp : steady) :
    Ends size m (fun n m' => n = UInt64.ofNat s.image.size ∧ m'.Shows steady s)
      (fun _ _ => False) := by
  have answer := ImageDisk.size_answer h.sound (h.reliable hp)
  have keeps := ImageDisk.size_keeps h.sound
  have run : exec (size (δ := δ)) m = (.ok (UInt64.ofNat (ImageDisk.image m.disk).size),
      { m with disk := ((Disk.size (δ := δ)).run.run m.disk).2 }) := by
    rw [size, exec_onDisk, answer]
  refine Ends.of_exec run ⟨by rw [h.image], keeps.1, fun hp => keeps.2 (h.reliable hp), ?_,
    h.directory, h.output⟩
  exact (ImageDisk.size_image h.sound).trans h.image

section Exact

variable [ExactDisk δ]

/-- Why a disk in working order refuses a transfer of `n` bytes at `off`: it ends behind the image,
or the bytes could not be had. -/
inductive Refused (size off n : Nat) : Stop → Prop
  | beyond (e : Error) : size < off + n → e.kinds = [.unexpectedEnd] → Refused size off n (.error e)
  | memory : off + n ≤ size → Word.largestBuffer.toNat < n →
      Refused size off n (.panic .allocation)

theorem Refused.during {size off n : Nat} {e : Error} (op : Transfer) (place : Place)
    (h : Refused size off n (.error e)) : Refused size off n (.error (.during op place e)) := by
  cases h with
  | beyond e lt kinds => exact .beyond _ lt kinds

theorem Refused.of_small {size off n : Nat} {t : Stop} (h : Refused size off n t)
    (small : n ≤ Word.largestBuffer.toNat) :
    size < off + n ∧ ∃ e : Error, t = .error e ∧ e.kinds = [.unexpectedEnd] := by
  cases h with
  | beyond e lt kinds => exact ⟨lt, e, rfl, kinds⟩
  | memory _ large => omega

theorem ends_readAt_refused (h : m.Shows True s) (off n : UInt64) :
    Ends (readAt off n) m
      (fun b m' => off.toNat + n.toNat ≤ s.image.size ∧
        b = s.image.window off.toNat n.toNat ∧ n.toNat ≤ Word.largestBuffer.toNat ∧
        m'.Shows True s)
      (fun t m' => Refused s.image.size off.toNat n.toNat t ∧ m'.Shows True s) := by
  by_cases inside : off.toNat + n.toNat ≤ s.image.size
  · refine (ends_readAt_told h off n inside).mono (fun _ _ read => ⟨inside, read⟩) ?_
    rintro t m' ⟨mishap, h'⟩
    cases mishap with
    | fault e calm failing => exact absurd trivial failing
    | memory large => exact ⟨.memory inside large, h'⟩
  · obtain ⟨answer, sound, image⟩ := ExactDisk.acts.read_eq off n h.size_lt ⟨h.sound, h.image⟩
    rw [MemoryDisk.read_eq h.size_lt, if_neg inside] at answer
    have run : exec (readAt off n) m
        = (.error (.error (.outOfBounds .read off n (MemoryDisk.mk s.image).imageSize)),
          { m with disk := ((Disk.read off n).run.run m.disk).2 }) := by
      rw [readAt, exec_bind, exec_onDisk, answer]
    exact Ends.of_exec_error run ⟨.beyond _ (Nat.lt_of_not_le inside) rfl,
      sound, fun _ => ExactDisk.reliable sound, image, h.directory, h.output⟩

theorem ends_readAt_exact (h : m.Shows True s) (off : UInt64) {n : UInt64}
    (small : n.toNat ≤ Word.largestBuffer.toNat) :
    Ends (readAt off n) m
      (fun b m' => off.toNat + n.toNat ≤ s.image.size ∧
        b = s.image.window off.toNat n.toNat ∧ m'.Shows True s)
      (fun t m' => s.image.size < off.toNat + n.toNat ∧
        (∃ e : Error, t = .error e ∧ e.kinds = [.unexpectedEnd]) ∧ m'.Shows True s) := by
  refine (ends_readAt_refused h off n).mono
    (fun _ _ read => ⟨read.1, read.2.1, read.2.2.2⟩) ?_
  rintro t m' ⟨refused, h'⟩
  obtain ⟨beyond, told⟩ := refused.of_small small
  exact ⟨beyond, told, h'⟩

theorem ends_writeAt_refused (h : m.Shows True s) (off : UInt64) (data : Buffer) :
    Ends (writeAt off data) m
      (fun _ m' => off.toNat + data.size ≤ s.image.size ∧
        m'.Shows True { s with image := s.image.splice off.toNat data })
      (fun t m' => Refused s.image.size off.toNat data.size t ∧ m'.Shows True s) := by
  by_cases inside : off.toNat + data.size ≤ s.image.size
  · refine (ends_writeAt h off data inside).mono (fun _ _ h' => ⟨inside, h'⟩) ?_
    rintro t m' ⟨mishap, -⟩
    exact absurd trivial mishap.not_steady
  · obtain ⟨answer, sound, image⟩ :=
      ExactDisk.acts.write_eq off data h.size_lt ⟨h.sound, h.image⟩
    rw [MemoryDisk.write_eq h.size_lt, if_neg inside] at answer image
    have run : exec (writeAt off data) m
        = (.error (.error (.outOfBounds .write off (UInt64.ofNat data.size)
            (MemoryDisk.mk s.image).imageSize)),
          { m with disk := ((Disk.write off data).run.run m.disk).2 }) := by
      rw [writeAt, exec_bind, exec_onDisk, answer]
    exact Ends.of_exec_error run ⟨.beyond _ (Nat.lt_of_not_le inside) rfl,
      sound, fun _ => ExactDisk.reliable sound, image, h.directory, h.output⟩

end Exact

end Mount

end MinixVolume

import MinixVolume.Command
import MinixVolume.Proofs.Scene

namespace MinixVolume

namespace Mount

variable {δ α β : Type} [Disk δ] [ImageDisk δ]

def StillShows (m : Mount δ) (steady : Prop) (s : Scene) : Prop :=
  ∃ output, m.Shows steady { s with output := output }

def Keeps (x : MountM δ α) : Prop :=
  ∀ (m : Mount δ) (steady : Prop) (s : Scene), m.Shows steady s →
    Ends x m (fun _ m' => m'.StillShows steady s) (fun _ m' => m'.StillShows steady s)

namespace Keeps

theorem pure (a : α) : Keeps (pure a : MountM δ α) :=
  fun _ _ s h => Ends.pure ⟨s.output, h⟩

theorem fail (e : Error) : Keeps (Mount.fail e : MountM δ α) :=
  fun _ _ s h => Ends.fail ⟨s.output, h⟩

theorem liftExcept (r : Except Stop α) : Keeps (liftExcept r : MountM δ α) :=
  fun _ _ s h => Ends.of_liftExcept (fun _ _ => ⟨s.output, h⟩) fun _ _ => ⟨s.output, h⟩

theorem bind {x : MountM δ α} {f : α → MountM δ β} (hx : Keeps x) (hf : ∀ a, Keeps (f a)) :
    Keeps (x >>= f) := by
  intro m steady s h
  refine Ends.next (hx m steady s h) ?_
  rintro a m' ⟨output, h'⟩
  exact hf a m' steady { s with output := output } h'

theorem get_bind {f : Mount δ → MountM δ α} (hf : ∀ m, Keeps (f m)) : Keeps (get >>= f) :=
  fun m steady s h => ends_get (hf m m steady s h)

theorem wrapping {wrap : Error → Error} {x : MountM δ α} (hx : Keeps x) :
    Keeps (Mount.wrapping wrap x) :=
  fun m steady s h => Ends.wrapping (hx m steady s h) (fun _ _ h => h) fun _ _ h => h

theorem stillShows {x : MountM δ α} (h : Keeps x) {m : Mount δ} {steady : Prop} {s : Scene}
    (hm : m.Shows steady s) : (Mount.exec x m).2.StillShows steady s := by
  rcases (h m steady s hm).exec_eq with ⟨_, m', run, still⟩ | ⟨_, m', run, still⟩
  · rw [run]
    exact still
  · rw [run]
    exact still

theorem trace (t : Trace) : Keeps (Mount.trace t : MountM δ Unit) :=
  fun _ _ s h => (ends_trace h t).imp fun _ _ h => ⟨s.output, h⟩

theorem put (data : Buffer) : Keeps (Mount.put data : MountM δ Unit) := by
  refine get_bind fun m₀ => ?_
  intro m steady s h
  split
  · exact Ends.fail ⟨s.output, h⟩
  · exact Ends.of_exec (exec_modify _ m)
      ⟨⟨m.output.written ++ data, m₀.output.room.map (· - 1)⟩, h.sound, h.reliable, h.image,
        h.directory, rfl⟩

theorem readAt (off n : UInt64) : Keeps (Mount.readAt off n : MountM δ Buffer) := by
  intro m steady s h
  have keeps := ImageDisk.read_keeps off n h.sound
  have after : { m with disk := ((Disk.read off n).run.run m.disk).2 }.Shows steady s :=
    ⟨keeps.1, fun hp => keeps.2 (h.reliable hp),
      (ImageDisk.read_image off n h.sound).trans h.image, h.directory, h.output⟩
  have run : Ends (onDisk (Disk.read off n)) m (fun _ m' => m'.Shows steady s)
      (fun _ m' => m'.Shows steady s) := by
    unfold Ends
    rw [exec_onDisk]
    cases ((Disk.read off n).run.run m.disk).1 with
    | ok b => exact after
    | error t => exact after
  refine Ends.bind run ?_ fun _ _ h => ⟨s.output, h⟩
  intro b m' h'
  exact (ends_traced h' _).imp fun _ _ h => ⟨s.output, h.2⟩

end Keeps

end Mount

open Mount

variable {δ : Type} [Disk δ] [ImageDisk δ]

theorem Inode.keeps_load (tableStart number : UInt64) :
    Keeps (Inode.load tableStart number : MountM δ Inode) :=
  .bind (.liftExcept _) fun off =>
    .bind (.wrapping (.readAt off 32)) fun _ => .bind (.trace _) fun _ => .liftExcept _

theorem Bitmap.keeps_load (start blocks max : UInt64) :
    Keeps (Bitmap.load start blocks max : MountM δ Bitmap) :=
  .bind (.wrapping (.readAt _ _)) fun _ => .liftExcept _

theorem Directory.keeps_listZones (sb : Superblock) (width : UInt64) (zs : List UInt64) :
    Keeps (listZones sb width zs : MountM δ (List Entry)) := by
  induction zs with
  | nil => exact .pure []
  | cons z zs ih =>
      exact .bind (.wrapping (.readAt _ _)) fun _ =>
        .bind (.liftExcept _) fun _ => .bind ih fun _ => .pure _

theorem Directory.keeps_lookup (sb : Superblock) (ip : Inode) (name : Bytes) (width : UInt64) :
    Keeps (lookup sb ip name width : MountM δ (Option UInt64)) :=
  .bind (keeps_listZones sb width ip.zones) fun _ => .pure _

theorem Content.keeps_gather (sb : Superblock) (size : UInt64) (got : Buffer)
    (zs : List UInt64) : Keeps (gather sb size got zs : MountM δ Buffer) := by
  induction zs generalizing got with
  | nil => exact .pure got
  | cons z zs ih =>
      rw [gather]
      split
      · exact .pure got
      · exact .bind (.wrapping (.readAt _ _)) fun b => ih (got ++ b)

namespace Volume

theorem keeps_listEntries (v : Volume) (long : Bool) (es : List Entry) :
    Keeps (v.listEntries long es : MountM δ Unit) := by
  induction es with
  | nil => exact .pure ()
  | cons e es ih =>
      rw [listEntries]
      split
      · exact .bind (Inode.keeps_load _ _) fun _ => .bind (.put _) fun _ => ih
      · exact .bind (.put _) fun _ => ih

theorem keeps_ls (v : Volume) (long : Bool) : Keeps (v.ls long : MountM δ Unit) :=
  .get_bind fun m => .bind (Directory.keeps_listZones _ _ m.directory.zones) fun es =>
    v.keeps_listEntries long es

theorem keeps_lookup (v : Volume) (ip : Inode) (name : Bytes) :
    Keeps (v.lookup ip name : MountM δ UInt64) := by
  refine .bind (Directory.keeps_lookup _ _ _ _) fun r => ?_
  cases r with
  | some number => exact .pure number
  | none => exact .fail _

theorem keeps_follow (v : Volume) (ip : Inode) (names : List Bytes) :
    Keeps (v.follow ip names : MountM δ Inode) := by
  induction names generalizing ip with
  | nil => exact .pure ip
  | cons name rest ih =>
      rw [follow]
      refine .bind (v.keeps_lookup ip name) fun number => ?_
      refine .bind (Inode.keeps_load _ _) fun next => ?_
      split
      · exact .bind (.fail _) fun _ => ih next
      · exact ih next

theorem keeps_cat (v : Volume) (path : Bytes) : Keeps (v.cat path : MountM δ Unit) := by
  have resolve : Keeps (v.resolve path : MountM δ Inode) := by
    rw [Volume.resolve]
    split
    · exact .bind (.fail _) fun _ => .get_bind fun m => v.keeps_follow m.directory _
    · exact .get_bind fun m => v.keeps_follow m.directory _
  exact .bind resolve fun _ => .bind (Content.keeps_gather _ _ _ _) fun _ => .put _

theorem keeps_puts (ps : List Bytes) :
    Keeps (ps.forM fun p => Mount.put (Buffer.ofBytes p) : MountM δ Unit) := by
  induction ps with
  | nil => exact .pure PUnit.unit
  | cons p ps ih => exact .bind (.put _) fun _ => ih

theorem keeps_info (v : Volume) : Keeps (v.info : MountM δ Unit) := by
  refine .bind ?_ fun r => .wrapping (keeps_puts _)
  exact .bind (Bitmap.keeps_load _ _ _) fun _ => .bind (Bitmap.keeps_load _ _ _) fun _ =>
    .bind (.liftExcept _) fun _ => .bind (.liftExcept _) fun _ => .pure _

end Volume

theorem Command.keeps_run (v : Volume) {c : Command} (h : c.mutates = false) :
    Keeps (c.run v : MountM δ Unit) := by
  cases c with
  | ls long => exact v.keeps_ls long
  | cat path => exact v.keeps_cat path
  | touch name => cases h
  | mkdir name => cases h
  | info => exact v.keeps_info

end MinixVolume

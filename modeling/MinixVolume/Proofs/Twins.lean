import MinixVolume.Command
import MinixVolume.Proofs.Ending

namespace MinixVolume

variable {δ δ' α β : Type}

def Anywhere (_off _n : UInt64) : Prop := True

structure SameReads [Disk δ] [Disk δ'] (D : δ → δ' → Prop) (R : UInt64 → UInt64 → Prop) :
    Prop where
  answer : ∀ {d d'} {off n : UInt64}, R off n → D d d' →
    ((Disk.read off n).run.run d).1 = ((Disk.read off n).run.run d').1
  keeps : ∀ {d d'} {off n : UInt64}, R off n → D d d' →
    D ((Disk.read off n).run.run d).2 ((Disk.read off n).run.run d').2

structure SameTransfers [Disk δ] [Disk δ'] (D : δ → δ' → Prop) (R : UInt64 → UInt64 → Prop) :
    Prop extends SameReads D R where
  answer_write : ∀ {d d'} (off : UInt64) (data : Buffer), D d d' →
    ((Disk.write off data).run.run d).1 = ((Disk.write off data).run.run d').1
  keeps_write : ∀ {d d'} (off : UInt64) (data : Buffer), D d d' →
    D ((Disk.write off data).run.run d).2 ((Disk.write off data).run.run d').2

theorem SameTransfers.eq [Disk δ] : SameTransfers (Eq : δ → δ → Prop) Anywhere where
  answer := by
    rintro d _ off n - rfl
    rfl
  keeps := by
    rintro d _ off n - rfl
    rfl
  answer_write := by
    rintro d _ off data rfl
    rfl
  keeps_write := by
    rintro d _ off data rfl
    rfl

namespace Mount

def AnyRoot (_ : Inode) : Prop := True

/-- The mounts have related disks, all but the logs is the same, and the directory in memory is one
that `P` allows. -/
structure Twins (D : δ → δ' → Prop) (P : Inode → Prop) (m : Mount δ) (m' : Mount δ') : Prop where
  disk : D m.disk m'.disk
  directory : m.directory = m'.directory
  output : m.output = m'.output
  root : P m.directory

def Alike (D : δ → δ' → Prop) (P : Inode → Prop) (x : MountM δ α) (x' : MountM δ' α) : Prop :=
  ∀ m m', Twins D P m m' →
    (exec x m).1 = (exec x' m').1 ∧ Twins D P (exec x m).2 (exec x' m').2

namespace Alike

variable {D : δ → δ' → Prop} {P : Inode → Prop} {x : MountM δ α} {x' : MountM δ' α}

theorem pure (a : α) : Alike D P (pure a : MountM δ α) (pure a : MountM δ' α) :=
  fun _ _ h => ⟨rfl, h⟩

theorem fail (e : Error) : Alike D P (Mount.fail e : MountM δ α) (Mount.fail e : MountM δ' α) :=
  fun _ _ h => ⟨rfl, h⟩

theorem throw (t : Stop) : Alike D P (throw t : MountM δ α) (throw t : MountM δ' α) :=
  fun _ _ h => ⟨rfl, h⟩

theorem liftExcept (r : Except Stop α) :
    Alike D P (liftExcept r : MountM δ α) (liftExcept r : MountM δ' α) := by
  intro m m' h
  rw [exec_liftExcept, exec_liftExcept]
  exact ⟨rfl, h⟩

theorem bind {f : α → MountM δ β} {f' : α → MountM δ' β} (hx : Alike D P x x')
    (hf : ∀ a, Alike D P (f a) (f' a)) : Alike D P (x >>= f) (x' >>= f') := by
  intro m m' h
  obtain ⟨same, after⟩ := hx m m' h
  rw [exec_bind, exec_bind]
  rcases hr : exec x m with ⟨r, m₁⟩
  rcases hr' : exec x' m' with ⟨r', m₁'⟩
  rw [hr, hr'] at same after
  cases same
  cases r with
  | ok a => exact hf a m₁ m₁' after
  | error t => exact ⟨rfl, after⟩

theorem get_bind {f : Mount δ → MountM δ α} {f' : Mount δ' → MountM δ' α}
    (hf : ∀ m m', Twins D P m m' → Alike D P (f m) (f' m')) : Alike D P (get >>= f) (get >>= f') :=
  fun m m' h => hf m m' h m m' h

theorem fail_bind {e : Error} {f : β → MountM δ α} {f' : β → MountM δ' α} :
    Alike D P (Mount.fail e >>= f) (Mount.fail e >>= f') :=
  fun _ _ h => ⟨rfl, h⟩

theorem guard {c : Prop} [Decidable c] {e : Error} {f : PUnit → MountM δ α}
    {f' : PUnit → MountM δ' α} (hf : Alike D P (f ⟨⟩) (f' ⟨⟩)) :
    Alike D P (if c then Mount.fail e >>= f else f ⟨⟩)
      (if c then Mount.fail e >>= f' else f' ⟨⟩) := by
  split
  · exact fail_bind
  · exact hf

theorem map (f : α → β) (hx : Alike D P x x') : Alike D P (f <$> x) (f <$> x') := by
  rw [map_eq_pure_bind, map_eq_pure_bind]
  exact hx.bind fun a => pure (f a)

theorem wrapping {wrap : Error → Error} (hx : Alike D P x x') :
    Alike D P (Mount.wrapping wrap x) (Mount.wrapping wrap x') := by
  intro m m' h
  obtain ⟨same, after⟩ := hx m m' h
  rw [exec_wrapping, exec_wrapping, same]
  exact ⟨rfl, after⟩

theorem attempt (hx : Alike D P x x') : Alike D P (Mount.attempt x) (Mount.attempt x') := by
  intro m m' h
  obtain ⟨same, after⟩ := hx m m' h
  rw [exec_attempt, exec_attempt, same]
  exact ⟨rfl, after⟩

theorem emit (e : Event) :
    Alike D P (Mount.emit e : MountM δ Unit) (Mount.emit e : MountM δ' Unit) :=
  fun _ _ h => ⟨rfl, h.disk, h.directory, h.output, h.root⟩

theorem trace (t : Trace) :
    Alike D P (Mount.trace t : MountM δ Unit) (Mount.trace t : MountM δ' Unit) :=
  emit (.trace t)

theorem modifyDirectory {f : Inode → Inode} (keeps : ∀ ip, P ip → P (f ip)) :
    Alike D P (Mount.modifyDirectory f : MountM δ Unit)
      (Mount.modifyDirectory f : MountM δ' Unit) :=
  fun _ _ h => ⟨rfl, h.disk, congrArg f h.directory, h.output, keeps _ h.root⟩

theorem put (data : Buffer) :
    Alike D P (Mount.put data : MountM δ Unit) (Mount.put data : MountM δ' Unit) := by
  refine get_bind fun m m' h => ?_
  rw [h.output]
  split
  · exact fail _
  · intro m₁ m₁' h₁
    refine ⟨rfl, h₁.disk, h₁.directory, ?_, h₁.root⟩
    change (⟨m₁.output.written ++ data, _⟩ : Output) = ⟨m₁'.output.written ++ data, _⟩
    rw [h₁.output]

theorem puts (ps : List Bytes) :
    Alike D P (ps.forM fun p => Mount.put (Buffer.ofBytes p) : MountM δ Unit)
      (ps.forM fun p => Mount.put (Buffer.ofBytes p) : MountM δ' Unit) := by
  induction ps with
  | nil => exact pure _
  | cons p ps ih => exact bind (put _) fun _ => ih

theorem traced [Disk δ] [Disk δ'] (t : Trace) (a : α) :
    Alike D P
      (do if Disk.traced (← get).disk then Mount.trace t
          return a : MountM δ α)
      (do if Disk.traced (← get).disk then Mount.trace t
          return a : MountM δ' α) := by
  refine get_bind fun m m' _ => ?_
  cases Disk.traced m.disk <;> cases Disk.traced m'.disk <;>
    exact fun _ _ h => ⟨rfl, h.disk, h.directory, h.output, h.root⟩

variable [Disk δ] [Disk δ'] {R : UInt64 → UInt64 → Prop}

theorem readAt (reads : SameReads D R) {off n : UInt64} (allowed : R off n) :
    Alike D P (Mount.readAt off n : MountM δ Buffer) (Mount.readAt off n : MountM δ' Buffer) := by
  have transfer : Alike D P (onDisk (Disk.read off n) : MountM δ Buffer)
      (onDisk (Disk.read off n) : MountM δ' Buffer) := by
    intro m m' h
    rw [exec_onDisk, exec_onDisk]
    exact ⟨reads.answer allowed h.disk, reads.keeps allowed h.disk, h.directory, h.output, h.root⟩
  exact transfer.bind fun b => traced _ b

theorem writeAt (transfers : SameTransfers D R) (off : UInt64) (data : Buffer) :
    Alike D P (Mount.writeAt off data : MountM δ Unit)
      (Mount.writeAt off data : MountM δ' Unit) := by
  have transfer : Alike D P (onDisk (Disk.write off data) : MountM δ Unit)
      (onDisk (Disk.write off data) : MountM δ' Unit) := by
    intro m m' h
    rw [exec_onDisk, exec_onDisk]
    exact ⟨transfers.answer_write off data h.disk, transfers.keeps_write off data h.disk,
      h.directory, h.output, h.root⟩
  exact transfer.bind fun _ => traced _ ()

end Alike

section Tracks

variable {D D' D'' : δ → δ' → Prop} {x : MountM δ α} {x' : MountM δ' α}

/-- What succeeds on the one mount does so on its twin, and the disks are related anew by it. -/
def Tracks (D D' : δ → δ' → Prop) (x : MountM δ α) (x' : MountM δ' α) : Prop :=
  ∀ m m' a m₁, Twins D AnyRoot m m' → exec x m = (.ok a, m₁) →
    ∃ m₁', exec x' m' = (.ok a, m₁') ∧ Twins D' AnyRoot m₁ m₁'

theorem Alike.tracks (h : Alike D AnyRoot x x') : Tracks D D x x' := by
  intro m m' a m₁ twins run
  obtain ⟨same, after⟩ := h m m' twins
  rw [run] at same after
  rcases run' : exec x' m' with ⟨r, m₁'⟩
  rw [run'] at same after
  obtain rfl : .ok a = r := same
  exact ⟨m₁', rfl, after⟩

namespace Tracks

theorem fail (e : Error) : Tracks D D' (Mount.fail e : MountM δ α) x' := by
  intro m m' a m₁ _ run
  cases run

theorem bind {f : α → MountM δ β} {f' : α → MountM δ' β} (hx : Tracks D D' x x')
    (hf : ∀ a, Tracks D' D'' (f a) (f' a)) : Tracks D D'' (x >>= f) (x' >>= f') := by
  intro m m' b m₂ twins run
  rw [exec_bind] at run
  rcases first : exec x m with ⟨r, m₁⟩
  rw [first] at run
  cases r with
  | error t => cases run
  | ok a =>
      obtain ⟨m₁', run', twins'⟩ := hx m m' a m₁ twins first
      rw [exec_bind, run']
      exact hf a m₁ m₁' b m₂ twins' run

theorem imp (h : Tracks D D' x x') (sub : ∀ d d', D' d d' → D'' d d') : Tracks D D'' x x' := by
  intro m m' a m₁ twins run
  obtain ⟨m₁', run', after⟩ := h m m' a m₁ twins run
  exact ⟨m₁', run', sub _ _ after.disk, after.directory, after.output, after.root⟩

theorem guard {c : Prop} [Decidable c] {e : Error} {f : PUnit → MountM δ α}
    {f' : PUnit → MountM δ' α} (hf : Tracks D D' (f ⟨⟩) (f' ⟨⟩)) :
    Tracks D D' (if c then Mount.fail e >>= f else f ⟨⟩)
      (if c then Mount.fail e >>= f' else f' ⟨⟩) := by
  split
  · intro m m' a m₁ _ run
    cases run
  · exact hf

theorem wrapping {wrap : Error → Error} (hx : Tracks D D' x x') :
    Tracks D D' (Mount.wrapping wrap x) (Mount.wrapping wrap x') := by
  intro m m' a m₁ twins run
  rw [exec_wrapping] at run
  rcases first : exec x m with ⟨r, m₂⟩
  rw [first] at run
  rcases r with (e | p) | a'
  · cases run
  · cases run
  · cases run
    obtain ⟨m₁', run', twins'⟩ := hx m m' _ _ twins first
    exact ⟨m₁', by rw [exec_wrapping, run']; rfl, twins'⟩

end Tracks

end Tracks

end Mount

open Mount

variable [Disk δ] [Disk δ'] {D : δ → δ' → Prop} {P : Inode → Prop} {R : UInt64 → UInt64 → Prop}

section Allowed

variable (reads : SameReads D R)
include reads

theorem Bitmap.alike_load {start blocks : UInt64}
    (allowed : R (start * blockSize) (blocks * blockSize)) (max : UInt64) :
    Alike D P (load start blocks max : MountM δ Bitmap) (load start blocks max : MountM δ' _) :=
  .bind (.wrapping (.readAt reads allowed)) fun _ => .liftExcept _

namespace Directory

variable (sb : Superblock) (width : UInt64) {zs : List UInt64}
  (allowed : ∀ z ∈ zs, R (sb.zoneOffset z) sb.zoneSize)
include allowed

theorem alike_listZones :
    Alike D P (listZones sb width zs : MountM δ (List Entry))
      (listZones sb width zs : MountM δ' _) := by
  induction zs with
  | nil => exact .pure []
  | cons z zs ih =>
      have rest := ih fun z' hz' => allowed z' (List.mem_cons_of_mem _ hz')
      exact .bind (.wrapping (.readAt reads (allowed z List.mem_cons_self))) fun _ =>
        .bind (.liftExcept _) fun _ => rest.bind fun _ => .pure _

theorem alike_findSlot :
    Alike D P (findSlot sb width zs : MountM δ (Option (UInt64 × Nat)))
      (findSlot sb width zs : MountM δ' _) := by
  induction zs with
  | nil => exact .pure none
  | cons z zs ih =>
      refine .bind (.wrapping (.readAt reads (allowed z List.mem_cons_self))) fun _ =>
        .bind (.liftExcept _) fun _ => .bind (.liftExcept _) fun r => ?_
      cases r with
      | none => exact ih fun z' hz' => allowed z' (List.mem_cons_of_mem _ hz')
      | some i => exact .pure _

end Directory

theorem Directory.alike_lookup (sb : Superblock) (width : UInt64) {ip : Inode}
    (allowed : ∀ z ∈ ip.zones, R (sb.zoneOffset z) sb.zoneSize) (name : Bytes) :
    Alike D P (lookup sb ip name width : MountM δ (Option UInt64))
      (lookup sb ip name width : MountM δ' _) :=
  (alike_listZones reads sb width allowed).bind fun _ => .pure _

end Allowed

section Reads

variable (reads : SameReads D Anywhere)
include reads

theorem Superblock.alike_load : Alike D P (load : MountM δ Superblock) (load : MountM δ' _) :=
  .bind (.wrapping (.readAt reads trivial)) fun _ => .liftExcept _

theorem Inode.alike_load (tableStart number : UInt64) :
    Alike D P (load tableStart number : MountM δ Inode) (load tableStart number : MountM δ' _) :=
  .bind (.liftExcept _) fun _ => .bind (.wrapping (.readAt reads trivial)) fun _ =>
    .bind (.trace _) fun _ => .liftExcept _

theorem Content.alike_gather (sb : Superblock) (size : UInt64) (got : Buffer)
    (zs : List UInt64) :
    Alike D P (gather sb size got zs : MountM δ Buffer) (gather sb size got zs : MountM δ' _) := by
  induction zs generalizing got with
  | nil => exact .pure got
  | cons z zs ih =>
      rw [gather, gather]
      split
      · exact .pure got
      · exact .bind (.wrapping (.readAt reads trivial)) fun b => ih (got ++ b)

namespace Volume

theorem alike_openDisk (clock : Int64) (color : Bool) :
    Alike D AnyRoot (openDisk clock color : MountM δ Volume)
      (openDisk clock color : MountM δ' _) :=
  (Superblock.alike_load reads).bind fun _ => .bind (.liftExcept _) fun _ =>
    .bind (.wrapping (Inode.alike_load reads _ _)) fun _ =>
      .bind (.modifyDirectory fun _ _ => trivial) fun _ => .bind (.trace _) fun _ => .pure _

variable (v : Volume)

theorem alike_listEntries (long : Bool) (es : List Entry) :
    Alike D P (v.listEntries long es : MountM δ Unit) (v.listEntries long es : MountM δ' _) := by
  induction es with
  | nil => exact .pure _
  | cons e es ih =>
      rw [listEntries, listEntries]
      split
      · exact .bind (Inode.alike_load reads _ _) fun _ => .bind (.put _) fun _ => ih
      · exact .bind (.put _) fun _ => ih

theorem alike_ls (long : Bool) :
    Alike D P (v.ls long : MountM δ Unit) (v.ls long : MountM δ' _) := by
  refine .get_bind fun m m' twins => ?_
  rw [twins.directory]
  exact (Directory.alike_listZones reads _ _ fun _ _ => trivial).bind fun es =>
    v.alike_listEntries reads long es

theorem alike_lookup (ip : Inode) (name : Bytes) :
    Alike D P (v.lookup ip name : MountM δ UInt64) (v.lookup ip name : MountM δ' _) := by
  refine (Directory.alike_lookup reads _ _ (fun _ _ => trivial) name).bind fun r => ?_
  cases r with
  | none => exact .fail _
  | some n => exact .pure n

theorem alike_follow (ip : Inode) (names : List Bytes) :
    Alike D P (v.follow ip names : MountM δ Inode) (v.follow ip names : MountM δ' _) := by
  induction names generalizing ip with
  | nil => exact .pure ip
  | cons name rest ih =>
      rw [follow, follow]
      exact (v.alike_lookup reads ip name).bind fun _ => (Inode.alike_load reads _ _).bind
        fun next => .guard (ih next)

theorem alike_cat (path : Bytes) :
    Alike D P (v.cat path : MountM δ Unit) (v.cat path : MountM δ' _) := by
  have resolve : Alike D P (v.resolve path : MountM δ Inode) (v.resolve path : MountM δ' _) := by
    rw [Volume.resolve, Volume.resolve]
    refine .guard (.get_bind fun m m' twins => ?_)
    rw [twins.directory]
    exact v.alike_follow reads _ _
  exact resolve.bind fun _ => (Content.alike_gather reads _ _ _ _).bind fun _ => .put _

end Volume

end Reads

structure Superblock.Legible (sb : Superblock) (R : UInt64 → UInt64 → Prop) (P : Inode → Prop) :
    Prop where
  inodeMap : R (sb.inodeMapStart * blockSize) (sb.inodeMapBlocks.toUInt64 * blockSize)
  zoneMap : R (sb.zoneMapStart * blockSize) (sb.zoneMapBlocks.toUInt64 * blockSize)
  zones : ∀ {ip}, P ip → ∀ z ∈ ip.zones, R (sb.zoneOffset z) sb.zoneSize
  root : ∀ {ip ip'}, P ip → ip'.zones = ip.zones → P ip'

theorem Superblock.legible_anywhere (sb : Superblock) : sb.Legible Anywhere AnyRoot :=
  ⟨trivial, trivial, fun _ _ _ => trivial, fun _ _ => trivial⟩

theorem Volume.alike_info (v : Volume) (reads : SameReads D R)
    (legible : v.superblock.Legible R P) :
    Alike D P (v.info : MountM δ Unit) (v.info : MountM δ' _) := by
  refine .bind ?_ fun r => .wrapping (.puts _)
  exact (Bitmap.alike_load reads legible.inodeMap _).bind fun _ =>
    (Bitmap.alike_load reads legible.zoneMap _).bind fun _ =>
      .bind (.liftExcept _) fun _ => .bind (.liftExcept _) fun _ => .pure _

theorem Volume.alike_checkNew (v : Volume) (reads : SameReads D R)
    (legible : v.superblock.Legible R P) (name : Bytes) :
    Alike D P (v.checkNew name : MountM δ Unit) (v.checkNew name : MountM δ' _) := by
  rw [checkNew, checkNew]
  apply Alike.guard
  apply Alike.guard
  refine .get_bind fun m m' twins => ?_
  have allowed := legible.zones twins.root
  rw [twins.directory] at allowed ⊢
  refine (Directory.alike_lookup reads _ _ allowed name).bind fun r => ?_
  cases r with
  | none => exact .pure _
  | some n => exact .fail _

variable (transfers : SameTransfers D R)
include transfers

theorem Inode.alike_store (tableStart number : UInt64) (ip : Inode) :
    Alike D P (store tableStart number ip : MountM δ Unit)
      (store tableStart number ip : MountM δ' _) :=
  .bind (.liftExcept _) fun _ => .bind (.wrapping (.writeAt transfers _ _)) fun _ => .trace _

namespace Bitmap

variable (bm : Bitmap)

theorem alike_store : Alike D P (bm.store : MountM δ Unit) (bm.store : MountM δ' _) :=
  .wrapping (.writeAt transfers _ _)

theorem alike_claim :
    Alike D P (bm.claim : MountM δ (Option UInt64)) (bm.claim : MountM δ' _) := by
  have search : Alike D P (bm.search : MountM δ (Option UInt64)) (bm.search : MountM δ' _) := by
    refine .bind (.liftExcept _) fun r => ?_
    cases r with
    | none => exact .pure none
    | some p => exact .bind (.trace _) fun _ => .pure _
  refine search.bind fun r => ?_
  cases r with
  | none => exact .pure none
  | some n => exact .bind (.liftExcept _) fun bm => (bm.alike_store transfers).bind fun _ => .pure _

theorem alike_release (n : UInt64) :
    Alike D P (bm.release n : MountM δ Unit) (bm.release n : MountM δ' _) :=
  .bind (.liftExcept _) fun bm => bm.alike_store transfers

end Bitmap

namespace Superblock

variable {sb : Superblock} (legible : sb.Legible R P)
include legible

theorem alike_allocateInode :
    Alike D P (sb.allocateInode : MountM δ UInt64) (sb.allocateInode : MountM δ' _) := by
  refine (Bitmap.alike_load transfers.toSameReads legible.inodeMap _).bind fun bm =>
    (bm.alike_claim transfers).bind fun r => ?_
  cases r with
  | none => exact .fail _
  | some n => exact .bind (.trace _) fun _ => .pure n

theorem alike_allocateZone :
    Alike D P (sb.allocateZone : MountM δ UInt64) (sb.allocateZone : MountM δ' _) := by
  refine (Bitmap.alike_load transfers.toSameReads legible.zoneMap _).bind fun bm =>
    (bm.alike_claim transfers).bind fun r => ?_
  cases r with
  | none => exact .fail _
  | some n => exact .bind (.trace _) fun _ => .pure _

theorem alike_freeInode (number : UInt64) :
    Alike D P (sb.freeInode number : MountM δ Unit) (sb.freeInode number : MountM δ' _) := by
  have free := (Bitmap.alike_load (P := P) transfers.toSameReads legible.inodeMap
    sb.inodes.toUInt64).bind fun bm => bm.alike_release transfers number
  rw [freeInode, freeInode]
  split
  · exact .bind (.throw _) fun _ => free
  · exact free

theorem alike_freeZone (z : UInt64) :
    Alike D P (sb.freeZone z : MountM δ Unit) (sb.freeZone z : MountM δ' _) := by
  have free := (Bitmap.alike_load (P := P) transfers.toSameReads legible.zoneMap
    sb.dataZones).bind fun bm => bm.alike_release transfers (z - sb.firstDataZone.toUInt64 + 1)
  rw [freeZone, freeZone]
  split
  · exact .bind (.throw _) fun _ => free
  · exact free

end Superblock

theorem Directory.alike_add {sb : Superblock} (legible : sb.Legible R P) (number : UInt64)
    (entry : Entry) (width : UInt64) :
    Alike D P (add sb number entry width : MountM δ Unit)
      (add sb number entry width : MountM δ' _) := by
  refine .bind (.liftExcept _) fun record => .get_bind fun m m' twins => ?_
  have allowed := legible.zones twins.root
  rw [twins.directory] at allowed ⊢
  refine (alike_findSlot transfers.toSameReads _ _ allowed).bind fun r => ?_
  cases r with
  | none => exact .fail _
  | some slot =>
      refine .bind (.wrapping (.writeAt transfers _ _)) fun _ => .bind (.trace _) fun _ =>
        .bind (.modifyDirectory fun _ h => legible.root h rfl) fun _ =>
          .get_bind fun m₁ m₁' twins₁ => ?_
      rw [twins₁.directory]
      refine .bind (.attempt (Inode.alike_store transfers _ _ _)) fun r => ?_
      cases r with
      | ok _ => exact .pure _
      | error e =>
          refine .bind (.modifyDirectory fun _ h => legible.root h rfl) fun _ =>
            .bind (.attempt (.writeAt transfers _ _)) fun r => ?_
          cases r with
          | ok _ => exact .fail _
          | error cause => exact .fail _

namespace Volume

variable (v : Volume)

omit [Disk δ] [Disk δ'] transfers in
theorem alike_report (cause : Error) (inode zone : UInt64) (results : List (Except Error Unit)) :
    Alike D P
      (match failures results with
        | [] => do
            Mount.emit (.released inode zone cause)
            return cause
        | e :: rest => do
            Mount.emit (.notReleased inode zone (e.joinAll rest))
            return cause.joinAll (e :: rest) : MountM δ Error)
      (match failures results with
        | [] => do
            Mount.emit (.released inode zone cause)
            return cause
        | e :: rest => do
            Mount.emit (.notReleased inode zone (e.joinAll rest))
            return cause.joinAll (e :: rest) : MountM δ' Error) := by
  cases failures results with
  | nil => exact .bind (.emit _) fun _ => .pure _
  | cons e rest => exact .bind (.emit _) fun _ => .pure _

variable (legible : v.superblock.Legible R P)
include legible

theorem alike_giveBack (cause : Error) (inode zone : UInt64) :
    Alike D P (v.giveBack cause inode zone : MountM δ Error)
      (v.giveBack cause inode zone : MountM δ' _) := by
  have report := alike_report (D := D) (P := P) cause inode zone
  have freeZone (r₁ r₂ : Except Error Unit) :=
    (Alike.attempt (Superblock.alike_freeZone transfers legible zone)).bind fun r₃ =>
      report [r₁, r₂, r₃]
  rw [giveBack, giveBack]
  split
  · exact .bind (.emit _) fun _ => .pure _
  by_cases noInode : inode = 0
  · simp only [if_pos noInode]
    split
    · exact .bind (.pure _) fun _ => .bind (.pure _) fun _ => .bind (.pure _) fun _ => report _
    · exact .bind (.pure _) fun _ => .bind (.pure _) fun _ => freeZone _ _
  · simp only [if_neg noInode]
    refine .bind (.attempt (Inode.alike_store transfers _ _ _)) fun r₁ =>
      .bind (.attempt (Superblock.alike_freeInode transfers legible inode)) fun r₂ => ?_
    split
    · exact report _
    · exact freeZone _ _

theorem alike_orGiveBack (inode zone : UInt64) {step : MountM δ α} {step' : MountM δ' α}
    (h : Alike D P step step') :
    Alike D P (v.orGiveBack inode zone step) (v.orGiveBack inode zone step') := by
  refine .bind (.attempt h) fun r => ?_
  cases r with
  | ok a => exact .pure a
  | error e => exact (v.alike_giveBack transfers legible e inode zone).bind fun _ => .fail _

theorem alike_touch (name : Bytes) :
    Alike D P (v.touch name : MountM δ UInt64) (v.touch name : MountM δ' _) := by
  have step {β : Type} (i : UInt64) {x : MountM δ β} {x' : MountM δ' β} (h : Alike D P x x') :=
    v.alike_orGiveBack transfers legible i 0 h
  exact (v.alike_checkNew transfers.toSameReads legible name).bind fun _ =>
    (Superblock.alike_allocateInode transfers legible).bind fun i =>
      (step i (Inode.alike_store transfers _ _ _)).bind fun _ =>
        (step i (Directory.alike_add transfers legible _ _ _)).bind fun _ =>
          .bind (.trace _) fun _ => .pure i

theorem alike_addLinked (entry : Entry) :
    Alike D P (v.addLinked entry : MountM δ Unit) (v.addLinked entry : MountM δ' _) := by
  refine .bind (.modifyDirectory fun _ h => legible.root h rfl) fun _ =>
    .bind (.attempt (Directory.alike_add transfers legible _ _ _)) fun r => ?_
  cases r with
  | ok _ => exact .pure _
  | error e => exact .bind (.modifyDirectory fun _ h => legible.root h rfl) fun _ => .fail _

theorem alike_mkdir (name : Bytes) :
    Alike D P (v.mkdir name : MountM δ UInt64) (v.mkdir name : MountM δ' _) := by
  have step {β : Type} (i z : UInt64) {x : MountM δ β} {x' : MountM δ' β} (h : Alike D P x x') :=
    v.alike_orGiveBack transfers legible i z h
  refine (v.alike_checkNew transfers.toSameReads legible name).bind fun _ =>
    .get_bind fun m m' twins => ?_
  rw [twins.directory]
  apply Alike.guard
  exact (Superblock.alike_allocateInode transfers legible).bind fun i =>
    (step i 0 (Superblock.alike_allocateZone transfers legible)).bind fun z =>
      (step i z (.liftExcept _)).bind fun block =>
        (step i z (.wrapping (.writeAt transfers _ _))).bind fun _ =>
          (step i z (Inode.alike_store transfers _ _ _)).bind fun _ =>
            (step i z (v.alike_addLinked transfers legible _)).bind fun _ =>
              .bind (.trace _) fun _ => .pure i

end Volume

theorem Command.alike_create {v : Volume} (legible : v.superblock.Legible R P) {c : Command}
    (change : c.mutates = true) :
    Alike D P (c.run v : MountM δ Unit) (c.run v : MountM δ' _) := by
  cases c with
  | touch name => exact (v.alike_touch transfers legible name).map _
  | mkdir name => exact (v.alike_mkdir transfers legible name).map _
  | _ => cases change

omit transfers in
theorem Command.alike_run (transfers : SameTransfers D Anywhere) (v : Volume) (c : Command) :
    Alike D AnyRoot (c.run v : MountM δ Unit) (c.run v : MountM δ' _) := by
  cases c with
  | ls long => exact v.alike_ls transfers.toSameReads long
  | cat path => exact v.alike_cat transfers.toSameReads path
  | info => exact v.alike_info transfers.toSameReads v.superblock.legible_anywhere
  | _ => exact alike_create transfers v.superblock.legible_anywhere rfl

end MinixVolume

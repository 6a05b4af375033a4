import MinixVolume.Proofs.Run

namespace MinixVolume

def Stop.Benign : Stop → Prop
  | .error _ => True
  | .panic p => p = .allocation

/-- Reads give as many bytes as were asked for. Any call may fail, but none crashes unless a buffer
could not be had. -/
class PlainDisk (δ : Type) [Disk δ] : Prop where
  size_read : ∀ (off n : UInt64) (d : δ) {b : Buffer},
    ((Disk.read off n).run.run d).1 = .ok b → b.size = n.toNat
  read_benign : ∀ (off n : UInt64) (d : δ) {t : Stop},
    ((Disk.read off n).run.run d).1 = .error t → t.Benign
  write_benign : ∀ (off : UInt64) (data : Buffer) (d : δ) {t : Stop},
    ((Disk.write off data).run.run d).1 = .error t → t.Benign

theorem checkBounds_cases (op : Transfer) (off n size : UInt64) :
    checkBounds op off n size = .ok () ∧ off.toNat + n.toNat ≤ size.toNat ∨
      checkBounds op off n size = .error (.error (.outOfBounds op off n size)) := by
  rw [checkBounds_eq]
  split
  · next inside => exact .inl ⟨rfl, inside⟩
  · exact .inr rfl

theorem Word.checkAllocation_cases (n : UInt64) :
    checkAllocation n = .ok () ∨ checkAllocation n = .error (.panic .allocation) := by
  unfold checkAllocation
  split
  · exact .inr rfl
  · exact .inl rfl

instance : PlainDisk MemoryDisk where
  size_read := by
    intro off n d b h
    change d.read off n = .ok b at h
    rcases checkBounds_cases .read off n d.imageSize with ⟨inside, le⟩ | outside
    · rcases Word.checkAllocation_cases n with had | short
      · have whole : d.imageSize.toNat ≤ d.image.size := by
          rw [MemoryDisk.imageSize, UInt64.toNat_ofNat']
          exact Nat.mod_le _ _
        rw [MemoryDisk.read, inside, had] at h
        rw [← Except.ok.inj h]
        exact Buffer.size_window (by omega)
      · rw [MemoryDisk.read, inside, short] at h
        cases h
    · rw [MemoryDisk.read, outside] at h
      cases h
  read_benign := by
    intro off n d t h
    change d.read off n = .error t at h
    rcases checkBounds_cases .read off n d.imageSize with ⟨inside, -⟩ | outside
    · rcases Word.checkAllocation_cases n with had | short
      · rw [MemoryDisk.read, inside, had] at h
        cases h
      · rw [MemoryDisk.read, inside, short] at h
        cases h
        exact rfl
    · rw [MemoryDisk.read, outside] at h
      cases h
      exact trivial
  write_benign := by
    intro off data d t h
    change (d.write off data).1 = .error t at h
    rw [MemoryDisk.write, checkData_eq] at h
    by_cases inside : off.toNat + data.size ≤ d.imageSize.toNat
    · rw [if_pos inside] at h
      cases h
    · rw [if_neg inside] at h
      cases h
      exact trivial

instance {δ : Type} [Disk δ] [PlainDisk δ] : PlainDisk (FaultyDisk δ) where
  size_read := by
    intro off n d b h
    change ((FaultyDisk.guarded (.read off n) (Disk.read off n)).run.run d).1 = .ok b at h
    rcases FaultyDisk.guarded_cases (.read off n) (Disk.read off n) d with
      ⟨-, rules, e⟩ | ⟨rules, -, e⟩
    · rw [e] at h
      cases h
    · rw [e] at h
      exact PlainDisk.size_read off n d.disk h
  read_benign := by
    intro off n d t h
    change ((FaultyDisk.guarded (.read off n) (Disk.read off n)).run.run d).1 = .error t at h
    rcases FaultyDisk.guarded_cases (.read off n) (Disk.read off n) d with
      ⟨-, rules, e⟩ | ⟨rules, -, e⟩
    · rw [e] at h
      cases h
      exact trivial
    · rw [e] at h
      exact PlainDisk.read_benign off n d.disk h
  write_benign := by
    intro off data d t h
    change ((FaultyDisk.guarded (.write off data) (Disk.write off data)).run.run d).1
      = .error t at h
    rcases FaultyDisk.guarded_cases (.write off data) (Disk.write off data) d with
      ⟨-, rules, e⟩ | ⟨rules, -, e⟩
    · rw [e] at h
      cases h
      exact trivial
    · rw [e] at h
      exact PlainDisk.write_benign off data d.disk h

namespace Mount

variable {δ α β : Type}

/-- Whatever the mount, the answer satisfies `P`, or the stop is benign. -/
def Safely (x : MountM δ α) (P : α → Prop) : Prop :=
  ∀ m : Mount δ, Ends x m (fun a _ => P a) (fun t _ => t.Benign)

namespace Safely

variable {x : MountM δ α} {P : α → Prop} {Q : β → Prop}

theorem answer (h : Safely x P) {m : Mount δ} {a : α} (ok : (exec x m).1 = .ok a) : P a := by
  rcases (h m).exec_eq with ⟨b, m', run, holds⟩ | ⟨t, m', run, -⟩
  · rw [run] at ok
    cases ok
    exact holds
  · rw [run] at ok
    cases ok

theorem benign (h : Safely x P) {m : Mount δ} {t : Stop} (stop : (exec x m).1 = .error t) :
    t.Benign := by
  rcases (h m).exec_eq with ⟨b, m', run, -⟩ | ⟨t', m', run, holds⟩
  · rw [run] at stop
    cases stop
  · rw [run] at stop
    cases stop
    exact holds

theorem pure {a : α} (h : P a) : Safely (pure a : MountM δ α) P :=
  fun _ => Ends.pure h

theorem fail (e : Error) : Safely (Mount.fail e : MountM δ α) P :=
  fun _ => Ends.fail trivial

theorem liftExcept {r : Except Stop α} (ok : ∀ a, r = .ok a → P a)
    (error : ∀ t, r = .error t → t.Benign) : Safely (liftExcept r : MountM δ α) P :=
  fun _ => Ends.of_liftExcept ok error

theorem bind {f : α → MountM δ β} (hx : Safely x P) (hf : ∀ a, P a → Safely (f a) Q) :
    Safely (x >>= f) Q :=
  fun m => Ends.next (hx m) fun a m' h => hf a h m'

theorem get_bind {f : Mount δ → MountM δ α} (hf : ∀ m, Safely (f m) P) : Safely (get >>= f) P :=
  fun m => ends_get (hf m m)

theorem map (f : α → β) (hx : Safely x P) (hf : ∀ a, P a → Q (f a)) : Safely (f <$> x) Q := by
  rw [map_eq_pure_bind]
  exact hx.bind fun a h => pure (hf a h)

theorem wrapping {wrap : Error → Error} (hx : Safely x P) : Safely (Mount.wrapping wrap x) P :=
  fun m => Ends.wrapping (hx m) (fun _ _ _ => trivial) fun _ _ h => h

theorem attempt (hx : Safely x P) :
    Safely (Mount.attempt x) (fun r => ∀ a, r = .ok a → P a) := by
  refine fun m => Ends.attempt (hx m) ?_ ?_ fun _ _ h => h
  · rintro a _ h _ ⟨⟩
    exact h
  · intro e _ _ a h
    cases h

theorem guard {c : Prop} [Decidable c] {e : Error} {f : PUnit → MountM δ α}
    (hf : Safely (f ⟨⟩) P) : Safely (if c then Mount.fail e >>= f else f ⟨⟩) P := by
  split
  · exact fun _ => Ends.fail_bind trivial
  · exact hf

theorem modify {f : Mount δ → Mount δ} : Safely (modify f : MountM δ Unit) fun _ => True :=
  fun m => Ends.of_exec (exec_modify f m) trivial

theorem emit {e : Event} : Safely (Mount.emit e : MountM δ Unit) fun _ => True :=
  modify

theorem trace {t : Trace} : Safely (Mount.trace t : MountM δ Unit) fun _ => True :=
  modify

theorem modifyDirectory {f : Inode → Inode} :
    Safely (Mount.modifyDirectory f : MountM δ Unit) fun _ => True :=
  modify

theorem put {data : Buffer} : Safely (Mount.put data : MountM δ Unit) fun _ => True := by
  refine get_bind fun m => ?_
  split
  · exact fail _
  · exact modify

variable [Disk δ] [PlainDisk δ]

theorem readAt {off n : UInt64} :
    Safely (Mount.readAt off n : MountM δ Buffer) fun b => b.size = n.toNat := by
  have run : Safely (onDisk (Disk.read off n) : MountM δ Buffer) fun b => b.size = n.toNat := by
    intro m
    unfold Ends
    rw [exec_onDisk]
    cases answer : ((Disk.read off n).run.run m.disk).1 with
    | ok b => exact PlainDisk.size_read off n m.disk answer
    | error t => exact PlainDisk.read_benign off n m.disk answer
  refine run.bind fun b size => get_bind fun m => ?_
  split
  · exact trace.bind fun _ _ => pure size
  · exact pure size

theorem writeAt {off : UInt64} {data : Buffer} :
    Safely (Mount.writeAt off data : MountM δ Unit) fun _ => True := by
  have run : Safely (onDisk (Disk.write off data) : MountM δ Unit) fun _ => True := by
    intro m
    unfold Ends
    rw [exec_onDisk]
    cases answer : ((Disk.write off data).run.run m.disk).1 with
    | ok b => exact trivial
    | error t => exact PlainDisk.write_benign off data m.disk answer
  refine run.bind fun _ _ => get_bind fun m => ?_
  split
  · exact trace
  · exact pure trivial

end Safely

end Mount

open Mount

variable {δ : Type} [Disk δ] [PlainDisk δ]

theorem Superblock.safely_load : Safely (load : MountM δ Superblock) fun _ => True := by
  refine .bind (.wrapping .readAt) fun b _ => .liftExcept (fun _ _ => trivial) ?_
  intro t h
  unfold decode at h
  split at h
  · cases h
    exact trivial
  · cases h

namespace Inode

variable {tableStart number : UInt64} (nonzero : number ≠ 0)
include nonzero

omit [Disk δ] [PlainDisk δ] in
theorem safely_offset :
    Safely (liftExcept (offset tableStart number) : MountM δ UInt64) fun _ => True := by
  refine .liftExcept (fun _ _ => trivial) ?_
  intro t h
  rw [offset, if_neg nonzero] at h
  cases h

theorem safely_load : Safely (load tableStart number : MountM δ Inode) fun _ => True := by
  refine .bind (safely_offset nonzero) fun _ _ => .bind (.wrapping .readAt) fun b _ =>
    .bind .trace fun _ _ => .liftExcept (fun _ _ => trivial) ?_
  intro t h
  unfold decode at h
  split at h
  · cases h
    exact trivial
  · cases h

theorem safely_store (ip : Inode) :
    Safely (store tableStart number ip : MountM δ Unit) fun _ => True :=
  .bind (safely_offset nonzero) fun _ _ => .bind (.wrapping .writeAt) fun _ _ => .trace

end Inode

namespace Bitmap

theorem safely_load (start max : UInt64) (blocks : UInt16) :
    Safely (load start blocks.toUInt64 max : MountM δ Bitmap) (·.Reaches blocks.toNat) := by
  have few : blocks.toUInt64.toNat < 65536 := by
    rw [UInt16.toNat_toUInt64]
    exact blocks.toNat_lt
  have bytes := toNat_blockBytes few
  refine .bind (.wrapping .readAt) fun data size => ?_
  rw [ofData_eq start max few (size.trans bytes)]
  refine .liftExcept ?_ (by rintro t ⟨⟩)
  rintro _ ⟨⟩
  have reaches := reaches_reach start max few (size.trans bytes)
  rwa [UInt16.toNat_toUInt64] at reaches

variable {bm : Bitmap} {blocks : Nat} (h : bm.Reaches blocks)
include h

theorem Reaches.findFree_cases :
    bm.findFree = .ok none ∨
      ∃ n b, bm.findFree = .ok (some (n, b)) ∧ 1 ≤ n.toNat ∧ n.toNat < 8192 * blocks := by
  have size := h.size
  have reach := h.max
  rcases @findFree_found bm (by omega) with ⟨run, -⟩ | ⟨n, b, run, least⟩
  · exact .inl run
  · have pos := least.pos
    have le := least.le_max
    exact .inr ⟨n, b, run, pos, by omega⟩

theorem safely_claim :
    Safely (bm.claim : MountM δ (Option UInt64))
      fun r => ∀ n ∈ r, 1 ≤ n.toNat ∧ n.toNat < 8192 * blocks := by
  have size := h.size
  have search : Safely (bm.search : MountM δ (Option UInt64))
      fun r => ∀ n ∈ r, 1 ≤ n.toNat ∧ n.toNat < 8192 * blocks := by
    unfold search
    rcases h.findFree_cases with run | ⟨n, b, run, range⟩
    · rw [run]
      exact .bind (.liftExcept (P := fun r => r = none) (fun a h => (Except.ok.inj h).symm)
        fun _ h => nomatch h) fun r h => h ▸ .pure fun _ h => nomatch h
    · rw [run]
      refine .bind (.liftExcept (P := fun r => r = some (n, b)) (fun a h => (Except.ok.inj h).symm)
        fun _ h => nomatch h) fun r h => h ▸ .bind .trace fun _ _ => .pure ?_
      rintro _ ⟨⟩
      exact range
  refine search.bind fun r range => ?_
  cases r with
  | none => exact .pure fun _ h => nomatch h
  | some n =>
      have range := range n rfl
      refine .bind (P := fun _ => True) (.liftExcept (fun _ _ => trivial) ?_) fun _ _ =>
        .bind (.wrapping .writeAt) fun _ _ => .pure ?_
      · intro t h
        rw [set_eq (by omega)] at h
        cases h
      · rintro _ ⟨⟩
        exact range

theorem safely_release {n : UInt64} (lt : n.toNat < 8192 * blocks) :
    Safely (bm.release n : MountM δ Unit) fun _ => True := by
  have size := h.size
  refine .bind (P := fun _ => True) (.liftExcept (fun _ _ => trivial) ?_) fun _ _ =>
    .wrapping .writeAt
  intro t h
  rw [clear_eq (by omega)] at h
  cases h

theorem Reaches.freeCount_ok : ∃ n, bm.freeCount = .ok n := by
  have size := h.size
  have reach := h.max
  exact ⟨_, freeCount_eq (by omega)⟩

end Bitmap

namespace Superblock

variable (sb : Superblock)

theorem safely_loadInodeMap :
    Safely (sb.loadInodeMap : MountM δ Bitmap) (·.Reaches sb.inodeMapBlocks.toNat) :=
  Bitmap.safely_load _ _ _

theorem safely_loadZoneMap :
    Safely (sb.loadZoneMap : MountM δ Bitmap) (·.Reaches sb.zoneMapBlocks.toNat) :=
  Bitmap.safely_load _ _ _

def OnInodeMap (n : UInt64) : Prop :=
  n ≠ 0 ∧ n.toNat < 8192 * sb.inodeMapBlocks.toNat

def OnZoneMap (z : UInt64) : Prop :=
  ¬ z < sb.firstDataZone.toUInt64 ∧
    (z - sb.firstDataZone.toUInt64 + 1).toNat < 8192 * sb.zoneMapBlocks.toNat

theorem safely_allocateInode : Safely (sb.allocateInode : MountM δ UInt64) sb.OnInodeMap := by
  refine sb.safely_loadInodeMap.bind fun bm h => (Bitmap.safely_claim h).bind fun r range => ?_
  cases r with
  | none => exact .fail _
  | some n =>
      obtain ⟨pos, lt⟩ := range n rfl
      refine .bind .trace fun _ _ => .pure ⟨?_, lt⟩
      rintro rfl
      exact absurd pos (by decide)

theorem safely_allocateZone : Safely (sb.allocateZone : MountM δ UInt64) sb.OnZoneMap := by
  refine sb.safely_loadZoneMap.bind fun bm h => (Bitmap.safely_claim h).bind fun r range => ?_
  cases r with
  | none => exact .fail _
  | some n =>
      obtain ⟨pos, lt⟩ := range n rfl
      have blocks := sb.zoneMapBlocks.toNat_lt
      have first := sb.firstDataZone.toNat_lt
      have word := UInt16.toNat_toUInt64 sb.firstDataZone
      have one : (1 : UInt64).toNat = 1 := rfl
      refine .bind .trace fun _ _ => .pure ⟨?_, ?_⟩
      · rw [UInt64.lt_iff_toNat_lt, UInt64.toNat_sub, UInt64.toNat_add, word, one]
        omega
      · rw [UInt64.toNat_add, UInt64.toNat_sub, UInt64.toNat_sub, UInt64.toNat_add, word, one]
        omega

theorem safely_freeInode {n : UInt64} (h : sb.OnInodeMap n) :
    Safely (sb.freeInode n : MountM δ Unit) fun _ => True := by
  rw [freeInode, if_neg h.1]
  exact sb.safely_loadInodeMap.bind fun bm reaches => Bitmap.safely_release reaches h.2

theorem safely_freeZone {z : UInt64} (h : sb.OnZoneMap z) :
    Safely (sb.freeZone z : MountM δ Unit) fun _ => True := by
  rw [freeZone, if_neg h.1]
  exact sb.safely_loadZoneMap.bind fun bm reaches => Bitmap.safely_release reaches h.2

end Superblock

namespace Entry

variable {sb : Superblock}

theorem encode_benign {e : Entry} {t : Stop} (h : e.encode sb.width = .error t) : t.Benign := by
  by_cases long : sb.width.toNat < e.name.length
  · rw [encode, if_pos long] at h
    cases h
    exact trivial
  · rw [encode_eq (by omega)] at h
    cases h

theorem zoneSize_cases (sb : Superblock) : sb.zoneSize.toNat = 0 ∨ 1024 ≤ sb.zoneSize.toNat := by
  have shift : (1024 : Nat) <<< sb.logZoneSize.toNat = 2 ^ (10 + sb.logZoneSize.toNat) := by
    rw [Nat.shiftLeft_eq, Nat.pow_add]
  have size : sb.zoneSize.toNat = 2 ^ (10 + sb.logZoneSize.toNat) % 2 ^ 64 := by
    rw [← shift]
    exact Word.toNat_shiftUp _ _
  by_cases large : 64 ≤ 10 + sb.logZoneSize.toNat
  · left
    rw [size]
    exact Nat.mod_eq_zero_of_dvd (Nat.pow_dvd_pow 2 large)
  · right
    have lower : 2 ^ 10 ≤ 2 ^ (10 + sb.logZoneSize.toNat) :=
      Nat.pow_le_pow_right (by decide) (Nat.le_add_right _ _)
    rw [size, Nat.mod_eq_of_lt (Nat.pow_lt_pow_right (by decide) (by omega))]
    exact lower

theorem block_cases (sb : Superblock) (number : UInt64) :
    (∃ b, block (Format.newDirectory number Inode.root) sb.width sb.zoneSize = .ok b ∧
        b.size = sb.zoneSize.toNat) ∨
      ∃ t, block (Format.newDirectory number Inode.root) sb.width sb.zoneSize = .error t ∧
        t.Benign := by
  rcases zoneSize_cases sb with zero | wide
  · refine .inr ⟨_, if_pos ?_, trivial⟩
    rw [UInt64.lt_iff_toNat_lt, zero]
    rcases sb.width_cases with w | w
    · rw [w]
      change 0 < 32
      decide
    · rw [w]
      change 0 < 64
      decide
  · rw [Image.block_newDirectory wide]
    split
    · exact .inr ⟨_, rfl, rfl⟩
    · exact .inl ⟨_, rfl, Image.size_newZone wide number⟩

end Entry

namespace Directory

variable (sb : Superblock)

theorem safely_readZone (z : UInt64) :
    Safely (readZone sb z : MountM δ Buffer) fun b => b.size = sb.zoneSize.toNat :=
  .wrapping .readAt

theorem safely_listZones (zs : List UInt64) :
    Safely (listZones sb sb.width zs : MountM δ (List Entry))
      fun es => ∀ e ∈ es, e.inode ≠ 0 := by
  induction zs with
  | nil => exact .pure fun _ h => nomatch h
  | cons z zs ih =>
      refine (safely_readZone sb z).bind fun zone size => ?_
      rw [zoneEntries_eq size]
      refine .bind (P := fun es => ∀ e ∈ es, e.inode ≠ 0) (.liftExcept ?_ fun _ h => nomatch h)
        fun es here => ih.bind fun es' there => .pure ?_
      · rintro _ ⟨⟩ e he
        exact of_decide_eq_true (List.mem_filter.mp he).2
      · intro e he
        rcases List.mem_append.mp he with he | he
        · exact here e he
        · exact there e he

theorem safely_lookup (ip : Inode) (name : Bytes) :
    Safely (lookup sb ip name sb.width : MountM δ (Option UInt64))
      fun r => ∀ n ∈ r, n ≠ 0 := by
  refine (safely_listZones sb ip.zones).bind fun es nonzero => .pure ?_
  intro n hn
  obtain ⟨e, found, rfl⟩ := Option.map_eq_some_iff.mp hn
  exact nonzero e (List.mem_of_find?_eq_some found)

theorem safely_findSlot (zs : List UInt64) :
    Safely (findSlot sb sb.width zs : MountM δ (Option (UInt64 × Nat))) fun _ => True := by
  induction zs with
  | nil => exact .pure trivial
  | cons z zs ih =>
      refine (safely_readZone sb z).bind fun zone size => ?_
      rw [slotCount_eq]
      refine .bind (P := fun count => count = sb.slots)
        (.liftExcept (fun _ h => (Except.ok.inj h).symm) fun _ h => nomatch h) ?_
      rintro _ rfl
      have search := freeSlotFrom_eq size (show 0 + sb.slots ≤ sb.slots by omega)
      refine .bind (P := fun _ => True) (.liftExcept (fun _ _ => trivial) ?_) fun r _ => ?_
      · intro t h
        rcases search with ⟨run, -⟩ | ⟨k, run, -⟩
        · rw [run] at h
          cases h
        · rw [run] at h
          cases h
      · cases r with
        | none => exact ih
        | some i => exact .pure trivial

theorem safely_add {number : UInt64} (nonzero : number ≠ 0) (entry : Entry) :
    Safely (add sb number entry sb.width : MountM δ Unit) fun _ => True := by
  refine .bind (P := fun _ => True) (.liftExcept (fun _ _ => trivial) fun t h =>
    Entry.encode_benign h) fun record _ => .get_bind fun m =>
      (safely_findSlot sb m.directory.zones).bind fun r _ => ?_
  cases r with
  | none => exact .fail _
  | some slot =>
      refine .bind (.wrapping .writeAt) fun _ _ => .bind .trace fun _ _ =>
        .bind .modifyDirectory fun _ _ => .get_bind fun m' =>
          (Inode.safely_store nonzero m'.directory).attempt.bind fun r _ => ?_
      cases r with
      | ok _ => exact .pure trivial
      | error e =>
          refine .bind .modifyDirectory fun _ _ => Safely.writeAt.attempt.bind fun r _ => ?_
          cases r with
          | ok _ => exact .fail _
          | error cause => exact .fail _

end Directory

theorem Content.safely_gather (sb : Superblock) (size : UInt64) (got : Buffer)
    (zs : List UInt64) : Safely (gather sb size got zs : MountM δ Buffer) fun _ => True := by
  induction zs generalizing got with
  | nil => exact .pure trivial
  | cons z zs ih =>
      rw [gather]
      split
      · exact .pure trivial
      · exact .bind (.wrapping .readAt) fun b _ => ih (got ++ b)

namespace Volume

theorem nameWidth_eq_ok {sb : Superblock} {width : UInt64} (h : sb.nameWidth = .ok width) :
    width = sb.width := by
  unfold Superblock.nameWidth at h
  unfold Superblock.width
  split at h
  · next short =>
      rw [if_pos short]
      exact (Except.ok.inj h).symm
  · next other =>
      rw [if_neg other]
      split at h
      · exact (Except.ok.inj h).symm
      · cases h

theorem safely_openDisk (clock : Int64) (color : Bool) :
    Safely (openDisk clock color : MountM δ Volume)
      fun v => v.nameWidth = v.superblock.width := by
  refine Superblock.safely_load.bind fun sb _ =>
    .bind (P := fun width => width = sb.width) (.liftExcept (fun _ h => nameWidth_eq_ok h) ?_)
      fun width known => .bind (.wrapping (Inode.safely_load (by decide))) fun _ _ =>
        .bind .modifyDirectory fun _ _ => .bind .trace fun _ _ => .pure known
  intro t h
  unfold Superblock.nameWidth at h
  split at h
  · cases h
  · split at h
    · cases h
    · cases h
      exact trivial

variable {v : Volume} (width : v.nameWidth = v.superblock.width)

theorem safely_listEntries (long : Bool) {es : List Entry} (nonzero : ∀ e ∈ es, e.inode ≠ 0) :
    Safely (v.listEntries long es : MountM δ Unit) fun _ => True := by
  induction es with
  | nil => exact .pure trivial
  | cons e es ih =>
      have rest := ih fun e' he => nonzero e' (List.mem_cons_of_mem _ he)
      rw [listEntries]
      split
      · exact (Inode.safely_load (nonzero e List.mem_cons_self)).bind fun _ _ =>
          .bind .put fun _ _ => rest
      · exact .bind .put fun _ _ => rest

include width

theorem safely_ls (long : Bool) : Safely (v.ls long : MountM δ Unit) fun _ => True := by
  refine .get_bind fun m => ?_
  rw [width]
  exact (Directory.safely_listZones v.superblock m.directory.zones).bind fun es nonzero =>
    safely_listEntries long nonzero

theorem safely_lookup (ip : Inode) (name : Bytes) :
    Safely (v.lookup ip name : MountM δ UInt64) (· ≠ 0) := by
  rw [lookup, width]
  refine (Directory.safely_lookup v.superblock ip name).bind fun r nonzero => ?_
  cases r with
  | none => exact .fail _
  | some n => exact .pure (nonzero n rfl)

theorem safely_follow (ip : Inode) (names : List Bytes) :
    Safely (v.follow ip names : MountM δ Inode) fun _ => True := by
  induction names generalizing ip with
  | nil => exact .pure trivial
  | cons name rest ih =>
      exact (safely_lookup width ip name).bind fun n nonzero =>
        (Inode.safely_load nonzero).bind fun next _ => .guard (ih next)

theorem safely_cat (path : Bytes) : Safely (v.cat path : MountM δ Unit) fun _ => True := by
  have resolve : Safely (v.resolve path : MountM δ Inode) fun _ => True := by
    rw [Volume.resolve]
    exact .guard (.get_bind fun m => safely_follow width m.directory _)
  exact resolve.bind fun ip _ => (Content.safely_gather _ _ _ _).bind fun _ _ => .put

theorem safely_checkNew (name : Bytes) :
    Safely (v.checkNew name : MountM δ Unit) fun _ => True := by
  rw [checkNew]
  apply Safely.guard
  apply Safely.guard
  apply Safely.get_bind
  intro m
  rw [width]
  refine (Directory.safely_lookup v.superblock m.directory name).bind fun r _ => ?_
  cases r with
  | none => exact .pure trivial
  | some n => exact .fail _

omit [Disk δ] [PlainDisk δ] width in
theorem safely_report (cause : Error) (inode zone : UInt64) (results : List (Except Error Unit)) :
    Safely (match failures results with
      | [] => do
          Mount.emit (.released inode zone cause)
          return cause
      | e :: rest => do
          Mount.emit (.notReleased inode zone (e.joinAll rest))
          return cause.joinAll (e :: rest) : MountM δ Error) fun _ => True := by
  cases failures results with
  | nil => exact .bind .emit fun _ _ => .pure trivial
  | cons e rest => exact .bind .emit fun _ _ => .pure trivial

omit width in
theorem safely_giveBack (cause : Error) {inode zone : UInt64}
    (hi : v.superblock.OnInodeMap inode) (hz : zone = 0 ∨ v.superblock.OnZoneMap zone) :
    Safely (v.giveBack cause inode zone : MountM δ Error) fun _ => True := by
  rw [giveBack]
  split
  · exact .bind .emit fun _ _ => .pure trivial
  · simp only [if_neg hi.1]
    refine (Inode.safely_store hi.1 _).attempt.bind fun r₁ _ =>
      (v.superblock.safely_freeInode hi).attempt.bind fun r₂ _ => ?_
    split
    · exact safely_report cause inode zone _
    · next nonzero =>
        have onMap := hz.resolve_left nonzero
        exact (v.superblock.safely_freeZone onMap).attempt.bind fun r₃ _ =>
          safely_report cause inode zone _

omit width in
theorem safely_orGiveBack {α : Type} {step : MountM δ α} {P : α → Prop} (h : Safely step P)
    {inode zone : UInt64} (hi : v.superblock.OnInodeMap inode)
    (hz : zone = 0 ∨ v.superblock.OnZoneMap zone) :
    Safely (v.orGiveBack inode zone step) P := by
  refine h.attempt.bind fun r holds => ?_
  cases r with
  | ok a => exact .pure (holds a rfl)
  | error e => exact (safely_giveBack e hi hz).bind fun _ _ => .fail _

theorem safely_touch (name : Bytes) : Safely (v.touch name : MountM δ UInt64) fun _ => True := by
  refine (safely_checkNew width name).bind fun _ _ =>
    v.superblock.safely_allocateInode.bind fun inode hi =>
      (safely_orGiveBack (Inode.safely_store hi.1 _) hi (.inl rfl)).bind fun _ _ => ?_
  rw [width]
  exact (safely_orGiveBack (Directory.safely_add v.superblock (by decide) _) hi (.inl rfl)).bind
    fun _ _ => .bind .trace fun _ _ => .pure trivial

theorem safely_addLinked (entry : Entry) :
    Safely (v.addLinked entry : MountM δ Unit) fun _ => True := by
  refine .bind .modifyDirectory fun _ _ => ?_
  rw [width]
  refine (Directory.safely_add v.superblock (by decide) entry).attempt.bind fun r _ => ?_
  cases r with
  | ok _ => exact .pure trivial
  | error e => exact .bind .modifyDirectory fun _ _ => .fail _

theorem safely_mkdir (name : Bytes) : Safely (v.mkdir name : MountM δ UInt64) fun _ => True := by
  refine (safely_checkNew width name).bind fun _ _ => ?_
  apply Safely.get_bind
  intro m
  apply Safely.guard
  refine v.superblock.safely_allocateInode.bind fun inode hi =>
    (safely_orGiveBack v.superblock.safely_allocateZone hi (.inl rfl)).bind fun zone hz => ?_
  rw [width]
  have block : Safely (liftExcept (Entry.block (Format.newDirectory inode Inode.root)
      v.superblock.width v.superblock.zoneSize) : MountM δ Buffer) fun _ => True := by
    refine .liftExcept (fun _ _ => trivial) ?_
    intro t h
    rcases Entry.block_cases v.superblock inode with ⟨b, run, -⟩ | ⟨t', run, benign⟩
    · rw [run] at h
      cases h
    · rw [run] at h
      cases h
      exact benign
  exact (safely_orGiveBack block hi (.inr hz)).bind fun _ _ =>
    (safely_orGiveBack (.wrapping .writeAt) hi (.inr hz)).bind fun _ _ =>
      (safely_orGiveBack (Inode.safely_store hi.1 _) hi (.inr hz)).bind fun _ _ =>
        (safely_orGiveBack (safely_addLinked width _) hi (.inr hz)).bind fun _ _ =>
          .bind .trace fun _ _ => .pure trivial

omit width in
theorem safely_info : Safely (v.info : MountM δ Unit) fun _ => True := by
  have puts (ps : List Bytes) : Safely (ps.forM fun p => Mount.put (Buffer.ofBytes p) :
      MountM δ Unit) fun _ => True := by
    induction ps with
    | nil => exact .pure trivial
    | cons p ps ih => exact .bind .put fun _ _ => ih
  have count {bm : Bitmap} {blocks : Nat} (h : bm.Reaches blocks) :
      Safely (liftExcept bm.freeCount : MountM δ UInt64) fun _ => True := by
    obtain ⟨n, run⟩ := h.freeCount_ok
    rw [run]
    exact .liftExcept (fun _ _ => trivial) fun _ h => nomatch h
  refine .bind (P := fun _ => True) ?_ fun r _ => .wrapping (puts _)
  exact v.superblock.safely_loadInodeMap.bind fun inodeMap h₁ =>
    v.superblock.safely_loadZoneMap.bind fun zoneMap h₂ => (count h₁).bind fun _ _ =>
      (count h₂).bind fun _ _ => .pure trivial

end Volume

theorem Command.safely_run {v : Volume} (width : v.nameWidth = v.superblock.width) (c : Command) :
    Safely (c.run v : MountM δ Unit) fun _ => True := by
  cases c with
  | ls long => exact v.safely_ls width long
  | cat path => exact v.safely_cat width path
  | touch name => exact (v.safely_touch width name).map _ fun _ _ => trivial
  | mkdir name => exact (v.safely_mkdir width name).map _ fun _ _ => trivial
  | info => exact v.safely_info

namespace Volume

theorem runAll_benign {v : Volume} (width : v.nameWidth = v.superblock.width)
    (commands : List (Int64 × Command)) (m : Mount δ) {t : Stop}
    (ht : .error t ∈ (v.runAll commands m).1) : t.Benign := by
  induction commands generalizing m with
  | nil => cases ht
  | cons command commands ih =>
      obtain ⟨clock, c⟩ := command
      rcases List.mem_cons.mp ht with here | later
      · exact (Command.safely_run (v := { v with clock := clock }) width c).benign here.symm
      · exact ih _ later

/-- Whatever the image holds, opening it does not crash, nor does any command behind a successful
opening, whichever calls of the disk fail and whatever the root directory in memory has become. The
slots that are looked at lie within their zone, and so do the entries of a new directory. -/
theorem never_crashes (m₀ : Mount δ) (clock : Int64) (color : Bool) :
    (∀ t, (Mount.exec (openDisk clock color) m₀).1 = .error t → t.Benign) ∧
    ∀ v m, Mount.exec (openDisk clock color) m₀ = (.ok v, m) →
      (∀ (δ' : Type) [Disk δ'] [PlainDisk δ'] (m' : Mount δ') (commands : List (Int64 × Command)),
        ∀ t, .error t ∈ (v.runAll commands m').1 → t.Benign) ∧
      (∀ (z : UInt64) (m' : Mount δ) (zone : Buffer),
        (Mount.exec (Directory.readZone v.superblock z) m').1 = .ok zone →
        ∃ count, Directory.slotCount v.superblock v.nameWidth = .ok count ∧
          ∀ i, i < count → (i + 1) * (Entry.slotSize v.nameWidth).toNat ≤ zone.size) ∧
      ∀ (number : UInt64) (block : Buffer),
        Entry.block (Format.newDirectory number Inode.root) v.nameWidth v.superblock.zoneSize
          = .ok block → block.size = v.superblock.zoneSize.toNat := by
  have opening := safely_openDisk (δ := δ) clock color
  refine ⟨fun t stop => opening.benign stop, ?_⟩
  intro v m run
  have width : v.nameWidth = v.superblock.width := opening.answer (m := m₀) (by rw [run])
  refine ⟨?_, ?_, ?_⟩
  · intro δ' _ _ m' commands t ht
    exact runAll_benign width commands m' ht
  · intro z m' zone read
    have size := (Directory.safely_readZone v.superblock z).answer read
    rw [width]
    refine ⟨_, Directory.slotCount_eq v.superblock, ?_⟩
    intro i hi
    have within := Superblock.Fits.slotEnd_le v.superblock hi
    rw [Entry.slotSize, Superblock.toNat_slotSize, size, Nat.succ_mul]
    exact within
  · intro number block made
    rw [width] at made
    rcases Entry.block_cases v.superblock number with ⟨b, run', size⟩ | ⟨t, run', -⟩
    · rw [run'] at made
      cases made
      exact size
    · rw [run'] at made
      cases made

def bareHeader : Superblock :=
  { logZoneSize := 64, inodes := 9, magic := Superblock.shortNameMagic }

theorem never_crashes_bare :
    ∃ m, Mount.exec (openDisk 0 false) (⟨⟨(Buffer.zeros 2080).splice 1024
        (Buffer.ofBytes bareHeader.encode)⟩, {}, {}, #[]⟩ : Mount MemoryDisk)
          = (.ok ⟨bareHeader, 14, 0, false⟩, m) ∧
      ∀ t, .error t ∈ (runAll ⟨bareHeader, 14, 0, false⟩
        [(0, .ls true), (1, .mkdir [0x61]), (2, .touch [0x62]), (3, .info)]
        (m.onto (⟨m.disk, [{ on := .write }]⟩ : FaultyDisk MemoryDisk))).1 → t.Benign := by
  have record : (Buffer.ofBytes bareHeader.encode).size = Superblock.recordSize := rfl
  have inside : 1024 + (Buffer.ofBytes bareHeader.encode).size ≤ (Buffer.zeros 2080).size := by
    rw [record, Buffer.size_zeros]
    decide
  have header : Image.header ((Buffer.zeros 2080).splice 1024 (Buffer.ofBytes bareHeader.encode))
      = bareHeader := by
    rw [Image.header, ← record, Buffer.window_splice_self inside, Buffer.toBytes_ofBytes,
      Superblock.ofRecord_encode]
  have size := Buffer.size_splice inside
  rw [Buffer.size_zeros] at size
  generalize (Buffer.zeros 2080).splice 1024 (Buffer.ofBytes bareHeader.encode) = img at header size
  have sound : ImageDisk.Sound (⟨img⟩ : MemoryDisk) := by
    change img.size < sizeLimit
    rw [size]
    decide
  have table : bareHeader.tablePlace + 32 = 2080 := rfl
  obtain ⟨m, run⟩ := exec_openDisk_of_known (m := (⟨⟨img⟩, {}, {}, #[]⟩ : Mount MemoryDisk)) sound
    trivial header rfl (Nat.le_of_eq (table.trans size.symm)) 0 false
  exact ⟨m, run, ((never_crashes _ 0 false).2 _ m run).1 _ _ _⟩

end Volume

end MinixVolume

import MinixVolume.Proofs.Backing
import MinixVolume.Proofs.Inventory
import MinixVolume.Proofs.Twins

namespace MinixVolume

namespace FaultRule

def writes (skip count : Nat) : List FaultRule :=
  [{ on := .write, skip := skip, count := some count }]

variable (skip count : Nat) (off : UInt64)

theorem strike_read (n : UInt64) :
    strike (.read off n) (writes skip count) = (false, writes skip count) := rfl

variable (data : Buffer)

theorem strike_skipped :
    strike (.write off data) (writes (skip + 1) count) = (false, writes skip count) := by
  have pos : (0 : Int) < skip + 1 := by omega
  simp [strike, writes, applies, DiskCall.operation, pos]

theorem strike_hit :
    strike (.write off data) (writes 0 (count + 1)) = (true, writes 0 count) := by
  have pos : ¬ (count + 1 : Int) ≤ 0 := by omega
  simp [strike, writes, applies, DiskCall.operation, pos]

theorem strike_spent : strike (.write off data) (writes 0 0) = (false, writes 0 0) := by
  simp [strike, writes, applies, DiskCall.operation]

end FaultRule

namespace FaultyDisk

variable {δ α : Type} {c : DiskCall} {x : ExceptT Stop (StateM δ) α} {rules rules' : List FaultRule}

theorem guarded_passed (h : FaultRule.strike c rules = (false, rules')) (d : δ) :
    (guarded c x).run.run ⟨d, rules⟩ = ((x.run.run d).1, ⟨(x.run.run d).2, rules'⟩) := by
  simp only [guarded, ExceptT.run_mk, StateT.run, h]
  rfl

theorem guarded_hit (h : FaultRule.strike c rules = (true, rules')) (d : δ) :
    (guarded c x).run.run ⟨d, rules⟩ = (.error (.error .injected), ⟨d, rules'⟩) := by
  simp only [guarded, ExceptT.run_mk, StateT.run, h]

def Over (rules : List FaultRule) (d : δ) (d' : FaultyDisk δ) : Prop :=
  d' = ⟨d, rules⟩

variable [Disk δ] (skip count : Nat)

theorem sameReads_writes :
    SameReads (Over (FaultRule.writes skip count) : δ → FaultyDisk δ → Prop) Anywhere := by
  constructor
  · rintro d _ off n - rfl
    exact (congrArg Prod.fst (guarded_passed (FaultRule.strike_read skip count off n) d)).symm
  · rintro d _ off n - rfl
    exact congrArg Prod.snd (guarded_passed (FaultRule.strike_read skip count off n) d)

theorem sameTransfers_spent :
    SameTransfers (Over (FaultRule.writes 0 0) : δ → FaultyDisk δ → Prop) Anywhere := by
  refine ⟨sameReads_writes 0 0, ?_, ?_⟩
  · rintro d _ off data rfl
    exact (congrArg Prod.fst (guarded_passed (FaultRule.strike_spent off data) d)).symm
  · rintro d _ off data rfl
    exact congrArg Prod.snd (guarded_passed (FaultRule.strike_spent off data) d)

end FaultyDisk

namespace Mount

theorem Ends.stop_bind {δ α β : Type} {x : MountM δ α} {m : Mount δ} {f : α → MountM δ β}
    {Q : β → Mount δ → Prop} {E : Stop → Mount δ → Prop}
    (h : Ends x m (fun _ _ => False) E) : Ends (x >>= f) m Q E :=
  h.next fun _ _ impossible => impossible.elim

theorem Ends.attempt_stop {δ α : Type} {x : MountM δ α} {m : Mount δ} {P : Mount δ → Prop}
    (h : Ends x m (fun _ _ => False) fun t m' => (∃ e, t = .error e) ∧ P m')
    {E : Stop → Mount δ → Prop} :
    Ends (Mount.attempt x) m (fun r m' => (∃ e, r = .error e) ∧ P m') E := by
  refine Ends.attempt h (fun _ _ impossible => impossible.elim) ?_ ?_
  · rintro e m' ⟨-, h'⟩
    exact ⟨⟨e, rfl⟩, h'⟩
  · rintro _ _ ⟨⟨_, ⟨⟩⟩, -⟩

namespace Tracks

variable {δ δ' α : Type} {D D' : δ → δ' → Prop} {x : MountM δ α} {x' : MountM δ' α}

theorem orGiveBack [Disk δ] [Disk δ'] (v : Volume) (inode zone : UInt64) (hx : Tracks D D' x x') :
    Tracks D D' (v.orGiveBack inode zone x) (v.orGiveBack inode zone x') := by
  intro m m' a m₁ twins run
  rw [Volume.orGiveBack, exec_bind, exec_attempt] at run
  rcases first : exec x m with ⟨r, m₂⟩
  rw [first] at run
  rcases r with (e | p) | a'
  · simp only [caught, exec_bind] at run
    split at run <;> cases run
  · cases run
  · cases run
    obtain ⟨m₁', run', twins'⟩ := hx m m' _ _ twins first
    exact ⟨m₁', by rw [Volume.orGiveBack, exec_bind, exec_attempt, run']; rfl, twins'⟩

end Tracks

end Mount

open FaultyDisk (Over)

section Steps

variable {δ : Type} [Disk δ] {skip count : Nat}

theorem Mount.tracks_writeAt (off : UInt64) (data : Buffer) :
    Mount.Tracks (Over (FaultRule.writes (skip + 1) count)) (Over (FaultRule.writes skip count))
      (Mount.writeAt off data : MountM δ Unit) (Mount.writeAt off data) := by
  have transfer : Mount.Tracks (Over (FaultRule.writes (skip + 1) count))
      (Over (FaultRule.writes skip count)) (Mount.onDisk (Disk.write off data) : MountM δ Unit)
      (Mount.onDisk (Disk.write off data)) := by
    intro m m' a m₁ twins run
    have disk : m'.disk = ⟨m.disk, FaultRule.writes (skip + 1) count⟩ := twins.disk
    have passed := FaultyDisk.guarded_passed (x := Disk.write off data)
      (FaultRule.strike_skipped skip count off data) m.disk
    rw [exec_onDisk] at run
    obtain ⟨answer, rfl⟩ := Prod.mk.inj run
    refine ⟨{ m' with disk := ((Disk.write off data).run.run m'.disk).2 }, ?_, ?_⟩
    · rw [exec_onDisk, disk]
      exact congrArg (·, _) ((congrArg Prod.fst passed).trans answer)
    · refine ⟨?_, twins.directory, twins.output, trivial⟩
      dsimp only
      rw [disk]
      exact congrArg Prod.snd passed
  exact transfer.bind fun _ => (Alike.traced _ ()).tracks

theorem Inode.tracks_store (tableStart number : UInt64) (ip : Inode) :
    Mount.Tracks (Over (FaultRule.writes (skip + 1) count)) (Over (FaultRule.writes skip count))
      (store tableStart number ip : MountM δ Unit) (store tableStart number ip) :=
  (Mount.Alike.liftExcept _).tracks.bind fun _ =>
    (Mount.tracks_writeAt _ _).wrapping.bind fun _ => (Mount.Alike.trace _).tracks

theorem Bitmap.tracks_claim (bm : Bitmap) {β : Type} {e : Error} {f : UInt64 → MountM δ β}
    {f' : UInt64 → MountM (FaultyDisk δ) β}
    (next : ∀ n, Mount.Tracks (Over (FaultRule.writes skip count))
      (Over (FaultRule.writes skip count)) (f n) (f' n)) :
    Mount.Tracks (Over (FaultRule.writes (skip + 1) count)) (Over (FaultRule.writes skip count))
      (bm.claim >>= fun | none => Mount.fail e | some n => f n)
      (bm.claim >>= fun | none => Mount.fail e | some n => f' n) := by
  have search : Mount.Alike (Over (FaultRule.writes (skip + 1) count)) Mount.AnyRoot
      (bm.search : MountM δ (Option UInt64)) bm.search := by
    refine .bind (.liftExcept _) fun r => ?_
    cases r with
    | none => exact .pure none
    | some p => exact .bind (.trace _) fun _ => .pure _
  rw [claim, claim, bind_assoc, bind_assoc]
  refine search.tracks.bind fun r => ?_
  cases r with
  | none =>
      -- nothing is written then, but this is no success
      rw [pure_bind, pure_bind]
      exact .fail e
  | some n =>
      simp only [bind_assoc, pure_bind]
      exact (Mount.Alike.liftExcept _).tracks.bind fun _ =>
        (Mount.tracks_writeAt _ _).wrapping.bind fun _ => next n

namespace Superblock

variable (sb : Superblock)

theorem tracks_allocateInode :
    Mount.Tracks (Over (FaultRule.writes (skip + 1) count)) (Over (FaultRule.writes skip count))
      (sb.allocateInode : MountM δ UInt64) sb.allocateInode :=
  (Bitmap.alike_load (FaultyDisk.sameReads_writes _ _) trivial _).tracks.bind fun bm =>
    bm.tracks_claim fun n =>
      (Mount.Alike.trace _).tracks.bind fun _ => (Mount.Alike.pure n).tracks

theorem tracks_allocateZone :
    Mount.Tracks (Over (FaultRule.writes (skip + 1) count)) (Over (FaultRule.writes skip count))
      (sb.allocateZone : MountM δ UInt64) sb.allocateZone :=
  (Bitmap.alike_load (FaultyDisk.sameReads_writes _ _) trivial _).tracks.bind fun bm =>
    bm.tracks_claim fun _ =>
      (Mount.Alike.trace _).tracks.bind fun _ => (Mount.Alike.pure _).tracks

end Superblock

end Steps

variable {δ : Type} [Disk δ] [ImageDisk δ]

/-- A mount whose disk fails some of its writes to come, over a disk that works. -/
structure Mount.Bears (m : Mount (FaultyDisk δ)) (skip count : Nat) (s : Scene) : Prop where
  rules : m.disk.rules = FaultRule.writes skip count
  shows : (m.onto m.disk.disk).Shows True s

namespace Mount.Bears

variable {m : Mount (FaultyDisk δ)} {skip count : Nat} {s : Scene} {α : Type}

theorem of_twins {m₀ : Mount δ} (twins : Twins (Over (FaultRule.writes skip count)) AnyRoot m₀ m)
    (shows : m₀.Shows True s) : m.Bears skip count s := by
  have disk : m.disk = ⟨m₀.disk, FaultRule.writes skip count⟩ := twins.disk
  refine ⟨by rw [disk], ?_⟩
  rw [disk]
  exact ⟨shows.sound, shows.reliable, shows.image, twins.directory ▸ shows.directory,
    twins.output ▸ shows.output⟩

theorem ends (h : m.Bears skip count s) {skip' : Nat} {x : MountM δ α}
    {x' : MountM (FaultyDisk δ) α} {Q : α → Mount δ → Prop}
    (tracks : Tracks (Over (FaultRule.writes skip count)) (Over (FaultRule.writes skip' count))
      x x') (done : Ends x (m.onto m.disk.disk) Q fun _ _ => False)
    {E : Stop → Mount (FaultyDisk δ) → Prop} :
    Ends x' m (fun a m' => ∃ m₀, Q a m₀ ∧
      Twins (Over (FaultRule.writes skip' count)) AnyRoot m₀ m') E := by
  have twins : Twins (Over (FaultRule.writes skip count)) AnyRoot (m.onto m.disk.disk) m := by
    refine ⟨?_, rfl, rfl, trivial⟩
    rw [Over, ← h.rules]
    rfl
  obtain ⟨a, m₀, run, holds⟩ := done.exec_ok
  obtain ⟨m', run', twins'⟩ := tracks _ _ _ _ twins run
  exact Ends.of_exec run' ⟨m₀, holds, twins'⟩

theorem ends_modifyDirectory (h : m.Bears skip count s) (f : Inode → Inode)
    {E : Stop → Mount (FaultyDisk δ) → Prop} :
    Ends (Mount.modifyDirectory f) m
      (fun _ m' => m'.Bears skip count { s with directory := f s.directory }) E :=
  Ends.of_exec (exec_modifyDirectory f m) ⟨h.rules, h.shows.modifyDirectory f⟩

theorem ends_writeAt_cut (h : m.Bears 0 (count + 1) s) (off : UInt64) (data : Buffer) :
    Ends (writeAt off data) m (fun _ _ => False)
      (fun t m' => t = .error .injected ∧ m'.Bears 0 count s) := by
  have hit := FaultyDisk.guarded_hit (x := Disk.write off data)
    (FaultRule.strike_hit count off data) m.disk.disk
  rw [← h.rules] at hit
  have run : exec (onDisk (Disk.write off data)) m =
      (.error (.error .injected),
        { m with disk := ⟨m.disk.disk, FaultRule.writes 0 count⟩ }) := by
    rw [exec_onDisk]
    exact congrArg (fun p : Except Stop Unit × FaultyDisk δ => (p.1, { m with disk := p.2 })) hit
  exact Ends.stop_bind (Ends.of_exec_error run ⟨rfl, rfl, h.shows⟩)

theorem ends_write (h : m.Bears 0 (count + 1) s) (place : Place) (off : UInt64) (data : Buffer) :
    Ends (wrapping (.during .write place) (writeAt off data)) m (fun _ _ => False)
      (fun t m' => t = .error (.during .write place .injected) ∧ m'.Bears 0 count s) := by
  refine (h.ends_writeAt_cut off data).wrapping ?_ ?_
  · rintro e m' ⟨eq, h'⟩
    cases eq
    exact ⟨rfl, h'⟩
  · rintro p m' ⟨eq, -⟩
    cases eq

end Mount.Bears

theorem Inode.ends_store_cut {m : Mount (FaultyDisk δ)} {count : Nat} {s : Scene}
    (h : m.Bears 0 (count + 1) s) {sb : Superblock} {n : UInt64} (pos : 1 ≤ n.toNat)
    (inside : sb.recordPlace n.toNat + 32 ≤ s.image.size) (ip : Inode) :
    Mount.Ends (store sb.inodeTableStart n ip) m (fun _ _ => False)
      (fun t m' => (∃ e, t = .error e) ∧ m'.Bears 0 count s) := by
  obtain ⟨offset, -⟩ := offset_of_inside pos inside h.shows.size_lt
  rw [store, offset]
  apply Mount.Ends.ok_bind
  exact Mount.Ends.stop_bind ((h.ends_write _ _ _).mono (fun _ _ h => h)
    fun _ _ stop => ⟨⟨_, stop.1⟩, stop.2⟩)

theorem Superblock.ends_freeInode_cut {m : Mount (FaultyDisk δ)} {count : Nat} {s : Scene}
    (h : m.Bears 0 (count + 1) s) {sb : Superblock} (hf : sb.Fits s.image.size) {n : UInt64}
    (hn : sb.IsInode n.toNat) :
    Mount.Ends (sb.freeInode n) m (fun _ _ => False)
      (fun t m' => (∃ e, t = .error e) ∧ m'.Bears 0 count s) := by
  have nonzero : n ≠ 0 := by
    rintro rfl
    exact absurd hn.1 (by decide)
  have le := hn.2
  have lt := hf.inodes_lt
  have load := Mount.ends_sure (ends_loadInodeMap h.shows hf) (Nat.zero_le _)
  have reads := FaultyDisk.sameReads_writes (δ := δ) 0 (count + 1)
  rw [freeInode, if_neg nonzero]
  refine Mount.Ends.next (h.ends (Bitmap.alike_load reads trivial _).tracks load) ?_
  rintro bm m₁ ⟨m₀, ⟨-, covers, shows⟩, twins⟩
  have h₁ := Mount.Bears.of_twins twins shows
  rw [Bitmap.release, Bitmap.clear_eq (by rw [covers.size]; omega)]
  apply Mount.Ends.ok_bind
  exact (h₁.ends_write _ _ _).mono (fun _ _ h => h) fun _ _ stop => ⟨⟨_, stop.1⟩, stop.2⟩

theorem Directory.ends_add_cut {m : Mount (FaultyDisk δ)} {count : Nat} {s : Scene}
    (h : m.Bears 0 (count + 1) s) {sb : Superblock} (hf : sb.Fits s.image.size) (number : UInt64)
    (zones : ∀ z ∈ s.directory.zones, sb.IsDataZone z)
    (room : ∃ z ∈ s.directory.zones, ¬ Image.Occupied sb (Image.zone sb s.image z))
    (small : sb.zoneSize.toNat ≤ Word.largestBuffer.toNat) {e : Entry}
    (short : e.name.length ≤ sb.width.toNat) :
    Mount.Ends (add sb number e sb.width) m (fun _ _ => False)
      (fun t m' => t = .error (.during .write (.entry e.name) .injected) ∧
        m'.Bears 0 count s) := by
  have find := Mount.ends_sure
    (ends_findSlot h.shows (fun z hz => hf.zoneEnd_le (zones z hz)) fun _ _ => Nat.le_refl _) small
  have reads := FaultyDisk.sameReads_writes (δ := δ) 0 (count + 1)
  have directory : m.directory = s.directory := h.shows.directory
  rw [add, Entry.encode_eq short]
  apply Mount.Ends.ok_bind
  apply Mount.ends_get
  rw [directory]
  refine Mount.Ends.next
    (h.ends (alike_findSlot reads sb sb.width fun _ _ => trivial).tracks find) ?_
  rintro r m₁ ⟨m₀, ⟨shows, ⟨rfl, full⟩ | ⟨z, k, rfl, -⟩⟩, twins⟩
  · obtain ⟨z, hz, free⟩ := room
    exact absurd (full z hz) free
  · exact Mount.Ends.stop_bind ((Mount.Bears.of_twins twins shows).ends_write _ _ _)

theorem Creation.Fresh.applyAll_cut {sb : Superblock} {s : Scene} {c : Creation}
    (fresh : c.Fresh sb s) (hf : sb.Fits s.image.size) {z : UInt64} (hz : z ∈ c.zone) :
    Image.inodeUsed sb (Update.applyAll sb s.image (c.steps ++ [.zoneBit z false]))
        c.number.toNat = true ∧
      Image.inode sb (Update.applyAll sb s.image (c.steps ++ [.zoneBit z false])) c.number.toNat
        = c.record ∧
      Image.zoneUsed sb (Update.applyAll sb s.image (c.steps ++ [.zoneBit z false])) z
        = false := by
  have lt := hf.inodes_lt
  have le := fresh.isInode.2
  have isZone := (fresh.zone z hz).1
  have valid : ∀ u ∈ c.steps ++ [.zoneBit z false], u.Valid sb := by
    intro u hu
    rcases List.mem_append.mp hu with hu | hu
    · exact fresh.valid_steps u hu
    · rw [List.mem_singleton.mp hu]
      exact isZone
  refine ⟨?_, Image.inode_of_record ?_, ?_⟩
  · rw [Update.inodeUsed_applyAll valid hf (by omega)]
    obtain ⟨number, name, record, zone, block, root⟩ := c
    cases hz
    simp [steps, Update.onInodeBit]
  · rw [Update.record_applyAll valid hf fresh.isInode]
    obtain ⟨number, name, record, zone, block, root⟩ := c
    cases hz
    simp [steps, Update.onRecord]
  · rw [Image.zoneUsed, Update.zoneMapBit_applyAll valid hf (hf.zoneNumber_lt isZone)]
    simp [Update.onZoneBit]

namespace Volume

variable {v : Volume} {s : Scene} {name : Bytes}

theorem ends_addLinked_cut {m : Mount (FaultyDisk δ)} {count : Nat} (h : m.Bears 0 (count + 1) s)
    (width : v.nameWidth = v.superblock.width) (hf : v.superblock.Fits s.image.size)
    (zones : ∀ z ∈ s.directory.zones, v.superblock.IsDataZone z)
    (room : ∃ z ∈ s.directory.zones,
      ¬ Image.Occupied v.superblock (Image.zone v.superblock s.image z))
    (small : v.superblock.zoneSize.toNat ≤ Word.largestBuffer.toNat) {e : Entry}
    (short : e.name.length ≤ v.superblock.width.toNat) :
    Mount.Ends (v.addLinked e) m (fun _ _ => False)
      (fun t m' => t = .error (.during .write (.entry e.name) .injected) ∧
        m'.Bears 0 count s) := by
  rw [addLinked, width]
  refine Mount.Ends.next (h.ends_modifyDirectory link) fun _ m₁ h₁ => ?_
  have add := Directory.ends_add_cut h₁ hf Inode.root zones room small short
  refine Mount.Ends.next (Mount.Ends.attempt (P := fun r m' =>
    r = .error (.during .write (.entry e.name) .injected) ∧
      m'.Bears 0 count { s with directory := link s.directory }) add ?_ ?_ ?_) ?_
  · exact fun _ _ impossible => impossible.elim
  · rintro err m' ⟨eq, h'⟩
    cases eq
    exact ⟨rfl, h'⟩
  · rintro p m' ⟨eq, -⟩
    cases eq
  · rintro r m₂ ⟨rfl, h₂⟩
    refine Mount.Ends.next (h₂.ends_modifyDirectory unlink) fun _ m₃ h₃ => ?_
    rw [unlink_link] at h₃
    exact Mount.Ends.fail ⟨rfl, h₃⟩

theorem ends_giveBack_cut {m : Mount (FaultyDisk δ)} (h : m.Bears 0 2 s)
    (hf : v.superblock.Fits s.image.size) {i : UInt64} (hi : v.superblock.IsInode i.toNat)
    {z : UInt64} (hz : v.superblock.IsDataZone z) {cause : Error}
    (calm : cause.hasKind .inconsistent = false) {E : Stop → Mount (FaultyDisk δ) → Prop} :
    Mount.Ends (v.giveBack cause i z) m
      (fun _ m' => m'.Bears 0 0
        { s with image := (Update.zoneBit z false).apply v.superblock s.image }) E := by
  have nonzero : i ≠ 0 := by
    rintro rfl
    exact absurd hi.1 (by decide)
  have nonzero' : z ≠ 0 := by
    rintro rfl
    have := hz.1
    have := hf.firstDataZone_pos
    have : (0 : UInt64).toNat = 0 := rfl
    omega
  rw [giveBack, if_neg (by rw [calm]; decide)]
  simp only [if_neg nonzero, if_neg nonzero']
  have record := Inode.ends_store_cut h hi.1 (Inode.record_inside hf hi) {}
  refine Mount.Ends.next record.attempt_stop ?_
  rintro r₁ m₁ ⟨-, h₁⟩
  refine Mount.Ends.next (Superblock.ends_freeInode_cut h₁ hf hi).attempt_stop ?_
  rintro r₂ m₂ ⟨-, h₂⟩
  -- the rules are spent by now
  have free := Mount.ends_sure (Superblock.ends_freeZone h₂.shows hf hz) (Nat.zero_le _)
  have tracks := (Superblock.alike_freeZone (FaultyDisk.sameTransfers_spent (δ := δ))
    v.superblock.legible_anywhere z).tracks
  refine Mount.Ends.next (Mount.Ends.attempt (P := fun _ m' => m'.Bears 0 0
    { s with image := (Update.zoneBit z false).apply v.superblock s.image })
    (h₂.ends tracks free (E := fun _ _ => False)) ?_ (fun _ _ impossible => impossible.elim)
    fun _ _ impossible => impossible.elim) fun r₃ m₃ h₃ => ?_
  · rintro _ m' ⟨m₀, shows, twins⟩
    exact .of_twins twins shows
  · split
    · exact Mount.Ends.of_exec rfl ⟨h₃.rules, h₃.shows.log _⟩
    · exact Mount.Ends.of_exec rfl ⟨h₃.rules, h₃.shows.log _⟩

section Cut

variable {img₀ : Buffer} {cs : List Creation} (stocked : Image.Stocked img₀ cs s)
  (orderly : Image.Orderly img₀) (accepted : FormatOptions.Accepted (Image.header img₀))
  (superblock : v.superblock = Image.header img₀)
  (admitted : Request.Admitted (Image.header img₀) (cs.map Creation.item)
    ⟨v.clock, .directory, name⟩)
include stocked orderly accepted superblock admitted

theorem ends_admitted {α : Type} {x : MountM δ α} {m : Mount δ} {Q : α → Mount δ → Prop}
    (h : Mount.Ends x m Q fun t m' =>
      v.Comes name (v.DirectoryPlan name s.directory) True s (.error t) m') :
    Mount.Ends x m Q fun _ _ => False := by
  refine h.mono (fun _ _ h => h) ?_
  rintro t m' ⟨s', -, outcome⟩
  rw [superblock] at outcome
  rcases stocked.outcome (r := ⟨v.clock, .directory, name⟩) orderly accepted superblock outcome
    with ⟨c, answer, -⟩ | ⟨-, -, -, refused⟩
  · cases answer
  · exact refused admitted

theorem ends_mkdir_cut (width : v.nameWidth = v.superblock.width) {m : Mount (FaultyDisk δ)}
    (h : m.Bears 4 3 s) :
    Mount.Ends (v.mkdir name) m (fun _ _ => False)
      (fun _ m' => ∃ i z, (Creation.directory v name s.directory i z).Fresh v.superblock s ∧
        m'.Bears 0 0
          { s with
            image := Update.applyAll v.superblock s.image
              ((Creation.directory v name s.directory i z).steps ++ [.zoneBit z false]) }) := by
  have ready := stocked.ready orderly superblock width
  have sure {α : Type} {x : MountM δ α} {m : Mount δ} {Q : α → Mount δ → Prop} :=
    ends_admitted stocked orderly accepted superblock admitted (x := x) (m := m) (Q := Q)
  have links := stocked.links_lt accepted
  have small : v.superblock.zoneSize.toNat ≤ Word.largestBuffer.toNat := by
    rw [superblock]
    exact accepted.zoneSize_le
  have reads := FaultyDisk.sameReads_writes (δ := δ) 4 3
  have taking : ∀ c, v.DirectoryPlan name s.directory c → c.zone ≠ none := by
    rintro c ⟨-, number, zone, rfl⟩
    exact Option.some_ne_none zone
  have check := sure ((ends_checkNew h.shows ready name).mono (fun _ _ h => h)
    fun t m' stop => ⟨s, stop.1, .refused stop.2⟩)
  have tracks := (v.alike_checkNew reads v.superblock.legible_anywhere name).tracks
  refine Mount.Ends.next (h.ends tracks check) ?_
  rintro _ m₁ ⟨m₁', ⟨shows₁, new⟩, twins₁⟩
  have h₁ := Mount.Bears.of_twins twins₁ shows₁
  have directory : m₁.directory = s.directory := h₁.shows.directory
  apply Mount.ends_get
  rw [directory, if_neg links]
  -- the four writes that pass: both maps, the zone and the record
  have some : v.DirectoryPlan name s.directory (.directory v name s.directory 0 0) :=
    ⟨links, 0, 0, rfl⟩
  have inode := sure
    (ends_takeInode (v.DirectoryPlan name s.directory) ⟨_, some⟩ h₁.shows ready new)
  refine Mount.Ends.next (h₁.ends (v.superblock.tracks_allocateInode) inode) ?_
  rintro i m₂ ⟨m₂', ⟨fresh₀, shows₂⟩, twins₂⟩
  have h₂ := Mount.Bears.of_twins twins₂ shows₂
  have zone := sure (ends_takeZone name some rfl taking ready fresh₀ h₂.shows)
  refine Mount.Ends.next (h₂.ends (v.superblock.tracks_allocateZone.orGiveBack v i 0) zone) ?_
  rintro z m₃ ⟨m₃', ⟨fresh, shows₃⟩, twins₃⟩
  have h₃ := Mount.Bears.of_twins twins₃ shows₃
  have planned : v.DirectoryPlan name s.directory (.directory v name s.directory i z) :=
    ⟨links, i, z, rfl⟩
  have taken : [.inodeBit i.toNat true, .zoneBit z true]
      <+: (Creation.directory v name s.directory i z).steps := ⟨_, rfl⟩
  have filled : [.inodeBit i.toNat true, .zoneBit z true, .zone z (Image.newZone v.superblock i)]
      <+: (Creation.directory v name s.directory i z).steps := ⟨_, rfl⟩
  obtain ⟨hz, -, size, -⟩ := fresh.zone z rfl
  rw [ready.width]
  have block := sure (ends_buildOrGiveBack ready planned fresh h₃.shows)
  refine Mount.Ends.next (h₃.ends ((Mount.Alike.liftExcept _).tracks.orGiveBack v i z) block) ?_
  rintro b m₄ ⟨m₄', ⟨rfl, -, rfl⟩, twins₄⟩
  have h₄ := Mount.Bears.of_twins twins₄ h₃.shows
  have write := sure (ends_stepOrGiveBack ready (c := .directory v name s.directory i z)
    [.inodeBit i.toNat true, .zoneBit z true]
    (ends_writeZone h₄.shows (fresh.fits_part ready.fits taken) hz size) (.inr planned) fresh
    taken)
  refine Mount.Ends.next (h₄.ends ((Mount.tracks_writeAt _ _).wrapping.orGiveBack v i z) write) ?_
  rintro _ m₅ ⟨m₅', shows₅, twins₅⟩
  have h₅ := Mount.Bears.of_twins twins₅ shows₅
  have fits₅ := fresh.fits_part ready.fits filled
  have store := Inode.ends_store h₅.shows fits₅ fresh.isInode
    (Creation.directory v name s.directory i z).record
  have store := sure (ends_stepOrGiveBack ready (c := .directory v name s.directory i z)
    [.inodeBit i.toNat true, .zoneBit z true, .zone z (Image.newZone v.superblock i)] store
    (.inr planned) fresh filled)
  refine Mount.Ends.next (h₅.ends ((Inode.tracks_store _ _ _).orGiveBack v i z) store) ?_
  rintro _ m₆ ⟨m₆', shows₆, twins₆⟩
  have h₆ := Mount.Bears.of_twins twins₆ shows₆
  have fits := fresh.fits_part ready.fits (List.prefix_refl _)
  have room : ∃ z' ∈ s.directory.zones, ¬ Image.Occupied v.superblock (Image.zone v.superblock
      (Update.applyAll v.superblock s.image
        (Creation.directory v name s.directory i z).steps) z') := by
    have first : (Image.header img₀).firstDataZone.toUInt64 ∈ s.directory.zones := by
      rw [stocked.root_zone]
      exact List.mem_singleton.mpr rfl
    have left := admitted.slot
    rw [List.length_map, ← Image.Stocked.slots_eq accepted] at left
    refine ⟨_, first, ?_⟩
    rw [fresh.zone_steps ready.fits (ready.zones _ first).1 (ready.zones _ first).2, superblock]
    exact stocked.packed.not_occupied (by rw [Image.Stocked.length_packed]; exact left)
  -- the entry is the first write that fails
  have add := ends_addLinked_cut h₆ ready.width fits (fun z hz => (ready.zones z hz).1) room
    small (e := ⟨i, name⟩) new.short
  refine Mount.Ends.stop_bind (ends_orGiveBack add ?_ ?_)
  · rintro err m' ⟨eq, h'⟩
    cases eq
    refine (ends_giveBack_cut h' fits fresh.isInode hz rfl).imp fun _ m₇ h₇ => ⟨i, z, fresh, ?_⟩
    rw [Update.applyAll_append]
    exact h₇
  · rintro p m' ⟨eq, -⟩
    cases eq

theorem not_owned_mkdir (width : v.nameWidth = v.superblock.width) {m : Mount (FaultyDisk δ)}
    (h : m.Bears 4 3 s) :
    ¬ Image.Owned v.superblock (ImageDisk.image (Mount.exec ((Command.mkdir name).run v) m).2.disk)
      (Image.usedInodes v.superblock
        (ImageDisk.image (Mount.exec ((Command.mkdir name).run v) m).2.disk)) := by
  have run : Mount.exec ((Command.mkdir name).run v) m
      = ((Mount.exec (v.mkdir name) m).1.map (fun _ => ()), (Mount.exec (v.mkdir name) m).2) :=
    Mount.exec_map _ (v.mkdir name) m
  have fits := (stocked.ready orderly superblock width).fits
  rcases (ends_mkdir_cut stocked orderly accepted superblock admitted width h).exec_eq with
    ⟨_, _, _, impossible⟩ | ⟨t, m', eq, i, z, fresh, h'⟩
  · exact impossible.elim
  · have image : ImageDisk.image m'.disk = _ := h'.shows.image
    rw [run, eq, image]
    intro owned
    obtain ⟨used, record, free⟩ := fresh.applyAll_cut fits (z := z) rfl
    have isZone := (fresh.zone z rfl).1
    have genuine := (genuine_of_plan (.inr ⟨stocked.links_lt accepted, i, z, rfl⟩) :
      (Creation.directory v name s.directory i z).Genuine v.superblock ∧ _).1
    have told := genuine.zones_record fits fun z hz => (fresh.zone z hz).1
    have mem := Image.mem_usedInodes.mpr ⟨fresh.isInode, used⟩
    have inUse := (owned.used _ mem z (by
      rw [record, told]
      exact List.mem_singleton.mpr rfl)).2
    rw [free] at inUse
    cases inUse

end Cut

theorem owned_runAll_cut :
    ∃ sb m₁ v m, Mount.exec (Format.run { blocks := 8, inodes := 32 })
        (⟨⟨Buffer.zeros 8192⟩, {}, {}, #[]⟩ : Mount MemoryDisk) = (.ok sb, m₁) ∧
      Mount.exec (openDisk 0 false) m₁ = (.ok v, m) ∧
      ¬ Image.Owned sb
        (v.imageAfter [(0, .mkdir [0x64])] (m.onto (⟨m₁.disk,
          [{ on := .write, skip := 4, count := some 3 }]⟩ : FaultyDisk MemoryDisk)) 1)
        (Image.usedInodes sb (v.imageAfter [(0, .mkdir [0x64])] (m.onto (⟨m₁.disk,
          [{ on := .write, skip := 4, count := some 3 }]⟩ : FaultyDisk MemoryDisk)) 1)) := by
  obtain ⟨sb, layout, zones, inodes, dataZones, wide, slots⟩ : ∃ sb,
      FormatOptions.layout { blocks := 8, inodes := 32 } = .ok sb ∧ sb.zones = 8 ∧
        1 < sb.inodes.toNat ∧ 1 < sb.dataZones.toNat ∧ 1 ≤ sb.width.toNat ∧
        2 < 1024 / (2 + sb.width.toNat) :=
    ⟨⟨32, 8, 1, 1, 5, 0, FormatOptions.maxFileSize, Superblock.shortNameMagic, 1⟩, rfl, rfl,
      by decide, by decide, by decide, by decide⟩
  have accepted := FormatOptions.accepted_of_layout layout
  have size : (Buffer.zeros 8192).size = sb.zones.toNat * 1024 := by
    rw [Buffer.size_zeros, zones]
    decide
  generalize Buffer.zeros 8192 = blank at size
  obtain ⟨m₁, img, formatted, prepared, h₁⟩ := Format.exec_run
    (m := (⟨⟨blank⟩, {}, {}, #[]⟩ : Mount MemoryDisk)) (Format.sound_of_size size) trivial layout
    (Nat.le_of_eq size.symm)
  have header := Format.header_fresh prepared accepted 0
  have orderly := (Format.consistent_fresh prepared accepted 0).toOrderly
  have image : ImageDisk.image m₁.disk = Format.freshImage sb 0 img := h₁.image
  obtain ⟨v, m, opening, isOpen, -⟩ :=
    exec_openDisk h₁.sound trivial (by rw [image]; exact orderly.fits) 0 false
  have stocked := Format.stocked_fresh prepared accepted 0 m.output
  have admitted : Request.Admitted sb (List.map Creation.item []) ⟨0, .directory, [0x64]⟩ :=
    ⟨by decide, by decide, wide, by decide, inodes, slots, fun _ => dataZones⟩
  have shows := isOpen.shows_onto h₁.sound rfl
  rw [image] at isOpen shows
  rw [← header] at accepted admitted
  have superblock := isOpen.superblock
  refine ⟨sb, m₁, v, m, formatted, opening, ?_⟩
  rw [← header, ← superblock]
  exact not_owned_mkdir (v := { v with clock := 0 }) stocked orderly accepted superblock admitted
    isOpen.width ⟨rfl, shows⟩

end Volume

end MinixVolume

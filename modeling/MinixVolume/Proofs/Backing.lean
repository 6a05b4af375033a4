import MinixVolume.Proofs.Resilience

namespace MinixVolume

namespace Update

theorem foldl_onRecord (n : Nat) (us : List Update) (old : Buffer) :
    us.foldl (fun old u => u.onRecord n old) old = old ∨
      ∃ ip, .inode n ip ∈ us ∧
        us.foldl (fun old u => u.onRecord n old) old = Buffer.ofBytes ip.encode := by
  induction us generalizing old with
  | nil => exact .inl rfl
  | cons u us ih =>
      rw [List.foldl_cons]
      rcases ih (u.onRecord n old) with same | ⟨ip, mem, eq⟩
      · rw [same]
        cases u with
        | inode m ip =>
            rw [onRecord]
            split
            · next e => exact .inr ⟨ip, e ▸ List.mem_cons_self, rfl⟩
            · exact .inl rfl
        | _ => exact .inl rfl
      · exact .inr ⟨ip, List.mem_cons_of_mem u mem, eq⟩

theorem inode_applyAll {sb : Superblock} {img : Buffer} {us : List Update}
    (valid : ∀ u ∈ us, u.Valid sb) (hf : sb.Fits img.size) {n : Nat} (hn : sb.IsInode n) :
    Image.inode sb (applyAll sb img us) n = Image.inode sb img n ∨
      .inode n (Image.inode sb (applyAll sb img us) n) ∈ us := by
  have record := record_applyAll valid hf hn
  rcases foldl_onRecord n us (Image.record sb img n) with same | ⟨ip, mem, eq⟩
  · exact .inl (Image.inode_congr (record.trans same))
  · rw [Image.inode_of_record (record.trans eq)]
    exact .inr mem

end Update

namespace Image

/-- No inode that was taken between the two images tells of a zone that is free. -/
def Tidy (sb : Superblock) (before after : Buffer) : Prop :=
  ∀ n ∈ usedInodes sb after, n ∉ usedInodes sb before →
    ∀ z ∈ (inode sb after n).zones, zoneUsed sb after z = true

/-- No zone is told of by two inodes, in use or not. Of the free inodes only the first may tell of
zones at all: it has been taken and given back, but not cleared. -/
structure Settled (sb : Superblock) (img : Buffer) : Prop where
  isZone : ∀ n, sb.IsInode n → ∀ z ∈ (inode sb img n).zones, sb.IsDataZone z
  once : ∀ n, sb.IsInode n → (inode sb img n).zones.Nodup
  apart : ∀ n k, sb.IsInode n → sb.IsInode k → ∀ z ∈ (inode sb img n).zones,
    z ∈ (inode sb img k).zones → n = k
  first : ∀ n, sb.IsInode n → inodeUsed sb img n = false → (inode sb img n).zones ≠ [] →
    ∀ j, 1 ≤ j → j < n → inodeUsed sb img j = true
  used : ∀ n ∈ usedInodes sb img, ∀ z ∈ (inode sb img n).zones, zoneUsed sb img z = true

/-- Between the two images the first free inode was used, if only for a while, with a free zone or
with none. -/
structure Taking (sb : Superblock) (before after : Buffer) (n : Nat) : Prop where
  isInode : sb.IsInode n
  free : inodeUsed sb before n = false
  least : ∀ j, 1 ≤ j → j < n → inodeUsed sb before j = true
  bits : ∀ k, sb.IsInode k → k ≠ n → inodeUsed sb after k = inodeUsed sb before k
  others : ∀ k, sb.IsInode k → k ≠ n → (inode sb after k).zones = (inode sb before k).zones
  zones : (inode sb after n).zones = (inode sb before n).zones ∨
    ∃ zone : Option UInt64, (inode sb after n).zones = zone.toList ∧
      ∀ z ∈ zone, sb.IsDataZone z ∧ zoneUsed sb before z = false
  kept : ∀ z, sb.IsDataZone z → zoneUsed sb before z = true → zoneUsed sb after z = true

namespace Settled

variable {sb : Superblock} {img : Buffer}

theorem owned (h : Settled sb img) : Owned sb img (usedInodes sb img) := by
  constructor
  · refine List.nodup_flatMap.mpr ⟨fun n hn => h.once n (mem_usedInodes.mp hn).1,
      nodup_usedInodes.imp_of_mem ?_⟩
    intro n k hn hk ne z hz hz'
    exact ne (h.apart n k (mem_usedInodes.mp hn).1 (mem_usedInodes.mp hk).1 z hz hz')
  · intro n hn z hz
    exact ⟨h.isZone n (mem_usedInodes.mp hn).1 z hz, h.used n hn z hz⟩

section Taken

variable {after : Buffer} {n : Nat} (h : Settled sb img) (taking : Taking sb img after n)
include h taking

theorem zones_free {k : Nat} (hk : sb.IsInode k) (ne : k ≠ n)
    (free : inodeUsed sb img k = false) : (inode sb img k).zones = [] := by
  by_contra some
  -- if it did, it would be the first free inode, which is `n`
  rcases Nat.lt_or_gt_of_ne ne with lt | gt
  · rw [taking.least k hk.1 lt] at free
    cases free
  · have used := h.first k hk free some n taking.isInode.1 gt
    rw [taking.free] at used
    cases used

theorem zones_apart {k : Nat} (hk : sb.IsInode k) (ne : k ≠ n) {z : UInt64}
    (hz : z ∈ (inode sb after n).zones) : z ∉ (inode sb after k).zones := by
  rw [taking.others k hk ne]
  intro hz'
  rcases taking.zones with same | ⟨zone, taken, free⟩
  · rw [same] at hz
    exact ne (h.apart k n hk taking.isInode z hz' hz)
  · rw [taken, Option.mem_toList] at hz
    -- the zone was free, so no used inode told of it
    cases used : inodeUsed sb img k with
    | true =>
        have used := h.used k (mem_usedInodes.mpr ⟨hk, used⟩) z hz'
        rw [(free z hz).2] at used
        cases used
    | false =>
        rw [h.zones_free taking hk ne used] at hz'
        cases hz'

theorem take (tidy : Tidy sb img after) : Settled sb after where
  isZone k hk := by
    by_cases e : k = n
    · subst e
      rcases taking.zones with same | ⟨zone, taken, free⟩
      · rw [same]
        exact h.isZone k hk
      · rw [taken]
        exact fun z hz => (free z (Option.mem_toList.mp hz)).1
    · rw [taking.others k hk e]
      exact h.isZone k hk
  once k hk := by
    by_cases e : k = n
    · subst e
      rcases taking.zones with same | ⟨zone, taken, -⟩
      · rw [same]
        exact h.once k hk
      · rw [taken]
        cases zone with
        | none => exact List.nodup_nil
        | some z => exact List.nodup_singleton z
    · rw [taking.others k hk e]
      exact h.once k hk
  apart k l hk hl z hz hz' := by
    by_cases e : k = n
    · by_contra ne
      exact h.zones_apart taking hl (by omega) (e ▸ hz) hz'
    · by_cases e' : l = n
      · exact absurd hz (h.zones_apart taking hk e (e' ▸ hz'))
      · rw [taking.others k hk e] at hz
        rw [taking.others l hl e'] at hz'
        exact h.apart k l hk hl z hz hz'
  first k hk free some := by
    by_cases e : k = n
    · intro j pos lt
      have le := hk.2
      rw [taking.bits j ⟨pos, by omega⟩ (by omega)]
      exact taking.least j pos (e ▸ lt)
    · rw [taking.bits k hk e] at free
      rw [taking.others k hk e, h.zones_free taking hk e free] at some
      exact absurd rfl some
  used k hk z hz := by
    by_cases before : k ∈ usedInodes sb img
    · obtain ⟨isInode, used⟩ := mem_usedInodes.mp before
      have ne : k ≠ n := by
        rintro rfl
        rw [taking.free] at used
        cases used
      rw [taking.others k isInode ne] at hz
      exact taking.kept z (h.isZone k isInode z hz) (h.used k before z hz)
    · exact tidy k hk before z hz

end Taken

end Settled

end Image

namespace Creation

variable {sb : Superblock} {s : Scene} {c : Creation}

/-- The updates write no record for the inode of the creation but its own and a cleared one. -/
def Records (c : Creation) (us : List Update) : Prop :=
  ∀ ip, .inode c.number.toNat ip ∈ us → ip = c.record ∨ ip = {}

theorem records_steps {us : List Update} (part : us <+: c.steps) : c.Records us := by
  intro ip mem
  rcases mem_steps (part.subset mem) with h | ⟨_, _, h⟩ | ⟨_, _, h⟩ | h
  · cases h
  · cases h
  · cases h
  · exact .inl (Update.inode.inj h).2

theorem Records.append {us ws : List Update} (h : c.Records us) (h' : c.Records ws) :
    c.Records (us ++ ws) := by
  intro ip mem
  rcases List.mem_append.mp mem with mem | mem
  · exact h ip mem
  · exact h' ip mem

theorem records_slot (z : UInt64) (k : Nat) (data : Buffer) : c.Records [.slot z k data] := by
  intro ip mem
  cases List.mem_singleton.mp mem

theorem records_entering (notRoot : c.number.toNat ≠ 1) (z : UInt64) (k : Nat)
    (root : Option Inode) : c.Records (c.entering sb z k root) := by
  refine ((records_steps (List.prefix_refl _)).append (records_slot z k _)).append ?_
  intro ip mem
  cases root with
  | none => cases mem
  | some root => exact absurd (Update.inode.inj (List.mem_singleton.mp mem)).1 notRoot

theorem records_releases {back : List Update} (given : back ⊆ releases c.number.toNat c.zone) :
    c.Records back := by
  intro ip mem
  rcases mem_releases (given mem) with h | h | ⟨_, _, h⟩
  · exact .inr (Update.inode.inj h).2
  · cases h
  · cases h

theorem records_attempted {slot : Option (UInt64 × Nat)} {us : List Update}
    (h : Attempted sb s c slot us) : c.Records us := by
  cases h with
  | steps part => exact records_steps part
  | cleared _ =>
      exact ((records_steps (List.prefix_refl _)).append (records_slot _ _ _)).append
        (records_slot _ _ _)

theorem Fresh.taking (fresh : c.Fresh sb s) (hf : sb.Fits s.image.size)
    (told : c.record.zones = c.zone.toList) {slot : Option (UInt64 × Nat)} {us : List Update}
    (foot : Update.Footprint sb s c.number.toNat c.zone slot us) (records : c.Records us)
    (root : (Image.inode sb (Update.applyAll sb s.image us) 1).zones
      = (Image.inode sb s.image 1).zones) :
    Image.Taking sb s.image (Update.applyAll sb s.image us) c.number.toNat where
  isInode := fresh.isInode
  free := fresh.free
  least := fresh.least
  bits k hk ne := by
    have lt := hf.inodes_lt
    have le := hk.2
    exact Update.inodeUsed_of_local foot.valid hf foot.within (by omega) ne
  others k hk ne := by
    by_cases one : k = 1
    · rw [one]
      exact root
    · rw [Image.inode_congr (Update.record_of_local foot.valid hf foot.within hk ne fun _ => one)]
  zones := by
    rcases Update.inode_applyAll foot.valid hf fresh.isInode with same | mem
    · rw [same]
      exact .inl rfl
    · rcases records _ mem with own | cleared
      · rw [own]
        exact .inr ⟨c.zone, told, foot.zone⟩
      · rw [cleared]
        exact .inr ⟨none, rfl, fun _ hz => nomatch hz⟩
  kept _ hz used := foot.zoneUsed hf hz used

end Creation

namespace Image.Grown

variable {img₀ : Buffer} {cs : List Creation} {s : Scene} (orderly : Orderly img₀)
include orderly

theorem taking (h : Grown img₀ cs s) {name : Bytes} {plan : Creation → Prop} {steady : Prop}
    {r : Except Stop UInt64} {s' : Scene} {log : Log}
    (outcome : Outcome (header img₀) name plan steady s r s' log)
    (genuine : ∀ c, plan c → c.Genuine (header img₀))
    (root : (inode (header img₀) s'.image 1).zones = (inode (header img₀) s.image 1).zones) :
    s'.image = s.image ∨ ∃ n, Taking (header img₀) s.image s'.image n := by
  have fits := h.fits orderly
  have zones := h.zones_used orderly
  have isZone : ∀ z ∈ s.directory.zones, (header img₀).IsDataZone z := fun z hz => (zones z hz).1
  have told {c : Creation} (planned : c.Bare ∨ plan c) (fresh : c.Fresh (header img₀) s) :
      c.record.zones = c.zone.toList := by
    rcases planned with ⟨none, empty⟩ | planned
    · rw [empty, none]
      rfl
    · exact (genuine c planned).zones_record fits fun z hz => (fresh.zone z hz).1
  cases outcome with
  | refused _ => exact .inl rfl
  | @made c z k _ planned fresh found =>
      have records : c.Records (c.entering (header img₀) z k (some c.root)) :=
        Creation.records_entering (h.number_ne_one orderly fresh) z k _
      exact .inr ⟨_, fresh.taking fits (told (.inr planned) fresh)
        (fresh.footprint_entering fits.inodes_pos found.toFreeSlot isZone (some c.root)) records
        root⟩
  | @left c z k _ _ planned fresh found _ _ =>
      have foot := fresh.footprint_entering fits.inodes_pos found isZone none
      have records : c.Records (c.entering (header img₀) z k none) :=
        Creation.records_entering (h.number_ne_one orderly fresh) z k none
      rw [Creation.entering, Option.map_none, Option.toList_none, List.append_nil] at foot records
      exact .inr ⟨_, fresh.taking fits (told (.inr planned) fresh) foot records root⟩
  | undone planned fresh attempted _ given =>
      exact .inr ⟨_, fresh.taking fits (told planned fresh)
        (attempted.footprint fresh given.subset zones)
        ((Creation.records_attempted attempted).append (Creation.records_releases given.subset))
        root⟩
  | crashed planned fresh taking _ _ =>
      have part := Creation.allocations_prefix taking
      exact .inr ⟨_, fresh.taking fits (told (.inr planned) fresh) (fresh.footprint_steps part)
        (Creation.records_steps part) root⟩

theorem tidy_outcome (h : Grown img₀ cs s) {name : Bytes} {plan : Creation → Prop} {steady : Prop}
    (working : steady) {r : Except Stop UInt64} {s' : Scene} {log : Log}
    (outcome : Outcome (header img₀) name plan steady s r s' log)
    (genuine : ∀ c, plan c → c.Genuine (header img₀) ∧ c.root.zones = s.directory.zones ∧
      c.root.mode = s.directory.mode)
    (small : (header img₀).zoneSize.toNat ≤ Word.largestBuffer.toNat) :
    Tidy (header img₀) s.image s'.image := by
  have fits := h.fits orderly
  have lt := fits.inodes_lt
  have zones := h.zones_used orderly
  -- Only the inode of the creation itself can be one that was taken.
  have taken {c : Creation} {slot : Option (UInt64 × Nat)} {us : List Update}
      (foot : Update.Footprint (header img₀) s c.number.toNat c.zone slot us) {n : Nat}
      (hn : n ∈ usedInodes (header img₀) (Update.applyAll (header img₀) s.image us))
      (free : n ∉ usedInodes (header img₀) s.image) : n = c.number.toNat := by
    obtain ⟨isInode, used⟩ := mem_usedInodes.mp hn
    have le := isInode.2
    by_contra ne
    rw [Update.inodeUsed_of_local foot.valid fits foot.within (by omega) ne] at used
    exact free (mem_usedInodes.mpr ⟨isInode, used⟩)
  cases outcome with
  | refused _ => exact fun n hn free => absurd hn free
  | @made c z k _ planned fresh found =>
      have found := found.toFreeSlot
      have foot := fresh.footprint_entering fits.inodes_pos found (fun z hz => (zones z hz).1)
        (some c.root)
      have grown := h.enter orderly fresh found (some c.root) (genuine c planned).1 (by
        rintro ip ⟨⟩
        exact (genuine c planned).2)
      have mem : c ∈ cs ++ [c] := List.mem_append_right cs List.mem_cons_self
      intro n hn free z' hz
      have told := grown.zones_created orderly mem
      change z' ∈ (inode _ (Update.applyAll _ _ (c.entering _ z k (some c.root))) n).zones at hz
      rw [taken foot hn free, told] at hz
      exact ((grown.standing.stands c mem).zone z' (Option.mem_toList.mp hz)).2.1
  | left _ _ _ _ failing => exact absurd working failing
  | @undone c _ _ _ _ _ _ _ fresh attempted _ given =>
      cases given with
      | part _ failing _ => exact absurd working failing
      | all =>
          have given := List.Subset.refl (releases c.number.toNat c.zone)
          intro n hn free
          rw [taken (attempted.footprint fresh given zones) hn free] at hn
          have used := (mem_usedInodes.mp hn).2
          rw [(attempted.free_again fresh given zones fits rfl).1] at used
          cases used
  | crashed _ _ _ _ large => omega

end Image.Grown

theorem Format.settled_fresh {sb : Superblock} {img : Buffer} (prepared : Prepared sb img)
    (accepted : FormatOptions.Accepted sb) (modified : UInt32) :
    Image.Settled sb (freshImage sb modified img) := by
  have fits := prepared.fits
  have valid := valid_fresh prepared accepted modified
  have orderly := (consistent_fresh prepared accepted modified).toOrderly
  have one := orderly.one_mem
  have owned {z : UInt64} := orderly.zone_used one (z := z)
  have once := orderly.zones_nodup one
  rw [header_fresh prepared accepted modified] at one owned once
  have cleared {n : Nat} (hn : sb.IsInode n) (notRoot : n ≠ 1) :
      (Image.inode sb (freshImage sb modified img) n).zones = [] := by
    have record : Image.record sb (freshImage sb modified img) n = Image.record sb img n := by
      rw [freshImage, Update.record_applyAll valid fits hn]
      exact if_neg notRoot
    rw [Image.inode_of_record (record.trans (prepared.cleared n hn))]
    rfl
  have root {n : Nat} (hn : sb.IsInode n) {z : UInt64}
      (hz : z ∈ (Image.inode sb (freshImage sb modified img) n).zones) : n = 1 := by
    by_contra notRoot
    rw [cleared hn notRoot] at hz
    cases hz
  refine ⟨?_, ?_, ?_, ?_, ?_⟩
  · intro n hn z hz
    rw [root hn hz] at hz
    exact (owned hz).1
  · intro n hn
    by_cases e : n = 1
    · rw [e]
      exact once
    · rw [cleared hn e]
      exact List.nodup_nil
  · intro n k hn hk z hz hz'
    rw [root hn hz, root hk hz']
  · intro n hn free some
    by_cases e : n = 1
    · rw [e, (Image.mem_usedInodes.mp one).2] at free
      cases free
    · exact absurd (cleared hn e) some
  · intro n hn z hz
    rw [root (Image.mem_usedInodes.mp hn).1 hz] at hz
    exact (owned hz).2

namespace Volume

variable {δ : Type} [Disk δ] [ImageDisk δ]

def imageAfter (v : Volume) (commands : List (Int64 × Command)) (m : Mount δ) (k : Nat) : Buffer :=
  ImageDisk.image (v.runAll (commands.take k) m).2.disk

section Runs

variable {img₀ : Buffer} (orderly : Image.Orderly img₀) {v : Volume}
  (superblock : v.superblock = Image.header img₀) (width : v.nameWidth = v.superblock.width)
  (small : v.superblock.zoneSize.toNat ≤ Word.largestBuffer.toNat) {m : Mount δ} {steady : Prop}
include orderly superblock width small

theorem settled_command {s : Scene} (hm : m.Shows steady s) {cs : List Creation}
    (h : Image.Grown img₀ cs s) (c : Command) :
    ∃ s' cs', (Mount.exec (c.run v) m).2.Shows steady s' ∧ Image.Grown img₀ cs' s' ∧
      (Image.Settled (Image.header img₀) s.image →
        Image.Tidy (Image.header img₀) s.image s'.image →
        Image.Settled (Image.header img₀) s'.image) ∧
      (steady → Image.Tidy (Image.header img₀) s.image s'.image) := by
  cases change : c.mutates with
  | false =>
      obtain ⟨output, shows⟩ := (Command.keeps_run v change).stillShows hm
      exact ⟨_, cs, shows, h.still output, fun settled _ => settled,
        fun _ n hn free => absurd hn free⟩
  | true =>
      obtain ⟨name, r, s', -, shows, outcome⟩ :=
        exec_create hm (h.ready orderly superblock width) change
      have genuine (new : Creation) (planned : v.Plan s.directory c new) := planned.genuine
      have few := small
      rw [superblock] at outcome genuine few
      obtain ⟨added, grown⟩ := h.outcome orderly outcome genuine
      refine ⟨s', _, shows, grown, ?_, fun working =>
        h.tidy_outcome orderly working outcome genuine few⟩
      intro settled tidy
      rcases h.taking orderly outcome (fun c planned => (genuine c planned).1) (by
        rw [← grown.directory, ← h.directory, grown.root_zones, h.root_zones])
        with same | ⟨n, taking⟩
      · rw [same]
        exact settled
      · exact settled.take taking tidy

variable {output : Output} (hm : m.Shows steady (opened img₀ output))
  (commands : List (Int64 × Command))
include hm

theorem settled_runAll (settled : Image.Settled (Image.header img₀) img₀)
    (tidy : ∀ k, Image.Tidy (Image.header img₀) (v.imageAfter commands m k)
      (v.imageAfter commands m (k + 1))) (k : Nat) :
    ∃ s' cs, (v.runAll (commands.take k) m).2.Shows steady s' ∧ Image.Grown img₀ cs s' ∧
      Image.Settled (Image.header img₀) s'.image := by
  -- what the image has grown by goes along, as the next create is told by it
  induction k with
  | zero => exact ⟨_, [], hm, .refl orderly rfl rfl, settled⟩
  | succ k ih =>
      obtain ⟨s', cs, shows, grown, settled⟩ := ih
      have step := tidy k
      rw [imageAfter, imageAfter, shows.image, List.take_add_one] at step
      rw [List.take_add_one]
      cases next : commands[k]? with
      | none =>
          rw [Option.toList_none, List.append_nil]
          exact ⟨s', cs, shows, grown, settled⟩
      | some command =>
          rw [next, Option.toList_some, runAll_append] at step
          rw [Option.toList_some, runAll_append]
          obtain ⟨s'', cs', shows', grown', settles, -⟩ := settled_command orderly
            (v := { v with clock := command.1 }) superblock width small shows grown command.2
          refine ⟨s'', cs', shows', grown', settles settled ?_⟩
          rw [← shows'.image]
          exact step

theorem tidy_runAll (working : steady) (k : Nat) :
    Image.Tidy (Image.header img₀) (v.imageAfter commands m k)
      (v.imageAfter commands m (k + 1)) := by
  have start := Image.Grown.refl orderly (s := opened img₀ output) rfl rfl
  rw [imageAfter, imageAfter]
  obtain ⟨s, cs, shows, grown⟩ :=
    start.grown_runAll orderly hm superblock width (commands.take k)
  rw [List.take_add_one, shows.image]
  cases commands[k]? with
  | none =>
      rw [Option.toList_none, List.append_nil, shows.image]
      exact fun n hn free => absurd hn free
  | some command =>
      obtain ⟨s', -, shows', -, -, tidy⟩ := settled_command orderly
        (v := { v with clock := command.1 }) superblock width small shows grown command.2
      have tidy := tidy working
      rw [← shows'.image] at tidy
      rw [Option.toList_some, runAll_append]
      exact tidy

end Runs

/-- On a volume as it was formatted, whichever calls of the disk fail from the opening on, and also
while a failed create is taken back: every zone of a used inode is a data zone in use and no two
used inodes have a zone in common after each of the commands, whether entries name them or not,
exactly if no command leaves the inode that it has taken with a zone that is free. -/
theorem owned_runAll {m₀ : Mount δ} (sound : ImageDisk.Sound m₀.disk)
    (reliable : ImageDisk.Reliable m₀.disk) {options : FormatOptions} {sb : Superblock}
    (layout : options.layout = .ok sb)
    (room : sb.zones.toNat * 1024 ≤ (ImageDisk.image m₀.disk).size) (clock : Int64)
    (color : Bool) :
    ∃ m₁ v m, Mount.exec (Format.run options) m₀ = (.ok sb, m₁) ∧
      Mount.exec (openDisk clock color) m₁ = (.ok v, m) ∧
      ∀ (δ' : Type) [Disk δ'] [ImageDisk δ'] (d : δ'), ImageDisk.Sound d →
        ImageDisk.image d = ImageDisk.image m₁.disk →
        ∀ commands : List (Int64 × Command),
          (∀ k, Image.Owned sb (v.imageAfter commands (m.onto d) k)
            (Image.usedInodes sb (v.imageAfter commands (m.onto d) k))) ↔
          ∀ k, Image.Tidy sb (v.imageAfter commands (m.onto d) k)
            (v.imageAfter commands (m.onto d) (k + 1)) := by
  have accepted := FormatOptions.accepted_of_layout layout
  obtain ⟨m₁, img, formatted, prepared, h₁⟩ := Format.exec_run sound reliable layout room
  have header := Format.header_fresh prepared accepted options.modified
  have orderly := (Format.consistent_fresh prepared accepted options.modified).toOrderly
  have settled := Format.settled_fresh prepared accepted options.modified
  have image : ImageDisk.image m₁.disk = Format.freshImage sb options.modified img := h₁.image
  rw [← image] at header orderly settled
  obtain ⟨v, m, opening, isOpen, -⟩ :=
    exec_openDisk h₁.sound (h₁.reliable trivial) orderly.fits clock color
  refine ⟨m₁, v, m, formatted, opening, ?_⟩
  intro δ' _ _ d hd image commands
  constructor
  · intro owned k n hn _ z hz
    exact ((owned (k + 1)).used n hn z hz).2
  · intro tidy k
    have small : v.superblock.zoneSize.toNat ≤ Word.largestBuffer.toNat := by
      rw [isOpen.superblock, header]
      exact accepted.zoneSize_le
    rw [← header] at tidy settled ⊢
    obtain ⟨s, -, shows, -, settled⟩ := settled_runAll orderly isOpen.superblock isOpen.width small
      (isOpen.shows_onto hd image) commands settled tidy k
    rw [imageAfter, shows.image]
    exact settled.owned

theorem owned_runAll_small :
    ∃ sb m₁ v m, Mount.exec (Format.run { blocks := 8, inodes := 32 })
        (⟨⟨Buffer.zeros 8192⟩, {}, {}, #[]⟩ : Mount MemoryDisk) = (.ok sb, m₁) ∧
      Mount.exec (openDisk 0 false) m₁ = (.ok v, m) ∧
      ∀ k, Image.Owned sb
        (v.imageAfter [(0, .mkdir [0x61]), (1, .touch [0x62])] (m.onto m₁.disk) k)
        (Image.usedInodes sb
          (v.imageAfter [(0, .mkdir [0x61]), (1, .touch [0x62])] (m.onto m₁.disk) k)) := by
  obtain ⟨sb, b, layout, blank, size⟩ := Format.room_small
  have sound := Format.sound_of_size size
  obtain ⟨m₁, v, m, formatted, opening, runs⟩ :=
    @owned_runAll MemoryDisk _ _ ⟨⟨b⟩, {}, {}, #[]⟩ sound trivial _ _ layout
      (Nat.le_of_eq size.symm) 0 false
  obtain ⟨m₁', again, inOrder, header⟩ := Format.inOrder_run
    (m := (⟨⟨b⟩, {}, {}, #[]⟩ : Mount MemoryDisk)) sound trivial layout (Nat.le_of_eq size.symm)
  obtain rfl : m₁' = m₁ := (Prod.mk.inj (again.symm.trans formatted)).2
  have orderly := inOrder.consistent.toOrderly
  obtain ⟨v', m', again, isOpen, -⟩ := exec_openDisk inOrder.sound trivial orderly.fits 0 false
  obtain ⟨same, rfl⟩ := Prod.mk.inj (again.symm.trans opening)
  obtain rfl : v' = v := Except.ok.inj same
  have small : v'.superblock.zoneSize.toNat ≤ Word.largestBuffer.toNat := by
    rw [isOpen.superblock, header]
    exact (FormatOptions.accepted_of_layout layout).zoneSize_le
  rw [blank] at formatted
  refine ⟨sb, _, _, _, formatted, opening, (runs MemoryDisk m₁'.disk inOrder.sound rfl _).mpr ?_⟩
  rw [← header]
  exact tidy_runAll orderly isOpen.superblock isOpen.width small
    (isOpen.shows_onto inOrder.sound rfl) _ trivial

end Volume

end MinixVolume

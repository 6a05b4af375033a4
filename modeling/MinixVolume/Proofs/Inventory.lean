import MinixVolume.Proofs.Bystanders
import MinixVolume.Proofs.Resilience
import MinixVolume.Proofs.Stock

namespace MinixVolume

structure Volume.Inventory {δ : Type} [Disk δ] [ImageDisk δ] (v : Volume) (sb : Superblock)
    (items : List Item) (m : Mount δ) : Prop where
  listing : ∃ m', Mount.exec (v.ls false) m = (.ok (), m') ∧
    m'.output.written = m.output.written ++ Buffer.ofBytes
      ((Format.dot :: Format.dotDot :: items.map (·.name)).flatMap shortLine)
  numbers : items.map (·.number.toNat) = List.range' 2 items.length
  zones : (Item.directories items).map
      (fun i => (Image.inode sb (ImageDisk.image m.disk) i.number.toNat).zones.map (·.toNat))
    = (List.range' 1 (Item.directories items).length).map fun j => [sb.firstDataZone.toNat + j]
  root : m.directory = Image.inode sb (ImageDisk.image m.disk) 1
  size : m.directory.size.toNat = (2 + items.length) * (2 + sb.width.toNat)
  links : m.directory.links.toNat = 2 + (Item.directories items).length
  usage : ∃ r m', Mount.exec v.report m = (.ok r, m') ∧
    items.length + 1 + r.freeInodes.toNat = sb.inodes.toNat ∧
    (Item.directories items).length + 1 + r.freeZones.toNat = sb.dataZones.toNat
  content : ∀ i ∈ items, i.kind = .file →
    ∃ m', Mount.exec (v.cat i.name) m = (.ok (), m') ∧ m'.output = m.output
  next : ∀ r : Request,
    (∃ number m', Mount.exec (v.create r) m = (.ok number, m')) ↔ r.Admitted sb items

theorem Bytes.pieces_of_notMem {separator : UInt8} {b : Bytes} (h : separator ∉ b) :
    b.pieces separator = [b] := by
  induction b with
  | nil => rfl
  | cons c b ih =>
      rw [List.mem_cons, not_or] at h
      rw [pieces, if_neg (Ne.symm h.1), ih h.2]

theorem Mount.exec_put {δ : Type} {m : Mount δ} (room : m.output.room = none) (data : Buffer) :
    exec (put data) m
      = (.ok (), { m with output := ⟨m.output.written ++ data, none⟩ }) := by
  rw [put, exec_bind, exec_get]
  dsimp only
  rw [room]
  rfl

theorem Volume.exec_listEntries {δ : Type} [Disk δ] (v : Volume) (es : List Entry) {m : Mount δ}
    (room : m.output.room = none) :
    Mount.exec (v.listEntries false es) m
      = (.ok (), { m with
          output := ⟨m.output.written ++ Buffer.ofBytes ((es.map (·.name)).flatMap shortLine),
            none⟩ }) := by
  induction es generalizing m with
  | nil =>
      obtain ⟨disk, directory, ⟨written, room'⟩, log⟩ := m
      obtain rfl : room' = none := room
      exact congrArg (fun b : Buffer => (_, (⟨disk, directory, ⟨b, none⟩, log⟩ : Mount δ)))
        ByteArray.append_empty.symm
  | cons e es ih =>
      rw [listEntries, if_neg Bool.false_ne_true, Mount.exec_bind, Mount.exec_put room]
      dsimp only
      rw [ih rfl, List.map_cons, List.flatMap_cons, Buffer.ofBytes_append, ByteArray.append_assoc]

namespace Image.Stocked

variable {δ : Type} [Disk δ] [ImageDisk δ] {m : Mount δ} {img₀ : Buffer} {cs : List Creation}
  {s : Scene} {v : Volume} (h : Stocked img₀ cs s) (orderly : Orderly img₀)
  (accepted : FormatOptions.Accepted (header img₀)) (hm : m.Shows True s)
  (superblock : v.superblock = header img₀) (width : v.nameWidth = v.superblock.width)
include h orderly accepted hm superblock width

theorem exec_create (r : Request) :
    (∃ c m' s', Mount.exec (v.create r) m = (.ok c.number, m') ∧
        c.item = ⟨r.kind, r.name, c.number⟩ ∧ m'.Shows True s' ∧ s'.output = s.output ∧
        Stocked img₀ (cs ++ [c]) s' ∧ r.Admitted (header img₀) (cs.map Creation.item)) ∨
      ∃ t m' s', Mount.exec (v.create r) m = (.error t, m') ∧ m'.Shows True s' ∧
        s'.output = s.output ∧ Stocked img₀ cs s' ∧
        ¬ r.Admitted (header img₀) (cs.map Creation.item) := by
  have ready := h.ready orderly superblock width
  rcases (Volume.ends_create hm ready r).exec_eq with
    ⟨i, m', run, s', h', outcome⟩ | ⟨t, m', run, s', h', outcome⟩
  · rw [superblock] at outcome
    have output := outcome.output_eq
    obtain ⟨c, same, item, stocked, admitted⟩ | ⟨t, same, -⟩ :=
      h.outcome orderly accepted superblock outcome
    · cases same
      exact .inl ⟨c, m', s', run, item, h', output, stocked, admitted⟩
    · cases same
  · rw [superblock] at outcome
    have output := outcome.output_eq
    obtain ⟨c, same, -⟩ | ⟨t', -, stocked, denied⟩ :=
      h.outcome orderly accepted superblock outcome
    · cases same
    · exact .inr ⟨t, m', s', run, h', output, stocked, denied⟩

theorem stocked_createAll (requests : List Request) :
    ∃ cs' s', (v.createAll requests m).1 = cs'.map Creation.item ∧
      (v.createAll requests m).2.Shows True s' ∧ s'.output = s.output ∧
      Stocked img₀ (cs ++ cs') s' := by
  induction requests generalizing m cs s with
  | nil => exact ⟨[], s, rfl, hm, rfl, by rwa [List.append_nil]⟩
  | cons r rest ih =>
      rcases h.exec_create orderly accepted hm superblock width r with
        ⟨c, m₁, s₁, run, item, h₁, output₁, stocked, -⟩ | ⟨t, m₁, s₁, run, h₁, output₁, stocked, -⟩
      · obtain ⟨cs', s', items, h', output, stocked'⟩ := ih stocked h₁
        refine ⟨c :: cs', s', ?_, ?_, output.trans output₁, ?_⟩
        · simp only [Volume.createAll, run, items, List.map_cons, item]
        · simpa only [Volume.createAll, run] using h'
        · rwa [List.append_assoc] at stocked'
      · obtain ⟨cs', s', items, h', output, stocked'⟩ := ih stocked h₁
        refine ⟨cs', s', ?_, ?_, output.trans output₁, stocked'⟩
        · simpa only [Volume.createAll, run] using items
        · simpa only [Volume.createAll, run] using h'

theorem next_iff (r : Request) :
    (∃ number m', Mount.exec (v.create r) m = (.ok number, m')) ↔
      r.Admitted (header img₀) (cs.map Creation.item) := by
  rcases h.exec_create orderly accepted hm superblock width r with
    ⟨c, m₁, s₁, run, -, -, -, -, admitted⟩ | ⟨t, m₁, s₁, run, -, -, -, denied⟩
  · exact ⟨fun _ => admitted, fun _ => ⟨_, _, run⟩⟩
  · refine ⟨?_, fun admitted => absurd admitted denied⟩
    rintro ⟨number, m', run'⟩
    rw [run] at run'
    cases run'

omit accepted hm superblock width in
theorem zones_directories :
    (Item.directories (cs.map Creation.item)).map
        (fun i => (inode (header img₀) s.image i.number.toNat).zones.map (·.toNat))
      = (List.range' 1 (Creation.taken cs).length).map
        fun j => [(header img₀).firstDataZone.toNat + j] := by
  have created : (cs.filter (·.zone ≠ none)).map
      (fun c => (inode (header img₀) s.image c.number.toNat).zones)
      = (Creation.taken cs).map fun z => [z] := by
    rw [← Creation.map_zone_filter]
    apply List.map_congr_left
    intro c hc
    exact h.zones_created orderly (List.mem_filter.mp hc).1
  calc (Item.directories (cs.map Creation.item)).map
        (fun i => (inode (header img₀) s.image i.number.toNat).zones.map (·.toNat))
      = ((cs.filter (·.zone ≠ none)).map
          (fun c => (inode (header img₀) s.image c.number.toNat).zones)).map
            (List.map (·.toNat)) := by
        rw [Creation.directories_item, List.map_map, List.map_map]
        rfl
    _ = ((Creation.taken cs).map (·.toNat)).map fun n => [n] := by
        rw [created, List.map_map, List.map_map]
        rfl
    _ = (List.range' 1 (Creation.taken cs).length).map
          fun j => [(header img₀).firstDataZone.toNat + j] := by
        rw [h.taken, ← List.map_add_range', List.map_map]
        rfl

omit accepted hm superblock width in
theorem zoneEnd_le : ∀ z ∈ s.directory.zones,
    (header img₀).zonePlace z + (header img₀).zoneSize.toNat ≤ s.image.size :=
  fun z hz => (h.fits orderly).zoneEnd_le (h.zones_used orderly z hz).1

omit h orderly hm superblock width in
theorem not_mishap {t : Stop} (mishap : Mishap True (header img₀).zoneSize.toNat t) : False := by
  exact (mishap.of_small accepted.zoneSize_le).1 trivial

theorem exec_ls (room : m.output.room = none) :
    ∃ m', Mount.exec (v.ls false) m = (.ok (), m') ∧
      m'.output.written = m.output.written ++ Buffer.ofBytes
        ((Format.dot :: Format.dotDot :: (cs.map Creation.item).map (·.name)).flatMap
          Volume.shortLine) := by
  have ends : Mount.Ends (v.ls false) m
      (fun _ m' => m'.output.written = m.output.written ++ Buffer.ofBytes
        ((Format.dot :: Format.dotDot :: (cs.map Creation.item).map (·.name)).flatMap
          Volume.shortLine)) (fun _ _ => False) := by
    apply Mount.ends_get
    rw [hm.directory, width, superblock]
    refine Mount.Ends.bind (Directory.ends_list hm (h.zoneEnd_le orderly)) ?_
      fun _ _ stop => not_mishap accepted stop.1
    rintro _ m₁ ⟨rfl, h₁⟩
    have output : m₁.output = m.output := h₁.output.trans hm.output.symm
    refine Mount.Ends.of_exec (v.exec_listEntries _ (by rw [output]; exact room)) ?_
    rw [h.names_eq, output]
  obtain ⟨_, m', run, written⟩ := ends.exec_ok
  exact ⟨m', run, written⟩

theorem exec_cat {c : Creation} (hc : c ∈ cs) (file : c.zone = none) (room : m.output.room = none) :
    ∃ m', Mount.exec (v.cat c.name) m = (.ok (), m') ∧ m'.output = m.output := by
  have fits := h.fits orderly
  have stands := h.standing.stands c hc
  have mem : c.entry ∈ Image.entries (header img₀) s.image s.directory := by
    rw [h.entries_eq]
    exact List.mem_append_right _ (List.mem_map.mpr ⟨c, hc, rfl⟩)
  have empty : (inode (header img₀) s.image c.number.toNat).zones = [] := by
    rw [h.zones_created orderly hc, file]
    rfl
  have found : (Image.entries (header img₀) s.image s.directory).find? (·.name == c.name)
      = some c.entry := find?_of_mem h.names_once mem
  have lookup : Mount.Ends (v.lookup s.directory c.name) m
      (fun number m' => number = c.number ∧ m'.Shows True s) (fun _ _ => False) := by
    rw [Volume.lookup, width, superblock]
    refine Mount.Ends.bind (Directory.ends_lookup hm c.name (h.zoneEnd_le orderly)) ?_
      fun _ _ stop => not_mishap accepted stop.1
    rintro _ m₁ ⟨rfl, h₁⟩
    rw [found]
    exact Mount.Ends.pure ⟨rfl, h₁⟩
  have resolve : Mount.Ends (v.resolve c.name) m
      (fun ip m' => ip.zones = [] ∧ m'.Shows True s) (fun _ _ => False) := by
    rw [Volume.resolve, Bytes.pieces_of_notMem (h.plain c hc), if_neg (by simp)]
    apply Mount.ends_get
    rw [hm.directory, Volume.follow]
    refine Mount.Ends.next lookup ?_
    rintro _ m₁ ⟨rfl, h₁⟩
    rw [Volume.loadInode, superblock]
    refine Mount.Ends.bind (Inode.ends_load h₁ fits stands.isInode) ?_
      fun _ _ stop => stop.1.not_steady trivial
    rintro _ m₂ ⟨rfl, h₂⟩
    rw [if_neg (by simp)]
    exact Mount.Ends.pure ⟨empty, h₂⟩
  have ends : Mount.Ends (v.cat c.name) m (fun _ m' => m'.output = m.output)
      (fun _ _ => False) := by
    refine Mount.Ends.next resolve ?_
    rintro ip m₁ ⟨zoneless, h₁⟩
    have output : m₁.output = m.output := h₁.output.trans hm.output.symm
    rw [Content.read, zoneless, Content.gather]
    refine Mount.Ends.of_exec (Mount.exec_put (by rw [output]; exact room) .empty) ?_
    change (⟨m₁.output.written ++ .empty, none⟩ : Output) = m.output
    rw [output, ByteArray.append_empty, ← room]
  obtain ⟨_, m', run, same⟩ := ends.exec_ok
  exact ⟨m', run, same⟩

omit accepted hm superblock width in
theorem length_lt : cs.length + 1 ≤ (header img₀).inodes.toNat := by
  have pos := (h.fits orderly).inodes_pos
  by_contra more
  have last : cs.length + 1 ∈ List.range' 2 cs.length := List.mem_range'_1.mpr (by omega)
  rw [← h.numbers] at last
  obtain ⟨c, hc, number⟩ := List.mem_map.mp last
  have le := (h.standing.stands c hc).isInode.2
  omega

omit orderly hm superblock width in
theorem length_taken_lt : (Creation.taken cs).length + 1 ≤ (header img₀).dataZones.toNat := by
  have first_lt := accepted.first_lt
  rw [Superblock.toNat_dataZones]
  by_contra more
  have last : (header img₀).firstDataZone.toNat + (Creation.taken cs).length
      ∈ List.range' ((header img₀).firstDataZone.toNat + 1) (Creation.taken cs).length :=
    List.mem_range'_1.mpr (by omega)
  rw [← h.taken] at last
  obtain ⟨z, mem, number⟩ := List.mem_map.mp last
  obtain ⟨c, hc, hz⟩ := List.mem_flatMap.mp mem
  have lt := ((h.standing.stands c hc).zone z (by simpa using hz)).1.2
  omega

omit accepted hm superblock width in
theorem freeCount_inodes {bm : Bitmap} (max : bm.max = (header img₀).inodes.toUInt64)
    (covers : bm.Covers s.image (header img₀).inodeMapPlace
      (1024 * (header img₀).inodeMapBlocks.toNat)) :
    ∃ free, bm.freeCount = .ok free ∧
      cs.length + 1 + free.toNat = (header img₀).inodes.toNat := by
  have le := h.length_lt orderly
  have limit : bm.max.toNat = (header img₀).inodes.toNat := by
    rw [max]
    exact UInt16.toNat_toUInt64 _
  have inside := covers.max_lt
  have filled : ∀ k, 1 ≤ k → k ≤ bm.max.toNat → (bm.data.bit k = true ↔ k ≤ cs.length + 1) := by
    intro k pos upper
    rw [covers.data, Buffer.bit_window (by omega)]
    exact h.inodes k ⟨pos, by omega⟩
  refine ⟨_, Bitmap.freeCount_filled filled ?_ (by omega), ?_⟩
  · rw [covers.size]
    exact inside
  · rw [Word.toNat_ofNat_of_le (Nat.sub_le _ _)]
    omega

omit orderly hm superblock width in
theorem freeCount_zones {bm : Bitmap} (max : bm.max = (header img₀).dataZones)
    (covers : bm.Covers s.image (header img₀).zoneMapPlace
      (1024 * (header img₀).zoneMapBlocks.toNat)) :
    ∃ free, bm.freeCount = .ok free ∧
      (Creation.taken cs).length + 1 + free.toNat = (header img₀).dataZones.toNat := by
  have le := h.length_taken_lt accepted
  have inside := covers.max_lt
  rw [← max] at le ⊢
  have filled : ∀ k, 1 ≤ k → k ≤ bm.max.toNat →
      (bm.data.bit k = true ↔ k ≤ (Creation.taken cs).length + 1) := by
    intro k pos upper
    obtain ⟨isZone, word⟩ := Superblock.isDataZone_of_lt (n := k - 1) (by rw [← max]; omega)
    have used := h.zones _ isZone
    have number : (header img₀).zoneNumber (UInt64.ofNat
        ((header img₀).firstDataZone.toNat + (k - 1))) = k := by
      rw [Superblock.zoneNumber, word]
      omega
    rw [zoneUsed, number, word] at used
    rw [covers.data, Buffer.bit_window (by omega), used]
    omega
  refine ⟨_, Bitmap.freeCount_filled filled ?_ le, ?_⟩
  · rw [covers.size]
    exact inside
  · rw [Word.toNat_ofNat_of_le (Nat.sub_le _ _)]
    omega

omit width in
theorem exec_report :
    ∃ r m', Mount.exec v.report m = (.ok r, m') ∧
      cs.length + 1 + r.freeInodes.toNat = (header img₀).inodes.toNat ∧
      (Creation.taken cs).length + 1 + r.freeZones.toNat = (header img₀).dataZones.toNat := by
  have fits := h.fits orderly
  have stop {t : Stop} (mishap : Mishap True 0 t) : False :=
    mishap.not_steady trivial
  refine Mount.Ends.exec_ok ?_
  rw [Volume.report, superblock]
  refine Mount.Ends.bind (Superblock.ends_loadInodeMap hm fits) ?_ fun _ _ h => stop h.1
  rintro inodeMap m₁ ⟨max₁, covers₁, h₁⟩
  refine Mount.Ends.bind (Superblock.ends_loadZoneMap h₁ fits) ?_ fun _ _ h => stop h.1
  rintro zoneMap m₂ ⟨max₂, covers₂, h₂⟩
  obtain ⟨freeInodes, run₁, left₁⟩ := h.freeCount_inodes orderly max₁ covers₁
  obtain ⟨freeZones, run₂, left₂⟩ := h.freeCount_zones accepted max₂ covers₂
  rw [run₁]
  apply Mount.Ends.ok_bind
  rw [run₂]
  apply Mount.Ends.ok_bind
  exact Mount.Ends.pure ⟨left₁, left₂⟩

theorem inventory (room : m.output.room = none) :
    v.Inventory (header img₀) (cs.map Creation.item) m := by
  have directories := Creation.length_directories cs
  refine ⟨h.exec_ls orderly accepted hm superblock width room, ?_, ?_, ?_, ?_, ?_, ?_, ?_,
    h.next_iff orderly accepted hm superblock width⟩
  · rw [List.map_map, List.length_map]
    exact h.numbers
  · rw [hm.image, directories]
    exact h.zones_directories orderly
  · rw [hm.directory, hm.image]
    exact h.directory
  · rw [hm.directory, List.length_map]
    exact h.size
  · rw [hm.directory, directories]
    exact h.links
  · rw [directories, List.length_map]
    exact h.exec_report orderly accepted hm superblock
  · intro i hi kind
    obtain ⟨c, hc, rfl⟩ := List.mem_map.mp hi
    refine h.exec_cat orderly accepted hm superblock width hc ?_ room
    by_contra some
    rw [Creation.item, if_neg some] at kind
    cases kind

end Image.Stocked

theorem Format.stocked_fresh {sb : Superblock} {img : Buffer} (prepared : Prepared sb img)
    (accepted : FormatOptions.Accepted sb) (modified : UInt32) (output : Output) :
    Image.Stocked (freshImage sb modified img) []
      (Volume.opened (freshImage sb modified img) output) := by
  have header := header_fresh prepared accepted modified
  have fits := fits_fresh prepared accepted modified
  have root := inode_fresh prepared accepted modified
  have valid := valid_fresh prepared accepted modified
  have orderly := (consistent_fresh prepared accepted modified).toOrderly
  have grown := Image.Grown.refl orderly (s := Volume.opened _ output) rfl rfl
  refine ⟨grown, ?_, ?_, ?_, ?_, fun _ hc => (nomatch hc), rfl, rfl, ?_, ?_⟩ <;>
    rw [Volume.opened, header]
  · rw [root]
    exact zones_rootInode accepted modified
  · intro n hn
    have used : n ∈ Image.usedInodes sb (freshImage sb modified img) ↔ _ := Image.mem_usedInodes
    rw [usedInodes_fresh prepared accepted, List.mem_singleton] at used
    have pos := hn.1
    constructor
    · intro inUse
      exact Nat.le_of_eq (used.mpr ⟨hn, inUse⟩)
    · intro le
      exact (used.mp (Nat.le_antisymm le pos)).2
  · intro z hz
    have lt := prepared.fits.zoneNumber_lt hz
    have dataZones := Superblock.toNat_dataZones sb
    obtain ⟨lower, upper⟩ := hz
    rw [Image.zoneUsed, freshImage, Update.zoneMapBit_applyAll valid prepared.fits lt]
    change img.bit (8 * sb.zoneMapPlace + sb.zoneNumber z) = true ↔ z.toNat ≤ _ + 0
    rw [prepared.zones _ lt, Superblock.zoneNumber]
    omega
  · rw [zone_fresh prepared accepted modified]
    exact Image.packed_newZone prepared.fits.zoneSize_ge (by decide) (by decide)
  · rw [root]
    change (2 * Entry.slotSize sb.width).toUInt32.toNat = 2 * (2 + sb.width.toNat)
    rcases sb.width_cases with w | w
    · rw [w]
      rfl
    · rw [w]
      rfl
  · rw [root]
    rfl

theorem Format.exec_run_stocked {δ : Type} [Disk δ] [ImageDisk δ] {m : Mount δ}
    (sound : ImageDisk.Sound m.disk) (reliable : ImageDisk.Reliable m.disk) {o : FormatOptions}
    {sb : Superblock} (layout : o.layout = .ok sb)
    (room : sb.zones.toNat * 1024 ≤ (ImageDisk.image m.disk).size) :
    ∃ m', Mount.exec (run o) m = (.ok sb, m') ∧ m'.InOrder ∧
      Image.header (ImageDisk.image m'.disk) = sb ∧
      ∀ output, Image.Stocked (ImageDisk.image m'.disk) []
        (Volume.opened (ImageDisk.image m'.disk) output) := by
  have accepted := FormatOptions.accepted_of_layout layout
  obtain ⟨m', img, run, prepared, h'⟩ := exec_run sound reliable layout room
  have image : ImageDisk.image m'.disk = freshImage sb o.modified img := h'.image
  refine ⟨m', run, ⟨h'.sound, h'.reliable trivial, ?_⟩, ?_, ?_⟩
  · rw [image]
    exact consistent_fresh prepared accepted _
  · rw [image]
    exact header_fresh prepared accepted _
  · rw [image]
    exact stocked_fresh prepared accepted _

theorem Format.stocked_small :
    ∃ sb m, FormatOptions.Accepted sb ∧ 1 < sb.inodes.toNat ∧ 1 < sb.dataZones.toNat ∧
      1 ≤ sb.width.toNat ∧ 2 < 1024 / (2 + sb.width.toNat) ∧
      Mount.exec (run { blocks := 8, inodes := 32 })
        (⟨⟨Buffer.zeros 8192⟩, {}, {}, #[]⟩ : Mount MemoryDisk) = (.ok sb, m) ∧ m.InOrder ∧
      Image.header (ImageDisk.image m.disk) = sb ∧
      ∀ output, Image.Stocked (ImageDisk.image m.disk) []
        (Volume.opened (ImageDisk.image m.disk) output) := by
  obtain ⟨sb, b, layout, rfl, size⟩ := room_small
  obtain ⟨m, run, rest⟩ := exec_run_stocked
    (m := (⟨⟨Buffer.zeros 8192⟩, {}, {}, #[]⟩ : Mount MemoryDisk)) (sound_of_size size) trivial
    layout (Nat.le_of_eq size.symm)
  have known : FormatOptions.layout { blocks := 8, inodes := 32 }
      = .ok ⟨32, 8, 1, 1, 5, 0, FormatOptions.maxFileSize, Superblock.shortNameMagic, 1⟩ := rfl
  refine ⟨sb, m, FormatOptions.accepted_of_layout layout, ?_, ?_, ?_, ?_, run, rest⟩ <;>
    rw [← Except.ok.inj (known.symm.trans layout)] <;> decide

namespace Volume

variable {δ : Type} [Disk δ] [ImageDisk δ]

/-- What is created on a fresh volume makes a list, and the list is all there is to the volume: it
is what is listed, it has the numbers and the zones in order, it says what is left, and it decides
which create comes next to an end. Creates that fail leave no trace in it. -/
theorem inventory_createAll {m₀ : Mount δ} (sound : ImageDisk.Sound m₀.disk)
    (reliable : ImageDisk.Reliable m₀.disk) (output : m₀.output.room = none)
    {options : FormatOptions} {sb : Superblock} (layout : options.layout = .ok sb)
    (room : sb.zones.toNat * 1024 ≤ (ImageDisk.image m₀.disk).size) (clock : Int64)
    (color : Bool) :
    ∃ m₁ v m, Mount.exec (Format.run options) m₀ = (.ok sb, m₁) ∧
      Mount.exec (openDisk clock color) m₁ = (.ok v, m) ∧
      ∀ requests : List Request,
        v.Inventory sb (v.createAll requests m).1 (v.createAll requests m).2 := by
  have accepted := FormatOptions.accepted_of_layout layout
  obtain ⟨m₁, img, formatted, prepared, h₁⟩ := Format.exec_run sound reliable layout room
  have header := Format.header_fresh prepared accepted options.modified
  have orderly := (Format.consistent_fresh prepared accepted options.modified).toOrderly
  rcases (ends_openDisk h₁ orderly.fits clock color).exec_eq with
    ⟨v, m, opening, superblock, width, h⟩ | ⟨t, _, _, mishap, -⟩
  · refine ⟨m₁, v, m, formatted, opening, ?_⟩
    intro requests
    have fresh := Format.stocked_fresh prepared accepted options.modified m₀.output
    rw [← header] at accepted
    obtain ⟨cs, s, items, shows, same, stocked⟩ :=
      fresh.stocked_createAll orderly accepted h superblock width requests
    rw [items, ← header]
    refine stocked.inventory orderly accepted shows superblock width ?_
    rw [shows.output, same]
    exact output
  · exact absurd trivial mishap.not_steady

theorem inventory_createAll_small :
    ∃ sb m₁ v m, Mount.exec (Format.run { blocks := 8, inodes := 32 })
        (⟨⟨Buffer.zeros 8192⟩, {}, {}, #[]⟩ : Mount MemoryDisk) = (.ok sb, m₁) ∧
      Mount.exec (openDisk 0 false) m₁ = (.ok v, m) ∧
      (∃ number m', Mount.exec (v.create ⟨0, .directory, [0x61]⟩) m = (.ok number, m')) ∧
      v.Inventory sb
        (v.createAll [⟨0, .file, [0x61]⟩, ⟨1, .directory, [0x62]⟩, ⟨2, .file, [0x61]⟩] m).1
        (v.createAll [⟨0, .file, [0x61]⟩, ⟨1, .directory, [0x62]⟩, ⟨2, .file, [0x61]⟩] m).2 := by
  obtain ⟨sb, b, layout, blank, size⟩ := Format.room_small
  obtain ⟨m₁, v, m, formatted, opening, inventory⟩ :=
    @inventory_createAll MemoryDisk _ _ ⟨⟨b⟩, {}, {}, #[]⟩ (Format.sound_of_size size) trivial rfl
      _ _ layout (Nat.le_of_eq size.symm) 0 false
  rw [blank] at formatted
  refine ⟨sb, m₁, v, m, formatted, opening, ?_, inventory _⟩
  have known : FormatOptions.layout { blocks := 8, inodes := 32 }
      = .ok ⟨32, 8, 1, 1, 5, 0, FormatOptions.maxFileSize, Superblock.shortNameMagic, 1⟩ := rfl
  obtain rfl := Except.ok.inj (known.symm.trans layout)
  have admitted : Request.Admitted ⟨32, 8, 1, 1, 5, 0, FormatOptions.maxFileSize,
      Superblock.shortNameMagic, 1⟩ [] ⟨0, .directory, [0x61]⟩ :=
    ⟨by decide, by decide, by decide, by decide, by decide, by decide, fun _ => by decide⟩
  exact ((inventory []).next _).mpr admitted

end Volume

end MinixVolume

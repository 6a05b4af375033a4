import MinixVolume.Proofs.Entries

namespace MinixVolume

structure Image.FreeSlot (sb : Superblock) (img : Buffer) (zones : List UInt64) (z : UInt64)
    (k : Nat) : Prop where
  mem : z ∈ zones
  lt : k < sb.slots
  free : (slotEntry sb (zone sb img z) k).inode = 0
  below : ∀ j, j < k → (slotEntry sb (zone sb img z) j).inode ≠ 0

def Image.Occupied (sb : Superblock) (zone : Buffer) : Prop :=
  ∀ k, k < sb.slots → (slotEntry sb zone k).inode ≠ 0

structure Image.FirstSlot (sb : Superblock) (img : Buffer) (zones : List UInt64) (z : UInt64)
    (k : Nat) : Prop extends FreeSlot sb img zones z k where
  before : ∃ front back, zones = front ++ z :: back ∧
    ∀ z' ∈ front, Occupied sb (Image.zone sb img z')

namespace Directory

variable {sb : Superblock}

theorem slotCount_eq (sb : Superblock) : slotCount sb sb.width = .ok sb.slots := by
  have size := sb.toNat_slotSize
  have wide := sb.slotBytes_cases
  have nonzero : Entry.slotSize sb.width ≠ 0 := by
    intro zero
    rw [Entry.slotSize] at zero
    rw [zero] at size
    have : (0 : UInt64).toNat = 0 := rfl
    omega
  rw [slotCount, if_neg nonzero, UInt64.toNat_div, Entry.slotSize, size, Superblock.slots]

theorem mapM_eq_ok {α β : Type} {f : α → Except Stop β} {g : α → β} {l : List α}
    (h : ∀ i ∈ l, f i = .ok (g i)) : l.mapM f = .ok (l.map g) := by
  induction l with
  | nil => rfl
  | cons i l ih =>
      rw [List.mapM_cons, h i List.mem_cons_self,
        ih fun j hj => h j (List.mem_cons_of_mem _ hj)]
      rfl

theorem zoneEntries_eq {zone : Buffer} (size : zone.size = sb.zoneSize.toNat) :
    zoneEntries sb sb.width zone = .ok (Image.zoneEntries sb zone) := by
  have decoded := mapM_eq_ok (f := fun i => Entry.decode (slot zone sb.width i))
    (g := Image.slotEntry sb zone) (l := List.range sb.slots)
    fun i hi => Image.decode_slot size (List.mem_range.mp hi)
  rw [zoneEntries, slotCount_eq]
  simp only [bind, Except.bind, decoded]
  rfl

theorem freeSlotFrom_eq {zone : Buffer} (size : zone.size = sb.zoneSize.toNat) {left i : Nat}
    (h : i + left ≤ sb.slots) :
    (freeSlotFrom zone sb.width i left = .ok none ∧
        ∀ k, i ≤ k → k < i + left → (Image.slotEntry sb zone k).inode ≠ 0) ∨
      ∃ k, freeSlotFrom zone sb.width i left = .ok (some k) ∧ k < i + left ∧
        (Image.slotEntry sb zone k).inode = 0 ∧
        ∀ j, i ≤ j → j < k → (Image.slotEntry sb zone j).inode ≠ 0 := by
  induction left generalizing i with
  | zero => exact .inl ⟨rfl, fun k h₁ h₂ => by omega⟩
  | succ left ih =>
      have decoded := Image.decode_slot size (k := i) (by omega)
      by_cases free : (Image.slotEntry sb zone i).inode = 0
      · refine .inr ⟨i, ?_, by omega, free, fun j h₁ h₂ => by omega⟩
        simp only [freeSlotFrom, decoded, if_pos free]
      · have next : freeSlotFrom zone sb.width i (left + 1)
            = freeSlotFrom zone sb.width (i + 1) left := by
          simp only [freeSlotFrom, decoded, if_neg free]
        rw [next]
        rcases ih (i := i + 1) (by omega) with ⟨e, used⟩ | ⟨k, e, lt, hk, used⟩
        · refine .inl ⟨e, fun k h₁ h₂ => ?_⟩
          by_cases hi : k = i
          · exact hi ▸ free
          · exact used k (by omega) (by omega)
        · refine .inr ⟨k, e, by omega, hk, fun j h₁ h₂ => ?_⟩
          by_cases hi : j = i
          · exact hi ▸ free
          · exact used j (by omega) h₂

theorem shrink_grow (bytes : UInt64) (ip : Inode) : shrink bytes (grow bytes ip) = ip := by
  obtain ⟨mode, owner, size, modified, group, links, zone⟩ := ip
  simp only [shrink, grow, UInt32.add_sub_cancel]

def need (sb : Superblock) (ip : Inode) : Nat :=
  if ip.zones = [] then 0 else sb.zoneSize.toNat

theorem need_le_iff {ip : Inode} {n : Nat} :
    need sb ip ≤ n ↔ ∀ z ∈ ip.zones, sb.zoneSize.toNat ≤ n := by
  rw [need]
  split
  · next none => simp [none]
  · next some =>
      constructor
      · exact fun le _ _ => le
      · intro le
        obtain ⟨z, hz⟩ := List.exists_mem_of_ne_nil _ some
        exact le z hz

theorem lt_need_iff {ip : Inode} {n : Nat} :
    n < need sb ip ↔ ip.zones ≠ [] ∧ n < sb.zoneSize.toNat := by
  rw [need]
  split
  · next none => simp [none]
  · next some => simp [some]

theorem need_le_of_small {ip : Inode} {n : Nat} (small : sb.zoneSize.toNat ≤ n) :
    need sb ip ≤ n :=
  need_le_iff.mpr fun _ _ => small

variable {δ : Type} [Disk δ] [ImageDisk δ] {m : Mount δ} {steady : Prop} {s : Scene}

theorem ends_readZone (h : m.Shows steady s) {z : UInt64}
    (inside : sb.zonePlace z + sb.zoneSize.toNat ≤ s.image.size) {n : Nat}
    (room : sb.zoneSize.toNat ≤ n) :
    Mount.Ends (readZone sb z) m
      (fun b m' => b = Image.zone sb s.image z ∧
        sb.zoneSize.toNat ≤ Word.largestBuffer.toNat ∧ m'.Shows steady s)
      (fun t m' => Mishap steady n t ∧ m'.Shows steady s) := by
  refine (Mount.ends_during (Mount.ends_readAt_told h _ _ inside)).mono (fun _ _ h => h) ?_
  intro t m' stop
  exact ⟨stop.1.mono room, stop.2⟩

theorem exec_readZone_oversized {m : Mount MemoryDisk} (size : m.disk.image.size < sizeLimit)
    (large : Word.largestBuffer.toNat < sb.zoneSize.toNat) {z : UInt64}
    (inside : sb.zonePlace z + sb.zoneSize.toNat ≤ m.disk.image.size) :
    Mount.exec (readZone sb z) m = (.error (.panic .allocation), m) := by
  have answer := MemoryDisk.read_eq size (sb.zoneOffset z) sb.zoneSize
  rw [Superblock.zonePlace] at inside
  rw [if_pos inside, if_pos large] at answer
  have run : Mount.exec (Mount.onDisk (Disk.read (sb.zoneOffset z) sb.zoneSize)) m
      = (.error (.panic .allocation), m) := by
    rw [Mount.exec_onDisk]
    exact congrArg (·, m) answer
  rw [readZone, Mount.exec_wrapping, Mount.readAt, Mount.exec_bind, run]
  rfl

theorem ends_listZones (h : m.Shows steady s) {zs : List UInt64}
    (inside : ∀ z ∈ zs, sb.zonePlace z + sb.zoneSize.toNat ≤ s.image.size) {n : Nat}
    (room : ∀ z ∈ zs, sb.zoneSize.toNat ≤ n) :
    Mount.Ends (listZones sb sb.width zs) m
      (fun es m' => es = zs.flatMap (fun z => Image.zoneEntries sb (Image.zone sb s.image z)) ∧
        (∀ z ∈ zs, sb.zoneSize.toNat ≤ Word.largestBuffer.toNat) ∧ m'.Shows steady s)
      (fun t m' => Mishap steady n t ∧ m'.Shows steady s) := by
  induction zs generalizing m with
  | nil => exact Mount.Ends.pure ⟨rfl, fun _ hz => (nomatch hz), h⟩
  | cons z zs ih =>
      rw [List.forall_mem_cons] at inside room
      refine Mount.Ends.next (ends_readZone h inside.1 room.1) ?_
      rintro b m₁ ⟨rfl, small, h₁⟩
      rw [zoneEntries_eq (Image.size_zone inside.1)]
      apply Mount.Ends.ok_bind
      refine Mount.Ends.next (ih h₁ inside.2 room.2) ?_
      rintro es m₂ ⟨rfl, -, h₂⟩
      exact Mount.Ends.pure ⟨rfl, fun _ _ => small, h₂⟩

theorem ends_list_told (h : m.Shows steady s) {ip : Inode}
    (inside : ∀ z ∈ ip.zones, sb.zonePlace z + sb.zoneSize.toNat ≤ s.image.size) :
    Mount.Ends (list sb ip sb.width) m
      (fun es m' => es = Image.entries sb s.image ip ∧
        need sb ip ≤ Word.largestBuffer.toNat ∧ m'.Shows steady s)
      (fun t m' => Mishap steady (need sb ip) t ∧ m'.Shows steady s) := by
  refine (ends_listZones h inside (need_le_iff.mp (Nat.le_refl _))).imp ?_
  rintro es m' ⟨rfl, room, h'⟩
  exact ⟨rfl, need_le_iff.mpr room, h'⟩

theorem ends_list (h : m.Shows steady s) {ip : Inode}
    (inside : ∀ z ∈ ip.zones, sb.zonePlace z + sb.zoneSize.toNat ≤ s.image.size) :
    Mount.Ends (list sb ip sb.width) m
      (fun es m' => es = Image.entries sb s.image ip ∧ m'.Shows steady s)
      (fun t m' => Mishap steady sb.zoneSize.toNat t ∧ m'.Shows steady s) :=
  (ends_list_told h inside).mono (fun _ _ listed => ⟨listed.1, listed.2.2⟩)
    fun _ _ stop => ⟨stop.1.mono (need_le_of_small (Nat.le_refl _)), stop.2⟩

theorem ends_lookup_told (h : m.Shows steady s) {ip : Inode} (name : Bytes)
    (inside : ∀ z ∈ ip.zones, sb.zonePlace z + sb.zoneSize.toNat ≤ s.image.size) :
    Mount.Ends (lookup sb ip name sb.width) m
      (fun r m' =>
        r = ((Image.entries sb s.image ip).find? (·.name == name)).map (·.inode) ∧
          need sb ip ≤ Word.largestBuffer.toNat ∧ m'.Shows steady s)
      (fun t m' => Mishap steady (need sb ip) t ∧ m'.Shows steady s) := by
  refine Mount.Ends.next (ends_list_told h inside) ?_
  rintro es m₁ ⟨rfl, room, h₁⟩
  exact Mount.Ends.pure ⟨rfl, room, h₁⟩

theorem ends_lookup (h : m.Shows steady s) {ip : Inode} (name : Bytes)
    (inside : ∀ z ∈ ip.zones, sb.zonePlace z + sb.zoneSize.toNat ≤ s.image.size) :
    Mount.Ends (lookup sb ip name sb.width) m
      (fun r m' =>
        r = ((Image.entries sb s.image ip).find? (·.name == name)).map (·.inode) ∧
          m'.Shows steady s)
      (fun t m' => Mishap steady sb.zoneSize.toNat t ∧ m'.Shows steady s) :=
  (ends_lookup_told h name inside).mono (fun _ _ found => ⟨found.1, found.2.2⟩)
    fun _ _ stop => ⟨stop.1.mono (need_le_of_small (Nat.le_refl _)), stop.2⟩

section Answers

variable (h : m.Shows True s) {ip : Inode}
  (inside : ∀ z ∈ ip.zones, sb.zonePlace z + sb.zoneSize.toNat ≤ s.image.size)
  (small : ∀ z ∈ ip.zones, sb.zoneSize.toNat ≤ Word.largestBuffer.toNat)
include h inside small

theorem exec_list :
    ∃ m', Mount.exec (list sb ip sb.width) m = (.ok (Image.entries sb s.image ip), m') := by
  obtain ⟨es, m', run, rfl, -⟩ :=
    (Mount.ends_sure (ends_listZones h inside small) (Nat.le_refl _)).exec_ok
  exact ⟨m', run⟩

theorem answer_list :
    (Mount.exec (list sb ip sb.width) m).1 = .ok (Image.entries sb s.image ip) := by
  obtain ⟨m', run⟩ := exec_list h inside small
  rw [run]

theorem answer_lookup (name : Bytes) :
    (Mount.exec (lookup sb ip name sb.width) m).1
      = .ok (((Image.entries sb s.image ip).find? (·.name == name)).map (·.inode)) := by
  obtain ⟨m', run⟩ := exec_list h inside small
  rw [lookup, Mount.exec_bind, run]
  rfl

end Answers

theorem ends_findSlot (h : m.Shows steady s) {zs : List UInt64}
    (inside : ∀ z ∈ zs, sb.zonePlace z + sb.zoneSize.toNat ≤ s.image.size) {n : Nat}
    (room : ∀ z ∈ zs, sb.zoneSize.toNat ≤ n) :
    Mount.Ends (findSlot sb sb.width zs) m
      (fun r m' => m'.Shows steady s ∧
        ((r = none ∧ ∀ z ∈ zs, Image.Occupied sb (Image.zone sb s.image z)) ∨
          ∃ z k, r = some (z, k) ∧ Image.FirstSlot sb s.image zs z k))
      (fun t m' => Mishap steady n t ∧ m'.Shows steady s) := by
  induction zs generalizing m with
  | nil => exact Mount.Ends.pure ⟨h, .inl ⟨rfl, fun z hz => nomatch hz⟩⟩
  | cons z zs ih =>
      rw [List.forall_mem_cons] at inside room
      refine Mount.Ends.next (ends_readZone h inside.1 room.1) ?_
      rintro b m₁ ⟨rfl, -, h₁⟩
      rw [slotCount_eq]
      apply Mount.Ends.ok_bind
      rcases freeSlotFrom_eq (Image.size_zone inside.1) (show 0 + sb.slots ≤ sb.slots by omega)
        with ⟨e, used⟩ | ⟨k, e, lt, free, used⟩
      · rw [e]
        apply Mount.Ends.ok_bind
        refine (ih h₁ inside.2 room.2).imp ?_
        have here : Image.Occupied sb (Image.zone sb s.image z) :=
          fun k hk => used k (by omega) (by omega)
        rintro r m₂ ⟨h₂, ⟨rfl, full⟩ | ⟨z', k, rfl, found⟩⟩
        · exact ⟨h₂, .inl ⟨rfl, List.forall_mem_cons.mpr ⟨here, full⟩⟩⟩
        · obtain ⟨front, back, split, occupied⟩ := found.before
          refine ⟨h₂, .inr ⟨z', k, rfl, ⟨List.mem_cons_of_mem _ found.mem, found.lt, found.free,
            found.below⟩, z :: front, back, ?_, List.forall_mem_cons.mpr ⟨here, occupied⟩⟩⟩
          rw [split, List.cons_append]
      · rw [e]
        apply Mount.Ends.ok_bind
        exact Mount.Ends.pure ⟨h₁, .inr ⟨z, k, rfl, ⟨List.mem_cons_self, by omega, free,
          fun j hj => used j (by omega) hj⟩, [], zs, rfl, fun _ hz' => nomatch hz'⟩⟩

def grown (sb : Superblock) (ip : Inode) : Inode :=
  grow (Entry.slotSize sb.width) ip

inductive Added (sb : Superblock) (number : UInt64) (e : Entry) (steady : Prop) (s : Scene) :
    Except Stop Unit → Scene → Prop
  | entered {z : UInt64} {k : Nat} : Image.FirstSlot sb s.image s.directory.zones z k →
      Added sb number e steady s (.ok ())
        { s with
          image := Update.applyAll sb s.image
            [.slot z k (e.slotData sb), .inode number.toNat (grown sb s.directory)]
          directory := grown sb s.directory }
  | full : (∀ z ∈ s.directory.zones, Image.Occupied sb (Image.zone sb s.image z)) →
      Added sb number e steady s (.error (.error (.directoryFull number))) s
  | stopped {t : Stop} : Mishap steady 0 t → Added sb number e steady s (.error t) s
  | withdrawn {z : UInt64} {k : Nat} {err : Error} :
      Image.FreeSlot sb s.image s.directory.zones z k → err.Calm → ¬ steady →
      Added sb number e steady s (.error (.error err))
        { s with
          image := Update.applyAll sb s.image
            [.slot z k (e.slotData sb), .slot z k (Buffer.zeros sb.slotBytes)] }
  | left {z : UInt64} {k : Nat} {err : Error} :
      Image.FreeSlot sb s.image s.directory.zones z k → err.hasKind .inconsistent = true →
      ¬ steady →
      Added sb number e steady s (.error (.error err))
        { s with image := Update.applyAll sb s.image [.slot z k (e.slotData sb)] }

theorem toNat_slotOffset {size : Nat} {z : UInt64}
    (inside : sb.zonePlace z + sb.zoneSize.toNat ≤ size) (limit : size < sizeLimit) {k : Nat}
    (hk : k < sb.slots) :
    (sb.zoneOffset z + UInt64.ofNat k * Entry.slotSize sb.width).toNat = sb.slotPlace z k := by
  have wide := sb.slotBytes_cases
  have fits := Superblock.Fits.slotEnd_le sb hk
  have : sizeLimit < UInt64.size := by decide
  have le : k ≤ sb.zoneSize.toNat := by
    have : k * 1 ≤ k * sb.slotBytes := Nat.mul_le_mul_left _ (by omega)
    omega
  rw [UInt64.toNat_add, UInt64.toNat_mul, Word.toNat_ofNat_of_le le, Entry.slotSize,
    Superblock.toNat_slotSize, Superblock.slotPlace, Superblock.zonePlace]
  rw [Superblock.zonePlace] at inside
  simp only [UInt64.size] at *
  rw [Nat.mod_eq_of_lt (show k * sb.slotBytes < _ by omega), Nat.mod_eq_of_lt (by omega)]

theorem ends_writeSlot_told (h : m.Shows steady s) {z : UInt64}
    (inside : sb.zonePlace z + sb.zoneSize.toNat ≤ s.image.size) {k : Nat} (hk : k < sb.slots)
    {data : Buffer} (length : data.size = sb.slotBytes) :
    Mount.Ends (Mount.writeAt (sb.zoneOffset z + UInt64.ofNat k * Entry.slotSize sb.width) data) m
      (fun _ m' => m'.Shows steady { s with image := (Update.slot z k data).apply sb s.image })
      (fun t m' => ∃ e : Error, t = .error e ∧ e.Calm ∧ ¬ steady ∧
        (Disk.write (sb.zoneOffset z + UInt64.ofNat k * Entry.slotSize sb.width) data).run.run
          m.disk = (.error (.error e), m'.disk) ∧ m'.Shows steady s) := by
  have place := toNat_slotOffset inside h.size_lt hk
  have fits := Superblock.Fits.slotEnd_le sb hk
  have write := Mount.ends_writeAt_told h
    (sb.zoneOffset z + UInt64.ofNat k * Entry.slotSize sb.width) data
    (by rw [place, length, Superblock.slotPlace]; omega)
  rw [place] at write
  exact write

/-- The last two calls of a disk, which is then in state `d`: it did not take the record of the
grown directory, nor the zeros for slot `k` of zone `z`. -/
def Refused (sb : Superblock) (number : UInt64) (ip : Inode) (z : UInt64) (k : Nat) (d : δ)
    (first second : Error) : Prop :=
  ∃ d₁ d₂ : δ,
    (Disk.write (UInt64.ofNat (sb.recordPlace number.toNat))
      (Buffer.ofBytes (grown sb ip).encode)).run.run d₁ = (.error (.error first), d₂) ∧
    (Disk.write (sb.zoneOffset z + UInt64.ofNat k * Entry.slotSize sb.width)
      (Buffer.zeros sb.slotBytes)).run.run d₂ = (.error (.error second), d)

inductive Ended (sb : Superblock) (number : UInt64) (e : Entry) (steady : Prop) (n : Nat)
    (s : Scene) (d : δ) : Except Stop Unit → Scene → Prop
  | entered {z : UInt64} {k : Nat} : Image.FirstSlot sb s.image s.directory.zones z k →
      Ended sb number e steady n s d (.ok ())
        { s with
          image := Update.applyAll sb s.image
            [.slot z k (e.slotData sb), .inode number.toNat (grown sb s.directory)]
          directory := grown sb s.directory }
  | full : (∀ z ∈ s.directory.zones, Image.Occupied sb (Image.zone sb s.image z)) →
      Ended sb number e steady n s d (.error (.error (.directoryFull number))) s
  | stopped {t : Stop} : Mishap steady n t →
      Ended sb number e steady n s d (.error t) s
  | withdrawn {z : UInt64} {k : Nat} {first : Error} :
      Image.FirstSlot sb s.image s.directory.zones z k → first.Calm → ¬ steady →
      Ended sb number e steady n s d (.error (.error (.during .write (.inode number) first)))
        { s with
          image := Update.applyAll sb s.image
            [.slot z k (e.slotData sb), .slot z k (Buffer.zeros sb.slotBytes)] }
  | left {z : UInt64} {k : Nat} {first second : Error} :
      Image.FirstSlot sb s.image s.directory.zones z k →
      Refused sb number s.directory z k d first second → ¬ steady →
      Ended sb number e steady n s d (.error (.error (.joined (.during .write (.inode number) first)
          (.entryLeft e.name number second))))
        { s with image := Update.applyAll sb s.image [.slot z k (e.slotData sb)] }

omit [ImageDisk δ] in
theorem Ended.added {number : UInt64} {e : Entry} {n : Nat} {d : δ} {r : Except Stop Unit}
    {s' : Scene} (room : n ≤ Word.largestBuffer.toNat) (h : Ended sb number e steady n s d r s') :
    Added sb number e steady s r s' := by
  cases h with
  | entered found => exact .entered found
  | full full => exact .full full
  | stopped mishap => exact .stopped (mishap.small room)
  | withdrawn found calm failing => exact .withdrawn found.toFreeSlot calm failing
  | left found _ failing =>
      exact .left found.toFreeSlot (by simp [Error.hasKind, Error.kinds]) failing

theorem ends_add_inside (h : m.Shows steady s) {number : UInt64} (pos : 1 ≤ number.toNat)
    (record : sb.recordPlace number.toNat + 32 ≤ s.image.size)
    (zones : ∀ z ∈ s.directory.zones, sb.zonePlace z + sb.zoneSize.toNat ≤ s.image.size)
    {n : Nat} (room : ∀ z ∈ s.directory.zones, sb.zoneSize.toNat ≤ n) {e : Entry}
    (short : e.name.length ≤ sb.width.toNat) :
    Mount.Ends (add sb number e sb.width) m
      (fun r m' => ∃ s', m'.Shows steady s' ∧ Ended sb number e steady n s m'.disk (.ok r) s')
      (fun t m' => ∃ s', m'.Shows steady s' ∧
        Ended sb number e steady n s m'.disk (.error t) s') := by
  have length := Entry.size_slotData short
  have size := sb.toNat_slotSize
  rw [add, Entry.encode_eq short]
  apply Mount.Ends.ok_bind
  apply Mount.ends_get
  rw [h.directory]
  refine Mount.Ends.bind (ends_findSlot h zones room) ?_ fun t m' h => ⟨s, h.2, .stopped h.1⟩
  rintro r m₁ ⟨h₁, ⟨rfl, full⟩ | ⟨z, k, rfl, found⟩⟩
  · exact Mount.Ends.fail ⟨s, h₁, .full full⟩
  have inside := zones z found.mem
  have same : ((Update.slot z k (e.slotData sb)).apply sb s.image).size = s.image.size := by
    have fits := Superblock.Fits.slotEnd_le sb found.lt
    exact Buffer.size_splice (by rw [length, Superblock.slotPlace]; omega)
  refine Mount.Ends.bind (Mount.Ends.wrapping (ends_writeSlot_told h₁ inside found.lt length)
    (E := fun t m' => Mishap steady 0 t ∧ m'.Shows steady s) ?_ ?_) ?_
    fun t m' h => ⟨s, h.2, .stopped (h.1.mono (Nat.zero_le _))⟩
  · rintro err m' ⟨_, ⟨⟩, calm, failing, -, h'⟩
    exact ⟨.fault _ calm failing, h'⟩
  · rintro _ _ ⟨_, ⟨⟩, -⟩
  intro _ m₂ h₂
  refine Mount.Ends.next (Mount.ends_trace h₂ _) ?_
  intro _ m₃ h₃
  refine Mount.Ends.next (Mount.ends_modifyDirectory h₃ _) ?_
  intro _ m₄ h₄
  apply Mount.ends_get
  rw [h₄.directory]
  have store := Inode.ends_store_told h₄ pos (by rw [same]; exact record)
    (grow (Entry.slotSize sb.width) s.directory)
  refine Mount.Ends.next (Mount.Ends.attempt_known store) ?_
  rintro _ m₅ (⟨_, rfl, h₅⟩ | ⟨first, rfl, calm, failing, unstored, h₅⟩)
  · exact Mount.Ends.pure ⟨_, h₅, .entered found⟩
  -- The directory in memory is the old one again, and the slot is still to be cleared.
  have again := h₅.modifyDirectory (shrink (Entry.slotSize sb.width))
  rw [shrink_grow] at again
  refine Mount.Ends.next (Mount.Ends.of_exec (Mount.exec_modifyDirectory _ _)
    (Q := fun _ m' => m'.disk = m₅.disk ∧ m'.Shows steady
      { s with image := (Update.slot z k (e.slotData sb)).apply sb s.image }) ⟨rfl, again⟩) ?_
  rintro _ m₆ ⟨disk, h₆⟩
  rw [Entry.slotSize, size]
  refine Mount.Ends.next (Mount.Ends.attempt_known (f := id)
    (ends_writeSlot_told h₆ (by rw [same]; exact inside) found.lt (Buffer.size_zeros _))) ?_
  rintro _ m₇ (⟨_, rfl, h₇⟩ | ⟨second, rfl, -, -, uncleared, h₇⟩)
  · exact Mount.Ends.fail ⟨_, h₇, .withdrawn found calm failing⟩
  · rw [disk] at uncleared
    exact Mount.Ends.fail ⟨_, h₇, .left found ⟨_, _, unstored, uncleared⟩ failing⟩

theorem ends_add (h : m.Shows steady s) (hf : sb.Fits s.image.size) (number : UInt64)
    (hn : sb.IsInode number.toNat) (zones : ∀ z ∈ s.directory.zones, sb.IsDataZone z)
    (room : need sb s.directory ≤ Word.largestBuffer.toNat) {e : Entry}
    (short : e.name.length ≤ sb.width.toNat) :
    Mount.Ends (add sb number e sb.width) m
      (fun r m' => ∃ s', m'.Shows steady s' ∧ Added sb number e steady s (.ok r) s')
      (fun t m' => ∃ s', m'.Shows steady s' ∧ Added sb number e steady s (.error t) s') := by
  refine (ends_add_inside h hn.1 (Inode.record_inside hf hn)
    (fun z hz => hf.zoneEnd_le (zones z hz)) (need_le_iff.mp room) short).mono ?_ ?_
  · rintro r m' ⟨s', h', ended⟩
    exact ⟨s', h', ended.added (Nat.le_refl _)⟩
  · rintro t m' ⟨s', h', ended⟩
    exact ⟨s', h', ended.added (Nat.le_refl _)⟩

end Directory

end MinixVolume

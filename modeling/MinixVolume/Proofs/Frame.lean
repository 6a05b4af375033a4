import MinixVolume.Proofs.Create

namespace MinixVolume

theorem foldl_eq_self {α β : Type} {f : α → β → α} {l : List β} {a : α}
    (h : ∀ b ∈ l, f a b = a) : l.foldl f a = a := by
  induction l with
  | nil => rfl
  | cons b l ih =>
      rw [List.foldl_cons, h b List.mem_cons_self]
      exact ih fun c hc => h c (List.mem_cons_of_mem _ hc)

namespace Update

def Local (n : Nat) (zone : Option UInt64) (slot : Option (UInt64 × Nat)) : Update → Prop
  | .inodeBit m _ => m = n
  | .inode m _ => m = n
  | .zoneBit z _ => z ∈ zone
  | .zone z _ => z ∈ zone
  | .slot z k _ => (z, k) ∈ slot

def IsRoot (u : Update) : Prop :=
  ∃ ip, u = .inode 1 ip

variable {sb : Superblock} {img : Buffer} {us : List Update} {n : Nat} {zone : Option UInt64}
  {slot : Option (UInt64 × Nat)}

theorem inodeUsed_of_local (valid : ∀ u ∈ us, u.Valid sb) (hf : sb.Fits img.size)
    (within : ∀ u ∈ us, u.Local n zone slot ∨ u.IsRoot) {m : Nat}
    (hm : m < 8192 * sb.inodeMapBlocks.toNat) (ne : m ≠ n) :
    Image.inodeUsed sb (applyAll sb img us) m = Image.inodeUsed sb img m := by
  rw [inodeUsed_applyAll valid hf hm]
  apply foldl_eq_self
  intro u hu
  rcases within u hu with h | ⟨ip, rfl⟩
  · cases u with
    | inodeBit m' used =>
        cases h
        exact if_neg ne
    | _ => rfl
  · rfl

theorem zoneMapBit_of_local (valid : ∀ u ∈ us, u.Valid sb) (hf : sb.Fits img.size)
    (within : ∀ u ∈ us, u.Local n zone slot ∨ u.IsRoot) {k : Nat}
    (hk : k < 8192 * sb.zoneMapBlocks.toNat) (out : ∀ z ∈ zone, k ≠ sb.zoneNumber z) :
    (applyAll sb img us).bit (8 * sb.zoneMapPlace + k) = img.bit (8 * sb.zoneMapPlace + k) := by
  rw [zoneMapBit_applyAll valid hf hk]
  apply foldl_eq_self
  intro u hu
  rcases within u hu with h | ⟨ip, rfl⟩
  · cases u with
    | zoneBit z used => exact if_neg (out z h)
    | _ => rfl
  · rfl

theorem zoneUsed_of_local (valid : ∀ u ∈ us, u.Valid sb) (hf : sb.Fits img.size)
    (within : ∀ u ∈ us, u.Local n zone slot ∨ u.IsRoot) (zones : ∀ z ∈ zone, sb.IsDataZone z)
    {z : UInt64} (hz : sb.IsDataZone z) (out : z ∉ zone) :
    Image.zoneUsed sb (applyAll sb img us) z = Image.zoneUsed sb img z := by
  apply zoneMapBit_of_local valid hf within (hf.zoneNumber_lt hz)
  intro z' hz' e
  exact out (Superblock.Fits.zoneNumber_inj hz (zones z' hz') e ▸ hz')

theorem record_of_local (valid : ∀ u ∈ us, u.Valid sb) (hf : sb.Fits img.size)
    (within : ∀ u ∈ us, u.Local n zone slot ∨ u.IsRoot) {m : Nat} (hm : sb.IsInode m) (ne : m ≠ n)
    (notRoot : (∃ u ∈ us, u.IsRoot) → m ≠ 1) :
    Image.record sb (applyAll sb img us) m = Image.record sb img m := by
  rw [record_applyAll valid hf hm]
  apply foldl_eq_self
  intro u hu
  rcases within u hu with h | ⟨ip, rfl⟩
  · cases u with
    | inode m' ip =>
        cases h
        exact if_neg ne
    | _ => rfl
  · exact if_neg (notRoot ⟨_, hu, ip, rfl⟩)

theorem zone_of_local (valid : ∀ u ∈ us, u.Valid sb) (hf : sb.Fits img.size)
    (within : ∀ u ∈ us, u.Local n zone slot ∨ u.IsRoot) {z : UInt64} (hz : sb.IsDataZone z)
    (out : z ∉ zone) (noSlot : ∀ k, (z, k) ∉ slot) :
    Image.zone sb (applyAll sb img us) z = Image.zone sb img z := by
  rw [zone_applyAll valid hf hz]
  apply foldl_eq_self
  intro u hu
  rcases within u hu with h | ⟨ip, rfl⟩
  · cases u with
    | zone z' data =>
        refine if_neg ?_
        rintro rfl
        exact out h
    | slot z' k data =>
        refine if_neg ?_
        rintro rfl
        exact noSlot k h
    | _ => rfl
  · rfl

theorem getElem?_of_local (valid : ∀ u ∈ us, u.Valid sb) (hf : sb.Fits img.size)
    (within : ∀ u ∈ us, u.Local n zone slot ∨ u.IsRoot) {p : Nat}
    (maps : p < sb.inodeMapPlace ∨ sb.tablePlace ≤ p)
    (records : p < sb.recordPlace n ∨ sb.recordPlace n + 32 ≤ p)
    (root : (∃ u ∈ us, u.IsRoot) → p < sb.recordPlace 1 ∨ sb.recordPlace 1 + 32 ≤ p)
    (zones : ∀ z ∈ zone, p < sb.zonePlace z ∨ sb.zonePlace z + sb.zoneSize.toNat ≤ p)
    (slots : ∀ z k, (z, k) ∈ slot → p < sb.slotPlace z k ∨ sb.slotPlace z k + sb.slotBytes ≤ p) :
    (applyAll sb img us).data[p]? = img.data[p]? := by
  apply getElem?_applyAll_of_outside valid hf
  intro u hu
  have region := (valid u hu).within hf
  rcases within u hu with h | ⟨ip, rfl⟩
  · cases u with
    | inodeBit m used =>
        simp only [Within, Superblock.inodeMapPlace, Superblock.zoneMapPlace,
          Superblock.tablePlace, length] at *
        omega
    | zoneBit z used =>
        simp only [Within, Superblock.inodeMapPlace, Superblock.zoneMapPlace,
          Superblock.tablePlace, length] at *
        omega
    | inode m ip =>
        cases h
        exact records
    | zone z data => exact zones z h
    | slot z k data => exact slots z k h
  · exact root ⟨_, hu, ip, rfl⟩

/-- Updates that are about an inode and a zone not in use and about a free slot of the root
directory, as well as the root inode. -/
structure Footprint (sb : Superblock) (s : Scene) (n : Nat) (zone : Option UInt64)
    (slot : Option (UInt64 × Nat)) (us : List Update) : Prop where
  valid : ∀ u ∈ us, u.Valid sb
  within : ∀ u ∈ us, u.Local n zone slot ∨ u.IsRoot
  number : n ≤ sb.inodes.toNat
  inode : ∀ m, sb.IsInode m → Image.inodeUsed sb s.image m = true → m ≠ n
  zone : ∀ z ∈ zone, sb.IsDataZone z ∧ Image.zoneUsed sb s.image z = false
  slot : ∀ z k, (z, k) ∈ slot → Image.FreeSlot sb s.image s.directory.zones z k

namespace Footprint

variable {s : Scene}

theorem nil (sb : Superblock) (s : Scene) : Footprint sb s 0 none none [] where
  valid _ hu := nomatch hu
  within _ hu := nomatch hu
  number := Nat.zero_le _
  inode _ hm _ := Nat.ne_of_gt hm.1
  zone _ hz := nomatch hz
  slot _ _ h := nomatch h

variable (h : Footprint sb s n zone slot us) (hf : sb.Fits s.image.size)
include h hf

theorem inodeUsed {m : Nat} (hm : sb.IsInode m) (used : Image.inodeUsed sb s.image m = true) :
    Image.inodeUsed sb (applyAll sb s.image us) m = true := by
  have lt := hf.inodes_lt
  have le := hm.2
  rw [inodeUsed_of_local h.valid hf h.within (by omega) (h.inode m hm used)]
  exact used

theorem zoneUsed {z : UInt64} (hz : sb.IsDataZone z)
    (used : Image.zoneUsed sb s.image z = true) :
    Image.zoneUsed sb (applyAll sb s.image us) z = true := by
  rw [zoneUsed_of_local h.valid hf h.within (fun z hz => (h.zone z hz).1) hz]
  · exact used
  · intro mem
    rw [(h.zone z mem).2] at used
    cases used

theorem record {m : Nat} (hm : sb.IsInode m) (used : Image.inodeUsed sb s.image m = true)
    (notRoot : m ≠ 1) :
    Image.record sb (applyAll sb s.image us) m = Image.record sb s.image m :=
  record_of_local h.valid hf h.within hm (h.inode m hm used) fun _ => notRoot

theorem zone_eq {z : UInt64} (hz : sb.IsDataZone z) (used : Image.zoneUsed sb s.image z = true)
    (out : z ∉ s.directory.zones) :
    Image.zone sb (applyAll sb s.image us) z = Image.zone sb s.image z := by
  apply zone_of_local h.valid hf h.within hz
  · intro mem
    rw [(h.zone z mem).2] at used
    cases used
  · intro k mem
    exact out (h.slot z k mem).mem

theorem getElem?_zone {z : UInt64} (hz : sb.IsDataZone z)
    (used : Image.zoneUsed sb s.image z = true) {p : Nat} (lower : sb.zonePlace z ≤ p)
    (upper : p < sb.zonePlace z + sb.zoneSize.toNat)
    (out : ∀ z k, (z, k) ∈ slot → p < sb.slotPlace z k ∨ sb.slotPlace z k + sb.slotBytes ≤ p) :
    (applyAll sb s.image us).data[p]? = s.image.data[p]? := by
  have table := hf.tableEnd_le hz
  have pos := hf.inodes_pos
  have number := h.number
  refine getElem?_of_local h.valid hf h.within (.inr (by omega)) (.inr ?_) (fun _ => .inr ?_) ?_
    out
  · rw [Superblock.recordPlace]
    omega
  · rw [Superblock.recordPlace]
    omega
  · intro z' mem
    have ne : z ≠ z' := by
      rintro rfl
      rw [(h.zone z mem).2] at used
      cases used
    have apart := hf.zones_apart hz (h.zone z' mem).1 ne
    omega

theorem blocks_eq : (applyAll sb s.image us).window 0 2048 = s.image.window 0 2048 := by
  apply Buffer.window_congr
  intro p _ hp
  apply getElem?_applyAll_of_outside h.valid hf
  intro u hu
  have := place_ge (h.valid u hu) hf
  omega

theorem size_eq : (applyAll sb s.image us).size = s.image.size :=
  size_applyAll h.valid hf

end Footprint

end Update

theorem Image.header_congr {img img' : Buffer} (h : img'.window 0 2048 = img.window 0 2048) :
    header img' = header img := by
  have same : img'.window 1024 Superblock.recordSize = img.window 1024 Superblock.recordSize := by
    apply Buffer.window_congr
    intro p h₁ h₂
    rw [Superblock.recordSize] at h₂
    exact Buffer.getElem?_of_window_eq h (Nat.zero_le _) (by omega)
  rw [header, header, same]

section Lists

variable {sb : Superblock} {s : Scene} {c : Creation} {z : UInt64} {k : Nat}

theorem Creation.local_steps {slot : Option (UInt64 × Nat)} :
    ∀ u ∈ c.steps, u.Local c.number.toNat c.zone slot := by
  intro u hu
  rcases mem_steps hu with rfl | ⟨z, hz, rfl⟩ | ⟨z, hz, rfl⟩ | rfl
  · exact rfl
  · exact hz
  · exact hz
  · exact rfl

theorem local_releases {n : Nat} {zone : Option UInt64} {slot : Option (UInt64 × Nat)} :
    ∀ u ∈ releases n zone, u.Local n zone slot := by
  intro u hu
  rcases mem_releases hu with rfl | rfl | ⟨z, mem, rfl⟩
  · exact rfl
  · exact rfl
  · exact mem

/-- The updates of a create that put an entry into the root directory, with the root inode as it is
written back, if it is. -/
def Creation.entering (sb : Superblock) (c : Creation) (z : UInt64) (k : Nat)
    (root : Option Inode) : List Update :=
  c.entered sb z k ++ (root.map (.inode 1 ·)).toList

namespace Creation.Fresh

theorem footprint (fresh : c.Fresh sb s) (slot : Option (UInt64 × Nat))
    (free : ∀ z k, (z, k) ∈ slot → Image.FreeSlot sb s.image s.directory.zones z k)
    {us : List Update} (valid : ∀ u ∈ us, u.Valid sb)
    (within : ∀ u ∈ us, u.Local c.number.toNat c.zone slot ∨ u.IsRoot) :
    Update.Footprint sb s c.number.toNat c.zone slot us := by
  refine ⟨valid, within, fresh.isInode.2, ?_,
    fun z hz => ⟨(fresh.zone z hz).1, (fresh.zone z hz).2.1⟩, free⟩
  rintro m hm used rfl
  rw [fresh.free] at used
  cases used

theorem footprint_steps (fresh : c.Fresh sb s) {us : List Update} (part : us <+: c.steps) :
    Update.Footprint sb s c.number.toNat c.zone none us :=
  fresh.footprint none (fun _ _ h => nomatch h) (fun u hu => fresh.valid_steps u (part.subset hu))
    fun u hu => .inl (local_steps u (part.subset hu))

theorem footprint_entering (fresh : c.Fresh sb s) (pos : 1 ≤ sb.inodes.toNat)
    (found : Image.FreeSlot sb s.image s.directory.zones z k)
    (zones : ∀ z ∈ s.directory.zones, sb.IsDataZone z) (root : Option Inode) :
    Update.Footprint sb s c.number.toNat c.zone (some (z, k)) (c.entering sb z k root) := by
  have mem {u : Update} (hu : u ∈ c.entering sb z k root) :
      u ∈ c.steps ∨ u = .slot z k (c.entry.slotData sb) ∨ ∃ ip, u = .inode 1 ip := by
    rcases List.mem_append.mp hu with hu | hu
    · rcases List.mem_append.mp hu with hu | hu
      · exact .inl hu
      · exact .inr (.inl (List.mem_singleton.mp hu))
    · cases root with
      | none => cases hu
      | some ip => exact .inr (.inr ⟨ip, List.mem_singleton.mp hu⟩)
  refine fresh.footprint _ ?_ ?_ ?_
  · rintro z k ⟨⟩
    exact found
  · intro u hu
    rcases mem hu with hu | rfl | ⟨ip, rfl⟩
    · exact fresh.valid_steps u hu
    · exact ⟨zones z found.mem, found.lt, Entry.size_slotData fresh.name.short⟩
    · exact ⟨Nat.le_refl 1, pos⟩
  · intro u hu
    rcases mem hu with hu | rfl | ⟨ip, rfl⟩
    · exact .inl (local_steps u hu)
    · exact .inl rfl
    · exact .inr ⟨ip, rfl⟩

theorem slotZone_notMem (fresh : c.Fresh sb s)
    (found : Image.FreeSlot sb s.image s.directory.zones z k)
    (zones : ∀ z ∈ s.directory.zones, sb.IsDataZone z ∧ Image.zoneUsed sb s.image z = true) :
    z ∉ c.zone := by
  intro mem
  have used := (zones z found.mem).2
  rw [(fresh.zone z mem).2.1] at used
  cases used

section Values

variable (fresh : c.Fresh sb s) (hf : sb.Fits s.image.size)
  (found : Image.FreeSlot sb s.image s.directory.zones z k)
  (zones : ∀ z ∈ s.directory.zones, sb.IsDataZone z ∧ Image.zoneUsed sb s.image z = true)
  (root : Option Inode)
include fresh hf found zones

theorem valid_entering : ∀ u ∈ c.entering sb z k root, u.Valid sb :=
  (fresh.footprint_entering hf.inodes_pos found (fun z hz => (zones z hz).1) root).valid

theorem inodeUsed_entering :
    Image.inodeUsed sb (Update.applyAll sb s.image (c.entering sb z k root)) c.number.toNat
      = true := by
  have lt := hf.inodes_lt
  have le := fresh.isInode.2
  rw [Update.inodeUsed_applyAll (fresh.valid_entering hf found zones root) hf (by omega)]
  obtain ⟨number, name, record, zone, block, root'⟩ := c
  cases zone <;> cases root <;> simp [entering, entered, steps, Update.onInodeBit]

theorem zoneUsed_entering {z' : UInt64} (hz : z' ∈ c.zone) :
    Image.zoneUsed sb (Update.applyAll sb s.image (c.entering sb z k root)) z' = true := by
  have lt := hf.zoneNumber_lt (fresh.zone z' hz).1
  rw [Image.zoneUsed,
    Update.zoneMapBit_applyAll (fresh.valid_entering hf found zones root) hf lt]
  obtain ⟨number, name, record, zone, block, root'⟩ := c
  cases hz
  cases root <;> simp [entering, entered, steps, Update.onZoneBit]

theorem record_entering (notRoot : c.number.toNat ≠ 1) :
    Image.record sb (Update.applyAll sb s.image (c.entering sb z k root)) c.number.toNat
      = Buffer.ofBytes c.record.encode := by
  rw [Update.record_applyAll (fresh.valid_entering hf found zones root) hf fresh.isInode]
  obtain ⟨number, name, record, zone, block, root'⟩ := c
  cases zone <;> cases root <;> simp_all [entering, entered, steps, Update.onRecord]

theorem record_one_entering (notRoot : c.number.toNat ≠ 1) :
    Image.record sb (Update.applyAll sb s.image (c.entering sb z k root)) 1
      = (root.map fun ip => Buffer.ofBytes ip.encode).getD (Image.record sb s.image 1) := by
  rw [Update.record_applyAll (fresh.valid_entering hf found zones root) hf
    ⟨Nat.le_refl 1, hf.inodes_pos⟩]
  obtain ⟨number, name, record, zone, block, root'⟩ := c
  have apart : 1 ≠ number.toNat := notRoot.symm
  cases zone <;> cases root <;> simp [entering, entered, steps, Update.onRecord, apart]

theorem zone_entering {z' : UInt64} (hz : z' ∈ c.zone) :
    Image.zone sb (Update.applyAll sb s.image (c.entering sb z k root)) z' = c.block := by
  have out := fresh.slotZone_notMem found zones
  rw [Update.zone_applyAll (fresh.valid_entering hf found zones root) hf (fresh.zone z' hz).1]
  obtain ⟨number, name, record, zone, block, root'⟩ := c
  cases hz
  have ne : z' ≠ z := by
    rintro rfl
    exact out rfl
  cases root <;> simp [entering, entered, steps, Update.onZone, ne]

theorem slotZone_entering :
    Image.zone sb (Update.applyAll sb s.image (c.entering sb z k root)) z
      = (Image.zone sb s.image z).splice (k * sb.slotBytes) (c.entry.slotData sb) := by
  have out := fresh.slotZone_notMem found zones
  rw [Update.zone_applyAll (fresh.valid_entering hf found zones root) hf (zones z found.mem).1]
  obtain ⟨number, name, record, zone, block, root'⟩ := c
  cases zone with
  | none => cases root <;> simp [entering, entered, steps, Update.onZone]
  | some z' =>
      have ne : z ≠ z' := by
        rintro rfl
        exact out rfl
      cases root <;> simp [entering, entered, steps, Update.onZone, ne]

theorem otherZone_entering {z' : UInt64} (hz : z' ∈ s.directory.zones) (ne : z' ≠ z) :
    Image.zone sb (Update.applyAll sb s.image (c.entering sb z k root)) z'
      = Image.zone sb s.image z' := by
  have foot := fresh.footprint_entering hf.inodes_pos found (fun z hz => (zones z hz).1) root
  refine Update.zone_of_local foot.valid hf foot.within (zones z' hz).1 ?_ ?_
  · intro mem
    have used := (zones z' hz).2
    rw [(fresh.zone z' mem).2.1] at used
    cases used
  · rintro k' ⟨⟩
    exact ne rfl

end Values

end Creation.Fresh

theorem GivenBack.subset {steady : Prop} {inode : UInt64} {zone : Option UInt64} {cause e : Error}
    {back : List Update} {log : Log} (h : GivenBack steady inode zone cause back e log) :
    back ⊆ releases inode.toNat zone := by
  cases h with
  | all => exact List.Subset.refl _
  | part sublist _ _ => exact sublist.subset

namespace Attempted

variable {us back : List Update} {slot : Option (UInt64 × Nat)}

theorem freeSlot (h : Attempted sb s c slot us) {z : UInt64} {k : Nat} (mem : (z, k) ∈ slot) :
    Image.FreeSlot sb s.image s.directory.zones z k := by
  cases h with
  | steps part => cases mem
  | cleared found =>
      cases mem
      exact found

theorem within (h : Attempted sb s c slot us) :
    ∀ u ∈ us, u.Local c.number.toNat c.zone slot := by
  intro u hu
  cases h with
  | steps part => exact Creation.local_steps u (part.subset hu)
  | cleared found =>
      rcases List.mem_append.mp hu with hu | hu
      · rcases List.mem_append.mp hu with hu | hu
        · exact Creation.local_steps u hu
        · rw [List.mem_singleton.mp hu]
          exact rfl
      · rw [List.mem_singleton.mp hu]
        exact rfl

theorem within_append (h : Attempted sb s c slot us)
    (given : back ⊆ releases c.number.toNat c.zone) :
    ∀ u ∈ us ++ back, u.Local c.number.toNat c.zone slot := by
  intro u hu
  rcases List.mem_append.mp hu with hu | hu
  · exact h.within u hu
  · exact local_releases u (given hu)

variable (h : Attempted sb s c slot us) (fresh : c.Fresh sb s)
  (given : back ⊆ releases c.number.toNat c.zone)
  (zones : ∀ z ∈ s.directory.zones, sb.IsDataZone z ∧ Image.zoneUsed sb s.image z = true)
include h fresh given zones

theorem footprint : Update.Footprint sb s c.number.toNat c.zone slot (us ++ back) := by
  refine fresh.footprint slot (fun _ _ mem => h.freeSlot mem) ?_
    fun u hu => .inl (h.within_append given u hu)
  intro u hu
  rcases List.mem_append.mp hu with hu | hu
  · exact h.valid fresh (fun z hz => (zones z hz).1) u hu
  · exact Volume.valid_releases fresh.isInode (fun z hz => (fresh.zone z hz).1) u (given hu)

variable (hf : sb.Fits s.image.size)
include hf

theorem record_one (notRoot : c.number.toNat ≠ 1) :
    Image.record sb (Update.applyAll sb s.image (us ++ back)) 1 = Image.record sb s.image 1 := by
  have foot := h.footprint fresh given zones
  refine Update.record_of_local foot.valid hf foot.within ⟨Nat.le_refl 1, hf.inodes_pos⟩
    notRoot.symm ?_
  rintro ⟨u, hu, ip, rfl⟩
  exact absurd (h.within_append given _ hu).symm notRoot

theorem slotZone {z : UInt64} {k : Nat} (mem : (z, k) ∈ slot) :
    Image.zone sb (Update.applyAll sb s.image (us ++ back)) z
      = (Image.zone sb s.image z).splice (k * sb.slotBytes) (Buffer.zeros sb.slotBytes) := by
  have foot := h.footprint fresh given zones
  have found := h.freeSlot mem
  have hz := (zones z found.mem).1
  have out := fresh.slotZone_notMem found zones
  have length := Entry.size_slotData (e := c.entry) fresh.name.short
  have fits : k * sb.slotBytes + (c.entry.slotData sb).size ≤ (Image.zone sb s.image z).size := by
    rw [length, Image.size_zone (hf.zoneEnd_le hz)]
    exact Superblock.Fits.slotEnd_le sb found.lt
  -- What is given back is told by records and map bits, never by the bytes of a zone.
  have rest (old : Buffer) : back.foldl (fun old u => u.onZone sb z old) old = old := by
    apply foldl_eq_self
    intro u hu
    rcases mem_releases (given hu) with rfl | rfl | ⟨z, -, rfl⟩ <;> rfl
  rw [Update.zone_applyAll foot.valid hf hz, List.foldl_append, rest]
  cases h with
  | steps part => cases mem
  | cleared _ =>
      cases mem
      rw [← Buffer.splice_splice fits (by rw [length, Buffer.size_zeros])]
      obtain ⟨number, name, record, zone, block, root⟩ := c
      cases zone with
      | none => simp [Creation.entered, Creation.steps, Update.onZone]
      | some z' =>
          have ne : z ≠ z' := by
            rintro rfl
            exact out rfl
          simp [Creation.entered, Creation.steps, Update.onZone, ne]

theorem rootZone {z : UInt64} (hz : z ∈ s.directory.zones) :
    Image.zone sb (Update.applyAll sb s.image (us ++ back)) z = Image.zone sb s.image z ∨
      ∃ k, k < sb.slots ∧ (Image.slotEntry sb (Image.zone sb s.image z) k).inode = 0 ∧
        Image.zone sb (Update.applyAll sb s.image (us ++ back)) z
          = (Image.zone sb s.image z).splice (k * sb.slotBytes) (Buffer.zeros sb.slotBytes) := by
  have foot := h.footprint fresh given zones
  by_cases mem : ∃ k, (z, k) ∈ slot
  · obtain ⟨k, mem⟩ := mem
    have found := h.freeSlot mem
    exact .inr ⟨k, found.lt, found.free, h.slotZone fresh given zones hf mem⟩
  · have out : z ∉ c.zone := by
      intro mem
      have used := (zones z hz).2
      rw [(fresh.zone z mem).2.1] at used
      cases used
    exact .inl (Update.zone_of_local foot.valid hf foot.within (zones z hz).1 out
      fun k hk => mem ⟨k, hk⟩)

theorem rootEntries {z : UInt64} (hz : z ∈ s.directory.zones) :
    Image.zoneEntries sb (Image.zone sb (Update.applyAll sb s.image (us ++ back)) z)
      = Image.zoneEntries sb (Image.zone sb s.image z) := by
  obtain same | ⟨k, lt, free, cleared⟩ := h.rootZone fresh given zones hf hz
  · rw [same]
  · rw [cleared]
    exact Image.zoneEntries_clear (Image.size_zone (hf.zoneEnd_le (zones z hz).1))
      (Buffer.size_zeros _) lt free (Entry.ofSlot_zeros _)

theorem free_again (all : back = releases c.number.toNat c.zone) :
    Image.inodeUsed sb (Update.applyAll sb s.image (us ++ back)) c.number.toNat = false ∧
      ∀ z ∈ c.zone,
        Image.zoneUsed sb (Update.applyAll sb s.image (us ++ back)) z = false := by
  have foot := h.footprint fresh given zones
  have lt := hf.inodes_lt
  have le := fresh.isInode.2
  constructor
  · rw [Update.inodeUsed_applyAll foot.valid hf (by omega), List.foldl_append, all]
    cases c.zone <;> simp [releases, Update.onInodeBit]
  · intro z hz
    rw [Image.zoneUsed, Update.zoneMapBit_applyAll foot.valid hf
      (hf.zoneNumber_lt (fresh.zone z hz).1), List.foldl_append, all]
    cases hz' : c.zone with
    | none =>
        rw [hz'] at hz
        cases hz
    | some z' =>
        rw [hz'] at hz
        cases hz
        simp [releases, Update.onZoneBit]

end Attempted

theorem Outcome.footprint {name : Bytes} {plan : Creation → Prop} {steady : Prop}
    {r : Except Stop UInt64} {s' : Scene} {log : Log}
    (h : Outcome sb name plan steady s r s' log) (pos : 1 ≤ sb.inodes.toNat)
    (zones : ∀ z ∈ s.directory.zones, sb.IsDataZone z ∧ Image.zoneUsed sb s.image z = true) :
    ∃ n zone slot us, s'.image = Update.applyAll sb s.image us ∧
      Update.Footprint sb s n zone slot us := by
  have isZone : ∀ z ∈ s.directory.zones, sb.IsDataZone z := fun z hz => (zones z hz).1
  cases h with
  | refused _ => exact ⟨_, _, _, [], rfl, .nil sb s⟩
  | @made c _ _ _ _ fresh found =>
      exact ⟨_, _, _, _, rfl,
        fresh.footprint_entering pos found.toFreeSlot isZone (some c.root)⟩
  | left _ fresh found _ _ =>
      have foot := fresh.footprint_entering pos found isZone none
      rw [Creation.entering, Option.map_none, Option.toList_none, List.append_nil] at foot
      exact ⟨_, _, _, _, rfl, foot⟩
  | undone _ fresh attempted _ given =>
      exact ⟨_, _, _, _, rfl, attempted.footprint fresh given.subset zones⟩
  | crashed _ fresh taking _ _ =>
      exact ⟨_, _, _, _, rfl, fresh.footprint_steps (Creation.allocations_prefix taking)⟩

end Lists

end MinixVolume

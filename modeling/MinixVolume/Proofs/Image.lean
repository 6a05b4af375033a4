import MinixVolume.Directory
import MinixVolume.Proofs.Geometry

namespace MinixVolume

def Entry.ofSlot (b : Bytes) : Entry :=
  ⟨(b.word16At 0).toUInt64, Bytes.trimmed (b.drop 2)⟩

def Superblock.zoneNumber (sb : Superblock) (z : UInt64) : Nat :=
  z.toNat - sb.firstDataZone.toNat + 1

namespace Image

def header (img : Buffer) : Superblock :=
  Superblock.ofRecord (Buffer.toBytes (img.window 1024 Superblock.recordSize))

variable (sb : Superblock) (img : Buffer)

def inodeUsed (n : Nat) : Bool :=
  img.bit (8 * sb.inodeMapPlace + n)

def zoneUsed (z : UInt64) : Bool :=
  img.bit (8 * sb.zoneMapPlace + sb.zoneNumber z)

def record (n : Nat) : Buffer :=
  img.window (sb.recordPlace n) 32

def inode (n : Nat) : Inode :=
  Inode.ofRecord (Buffer.toBytes (record sb img n))

def zone (z : UInt64) : Buffer :=
  img.window (sb.zonePlace z) sb.zoneSize.toNat

def slotEntry (zone : Buffer) (k : Nat) : Entry :=
  Entry.ofSlot (Directory.slot zone sb.width k)

def zoneEntries (zone : Buffer) : List Entry :=
  ((List.range sb.slots).map (slotEntry sb zone)).filter (·.inode ≠ 0)

def entries (ip : Inode) : List Entry :=
  ip.zones.flatMap fun z => zoneEntries sb (zone sb img z)

end Image

inductive Update where
  | inodeBit (n : Nat) (used : Bool)
  | zoneBit (z : UInt64) (used : Bool)
  | inode (n : Nat) (ip : Inode)
  | zone (z : UInt64) (data : Buffer)
  | slot (z : UInt64) (k : Nat) (data : Buffer)

namespace Update

def apply (sb : Superblock) (img : Buffer) : Update → Buffer
  | .inodeBit n used => img.setBit (8 * sb.inodeMapPlace + n) used
  | .zoneBit z used => img.setBit (8 * sb.zoneMapPlace + sb.zoneNumber z) used
  | .inode n ip => img.splice (sb.recordPlace n) (Buffer.ofBytes ip.encode)
  | .zone z data => img.splice (sb.zonePlace z) data
  | .slot z k data => img.splice (sb.slotPlace z k) data

def applyAll (sb : Superblock) (img : Buffer) (us : List Update) : Buffer :=
  us.foldl (apply sb) img

def Valid (sb : Superblock) : Update → Prop
  | .inodeBit n _ => sb.IsInode n
  | .zoneBit z _ => sb.IsDataZone z
  | .inode n _ => sb.IsInode n
  | .zone z data => sb.IsDataZone z ∧ data.size = sb.zoneSize.toNat
  | .slot z k data => sb.IsDataZone z ∧ k < sb.slots ∧ data.size = sb.slotBytes

def place (sb : Superblock) : Update → Nat
  | .inodeBit n _ => sb.inodeMapPlace + n / 8
  | .zoneBit z _ => sb.zoneMapPlace + sb.zoneNumber z / 8
  | .inode n _ => sb.recordPlace n
  | .zone z _ => sb.zonePlace z
  | .slot z k _ => sb.slotPlace z k

def length (sb : Superblock) : Update → Nat
  | .inodeBit .. => 1
  | .zoneBit .. => 1
  | .inode .. => 32
  | .zone .. => sb.zoneSize.toNat
  | .slot .. => sb.slotBytes

def Within (sb : Superblock) (u : Update) : Prop :=
  match u with
  | .inodeBit .. => 2048 ≤ u.place sb ∧ u.place sb + 1 ≤ sb.zoneMapPlace
  | .zoneBit .. => sb.zoneMapPlace ≤ u.place sb ∧ u.place sb + 1 ≤ sb.tablePlace
  | .inode n _ => u.place sb = sb.tablePlace + 32 * (n - 1) ∧ 1 ≤ n ∧ n ≤ sb.inodes.toNat
  | .zone z _ => u.place sb = sb.zonePlace z
  | .slot z _ _ => sb.zonePlace z ≤ u.place sb ∧
      u.place sb + sb.slotBytes ≤ sb.zonePlace z + sb.zoneSize.toNat

def onInodeBit (n : Nat) (old : Bool) : Update → Bool
  | .inodeBit k used => if n = k then used else old
  | _ => old

def onZoneBit (sb : Superblock) (n : Nat) (old : Bool) : Update → Bool
  | .zoneBit z used => if n = sb.zoneNumber z then used else old
  | _ => old

def onRecord (n : Nat) (old : Buffer) : Update → Buffer
  | .inode k ip => if n = k then Buffer.ofBytes ip.encode else old
  | _ => old

def onZone (sb : Superblock) (z : UInt64) (old : Buffer) : Update → Buffer
  | .zone z' data => if z = z' then data else old
  | .slot z' k data => if z = z' then old.splice (k * sb.slotBytes) data else old
  | _ => old

end Update

theorem Inode.length_encode (ip : Inode) : ip.encode.length = 32 := by
  have zones (l : List UInt16) : (l.flatMap Bytes.ofWord16).length = 2 * l.length := by
    induction l with
    | nil => rfl
    | cons z l ih =>
        rw [List.flatMap_cons, List.length_append, ih, List.length_cons]
        change 2 + _ = _
        omega
  rw [encode, List.length_append, zones, Vector.length_toList]
  rfl

namespace Superblock.Fits

variable {sb : Superblock} {size : Nat}

theorem zoneNumber_lt (h : sb.Fits size) {z : UInt64} (hz : sb.IsDataZone z) :
    sb.zoneNumber z < 8192 * sb.zoneMapBlocks.toNat := by
  have := h.dataZones_lt
  rw [toNat_dataZones] at this
  have := hz.1
  have := hz.2
  rw [zoneNumber]
  omega

theorem zoneNumber_inj {z z' : UInt64} (hz : sb.IsDataZone z) (hz' : sb.IsDataZone z')
    (e : sb.zoneNumber z = sb.zoneNumber z') : z = z' := by
  have := hz.1
  have := hz'.1
  rw [zoneNumber, zoneNumber] at e
  exact UInt64.toNat.inj (by omega)

end Superblock.Fits

namespace Update

variable {sb : Superblock} {img : Buffer} {u : Update}

theorem Valid.within (hv : u.Valid sb) (hf : sb.Fits img.size) : u.Within sb := by
  cases u with
  | inodeBit n used =>
      have := hf.inodes_lt
      have := hv.2
      simp only [Within, place, Superblock.inodeMapPlace, Superblock.zoneMapPlace]
      omega
  | zoneBit z used =>
      have := hf.zoneNumber_lt hv
      simp only [Within, place, Superblock.zoneMapPlace, Superblock.tablePlace]
      omega
  | inode n ip => exact ⟨rfl, hv.1, hv.2⟩
  | zone z data => exact rfl
  | slot z k data =>
      have := Superblock.Fits.slotEnd_le sb hv.2.1
      simp only [Within, place, Superblock.slotPlace]
      omega

theorem Valid.end_le (hv : u.Valid sb) (hf : sb.Fits img.size) :
    u.place sb + u.length sb ≤ img.size := by
  have table := hf.tableEnd_le_size
  have region := hv.within hf
  cases u with
  | inodeBit n used =>
      simp only [Within, length, Superblock.tablePlace, Superblock.zoneMapPlace] at *
      omega
  | zoneBit z used =>
      simp only [Within, length] at *
      omega
  | inode n ip =>
      simp only [Within, length] at *
      omega
  | zone z data =>
      have := hf.zoneEnd_le hv.1
      simp only [length, place] at *
      omega
  | slot z k data =>
      have := hf.zoneEnd_le hv.1
      simp only [Within, length] at *
      omega

theorem size_apply (hv : u.Valid sb) (hf : sb.Fits img.size) :
    (u.apply sb img).size = img.size := by
  have fits := hv.end_le hf
  cases u with
  | inodeBit n used => exact Buffer.size_setBit _ _ _
  | zoneBit z used => exact Buffer.size_setBit _ _ _
  | inode n ip =>
      refine Buffer.size_splice ?_
      rw [Buffer.size_ofBytes, Inode.length_encode]
      exact fits
  | zone z data =>
      refine Buffer.size_splice ?_
      rw [hv.2]
      exact fits
  | slot z k data =>
      refine Buffer.size_splice ?_
      rw [hv.2.2]
      exact fits

theorem getElem?_apply_of_outside (hv : u.Valid sb) (hf : sb.Fits img.size) {k : Nat}
    (outside : k < u.place sb ∨ u.place sb + u.length sb ≤ k) :
    (u.apply sb img).data[k]? = img.data[k]? := by
  have fits := hv.end_le hf
  cases u with
  | inodeBit n used =>
      apply Buffer.getElem?_setBit_of_ne
      simp only [place, length] at outside
      omega
  | zoneBit z used =>
      apply Buffer.getElem?_setBit_of_ne
      simp only [place, length] at outside
      omega
  | inode n ip =>
      have size : (Buffer.ofBytes ip.encode).size = 32 := by
        rw [Buffer.size_ofBytes, Inode.length_encode]
      simp only [place, length] at outside fits
      rw [apply, Buffer.getElem?_splice (by omega), if_neg (by omega)]
  | zone z data =>
      have size := hv.2
      simp only [place, length] at outside fits
      rw [apply, Buffer.getElem?_splice (by omega), if_neg (by omega)]
  | slot z k data =>
      have size := hv.2.2
      simp only [place, length] at outside fits
      rw [apply, Buffer.getElem?_splice (by omega), if_neg (by omega)]

theorem window_apply_of_disjoint (hv : u.Valid sb) (hf : sb.Fits img.size) {off n : Nat}
    (disjoint : off + n ≤ u.place sb ∨ u.place sb + u.length sb ≤ off) :
    (u.apply sb img).window off n = img.window off n := by
  apply Buffer.window_congr
  intro k h₁ h₂
  exact getElem?_apply_of_outside hv hf (by omega)

theorem bit_apply_of_outside (hv : u.Valid sb) (hf : sb.Fits img.size) {k : Nat}
    (outside : k / 8 < u.place sb ∨ u.place sb + u.length sb ≤ k / 8) :
    (u.apply sb img).bit k = img.bit k :=
  Buffer.bit_eq_of_getElem? (getElem?_apply_of_outside hv hf outside)

theorem place_ge (hv : u.Valid sb) (hf : sb.Fits img.size) : 2048 ≤ u.place sb := by
  have region := hv.within hf
  cases u with
  | inodeBit n used => exact region.1
  | zoneBit z used =>
      simp only [Within, Superblock.zoneMapPlace] at region
      omega
  | inode n ip =>
      simp only [Within, Superblock.tablePlace] at region
      omega
  | zone z data =>
      have := hf.tableEnd_le hv.1
      simp only [Within, Superblock.tablePlace] at this region
      omega
  | slot z k data =>
      have := hf.tableEnd_le hv.1
      simp only [Within, Superblock.tablePlace] at this region
      omega

theorem header_apply (hv : u.Valid sb) (hf : sb.Fits img.size) :
    Image.header (u.apply sb img) = Image.header img := by
  have := place_ge hv hf
  rw [Image.header, Image.header, Superblock.recordSize,
    window_apply_of_disjoint hv hf (.inl (by omega))]

theorem inodeUsed_apply (hv : u.Valid sb) (hf : sb.Fits img.size) {n : Nat}
    (hn : n < 8192 * sb.inodeMapBlocks.toNat) :
    Image.inodeUsed sb (u.apply sb img) n = u.onInodeBit n (Image.inodeUsed sb img n) := by
  have region := hv.within hf
  have fits := hv.end_le hf
  unfold Image.inodeUsed
  cases u with
  | inodeBit k used =>
      simp only [place, length] at fits
      rw [apply, onInodeBit, Buffer.bit_setBit (by omega)]
      by_cases e : n = k
      · rw [if_pos (by rw [e]), if_pos e]
      · rw [if_neg (by omega), if_neg e]
  | zoneBit z used =>
      apply bit_apply_of_outside hv hf
      simp only [Within, Superblock.inodeMapPlace, Superblock.zoneMapPlace] at *
      omega
  | inode k ip =>
      apply bit_apply_of_outside hv hf
      simp only [Within, Superblock.inodeMapPlace, Superblock.tablePlace] at *
      omega
  | zone z data =>
      have := hf.tableEnd_le hv.1
      apply bit_apply_of_outside hv hf
      simp only [Within, Superblock.inodeMapPlace, Superblock.tablePlace] at *
      omega
  | slot z k data =>
      have := hf.tableEnd_le hv.1
      apply bit_apply_of_outside hv hf
      simp only [Within, Superblock.inodeMapPlace, Superblock.tablePlace] at *
      omega

theorem zoneMapBit_apply (hv : u.Valid sb) (hf : sb.Fits img.size) {n : Nat}
    (hn : n < 8192 * sb.zoneMapBlocks.toNat) :
    (u.apply sb img).bit (8 * sb.zoneMapPlace + n) =
      u.onZoneBit sb n (img.bit (8 * sb.zoneMapPlace + n)) := by
  have region := hv.within hf
  have fits := hv.end_le hf
  cases u with
  | inodeBit k used =>
      apply bit_apply_of_outside hv hf
      simp only [Within, length] at *
      omega
  | zoneBit z used =>
      simp only [place, length] at fits
      rw [apply, onZoneBit, Buffer.bit_setBit (by omega)]
      by_cases e : n = sb.zoneNumber z
      · rw [if_pos (by rw [e]), if_pos e]
      · rw [if_neg (by omega), if_neg e]
  | inode k ip =>
      apply bit_apply_of_outside hv hf
      simp only [Within, Superblock.zoneMapPlace, Superblock.tablePlace] at *
      omega
  | zone z data =>
      have := hf.tableEnd_le hv.1
      apply bit_apply_of_outside hv hf
      simp only [Within, Superblock.zoneMapPlace, Superblock.tablePlace] at *
      omega
  | slot z k data =>
      have := hf.tableEnd_le hv.1
      apply bit_apply_of_outside hv hf
      simp only [Within, Superblock.zoneMapPlace, Superblock.tablePlace] at *
      omega

theorem zoneUsed_apply (hv : u.Valid sb) (hf : sb.Fits img.size) {z : UInt64}
    (hz : sb.IsDataZone z) :
    Image.zoneUsed sb (u.apply sb img) z =
      u.onZoneBit sb (sb.zoneNumber z) (Image.zoneUsed sb img z) :=
  zoneMapBit_apply hv hf (hf.zoneNumber_lt hz)

theorem record_apply (hv : u.Valid sb) (hf : sb.Fits img.size) {n : Nat} (hn : sb.IsInode n) :
    Image.record sb (u.apply sb img) n = u.onRecord n (Image.record sb img n) := by
  have region := hv.within hf
  have fits := hv.end_le hf
  obtain ⟨h₁, h₂⟩ := hn
  unfold Image.record
  cases u with
  | inode k ip =>
      rw [onRecord]
      by_cases e : n = k
      · subst e
        have size : (Buffer.ofBytes ip.encode).size = 32 := by
          rw [Buffer.size_ofBytes, Inode.length_encode]
        simp only [place, length, ← size] at fits
        have self := Buffer.window_splice_self fits
        rw [size] at self
        rw [if_pos rfl]
        exact self
      · rw [if_neg e]
        apply window_apply_of_disjoint hv hf
        simp only [Within, Superblock.recordPlace, place, length] at *
        omega
  | inodeBit k used =>
      apply window_apply_of_disjoint hv hf
      simp only [Within, Superblock.recordPlace, Superblock.tablePlace, Superblock.zoneMapPlace,
        length] at *
      omega
  | zoneBit z used =>
      apply window_apply_of_disjoint hv hf
      simp only [Within, Superblock.recordPlace, length] at *
      omega
  | zone z data =>
      have := hf.tableEnd_le hv.1
      apply window_apply_of_disjoint hv hf
      simp only [Within, Superblock.recordPlace] at *
      omega
  | slot z k data =>
      have := hf.tableEnd_le hv.1
      apply window_apply_of_disjoint hv hf
      simp only [Within, Superblock.recordPlace] at *
      omega

theorem zone_apply (hv : u.Valid sb) (hf : sb.Fits img.size) {z : UInt64}
    (hz : sb.IsDataZone z) :
    Image.zone sb (u.apply sb img) z = u.onZone sb z (Image.zone sb img z) := by
  have region := hv.within hf
  have fits := hv.end_le hf
  have table := hf.tableEnd_le hz
  unfold Image.zone
  cases u with
  | inodeBit k used =>
      apply window_apply_of_disjoint hv hf
      simp only [Within, Superblock.tablePlace, Superblock.zoneMapPlace, length] at *
      omega
  | zoneBit z' used =>
      apply window_apply_of_disjoint hv hf
      simp only [Within, length] at *
      omega
  | inode k ip =>
      apply window_apply_of_disjoint hv hf
      simp only [Within, length] at *
      omega
  | zone z' data =>
      rw [onZone]
      by_cases e : z = z'
      · subst e
        simp only [place, length, ← hv.2] at fits
        have self := Buffer.window_splice_self fits
        rw [hv.2] at self
        rw [if_pos rfl]
        exact self
      · rw [if_neg e]
        have apart := hf.zones_apart hz hv.1 e
        apply window_apply_of_disjoint hv hf
        simp only [place, length]
        omega
  | slot z' k data =>
      rw [onZone]
      simp only [Within] at region
      by_cases e : z = z'
      · subst e
        simp only [place, Superblock.slotPlace] at region
        rw [if_pos rfl, apply, Superblock.slotPlace,
          Buffer.window_splice_within (hf.zoneEnd_le hz) (by omega)
            (by rw [hv.2.2]; exact region.2), Nat.add_sub_cancel_left]
      · rw [if_neg e]
        have apart := hf.zones_apart hz hv.1 e
        apply window_apply_of_disjoint hv hf
        simp only [length]
        omega

section Sequences

variable {us : List Update}

theorem size_applyAll (hv : ∀ u ∈ us, u.Valid sb) (hf : sb.Fits img.size) :
    (applyAll sb img us).size = img.size := by
  induction us generalizing img with
  | nil => rfl
  | cons u us ih =>
      have hu := hv u List.mem_cons_self
      have size := size_apply hu hf
      have rest := ih (fun w hw => hv w (List.mem_cons_of_mem _ hw)) (size ▸ hf)
      exact rest.trans size

theorem part_applyAll {α : Type} (part : Buffer → α) (step : α → Update → α)
    (hstep : ∀ {u : Update} {img : Buffer}, u.Valid sb → sb.Fits img.size →
      part (u.apply sb img) = step (part img) u)
    (hv : ∀ u ∈ us, u.Valid sb) (hf : sb.Fits img.size) :
    part (applyAll sb img us) = us.foldl step (part img) := by
  induction us generalizing img with
  | nil => rfl
  | cons u us ih =>
      have hu := hv u List.mem_cons_self
      rw [List.foldl_cons, ← hstep hu hf]
      exact ih (fun w hw => hv w (List.mem_cons_of_mem _ hw)) ((size_apply hu hf) ▸ hf)

theorem inodeUsed_applyAll (hv : ∀ u ∈ us, u.Valid sb) (hf : sb.Fits img.size) {n : Nat}
    (hn : n < 8192 * sb.inodeMapBlocks.toNat) :
    Image.inodeUsed sb (applyAll sb img us) n =
      us.foldl (fun old u => u.onInodeBit n old) (Image.inodeUsed sb img n) :=
  part_applyAll (fun img => Image.inodeUsed sb img n) _
    (fun hu hf => inodeUsed_apply hu hf hn) hv hf

theorem zoneMapBit_applyAll (hv : ∀ u ∈ us, u.Valid sb) (hf : sb.Fits img.size) {n : Nat}
    (hn : n < 8192 * sb.zoneMapBlocks.toNat) :
    (applyAll sb img us).bit (8 * sb.zoneMapPlace + n) =
      us.foldl (fun old u => u.onZoneBit sb n old) (img.bit (8 * sb.zoneMapPlace + n)) :=
  part_applyAll (fun img => img.bit (8 * sb.zoneMapPlace + n)) _
    (fun hu hf => zoneMapBit_apply hu hf hn) hv hf

theorem record_applyAll (hv : ∀ u ∈ us, u.Valid sb) (hf : sb.Fits img.size) {n : Nat}
    (hn : sb.IsInode n) :
    Image.record sb (applyAll sb img us) n =
      us.foldl (fun old u => u.onRecord n old) (Image.record sb img n) :=
  part_applyAll (fun img => Image.record sb img n) _ (fun hu hf => record_apply hu hf hn) hv hf

theorem zone_applyAll (hv : ∀ u ∈ us, u.Valid sb) (hf : sb.Fits img.size) {z : UInt64}
    (hz : sb.IsDataZone z) :
    Image.zone sb (applyAll sb img us) z =
      us.foldl (fun old u => u.onZone sb z old) (Image.zone sb img z) :=
  part_applyAll (fun img => Image.zone sb img z) _ (fun hu hf => zone_apply hu hf hz) hv hf

theorem getElem?_applyAll_of_outside (hv : ∀ u ∈ us, u.Valid sb) (hf : sb.Fits img.size)
    {k : Nat} (outside : ∀ u ∈ us, k < u.place sb ∨ u.place sb + u.length sb ≤ k) :
    (applyAll sb img us).data[k]? = img.data[k]? := by
  induction us generalizing img with
  | nil => rfl
  | cons u us ih =>
      have hu := hv u List.mem_cons_self
      have rest := ih (fun w hw => hv w (List.mem_cons_of_mem _ hw)) ((size_apply hu hf) ▸ hf)
        fun w hw => outside w (List.mem_cons_of_mem _ hw)
      exact rest.trans (getElem?_apply_of_outside hu hf (outside u List.mem_cons_self))

end Sequences

end Update

end MinixVolume

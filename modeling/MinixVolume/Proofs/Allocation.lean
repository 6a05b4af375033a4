import MinixVolume.Proofs.Bitmap

namespace MinixVolume

inductive Pool where
  | inodes
  | zones
deriving DecidableEq, Repr

namespace Pool

section Numbers

variable (sb : Superblock)

def first : Pool → Nat
  | .inodes => 1
  | .zones => sb.firstDataZone.toNat

def blocks : Pool → UInt16
  | .inodes => sb.inodeMapBlocks
  | .zones => sb.zoneMapBlocks

def place : Pool → Nat
  | .inodes => sb.inodeMapPlace
  | .zones => sb.zoneMapPlace

def count : Pool → UInt64
  | .inodes => sb.inodes.toUInt64
  | .zones => sb.dataZones

def limit (p : Pool) : UInt64 :=
  Bitmap.reach (p.blocks sb).toUInt64 (p.count sb)

def Has (p : Pool) (n : Nat) : Prop :=
  p.first sb ≤ n ∧ n < p.first sb + (p.limit sb).toNat

def bitOf (p : Pool) (n : Nat) : Nat :=
  8 * p.place sb + (n + 1 - p.first sb)

def used (p : Pool) (img : Buffer) (n : Nat) : Bool :=
  img.bit (p.bitOf sb n)

def AllUsed (p : Pool) (img : Buffer) : Prop :=
  ∀ n, p.Has sb n → p.used sb img n = true

structure LeastFree (p : Pool) (img : Buffer) (n : Nat) : Prop where
  has : p.Has sb n
  free : p.used sb img n = false
  below : ∀ k, p.Has sb k → k < n → p.used sb img k = true

def shortage : Pool → Error
  | .inodes => .noFreeInode (Pool.inodes.limit sb)
  | .zones => .noFreeZone (Pool.zones.limit sb)

def Promises : Pool → UInt64 → Prop
  | .inodes, n => sb.IsInode n.toNat
  | .zones, z => sb.IsDataZone z

end Numbers

variable {sb : Superblock} {p : Pool}

theorem limit_le (sb : Superblock) (p : Pool) : (p.limit sb).toNat ≤ (p.count sb).toNat := by
  have few := (p.blocks sb).toNat_lt
  have blocks := UInt16.toNat_toUInt64 (p.blocks sb)
  rcases Nat.eq_zero_or_pos (p.blocks sb).toNat with zero | pos
  · have none : (p.blocks sb).toUInt64 = 0 := UInt64.toNat.inj (blocks.trans zero)
    rw [limit, none]
    exact Nat.zero_le _
  · exact (Bitmap.reach_lt (by omega) (by omega) _).1

theorem Has.limit_pos {n : Nat} (h : p.Has sb n) : 0 < (p.limit sb).toNat := by
  have := h.1
  have := h.2
  omega

theorem blocks_pos (h : 0 < (p.limit sb).toNat) : 0 < (p.blocks sb).toNat := by
  refine Nat.pos_of_ne_zero fun zero => ?_
  have none : (p.blocks sb).toUInt64 = 0 :=
    UInt64.toNat.inj ((UInt16.toNat_toUInt64 _).trans zero)
  rw [limit, none] at h
  exact absurd h (Nat.lt_irrefl 0)

theorem limit_lt (h : 0 < (p.blocks sb).toNat) :
    (p.limit sb).toNat < 8192 * (p.blocks sb).toNat := by
  have few := (p.blocks sb).toNat_lt
  have blocks := UInt16.toNat_toUInt64 (p.blocks sb)
  have lt : (p.limit sb).toNat < 8192 * (p.blocks sb).toUInt64.toNat :=
    (Bitmap.reach_lt (by omega) (by omega) _).2
  omega

theorem Has.promised {n : UInt64} (h : p.Has sb n.toNat) :
    p.Promises sb n ∧ n.toNat < 65536 := by
  have le := limit_le sb p
  obtain ⟨ge, lt⟩ := h
  cases p with
  | inodes =>
      have count := UInt16.toNat_toUInt64 sb.inodes
      have := sb.inodes.toNat_lt
      simp only [first, Pool.count] at ge lt le
      exact ⟨⟨ge, by omega⟩, by omega⟩
  | zones =>
      have count := sb.toNat_dataZones
      have := sb.zones.toNat_lt
      simp only [first, Pool.count] at ge lt le
      exact ⟨⟨ge, by omega⟩, by omega⟩

theorem bitOf_bounds {n : Nat} (h : p.Has sb n) :
    p.place sb ≤ p.bitOf sb n / 8 ∧
      p.bitOf sb n / 8 < p.place sb + 1024 * (p.blocks sb).toNat := by
  have lt := limit_lt (blocks_pos h.limit_pos)
  have := h.1
  have := h.2
  rw [bitOf]
  omega

theorem mapEnd_le (sb : Superblock) (p : Pool) :
    p.place sb + 1024 * (p.blocks sb).toNat ≤ sb.tablePlace := by
  cases p with
  | inodes =>
      simp only [place, blocks, Superblock.inodeMapPlace, Superblock.tablePlace]
      omega
  | zones =>
      simp only [place, blocks, Superblock.zoneMapPlace, Superblock.tablePlace]
      omega

theorem bitOf_inj {q : Pool} {n k : Nat} (hn : p.Has sb n) (hk : q.Has sb k)
    (h : p.bitOf sb n = q.bitOf sb k) : p = q ∧ n = k := by
  have boundsN := bitOf_bounds hn
  have boundsK := bitOf_bounds hk
  have same (e : p = q) : p = q ∧ n = k := by
    subst e
    have := hn.1
    have := hk.1
    rw [bitOf, bitOf] at h
    exact ⟨rfl, by omega⟩
  rw [h] at boundsN
  cases p <;> cases q
  · exact same rfl
  · simp only [place, blocks, Superblock.inodeMapPlace, Superblock.zoneMapPlace] at boundsN boundsK
    omega
  · simp only [place, blocks, Superblock.inodeMapPlace, Superblock.zoneMapPlace] at boundsN boundsK
    omega
  · exact same rfl

section Maps

variable {δ : Type} [Disk δ] [ImageDisk δ] {m : Mount δ} {steady : Prop} {s : Scene}

def start (sb : Superblock) : Pool → UInt64
  | .inodes => sb.inodeMapStart
  | .zones => sb.zoneMapStart

theorem toNat_start (sb : Superblock) (p : Pool) :
    (p.start sb * blockSize).toNat = p.place sb := by
  cases p with
  | inodes => exact sb.toNat_inodeMapOffset
  | zones => exact sb.toNat_zoneMapOffset

theorem ends_load (h : m.Shows steady s) (room : sb.tablePlace ≤ s.image.size) (p : Pool) :
    Mount.Ends (Bitmap.load (p.start sb) (p.blocks sb).toUInt64 (p.count sb)) m
      (fun bm m' => bm.max = p.limit sb ∧
        (0 < (p.blocks sb).toNat →
          bm.Covers s.image (p.place sb) (1024 * (p.blocks sb).toNat)) ∧ m'.Shows steady s)
      (fun t m' => Mishap steady 0 t ∧ m'.Shows steady s) := by
  have few := (p.blocks sb).toNat_lt
  have count := UInt16.toNat_toUInt64 (p.blocks sb)
  have fits := mapEnd_le sb p
  have load := Bitmap.ends_load h (p.start sb) (p.blocks sb).toUInt64 (p.count sb)
    (toNat_start sb p) (by omega) (by omega)
  rw [count] at load
  exact load

theorem has_number {k : Nat} (pos : 1 ≤ k) (le : k ≤ (p.limit sb).toNat) :
    p.Has sb (p.first sb + k - 1) ∧ p.bitOf sb (p.first sb + k - 1) = 8 * p.place sb + k := by
  rw [bitOf]
  exact ⟨⟨by omega, by omega⟩, by omega⟩

theorem ends_claim (h : m.Shows steady s) {bm : Bitmap} (max : bm.max = p.limit sb)
    (covers : 0 < (p.blocks sb).toNat →
      bm.Covers s.image (p.place sb) (1024 * (p.blocks sb).toNat)) :
    Mount.Ends bm.claim m
      (fun r m' => (r = none ∧ p.AllUsed sb s.image ∧ m'.Shows steady s) ∨
        ∃ k n, r = some k ∧ 1 ≤ k.toNat ∧ k.toNat ≤ (p.limit sb).toNat ∧
          n = p.first sb + k.toNat - 1 ∧ p.LeastFree sb s.image n ∧
          m'.Shows steady { s with image := s.image.setBit (p.bitOf sb n) true })
      (fun t m' => Mishap steady 0 t ∧ m'.Shows steady s) := by
  rcases Nat.eq_zero_or_pos (p.blocks sb).toNat with zero | pos
  · -- a map of no blocks has no numbers
    have none : p.limit sb = 0 := by
      rw [limit, show (p.blocks sb).toUInt64 = 0 from
        UInt64.toNat.inj ((UInt16.toNat_toUInt64 _).trans zero), Bitmap.reach_zero]
    have search : bm.findFree = .ok Option.none := by
      rw [Bitmap.findFree, Bitmap.findFrom, max, none, if_neg (by decide)]
      rfl
    have run : Mount.exec bm.claim m = (.ok Option.none, m) := by
      simp [Bitmap.claim, Bitmap.search, search]
    refine Mount.Ends.of_exec run (.inl ⟨rfl, fun n has => ?_, h⟩)
    have pos := has.limit_pos
    rw [none] at pos
    exact absurd pos (by decide)
  · refine (Bitmap.ends_claim h (covers pos)).imp ?_
    rw [max]
    rintro r m' (⟨rfl, full, h'⟩ | ⟨k, rfl, least, h'⟩)
    · refine .inl ⟨rfl, fun n has => ?_, h'⟩
      have := has.1
      have := has.2
      exact full (n + 1 - p.first sb) (by omega) (by omega)
    · obtain ⟨has, place⟩ := has_number least.pos least.le_max
      refine .inr ⟨k, _, rfl, least.pos, least.le_max, rfl, ⟨has, ?_, ?_⟩, ?_⟩
      · rw [used, place]
        exact least.free
      · intro j hj lt
        have := hj.1
        exact least.below (j + 1 - p.first sb) (by omega) (by omega)
      · rw [place]
        exact h'

theorem ends_release (h : m.Shows steady s) {bm : Bitmap}
    (covers : 0 < (p.blocks sb).toNat →
      bm.Covers s.image (p.place sb) (1024 * (p.blocks sb).toNat)) {n : Nat} (has : p.Has sb n)
    {k : UInt64} (bit : k.toNat = n + 1 - p.first sb) :
    Mount.Ends (bm.release k) m
      (fun _ m' => m'.Shows steady { s with image := s.image.setBit (p.bitOf sb n) false })
      (fun t m' => Mishap steady 0 t ∧ m'.Shows steady s) := by
  have pos := blocks_pos has.limit_pos
  have lt := limit_lt pos
  have := has.1
  have := has.2
  have release := Bitmap.ends_release h (covers pos) (k := k) (by omega)
  rw [bit] at release
  exact release

theorem ends_allocateInode (h : m.Shows steady s) (room : sb.tablePlace ≤ s.image.size) :
    Mount.Ends sb.allocateInode m
      (fun n m' => Pool.inodes.LeastFree sb s.image n.toNat ∧
        m'.Shows steady { s with image := s.image.setBit (Pool.inodes.bitOf sb n.toNat) true })
      (fun t m' => m'.Shows steady s ∧ (Mishap steady 0 t ∨
        t = .error (Pool.inodes.shortage sb) ∧ Pool.inodes.AllUsed sb s.image)) := by
  refine Mount.Ends.bind (ends_load h room .inodes) ?_ fun _ _ stop => ⟨stop.2, .inl stop.1⟩
  rintro bm m₁ ⟨max, covers, h₁⟩
  refine Mount.Ends.bind (ends_claim h₁ max covers) ?_ fun _ _ stop => ⟨stop.2, .inl stop.1⟩
  rintro r m₂ (⟨rfl, full, h₂⟩ | ⟨k, n, rfl, pos, -, number, least, h₂⟩)
  · exact Mount.Ends.fail ⟨h₂, .inr ⟨by rw [max]; rfl, full⟩⟩
  · refine Mount.Ends.next (Mount.ends_trace h₂ _) ?_
    intro _ m₃ h₃
    have same : n = k.toNat := by
      rw [number, first]
      omega
    rw [same] at least h₃
    exact Mount.Ends.pure ⟨least, h₃⟩

theorem ends_allocateZone (h : m.Shows steady s) (room : sb.tablePlace ≤ s.image.size) :
    Mount.Ends sb.allocateZone m
      (fun z m' => Pool.zones.LeastFree sb s.image z.toNat ∧
        m'.Shows steady { s with image := s.image.setBit (Pool.zones.bitOf sb z.toNat) true })
      (fun t m' => m'.Shows steady s ∧ (Mishap steady 0 t ∨
        t = .error (Pool.zones.shortage sb) ∧ Pool.zones.AllUsed sb s.image)) := by
  refine Mount.Ends.bind (ends_load h room .zones) ?_ fun _ _ stop => ⟨stop.2, .inl stop.1⟩
  rintro bm m₁ ⟨max, covers, h₁⟩
  refine Mount.Ends.bind (ends_claim h₁ max covers) ?_ fun _ _ stop => ⟨stop.2, .inl stop.1⟩
  rintro r m₂ (⟨rfl, full, h₂⟩ | ⟨k, n, rfl, pos, le, number, least, h₂⟩)
  · exact Mount.Ends.fail ⟨h₂, .inr ⟨by rw [max]; rfl, full⟩⟩
  · refine Mount.Ends.next (Mount.ends_trace h₂ _) ?_
    intro _ m₃ h₃
    have few := limit_le sb .zones
    have zones := sb.toNat_dataZones
    have := sb.zones.toNat_lt
    have := sb.firstDataZone.toNat_lt
    have := UInt16.toNat_toUInt64 sb.firstDataZone
    have one : (1 : UInt64).toNat = 1 := rfl
    rw [count] at few
    have sum : (k + sb.firstDataZone.toUInt64).toNat = k.toNat + sb.firstDataZone.toNat := by
      rw [UInt64.toNat_add]
      omega
    have same : n = (k + sb.firstDataZone.toUInt64 - 1).toNat := by
      rw [number, first, UInt64.toNat_sub_of_le _ _ (by rw [UInt64.le_iff_toNat_le]; omega), sum,
        one]
      omega
    rw [same] at least h₃
    exact Mount.Ends.pure ⟨least, h₃⟩

theorem ends_freeInode (h : m.Shows steady s) (room : sb.tablePlace ≤ s.image.size) {n : UInt64}
    (has : Pool.inodes.Has sb n.toNat) :
    Mount.Ends (sb.freeInode n) m
      (fun _ m' => m'.Shows steady
        { s with image := s.image.setBit (Pool.inodes.bitOf sb n.toNat) false })
      (fun t m' => Mishap steady 0 t ∧ m'.Shows steady s) := by
  have ge : 1 ≤ n.toNat := has.1
  have nonzero : n ≠ 0 := by
    rintro rfl
    exact absurd ge (by decide)
  rw [Superblock.freeInode, if_neg nonzero]
  refine Mount.Ends.next (ends_load h room .inodes) ?_
  rintro bm m₁ ⟨-, covers, h₁⟩
  exact ends_release h₁ covers has (by rw [first]; omega)

theorem ends_freeZone (h : m.Shows steady s) (room : sb.tablePlace ≤ s.image.size) {z : UInt64}
    (has : Pool.zones.Has sb z.toNat) :
    Mount.Ends (sb.freeZone z) m
      (fun _ m' => m'.Shows steady
        { s with image := s.image.setBit (Pool.zones.bitOf sb z.toNat) false })
      (fun t m' => Mishap steady 0 t ∧ m'.Shows steady s) := by
  have wide := has.promised.2
  have zone := UInt16.toNat_toUInt64 sb.firstDataZone
  have ge : sb.firstDataZone.toNat ≤ z.toNat := has.1
  have one : (1 : UInt64).toNat = 1 := rfl
  have bit : (z - sb.firstDataZone.toUInt64 + 1).toNat = z.toNat + 1 - sb.firstDataZone.toNat := by
    rw [UInt64.toNat_add, UInt64.toNat_sub_of_le _ _ (by rw [UInt64.le_iff_toNat_le]; omega),
      zone, one]
    omega
  rw [Superblock.freeZone, if_neg (by rw [UInt64.lt_iff_toNat_lt]; omega)]
  refine Mount.Ends.next (ends_load h room .zones) ?_
  rintro bm m₁ ⟨-, covers, h₁⟩
  exact ends_release h₁ covers has bit

end Maps

end Pool

namespace Superblock

variable {δ : Type} [Disk δ] [ImageDisk δ] {m : Mount δ} {steady : Prop} {s : Scene}
  {sb : Superblock}

namespace Fits

variable {size : Nat} (hf : sb.Fits size)
include hf

theorem limit_eq (p : Pool) : p.limit sb = p.count sb := by
  have few := (p.blocks sb).toNat_lt
  have blocks := UInt16.toNat_toUInt64 (p.blocks sb)
  refine Bitmap.reach_eq (by omega) ?_
  rw [blocks]
  cases p with
  | inodes => exact hf.inodes_lt
  | zones => exact hf.dataZones_lt

theorem blocks_pos (p : Pool) : 0 < (p.blocks sb).toNat := by
  cases p with
  | inodes =>
      have lt := hf.inodes_lt
      rw [Pool.blocks]
      omega
  | zones =>
      have lt := hf.dataZones_lt
      rw [Pool.blocks]
      omega

theorem has_inodes {n : Nat} : Pool.inodes.Has sb n ↔ sb.IsInode n := by
  have count := UInt16.toNat_toUInt64 sb.inodes
  rw [Pool.Has, hf.limit_eq, Pool.first, Pool.count, IsInode]
  omega

theorem has_zones {z : UInt64} : Pool.zones.Has sb z.toNat ↔ sb.IsDataZone z := by
  have count := toNat_dataZones sb
  have le := hf.firstDataZone_le
  rw [Pool.Has, hf.limit_eq, Pool.first, Pool.count, IsDataZone]
  omega

theorem tablePlace_le : sb.tablePlace ≤ size := by
  have table := hf.tableEnd_le_size
  omega

end Fits

theorem bitOf_zone {z : UInt64} (hz : sb.IsDataZone z) :
    Pool.zones.bitOf sb z.toNat = 8 * sb.zoneMapPlace + sb.zoneNumber z := by
  have ge := hz.1
  rw [Pool.bitOf, Pool.first, Pool.place, zoneNumber]
  omega

theorem used_zone {img : Buffer} {z : UInt64} (hz : sb.IsDataZone z) :
    Pool.zones.used sb img z.toNat = Image.zoneUsed sb img z := by
  rw [Pool.used, bitOf_zone hz, Image.zoneUsed]

theorem ends_loadMap (h : m.Shows steady s) (hf : sb.Fits s.image.size) (p : Pool) :
    Mount.Ends (Bitmap.load (p.start sb) (p.blocks sb).toUInt64 (p.count sb)) m
      (fun bm m' => bm.max = p.count sb ∧
        bm.Covers s.image (p.place sb) (1024 * (p.blocks sb).toNat) ∧ m'.Shows steady s)
      (fun t m' => Mishap steady 0 t ∧ m'.Shows steady s) := by
  refine (Pool.ends_load h hf.tablePlace_le p).imp ?_
  rintro bm m' ⟨max, covers, h'⟩
  exact ⟨max.trans (hf.limit_eq p), covers (hf.blocks_pos p), h'⟩

theorem ends_loadInodeMap (h : m.Shows steady s) (hf : sb.Fits s.image.size) :
    Mount.Ends sb.loadInodeMap m
      (fun bm m' => bm.max = sb.inodes.toUInt64 ∧
        bm.Covers s.image sb.inodeMapPlace (1024 * sb.inodeMapBlocks.toNat) ∧ m'.Shows steady s)
      (fun t m' => Mishap steady 0 t ∧ m'.Shows steady s) :=
  ends_loadMap h hf .inodes

theorem ends_loadZoneMap (h : m.Shows steady s) (hf : sb.Fits s.image.size) :
    Mount.Ends sb.loadZoneMap m
      (fun bm m' => bm.max = sb.dataZones ∧
        bm.Covers s.image sb.zoneMapPlace (1024 * sb.zoneMapBlocks.toNat) ∧ m'.Shows steady s)
      (fun t m' => Mishap steady 0 t ∧ m'.Shows steady s) :=
  ends_loadMap h hf .zones

theorem ends_allocateInode (h : m.Shows steady s) (hf : sb.Fits s.image.size) :
    Mount.Ends sb.allocateInode m
      (fun i m' => sb.IsInode i.toNat ∧ Image.inodeUsed sb s.image i.toNat = false ∧
        (∀ j, 1 ≤ j → j < i.toNat → Image.inodeUsed sb s.image j = true) ∧
        m'.Shows steady
          { s with image := (Update.inodeBit i.toNat true).apply sb s.image })
      (fun t m' => m'.Shows steady s ∧ (Mishap steady 0 t ∨
        t = .error (.noFreeInode sb.inodes.toUInt64) ∧
          ∀ j, sb.IsInode j → Image.inodeUsed sb s.image j = true)) := by
  refine (Pool.ends_allocateInode h hf.tablePlace_le).mono ?_ ?_
  · rintro i m' ⟨least, h'⟩
    refine ⟨hf.has_inodes.mp least.has, least.free, fun j pos lt => ?_, h'⟩
    have upper := least.has.2
    exact least.below j ⟨pos, by omega⟩ lt
  · rintro t m' ⟨h', stop | ⟨rfl, full⟩⟩
    · exact ⟨h', .inl stop⟩
    · rw [Pool.shortage, hf.limit_eq]
      exact ⟨h', .inr ⟨rfl, fun j hj => full j (hf.has_inodes.mpr hj)⟩⟩

theorem ends_allocateZone (h : m.Shows steady s) (hf : sb.Fits s.image.size) :
    Mount.Ends sb.allocateZone m
      (fun z m' => sb.IsDataZone z ∧ Image.zoneUsed sb s.image z = false ∧
        (∀ z', sb.IsDataZone z' → z'.toNat < z.toNat → Image.zoneUsed sb s.image z' = true) ∧
        m'.Shows steady { s with image := (Update.zoneBit z true).apply sb s.image })
      (fun t m' => m'.Shows steady s ∧ (Mishap steady 0 t ∨
        t = .error (.noFreeZone sb.dataZones) ∧
          ∀ z, sb.IsDataZone z → Image.zoneUsed sb s.image z = true)) := by
  refine (Pool.ends_allocateZone h hf.tablePlace_le).mono ?_ ?_
  · rintro z m' ⟨least, h'⟩
    have hz := hf.has_zones.mp least.has
    rw [bitOf_zone hz] at h'
    refine ⟨hz, (used_zone hz).symm.trans least.free, fun z' hz' lt => ?_, h'⟩
    exact (used_zone hz').symm.trans (least.below _ (hf.has_zones.mpr hz') lt)
  · rintro t m' ⟨h', stop | ⟨rfl, full⟩⟩
    · exact ⟨h', .inl stop⟩
    · rw [Pool.shortage, hf.limit_eq]
      refine ⟨h', .inr ⟨rfl, fun z hz => ?_⟩⟩
      exact (used_zone hz).symm.trans (full _ (hf.has_zones.mpr hz))

theorem ends_freeInode (h : m.Shows steady s) (hf : sb.Fits s.image.size) {i : UInt64}
    (hi : sb.IsInode i.toNat) :
    Mount.Ends (sb.freeInode i) m
      (fun _ m' => m'.Shows steady
        { s with image := (Update.inodeBit i.toNat false).apply sb s.image })
      (fun t m' => Mishap steady 0 t ∧ m'.Shows steady s) :=
  Pool.ends_freeInode h hf.tablePlace_le (hf.has_inodes.mpr hi)

theorem ends_freeZone (h : m.Shows steady s) (hf : sb.Fits s.image.size) {z : UInt64}
    (hz : sb.IsDataZone z) :
    Mount.Ends (sb.freeZone z) m
      (fun _ m' => m'.Shows steady
        { s with image := (Update.zoneBit z false).apply sb s.image })
      (fun t m' => Mishap steady 0 t ∧ m'.Shows steady s) := by
  have free := Pool.ends_freeZone h hf.tablePlace_le (hf.has_zones.mpr hz)
  rw [bitOf_zone hz] at free
  exact free

end Superblock

end MinixVolume

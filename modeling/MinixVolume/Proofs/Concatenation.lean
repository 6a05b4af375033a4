import MinixVolume.Proofs.Content

namespace MinixVolume

namespace Content

section

variable (sb : Superblock) (img : Buffer) (zones : List UInt64)

/-- Byte after byte, the buffer is what the zones hold, one behind the other. -/
def Drawn (got : Buffer) : Prop :=
  ∀ k, k < got.size → ∃ z, zones[k / sb.zoneSize.toNat]? = some z ∧
    got.data[k]? = img.data[sb.zonePlace z + k % sb.zoneSize.toNat]?

/-- What a file of that size takes of zone number `i` among its zones lies inside the image. -/
def Within (size i : Nat) : Prop :=
  ∀ z, zones[i]? = some z → i * sb.zoneSize.toNat < size →
    sb.zonePlace z + min sb.zoneSize.toNat (size - i * sb.zoneSize.toNat) ≤ img.size

def concatenation : Buffer :=
  zones.foldl (fun got z => got ++ Image.zone sb img z) .empty

end

variable {sb : Superblock} {img : Buffer} {zones : List UInt64} {got : Buffer}

theorem drawn_empty : Drawn sb img zones .empty :=
  fun k lt => absurd lt (Nat.not_lt_zero k)

namespace Drawn

theorem append (h : Drawn sb img zones got) {count : Nat}
    (filled : got.size = count * sb.zoneSize.toNat) {z : UInt64}
    (there : zones[count]? = some z) {n : Nat} (le : n ≤ sb.zoneSize.toNat)
    (inside : sb.zonePlace z + n ≤ img.size) :
    Drawn sb img zones (got ++ img.window (sb.zonePlace z) n) := by
  have length : got.data.size = got.size := ByteArray.size_data
  intro k lt
  rw [ByteArray.size_append, Buffer.size_window inside] at lt
  rw [ByteArray.data_append, Array.getElem?_append, length]
  by_cases old : k < got.size
  · rw [if_pos old]
    exact h k old
  · obtain ⟨j, rfl⟩ := Nat.exists_eq_add_of_le (Nat.le_of_not_lt old)
    have small : j < sb.zoneSize.toNat := by omega
    have index : (got.size + j) / sb.zoneSize.toNat = count := by
      rw [filled, Nat.mul_comm, Nat.mul_add_div (by omega), Nat.div_eq_of_lt small, Nat.add_zero]
    have rest : (got.size + j) % sb.zoneSize.toNat = j := by
      rw [filled, Nat.mul_comm, Nat.mul_add_mod, Nat.mod_eq_of_lt small]
    rw [if_neg old, index, rest, Nat.add_sub_cancel_left, Buffer.getElem?_window,
      if_pos (by omega)]
    exact ⟨z, there, rfl⟩

theorem cut (h : Drawn sb img zones got) (size : Nat) :
    Drawn sb img zones (got.window 0 size) := by
  intro k lt
  rw [Buffer.window, ByteArray.size_extract] at lt
  rw [Buffer.getElem?_window, if_pos (by omega), Nat.zero_add]
  exact h k (by omega)

theorem unique {got' : Buffer} (h : Drawn sb img zones got) (h' : Drawn sb img zones got')
    (same : got.size = got'.size) : got = got' := by
  have length : got.data.size = got.size := ByteArray.size_data
  have length' : got'.data.size = got'.size := ByteArray.size_data
  apply Buffer.ext_getElem?
  intro k
  by_cases lt : k < got.size
  · obtain ⟨z, there, byte⟩ := h k lt
    obtain ⟨z', there', byte'⟩ := h' k (same ▸ lt)
    rw [there] at there'
    cases there'
    rw [byte, byte']
  · rw [Array.getElem?_eq_none (by omega), Array.getElem?_eq_none (by omega)]

end Drawn

theorem getElem?_of_drop {z : UInt64} {rest : List UInt64} {count : Nat}
    (split : zones.drop count = z :: rest) :
    zones[count]? = some z ∧ zones.drop (count + 1) = rest := by
  rw [← List.head?_drop, ← List.tail_drop, split]
  exact ⟨rfl, rfl⟩

theorem drawn_foldl {rest : List UInt64} {count : Nat} (split : zones.drop count = rest)
    (inside : ∀ z ∈ rest, sb.zonePlace z + sb.zoneSize.toNat ≤ img.size)
    (filled : got.size = count * sb.zoneSize.toNat) (h : Drawn sb img zones got) :
    (rest.foldl (fun got z => got ++ Image.zone sb img z) got).size
        = (count + rest.length) * sb.zoneSize.toNat ∧
      Drawn sb img zones (rest.foldl (fun got z => got ++ Image.zone sb img z) got) := by
  induction rest generalizing count got with
  | nil => exact ⟨filled, h⟩
  | cons z rest ih =>
      rw [List.forall_mem_cons] at inside
      obtain ⟨there, later⟩ := getElem?_of_drop split
      have longer : (got ++ Image.zone sb img z).size = (count + 1) * sb.zoneSize.toNat := by
        rw [ByteArray.size_append, Image.zone, Buffer.size_window inside.1, filled, Nat.succ_mul]
      rw [List.length_cons, Nat.add_comm rest.length, ← Nat.add_assoc]
      exact ih later inside.2 longer (h.append filled there (Nat.le_refl _) inside.1)

theorem drawn_concatenation
    (inside : ∀ z ∈ zones, sb.zonePlace z + sb.zoneSize.toNat ≤ img.size) :
    (concatenation sb img zones).size = zones.length * sb.zoneSize.toNat ∧
      Drawn sb img zones (concatenation sb img zones) := by
  have filled := drawn_foldl (show zones.drop 0 = zones from rfl) inside
    (show _ = 0 * sb.zoneSize.toNat by simp) drawn_empty
  rwa [Nat.zero_add] at filled

variable {δ : Type} [Disk δ] [ImageDisk δ] [ExactDisk δ] {m : Mount δ} {s : Scene}

theorem ends_readPart (h : m.Shows True s) (z : UInt64) {n : UInt64}
    (small : n.toNat ≤ Word.largestBuffer.toNat) :
    Mount.Ends (Mount.wrapping (.during .read (.zone z)) (Mount.readAt (sb.zoneOffset z) n)) m
      (fun b m' => sb.zonePlace z + n.toNat ≤ s.image.size ∧
        b = s.image.window (sb.zonePlace z) n.toNat ∧ m'.Shows True s)
      (fun t m' => s.image.size < sb.zonePlace z + n.toNat ∧
        (∃ e : Error, t = .error e ∧ e.kinds = [.unexpectedEnd]) ∧ m'.Shows True s) := by
  refine Mount.Ends.wrapping (Mount.ends_readAt_exact h (sb.zoneOffset z) small) ?_ ?_
  · rintro _ m' ⟨beyond, ⟨e, ⟨⟩, kinds⟩, h'⟩
    exact ⟨beyond, ⟨_, rfl, kinds⟩, h'⟩
  · rintro _ _ ⟨-, ⟨_, ⟨⟩, -⟩, -⟩

theorem toNat_asked {size : UInt64} {count : Nat} (more : got.size < size.toNat)
    (exactly : got.size = count * sb.zoneSize.toNat) :
    (Word.smaller sb.zoneSize (size - UInt64.ofNat got.size)).toNat
      = min sb.zoneSize.toNat (size.toNat - count * sb.zoneSize.toNat) := by
  have filled := Word.toNat_ofNat_of_le (Nat.le_of_lt more)
  rw [Word.toNat_smaller, UInt64.toNat_sub_of_le _ _
    (by rw [UInt64.le_iff_toNat_le, filled]; exact Nat.le_of_lt more), filled, exactly]

theorem ends_gather_drawn (h : m.Shows True s) {rest : List UInt64} {count : Nat}
    (split : zones.drop count = rest) {size : UInt64}
    (small : size.toNat ≤ Word.largestBuffer.toNat)
    (length : got.size = min size.toNat (count * sb.zoneSize.toNat))
    (drawn : Drawn sb s.image zones got) :
    Mount.Ends (gather sb size got rest) m
      (fun b m' => (∀ i, count ≤ i → Within sb s.image zones size.toNat i) ∧
        b.size = min size.toNat ((count + rest.length) * sb.zoneSize.toNat) ∧
        Drawn sb s.image zones b ∧ m'.Shows True s)
      (fun t m' => (∃ i, ¬ Within sb s.image zones size.toNat i) ∧
        (∃ e : Error, t = .error e ∧ e.kinds = [.unexpectedEnd]) ∧ m'.Shows True s) := by
  induction rest generalizing m count got with
  | nil =>
      refine Mount.Ends.pure ⟨fun i le z there => ?_, length, drawn, h⟩
      have beyond := List.drop_eq_nil_iff.mp split
      rw [List.getElem?_eq_none (by omega)] at there
      cases there
  | cons z rest ih =>
      obtain ⟨there, later⟩ := getElem?_of_drop split
      have filled := Word.toNat_ofNat_of_le (show got.size ≤ size.toNat by omega)
      rw [gather, List.length_cons, Nat.add_comm rest.length, ← Nat.add_assoc]
      by_cases full : size ≤ UInt64.ofNat got.size
      · -- all that is asked for has been read, and no later zone is looked at
        rw [if_pos full]
        rw [UInt64.le_iff_toNat_le, filled] at full
        refine Mount.Ends.pure ⟨fun i le z there more => ?_, ?_, drawn, h⟩
        · have := Nat.mul_le_mul_right sb.zoneSize.toNat le
          omega
        · have := Nat.mul_le_mul_right sb.zoneSize.toNat
            (show count ≤ count + 1 + rest.length by omega)
          omega
      rw [if_neg full]
      rw [UInt64.le_iff_toNat_le, filled, Nat.not_le] at full
      have exactly : got.size = count * sb.zoneSize.toNat := by omega
      have asked := toNat_asked full exactly
      refine Mount.Ends.bind (ends_readPart h z (by omega)) ?_ ?_
      · rintro b m₁ ⟨inside, rfl, h₁⟩
        rw [asked] at inside ⊢
        have longer : (got ++ s.image.window (sb.zonePlace z)
            (min sb.zoneSize.toNat (size.toNat - count * sb.zoneSize.toNat))).size
            = min size.toNat ((count + 1) * sb.zoneSize.toNat) := by
          rw [ByteArray.size_append, Buffer.size_window inside, Nat.succ_mul]
          omega
        refine (ih h₁ later longer (drawn.append exactly there (Nat.min_le_left _ _)
          inside)).imp ?_
        rintro b m₂ ⟨within, read⟩
        refine ⟨fun i le => ?_, read⟩
        rcases Nat.eq_or_lt_of_le le with rfl | lt
        · intro z' there' _
          rw [there] at there'
          cases there'
          exact inside
        · exact within i lt
      · rintro t m₁ ⟨beyond, stopped⟩
        rw [asked] at beyond
        refine ⟨⟨count, fun within => ?_⟩, stopped⟩
        have := within z there (by omega)
        omega

theorem read_eq_concatenation (sound : ImageDisk.Sound m.disk) (sb : Superblock) (ip : Inode) :
    ∃ r m', Mount.exec (read sb ip) m = (r, m') ∧
      ImageDisk.image m'.disk = ImageDisk.image m.disk ∧
      ((∃ b, r = .ok b) ↔ ∀ i, Within sb (ImageDisk.image m.disk) ip.zones ip.size.toNat i) ∧
      (∀ t, r = .error t → ∃ e : Error, t = .error e ∧ e.hasKind .unexpectedEnd = true) ∧
      (∀ b, r = .ok b → b.size = min ip.size.toNat (ip.zones.length * sb.zoneSize.toNat) ∧
        Drawn sb (ImageDisk.image m.disk) ip.zones b) ∧
      ((∀ z ∈ ip.zones, sb.zonePlace z + sb.zoneSize.toNat ≤ (ImageDisk.image m.disk).size) →
        r = .ok ((concatenation sb (ImageDisk.image m.disk) ip.zones).window 0 ip.size.toNat)) := by
  have size := UInt32.toNat_toUInt64 ip.size
  have small : ip.size.toUInt64.toNat ≤ Word.largestBuffer.toNat := by
    have := ip.size.toNat_lt
    have large : Word.largestBuffer.toNat = 0x1000000000000 := rfl
    omega
  have gathered := ends_gather_drawn (Mount.shows_scene sound (ExactDisk.reliable sound))
    (show ip.zones.drop 0 = ip.zones from rfl) small
    (show _ = min _ (0 * sb.zoneSize.toNat) by simp) drawn_empty
  rw [size, Nat.zero_add] at gathered
  rcases gathered.exec_eq with
    ⟨b, m', run, within, length, drawn, h'⟩ | ⟨t, m', run, ⟨i, outside⟩, ⟨e, rfl, kinds⟩, h'⟩
  · refine ⟨_, m', run, h'.image, ⟨fun _ i => within i (Nat.zero_le i), fun _ => ⟨b, rfl⟩⟩, ?_,
      ?_, fun inside => ?_⟩
    · rintro _ ⟨⟩
    · rintro _ ⟨⟩
      exact ⟨length, drawn⟩
    · obtain ⟨whole, all⟩ := drawn_concatenation inside
      rw [drawn.unique (all.cut ip.size.toNat) (by
        rw [length, Buffer.window, ByteArray.size_extract, whole]
        omega)]
  · refine ⟨_, m', run, h'.image, ⟨?_, fun within => absurd (within i) outside⟩, ?_, ?_,
      fun inside => absurd ?_ outside⟩
    · rintro ⟨_, ⟨⟩⟩
    · rintro _ ⟨⟩
      exact ⟨e, rfl, by rw [Error.hasKind, kinds]; rfl⟩
    · rintro _ ⟨⟩
    · intro z there _
      have := inside z (List.mem_of_getElem? there)
      change _ ≤ (ImageDisk.image m.disk).size
      omega

theorem read_eq_concatenation_cut :
    ∃ b m', Mount.exec (read {} { size := 1500, zone := #v[1, 0, 2, 0, 0, 0, 0, 0, 0] })
        (⟨⟨Buffer.zeros 2600⟩, {}, {}, #[]⟩ : Mount MemoryDisk) = (.ok b, m') ∧
      b.size = 1500 ∧ Drawn {} (Buffer.zeros 2600) [1, 2] b := by
  have size := Buffer.size_zeros 2600
  have sound : ImageDisk.Sound (MemoryDisk.mk (Buffer.zeros 2600)) := by
    change (Buffer.zeros 2600).size < sizeLimit
    rw [size]
    decide
  generalize Buffer.zeros 2600 = img at size sound
  have within (i : Nat) : Within {} img [1, 2] 1500 i := by
    rintro z there -
    rw [size]
    rcases i with _ | _ | i
    · cases there
      decide
    · cases there
      decide
    · cases there
  obtain ⟨r, m', run, -, succeeds, -, exactly, -⟩ := read_eq_concatenation
    (m := (⟨⟨img⟩, {}, {}, #[]⟩ : Mount MemoryDisk)) sound {}
    { size := 1500, zone := #v[1, 0, 2, 0, 0, 0, 0, 0, 0] }
  obtain ⟨b, rfl⟩ := succeeds.mpr within
  obtain ⟨length, drawn⟩ := exactly b rfl
  exact ⟨b, m', run, length, drawn⟩

end Content

end MinixVolume

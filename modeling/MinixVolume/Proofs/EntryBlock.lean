import Mathlib.Data.List.TakeWhile
import MinixVolume.Proofs.Insertion
import MinixVolume.Proofs.RoundTrip

namespace MinixVolume

namespace Bytes

def cleared (b : Bytes) : Bytes :=
  b.trimmed ++ List.replicate (b.length - b.trimmed.length) 0

theorem cleared_zero (b : Bytes) : cleared (0 :: b) = List.replicate (b.length + 1) 0 := rfl

theorem cleared_cons {x : UInt8} (h : x ≠ 0) (b : Bytes) : cleared (x :: b) = x :: b.cleared := by
  have first : trimmed (x :: b) = x :: b.trimmed := List.takeWhile_cons_of_pos (by simp [h])
  simp [cleared, first]

theorem length_cleared (b : Bytes) : b.cleared.length = b.length := by
  induction b with
  | nil => rfl
  | cons x b ih =>
      by_cases h : x = 0
      · subst h
        simp [cleared_zero]
      · simp [cleared_cons h, ih]

theorem getElem?_cleared_of_behind {b : Bytes} {j k : Nat} (nul : b[j]? = some 0) (le : j ≤ k)
    (lt : k < b.length) : b.cleared[k]? = some 0 := by
  induction b generalizing j k with
  | nil => cases lt
  | cons x b ih =>
      by_cases h : x = 0
      · -- the first NUL is here, so that nothing is left of the rest
        subst h
        exact List.getElem?_replicate_of_lt lt
      · rw [cleared_cons h]
        cases j with
        | zero => exact absurd (Option.some.inj nul) h
        | succ j =>
            cases k with
            | zero => omega
            | succ k => exact ih nul (Nat.le_of_succ_le_succ le) (Nat.lt_of_succ_lt_succ lt)

theorem getElem?_cleared_of_before {b : Bytes} {k : Nat} (plain : ∀ j, j < k → b[j]? ≠ some 0) :
    b.cleared[k]? = b[k]? := by
  induction b generalizing k with
  | nil => rfl
  | cons x b ih =>
      by_cases h : x = 0
      · subst h
        cases k with
        | zero => rfl
        | succ k => exact absurd rfl (plain 0 (Nat.succ_pos k))
      · rw [cleared_cons h]
        cases k with
        | zero => rfl
        | succ k => exact ih fun j lt => plain (j + 1) (Nat.succ_lt_succ lt)

theorem zero_not_mem_trimmed (b : Bytes) : 0 ∉ b.trimmed := by
  intro mem
  simpa using List.mem_takeWhile_imp mem

theorem length_trimmed_le (b : Bytes) : b.trimmed.length ≤ b.length :=
  (List.takeWhile_sublist _).length_le

theorem length_flatMap_of_length {α : Type} {l : List α} {f : α → Bytes} {w : Nat}
    (h : ∀ a ∈ l, (f a).length = w) : (l.flatMap f).length = l.length * w := by
  rw [List.length_flatMap, List.map_congr_left h]
  simp

theorem slice_flatMap {α : Type} {l : List α} {f : α → Bytes} {w : Nat}
    (h : ∀ a ∈ l, (f a).length = w) (tail : Bytes) {i : Nat} (hi : i < l.length) :
    slice (l.flatMap f ++ tail) (i * w) w = f l[i] := by
  induction l generalizing i with
  | nil => cases hi
  | cons a l ih =>
      have first := h a List.mem_cons_self
      rw [List.flatMap_cons, List.append_assoc]
      cases i with
      | zero => simp [slice, ← first]
      | succ i =>
          have rest := ih (fun a ha => h a (List.mem_cons_of_mem _ ha)) (Nat.lt_of_succ_lt_succ hi)
          rw [slice, Nat.succ_mul, Nat.add_comm, ← List.drop_drop, ← first, List.drop_left, first]
          exact rest

end Bytes

namespace Buffer

theorem toBytes_window (b : Buffer) (off n : Nat) :
    toBytes (b.window off n) = (toBytes b).slice off n := by
  apply List.ext_getElem?
  intro k
  rw [getElem?_toBytes, getElem?_window, Bytes.slice, List.getElem?_take, List.getElem?_drop,
    getElem?_toBytes]

theorem toBytes_foldl (bs : List Buffer) (b : Buffer) :
    toBytes (bs.foldl (· ++ ·) b) = toBytes b ++ bs.flatMap toBytes := by
  induction bs generalizing b with
  | nil => simp
  | cons c bs ih => rw [List.foldl_cons, ih, toBytes_append, List.flatMap_cons, List.append_assoc]

theorem toBytes_splice_zeros {d : Buffer} {n : Nat} (h : d.size ≤ n) :
    toBytes ((zeros n).splice 0 d) = toBytes d ++ List.replicate (n - d.size) 0 := by
  apply List.ext_getElem?
  intro k
  rw [getElem?_toBytes, getElem?_splice (by rw [size_zeros]; omega), getElem?_zeros,
    List.getElem?_append, length_toBytes, List.getElem?_replicate, getElem?_toBytes]
  grind

end Buffer

namespace Entry

structure Cleaned (old new : Bytes) : Prop where
  length : new.length = old.length
  behind : ∀ j k, 2 ≤ j → j < k → k < old.length → old[j]? = some 0 → new[k]? = some 0
  before : ∀ k, (∀ j, 2 ≤ j → j < k → old[j]? ≠ some 0) → new[k]? = old[k]?

theorem cleaned_cleared (b₀ b₁ : UInt8) (rest : Bytes) :
    Cleaned (b₀ :: b₁ :: rest) (b₀ :: b₁ :: rest.cleared) := by
  refine ⟨by simp [Bytes.length_cleared], ?_, ?_⟩
  · intro j k two less lt nul
    obtain ⟨j, rfl⟩ := Nat.exists_eq_add_of_le' two
    obtain ⟨k, rfl⟩ := Nat.exists_eq_add_of_le' (Nat.le_trans two (Nat.le_of_lt less))
    simp only [List.length_cons] at lt
    exact Bytes.getElem?_cleared_of_behind (j := j) nul (by omega) (by omega)
  · intro k plain
    match k with
    | 0 | 1 => rfl
    | k + 2 =>
        exact Bytes.getElem?_cleared_of_before fun j lt => plain (j + 2) (by omega) (by omega)

variable {sb : Superblock}

theorem toBytes_slotData_ofSlot {b₀ b₁ : UInt8} {rest : Bytes}
    (length : rest.length = sb.width.toNat) :
    Buffer.toBytes ((ofSlot (b₀ :: b₁ :: rest)).slotData sb) = b₀ :: b₁ :: rest.cleared := by
  have number : (Bytes.word16 b₀ b₁).toUInt64.toUInt16 = Bytes.word16 b₀ b₁ := by simp
  rw [toBytes_slotData, Bytes.cleared, length]
  change Bytes.ofWord16 (Bytes.word16 b₀ b₁).toUInt64.toUInt16 ++ _ ++ _ = _
  rw [number, Bytes.ofWord16_word16]
  rfl

theorem writable_ofSlot {slot : Bytes} (length : slot.length = sb.slotBytes) :
    (ofSlot slot).Writable sb := by
  refine ⟨?_, Bytes.zero_not_mem_trimmed _, ?_⟩
  · have short := Bytes.length_trimmed_le (slot.drop 2)
    rw [List.length_drop, length, Superblock.slotBytes] at short
    exact Nat.le_trans short (by omega)
  · rw [ofSlot, UInt16.toNat_toUInt64]
    exact UInt16.toNat_lt _

def laidOut (sb : Superblock) (entries : List Entry) (n : Nat) : Buffer :=
  (Buffer.zeros n).splice 0 ((entries.map (slotData sb)).foldl (· ++ ·) .empty)

section LaidOut

variable {entries : List Entry} {n : Nat}
  (short : ∀ e ∈ entries, e.name.length ≤ sb.width.toNat)
include short

theorem length_toBytes_slotData :
    ∀ e ∈ entries, (Buffer.toBytes (e.slotData sb)).length = sb.slotBytes := by
  intro e he
  rw [Buffer.length_toBytes, size_slotData (short e he)]

variable (room : entries.length * sb.slotBytes ≤ n)
include room

theorem toBytes_laidOut :
    Buffer.toBytes (laidOut sb entries n)
      = (entries.flatMap fun e => Buffer.toBytes (e.slotData sb))
        ++ List.replicate (n - entries.length * sb.slotBytes) 0 := by
  have front : Buffer.toBytes ((entries.map (slotData sb)).foldl (· ++ ·) .empty)
      = entries.flatMap fun e => Buffer.toBytes (e.slotData sb) := by
    rw [Buffer.toBytes_foldl, List.flatMap_map]
    rfl
  have size : ((entries.map (slotData sb)).foldl (· ++ ·) ByteArray.empty).size
      = entries.length * sb.slotBytes := by
    rw [← Buffer.length_toBytes, front,
      Bytes.length_flatMap_of_length (length_toBytes_slotData short)]
  rw [laidOut, Buffer.toBytes_splice_zeros (by rw [size]; exact room), front, size]

theorem size_laidOut : (laidOut sb entries n).size = n := by
  rw [← Buffer.length_toBytes, toBytes_laidOut short room, List.length_append,
    Bytes.length_flatMap_of_length (length_toBytes_slotData short), List.length_replicate]
  omega

theorem getElem?_laidOut_behind {k : Nat} (le : entries.length * sb.slotBytes ≤ k) (lt : k < n) :
    (laidOut sb entries n).data[k]? = some 0 := by
  have length := Bytes.length_flatMap_of_length (length_toBytes_slotData short)
  rw [← Buffer.getElem?_toBytes, toBytes_laidOut short room,
    List.getElem?_append_right (by omega), List.getElem?_replicate_of_lt (by omega)]

theorem slot_laidOut {i : Nat} (hi : i < entries.length) :
    Directory.slot (laidOut sb entries n) sb.width i
      = Buffer.toBytes (slotData sb (entries.get ⟨i, hi⟩)) := by
  rw [Image.slot_eq_window, Buffer.toBytes_window, toBytes_laidOut short room,
    Bytes.slice_flatMap (length_toBytes_slotData short) _ hi]
  rfl

theorem slot_laidOut_behind {i : Nat} (le : entries.length ≤ i) (lt : i < n / sb.slotBytes) :
    Directory.slot (laidOut sb entries n) sb.width i
      = Buffer.toBytes (Buffer.zeros sb.slotBytes) := by
  have start : entries.length * sb.slotBytes ≤ i * sb.slotBytes := Nat.mul_le_mul_right _ le
  have stop : (i + 1) * sb.slotBytes ≤ n :=
    Nat.le_trans (Nat.mul_le_mul_right _ lt) (Nat.div_mul_le_self n _)
  rw [Nat.succ_mul] at stop
  have free : (laidOut sb entries n).window (i * sb.slotBytes) sb.slotBytes
      = Buffer.zeros sb.slotBytes := by
    apply Buffer.ext_getElem?
    intro k
    rw [Buffer.getElem?_window, Buffer.getElem?_zeros]
    by_cases hk : k < sb.slotBytes
    · rw [if_pos hk, if_pos hk, getElem?_laidOut_behind short room (by omega) (by omega)]
    · rw [if_neg hk, if_neg hk]
  rw [Image.slot_eq_window, free]

theorem decode_laidOut (writable : ∀ e ∈ entries, e.Writable sb)
    (used : ∀ e ∈ entries, e.inode ≠ 0) :
    ∃ all, (List.range (n / sb.slotBytes)).mapM
        (fun i => decode (Directory.slot (laidOut sb entries n) sb.width i)) = .ok all ∧
      all.filter (·.inode ≠ 0) = entries := by
  have wide := sb.slotBytes_cases
  have fits : entries.length ≤ n / sb.slotBytes :=
    (Nat.le_div_iff_mul_le (by omega)).mpr room
  have slot := fun i hi => slot_laidOut short room (i := i) hi
  have behind := fun i le lt => slot_laidOut_behind short room (i := i) le lt
  refine ⟨_, Directory.mapM_eq_ok (g := fun i =>
    ofSlot (Directory.slot (laidOut sb entries n) sb.width i)) ?_, ?_⟩
  · intro i hi
    apply decode_eq
    rcases Nat.lt_or_ge i entries.length with lt | ge
    · rw [slot i lt, length_toBytes_slotData short _ (List.get_mem _ _)]
      omega
    · rw [behind i ge (List.mem_range.mp hi), Buffer.length_toBytes, Buffer.size_zeros]
      omega
  · refine Image.filter_used_eq fits ?_ ?_ used
    · intro k hk
      rw [slot k hk, ofSlot_slotData (writable _ (List.get_mem _ _))]
    · intro k ge lt
      rw [behind k ge lt, ofSlot_zeros]

end LaidOut

theorem mapM_encode_of_long {entries : List Entry}
    (long : ∃ e ∈ entries, sb.width.toNat < e.name.length) :
    ∃ name, entries.mapM (·.encode sb.width)
      = .error (.error (.nameTooLong name sb.width)) := by
  induction entries with
  | nil => simp at long
  | cons e entries ih =>
      by_cases first : sb.width.toNat < e.name.length
      · refine ⟨e.name, ?_⟩
        rw [List.mapM_cons, encode, if_pos first]
        rfl
      · obtain ⟨name, stop⟩ := ih (by simpa [first] using long)
        refine ⟨name, ?_⟩
        rw [List.mapM_cons, encode_eq (Nat.le_of_not_lt first), stop]
        rfl

/-- With fewer entries than these the bytes that they need are a word. -/
def entryLimit : Nat := 0x800000000000000

theorem toNat_needed (sb : Superblock) {entries : List Entry} (few : entries.length < entryLimit) :
    (UInt64.ofNat entries.length * slotSize sb.width).toNat = entries.length * sb.slotBytes := by
  have count : (UInt64.ofNat entries.length).toNat = entries.length :=
    UInt64.toNat_ofNat_of_lt' (Nat.lt_trans few (by decide))
  rw [UInt64.toNat_mul, count, slotSize, sb.toNat_slotSize]
  apply Nat.mod_eq_of_lt
  rw [entryLimit] at few
  rcases sb.slotBytes_cases with wide | wide
  · rw [wide]
    omega
  · rw [wide]
    omega

/-- How the layout of a zone ends. The names are not looked at unless there is room. -/
inductive BlockEnding (sb : Superblock) (entries : List Entry) (size : Nat) :
    Except Stop Buffer → Prop
  | full (e : Error) : size < entries.length * sb.slotBytes → e.kinds = [.directoryFull] →
      BlockEnding sb entries size (.error (.error e))
  | memory : entries.length * sb.slotBytes ≤ size → Word.largestBuffer.toNat < size →
      BlockEnding sb entries size (.error (.panic .allocation))
  | long (e : Error) : entries.length * sb.slotBytes ≤ size → size ≤ Word.largestBuffer.toNat →
      (∃ x ∈ entries, sb.width.toNat < x.name.length) → e.kinds = [.nameTooLong] →
      BlockEnding sb entries size (.error (.error e))
  | done : entries.length * sb.slotBytes ≤ size → size ≤ Word.largestBuffer.toNat →
      (∀ x ∈ entries, x.name.length ≤ sb.width.toNat) →
      BlockEnding sb entries size (.ok (laidOut sb entries size))

namespace BlockEnding

variable {entries : List Entry} {size : Nat} {answer : Except Stop Buffer}
  (h : BlockEnding sb entries size answer)
include h

theorem full_iff :
    (∃ e : Error, answer = .error (.error e) ∧ e.hasKind .directoryFull = true) ↔
      size < entries.length * sb.slotBytes := by
  cases h with
  | full e full kinds => simpa [Error.hasKind, kinds] using full
  | memory room => simp [Nat.not_lt_of_le room]
  | long e room small long kinds => simp [Nat.not_lt_of_le room, Error.hasKind, kinds]
  | done room => simp [Nat.not_lt_of_le room]

variable (room : entries.length * sb.slotBytes ≤ size)
include room

theorem memory_of (large : Word.largestBuffer.toNat < size) :
    answer = .error (.panic .allocation) := by
  cases h with
  | full e full => omega
  | memory => rfl
  | long e _ small => omega
  | done _ small => omega

variable (small : size ≤ Word.largestBuffer.toNat)
include small

theorem long_iff :
    (∃ e : Error, answer = .error (.error e) ∧ e.hasKind .nameTooLong = true) ↔
      ∃ x ∈ entries, sb.width.toNat < x.name.length := by
  cases h with
  | full e full => omega
  | memory _ large => omega
  | long e _ _ long kinds => simpa [Error.hasKind, kinds] using long
  | done _ _ short => simpa using short

theorem done_of (short : ∀ x ∈ entries, x.name.length ≤ sb.width.toNat) :
    answer = .ok (laidOut sb entries size) := by
  cases h with
  | full e full => omega
  | memory _ large => omega
  | long e _ _ long =>
      obtain ⟨x, hx, lt⟩ := long
      exact absurd (short x hx) (Nat.not_le_of_lt lt)
  | done => rfl

end BlockEnding

theorem block_ending {entries : List Entry} (few : entries.length < entryLimit) (size : UInt64) :
    BlockEnding sb entries size.toNat (block entries sb.width size) := by
  have needed := toNat_needed sb few
  rw [block, Word.checkAllocation]
  split
  · next full =>
      rw [UInt64.lt_iff_toNat_lt, needed] at full
      exact .full _ full rfl
  · next room =>
      rw [UInt64.lt_iff_toNat_lt, needed] at room
      split
      · next large => exact .memory (Nat.le_of_not_lt room) (UInt64.lt_iff_toNat_lt.mp large)
      · next small =>
          rw [UInt64.lt_iff_toNat_lt] at small
          by_cases long : ∃ x ∈ entries, sb.width.toNat < x.name.length
          · obtain ⟨name, stop⟩ := mapM_encode_of_long long
            simp only [bind, Except.bind, stop]
            exact .long _ (Nat.le_of_not_lt room) (Nat.le_of_not_lt small) long rfl
          · have short : ∀ x ∈ entries, x.name.length ≤ sb.width.toNat :=
              fun x hx => Nat.le_of_not_lt fun lt => long ⟨x, hx, lt⟩
            have encoded := Directory.mapM_eq_ok fun x hx => encode_eq (short x hx)
            simp only [bind, Except.bind, encoded]
            exact .done (Nat.le_of_not_lt room) (Nat.le_of_not_lt small) short

theorem encode_cases (sb : Superblock) (e : Entry) :
    sb.width.toNat < e.name.length ∧ (∀ b, e.encode sb.width ≠ .ok b) ∨
      e.name.length ≤ sb.width.toNat ∧ e.encode sb.width = .ok (e.slotData sb) := by
  rcases Nat.lt_or_ge sb.width.toNat e.name.length with long | short
  · refine .inl ⟨long, fun b => ?_⟩
    rw [encode, if_pos long]
    simp
  · exact .inr ⟨short, encode_eq short⟩

theorem decode_slotData {e : Entry} (short : e.name.length ≤ sb.width.toNat) :
    decode (Buffer.toBytes (e.slotData sb)) = .ok (ofSlot (Buffer.toBytes (e.slotData sb))) := by
  have wide := sb.slotBytes_cases
  apply decode_eq
  rw [Buffer.length_toBytes, size_slotData short]
  omega

theorem decode_encode_iff (e : Entry) :
    (∃ b, e.encode sb.width = .ok b ∧ decode (Buffer.toBytes b) = .ok e) ↔ e.Writable sb := by
  rcases e.encode_cases sb with ⟨long, stop⟩ | ⟨short, encoded⟩
  · constructor
    · rintro ⟨b, encoded, -⟩
      exact absurd encoded (stop b)
    · intro writable
      exact absurd writable.short (Nat.not_le_of_lt long)
  · rw [encoded]
    constructor
    · rintro ⟨_, ⟨⟩, read⟩
      rw [decode_slotData short] at read
      have size : (Buffer.toBytes (e.slotData sb)).length = sb.slotBytes := by
        rw [Buffer.length_toBytes, size_slotData short]
      exact Except.ok.inj read ▸ writable_ofSlot size
    · intro writable
      exact ⟨_, rfl, by rw [decode_slotData short, ofSlot_slotData writable]⟩

theorem encode_decode_cleaned {slot : Bytes} (length : slot.length = sb.slotBytes) :
    ∃ e b, decode slot = .ok e ∧ e.encode sb.width = .ok b ∧ Cleaned slot (Buffer.toBytes b) ∧
      decode (Buffer.toBytes b) = .ok e := by
  have writable := writable_ofSlot length
  match slot, length with
  | b₀ :: b₁ :: rest, length =>
      have width : rest.length = sb.width.toNat := by
        simp only [List.length_cons, Superblock.slotBytes] at length
        omega
      refine ⟨_, _, rfl, encode_eq writable.short, ?_, ?_⟩
      · change Cleaned _ (Buffer.toBytes ((ofSlot (b₀ :: b₁ :: rest)).slotData sb))
        rw [toBytes_slotData_ofSlot width]
        exact cleaned_cleared b₀ b₁ rest
      · exact (decode_slotData writable.short).trans (congrArg _ (ofSlot_slotData writable))
  | [], length | [_], length =>
      have wide := sb.slotBytes_cases
      simp only [List.length_cons, List.length_nil] at length
      omega

def Plain (entries : List Entry) : Prop :=
  ∀ x ∈ entries, 1 ≤ x.inode.toNat ∧ x.inode.toNat ≤ 65535 ∧ 0 ∉ x.name

structure Laid (entries : List Entry) (width size : UInt64) (zone : Buffer) : Prop where
  length : zone.size = size.toNat
  behind : ∀ k, entries.length * (2 + width.toNat) ≤ k → k < size.toNat → zone.data[k]? = some 0
  slots : Plain entries → ∃ all, (List.range (size.toNat / (2 + width.toNat))).mapM
      (fun i => decode (Directory.slot zone width i)) = .ok all ∧
    all.filter (·.inode ≠ 0) = entries
  listed : Plain entries → ∀ sb : Superblock, sb.zoneSize = size →
    Directory.zoneEntries sb width zone = .ok entries

theorem slotCount_of_zoneSize (sb sb' : Superblock) :
    Directory.slotCount sb' sb.width = .ok (sb'.zoneSize.toNat / sb.slotBytes) := by
  have width := Superblock.width_withWidth sb' sb.width_cases
  have count := Directory.slotCount_eq (sb'.withWidth sb.width)
  rw [width, Superblock.slots, Superblock.slotBytes, width] at count
  exact count

theorem laid_laidOut {entries : List Entry} {size : UInt64}
    (short : ∀ x ∈ entries, x.name.length ≤ sb.width.toNat)
    (room : entries.length * sb.slotBytes ≤ size.toNat) :
    Laid entries sb.width size (laidOut sb entries size.toNat) := by
  have slots (plain : Plain entries) := decode_laidOut short room
    (fun x hx => ⟨short x hx, (plain x hx).2.2, Nat.lt_succ_of_le (plain x hx).2.1⟩)
    (fun x hx zero => absurd (zero ▸ (plain x hx).1) (by decide))
  refine ⟨size_laidOut short room, fun k => getElem?_laidOut_behind short room, slots, ?_⟩
  rintro plain sb' rfl
  obtain ⟨all, decoded, used⟩ := slots plain
  rw [Directory.zoneEntries, slotCount_of_zoneSize]
  simp only [bind, Except.bind, decoded]
  exact congrArg Except.ok used

/-- A zone laid out from entries is read as these entries. A slot is read and written again with
the bytes behind the name cleaned, and an entry comes back exactly if its number has 16 bits and its
name has no NUL. -/
theorem slots_round_trip {width : UInt64} (known : width = 14 ∨ width = 30) :
    (∀ (entries : List Entry) (size : UInt64), entries.length < entryLimit →
      ((∃ e : Error, block entries width size = .error (.error e) ∧
          e.hasKind .directoryFull = true) ↔
        size.toNat < entries.length * (2 + width.toNat)) ∧
      (entries.length * (2 + width.toNat) ≤ size.toNat →
        Word.largestBuffer.toNat < size.toNat →
        block entries width size = .error (.panic .allocation)) ∧
      (entries.length * (2 + width.toNat) ≤ size.toNat →
        size.toNat ≤ Word.largestBuffer.toNat →
        ((∃ e : Error, block entries width size = .error (.error e) ∧
            e.hasKind .nameTooLong = true) ↔ ∃ x ∈ entries, width.toNat < x.name.length) ∧
        ((∀ x ∈ entries, x.name.length ≤ width.toNat) →
          ∃ zone, block entries width size = .ok zone ∧ Laid entries width size zone))) ∧
    (∀ slot : Bytes, slot.length = 2 + width.toNat →
      ∃ e b, decode slot = .ok e ∧ e.encode width = .ok b ∧ Cleaned slot (Buffer.toBytes b) ∧
        ∃ e', decode (Buffer.toBytes b) = .ok e' ∧ e'.encode width = .ok b) ∧
    (∀ e : Entry, (∃ b, e.encode width = .ok b ∧ decode (Buffer.toBytes b) = .ok e) ↔
      e.name.length ≤ width.toNat ∧ e.inode.toNat < 65536 ∧ 0 ∉ e.name) := by
  -- every known width is that of some header
  obtain ⟨sb, rfl⟩ : ∃ sb : Superblock, sb.width = width :=
    ⟨_, Superblock.width_withWidth {} known⟩
  refine ⟨?_, ?_, ?_⟩
  · intro entries size few
    have ending : BlockEnding sb entries _ _ := block_ending few size
    exact ⟨ending.full_iff, ending.memory_of, fun room small =>
      ⟨ending.long_iff room small, fun short => ⟨_, ending.done_of room small short,
        laid_laidOut short room⟩⟩⟩
  · intro slot length
    obtain ⟨e, b, read, written, cleaned, again⟩ := encode_decode_cleaned length
    exact ⟨e, b, read, written, cleaned, e, again, written⟩
  · intro e
    rw [decode_encode_iff]
    exact ⟨fun h => ⟨h.short, h.number, h.plain⟩, fun h => ⟨h.1, h.2.2, h.2.1⟩⟩

theorem slots_round_trip_full :
    ∃ zone all, block [⟨1, [46]⟩, ⟨65535, List.replicate 14 255⟩] 14 33 = .ok zone ∧
      zone.size = 33 ∧ zone.data[32]? = some 0 ∧
      (List.range 2).mapM (fun i => decode (Directory.slot zone 14 i)) = .ok all ∧
      all.filter (·.inode ≠ 0) = [⟨1, [46]⟩, ⟨65535, List.replicate 14 255⟩] := by
  obtain ⟨blocks, -, -⟩ := slots_round_trip (.inl rfl : (14 : UInt64) = 14 ∨ (14 : UInt64) = 30)
  obtain ⟨-, -, fitting⟩ := blocks [⟨1, [46]⟩, ⟨65535, List.replicate 14 255⟩] 33 (by decide)
  obtain ⟨zone, made, laid⟩ := (fitting (by decide) (by decide)).2 (by decide)
  have plain : Plain [⟨1, [46]⟩, ⟨65535, List.replicate 14 255⟩] := by
    unfold Plain
    decide
  obtain ⟨all, decoded, used⟩ := laid.slots plain
  exact ⟨zone, all, made, laid.length, laid.behind 32 (by decide) (by decide), decoded, used⟩

theorem slots_round_trip_too_large :
    ({ logZoneSize := 39 } : Superblock).zoneSize = 0x2000000000000 ∧
      ([] : List Entry).length * (2 + (14 : UInt64).toNat) ≤ (0x2000000000000 : UInt64).toNat ∧
      (∀ x ∈ ([] : List Entry), x.name.length ≤ (14 : UInt64).toNat) ∧
      block [] 14 0x2000000000000 = .error (.panic .allocation) ∧
      ¬ ∃ zone, block [] 14 0x2000000000000 = .ok zone := by
  have stop : block [] 14 0x2000000000000 = .error (.panic .allocation) := rfl
  refine ⟨by decide, by decide, by simp, stop, ?_⟩
  rintro ⟨zone, made⟩
  rw [stop] at made
  cases made

end Entry

end MinixVolume

import Mathlib.Order.Interval.Finset.Nat
import MinixVolume.Proofs.Bitmap

namespace MinixVolume.Bitmap

inductive Change where
  | set (n : UInt64)
  | clear (n : UInt64)
deriving DecidableEq, Repr

namespace Change

def number : Change → UInt64
  | .set n => n
  | .clear n => n

def turnsOn : Change → Bool
  | .set _ => true
  | .clear _ => false

def run (bm : Bitmap) : Change → Except Stop Bitmap
  | .set n => bm.set n
  | .clear n => bm.clear n

def apply (used : Finset Nat) : Change → Finset Nat
  | .set n => insert n.toNat used
  | .clear n => used.erase n.toNat

def runAll : List Change → Bitmap → Except Stop Bitmap
  | [], bm => .ok bm
  | c :: cs, bm => c.run bm >>= runAll cs

end Change

def numbers (data : Buffer) : Finset Nat :=
  (Finset.range (8 * data.size)).filter fun n => data.bit n = true

def unused (used : Finset Nat) (max : Nat) : Finset Nat :=
  Finset.Icc 1 max \ used

/-- The bitmap answers as the set `used` of numbers below `bits` does. Every answer is one: no index
leaves the data. -/
structure ActsAs (bm : Bitmap) (bits : Nat) (used : Finset Nat) : Prop where
  isSet : ∀ n : UInt64, n.toNat < bits → bm.isSet n = .ok (decide (n.toNat ∈ used))
  changed : ∀ c : Change, c.number.toNat < bits → ∃ bm', c.run bm = .ok bm' ∧ bm'.max = bm.max ∧
    ∀ n : UInt64, n.toNat < bits →
      bm'.isSet n = if n = c.number then .ok c.turnsOn else bm.isSet n
  found : ∃ r, bm.findFree = .ok r ∧ (r = none ↔ unused used bm.max.toNat = ∅) ∧
    ∀ n byte, r = some (n, byte) → IsLeast ↑(unused used bm.max.toNat) n.toNat
  counted : ∃ k, bm.freeCount = .ok k ∧ k.toNat = (unused used bm.max.toNat).card
  exhausted : bm.findFree = .ok none ↔ bm.freeCount = .ok 0
  lowered : ∀ n byte, bm.findFree = .ok (some (n, byte)) → ∃ bm' k k', bm.set n = .ok bm' ∧
    bm.freeCount = .ok k ∧ bm'.freeCount = .ok k' ∧ k'.toNat + 1 = k.toNat

theorem mem_numbers {data : Buffer} {n : Nat} :
    n ∈ numbers data ↔ n < 8 * data.size ∧ data.bit n = true := by
  simp [numbers]

theorem mem_unused {used : Finset Nat} {max n : Nat} :
    n ∈ unused used max ↔ (1 ≤ n ∧ n ≤ max) ∧ n ∉ used := by
  simp [unused]

theorem unused_insert (used : Finset Nat) (max n : Nat) :
    unused (insert n used) max = (unused used max).erase n := by
  ext k
  simp only [mem_unused, Finset.mem_insert, Finset.mem_erase]
  tauto

namespace Change

theorem run_eq {bm : Bitmap} {c : Change} (inside : c.number.toNat < 8 * bm.data.size) :
    c.run bm = .ok ⟨bm.start, bm.max, bm.data.setBit c.number.toNat c.turnsOn⟩ := by
  cases c with
  | set n => exact set_eq inside
  | clear n => exact clear_eq inside

theorem numbers_setBit {data : Buffer} {c : Change} (inside : c.number.toNat < 8 * data.size) :
    numbers (data.setBit c.number.toNat c.turnsOn) = c.apply (numbers data) := by
  ext k
  rw [mem_numbers, Buffer.size_setBit, Buffer.bit_setBit (by omega)]
  cases c with
  | set n =>
      simp only [number, turnsOn, apply, Finset.mem_insert, mem_numbers] at inside ⊢
      by_cases same : k = n.toNat
      · simp [same, inside]
      · simp [same]
  | clear n =>
      simp only [number, turnsOn, apply, Finset.mem_erase, mem_numbers]
      by_cases same : k = n.toNat
      · simp [same]
      · simp [same]

end Change

namespace Reaches

variable {bm : Bitmap} {blocks : Nat} (h : bm.Reaches blocks)
include h

theorem mem_unused_iff {n : Nat} :
    n ∈ unused (numbers bm.data) bm.max.toNat
      ↔ (1 ≤ n ∧ n ≤ bm.max.toNat) ∧ bm.data.bit n = false := by
  have size := h.size
  have limit := h.max
  rw [mem_unused, mem_numbers]
  refine and_congr_right fun range => ?_
  rw [not_and, Bool.not_eq_true]
  exact ⟨fun clear => clear (by omega), fun clear _ => clear⟩

theorem isLeast {n : Nat} (least : Least bm.data.bit bm.max.toNat n) :
    IsLeast (↑(unused (numbers bm.data) bm.max.toNat) : Set Nat) n := by
  constructor
  · exact h.mem_unused_iff.mpr ⟨⟨least.pos, least.le_max⟩, least.free⟩
  · intro k hk
    obtain ⟨⟨pos, -⟩, clear⟩ := h.mem_unused_iff.mp hk
    by_contra below
    rw [least.below k pos (by omega)] at clear
    cases clear

theorem unused_eq_empty (full : Full bm.data.bit bm.max.toNat) :
    unused (numbers bm.data) bm.max.toNat = ∅ := by
  rw [Finset.eq_empty_iff_forall_notMem]
  intro k hk
  obtain ⟨⟨pos, le⟩, clear⟩ := h.mem_unused_iff.mp hk
  rw [full k pos le] at clear
  cases clear

theorem findFree_least :
    bm.findFree = .ok none ∧ unused (numbers bm.data) bm.max.toNat = ∅ ∨
      ∃ n byte, bm.findFree = .ok (some (n, byte)) ∧
        IsLeast (↑(unused (numbers bm.data) bm.max.toNat) : Set Nat) n.toNat := by
  have size := h.size
  have limit := h.max
  rcases @findFree_found bm (by omega) with ⟨run, full⟩ | ⟨n, byte, run, least⟩
  · exact .inl ⟨run, h.unused_eq_empty full⟩
  · exact .inr ⟨n, byte, run, h.isLeast least⟩

theorem card_unused :
    (unused (numbers bm.data) bm.max.toNat).card
      = (List.range' 1 bm.max.toNat).countP fun k => !bm.data.bit k := by
  have filtered : unused (numbers bm.data) bm.max.toNat
      = ((List.range' 1 bm.max.toNat).filter fun k => !bm.data.bit k).toFinset := by
    ext k
    rw [h.mem_unused_iff, List.mem_toFinset, List.mem_filter, List.mem_range'_1,
      Bool.not_eq_true', Nat.lt_one_add_iff]
  rw [filtered, List.toFinset_card_of_nodup (List.Nodup.filter _ List.nodup_range'),
    List.countP_eq_length_filter]

theorem freeCount_eq_card :
    ∃ k, bm.freeCount = .ok k ∧ k.toNat = (unused (numbers bm.data) bm.max.toNat).card := by
  have size := h.size
  have limit := h.max
  have few : (List.range' 1 bm.max.toNat).countP (fun k => !bm.data.bit k) ≤ bm.max.toNat := by
    have le := List.countP_le_length (p := fun k => !bm.data.bit k)
      (l := List.range' 1 bm.max.toNat)
    rwa [List.length_range'] at le
  refine ⟨_, freeCount_eq (by omega), ?_⟩
  rw [h.card_unused, Word.toNat_ofNat_of_le few]

theorem run {c : Change} (inside : c.number.toNat < 8192 * blocks) :
    ∃ bm', c.run bm = .ok bm' ∧ bm'.Reaches blocks ∧ bm'.max = bm.max ∧
      numbers bm'.data = c.apply (numbers bm.data) := by
  have size := h.size
  have there : c.number.toNat < 8 * bm.data.size := by omega
  refine ⟨_, Change.run_eq there, ⟨?_, h.max⟩, rfl, Change.numbers_setBit there⟩
  rw [Buffer.size_setBit, size]

theorem runAll {cs : List Change} (inside : ∀ c ∈ cs, c.number.toNat < 8192 * blocks) :
    ∃ bm', Change.runAll cs bm = .ok bm' ∧ bm'.Reaches blocks ∧ bm'.max = bm.max ∧
      numbers bm'.data = cs.foldl Change.apply (numbers bm.data) := by
  induction cs generalizing bm with
  | nil => exact ⟨bm, rfl, h, rfl, rfl⟩
  | cons c cs ih =>
      rw [List.forall_mem_cons] at inside
      obtain ⟨bm₁, run₁, reaches₁, max₁, numbers₁⟩ := h.run inside.1
      obtain ⟨bm₂, run₂, reaches₂, max₂, numbers₂⟩ := ih reaches₁ inside.2
      refine ⟨bm₂, ?_, reaches₂, max₂.trans max₁, ?_⟩
      · rw [Change.runAll, run₁]
        exact run₂
      · rw [numbers₂, numbers₁, List.foldl_cons]

theorem isSet_eq_mem {n : UInt64} (inside : n.toNat < 8192 * blocks) :
    bm.isSet n = .ok (decide (n.toNat ∈ numbers bm.data)) := by
  have size := h.size
  have there : n.toNat < 8 * bm.data.size := by omega
  rw [isSet_eq there]
  simp [mem_numbers, there]

theorem isSet_changed {c : Change} (inside : c.number.toNat < 8192 * blocks) :
    ∃ bm', c.run bm = .ok bm' ∧ bm'.max = bm.max ∧ ∀ n : UInt64, n.toNat < 8192 * blocks →
      bm'.isSet n = if n = c.number then .ok c.turnsOn else bm.isSet n := by
  obtain ⟨bm', run, reaches, max, numbers⟩ := h.run inside
  refine ⟨bm', run, max, fun n lt => ?_⟩
  rw [reaches.isSet_eq_mem lt, h.isSet_eq_mem lt, numbers]
  by_cases same : n = c.number
  · subst same
    cases c with
    | set n => simp [Change.apply, Change.number, Change.turnsOn]
    | clear n => simp [Change.apply, Change.number, Change.turnsOn]
  · have other : n.toNat ≠ c.number.toNat := fun e => same (UInt64.toNat.inj e)
    cases c with
    | set n => simp_all [Change.apply, Change.number]
    | clear n => simp_all [Change.apply, Change.number]

theorem findFree_answer :
    ∃ r, bm.findFree = .ok r ∧ (r = none ↔ unused (numbers bm.data) bm.max.toNat = ∅) ∧
      ∀ n byte, r = some (n, byte) →
        IsLeast (↑(unused (numbers bm.data) bm.max.toNat) : Set Nat) n.toNat := by
  rcases h.findFree_least with ⟨run, empty⟩ | ⟨n, byte, run, least⟩
  · exact ⟨none, run, by simp [empty], nofun⟩
  · refine ⟨_, run, ?_, ?_⟩
    · simp only [reduceCtorEq, false_iff]
      exact Finset.ne_empty_of_mem least.1
    · rintro _ _ ⟨⟩
      exact least

theorem findFree_none_iff : bm.findFree = .ok none ↔ bm.freeCount = .ok 0 := by
  obtain ⟨k, counts, card⟩ := h.freeCount_eq_card
  rw [counts, Except.ok.injEq, ← UInt64.toNat_inj, card]
  rcases h.findFree_least with ⟨run, empty⟩ | ⟨n, byte, run, least⟩
  · simp [run, empty]
  · simp [run, Finset.ne_empty_of_mem least.1]

theorem freeCount_lowered {n : UInt64} {byte : UInt8} (run : bm.findFree = .ok (some (n, byte))) :
    ∃ bm' k k', bm.set n = .ok bm' ∧ bm.freeCount = .ok k ∧ bm'.freeCount = .ok k' ∧
      k'.toNat + 1 = k.toNat := by
  obtain ⟨r, answer, -, least⟩ := h.findFree_answer
  rw [run] at answer
  cases answer
  have mem : n.toNat ∈ unused (numbers bm.data) bm.max.toNat := (least n byte rfl).1
  have le := (mem_unused.mp mem).1
  have limit := h.max
  obtain ⟨k, counts, card⟩ := h.freeCount_eq_card
  obtain ⟨bm', set, reaches, max, numbers⟩ := h.run (c := .set n) (by
    change n.toNat < _
    omega)
  obtain ⟨k', counts', card'⟩ := reaches.freeCount_eq_card
  refine ⟨bm', k, k', set, counts, counts', ?_⟩
  rw [card', card, numbers, max, Change.apply, unused_insert, Finset.card_erase_add_one mem]

theorem actsAs : bm.ActsAs (8192 * blocks) (numbers bm.data) where
  isSet _ := h.isSet_eq_mem
  changed _ := h.isSet_changed
  found := h.findFree_answer
  counted := h.freeCount_eq_card
  exhausted := h.findFree_none_iff
  lowered _ _ := h.freeCount_lowered

end Reaches

theorem toNat_reach {blocks : UInt64} (few : blocks.toNat < 65536) (max : UInt64) :
    (reach blocks max).toNat
      = if blocks = 0 then 0 else min max.toNat (8192 * blocks.toNat - 1) := by
  have bits := toNat_blockBits few
  by_cases zero : blocks = 0
  · rw [zero, if_pos rfl]
    rfl
  · have pos : blocks.toNat ≠ 0 := fun e => zero (UInt64.toNat.inj e)
    rw [reach, if_neg zero, if_neg zero]
    split
    · next far =>
        rw [UInt64.le_iff_toNat_le, bits] at far
        rw [UInt64.toNat_sub_of_le _ _ (by rw [UInt64.le_iff_toNat_le, bits]; change 1 ≤ _; omega),
          bits, UInt64.toNat_one]
        omega
    · next near =>
        rw [UInt64.le_iff_toNat_le, bits] at near
        omega

theorem agrees_with_numbers (start max : UInt64) {blocks : UInt64} (few : blocks.toNat ≤ 65535)
    {data : Buffer} (size : data.size = 1024 * blocks.toNat) :
    ∃ bm₀, ofData start blocks max data = .ok bm₀ ∧
      ∀ cs : List Change, (∀ c ∈ cs, c.number.toNat < 8192 * blocks.toNat) →
        ∃ bm, Change.runAll cs bm₀ = .ok bm ∧
          bm.max.toNat = (if blocks = 0 then 0 else min max.toNat (8192 * blocks.toNat - 1)) ∧
          bm.ActsAs (8192 * blocks.toNat) (cs.foldl Change.apply (numbers data)) := by
  have words : blocks.toNat < 65536 := by omega
  have reaches := reaches_reach start max words size
  refine ⟨_, ofData_eq start max words size, fun cs inside => ?_⟩
  obtain ⟨bm, run, reaches', max', numbers'⟩ := reaches.runAll inside
  refine ⟨bm, run, ?_, numbers' ▸ reaches'.actsAs⟩
  rw [max']
  exact toNat_reach words max

theorem agrees_with_numbers_wrapped :
    ∃ data bm₀ bm, data = Buffer.ofBytes (List.replicate 1024 0xff) ∧
      ofData 0xffffffffffffffff 1 9000 data = .ok bm₀ ∧
      Change.runAll [.clear 8191, .set 0, .clear 7] bm₀ = .ok bm ∧ bm.max.toNat = 8191 ∧
      bm.ActsAs 8192 ([.clear 8191, .set 0, .clear 7].foldl Change.apply (numbers data)) := by
  have size : (Buffer.ofBytes (List.replicate 1024 0xff)).size = 1024 * (1 : UInt64).toNat := by
    rw [Buffer.size_ofBytes, List.length_replicate]
    rfl
  obtain ⟨bm₀, made, agrees⟩ := agrees_with_numbers 0xffffffffffffffff 9000 (by decide) size
  obtain ⟨bm, run, max, acts⟩ := agrees [.clear 8191, .set 0, .clear 7] (by decide)
  exact ⟨_, bm₀, bm, rfl, made, run, max, acts⟩

end MinixVolume.Bitmap

import MinixVolume.Proofs.Allocation

namespace MinixVolume

namespace Pool

variable {sb : Superblock}

inductive Request where
  | take (p : Pool)
  | giveBack (p : Pool) (n : UInt64)

namespace Request

variable {δ : Type} [Disk δ]

def pool : Request → Pool
  | .take p => p
  | .giveBack p _ => p

def run (sb : Superblock) : Request → MountM δ (Option UInt64)
  | .take .inodes => some <$> sb.allocateInode
  | .take .zones => some <$> sb.allocateZone
  | .giveBack .inodes n => (fun _ => none) <$> sb.freeInode n
  | .giveBack .zones z => (fun _ => none) <$> sb.freeZone z

def runAll (sb : Superblock) :
    List Request → Mount δ → List (Except Stop (Option UInt64)) × Mount δ
  | [], m => ([], m)
  | r :: rest, m =>
      let (answer, m) := Mount.exec (r.run sb) m
      let (answers, m) := runAll sb rest m
      (answer :: answers, m)

def Legal (sb : Superblock) : Request → Prop
  | .take _ => True
  | .giveBack p n => p.Has sb n.toNat

inductive Handled (sb : Superblock) (img : Buffer) :
    Request → Except Stop (Option UInt64) → Buffer → Prop
  | taken {p : Pool} {n : UInt64} : p.LeastFree sb img n.toNat →
      Handled sb img (.take p) (.ok (some n)) (img.setBit (p.bitOf sb n.toNat) true)
  | short {p : Pool} : p.AllUsed sb img →
      Handled sb img (.take p) (.error (.error (p.shortage sb))) img
  | returned {p : Pool} {n : UInt64} : p.Has sb n.toNat →
      Handled sb img (.giveBack p n) (.ok none) (img.setBit (p.bitOf sb n.toNat) false)

section Steps

variable [ImageDisk δ] {m : Mount δ} {s : Scene}

theorem exec_take {x : MountM δ UInt64} {p : Pool} (run : (take p).run sb = some <$> x)
    (ends : Mount.Ends x m
      (fun n m' => p.LeastFree sb s.image n.toNat ∧
        m'.Shows True { s with image := s.image.setBit (p.bitOf sb n.toNat) true })
      (fun t m' => m'.Shows True s ∧ (Mishap True 0 t ∨
        t = .error (p.shortage sb) ∧ p.AllUsed sb s.image))) :
    ∃ answer after m', Mount.exec ((take p).run sb) m = (answer, m') ∧
      Handled sb s.image (take p) answer after ∧ m'.Shows True { s with image := after } := by
  rw [run]
  rcases ends.exec_eq with
    ⟨n, m', ok, least, h'⟩ | ⟨t, m', stop, h', mishap | ⟨rfl, full⟩⟩
  · exact ⟨_, _, m', by rw [Mount.exec_map, ok]; rfl, .taken least, h'⟩
  · exact absurd trivial mishap.not_steady
  · exact ⟨_, _, m', by rw [Mount.exec_map, stop]; rfl, .short full, h'⟩

theorem exec_giveBack {x : MountM δ Unit} {p : Pool} {n : UInt64} (has : p.Has sb n.toNat)
    (run : (giveBack p n).run sb = (fun _ => none) <$> x)
    (ends : Mount.Ends x m
      (fun _ m' => m'.Shows True { s with image := s.image.setBit (p.bitOf sb n.toNat) false })
      (fun t m' => Mishap True 0 t ∧ m'.Shows True s)) :
    ∃ answer after m', Mount.exec ((giveBack p n).run sb) m = (answer, m') ∧
      Handled sb s.image (giveBack p n) answer after ∧ m'.Shows True { s with image := after } := by
  obtain ⟨_, m', ok, h'⟩ := (Mount.ends_sure ends (Nat.zero_le _)).exec_ok
  exact ⟨_, _, m', by rw [run, Mount.exec_map, ok]; rfl, .returned has, h'⟩

theorem exec_run (h : m.Shows True s) (room : sb.tablePlace ≤ s.image.size) {r : Request}
    (legal : r.Legal sb) :
    ∃ answer after m', Mount.exec (r.run sb) m = (answer, m') ∧
      Handled sb s.image r answer after ∧ m'.Shows True { s with image := after } := by
  cases r with
  | take p =>
      cases p with
      | inodes => exact exec_take rfl (ends_allocateInode h room)
      | zones => exact exec_take rfl (ends_allocateZone h room)
  | giveBack p n =>
      cases p with
      | inodes => exact exec_giveBack legal rfl (ends_freeInode h room legal)
      | zones => exact exec_giveBack legal rfl (ends_freeZone h room legal)

end Steps

namespace Handled

variable {img after : Buffer} {r : Request} {answer : Except Stop (Option UInt64)}

theorem size_eq (h : Handled sb img r answer after) : after.size = img.size := by
  cases h with
  | taken _ => exact Buffer.size_setBit _ _ _
  | short _ => rfl
  | returned _ => exact Buffer.size_setBit _ _ _

theorem confined (h : Handled sb img r answer after) {k : Nat}
    (outside : k < r.pool.place sb ∨
      r.pool.place sb + 1024 * (r.pool.blocks sb).toNat ≤ k) :
    after.data[k]? = img.data[k]? := by
  have spared {p : Pool} {n : Nat} (has : p.Has sb n) (on : Bool)
      (outside : k < p.place sb ∨ p.place sb + 1024 * (p.blocks sb).toNat ≤ k) :
      (img.setBit (p.bitOf sb n) on).data[k]? = img.data[k]? := by
    have bounds := bitOf_bounds has
    exact Buffer.getElem?_setBit_of_ne _ on (by omega)
  cases h with
  | taken least => exact spared least.has true outside
  | short _ => rfl
  | returned has => exact spared has false outside

theorem keeps_used (h : Handled sb img r answer after) {p : Pool} {n : UInt64}
    (has : p.Has sb n.toNat) (kept : r ≠ .giveBack p n)
    (used : p.used sb img n.toNat = true) : p.used sb after n.toNat = true := by
  cases h with
  | @taken q k least =>
      refine (Buffer.bit_setBit_of_ne _ true fun same => ?_).trans used
      rw [Pool.used, same] at used
      exact Bool.false_ne_true (least.free.symm.trans used)
  | short _ => exact used
  | @returned q k hask =>
      refine (Buffer.bit_setBit_of_ne _ false fun same => kept ?_).trans used
      obtain ⟨rfl, number⟩ := bitOf_inj has hask same
      rw [UInt64.toNat.inj number]

theorem least {p : Pool} {n : UInt64} (h : Handled sb img (.take p) (.ok (some n)) after) :
    p.LeastFree sb img n.toNat := by
  cases h with
  | taken least => exact least

theorem used_taken {p : Pool} {n : UInt64} (room : sb.tablePlace ≤ img.size)
    (h : Handled sb img (.take p) (.ok (some n)) after) : p.used sb after n.toNat = true := by
  cases h with
  | taken least =>
      have bounds := bitOf_bounds least.has
      have fits := mapEnd_le sb p
      rw [Pool.used, Buffer.bit_setBit (by omega), if_pos rfl]

theorem free_returned {p : Pool} {n : UInt64} (room : sb.tablePlace ≤ img.size)
    (h : Handled sb img (.giveBack p n) answer after) : p.used sb after n.toNat = false := by
  cases h with
  | returned has =>
      have bounds := bitOf_bounds has
      have fits := mapEnd_le sb p
      rw [Pool.used, Buffer.bit_setBit (by omega), if_pos rfl]

theorem restored {p : Pool} {n : UInt64} {between : Buffer} (room : sb.tablePlace ≤ img.size)
    (taken : Handled sb img (.take p) (.ok (some n)) between)
    (returned : Handled sb between (.giveBack p n) answer after) : after = img := by
  cases taken with
  | taken least =>
      cases returned with
      | returned _ =>
          have bounds := bitOf_bounds least.has
          have fits := mapEnd_le sb p
          exact Buffer.setBit_setBit (by omega) true false least.free

end Handled

section Runs

variable [ImageDisk δ] {m : Mount δ}

def imageAfter (sb : Superblock) (requests : List Request) (m : Mount δ) (i : Nat) : Buffer :=
  ImageDisk.image (runAll sb (requests.take i) m).2.disk

theorem handled_runAll (requests : List Request) (legal : ∀ r ∈ requests, r.Legal sb)
    (sound : ImageDisk.Sound m.disk) (reliable : ImageDisk.Reliable m.disk)
    (room : sb.tablePlace ≤ (ImageDisk.image m.disk).size) {i : Nat} {r : Request}
    (ith : requests[i]? = some r) :
    ∃ answer, (runAll sb requests m).1[i]? = some answer ∧
      Handled sb (imageAfter sb requests m i) r answer (imageAfter sb requests m (i + 1)) ∧
      sb.tablePlace ≤ (imageAfter sb requests m i).size := by
  -- Each request starts from the image that the one before has left.
  induction requests generalizing m i with
  | nil => cases ith
  | cons r₀ rest ih =>
      obtain ⟨answer, after, m', run, handled, h'⟩ :=
        exec_run (Mount.shows_scene sound reliable) room (legal r₀ List.mem_cons_self)
      have step (l : List Request) : runAll sb (r₀ :: l) m =
          (answer :: (runAll sb l m').1, (runAll sb l m').2) := by
        rw [runAll, run]
      have image : ImageDisk.image m'.disk = after := h'.image
      cases i with
      | zero =>
          cases ith
          refine ⟨answer, by rw [step]; rfl, ?_, room⟩
          rw [imageAfter, imageAfter, List.take_zero, List.take_succ_cons, List.take_zero, step]
          exact image ▸ handled
      | succ i =>
          have later (k : Nat) :
              imageAfter sb (r₀ :: rest) m (k + 1) = imageAfter sb rest m' k := by
            rw [imageAfter, imageAfter, List.take_succ_cons, step]
          rw [step, later, later, List.getElem?_cons_succ]
          refine ih (fun r mem => legal r (List.mem_cons_of_mem _ mem)) h'.sound
            (h'.reliable trivial) ?_ ith
          rw [image, handled.size_eq]
          exact room

theorem used_since (requests : List Request) (legal : ∀ r ∈ requests, r.Legal sb)
    (sound : ImageDisk.Sound m.disk) (reliable : ImageDisk.Reliable m.disk)
    (room : sb.tablePlace ≤ (ImageDisk.image m.disk).size) {i : Nat} {p : Pool} {n : UInt64}
    (ith : requests[i]? = some (.take p))
    (answered : (runAll sb requests m).1[i]? = some (.ok (some n))) {k : Nat} (lt : i < k)
    (le : k ≤ requests.length)
    (kept : ∀ l, i < l → l < k → requests[l]? ≠ some (.giveBack p n)) :
    p.used sb (imageAfter sb requests m k) n.toNat = true := by
  obtain ⟨_, same, taken, space⟩ := handled_runAll requests legal sound reliable room ith
  rw [answered] at same
  cases same
  induction k with
  | zero => omega
  | succ k ih =>
      by_cases later : i < k
      · have kth : requests[k]? = some requests[k] := List.getElem?_eq_getElem (by omega)
        obtain ⟨_, -, step, -⟩ := handled_runAll requests legal sound reliable room kth
        have before := ih later (by omega) fun l h₁ h₂ => kept l h₁ (by omega)
        refine step.keeps_used taken.least.has (fun returned => ?_) before
        exact kept k later (by omega) (kth.trans (congrArg some returned))
      · rw [show k = i by omega]
        exact taken.used_taken space

/-- Every request is answered with the least free number, or with an error just if there is none,
and changes no more than one bit of one map. No number is handed out again before it is given
back, and giving it back at once undoes the request. -/
theorem handed_out_once (sb : Superblock) (sound : ImageDisk.Sound m.disk)
    (reliable : ImageDisk.Reliable m.disk)
    (room : sb.tablePlace ≤ (ImageDisk.image m.disk).size) (requests : List Request)
    (legal : ∀ r ∈ requests, r.Legal sb) :
    (∀ i r, requests[i]? = some r → ∃ answer, (runAll sb requests m).1[i]? = some answer ∧
      Handled sb (imageAfter sb requests m i) r answer (imageAfter sb requests m (i + 1)) ∧
      ∀ k, k < r.pool.place sb ∨ r.pool.place sb + 1024 * (r.pool.blocks sb).toNat ≤ k →
        (imageAfter sb requests m (i + 1)).data[k]? = (imageAfter sb requests m i).data[k]?) ∧
    (∀ (i : Nat) (p : Pool) (n : UInt64), requests[i]? = some (.take p) →
      (runAll sb requests m).1[i]? = some (.ok (some n)) →
        p.Promises sb n ∧ n.toNat < 65536 ∧
        (∀ j, i < j → requests[j]? = some (.take p) →
          (runAll sb requests m).1[j]? = some (.ok (some n)) →
            ∃ k, i < k ∧ k < j ∧ requests[k]? = some (.giveBack p n)) ∧
        (requests[i + 1]? = some (.giveBack p n) →
          imageAfter sb requests m (i + 2) = imageAfter sb requests m i)) ∧
    (∀ (i : Nat) (p : Pool) (n : UInt64), requests[i]? = some (.giveBack p n) →
      p.used sb (imageAfter sb requests m (i + 1)) n.toNat = false) := by
  refine ⟨fun i r ith => ?_, fun i p n ith answered => ?_, fun i p n ith => ?_⟩
  · obtain ⟨answer, answered, handled, -⟩ :=
      handled_runAll requests legal sound reliable room ith
    exact ⟨answer, answered, handled, fun k outside => handled.confined outside⟩
  · obtain ⟨_, same, taken, space⟩ := handled_runAll requests legal sound reliable room ith
    rw [answered] at same
    cases same
    obtain ⟨promised, wide⟩ := taken.least.has.promised
    refine ⟨promised, wide, fun j lt jth again => ?_, fun next => ?_⟩
    · -- otherwise the number would still be in use when it is handed out again
      obtain ⟨_, same, retaken, -⟩ := handled_runAll requests legal sound reliable room jth
      rw [again] at same
      cases same
      refine Classical.byContradiction fun never => ?_
      have kept : ∀ l, i < l → l < j → requests[l]? ≠ some (.giveBack p n) :=
        fun l h₁ h₂ returned => never ⟨l, h₁, h₂, returned⟩
      have within : j ≤ requests.length :=
        Nat.le_of_lt (List.getElem?_eq_some_iff.mp jth).1
      have used := used_since requests legal sound reliable room ith answered lt within kept
      exact Bool.false_ne_true (retaken.least.free.symm.trans used)
    · obtain ⟨_, -, returned, -⟩ := handled_runAll requests legal sound reliable room next
      exact taken.restored space returned
  · obtain ⟨_, -, returned, space⟩ := handled_runAll requests legal sound reliable room ith
    exact returned.free_returned space

theorem handed_out_once_small :
    ∃ (sb : Superblock) (m : Mount MemoryDisk) (requests : List Request),
      sb.zoneMapBlocks = 0 ∧ sb.zones < sb.firstDataZone ∧
      requests = [.take .zones, .take .inodes, .giveBack .inodes 1, .take .inodes] ∧
      (∀ r ∈ requests, r.Legal sb) ∧ sb.tablePlace ≤ m.disk.image.size ∧
      ∀ i r, requests[i]? = some r → ∃ answer, (runAll sb requests m).1[i]? = some answer ∧
        Handled sb (imageAfter sb requests m i) r answer (imageAfter sb requests m (i + 1)) := by
  have size := Buffer.size_zeros 3072
  have legal : ∀ r ∈ [take .zones, take .inodes, giveBack .inodes 1, take .inodes],
      r.Legal ⟨5, 4, 1, 0, 9, 0, 0, 0, 0⟩ := by
    simp only [List.forall_mem_cons]
    exact ⟨trivial, trivial, ⟨by decide, by decide⟩, trivial, fun _ none => nomatch none⟩
  have sound : ImageDisk.Sound (MemoryDisk.mk (Buffer.zeros 3072)) := by
    change (Buffer.zeros 3072).size < sizeLimit
    rw [size]
    decide
  have room : Superblock.tablePlace ⟨5, 4, 1, 0, 9, 0, 0, 0, 0⟩ ≤ (Buffer.zeros 3072).size := by
    rw [size]
    decide
  have run := handed_out_once _ (m := ⟨MemoryDisk.mk (Buffer.zeros 3072), {}, {}, #[]⟩) sound
    trivial room _ legal
  refine ⟨_, ⟨MemoryDisk.mk (Buffer.zeros 3072), {}, {}, #[]⟩, _, rfl, by decide, rfl, legal, room,
    fun i r ith => ?_⟩
  obtain ⟨answer, answered, handled, -⟩ := run.1 i r ith
  exact ⟨answer, answered, handled⟩

end Runs

end Request

end Pool

end MinixVolume

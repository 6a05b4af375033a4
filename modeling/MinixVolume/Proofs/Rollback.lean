import MinixVolume.Proofs.Allocation
import MinixVolume.Proofs.Record
import MinixVolume.Volume.Create

namespace MinixVolume

theorem Update.applyAll_append (sb : Superblock) (img : Buffer) (us ws : List Update) :
    applyAll sb img (us ++ ws) = applyAll sb (applyAll sb img us) ws :=
  List.foldl_append

inductive Tried (steady : Prop) (us : List Update) : Except Error Unit → List Update → Prop
  | done : Tried steady us (.ok ()) us
  | failed (e : Error) : ¬ steady → Tried steady us (.error e) []

def releases (n : Nat) (zone : Option UInt64) : List Update :=
  [.inode n {}, .inodeBit n false] ++ (zone.map (.zoneBit · false)).toList

theorem mem_releases {n : Nat} {zone : Option UInt64} {u : Update} (h : u ∈ releases n zone) :
    u = .inode n {} ∨ u = .inodeBit n false ∨ ∃ z ∈ zone, u = .zoneBit z false := by
  cases zone with
  | none => simpa [releases] using h
  | some z => simpa [releases] using h

/-- The updates made while giving back after `cause`, the error reported, and the log. What was not
given back is told by the error and by the last event. -/
inductive GivenBack (steady : Prop) (inode : UInt64) (zone : Option UInt64) (cause : Error) :
    List Update → Error → Log → Prop
  | all {log : Log} : GivenBack steady inode zone cause (releases inode.toNat zone) cause log
  | part {back : List Update} {f : Error} {fs : List Error} {log : Log} :
      back.Sublist (releases inode.toNat zone) → ¬ steady →
      log.back? = some (.notReleased inode (zone.getD 0) (f.joinAll fs)) →
      GivenBack steady inode zone cause back (cause.joinAll (f :: fs)) log

theorem Tried.sublist {steady : Prop} {us done : List Update} {r : Except Error Unit}
    (h : Tried steady us r done) : done.Sublist us := by
  cases h with
  | done => exact List.Sublist.refl _
  | failed e _ => exact List.nil_sublist _

theorem Tried.cases {steady : Prop} {us done : List Update} {r : Except Error Unit}
    (h : Tried steady us r done) : (r = .ok () ∧ done = us) ∨ ((∃ e, r = .error e) ∧ ¬ steady) := by
  cases h with
  | done => exact .inl ⟨rfl, rfl⟩
  | failed e failing => exact .inr ⟨⟨e, rfl⟩, failing⟩

namespace Volume

theorem failures_eq_nil_iff {results : List (Except Error Unit)} :
    failures results = [] ↔ ∀ r ∈ results, r = .ok () := by
  rw [failures, List.filterMap_eq_nil_iff]
  constructor
  · intro h r hr
    have := h r hr
    cases r with
    | ok a => rfl
    | error e => cases this
  · intro h r hr
    rw [h r hr]

variable {δ : Type} [Disk δ] {m : Mount δ} {v : Volume}

theorem ends_orGiveBack {α : Type} {step : MountM δ α} {inode zone : UInt64}
    {Q : α → Mount δ → Prop} {E E' : Stop → Mount δ → Prop} (h : Mount.Ends step m Q E')
    (error : ∀ e m', E' (.error e) m' → Mount.Ends (v.giveBack e inode zone) m'
      (fun err m'' => E (.error err) m'') E)
    (crash : ∀ p m', E' (.panic p) m' → E (.panic p) m') :
    Mount.Ends (v.orGiveBack inode zone step) m Q E := by
  have attempted : Mount.Ends (Mount.attempt step) m
      (fun r m' => (∃ a, r = .ok a ∧ Q a m') ∨ ∃ e, r = .error e ∧ E' (.error e) m') E :=
    Mount.Ends.attempt h (fun a _ h => .inl ⟨a, rfl, h⟩) (fun e _ h => .inr ⟨e, rfl, h⟩) crash
  refine Mount.Ends.next attempted ?_
  rintro r m' (⟨a, rfl, h'⟩ | ⟨e, rfl, h'⟩)
  · exact Mount.Ends.pure h'
  · exact Mount.Ends.next (error e m' h') fun _ _ h => Mount.Ends.fail h

variable [ImageDisk δ] {steady : Prop} {s : Scene}

theorem ends_step {x : MountM δ Unit} {u : Update}
    (h : Mount.Ends x m
      (fun _ m' => m'.Shows steady { s with image := u.apply v.superblock s.image })
      (fun t m' => Mishap steady 0 t ∧ m'.Shows steady s)) {E : Stop → Mount δ → Prop} :
    Mount.Ends (Mount.attempt x) m
      (fun r m' => ∃ done, Tried steady [u] r done ∧
        m'.Shows steady { s with image := Update.applyAll v.superblock s.image done }) E := by
  refine (Mount.ends_attempt h).imp ?_
  rintro r m' (⟨_, rfl, h'⟩ | ⟨e, rfl, -, failing, h'⟩)
  · exact ⟨[u], .done, h'⟩
  · exact ⟨[], .failed e failing, h'⟩

theorem ends_giveBack_left (h : m.Shows steady s) {cause : Error}
    (left : cause.hasKind .inconsistent = true) (inode zone : UInt64)
    {E : Stop → Mount δ → Prop} :
    Mount.Ends (v.giveBack cause inode zone) m
      (fun e m' => e = cause ∧ m'.Shows steady s) E := by
  rw [giveBack, if_pos left]
  exact Mount.Ends.of_exec rfl ⟨rfl, h.log _⟩

theorem ends_report (zone : Option UInt64) (h : m.Shows steady s) {cause : Error}
    {inode : UInt64} {us₁ us₂ us₃ done₁ done₂ done₃ : List Update}
    {r₁ r₂ r₃ : Except Error Unit} (h₁ : Tried steady us₁ r₁ done₁)
    (h₂ : Tried steady us₂ r₂ done₂) (h₃ : Tried steady us₃ r₃ done₃)
    (whole : us₁ ++ us₂ ++ us₃ = releases inode.toNat zone) {E : Stop → Mount δ → Prop} :
    Mount.Ends (match failures [r₁, r₂, r₃] with
        | [] => do
            Mount.emit (.released inode (zone.getD 0) cause)
            return cause
        | e :: rest => do
            Mount.emit (.notReleased inode (zone.getD 0) (e.joinAll rest))
            return cause.joinAll (e :: rest)) m
      (fun e m' => GivenBack steady inode zone cause (done₁ ++ done₂ ++ done₃) e m'.log ∧
        m'.Shows steady s) E := by
  have part : (done₁ ++ done₂ ++ done₃).Sublist (releases inode.toNat zone) := by
    rw [← whole]
    exact (h₁.sublist.append h₂.sublist).append h₃.sublist
  split
  · next none =>
      rw [failures_eq_nil_iff] at none
      have ok₁ := none r₁ (by simp)
      have ok₂ := none r₂ (by simp)
      have ok₃ := none r₃ (by simp)
      subst ok₁ ok₂ ok₃
      cases h₁
      cases h₂
      cases h₃
      rw [whole]
      exact Mount.Ends.of_exec rfl ⟨.all, h.log _⟩
  · next f fs some =>
      have failing : ¬ steady := by
        rcases h₁.cases with ⟨rfl, -⟩ | ⟨-, failing⟩
        · rcases h₂.cases with ⟨rfl, -⟩ | ⟨-, failing⟩
          · rcases h₃.cases with ⟨rfl, -⟩ | ⟨-, failing⟩
            · cases some
            · exact failing
          · exact failing
        · exact failing
      refine Mount.Ends.of_exec rfl ⟨.part part failing ?_, h.log _⟩
      exact Array.back?_push

theorem valid_releases {sb : Superblock} {n : Nat} (hn : sb.IsInode n) {zone : Option UInt64}
    (hz : ∀ z ∈ zone, sb.IsDataZone z) : ∀ u ∈ releases n zone, u.Valid sb := by
  intro u hu
  rcases mem_releases hu with rfl | rfl | ⟨z, mem, rfl⟩
  · exact hn
  · exact hn
  · exact hz z mem

theorem ends_giveBack (h : m.Shows steady s) (hf : v.superblock.Fits s.image.size)
    {inode : UInt64} (hi : v.superblock.IsInode inode.toNat) {zone : Option UInt64}
    (hz : ∀ z ∈ zone, v.superblock.IsDataZone z) {cause : Error}
    (calm : cause.hasKind .inconsistent = false) {E : Stop → Mount δ → Prop} :
    Mount.Ends (v.giveBack cause inode (zone.getD 0)) m
      (fun e m' => ∃ back, GivenBack steady inode zone cause back e m'.log ∧
        m'.Shows steady { s with image := Update.applyAll v.superblock s.image back }) E := by
  have nonzero : inode ≠ 0 := by
    rintro rfl
    exact absurd hi.1 (by decide)
  have valid := valid_releases hi hz
  have fits {done : List Update} (part : done.Sublist (releases inode.toNat zone)) :
      v.superblock.Fits (Update.applyAll v.superblock s.image done).size := by
    rw [Update.size_applyAll (fun u hu => valid u (part.subset hu)) hf]
    exact hf
  rw [giveBack, if_neg (by rw [calm]; decide)]
  simp only [if_neg nonzero]
  refine Mount.Ends.next (ends_step (Inode.ends_store h hf hi {})) ?_
  rintro r₁ m₁ ⟨done₁, tried₁, h₁⟩
  have part₁ : done₁.Sublist (releases inode.toNat zone) :=
    tried₁.sublist.trans (List.sublist_append_left [_] _)
  refine Mount.Ends.next (ends_step (Superblock.ends_freeInode h₁ (fits part₁) hi)) ?_
  rintro r₂ m₂ ⟨done₂, tried₂, h₂⟩
  rw [← Update.applyAll_append] at h₂
  have part₂ : (done₁ ++ done₂).Sublist (releases inode.toNat zone) :=
    (tried₁.sublist.append tried₂.sublist).trans (List.sublist_append_left _ _)
  cases zone with
  | none =>
      have nothing : Tried steady [] (.ok ()) [] := .done
      refine (ends_report none h₂ tried₁ tried₂ nothing rfl).imp ?_
      rintro e m' ⟨given, h'⟩
      rw [List.append_nil] at given
      exact ⟨_, given, h'⟩
  | some z =>
      have hz := hz z rfl
      have nonzero : z ≠ 0 := by
        rintro rfl
        have := hz.1
        have := hf.firstDataZone_pos
        have : (0 : UInt64).toNat = 0 := rfl
        omega
      simp only [Option.getD_some, if_neg nonzero]
      refine Mount.Ends.next (ends_step (Superblock.ends_freeZone h₂ (fits part₂) hz)) ?_
      rintro r₃ m₃ ⟨done₃, tried₃, h₃⟩
      rw [← Update.applyAll_append] at h₃
      refine (ends_report (some z) h₃ tried₁ tried₂ tried₃ rfl).imp ?_
      rintro e m' ⟨given, h'⟩
      exact ⟨_, given, h'⟩

end Volume

end MinixVolume

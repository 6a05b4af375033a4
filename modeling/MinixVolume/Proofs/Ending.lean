import MinixVolume.Mount

namespace MinixVolume.Mount

variable {δ α β : Type}

@[irreducible] def Ends (x : MountM δ α) (m : Mount δ) (Q : α → Mount δ → Prop)
    (E : Stop → Mount δ → Prop) : Prop :=
  match exec x m with
  | (.ok a, m') => Q a m'
  | (.error s, m') => E s m'

section Rules

variable {x : MountM δ α} {m : Mount δ} {Q Q' : α → Mount δ → Prop} {E E' : Stop → Mount δ → Prop}

theorem Ends.mono (h : Ends x m Q E) (hQ : ∀ a m', Q a m' → Q' a m')
    (hE : ∀ s m', E s m' → E' s m') : Ends x m Q' E' := by
  unfold Ends at h ⊢
  generalize exec x m = ending at h ⊢
  rcases ending with ⟨r, m'⟩
  cases r with
  | ok a => exact hQ a m' h
  | error s => exact hE s m' h

theorem Ends.imp {P : α → Mount δ → Prop} (h : Ends x m Q E) (hQ : ∀ a m', Q a m' → P a m') :
    Ends x m P E :=
  h.mono hQ fun _ _ h => h

theorem Ends.of_exec {a : α} {m' : Mount δ} (h : exec x m = (.ok a, m')) (hQ : Q a m') :
    Ends x m Q E := by
  rw [Ends, h]
  exact hQ

theorem Ends.of_exec_error {s : Stop} {m' : Mount δ} (h : exec x m = (.error s, m'))
    (hE : E s m') : Ends x m Q E := by
  rw [Ends, h]
  exact hE

theorem Ends.exec_eq (h : Ends x m Q E) :
    (∃ a m', exec x m = (.ok a, m') ∧ Q a m') ∨ ∃ s m', exec x m = (.error s, m') ∧ E s m' := by
  unfold Ends at h
  rcases hx : exec x m with ⟨r, m'⟩
  rw [hx] at h
  cases r with
  | ok a => exact .inl ⟨a, m', rfl, h⟩
  | error s => exact .inr ⟨s, m', rfl, h⟩

theorem Ends.exec_ok (h : Ends x m Q fun _ _ => False) :
    ∃ a m', exec x m = (.ok a, m') ∧ Q a m' := by
  rcases h.exec_eq with ok | ⟨_, _, _, impossible⟩
  · exact ok
  · cases impossible

theorem Ends.bind {f : α → MountM δ β} {P : β → Mount δ → Prop} (hx : Ends x m Q E')
    (hf : ∀ a m', Q a m' → Ends (f a) m' P E) (hE : ∀ s m', E' s m' → E s m') :
    Ends (x >>= f) m P E := by
  unfold Ends at hx
  rw [Ends, exec_bind]
  generalize exec x m = ending at hx ⊢
  rcases ending with ⟨r, m'⟩
  cases r with
  | ok a =>
      have next := hf a m' hx
      unfold Ends at next
      exact next
  | error s => exact hE s m' hx

theorem Ends.next {f : α → MountM δ β} {P : β → Mount δ → Prop} (hx : Ends x m Q E)
    (hf : ∀ a m', Q a m' → Ends (f a) m' P E) : Ends (x >>= f) m P E :=
  hx.bind hf fun _ _ h => h

theorem Ends.pure {a : α} (h : Q a m) : Ends (pure a : MountM δ α) m Q E :=
  Ends.of_exec (exec_pure a m) h

theorem Ends.fail {e : Error} (h : E (.error e) m) : Ends (fail e : MountM δ α) m Q E :=
  Ends.of_exec_error (exec_fail e m) h

theorem Ends.fail_bind {e : Error} {f : α → MountM δ β} {P : β → Mount δ → Prop}
    (h : E (.error e) m) : Ends ((Mount.fail e : MountM δ α) >>= f) m P E := by
  rw [Ends, exec_bind, exec_fail]
  exact h

theorem Ends.of_liftExcept {r : Except Stop α} (hQ : ∀ a, r = .ok a → Q a m)
    (hE : ∀ s, r = .error s → E s m) : Ends (liftExcept r : MountM δ α) m Q E := by
  cases r with
  | ok a => exact Ends.of_exec (exec_liftExcept _ m) (hQ a rfl)
  | error s => exact Ends.of_exec_error (exec_liftExcept _ m) (hE s rfl)

theorem Ends.ok_bind {a : α} {f : α → MountM δ β} {P : β → Mount δ → Prop}
    (h : Ends (f a) m P E) :
    Ends ((liftExcept (.ok a : Except Stop α) : MountM δ α) >>= f) m P E := by
  unfold Ends at h ⊢
  rw [exec_bind, exec_liftExcept]
  exact h

theorem Ends.wrapping {wrap : Error → Error} (h : Ends x m Q E')
    (hE : ∀ e m', E' (.error e) m' → E (.error (wrap e)) m')
    (hP : ∀ p m', E' (.panic p) m' → E (.panic p) m') : Ends (wrapping wrap x) m Q E := by
  unfold Ends at h
  rw [Ends, exec_wrapping]
  generalize exec x m = ending at h ⊢
  rcases ending with ⟨r, m'⟩
  rcases r with (e | p) | a
  · exact hE e m' h
  · exact hP p m' h
  · exact h

theorem Ends.attempt {P : Except Error α → Mount δ → Prop} (h : Ends x m Q E')
    (hQ : ∀ a m', Q a m' → P (.ok a) m') (hE : ∀ e m', E' (.error e) m' → P (.error e) m')
    (hP : ∀ p m', E' (.panic p) m' → E (.panic p) m') : Ends (attempt x) m P E := by
  unfold Ends at h
  rw [Ends, exec_attempt]
  generalize exec x m = ending at h ⊢
  rcases ending with ⟨r, m'⟩
  rcases r with (e | p) | a
  · exact hE e m' h
  · exact hP p m' h
  · exact hQ a m' h

theorem Ends.attempt_known {f : Error → Error} {R : Error → Mount δ → Prop}
    (h : Ends x m Q fun t m' => ∃ e, t = .error (f e) ∧ R e m') :
    Ends (Mount.attempt x) m
      (fun r m' => (∃ a, r = .ok a ∧ Q a m') ∨ ∃ e, r = .error (f e) ∧ R e m') E := by
  refine Ends.attempt h (fun a m' h => .inl ⟨a, rfl, h⟩) ?_ ?_
  · rintro _ m' ⟨e, ⟨⟩, known⟩
    exact .inr ⟨e, rfl, known⟩
  · rintro _ _ ⟨_, ⟨⟩, -⟩

theorem ends_get {f : Mount δ → MountM δ α} (h : Ends (f m) m Q E) :
    Ends (get >>= f) m Q E := by
  unfold Ends at h ⊢
  rw [exec_bind, exec_get]
  exact h

end Rules

end MinixVolume.Mount

import Paddock.Change

/-! What it takes for a computation to succeed, and for a change that fails to leave no trace. -/
namespace Paddock

section Except

variable {ε ε' α β : Type} {x : Except ε α} {f : α → Except ε β} {a : α} {b : β} {e : ε} {c : Prop}

theorem bind_eq_ok_iff : x >>= f = .ok b ↔ ∃ a, x = .ok a ∧ f a = .ok b := by
  cases x <;> simp [bind, Except.bind]

theorem bind_eq_error_iff : x >>= f = .error e ↔ x = .error e ∨ ∃ a, x = .ok a ∧ f a = .error e := by
  cases x <;> simp [bind, Except.bind]

@[simp] theorem throw_bind (e : ε) (f : α → Except ε β) : (throw e : Except ε α) >>= f = throw e := rfl

@[simp] theorem pure_eq_ok_iff {a' : α} : (pure a' : Except ε α) = .ok a ↔ a' = a := by
  simp [pure, Except.pure]

@[simp] theorem throw_ne_ok : (throw e : Except ε α) ≠ .ok a := nofun

/-- A guard is passed where its condition fails. -/
theorem guard_eq_ok_iff [Decidable c] :
    (if c then throw e else x) = .ok a ↔ ¬ c ∧ x = .ok a := by
  split <;> simp_all [throw_ne_ok]

@[simp] theorem mapError_eq_ok_iff {wrap : ε → ε'} : x.mapError wrap = .ok a ↔ x = .ok a := by
  cases x with
  | ok v =>
    change (Except.ok v : Except ε' α) = .ok a ↔ _
    simp
  | error e =>
    change (Except.error (wrap e) : Except ε' α) = .ok a ↔ _
    simp

theorem map_eq_ok_iff {g : α → β} : x.map g = .ok b ↔ ∃ a, x = .ok a ∧ g a = b := by
  cases x <;> simp [Except.map]

theorem exists_of_isOk (h : x.isOk = true) : ∃ a, x = .ok a := by
  cases x with
  | ok a => exact ⟨a, rfl⟩
  | error e => cases h

theorem forM_eq_ok_iff {l : List α} {f : α → Except ε Unit} : l.forM f = .ok () ↔ ∀ a ∈ l, f a = .ok () := by
  induction l with
  | nil => exact ⟨fun _ => List.forall_mem_nil _, fun _ => rfl⟩
  | cons a l ih =>
    rw [List.forall_mem_cons, ← ih]
    refine bind_eq_ok_iff.trans ⟨?_, fun h => ⟨(), h⟩⟩
    rintro ⟨_, h⟩
    exact h

/-! ### Errors that do not come up -/

theorem pure_ne_error : (pure a : Except ε α) ≠ .error e := nofun

theorem throw_ne_error {e' : ε} (h : e' ≠ e) : (throw e' : Except ε α) ≠ .error e :=
  fun he => h (Except.error.inj he)

theorem bind_ne_error (hx : x ≠ .error e) (hf : ∀ a, x = .ok a → f a ≠ .error e) :
    x >>= f ≠ .error e := by
  cases x with
  | ok a => exact hf a rfl
  | error e' => exact fun h => hx (congrArg _ (Except.error.inj h))

theorem guard_ne_error [Decidable c] {e' : ε} (he : c → e' ≠ e) (hx : ¬ c → x ≠ .error e) :
    (if c then throw e' else x) ≠ .error e := by
  split
  · next h => exact fun h' => he h (Except.error.inj h')
  · next h => exact hx h

/-- An error that is told as one of another sort is not one of this. -/
theorem mapError_ne_error {wrap : ε → ε'} {e : ε'} (h : ∀ e', wrap e' ≠ e) :
    x.mapError wrap ≠ .error e := by
  cases x with
  | ok a => nofun
  | error e' => exact fun he => h e' (Except.error.inj he)

theorem mapM_ne_error {l : List α} (h : ∀ a ∈ l, f a ≠ .error e) : l.mapM f ≠ .error e := by
  induction l with
  | nil => exact pure_ne_error
  | cons a l ih =>
    obtain ⟨ha, hl⟩ := List.forall_mem_cons.mp h
    rw [List.mapM_cons]
    exact bind_ne_error ha fun _ _ => bind_ne_error (ih hl) fun _ _ => pure_ne_error

end Except

namespace Change

variable {ε ε' σ τ α β : Type} {x : Change ε σ α} {f : α → Change ε σ β} {s s' : σ} {a : α} {b : β}

theorem bind_ok_iff : (x >>= f) s = .ok b s' ↔ ∃ a t, x s = .ok a t ∧ f a t = .ok b s' := by
  cases h : x s <;> simp [bind, EStateM.bind, h, and_assoc]

theorem bind_error_iff {e : ε} :
    (x >>= f) s = .error e s' ↔ x s = .error e s' ∨ ∃ a t, x s = .ok a t ∧ f a t = .error e s' := by
  cases h : x s <;> simp [bind, EStateM.bind, h, and_assoc]

@[simp] theorem pure_ok_iff {a' : α} : (pure a' : Change ε σ α) s = .ok a s' ↔ a' = a ∧ s = s' := by
  simp [pure, EStateM.pure]

@[simp] theorem map_ok_iff {g : α → β} : (g <$> x) s = .ok b s' ↔ ∃ a, x s = .ok a s' ∧ g a = b := by
  cases h : x s with
  | ok a t => simp [Functor.map, EStateM.map, h, and_assoc, and_comm (a := t = s')]
  | error e t => simp [Functor.map, EStateM.map, h]

@[simp] theorem get_ok_iff {t : σ} : (get : Change ε σ σ) s = .ok t s' ↔ s = t ∧ s = s' := by
  change EStateM.Result.ok s s = .ok t s' ↔ _
  simp

@[simp] theorem modify_ok_iff {g : σ → σ} {u : PUnit} :
    (modify g : Change ε σ PUnit) s = .ok u s' ↔ g s = s' := by
  change EStateM.Result.ok PUnit.unit (g s) = .ok u s' ↔ _
  simp

@[simp] theorem check_ok_iff {look : σ → Except ε α} : check look s = .ok a s' ↔ look s = .ok a ∧ s = s' := by
  unfold check
  cases look s <;> simp

/-- A look at the state leaves it to what follows. -/
theorem check_bind_ok_iff {look : σ → Except ε α} :
    (check look >>= f) s = .ok b s' ↔ ∃ a, look s = .ok a ∧ f a s = .ok b s' := by
  simp only [bind_ok_iff, check_ok_iff]
  constructor
  · rintro ⟨a, _, ⟨ha, rfl⟩, h⟩
    exact ⟨a, ha, h⟩
  · rintro ⟨a, ha, h⟩
    exact ⟨a, s, ⟨ha, rfl⟩, h⟩

theorem check_bind_of_ok {look : σ → Except ε α} (h : look s = .ok a) : (check look >>= f) s = f a s := by
  simp only [Bind.bind, EStateM.bind, check, h]

theorem check_bind_of_error {look : σ → Except ε α} {e : ε} (h : look s = .error e) :
    (check look >>= f) s = .error e s := by
  simp only [Bind.bind, EStateM.bind, check, h]

theorem get_bind_ok_iff {f : σ → Change ε σ β} : (get >>= f) s = .ok b s' ↔ f s s = .ok b s' := Iff.rfl

theorem modify_bind_ok_iff {g : σ → σ} {f : PUnit → Change ε σ β} :
    (modify g >>= f) s = .ok b s' ↔ f ⟨⟩ (g s) = .ok b s' := Iff.rfl

@[simp] theorem throw_ne_ok {e : ε} : (throw e : Change ε σ α) s ≠ .ok a s' := nofun

@[simp] theorem modifyGet_ok_iff {g : σ → α × σ} :
    (modifyGet g : Change ε σ α) s = .ok a s' ↔ g s = (a, s') := by
  change EStateM.Result.ok (g s).1 (g s).2 = .ok a s' ↔ _
  simp [Prod.ext_iff]

theorem outcome_ok_iff : x.outcome s = .ok (a, s') ↔ x s = .ok a s' := by
  unfold outcome
  cases x s <;> simp

theorem outcome_check_bind {look : σ → Except ε α} :
    (check look >>= f).outcome s = look s >>= fun a => (f a).outcome s := by
  simp only [outcome, Bind.bind, EStateM.bind, check, Except.bind]
  cases look s <;> rfl

/-- A change that answers nothing, by the state that it leads to. -/
theorem outcome_state_iff {x : Change ε σ Unit} : (x.outcome s).map Prod.snd = .ok s' ↔ x s = .ok () s' := by
  unfold outcome
  cases x s <;> simp [Except.map]

@[simp] theorem within_ok_iff {part : σ → τ} {put : σ → τ → σ} {wrap : ε → ε'} {x : Change ε τ α} :
    x.within part put wrap s = .ok a s' ↔ ∃ t, x (part s) = .ok a t ∧ put s t = s' := by
  unfold within
  cases x (part s) <;> simp [and_assoc]

@[simp] theorem adaptExcept_ok_iff {wrap : ε → ε'} :
    (EStateM.adaptExcept wrap x : Change ε' σ α) s = .ok a s' ↔ x s = .ok a s' := by
  simp only [EStateM.adaptExcept]
  cases x s <;> simp

theorem adaptExcept_error_iff {wrap : ε → ε'} {e : ε'} :
    (EStateM.adaptExcept wrap x : Change ε' σ α) s = .error e s' ↔ ∃ e', x s = .error e' s' ∧ wrap e' = e := by
  simp only [EStateM.adaptExcept]
  cases x s <;> simp [and_assoc, and_comm (a := _ = s')]

@[simp] theorem tidied_ok_iff {tidy : σ → σ} : x.tidied tidy s = .ok a s' ↔ x s = .ok a s' := by
  unfold tidied
  cases x s <;> simp

/-! ### Failing without a trace -/

/-- Where the change fails, it has not yet changed anything. -/
def Clean (x : Change ε σ α) (s : σ) : Prop := ∀ e s', x s = .error e s' → s' = s

def Succeeds (x : Change ε σ α) (s : σ) : Prop := ∃ a s', x s = .ok a s'

theorem Succeeds.clean (h : x.Succeeds s) : x.Clean s := by
  obtain ⟨a, s', h⟩ := h
  intro e t he
  rw [h] at he
  cases he

theorem clean_throw (e : ε) : (throw e : Change ε σ α).Clean s := by
  intro e' s' h
  cases h
  rfl

theorem succeeds_pure (a : α) : (pure a : Change ε σ α).Succeeds s := ⟨a, s, rfl⟩

theorem succeeds_modify (g : σ → σ) : (modify g : Change ε σ PUnit).Succeeds s := ⟨⟨⟩, g s, rfl⟩

theorem succeeds_modifyGet (g : σ → α × σ) : (modifyGet g : Change ε σ α).Succeeds s := ⟨_, _, rfl⟩

theorem Succeeds.bind (hx : x.Succeeds s) (hf : ∀ a t, x s = .ok a t → (f a).Succeeds t) :
    (x >>= f).Succeeds s := by
  obtain ⟨a, t, h⟩ := hx
  obtain ⟨b, s', h'⟩ := hf a t h
  exact ⟨b, s', bind_ok_iff.mpr ⟨a, t, h, h'⟩⟩

/-- Once a step was taken, all that follows has to succeed. -/
theorem Clean.bind (hx : x.Clean s) (hf : ∀ a t, x s = .ok a t → (f a).Succeeds t) :
    (x >>= f).Clean s := by
  intro e s' h
  cases hxs : x s with
  | ok a t =>
    obtain ⟨b, s'', h'⟩ := hf a t hxs
    rw [bind_ok_iff.mpr ⟨a, t, hxs, h'⟩] at h
    cases h
  | error e' t =>
    simp only [Bind.bind, EStateM.bind, hxs] at h
    cases h
    exact hx _ _ hxs

/-- A look at the state is no step. -/
theorem clean_check_bind {look : σ → Except ε α} (hf : ∀ a, look s = .ok a → (f a).Clean s) :
    (check look >>= f).Clean s := by
  intro e s' h
  cases hl : look s with
  | ok a =>
    simp only [Bind.bind, EStateM.bind, check, hl] at h
    exact hf a hl e s' h
  | error e' =>
    simp only [Bind.bind, EStateM.bind, check, hl] at h
    cases h
    rfl

theorem clean_get_bind {f : σ → Change ε σ β} (hf : (f s).Clean s) : (get >>= f).Clean s :=
  fun e s' h => hf e s' h

theorem Clean.result_error (hx : x.Clean s) {e : ε} (h : (x.result s).1 = .error e) : (x.result s).2 = s := by
  unfold result at h ⊢
  cases hxs : x s with
  | ok a t =>
    rw [hxs] at h
    cases h
  | error e' t => exact hx e' t hxs

/-- What is put in order after a clean change is the state from before it. -/
theorem Clean.tidied {tidy : σ → σ} (hx : x.Clean s) {e : ε} (h : x.tidied tidy s = .error e s') : s' = tidy s := by
  unfold Change.tidied at h
  split at h <;> cases h
  next hxs => rw [hx _ _ hxs]

theorem Clean.map {g : α → β} (hx : x.Clean s) : (g <$> x).Clean s := by
  intro e s' h
  simp only [Functor.map, EStateM.map] at h
  split at h <;> cases h
  exact hx _ _ ‹_›

theorem Clean.adaptExcept {wrap : ε → ε'} (hx : x.Clean s) :
    Clean (EStateM.adaptExcept wrap x : Change ε' σ α) s := by
  intro e s' h
  simp only [EStateM.adaptExcept] at h
  split at h <;> cases h
  exact hx _ _ ‹_›

/-- A clean change has either been carried out or left the state alone. -/
theorem Clean.result_cases (hx : x.Clean s) : (x.result s).2 = s ∨ ∃ a, x s = .ok a (x.result s).2 := by
  unfold result
  cases h : x s with
  | ok a t => exact .inr ⟨a, rfl⟩
  | error e t => exact .inl (hx e t h)

theorem Clean.within {part : σ → τ} {put : σ → τ → σ} {wrap : ε → ε'} {x : Change ε τ α}
    (hx : x.Clean (part s)) (hput : put s (part s) = s) : (x.within part put wrap).Clean s := by
  intro e s' h
  unfold Change.within at h
  split at h <;> cases h
  rename_i hxs
  rw [hx _ _ hxs, hput]

theorem Succeeds.within {part : σ → τ} {put : σ → τ → σ} {wrap : ε → ε'} {x : Change ε τ α}
    (hx : x.Succeeds (part s)) : (x.within part put wrap).Succeeds s := by
  obtain ⟨a, t, h⟩ := hx
  exact ⟨a, put s t, within_ok_iff.mpr ⟨t, h, rfl⟩⟩

/-! ### Failures that do not happen -/

/-- The change does not fail with this. -/
def Avoids (x : Change ε σ α) (s : σ) (e : ε) : Prop := ∀ s', x s ≠ .error e s'

theorem Succeeds.avoids {e : ε} (h : x.Succeeds s) : x.Avoids s e := by
  obtain ⟨a, t, h⟩ := h
  intro s' he
  rw [h] at he
  cases he

theorem Avoids.bind {e : ε} (hx : x.Avoids s e) (hf : ∀ a t, x s = .ok a t → (f a).Avoids t e) :
    (x >>= f).Avoids s e := by
  intro s' h
  cases hxs : x s with
  | ok a t =>
    simp only [Bind.bind, EStateM.bind, hxs] at h
    exact hf a t hxs s' h
  | error e' t =>
    simp only [Bind.bind, EStateM.bind, hxs] at h
    cases h
    exact hx _ hxs

theorem Avoids.map {e : ε} {g : α → β} (hx : x.Avoids s e) : (g <$> x).Avoids s e := by
  intro s' h
  simp only [Functor.map, EStateM.map] at h
  split at h <;> cases h
  exact hx _ ‹_›

theorem avoids_check {look : σ → Except ε α} {e : ε} (h : look s ≠ .error e) :
    (check look).Avoids s e := by
  intro s' he
  unfold check at he
  split at he <;> cases he
  exact h ‹_›

theorem avoids_get_bind {f : σ → Change ε σ β} {e : ε} (hf : (f s).Avoids s e) :
    (get >>= f).Avoids s e :=
  fun s' h => hf s' h

theorem avoids_within {part : σ → τ} {put : σ → τ → σ} {wrap : ε → ε'} {x : Change ε τ α} {e : ε'}
    (h : ∀ e', wrap e' ≠ e) : (x.within part put wrap).Avoids s e := by
  intro s' he
  unfold Change.within at he
  split at he <;> cases he
  exact h _ rfl

/-! ### What changes keep -/

/-- The change leaves a state of this sort where it found one. -/
def Keeps (P : σ → Prop) (x : Change ε σ α) : Prop := ∀ ⦃s a s'⦄, P s → x s = .ok a s' → P s'

theorem Keeps.bind {P : σ → Prop} (hx : x.Keeps P) (hf : ∀ a, (f a).Keeps P) : (x >>= f).Keeps P := by
  intro s b s' hs h
  obtain ⟨a, t, ha, hb⟩ := bind_ok_iff.mp h
  exact hf a (hx hs ha) hb

theorem keeps_forM {P : σ → Prop} {l : List β} {f : β → Change ε σ Unit} (hf : ∀ b ∈ l, (f b).Keeps P) :
    Keeps P (l.forM f) := by
  induction l with
  | nil =>
    intro s u s' hs h
    obtain ⟨-, rfl⟩ := pure_ok_iff.mp h
    exact hs
  | cons b l ih =>
    obtain ⟨hb, hl⟩ := List.forall_mem_cons.mp hf
    exact hb.bind fun _ => ih hl

theorem Keeps.adaptExcept {P : σ → Prop} {wrap : ε → ε'} (hx : x.Keeps P) :
    Keeps P (EStateM.adaptExcept wrap x : Change ε' σ α) :=
  fun _ _ _ hs h => hx hs (adaptExcept_ok_iff.mp h)

/-! ### Changes of images -/

/-- What the change does to a state, it does to the state's image. -/
def Respects (f : σ → σ) (x : Change ε σ α) : Prop :=
  ∀ ⦃s a s'⦄, x s = .ok a s' → x (f s) = .ok a (f s')

theorem respects_pure {g : σ → σ} (a : α) : (pure a : Change ε σ α).Respects g := by
  intro s b s' h
  obtain ⟨rfl, rfl⟩ := pure_ok_iff.mp h
  rfl

theorem Respects.bind {g : σ → σ} (hx : x.Respects g) (hf : ∀ a, (f a).Respects g) :
    (x >>= f).Respects g := by
  intro s b s' h
  obtain ⟨a, t, ha, hb⟩ := bind_ok_iff.mp h
  exact bind_ok_iff.mpr ⟨a, g t, hx ha, hf a hb⟩

theorem respects_forM {g : σ → σ} {l : List β} {f : β → Change ε σ Unit}
    (hf : ∀ b, (f b).Respects g) : Respects g (l.forM f) := by
  induction l with
  | nil => exact respects_pure ()
  | cons b l ih => exact (hf b).bind fun _ => ih

theorem Respects.adaptExcept {g : σ → σ} {wrap : ε → ε'} (hx : x.Respects g) :
    Respects g (EStateM.adaptExcept wrap x : Change ε' σ α) :=
  fun _ _ _ h => adaptExcept_ok_iff.mpr (hx (adaptExcept_ok_iff.mp h))

end Change

end Paddock

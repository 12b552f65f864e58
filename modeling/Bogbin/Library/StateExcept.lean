import Mathlib.Tactic

/-!
# Computations with a state and exceptions

Inversion rules for `EStateM`, in which the state that a computation had reached stays when it
raises: what a result of a sequence of steps says about the steps.
-/

namespace StateExcept

variable {ε σ α β : Type} {x : EStateM ε σ α} {f : α → EStateM ε σ β} {s s' : σ} {a : α} {b : β}
  {e : ε}

theorem bind_eq_ok :
    (x >>= f) s = .ok b s' ↔ ∃ a s₁, x s = .ok a s₁ ∧ f a s₁ = .ok b s' := by
  change EStateM.bind x f s = _ ↔ _
  unfold EStateM.bind
  cases x s with
  | ok a s₁ => simp
  | error e s₁ => simp

theorem bind_eq_error :
    (x >>= f) s = .error e s' ↔
      x s = .error e s' ∨ ∃ a s₁, x s = .ok a s₁ ∧ f a s₁ = .error e s' := by
  change EStateM.bind x f s = _ ↔ _
  unfold EStateM.bind
  cases x s with
  | ok a s₁ => simp
  | error e s₁ => simp

theorem bind_of_ok {s₁ : σ} (h : x s = .ok a s₁) : (x >>= f) s = f a s₁ := by
  change EStateM.bind x f s = _
  rw [EStateM.bind, h]

theorem bind_of_error {s₁ : σ} (h : x s = .error e s₁) : (x >>= f) s = .error e s₁ := by
  change EStateM.bind x f s = _
  rw [EStateM.bind, h]

@[simp] theorem pure_apply : (pure a : EStateM ε σ α) s = .ok a s := rfl

@[simp] theorem throw_apply : (throw e : EStateM ε σ α) s = .error e s := rfl

@[simp] theorem get_apply : (get : EStateM ε σ σ) s = .ok s s := rfl

@[simp] theorem set_apply : (set s' : EStateM ε σ PUnit) s = .ok ⟨⟩ s' := rfl

@[simp] theorem modify_apply (g : σ → σ) : (modify g : EStateM ε σ PUnit) s = .ok ⟨⟩ (g s) := rfl

@[simp] theorem ofExcept_ok : (MonadExcept.ofExcept (.ok a) : EStateM ε σ α) s = .ok a s := rfl

@[simp] theorem ofExcept_error :
    (MonadExcept.ofExcept (.error e : Except ε α) : EStateM ε σ α) s = .error e s := rfl

theorem ofExcept_eq_ok {r : Except ε α} :
    (MonadExcept.ofExcept r : EStateM ε σ α) s = .ok a s' ↔ r = .ok a ∧ s' = s := by
  cases r with
  | ok a' => simp [eq_comm]
  | error e' => simp

theorem ofExcept_eq_error {r : Except ε α} :
    (MonadExcept.ofExcept r : EStateM ε σ α) s = .error e s' ↔ r = .error e ∧ s' = s := by
  cases r with
  | ok a' => simp
  | error e' => simp [eq_comm]

/-- A result of a computation that goes on with a value. -/
theorem ofExcept_bind_eq_ok {r : Except ε α} :
    (MonadExcept.ofExcept r >>= f) s = .ok b s' ↔ ∃ a, r = .ok a ∧ f a s = .ok b s' := by
  rw [bind_eq_ok]
  constructor
  · rintro ⟨a, s₁, hr, hf⟩
    obtain ⟨hr, hs⟩ := ofExcept_eq_ok.mp hr
    rw [hs] at hf
    exact ⟨a, hr, hf⟩
  · rintro ⟨a, rfl, hf⟩
    exact ⟨a, s, rfl, hf⟩

theorem ofExcept_bind_eq_error {r : Except ε α} :
    (MonadExcept.ofExcept r >>= f) s = .error e s' ↔
      r = .error e ∧ s' = s ∨ ∃ a, r = .ok a ∧ f a s = .error e s' := by
  cases r with
  | ok a' => rw [bind_of_ok ofExcept_ok]; simp
  | error e' => rw [bind_of_error ofExcept_error]; simp [eq_comm]

theorem ok_bind {g : α → Except ε β} : (Except.ok a >>= g) = g a := rfl

theorem error_bind {g : α → Except ε β} : ((Except.error e : Except ε α) >>= g) = .error e := rfl

/-- Two computations go on with the same results. -/
theorem except_bind_congr {r : Except ε α} {g g' : α → Except ε β} (h : ∀ a, r = .ok a → g a = g' a) :
    (r >>= g) = r >>= g' := by
  cases hr : r with
  | error e => rfl
  | ok a => exact h a hr

theorem ite_error_eq_ok {c : Prop} [Decidable c] {r : Except ε α} :
    (if c then .error e else r) = .ok a ↔ ¬c ∧ r = .ok a := by
  by_cases h : c
  · simp [h]
  · simp [h]

/-- A loop gives the results of its steps. -/
theorem mapM_eq_ok {g : α → Except ε β} {l : List α} {bs : List β}
    (h : List.Forall₂ (fun a b => g a = .ok b) l bs) : l.mapM g = .ok bs := by
  induction h with
  | nil => rfl
  | cons hb _ ih => rw [List.mapM_cons, hb, ok_bind, ih, ok_bind]; rfl

theorem exists_mapM_eq_ok {g : α → Except ε β} {l : List α} (h : ∀ a ∈ l, ∃ b, g a = .ok b) :
    ∃ bs, l.mapM g = .ok bs := by
  induction l with
  | nil => exact ⟨[], rfl⟩
  | cons a l ih =>
    obtain ⟨hb, hl⟩ := List.forall_mem_cons.mp h
    obtain ⟨b, hb⟩ := hb
    obtain ⟨bs, hbs⟩ := ih hl
    exact ⟨b :: bs, by rw [List.mapM_cons, hb, ok_bind, hbs, ok_bind]; rfl⟩

/-- A loop whose steps give results that are related to their items. -/
theorem exists_mapM_forall₂ {g : α → Except ε β} {R : α → β → Prop} {l : List α}
    (h : ∀ a ∈ l, ∃ b, g a = .ok b ∧ R a b) : ∃ bs, l.mapM g = .ok bs ∧ List.Forall₂ R l bs := by
  induction l with
  | nil => exact ⟨[], rfl, .nil⟩
  | cons a l ih =>
    obtain ⟨⟨b, hb, hr⟩, hl⟩ := List.forall_mem_cons.mp h
    obtain ⟨bs, hbs, hrs⟩ := ih hl
    exact ⟨b :: bs, by rw [List.mapM_cons, hb, ok_bind, hbs, ok_bind]; rfl, .cons hr hrs⟩

/-- Every step of a loop that gives results gives one. -/
theorem forall_of_mapM_eq_ok {g : α → Except ε β} {l : List α} {bs : List β} (h : l.mapM g = .ok bs) :
    List.Forall₂ (fun a b => g a = .ok b) l bs := by
  induction l generalizing bs with
  | nil =>
    obtain rfl := Except.ok.inj h
    exact .nil
  | cons a l ih =>
    rw [List.mapM_cons] at h
    cases ha : g a with
    | error e =>
      rw [ha] at h
      cases h
    | ok b =>
      cases hl : l.mapM g with
      | error e =>
        rw [ha, ok_bind, hl] at h
        cases h
      | ok bs' =>
        rw [ha, ok_bind, hl] at h
        obtain rfl := Except.ok.inj h
        exact .cons ha (ih hl)

theorem exists_of_mapM_eq_ok {g : α → Except ε β} {l : List α} {bs : List β} (h : l.mapM g = .ok bs)
    {a : α} (ha : a ∈ l) : ∃ b ∈ bs, g a = .ok b := by
  have hall := forall_of_mapM_eq_ok h
  clear h
  induction hall with
  | nil => exact absurd ha List.not_mem_nil
  | cons hb _ ih =>
    rcases List.mem_cons.mp ha with rfl | ha
    · exact ⟨_, List.mem_cons_self, hb⟩
    · obtain ⟨b, hmem, hb⟩ := ih ha
      exact ⟨b, List.mem_cons_of_mem _ hmem, hb⟩

/-- The items that the results of a loop come from. -/
theorem forall₂_mem {R : α → β → Prop} {l : List α} {bs : List β} (h : List.Forall₂ R l bs) :
    ∀ b ∈ bs, ∃ a ∈ l, R a b := by
  induction h with
  | nil => exact nofun
  | cons hr _ ih =>
    refine List.forall_mem_cons.mpr ⟨⟨_, List.mem_cons_self, hr⟩, fun b hb => ?_⟩
    obtain ⟨a, ha, hr⟩ := ih b hb
    exact ⟨a, List.mem_cons_of_mem _ ha, hr⟩

theorem forall₂_map {γ : Type*} {R : α → β → Prop} {f : α → γ} {g : β → γ} {l : List α} {bs : List β}
    (h : List.Forall₂ R l bs) (hr : ∀ a b, R a b → g b = f a) : bs.map g = l.map f := by
  induction h with
  | nil => rfl
  | cons hab _ ih => rw [List.map_cons, List.map_cons, hr _ _ hab, ih]

theorem mapM_eq_map {g : α → Except ε β} {f : α → β} {l : List α} (h : ∀ a ∈ l, g a = .ok (f a)) :
    l.mapM g = .ok (l.map f) := by
  induction l with
  | nil => rfl
  | cons a l ih =>
    obtain ⟨ha, hl⟩ := List.forall_mem_cons.mp h
    rw [List.mapM_cons, ha, ok_bind, ih hl, ok_bind]
    rfl

theorem filterAuxM_eq {p : α → Except ε Bool} {q : α → Bool} {l acc : List α}
    (h : ∀ a ∈ l, p a = .ok (q a)) : l.filterAuxM p acc = .ok ((l.filter q).reverse ++ acc) := by
  induction l generalizing acc with
  | nil => rfl
  | cons a l ih =>
    obtain ⟨ha, hl⟩ := List.forall_mem_cons.mp h
    rw [List.filterAuxM, ha, ok_bind, ih hl]
    cases hq : q a with
    | true => simp [hq]
    | false => simp [hq]

theorem filterM_eq {p : α → Except ε Bool} {q : α → Bool} {l : List α}
    (h : ∀ a ∈ l, p a = .ok (q a)) : l.filterM p = .ok (l.filter q) := by
  rw [List.filterM, filterAuxM_eq h, ok_bind, List.append_nil, List.reverse_reverse]
  rfl

theorem forall_of_filterAuxM_eq_ok {p : α → Except ε Bool} {l acc out : List α}
    (h : l.filterAuxM p acc = .ok out) : ∀ a ∈ l, ∃ b, p a = .ok b := by
  induction l generalizing acc with
  | nil => exact nofun
  | cons a l ih =>
    rw [List.filterAuxM] at h
    cases ha : p a with
    | error e =>
      rw [ha] at h
      cases h
    | ok b =>
      rw [ha, ok_bind] at h
      exact List.forall_mem_cons.mpr ⟨⟨b, ha⟩, ih h⟩

theorem forall_of_filterM_eq_ok {p : α → Except ε Bool} {l out : List α} (h : l.filterM p = .ok out) :
    ∀ a ∈ l, ∃ b, p a = .ok b := by
  rw [List.filterM] at h
  cases haux : l.filterAuxM p [] with
  | error e =>
    rw [haux] at h
    cases h
  | ok found => exact forall_of_filterAuxM_eq_ok haux

/-- An exception that no step of a sequence raises is not raised. -/
theorem bind_ne_error {x : Except ε α} {g : α → Except ε β} (hx : x ≠ .error e)
    (hg : ∀ a, x = .ok a → g a ≠ .error e) : (x >>= g) ≠ .error e := by
  cases x with
  | error e' =>
    intro h
    obtain rfl := Except.error.inj h
    exact hx rfl
  | ok a => exact hg a rfl

/-- A computation with a state never raises this exception. -/
def Never (e : ε) (x : EStateM ε σ α) : Prop := ∀ s s', x s ≠ .error e s'

theorem never_bind (hx : Never e x) (hf : ∀ a, Never e (f a)) : Never e (x >>= f) := by
  intro s s' h
  rcases bind_eq_error.mp h with h | ⟨a, s₁, -, h⟩
  · exact hx s s' h
  · exact hf a s₁ s' h

theorem never_pure : Never e (pure a : EStateM ε σ α) := nofun

theorem never_get : Never e (get : EStateM ε σ σ) := nofun

theorem never_set : Never e (set s : EStateM ε σ PUnit) := nofun

theorem never_modify {g : σ → σ} : Never e (modify g : EStateM ε σ PUnit) := nofun

theorem never_throw {e' : ε} (h : e' ≠ e) : Never e (throw e' : EStateM ε σ α) := by
  intro s s' heq
  exact h (EStateM.Result.error.inj heq).1

theorem never_ofExcept {r : Except ε α} (h : r ≠ .error e) :
    Never e (MonadExcept.ofExcept r : EStateM ε σ α) := by
  intro s s' heq
  exact h (ofExcept_eq_error.mp heq).1

/-- A computation ends with a result. -/
def Ends (x : EStateM ε σ α) (s : σ) : Prop := ∃ a s', x s = .ok a s'

theorem ends_bind : Ends (x >>= f) s ↔ ∃ a s₁, x s = .ok a s₁ ∧ Ends (f a) s₁ := by
  constructor
  · rintro ⟨b, s', h⟩
    obtain ⟨a, s₁, hx, hf⟩ := bind_eq_ok.mp h
    exact ⟨a, s₁, hx, b, s', hf⟩
  · rintro ⟨a, s₁, hx, b, s', hf⟩
    exact ⟨b, s', bind_eq_ok.mpr ⟨a, s₁, hx, hf⟩⟩

/-- The state in which a computation ends has this property. -/
def Keeps (P : σ → Prop) (x : EStateM ε σ α) (s : σ) : Prop := ∀ a s', x s = .ok a s' → P s'

section Keeps

variable {P : σ → Prop}

theorem keeps_bind (hx : Keeps P x s) (hf : ∀ a s₁, P s₁ → Keeps P (f a) s₁) :
    Keeps P (x >>= f) s := by
  intro b s' h
  obtain ⟨a, s₁, ha, h⟩ := bind_eq_ok.mp h
  exact hf a s₁ (hx a s₁ ha) b s' h

theorem keeps_throw : Keeps P (throw e : EStateM ε σ α) s := fun _ _ h => nomatch h

theorem keeps_pure (h : P s) : Keeps P (pure a : EStateM ε σ α) s := by
  intro a' s' hok
  obtain ⟨rfl, rfl⟩ := EStateM.Result.ok.inj hok
  exact h

theorem keeps_modify {g : σ → σ} (h : P (g s)) : Keeps P (modify g : EStateM ε σ PUnit) s := by
  intro a' s' hok
  obtain ⟨rfl, rfl⟩ := EStateM.Result.ok.inj hok
  exact h

theorem keeps_get_bind {g : σ → EStateM ε σ β} (h : Keeps P (g s) s) : Keeps P (get >>= g) s := by
  unfold Keeps
  rw [bind_of_ok get_apply]
  exact h

theorem keeps_ofExcept {r : Except ε α} (h : P s) :
    Keeps P (MonadExcept.ofExcept r : EStateM ε σ α) s := by
  intro a s' hok
  obtain ⟨-, rfl⟩ := ofExcept_eq_ok.mp hok
  exact h

theorem keeps_ofExcept_bind {r : Except ε α} (h : ∀ a, r = .ok a → Keeps P (f a) s) :
    Keeps P (MonadExcept.ofExcept r >>= f) s := by
  intro b s' hok
  obtain ⟨a, ha, hok⟩ := ofExcept_bind_eq_ok.mp hok
  exact h a ha b s' hok

end Keeps

/-- The state after a computation, also when it raises. -/
def after : EStateM.Result ε σ α → σ
  | .ok _ s => s
  | .error _ s => s

section After

variable {P : σ → Prop}

/-- The first part keeps a property that implies `P`, and with which the second part keeps `P`. -/
theorem after_bind_of {Q : σ → Prop} (hx : Q (after (x s))) (hQ : ∀ s₁, Q s₁ → P s₁)
    (hf : ∀ a s₁, Q s₁ → P (after (f a s₁))) : P (after ((x >>= f) s)) := by
  cases h : x s with
  | ok a s₁ =>
    rw [h] at hx
    rw [bind_of_ok h]
    exact hf a s₁ hx
  | error e s₁ =>
    rw [h] at hx
    rw [bind_of_error h]
    exact hQ s₁ hx

theorem after_bind (hx : P (after (x s))) (hf : ∀ a s₁, P s₁ → P (after (f a s₁))) :
    P (after ((x >>= f) s)) :=
  after_bind_of hx (fun _ h => h) hf

theorem after_ofExcept {r : Except ε α} (h : P s) :
    P (after ((MonadExcept.ofExcept r : EStateM ε σ α) s)) := by
  cases r <;> exact h

theorem after_ofExcept_bind {r : Except ε α} (h : P s) (hf : ∀ a, r = .ok a → P (after (f a s))) :
    P (after ((MonadExcept.ofExcept r >>= f) s)) := by
  cases hr : r with
  | ok a =>
    rw [bind_of_ok ofExcept_ok]
    exact hf a hr
  | error e =>
    rw [bind_of_error ofExcept_error]
    exact h

end After

/-- A computation raises only this exception. -/
def RaisesOnly (e : ε) (x : EStateM ε σ α) (s : σ) : Prop := ∀ e' s', x s = .error e' s' → e' = e

theorem raisesOnly_throw : RaisesOnly e (throw e : EStateM ε σ α) s :=
  fun _ _ h => (EStateM.Result.error.inj h).1.symm

theorem raisesOnly_of_ends (h : Ends x s) : RaisesOnly e x s := by
  intro e' s' herror
  obtain ⟨a, s₁, hok⟩ := h
  rw [hok] at herror
  cases herror

theorem raisesOnly_bind (hx : RaisesOnly e x s)
    (hf : ∀ a s₁, x s = .ok a s₁ → RaisesOnly e (f a) s₁) : RaisesOnly e (x >>= f) s := by
  intro e' s' h
  rcases bind_eq_error.mp h with h | ⟨a, s₁, ha, h⟩
  · exact hx e' s' h
  · exact hf a s₁ ha e' s' h

theorem raisesOnly_get_bind {g : σ → EStateM ε σ β} (h : RaisesOnly e (g s) s) :
    RaisesOnly e (get >>= g) s := by
  unfold RaisesOnly
  rw [bind_of_ok get_apply]
  exact h

theorem raisesOnly_ofExcept {r : Except ε α} (hr : ∀ e', r = .error e' → e' = e) :
    RaisesOnly e (MonadExcept.ofExcept r : EStateM ε σ α) s :=
  fun e' _ h => hr e' (ofExcept_eq_error.mp h).1

/-- A computation raises only this exception, and then it leaves the state. -/
def Raises (e : ε) (x : EStateM ε σ α) (s : σ) : Prop := ∀ e' s', x s = .error e' s' → e' = e ∧ s' = s

theorem raises_throw : Raises e (throw e : EStateM ε σ α) s := by
  intro e' s' h
  obtain ⟨he, hs⟩ := EStateM.Result.error.inj h
  exact ⟨he.symm, hs.symm⟩

theorem raises_of_ends (h : Ends x s) : Raises e x s := by
  intro e' s' herror
  obtain ⟨a, s₁, hok⟩ := h
  rw [hok] at herror
  cases herror

theorem raises_of_ok (hx : x s = .ok a s) (hf : Raises e (f a) s) : Raises e (x >>= f) s := by
  unfold Raises
  rw [bind_of_ok hx]
  exact hf

theorem raises_ofExcept_bind {r : Except ε α} (hr : ∀ e', r = .error e' → e' = e)
    (hf : ∀ a, r = .ok a → Raises e (f a) s) : Raises e (MonadExcept.ofExcept r >>= f) s := by
  intro e' s' h
  rcases ofExcept_bind_eq_error.mp h with ⟨hr', hs⟩ | ⟨a, ha, h⟩
  · exact ⟨hr e' hr', hs⟩
  · exact hf a ha e' s' h

theorem ends_of_ok {s₁ : σ} (hx : x s = .ok a s₁) (hf : Ends (f a) s₁) : Ends (x >>= f) s :=
  ends_bind.mpr ⟨a, s₁, hx, hf⟩

/-- What the steps of a loop keep, the loop keeps. -/
theorem foldlM_invariant {g : β → α → Except ε β} {l : List α} {P : β → Prop} {b b' : β}
    (hstep : ∀ b a b', a ∈ l → P b → g b a = .ok b' → P b') (h : l.foldlM g b = .ok b') (hb : P b) :
    P b' := by
  induction l generalizing b with
  | nil =>
    obtain rfl := Except.ok.inj h
    exact hb
  | cons a l ih =>
    rw [List.foldlM_cons] at h
    cases hg : g b a with
    | error e =>
      rw [hg] at h
      cases h
    | ok b₁ =>
      rw [hg] at h
      exact ih (fun b a b' ha => hstep b a b' (List.mem_cons_of_mem _ ha)) h
        (hstep b a b₁ List.mem_cons_self hb hg)

/-- A loop raises what one of its steps raises. -/
theorem foldlM_error {g : β → α → Except ε β} {l : List α} {b : β}
    (hstep : ∀ b a e', a ∈ l → g b a = .error e' → e' = e) {e' : ε} (h : l.foldlM g b = .error e') :
    e' = e := by
  induction l generalizing b with
  | nil => cases h
  | cons a l ih =>
    rw [List.foldlM_cons] at h
    cases hg : g b a with
    | error e₁ =>
      rw [hg] at h
      obtain rfl := Except.error.inj h
      exact hstep b a e₁ List.mem_cons_self hg
    | ok b₁ =>
      rw [hg] at h
      exact ih (fun b a e' ha => hstep b a e' (List.mem_cons_of_mem _ ha)) h

/-- A loop whose steps do not raise gives a result. -/
theorem exists_foldlM_eq_ok {g : β → α → Except ε β} {l : List α} (b : β)
    (h : ∀ b, ∀ a ∈ l, ∃ b', g b a = .ok b') : ∃ b', l.foldlM g b = .ok b' := by
  induction l generalizing b with
  | nil => exact ⟨b, rfl⟩
  | cons a l ih =>
    obtain ⟨b₁, hb₁⟩ := h b a List.mem_cons_self
    rw [List.foldlM_cons, hb₁]
    exact ih b₁ fun b a ha => h b a (List.mem_cons_of_mem _ ha)

end StateExcept

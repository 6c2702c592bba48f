/-
Computations that may raise, against the values they compute.

`Yields allowed x a` reads: `x` returns `a`, or it raises an exception that `allowed`
admits.  With nothing admitted it says that `x` returns `a`.

* `Yields.bind` — sequencing;
* `Yields.foldlM` — a loop whose body yields the encoded body of a total loop yields the
  encoded result of that loop, as long as the body keeps an invariant;
* `Yields.mapM` — a comprehension;
* `foldlM_eq_ok`, `mapM_eq_ok` — the last two where nothing is raised;
* `mapM_eq_ok_iff`, `mapM_eq_error_iff` — a comprehension returns when every element does, and
  raises what its first failing element raises.
-/
import Mathlib

namespace Exceptions

universe u v

variable {ε : Type u} {α β σ τ : Type v} {allowed : ε → Prop}

/-- `x` returns `a` unless it raises an exception that `allowed` admits. -/
def Yields (allowed : ε → Prop) (x : Except ε α) (a : α) : Prop :=
  x = .ok a ∨ ∃ e, x = .error e ∧ allowed e

theorem yields_of_eq {x : Except ε α} {a : α} (h : x = .ok a) : Yields allowed x a := .inl h

theorem Yields.pure (a : α) : Yields allowed (.ok a) a := .inl rfl

theorem Yields.error {e : ε} (h : allowed e) (a : α) : Yields allowed (.error e) a :=
  .inr ⟨e, rfl, h⟩

/-- Where nothing is admitted the value is returned. -/
theorem Yields.eq_ok {x : Except ε α} {a : α} (h : Yields allowed x a)
    (hnone : ∀ e, ¬ allowed e) : x = .ok a := by
  rcases h with h | ⟨e, -, he⟩
  · exact h
  · exact absurd he (hnone e)

/-- What is returned can only be the value. -/
theorem Yields.eq_of_ok {x : Except ε α} {a b : α} (h : Yields allowed x a) (hb : x = .ok b) :
    b = a := by
  rcases h with h | ⟨e, h, -⟩
  · exact Except.ok.inj (hb.symm.trans h)
  · exact absurd (hb.symm.trans h) (by simp)

theorem Yields.bind {x : Except ε α} {a : α} {f : α → Except ε β} {b : β}
    (hx : Yields allowed x a) (hf : Yields allowed (f a) b) : Yields allowed (x >>= f) b := by
  rcases hx with rfl | ⟨e, rfl, he⟩
  · exact hf
  · exact .inr ⟨e, rfl, he⟩

/-- A loop that may raise yields what the total loop computes. -/
theorem Yields.foldlM {f : σ → α → Except ε σ} {g : τ → α → τ} (enc : τ → σ)
    (I : τ → Prop) {l : List α}
    (hstep : ∀ t, I t → ∀ a ∈ l, Yields allowed (f (enc t) a) (enc (g t a)) ∧ I (g t a))
    {t : τ} (ht : I t) : Yields allowed (l.foldlM f (enc t)) (enc (l.foldl g t)) := by
  induction l generalizing t with
  | nil => exact .inl rfl
  | cons a l ih =>
    obtain ⟨hyields, hnext⟩ := hstep t ht a (by simp)
    rw [List.foldlM_cons, List.foldl_cons]
    exact hyields.bind (ih (fun t ht b hb => hstep t ht b (by simp [hb])) hnext)

/-- A loop whose body never raises returns what the total loop computes. -/
theorem foldlM_eq_ok {f : σ → α → Except ε σ} {g : τ → α → τ} (enc : τ → σ) (I : τ → Prop)
    {l : List α} (hstep : ∀ t, I t → ∀ a ∈ l, f (enc t) a = .ok (enc (g t a)) ∧ I (g t a))
    {t : τ} (ht : I t) : l.foldlM f (enc t) = .ok (enc (l.foldl g t)) :=
  (Yields.foldlM enc I (fun t ht a ha => (hstep t ht a ha).imp_left yields_of_eq) ht).eq_ok
    fun _ (h : False) => h

theorem Yields.mapM {f : α → Except ε β} {g : α → β} {l : List α}
    (h : ∀ a ∈ l, Yields allowed (f a) (g a)) : Yields allowed (l.mapM f) (l.map g) := by
  induction l with
  | nil => exact .inl rfl
  | cons a l ih =>
    rw [List.mapM_cons, List.map_cons]
    exact (h a (by simp)).bind ((ih fun b hb => h b (by simp [hb])).bind (.inl rfl))

theorem mapM_eq_ok {f : α → Except ε β} {g : α → β} {l : List α}
    (h : ∀ a ∈ l, f a = .ok (g a)) : l.mapM f = .ok (l.map g) :=
  (Yields.mapM fun a ha => yields_of_eq (h a ha)).eq_ok fun _ (h : False) => h

theorem mapM_eq_ok_iff {f : α → Except ε β} {l : List α} {bs : List β} :
    l.mapM f = .ok bs ↔ List.Forall₂ (fun a b => f a = .ok b) l bs := by
  induction l generalizing bs with
  | nil =>
    refine ⟨fun h => Except.ok.inj h ▸ .nil, fun h => ?_⟩
    cases h
    rfl
  | cons a l ih =>
    rw [List.mapM_cons]
    cases ha : f a with
    | error e =>
      refine iff_of_false (by simp [bind, Except.bind]) fun h => ?_
      cases h with
      | cons hb _ => exact absurd (ha.symm.trans hb) (by simp)
    | ok b =>
      cases hl : l.mapM f with
      | error e =>
        refine iff_of_false (by simp [bind, Except.bind]) fun h => ?_
        cases h with
        | cons _ hbs => exact absurd (hl.symm.trans (ih.mpr hbs)) (by simp)
      | ok bs' =>
        show Except.ok (b :: bs') = Except.ok bs ↔ _
        constructor
        · intro h
          rw [← Except.ok.inj h]
          exact .cons ha (ih.mp hl)
        · intro h
          cases h with
          | cons hb hbs =>
            rw [Except.ok.inj (ha.symm.trans hb), Except.ok.inj (hl.symm.trans (ih.mpr hbs))]

theorem mapM_eq_error_iff {f : α → Except ε β} {l : List α} {e : ε} :
    l.mapM f = .error e ↔ ∃ before a after, l = before ++ a :: after ∧
      (∀ a' ∈ before, ∃ b, f a' = .ok b) ∧ f a = .error e := by
  induction l with
  | nil =>
    refine iff_of_false (by simp [pure, Except.pure]) ?_
    rintro ⟨before, a, after, h, -⟩
    exact absurd h.symm (by simp)
  | cons a l ih =>
    rw [List.mapM_cons]
    cases ha : f a with
    | error e' =>
      show Except.error e' = Except.error e ↔ _
      constructor
      · intro h
        exact ⟨[], a, l, rfl, by simp, ha.trans (by rw [Except.error.inj h])⟩
      · rintro ⟨before, a', after, hl, hbefore, ha'⟩
        cases before with
        | nil =>
          obtain ⟨rfl, rfl⟩ := List.cons.inj hl
          rw [Except.error.inj (ha.symm.trans ha')]
        | cons x before =>
          obtain ⟨rfl, rfl⟩ := List.cons.inj hl
          obtain ⟨b, hb⟩ := hbefore a (by simp)
          exact absurd (ha.symm.trans hb) (by simp)
    | ok b =>
      have hrest : (Except.ok b >>= fun b => l.mapM f >>= fun bs => pure (b :: bs)) = .error e
          ↔ l.mapM f = .error e := by
        cases l.mapM f <;> simp [bind, Except.bind, pure, Except.pure]
      rw [hrest, ih]
      constructor
      · rintro ⟨before, a', after, rfl, hbefore, ha'⟩
        refine ⟨a :: before, a', after, rfl, fun x hx => ?_, ha'⟩
        rcases List.mem_cons.mp hx with rfl | hx
        · exact ⟨b, ha⟩
        · exact hbefore x hx
      · rintro ⟨before, a', after, hl, hbefore, ha'⟩
        cases before with
        | nil =>
          obtain ⟨rfl, rfl⟩ := List.cons.inj hl
          exact absurd (ha.symm.trans ha') (by simp)
        | cons x before =>
          obtain ⟨rfl, rfl⟩ := List.cons.inj hl
          exact ⟨before, a', after, rfl, fun y hy => hbefore y (by simp [hy]), ha'⟩

end Exceptions

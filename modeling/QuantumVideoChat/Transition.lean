/-
Runs of a state machine.

A machine is a function `f : σ → α → σ`; the run of a list of actions from `s` is
`actions.foldl f s`.  A disabled action leaves the state as it is.

* `foldl_induction` — a property that every step keeps holds after every run;
* `throughout_of_along` — a property kept by the steps that meet a guard holds in every
  state of a run all of whose steps meet it;
* `throughout_iff_along` — when the guard is exactly what a step needs, the converse too;
* `foldl_iff_along` — the same for a property of a record that the steps only add to;
* `Reaches` — some run leads from one state to another;
* `Trace.foldlM` — a chain of labelled steps, replayed on a view of the states.
-/
import Mathlib.Data.List.Basic

namespace Transition

variable {σ α : Type*} (f : σ → α → σ)

/-- Every step of the run meets `g` in the state it is taken in. -/
def Along (g : σ → α → Prop) : σ → List α → Prop
  | _, [] => True
  | s, a :: actions => g s a ∧ Along g (f s a) actions

/-- `P` holds in every state of the run. -/
def Throughout (P : σ → Prop) : σ → List α → Prop
  | s, [] => P s
  | s, a :: actions => P s ∧ Throughout P (f s a) actions

instance Along.decidable (g : σ → α → Prop) [∀ s a, Decidable (g s a)] :
    ∀ s actions, Decidable (Along f g s actions)
  | _, [] => inferInstanceAs (Decidable True)
  | s, a :: actions =>
    have := Along.decidable g (f s a) actions
    inferInstanceAs (Decidable (g s a ∧ Along f g (f s a) actions))

instance Throughout.decidable (P : σ → Prop) [DecidablePred P] :
    ∀ s actions, Decidable (Throughout f P s actions)
  | s, [] => inferInstanceAs (Decidable (P s))
  | s, a :: actions =>
    have := Throughout.decidable P (f s a) actions
    inferInstanceAs (Decidable (P s ∧ Throughout f P (f s a) actions))

variable {f} {I P : σ → Prop} {g : σ → α → Prop}

theorem Throughout.head {s : σ} {actions : List α} (h : Throughout f P s actions) : P s := by
  cases actions with
  | nil => exact h
  | cons a actions => exact h.1

theorem Throughout.last {s : σ} {actions : List α} (h : Throughout f P s actions) :
    P (actions.foldl f s) := by
  induction actions generalizing s with
  | nil => exact h
  | cons a actions ih => exact ih h.2

theorem Throughout.mono {Q : σ → Prop} (hPQ : ∀ s, P s → Q s) {s : σ} {actions : List α}
    (h : Throughout f P s actions) : Throughout f Q s actions := by
  induction actions generalizing s with
  | nil => exact hPQ s h
  | cons a actions ih => exact ⟨hPQ s h.1, ih h.2⟩

theorem foldl_induction {s : σ} (hs : I s) (hstep : ∀ s a, I s → I (f s a))
    (actions : List α) : I (actions.foldl f s) := by
  induction actions generalizing s with
  | nil => exact hs
  | cons a actions ih => exact ih (hstep s a hs)

/-- The rule for a guarded invariant. -/
theorem throughout_of_along (hstep : ∀ s a, P s → g s a → P (f s a)) {s : σ} (hs : P s)
    {actions : List α} (h : Along f g s actions) : Throughout f P s actions := by
  induction actions generalizing s with
  | nil => exact hs
  | cons a actions ih => exact ⟨hs, ih (hstep s a hs h.1) h.2⟩

theorem Along.and {g' : σ → α → Prop} {s : σ} {actions : List α} (h : Along f g s actions)
    (h' : Along f g' s actions) : Along f (fun s a => g s a ∧ g' s a) s actions := by
  induction actions generalizing s with
  | nil => trivial
  | cons a actions ih => exact ⟨⟨h.1, h'.1⟩, ih h.2 h'.2⟩

theorem along_append {s : σ} {actions later : List α} :
    Along f g s (actions ++ later) ↔
      Along f g s actions ∧ Along f g (actions.foldl f s) later := by
  induction actions generalizing s with
  | nil => exact (and_iff_right trivial).symm
  | cons a actions ih =>
    rw [List.cons_append, Along, ih, Along, and_assoc]
    rfl

/-- An invariant known to hold along the run may be used for the guard. -/
theorem Along.mono {g' : σ → α → Prop} (hstep : ∀ s a, I s → g s a → I (f s a))
    (hguard : ∀ s a, I s → g s a → g' s a) {s : σ} (hs : I s) {actions : List α}
    (h : Along f g s actions) : Along f g' s actions := by
  induction actions generalizing s with
  | nil => trivial
  | cons a actions ih => exact ⟨hguard s a hs h.1, ih (hstep s a hs h.1) h.2⟩

/-- When a step from a good state leads to a good state exactly under the guard, a run is
good throughout exactly when all its steps meet the guard. -/
theorem throughout_iff_along (hI : ∀ s a, I s → I (f s a))
    (hstep : ∀ s a, I s → P s → (P (f s a) ↔ g s a)) {s : σ} (hIs : I s) (hs : P s)
    (actions : List α) : Throughout f P s actions ↔ Along f g s actions := by
  induction actions generalizing s with
  | nil => exact ⟨fun _ => trivial, fun _ => hs⟩
  | cons a actions ih =>
    constructor
    · rintro ⟨-, h⟩
      exact ⟨(hstep s a hIs hs).mp h.head, (ih (hI s a hIs) h.head).mp h⟩
    · rintro ⟨hg, h⟩
      have hnext := (hstep s a hIs hs).mpr hg
      exact ⟨hs, (ih (hI s a hIs) hnext).mpr h⟩

/-- The rule for a record of the run: when every step adds to it and what it adds is good
exactly under the guard, the record is good exactly when all steps meet the guard. -/
theorem foldl_iff_along (hI : ∀ s a, I s → I (f s a))
    (hstep : ∀ s a, I s → (P (f s a) ↔ P s ∧ g s a)) {s : σ} (hs : I s) (actions : List α) :
    P (actions.foldl f s) ↔ P s ∧ Along f g s actions := by
  induction actions generalizing s with
  | nil => exact (and_iff_left trivial).symm
  | cons a actions ih =>
    rw [List.foldl_cons, ih (hI s a hs), hstep s a hs, and_assoc]
    rfl

/-! ### Reachability -/

/-- Some run leads from the first state to the second. -/
def Reaches (f : σ → α → σ) (s s' : σ) : Prop := ∃ actions : List α, s' = actions.foldl f s

theorem Reaches.refl (s : σ) : Reaches f s s := ⟨[], rfl⟩

theorem Reaches.step (s : σ) (a : α) : Reaches f s (f s a) := ⟨[a], rfl⟩

theorem Reaches.trans {s t u : σ} (h : Reaches f s t) (h' : Reaches f t u) : Reaches f s u := by
  obtain ⟨actions, rfl⟩ := h
  obtain ⟨actions', rfl⟩ := h'
  exact ⟨actions ++ actions', List.foldl_append.symm⟩

theorem Reaches.induction {s t : σ} (h : Reaches f s t) (hs : I s)
    (hstep : ∀ s a, I s → I (f s a)) : I t := by
  obtain ⟨actions, rfl⟩ := h
  exact foldl_induction hs hstep actions

/-! ### Labelled steps -/

section

variable {ε τ : Type*} {r : σ → ε → σ → Prop}

/-- A chain of steps with these labels leads from the first state to the second. -/
inductive Trace (r : σ → ε → σ → Prop) : σ → List ε → σ → Prop
  | nil (s : σ) : Trace r s [] s
  | cons {s t u : σ} {e : ε} {events : List ε} (h : r s e t) (h' : Trace r t events u) :
      Trace r s (e :: events) u

theorem Trace.singleton {s t : σ} {e : ε} (h : r s e t) : Trace r s [e] t := .cons h (.nil t)

theorem trace_singleton_iff {s t : σ} {e : ε} : Trace r s [e] t ↔ r s e t := by
  refine ⟨fun h => ?_, .singleton⟩
  cases h with
  | cons h h' =>
    cases h'
    exact h

theorem trace_nil_iff {s t : σ} : Trace r s [] t ↔ s = t := by
  constructor
  · rintro ⟨⟩
    rfl
  · rintro rfl
    exact .nil s

/-- A function that follows every step on a view of the states follows every chain. -/
theorem Trace.foldlM {f : τ → ε → Option τ} {view : σ → τ}
    (hf : ∀ s e t, r s e t → f (view s) e = some (view t)) {s t : σ} {events : List ε}
    (h : Trace r s events t) : events.foldlM f (view s) = some (view t) := by
  induction h with
  | nil s => rfl
  | cons h h' ih => rw [List.foldlM_cons, hf _ _ _ h, ← ih, Option.bind_eq_bind, Option.bind_some]

end

end Transition

/-
Cooperative tasks.

The tasks of a pool share a state and take turns: a task runs until it has to wait for
something, and goes on when it is resumed with what it waited for.  `run` says what it does in
between, and what is left of it.

* `mem_tasks_spawn`, `mem_tasks_resume` — where the tasks after a turn come from;
* `All.spawn`, `All.resume` — a property of the state and one of every task that turns keep;
* `resume_of_getElem?`, `resume_of_finished` — what one turn does.
-/
import Mathlib.Data.List.Basic

namespace Cooperative

variable {σ τ ε : Type*}

structure Pool (σ τ : Type*) where
  shared : σ
  tasks : List τ := []

namespace Pool

/-- The state after a turn, and the new task if it has something to wait for. -/
def spawn (p : Pool σ τ) : σ × Option τ → Pool σ τ
  | (s, none) => { p with shared := s }
  | (s, some t) => { shared := s, tasks := p.tasks ++ [t] }

/-- The `i`-th task gets `e`; a finished task leaves the pool. -/
def resume (run : σ → τ → ε → σ × Option τ) (p : Pool σ τ) (i : ℕ) (e : ε) : Pool σ τ :=
  match p.tasks[i]? with
  | none => p
  | some t =>
    match run p.shared t e with
    | (s, none) => { shared := s, tasks := p.tasks.eraseIdx i }
    | (s, some t') => { shared := s, tasks := p.tasks.set i t' }

/-- `P` holds of the state and `Q` of every task. -/
structure All (P : σ → Prop) (Q : τ → Prop) (p : Pool σ τ) : Prop where
  shared : P p.shared
  tasks : ∀ t ∈ p.tasks, Q t

variable {P : σ → Prop} {Q : τ → Prop} {p : Pool σ τ} {run : σ → τ → ε → σ × Option τ}

theorem shared_spawn (p : Pool σ τ) (r : σ × Option τ) : (p.spawn r).shared = r.1 := by
  obtain ⟨s, _ | t⟩ := r <;> rfl

theorem mem_tasks_spawn {r : σ × Option τ} {t : τ} (h : t ∈ (p.spawn r).tasks) :
    t ∈ p.tasks ∨ t ∈ r.2 := by
  obtain ⟨s, _ | t'⟩ := r
  · exact .inl h
  · rcases List.mem_append.mp h with hold | hnew
    · exact .inl hold
    · rw [List.mem_singleton.mp hnew]
      exact .inr rfl

/-- After a turn a task is an old one, or what is left of the one whose turn it was. -/
theorem mem_tasks_resume {i : ℕ} {e : ε} {t : τ} (h : t ∈ (p.resume run i e).tasks) :
    t ∈ p.tasks ∨ ∃ t₀ ∈ p.tasks, t ∈ (run p.shared t₀ e).2 := by
  unfold Pool.resume at h
  cases hget : p.tasks[i]? with
  | none =>
    rw [hget] at h
    exact .inl h
  | some t₀ =>
    rw [hget] at h
    dsimp only at h
    rcases hturn : run p.shared t₀ e with ⟨s, _ | t'⟩
    · rw [hturn] at h
      exact .inl (List.mem_of_mem_eraseIdx h)
    · rw [hturn] at h
      rcases List.mem_or_eq_of_mem_set h with hold | rfl
      · exact .inl hold
      · exact .inr ⟨t₀, List.mem_of_getElem? hget, by rw [hturn]; rfl⟩

theorem All.spawn (h : All P Q p) {r : σ × Option τ} (hs : P r.1) (ht : ∀ t ∈ r.2, Q t) :
    All P Q (p.spawn r) := by
  refine ⟨by rwa [shared_spawn], fun t hmem => ?_⟩
  rcases mem_tasks_spawn hmem with hold | hnew
  · exact h.tasks t hold
  · exact ht t hnew

theorem All.resume (h : All P Q p)
    (hrun : ∀ t e, Q t → P (run p.shared t e).1 ∧ ∀ t' ∈ (run p.shared t e).2, Q t')
    (i : ℕ) (e : ε) : All P Q (p.resume run i e) := by
  refine ⟨?_, fun t hmem => ?_⟩
  · unfold Pool.resume
    cases hget : p.tasks[i]? with
    | none => exact h.shared
    | some t =>
      have hs := (hrun t e (h.tasks t (List.mem_of_getElem? hget))).1
      dsimp only
      rcases hturn : run p.shared t e with ⟨s, _ | t'⟩ <;> rwa [hturn] at hs
  · rcases mem_tasks_resume hmem with hold | ⟨t₀, hold, hnew⟩
    · exact h.tasks t hold
    · exact (hrun t₀ e (h.tasks t₀ hold)).2 t hnew

/-- A turn of a task that goes on waiting. -/
theorem resume_of_getElem? {i : ℕ} {e : ε} {t t' : τ} {s : σ} (h : p.tasks[i]? = some t)
    (hrun : run p.shared t e = (s, some t')) :
    (p.resume run i e).shared = s ∧ (p.resume run i e).tasks[i]? = some t' := by
  have hlt : i < p.tasks.length := (List.getElem?_eq_some_iff.mp h).1
  rw [resume, h]
  simp only [hrun]
  exact ⟨trivial, List.getElem?_set_self hlt⟩

/-- The last turn of a task. -/
theorem resume_of_finished {i : ℕ} {e : ε} {t : τ} {s : σ} (h : p.tasks[i]? = some t)
    (hrun : run p.shared t e = (s, none)) :
    p.resume run i e = { shared := s, tasks := p.tasks.eraseIdx i } := by
  rw [resume, h]
  simp only [hrun]

/-- A turn that finishes a task takes nothing else out of the pool. -/
theorem All.of_resume_finished {i : ℕ} {e : ε} {t : τ} {s : σ} (h : All P Q (p.resume run i e))
    (hget : p.tasks[i]? = some t) (hrun : run p.shared t e = (s, none)) (hs : P p.shared)
    (ht : Q t) : All P Q p := by
  rw [resume_of_finished hget hrun] at h
  refine ⟨hs, fun t' hmem => ?_⟩
  obtain ⟨j, hj⟩ := List.mem_iff_getElem?.mp hmem
  by_cases hji : j = i
  · subst hji
    rwa [← Option.some_inj.mp (hget.symm.trans hj)]
  · exact h.tasks t' (List.mem_eraseIdx_iff_getElem?.mpr ⟨j, hji, hj⟩)

end Pool

end Cooperative

/-
Sliding windows: at most so many allowed calls for each key within any window of time.

`answers` is the policy itself, computed from everything answered so far.  Denied calls count
for nothing, and a call is judged by the calls of its own key only.

* `allowed_getElem?` — an answer of the list, judged by the answers before it;
* `answers_eraseIdx` — a denied call may as well not have been made;
* `filter_key_answers` — each key is served as if it were alone;
* `countP_interval_le` — the bound on every interval shorter than the window.
-/
import Mathlib.Algebra.Order.Group.Defs
import Mathlib.Data.List.Basic
import Mathlib.Tactic.Abel
import Mathlib.Tactic.Linarith

namespace SlidingWindow

structure Call (κ T : Type*) where
  key : κ
  time : T
  deriving DecidableEq

structure Answer (κ T : Type*) extends Call κ T where
  allowed : Bool
  deriving DecidableEq

variable {κ T : Type*} [DecidableEq κ] [AddCommGroup T] [LinearOrder T] [IsOrderedAddMonoid T]

/-- The allowed calls of the same key within the window before `call`. -/
def recent (window : T) (past : List (Answer κ T)) (call : Call κ T) : ℕ :=
  past.countP fun a => a.key = call.key ∧ a.allowed = true ∧ call.time - a.time < window

def answer (maxRequests : ℕ) (window : T) (past : List (Answer κ T)) (call : Call κ T) :
    Answer κ T :=
  ⟨call, decide (recent window past call < maxRequests)⟩

/-- The answers to `calls`, after `past`. -/
def answers (maxRequests : ℕ) (window : T) (past : List (Answer κ T)) :
    List (Call κ T) → List (Answer κ T)
  | [] => []
  | call :: calls =>
    answer maxRequests window past call ::
      answers maxRequests window (past ++ [answer maxRequests window past call]) calls

variable {maxRequests : ℕ} {window : T} {past past' : List (Answer κ T)}

omit [IsOrderedAddMonoid T] in
theorem recent_append (past past' : List (Answer κ T)) (call : Call κ T) :
    recent window (past ++ past') call = recent window past call + recent window past' call :=
  List.countP_append

omit [IsOrderedAddMonoid T] in
theorem recent_singleton_of_denied {a : Answer κ T} (h : a.allowed = false) (call : Call κ T) :
    recent window [a] call = 0 := by
  simp [recent, h]

omit [IsOrderedAddMonoid T] in
theorem recent_singleton_of_ne {a : Answer κ T} {call : Call κ T} (h : a.key ≠ call.key) :
    recent window [a] call = 0 := by
  simp [recent, h]

omit [IsOrderedAddMonoid T] in
/-- Every call is answered. -/
theorem map_toCall_answers (past : List (Answer κ T)) (calls : List (Call κ T)) :
    (answers maxRequests window past calls).map (·.toCall) = calls := by
  induction calls generalizing past with
  | nil => rfl
  | cons call calls ih => rw [answers, List.map_cons, ih, answer]

omit [IsOrderedAddMonoid T] in
theorem allowed_getElem? {calls : List (Call κ T)} {i : ℕ} {a : Answer κ T}
    (h : (answers maxRequests window past calls)[i]? = some a) :
    a.allowed = true ↔
      recent window (past ++ (answers maxRequests window past calls).take i) a.toCall
        < maxRequests := by
  induction calls generalizing past i with
  | nil => exact absurd h (by simp [answers])
  | cons call calls ih =>
    cases i with
    | zero =>
      rw [answers, List.getElem?_cons_zero, Option.some_inj] at h
      rw [← h, List.take_zero, List.append_nil]
      exact decide_eq_true_iff
    | succ i =>
      rw [answers, List.getElem?_cons_succ] at h
      rw [ih h, answers, List.take_succ_cons, List.append_assoc]
      rfl

/-! ### What an answer does not depend on -/

omit [IsOrderedAddMonoid T] in
/-- Two pasts with the same counts lead to the same answers. -/
theorem answers_congr (calls : List (Call κ T))
    (h : ∀ call, recent window past call = recent window past' call) :
    answers maxRequests window past calls = answers maxRequests window past' calls := by
  induction calls generalizing past past' with
  | nil => rfl
  | cons call calls ih =>
    have hanswer : answer maxRequests window past call = answer maxRequests window past' call := by
      rw [answer, answer, h]
    rw [answers, answers, hanswer]
    refine congrArg _ (ih fun call' => ?_)
    rw [recent_append, recent_append, h]

omit [IsOrderedAddMonoid T] in
theorem answers_eraseIdx {calls : List (Call κ T)} {i : ℕ} {a : Answer κ T}
    (h : (answers maxRequests window past calls)[i]? = some a) (hdenied : a.allowed = false) :
    answers maxRequests window past (calls.eraseIdx i)
      = (answers maxRequests window past calls).eraseIdx i := by
  induction calls generalizing past i with
  | nil => rfl
  | cons call calls ih =>
    cases i with
    | zero =>
      rw [answers, List.getElem?_cons_zero, Option.some_inj] at h
      -- the denied answer adds nothing to any later count
      refine answers_congr calls fun call' => ?_
      rw [recent_append, h, recent_singleton_of_denied hdenied, Nat.add_zero]
    | succ i =>
      rw [answers, List.getElem?_cons_succ] at h
      rw [List.eraseIdx_cons_succ, answers, answers, ih h, List.eraseIdx_cons_succ]

omit [IsOrderedAddMonoid T] in
theorem filter_key_answers (key : κ) (calls : List (Call κ T))
    (h : ∀ call : Call κ T, call.key = key → recent window past call = recent window past' call) :
    (answers maxRequests window past calls).filter (fun a => a.key = key)
      = answers maxRequests window past' (calls.filter fun call => call.key = key) := by
  induction calls generalizing past past' with
  | nil => rfl
  | cons call calls ih =>
    rw [answers, List.filter_cons, List.filter_cons]
    by_cases hkey : call.key = key
    · have hkey' : (answer maxRequests window past call).key = key := hkey
      have hanswer : answer maxRequests window past call
          = answer maxRequests window past' call := by
        rw [answer, answer, h call hkey]
      rw [if_pos (decide_eq_true hkey'), if_pos (decide_eq_true hkey), answers, hanswer]
      refine congrArg _ (ih fun call' hkey' => ?_)
      rw [recent_append, recent_append, h call' hkey']
    · have hkey' : (answer maxRequests window past call).key ≠ key := hkey
      rw [if_neg (by simpa using hkey'), if_neg (by simpa using hkey)]
      refine ih fun call' hkey' => ?_
      -- an answer of another key does not count
      have hne : (answer maxRequests window past call).key ≠ call'.key := by
        rw [hkey']
        exact hkey
      rw [recent_append, recent_singleton_of_ne hne, Nat.add_zero, h call' hkey']

/-! ### The bound -/

/-- The allowed calls of `key` in an interval. -/
def inInterval (key : κ) (lo hi : T) (a : Answer κ T) : Bool :=
  a.key = key ∧ a.allowed = true ∧ lo ≤ a.time ∧ a.time ≤ hi

/-- All calls of an interval shorter than the window are recent to its last one. -/
theorem countP_inInterval_le_recent {key : κ} {lo hi : T} (hshort : hi - lo < window)
    {call : Call κ T} (hkey : call.key = key) (hhi : call.time ≤ hi)
    (past : List (Answer κ T)) :
    past.countP (inInterval key lo hi) ≤ recent window past call := by
  refine List.countP_mono_left fun a _ ha => ?_
  simp only [inInterval, decide_eq_true_eq] at ha ⊢
  obtain ⟨hakey, hallowed, hlo, -⟩ := ha
  refine ⟨hakey.trans hkey.symm, hallowed, ?_⟩
  calc call.time - a.time ≤ hi - lo := sub_le_sub hhi hlo
    _ < window := hshort

/-- The bound holds of the past, and it goes on to hold. -/
theorem countP_interval_le {key : κ} {lo hi : T} (hshort : hi - lo < window)
    (calls : List (Call κ T)) (hpast : past.countP (inInterval key lo hi) ≤ maxRequests) :
    (past ++ answers maxRequests window past calls).countP (inInterval key lo hi)
      ≤ maxRequests := by
  induction calls generalizing past with
  | nil => rwa [answers, List.append_nil]
  | cons call calls ih =>
    rw [answers, List.append_cons]
    refine ih ?_
    rw [List.countP_append, List.countP_singleton]
    split_ifs with hin
    · simp only [inInterval, answer, decide_eq_true_eq] at hin
      have hle := countP_inInterval_le_recent hshort hin.1 hin.2.2.2 past
      omega
    · rwa [Nat.add_zero]

end SlidingWindow

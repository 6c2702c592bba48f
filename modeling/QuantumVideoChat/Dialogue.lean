/-
Computations that ask questions.

A dialogue either is done or asks a question and goes on with the answer.  Against an oracle it
has a result, and has asked some questions for it.

* `result_fold` — dialogues one after the other compute one step after the other;
* `eq_of_answers` — who hears the answers knows the questions and the result.
-/
import Mathlib.Data.List.Basic

inductive Dialogue (Q A α : Type*)
  | done (result : α)
  | ask (question : Q) (next : A → Dialogue Q A α)

namespace Dialogue

variable {Q A α β γ : Type*} (answer : Q → A)

def result : Dialogue Q A α → α
  | done a => a
  | ask q next => (next (answer q)).result

/-- The questions, in their order. -/
def asked : Dialogue Q A α → List Q
  | done _ => []
  | ask q next => q :: (next (answer q)).asked

/-- What somebody hears who listens to the oracle. -/
def answers (d : Dialogue Q A α) : List A := (d.asked answer).map answer

def bind : Dialogue Q A α → (α → Dialogue Q A β) → Dialogue Q A β
  | done a, f => f a
  | ask q next, f => ask q fun x => (next x).bind f

/-- One dialogue for each element of the list. -/
def fold (f : β → γ → Dialogue Q A β) : β → List γ → Dialogue Q A β
  | b, [] => done b
  | b, c :: cs => (f b c).bind fun b => fold f b cs

theorem result_bind (d : Dialogue Q A α) (f : α → Dialogue Q A β) :
    (d.bind f).result answer = (f (d.result answer)).result answer := by
  induction d with
  | done a => rfl
  | ask q next ih => exact ih (answer q)

theorem asked_bind (d : Dialogue Q A α) (f : α → Dialogue Q A β) :
    (d.bind f).asked answer = d.asked answer ++ (f (d.result answer)).asked answer := by
  induction d with
  | done a => rfl
  | ask q next ih => exact congrArg (q :: ·) (ih (answer q))

theorem asked_fold_cons (f : β → γ → Dialogue Q A β) (b : β) (c : γ) (cs : List γ) :
    (fold f b (c :: cs)).asked answer
      = (f b c).asked answer ++ (fold f ((f b c).result answer) cs).asked answer :=
  asked_bind answer (f b c) _

theorem result_fold (f : β → γ → Dialogue Q A β) (b : β) (cs : List γ) :
    (fold f b cs).result answer = cs.foldl (fun b c => (f b c).result answer) b := by
  induction cs generalizing b with
  | nil => rfl
  | cons c cs ih => rw [fold, result_bind, ih, List.foldl_cons]

variable {answer}

/-- The answers tell the questions and the result. -/
theorem eq_of_answers {answer' : Q → A} {d : Dialogue Q A α}
    (h : d.answers answer' = d.answers answer) :
    d.asked answer' = d.asked answer ∧ d.result answer' = d.result answer := by
  induction d with
  | done a => exact ⟨rfl, rfl⟩
  | ask q next ih =>
    obtain ⟨hq, hnext⟩ := List.cons_eq_cons.mp h
    obtain ⟨hasked, hresult⟩ := ih (answer q) (by rwa [hq] at hnext)
    constructor
    · rw [asked, asked, hq, hasked]
    · rw [result, result, hq, hresult]

end Dialogue

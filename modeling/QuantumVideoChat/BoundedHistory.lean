/-
Histories of bounded length: a list that keeps its last `maxlen` entries.

* `push_rtake` — pushing onto the last entries of a list gives the last entries of the
  longer list;
* `getLast?_rtake` — a history that keeps anything keeps the latest entry.
-/
import Mathlib.Data.List.DropRight

namespace BoundedHistory

variable {α : Type*}

/-- Append an entry; the oldest ones make room. -/
def push (maxlen : ℕ) (history : List α) (x : α) : List α :=
  (history ++ [x]).drop (history.length + 1 - maxlen)

theorem length_rtake (l : List α) (n : ℕ) : (l.rtake n).length = min n l.length := by
  rw [List.rtake, List.length_drop]
  omega

theorem rtake_of_length_le {l : List α} {n : ℕ} (h : l.length ≤ n) : l.rtake n = l := by
  rw [List.rtake, Nat.sub_eq_zero_of_le h, List.drop_zero]

/-- Asking for more entries than there are gives all of them. -/
theorem rtake_min (l : List α) (n : ℕ) : l.rtake (min n l.length) = l.rtake n := by
  rcases Nat.le_total n l.length with h | h
  · rw [min_eq_left h]
  · rw [min_eq_right h, rtake_of_length_le le_rfl, rtake_of_length_le h]

theorem push_rtake (maxlen : ℕ) (l : List α) (x : α) :
    push maxlen (l.rtake maxlen) x = (l ++ [x]).rtake maxlen := by
  rw [push, length_rtake]
  rcases Nat.lt_or_ge l.length maxlen with h | h
  · -- there is room for the entry
    rw [rtake_of_length_le h.le, rtake_of_length_le (by simpa using Nat.succ_le_of_lt h),
      Nat.sub_eq_zero_of_le (by omega), List.drop_zero]
  · rw [min_eq_left h, Nat.add_sub_cancel_left]
    cases maxlen with
    | zero => simp [List.rtake]
    | succ k =>
      rw [List.rtake_concat_succ, List.drop_append_of_le_length
        (by rw [length_rtake]; omega), List.rtake, List.rtake, List.drop_drop]
      congr 2
      omega

theorem getLast?_rtake {n : ℕ} (hn : 1 ≤ n) (l : List α) : (l.rtake n).getLast? = l.getLast? := by
  rcases l.eq_nil_or_concat with rfl | ⟨l, x, rfl⟩
  · rw [List.rtake_nil]
  · obtain ⟨k, rfl⟩ := Nat.exists_eq_add_of_le' hn
    rw [List.concat_eq_append, List.rtake_concat_succ, List.getLast?_concat,
      List.getLast?_concat]

end BoundedHistory

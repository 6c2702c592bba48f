/-
The rate limiter of the REST API (`server/rest_api.py`, `RateLimiter` and `rate_limit`).

The limiter rewrites the time stamps of a key on every call and forgets what has left the
window.  `SlidingWindow.answers` is the policy it stands for.

* `isAllowed_eq` — what a call answers and what it leaves behind;
* `represents_isAllowed` — the stamps are those of the allowed calls still in the window;
* `rate_limiter_is_sliding_window` — the answers of the limiter are those of the policy.
-/
import QuantumVideoChat.RestAPI
import QuantumVideoChat.SlidingWindow

open SlidingWindow

/-- `requests` is a `defaultdict(list)`. -/
structure RateLimiter where
  maxRequests : ℕ := 30
  window : ℚ := 60
  requests : String → Option (List ℚ) := fun _ => none

namespace RateLimiter

/-- The dictionary once `is_allowed` has pruned the entry of `key`. -/
def prune (L : RateLimiter) (key : String) (now : ℚ) : String → Option (List ℚ) :=
  -- reading a missing key of a defaultdict stores an empty list
  let timestamps := (L.requests key).getD []
  let requests := Function.update L.requests key (some timestamps)
  let pruned := timestamps.filter fun t => now - t < L.window
  let requests := Function.update requests key (some pruned)
  if pruned = [] then Function.update requests key none else requests

/-- `is_allowed`, with `now` for `time.time()`. -/
def isAllowed (L : RateLimiter) (key : String) (now : ℚ) : RateLimiter × Bool :=
  let requests := L.prune key now
  let timestamps := (requests key).getD []
  if timestamps.length ≥ L.maxRequests then ({ L with requests := requests }, false)
  else ({ L with requests := Function.update requests key (some (timestamps ++ [now])) }, true)

/-- The answers to a sequence of calls. -/
def answersTo : RateLimiter → List (Call String ℚ) → List (Answer String ℚ)
  | _, [] => []
  | L, call :: calls =>
    ⟨call, (L.isAllowed call.key call.time).2⟩ ::
      answersTo (L.isAllowed call.key call.time).1 calls

/-! ### One call -/

/-- The time stamps kept for a key. -/
def stamps (L : RateLimiter) (key : String) : List ℚ := (L.requests key).getD []

/-- The stamps of a key that a call at `now` still counts. -/
def counted (L : RateLimiter) (key : String) (now : ℚ) : List ℚ :=
  (L.stamps key).filter fun t => now - t < L.window

variable (L : RateLimiter) (key : String) (now : ℚ)

/-- Deleting an empty entry does not change what is read from it. -/
theorem getD_prune (key' : String) :
    (L.prune key now key').getD []
      = if key' = key then L.counted key now else L.stamps key' := by
  have hprune : L.prune key now
      = if L.counted key now = [] then
          Function.update (Function.update (Function.update L.requests key (some (L.stamps key)))
            key (some (L.counted key now))) key none
        else Function.update (Function.update L.requests key (some (L.stamps key)))
            key (some (L.counted key now)) := rfl
  rw [hprune]
  by_cases hnil : L.counted key now = []
  · by_cases hkey : key' = key
    · simp [hnil, hkey]
    · simp [hnil, hkey, stamps]
  · by_cases hkey : key' = key
    · simp [hnil, hkey]
    · simp [hnil, hkey, stamps]

/-- A call is allowed below the maximum; its key then has the counted stamps, and `now` if it
was allowed, and the other keys have what they had. -/
theorem isAllowed_eq :
    (L.isAllowed key now).2 = decide ((L.counted key now).length < L.maxRequests) ∧
      (L.isAllowed key now).1.maxRequests = L.maxRequests ∧
      (L.isAllowed key now).1.window = L.window ∧
      ∀ key', (L.isAllowed key now).1.stamps key'
        = if key' = key then
            L.counted key now ++ if (L.isAllowed key now).2 then [now] else []
          else L.stamps key' := by
  have hkept : (L.prune key now key).getD [] = L.counted key now := by
    rw [getD_prune, if_pos rfl]
  rw [isAllowed, hkept]
  by_cases hfull : (L.counted key now).length ≥ L.maxRequests
  · rw [if_pos hfull]
    refine ⟨by simp [not_lt.mpr hfull], rfl, rfl, fun key' => ?_⟩
    show (L.prune key now key').getD [] = _
    rw [getD_prune]
    simp
  · rw [if_neg hfull]
    refine ⟨by simpa using hfull, rfl, rfl, fun key' => ?_⟩
    show (Function.update (L.prune key now) key _ key').getD [] = _
    by_cases hkey : key' = key
    · simp [hkey]
    · rw [Function.update_of_ne hkey, getD_prune, if_neg hkey, if_neg hkey]

/-! ### The limiter and its history -/

/-- The times of the allowed calls of a key. -/
def allowedTimes (past : List (Answer String ℚ)) (key : String) : List ℚ :=
  (past.filter fun a => a.key = key ∧ a.allowed = true).map (·.time)

theorem allowedTimes_append (past past' : List (Answer String ℚ)) (key : String) :
    allowedTimes (past ++ past') key = allowedTimes past key ++ allowedTimes past' key := by
  rw [allowedTimes, List.filter_append, List.map_append]
  rfl

theorem allowedTimes_singleton (a : Answer String ℚ) (key : String) :
    allowedTimes [a] key = if a.key = key ∧ a.allowed = true then [a.time] else [] := by
  rw [allowedTimes, List.filter_singleton]
  by_cases h : a.key = key ∧ a.allowed = true
  · simp [h]
  · rw [if_neg h, decide_eq_false h]
    rfl

theorem recent_eq_length (past : List (Answer String ℚ)) (window : ℚ) (call : Call String ℚ) :
    recent window past call
      = ((allowedTimes past call.key).filter fun t => call.time - t < window).length := by
  rw [allowedTimes, List.filter_map, List.length_map, List.filter_filter,
    ← List.countP_eq_length_filter, recent]
  refine List.countP_congr fun a _ => ?_
  simp only [decide_eq_true_eq, Bool.and_eq_true, Function.comp_apply]
  tauto

/-- From the latest call on, the stamps of a key and the times of its allowed calls agree on
what is in the window. -/
def Represents (L : RateLimiter) (past : List (Answer String ℚ)) : Prop :=
  ∀ key now, (∀ a ∈ past, a.time ≤ now) →
    L.counted key now = (allowedTimes past key).filter fun t => now - t < L.window

variable {L key now} {past : List (Answer String ℚ)}

/-- What is in the window now was in it at any earlier time. -/
theorem filter_filter_window {window : ℚ} {now now' : ℚ} (hle : now ≤ now') (l : List ℚ) :
    (l.filter fun t => now - t < window).filter (fun t => now' - t < window)
      = l.filter fun t => now' - t < window := by
  rw [List.filter_filter]
  refine List.filter_congr fun t _ => ?_
  rw [Bool.eq_iff_iff]
  simp only [Bool.and_eq_true, decide_eq_true_eq]
  exact ⟨fun h => h.1, fun h => ⟨h, by linarith⟩⟩

theorem represents_isAllowed (h : Represents L past) (hlater : ∀ a ∈ past, a.time ≤ now) :
    Represents (L.isAllowed key now).1 (past ++ [⟨⟨key, now⟩, (L.isAllowed key now).2⟩]) := by
  obtain ⟨-, -, hwindow, hstamps⟩ := L.isAllowed_eq key now
  intro key' now' hlater'
  have hnow : now ≤ now' := hlater' ⟨⟨key, now⟩, (L.isAllowed key now).2⟩ (by simp)
  have hpast : ∀ a ∈ past, a.time ≤ now' := fun a ha => (hlater a ha).trans hnow
  rw [counted, hstamps key', hwindow, allowedTimes_append, allowedTimes_singleton]
  by_cases hkey : key' = key
  · subst hkey
    rw [if_pos rfl, List.filter_append, List.filter_append, counted,
      filter_filter_window hnow]
    congr 1
    · exact h key' now' hpast
    · simp
  · rw [if_neg hkey, if_neg (fun hsame => hkey hsame.1.symm), List.append_nil]
    exact h key' now' hpast

theorem isAllowed_eq_answer (key : String) (h : Represents L past)
    (hlater : ∀ a ∈ past, a.time ≤ now) :
    (⟨⟨key, now⟩, (L.isAllowed key now).2⟩ : Answer String ℚ)
      = answer L.maxRequests L.window past ⟨key, now⟩ := by
  rw [answer, recent_eq_length, ← h key now hlater, (L.isAllowed_eq key now).1]

/-- The limiter answers as the policy does, for non-decreasing readings of the clock. -/
theorem answersTo_eq_answers {calls : List (Call String ℚ)} (h : Represents L past)
    (hlater : ∀ a ∈ past, ∀ call ∈ calls, a.time ≤ call.time)
    (hmono : calls.Pairwise fun call call' => call.time ≤ call'.time) :
    L.answersTo calls = answers L.maxRequests L.window past calls := by
  induction calls generalizing L past with
  | nil => rfl
  | cons call calls ih =>
    obtain ⟨hfirst, hmono⟩ := List.pairwise_cons.mp hmono
    have hnow : ∀ a ∈ past, a.time ≤ call.time := fun a ha => hlater a ha call (by simp)
    obtain ⟨-, hmax, hwindow, -⟩ := L.isAllowed_eq call.key call.time
    have hanswer := isAllowed_eq_answer call.key h hnow
    rw [answersTo, answers, ← hanswer]
    refine congrArg _ ?_
    rw [ih (represents_isAllowed h hnow) ?_ hmono, hmax, hwindow]
    intro a ha call' hcall'
    rcases List.mem_append.mp ha with ha | ha
    · exact hlater a ha call' (List.mem_cons_of_mem call hcall')
    · rw [List.mem_singleton.mp ha]
      exact hfirst call' hcall'

theorem represents_nil (maxRequests : ℕ) (window : ℚ) :
    Represents { maxRequests := maxRequests, window := window } [] := by
  intro key now _
  rfl

theorem answersTo_init (maxRequests : ℕ) (window : ℚ) {calls : List (Call String ℚ)}
    (hmono : calls.Pairwise fun call call' => call.time ≤ call'.time) :
    answersTo { maxRequests := maxRequests, window := window } calls
      = answers maxRequests window [] calls :=
  answersTo_eq_answers (represents_nil maxRequests window)
    (fun _ ha => absurd ha List.not_mem_nil) hmono

/-- **The limiter is a sliding window.**  For non-decreasing readings of the clock a call is
allowed exactly when fewer than `maxRequests` calls of its key were allowed in the window
before it.  So an interval shorter than the window has at most `maxRequests` of them, a
denied call may as well not have been made, and the other keys do not matter. -/
theorem rate_limiter_is_sliding_window (maxRequests : ℕ) (window : ℚ)
    (calls : List (Call String ℚ))
    (hmono : calls.Pairwise fun call call' => call.time ≤ call'.time) :
    let served := answersTo { maxRequests := maxRequests, window := window }
    (served calls).map (·.toCall) = calls ∧
      (∀ i a, (served calls)[i]? = some a →
        (a.allowed = true ↔
          ((served calls).take i).countP (fun earlier => earlier.key = a.key ∧
            earlier.allowed = true ∧ a.time - earlier.time < window) < maxRequests)) ∧
      (∀ key lo hi, hi - lo < window →
        (served calls).countP (fun a => a.key = key ∧ a.allowed = true ∧ lo ≤ a.time ∧
          a.time ≤ hi) ≤ maxRequests) ∧
      (∀ i a, (served calls)[i]? = some a → a.allowed = false →
        served (calls.eraseIdx i) = (served calls).eraseIdx i) ∧
      ∀ key, (served calls).filter (fun a => a.key = key)
        = served (calls.filter fun call => call.key = key) := by
  dsimp only
  rw [answersTo_init maxRequests window hmono]
  refine ⟨map_toCall_answers [] calls, fun i a ha => ?_, fun key lo hi hshort => ?_,
    fun i a ha hdenied => ?_, fun key => ?_⟩
  · exact allowed_getElem? ha
  · show ([] ++ answers maxRequests window [] calls).countP (inInterval key lo hi) ≤ maxRequests
    exact countP_interval_le hshort calls (Nat.zero_le _)
  · rw [answersTo_init maxRequests window (hmono.sublist (List.eraseIdx_sublist calls i))]
    exact answers_eraseIdx ha hdenied
  · rw [answersTo_init maxRequests window (hmono.sublist List.filter_sublist)]
    exact filter_key_answers key calls fun _ _ => rfl

/-- One request per window: the second call is denied, the third one comes late enough. -/
theorem rate_limiter_is_sliding_window_one :
    let calls : List (Call String ℚ) := [⟨"a", 0⟩, ⟨"a", 1⟩, ⟨"a", 2⟩]
    answersTo { maxRequests := 1, window := 2 } (calls.eraseIdx 1)
      = (answersTo { maxRequests := 1, window := 2 } calls).eraseIdx 1 :=
  (rate_limiter_is_sliding_window 1 2 _ (by simp)).2.2.2.1 1 ⟨⟨"a", 1⟩, false⟩
    (by decide +kernel) rfl

end RateLimiter

/-! ### The decorator -/

namespace RestAPI

/-- `request.remote_addr or "unknown"`. -/
def clientIp (remoteAddr : Option String) : String :=
  match remoteAddr with
  | none => "unknown"
  | some ip => if ip = "" then "unknown" else ip

/-- A handler under `rate_limit`. -/
def rateLimit (f : Server → Server × Response) (remoteAddr : Option String) (now : ℚ)
    (L : RateLimiter) (s : Server) : RateLimiter × Server × Response :=
  match L.isAllowed (clientIp remoteAddr) now with
  | (L, false) => (L, s, rateLimited)
  | (L, true) => (L, f s)

/-- A request as the server gets it. -/
structure TimedRequest where
  handler : Server → Server × Response
  remoteAddr : Option String
  time : ℚ

def TimedRequest.call (r : TimedRequest) : Call String ℚ := ⟨clientIp r.remoteAddr, r.time⟩

/-- The server after a sequence of requests. -/
def serve : RateLimiter → Server → List TimedRequest → Server
  | _, s, [] => s
  | L, s, r :: rs =>
    match rateLimit r.handler r.remoteAddr r.time L s with
    | (L, s, _) => serve L s rs

/-- The server sees the requests that the limiter allows, in their order. -/
theorem serve_eq (L : RateLimiter) (s : Server) (requests : List TimedRequest) :
    serve L s requests
      = ((requests.zip (L.answersTo (requests.map (·.call)))).filter fun r => r.2.allowed).foldl
          (fun s r => (r.1.handler s).1) s := by
  induction requests generalizing L s with
  | nil => rfl
  | cons r rs ih =>
    rw [serve, rateLimit, List.map_cons, RateLimiter.answersTo, List.zip_cons_cons]
    simp only [TimedRequest.call]
    rcases L.isAllowed (clientIp r.remoteAddr) r.time with ⟨L', allowed⟩
    cases allowed with
    | false => exact ih L' s
    | true => exact ih L' (r.handler s).1

end RestAPI

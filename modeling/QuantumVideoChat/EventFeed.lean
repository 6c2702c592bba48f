/-
Following the event log through the dashboard (`server/admin_routes.py`, `server/server.py`).

The dashboard asks for the last entries of the log again and again.  The log keeps 500 events and
an answer holds `limit` of them, so a viewer who asks too rarely misses some.

* `sliceFrom_neg` — what `[-limit:]` leaves of a list, also for a limit that is not positive;
* `adminEvents_eq` — an answer is the end of everything logged so far;
* `complete_step_iff` — the answers that leave no gap;
* `feed_complete_iff` — the runs in which a viewer misses nothing.
-/
import Mathlib.Order.Interval.Finset.Nat
import QuantumVideoChat.AuditTrail

namespace EventFeed

open CallPairing Transition

/-! ### Slices -/

section

variable {α : Type*}

/-- `l[start:]`; a negative start counts from the end. -/
def sliceFrom (l : List α) (start : ℤ) : List α :=
  if start < 0 then l.drop (l.length - start.natAbs) else l.drop start.toNat

/-- The length of `l[-limit:]`, for a list of `kept` entries.  A limit of zero leaves all of them,
and a negative one all but the first. -/
def answerLength (limit : ℤ) (kept : ℕ) : ℕ :=
  if 0 < limit then min limit.toNat kept else kept - limit.natAbs

theorem answerLength_le (limit : ℤ) (kept : ℕ) : answerLength limit kept ≤ kept := by
  rw [answerLength]
  split <;> omega

theorem sliceFrom_neg (l : List α) (limit : ℤ) :
    sliceFrom l (-limit) = l.rtake (answerLength limit l.length) := by
  rw [sliceFrom, answerLength, List.rtake]
  by_cases hpos : 0 < limit
  · rw [if_pos (by omega), if_pos hpos]
    congr 1
    omega
  · rw [if_neg (by omega), if_neg hpos]
    rcases Nat.le_total limit.natAbs l.length with hle | hle
    · congr 1
      omega
    · rw [List.drop_eq_nil_of_le (by omega), List.drop_eq_nil_of_le (by omega)]

theorem rtake_rtake {n m : ℕ} (l : List α) (h : n ≤ (l.rtake m).length) :
    (l.rtake m).rtake n = l.rtake n := by
  have hlen := BoundedHistory.length_rtake l m
  rw [List.rtake, hlen, List.rtake, List.rtake, List.drop_drop]
  congr 1
  omega

end

/-! ### The route -/

/-- `admin_events`: no events for a request that is not authorized.  A limit that is missing or
no integer is 50. -/
def adminEvents (s : Server) (authorized : Bool) (limit : Option ℤ) :
    Option (List ServerEvent) :=
  if authorized then some (sliceFrom s.eventLog (-(limit.getD 50))) else none

/-- The server, and what a viewer of the dashboard has seen of its events. -/
structure Feed where
  server : Server
  /-- All events that have been logged. -/
  history : List ServerEvent := []
  /-- The places in the history of the events that were shown. -/
  shown : Finset ℕ := ∅
  /-- The length of the history at the last answer. -/
  polled : ℕ := 0

inductive FeedAction
  | request (a : Server.Action)
  | poll (authorized : Bool) (limit : Option ℤ)

def Feed.step (uuid : UuidSource) (f : Feed) : FeedAction → Feed
  | .request a =>
    { f with
      server := f.server.step uuid a
      history := f.history ++ AuditTrail.loggedBy uuid f.server a }
  | .poll authorized limit =>
    match adminEvents f.server authorized limit with
    | none => f
    | some events =>
      { f with
        shown := f.shown ∪ Finset.Ico (f.history.length - events.length) f.history.length
        polled := f.history.length }

/-- Everything logged before the last answer was shown. -/
def Complete (f : Feed) : Prop := ∀ i < f.polled, i ∈ f.shown

/-- No more was logged since the last answer than this one holds. -/
def InTime (f : Feed) : FeedAction → Prop
  | .poll true limit =>
    f.history.length - f.polled
      ≤ answerLength (limit.getD 50) (min Server.maxEvents f.history.length)
  | _ => True

/-- The log is the end of the history, and only what was logged has been shown. -/
structure Follows (f : Feed) : Prop where
  consistent : Consistent f.server.users
  eventLog : f.server.eventLog = f.history.rtake Server.maxEvents
  polled_le : f.polled ≤ f.history.length
  shown_lt : ∀ i ∈ f.shown, i < f.polled

variable {f : Feed}

theorem adminEvents_eq (h : Follows f) (limit : Option ℤ) :
    adminEvents f.server true limit
      = some (f.history.rtake
          (answerLength (limit.getD 50) (min Server.maxEvents f.history.length))) := by
  have hlen := BoundedHistory.length_rtake f.history Server.maxEvents
  rw [adminEvents, if_pos rfl, sliceFrom_neg, h.eventLog, hlen,
    rtake_rtake f.history (by rw [hlen]; exact answerLength_le _ _)]

theorem follows_step (uuid : UuidSource) (f : Feed) (a : FeedAction) (h : Follows f) :
    Follows (f.step uuid a) := by
  cases a with
  | request a =>
    have hlog := (AuditTrail.loggedBy_effect uuid f.server h.consistent a).2.1 f.server.eventLog
    refine ⟨consistent_step uuid f.server a h.consistent, ?_, ?_, h.shown_lt⟩
    · rw [Feed.step, ← AuditTrail.appendEvent_rtake, ← h.eventLog]
      exact hlog
    · rw [Feed.step, List.length_append]
      exact h.polled_le.trans (Nat.le_add_right _ _)
  | poll authorized limit =>
    rw [Feed.step]
    cases adminEvents f.server authorized limit with
    | none => exact h
    | some events =>
      refine ⟨h.consistent, h.eventLog, le_rfl, fun i hi => ?_⟩
      rcases Finset.mem_union.mp hi with hold | hnew
      · exact (h.shown_lt i hold).trans_le h.polled_le
      · exact (Finset.mem_Ico.mp hnew).2

/-- An answer leaves a gap exactly when it does not reach back to the one before. -/
theorem complete_step_iff (uuid : UuidSource) (f : Feed) (a : FeedAction) (h : Follows f)
    (hcomplete : Complete f) : Complete (f.step uuid a) ↔ InTime f a := by
  cases a with
  | request a => exact iff_of_true hcomplete trivial
  | poll authorized limit =>
    cases authorized with
    | false => exact iff_of_true hcomplete trivial
    | true =>
      have hlen := BoundedHistory.length_rtake f.history
        (answerLength (limit.getD 50) (min Server.maxEvents f.history.length))
      have hanswer := answerLength_le (limit.getD 50) (min Server.maxEvents f.history.length)
      rw [Feed.step, adminEvents_eq h, Complete, InTime]
      dsimp only
      rw [hlen, min_eq_left (hanswer.trans (min_le_right _ _))]
      constructor
      · intro hall
        by_contra hlate
        -- the first event after the last answer has not been shown
        have hfirst := hall f.polled (by omega)
        rcases Finset.mem_union.mp hfirst with hold | hnew
        · exact lt_irrefl _ (h.shown_lt _ hold)
        · have hfrom := (Finset.mem_Ico.mp hnew).1
          omega
      · intro hintime i hi
        rcases Nat.lt_or_ge i f.polled with hold | hnew
        · exact Finset.mem_union_left _ (hcomplete i hold)
        · exact Finset.mem_union_right _ (Finset.mem_Ico.mpr ⟨by omega, hi⟩)

/-- **When a viewer misses nothing.**  Over every run of requests to the server and to the
dashboard, an answer is the end of all that was logged: `limit` events of the last 500, all of
them for a limit of zero, and all but the first few for a negative one.  Everything logged before
the last answer has been shown in every state of the run exactly when each answer was asked for
before more events were logged than it holds. -/
theorem feed_complete_iff (uuid : UuidSource) (apiEndpoint : Endpoint)
    (socketApi : Option SocketAPI) (actions : List FeedAction) :
    let start : Feed := { server := { apiEndpoint := apiEndpoint, socketApi := socketApi } }
    let f := actions.foldl (Feed.step uuid) start
    (∀ limit, adminEvents f.server true limit
      = some (f.history.rtake
          (answerLength (limit.getD 50) (min Server.maxEvents f.history.length)))) ∧
    (Throughout (Feed.step uuid) Complete start actions ↔
      Along (Feed.step uuid) InTime start actions) := by
  intro start f
  have hstart : Follows start :=
    ⟨consistent_empty, (List.rtake_nil _).symm, le_rfl,
      fun i hi => absurd hi (Finset.notMem_empty i)⟩
  have hf : Follows f := foldl_induction (I := Follows) hstart (follows_step uuid) actions
  refine ⟨adminEvents_eq hf, ?_⟩
  exact throughout_iff_along (follows_step uuid) (complete_step_iff uuid) hstart
    (fun i hi => absurd hi (Nat.not_lt_zero i)) actions

/-- Three events, and an answer with two of them. -/
example :
    let f := ([.request (.removeUser "10000"), .request (.removeUser "10001"),
        .request (.removeUser "10002"), .poll true (some 2)] : List FeedAction).foldl
      (Feed.step plainUuid) { server := { apiEndpoint := ⟨some "10.0.0.9", .int 5050, none⟩ } }
    f.polled = 3 ∧ f.shown = {1, 2} := by
  decide +kernel

end EventFeed

/-
The ids the server issues (`server/utils/user_manager.py`) and the form that takes them
(`website/client/static/app.js`).

A five-digit candidate is checked against the store; the six-digit one that follows a
hundred refusals is not, and only the store itself turns a duplicate away.

* `generateUserId_cases` — the id is a free candidate, or the fallback after a hundred
  occupied ones;
* `isRoomCode_candidate`, `isRoomCode_sixDigitId` — the join form takes the first kind only;
* `issuesJoinableId_iff` — when adding a user issues an id that is fresh and can be joined.
-/
import QuantumVideoChat.JoinForm

namespace UserManager

open JoinForm

variable {users : UserStore} {draws : IdDraws}

/-- The fallback of `generate_user_id`. -/
def sixDigitId (draws : IdDraws) : String := toString (draws.sixDigits.val + 100000)

/-- A free candidate is found, or all hundred are taken. -/
theorem generateUserId_cases (users : UserStore) (draws : IdDraws) :
    (∃ i < 100, candidate draws i ∉ users ∧ generateUserId users draws = candidate draws i) ∨
    ((∀ i < 100, candidate draws i ∈ users) ∧ generateUserId users draws = sixDigitId draws) := by
  rw [generateUserId]
  cases hfind : (List.range 100).find? fun i => decide (candidate draws i ∉ users) with
  | none =>
    refine .inr ⟨fun i hi => ?_, rfl⟩
    simpa using List.find?_eq_none.mp hfind i (List.mem_range.mpr hi)
  | some i =>
    refine .inl ⟨i, List.mem_range.mp (List.mem_of_find?_eq_some hfind), ?_, rfl⟩
    simpa using List.find?_some hfind

/-! ### Decimal ids and the form -/

/-- A number written in decimal is a room code exactly when it has five digits. -/
theorem isRoomCode_toString_iff (n : ℕ) :
    isRoomCode (toString n) = true ↔ 10000 ≤ n ∧ n < 100000 := by
  have hdigits : ∀ c ∈ Nat.toDigits 10 n, c.isAlphanum = true := fun c hc => by
    have hdigit := Nat.isDigit_of_mem_toDigits (by decide) (by decide) hc
    rw [Char.isAlphanum, hdigit, Bool.or_true]
  have hfive := Nat.length_toDigits_le_iff (n := n) (k := 5) (b := 10) (by decide) (by decide)
  have hfour := Nat.length_toDigits_le_iff (n := n) (k := 4) (b := 10) (by decide) (by decide)
  rw [isRoomCode_iff, Nat.toString_eq_repr, Nat.toList_repr, and_iff_left hdigits]
  omega

theorem isRoomCode_candidate (draws : IdDraws) (i : ℕ) :
    isRoomCode (candidate draws i) = true := by
  have hlt := (draws.fiveDigits i).isLt
  exact (isRoomCode_toString_iff _).mpr (by omega)

/-- Six digits are one too many. -/
theorem isRoomCode_sixDigitId (draws : IdDraws) : ¬ isRoomCode (sixDigitId draws) = true := by
  rw [sixDigitId, isRoomCode_toString_iff]
  omega

/-- The form accepts an issued id and sends it along as it is. -/
def Joinable (userId : String) : Prop := handleJoin userId = some (joinRoom (some userId))

theorem joinable_toString_iff (n : ℕ) :
    Joinable (toString n) ↔ isRoomCode (toString n) = true :=
  handleJoin_eq_joinRoom_iff (by simp)

/-! ### Adding a user -/

/-- What adding a user promises: a fresh id of a new idle user that can be joined, with every
other entry as it was; or an exception, and the store as it was. -/
def IssuesJoinableId (s : Server) (apiEndpoint : List PyValue) (draws : IdDraws) : Prop :=
  match s.addUser apiEndpoint draws with
  | (s', .error _) => s'.users = s.users
  | (s', .ok userId) =>
    userId ∉ s.users ∧
      (∃ endpoint, Endpoint.ofParts apiEndpoint = .ok endpoint ∧
        s'.users.lookup userId = some ⟨endpoint, .idle, none⟩) ∧
      (∀ other, other ≠ userId → s'.users.lookup other = s.users.lookup other) ∧
      Joinable userId

/-- An exception of `add_user`: the endpoint is not one, or the id is taken after all. -/
theorem addUser_isError_iff (s : Server) (apiEndpoint : List PyValue) (draws : IdDraws) :
    (∃ e, (s.addUser apiEndpoint draws) = (s, .error e)) ↔
      (∃ e, Endpoint.ofParts apiEndpoint = .error e) ∨
        generateUserId s.users draws ∈ s.users := by
  rw [Server.addUser, addUser, User.init]
  cases Endpoint.ofParts apiEndpoint with
  | error e => simp
  | ok endpoint =>
    by_cases hmem : generateUserId s.users draws ∈ s.users
    · simp [DictUserStorage.addUser, hmem]
    · simp [DictUserStorage.addUser, hmem]

/-- Adding a user either raises and leaves the server alone, or issues the generated id. -/
theorem addUser_cases (s : Server) (apiEndpoint : List PyValue) (draws : IdDraws) :
    (((∃ e, Endpoint.ofParts apiEndpoint = .error e) ∨
        generateUserId s.users draws ∈ s.users) ∧
      ∃ e, s.addUser apiEndpoint draws = (s, .error e)) ∨
    (generateUserId s.users draws ∉ s.users ∧
      ∃ endpoint, Endpoint.ofParts apiEndpoint = .ok endpoint ∧
        (s.addUser apiEndpoint draws).2 = .ok (generateUserId s.users draws) ∧
        (s.addUser apiEndpoint draws).1.users
          = s.users.insert (generateUserId s.users draws) ⟨endpoint, .idle, none⟩) := by
  by_cases hraises : (∃ e, Endpoint.ofParts apiEndpoint = .error e) ∨
      generateUserId s.users draws ∈ s.users
  · exact .inl ⟨hraises, (addUser_isError_iff s apiEndpoint draws).mpr hraises⟩
  · rw [not_or] at hraises
    obtain ⟨hendpoint, hnew⟩ := hraises
    cases hparts : Endpoint.ofParts apiEndpoint with
    | error e => exact absurd ⟨e, hparts⟩ hendpoint
    | ok endpoint =>
      have hok := addUser_eq_ok.mpr ⟨rfl, hnew, endpoint, hparts, rfl⟩
      refine .inr ⟨hnew, endpoint, rfl, ?_⟩
      rw [Server.addUser, hok]
      exact ⟨rfl, Server.logEvent_users _ _⟩

/-- **When the server issues an id that can be joined.**  For every store and all draws,
adding a user keeps its promise if and only if one of the hundred candidates is free, or
there is an exception: the fallback id is taken, or the endpoint is none. -/
theorem issuesJoinableId_iff (s : Server) (apiEndpoint : List PyValue) (draws : IdDraws) :
    IssuesJoinableId s apiEndpoint draws ↔
      (∃ i < 100, candidate draws i ∉ s.users) ∨ sixDigitId draws ∈ s.users ∨
        ∃ e, Endpoint.ofParts apiEndpoint = .error e := by
  rw [IssuesJoinableId]
  rcases addUser_cases s apiEndpoint draws with ⟨hraises, e, heq⟩ |
    ⟨hnew, endpoint, hparts, hid, husers⟩
  · -- nothing changes, and one of the alternatives is there
    rw [heq]
    refine iff_of_true rfl ?_
    rcases hraises with hendpoint | hmem
    · exact .inr (.inr hendpoint)
    · rcases generateUserId_cases s.users draws with ⟨i, hi, hfree, -⟩ | ⟨-, hsix⟩
      · exact .inl ⟨i, hi, hfree⟩
      · exact .inr (.inl (hsix ▸ hmem))
  · rcases hadd : s.addUser apiEndpoint draws with ⟨s', result⟩
    rw [hadd] at hid husers
    obtain rfl : result = .ok (generateUserId s.users draws) := hid
    dsimp only at husers ⊢
    rcases generateUserId_cases s.users draws with ⟨i, hi, hfree, heq⟩ | ⟨htaken, hsix⟩
    · refine iff_of_true ⟨hnew, ⟨endpoint, hparts, ?_⟩, fun other hother => ?_, ?_⟩
        (.inl ⟨i, hi, hfree⟩)
      · rw [husers, Finmap.lookup_insert]
      · rw [husers, Finmap.lookup_insert_of_ne _ hother]
      · rw [heq]
        exact (joinable_toString_iff _).mpr (isRoomCode_candidate draws i)
    · -- the fallback is issued, and the form refuses it
      refine iff_of_false (fun h => ?_) fun h => ?_
      · have hjoin := h.2.2.2
        rw [hsix] at hjoin
        exact isRoomCode_sixDigitId draws ((joinable_toString_iff _).mp hjoin)
      · rcases h with ⟨i, hi, hfree⟩ | hmem | ⟨e, herror⟩
        · exact hfree (htaken i hi)
        · exact hnew (hsix ▸ hmem)
        · rw [hparts] at herror
          exact absurd herror (by simp)

/-- User 10000 is there, and every draw hits it. -/
def crowded : Server where
  apiEndpoint := ⟨none, .int 5050, none⟩
  users := (∅ : UserStore).insert "10000" { apiEndpoint := ⟨some "127.0.0.1", .int 5001, none⟩ }

def unluckyDraws : IdDraws := CallPairing.plainDraws 0

/-- The newcomer gets id 100000, which no form lets through. -/
theorem crowded_issues_six_digits :
    ¬ ∀ (s : Server) (apiEndpoint : List PyValue) (draws : IdDraws),
      IssuesJoinableId s apiEndpoint draws := by
  intro hall
  have h := hall crowded [.str "127.0.0.1", .int 5002] unluckyDraws
  have hadd : (crowded.addUser [.str "127.0.0.1", .int 5002] unluckyDraws).2 = .ok "100000" := by
    decide +kernel
  have hform : ¬ Joinable "100000" := by
    rw [Joinable, handleJoin_eq_joinRoom_iff (by decide)]
    decide +kernel
  rw [IssuesJoinableId] at h
  rcases hs : crowded.addUser [.str "127.0.0.1", .int 5002] unluckyDraws with ⟨s', result⟩
  rw [hs] at h hadd
  obtain rfl : result = .ok "100000" := hadd
  exact hform h.2.2.2

end UserManager

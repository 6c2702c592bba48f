/-
Network endpoints (`shared/endpoint.py`).

The constructor's arguments come from JSON, so each is a `PyValue`; `Endpoint(*parts)` is
`ofParts`.  `parts` leaves out an absent port, which shifts the route into its place.

* `copy_isOk_iff` — `Endpoint(*e)` fails exactly when `e` has neither port nor route.
-/
import Mathlib.Data.Finmap

/-- The JSON values an endpoint is built from. -/
inductive PyValue
  | none
  | str (s : String)
  | int (n : ℤ)
  deriving DecidableEq

/-- What calling a constructor or a method can raise. -/
inductive PyError
  | typeError
  | attributeError
  | valueError
  deriving DecidableEq

structure Endpoint where
  ip : Option String
  port : PyValue
  route : Option String
  deriving DecidableEq

namespace Endpoint

/-- `s.startswith(p)`. -/
def startsWith (s p : String) : Bool := p.toList.isPrefixOf s.toList

/-- `s[n:]`. -/
def sliceFrom (s : String) (n : ℕ) : String := String.ofList (s.toList.drop n)

def stripProtocol (ip : String) : String :=
  if startsWith ip "https://" then sliceFrom ip 8
  else if startsWith ip "http://" then sliceFrom ip 7
  else ip

def stripSlash (route : String) : String :=
  if startsWith route "/" then sliceFrom route 1 else route

/-- `not value`. -/
def falsy : PyValue → Bool
  | .none => true
  | .str s => s == ""
  | .int n => n == 0

/-- `Endpoint.__init__`. -/
def init (ip port route : PyValue) : Except PyError Endpoint :=
  let parseIp : Except PyError (Option String) :=
    if falsy ip then .ok none
    else
      match ip with
      | .str s => .ok (some (stripProtocol s))
      | _ => .error .attributeError
  let parseRoute : Except PyError (Option String) :=
    if falsy route || route == .str "/" then .ok none
    else
      match route with
      | .str s => .ok (some (stripSlash s))
      | _ => .error .attributeError
  match parseIp, parseRoute with
  | .ok ip, .ok route => .ok { ip := ip, port := port, route := route }
  | .error e, _ => .error e
  | _, .error e => .error e

/-- `Endpoint(*args)`. -/
def ofParts : List PyValue → Except PyError Endpoint
  | [ip, port] => init ip port .none
  | [ip, port, route] => init ip port route
  | _ => .error .typeError

/-- `x or "localhost"`. -/
def orLocalhost (ip : Option String) : String :=
  match ip with
  | some s => if s = "" then "localhost" else s
  | none => "localhost"

/-- `__iter__`. -/
def parts (e : Endpoint) : List PyValue :=
  [.str (orLocalhost e.ip)]
    ++ (if e.port = .none then [] else [e.port])
    ++ (match e.route with
      | some s => if s = "" then [] else [.str s]
      | none => [])

/-- `Endpoint(*e)`. -/
def copy (e : Endpoint) : Except PyError Endpoint := ofParts e.parts

/-- `__call__`. -/
def call (e : Endpoint) (route : String) : Except PyError Endpoint :=
  if route = "" then .ok e
  else
    match e.copy with
    | .error err => .error err
    -- the second copy takes the slash off the new route
    | .ok endpoint => { endpoint with route := some route }.copy

/-- `to_string` with the scheme of the server's TLS setting. -/
def toString (scheme : String) (e : Endpoint) : String :=
  let port :=
    match e.port with
    | .none => ""
    | .str s => if s = "" then "" else ":" ++ s
    | .int n => if n = 0 then "" else ":" ++ (ToString.toString n)
  let route :=
    match e.route with
    | some s => if s = "" then "" else "/" ++ s
    | none => ""
  scheme ++ "://" ++ orLocalhost e.ip ++ port ++ route

/-- The constructor accepts an ip and a route that are strings or absent. -/
theorem init_ok (ip : String) (port : PyValue) {route : PyValue}
    (hroute : route = .none ∨ ∃ s, route = .str s) :
    ∃ e, init (.str ip) port route = .ok e ∧ e.port = port := by
  rcases hroute with rfl | ⟨s, rfl⟩
  · by_cases hip : ip = "" <;> simp [init, falsy, hip]
  · by_cases hip : ip = "" <;> by_cases hs : s = "" ∨ s = "/" <;> simp [init, falsy, hip, hs]

/-- An endpoint without port and route is the only one that cannot be copied. -/
theorem copy_isOk_iff (e : Endpoint) :
    (∃ e', e.copy = .ok e') ↔ e.port ≠ .none ∨ ∃ s, e.route = some s ∧ s ≠ "" := by
  obtain ⟨ip, port, route⟩ := e
  -- the tail of `parts`: the route when there is one to yield
  have htail : (match route with
      | some s => if s = "" then [] else [PyValue.str s]
      | none => []) = [] ∧ (¬ ∃ s, route = some s ∧ s ≠ "") ∨
      ∃ s, s ≠ "" ∧ route = some s ∧ (match route with
        | some s => if s = "" then [] else [PyValue.str s]
        | none => []) = [PyValue.str s] := by
    cases route with
    | none => simp
    | some s => by_cases hs : s = "" <;> simp [hs]
  -- one argument too few is a `TypeError`; a missing port lets the route take its place
  rcases htail with ⟨htail, hnone⟩ | ⟨s, hs, rfl, htail⟩
  · by_cases hport : port = .none
    · simp [copy, parts, htail, hport, hnone, ofParts]
    · obtain ⟨e', he', -⟩ := init_ok (orLocalhost ip) port (.inl rfl)
      simp [copy, parts, htail, hport, ofParts, he']
  · by_cases hport : port = .none
    · obtain ⟨e', he', -⟩ := init_ok (orLocalhost ip) (.str s) (.inl rfl)
      simp [copy, parts, hport, ofParts, he', hs]
    · obtain ⟨e', he', -⟩ := init_ok (orLocalhost ip) port (.inr ⟨s, rfl⟩)
      simp [copy, parts, hport, ofParts, he', hs]

theorem init_port {ip port route : PyValue} {e : Endpoint} (h : init ip port route = .ok e) :
    e.port = port := by
  unfold init at h
  dsimp only at h
  split at h
  · rw [← Except.ok.inj h]
  · exact absurd h (by simp)
  · exact absurd h (by simp)

/-- The copy of an endpoint can be copied again: something stands in its port's place. -/
theorem copy_of_copy {e e' : Endpoint} (h : e.copy = .ok e') : ∃ e'', e'.copy = .ok e'' := by
  refine (copy_isOk_iff e').mpr (.inl ?_)
  obtain ⟨ip, port, route⟩ := e
  by_cases hport : port = .none
  · -- the route has taken the place of the port
    obtain ⟨s, hs, hne⟩ := ((copy_isOk_iff _).mp ⟨e', h⟩).resolve_left (not_not.mpr hport)
    obtain rfl : route = some s := hs
    simp only [copy, parts, hport, if_true, if_neg hne, List.append_nil, List.cons_append,
      List.nil_append, ofParts] at h
    rw [init_port h]
    exact PyValue.noConfusion
  · have hinit : ∃ r, init (.str (orLocalhost ip)) port r = .ok e' := by
      cases route with
      | none =>
        simp only [copy, parts, if_neg hport, List.append_nil, List.cons_append, List.nil_append,
          ofParts] at h
        exact ⟨_, h⟩
      | some s =>
        by_cases hs : s = ""
        · simp only [copy, parts, if_neg hport, if_pos hs, List.append_nil, List.cons_append,
            List.nil_append, ofParts] at h
          exact ⟨_, h⟩
        · simp only [copy, parts, if_neg hport, if_neg hs, List.cons_append, List.nil_append,
            ofParts] at h
          exact ⟨_, h⟩
    obtain ⟨r, hr⟩ := hinit
    rw [init_port hr]
    exact hport

/-- Any route can be appended to an endpoint that can be copied. -/
theorem call_isOk {e e' : Endpoint} (h : e.copy = .ok e') (route : String) :
    ∃ e'', e.call route = .ok e'' := by
  rw [call]
  by_cases hroute : route = ""
  · rw [if_pos hroute]
    exact ⟨e, rfl⟩
  · rw [if_neg hroute, h]
    exact (copy_isOk_iff _).mpr (.inr ⟨route, rfl, hroute⟩)

end Endpoint

/-
Endpoints that survive being copied (`shared/endpoint.py`, `server/utils/user.py`).

`Endpoint(*e)` hands what `e` yields to the constructor once more: an absent port lets the route
move up, and a prefix or slash that the first construction left behind is taken off.

* `copied_iff`, `copy_toString_eq_iff` — the copy has the parts, and the URL, of the original
  exactly for stable endpoints;
* `stable_iff` — which arguments of the constructor give these;
* `Registered.run` — a user keeps the endpoint it was stored with until it is removed;
* `survives_copies_iff` — what copying, looking a user up and appending a route give.
-/
import QuantumVideoChat.CallPairing

namespace Endpoint

open Transition

/-! ### Prefixes and slashes -/

theorem startsWith_iff {s p : String} : startsWith s p = true ↔ ∃ t, s = p ++ t := by
  rw [startsWith, List.isPrefixOf_iff_prefix]
  constructor
  · rintro ⟨t, ht⟩
    refine ⟨String.ofList t, ?_⟩
    rw [← String.toList_inj, String.toList_append, String.toList_ofList, ht]
  · rintro ⟨t, rfl⟩
    exact ⟨t.toList, (String.toList_append).symm⟩

theorem sliceFrom_append (p t : String) : sliceFrom (p ++ t) p.toList.length = t := by
  rw [sliceFrom, String.toList_append, List.drop_left, String.ofList_toList]

/-- The ip begins with a prefix that the constructor takes off. -/
def hasProtocol (ip : String) : Bool := startsWith ip "https://" || startsWith ip "http://"

/-- Nothing is taken off, or one of the two prefixes is. -/
theorem stripProtocol_cases (s : String) :
    (hasProtocol s = false ∧ stripProtocol s = s) ∨
      ∃ p, (p = "https://" ∨ p = "http://") ∧ hasProtocol s = true ∧ s = p ++ stripProtocol s := by
  rw [hasProtocol, stripProtocol]
  by_cases hhttps : startsWith s "https://" = true
  · obtain ⟨t, rfl⟩ := startsWith_iff.mp hhttps
    refine .inr ⟨"https://", .inl rfl, by rw [hhttps]; rfl, ?_⟩
    rw [if_pos hhttps]
    exact congrArg _ (sliceFrom_append "https://" t).symm
  · by_cases hhttp : startsWith s "http://" = true
    · obtain ⟨t, rfl⟩ := startsWith_iff.mp hhttp
      refine .inr ⟨"http://", .inr rfl, by rw [hhttp, Bool.or_true], ?_⟩
      rw [if_neg hhttps, if_pos hhttp]
      exact congrArg _ (sliceFrom_append "http://" t).symm
    · rw [if_neg hhttps, if_neg hhttp, Bool.eq_false_iff.mpr hhttps, Bool.eq_false_iff.mpr hhttp]
      exact .inl ⟨rfl, rfl⟩

theorem stripProtocol_eq_self {s : String} (h : hasProtocol s = false) : stripProtocol s = s := by
  rcases stripProtocol_cases s with ⟨-, hsame⟩ | ⟨p, -, hyes, -⟩
  · exact hsame
  · exact absurd (hyes.symm.trans h) (by decide)

theorem stripSlash_cases (s : String) :
    (startsWith s "/" = false ∧ stripSlash s = s) ∨
      (startsWith s "/" = true ∧ s = "/" ++ stripSlash s) := by
  rw [stripSlash]
  by_cases hslash : startsWith s "/" = true
  · obtain ⟨t, rfl⟩ := startsWith_iff.mp hslash
    refine .inr ⟨hslash, ?_⟩
    rw [if_pos hslash]
    exact congrArg _ (sliceFrom_append "/" t).symm
  · rw [if_neg hslash]
    exact .inl ⟨Bool.eq_false_iff.mpr hslash, rfl⟩

/-! ### What a copy is -/

/-- The route the constructor keeps of a non-empty string. -/
def keptRoute (route : String) : Option String :=
  if route = "/" then none else some (stripSlash route)

theorem keptRoute_eq_some_iff {route : String} :
    keptRoute route = some route ↔ startsWith route "/" = false := by
  rw [keptRoute]
  by_cases hslash : route = "/"
  · rw [if_pos hslash, hslash]
    decide
  · rw [if_neg hslash, Option.some_inj]
    rcases stripSlash_cases route with ⟨hno, hsame⟩ | ⟨hyes, hcut⟩
    · exact ⟨fun _ => hno, fun _ => hsame⟩
    · refine ⟨fun hsame => ?_, fun hno => absurd (hyes.symm.trans hno) (by decide)⟩
      rw [hsame] at hcut
      have hlen := congrArg (fun s => s.toList.length) hcut
      simp at hlen

/-- Only the empty route and the bare slash have nothing behind the slash. -/
theorem stripSlash_eq_empty_iff {route : String} :
    stripSlash route = "" ↔ route = "" ∨ route = "/" := by
  constructor
  · intro h
    rcases stripSlash_cases route with ⟨-, hsame⟩ | ⟨-, hcut⟩
    · exact .inl (hsame.symm.trans h)
    · rw [h] at hcut
      exact .inr hcut
  · rintro (rfl | rfl) <;> decide

theorem orLocalhost_ne_empty (ip : Option String) : orLocalhost ip ≠ "" := by
  rcases ip with _ | s
  · decide
  · rw [orLocalhost]
    split_ifs with hs
    · decide
    · exact hs

theorem orLocalhost_some {s : String} (h : s ≠ "") : orLocalhost (some s) = s := if_neg h

theorem init_without_route {ip : String} (hip : ip ≠ "") (port : PyValue) :
    init (.str ip) port .none = .ok ⟨some (stripProtocol ip), port, none⟩ := by
  simp [init, falsy, hip]

theorem init_with_route {ip route : String} (hip : ip ≠ "") (port : PyValue) (hroute : route ≠ "") :
    init (.str ip) port (.str route)
      = .ok ⟨some (stripProtocol ip), port, keptRoute route⟩ := by
  by_cases hslash : route = "/" <;> simp [init, falsy, hip, hroute, hslash, keptRoute]

/-- What an accepted call of the constructor makes of the ip and of the route. -/
theorem init_cases {ip port route : PyValue} {e : Endpoint} (h : init ip port route = .ok e) :
    ((falsy ip = true ∧ e.ip = none) ∨ ∃ s, ip = .str s ∧ e.ip = some (stripProtocol s)) ∧
    (((falsy route = true ∨ route = .str "/") ∧ e.route = none) ∨
      ∃ s, route = .str s ∧ s ≠ "" ∧ s ≠ "/" ∧ e.route = some (stripSlash s)) := by
  unfold init at h
  dsimp only at h
  split at h
  · rename_i _ _ _ _ hip hroute
    rw [← Except.ok.inj h]
    constructor
    · split_ifs at hip with habsent
      · exact .inl ⟨habsent, (Except.ok.inj hip).symm⟩
      · cases ip with
        | str s => exact .inr ⟨s, rfl, (Except.ok.inj hip).symm⟩
        | none => exact absurd hip (by simp)
        | int n => exact absurd hip (by simp)
    · split_ifs at hroute with habsent
      · exact .inl ⟨by simpa using habsent, (Except.ok.inj hroute).symm⟩
      · cases route with
        | str s =>
          have hs : s ≠ "" ∧ s ≠ "/" := by simpa [falsy] using habsent
          exact .inr ⟨s, rfl, hs.1, hs.2, (Except.ok.inj hroute).symm⟩
        | none => exact absurd hroute (by simp)
        | int n => exact absurd hroute (by simp)
  · exact absurd h (by simp)
  · exact absurd h (by simp)

/-- No constructor call leaves an empty route. -/
theorem init_route_ne {ip port route : PyValue} {e : Endpoint} (h : init ip port route = .ok e) :
    e.route ≠ some "" := by
  rcases (init_cases h).2 with ⟨-, hnone⟩ | ⟨s, -, hne, hslash, hsome⟩
  · rw [hnone]
    exact (Option.some_ne_none "").symm
  · rw [hsome, Ne, Option.some_inj, stripSlash_eq_empty_iff, not_or]
    exact ⟨hne, hslash⟩

/-- The copy of an endpoint with a port. -/
theorem copy_of_port {e : Endpoint} (hport : e.port ≠ .none) (hroute : e.route ≠ some "") :
    e.copy = .ok ⟨some (stripProtocol (orLocalhost e.ip)), e.port, e.route.bind keptRoute⟩ := by
  obtain ⟨ip, port, route⟩ := e
  have hip := orLocalhost_ne_empty ip
  cases route with
  | none =>
    simp only [copy, parts, if_neg hport, List.append_nil]
    exact init_without_route hip port
  | some r =>
    have hr : r ≠ "" := fun hr => hroute (congrArg some hr)
    simp only [copy, parts, if_neg hport, if_neg hr]
    exact init_with_route hip port hr

/-- Without a port the route takes its place, if there is one. -/
theorem copy_of_no_port {e e' : Endpoint} (hport : e.port = .none) (h : e.copy = .ok e') :
    ∃ r, r ≠ "" ∧ e.route = some r ∧
      e' = ⟨some (stripProtocol (orLocalhost e.ip)), .str r, none⟩ := by
  obtain ⟨r, hr, hne⟩ := ((copy_isOk_iff e).mp ⟨e', h⟩).resolve_left (not_not.mpr hport)
  obtain ⟨ip, port, route⟩ := e
  obtain rfl : port = .none := hport
  obtain rfl : route = some r := hr
  refine ⟨r, hne, rfl, ?_⟩
  simp only [copy, parts, if_true, if_neg hne] at h
  exact Except.ok.inj (h.symm.trans (init_without_route (orLocalhost_ne_empty ip) _))

/-! ### The URL of a copy -/

/-- What `to_string` makes of the port. -/
def portText : PyValue → String
  | .none => ""
  | .str s => if s = "" then "" else ":" ++ s
  | .int n => if n = 0 then "" else ":" ++ (ToString.toString n)

/-- What `to_string` makes of the route. -/
def routeText : Option String → String
  | some s => if s = "" then "" else "/" ++ s
  | none => ""

theorem toString_eq (scheme : String) (e : Endpoint) :
    e.toString scheme
      = scheme ++ "://" ++ (orLocalhost e.ip ++ (portText e.port ++ routeText e.route)) := by
  rw [← String.append_assoc, ← String.append_assoc]
  rfl

theorem toString_eq_iff {scheme : String} {e e' : Endpoint} :
    e'.toString scheme = e.toString scheme ↔
      orLocalhost e'.ip ++ (portText e'.port ++ routeText e'.route)
        = orLocalhost e.ip ++ (portText e.port ++ routeText e.route) := by
  rw [toString_eq, toString_eq, String.append_right_inj]

theorem routeText_some {s : String} (h : s ≠ "") : routeText (some s) = "/" ++ s := if_neg h

/-- A host that lost a prefix is not made up for by a text that is no longer than before. -/
theorem hasProtocol_eq_false {host after before : String} (hlen : after.length ≤ before.length)
    (h : orLocalhost (some (stripProtocol host)) ++ after = host ++ before) :
    hasProtocol host = false := by
  rcases stripProtocol_cases host with ⟨hno, -⟩ | ⟨p, hp, -, hcut⟩
  · exact hno
  · exfalso
    by_cases hempty : stripProtocol host = ""
    · -- the prefix alone became `localhost`
      rw [hempty] at h hcut
      have hfirst := congrArg (fun s => s.toList.head?) h
      rw [hcut] at hfirst
      rcases hp with rfl | rfl <;> simp [orLocalhost] at hfirst
    · rw [orLocalhost_some hempty] at h
      have hlong := congrArg String.length h
      have hhostlen := congrArg String.length hcut
      rw [String.length_append, String.length_append] at hlong
      rw [String.length_append] at hhostlen
      have hplen : 0 < p.length := by rcases hp with rfl | rfl <;> decide
      omega

/-- A route with a slash left comes out shorter. -/
theorem keptRoute_cases {route : String} (hroute : route ≠ "") :
    (startsWith route "/" = false ∧ keptRoute route = some route) ∨
      (startsWith route "/" = true ∧
        (routeText (keptRoute route)).length < (routeText (some route)).length) := by
  rcases stripSlash_cases route with ⟨hno, -⟩ | ⟨hyes, hcut⟩
  · exact .inl ⟨hno, keptRoute_eq_some_iff.mpr hno⟩
  · refine .inr ⟨hyes, ?_⟩
    have hlen := congrArg String.length hcut
    rw [String.length_append] at hlen
    have hslash : ("/" : String).length = 1 := rfl
    rw [routeText_some hroute, String.length_append, keptRoute]
    split_ifs with hbare
    · have hnone : (routeText none).length = 0 := rfl
      omega
    · have hne : stripSlash route ≠ "" := fun h =>
        (stripSlash_eq_empty_iff.mp h).elim hroute hbare
      rw [routeText_some hne, String.length_append]
      omega

/-! ### When copying changes nothing -/

/-- There is a port, and the constructor finds nothing more to take off. -/
structure Stable (e : Endpoint) : Prop where
  port : e.port ≠ .none
  ip : hasProtocol (orLocalhost e.ip) = false
  route : ∀ r ∈ e.route, startsWith r "/" = false

/-- There is a port, and one prefix and one slash are all there is to take off. -/
structure PlainParts (ip port route : PyValue) : Prop where
  port : port ≠ .none
  ip : ∀ s, ip = .str s → hasProtocol (stripProtocol s) = false
  route : ∀ s, route = .str s → startsWith (stripSlash s) "/" = false

theorem stable_iff {ip port route : PyValue} {e : Endpoint} (h : init ip port route = .ok e) :
    Stable e ↔ PlainParts ip port route := by
  obtain ⟨hip, hroute⟩ := init_cases h
  have hprotocol : hasProtocol (orLocalhost e.ip) = false ↔
      ∀ s, ip = .str s → hasProtocol (stripProtocol s) = false := by
    rcases hip with ⟨habsent, hnone⟩ | ⟨s, rfl, hsome⟩
    · rw [hnone]
      refine iff_of_true (by decide) ?_
      rintro s rfl
      obtain rfl : s = "" := by simpa [falsy] using habsent
      decide
    · rw [hsome]
      simp only [PyValue.str.injEq, forall_eq']
      by_cases hempty : stripProtocol s = ""
      · rw [hempty]
        exact iff_of_true (by decide) (by decide)
      · rw [orLocalhost_some hempty]
  have hslash : (∀ r ∈ e.route, startsWith r "/" = false) ↔
      ∀ s, route = .str s → startsWith (stripSlash s) "/" = false := by
    rcases hroute with ⟨habsent, hnone⟩ | ⟨s, rfl, -, -, hsome⟩
    · rw [hnone]
      refine iff_of_true (fun r hr => absurd hr (by simp)) ?_
      rintro s rfl
      have hbare : stripSlash s = "" := stripSlash_eq_empty_iff.mpr (by simpa [falsy] using habsent)
      rw [hbare]
      decide
    · simp [hsome]
  rw [← init_port h]
  exact ⟨fun hs => ⟨hs.port, hprotocol.mp hs.ip, hslash.mp hs.route⟩,
    fun hs => ⟨hs.port, hprotocol.mpr hs.ip, hslash.mpr hs.route⟩⟩

/-- The same ip (or `localhost`), port and route. -/
structure SameParts (e e' : Endpoint) : Prop where
  ip : e'.ip = some (orLocalhost e.ip)
  port : e'.port = e.port
  route : e'.route = e.route

/-- `Endpoint(*e)` is defined and has the parts of `e`. -/
def Copied (e : Endpoint) : Prop := ∃ e', e.copy = .ok e' ∧ SameParts e e'

variable {e e' : Endpoint}

theorem SameParts.toString_eq (h : SameParts e e') (scheme : String) :
    e'.toString scheme = e.toString scheme := by
  rw [toString_eq_iff, h.ip, h.port, h.route, orLocalhost_some (orLocalhost_ne_empty e.ip)]

theorem copied_of_stable (hroute : e.route ≠ some "") (h : Stable e) : Copied e := by
  refine ⟨_, copy_of_port h.port hroute, ?_, rfl, ?_⟩
  · exact congrArg some (stripProtocol_eq_self h.ip)
  · cases hr : e.route with
    | none => rfl
    | some r => exact keptRoute_eq_some_iff.mpr (h.route r hr)

theorem copied_iff (hroute : e.route ≠ some "") : Copied e ↔ Stable e := by
  refine ⟨?_, copied_of_stable hroute⟩
  rintro ⟨e', hcopy, hsame⟩
  have hport : e.port ≠ .none := by
    intro hport
    obtain ⟨r, -, -, rfl⟩ := copy_of_no_port hport hcopy
    exact absurd (hsame.port.trans hport) (by simp)
  obtain rfl := Except.ok.inj ((copy_of_port hport hroute).symm.trans hcopy)
  refine ⟨hport, ?_, fun r hr => ?_⟩
  · rcases stripProtocol_cases (orLocalhost e.ip) with ⟨hno, -⟩ | ⟨p, hp, -, hcut⟩
    · exact hno
    · have hlen := congrArg String.length (hcut.trans (congrArg _ (Option.some_inj.mp hsame.ip)))
      rw [String.length_append] at hlen
      have hplen : 0 < p.length := by rcases hp with rfl | rfl <;> decide
      omega
  · have hkept : e.route.bind keptRoute = e.route := hsame.route
    rw [Option.mem_def.mp hr] at hkept
    exact keptRoute_eq_some_iff.mp hkept

/-- The route is rendered as a port. -/
theorem toString_ne_of_no_port (hport : e.port = .none) (hcopy : e.copy = .ok e')
    (scheme : String) : e'.toString scheme ≠ e.toString scheme := by
  obtain ⟨r, hne, hr, rfl⟩ := copy_of_no_port hport hcopy
  have hafter : portText (.str r) ++ routeText none = ":" ++ r := by
    rw [portText, if_neg hne, routeText, String.append_empty]
  have hbefore : portText .none ++ routeText (some r) = "/" ++ r := by
    rw [routeText_some hne, portText, String.empty_append]
  have hlen : (":" ++ r).length ≤ ("/" ++ r).length := by
    rw [String.length_append, String.length_append]
    exact le_rfl
  rw [Ne, toString_eq_iff, hport, hr]
  dsimp only
  rw [hafter, hbefore]
  intro hurl
  rw [stripProtocol_eq_self (hasProtocol_eq_false hlen hurl),
    orLocalhost_some (orLocalhost_ne_empty e.ip), String.append_right_inj,
    String.append_left_inj] at hurl
  exact absurd hurl (by decide)

/-- The copy has the URL of the original exactly when it has its parts. -/
theorem copy_toString_eq_iff (hroute : e.route ≠ some "") (scheme : String) :
    (∃ e', e.copy = .ok e' ∧ e'.toString scheme = e.toString scheme) ↔ Stable e := by
  constructor
  · rintro ⟨e', hcopy, hurl⟩
    by_cases hport : e.port = .none
    · exact absurd hurl (toString_ne_of_no_port hport hcopy scheme)
    · obtain rfl := Except.ok.inj ((copy_of_port hport hroute).symm.trans hcopy)
      rw [toString_eq_iff] at hurl
      dsimp only at hurl
      cases hr : e.route with
      | none =>
        rw [hr] at hurl
        have hip := hasProtocol_eq_false le_rfl hurl
        exact ⟨hport, hip, fun r h => absurd (hr.symm.trans h) (by simp)⟩
      | some r =>
        have hne : r ≠ "" := fun h => hroute (h ▸ hr)
        rw [hr, Option.bind_some] at hurl
        rcases keptRoute_cases hne with ⟨hno, hkept⟩ | ⟨-, hshort⟩
        · rw [hkept] at hurl
          refine ⟨hport, hasProtocol_eq_false le_rfl hurl, fun r' h => ?_⟩
          rwa [← Option.some_inj.mp (hr.symm.trans h)]
        · -- the host is kept, so the two routes would be equally long
          exfalso
          have hlen : (portText e.port ++ routeText (keptRoute r)).length
              ≤ (portText e.port ++ routeText (some r)).length := by
            rw [String.length_append, String.length_append]
            omega
          rw [stripProtocol_eq_self (hasProtocol_eq_false hlen hurl),
            orLocalhost_some (orLocalhost_ne_empty e.ip), String.append_right_inj,
            String.append_right_inj] at hurl
          exact absurd (congrArg String.length hurl) hshort.ne
  · intro h
    obtain ⟨e', hcopy, hsame⟩ := copied_of_stable hroute h
    exact ⟨e', hcopy, hsame.toString_eq scheme⟩

/-! ### Appending a route -/

theorem SameParts.stable (h : SameParts e e') (hs : Stable e) : Stable e' := by
  refine ⟨h.port ▸ hs.port, ?_, h.route ▸ hs.route⟩
  rw [h.ip, orLocalhost_some (orLocalhost_ne_empty e.ip)]
  exact hs.ip

theorem call_of_stable (hroute : e.route ≠ some "") (h : Stable e) {route : String}
    (hne : route ≠ "") :
    e.call route = .ok ⟨some (orLocalhost e.ip), e.port, keptRoute route⟩ := by
  obtain ⟨e₁, hcopy, hsame⟩ := copied_of_stable hroute h
  have hport : e₁.port ≠ .none := hsame.port ▸ h.port
  have hroute₁ : some route ≠ some "" := fun hr => hne (Option.some_inj.mp hr)
  have hcopy₁ := copy_of_port (e := { e₁ with route := some route }) hport hroute₁
  dsimp only at hcopy₁
  rw [call, if_neg hne, hcopy]
  dsimp only
  rw [hcopy₁, hsame.ip, hsame.port, orLocalhost_some (orLocalhost_ne_empty e.ip),
    stripProtocol_eq_self h.ip, Option.bind_some]

/-- The URL of the scheme, ip and port alone. -/
def baseUrl (scheme : String) (e : Endpoint) : String := { e with route := none }.toString scheme

/-- `e(route)` renders to the scheme, ip and port of `e`, a slash, and the route without its
leading slash. -/
def Appended (scheme : String) (e : Endpoint) (route : String) : Prop :=
  ∃ e', e.call route = .ok e' ∧ e'.toString scheme = baseUrl scheme e ++ "/" ++ stripSlash route

/-- For endpoints with one host and port only the text of the route decides. -/
theorem toString_extended_iff (e e' : Endpoint) (hip : orLocalhost e'.ip = orLocalhost e.ip)
    (hport : e'.port = e.port) (scheme s : String) :
    e'.toString scheme = baseUrl scheme e ++ "/" ++ s ↔ routeText e'.route = "/" ++ s := by
  have hextended : baseUrl scheme e ++ "/" ++ s
      = scheme ++ "://" ++ (orLocalhost e.ip ++ (portText e.port ++ ("/" ++ s))) := by
    rw [baseUrl, toString_eq]
    simp only [routeText, String.append_empty, String.append_assoc]
  rw [hextended, toString_eq, hip, hport, String.append_right_inj, String.append_right_inj,
    String.append_right_inj]

theorem routeText_keptRoute {route : String} (hne : route ≠ "") (hslash : route ≠ "/") :
    routeText (keptRoute route) = "/" ++ stripSlash route := by
  have hkept : stripSlash route ≠ "" := fun h => (stripSlash_eq_empty_iff.mp h).elim hne hslash
  rw [keptRoute, if_neg hslash, routeText_some hkept]

theorem routeText_ne_slash {route : Option String} (h : route ≠ some "") :
    routeText route ≠ "/" ++ "" := by
  cases route with
  | none => decide
  | some r =>
    have hr : r ≠ "" := fun hr => h (congrArg some hr)
    rw [routeText_some hr, Ne, String.append_right_inj]
    exact hr

/-- The empty route appends nothing, and the bare slash is no route either. -/
theorem appended_iff (hroute : e.route ≠ some "") (h : Stable e) (scheme route : String) :
    Appended scheme e route ↔ route ≠ "" ∧ route ≠ "/" := by
  by_cases hempty : route = ""
  · subst hempty
    refine ⟨?_, fun hne => absurd rfl hne.1⟩
    rintro ⟨e', hcall, hurl⟩
    rw [call, if_pos rfl] at hcall
    obtain rfl := Except.ok.inj hcall
    rw [toString_extended_iff e e rfl rfl] at hurl
    exact absurd hurl (routeText_ne_slash hroute)
  · rw [Appended, call_of_stable hroute h hempty, and_iff_right hempty]
    simp only [Except.ok.injEq, exists_eq_left']
    rw [toString_extended_iff e ⟨some (orLocalhost e.ip), e.port, keptRoute route⟩
      (orLocalhost_some (orLocalhost_ne_empty e.ip)) rfl]
    show routeText (keptRoute route) = "/" ++ stripSlash route ↔ route ≠ "/"
    by_cases hslash : route = "/"
    · subst hslash
      exact iff_of_false (by decide) (not_not.mpr rfl)
    · exact iff_of_true (routeText_keptRoute hempty hslash) hslash

/-! ### Looking a user up -/

/-- The user is registered with this endpoint. -/
def Registered (users : UserStore) (userId : String) (e : Endpoint) : Prop :=
  ∃ user, users.lookup userId = some user ∧ user.apiEndpoint = e

/-- The action takes the user out of the store. -/
def Removes (userId : String) (a : Server.Action) : Prop :=
  a = .removeUser userId ∨ ∃ answer, a = .adminRemove userId answer

variable {users : UserStore} {userId : String}

theorem Registered.insert {user : User} {id : String} (h : Registered users userId e)
    (huser : id = userId → user.apiEndpoint = e) : Registered (users.insert id user) userId e := by
  by_cases hid : id = userId
  · subst hid
    exact ⟨user, Finmap.lookup_insert users, huser rfl⟩
  · obtain ⟨stored, hlookup, hstored⟩ := h
    exact ⟨stored, by rwa [Finmap.lookup_insert_of_ne _ (Ne.symm hid)], hstored⟩

theorem Registered.erase {id : String} (h : Registered users userId e) (hid : id ≠ userId) :
    Registered (users.erase id) userId e := by
  obtain ⟨stored, hlookup, hstored⟩ := h
  exact ⟨stored, by rwa [Finmap.lookup_erase_ne hid.symm], hstored⟩

theorem Registered.resetUser (h : Registered users userId e) (id : String) :
    Registered (UserManager.resetUser users id) userId e := by
  obtain ⟨stored, hlookup, hstored⟩ := h
  rw [Registered, UserManager.lookup_resetUser, hlookup]
  split_ifs
  · exact ⟨{ stored with state := .idle, peer := none }, rfl, hstored⟩
  · exact ⟨stored, rfl, hstored⟩

theorem Registered.disconnect {s : Server} (h : Registered s.users userId e) (id : String)
    (answer : ClientAnswer) : Registered (s.disconnect id answer).1.users userId e := by
  rcases s.disconnect_cases id answer with ⟨hsame, -⟩ | ⟨user, peerId, -, -, husers⟩
  · rwa [hsame]
  · rw [husers]
    exact (h.resetUser id).resetUser peerId

/-- No operation changes the endpoint of a user who stays registered. -/
theorem Registered.step (uuid : UuidSource) {s : Server} (h : Registered s.users userId e)
    {a : Server.Action} (ha : ¬ Removes userId a) : Registered (s.step uuid a).users userId e := by
  cases a with
  | addUser apiEndpoint draws =>
    rw [Server.step, Server.addUser]
    cases hadd : UserManager.addUser s.users apiEndpoint draws with
    | error err => exact h
    | ok new =>
      obtain ⟨id, users'⟩ := new
      obtain ⟨-, hnew, endpoint, -, rfl⟩ := UserManager.addUser_eq_ok.mp hadd
      obtain ⟨stored, hlookup, hstored⟩ := h
      refine Registered.insert ⟨stored, hlookup, hstored⟩ fun hid => ?_
      exact absurd (Finmap.mem_of_lookup_eq_some hlookup) (hid ▸ hnew)
  | handlePeerConnection id peerId answer =>
    rw [Server.step]
    rcases s.connect_cases uuid id peerId answer with ⟨hsame, -⟩ |
      ⟨hne, user, peer, api, huser, -, -, hpeer, -, -, -, husers, -⟩
    · rwa [hsame]
    · -- both records keep their endpoints
      obtain ⟨stored, hlookup, hstored⟩ := h
      rw [husers]
      refine Registered.insert (Registered.insert ⟨stored, hlookup, hstored⟩ ?_) ?_
      · rintro rfl
        rw [← hstored, ← Option.some_inj.mp (huser.symm.trans hlookup)]
      · rintro rfl
        rw [← hstored, ← Option.some_inj.mp (hpeer.symm.trans hlookup)]
  | disconnectPeer id answer => exact h.disconnect id answer
  | removeUser id =>
    rw [Server.step, Server.removeUser_users]
    exact h.erase fun hid => ha (.inl (hid ▸ rfl))
  | adminRemove id answer =>
    rw [Server.step, Server.adminRemove, Server.removeUser_users]
    exact (h.disconnect id answer).erase fun hid => ha (.inr ⟨answer, hid ▸ rfl⟩)
  | socketConnect sid auth roomId => exact h
  | socketDisconnect sid => exact h

theorem Registered.run (uuid : UuidSource) {s : Server} (h : Registered s.users userId e)
    {actions : List Server.Action}
    (hkept : Along (Server.step uuid) (fun _ a => ¬ Removes userId a) s actions) :
    Registered (actions.foldl (Server.step uuid) s).users userId e :=
  (throughout_of_along (P := fun s => Registered s.users userId e)
    (fun _ _ hs ha => hs.step uuid ha) h hkept).last

/-- From `add_user` on, until the user is removed, `get_user` hands out an endpoint with the URL
of the one stored. -/
def LookedUp (uuid : UuidSource) (scheme : String) (e : Endpoint) : Prop :=
  ∀ (s : Server) (apiEndpoint : List PyValue) (draws : IdDraws) (userId : String)
    (actions : List Server.Action), ofParts apiEndpoint = .ok e →
    (s.addUser apiEndpoint draws).2 = .ok userId →
    Along (Server.step uuid) (fun _ a => ¬ Removes userId a) (s.addUser apiEndpoint draws).1
      actions →
      ∃ user, (actions.foldl (Server.step uuid) (s.addUser apiEndpoint draws).1).getUser userId
          = .ok user ∧
        user.apiEndpoint.toString scheme = e.toString scheme

theorem addUser_registered {s : Server} {apiEndpoint : List PyValue} {draws : IdDraws}
    (hparts : ofParts apiEndpoint = .ok e) (h : (s.addUser apiEndpoint draws).2 = .ok userId) :
    Registered (s.addUser apiEndpoint draws).1.users userId e := by
  rw [Server.addUser] at h ⊢
  cases hadd : UserManager.addUser s.users apiEndpoint draws with
  | error err => simp [hadd] at h
  | ok new =>
    obtain ⟨id, users'⟩ := new
    simp only [hadd, Except.ok.injEq] at h
    subst h
    obtain ⟨-, -, endpoint, hendpoint, rfl⟩ := UserManager.addUser_eq_ok.mp hadd
    exact ⟨_, Finmap.lookup_insert s.users, Except.ok.inj (hendpoint.symm.trans hparts)⟩

/-- What `get_user` hands out for a registered user is a copy of the endpoint. -/
theorem getUser_url_iff {s : Server} (h : Registered s.users userId e) (scheme : String) :
    (∃ user, s.getUser userId = .ok user ∧
      user.apiEndpoint.toString scheme = e.toString scheme) ↔
    ∃ e', e.copy = .ok e' ∧ e'.toString scheme = e.toString scheme := by
  obtain ⟨stored, hlookup, rfl⟩ := h
  constructor
  · rintro ⟨user, hget, hurl⟩
    obtain ⟨stored', hlookup', hcopy, -⟩ := UserManager.getUser_eq_ok.mp hget
    obtain rfl := Option.some_inj.mp (hlookup'.symm.trans hlookup)
    exact ⟨_, hcopy, hurl⟩
  · rintro ⟨e', hcopy, hurl⟩
    exact ⟨⟨e', stored.state, stored.peer⟩,
      UserManager.getUser_eq_ok.mpr ⟨stored, hlookup, hcopy, rfl, rfl⟩, hurl⟩

theorem lookedUp_iff {ip port route : PyValue} (h : init ip port route = .ok e)
    (uuid : UuidSource) (scheme : String) : LookedUp uuid scheme e ↔ Stable e := by
  rw [← copy_toString_eq_iff (init_route_ne h) scheme]
  constructor
  · intro hlooked
    -- the first user of a fresh server, looked up at once
    let draws : IdDraws := ⟨fun _ => 0, 0⟩
    let s : Server := { apiEndpoint := e }
    have hparts : ofParts [ip, port, route] = .ok e := h
    have hadd : UserManager.addUser s.users [ip, port, route] draws
        = .ok (UserManager.generateUserId s.users draws,
            s.users.insert (UserManager.generateUserId s.users draws) { apiEndpoint := e }) :=
      UserManager.addUser_eq_ok.mpr ⟨rfl, Finmap.notMem_empty, e, hparts, rfl⟩
    have hok : (s.addUser [ip, port, route] draws).2
        = .ok (UserManager.generateUserId s.users draws) := by rw [Server.addUser, hadd]
    exact (getUser_url_iff (addUser_registered hparts hok) scheme).mp
      (hlooked s _ draws _ [] hparts hok trivial)
  · intro hcopy s apiEndpoint draws userId actions hparts hok hkept
    have hregistered := (addUser_registered hparts hok).run uuid hkept
    exact (getUser_url_iff hregistered scheme).mpr hcopy

/-- The URL that a notification of a stored user is posted to. -/
theorem notified_url {stored : User} (hlookup : users.lookup userId = some stored)
    (hroute : stored.apiEndpoint.route ≠ some "") (h : Stable stored.apiEndpoint) {route : String}
    (hne : route ≠ "") (hslash : route ≠ "/") (scheme : String) :
    ∃ user e', UserManager.getUser users userId = .ok user ∧
      user.apiEndpoint.call route = .ok e' ∧
      e'.toString scheme = baseUrl scheme stored.apiEndpoint ++ "/" ++ stripSlash route := by
  obtain ⟨e₁, hcopy, hsame⟩ := copied_of_stable hroute h
  have hroute₁ : e₁.route ≠ some "" := hsame.route ▸ hroute
  have hcall := call_of_stable hroute₁ (hsame.stable h) hne
  refine ⟨⟨e₁, stored.state, stored.peer⟩, _, UserManager.getUser_eq_ok.mpr
    ⟨stored, hlookup, hcopy, rfl, rfl⟩, hcall, ?_⟩
  have hip : orLocalhost (some (orLocalhost e₁.ip)) = orLocalhost stored.apiEndpoint.ip := by
    rw [orLocalhost_some (orLocalhost_ne_empty e₁.ip), hsame.ip,
      orLocalhost_some (orLocalhost_ne_empty stored.apiEndpoint.ip)]
  exact (toString_extended_iff stored.apiEndpoint ⟨_, _, _⟩ hip hsame.port scheme _).mpr
    (routeText_keptRoute hne hslash)

/-- **When endpoints survive being copied.**  The copy has the parts of the original, and a user
looked up at any later time has its URL, exactly when there is a port and the constructor took off
all there was to take off; and the URL with a route appended is as it should be too exactly when
the route is one. -/
theorem survives_copies_iff {ip port route : PyValue} (h : init ip port route = .ok e)
    (uuid : UuidSource) (scheme : String) :
    (Copied e ↔ PlainParts ip port route) ∧
      (LookedUp uuid scheme e ↔ PlainParts ip port route) ∧
      ∀ appended, Copied e ∧ LookedUp uuid scheme e ∧ Appended scheme e appended ↔
        PlainParts ip port route ∧ appended ≠ "" ∧ appended ≠ "/" := by
  have hroute := init_route_ne h
  have hcopied := copied_iff hroute
  have hlooked := lookedUp_iff h uuid scheme
  rw [← stable_iff h]
  refine ⟨hcopied, hlooked, fun appended => ?_⟩
  rw [hcopied, hlooked, ← and_assoc, and_self_iff]
  exact and_congr_right fun hstable => appended_iff hroute hstable scheme appended

/-- The endpoint of a client, asked to answer a call. -/
theorem survives_copies_iff_client :
    Copied ⟨some "1.2.3.4", .int 80, some "api"⟩ ∧
      LookedUp CallPairing.plainUuid "http" ⟨some "1.2.3.4", .int 80, some "api"⟩ ∧
      Appended "http" ⟨some "1.2.3.4", .int 80, some "api"⟩ "/peer_connection" := by
  have hinit : init (.str "http://1.2.3.4") (.int 80) (.str "/api")
      = .ok ⟨some "1.2.3.4", .int 80, some "api"⟩ := by decide
  have hplain : PlainParts (.str "http://1.2.3.4") (.int 80) (.str "/api") := by
    refine ⟨by decide, ?_, ?_⟩ <;> rintro s ⟨⟩ <;> decide
  exact ((survives_copies_iff hinit CallPairing.plainUuid "http").2.2 "/peer_connection").mpr
    ⟨hplain, by decide, by decide⟩

/-- Without a port the route of the copy stands where the port was. -/
theorem portless_endpoint_loses_route :
    init (.str "1.2.3.4") .none (.str "api") = .ok ⟨some "1.2.3.4", .none, some "api"⟩ ∧
      copy ⟨some "1.2.3.4", .none, some "api"⟩ = .ok ⟨some "1.2.3.4", .str "api", none⟩ ∧
      ¬ Copied ⟨some "1.2.3.4", .none, some "api"⟩ := by
  have hcopy : copy ⟨some "1.2.3.4", .none, some "api"⟩
      = .ok ⟨some "1.2.3.4", .str "api", none⟩ := by decide
  refine ⟨by decide, hcopy, ?_⟩
  rintro ⟨e', hcopied, hsame⟩
  obtain rfl := Except.ok.inj (hcopy.symm.trans hcopied)
  exact absurd hsame.port (by decide)

end Endpoint

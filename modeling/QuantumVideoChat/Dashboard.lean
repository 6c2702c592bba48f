/-
The tables of the dashboard (`server/templates/dashboard.html`, `server/admin_routes.py`,
`server/utils/user_manager.py`).

The script of the dashboard builds its tables as strings and escapes what it puts into them.
Anybody can register an endpoint of any text, and have an id of any text logged as removed.

* `esc_eq` — four replacements, one after the other, are one pass over the text;
* `refreshEvents_tokens`, `refreshUsers_tokens` — what a browser reads off the tables;
* `mem_users_isNumeral` — the ids of the users are numerals, in every state of a server;
* `dashboard_shows_text` — what somebody registers or removes is shown as text, and a button
  acts on the user of its row.
-/
import QuantumVideoChat.AuditTrail
import QuantumVideoChat.Html
import QuantumVideoChat.UserIds

namespace Dashboard

open Html Transition

/-! ### The script -/

/-- `s.replace(/c/g, text)`. -/
def replaceAll (c : Char) (text s : List Char) : List Char :=
  s.flatMap fun x => if x = c then text else [x]

def esc (s : String) : String :=
  let s := replaceAll '&' "&amp;".toList s.toList
  let s := replaceAll '<' "&lt;".toList s
  let s := replaceAll '>' "&gt;".toList s
  String.ofList (replaceAll '"' "&quot;".toList s)

def badgeClass (val : String) : String :=
  "badge badge-" ++ String.ofList
    ((val.toList.map Char.toLower).map fun c => if isSpace c then '_' else c)

/-- The `event` of an entry of the log. -/
def eventName : ServerEvent → String
  | .userAdded _ => "user_added"
  | .userRemoved _ => "user_removed"
  | .peerConnected _ _ => "peer_connected"
  | .peerDisconnected _ _ => "peer_disconnected"

/-- The other keys of an entry but the time stamp; `jsonify` sorts them. -/
def eventDetails : ServerEvent → List (String × String)
  | .userAdded userId | .userRemoved userId => [("user_id", userId)]
  | .peerConnected userId peerId | .peerDisconnected userId peerId =>
    [("peer_id", peerId), ("user_id", userId)]

/-- A row for an event, at this time of the day. -/
def eventRow (entry : String × ServerEvent) : String :=
  let details := ", ".intercalate
    ((eventDetails entry.2).map fun field => esc field.1 ++ "=" ++ esc field.2)
  "<tr>"
    ++ "<td class=\"mono\">" ++ esc entry.1 ++ "</td>"
    ++ "<td><span class=\"" ++ badgeClass (eventName entry.2) ++ "\">"
      ++ esc (eventName entry.2) ++ "</span></td>"
    ++ "<td class=\"mono\">" ++ details ++ "</td>"
    ++ "</tr>"

/-- The table of the events that the route answers with, the latest one first. -/
def refreshEvents (events : List (String × ServerEvent)) : String :=
  if events.isEmpty then "<p class=\"empty\">No events yet.</p>"
  else
    "<table aria-label=\"Recent server events\"><thead><tr>"
      ++ "<th scope=\"col\">Time</th><th scope=\"col\">Event</th><th scope=\"col\">Details</th>"
      ++ "</tr></thead><tbody>" ++ String.join (events.reverse.map eventRow) ++ "</tbody></table>"

/-- `state.value`. -/
def stateValue : UserState → String
  | .idle => "IDLE"
  | .awaitingConnection => "AWAITING CONNECTION"
  | .connected => "CONNECTED"

/-- What the route tells of a user. -/
structure UserInfo where
  apiEndpoint : String
  state : UserState
  peer : Option String

/-- `get_all_users`, in the order of these ids. -/
def getAllUsers (scheme : String) (users : UserStore) (ids : List String) :
    List (String × UserInfo) :=
  ids.filterMap fun id => (users.lookup id).map fun user =>
    (id, { apiEndpoint := user.apiEndpoint.toString scheme, state := user.state,
           peer := user.peer })

/-- `u.peer`, where there is one that is not empty. -/
def UserInfo.shownPeer (u : UserInfo) : Option String := u.peer.filter fun peer => peer ≠ ""

def userRow (pair : String × UserInfo) : String :=
  let u := pair.2
  let safeId := esc pair.1
  "<tr>"
    ++ "<td class=\"mono\">" ++ safeId ++ "</td>"
    ++ "<td class=\"mono\">" ++ esc u.apiEndpoint ++ "</td>"
    ++ "<td><span class=\"" ++ badgeClass (stateValue u.state) ++ "\">"
      ++ esc (stateValue u.state) ++ "</span></td>"
    ++ "<td class=\"mono\">" ++ (u.shownPeer.map esc).getD "—" ++ "</td>"
    ++ "<td>"
    ++ "<button type=\"button\" class=\"btn btn-warn\" onclick=\"doDisconnect('" ++ safeId ++ "')\""
      ++ (if u.shownPeer.isSome then "" else " disabled") ++ ">Disconnect</button>"
    ++ "<button type=\"button\" class=\"btn btn-danger\" onclick=\"doRemove('" ++ safeId
      ++ "')\">Remove</button>"
    ++ "</td></tr>"

def refreshUsers (entries : List (String × UserInfo)) : String :=
  if entries.isEmpty then "<p class=\"empty\">No users connected.</p>"
  else
    "<table aria-label=\"Connected users\"><thead><tr>"
      ++ "<th>ID</th><th>Endpoint</th><th>State</th><th>Peer</th><th>Actions</th>"
      ++ "</tr></thead><tbody>" ++ String.join (entries.map userRow) ++ "</tbody></table>"

/-! ### What it should show -/

/-- The text, as a browser reads it. -/
def text (s : String) : List Token := s.toList.map .char

def element (name : String) (attributes : List (String × String)) (content : List Token) :
    List Token :=
  .startTag name.toList (attributes.map fun attr => (attr.1.toList, attr.2.toList))
    :: content ++ [.endTag name.toList]

/-- A cell of a table. -/
def cell (content : List Token) : List Token := element "td" [("class", "mono")] content

def badge (val : String) : List Token :=
  element "td" [] (element "span" [("class", badgeClass val)] (text val))

/-- The details of an event as they are. -/
def detailsText (event : ServerEvent) : String :=
  ", ".intercalate ((eventDetails event).map fun field => field.1 ++ "=" ++ field.2)

def eventRowTokens (entry : String × ServerEvent) : List Token :=
  element "tr" [] (cell (text entry.1) ++ badge (eventName entry.2)
    ++ cell (text (detailsText entry.2)))

def table (label : String) (columns rows : List Token) : List Token :=
  element "table" [("aria-label", label)]
    (element "thead" [] (element "tr" [] columns) ++ element "tbody" [] rows)

def eventsTokens (events : List (String × ServerEvent)) : List Token :=
  if events.isEmpty then element "p" [("class", "empty")] (text "No events yet.")
  else
    let column (title : String) := element "th" [("scope", "col")] (text title)
    table "Recent server events" (column "Time" ++ column "Event" ++ column "Details")
      (events.reverse.flatMap eventRowTokens)

/-- The call of a function of the script with the id. -/
def handler (function id : String) : String := function ++ "('" ++ id ++ "')"

def button (style function label id : String) (enabled : Bool) : List Token :=
  element "button" ([("type", "button"), ("class", style), ("onclick", handler function id)]
    ++ if enabled then [] else [("disabled", "")]) (text label)

def userRowTokens (pair : String × UserInfo) : List Token :=
  let u := pair.2
  element "tr" [] (cell (text pair.1) ++ cell (text u.apiEndpoint) ++ badge (stateValue u.state)
    ++ cell (text (u.shownPeer.getD "—"))
    ++ element "td" [] (button "btn btn-warn" "doDisconnect" "Disconnect" pair.1 u.shownPeer.isSome
      ++ button "btn btn-danger" "doRemove" "Remove" pair.1 true))

def usersTokens (entries : List (String × UserInfo)) : List Token :=
  if entries.isEmpty then element "p" [("class", "empty")] (text "No users connected.")
  else
    let column (title : String) := element "th" [] (text title)
    table "Connected users" (column "ID" ++ column "Endpoint" ++ column "State" ++ column "Peer"
      ++ column "Actions") (entries.flatMap userRowTokens)

/-- A script that is one call of a function with a quoted string: the function and the string. -/
def callOf (script : String) : Option (String × String) :=
  match script.toList.span (· ≠ '(') with
  | (name, '(' :: '\'' :: rest) =>
    match rest.span fun c => c ≠ '\'' ∧ c ≠ '\\' ∧ c ≠ '\n' with
    | (string, ['\'', ')']) => some (String.ofList name, String.ofList string)
    | _ => none
  | _ => none

/-! ### Escaping -/

theorem replaceAll_of_ne {c x : Char} (text : List Char) (hx : x ≠ c) :
    replaceAll c text [x] = [x] := by
  rw [replaceAll, List.flatMap_singleton, if_neg hx]

/-- Four passes over the text are one. -/
theorem esc_eq (s : String) : (esc s).toList = s.toList.flatMap escapeChar := by
  have hchar : ∀ c, replaceAll '"' "&quot;".toList (replaceAll '>' "&gt;".toList
      (replaceAll '<' "&lt;".toList (replaceAll '&' "&amp;".toList [c]))) = escapeChar c := by
    intro c
    rcases escapeChar_cases c with ⟨rfl, -⟩ | ⟨rfl, -⟩ | ⟨rfl, -⟩ | ⟨rfl, -⟩ | ⟨hplain, h⟩
    · decide
    · decide
    · decide
    · decide
    · obtain ⟨hamp, hlt, hgt, hquot⟩ := hplain
      rw [replaceAll_of_ne _ hamp, replaceAll_of_ne _ hlt, replaceAll_of_ne _ hgt,
        replaceAll_of_ne _ hquot, h]
  rw [esc, String.toList_ofList]
  induction s.toList with
  | nil => rfl
  | cons c rest ih =>
    rw [List.flatMap_cons, ← ih, ← hchar c]
    simp only [replaceAll, List.flatMap_cons, List.flatMap_nil, List.append_nil,
      List.flatMap_append]

example : esc "<b>\"&amp;\"</b>" = "&lt;b&gt;&quot;&amp;amp;&quot;&lt;/b&gt;" := by decide +kernel

theorem esc_append (s t : String) : (esc (s ++ t)).toList = (esc s).toList ++ (esc t).toList := by
  rw [esc_eq, esc_eq, esc_eq, String.toList_append, List.flatMap_append]

theorem write_text (s : String) : (text s).flatMap write = (esc s).toList := by
  rw [esc_eq, text, List.flatMap_map]
  rfl

theorem write_element (name : String) (attributes : List (String × String))
    (content : List Token) :
    (element name attributes content).flatMap write
      = write (.startTag name.toList
          (attributes.map fun attr => (attr.1.toList, attr.2.toList)))
        ++ (content.flatMap write ++ write (.endTag name.toList)) := by
  rw [element, List.cons_append, List.flatMap_cons, List.flatMap_append, List.flatMap_singleton]

/-! ### The tables as tokens -/

theorem write_tr (content : List Token) :
    (element "tr" [] content).flatMap write
      = "<tr>".toList ++ (content.flatMap write ++ "</tr>".toList) := write_element "tr" [] content

theorem write_cell (content : List Token) :
    (cell content).flatMap write
      = "<td class=\"mono\">".toList ++ (content.flatMap write ++ "</td>".toList) :=
  write_element "td" [("class", "mono")] content

/-- The names of the events and of the states need no escaping in the class of a badge. -/
theorem write_badge : ∀ val ∈ ["user_added", "user_removed", "peer_connected",
      "peer_disconnected", "IDLE", "AWAITING CONNECTION", "CONNECTED"],
    (badge val).flatMap write = "<td><span class=\"".toList ++ ((badgeClass val).toList
      ++ ("\">".toList ++ ((esc val).toList ++ "</span></td>".toList))) := by
  decide +kernel

theorem write_eventBadge (event : ServerEvent) :
    (badge (eventName event)).flatMap write
      = "<td><span class=\"".toList ++ ((badgeClass (eventName event)).toList
        ++ ("\">".toList ++ ((esc (eventName event)).toList ++ "</span></td>".toList))) :=
  write_badge _ (by cases event <;> simp [eventName])

theorem write_stateBadge (state : UserState) :
    (badge (stateValue state)).flatMap write
      = "<td><span class=\"".toList ++ ((badgeClass (stateValue state)).toList
        ++ ("\">".toList ++ ((esc (stateValue state)).toList ++ "</span></td>".toList))) :=
  write_badge _ (by cases state <;> simp [stateValue])

/-- The separators of the details need no escaping. -/
theorem esc_detailsText (event : ServerEvent) :
    (", ".intercalate
        ((eventDetails event).map fun field => esc field.1 ++ "=" ++ esc field.2)).toList
      = (esc (detailsText event)).toList := by
  have hequals : (esc "=").toList = "=".toList := by decide
  have hcomma : (esc ", ").toList = ", ".toList := by decide
  cases event <;>
    simp only [eventDetails, detailsText, List.map_cons, List.map_nil,
      String.intercalate_singleton, String.intercalate_cons_cons, esc_append,
      String.toList_append, hequals, hcomma]

theorem write_eventRow (entry : String × ServerEvent) :
    (eventRowTokens entry).flatMap write = (eventRow entry).toList := by
  unfold eventRow eventRowTokens
  rw [write_tr, List.flatMap_append, List.flatMap_append, write_cell, write_cell,
    write_eventBadge, write_text, write_text, ← esc_detailsText]
  simp only [String.toList_append, List.append_assoc]

/-- A table, given what comes before its rows. -/
theorem write_table (opening : String) {label : String} {columns : List Token}
    (h : write (.startTag "table".toList [("aria-label".toList, label.toList)])
      ++ (element "thead" [] (element "tr" [] columns)).flatMap write ++ "<tbody>".toList
        = opening.toList) (rows : List Token) :
    (table label columns rows).flatMap write
      = opening.toList ++ (rows.flatMap write ++ "</tbody></table>".toList) := by
  have hbody : (element "tbody" [] rows).flatMap write
      = "<tbody>".toList ++ (rows.flatMap write ++ "</tbody>".toList) :=
    write_element "tbody" [] rows
  rw [table, write_element, List.flatMap_append, hbody, ← h]
  simp only [List.append_assoc, List.map_cons, List.map_nil]
  rfl

/-- The rows of a table. -/
theorem write_rows {α : Type*} {row : α → List Token} {shown : α → String}
    (hrow : ∀ x, (row x).flatMap write = (shown x).toList) (l : List α) :
    (l.flatMap row).flatMap write = (String.join (l.map shown)).toList := by
  rw [String.toList_join, List.flatMap_assoc, List.flatMap_map]
  exact List.flatMap_congr fun x _ => hrow x

theorem write_eventsTokens (events : List (String × ServerEvent)) :
    (eventsTokens events).flatMap write = (refreshEvents events).toList := by
  unfold eventsTokens refreshEvents
  by_cases hnone : events.isEmpty = true
  · rw [if_pos hnone, if_pos hnone]
    decide +kernel
  · rw [if_neg hnone, if_neg hnone]
    dsimp only
    rw [write_table ("<table aria-label=\"Recent server events\"><thead><tr>"
        ++ "<th scope=\"col\">Time</th><th scope=\"col\">Event</th><th scope=\"col\">Details</th>"
        ++ "</tr></thead><tbody>") (by decide +kernel), write_rows write_eventRow]
    simp only [String.toList_append, List.append_assoc]

/-- The attributes of a button that calls a function with an id. -/
theorem write_handler (function id : String) :
    writeAttribute ("onclick".toList, (handler function id).toList)
      = " onclick=\"".toList ++ ((esc function).toList
        ++ ("('".toList ++ ((esc id).toList ++ "')\"".toList))) := by
  have hne : (handler function id).toList ≠ [] := by
    simp [handler, String.toList_append]
  have hopen : (esc "('").toList = "('".toList := by decide
  have hclose : (esc "')").toList = "')".toList := by decide
  rw [writeAttribute, if_neg hne, ← esc_eq, handler, esc_append, esc_append, esc_append, hopen,
    hclose]
  simp only [List.append_assoc]
  rfl

/-- A button, given what comes before and after the id. -/
theorem write_button (style function label : String) (opening closing : String)
    (hopening : '<' :: "button".toList ++ (writeAttribute ("type".toList, "button".toList)
      ++ (writeAttribute ("class".toList, style.toList) ++ (" onclick=\"".toList
        ++ ((esc function).toList ++ "('".toList)))) = opening.toList)
    (hclosing : ">".toList ++ ((esc label).toList ++ "</button>".toList) = closing.toList)
    (id : String) (enabled : Bool) :
    (button style function label id enabled).flatMap write
      = opening.toList ++ ((esc id).toList ++ ("')\"".toList
        ++ ((if enabled then "" else " disabled").toList ++ closing.toList))) := by
  have hdisabled : (if enabled then [] else [("disabled", "")]).flatMap
      (fun attr : String × String => writeAttribute (attr.1.toList, attr.2.toList))
        = (if enabled then "" else " disabled").toList := by
    cases enabled <;> decide
  have hend : ">".toList ++ ((esc label).toList ++ "</button>".toList)
      = ['>'] ++ ((esc label).toList ++ write (.endTag "button".toList)) := rfl
  rw [button, write_element, write_text, ← hopening, ← hclosing, ← hdisabled, hend]
  simp only [write, List.flatMap_map, List.flatMap_cons, List.cons_append, List.append_assoc,
    write_handler, List.nil_append, -String.reduceToList]

theorem write_userRow (pair : String × UserInfo) :
    (userRowTokens pair).flatMap write = (userRow pair).toList := by
  have hpeer : (text (pair.2.shownPeer.getD "—")).flatMap write
      = ((pair.2.shownPeer.map esc).getD "—").toList := by
    rw [write_text]
    cases pair.2.shownPeer with
    | none => decide
    | some peer => rfl
  have hcell : ∀ content : List Token, (element "td" [] content).flatMap write
      = "<td>".toList ++ (content.flatMap write ++ "</td>".toList) := write_element "td" []
  have hdisconnect := write_button "btn btn-warn" "doDisconnect" "Disconnect"
    "<button type=\"button\" class=\"btn btn-warn\" onclick=\"doDisconnect('"
    ">Disconnect</button>" (by decide +kernel) (by decide +kernel) pair.1 pair.2.shownPeer.isSome
  have hremove := write_button "btn btn-danger" "doRemove" "Remove"
    "<button type=\"button\" class=\"btn btn-danger\" onclick=\"doRemove('"
    ">Remove</button>" (by decide +kernel) (by decide +kernel) pair.1 true
  have hend : "')\"".toList
        ++ ("".toList ++ (">Remove</button>".toList ++ ("</td>".toList ++ "</tr>".toList)))
      = "')\">Remove</button>".toList ++ "</td></tr>".toList := by
    decide +kernel
  unfold userRow userRowTokens
  dsimp only
  rw [write_tr, List.flatMap_append, List.flatMap_append, List.flatMap_append,
    List.flatMap_append, write_cell, write_cell, write_cell, write_stateBadge, hcell,
    List.flatMap_append, hpeer, write_text, write_text, hdisconnect, hremove]
  simp only [String.toList_append, List.append_assoc, if_true, hend]

theorem write_usersTokens (entries : List (String × UserInfo)) :
    (usersTokens entries).flatMap write = (refreshUsers entries).toList := by
  unfold usersTokens refreshUsers
  by_cases hnone : entries.isEmpty = true
  · rw [if_pos hnone, if_pos hnone]
    decide +kernel
  · rw [if_neg hnone, if_neg hnone]
    dsimp only
    rw [write_table ("<table aria-label=\"Connected users\"><thead><tr>"
        ++ "<th>ID</th><th>Endpoint</th><th>State</th><th>Peer</th><th>Actions</th>"
        ++ "</tr></thead><tbody>") (by decide +kernel), write_rows write_userRow]
    simp only [String.toList_append, List.append_assoc]

/-! ### The tables as a browser reads them -/

theorem wellFormed_text (s : String) : ∀ t ∈ text s, t.WellFormed := by
  intro t ht
  obtain ⟨c, -, rfl⟩ := List.mem_map.mp ht
  trivial

theorem wellFormed_append {ts ts' : List Token} (h : ∀ t ∈ ts, t.WellFormed)
    (h' : ∀ t ∈ ts', t.WellFormed) : ∀ t ∈ ts ++ ts', t.WellFormed :=
  List.forall_mem_append.mpr ⟨h, h'⟩

theorem wellFormed_element {name : String} {attributes : List (String × String)}
    {content : List Token} (hname : IsName name.toList)
    (hattributes : ∀ attr ∈ attributes, IsName attr.1.toList)
    (hcontent : ∀ t ∈ content, t.WellFormed) :
    ∀ t ∈ element name attributes content, t.WellFormed := by
  rw [element, List.cons_append, List.forall_mem_cons]
  refine ⟨⟨hname, fun attr hattr => ?_⟩, wellFormed_append hcontent ?_⟩
  · obtain ⟨attr', hattr', rfl⟩ := List.mem_map.mp hattr
    exact hattributes attr' hattr'
  · rw [List.forall_mem_singleton]
    exact hname

theorem wellFormed_cell {content : List Token} (h : ∀ t ∈ content, t.WellFormed) :
    ∀ t ∈ cell content, t.WellFormed := wellFormed_element (by decide) (by decide) h

theorem wellFormed_badge (val : String) : ∀ t ∈ badge val, t.WellFormed :=
  wellFormed_element (by decide) (by decide)
    (wellFormed_element (by decide) (by simp; decide) (wellFormed_text val))

theorem wellFormed_button (style function label id : String) (enabled : Bool) :
    ∀ t ∈ button style function label id enabled, t.WellFormed := by
  refine wellFormed_element (by decide) (fun attr hattr => ?_) (wellFormed_text label)
  have hnames : ∀ name ∈ ["type", "class", "onclick", "disabled"], IsName name.toList := by
    decide
  refine hnames attr.1 ?_
  cases enabled <;> simp at hattr ⊢ <;> rcases hattr with rfl | rfl | rfl | rfl <;> simp

theorem wellFormed_eventRow (entry : String × ServerEvent) :
    ∀ t ∈ eventRowTokens entry, t.WellFormed :=
  wellFormed_element (by decide) (by decide) (wellFormed_append
    (wellFormed_append (wellFormed_cell (wellFormed_text _)) (wellFormed_badge _))
    (wellFormed_cell (wellFormed_text _)))

theorem wellFormed_userRow (pair : String × UserInfo) :
    ∀ t ∈ userRowTokens pair, t.WellFormed := by
  refine wellFormed_element (by decide) (by decide) (wellFormed_append (wellFormed_append
    (wellFormed_append (wellFormed_append ?_ ?_) (wellFormed_badge _)) ?_) ?_)
  · exact wellFormed_cell (wellFormed_text _)
  · exact wellFormed_cell (wellFormed_text _)
  · exact wellFormed_cell (wellFormed_text _)
  · exact wellFormed_element (by decide) (by decide)
      (wellFormed_append (wellFormed_button _ _ _ _ _) (wellFormed_button _ _ _ _ _))

theorem wellFormed_table {label : String} {columns rows : List Token}
    (hcolumns : ∀ t ∈ columns, t.WellFormed) (hrows : ∀ t ∈ rows, t.WellFormed) :
    ∀ t ∈ table label columns rows, t.WellFormed :=
  wellFormed_element (by decide) (by simp; decide) (wellFormed_append
    (wellFormed_element (by decide) (by decide)
      (wellFormed_element (by decide) (by decide) hcolumns))
    (wellFormed_element (by decide) (by decide) hrows))

theorem wellFormed_flatMap {α : Type*} {row : α → List Token}
    (h : ∀ x, ∀ t ∈ row x, t.WellFormed) (l : List α) : ∀ t ∈ l.flatMap row, t.WellFormed := by
  intro t ht
  obtain ⟨x, -, hx⟩ := List.mem_flatMap.mp ht
  exact h x t hx

/-- Whatever the ids in the events are, a browser reads the table that is meant. -/
theorem refreshEvents_tokens (events : List (String × ServerEvent)) :
    tokens .data (refreshEvents events).toList = eventsTokens events := by
  rw [← write_eventsTokens]
  refine tokens_write ?_
  unfold eventsTokens
  split
  · decide +kernel
  · exact wellFormed_table (by decide +kernel) (wellFormed_flatMap wellFormed_eventRow _)

/-- Whatever the endpoints and ids of the users are, a browser reads the table that is meant. -/
theorem refreshUsers_tokens (entries : List (String × UserInfo)) :
    tokens .data (refreshUsers entries).toList = usersTokens entries := by
  rw [← write_usersTokens]
  refine tokens_write ?_
  unfold usersTokens
  split
  · decide +kernel
  · exact wellFormed_table (by decide +kernel) (wellFormed_flatMap wellFormed_userRow _)

/-! ### The ids of the users -/

/-- An id is a number in decimal. -/
def IsNumeral (id : String) : Prop := ∃ n : ℕ, id = toString n

theorem isNumeral_generateUserId (users : UserStore) (draws : IdDraws) :
    IsNumeral (UserManager.generateUserId users draws) := by
  rcases UserManager.generateUserId_cases users draws with ⟨i, -, -, h⟩ | ⟨-, h⟩
  · exact ⟨_, h⟩
  · exact ⟨_, h⟩

/-- Everybody who is in the store was in it before, or has just been given an id. -/
theorem mem_users_step (uuid : UuidSource) (s : Server) (a : Server.Action) {id : String}
    (hid : id ∈ (s.step uuid a).users) : id ∈ s.users ∨ IsNumeral id := by
  have hdisconnect : ∀ userId answer, id ∈ (s.disconnect userId answer).1.users → id ∈ s.users := by
    intro userId answer h
    rcases s.disconnect_cases userId answer with ⟨hsame, -⟩ | ⟨user, peerId, -, -, husers⟩
    · rwa [hsame] at h
    · rwa [husers, AuditTrail.mem_resetUser, AuditTrail.mem_resetUser] at h
  cases a with
  | addUser apiEndpoint draws =>
    rw [Server.step] at hid
    rcases UserManager.addUser_cases s apiEndpoint draws with ⟨-, e, hsame⟩ |
      ⟨-, endpoint, -, -, husers⟩
    · rw [hsame] at hid
      exact .inl hid
    · rw [husers, Finmap.mem_insert] at hid
      rcases hid with rfl | hold
      · exact .inr (isNumeral_generateUserId s.users draws)
      · exact .inl hold
  | handlePeerConnection userId peerId answer =>
    rw [Server.step] at hid
    rcases s.connect_cases uuid userId peerId answer with ⟨hsame, -⟩ |
      ⟨-, user, peer, api, huser, -, -, hpeer, -, -, -, husers, -⟩
    · rw [hsame] at hid
      exact .inl hid
    · rw [husers, Finmap.mem_insert, Finmap.mem_insert] at hid
      rcases hid with rfl | rfl | hold
      · exact .inl (Finmap.mem_of_lookup_eq_some hpeer)
      · exact .inl (Finmap.mem_of_lookup_eq_some huser)
      · exact .inl hold
  | disconnectPeer userId answer => exact .inl (hdisconnect userId answer hid)
  | removeUser userId =>
    rw [Server.step, Server.removeUser_users, Finmap.mem_erase] at hid
    exact .inl hid.2
  | adminRemove userId answer =>
    rw [Server.step, Server.adminRemove, Server.removeUser_users, Finmap.mem_erase] at hid
    exact .inl (hdisconnect userId answer hid.2)
  | socketConnect sid auth roomId => exact .inl hid
  | socketDisconnect sid => exact .inl hid

theorem mem_users_isNumeral (uuid : UuidSource) (apiEndpoint : Endpoint)
    (socketApi : Option SocketAPI) (actions : List Server.Action) :
    ∀ id ∈ (actions.foldl (Server.step uuid)
      { apiEndpoint := apiEndpoint, socketApi := socketApi }).users, IsNumeral id :=
  foldl_induction (I := fun s : Server => ∀ id ∈ s.users, IsNumeral id)
    (fun _ hid => absurd hid Finmap.notMem_empty)
    (fun s a h id hid => (mem_users_step uuid s a hid).elim (h id) fun hnew => hnew) actions

/-! ### The buttons -/

theorem span_append {p : Char → Bool} {l rest : List Char} {c : Char} (hl : ∀ x ∈ l, p x = true)
    (hc : p c = false) : (l ++ c :: rest).span p = (l, c :: rest) := by
  rw [List.span_eq_takeWhile_dropWhile, List.takeWhile_append_of_pos hl,
    List.dropWhile_append_of_pos hl, List.takeWhile_cons_of_neg (by rw [hc]; decide),
    List.dropWhile_cons_of_neg (by rw [hc]; decide), List.append_nil]

/-- A handler is read as the call that is meant when its id ends no string. -/
theorem callOf_handler {function id : String} (hfunction : '(' ∉ function.toList)
    (hid : ∀ c ∈ id.toList, c ≠ '\'' ∧ c ≠ '\\' ∧ c ≠ '\n') :
    callOf (handler function id) = some (function, id) := by
  have hscript : (handler function id).toList
      = function.toList ++ '(' :: ('\'' :: (id.toList ++ '\'' :: [')'])) := by
    rw [handler, String.toList_append, String.toList_append, String.toList_append]
    simp
  have hname : (function.toList ++ '(' :: ('\'' :: (id.toList ++ '\'' :: [')']))).span (· ≠ '(')
      = (function.toList, '(' :: ('\'' :: (id.toList ++ '\'' :: [')']))) :=
    span_append (fun c hc => by simpa using ne_of_mem_of_not_mem hc hfunction) (by decide)
  have hstring : (id.toList ++ '\'' :: [')']).span (fun c => c ≠ '\'' ∧ c ≠ '\\' ∧ c ≠ '\n')
      = (id.toList, '\'' :: [')']) :=
    span_append (fun c hc => by simpa using hid c hc) (by decide)
  simp only [callOf, hscript, hname, hstring, String.ofList_toList]

theorem handler_of_isNumeral {function id : String} (hfunction : '(' ∉ function.toList)
    (hid : IsNumeral id) : callOf (handler function id) = some (function, id) := by
  obtain ⟨n, rfl⟩ := hid
  refine callOf_handler hfunction fun c hc => ?_
  rw [Nat.toString_eq_repr, Nat.toList_repr] at hc
  have hdigit := Nat.isDigit_of_mem_toDigits (by decide) (by decide) hc
  refine ⟨?_, ?_, ?_⟩ <;> rintro rfl <;> exact absurd hdigit (by decide)

/-- **The dashboard shows what somebody sends to the server as text.**  A browser reads the table
of the events with the ids that were sent, and the table of the users with their endpoints, as
they are, and no tag that is not the table's own; in every state of a server a button acts on the
user of its row. -/
theorem dashboard_shows_text (uuid : UuidSource) (apiEndpoint : Endpoint)
    (socketApi : Option SocketAPI) (actions : List Server.Action) (scheme : String) :
    let s := actions.foldl (Server.step uuid) { apiEndpoint := apiEndpoint, socketApi := socketApi }
    (∀ events, tokens .data (refreshEvents events).toList = eventsTokens events) ∧
    (∀ ids, tokens .data (refreshUsers (getAllUsers scheme s.users ids)).toList
      = usersTokens (getAllUsers scheme s.users ids)) ∧
    ∀ ids, ∀ pair ∈ getAllUsers scheme s.users ids,
      callOf (handler "doDisconnect" pair.1) = some ("doDisconnect", pair.1) ∧
        callOf (handler "doRemove" pair.1) = some ("doRemove", pair.1) := by
  intro s
  refine ⟨refreshEvents_tokens, fun ids => refreshUsers_tokens _, fun ids pair hpair => ?_⟩
  obtain ⟨id, -, hentry⟩ := List.mem_filterMap.mp hpair
  obtain ⟨user, hlookup, rfl⟩ := Option.map_eq_some_iff.mp hentry
  have hid := mem_users_isNumeral uuid apiEndpoint socketApi actions id
    (Finmap.mem_of_lookup_eq_some hlookup)
  exact ⟨handler_of_isNumeral (by decide) hid, handler_of_isNumeral (by decide) hid⟩

end Dashboard

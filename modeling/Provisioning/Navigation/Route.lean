-- The two places that a user can be at: watching the progress of an
-- application, and viewing it once it is there.
import Provisioning.Json.Decode

namespace Provisioning

open Json

inductive Route
  | provision (appId : String)
  | view (appId : String)
deriving DecidableEq, Repr

namespace Route

def appId : Route → String
  | provision id => id
  | view id => id

/-- The name that the router knows. -/
def name : Route → String
  | provision _ => "app-provision"
  | view _ => "app-view"

def path : Route → String
  | provision id => "/app/provision/" ++ id
  | view id => "/app/view/" ++ id

/-! ## JSON -/

/-- The two kinds of route, as a text names them. -/
def kinds : List (String × (String → Route)) := [("provision", provision), ("view", view)]

def toJson : Route → Value
  | provision id => .object [("route", .string "provision"), ("app_id", .string id)]
  | view id => .object [("route", .string "view"), ("app_id", .string id)]

/-- The name of a kind, and how errors speak of it. -/
abbrev Kind := String × (String → Route)

def ofKindNode : Node → Decoded Kind
  | .string text => do
    let name ← liftFault text
    let some kind := kinds.find? (·.1 == name)
      | throw (.unknownVariant name (kinds.map Prod.fst))
    return kind
  | node => mismatch "variant identifier" node

/-- A string that was kept as a value. -/
def ofValue (kind : Kind) : Value → Decoded Route
  | .string s => .ok (kind.2 s)
  | .null => .error (.invalidType .null "a string")
  | .bool value => .error (.invalidType (.bool value) "a string")
  | .number n => .error (.invalidType (.number n) "a string")
  | .list _ => .error (.invalidType .list "a string")
  | .object _ => .error (.invalidType .object "a string")

/-- The identifier among the members besides the kind; it stands there once. -/
def ofMembers (kind : Kind) (found : Option Route) : Members → Decoded Route
  | [] => required "app_id" found
  | ("app_id", v) :: rest =>
    match found with
    | some _ => .error (.duplicateField "app_id")
    | none => (ofValue kind v).bind fun route => ofMembers kind (some route) rest
  | _ :: rest => ofMembers kind found rest

/-- The identifier as the one item after the kind. -/
def ofItems (kind : Kind) : List Value → Decoded Route
  | [] =>
    let variant := if kind.1 = "view" then "View" else "Provision"
    .error (.invalidLength 0 ("struct variant Route::" ++ variant ++ " with 1 element"))
  | v :: rest =>
    (ofValue kind v).bind fun route =>
      if rest.isEmpty then .ok route
      else .error (.invalidLength (rest.length + 1) "1 element in sequence")

/-- What an object tells about a route before its kind is known: every member is
read, and the kind is found anywhere among them. -/
structure Given where
  kind : Option Kind := none
  members : Members := []

def Given.read (depth : Nat) : MemberReader Given
  | "route", g, node =>
    some ((readField "route" g.kind ofKindNode node).map ({ g with kind := · }))
  | name, g, node =>
    some ((liftFault (Value.ofNode depth node)).map fun v =>
      { g with members := g.members ++ [(name, v)] })

/-- A route, written as an object with its kind, or as a list that starts with it. -/
def ofNode (depth : Nat) : Node → Decoded Route
  | .object members close => do
    if depth ≤ 1 then throw (.malformed .recursionLimit)
    let g ← readMembers (Given.read (depth - 1)) close {} members
    let kind ← required "route" g.kind
    ofMembers kind none g.members
  | .list items close => do
    if depth ≤ 1 then throw (.malformed .recursionLimit)
    let some (first, items) ← nextItem items close | throw (.missingField "route")
    let kind ← ofKindNode first
    let values ← readItems (fun node => liftFault (Value.ofNode (depth - 1) node)) close items
    ofItems kind values
  | node => mismatch "internally tagged enum Route" node

end Route

end Provisioning

-- Application records in JSON.
import Provisioning.Application.Basic
import Provisioning.Json.Decode

namespace Provisioning

open Json

namespace Application

/-- The fixed fields come first, then all others. -/
def toJson (a : Application) : Value :=
  .object ([("guid", .string a.guid), ("name", .string a.name), ("space", .string a.space),
    ("org", .string a.org)] ++ a.extra)

/-- The members of a record that have been read. -/
structure Given where
  guid : Option String := none
  name : Option String := none
  space : Option String := none
  org : Option String := none
  extra : Members := []

/-- Takes up one member. The identifier goes by two names; a member without a
field is kept, and of several with one name the last. -/
def Given.read (depth : Nat) : MemberReader Given
  | "guid", g, node => some ((readField "guid" g.guid decodeString node).map ({ g with guid := · }))
  | "id", g, node => some ((readField "guid" g.guid decodeString node).map ({ g with guid := · }))
  | "name", g, node => some ((readField "name" g.name decodeString node).map ({ g with name := · }))
  | "space", g, node =>
    some ((readField "space" g.space decodeString node).map ({ g with space := · }))
  | "org", g, node => some ((readField "org" g.org decodeString node).map ({ g with org := · }))
  | name, g, node =>
    some ((liftFault (Value.ofNode depth node)).map fun v =>
      { g with extra := g.extra.insert name v })

/-- A record is an object with an identifier. -/
def ofNode (depth : Nat) : Node → Decoded Application
  | .object members close => do
    if depth ≤ 1 then throw (.malformed .recursionLimit)
    let g ← readMembers (Given.read (depth - 1)) close {} members
    let guid ← required "guid" g.guid
    return {
      guid
      name := g.name.getD ""
      space := g.space.getD ""
      org := g.org.getD ""
      extra := g.extra }
  | node => mismatch "struct Application" node

def ofDocument (d : Document) : Decoded Application := d.decode .malformed (ofNode depthLimit)

/-- A list of records; `null` stands for none. -/
def listOfDocument (d : Document) : Decoded (List Application) :=
  (d.decode .malformed (decodeOption (decodeList depthLimit ofNode))).map (·.getD [])

end Application

end Provisioning

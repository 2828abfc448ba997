import Gateway.Bson.Writer
import Gateway.Query.Basic

/-!
# Requests as JSON

Every field is written, in the order of its declaration, with null for what is
absent.
-/

namespace Gateway

namespace Condition

def toJson (c : Condition) : Json :=
  .object [
    ("attribute", .string c.path),
    ("operator", .string c.operator.name),
    ("value", c.value.toJson)]

end Condition

/-- A filter as JSON: a list of lists of conditions. -/
def Filter.toJson (f : Filter) : Json :=
  .array (f.map fun g => .array (g.map Condition.toJson))

/-- A key of an order as JSON. -/
def SortKey.toJson (k : SortKey) : Json :=
  .object [("attribute", .string k.path), ("direction", .string k.direction.name)]

def Request.toJson (r : Request) : Json :=
  .object [
    ("database", .string r.database),
    ("collection", .string r.collection),
    ("filter", .ofOption Filter.toJson r.filter),
    ("attributes", .ofOption (fun names => .array (names.map .string)) r.attributes),
    ("limit", .ofOption .ofNatural r.limit),
    ("page", .ofOption .ofNatural r.page),
    ("order", .ofOption (fun keys => .array (keys.map SortKey.toJson)) r.order),
    ("search", .ofOption .string r.search)]

end Gateway

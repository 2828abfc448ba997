import Gateway.Bson.Basic

/-!
# Requests

A request names a database and a collection and says which documents are wanted. Its
filter is a disjunction of groups, each a conjunction of conditions on one attribute.
Everything else is optional: the attributes to return, a page, an order, a search.
-/

namespace Gateway

/-- The comparison of a condition. A name that is none of the six known ones is kept
as unrecognized, so that an unknown condition does not spoil its request. -/
inductive Operator where
  | equal
  | notEqual
  | greater
  | greaterOrEqual
  | less
  | lessOrEqual
  | unrecognized
deriving DecidableEq, Repr

/-- A condition: an attribute, a path with dots, compared with a value. -/
structure Condition where
  path : String
  operator : Operator
  value : Bson
deriving Repr

/-- A conjunction of conditions. -/
abbrev Group : Type := List Condition

/-- A disjunction of groups. -/
abbrev Filter : Type := List Group

inductive Direction where
  | ascending
  | descending
deriving DecidableEq, Repr

structure SortKey where
  path : String
  direction : Direction
deriving DecidableEq, Repr

/-- A request. Pages count from 1 and mean something only with a limit. -/
structure Request where
  database : String
  collection : String
  filter : Option Filter
  attributes : Option (List String)
  limit : Option UInt64
  page : Option UInt64
  order : Option (List SortKey)
  search : Option String
deriving Repr

namespace Operator

def ofName (name : String) : Operator :=
  match name with
  | "equal" => .equal
  | "notEqual" => .notEqual
  | "greater" => .greater
  | "greaterOrEqual" => .greaterOrEqual
  | "less" => .less
  | "lessOrEqual" => .lessOrEqual
  | _ => .unrecognized

def name : Operator → String
  | .equal => "equal"
  | .notEqual => "notEqual"
  | .greater => "greater"
  | .greaterOrEqual => "greaterOrEqual"
  | .less => "less"
  | .lessOrEqual => "lessOrEqual"
  | .unrecognized => "unrecognized"

end Operator

namespace Direction

/-- The direction of a name: only one name means descending. -/
def ofName (name : Option String) : Direction :=
  if name = some "desc" then .descending else .ascending

def name : Direction → String
  | .ascending => "asc"
  | .descending => "desc"

/-- The weight of a direction in a sort document. -/
def weight : Direction → Int32
  | .ascending => 1
  | .descending => -1

end Direction

/-- A request for every document of a collection. -/
def Request.all (database collection : String) : Request :=
  ⟨database, collection, none, none, none, none, none, none⟩

end Gateway

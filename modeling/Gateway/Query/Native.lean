import Gateway.Entries
import Gateway.Log.Level
import Gateway.Query.Basic

/-!
# Native queries

A request becomes a filter document of the database engine and the options of a find.
A group of one condition, or a filter of one group, stands bare; more of them are
joined under `$and` and `$or` in their order. A condition whose operator is not
recognized is left out of its group, and a group that has none left matches every
document, as an empty conjunction does.

A limit of zero is no limit, and a page counts only with a limit. The number of
documents to skip is kept within 64 bits without sign and the limit within 63, where
both stay as large as they can.
-/

namespace Gateway

/-! ## Filters -/

namespace Condition

/-- What is asked of the attribute, for a recognized operator. Equality with a list is
membership, and equality with a document asks for an element that matches it. -/
def test? (c : Condition) : Option Bson :=
  match c.operator with
  | .equal =>
    match c.value with
    | .array items => some (.document [("$in", .array items)])
    | .document entries => some (.document [("$elemMatch", .document entries)])
    | value => some value
  | .notEqual =>
    match c.value with
    | .array items => some (.document [("$nin", .array items)])
    | .document entries =>
      some (.document [("$not", .document [("$elemMatch", .document entries)])])
    | value => some (.document [("$ne", value)])
  | .greater => some (.document [("$gt", c.value)])
  | .greaterOrEqual => some (.document [("$gte", c.value)])
  | .less => some (.document [("$lt", c.value)])
  | .lessOrEqual => some (.document [("$lte", c.value)])
  | .unrecognized => none

/-- A condition as a document of one entry, for a recognized operator. -/
def native? (c : Condition) : Option Document :=
  c.test?.map fun test => [(c.path, test)]

/-- The record that a skipped condition leaves. -/
def skipRecord (c : Condition) : Log.Record :=
  ⟨.debug, Log.queryTarget,
    "skipping condition on " ++ c.path ++ ": unrecognized operator"⟩

end Condition

def Group.native (g : Group) : Document :=
  match g.filterMap Condition.native? with
  | [] => [("$and", .array [.document []])]
  | [d] => d
  | ds => [("$and", .array (ds.map .document))]

/-- A disjunction as a document; the empty one matches everything. -/
def Filter.native (f : Filter) : Document :=
  match f.map Group.native with
  | [] => []
  | [d] => d
  | ds => [("$or", .array (ds.map .document))]

/-- The records of the conditions that are left out, in their order. -/
def Filter.skipRecords (f : Filter) : List Log.Record :=
  f.flatten.filterMap fun c =>
    match c.native? with
    | none => some c.skipRecord
    | some _ => none

/-! ## Options -/

/-- The options of a find. The attributes to return are named once each. -/
structure NativeOptions where
  projection : Option (List String)
  limit : Option Int64
  skip : Option UInt64
  sort : Option (List (String × Int32))
deriving Repr

structure NativeQuery where
  filter : Document
  options : NativeOptions
deriving Repr

/-- A limit that limits: zero is none. -/
def effectiveLimit (limit : Option UInt64) : Option UInt64 := limit.filter fun l => 0 < l

/-- The product of two words, or the greatest word where it is larger. -/
def boundedProduct (a b : UInt64) : UInt64 :=
  UInt64.ofNat (min (a.toNat * b.toNat) (Decimal.maxOfBits 64))

/-- A word as a signed one, or the greatest signed one where it is larger. -/
def boundedSigned (a : UInt64) : Int64 := Int64.ofNat (min a.toNat (Decimal.maxOfBits 63))

/-- The documents before a page: a limit for each page before it. -/
def skipCount (limit page : Option UInt64) : Option UInt64 :=
  match effectiveLimit limit, page with
  | some l, some p => if 1 < p then some (boundedProduct l (p - 1)) else none
  | _, _ => none

/-- The options of the directives of a request. A repeated attribute is projected
once. -/
def NativeOptions.of (attributes : Option (List String)) (limit page : Option UInt64)
    (order : Option (List SortKey)) : NativeOptions where
  projection := attributes.map List.eraseDups
  limit := (effectiveLimit limit).map boundedSigned
  skip := skipCount limit page
  sort := order.map fun keys => keys.map fun k => (k.path, k.direction.weight)

def NativeOptions.projectionDocument (o : NativeOptions) : Option Document :=
  o.projection.map fun names => names.map fun a => (a, .int32 1)

/-- The order as a document, primary key first. A repeated attribute keeps its place
and takes its last weight. -/
def NativeOptions.sortDocument (o : NativeOptions) : Option Document :=
  o.sort.map fun keys => Entries.ofList (keys.map fun k => (k.1, Bson.int32 k.2))

/-! ## Queries -/

/-- A search that is not empty, as an entry of the filter. -/
def searchEntry (filter : Document) (search : Option String) : Document :=
  match search.filter fun s => s ≠ "" with
  | none => filter
  | some s => Entries.insert "$text" (.document [("$search", .string s)]) filter

/-- The query of a filter and the directives of a request. -/
def NativeQuery.of (filter : Option Filter) (attributes : Option (List String))
    (limit page : Option UInt64) (order : Option (List SortKey)) (search : Option String) :
    NativeQuery where
  filter := searchEntry ((filter.map Filter.native).getD []) search
  options := .of attributes limit page order

def Request.compile (r : Request) : NativeQuery :=
  .of r.filter r.attributes r.limit r.page r.order r.search

def Request.compileRecords (r : Request) : List Log.Record :=
  (r.filter.map Filter.skipRecords).getD []

end Gateway

import Gateway.Bson.Reader
import Gateway.Query.Basic

/-!
# Requests from JSON

The readers are lenient where a later version of a client may say more: unknown
fields are passed over, unknown operators are kept as such, and any direction but one
is ascending. A condition needs its attribute and its operator, a request its
database and its collection; everything else has a default.
-/

namespace Gateway

open Gateway.Json

def Operator.read (s : Scope) (o : Outline) : Except Fault Operator :=
  (o.readChoice s).map Operator.ofName

/-- Reads a direction; null stands for none given. -/
def Direction.read (o : Outline) : Except Fault Direction :=
  (o.readOption Outline.readString).map Direction.ofName

/-! ## Conditions -/

structure Condition.Draft where
  path : Option String
  operator : Option Operator
  value : Option Bson

def Condition.shape : Shape Condition.Draft Condition where
  title := "struct Condition"
  fields := [
    ⟨"attribute", fun d => d.path.isSome, fun _ o d =>
      o.readString.map fun a => { d with path := some a }⟩,
    ⟨"operator", fun d => d.operator.isSome, fun s o d =>
      (Operator.read s o).map fun a => { d with operator := some a }⟩,
    ⟨"value", fun d => d.value.isSome, fun s o d =>
      (Bson.read s o).map fun a => { d with value := some a }⟩]
  strict := false
  start := ⟨none, none, none⟩
  finish := fun d =>
    match d.path, d.operator with
    | none, _ => .error ⟨0, "attribute"⟩
    | some _, none => .error ⟨1, "operator"⟩
    | some path, some operator => .ok ⟨path, operator, d.value.getD .null⟩

def Condition.read (s : Scope) (o : Outline) : Except Fault Condition := Condition.shape.read s o

def Filter.read (s : Scope) (o : Outline) : Except Fault Filter :=
  o.readList (fun s o => o.readList Condition.read s) s

/-! ## Orders -/

/-- A key of an order while it is read. -/
structure SortKey.Draft where
  path : Option String
  direction : Option Direction

def SortKey.shape : Shape SortKey.Draft SortKey where
  title := "struct SortSpec"
  fields := [
    ⟨"attribute", fun d => d.path.isSome, fun _ o d =>
      o.readString.map fun a => { d with path := some a }⟩,
    ⟨"direction", fun d => d.direction.isSome, fun _ o d =>
      (Direction.read o).map fun a => { d with direction := some a }⟩]
  strict := false
  start := ⟨none, none⟩
  finish := fun d =>
    match d.path with
    | none => .error ⟨0, "attribute"⟩
    | some path => .ok ⟨path, d.direction.getD .ascending⟩

def SortKey.read (s : Scope) (o : Outline) : Except Fault SortKey := SortKey.shape.read s o

/-! ## Requests -/

structure Request.Draft where
  database : Option String
  collection : Option String
  filter : Option (Option Filter)
  attributes : Option (Option (List String))
  limit : Option (Option UInt64)
  page : Option (Option UInt64)
  order : Option (Option (List SortKey))
  search : Option (Option String)

/-- The record of a request. -/
def Request.shape : Shape Request.Draft Request where
  title := "struct Request"
  fields := [
    ⟨"database", fun d => d.database.isSome, fun _ o d =>
      o.readString.map fun a => { d with database := some a }⟩,
    ⟨"collection", fun d => d.collection.isSome, fun _ o d =>
      o.readString.map fun a => { d with collection := some a }⟩,
    ⟨"filter", fun d => d.filter.isSome, fun s o d =>
      (o.readOption (Filter.read s)).map fun a => { d with filter := some a }⟩,
    ⟨"attributes", fun d => d.attributes.isSome, fun s o d =>
      (o.readOption (Outline.readList (fun _ => Outline.readString) s)).map fun a =>
        { d with attributes := some a }⟩,
    ⟨"limit", fun d => d.limit.isSome, fun _ o d =>
      (o.readOption Outline.readWord).map fun a => { d with limit := some a }⟩,
    ⟨"page", fun d => d.page.isSome, fun _ o d =>
      (o.readOption Outline.readWord).map fun a => { d with page := some a }⟩,
    ⟨"order", fun d => d.order.isSome, fun s o d =>
      (o.readOption (Outline.readList SortKey.read s)).map fun a =>
        { d with order := some a }⟩,
    ⟨"search", fun d => d.search.isSome, fun _ o d =>
      (o.readOption Outline.readString).map fun a => { d with search := some a }⟩]
  strict := false
  start := ⟨none, none, none, none, none, none, none, none⟩
  finish := fun d =>
    match d.database, d.collection with
    | none, _ => .error ⟨0, "database"⟩
    | some _, none => .error ⟨1, "collection"⟩
    | some database, some collection => .ok {
        database, collection
        filter := d.filter.getD none
        attributes := d.attributes.getD none
        limit := d.limit.getD none
        page := d.page.getD none
        order := d.order.getD none
        search := d.search.getD none }

def Request.read (s : Scope) (o : Outline) : Except Fault Request := Request.shape.read s o

end Gateway

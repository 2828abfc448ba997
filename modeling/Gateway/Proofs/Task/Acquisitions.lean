import Gateway.Task.Basic

/-!
# The acquire calls of a task

A task comes to the slots and attempts of a registry only by acquiring or by closing. One
poll of a requesting task may poll its acquire calls twice, that of the find and that of the
count; `Task.acquisitions` has them in order, each with the registry that it finds.

Beside them a requesting task writes records, starts finds and counts, and asks for their
answers (`Aside`). So a poll is a way through its acquire calls with such things in between
(`pollRequest_through`), and what these and acquiring keep, every request keeps.
-/

namespace Gateway

/-- A find or a count is started. -/
def Event.IsQuery : Event → Prop
  | .find .. => True
  | .count .. => True
  | _ => False

/-- A poll of an acquire call: the database that it asks for, where it stands, and the
registry that it finds. -/
structure Acquisition (ω : Type) where
  database : String
  stage : Acquiring
  registry : Registry ω

namespace Acquisition

variable {ω : Type} (c : Connector ω)

def progress (a : Acquisition ω) : Progress Acquiring (Except Failure ConnectionId) :=
  (a.registry.pollAcquire c a.database a.stage).1

/-- The registry that it leaves. -/
def after (a : Acquisition ω) : Registry ω := (a.registry.pollAcquire c a.database a.stage).2

end Acquisition

namespace Registry

variable {ω : Type} (c : Connector ω)

/-! ## Which acquire calls a request polls -/

def acquisitionsAfterFind (kind : RequestKind) (req : Request) (r : Registry ω) :
    List (Acquisition ω) :=
  match kind with
  | .pageWithTotal => [⟨req.database, .fresh, r⟩]
  | _ => []

def acquisitionsOfFind (kind : RequestKind) (req : Request) (n : ConnectionId)
    (r : Registry ω) : List (Acquisition ω) :=
  let (answer, world) := c.find n req.database req.collection req.compile r.world
  match answer with
  | some (.ok _) => acquisitionsAfterFind kind req { r with world }
  | _ => []

def acquisitionsForFind (kind : RequestKind) (req : Request) (stage : Acquiring)
    (r : Registry ω) : List (Acquisition ω) :=
  ⟨req.database, stage, r⟩ ::
    match r.pollAcquire c req.database stage with
    | (.ready (.ok n), r) =>
      ((r.say req.findRecord).note (.find n req.collection req.compile)).acquisitionsOfFind c
        kind req n
    | _ => []

def requestAcquisitions (kind : RequestKind) (req : Request) (stage : Requesting)
    (r : Registry ω) : List (Acquisition ω) :=
  match stage with
  | .fresh =>
    let r := { r with log := r.log ++ req.compileRecords }
    match kind with
    | .total => [⟨req.database, .fresh, r⟩]
    | _ => r.acquisitionsForFind c kind req .fresh
  | .acquiringForFind stage => r.acquisitionsForFind c kind req stage
  | .finding n => r.acquisitionsOfFind c kind req n
  | .acquiringForCount _ stage => [⟨req.database, stage, r⟩]
  | .counting _ _ => []

end Registry

/-- The acquire calls that a poll of a task polls, in order. -/
def Task.acquisitions {ω : Type} (c : Connector ω) (t : Task) (r : Registry ω) :
    List (Acquisition ω) :=
  match t with
  | .acquire database stage => [⟨database, stage, r⟩]
  | .request kind req stage => r.requestAcquisitions c kind req stage
  | .close _ => []

namespace Registry

variable {ω : Type} {c : Connector ω}

/-! ## The way through them -/

/-- What a requesting task does beside acquiring. -/
inductive Aside (c : Connector ω) : Registry ω → Registry ω → Prop
  | log {r : Registry ω} (log : List Log.Record) : Aside c r { r with log }
  | query {r : Registry ω} {e : Event} (he : e.IsQuery) : Aside c r (r.note e)
  | find {r : Registry ω} (n : ConnectionId) (database collection : String)
      (query : NativeQuery) :
      Aside c r { r with world := (c.find n database collection query r.world).2 }
  | count {r : Registry ω} (n : ConnectionId) (database collection : String)
      (filter : Document) :
      Aside c r { r with world := (c.count n database collection filter r.world).2 }

/-- A way from a registry to another one through polls of acquire calls. -/
inductive Through (c : Connector ω) : List (Acquisition ω) → Registry ω → Registry ω → Prop
  | done {r : Registry ω} : Through c [] r r
  | aside {r s t : Registry ω} {as : List (Acquisition ω)} (h : Aside c r s)
      (rest : Through c as s t) : Through c as r t
  | acquire {a : Acquisition ω} {t : Registry ω} {as : List (Acquisition ω)}
      (rest : Through c as (a.after c) t) : Through c (a :: as) a.registry t

theorem Through.acquire_eq {d : String} {stage : Acquiring} {r s t : Registry ω}
    {p : Progress Acquiring (Except Failure ConnectionId)} {as : List (Acquisition ω)}
    (h : r.pollAcquire c d stage = (p, s)) (rest : Through c as s t) :
    Through c (⟨d, stage, r⟩ :: as) r t := by
  have hs : (⟨d, stage, r⟩ : Acquisition ω).after c = s := by rw [Acquisition.after, h]
  exact .acquire (a := ⟨d, stage, r⟩) (hs ▸ rest)

variable (req : Request) (r : Registry ω)

theorem askCount_through (n : ConnectionId) (data : Option (List Document)) :
    Through c [] r (r.askCount c req n data).2 := by
  have hask : Through c [] r { r with
      world := (c.count n req.database req.collection req.compile.filter r.world).2 } :=
    .aside (.count n req.database req.collection req.compile.filter) .done
  simp only [askCount]
  split <;> exact hask

theorem acquireForCount_through (data : Option (List Document)) (stage : Acquiring) :
    Through c [⟨req.database, stage, r⟩] r (r.acquireForCount c req data stage).2 := by
  rcases h : r.pollAcquire c req.database stage with ⟨next | (f | n), s⟩
  all_goals simp only [acquireForCount, h]; refine .acquire_eq h ?_
  · exact .done
  · exact .done
  · have hcount := askCount_through (c := c) req
      ((s.say req.countRecord).note (.count n req.collection req.compile.filter)) n data
    have hquery : Event.IsQuery (.count n req.collection req.compile.filter) := trivial
    exact .aside (.log _) (.aside (.query hquery) hcount)

theorem afterFind_through (kind : RequestKind) (docs : List Document) :
    Through c (r.acquisitionsAfterFind kind req) r (r.afterFind c kind req docs).2 := by
  cases kind with
  | page => exact .done
  | total => exact .done
  | pageWithTotal => exact acquireForCount_through req r (some docs) .fresh

theorem askFind_through (kind : RequestKind) (n : ConnectionId) :
    Through c (r.acquisitionsOfFind c kind req n) r (r.askFind c kind req n).2 := by
  have hask := Aside.find (c := c) (r := r) n req.database req.collection req.compile
  rcases h : c.find n req.database req.collection req.compile r.world with ⟨_ | (f | docs), w⟩
  all_goals rw [h] at hask; simp only [askFind, acquisitionsOfFind, h]
  · exact .aside hask .done
  · exact .aside hask .done
  · exact .aside hask (afterFind_through req _ kind docs)

theorem acquireForFind_through (kind : RequestKind) (stage : Acquiring) :
    Through c (r.acquisitionsForFind c kind req stage) r
      (r.acquireForFind c kind req stage).2 := by
  rcases h : r.pollAcquire c req.database stage with ⟨next | (f | n), s⟩
  all_goals simp only [acquireForFind, acquisitionsForFind, h]; refine .acquire_eq h ?_
  · exact .done
  · exact .done
  · have hquery : Event.IsQuery (.find n req.collection req.compile) := trivial
    exact .aside (.log _) (.aside (.query hquery) (askFind_through req _ kind n))

/-- A poll of a requesting task is a way through the acquire calls that it polls. -/
theorem pollRequest_through (kind : RequestKind) (stage : Requesting) :
    Through c (r.requestAcquisitions c kind req stage) r (r.pollRequest c kind req stage).2 := by
  cases stage with
  | fresh =>
    have hlog := Aside.log (c := c) (r := r) (r.log ++ req.compileRecords)
    cases kind with
    | total => exact .aside hlog (acquireForCount_through req _ none .fresh)
    | page => exact .aside hlog (acquireForFind_through req _ .page .fresh)
    | pageWithTotal => exact .aside hlog (acquireForFind_through req _ .pageWithTotal .fresh)
  | acquiringForFind stage => exact acquireForFind_through req r kind stage
  | finding n => exact askFind_through req r kind n
  | acquiringForCount data stage => exact acquireForCount_through req r data stage
  | counting n data => exact askCount_through req r n data

/-! ## Where they stand -/

theorem stage_of_mem_acquisitionsOfFind {req : Request} {r : Registry ω} {kind : RequestKind}
    {n : ConnectionId} {a : Acquisition ω} (h : a ∈ r.acquisitionsOfFind c kind req n) :
    a.database = req.database ∧ a.stage = .fresh ∧ kind = .pageWithTotal := by
  rcases hf : c.find n req.database req.collection req.compile r.world with ⟨_ | (f | docs), w⟩
  all_goals simp only [acquisitionsOfFind, hf, List.not_mem_nil] at h
  cases kind with
  | page => simp [acquisitionsAfterFind] at h
  | total => simp [acquisitionsAfterFind] at h
  | pageWithTotal =>
    obtain rfl := List.mem_singleton.mp h
    exact ⟨rfl, rfl, rfl⟩

theorem stage_of_mem_acquisitionsForFind {req : Request} {r : Registry ω} {kind : RequestKind}
    {stage : Acquiring} {a : Acquisition ω} (h : a ∈ r.acquisitionsForFind c kind req stage) :
    a = ⟨req.database, stage, r⟩ ∨
      a.database = req.database ∧ a.stage = .fresh ∧ kind = .pageWithTotal := by
  rcases hp : r.pollAcquire c req.database stage with ⟨next | (f | n), s⟩
  all_goals simp only [acquisitionsForFind, hp, List.mem_cons, List.not_mem_nil, or_false] at h
  · exact .inl h
  · exact .inl h
  · exact h.imp_right stage_of_mem_acquisitionsOfFind

/-- The acquire calls of a requesting task go on from where it waits for one, or begin: with
its first poll, and that of the count when the find has answered. -/
theorem stage_of_mem_requestAcquisitions {req : Request} {r : Registry ω} {kind : RequestKind}
    {stage : Requesting} {a : Acquisition ω} (h : a ∈ r.requestAcquisitions c kind req stage) :
    a.database = req.database ∧
      (a.registry = r ∧
          (stage = .acquiringForFind a.stage ∨ ∃ data, stage = .acquiringForCount data a.stage) ∨
        a.stage = .fresh ∧ (stage = .fresh ∨ kind = .pageWithTotal ∧
          ((∃ k, stage = .acquiringForFind k) ∨ ∃ n, stage = .finding n))) := by
  cases stage with
  | fresh =>
    have hfirst (k : RequestKind)
        (h : a ∈ { r with log := r.log ++ req.compileRecords }.acquisitionsForFind c k req .fresh) :
        a.database = req.database ∧ a.stage = .fresh := by
      rcases stage_of_mem_acquisitionsForFind h with rfl | ⟨hd, hs, -⟩
      · exact ⟨rfl, rfl⟩
      · exact ⟨hd, hs⟩
    cases kind with
    | total =>
      obtain rfl := List.mem_singleton.mp h
      exact ⟨rfl, .inr ⟨rfl, .inl rfl⟩⟩
    | page =>
      obtain ⟨hd, hs⟩ := hfirst _ h
      exact ⟨hd, .inr ⟨hs, .inl rfl⟩⟩
    | pageWithTotal =>
      obtain ⟨hd, hs⟩ := hfirst _ h
      exact ⟨hd, .inr ⟨hs, .inl rfl⟩⟩
  | acquiringForFind k =>
    rcases stage_of_mem_acquisitionsForFind h with rfl | ⟨hd, hs, hk⟩
    · exact ⟨rfl, .inl ⟨rfl, .inl rfl⟩⟩
    · exact ⟨hd, .inr ⟨hs, .inr ⟨hk, .inl ⟨k, rfl⟩⟩⟩⟩
  | finding n =>
    obtain ⟨hd, hs, hk⟩ := stage_of_mem_acquisitionsOfFind h
    exact ⟨hd, .inr ⟨hs, .inr ⟨hk, .inr ⟨n, rfl⟩⟩⟩⟩
  | acquiringForCount data k =>
    obtain rfl := List.mem_singleton.mp h
    exact ⟨rfl, .inl ⟨rfl, .inr ⟨data, rfl⟩⟩⟩
  | counting n data => exact absurd h List.not_mem_nil

end Registry

end Gateway

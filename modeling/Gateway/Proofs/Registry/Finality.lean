import Gateway.Proofs.Task.Launching
import Gateway.Store.Memory

/-!
# What a shutdown leaves behind

When a closing task takes the connections no attempt is in flight, so from then on a
database is in a slot only if somebody asks for it anew. Tasks that were under way by then
do not: they wait for attempts that have answered, or use the connection that they got. The
one exception are requests for a page with the total, which acquire a second time when
their find has answered: such a request connects after the shutdown
(`connects_after_shutdown`). Nobody else does (`shutdown_final_unless_counting`).
-/

namespace Gateway

open Registry

variable {ω : Type} {c : Connector ω}

/-- Of the tasks visited only closing ones are visited for the first time. -/
def AllBegun (visits : List (Visit ω)) : Prop :=
  ∀ t ∈ visits.map Visit.task, ∀ job, t = .ofJob job → job = .close

/-- A closing task is about to be polled for the first time. It returns while the actions
`front` are done, and from its first poll on, also during the actions `later`, no task is
polled that was not polled before it, other closing tasks apart. -/
structure Machine.ClosesAmongBegun (c : Connector ω) (m : Machine ω) (id : String)
    (front later : List (Action ω)) : Prop where
  fresh : m.task? id = some (.close .fresh)
  returns : (m.watch c id (.poll id :: front)).2.isSome
  begun : AllBegun (m.visits c (.poll id :: front ++ later))

namespace Machine.ClosesAmongBegun

variable {address : BaseAddress} {world : ω} {before front later : List (Action ω)}
  {id : String}

/-- A visit that connects from then on is of a request whose count is to come. -/
theorem countsLater (h : ((initial address world).run c before).ClosesAmongBegun c id front later)
    {v : Visit ω}
    (hv : v ∈ ((initial address world).run c before).visits c (.poll id :: front ++ later))
    (hc : v.connects c ≠ []) : v.task.CountsLater := by
  have hmem : v ∈ (initial address world).visits c (before ++ (.poll id :: front ++ later)) := by
    rw [visits_append]
    exact List.mem_append_right _ hv
  refine (begins_of_connects hmem hc).resolve_left ?_
  rintro ⟨job, hjob, ht⟩
  exact hjob (h.begun _ (List.mem_map_of_mem hv) job ht)

/-- At some point before the closing task returns nothing is held. -/
theorem exists_emptied
    (h : ((initial address world).run c before).ClosesAmongBegun c id front later) :
    ∃ first rest, .poll id :: front = first ++ rest ∧
      (((initial address world).run c before).run c first).registry.slots = [] := by
  rcases hw : ((initial address world).run c before).watch c id (.poll id :: front)
    with ⟨visits, _ | result⟩
  · have hreturns := h.returns
    simp [hw] at hreturns
  · have hlife : Completes c .close visits result :=
      ⟨address, world, before, .poll id :: front, id, h.fresh, hw⟩
    obtain ⟨v, s, calls, hdone⟩ := hlife.shutDown
    obtain ⟨vs, u, us, _, hvisits, -, htakes, -⟩ := hdone.takes
    have hu : u ∈ (((initial address world).run c before).watch c id (.poll id :: front)).1 := by
      simp [hw, hvisits]
    obtain ⟨first, id', rest, hsplit, ht, hr⟩ := exists_of_mem_visits (watch_subset_visits hu)
    refine ⟨first ++ [.poll id'], rest, by simp [hsplit], ?_⟩
    have hafter := registry_poll (c := c) ht
    rw [hr] at hafter
    rw [run_append, run_cons, run_nil, act, hafter]
    exact htakes.slots

/-- What is held when all is done comes from a connect call of a request whose count is to
come, made since the first poll of the closing task. -/
theorem connects_of_slot?
    (h : ((initial address world).run c before).ClosesAmongBegun c id front later)
    {d : String} {slot : Slot}
    (hslot : ((((initial address world).run c before).run c (.poll id :: front)).run c
      later).registry.slot? d = some slot) :
    ∃ v ∈ ((initial address world).run c before).visits c (.poll id :: front ++ later),
      v.task.CountsLater ∧ (slot.attempt, d, address.urlFor d) ∈ v.connects c := by
  obtain ⟨first, rest, hsplit, hnone⟩ := h.exists_emptied
  have hvalid : (((initial address world).run c before).run c first).registry.Valid :=
    (run_valid c address world before).moves (run_moves _ first)
  have haddr : (((initial address world).run c before).run c first).registry.address = address :=
    (run_moves _ first).grows.address.trans
      (run_moves (initial address world) before).grows.address
  rw [← run_append, hsplit, List.append_assoc, run_append] at hslot
  obtain ⟨v, hv, hmem⟩ := exists_connects_of_slot? hvalid hnone hslot
  rw [haddr] at hmem
  have hv : v ∈ ((initial address world).run c before).visits c (.poll id :: front ++ later) := by
    rw [hsplit, List.append_assoc, visits_append]
    exact List.mem_append_right _ hv
  exact ⟨v, hv, h.countsLater hv (List.ne_nil_of_mem hmem), hmem⟩

end Machine.ClosesAmongBegun

/-- **A shutdown is final but for counts to come.** When a closing task has returned, and
nobody is polled from its first poll on who was not polled before, every connect call made
since is one of a request for a page with the total that comes to its count, and so is every
call from which there is an attempt or a connection. Without such requests no connect call
is made and nothing is held. -/
theorem shutdown_final_unless_counting (c : Connector ω) (address : BaseAddress) (world : ω)
    (before front later : List (Action ω)) (id : String)
    (h : ((Machine.initial address world).run c before).ClosesAmongBegun c id front later) :
    let m := (Machine.initial address world).run c before
    let returned := m.run c (.poll id :: front)
    let final := (returned.run c later).registry
    (∀ call ∈ final.connectCalls, call ∈ returned.registry.connectCalls ∨
      ∃ v ∈ returned.visits c later, v.task.CountsLater ∧ call ∈ v.connects c) ∧
    (∀ d slot, final.slot? d = some slot →
      ∃ v ∈ m.visits c (.poll id :: front ++ later),
        v.task.CountsLater ∧ (slot.attempt, d, address.urlFor d) ∈ v.connects c) ∧
    ((∀ v ∈ m.visits c (.poll id :: front ++ later), ¬ v.task.CountsLater) →
      final.connectCalls = returned.registry.connectCalls ∧ final.slots = []) := by
  intro m returned final
  have hlater : returned.visits c later ⊆ m.visits c (.poll id :: front ++ later) := by
    rw [Machine.visits_append]
    exact List.subset_append_right _ _
  have hcalls : final.connectCalls = returned.registry.connectCalls ++
      (returned.visits c later).flatMap (Visit.connects c) :=
    Machine.connectCalls_run returned later
  refine ⟨?_, fun d slot => h.connects_of_slot?, ?_⟩
  · intro call hcall
    rw [hcalls, List.mem_append, List.mem_flatMap] at hcall
    refine hcall.imp_right ?_
    rintro ⟨v, hv, hmem⟩
    exact ⟨v, hv, h.countsLater (hlater hv) (List.ne_nil_of_mem hmem), hmem⟩
  · intro hnone
    constructor
    · have hnil : (returned.visits c later).flatMap (Visit.connects c) = [] := by
        rw [List.flatMap_eq_nil_iff]
        intro v hv
        by_contra hne
        exact hnone v (hlater hv) (h.countsLater (hlater hv) hne)
      rw [hcalls, hnil, List.append_nil]
    · rcases hfinal : final.slots with _ | ⟨⟨d, slot⟩, slots⟩
      · rfl
      · have hslot : final.slot? d = some slot := by simp [slot?, hfinal, Entries.get?]
        obtain ⟨v, hv, hcounts, -⟩ := h.connects_of_slot? hslot
        exact absurd hcounts (hnone v hv)

/-! ## A request that waits for its find -/

/-- A request waits for its find, and a closing task is about to begin. -/
def whileFinding (kind : RequestKind) : List (Action Store) :=
  [.change (Store.shutGate "find:a"), .start "1" (.request kind (.all "a" "c")), .poll "1",
    .start "2" .close]

/-- The machine after that. -/
def findingMachine (kind : RequestKind) : Machine Store :=
  (Machine.initial ⟨"mongodb://localhost:27017/", []⟩ Store.empty).run Store.connector
    (whileFinding kind)

/-- The find answers when the closing task has returned. -/
def foundLater : List (Action Store) := [.change (Store.openGate "find:a"), .poll "1"]

theorem tasks_whileFinding {kind : RequestKind} (h : kind ≠ .total) :
    ((findingMachine kind).visits Store.connector (.poll "2" :: [] ++ foundLater)).map Visit.task =
      [.close .fresh, .request kind (.all "a" "c") (.finding 0)] := by
  cases kind with
  | page => cbv
  | pageWithTotal => cbv
  | total => exact absurd rfl h

theorem whileFinding_closesAmongBegun {kind : RequestKind} (h : kind ≠ .total) :
    (findingMachine kind).ClosesAmongBegun Store.connector "2" [] foundLater := by
  refine ⟨?_, ?_, ?_⟩
  · cases kind <;> cbv
  · cases kind <;> cbv
  · rw [AllBegun, tasks_whileFinding h, List.forall_mem_cons, List.forall_mem_singleton]
    constructor
    · rintro (d | ⟨kind, req⟩ | _) hjob <;> simp_all [Task.ofJob]
    · rintro (d | ⟨kind, req⟩ | _) hjob <;> simp_all [Task.ofJob]

/-- A request for a page with the total connects after the shutdown, and leaves a connection. -/
theorem connects_after_shutdown :
    ¬ ∀ (before front later : List (Action Store)) (id : String),
      let m := (Machine.initial ⟨"mongodb://localhost:27017/", []⟩ Store.empty).run
        Store.connector before
      m.ClosesAmongBegun Store.connector id front later →
        let returned := m.run Store.connector (.poll id :: front)
        let final := (returned.run Store.connector later).registry
        final.connectCalls = returned.registry.connectCalls ∧ final.slots = [] := by
  intro h
  obtain ⟨-, hslots⟩ := h (whileFinding .pageWithTotal) [] foundLater "2"
    (whileFinding_closesAmongBegun (by simp))
  have hheld : (((findingMachine .pageWithTotal).run Store.connector [.poll "2"]).run
      Store.connector foundLater).registry.slots = [("a", .established 1)] := by cbv
  rw [findingMachine] at hheld
  rw [hheld] at hslots
  simp at hslots

/-- A request for a page alone does not. -/
theorem page_after_shutdown :
    let returned := (findingMachine .page).run Store.connector [.poll "2"]
    let final := (returned.run Store.connector foundLater).registry
    final.connectCalls = returned.registry.connectCalls ∧ final.slots = [] := by
  obtain ⟨-, -, hfinal⟩ := shutdown_final_unless_counting Store.connector
    ⟨"mongodb://localhost:27017/", []⟩ Store.empty (whileFinding .page) [] foundLater "2"
    (whileFinding_closesAmongBegun (by simp))
  have hnone : ∀ t ∈ ((findingMachine .page).visits Store.connector
      (.poll "2" :: [] ++ foundLater)).map Visit.task, ¬ t.CountsLater := by
    rw [tasks_whileFinding (by simp), List.forall_mem_cons, List.forall_mem_singleton]
    exact ⟨id, id⟩
  exact hfinal fun v hv => hnone _ (List.mem_map_of_mem hv)

end Gateway

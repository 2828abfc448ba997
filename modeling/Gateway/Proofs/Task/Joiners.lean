import Gateway.Proofs.Registry.Answers
import Gateway.Proofs.Registry.SingleFlight
import Gateway.Proofs.Task.Runs
import Gateway.Store.Memory

/-!
# What joiners get

All who acquire through one attempt get the same, whenever they ask, whoever else was
dropped, and whatever a closing task or a newer attempt has done to the slot by then: the
answer of the one connect call of that attempt, as it was given or, if it is a failure of
another kind, told as the connect failure of the database.
-/

namespace Gateway

open Registry

variable {ω : Type} {c : Connector ω}

/-- What those who wait for an attempt get when its connect call has answered. -/
def told (database : String) (n : ConnectionId) :
    Except Failure Unit → Except Failure ConnectionId
  | .ok _ => .ok n
  | .error (.connect d message) => .error (.connect d message)
  | .error f => .error (.connect database f.text)

theorem told_eq (database : String) (n : ConnectionId) (answer : Except Failure Unit) :
    ((answer.mapError (Failure.asConnect database)).map fun _ => n) = told database n answer := by
  rcases answer with f | _
  · cases f <;> rfl
  · rfl

/-- The connect calls of one attempt. -/
def Registry.connectsOf (r : Registry ω) (n : ConnectionId) : List (ConnectionId × String × String) :=
  r.connectCalls.filter fun call => call.1 = n

/-- Each attempt has its one connect call. -/
theorem Registry.Recorded.connectsOf {r : Registry ω} (hc : r.Recorded) {n : ConnectionId}
    {d : String} (hd : r.database? n = some d) :
    r.connectsOf n = [(n, d, r.address.urlFor d)] := by
  have hmem : (n, d, r.address.urlFor d) ∈ r.connectsOf n :=
    List.mem_filter.mpr ⟨hc.mem_connectCalls.mpr ⟨hd, rfl⟩, decide_eq_true rfl⟩
  have hnum : ∀ call ∈ r.connectsOf n, call.1 = n := by
    intro call hcall
    exact of_decide_eq_true (List.mem_filter.mp hcall).2
  have hnodup : ((r.connectsOf n).map Prod.fst).Nodup :=
    (List.filter_sublist.map Prod.fst).nodup hc.nodup_connectCalls
  rcases hcalls : r.connectsOf n with _ | ⟨call, _ | ⟨other, calls⟩⟩
  all_goals rw [hcalls] at hmem hnum hnodup
  · cases hmem
  · rw [List.mem_singleton.mp hmem]
  · have hsame : call.1 = other.1 := by rw [hnum call (by simp), hnum other (by simp)]
    simp [hsame] at hnodup

/-- A poll of an acquire call comes to an attempt with one connect call, waits for that
attempt, and ends with what its connect call answered. -/
structure Acquisition.Joins (c : Connector ω) (address : BaseAddress) (s : Registry ω)
    (answers : List ConnectAnswer) (a : Acquisition ω) : Prop where
  connect : s.connectsOf a.attempt = [(a.attempt, a.database, address.urlFor a.database)]
  waits : ∀ next, a.progress c = .pending next → next = .joined a.attempt
  ends : ∀ result, a.progress c = .ready result → ∃ answer,
    answersOf a.attempt answers =
        [⟨a.attempt, a.database, address.urlFor a.database, answer⟩] ∧
      result = told a.database a.attempt answer

theorem Machine.joins_of_mem_acquisitions {address : BaseAddress} {world : ω}
    {actions : List (Action ω)} {a : Acquisition ω}
    (h : a ∈ (initial address world).acquisitions c actions) :
    a.Joins c address ((initial address world).run c actions).registry
      ((initial address world).connectAnswers c actions) := by
  have hof := of_mem_acquisitions h
  have hvalid := run_valid c address world actions
  have haddr : ((initial address world).run c actions).registry.address = address :=
    (run_moves (initial address world) actions).grows.address
  refine ⟨?_, fun next => hof.pending, ?_⟩
  · rw [hvalid.recorded.connectsOf hof.database?, haddr]
  · intro result hp
    obtain ⟨o, ho, rfl⟩ := hof.outcome? hp
    have hatt := attempts_eq_some.mpr ⟨hof.database?, ho⟩
    obtain ⟨answer, hanswers, hout⟩ := connectAnswers_noted c address world actions hatt
    refine ⟨answer, hanswers, ?_⟩
    rw [hout]
    exact told_eq a.database a.attempt answer

/-- A poll is of the same acquire call as the one before it, which had to wait. -/
def Acquisition.GoesOn (c : Connector ω) (a b : Acquisition ω) : Prop :=
  a.progress c = .pending b.stage ∧ b.database = a.database ∧ b.attempt = a.attempt

/-- The polls of a task are those of its acquire calls, one call after the other. -/
def InCalls (c : Connector ω) (as : List (Acquisition ω)) : Prop :=
  (∀ a, as.head? = some a → a.stage = .fresh) ∧
    as.IsChain fun a b => b.stage = .fresh ∨ a.GoesOn c b

theorem Linked.isChain {s : Registry ω} {a : Acquisition ω} {as : List (Acquisition ω)}
    (h : Linked c (some a) as) (hof : ∀ b ∈ a :: as, b.Of c s) :
    (a :: as).IsChain fun a b => b.stage = .fresh ∨ a.GoesOn c b := by
  induction as generalizing a with
  | nil => exact .singleton a
  | cons b as ih =>
      obtain ⟨hfollows, hrest⟩ := h
      obtain ⟨ha, hbs⟩ := List.forall_mem_cons.mp hof
      refine .cons_cons (hfollows.imp_right ?_) (ih hrest hbs)
      rintro ⟨_, ha', hd, hp⟩
      obtain rfl := Option.some.inj ha'
      refine ⟨hp, hd.symm, ?_⟩
      show b.stage.attempt b.database b.registry = a.attempt
      rw [ha.pending hp]
      rfl

theorem Linked.inCalls {s : Registry ω} {as : List (Acquisition ω)} (h : Linked c none as)
    (hof : ∀ a ∈ as, a.Of c s) : InCalls c as := by
  cases as with
  | nil => exact ⟨by simp, .nil⟩
  | cons a as =>
    obtain ⟨hfirst, hrest⟩ := h
    constructor
    · intro b hb
      obtain rfl := Option.some.inj hb
      exact hfirst.resolve_right (by simp [Acquiring.Continues])
    · exact hrest.isChain hof

theorem Machine.watch_inCalls {address : BaseAddress} {world : ω}
    {before after : List (Action ω)} {id : String} {job : Job}
    (h : ((initial address world).run c before).task? id = some (.ofJob job)) :
    InCalls c (callPolls c (((initial address world).run c before).watch c id after).1) := by
  have hlinked : Linked c none (callPolls c
      (((initial address world).run c before).watch c id after).1) :=
    watch_linked h (Task.waits_ofJob job)
  apply hlinked.inCalls (s := ((initial address world).run c (before ++ after)).registry)
  intro a ha
  obtain ⟨v, hv, ha⟩ := List.mem_flatMap.mp ha
  refine of_mem_acquisitions (List.mem_flatMap.mpr ⟨v, ?_, ha⟩)
  rw [visits_append]
  exact List.mem_append_right _ (watch_subset_visits hv)

/-- **Joiners agree.** The acquire calls of a task come one after the other, and all polls of
one call come to one attempt. Each attempt has one connect call, under the URL and the name
of its database. An acquire call that ends gets what the connect call of its attempt
answered: the connection, or a connect failure as it is, or any other failure as the connect
failure of the database. So all who came to one attempt get the same. -/
theorem joiners_agree (c : Connector ω) (address : BaseAddress) (world : ω)
    (actions : List (Action ω)) :
    let m := Machine.initial address world
    (∀ before after id job, actions = before ++ after →
      (m.run c before).task? id = some (.ofJob job) →
        InCalls c (callPolls c ((m.run c before).watch c id after).1)) ∧
    (m.notingRun c actions).bare = m.run c actions ∧
    (∀ a ∈ m.acquisitions c actions,
      a.Joins c address (m.run c actions).registry (m.connectAnswers c actions)) ∧
    ∀ a ∈ m.acquisitions c actions, ∀ b ∈ m.acquisitions c actions, a.attempt = b.attempt →
      ∀ x y, a.progress c = .ready x → b.progress c = .ready y → x = y := by
  intro m
  refine ⟨?_, m.bare_notingRun c actions, fun a => Machine.joins_of_mem_acquisitions, ?_⟩
  · intro before after id job _ hjob
    exact Machine.watch_inCalls hjob
  · intro a ha b hb hab x y hx hy
    obtain ⟨u, hu, rfl⟩ := (Machine.joins_of_mem_acquisitions ha).ends x hx
    obtain ⟨v, hv, rfl⟩ := (Machine.joins_of_mem_acquisitions hb).ends y hy
    rw [hab, hv] at hu
    obtain ⟨-, hd, -, rfl⟩ := ConnectAnswer.mk.inj (List.singleton_injective hu)
    rw [hab, hd]

/-! ## Joiners that come late -/

/-- Two tasks wait for an attempt, and a third one was dropped. The attempt fails, a fourth
task settles it, and a newer attempt is in the slot before the two are polled again. -/
def settledByAnother : List (Action Store) :=
  [.change (Store.shutGate "connect:a"), .change (Store.fail "connect:a" (.query "refused")),
    .start "1" (.acquire "a"), .poll "1", .start "2" (.request .total (.all "a" "c")), .poll "2",
    .start "3" (.acquire "a"), .poll "3", .drop "3", .start "4" (.acquire "a"), .poll "4",
    .change (Store.openGate "connect:a"), .poll "4", .change (Store.heal "connect:a"),
    .start "5" (.acquire "a"), .poll "5"]

def lateMachine : Machine Store := .initial ⟨"mongodb://localhost:27017/", []⟩ Store.empty

def lateTask : Acquisition Store :=
  ⟨"a", .joined 0, (lateMachine.run Store.connector settledByAnother).registry⟩

def lateRequest : Acquisition Store :=
  ⟨"a", .joined 0,
    (lateMachine.run Store.connector (settledByAnother ++ [.poll "1"])).registry⟩

/-- Both get what the connect call of the old attempt answered, told as a connect failure. -/
theorem lateJoiners_agree :
    ∃ x y answer, lateTask.progress Store.connector = .ready x ∧
      lateRequest.progress Store.connector = .ready y ∧ x = y ∧
      answersOf 0 (lateMachine.connectAnswers Store.connector
        (settledByAnother ++ [.poll "1", .poll "2"])) =
          [⟨0, "a", "mongodb://localhost:27017/a", answer⟩] ∧
      x = told "a" 0 answer ∧ x = .error (.connect "a" (Failure.query "refused").text) ∧
      lateTask.registry.slot? "a" = some (.established 1) := by
  have htask : lateTask ∈ lateMachine.acquisitions Store.connector
      (settledByAnother ++ [.poll "1", .poll "2"]) :=
    Machine.mem_acquisitions (t := .acquire "a" (.joined 0)) rfl List.mem_cons_self [.poll "2"]
  have hrequest : lateRequest ∈ lateMachine.acquisitions Store.connector
      (settledByAnother ++ [.poll "1", .poll "2"]) :=
    Machine.mem_acquisitions
      (t := .request .total (.all "a" "c") (.acquiringForCount none (.joined 0)))
      rfl List.mem_cons_self []
  obtain ⟨-, -, hjoins, hagree⟩ := joiners_agree Store.connector ⟨"mongodb://localhost:27017/", []⟩
    Store.empty (settledByAnother ++ [.poll "1", .poll "2"])
  obtain ⟨answer, hanswers, htold⟩ := (hjoins lateTask htask).ends _ rfl
  have hsame := hagree lateTask htask lateRequest hrequest rfl _ _ rfl rfl
  exact ⟨_, _, answer, rfl, rfl, hsame, hanswers, htold, rfl, rfl⟩

end Gateway

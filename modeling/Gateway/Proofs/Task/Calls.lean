import Gateway.Proofs.Task.Visits

/-!
# The polls of one acquire call

An acquire call may need many polls. In the life of a task each poll of an acquire call
begins one or goes on where the poll before it had to stop (`Linked`), so the polls of one
call follow each other, with the same database and the same attempt.
-/

namespace Gateway

open Registry

variable {ω : Type} {c : Connector ω} {prev : Option (Acquisition ω)} {r : Registry ω}
  {as bs : List (Acquisition ω)}

/-- An acquire call at this stage is where the last poll had to stop. -/
def Acquiring.Continues (c : Connector ω) (prev : Option (Acquisition ω)) (d : String)
    (stage : Acquiring) : Prop :=
  ∃ a, prev = some a ∧ a.database = d ∧ a.progress c = .pending stage

/-- An acquire call at this stage begins, or is where the last poll had to stop. -/
def Acquiring.Follows (c : Connector ω) (prev : Option (Acquisition ω)) (d : String)
    (stage : Acquiring) : Prop :=
  stage = .fresh ∨ stage.Continues c prev d

/-- Polls of acquire calls of one task: each follows the one before it. -/
def Linked (c : Connector ω) : Option (Acquisition ω) → List (Acquisition ω) → Prop
  | _, [] => True
  | prev, a :: as => a.stage.Follows c prev a.database ∧ Linked c (some a) as

/-- The last poll, where `prev` came before these. -/
def lastPoll : Option (Acquisition ω) → List (Acquisition ω) → Option (Acquisition ω)
  | prev, [] => prev
  | _, a :: as => lastPoll (some a) as

theorem Linked.append (h : Linked c prev as) (h' : Linked c (lastPoll prev as) bs) :
    Linked c prev (as ++ bs) := by
  induction as generalizing prev with
  | nil => exact h'
  | cons a as ih => exact ⟨h.1, ih h.2 h'⟩

/-- Where a task that waits in an acquire call stands follows the last poll. -/
def Task.Waits (c : Connector ω) (prev : Option (Acquisition ω)) : Task → Prop
  | .acquire d stage => stage.Follows c prev d
  | .request _ req (.acquiringForFind stage) => stage.Continues c prev req.database
  | .request _ req (.acquiringForCount _ stage) => stage.Continues c prev req.database
  | _ => True

theorem Task.waits_ofJob (job : Job) : (Task.ofJob job).Waits c prev := by
  cases job with
  | acquire d => exact .inl rfl
  | request kind req => trivial
  | close => trivial

/-! ## One poll -/

namespace Registry

/-- The acquire calls of a poll follow each other, and the task goes on from the last. -/
def Follow (c : Connector ω) (prev : Option (Acquisition ω)) (as : List (Acquisition ω))
    (kind : RequestKind) (req : Request) (p : RequestStep ω) : Prop :=
  Linked c prev as ∧
    ∀ next, p.1 = .pending next → (Task.request kind req next).Waits c (lastPoll prev as)

variable {req : Request} (kind : RequestKind)

theorem askCount_follow (n : ConnectionId) (data : Option (List Document)) (r : Registry ω) :
    Follow c prev [] kind req (r.askCount c req n data) := by
  constructor
  · trivial
  · intro next hp
    simp only [askCount] at hp
    split at hp
    · obtain rfl := Progress.pending.inj hp
      trivial
    · simp at hp

theorem acquireForCount_follow (data : Option (List Document)) {stage : Acquiring}
    (h : stage.Follows c prev req.database) (r : Registry ω) :
    Follow c prev [⟨req.database, stage, r⟩] kind req (r.acquireForCount c req data stage) := by
  constructor
  · exact ⟨h, trivial⟩
  · intro next hp
    rcases ha : r.pollAcquire c req.database stage with ⟨k | (f | n), s⟩
    all_goals simp only [acquireForCount, ha] at hp
    · obtain rfl := Progress.pending.inj hp
      exact ⟨_, rfl, rfl, by rw [Acquisition.progress, ha]⟩
    · simp at hp
    · exact (askCount_follow kind n data _).2 next hp

theorem askFind_follow (n : ConnectionId) (r : Registry ω) :
    Follow c prev (r.acquisitionsOfFind c kind req n) kind req (r.askFind c kind req n) := by
  rcases hf : c.find n req.database req.collection req.compile r.world with ⟨_ | (f | docs), w⟩
  all_goals simp only [askFind, acquisitionsOfFind, hf]
  · constructor
    · trivial
    · intro next hp
      obtain rfl := Progress.pending.inj hp
      trivial
  · exact ⟨trivial, fun next hp => by simp at hp⟩
  · cases kind with
    | page => exact ⟨trivial, fun next hp => by simp [afterFind] at hp⟩
    | total => exact ⟨trivial, fun next hp => by simp [afterFind] at hp⟩
    | pageWithTotal => exact acquireForCount_follow .pageWithTotal (some docs) (.inl rfl) _

theorem acquireForFind_follow {stage : Acquiring} (h : stage.Follows c prev req.database)
    (r : Registry ω) :
    Follow c prev (r.acquisitionsForFind c kind req stage) kind req
      (r.acquireForFind c kind req stage) := by
  rcases ha : r.pollAcquire c req.database stage with ⟨k | (f | n), s⟩
  all_goals simp only [acquireForFind, acquisitionsForFind, ha]
  · constructor
    · exact ⟨h, trivial⟩
    · intro next hp
      obtain rfl := Progress.pending.inj hp
      exact ⟨_, rfl, rfl, by rw [Acquisition.progress, ha]⟩
  · exact ⟨⟨h, trivial⟩, fun next hp => by simp at hp⟩
  · let asked := (s.say req.findRecord).note (.find n req.collection req.compile)
    have hfind : Follow c (some ⟨req.database, stage, r⟩)
        (asked.acquisitionsOfFind c kind req n) kind req (asked.askFind c kind req n) :=
      askFind_follow kind n asked
    exact ⟨⟨h, hfind.1⟩, hfind.2⟩

theorem pollRequest_follow {stage : Requesting}
    (h : (Task.request kind req stage).Waits c prev) (r : Registry ω) :
    Follow c prev (r.requestAcquisitions c kind req stage) kind req
      (r.pollRequest c kind req stage) := by
  cases stage with
  | fresh =>
    cases kind with
    | total => exact acquireForCount_follow .total none (.inl rfl) _
    | page => exact acquireForFind_follow .page (.inl rfl) _
    | pageWithTotal => exact acquireForFind_follow .pageWithTotal (.inl rfl) _
  | acquiringForFind stage => exact acquireForFind_follow kind (.inr h) r
  | finding n => exact askFind_follow kind n r
  | acquiringForCount data stage => exact acquireForCount_follow kind data (.inr h) r
  | counting n data => exact askCount_follow kind n data r

end Registry

theorem Task.poll_linked {t : Task} (h : t.Waits c prev) (r : Registry ω) :
    Linked c prev (t.acquisitions c r) ∧
      ∀ next, (t.poll c r).1 = .pending next →
        next.Waits c (lastPoll prev (t.acquisitions c r)) := by
  cases t with
  | acquire d stage =>
    constructor
    · exact ⟨h, trivial⟩
    · intro next hp
      obtain ⟨k, hk, rfl⟩ := lift_pending hp
      exact .inr ⟨_, rfl, rfl, hk⟩
  | request kind req stage =>
    obtain ⟨hlinked, hnext⟩ := pollRequest_follow kind h r
    constructor
    · exact hlinked
    · intro next hp
      obtain ⟨k, hk, rfl⟩ := lift_pending hp
      exact hnext k hk
  | close stage =>
    constructor
    · trivial
    · intro next hp
      obtain ⟨k, -, rfl⟩ := lift_pending hp
      trivial

/-! ## One life -/

/-- The polls of acquire calls in some visits. -/
def callPolls (c : Connector ω) (visits : List (Visit ω)) : List (Acquisition ω) :=
  visits.flatMap fun v => v.task.acquisitions c v.registry

namespace Machine

/-- The polls of the acquire calls of one task are linked. -/
theorem watch_linked {m : Machine ω} {id : String} {t : Task} {actions : List (Action ω)}
    (ht : m.task? id = some t) (h : t.Waits c prev) :
    Linked c prev (callPolls c (m.watch c id actions).1) := by
  induction actions generalizing m t prev with
  | nil => trivial
  | cons act actions ih =>
    cases act with
    | start other job => exact ih (task?_start ht job) h
    | change f => exact ih ht h
    | drop other =>
      by_cases ho : other = id
      · rw [watch, if_pos ho]
        trivial
      · rw [watch, if_neg ho]
        exact ih ((task?_drop_of_ne ho).trans ht) h
    | poll other =>
      by_cases ho : other = id
      · subst ho
        obtain ⟨hlinked, hnext⟩ := t.poll_linked h m.registry
        rw [watch, if_pos rfl, ht]
        rcases hp : (t.poll c m.registry).1 with next | result
        · simp only [hp]
          exact hlinked.append (ih (task?_poll_self ht hp) (hnext next hp))
        · simpa [callPolls, hp] using hlinked
      · rw [watch, if_neg ho]
        exact ih ((task?_poll_of_ne ho).trans ht) h

end Machine

end Gateway

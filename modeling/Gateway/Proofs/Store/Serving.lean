import Gateway.Proofs.Registry.Draining
import Gateway.Proofs.Store.Isolation

/-!
# Requests one after the other

While a request runs alone over a store, the slot of its database goes forward only: to the
attempt that the request waits for, and on to its connection. Every call of the request is on
that connection, and what a connection sees never changes. So requests that are run one after
the other to their ends, and that all succeed, tell of the same documents
(`Machine.serveAll_told`), however long each has to wait, whatever happens to the store
meanwhile, and whatever the slot held at first.
-/

namespace Gateway

/-! ## What an entry point tells -/

/-- The documents that a request matches on a connection. -/
def Request.selection (req : Request) (n : ConnectionId) (s : Store) : List Document :=
  Store.matching req.compile.filter (s.seen n req.collection)

/-- The answer of an entry point with these data and this total. -/
def RequestKind.answer (data : List Document) (total : UInt64) : RequestKind → Answer
  | .page => .page ⟨none, data⟩
  | .pageWithTotal => .page ⟨some total, data⟩
  | .total => .total total

/-- What an entry point answers if these documents match. -/
def Request.told (req : Request) (kind : RequestKind) (docs : List Document) : Answer :=
  kind.answer (Store.page req.compile.options docs) (.ofNat docs.length)

/-! ## Running a request alone -/

/-- A request to be run alone, and what happens to the store each time that it has to wait. -/
structure Service where
  kind : RequestKind
  req : Request
  waits : List (List Store.Change)

namespace Machine

/-- Polls a task until it is ready or no wait is left. -/
def finish (id : String) : List (List Store.Change) → Machine Store → Reply × Machine Store
  | [], m => m.poll Store.connector id
  | edits :: waits, m =>
    match m.poll Store.connector id with
    | (.pending, m) => finish id waits (m.change fun s => edits.foldl (fun s e => e.apply s) s)
    | done => done

/-- Runs a request under a name with no other step in between. -/
def serve (id : String) (s : Service) (m : Machine Store) : Reply × Machine Store :=
  (m.start id (.request s.kind s.req)).finish id s.waits

/-- Runs requests one after the other. -/
def serveAll (id : String) : List Service → Machine Store → List Reply × Machine Store
  | [], m => ([], m)
  | s :: runs, m =>
    let (reply, m) := m.serve id s
    let (replies, m) := serveAll id runs m
    (reply :: replies, m)

end Machine

/-! ## What a request leaves as it is -/

theorem Store.seen_change (e : Store.Change) (s : Store) (n : ConnectionId) (collection : String) :
    (e.apply s).seen n collection = s.seen n collection := by
  cases e <;> rfl

theorem Store.seen_changes (edits : List Store.Change) (s : Store) (n : ConnectionId)
    (collection : String) :
    (edits.foldl (fun s e => e.apply s) s).seen n collection = s.seen n collection := by
  induction edits generalizing s with
  | nil => rfl
  | cons e edits ih => exact (ih (e.apply s)).trans (seen_change e s n collection)

/-- A call has no answer, or fails, or gives its own answer. -/
theorem Store.guarded_cases {α : Type} (key : String) (answer : Store → α × Store) (s : Store) :
    Store.guarded key answer s = (none, s) ∨
      (∃ f, Store.guarded key answer s = (some (.error f), s)) ∨
      Store.guarded key answer s = (some (.ok (answer s).1), (answer s).2) := by
  unfold Store.guarded
  split
  · split
    · exact .inr (.inl ⟨_, rfl⟩)
    · exact .inr (.inr rfl)
  · exact .inl rfl

namespace Registry

/-- A connection that a database has, it keeps, and the connection sees what it saw. -/
def Keeps (d : String) (r s : Registry Store) : Prop :=
  ∀ n, r.slot? d = some (.established n) →
    s.slot? d = some (.established n) ∧
      ∀ collection, s.world.seen n collection = r.world.seen n collection

variable {d : String} {r s t : Registry Store} {n : ConnectionId}

theorem Keeps.refl (d : String) (r : Registry Store) : Keeps d r r := fun _ h => ⟨h, fun _ => rfl⟩

theorem Keeps.trans (h : Keeps d r s) (h' : Keeps d s t) : Keeps d r t := by
  intro n hn
  obtain ⟨hs, hseen⟩ := h n hn
  obtain ⟨ht, hseen'⟩ := h' n hs
  exact ⟨ht, fun collection => (hseen' collection).trans (hseen collection)⟩

/-- Nothing is to be kept while no connection is there. -/
theorem Keeps.of_not_established (h : ∀ n, r.slot? d ≠ some (.established n)) : Keeps d r s :=
  fun n hn => absurd hn (h n)

theorem Keeps.selection {req : Request} (h : Keeps req.database r s)
    (hn : r.slot? req.database = some (.established n)) :
    req.selection n s.world = req.selection n r.world := by
  unfold Request.selection
  rw [(h n hn).2]

end Registry

/-! ## What one poll of a request does -/

/-- A task that waits for an attempt finds it in the slot. -/
def Acquiring.InSlot (d : String) (r : Registry Store) : Acquiring → Prop
  | .fresh => True
  | .joined n => r.slot? d = some (.connecting n)

/-- Where a request stands that runs alone: it waits for what the slot holds, and with a page it
has the page of that connection. -/
def Requesting.InSlot (kind : RequestKind) (req : Request) (r : Registry Store) :
    Requesting → Prop
  | .fresh => True
  | .acquiringForFind stage => kind ≠ .total ∧ stage.InSlot req.database r
  | .finding n => kind ≠ .total ∧ r.slot? req.database = some (.established n)
  | .acquiringForCount data stage => kind = .total ∧ data = none ∧ stage.InSlot req.database r
  | .counting n data => r.slot? req.database = some (.established n) ∧
      Registry.countAnswer data (.ofNat (req.selection n r.world).length) =
        req.told kind (req.selection n r.world)

namespace Registry

variable {d : String} {r s : Registry Store} {n : ConnectionId} {kind : RequestKind}
  {req : Request}

/-- A request that succeeded tells of the documents on the connection in the slot. -/
def Told (kind : RequestKind) (req : Request) (answer : Answer) (r : Registry Store) : Prop :=
  ∃ n, r.slot? req.database = some (.established n) ∧
    answer = req.told kind (req.selection n r.world)

/-- What a poll of a request may come to. -/
def Serves (kind : RequestKind) (req : Request) (r : Registry Store) : RequestStep Store → Prop
  | (.pending next, s) => next.InSlot kind req s ∧ Keeps req.database r s
  | (.ready (.ok answer), s) => Told kind req answer s ∧ Keeps req.database r s
  | (.ready (.error _), _) => True

theorem Serves.of_keeps {p : RequestStep Store} (h : Keeps req.database r s)
    (hp : Serves kind req s p) : Serves kind req r p := by
  rcases p with ⟨next | f | answer, t⟩
  · exact ⟨hp.1, h.trans hp.2⟩
  · trivial
  · exact ⟨hp.1, h.trans hp.2⟩

/-- What a poll of an acquiring task may come to. -/
def Gives (d : String) (r : Registry Store) :
    Progress Acquiring (Except Failure ConnectionId) × Registry Store → Prop
  | (.pending next, s) => next.InSlot d s ∧ Keeps d r s
  | (.ready (.ok n), s) => s.slot? d = some (.established n) ∧ Keeps d r s
  | (.ready (.error _), _) => True

theorem Gives.of_keeps {p : Progress Acquiring (Except Failure ConnectionId) × Registry Store}
    (h : Keeps d r s) (hp : Gives d s p) : Gives d r p := by
  rcases p with ⟨next | f | n, t⟩
  · exact ⟨hp.1, h.trans hp.2⟩
  · trivial
  · exact ⟨hp.1, h.trans hp.2⟩

theorem await_gives (h : r.slot? d = some (.connecting n)) :
    Gives d r (r.await Store.connector d n) := by
  have hkeeps (s : Registry Store) : Keeps d r s :=
    .of_not_established fun k hk => by simp [h] at hk
  have hslots := advance_slots (c := Store.connector) n r
  rcases ha : r.advance Store.connector n with ⟨_ | outcome, r'⟩
  all_goals
    rw [ha] at hslots
    have hslot : r'.slot? d = some (.connecting n) := by
      rw [← h, slot?, hslots, slot?]
    simp only [await, ha]
  · exact ⟨hslot, hkeeps r'⟩
  · cases outcome with
    | error f => trivial
    | ok => exact ⟨(slot?_settle hslot _ d).trans (if_pos rfl), hkeeps _⟩

/-- Who acquires finds the connection, joins the attempt in the slot, or puts one there. -/
theorem pollAcquire_gives {stage : Acquiring} (h : stage.InSlot d r) :
    Gives d r (r.pollAcquire Store.connector d stage) := by
  cases stage with
  | joined n => exact await_gives h
  | fresh =>
    have hsay : Keeps d r (r.say (fetchRecord d)) := .refl d r
    rcases hslot : (r.say (fetchRecord d)).slot? d with _ | n | n
    all_goals simp only [pollAcquire, hslot]
    · have hlaunch := slot?_launch (r.say (fetchRecord d)) d d
      rw [if_pos rfl] at hlaunch
      have hkeeps : Keeps d r ((r.say (fetchRecord d)).launch d) :=
        hsay.trans (.of_not_established fun k hk => by simp [hslot] at hk)
      exact .of_keeps hkeeps (await_gives hlaunch)
    · exact .of_keeps hsay (await_gives hslot)
    · exact ⟨hslot, hsay⟩

/-! ### Counting -/

theorem askCount_serves {data : Option (List Document)}
    (hslot : r.slot? req.database = some (.established n))
    (hdata : countAnswer data (.ofNat (req.selection n r.world).length) =
      req.told kind (req.selection n r.world)) :
    Serves kind req r (r.askCount Store.connector req n data) := by
  have hcall := Store.guarded_cases ("count:" ++ req.database)
    (fun s => (UInt64.ofNat (req.selection n s).length, s)) r.world
  rcases hcall with h | ⟨f, h⟩ | h
  all_goals
    have hcount : Store.connector.count n req.database req.collection req.compile.filter r.world
      = _ := h
    simp only [askCount, hcount]
  · exact ⟨⟨hslot, hdata⟩, .refl _ r⟩
  · trivial
  · exact ⟨⟨n, hslot, hdata⟩, .refl _ r⟩

/-- A count alone acquires a connection first. -/
theorem acquireForCount_serves {stage : Acquiring} (h : stage.InSlot req.database r) :
    Serves .total req r (r.acquireForCount Store.connector req none stage) := by
  have hgives := pollAcquire_gives h
  rcases hp : r.pollAcquire Store.connector req.database stage with ⟨next | f | n, s⟩
  all_goals
    rw [hp] at hgives
    simp only [acquireForCount, hp]
  · exact ⟨⟨rfl, rfl, hgives.1⟩, hgives.2⟩
  · trivial
  · exact .of_keeps hgives.2 (askCount_serves hgives.1 rfl)

/-- The count beside a page finds the connection that the page came from. -/
theorem acquireForCount_beside {docs : List Document}
    (hslot : r.slot? req.database = some (.established n))
    (hdata : countAnswer (some docs) (.ofNat (req.selection n r.world).length) =
      req.told kind (req.selection n r.world)) :
    Serves kind req r (r.acquireForCount Store.connector req (some docs) .fresh) := by
  have hsay : (r.say (fetchRecord req.database)).slot? req.database = some (.established n) := hslot
  simp only [acquireForCount, pollAcquire, hsay]
  exact askCount_serves hslot hdata

/-! ### Finding -/

theorem askFind_serves (hkind : kind ≠ .total)
    (hslot : r.slot? req.database = some (.established n)) :
    Serves kind req r (r.askFind Store.connector kind req n) := by
  have hcall := Store.guarded_cases ("find:" ++ req.database)
    (fun s => (Store.page req.compile.options (req.selection n s), s)) r.world
  rcases hcall with h | ⟨f, h⟩ | h
  all_goals
    have hfind : Store.connector.find n req.database req.collection req.compile r.world = _ := h
    simp only [askFind, hfind]
  · exact ⟨⟨hkind, hslot⟩, .refl _ r⟩
  · trivial
  · cases kind with
    | page => exact ⟨⟨n, hslot, rfl⟩, .refl _ r⟩
    | pageWithTotal => exact acquireForCount_beside hslot rfl
    | total => exact absurd rfl hkind

theorem acquireForFind_serves (hkind : kind ≠ .total) {stage : Acquiring}
    (h : stage.InSlot req.database r) :
    Serves kind req r (r.acquireForFind Store.connector kind req stage) := by
  have hgives := pollAcquire_gives h
  rcases hp : r.pollAcquire Store.connector req.database stage with ⟨next | f | n, s⟩
  all_goals
    rw [hp] at hgives
    simp only [acquireForFind, hp]
  · exact ⟨⟨hkind, hgives.1⟩, hgives.2⟩
  · trivial
  · exact .of_keeps hgives.2 (askFind_serves hkind hgives.1)

/-- A poll of a request that runs alone leaves it waiting for what the slot holds, or ends it
with what it has to tell. -/
theorem pollRequest_serves {stage : Requesting} (h : stage.InSlot kind req r) :
    Serves kind req r (r.pollRequest Store.connector kind req stage) := by
  cases stage with
  | fresh =>
    cases kind with
    | page => exact acquireForFind_serves (by decide) trivial
    | pageWithTotal => exact acquireForFind_serves (by decide) trivial
    | total => exact acquireForCount_serves trivial
  | acquiringForFind stage => exact acquireForFind_serves h.1 h.2
  | finding n => exact askFind_serves h.1 h.2
  | acquiringForCount data stage =>
    obtain ⟨rfl, rfl, hstage⟩ := h
    exact acquireForCount_serves hstage
  | counting n data => exact askCount_serves h.1 h.2

end Registry

/-! ## Runs to the end -/

/-- A connection that is there when the store changes sees what it saw. -/
theorem Registry.keeps_changes (d : String) (r : Registry Store) (edits : List Store.Change) :
    Keeps d r { r with world := edits.foldl (fun s e => e.apply s) r.world } :=
  fun n hn => ⟨hn, fun collection => Store.seen_changes edits r.world n collection⟩

/-- What a request waits for is still there after the store changed. -/
theorem Requesting.InSlot.changes {kind : RequestKind} {req : Request} {r : Registry Store}
    {stage : Requesting} (h : stage.InSlot kind req r) (edits : List Store.Change) :
    stage.InSlot kind req { r with world := edits.foldl (fun s e => e.apply s) r.world } := by
  cases stage with
  | fresh => trivial
  | acquiringForFind stage => cases stage <;> exact h
  | finding n => exact h
  | acquiringForCount data stage => cases stage <;> exact h
  | counting n data =>
    refine ⟨h.1, ?_⟩
    rw [(Registry.keeps_changes req.database r edits).selection h.1]
    exact h.2

namespace Machine

open Registry

variable {kind : RequestKind} {req : Request} {id : String} {tasks : List (String × Task)}
  {outcome : Outcome} {m : Machine Store}

theorem poll_last (hid : id ∉ Entries.keys tasks) (r : Registry Store) (stage : Requesting) :
    (⟨r, tasks ++ [(id, .request kind req stage)]⟩ : Machine Store).poll Store.connector id =
      match r.pollRequest Store.connector kind req stage with
      | (.pending next, s) => (.pending, ⟨s, tasks ++ [(id, .request kind req next)]⟩)
      | (.ready result, s) => (.ready (result.map .answer), ⟨s, tasks⟩) := by
  rw [poll_at Store.connector rfl hid]
  simp only [Task.poll, Task.lift]
  rcases r.pollRequest Store.connector kind req stage with ⟨next | result, s⟩
  · rfl
  · simp

/-- A run that succeeds leaves the other tasks alone and tells of the connection in the slot. -/
def Done (m : Machine Store) (kind : RequestKind) (req : Request) (p : Reply × Machine Store) :
    Prop :=
  ∀ outcome, p.1 = .ready (.ok outcome) →
    p.2.tasks = m.tasks ∧ Keeps req.database m.registry p.2.registry ∧
      ∃ answer, outcome = .answer answer ∧ Told kind req answer p.2.registry

theorem poll_done (hid : id ∉ Entries.keys tasks) {r : Registry Store} {stage : Requesting}
    (h : stage.InSlot kind req r) :
    let p := (⟨r, tasks ++ [(id, .request kind req stage)]⟩ : Machine Store).poll
      Store.connector id
    Done ⟨r, tasks⟩ kind req p ∧ (p.1 = .pending → ∃ next s,
      p.2 = ⟨s, tasks ++ [(id, .request kind req next)]⟩ ∧ next.InSlot kind req s ∧
        Keeps req.database r s) := by
  intro p
  have hserves := pollRequest_serves h
  have hp : p = _ := poll_last hid r stage
  rcases hpoll : r.pollRequest Store.connector kind req stage with ⟨next | f | answer, s⟩
  all_goals
    rw [hpoll] at hserves
    rw [hp, hpoll]
  · exact ⟨nofun, fun _ => ⟨next, s, rfl, hserves⟩⟩
  · exact ⟨nofun, nofun⟩
  · refine ⟨?_, nofun⟩
    rintro outcome houtcome
    obtain rfl : Outcome.answer answer = outcome := by simpa [Except.map] using houtcome
    exact ⟨rfl, hserves.2, answer, rfl, hserves.1⟩

theorem finish_done (hid : id ∉ Entries.keys tasks) (waits : List (List Store.Change))
    {r : Registry Store} {stage : Requesting} (h : stage.InSlot kind req r) :
    Done ⟨r, tasks⟩ kind req
      ((⟨r, tasks ++ [(id, .request kind req stage)]⟩ : Machine Store).finish id waits) := by
  induction waits generalizing r stage with
  | nil => exact (poll_done hid h).1
  | cons edits waits ih =>
    obtain ⟨hdone, hwaits⟩ := poll_done hid h
    rw [finish]
    split
    · rename_i m hp
      rw [hp] at hwaits
      obtain ⟨next, s, rfl, hnext, hkeeps⟩ := hwaits rfl
      intro outcome houtcome
      obtain ⟨htasks, hkeeps', htold⟩ := ih (hnext.changes edits) outcome houtcome
      exact ⟨htasks, (hkeeps.trans (keeps_changes _ s edits)).trans hkeeps', htold⟩
    · exact hdone

theorem serve_done (hid : m.task? id = none) (s : Service) :
    Done m s.kind s.req (m.serve id s) :=
  finish_done (Entries.get?_eq_none_iff.mp hid) s.waits trivial

/-- Every reply is a success. -/
def Succeed (replies : List Reply) : Prop :=
  ∀ reply ∈ replies, ∃ outcome, reply = .ready (.ok outcome)

/-- The replies to requests for one database if its connection is this one. -/
def tellAll (runs : List Service) (n : ConnectionId) (s : Store) : List Reply :=
  runs.map fun run => .ready (.ok (.answer (run.req.told run.kind (run.req.selection n s))))

theorem serveAll_cons (id : String) (s : Service) (runs : List Service) (m : Machine Store) :
    m.serveAll id (s :: runs) =
      ((m.serve id s).1 :: ((m.serve id s).2.serveAll id runs).1,
        ((m.serve id s).2.serveAll id runs).2) :=
  rfl

/-- Requests for one database that are run one after the other and all succeed tell of what its
connection in the end sees, and with one at least there is a connection. -/
theorem serveAll_told {d : String} {runs : List Service} (hid : m.task? id = none)
    (hd : ∀ s ∈ runs, s.req.database = d) (hok : Succeed (m.serveAll id runs).1) :
    let after := (m.serveAll id runs).2
    after.tasks = m.tasks ∧ Keeps d m.registry after.registry ∧
      (runs ≠ [] → ∃ n, after.registry.slot? d = some (.established n)) ∧
      ∀ n, after.registry.slot? d = some (.established n) →
        (m.serveAll id runs).1 = tellAll runs n after.registry.world := by
  induction runs generalizing m with
  | nil => exact ⟨rfl, .refl d m.registry, fun hne => absurd rfl hne, fun _ _ => rfl⟩
  | cons s runs ih =>
    rw [serveAll_cons] at hok ⊢
    obtain ⟨hs, hruns⟩ := List.forall_mem_cons.mp hd
    obtain ⟨⟨outcome, hreply⟩, hrest⟩ := List.forall_mem_cons.mp hok
    obtain ⟨htasks, hkeeps, answer, rfl, k, hslot, rfl⟩ := serve_done hid s outcome hreply
    have hid' : (m.serve id s).2.task? id = none := by
      rw [task?, htasks]
      exact hid
    obtain ⟨htasks', hkeeps', -, htold⟩ := ih hid' hruns hrest
    rw [← hs] at hkeeps'
    have hfound := hkeeps'.selection hslot
    rw [hs] at hkeeps hkeeps' hslot
    -- the connection of this request is still there after the others
    have hk := (hkeeps' k hslot).1
    refine ⟨htasks'.trans htasks, hkeeps.trans hkeeps', fun _ => ⟨k, hk⟩, fun n hn => ?_⟩
    obtain rfl : k = n := by simpa using hk.symm.trans hn
    rw [htold k hn, hreply, ← hfound]
    rfl

end Machine

end Gateway

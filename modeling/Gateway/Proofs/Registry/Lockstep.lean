import Gateway.Proofs.Registry.Views
import Gateway.Proofs.Task.Paired
import Mathlib.Data.List.Forall2

/-!
# Runs in lockstep

Two registries over two connectors are to be told apart by nothing that a task looks at, and
they number their connections alike. It is enough to say so of the few things that a registry
does on its own (`Lockstep`): then every poll of every task tells the same over both and
leaves them alike (`Lockstep.poll`), and so does every run (`Lockstep.run`).
-/

namespace Gateway

variable {ω τ : Type}

/-- What a registry does on its own keeps two registries alike, and tells the same of both. -/
structure Lockstep (c : Connector ω) (c' : Connector τ) (Alike : Registry ω → Registry τ → Prop) :
    Prop where
  slots : ∀ {r s}, Alike r s → s.slots = r.slots
  attempts : ∀ {r s}, Alike r s → s.attempts = r.attempts
  write : ∀ {r s} (records : List Log.Record), Alike r s →
    Alike { r with log := r.log ++ records } { s with log := s.log ++ records }
  place : ∀ {r s} (slots : List (String × Slot)), Alike r s →
    Alike { r with slots } { s with slots }
  take : ∀ {r s} (taken : List (String × ConnectionId)), Alike r s →
    Alike { r with takes := r.takes ++ [taken] } { s with takes := s.takes ++ [taken] }
  note : ∀ {r s} {e : Event}, e.connect? = none → Alike r s → Alike (r.note e) (s.note e)
  launch : ∀ {r s} (database : String), Alike r s → Alike (r.launch database) (s.launch database)
  advance : ∀ {r s} (n : ConnectionId), Alike r s →
    Together Eq Alike (r.advance c n) (s.advance c' n)
  find : ∀ {r s} (n : ConnectionId) (database collection : String) (query : NativeQuery),
    Alike r s →
      (c'.find n database collection query s.world).1 =
          (c.find n database collection query r.world).1 ∧
        Alike { r with world := (c.find n database collection query r.world).2 }
          { s with world := (c'.find n database collection query s.world).2 }
  count : ∀ {r s} (n : ConnectionId) (database collection : String) (filter : Document),
    Alike r s →
      (c'.count n database collection filter s.world).1 =
          (c.count n database collection filter r.world).1 ∧
        Alike { r with world := (c.count n database collection filter r.world).2 }
          { s with world := (c'.count n database collection filter s.world).2 }
  close : ∀ {r s} (n : ConnectionId) (database : String), Alike r s →
    (c'.close n database s.world).1 = (c.close n database r.world).1 ∧
      Alike { r with world := (c.close n database r.world).2 }
        { s with world := (c'.close n database s.world).2 }
  woken : ∀ {r s}, Alike r s → c'.woken s.world = c.woken r.world

namespace Lockstep

open Registry

variable {c : Connector ω} {c' : Connector τ} {Alike : Registry ω → Registry τ → Prop}
  {r : Registry ω} {s : Registry τ}

theorem say (h : Lockstep c c' Alike) (hs : Alike r s) (record : Log.Record) :
    Alike (r.say record) (s.say record) :=
  h.write [record] hs

theorem slot? (h : Lockstep c c' Alike) (hs : Alike r s) (database : String) :
    s.slot? database = r.slot? database := by
  rw [Registry.slot?, Registry.slot?, h.slots hs]

theorem inFlight (h : Lockstep c c' Alike) (hs : Alike r s) : s.inFlight = r.inFlight := by
  rw [Registry.inFlight, Registry.inFlight, h.slots hs]

theorem settle (h : Lockstep c c' Alike) (hs : Alike r s) (database : String) (n : ConnectionId)
    (outcome : Except Failure Unit) :
    Alike (r.settle database n outcome) (s.settle database n outcome) := by
  unfold Registry.settle
  rw [h.slot? hs]
  split
  · rw [h.slots hs]
    cases outcome with
    | ok => exact h.place (Entries.insert database (.established n) r.slots) hs
    | error f =>
      exact h.write [failRecord database f] (h.place (Entries.erase database r.slots) hs)
  · exact hs

/-! ## Acquiring and requests -/

/-- Every connection is its own partner. -/
theorem paired (h : Lockstep c c' Alike) (database : String) :
    Paired c c' database Eq (fun _ => True) Alike where
  back _ _ := trivial
  write records hs := h.write records hs
  note he hs := by
    cases he with
    | find collection query hn => exact hn ▸ h.note rfl hs
    | count collection filter hn => exact hn ▸ h.note rfl hs
  slot {r s} hs := by
    rw [h.slot? hs]
    rcases r.slot? database with _ | slot
    · exact .none
    · exact .some (.refl slot)
  launch hs _ := ⟨by rw [h.attempts hs], h.launch database hs⟩
  advance hs hn _ := hn ▸ h.advance _ hs
  settle outcome hs hn := hn ▸ h.settle hs database _ outcome
  find collection query hs hn := hn ▸ h.find _ database collection query hs
  count collection filter hs hn := hn ▸ h.count _ database collection filter hs

theorem pollAcquire (h : Lockstep c c' Alike) (hs : Alike r s) (database : String)
    (stage : Acquiring) :
    Together Eq Alike (r.pollAcquire c database stage) (s.pollAcquire c' database stage) := by
  obtain ⟨htold, hleft⟩ := (h.paired database).acquire hs (.refl stage) trivial
  exact ⟨htold.eq Acquiring.Alike.eq AcquiredAlike.eq, hleft⟩

theorem pollRequest (h : Lockstep c c' Alike) (hs : Alike r s) (kind : RequestKind)
    (req : Request) (stage : Requesting) :
    Together Eq Alike (r.pollRequest c kind req stage) (s.pollRequest c' kind req stage) := by
  obtain ⟨htold, hleft⟩ := (h.paired req.database).pollRequest hs (.refl stage) kind trivial
  exact ⟨htold.eq Requesting.Alike.eq id, hleft⟩

/-! ## Closing -/

theorem advanceAll (h : Lockstep c c' Alike) (hs : Alike r s)
    (ws : List (String × ConnectionId)) :
    Together Eq Alike (r.advanceAll c ws) (s.advanceAll c' ws) := by
  induction ws generalizing r s with
  | nil => exact ⟨rfl, hs⟩
  | cons w ws ih =>
      obtain ⟨htold, hleft⟩ := h.advance w.2 hs
      obtain ⟨hrest, hlast⟩ := ih hleft
      simp only [Registry.advanceAll, htold, hrest]
      exact ⟨rfl, hlast⟩

theorem settleAll (h : Lockstep c c' Alike) (hs : Alike r s)
    (ws : List (String × ConnectionId)) : Alike (r.settleAll ws) (s.settleAll ws) := by
  induction ws generalizing r s with
  | nil => exact hs
  | cons w ws ih =>
      have hout : s.outcome? w.2 = r.outcome? w.2 := by
        rw [outcome?, outcome?, h.attempts hs]
      simp only [Registry.settleAll, hout]
      split
      · exact ih (h.settle hs _ _ _)
      · exact ih hs

theorem drain (h : Lockstep c c' Alike) (hs : Alike r s) (rounds : Nat)
    (ws : List (String × ConnectionId)) :
    Together Eq Alike (r.drain c rounds ws) (s.drain c' rounds ws) := by
  induction rounds generalizing ws r s with
  | zero => exact ⟨rfl, hs⟩
  | succ rounds ih =>
      obtain ⟨htold, hleft⟩ := h.advanceAll hs ws
      simp only [Registry.drain]
      split
      · exact ⟨rfl, hs⟩
      · rcases hr : r.advanceAll c ws with ⟨_ | _, r'⟩
        all_goals
          rcases hs' : s.advanceAll c' ws with ⟨b, s'⟩
          rw [hr, hs'] at htold hleft
          obtain rfl := htold
        · exact ⟨rfl, hleft⟩
        · have hsettled := h.settleAll hleft ws
          simp only [h.inFlight hsettled]
          exact ih hsettled _

theorem askClose (h : Lockstep c c' Alike) (hs : Alike r s) (database : String)
    (n : ConnectionId) :
    Together Eq Alike (r.askClose c database n) (s.askClose c' database n) := by
  obtain ⟨hout, hnext⟩ := h.close n database hs
  simp only [Registry.askClose, hout]
  exact ⟨rfl, hnext⟩

theorem startClose (h : Lockstep c c' Alike) (hs : Alike r s) (database : String)
    (n : ConnectionId) :
    Together Eq Alike (r.startClose c database n) (s.startClose c' database n) :=
  h.askClose (h.note rfl (h.say hs (closeRecord database))) database n

theorem startCloses (h : Lockstep c c' Alike) (hs : Alike r s)
    (es : List (String × ConnectionId)) :
    Together Eq Alike (r.startCloses c es) (s.startCloses c' es) := by
  induction es generalizing r s with
  | nil => exact ⟨rfl, hs⟩
  | cons e es ih =>
      obtain ⟨hcall, hasked⟩ := h.startClose hs e.1 e.2
      obtain ⟨hcalls, hlast⟩ := ih hasked
      simp only [Registry.startCloses, hcall, hcalls]
      exact ⟨rfl, hlast⟩

theorem askCloses (h : Lockstep c c' Alike) (hs : Alike r s) (calls : List CloseCall) :
    Together Eq Alike (r.askCloses c calls) (s.askCloses c' calls) := by
  induction calls generalizing r s with
  | nil => exact ⟨rfl, hs⟩
  | cons call calls ih =>
      simp only [Registry.askCloses]
      split
      · obtain ⟨hcalls, hlast⟩ := ih hs
        simp only [hcalls]
        exact ⟨rfl, hlast⟩
      · obtain ⟨hcall, hasked⟩ := h.askClose hs call.database call.connection
        obtain ⟨hcalls, hlast⟩ := ih hasked
        simp only [hcall, hcalls]
        exact ⟨rfl, hlast⟩

theorem askSideBySide (h : Lockstep c c' Alike) (hs : Alike r s) (closes : Closes) :
    Together Eq Alike (r.askSideBySide c closes) (s.askSideBySide c' closes) := by
  obtain ⟨calls, _ | ⟨e, queued⟩⟩ := closes
  · obtain ⟨hcalls, hlast⟩ := h.askCloses hs calls
    simp only [Registry.askSideBySide, hcalls]
    exact ⟨rfl, hlast⟩
  · obtain ⟨hcalls, hlast⟩ := h.startCloses hs (e :: queued)
    simp only [Registry.askSideBySide, hcalls]
    exact ⟨rfl, hlast⟩

/-- The same call is due over both, or none is. -/
theorem askDue (h : Lockstep c c' Alike) (hs : Alike r s) (closes : Closes) :
    (r.askDue c closes = none ∧ s.askDue c' closes = none) ∨
      ∃ call closes' r' s', r.askDue c closes = some (call, closes', r') ∧
        s.askDue c' closes = some (call, closes', s') ∧ Alike r' s' := by
  obtain ⟨calls, _ | ⟨e, queued⟩⟩ := closes
  · have hwoken : s.wokenCall? c' calls = r.wokenCall? c calls := by
      rw [wokenCall?, wokenCall?, h.woken hs]
    simp only [Registry.askDue, hwoken]
    rcases r.wokenCall? c calls with _ | i
    · exact .inl ⟨rfl, rfl⟩
    · rcases hi : calls[i]? with _ | call
      · simp [hi]
      · obtain ⟨hcall, hasked⟩ := h.askClose hs call.database call.connection
        simp only [hi, Option.bind_some, Option.map_some, ← hcall]
        exact .inr ⟨_, _, _, _, rfl, rfl, hasked⟩
  · obtain ⟨hcall, hstarted⟩ := h.startClose hs e.1 e.2
    simp only [Registry.askDue, ← hcall]
    exact .inr ⟨_, _, _, _, rfl, rfl, hstarted⟩

theorem askUntilAnswer (h : Lockstep c c' Alike) (hs : Alike r s) (limit awake : Nat)
    (closes : Closes) :
    ∃ answered closes' r' s', r.askUntilAnswer c limit awake closes = (answered, closes', r') ∧
      s.askUntilAnswer c' limit awake closes = (answered, closes', s') ∧ Alike r' s' := by
  induction limit generalizing awake closes r s with
  | zero => exact ⟨_, _, r, s, rfl, rfl, hs⟩
  | succ limit ih =>
    simp only [Registry.askUntilAnswer]
    rcases h.askDue hs closes with ⟨hr, hs'⟩ | ⟨call, closes', r', s', hr, hs', hasked⟩
    · simp only [hr, hs']
      exact ⟨_, _, r, s, rfl, rfl, hs⟩
    · simp only [hr, hs', h.woken hasked]
      by_cases hanswer : call.answer.isSome
      · simp only [if_pos hanswer]
        exact ⟨_, _, r', s', rfl, rfl, hasked⟩
      · simp only [if_neg hanswer]
        by_cases hawake : (if call.connection ∈ c.woken r'.world then awake + 1 else awake) < 2
        · simp only [if_pos hawake]
          exact ih hasked _ closes'
        · simp only [if_neg hawake]
          exact ⟨_, _, r', s', rfl, rfl, hasked⟩

theorem askInTurn (h : Lockstep c c' Alike) (hs : Alike r s) (unanswered : Nat)
    (closes : Closes) :
    Together Eq Alike (r.askInTurn c unanswered closes) (s.askInTurn c' unanswered closes) := by
  induction unanswered generalizing closes r s with
  | zero => exact ⟨rfl, hs⟩
  | succ unanswered ih =>
    obtain ⟨answered, closes', r', s', hr, hs', hasked⟩ :=
      h.askUntilAnswer hs (unanswered + 1) 0 closes
    simp only [Registry.askInTurn, hr, hs']
    cases answered with
    | false => exact ⟨rfl, hasked⟩
    | true => exact ih hasked closes'

theorem askTogether (h : Lockstep c c' Alike) (hs : Alike r s) (closes : Closes) :
    Together Eq Alike (r.askTogether c closes) (s.askTogether c' closes) := by
  unfold Registry.askTogether
  split
  · exact h.askSideBySide hs closes
  · exact h.askInTurn hs closes.unanswered closes

theorem finishClose (h : Lockstep c c' Alike) (hs : Alike r s) (closes : Closes) :
    Together Eq Alike (r.finishClose closes) (s.finishClose closes) := by
  simp only [Registry.finishClose]
  split
  · split
    · exact ⟨rfl, hs⟩
    · exact ⟨rfl, h.say hs _⟩
  · exact ⟨rfl, hs⟩

theorem goOnClosing (h : Lockstep c c' Alike) (hs : Alike r s) (closes : Closes) :
    Together Eq Alike (r.goOnClosing c closes) (s.goOnClosing c' closes) := by
  obtain ⟨hcloses, hasked⟩ := h.askTogether hs closes
  simp only [Registry.goOnClosing, hcloses]
  exact h.finishClose hasked _

theorem takeEstablished (h : Lockstep c c' Alike) (hs : Alike r s) :
    Together Eq Alike r.takeEstablished s.takeEstablished := by
  have htaken : s.established = r.established := by
    rw [established, established, h.slots hs]
  constructor
  · simp only [Registry.takeEstablished, htaken]
  · simp only [Registry.takeEstablished, htaken, h.slots hs]
    exact h.take (sortByName r.established) (h.place r.takeEstablished.2.slots hs)

theorem drainAndClose (h : Lockstep c c' Alike) (hs : Alike r s)
    (ws : List (String × ConnectionId)) :
    Together Eq Alike (r.drainAndClose c ws) (s.drainAndClose c' ws) := by
  obtain ⟨htold, hleft⟩ := h.drain hs maxRounds ws
  rcases hr : r.drain c maxRounds ws with ⟨_ | ws', r'⟩
  all_goals
    rcases hs' : s.drain c' maxRounds ws with ⟨o, s'⟩
    rw [hr, hs'] at htold hleft
    obtain rfl := htold
    simp only [Registry.drainAndClose, hr, hs']
  · obtain ⟨htaken, hrest⟩ := h.takeEstablished hleft
    rw [← htaken]
    exact h.goOnClosing hrest _
  · exact ⟨rfl, hleft⟩

theorem pollClose (h : Lockstep c c' Alike) (hs : Alike r s) (stage : Closing) :
    Together Eq Alike (r.pollClose c stage) (s.pollClose c' stage) := by
  cases stage with
  | fresh =>
    simp only [Registry.pollClose, h.inFlight hs]
    exact h.drainAndClose hs _
  | draining ws => exact h.drainAndClose hs ws
  | closing closes => exact h.goOnClosing hs closes

/-! ## Tasks and runs -/

theorem lift {σ α : Type} (next : σ → Task) (result : α → Outcome)
    {p : Progress σ (Except Failure α) × Registry ω}
    {q : Progress σ (Except Failure α) × Registry τ} (hp : Together Eq Alike p q) :
    Together Eq Alike (Task.lift next result p) (Task.lift next result q) := by
  obtain ⟨p, r⟩ := p
  obtain ⟨q, s⟩ := q
  obtain ⟨rfl, hs⟩ := hp
  cases p <;> exact ⟨rfl, hs⟩

/-- A poll of a task tells the same over both registries and leaves them alike. -/
theorem poll (h : Lockstep c c' Alike) (hs : Alike r s) (t : Task) :
    Together Eq Alike (t.poll c r) (t.poll c' s) := by
  cases t with
  | acquire database stage => exact lift _ _ (h.pollAcquire hs database stage)
  | request kind req stage => exact lift _ _ (h.pollRequest hs kind req stage)
  | close stage => exact lift _ _ (h.pollClose hs stage)

end Lockstep

/-- Two actions are the same but for what they do to the worlds, and that keeps registries
alike. -/
inductive Action.Same (Alike : Registry ω → Registry τ → Prop) : Action ω → Action τ → Prop
  | start (id : String) (job : Job) : Action.Same Alike (.start id job) (.start id job)
  | poll (id : String) : Action.Same Alike (.poll id) (.poll id)
  | drop (id : String) : Action.Same Alike (.drop id) (.drop id)
  | change {f : ω → ω} {g : τ → τ} (h : ∀ {r s}, Alike r s →
      Alike { r with world := f r.world } { s with world := g s.world }) :
      Action.Same Alike (.change f) (.change g)

/-- Two machines have the same tasks over registries that are alike. -/
structure Machine.Same (Alike : Registry ω → Registry τ → Prop) (m : Machine ω) (k : Machine τ) :
    Prop where
  tasks : k.tasks = m.tasks
  registry : Alike m.registry k.registry

namespace Lockstep

variable {c : Connector ω} {c' : Connector τ} {Alike : Registry ω → Registry τ → Prop}
  {m : Machine ω} {k : Machine τ}

theorem act (h : Lockstep c c' Alike) (hm : m.Same Alike k) {a : Action ω} {b : Action τ}
    (hab : a.Same Alike b) : (m.act c a).Same Alike (k.act c' b) := by
  obtain ⟨htasks, hs⟩ := hm
  cases hab with
  | start id job => exact ⟨by simp only [Machine.act, Machine.start, htasks], hs⟩
  | drop id => exact ⟨by simp only [Machine.act, Machine.drop, htasks], hs⟩
  | change hf => exact ⟨htasks, hf hs⟩
  | poll id =>
    simp only [Machine.act, Machine.poll, htasks]
    split
    · exact ⟨htasks, hs⟩
    · rename_i task after _
      obtain ⟨htold, hleft⟩ := h.poll hs task
      rcases hr : task.poll c m.registry with ⟨next | result, r⟩
      all_goals
        rcases hs' : task.poll c' k.registry with ⟨p, s⟩
        rw [hr, hs'] at htold hleft
        obtain rfl := htold
        exact ⟨rfl, hleft⟩

/-- Runs of the same actions from machines that are the same end in such machines. -/
theorem run (h : Lockstep c c' Alike) (hm : m.Same Alike k) {as : List (Action ω)}
    {bs : List (Action τ)} (hab : List.Forall₂ (Action.Same Alike) as bs) :
    (m.run c as).Same Alike (k.run c' bs) := by
  induction hab generalizing m k with
  | nil => exact hm
  | cons hab _ ih => exact ih (h.act hm hab)

end Lockstep

end Gateway

import Gateway.Proofs.Registry.Draining

/-!
# Tasks that fit their registry

A suspended task remembers numbers: of the attempt that it waits for, of the connection
that it uses, of the attempts that it drains, of the connections that it closes. They are numbers
of attempts for the right databases, or of connections that were taken (`Task.Fits`), and stay so
whatever the registry does meanwhile. An acquiring
task gets the outcome of the one attempt that it came to with its first poll
(`pollAcquire_awaited`), and nothing else.
-/

namespace Gateway

variable {ω : Type} {c : Connector ω} {r s : Registry ω}

/-! ## Acquiring -/

/-- The attempt whose outcome an acquiring task will have: the one that it joined, or the
one that it comes to with its first poll. -/
def Acquiring.attempt (d : String) (r : Registry ω) : Acquiring → ConnectionId
  | .joined n => n
  | .fresh =>
    match r.slot? d with
    | some s => s.attempt
    | none => r.attempts.length

def Acquiring.Fits (d : String) (r : Registry ω) : Acquiring → Prop
  | .joined n => r.database? n = some d
  | .fresh => True

theorem Acquiring.fits_fresh {d : String} : Acquiring.fresh.Fits d r := trivial

theorem Acquiring.Fits.grows {d : String} {stage : Acquiring} (hf : stage.Fits d r)
    (h : r.Grows s) : stage.Fits d s := by
  cases stage with
  | joined n => exact h.database hf
  | fresh => trivial

/-- What waiting for an attempt gives: its outcome, or more waiting if it has none. -/
def Acquiring.Awaited (n : ConnectionId) (r : Registry ω) :
    Progress Acquiring (Except Failure ConnectionId) → Prop
  | .pending next => next = .joined n ∧ r.outcome? n = none
  | .ready result => ∃ o, r.outcome? n = some o ∧ result = o.map fun _ => n

namespace Registry

theorem await_awaited (d : String) (n : ConnectionId) (r : Registry ω) :
    Acquiring.Awaited n (r.await c d n).2 (r.await c d n).1 := by
  have ho := advance_fst (c := c) n r
  rcases h : r.advance c n with ⟨_ | o, r'⟩
  all_goals rw [h] at ho; simp only [await, h]
  · exact ⟨rfl, ho.symm⟩
  · refine ⟨o, ?_, rfl⟩
    rw [outcome?_settle]
    exact ho.symm

theorem pollAcquire_awaited (hv : r.Valid) (d : String) (stage : Acquiring) :
    Acquiring.Awaited (stage.attempt d r) (r.pollAcquire c d stage).2
      (r.pollAcquire c d stage).1 := by
  cases stage with
  | joined n => exact await_awaited d n r
  | fresh =>
    have hsay : (r.say (fetchRecord d)).slot? d = r.slot? d := rfl
    rcases hs : r.slot? d with _ | ⟨n | n⟩
    · simp only [pollAcquire, Acquiring.attempt, hsay, hs]
      exact await_awaited d r.attempts.length _
    · simp only [pollAcquire, Acquiring.attempt, hsay, hs]
      exact await_awaited d n _
    · simp only [pollAcquire, Acquiring.attempt, hsay, hs]
      exact ⟨.ok (), hv.consistent.established hs, rfl⟩

theorem pollAcquire_database? (hv : r.Valid) {d : String} {stage : Acquiring}
    (hf : stage.Fits d r) :
    (r.pollAcquire c d stage).2.database? (stage.attempt d r) = some d := by
  have hg := (pollAcquire_moves (c := c) d stage r).grows
  cases stage with
  | joined n => exact hg.database hf
  | fresh =>
    rcases hs : r.slot? d with _ | s
    · have hsay : (r.say (fetchRecord d)).slot? d = none := hs
      simp only [pollAcquire, Acquiring.attempt, hsay, hs]
      refine (await_moves (c := c) d _ _).grows.database ?_
      rw [database?_launch]
      exact if_pos rfl
    · have hdb := hg.database (hv.consistent.database hs)
      simpa [Acquiring.attempt, hs] using hdb

theorem pollAcquire_fits (hv : r.Valid) {d : String} {stage next : Acquiring}
    (hf : stage.Fits d r) (h : (r.pollAcquire c d stage).1 = .pending next) :
    next.Fits d (r.pollAcquire c d stage).2 := by
  have ha := pollAcquire_awaited (c := c) hv d stage
  rw [h] at ha
  obtain ⟨rfl, -⟩ := ha
  exact pollAcquire_database? hv hf

theorem pollAcquire_opened (hv : r.Valid) {d : String} {stage : Acquiring} {n : ConnectionId}
    (hf : stage.Fits d r) (h : (r.pollAcquire c d stage).1 = .ready (.ok n)) :
    (r.pollAcquire c d stage).2.Opened d n := by
  have ha := pollAcquire_awaited (c := c) hv d stage
  rw [h] at ha
  obtain ⟨_ | u, ho, hn⟩ := ha
  · simp [Except.map] at hn
  · obtain rfl := Except.ok.inj hn
    exact ⟨pollAcquire_database? hv hf, ho⟩

end Registry

/-! ## Requests -/

/-- The connection that a requesting task uses is one to its database. -/
def Requesting.Fits (d : String) (r : Registry ω) : Requesting → Prop
  | .fresh => True
  | .acquiringForFind stage => stage.Fits d r
  | .finding n => r.Opened d n
  | .acquiringForCount _ stage => stage.Fits d r
  | .counting n _ => r.Opened d n

theorem Requesting.Fits.grows {d : String} {stage : Requesting} (hf : stage.Fits d r)
    (h : r.Grows s) : stage.Fits d s := by
  cases stage with
  | fresh => trivial
  | acquiringForFind stage => exact Acquiring.Fits.grows hf h
  | finding n => exact h.opened hf
  | acquiringForCount data stage => exact Acquiring.Fits.grows hf h
  | counting n data => exact h.opened hf

namespace Registry

variable {req : Request} {next : Requesting}

theorem askCount_fits {n : ConnectionId} {data : Option (List Document)}
    (hn : r.Opened req.database n) (h : (r.askCount c req n data).1 = .pending next) :
    next.Fits req.database (r.askCount c req n data).2 := by
  have hg := (askCount_through (c := c) req r n data).steps.moves.grows
  simp only [askCount] at h
  split at h
  · obtain rfl := Progress.pending.inj h
    exact hg.opened hn
  · simp at h

theorem acquireForCount_fits (hv : r.Valid) {data : Option (List Document)}
    {stage : Acquiring} (hf : stage.Fits req.database r)
    (h : (r.acquireForCount c req data stage).1 = .pending next) :
    next.Fits req.database (r.acquireForCount c req data stage).2 := by
  have hfit (k : Acquiring) (hk : (r.pollAcquire c req.database stage).1 = .pending k) :=
    pollAcquire_fits hv hf hk
  have hopen (k : ConnectionId)
      (hk : (r.pollAcquire c req.database stage).1 = .ready (.ok k)) :=
    pollAcquire_opened hv hf hk
  rcases hp : r.pollAcquire c req.database stage with ⟨k | (f | n), r'⟩
  all_goals rw [hp] at hfit hopen; simp only [acquireForCount, hp] at h ⊢
  · obtain rfl := Progress.pending.inj h
    exact hfit k rfl
  · simp at h
  · exact askCount_fits (hopen n rfl) h

theorem askFind_fits (hv : r.Valid) {kind : RequestKind} {n : ConnectionId}
    (hn : r.Opened req.database n) (h : (r.askFind c kind req n).1 = .pending next) :
    next.Fits req.database (r.askFind c kind req n).2 := by
  have hd : Moves c r { r with
      world := (c.find n req.database req.collection req.compile r.world).2 } :=
    Moves.drift r _ r.log
  rcases ha : (c.find n req.database req.collection req.compile r.world).1 with _ | (f | docs)
  all_goals simp only [askFind, ha] at h ⊢
  · obtain rfl := Progress.pending.inj h
    exact hd.grows.opened hn
  · simp at h
  · cases kind with
    | page => simp [afterFind] at h
    | total => simp [afterFind] at h
    | pageWithTotal => exact acquireForCount_fits (hv.moves hd) Acquiring.fits_fresh h

theorem acquireForFind_fits (hv : r.Valid) {kind : RequestKind} {stage : Acquiring}
    (hf : stage.Fits req.database r)
    (h : (r.acquireForFind c kind req stage).1 = .pending next) :
    next.Fits req.database (r.acquireForFind c kind req stage).2 := by
  have hfit (k : Acquiring) (hk : (r.pollAcquire c req.database stage).1 = .pending k) :=
    pollAcquire_fits hv hf hk
  have hopen (k : ConnectionId)
      (hk : (r.pollAcquire c req.database stage).1 = .ready (.ok k)) :=
    pollAcquire_opened hv hf hk
  have hm := pollAcquire_moves (c := c) req.database stage r
  rcases hp : r.pollAcquire c req.database stage with ⟨k | (f | n), r'⟩
  all_goals rw [hp] at hfit hopen hm; simp only [acquireForFind, hp] at h ⊢
  · obtain rfl := Progress.pending.inj h
    exact hfit k rfl
  · simp at h
  · have hs := say_moves (c := c) r' req.findRecord
    have hq : Moves c (r'.say req.findRecord) _ :=
      .of_move (.query (e := .find n req.collection req.compile) trivial)
    exact askFind_fits (hv.moves ((hm.trans hs).trans hq)) (hopen n rfl) h

theorem pollRequest_fits (hv : r.Valid) {kind : RequestKind} {stage : Requesting}
    (hf : stage.Fits req.database r) (h : (r.pollRequest c kind req stage).1 = .pending next) :
    next.Fits req.database (r.pollRequest c kind req stage).2 := by
  cases stage with
  | fresh =>
    have hd := Moves.drift (c := c) r r.world (r.log ++ req.compileRecords)
    cases kind with
    | total => exact acquireForCount_fits (hv.moves hd) Acquiring.fits_fresh h
    | page => exact acquireForFind_fits (hv.moves hd) Acquiring.fits_fresh h
    | pageWithTotal => exact acquireForFind_fits (hv.moves hd) Acquiring.fits_fresh h
  | acquiringForFind stage => exact acquireForFind_fits hv hf h
  | finding n => exact askFind_fits hv hf h
  | acquiringForCount data stage => exact acquireForCount_fits hv hf h
  | counting n data => exact askCount_fits hf h

end Registry

/-! ## Closing -/

/-- The connections that a closing task has to close were taken, and the close calls that it has
started were called. -/
structure Closes.Fits (r : Registry ω) (closes : Closes) : Prop where
  called : closes.calls.map CloseCall.target ⊆ r.closings
  queued : closes.queued ⊆ r.takes.flatten

theorem Closes.Fits.grows {closes : Closes} (hf : closes.Fits r) (h : r.Grows s) :
    closes.Fits s := by
  obtain ⟨later, htakes⟩ := h.takes
  have hclosings : r.closings ⊆ s.closings :=
    ((h.trace.filterMap Event.close?).map Prod.swap).subset
  refine ⟨List.Subset.trans hf.called hclosings, List.Subset.trans hf.queued ?_⟩
  rw [← htakes, List.flatten_append]
  exact List.subset_append_left _ _

/-- A closing task that waits in a round waits for something. -/
def Closing.Fits (r : Registry ω) : Closing → Prop
  | .fresh => True
  | .draining ws => ws ≠ [] ∧ r.Awaits ws
  | .closing closes => closes.Fits r

theorem Closing.Fits.grows {stage : Closing} (hf : stage.Fits r) (h : r.Grows s) :
    stage.Fits s := by
  cases stage with
  | fresh => trivial
  | draining ws => exact ⟨hf.1, hf.2.grows h⟩
  | closing closes => exact Closes.Fits.grows hf h

namespace Registry

theorem finishClose_pending {closes : Closes} {next : Closing}
    (h : (r.finishClose closes).1 = .pending next) : next = .closing closes := by
  simp only [finishClose] at h
  split at h
  · split at h <;> simp at h
  · exact (Progress.pending.inj h).symm

theorem Asking.fits {closes closes' : Closes} {asked : List CloseCall}
    (h : Asking c closes r asked closes' s) (hf : closes.Fits r) : closes'.Fits s := by
  obtain ⟨started, hadv, world, log, rfl⟩ := h.advances
  have hqueued := hf.queued
  rw [hadv.queued] at hqueued
  refine ⟨?_, List.Subset.trans (List.subset_append_right _ _) hqueued⟩
  rw [hadv.called, closings_of_trace rfl]
  exact List.append_subset.mpr
    ⟨List.Subset.trans hf.called (List.subset_append_left _ _), List.subset_append_right _ _⟩

theorem goOnClosing_fits {closes : Closes} (hf : closes.Fits r) {next : Closing}
    (h : (r.goOnClosing c closes).1 = .pending next) : next.Fits (r.goOnClosing c closes).2 := by
  obtain ⟨asked, hasked⟩ := askTogether_asking (c := c) closes r
  have hgrows := (finishClose_steps (c := c) (r.askTogether c closes).1
    (r.askTogether c closes).2).moves.grows
  rw [finishClose_pending h]
  exact (hasked.fits hf).grows hgrows

theorem takeEstablished_fits (r : Registry ω) :
    (⟨[], r.takeEstablished.1⟩ : Closes).Fits r.takeEstablished.2 := by
  refine ⟨List.nil_subset _, ?_⟩
  rw [flatten_takes_take]
  exact List.subset_append_right _ _

theorem drainAndClose_fits (hv : r.Valid) {ws : List (String × ConnectionId)}
    (hw : r.Awaits ws) (hnil : ws = [] → r.inFlight = []) {next : Closing}
    (h : (r.drainAndClose c ws).1 = .pending next) : next.Fits (r.drainAndClose c ws).2 := by
  have hd := drain_drained (c := c) hv.consistent hw hnil
  rcases hp : r.drain c maxRounds ws with ⟨_ | ws', r'⟩
  all_goals rw [hp] at hd; simp only [drainAndClose, hp] at h ⊢
  · exact goOnClosing_fits (takeEstablished_fits r') h
  · obtain rfl := Progress.pending.inj h
    obtain ⟨hw', w, hmem, -⟩ := hd
    exact ⟨List.ne_nil_of_mem hmem, hw'⟩

theorem pollClose_fits (hv : r.Valid) {stage next : Closing} (hf : stage.Fits r)
    (h : (r.pollClose c stage).1 = .pending next) : next.Fits (r.pollClose c stage).2 := by
  cases stage with
  | fresh => exact drainAndClose_fits hv (awaits_inFlight hv.consistent) id h
  | draining ws => exact drainAndClose_fits hv hf.2 (fun hnil => absurd hnil hf.1) h
  | closing closes => exact goOnClosing_fits hf h

end Registry

/-! ## Tasks -/

/-- The numbers that a task remembers are those of attempts for the right databases. -/
def Task.Fits (r : Registry ω) : Task → Prop
  | .acquire d stage => stage.Fits d r
  | .request _ req stage => stage.Fits req.database r
  | .close stage => stage.Fits r

theorem Task.Fits.grows {t : Task} (hf : t.Fits r) (h : r.Grows s) : t.Fits s := by
  cases t with
  | acquire d stage => exact Acquiring.Fits.grows hf h
  | request kind req stage => exact Requesting.Fits.grows hf h
  | close stage => exact Closing.Fits.grows hf h

theorem Task.fits_ofJob (r : Registry ω) (job : Job) : (Task.ofJob job).Fits r := by
  cases job <;> trivial

theorem Task.lift_pending {σ α : Type} {f : σ → Task} {g : α → Outcome}
    {p : Progress σ (Except Failure α) × Registry ω} {t : Task}
    (h : (lift f g p).1 = .pending t) : ∃ stage, p.1 = .pending stage ∧ t = f stage := by
  rcases p with ⟨stage | result, r⟩
  · exact ⟨stage, rfl, (Progress.pending.inj h).symm⟩
  · simp [lift] at h

theorem Task.lift_of_pending {σ α : Type} {f : σ → Task} {g : α → Outcome}
    {p : Progress σ (Except Failure α) × Registry ω} {stage : σ} (h : p.1 = .pending stage) :
    (lift f g p).1 = .pending (f stage) := by
  rcases p with ⟨stage' | result, r⟩
  · exact congrArg _ (congrArg f (Progress.pending.inj h))
  · simp at h

theorem Task.lift_ready {σ α : Type} {f : σ → Task} {g : α → Outcome}
    {p : Progress σ (Except Failure α) × Registry ω} {result : Except Failure Outcome}
    (h : (lift f g p).1 = .ready result) : ∃ a, p.1 = .ready a ∧ result = a.map g := by
  rcases p with ⟨stage | a, r⟩
  · simp [lift] at h
  · exact ⟨a, rfl, (Progress.ready.inj h).symm⟩

theorem Task.lift_of_ready {σ α : Type} {f : σ → Task} {g : α → Outcome}
    {p : Progress σ (Except Failure α) × Registry ω} {a : Except Failure α}
    (h : p.1 = .ready a) : (lift f g p).1 = .ready (a.map g) := by
  rcases p with ⟨stage | a', r⟩
  · simp at h
  · exact congrArg _ (congrArg (Except.map g) (Progress.ready.inj h))

theorem Task.poll_fits (hv : r.Valid) {t next : Task} (hf : t.Fits r)
    (h : (t.poll c r).1 = .pending next) : next.Fits (t.poll c r).2 := by
  cases t with
  | acquire d stage =>
    obtain ⟨k, hk, rfl⟩ := lift_pending h
    rw [poll, lift_snd]
    exact Registry.pollAcquire_fits hv hf hk
  | request kind req stage =>
    obtain ⟨k, hk, rfl⟩ := lift_pending h
    rw [poll, lift_snd]
    exact Registry.pollRequest_fits hv hf hk
  | close stage =>
    obtain ⟨k, hk, rfl⟩ := lift_pending h
    rw [poll, lift_snd]
    exact Registry.pollClose_fits hv hf hk

end Gateway

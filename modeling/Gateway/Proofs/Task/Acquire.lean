import Gateway.Proofs.Task.Visits

/-!
# The life of an acquiring task

With its first visit an acquiring task comes to one attempt (`Visit.target`), and its
result is the outcome of that attempt, whenever it comes and whatever the slot holds by
then. `Acquired` collects what is known of such a life.
-/

namespace Gateway

open Registry

variable {ω : Type} {c : Connector ω}

/-- The attempt that a fresh acquiring task comes to with this visit. -/
def Visit.target (d : String) (v : Visit ω) : ConnectionId := Acquiring.fresh.attempt d v.registry

/-- A life of a task that acquires the connection of `d`: it starts with the visit `v`, and
its last one leaves the registry `s`. -/
structure Acquired (c : Connector ω) (d : String) (visits : List (Visit ω))
    (result : Except Failure Outcome) (v : Visit ω) (s : Registry ω) : Prop where
  first : visits.head? = some v
  last : visits.getLast?.map (Visit.after c) = some s
  task : v.task = .acquire d .fresh
  valid : v.registry.Valid
  final : s.Valid
  grows : v.registry.Grows s
  database : s.database? (v.target d) = some d
  outcome : ∃ o, s.outcome? (v.target d) = some o ∧
    result = o.map fun _ => .connection (v.target d)
  /-- A task that had to wait came to an attempt without an outcome. -/
  waited : visits ≠ [v] → (v.after c).outcome? (v.target d) = none

/-- Where an acquiring task stands after the visits so far. -/
def Acquire.Stands (c : Connector ω) (d : String) (vs : List (Visit ω)) (t : Task)
    (r : Registry ω) : Prop :=
  (vs = [] ∧ t = .acquire d .fresh) ∨
    ∃ v, vs.head? = some v ∧ v.task = .acquire d .fresh ∧ v.registry.Valid ∧
      t = .acquire d (.joined (v.target d)) ∧ (v.after c).Grows r ∧
      (v.after c).outcome? (v.target d) = none ∧ (v.after c).database? (v.target d) = some d

theorem Visit.grows_after (v : Visit ω) : v.registry.Grows (v.after c) :=
  (v.task.poll_moves v.registry).grows

theorem Acquire.Stands.aside {d : String} {vs : List (Visit ω)} {t : Task} {r s : Registry ω}
    (h : Acquire.Stands c d vs t r) (hm : Moves c r s) : Acquire.Stands c d vs t s := by
  rcases h with h | ⟨v, hhead, htask, hvalid, ht, hgrows, hrest⟩
  · exact .inl h
  · exact .inr ⟨v, hhead, htask, hvalid, ht, hgrows.trans hm.grows, hrest⟩

theorem Acquire.Stands.visit {d : String} {vs : List (Visit ω)} {t next : Task}
    {r : Registry ω} (hv : r.Valid) (hf : t.Fits r) (h : Acquire.Stands c d vs t r)
    (hp : (t.poll c r).1 = .pending next) :
    Acquire.Stands c d (vs ++ [⟨t, r⟩]) next (t.poll c r).2 := by
  rcases h with ⟨rfl, rfl⟩ | ⟨v, hhead, htask, hvalid, rfl, hgrows, hnone, hdb⟩
  · obtain ⟨k, hk, rfl⟩ := Task.lift_pending hp
    have hw := pollAcquire_awaited (c := c) hv d .fresh
    have hd := pollAcquire_database? (c := c) hv (Acquiring.fits_fresh (d := d))
    rw [hk] at hw
    obtain ⟨rfl, hnone⟩ := hw
    have hafter : Visit.after c ⟨.acquire d .fresh, r⟩ = (r.pollAcquire c d .fresh).2 := by
      rw [Visit.after, Task.poll, Task.lift_snd]
    refine .inr ⟨_, rfl, rfl, hv, rfl, .refl _, ?_, ?_⟩
    · rw [hafter]
      exact hnone
    · rw [hafter]
      exact hd
  · obtain ⟨k, hk, rfl⟩ := Task.lift_pending hp
    have hw := pollAcquire_awaited (c := c) hv d (.joined (v.target d))
    rw [hk] at hw
    obtain ⟨rfl, -⟩ := hw
    have hstep := (Task.poll_moves (c := c) (.acquire d (.joined (v.target d))) r).grows
    refine .inr ⟨v, ?_, htask, hvalid, rfl, hgrows.trans hstep, hnone, hdb⟩
    rw [List.head?_append, hhead]
    rfl

/-- Every life of an acquiring task is as `Acquired` says. -/
theorem Completes.acquired {d : String} {visits : List (Visit ω)}
    {result : Except Failure Outcome} (h : Completes c (.acquire d) visits result) :
    ∃ v s, Acquired c d visits result v s := by
  have hstart {r : Registry ω} (_ : r.Valid) :
      Acquire.Stands c d [] (.ofJob (.acquire d)) r := .inl ⟨rfl, rfl⟩
  obtain ⟨vs, t, r, rfl, hv, hf, hstands, hp⟩ :=
    h.invariant hstart (fun _ hs hm => hs.aside hm) Acquire.Stands.visit
  have hlast : (vs ++ [(⟨t, r⟩ : Visit ω)]).getLast?.map (Visit.after c) = some (t.poll c r).2 := by
    rw [List.getLast?_append]
    rfl
  have hfinal := hv.moves (t.poll_moves (c := c) r)
  rcases hstands with ⟨rfl, rfl⟩ | ⟨v, hhead, htask, hvalid, rfl, hgrows, hnone, hdb⟩
  -- ready with its first poll
  · obtain ⟨x, hx, rfl⟩ := Task.lift_ready hp
    have hw := pollAcquire_awaited (c := c) hv d .fresh
    have hd := pollAcquire_database? (c := c) hv (Acquiring.fits_fresh (d := d))
    rw [hx] at hw
    obtain ⟨o, ho, rfl⟩ := hw
    have hafter : (Task.poll c (.acquire d .fresh) r).2 = (r.pollAcquire c d .fresh).2 := by
      rw [Task.poll, Task.lift_snd]
    refine ⟨⟨.acquire d .fresh, r⟩, _, rfl, hlast, rfl, hv, hfinal, Visit.grows_after _,
      ?_, ⟨o, ?_, ?_⟩, fun hne => absurd rfl hne⟩
    · rw [hafter]
      exact hd
    · rw [hafter]
      exact ho
    · cases o <;> rfl
  -- ready after waiting for the attempt that it came to then
  · obtain ⟨x, hx, rfl⟩ := Task.lift_ready hp
    have hw := pollAcquire_awaited (c := c) hv d (.joined (v.target d))
    rw [hx] at hw
    obtain ⟨o, ho, rfl⟩ := hw
    have hafter : (Task.poll c (.acquire d (.joined (v.target d))) r).2 =
        (r.pollAcquire c d (.joined (v.target d))).2 := by
      rw [Task.poll, Task.lift_snd]
    have hstep := (Task.poll_moves (c := c) (.acquire d (.joined (v.target d))) r).grows
    refine ⟨v, _, ?_, hlast, htask, hvalid, hfinal,
      (v.grows_after.trans hgrows).trans hstep, hstep.database (hgrows.database hdb),
      ⟨o, ?_, ?_⟩, fun _ => hnone⟩
    · rw [List.head?_append, hhead]
      rfl
    · rw [hafter]
      exact ho
    · cases o <;> rfl

end Gateway

import Gateway.Proofs.Registry.Lockstep

/-!
# More beside the world

A connector may keep something of its own beside the world of another one and otherwise
answer like it (`Connector.Extends`). No task notices: the registries over both go in
lockstep (`Connector.Extends.lockstep`). With what is beside the world left out, every run is
the run over the other connector (`Machine.bare_run`). And as long as only calls of other kinds
change what is beside the world, acquiring leaves it as it is (`pollAcquire_beside`).
-/

namespace Gateway

variable {ω σ : Type}

/-- A connector answers like another one, and keeps something beside its world. -/
structure Connector.Extends (c' : Connector (ω × σ)) (c : Connector ω) : Prop where
  connect : ∀ n database url w, c.connect n database url w.1 =
    ((c'.connect n database url w).1, (c'.connect n database url w).2.1)
  find : ∀ n database collection query w, c.find n database collection query w.1 =
    ((c'.find n database collection query w).1, (c'.find n database collection query w).2.1)
  count : ∀ n database collection filter w, c.count n database collection filter w.1 =
    ((c'.count n database collection filter w).1, (c'.count n database collection filter w).2.1)
  close : ∀ n database w, c.close n database w.1 =
    ((c'.close n database w).1, (c'.close n database w).2.1)
  woken : ∀ w, c.woken w.1 = c'.woken w

namespace Registry

/-- A registry without what is beside its world. -/
def bare (r : Registry (ω × σ)) : Registry ω := { r with world := r.world.1 }

end Registry

variable {c' : Connector (ω × σ)} {c : Connector ω}

open Registry

/-- What is beside the world makes no difference to a registry. -/
theorem Connector.Extends.lockstep (hc : c'.Extends c) :
    Lockstep c' c (fun r s => s = r.bare) where
  slots hs := hs ▸ rfl
  attempts hs := hs ▸ rfl
  write _ hs := hs ▸ rfl
  place _ hs := hs ▸ rfl
  take _ hs := hs ▸ rfl
  note _ hs := hs ▸ rfl
  launch _ hs := hs ▸ rfl
  advance := by
    rintro r _ n rfl
    rcases hn : r.attempts[n]? with _ | ⟨database, _ | outcome⟩
    · simp only [advance, bare, hn]
      exact ⟨rfl, rfl⟩
    · simp only [advance, bare, hn, hc.connect]
      exact ⟨rfl, rfl⟩
    · simp only [advance, bare, hn]
      exact ⟨rfl, rfl⟩
  find := by
    rintro r _ n database collection query rfl
    simp only [bare, hc.find, and_self]
  count := by
    rintro r _ n database collection filter rfl
    simp only [bare, hc.count, and_self]
  close := by
    rintro r _ n database rfl
    simp only [bare, hc.close, and_self]
  woken := by
    rintro r _ rfl
    exact hc.woken r.world

/-! ## Acquiring -/

/-- Connect calls leave what is beside the world as it is. -/
def Connector.ConnectsBeside (c' : Connector (ω × σ)) : Prop :=
  ∀ n database url w, (c'.connect n database url w).2.2 = w.2

namespace Registry

theorem advance_beside (hc : c'.ConnectsBeside) (n : ConnectionId) (r : Registry (ω × σ)) :
    (r.advance c' n).2.world.2 = r.world.2 := by
  rcases hn : r.attempts[n]? with _ | ⟨database, _ | outcome⟩
  · simp [advance, hn]
  · rw [advance_unanswered hn]
    exact hc n database _ r.world
  · simp [advance, hn]

theorem await_beside (hc : c'.ConnectsBeside) (d : String) (n : ConnectionId)
    (r : Registry (ω × σ)) : (r.await c' d n).2.world.2 = r.world.2 := by
  have hadvance := advance_beside hc n r
  rcases h : r.advance c' n with ⟨_ | outcome, s⟩
  all_goals rw [h] at hadvance; simp only [await, h]
  · exact hadvance
  · rw [settle_world]
    exact hadvance

theorem pollAcquire_beside (hc : c'.ConnectsBeside) (d : String) (stage : Acquiring)
    (r : Registry (ω × σ)) : (r.pollAcquire c' d stage).2.world.2 = r.world.2 := by
  cases stage with
  | joined n => exact await_beside hc d n r
  | fresh =>
    simp only [pollAcquire]
    split
    · rfl
    · exact await_beside hc d _ (r.say (fetchRecord d))
    · exact await_beside hc d _ ((r.say (fetchRecord d)).launch d)

end Registry

/-! ## Runs -/

/-- An action of a run as one of a run with something beside the world. -/
def Action.beside : Action ω → Action (ω × σ)
  | .start id job => .start id job
  | .poll id => .poll id
  | .drop id => .drop id
  | .change f => .change (Prod.map f id)

theorem Action.same_beside (a : Action ω) :
    (a.beside : Action (ω × σ)).Same (fun r s => s = r.bare) a := by
  cases a with
  | start id job => exact .start id job
  | poll id => exact .poll id
  | drop id => exact .drop id
  | change f => exact .change fun hs => hs ▸ rfl

namespace Machine

/-- A machine without what is beside the world. -/
def bare (m : Machine (ω × σ)) : Machine ω := ⟨m.registry.bare, m.tasks⟩

/-- A run is the same without what is beside the world. -/
theorem bare_run (hc : c'.Extends c) (m : Machine (ω × σ)) (actions : List (Action ω)) :
    (m.run c' (actions.map Action.beside)).bare = m.bare.run c actions := by
  have hactions : List.Forall₂ (Action.Same fun r s => s = r.bare)
      (actions.map (Action.beside : Action ω → Action (ω × σ))) actions := by
    rw [List.forall₂_map_left_iff, List.forall₂_same]
    exact fun a _ => a.same_beside
  have hm : m.Same (fun r s => s = r.bare) m.bare := ⟨rfl, rfl⟩
  obtain ⟨htasks, hregistry⟩ := hc.lockstep.run hm hactions
  rw [bare, ← hregistry, ← htasks]

end Machine

end Gateway

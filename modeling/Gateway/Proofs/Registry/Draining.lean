import Gateway.Proofs.Registry.Growth

/-!
# Rounds of draining

A round asks every attempt that it waits for and, once all have answered, settles them.
Settling an answered attempt takes it out of its slot, so after a round over the attempts
in flight none is left (`inFlight_settleAll`): nobody else gets a turn in between. Hence
one poll has at most the round that the task was waiting in, one more for attempts that
were launched meanwhile, and the look that finds none, and the count of rounds never runs
out (`drain_drained`).
-/

namespace Gateway

namespace Registry

variable {ω : Type} {c : Connector ω} {r : Registry ω}

/-- The attempts that a closing task may wait for: some, all distinct, each with the
database that it was launched for. -/
structure Awaits (r : Registry ω) (ws : List (String × ConnectionId)) : Prop where
  nodup : (ws.map Prod.snd).Nodup
  database : ∀ {d : String} {n : ConnectionId}, (d, n) ∈ ws → r.database? n = some d

theorem Awaits.grows {s : Registry ω} {ws : List (String × ConnectionId)} (hw : r.Awaits ws)
    (h : r.Grows s) : s.Awaits ws :=
  ⟨hw.nodup, fun hmem => h.database (hw.database hmem)⟩

theorem mem_inFlight (hr : r.Consistent) {d : String} {n : ConnectionId} :
    (d, n) ∈ r.inFlight ↔ r.slot? d = some (.connecting n) := by
  simp only [inFlight, List.mem_filterMap]
  constructor
  · rintro ⟨⟨e, s⟩, hmem, hs⟩
    cases s with
    | connecting k =>
      simp only [Option.some.injEq, Prod.mk.injEq] at hs
      obtain ⟨rfl, rfl⟩ := hs
      exact Entries.get?_eq_some_of_mem hr.names hmem
    | established k => simp at hs
  · intro h
    exact ⟨_, Entries.mem_of_get?_eq_some h, rfl⟩

theorem inFlight_names_sublist (r : Registry ω) :
    (r.inFlight.map Prod.fst).Sublist (Entries.keys r.slots) := by
  simp only [inFlight]
  induction r.slots with
  | nil => exact .slnil
  | cons e es ih =>
      obtain ⟨d, n | _⟩ := e
      · exact ih.cons_cons d
      · exact ih.cons d

theorem awaits_inFlight (hr : r.Consistent) : r.Awaits r.inFlight := by
  have hnames : (r.inFlight.map Prod.fst).Nodup := (inFlight_names_sublist r).nodup hr.names
  refine ⟨List.Nodup.map_on ?_ (List.Nodup.of_map Prod.fst hnames), ?_⟩
  · rintro ⟨d, n⟩ hd ⟨e, k⟩ he (rfl : n = k)
    rw [mem_inFlight hr] at hd he
    rw [hr.holds_unique ⟨_, hd, rfl⟩ ⟨_, he, rfl⟩]
  · intro d n hmem
    exact hr.database ((mem_inFlight hr).mp hmem)

/-! ## Asking -/

/-- Asking an attempt moves the world on and may give the attempt its outcome. -/
theorem advance_eq (n : ConnectionId) (r : Registry ω) :
    ∃ world attempts, (r.advance c n).2 = { r with world, attempts } := by
  rcases hn : r.attempts[n]? with _ | ⟨d, _ | o⟩
  · exact ⟨r.world, r.attempts, by simp [advance, hn]⟩
  · exact ⟨_, _, by rw [advance_unanswered hn]⟩
  · exact ⟨r.world, r.attempts, by simp [advance, hn]⟩

theorem advance_slots (n : ConnectionId) (r : Registry ω) :
    (r.advance c n).2.slots = r.slots := by
  obtain ⟨_, _, h⟩ := advance_eq (c := c) n r
  rw [h]

theorem advance_outcome?_of_ne {n k : ConnectionId} (h : k ≠ n) (r : Registry ω) :
    (r.advance c n).2.outcome? k = r.outcome? k := by
  rcases hn : r.attempts[n]? with _ | ⟨d, _ | o⟩
  · simp [advance, hn]
  · rw [advance_unanswered hn]
    simp [outcome?, List.getElem?_set_ne (Ne.symm h)]
  · simp [advance, hn]

theorem advanceAll_eq (ws : List (String × ConnectionId)) (r : Registry ω) :
    ∃ world attempts, (r.advanceAll c ws).2 = { r with world, attempts } := by
  induction ws generalizing r with
  | nil => exact ⟨r.world, r.attempts, rfl⟩
  | cons w ws ih =>
      obtain ⟨world, attempts, h⟩ := ih (r.advance c w.2).2
      obtain ⟨_, _, hfirst⟩ := advance_eq (c := c) w.2 r
      rw [hfirst] at h
      refine ⟨world, attempts, ?_⟩
      simp only [advanceAll, hfirst, h]

theorem advanceAll_slots (ws : List (String × ConnectionId)) (r : Registry ω) :
    (r.advanceAll c ws).2.slots = r.slots := by
  obtain ⟨_, _, h⟩ := advanceAll_eq (c := c) ws r
  rw [h]

theorem advanceAll_outcome?_of_notMem {ws : List (String × ConnectionId)} {k : ConnectionId}
    (h : k ∉ ws.map Prod.snd) (r : Registry ω) :
    (r.advanceAll c ws).2.outcome? k = r.outcome? k := by
  induction ws generalizing r with
  | nil => rfl
  | cons w ws ih =>
      rw [List.map_cons, List.mem_cons, not_or] at h
      exact (ih h.2 _).trans (advance_outcome?_of_ne h.1 r)

/-- Who waits for an attempt starts no calls and takes nothing. -/
theorem await_eq (d : String) (n : ConnectionId) (r : Registry ω) :
    ∃ world slots attempts log,
      (r.await c d n).2 = { r with world, slots, attempts, log } := by
  obtain ⟨world, attempts, h⟩ := advance_eq (c := c) n r
  rcases ha : r.advance c n with ⟨_ | o, r'⟩
  all_goals rw [ha] at h; obtain rfl := h; simp only [await, ha]
  · exact ⟨world, r.slots, attempts, r.log, rfl⟩
  · obtain ⟨slots, log, hs⟩ := settle_eq ({ r with world, attempts } : Registry ω) d n o
    exact ⟨world, slots, attempts, log, hs⟩

theorem await_trace (d : String) (n : ConnectionId) (r : Registry ω) :
    (r.await c d n).2.trace = r.trace := by
  obtain ⟨_, _, _, _, h⟩ := await_eq (c := c) d n r
  rw [h]

/-- All have answered if asking says so. -/
theorem outcome?_of_advanceAll {ws : List (String × ConnectionId)} (r : Registry ω)
    (h : (r.advanceAll c ws).1 = true) {w : String × ConnectionId} (hw : w ∈ ws) :
    (r.advanceAll c ws).2.outcome? w.2 ≠ none := by
  induction ws generalizing r with
  | nil => simp at hw
  | cons v ws ih =>
      simp only [advanceAll, Bool.and_eq_true] at h ⊢
      obtain ⟨hv, hrest⟩ := h
      rcases List.mem_cons.mp hw with rfl | hw
      · rw [advance_fst] at hv
        obtain ⟨o, ho⟩ := Option.isSome_iff_exists.mp hv
        rw [(advanceAll_moves (c := c) ws _).grows.outcome ho]
        simp
      · exact ih _ hrest hw

/-- One has not answered if asking says so. -/
theorem exists_unanswered_of_advanceAll {ws : List (String × ConnectionId)}
    (hn : (ws.map Prod.snd).Nodup) (r : Registry ω) (h : (r.advanceAll c ws).1 = false) :
    ∃ w ∈ ws, (r.advanceAll c ws).2.outcome? w.2 = none := by
  induction ws generalizing r with
  | nil => simp [advanceAll] at h
  | cons v ws ih =>
      obtain ⟨hv, hn⟩ := List.nodup_cons.mp hn
      simp only [advanceAll, Bool.and_eq_false_iff] at h ⊢
      rcases h with h | h
      · rw [advance_fst] at h
        refine ⟨v, List.mem_cons_self, ?_⟩
        rw [advanceAll_outcome?_of_notMem hv]
        simpa using h
      · obtain ⟨w, hw, hnone⟩ := ih hn _ h
        exact ⟨w, List.mem_cons_of_mem v hw, hnone⟩

/-! ## Settling -/

/-- Settling an attempt takes it out of its slot and brings no other in. -/
theorem connecting_of_settle {d e : String} {n k : ConnectionId} {o : Except Failure Unit}
    (h : (r.settle d n o).slot? e = some (.connecting k)) :
    r.slot? e = some (.connecting k) ∧ (e, k) ≠ (d, n) := by
  by_cases hs : r.slot? d = some (.connecting n)
  · rw [slot?_settle hs] at h
    split at h
    · simp at h
    · rename_i hne
      exact ⟨h, fun he => hne (congrArg Prod.fst he)⟩
  · rw [settle_of_ne o hs] at h
    refine ⟨h, ?_⟩
    rintro he
    obtain ⟨rfl, rfl⟩ := Prod.mk.inj he
    exact hs h

theorem settleAll_eq (ws : List (String × ConnectionId)) (r : Registry ω) :
    ∃ slots log, r.settleAll ws = { r with slots, log } := by
  induction ws generalizing r with
  | nil => exact ⟨r.slots, r.log, rfl⟩
  | cons w ws ih =>
      simp only [settleAll]
      split
      · rename_i o _
        obtain ⟨slots, log, h⟩ := ih (r.settle w.1 w.2 o)
        obtain ⟨_, _, hfirst⟩ := settle_eq r w.1 w.2 o
        rw [hfirst] at h ⊢
        exact ⟨slots, log, h⟩
      · exact ih r

theorem settleAll_attempts (ws : List (String × ConnectionId)) (r : Registry ω) :
    (r.settleAll ws).attempts = r.attempts := by
  obtain ⟨_, _, h⟩ := settleAll_eq ws r
  rw [h]

theorem settleAll_world (ws : List (String × ConnectionId)) (r : Registry ω) :
    (r.settleAll ws).world = r.world := by
  obtain ⟨_, _, h⟩ := settleAll_eq ws r
  rw [h]

theorem connecting_of_settleAll {ws : List (String × ConnectionId)} {r : Registry ω}
    {d : String} {n : ConnectionId} (h : (r.settleAll ws).slot? d = some (.connecting n)) :
    r.slot? d = some (.connecting n) ∧ ((d, n) ∈ ws → r.outcome? n = none) := by
  induction ws generalizing r with
  | nil => exact ⟨h, fun hmem => absurd hmem List.not_mem_nil⟩
  | cons w ws ih =>
      simp only [settleAll] at h
      split at h
      · obtain ⟨hs, hmem⟩ := ih h
        obtain ⟨hs, hne⟩ := connecting_of_settle hs
        refine ⟨hs, fun hw => ?_⟩
        have hws := (List.mem_cons.mp hw).resolve_left hne
        have ho := hmem hws
        rwa [outcome?_settle] at ho
      · rename_i ho
        obtain ⟨hs, hmem⟩ := ih h
        refine ⟨hs, fun hw => ?_⟩
        rcases List.mem_cons.mp hw with rfl | hws
        · exact ho
        · exact hmem hws

/-- A round over the attempts in flight leaves none in flight. -/
theorem inFlight_settleAll (hr : r.Consistent)
    (h : (r.advanceAll c r.inFlight).1 = true) :
    ((r.advanceAll c r.inFlight).2.settleAll r.inFlight).inFlight = [] := by
  have hm := advanceAll_moves (c := c) r.inFlight r
  have hc := hr.moves (hm.trans (settleAll_moves r.inFlight _))
  rw [List.eq_nil_iff_forall_not_mem]
  rintro ⟨d, n⟩ hmem
  obtain ⟨hs, hnone⟩ := connecting_of_settleAll ((mem_inFlight hc).mp hmem)
  rw [slot?, advanceAll_slots] at hs
  have hmem := (mem_inFlight hr).mpr hs
  exact outcome?_of_advanceAll r h hmem (hnone hmem)

/-! ## Rounds -/

/-- What draining comes to: no attempt in flight, or some to wait for of which one at
least has not answered. -/
def Drained : Option (List (String × ConnectionId)) × Registry ω → Prop
  | (none, r) => r.inFlight = []
  | (some ws, r) => r.Awaits ws ∧ ∃ w ∈ ws, r.outcome? w.2 = none

theorem drain_nil (rounds : Nat) (r : Registry ω) : r.drain c (rounds + 1) [] = (none, r) := by
  simp [drain]

/-- A round is not over yet while an attempt of it has not answered. -/
theorem drain_of_unanswered {ws : List (String × ConnectionId)} (rounds : Nat)
    (hne : ws ≠ []) (h : (r.advanceAll c ws).1 = false) :
    r.drain c (rounds + 1) ws = (some ws, (r.advanceAll c ws).2) := by
  rcases ha : r.advanceAll c ws with ⟨_ | _, s⟩
  · simp [drain, ha, hne]
  · simp [ha] at h

/-- After a round comes a look at the attempts in flight. -/
theorem drain_of_answered {ws : List (String × ConnectionId)} (rounds : Nat)
    (hne : ws ≠ []) (h : (r.advanceAll c ws).1 = true) :
    r.drain c (rounds + 1) ws =
      ((r.advanceAll c ws).2.settleAll ws).drain c rounds
        ((r.advanceAll c ws).2.settleAll ws).inFlight := by
  rcases ha : r.advanceAll c ws with ⟨_ | _, s⟩
  · simp [ha] at h
  · simp [drain, ha, hne]

theorem drained_of_unanswered {ws : List (String × ConnectionId)} (hw : r.Awaits ws)
    (h : (r.advanceAll c ws).1 = false) : Drained (some ws, (r.advanceAll c ws).2) :=
  ⟨hw.grows (advanceAll_moves (c := c) ws r).grows, exists_unanswered_of_advanceAll hw.nodup r h⟩

/-- From the attempts in flight it takes one round and a look. -/
theorem drain_inFlight_drained (hr : r.Consistent) (rounds : Nat) :
    Drained (r.drain c (rounds + 2) r.inFlight) := by
  by_cases hne : r.inFlight = []
  · rw [hne, drain_nil]
    exact hne
  · rcases h : (r.advanceAll c r.inFlight).1
    · rw [drain_of_unanswered _ hne h]
      exact drained_of_unanswered (awaits_inFlight hr) h
    · have hnil := inFlight_settleAll hr h
      rw [drain_of_answered _ hne h, hnil, drain_nil]
      exact hnil

/-- Draining starts no calls and takes nothing. -/
theorem drain_eq (rounds : Nat) (ws : List (String × ConnectionId)) (r : Registry ω) :
    ∃ world slots attempts log,
      (r.drain c rounds ws).2 = { r with world, slots, attempts, log } := by
  induction rounds generalizing ws r with
  | zero => exact ⟨r.world, r.slots, r.attempts, r.log, rfl⟩
  | succ rounds ih =>
      obtain ⟨world, attempts, h⟩ := advanceAll_eq (c := c) ws r
      simp only [drain]
      split
      · exact ⟨r.world, r.slots, r.attempts, r.log, rfl⟩
      · rcases ha : r.advanceAll c ws with ⟨_ | _, s⟩
        all_goals rw [ha] at h; obtain rfl := h
        · exact ⟨world, r.slots, attempts, r.log, rfl⟩
        · obtain ⟨slots, log, hs⟩ :=
            settleAll_eq ws ({ r with world, attempts } : Registry ω)
          simp only [hs]
          exact ih _ _

/-- A poll never runs out of rounds. -/
theorem drain_drained (hr : r.Consistent) {ws : List (String × ConnectionId)}
    (hw : r.Awaits ws) (hnil : ws = [] → r.inFlight = []) :
    Drained (r.drain c maxRounds ws) := by
  by_cases hne : ws = []
  -- there is nothing to wait for only if the look before found nothing
  · rw [hne, maxRounds, drain_nil]
    exact hnil hne
  · rcases h : (r.advanceAll c ws).1
    · rw [maxRounds, drain_of_unanswered _ hne h]
      exact drained_of_unanswered hw h
    · have hm := (advanceAll_moves (c := c) ws r).trans (settleAll_moves ws _)
      rw [maxRounds, drain_of_answered _ hne h]
      exact drain_inFlight_drained (hr.moves hm) 0

end Registry

end Gateway

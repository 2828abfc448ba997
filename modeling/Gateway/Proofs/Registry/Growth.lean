import Gateway.Proofs.Registry.Valid

/-!
# What a registry never takes back

Slots come and go. The attempts stay, with their databases and, once they have them, their
outcomes; what was taken stays taken, and the trace only gets longer. So a task that was away
finds the attempt it waits for as it left it, or answered.
-/

namespace Gateway

namespace Registry

variable {ω : Type} {c : Connector ω} {r s t : Registry ω}

/-- A registry is a later one of the same run. -/
structure Grows (r s : Registry ω) : Prop where
  address : s.address = r.address
  database : ∀ {n : ConnectionId} {d : String}, r.database? n = some d → s.database? n = some d
  outcome : ∀ {n : ConnectionId} {o : Except Failure Unit},
    r.outcome? n = some o → s.outcome? n = some o
  takes : r.takes <+: s.takes
  trace : r.trace <+: s.trace

theorem Grows.refl (r : Registry ω) : r.Grows r := ⟨rfl, id, id, List.prefix_rfl, List.prefix_rfl⟩

theorem Grows.trans (h : r.Grows s) (h' : s.Grows t) : r.Grows t :=
  ⟨h'.address.trans h.address, fun hd => h'.database (h.database hd),
    fun ho => h'.outcome (h.outcome ho), h.takes.trans h'.takes, h.trace.trans h'.trace⟩

theorem Move.grows (h : Move c r s) : r.Grows s := by
  cases h with
  | drift world log => exact ⟨rfl, id, id, List.prefix_rfl, List.prefix_rfl⟩
  | query he => exact ⟨rfl, id, id, List.prefix_rfl, List.prefix_append _ _⟩
  | launch hd =>
    refine ⟨rfl, ?_, ?_, List.prefix_rfl, List.prefix_append _ _⟩
    · intro n d hn
      rw [database?_launch, if_neg (Nat.ne_of_lt (lt_length_of_database? hn)), hn]
    · intro n o hn
      rw [outcome?_launch, hn]
  | fulfil hn _ =>
    rename_i n _ _ _
    obtain ⟨hdb, ho⟩ := attempts_eq_some.mp hn
    refine ⟨rfl, ?_, ?_, List.prefix_rfl, List.prefix_rfl⟩
    · intro k d hk
      rw [database?_fulfil r _ hdb, hk]
    · intro k o hk
      have hne : k ≠ n := by
        rintro rfl
        simp [ho] at hk
      rw [outcome?_fulfil r _ hdb, if_neg hne, hk]
  | settle d ho =>
    rename_i n outcome
    obtain ⟨-, htr, haddr⟩ := settle_frame r d n outcome
    refine ⟨haddr, ?_, ?_, ?_, ?_⟩
    · intro k e hk
      rwa [database?_settle]
    · intro k o hk
      rwa [outcome?_settle]
    · exact settle_takes r d n outcome ▸ List.prefix_rfl
    · exact htr ▸ List.prefix_rfl
  | take => exact ⟨rfl, id, id, List.prefix_append _ _, List.prefix_rfl⟩
  | close d n => exact ⟨rfl, id, id, List.prefix_rfl, List.prefix_append _ _⟩

theorem Moves.grows (h : Moves c r s) : r.Grows s := by
  induction h with
  | refl => exact .refl r
  | tail _ h ih => exact ih.trans h.grows

theorem Grows.mem_taken (h : r.Grows s) {n : ConnectionId} (hn : n ∈ r.taken) :
    n ∈ s.taken := by
  obtain ⟨later, htakes⟩ := h.takes
  rw [taken, ← htakes, List.flatten_append, List.map_append]
  exact List.mem_append_left _ hn

theorem Grows.opened (h : r.Grows s) {d : String} {n : ConnectionId} (hn : r.Opened d n) :
    s.Opened d n :=
  ⟨h.database hn.1, h.outcome hn.2⟩

end Registry

end Gateway

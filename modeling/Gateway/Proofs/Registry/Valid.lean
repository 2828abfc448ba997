import Gateway.Proofs.Registry.Views

/-!
# What holds of a registry in every run

Three families of facts, each kept by every move on its own or with the ones before it.

* `Consistent`: slots and attempts fit together. The keystone is `unanswered`: an attempt
  that waits for its answer sits in the slot of its database. A slot is only left with an
  outcome at hand, and a launch asks for an empty slot, so no attempt is pushed out.
* `Accounted`: every connection that was opened is held by a slot or was taken by a closing
  task, and not both. Nothing else takes a connection away.
* `Recorded`: the connect calls in the trace are the attempts, one for each and in order.

`Valid` is all three, and `Machine.run_valid` has it for every run.
-/

namespace Gateway

namespace Registry

variable {ω : Type} {c : Connector ω} {r s : Registry ω}

/-- Slots and attempts fit together. -/
structure Consistent (r : Registry ω) : Prop where
  names : (Entries.keys r.slots).Nodup
  database : ∀ {d : String} {s : Slot}, r.slot? d = some s → r.database? s.attempt = some d
  established : ∀ {d : String} {n : ConnectionId},
    r.slot? d = some (.established n) → r.outcome? n = some (.ok ())
  unanswered : ∀ {d : String} {n : ConnectionId},
    r.database? n = some d → r.outcome? n = none → r.slot? d = some (.connecting n)
  /-- A slot holds the last attempt of its database. -/
  latest : ∀ {d : String} {s : Slot} {n : ConnectionId},
    r.slot? d = some s → r.database? n = some d → n ≤ s.attempt

/-- A slot of a database holds an attempt or what came of it. -/
def Holds (r : Registry ω) (d : String) (n : ConnectionId) : Prop :=
  ∃ s, r.slot? d = some s ∧ s.attempt = n

/-- A connect call opened a connection to a database. -/
def Opened (r : Registry ω) (d : String) (n : ConnectionId) : Prop :=
  r.database? n = some d ∧ r.outcome? n = some (.ok ())

/-- Opened connections are held or taken. -/
structure Accounted (r : Registry ω) : Prop where
  opened : ∀ {d : String} {n : ConnectionId}, r.Opened d n → r.Holds d n ∨ n ∈ r.taken
  held : ∀ {d : String} {n : ConnectionId}, r.Holds d n → n ∉ r.taken
  taken : ∀ {d : String} {n : ConnectionId}, (d, n) ∈ r.takes.flatten → r.Opened d n
  once : r.taken.Nodup

/-- The trace has the connect call of each attempt. -/
def Recorded (r : Registry ω) : Prop :=
  r.connectCalls = r.attempts.mapIdx fun n a => (n, a.database, r.address.urlFor a.database)

/-! ## Slots and attempts -/

theorem Consistent.holds_unique (hr : r.Consistent) {d e : String} {n : ConnectionId}
    (hd : r.Holds d n) (he : r.Holds e n) : d = e := by
  obtain ⟨s, hs, rfl⟩ := hd
  obtain ⟨t, ht, htn⟩ := he
  have hd := hr.database hs
  have he := hr.database ht
  rw [htn, hd] at he
  exact Option.some.inj he

theorem Consistent.launch (hr : r.Consistent) {d : String} (hd : r.slot? d = none) :
    (r.launch d).Consistent := by
  refine ⟨Entries.nodup_insert hr.names, ?_, ?_, ?_, ?_⟩
  · intro e s hs
    rw [slot?_launch] at hs
    rw [database?_launch]
    split at hs
    · obtain rfl := Option.some.inj hs
      simp_all [Slot.attempt]
    · have hdb := hr.database hs
      rw [if_neg (Nat.ne_of_lt (lt_length_of_database? hdb)), hdb]
  · intro e n hs
    rw [slot?_launch] at hs
    rw [outcome?_launch]
    split at hs
    · simp at hs
    · exact hr.established hs
  · intro e n hdb ho
    rw [database?_launch] at hdb
    rw [outcome?_launch] at ho
    rw [slot?_launch]
    split at hdb
    · simp_all
    · have hs := hr.unanswered hdb ho
      -- the slot of `d` was empty, so no attempt for `d` was waiting
      have hne : e ≠ d := by
        rintro rfl
        simp [hd] at hs
      rw [if_neg hne, hs]
  · intro e s n hs hdb
    rw [slot?_launch] at hs
    rw [database?_launch] at hdb
    split at hs
    · obtain rfl := Option.some.inj hs
      split at hdb
      · simp_all [Slot.attempt]
      · exact Nat.le_of_lt (lt_length_of_database? hdb)
    · split at hdb
      · simp_all
      · exact hr.latest hs hdb

theorem Consistent.fulfil (hr : r.Consistent) {n : ConnectionId} {d : String}
    (hn : r.database? n = some d) (ho : r.outcome? n = none) (outcome : Except Failure Unit) :
    (r.fulfil n d outcome).Consistent := by
  have hdb := database?_fulfil r outcome hn
  have hout := outcome?_fulfil r outcome hn
  refine ⟨hr.names, ?_, ?_, ?_, ?_⟩
  · intro e s hs
    rw [hdb]
    exact hr.database hs
  · intro e k hs
    have hk := hr.established hs
    have hne : k ≠ n := by
      rintro rfl
      simp [ho] at hk
    rw [hout, if_neg hne, hk]
  · intro e k hk hnone
    rw [hdb] at hk
    rw [hout] at hnone
    split at hnone
    · simp at hnone
    · exact hr.unanswered hk hnone
  · intro e s k hs hk
    rw [hdb] at hk
    exact hr.latest hs hk

theorem Consistent.settle (hr : r.Consistent) {n : ConnectionId} (d : String)
    {outcome : Except Failure Unit} (ho : r.outcome? n = some outcome) :
    (r.settle d n outcome).Consistent := by
  by_cases hs : r.slot? d = some (.connecting n)
  case neg =>
    rw [settle_of_ne outcome hs]
    exact hr
  have hdb := database?_settle r d n outcome
  have hout := outcome?_settle r d n outcome
  have hslot {e : String} {t : Slot} := slot?_settle_eq_some (e := e) (s := t) hs outcome
  refine ⟨nodup_settle hr.names outcome, ?_, ?_, ?_, ?_⟩
  · intro e t ht
    rw [hdb]
    rcases hslot.mp ht with ⟨rfl, -, rfl⟩ | ⟨-, ht⟩
    · exact hr.database (s := .connecting n) hs
    · exact hr.database ht
  · intro e k hk
    rw [hout]
    rcases hslot.mp hk with ⟨-, rfl, hkn⟩ | ⟨-, hk⟩
    · rw [Slot.established.inj hkn]
      exact ho
    · exact hr.established hk
  · intro e k hk hnone
    rw [hdb] at hk
    rw [hout] at hnone
    have hc := hr.unanswered hk hnone
    -- the attempt that is settled has its outcome, so it is not the one that waits
    have hne : e ≠ d := by
      rintro rfl
      rw [hs] at hc
      obtain rfl := Slot.connecting.inj (Option.some.inj hc)
      simp [ho] at hnone
    exact hslot.mpr (.inr ⟨hne, hc⟩)
  · intro e t k ht hk
    rw [hdb] at hk
    rcases hslot.mp ht with ⟨rfl, -, rfl⟩ | ⟨-, ht⟩
    · exact hr.latest (s := .connecting n) hs hk
    · exact hr.latest ht hk

theorem Consistent.take (hr : r.Consistent) : r.takeEstablished.2.Consistent := by
  have hsub {d : String} {s : Slot} (hs : r.takeEstablished.2.slot? d = some s) :
      r.slot? d = some s := ((slot?_take hr.names).mp hs).1
  refine ⟨Entries.nodup_filter hr.names, ?_, ?_, ?_, ?_⟩
  · exact fun hs => hr.database (hsub hs)
  · exact fun hs => hr.established (hsub hs)
  · intro d n hdb ho
    exact (slot?_take hr.names).mpr ⟨hr.unanswered hdb ho, n, rfl⟩
  · exact fun hs hdb => hr.latest (hsub hs) hdb

theorem Consistent.move (hr : r.Consistent) (h : Move c r s) : s.Consistent := by
  cases h with
  | drift world log => exact ⟨hr.names, hr.database, hr.established, hr.unanswered, hr.latest⟩
  | query he => exact ⟨hr.names, hr.database, hr.established, hr.unanswered, hr.latest⟩
  | launch hd => exact hr.launch hd
  | fulfil hn _ =>
    obtain ⟨hdb, ho⟩ := attempts_eq_some.mp hn
    exact hr.fulfil hdb ho _
  | settle d ho => exact hr.settle d ho
  | take => exact hr.take
  | close d n => exact ⟨hr.names, hr.database, hr.established, hr.unanswered, hr.latest⟩

theorem Consistent.moves (hr : r.Consistent) (h : Moves c r s) : s.Consistent := by
  induction h with
  | refl => exact hr
  | tail _ h ih => exact ih.move h

/-! ## Opened connections -/

theorem Accounted.lt_length (ha : r.Accounted) {n : ConnectionId} (hn : n ∈ r.taken) :
    n < r.attempts.length := by
  obtain ⟨⟨d, k⟩, hmem, rfl⟩ := List.mem_map.mp hn
  exact lt_length_of_database? (ha.taken hmem).1

theorem Accounted.launch (ha : r.Accounted) {d : String} (hd : r.slot? d = none) :
    (r.launch d).Accounted := by
  have hopen {e : String} {n : ConnectionId} : (r.launch d).Opened e n ↔ r.Opened e n := by
    simp only [Opened, database?_launch, outcome?_launch]
    constructor
    · rintro ⟨hdb, ho⟩
      obtain ⟨e', he'⟩ := exists_database?_of_outcome? ho
      have hlt := lt_length_of_database? (attempts_eq_some.mp he').1
      rw [if_neg (Nat.ne_of_lt hlt)] at hdb
      exact ⟨hdb, ho⟩
    · rintro ⟨hdb, ho⟩
      rw [if_neg (Nat.ne_of_lt (lt_length_of_database? hdb))]
      exact ⟨hdb, ho⟩
  refine ⟨?_, ?_, fun h => hopen.mpr (ha.taken h), ha.once⟩
  · intro e n h
    rcases ha.opened (hopen.mp h) with ⟨s, hs, hsn⟩ | ht
    · have hne : e ≠ d := by
        rintro rfl
        simp [hd] at hs
      exact .inl ⟨s, by rw [slot?_launch, if_neg hne, hs], hsn⟩
    · exact .inr ht
  · rintro e n ⟨s, hs, rfl⟩
    rw [slot?_launch] at hs
    split at hs
    · obtain rfl := Option.some.inj hs
      exact fun hmem => Nat.lt_irrefl _ (ha.lt_length hmem)
    · exact ha.held ⟨s, hs, rfl⟩

theorem Accounted.fulfil (ha : r.Accounted) (hr : r.Consistent) {n : ConnectionId} {d : String}
    (hn : r.database? n = some d) (ho : r.outcome? n = none) (outcome : Except Failure Unit) :
    (r.fulfil n d outcome).Accounted := by
  have hdb := database?_fulfil r outcome hn
  have hout := outcome?_fulfil r outcome hn
  refine ⟨?_, ha.held, ?_, ha.once⟩
  · rintro e k ⟨hk, hok⟩
    rw [hdb] at hk
    rw [hout] at hok
    split at hok
    -- the connection that just opened is in the slot, where its attempt waited
    · rename_i hkn
      rw [hkn, hn] at hk
      obtain rfl := Option.some.inj hk
      exact .inl ⟨_, hr.unanswered hn ho, hkn.symm⟩
    · exact ha.opened ⟨hk, hok⟩
  · intro e k h
    obtain ⟨hk, hok⟩ := ha.taken h
    have hne : k ≠ n := by
      rintro rfl
      simp [ho] at hok
    exact ⟨by rw [hdb, hk], by rw [hout, if_neg hne, hok]⟩

theorem Accounted.settle (ha : r.Accounted) {n : ConnectionId} (d : String)
    {outcome : Except Failure Unit} (ho : r.outcome? n = some outcome) :
    (r.settle d n outcome).Accounted := by
  by_cases hs : r.slot? d = some (.connecting n)
  case neg =>
    rw [settle_of_ne outcome hs]
    exact ha
  have hopen {e : String} {k : ConnectionId} :
      (r.settle d n outcome).Opened e k ↔ r.Opened e k := by
    simp only [Opened, database?_settle, outcome?_settle]
  have htakes := settle_takes r d n outcome
  have htaken : (r.settle d n outcome).taken = r.taken := by
    simp only [Registry.taken, htakes]
  have hslot {e : String} {t : Slot} := slot?_settle_eq_some (e := e) (s := t) hs outcome
  refine ⟨?_, ?_, ?_, ?_⟩
  · intro e k hk
    rw [htaken]
    rw [hopen] at hk
    rcases ha.opened hk with ⟨s, hse, rfl⟩ | ht
    · left
      by_cases he : e = d
      · subst he
        rw [hs] at hse
        obtain rfl := Option.some.inj hse
        obtain rfl : .ok () = outcome := Option.some.inj (hk.2.symm.trans ho)
        exact ⟨.established n, hslot.mpr (.inl ⟨rfl, rfl, rfl⟩), rfl⟩
      · exact ⟨s, hslot.mpr (.inr ⟨he, hse⟩), rfl⟩
    · exact .inr ht
  · rintro e k ⟨s, hse, rfl⟩
    rw [htaken]
    rcases hslot.mp hse with ⟨rfl, -, rfl⟩ | ⟨-, hse⟩
    · exact ha.held ⟨_, hs, rfl⟩
    · exact ha.held ⟨s, hse, rfl⟩
  · intro e k h
    rw [htakes] at h
    exact hopen.mpr (ha.taken h)
  · rw [htaken]
    exact ha.once

/-- The connections that are taken are those established, each once. -/
theorem Consistent.nodup_taken (hr : r.Consistent) :
    (r.takeEstablished.1.map Prod.snd).Nodup := by
  refine List.Nodup.map_on ?_ (List.Nodup.of_map Prod.fst (nodup_takeEstablished hr.names))
  rintro ⟨d, n⟩ hd ⟨e, k⟩ he (rfl : n = k)
  rw [mem_takeEstablished hr.names] at hd he
  rw [hr.holds_unique ⟨_, hd, rfl⟩ ⟨_, he, rfl⟩]

theorem Accounted.take (ha : r.Accounted) (hr : r.Consistent) :
    r.takeEstablished.2.Accounted := by
  refine ⟨?_, ?_, ?_, ?_⟩
  · intro d n hopen
    rw [taken_take, List.mem_append]
    rcases ha.opened hopen with ⟨s, hs, rfl⟩ | ht
    · cases s with
      | connecting n => exact .inl ⟨_, (slot?_take hr.names).mpr ⟨hs, n, rfl⟩, rfl⟩
      | established n =>
        have hmem := (mem_takeEstablished hr.names).mpr hs
        exact .inr (.inr (List.mem_map.mpr ⟨_, hmem, rfl⟩))
    · exact .inr (.inl ht)
  · rintro d n ⟨s, hs, rfl⟩
    obtain ⟨hs, n, rfl⟩ := (slot?_take hr.names).mp hs
    rw [taken_take, List.mem_append, not_or]
    refine ⟨ha.held ⟨_, hs, rfl⟩, ?_⟩
    intro hmem
    obtain ⟨⟨e, k⟩, he, rfl⟩ := List.mem_map.mp hmem
    rw [mem_takeEstablished hr.names] at he
    obtain rfl := hr.holds_unique ⟨_, hs, rfl⟩ ⟨_, he, rfl⟩
    rw [hs] at he
    simp at he
  · intro d n h
    rw [flatten_takes_take, List.mem_append, mem_takeEstablished hr.names] at h
    rcases h with h | h
    · exact ha.taken h
    · exact ⟨hr.database h, hr.established h⟩
  -- what is taken was held, and what is held was not taken before
  · rw [taken_take, List.nodup_append]
    refine ⟨ha.once, hr.nodup_taken, ?_⟩
    rintro n hn k hk rfl
    obtain ⟨⟨e, k⟩, he, rfl⟩ := List.mem_map.mp hk
    rw [mem_takeEstablished hr.names] at he
    exact ha.held ⟨_, he, rfl⟩ hn

theorem Accounted.move (ha : r.Accounted) (hr : r.Consistent) (h : Move c r s) :
    s.Accounted := by
  cases h with
  | drift world log => exact ⟨ha.opened, ha.held, ha.taken, ha.once⟩
  | query he => exact ⟨ha.opened, ha.held, ha.taken, ha.once⟩
  | launch hd => exact ha.launch hd
  | fulfil hn _ =>
    obtain ⟨hdb, ho⟩ := attempts_eq_some.mp hn
    exact ha.fulfil hr hdb ho _
  | settle d ho => exact ha.settle d ho
  | take => exact ha.take hr
  | close d n => exact ⟨ha.opened, ha.held, ha.taken, ha.once⟩

/-! ## Connect calls -/

theorem Recorded.fulfil (hc : r.Recorded) {n : ConnectionId} {d : String}
    (hn : r.database? n = some d) (outcome : Except Failure Unit) :
    (r.fulfil n d outcome).Recorded := by
  obtain ⟨o, hget⟩ := database?_eq_some.mp hn
  obtain ⟨hlt, hget'⟩ := List.getElem?_eq_some_iff.mp hget
  refine Eq.trans hc (List.ext_getElem? fun k => ?_)
  simp only [Registry.fulfil, List.getElem?_mapIdx, List.getElem?_set]
  split
  · rename_i hk
    subst hk
    simp [hlt, hget']
  · rfl

theorem Recorded.move (hc : r.Recorded) (h : Move c r s) : s.Recorded := by
  cases h with
  | drift world log => exact hc
  | query he =>
    rename_i e
    have hcalls : (r.note e).connectCalls = r.connectCalls := by
      simp [connectCalls, note, he.connect?]
    exact hcalls.trans hc
  | launch hd =>
    rename_i d
    have hcalls := connectCalls_launch r d
    rw [hc] at hcalls
    simpa [Recorded, Registry.launch] using hcalls
  | fulfil hn _ => exact hc.fulfil (attempts_eq_some.mp hn).1 _
  | settle d ho =>
    rename_i n outcome
    obtain ⟨hatt, htr, haddr⟩ := settle_frame r d n outcome
    simpa only [Recorded, connectCalls, hatt, htr, haddr] using hc
  | take => exact hc
  | close d n =>
    have hcalls : (r.note (.close n d)).connectCalls = r.connectCalls := by
      simp [connectCalls, note, Event.connect?]
    exact hcalls.trans hc

/-! ## Together -/

/-- What holds of a registry in every run. -/
structure Valid (r : Registry ω) : Prop where
  consistent : r.Consistent
  accounted : r.Accounted
  recorded : r.Recorded

theorem valid_initial (address : BaseAddress) (world : ω) :
    (initial address world).Valid := by
  refine ⟨⟨.nil, ?_, ?_, ?_, ?_⟩, ⟨?_, ?_, ?_, .nil⟩, rfl⟩
  all_goals simp [initial, slot?, Entries.get?, database?, Opened, Holds]

theorem Valid.move (hv : r.Valid) (h : Move c r s) : s.Valid :=
  ⟨hv.consistent.move h, hv.accounted.move hv.consistent h, hv.recorded.move h⟩

theorem Valid.moves (hv : r.Valid) (h : Moves c r s) : s.Valid := by
  induction h with
  | refl => exact hv
  | tail _ h ih => exact ih.move h

end Registry

namespace Machine

variable {ω : Type} {c : Connector ω}

/-- Every run keeps its registry valid. -/
theorem run_valid (c : Connector ω) (address : BaseAddress) (world : ω)
    (actions : List (Action ω)) :
    ((initial address world).run c actions).registry.Valid :=
  (Registry.valid_initial address world).moves (run_moves (initial address world) actions)

end Machine

end Gateway

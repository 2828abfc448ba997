import Gateway.Proofs.Registry.Taking

/-!
# The drain loop ends

Draining is a loop: collect the attempts in flight, wait until each has its outcome, settle
them and look again. Nothing in it counts its rounds. `DrainLoop` is the loop as such, with
as many rounds as it takes, so to have it for some rounds is to know that it ends.

It ends since a round that is over leaves none of its attempts in flight: settling moves
every slot that still holds one of them, and no other (`Round.Clears`). What a look after
such a round finds was therefore launched while the task waited, and after a round over
these nothing is left, as nobody else gets a turn in between. The polls of closing tasks are
this loop (`exists_closePoll`): the count of rounds that they keep never comes into play.
-/

namespace Gateway

variable {ω : Type} {c : Connector ω} {r s : Registry ω}

/-! ## Settling a whole round -/

namespace Registry

variable {ws : List (String × ConnectionId)} {d : String} {n : ConnectionId}

/-- Settling an attempt that the slot of a database does not hold leaves that slot alone. -/
theorem slot?_settle_of_ne {e : String} {k : ConnectionId} (o : Except Failure Unit)
    (h : e = d → r.slot? d ≠ some (.connecting k)) : (r.settle e k o).slot? d = r.slot? d := by
  by_cases hs : r.slot? e = some (.connecting k)
  · have hne : d ≠ e := by
      rintro rfl
      exact h rfl hs
    rw [slot?_settle hs, if_neg hne]
  · rw [settle_of_ne o hs]

/-- A slot that holds none of the attempts that are settled stays as it is. -/
theorem slot?_settleAll_of_notMem (h : ∀ n, (d, n) ∈ ws → r.slot? d ≠ some (.connecting n)) :
    (r.settleAll ws).slot? d = r.slot? d := by
  induction ws generalizing r with
  | nil => rfl
  | cons w ws ih =>
      have htail : ∀ n, (d, n) ∈ ws → r.slot? d ≠ some (.connecting n) :=
        fun n hn => h n (List.mem_cons_of_mem w hn)
      simp only [settleAll]
      split
      · rename_i o _
        have hs : (r.settle w.1 w.2 o).slot? d = r.slot? d :=
          slot?_settle_of_ne o fun hd => h w.2 (hd ▸ List.mem_cons_self)
        rw [ih (by rwa [hs]), hs]
      · exact ih htail

/-- A slot that holds one of the attempts that are settled moves forward by its outcome. -/
theorem slot?_settleAll_of_mem (hmem : (d, n) ∈ ws) (hs : r.slot? d = some (.connecting n))
    {o : Except Failure Unit} (ho : r.outcome? n = some o) :
    (r.settleAll ws).slot? d = o.toOption.map fun _ => .established n := by
  induction ws generalizing r with
  | nil => exact absurd hmem List.not_mem_nil
  | cons w ws ih =>
      by_cases hw : w = (d, n)
      -- its own turn: from then on the slot holds no attempt
      · subst hw
        have hmoved := slot?_settle hs o d
        rw [if_pos rfl] at hmoved
        simp only [settleAll, ho]
        rw [slot?_settleAll_of_notMem, hmoved]
        intro k _
        rw [hmoved]
        cases o <;> simp [Except.toOption]
      · have hrest := (List.mem_cons.mp hmem).resolve_left (Ne.symm hw)
        simp only [settleAll]
        split
        · rename_i o' _
          have hstays : (r.settle w.1 w.2 o').slot? d = r.slot? d := by
            refine slot?_settle_of_ne o' fun hd hk => hw ?_
            rw [hs] at hk
            exact Prod.ext hd (Slot.connecting.inj (Option.some.inj hk)).symm
          exact ih hrest (hstays.trans hs) ((outcome?_settle ..).trans ho)
        · exact ih hrest hs ho

end Registry

/-! ## Rounds -/

/-- A round of draining: the attempts that it collected, and the registry that it began and
ended with. -/
structure Round (ω : Type) where
  waiting : List (String × ConnectionId)
  before : Registry ω
  after : Registry ω

namespace Round

/-- The round is over: each attempt that it collected has its outcome. -/
def Over (round : Round ω) : Prop := ∀ w ∈ round.waiting, round.after.outcome? w.2 ≠ none

/-- What a round that is over does to the slots. -/
structure Clears (round : Round ω) : Prop where
  /-- No slot has an attempt that it collected any more. -/
  gone : ∀ {d e : String} {n : ConnectionId}, (d, n) ∈ round.waiting →
    round.after.slot? e ≠ some (.connecting n)
  /-- A slot that had one moves forward by its outcome. -/
  moved : ∀ {d : String} {n : ConnectionId}, (d, n) ∈ round.waiting →
    round.before.slot? d = some (.connecting n) →
      ∃ o, round.after.outcome? n = some o ∧
        round.after.slot? d = o.toOption.map fun _ => .established n
  /-- The others stay, also where a newer attempt has taken the place of one collected. -/
  kept : ∀ {d : String},
    (∀ n, (d, n) ∈ round.waiting → round.before.slot? d ≠ some (.connecting n)) →
      round.after.slot? d = round.before.slot? d

end Round

namespace Registry

/-- The registry after some rounds. -/
def afterRounds : Registry ω → List (Round ω) → Registry ω
  | r, [] => r
  | _, round :: rounds => afterRounds round.after rounds

/-- Draining with as many rounds as it takes, from the attempts that are waited for: its
rounds, and what it comes to. -/
inductive DrainLoop (c : Connector ω) : List (String × ConnectionId) → Registry ω →
    List (Round ω) → Option (List (String × ConnectionId)) × Registry ω → Prop
  /-- There is nothing to wait for. -/
  | done {r : Registry ω} : DrainLoop c [] r [] (none, r)
  /-- The round has to be waited for. -/
  | wait {r s : Registry ω} {ws : List (String × ConnectionId)} (hne : ws ≠ [])
      (h : r.advanceAll c ws = (false, s)) : DrainLoop c ws r [⟨ws, r, s⟩] (some ws, s)
  /-- The round is over, and a look follows. -/
  | turn {r s : Registry ω} {ws : List (String × ConnectionId)} {rounds : List (Round ω)}
      {p : Option (List (String × ConnectionId)) × Registry ω} (hne : ws ≠ [])
      (h : r.advanceAll c ws = (true, s))
      (hrest : DrainLoop c (s.settleAll ws).inFlight (s.settleAll ws) rounds p) :
      DrainLoop c ws r (⟨ws, r, s.settleAll ws⟩ :: rounds) p

variable {ws : List (String × ConnectionId)} {rounds : List (Round ω)}
  {p : Option (List (String × ConnectionId)) × Registry ω}

/-- Draining with any count of rounds above those that it takes is the loop. -/
theorem DrainLoop.drain_eq (h : DrainLoop c ws r rounds p) {count : Nat}
    (hcount : rounds.length < count) : r.drain c count ws = p := by
  induction h generalizing count with
  | done =>
    obtain ⟨k, rfl⟩ := Nat.exists_eq_add_of_lt hcount
    exact drain_nil _ _
  | wait hne h =>
    obtain ⟨k, rfl⟩ := Nat.exists_eq_add_of_lt hcount
    rw [drain_of_unanswered _ hne (by rw [h]), h]
  | turn hne h _ ih =>
    obtain ⟨k, rfl⟩ := Nat.exists_eq_add_of_lt hcount
    rw [drain_of_answered _ hne (by rw [h]), h]
    refine ih ?_
    rw [List.length_cons]
    omega

/-- The loop goes one way only. -/
theorem DrainLoop.unique (h : DrainLoop c ws r rounds p) {rounds' : List (Round ω)}
    {p' : Option (List (String × ConnectionId)) × Registry ω}
    (h' : DrainLoop c ws r rounds' p') : rounds = rounds' ∧ p = p' := by
  induction h generalizing rounds' p' with
  | done =>
    cases h' with
    | done => exact ⟨rfl, rfl⟩
    | wait hne _ => exact absurd rfl hne
    | turn hne _ _ => exact absurd rfl hne
  | wait hne h =>
    cases h' with
    | done => exact absurd rfl hne
    | wait _ h' =>
      obtain ⟨-, rfl⟩ := Prod.mk.inj (h.symm.trans h')
      exact ⟨rfl, rfl⟩
    | turn _ h' _ => exact absurd (h.symm.trans h') (by simp)
  | turn hne h _ ih =>
    cases h' with
    | done => exact absurd rfl hne
    | wait _ h' => exact absurd (h.symm.trans h') (by simp)
    | turn _ h' hrest =>
      obtain ⟨-, rfl⟩ := Prod.mk.inj (h.symm.trans h')
      obtain ⟨rfl, rfl⟩ := ih hrest
      exact ⟨rfl, rfl⟩

/-! ## What a round does -/

theorem outcome?_settleAll (ws : List (String × ConnectionId)) (r : Registry ω)
    (n : ConnectionId) : (r.settleAll ws).outcome? n = r.outcome? n := by
  rw [outcome?, outcome?, settleAll_attempts]

theorem inFlight_congr (h : s.slots = r.slots) : s.inFlight = r.inFlight := by
  rw [inFlight, h]
  rfl

theorem slots_of_asked {all : Bool} (h : r.advanceAll c ws = (all, s)) : s.slots = r.slots := by
  have hslots := advanceAll_slots (c := c) ws r
  rwa [h] at hslots

theorem moves_of_asked {all : Bool} (h : r.advanceAll c ws = (all, s)) : Moves c r s := by
  have hm := advanceAll_moves (c := c) ws r
  rwa [h] at hm

theorem consistent_of_asked (hr : r.Consistent) {all : Bool}
    (h : r.advanceAll c ws = (all, s)) : (s.settleAll ws).Consistent :=
  hr.moves ((moves_of_asked h).trans (settleAll_moves ws s))

theorem over_of_answered (h : r.advanceAll c ws = (true, s)) :
    Round.Over ⟨ws, r, s.settleAll ws⟩ := by
  intro w hw
  have ho := outcome?_of_advanceAll (c := c) r (by rw [h]) hw
  rw [h] at ho
  rwa [outcome?_settleAll]

theorem not_over_of_unanswered (hw : r.Awaits ws) (h : r.advanceAll c ws = (false, s)) :
    ¬ Round.Over ⟨ws, r, s⟩ := by
  obtain ⟨w, hmem, hnone⟩ := exists_unanswered_of_advanceAll (c := c) hw.nodup r (by rw [h])
  rw [h] at hnone
  exact fun hover => hover w hmem hnone

theorem clears_of_answered (hr : r.Consistent) (hw : r.Awaits ws)
    (h : r.advanceAll c ws = (true, s)) : Round.Clears ⟨ws, r, s.settleAll ws⟩ := by
  have hover := over_of_answered h
  have hm := moves_of_asked h
  have hslot : ∀ e, s.slot? e = r.slot? e := fun e => by rw [slot?, slot?, slots_of_asked h]
  refine ⟨?_, ?_, ?_⟩
  · intro d e n hmem hs
    obtain ⟨hs, hnone⟩ := connecting_of_settleAll hs
    -- the slot that has it is that of its own database
    have he := (hr.moves hm).database hs
    rw [Slot.attempt, hm.grows.database (hw.database hmem)] at he
    obtain rfl := Option.some.inj he
    exact hover _ hmem ((outcome?_settleAll ..).trans (hnone hmem))
  · intro d n hmem hs
    obtain ⟨o, ho⟩ := Option.ne_none_iff_exists'.mp (hover _ hmem)
    refine ⟨o, ho, ?_⟩
    rw [outcome?_settleAll] at ho
    exact slot?_settleAll_of_mem hmem ((hslot d).trans hs) ho
  · intro d hd
    refine Eq.trans (slot?_settleAll_of_notMem fun n hn => ?_) (hslot d)
    rw [hslot]
    exact hd n hn

/-! ## Loops -/

theorem DrainLoop.clears (h : DrainLoop c ws r rounds p) (hr : r.Consistent) (hw : r.Awaits ws) :
    ∀ round ∈ rounds, round.Over → round.Clears := by
  induction h with
  | done => exact fun _ hmem => absurd hmem List.not_mem_nil
  | wait _ h =>
    intro round hmem hover
    obtain rfl := List.mem_singleton.mp hmem
    exact absurd hover (not_over_of_unanswered hw h)
  | turn _ h _ ih =>
    intro round hmem hover
    rcases List.mem_cons.mp hmem with rfl | hmem
    · exact clears_of_answered hr hw h
    · have hr' := consistent_of_asked hr h
      exact ih hr' (awaits_inFlight hr') round hmem hover

/-- The loop ends with the registry of its last round. -/
theorem DrainLoop.after_eq (h : DrainLoop c ws r rounds p) : p.2 = r.afterRounds rounds := by
  induction h with
  | done => rfl
  | wait _ _ => rfl
  | turn _ _ _ ih => exact ih

/-- A loop that has to wait does so in its last round, and has finished those before. -/
theorem DrainLoop.last (h : DrainLoop c ws r rounds p) {ws' : List (String × ConnectionId)}
    (hp : p.1 = some ws') : ∃ finished round, rounds = finished ++ [round] ∧
      round.waiting = ws' ∧ ∀ other ∈ finished, other.Over := by
  induction h with
  | done => simp at hp
  | wait _ _ => exact ⟨[], _, rfl, Option.some.inj hp, by simp⟩
  | turn _ h _ ih =>
    obtain ⟨finished, round, rfl, hround, hover⟩ := ih hp
    refine ⟨_ :: finished, round, rfl, hround, ?_⟩
    intro other hmem
    rcases List.mem_cons.mp hmem with rfl | hmem
    · exact over_of_answered h
    · exact hover other hmem

/-- A loop that has to wait for others than at its beginning waits for all in flight. -/
theorem DrainLoop.inFlight_eq (h : DrainLoop c ws r rounds p)
    {ws' : List (String × ConnectionId)} (hp : p.1 = some ws') :
    (ws' = ws ∧ p.2.slots = r.slots) ∨ p.2.inFlight = ws' := by
  induction h with
  | done => simp at hp
  | wait _ h => exact .inl ⟨(Option.some.inj hp).symm, slots_of_asked h⟩
  | turn _ _ _ ih =>
    right
    rcases ih hp with ⟨rfl, hslots⟩ | h
    · exact inFlight_congr hslots
    · exact h

/-- What the loop comes to leaves an attempt to wait for, or none in flight. -/
theorem DrainLoop.drained (h : DrainLoop c ws r rounds p) (hr : r.Consistent) (hw : r.Awaits ws)
    (hnil : ws = [] → r.inFlight = []) : Drained p := by
  induction h with
  | done => exact hnil rfl
  | wait _ h =>
    have hd := drained_of_unanswered (c := c) hw (by rw [h])
    rwa [h] at hd
  | turn _ h _ ih =>
    have hr' := consistent_of_asked hr h
    exact ih hr' (awaits_inFlight hr') id

/-- A loop that does not have to wait has finished all its rounds. -/
theorem DrainLoop.over (h : DrainLoop c ws r rounds p) (hp : p.1 = none) :
    ∀ round ∈ rounds, round.Over := by
  induction h with
  | done => exact fun _ hmem => absurd hmem List.not_mem_nil
  | wait _ _ => simp at hp
  | turn _ h _ ih =>
    intro round hmem
    rcases List.mem_cons.mp hmem with rfl | hmem
    · exact over_of_answered h
    · exact ih hp round hmem

theorem drainLoop_of_inFlight_nil (h : r.inFlight = []) :
    DrainLoop c r.inFlight r [] (none, r) := by
  rw [h]
  exact .done

/-- A loop that begins with a look has one round at most, over all attempts in flight. -/
theorem exists_drainLoop_inFlight (hr : r.Consistent) :
    ∃ rounds p, DrainLoop c r.inFlight r rounds p ∧ rounds.length ≤ 1 ∧
      ∀ round ∈ rounds, round.waiting = r.inFlight := by
  by_cases hne : r.inFlight = []
  · exact ⟨[], _, drainLoop_of_inFlight_nil hne, Nat.zero_le 1, by simp⟩
  · rcases h : r.advanceAll c r.inFlight with ⟨_ | _, s⟩
    · exact ⟨_, _, .wait hne h, Nat.le_refl 1, by simp⟩
    · have hnil := inFlight_settleAll hr (by rw [h])
      rw [h] at hnil
      exact ⟨_, _, .turn hne h (drainLoop_of_inFlight_nil hnil), Nat.le_refl 1, by simp⟩

/-- A loop that begins in a round has one more at most, over attempts that were in flight and
are not of that round. -/
theorem exists_drainLoop (hr : r.Consistent) (hne : ws ≠ []) :
    ∃ first further p, DrainLoop c ws r (first :: further) p ∧ first.waiting = ws ∧
      further.length ≤ 1 ∧ ∀ round ∈ further, ∀ d n, (d, n) ∈ round.waiting →
        r.slot? d = some (.connecting n) ∧ (d, n) ∉ ws := by
  rcases h : r.advanceAll c ws with ⟨_ | _, s⟩
  · exact ⟨_, [], _, .wait hne h, rfl, Nat.zero_le 1, by simp⟩
  · have hover := over_of_answered h
    have hr' := consistent_of_asked hr h
    obtain ⟨further, p, hloop, hlen, hall⟩ := exists_drainLoop_inFlight (c := c) hr'
    refine ⟨_, further, p, .turn hne h hloop, rfl, hlen, ?_⟩
    intro round hmem d n hdn
    rw [hall round hmem, mem_inFlight hr'] at hdn
    obtain ⟨hs, hnone⟩ := connecting_of_settleAll hdn
    rw [slot?, slots_of_asked h] at hs
    exact ⟨hs, fun hw => hover _ hw ((outcome?_settleAll ..).trans (hnone hw))⟩

/-! ## Polls -/

/-- What a closing task does with what its draining comes to. -/
def goOn (c : Connector ω) : Option (List (String × ConnectionId)) × Registry ω →
    Progress Closing (Except Failure Unit) × Registry ω
  | (some ws, r) => (.pending (.draining ws), r)
  | (none, r) =>
    let (taken, r) := r.takeEstablished
    r.goOnClosing c ⟨[], taken⟩

theorem goOn_pending (h : (goOn c p).1 = .pending (.draining ws)) :
    p.1 = some ws ∧ (goOn c p).2 = p.2 := by
  rcases p with ⟨_ | ws', r⟩
  · exact absurd (finishClose_pending h) (by simp)
  · exact ⟨congrArg some (Closing.draining.inj (Progress.pending.inj h)), rfl⟩

/-- The count of rounds that a poll keeps does not come into play. -/
theorem DrainLoop.drainAndClose_eq (h : DrainLoop c ws r rounds p) (hlen : rounds.length ≤ 2) :
    r.drainAndClose c ws = goOn c p := by
  have hdrain : r.drain c maxRounds ws = p := h.drain_eq (Nat.lt_succ_of_le hlen)
  rcases p with ⟨_ | _, s⟩
  all_goals rw [drainAndClose, hdrain]; rfl

/-- A poll of a closing task, with its rounds of draining and what it gives. -/
inductive ClosePoll (c : Connector ω) : Closing → Registry ω → List (Round ω) →
    Progress Closing (Except Failure Unit) × Registry ω → Prop
  /-- The first poll begins with a look. -/
  | fresh {r : Registry ω} {rounds : List (Round ω)}
      {p : Option (List (String × ConnectionId)) × Registry ω}
      (h : DrainLoop c r.inFlight r rounds p) : ClosePoll c .fresh r rounds (goOn c p)
  /-- The round that the task waits in goes on. -/
  | draining {r : Registry ω} {ws : List (String × ConnectionId)} {rounds : List (Round ω)}
      {p : Option (List (String × ConnectionId)) × Registry ω}
      (h : DrainLoop c ws r rounds p) : ClosePoll c (.draining ws) r rounds (goOn c p)
  /-- Draining is behind it. -/
  | closing {r : Registry ω} {closes : Closes} :
      ClosePoll c (.closing closes) r [] (r.goOnClosing c closes)

end Registry

/-- The attempts of the round that a closing task waits in. -/
def Closing.round? : Closing → Option (List (String × ConnectionId))
  | .draining ws => some ws
  | _ => none

namespace Registry

variable {ws : List (String × ConnectionId)} {rounds : List (Round ω)} {stage : Closing}
  {p : Progress Closing (Except Failure Unit) × Registry ω}

theorem ClosePoll.unique (h : ClosePoll c stage r rounds p) {rounds' : List (Round ω)}
    {p' : Progress Closing (Except Failure Unit) × Registry ω}
    (h' : ClosePoll c stage r rounds' p') : rounds = rounds' ∧ p = p' := by
  cases h with
  | fresh h =>
    cases h' with
    | fresh h' =>
      obtain ⟨rfl, rfl⟩ := h.unique h'
      exact ⟨rfl, rfl⟩
  | draining h =>
    cases h' with
    | draining h' =>
      obtain ⟨rfl, rfl⟩ := h.unique h'
      exact ⟨rfl, rfl⟩
  | closing =>
    cases h' with
    | closing => exact ⟨rfl, rfl⟩

/-- A task that drains goes through the loop and on from what that comes to. -/
theorem ClosePoll.exists_loop (h : ClosePoll c stage r rounds p) (hr : r.Consistent)
    (hf : stage.Fits r) (hs : stage.Drains) :
    ∃ ws q, DrainLoop c ws r rounds q ∧ p = goOn c q ∧ r.Awaits ws ∧
      (ws = [] → r.inFlight = []) := by
  cases h with
  | fresh h => exact ⟨_, _, h, rfl, awaits_inFlight hr, id⟩
  | draining h => exact ⟨_, _, h, rfl, hf.2, fun hnil => absurd hnil hf.1⟩
  | closing => exact hs.elim

/-- Every poll of a closing task is one with finitely many rounds: the one that it waited in,
if any, and one more at most, over attempts in flight that it did not wait for. -/
theorem exists_closePoll (hr : r.Consistent) (hf : stage.Fits r) :
    ∃ waited further, ClosePoll c stage r (waited ++ further) (r.pollClose c stage) ∧
      waited.map Round.waiting = stage.round?.toList ∧ further.length ≤ 1 ∧
      ∀ ws, stage = .draining ws → ∀ round ∈ further, ∀ d n, (d, n) ∈ round.waiting →
        r.slot? d = some (.connecting n) ∧ (d, n) ∉ ws := by
  cases stage with
  | fresh =>
    obtain ⟨rounds, q, hloop, hlen, -⟩ := exists_drainLoop_inFlight (c := c) hr
    have hpoll : r.pollClose c .fresh = goOn c q := hloop.drainAndClose_eq (by omega)
    exact ⟨[], rounds, hpoll ▸ .fresh hloop, rfl, hlen, by simp⟩
  | draining ws =>
    obtain ⟨first, further, q, hloop, hfirst, hlen, hnew⟩ := exists_drainLoop (c := c) hr hf.1
    have hpoll : r.pollClose c (.draining ws) = goOn c q :=
      hloop.drainAndClose_eq (by rw [List.length_cons]; omega)
    refine ⟨[first], further, hpoll ▸ .draining hloop, by rw [← hfirst]; rfl, hlen, ?_⟩
    rintro ws' ⟨⟩
    exact hnew
  | closing closes => exact ⟨[], [], .closing, rfl, Nat.zero_le 1, by simp⟩

theorem ClosePoll.clears (h : ClosePoll c stage r rounds p) (hr : r.Consistent)
    (hf : stage.Fits r) : ∀ round ∈ rounds, round.Over → round.Clears := by
  by_cases hs : stage.Drains
  · obtain ⟨ws, q, hloop, -, hw, -⟩ := h.exists_loop hr hf hs
    exact hloop.clears hr hw
  · cases h with
    | fresh _ => exact absurd trivial hs
    | draining _ => exact absurd trivial hs
    | closing => exact fun _ hmem => absurd hmem List.not_mem_nil

/-- A poll of a task that drains waits for an attempt of its last round, or has finished all
its rounds, has found no attempt in flight, and takes the connections. -/
theorem ClosePoll.ends (h : ClosePoll c stage r rounds p) (hp : r.pollClose c stage = p)
    (hv : r.Valid) (hf : stage.Fits r) (hs : stage.Drains) :
    (∃ finished round, rounds = finished ++ [round] ∧ (∀ other ∈ finished, other.Over) ∧
      p.1 = .pending (.draining round.waiting) ∧ ∃ w ∈ round.waiting, p.2.outcome? w.2 = none) ∨
    ((∀ round ∈ rounds, round.Over) ∧ (r.afterRounds rounds).inFlight = [] ∧
      ∃ taken started, r.Takes p.2 taken started) := by
  obtain ⟨ws, q, hloop, rfl, hw, hnil⟩ := h.exists_loop hv.consistent hf hs
  have hd := hloop.drained hv.consistent hw hnil
  rcases q with ⟨_ | ws', s⟩
  · right
    have hafter : s = r.afterRounds rounds := hloop.after_eq
    refine ⟨hloop.over rfl, hafter ▸ hd, ?_⟩
    rw [← hp]
    rcases pollClose_cases (c := c) hv hf hs with
      ⟨ws', hpending, -⟩ | ⟨taken, -, started, -, -, htakes, -⟩
    · rw [hp] at hpending
      exact absurd (goOn_pending hpending).1 (by simp)
    · exact ⟨taken, started, htakes⟩
  · left
    obtain ⟨finished, round, hrounds, rfl, hover⟩ := hloop.last rfl
    exact ⟨finished, round, hrounds, hover, rfl, hd.2⟩

/-- A poll that puts the task to wait for a round leaves just the attempts of this round in
flight. -/
theorem inFlight_of_pollClose (hr : r.Consistent) (hf : stage.Fits r)
    (h : (r.pollClose c stage).1 = .pending (.draining ws)) (hne : stage ≠ .draining ws) :
    (r.pollClose c stage).2.inFlight = ws := by
  obtain ⟨waited, further, hpoll, -⟩ := exists_closePoll (c := c) hr hf
  generalize r.pollClose c stage = p at h hpoll ⊢
  generalize waited ++ further = rounds at hpoll
  cases hpoll with
  | fresh hloop =>
    obtain ⟨hq, hafter⟩ := goOn_pending h
    rw [hafter]
    rcases hloop.inFlight_eq hq with ⟨rfl, hslots⟩ | hall
    · exact inFlight_congr hslots
    · exact hall
  | draining hloop =>
    obtain ⟨hq, hafter⟩ := goOn_pending h
    rw [hafter]
    rcases hloop.inFlight_eq hq with ⟨rfl, -⟩ | hall
    · exact absurd rfl hne
    · exact hall
  | closing => exact absurd (finishClose_pending h) (by simp)

end Registry

end Gateway

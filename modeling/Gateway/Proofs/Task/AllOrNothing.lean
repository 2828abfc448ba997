import Gateway.Proofs.Task.Course
import Gateway.Store.Memory

/-!
# Requests are all or nothing

Of every request that returns it is known what it did (`AllOrNothing`): it started at most one
find and at most one count, both as compiled from the request, and none after something had
failed. Its result is what the calls answered if nothing failed, and else the one failure that
there was, as it came.

The find and the count of a request need not go to the same connection. They do if and only if
that of the find was not taken by a closing task when the count was started; it may have been
taken before the find was even started (`count_elsewhere`), since who waits for a connection
gets it also when it is taken meanwhile.
-/

namespace Gateway

open Registry Request

variable {ω : Type} {c : Connector ω}

def Call.isFind : Call → Bool
  | .find .. => true
  | .count .. => false

/-- Something is so of each visit and those before it. -/
def EachVisit (P : List (Visit ω) → Visit ω → Prop) (visits : List (Visit ω)) : Prop :=
  ∀ us v ws, visits = us ++ v :: ws → P us v

theorem eq_or_append_of_snoc_eq {α : Type} {vs us ws : List α} {v w : α}
    (h : vs ++ [w] = us ++ v :: ws) :
    us = vs ∧ v = w ∧ ws = [] ∨ ∃ ws', vs = us ++ v :: ws' := by
  rcases List.eq_nil_or_concat ws with rfl | ⟨ws', x, rfl⟩
  · obtain ⟨rfl, hv⟩ := List.append_inj' h rfl
    exact .inl ⟨rfl, (List.cons.inj hv).1.symm, rfl⟩
  · rw [List.concat_eq_append, ← List.cons_append, ← List.append_assoc] at h
    exact .inr ⟨ws', (List.append_inj' h rfl).1⟩

theorem EachVisit.snoc {P : List (Visit ω) → Visit ω → Prop} {vs : List (Visit ω)} {v : Visit ω}
    (h : EachVisit P vs) (hv : P vs v) : EachVisit P (vs ++ [v]) := by
  intro us u ws hsplit
  rcases eq_or_append_of_snoc_eq hsplit with ⟨rfl, rfl, -⟩ | ⟨ws', hvs⟩
  · exact hv
  · exact h us u ws' hvs

/-- The calls of a request carry its collection and what it is compiled to. -/
def Request.Carries (req : Request) (call : Call) : Prop :=
  ∃ n, call = .find n req.collection req.compile ∨
    call = .count n req.collection req.compile.filter

/-- The answers of the calls of a request, and what it makes of them. -/
def Tells (kind : RequestKind) (req : Request) (answered : List CallAnswer) (outcome : Outcome) :
    Prop :=
  match kind with
  | .page => ∃ n docs, answered = [.found n req.collection req.compile (.ok docs)] ∧
      outcome = .answer (.page ⟨none, docs⟩)
  | .pageWithTotal => ∃ n docs k total,
      answered = [.found n req.collection req.compile (.ok docs),
        .counted k req.collection req.compile.filter (.ok total)] ∧
      outcome = .answer (.page ⟨some total, docs⟩)
  | .total => ∃ k total,
      answered = [.counted k req.collection req.compile.filter (.ok total)] ∧
      outcome = .answer (.total total)

/-- What is known of a request that has returned. -/
structure AllOrNothing (c : Connector ω) (kind : RequestKind) (req : Request)
    (visits : List (Visit ω)) (result : Except Failure Outcome) : Prop where
  finds : (historyOf c visits).issued.countP Call.isFind ≤ 1
  counts : (historyOf c visits).issued.countP (!Call.isFind ·) ≤ 1
  carries : ∀ call ∈ (historyOf c visits).issued, req.Carries call
  /-- With an acquire call that fails the last visit is over. -/
  stops : ∀ us v ws, visits = us ++ v :: ws → ∀ a ∈ v.task.acquisitions c v.registry, ∀ f,
    a.progress c = .ready (.error f) → ws = [] ∧ v.after c = a.after c
  /-- A count beside a page is started after a find that succeeded, and on the same connection
  unless a closing task has taken that by then. -/
  follows : kind = .pageWithTotal → ∀ us v ws, visits = us ++ v :: ws →
    ∀ k collection filter, .count k collection filter ∈ v.issued c →
      ∃ n docs, .find n req.collection req.compile ∈ (historyOf c (us ++ [v])).issued ∧
        .found n req.collection req.compile (.ok docs) ∈ (historyOf c (us ++ [v])).answered ∧
        (k = n ↔ n ∉ v.registry.taken)
  answered : (historyOf c visits).answered.map CallAnswer.call = (historyOf c visits).issued
  failures : (historyOf c visits).acquired.filterMap failure? ++
    (historyOf c visits).answered.filterMap CallAnswer.failure? = (failure? result).toList
  tells : ∀ outcome, result = .ok outcome →
    Tells kind req (historyOf c visits).answered outcome

/-! ## Histories that end -/

namespace Request

variable {kind : RequestKind} {req : Request} {H : History}

/-- What comes before a count, and the page of it. -/
theorem CountsFrom.succeeds {data : Option (List Document)} (h : CountsFrom kind req data H) :
    H.acquired.filterMap failure? = [] ∧ H.answered.filterMap CallAnswer.failure? = [] ∧
      H.answered.map CallAnswer.call = H.issued := by
  cases h with
  | total => exact ⟨rfl, rfl, rfl⟩
  | page _ n docs => exact ⟨rfl, rfl, rfl⟩

variable {x : Except Failure Answer}

theorem Ends.finds (h : Ends kind req H x) : H.issued.countP Call.isFind ≤ 1 := by
  rcases h with ⟨_, _⟩ | ⟨_, _, _⟩ | ⟨_, _, _⟩ | ⟨h, _⟩ | ⟨h, _, _⟩
  · exact Nat.zero_le 1
  · exact Nat.le_refl 1
  · exact Nat.le_refl 1
  · cases h
    · exact Nat.zero_le 1
    · exact Nat.le_refl 1
  · cases h
    · exact Nat.zero_le 1
    · exact Nat.le_refl 1

theorem Ends.counts (h : Ends kind req H x) : H.issued.countP (!Call.isFind ·) ≤ 1 := by
  rcases h with ⟨_, _⟩ | ⟨_, _, _⟩ | ⟨_, _, _⟩ | ⟨h, _⟩ | ⟨h, _, _⟩
  · exact Nat.zero_le 1
  · exact Nat.zero_le 1
  · exact Nat.zero_le 1
  · cases h <;> exact Nat.zero_le 1
  · cases h <;> exact Nat.le_refl 1

theorem CountsFrom.carries {data : Option (List Document)} (h : CountsFrom kind req data H) :
    ∀ call ∈ H.issued, req.Carries call := by
  intro call hcall
  cases h with
  | total => cases hcall
  | page _ n docs => exact ⟨n, .inl (List.mem_singleton.mp hcall)⟩

theorem Ends.carries (h : Ends kind req H x) : ∀ call ∈ H.issued, req.Carries call := by
  intro call hcall
  cases h with
  | unacquired => cases hcall
  | findFailed _ n f => exact ⟨n, .inl (List.mem_singleton.mp hcall)⟩
  | page _ n docs => exact ⟨n, .inl (List.mem_singleton.mp hcall)⟩
  | uncounted h f =>
    rcases List.mem_append.mp hcall with hcall | hcall
    · exact h.carries call hcall
    · cases hcall
  | counted h n answer =>
    rcases List.mem_append.mp hcall with hcall | hcall
    · exact h.carries call hcall
    · exact ⟨n, .inr (List.mem_singleton.mp hcall)⟩

theorem Ends.answered (h : Ends kind req H x) : H.answered.map CallAnswer.call = H.issued := by
  cases h with
  | unacquired => rfl
  | findFailed => rfl
  | page => rfl
  | uncounted h f =>
    obtain ⟨-, -, hanswered⟩ := h.succeeds
    rw [History.append_answered, List.map_append, hanswered]
    rfl
  | counted h n answer =>
    obtain ⟨-, -, hanswered⟩ := h.succeeds
    rw [History.append_answered, List.map_append, hanswered]
    rfl

/-- A request ends with a failure if and only if it met one, and then with that one. -/
theorem Ends.failures (h : Ends kind req H x) :
    H.acquired.filterMap failure? ++ H.answered.filterMap CallAnswer.failure? =
      (failure? x).toList := by
  cases h with
  | unacquired => rfl
  | findFailed => rfl
  | page => rfl
  | uncounted h f =>
    obtain ⟨hacquired, hanswered, -⟩ := h.succeeds
    rw [History.append_acquired, History.append_answered, List.filterMap_append,
      List.filterMap_append, hacquired, hanswered]
    rfl
  | counted h n answer =>
    obtain ⟨hacquired, hanswered, -⟩ := h.succeeds
    rw [History.append_acquired, History.append_answered, List.filterMap_append,
      List.filterMap_append, hacquired, hanswered]
    cases answer <;> rfl

theorem Ends.tells {answer : Answer} (h : Ends kind req H (.ok answer)) :
    Tells kind req H.answered (.answer answer) := by
  generalize hx : (Except.ok answer : Except Failure Answer) = y at h
  cases h with
  | unacquired => cases hx
  | findFailed => cases hx
  | page hk n docs =>
    obtain rfl := Except.ok.inj hx
    subst hk
    exact ⟨n, docs, rfl, rfl⟩
  | uncounted => cases hx
  | counted h k counted =>
    rcases counted with f | total
    · cases hx
    obtain rfl := Except.ok.inj hx
    cases h with
    | total hk =>
      subst hk
      exact ⟨k, total, rfl, rfl⟩
    | page hk n docs =>
      subst hk
      exact ⟨n, docs, k, total, rfl, rfl⟩

end Request

/-! ## Acquire calls that fail -/

namespace Registry

variable {kind : RequestKind} {req : Request} {r : Registry ω} {a : Acquisition ω} {f : Failure}

theorem acquireForCount_of_error {data : Option (List Document)} {stage : Acquiring}
    (ha : a ∈ [(⟨req.database, stage, r⟩ : Acquisition ω)])
    (hf : a.progress c = .ready (.error f)) :
    r.acquireForCount c req data stage = (.ready (.error f), a.after c) := by
  obtain rfl := List.mem_singleton.mp ha
  rcases hp : r.pollAcquire c req.database stage with ⟨p, s⟩
  simp only [Acquisition.progress, hp] at hf
  subst hf
  simp only [acquireForCount, Acquisition.after, hp]

theorem askFind_of_error {n : ConnectionId} (ha : a ∈ r.acquisitionsOfFind c kind req n)
    (hf : a.progress c = .ready (.error f)) :
    r.askFind c kind req n = (.ready (.error f), a.after c) := by
  rcases hfind : c.find n req.database req.collection req.compile r.world
    with ⟨_ | (g | docs), world⟩
  all_goals simp only [acquisitionsOfFind, hfind, List.not_mem_nil] at ha
  simp only [askFind, hfind]
  cases kind with
  | page => cases ha
  | total => cases ha
  | pageWithTotal => exact acquireForCount_of_error ha hf

theorem acquireForFind_of_error {stage : Acquiring}
    (ha : a ∈ r.acquisitionsForFind c kind req stage)
    (hf : a.progress c = .ready (.error f)) :
    r.acquireForFind c kind req stage = (.ready (.error f), a.after c) := by
  rcases hp : r.pollAcquire c req.database stage with ⟨next | (g | n), s⟩
  all_goals
    simp only [acquisitionsForFind, hp, List.mem_cons, List.not_mem_nil, or_false] at ha
    simp only [acquireForFind, hp]
  · subst ha
    simp [Acquisition.progress, hp] at hf
  · subst ha
    simp only [Acquisition.progress, hp] at hf
    obtain rfl := Except.error.inj (Progress.ready.inj hf)
    simp [Acquisition.after, hp]
  · rcases ha with rfl | ha
    · simp [Acquisition.progress, hp] at hf
    · exact askFind_of_error ha hf

/-- With an acquire call that fails a request is ready, and nothing comes after it. -/
theorem pollRequest_of_error {stage : Requesting}
    (ha : a ∈ r.requestAcquisitions c kind req stage)
    (hf : a.progress c = .ready (.error f)) :
    r.pollRequest c kind req stage = (.ready (.error f), a.after c) := by
  cases stage with
  | fresh =>
    cases kind with
    | total => exact acquireForCount_of_error ha hf
    | page => exact acquireForFind_of_error ha hf
    | pageWithTotal => exact acquireForFind_of_error ha hf
  | acquiringForFind stage => exact acquireForFind_of_error ha hf
  | finding n => exact askFind_of_error ha hf
  | acquiringForCount data stage => exact acquireForCount_of_error ha hf
  | counting n data => cases ha

end Registry

/-! ## Whole lives -/

/-- A visit of a request goes on to another one, and keeps to the course. -/
def KeepsOn (c : Connector ω) (kind : RequestKind) (req : Request) (us : List (Visit ω))
    (v : Visit ω) : Prop :=
  (∃ stage next, v.task = .request kind req stage ∧
    (v.registry.pollRequest c kind req stage).1 = .pending next) ∧
  CountFollows kind req v.registry.taken (historyOf c us) (v.history c)

/-- A request that returns kept to its course in all its visits. -/
theorem Completes.course {kind : RequestKind} {req : Request} {visits : List (Visit ω)}
    {result : Except Failure Outcome} (h : Completes c (.request kind req) visits result) :
    ∃ vs stage r answer, visits = vs ++ [⟨.request kind req stage, r⟩] ∧
      (r.pollRequest c kind req stage).1 = .ready answer ∧ result = answer.map .answer ∧
      Ends kind req (historyOf c visits) answer ∧ EachVisit (KeepsOn c kind req) vs ∧
      CountFollows kind req r.taken (historyOf c vs)
        (Visit.history c ⟨.request kind req stage, r⟩) := by
  have hlife := h.invariant (P := fun vs t r => ∃ stage, t = .request kind req stage ∧
    Stands kind req (historyOf c vs) stage r ∧ EachVisit (KeepsOn c kind req) vs) ?start ?aside ?visit
  case start =>
    intro r _
    refine ⟨.fresh, rfl, .fresh r, fun us v ws hvs => ?_⟩
    simp at hvs
  case aside =>
    rintro vs t r s _ ⟨stage, ht, hs, heach⟩ hm
    exact ⟨stage, ht, hs.aside hm, heach⟩
  case visit =>
    rintro vs _ r next hv hf ⟨stage, rfl, hs, heach⟩ hp
    obtain ⟨k, hk, rfl⟩ := Task.lift_pending hp
    obtain ⟨hgoes, hfollows⟩ := Visit.advances (c := c) hs hv hf
    rw [hk] at hgoes
    refine ⟨k, rfl, ?_, heach.snoc ⟨⟨stage, k, rfl, hk⟩, hfollows⟩⟩
    rw [historyOf_snoc]
    exact hgoes
  obtain ⟨vs, _, r, rfl, hv, hf, ⟨stage, rfl, hs, heach⟩, hp⟩ := hlife
  obtain ⟨answer, ha, rfl⟩ := Task.lift_ready hp
  obtain ⟨hgoes, hfollows⟩ := Visit.advances (c := c) hs hv hf
  rw [ha] at hgoes
  refine ⟨vs, stage, r, answer, rfl, ha, rfl, ?_, heach, hfollows⟩
  rw [historyOf_snoc]
  exact hgoes

/-- **Requests are all or nothing.** Every request that returns has started at most one find and
at most one count, and returns what they answered or the one failure that there was. -/
theorem request_allOrNothing {kind : RequestKind} {req : Request} {visits : List (Visit ω)}
    {result : Except Failure Outcome} (h : Completes c (.request kind req) visits result) :
    AllOrNothing c kind req visits result := by
  obtain ⟨vs, stage, r, answer, rfl, hready, rfl, hends, heach, hlast⟩ := h.course
  let last : Visit ω := ⟨.request kind req stage, r⟩
  -- a visit is one of those that go on, or the last
  have hsplit {us ws : List (Visit ω)} {v : Visit ω} (hvs : vs ++ [last] = us ++ v :: ws) :
      KeepsOn c kind req us v ∨ us = vs ∧ v = last ∧ ws = [] := by
    rcases eq_or_append_of_snoc_eq hvs with hlast | ⟨ws', hvs⟩
    · exact .inr hlast
    · exact .inl (heach us v ws' hvs)
  constructor
  case finds => exact hends.finds
  case counts => exact hends.counts
  case carries => exact hends.carries
  case answered => exact hends.answered
  case failures =>
    rw [hends.failures]
    cases answer <;> rfl
  case tells =>
    intro outcome hout
    rcases answer with f | answer
    · cases hout
    obtain rfl := Except.ok.inj hout
    exact hends.tells
  case stops =>
    intro us v ws hvs a ha f hf
    rcases hsplit hvs with ⟨⟨stage', next, ht, hnext⟩, -⟩ | ⟨-, rfl, rfl⟩
    · rw [ht] at ha
      rw [pollRequest_of_error ha hf] at hnext
      cases hnext
    · refine ⟨rfl, ?_⟩
      rw [Visit.after, Task.poll, Task.lift_snd, pollRequest_of_error ha hf]
  case follows =>
    intro hk us v ws hvs k collection filter hcall
    have hfollows : CountFollows kind req v.registry.taken (historyOf c us) (v.history c) := by
      rcases hsplit hvs with hkeeps | ⟨rfl, rfl, -⟩
      · exact hkeeps.2
      · exact hlast
    rw [historyOf_snoc]
    exact hfollows k collection filter hcall hk

/-! ## A count on another connection -/

/-- A request waits for its connection. A closing task waits for the same, gets it, and
closes it; then the request gets it, too. -/
def drainedMachine : Machine Store :=
  (Machine.initial ⟨"mongodb://localhost:27017/", []⟩ Store.empty).run Store.connector
    [.change (Store.insert "a" "c" [[("x", .int32 1)]]), .change (Store.shutGate "connect:a"),
      .start "1" (.request .pageWithTotal (.all "a" "c"))]

def drainedActions : List (Action Store) :=
  [.poll "1", .start "2" .close, .poll "2", .change (Store.openGate "connect:a"), .poll "2",
    .poll "1"]

/-- The visits of the request. -/
def drainedVisits : List (Visit Store) :=
  (drainedMachine.watch Store.connector "1" drainedActions).1

theorem drainedVisits_completes :
    Completes Store.connector (.request .pageWithTotal (.all "a" "c")) drainedVisits
      (.ok (.answer (.page ⟨some 1, [[("x", .int32 1)]]⟩))) := by
  refine ⟨⟨"mongodb://localhost:27017/", []⟩, Store.empty, _, drainedActions, "1",
    (by cbv : drainedMachine.task? "1" = _), Prod.ext rfl ?_⟩
  show (drainedMachine.watch Store.connector "1" drainedActions).2 = _
  cbv

theorem drainedVisits_allOrNothing :
    Completes Store.connector (.request .pageWithTotal (.all "a" "c")) drainedVisits
      (.ok (.answer (.page ⟨some 1, [[("x", .int32 1)]]⟩))) ∧
    AllOrNothing Store.connector .pageWithTotal (.all "a" "c") drainedVisits
      (.ok (.answer (.page ⟨some 1, [[("x", .int32 1)]]⟩))) :=
  ⟨drainedVisits_completes, request_allOrNothing drainedVisits_completes⟩

/-- The find and the count of a request may go to different connections although nothing is
taken between the two. -/
theorem count_elsewhere :
    ¬ ∀ (req : Request) (visits : List (Visit Store)) (result : Except Failure Outcome)
        (i j : Nat) (v w : Visit Store) (n k : ConnectionId) (query : NativeQuery)
        (filter : Document),
      Completes Store.connector (.request .pageWithTotal req) visits result →
      i ≤ j → visits[i]? = some v → visits[j]? = some w →
      .find n req.collection query ∈ v.issued Store.connector →
      .count k req.collection filter ∈ w.issued Store.connector →
      w.registry.takes = v.registry.takes → k = n := by
  intro h
  have hissued : drainedVisits.map (Visit.issued Store.connector) =
      [[], [(Request.all "a" "c").findCall 0, (Request.all "a" "c").countCall 1]] := by cbv
  have hlength : drainedVisits.length = 2 := by cbv
  obtain ⟨u, v, hvisits⟩ := List.length_eq_two.mp hlength
  have hv : drainedVisits[1]? = some v := by rw [hvisits]; rfl
  rw [hvisits] at hissued
  have hcalls : v.issued Store.connector =
      [(Request.all "a" "c").findCall 0, (Request.all "a" "c").countCall 1] :=
    (List.cons.inj (List.cons.inj hissued).2).1
  have hsame : 1 = 0 := h (.all "a" "c") drainedVisits _ 1 1 v v 0 1 _ _
    drainedVisits_completes (Nat.le_refl 1) hv hv (hcalls ▸ List.mem_cons_self)
    (hcalls ▸ List.mem_cons_of_mem _ List.mem_cons_self) rfl
  exact Nat.one_ne_zero hsame

end Gateway

import Gateway.Proofs.Registry.Ownership
import Gateway.Proofs.Task.History

/-!
# The course of a request

A request has a fixed course: it acquires, finds, acquires again and counts, as far as its kind
asks for that and until something fails. Where it stands says what its history is so far
(`Request.Stands`), and when it ends its history is one of a few (`Request.Ends`). Every poll
keeps to the course (`pollRequest_advances`), whatever others did since the one before
(`Request.Stands.aside`).

A count that comes after a find goes to the connection of the find, unless a closing task had
taken that connection by then (`acquire_again`).
-/

namespace Gateway

open Registry

variable {ω : Type} {c : Connector ω}

namespace History

/-- An acquire call came to a connection, and a call on it was started. -/
def began (n : ConnectionId) (call : Call) : History := ⟨[.ok n], [call], []⟩

def got (answer : CallAnswer) : History := ⟨[], [], [answer]⟩

/-- An acquire call failed. -/
def unacquired (f : Failure) : History := ⟨[.error f], [], []⟩

end History

namespace Request

variable (kind : RequestKind) (req : Request)

def findCall (n : ConnectionId) : Call := .find n req.collection req.compile

def countCall (n : ConnectionId) : Call := .count n req.collection req.compile.filter

/-- A find was started and got an answer. -/
def found (n : ConnectionId) (answer : Except Failure (List Document)) : History :=
  .began n (req.findCall n) ++ .got (.found n req.collection req.compile answer)

/-- A count was started and got an answer. -/
def counted (n : ConnectionId) (answer : Except Failure UInt64) : History :=
  .began n (req.countCall n) ++ .got (.counted n req.collection req.compile.filter answer)

/-- What comes before a count: nothing, or a find that succeeded with a page. -/
inductive CountsFrom : Option (List Document) → History → Prop
  | total (hk : kind = .total) : CountsFrom none .empty
  | page (hk : kind = .pageWithTotal) (n : ConnectionId) (docs : List Document) :
      CountsFrom (some docs) (req.found n (.ok docs))

/-- The find was on an open connection, and who waits for the connection of the count waits
for another one, since that of the find was taken. -/
def Parted (H : History) (stage : Acquiring) (r : Registry ω) : Prop :=
  ∀ n, req.findCall n ∈ H.issued → r.Opened req.database n ∧
    (stage = .fresh ∨ n ∈ r.taken ∧ stage ≠ .joined n)

/-- Where a request stands, with its history so far. -/
inductive Stands : History → Requesting → Registry ω → Prop
  | fresh (r : Registry ω) : Stands .empty .fresh r
  | acquiringForFind (hk : kind ≠ .total) (stage : Acquiring) (r : Registry ω) :
      Stands .empty (.acquiringForFind stage) r
  | finding (hk : kind ≠ .total) (n : ConnectionId) (r : Registry ω) :
      Stands (.began n (req.findCall n)) (.finding n) r
  | acquiringForCount {data : Option (List Document)} {H : History} {stage : Acquiring}
      {r : Registry ω} (h : CountsFrom kind req data H) (hp : req.Parted H stage r) :
      Stands H (.acquiringForCount data stage) r
  | counting {data : Option (List Document)} {H : History} (h : CountsFrom kind req data H)
      (n : ConnectionId) (r : Registry ω) :
      Stands (H ++ .began n (req.countCall n)) (.counting n data) r

/-- The histories with which a request ends, and its result. -/
inductive Ends : History → Except Failure Answer → Prop
  | unacquired (hk : kind ≠ .total) (f : Failure) : Ends (.unacquired f) (.error f)
  | findFailed (hk : kind ≠ .total) (n : ConnectionId) (f : Failure) :
      Ends (req.found n (.error f)) (.error f)
  | page (hk : kind = .page) (n : ConnectionId) (docs : List Document) :
      Ends (req.found n (.ok docs)) (.ok (.page ⟨none, docs⟩))
  | uncounted {data : Option (List Document)} {H : History} (h : CountsFrom kind req data H)
      (f : Failure) : Ends (H ++ .unacquired f) (.error f)
  | counted {data : Option (List Document)} {H : History} (h : CountsFrom kind req data H)
      (n : ConnectionId) (answer : Except Failure UInt64) :
      Ends (H ++ req.counted n answer) (answer.map (countAnswer data))

/-- A count that is started for a page comes after a find that succeeded, and goes to the
same connection unless that was taken. -/
def CountFollows (taken : List ConnectionId) (H K : History) : Prop :=
  ∀ k collection filter, .count k collection filter ∈ K.issued → kind = .pageWithTotal →
    ∃ n docs, req.findCall n ∈ (H ++ K).issued ∧
      .found n req.collection req.compile (.ok docs) ∈ (H ++ K).answered ∧
      (k = n ↔ n ∉ taken)

end Request

open Request

/-! ## Acquiring for a second time -/

/-- Who has used a connection and acquires anew comes to the same one if and only if it was
not taken. -/
theorem acquire_again {r : Registry ω} (hv : r.Valid) {d : String} {n : ConnectionId}
    (hn : r.Opened d n) {stage : Acquiring}
    (hstage : stage = .fresh ∨ n ∈ r.taken ∧ stage ≠ .joined n) :
    (∀ k, (r.pollAcquire c d stage).1 = .ready (.ok k) → (k = n ↔ n ∉ r.taken)) ∧
      ∀ next, (r.pollAcquire c d stage).1 = .pending next →
        n ∈ r.taken ∧ next ≠ .joined n := by
  have hattempt : stage.attempt d r = n ↔ n ∉ r.taken := by
    rcases hstage with rfl | ⟨htaken, hne⟩
    · constructor
      · rintro rfl
        exact hv.target_notMem_taken d
      · intro hopen
        obtain ⟨slot, hslot, rfl⟩ := (hv.accounted.opened hn).resolve_right hopen
        simp only [Acquiring.attempt, hslot]
    · cases stage with
      | joined m =>
        have hm : m ≠ n := fun h => hne (h ▸ rfl)
        exact ⟨fun h => absurd h hm, fun h => absurd htaken h⟩
      | fresh =>
        constructor
        · intro h
          exact absurd (h ▸ htaken) (hv.target_notMem_taken d)
        · exact fun h => absurd htaken h
  have hawaited := pollAcquire_awaited (c := c) hv d stage
  constructor
  · intro k hk
    rw [hk] at hawaited
    obtain ⟨_ | u, -, hresult⟩ := hawaited
    · simp [Except.map] at hresult
    · rw [Except.ok.inj hresult]
      exact hattempt
  · intro next hnext
    rw [hnext] at hawaited
    obtain ⟨rfl, hnone⟩ := hawaited
    have hne : stage.attempt d r ≠ n := by
      intro heq
      have hgrows := (pollAcquire_moves (c := c) d stage r).grows
      rw [heq, hgrows.outcome hn.2] at hnone
      cases hnone
    refine ⟨not_not.mp fun h => hne (hattempt.mpr h), fun h => hne (Acquiring.joined.inj h)⟩

/-! ## One poll -/

namespace Registry

/-- Where a poll leaves a request that has a history by then. -/
def Goes (kind : RequestKind) (req : Request) (H : History)
    (p : RequestStep (ω × List CallAnswer)) : Prop :=
  match p.1 with
  | .pending next => Stands kind req H next p.2.bare
  | .ready result => Ends kind req H result

/-- A poll adds to a history, and keeps to the course. -/
def Advances (c : Connector ω) (kind : RequestKind) (req : Request) (H : History)
    (as : List (Acquisition ω)) (R : Registry (ω × List CallAnswer))
    (p : RequestStep (ω × List CallAnswer)) : Prop :=
  ∃ K, Adds c as R p.2 K ∧ Goes kind req (H ++ K) p ∧ CountFollows kind req R.taken H K

variable {kind : RequestKind} {req : Request} {H K : History} {as bs : List (Acquisition ω)}
  {R S : Registry (ω × List CallAnswer)} {p : RequestStep (ω × List CallAnswer)}

/-- Before a poll goes on it may do something, as long as it starts no count. -/
theorem Advances.after (h : Advances c kind req (H ++ K) bs S p) (hadds : Adds c as R S K)
    (hcount : ∀ k collection filter, .count k collection filter ∉ K.issued) :
    Advances c kind req H (as ++ bs) R p := by
  obtain ⟨L, hrest, hgoes, hfollows⟩ := h
  refine ⟨K ++ L, hadds.trans hrest, History.append_assoc H K L ▸ hgoes, ?_⟩
  intro k collection filter hk hkind
  have hk' : .count k collection filter ∈ L.issued :=
    (List.mem_append.mp hk).resolve_left (hcount k collection filter)
  rw [← History.append_assoc, taken, ← hadds.takes]
  exact hfollows k collection filter hk' hkind

theorem Advances.of_adds (hadds : Adds c as R p.2 K) (hgoes : Goes kind req (H ++ K) p)
    (hcount : K.issued = []) : Advances c kind req H as R p := by
  refine ⟨K, hadds, hgoes, ?_⟩
  intro k collection filter hk
  rw [hcount] at hk
  cases hk

theorem askCount_adds {data : Option (List Document)} (h : CountsFrom kind req data H)
    (n : ConnectionId) (R : Registry (ω × List CallAnswer)) :
    ∃ K, Adds c [] R (R.askCount c.queried req n data).2 K ∧
      Goes kind req (H ++ .began n (req.countCall n) ++ K) (R.askCount c.queried req n data) ∧
      K.issued = [] := by
  rcases hc : c.count n req.database req.collection req.compile.filter R.world.1
    with ⟨_ | answer, world⟩
  all_goals simp only [askCount, Connector.queried, hc, Option.map_none, Option.map_some,
    Option.toList_none, Option.toList_some]
  · refine ⟨.empty, ⟨rfl, by simp [History.empty], rfl, rfl⟩, ?_, rfl⟩
    rw [History.append_empty]
    exact .counting h n _
  · refine ⟨.got (.counted n req.collection req.compile.filter answer),
      ⟨rfl, by simp [History.got], rfl, rfl⟩, ?_, rfl⟩
    rw [History.append_assoc]
    exact .counted h n answer

theorem acquireForCount_advances {data : Option (List Document)}
    (h : CountsFrom kind req data H) {stage : Acquiring} (hv : R.bare.Valid)
    (hp : req.Parted H stage R.bare) :
    Advances c kind req H [⟨req.database, stage, R.bare⟩] R
      (R.acquireForCount c.queried req data stage) := by
  have hadds := pollAcquire_adds (c := c) R req.database stage
  obtain ⟨htold, hleft⟩ := pollAcquire_queried (c := c) R req.database stage
  have hgrows := (pollAcquire_moves (c := c) req.database stage R.bare).grows
  have hagain := fun n hn => acquire_again (c := c) hv (hp n hn).1 (hp n hn).2
  rcases hq : R.pollAcquire c.queried req.database stage with ⟨next | (f | k), S⟩
  all_goals
    rw [hq] at hadds htold hleft
    rw [hleft] at hgrows
    rw [← htold] at hagain
    simp only [Acquisition.end?, Acquisition.progress, ← htold] at hadds
    simp only [acquireForCount, hq]
  · refine .of_adds hadds ?_ rfl
    have hp' : req.Parted H next S.bare := by
      intro n hn
      obtain ⟨htaken, hne⟩ := (hagain n hn).2 next rfl
      exact ⟨hgrows.opened (hp n hn).1, .inr ⟨hgrows.mem_taken htaken, hne⟩⟩
    show Stands kind req (H ++ .empty) (.acquiringForCount data next) S.bare
    rw [History.append_empty]
    exact .acquiringForCount h hp'
  · exact .of_adds hadds (.uncounted h f) rfl
  · have hcall : (Event.count k req.collection req.compile.filter).call? =
        some (req.countCall k) := rfl
    have hissue := (Adds.log (c := c) S _).trans (.note (S.say req.countRecord) hcall)
    obtain ⟨L, hask, hgoes, hissued⟩ := askCount_adds (c := c) h k
      ((S.say req.countRecord).note (.count k req.collection req.compile.filter))
    have hbegan : Adds c [⟨req.database, stage, R.bare⟩] R _
        (.began k (req.countCall k) ++ L) := (hadds.trans hissue).trans hask
    refine ⟨.began k (req.countCall k) ++ L, hbegan, History.append_assoc .. ▸ hgoes, ?_⟩
    -- the only count is the one on the connection that was acquired
    intro k' collection filter hk hkind
    have hk' : k' = k := by
      simp only [History.append_issued, hissued, List.append_nil, History.began,
        List.mem_singleton, countCall, Call.count.injEq] at hk
      exact hk.1
    cases h with
    | total hk => simp [hk] at hkind
    | page _ n docs =>
      have hn : req.findCall n ∈ (req.found n (.ok docs)).issued := List.mem_cons_self
      refine ⟨n, docs, List.mem_append_left _ hn, ?_, ?_⟩
      · exact List.mem_append_left _ List.mem_cons_self
      · rw [hk']
        exact (hagain n hn).1 k rfl

/-- The histories of a find that succeeded and of a request that goes on to its count. -/
theorem askFind_advances (hk : kind ≠ .total) (hv : R.bare.Valid) {n : ConnectionId}
    (hn : R.bare.Opened req.database n) :
    Advances c kind req (.began n (req.findCall n)) (R.bare.acquisitionsOfFind c kind req n) R
      (R.askFind c.queried kind req n) := by
  rcases hc : c.find n req.database req.collection req.compile R.world.1
    with ⟨_ | (f | docs), world⟩
  all_goals
    have hc' : c.find n req.database req.collection req.compile R.bare.world = _ := hc
    simp only [askFind, acquisitionsOfFind, Connector.queried, hc, hc', Option.map_none,
      Option.map_some, Option.toList_none, Option.toList_some]
  · refine .of_adds (K := .empty) ⟨rfl, by simp [History.empty], rfl, rfl⟩ ?_ rfl
    rw [History.append_empty]
    exact .finding hk n _
  · refine .of_adds (K := .got (.found n req.collection req.compile (.error f)))
      ⟨rfl, by simp [History.got], rfl, rfl⟩ ?_ rfl
    exact .findFailed hk n f
  · let S : Registry (ω × List CallAnswer) := { R with
      world := (world, R.world.2 ++ [.found n req.collection req.compile (.ok docs)]) }
    have hadds : Adds c [] R S (.got (.found n req.collection req.compile (.ok docs))) :=
      ⟨rfl, by simp [S, History.got], rfl, rfl⟩
    cases kind with
    | total => exact absurd rfl hk
    | page => exact .of_adds hadds (.page rfl n docs) rfl
    | pageWithTotal =>
      have hdrift : Moves c R.bare S.bare := Moves.drift R.bare world R.log
      have hfrom : CountsFrom .pageWithTotal req (some docs) (req.found n (.ok docs)) :=
        .page rfl n docs
      have hparted : req.Parted (req.found n (.ok docs)) .fresh S.bare := by
        intro m hm
        have hcall : req.findCall m = req.findCall n := List.mem_singleton.mp hm
        obtain ⟨rfl, -⟩ := Call.find.inj hcall
        exact ⟨hn, .inl rfl⟩
      have hcount := acquireForCount_advances (c := c) hfrom (hv.moves hdrift) hparted
      exact hcount.after hadds (fun k collection filter hk => by cases hk)

theorem acquireForFind_advances (hk : kind ≠ .total) (hv : R.bare.Valid) {stage : Acquiring}
    (hf : stage.Fits req.database R.bare) :
    Advances c kind req .empty (R.bare.acquisitionsForFind c kind req stage) R
      (R.acquireForFind c.queried kind req stage) := by
  have hadds := pollAcquire_adds (c := c) R req.database stage
  obtain ⟨htold, hleft⟩ := pollAcquire_queried (c := c) R req.database stage
  have hopened := fun n => pollAcquire_opened (c := c) (n := n) hv hf
  have hmoves := pollAcquire_moves (c := c) req.database stage R.bare
  rcases hq : R.pollAcquire c.queried req.database stage with ⟨next | (f | n), S⟩
  all_goals
    rw [hq] at hadds htold hleft
    have hbare : R.bare.pollAcquire c req.database stage = (_, S.bare) :=
      Prod.ext htold.symm hleft
    rw [hbare] at hopened hmoves
    simp only [Acquisition.end?, Acquisition.progress, hbare] at hadds
    simp only [acquireForFind, acquisitionsForFind, hq, hbare]
  · exact .of_adds hadds (.acquiringForFind hk next _) rfl
  · exact .of_adds hadds (.unacquired hk f) rfl
  · have hcall : (Event.find n req.collection req.compile).call? = some (req.findCall n) := rfl
    have hissue := (Adds.log (c := c) S _).trans (.note (S.say req.findRecord) hcall)
    let asked := (S.say req.findRecord).note (.find n req.collection req.compile)
    have hsay : Moves c S.bare (S.bare.say req.findRecord) := say_moves S.bare req.findRecord
    have hnote : Moves c (S.bare.say req.findRecord) asked.bare :=
      .of_move (.query (e := .find n req.collection req.compile) trivial)
    have hasked : Moves c S.bare asked.bare := hsay.trans hnote
    have hfind := askFind_advances (c := c) (R := asked) hk
      (hv.moves (hmoves.trans hasked)) (hasked.grows.opened (hopened n rfl))
    have hbegan : Adds c [⟨req.database, stage, R.bare⟩] R asked
        (.began n (req.findCall n)) := hadds.trans hissue
    have hcount : ∀ k collection filter, .count k collection filter ∉
        (History.began n (req.findCall n)).issued := by
      simp [History.began, findCall]
    exact hfind.after hbegan hcount

theorem startRequest_advances (hv : R.bare.Valid) :
    Advances c kind req .empty (R.bare.requestAcquisitions c kind req .fresh) R
      (R.startRequest c.queried kind req) := by
  let S : Registry (ω × List CallAnswer) := { R with log := R.log ++ req.compileRecords }
  have hadds : Adds c [] R S .empty := .log R _
  have hv' : S.bare.Valid :=
    hv.moves (Moves.drift (c := c) R.bare R.bare.world (R.log ++ req.compileRecords))
  have hcount : ∀ k collection filter, .count k collection filter ∉ History.empty.issued := by
    simp [History.empty]
  cases kind with
  | total =>
    have hnone : req.Parted .empty .fresh S.bare := fun n hn => by cases hn
    have hgo := acquireForCount_advances (c := c) (CountsFrom.total rfl) hv' hnone
    exact Advances.after (K := .empty) hgo hadds hcount
  | page =>
    have hgo : Advances c .page req .empty _ S (S.acquireForFind c.queried .page req .fresh) :=
      acquireForFind_advances (by simp) hv' Acquiring.fits_fresh
    exact Advances.after (K := .empty) hgo hadds hcount
  | pageWithTotal =>
    have hgo : Advances c .pageWithTotal req .empty _ S
        (S.acquireForFind c.queried .pageWithTotal req .fresh) :=
      acquireForFind_advances (by simp) hv' Acquiring.fits_fresh
    exact Advances.after (K := .empty) hgo hadds hcount

/-- Every poll of a request keeps to its course. -/
theorem pollRequest_advances {stage : Requesting} (hs : Stands kind req H stage R.bare)
    (hv : R.bare.Valid) (hf : stage.Fits req.database R.bare) :
    Advances c kind req H (R.bare.requestAcquisitions c kind req stage) R
      (R.pollRequest c.queried kind req stage) := by
  cases hs with
  | fresh => exact startRequest_advances hv
  | acquiringForFind hk stage => exact acquireForFind_advances hk hv hf
  | finding hk n => exact askFind_advances hk hv hf
  | acquiringForCount h hp => exact acquireForCount_advances h hv hp
  | counting h n =>
    obtain ⟨K, hadds, hgoes, hissued⟩ := askCount_adds (c := c) h n R
    exact .of_adds hadds hgoes hissued

end Registry

/-! ## One visit -/

theorem Request.Stands.aside {kind : RequestKind} {req : Request} {H : History}
    {stage : Requesting} {r s : Registry ω} (h : Stands kind req H stage r) (hm : Moves c r s) :
    Stands kind req H stage s := by
  cases h with
  | fresh => exact .fresh s
  | acquiringForFind hk stage => exact .acquiringForFind hk stage s
  | finding hk n => exact .finding hk n s
  | acquiringForCount h hp =>
    refine .acquiringForCount h fun n hn => ?_
    obtain ⟨hopened, hstage⟩ := hp n hn
    exact ⟨hm.grows.opened hopened, hstage.imp_right fun ⟨htaken, hne⟩ =>
      ⟨hm.grows.mem_taken htaken, hne⟩⟩
  | counting h n => exact .counting h n s

/-- What a visit adds to the history of a request. -/
theorem Visit.advances {kind : RequestKind} {req : Request} {H : History} {stage : Requesting}
    {r : Registry ω} (hs : Stands kind req H stage r) (hv : r.Valid)
    (hf : stage.Fits req.database r) :
    let v : Visit ω := ⟨.request kind req stage, r⟩
    (match (r.pollRequest c kind req stage).1 with
      | .pending next => Stands kind req (H ++ v.history c) next (v.after c)
      | .ready result => Ends kind req (H ++ v.history c) result) ∧
    CountFollows kind req r.taken H (v.history c) := by
  intro v
  let R : Registry (ω × List CallAnswer) := v.queried.registry
  obtain ⟨K, hadds, hgoes, hfollows⟩ := pollRequest_advances (c := c) (R := R) hs hv hf
  obtain ⟨htold, hleft⟩ := c.queried_extends.lockstep.pollRequest (rfl : R.bare = R.bare) kind
    req stage
  have hafter : v.after c = (R.pollRequest c.queried kind req stage).2.bare := by
    rw [Visit.after, Task.poll, Task.lift_snd]
    exact hleft
  have hhistory : v.history c = K := by
    ext1
    · exact hadds.acquired
    · have htrace : (R.pollRequest c.queried kind req stage).2.trace = (v.after c).trace := by
        rw [hafter]
        rfl
      have hprefix : r.trace <+: (v.after c).trace := (v.task.poll_moves r).grows.trace
      obtain ⟨rest, hrest⟩ := hprefix
      have hissued := hadds.issued
      rw [htrace, ← hrest, List.filterMap_append] at hissued
      show ((v.after c).trace.drop r.trace.length).filterMap Event.call? = K.issued
      rw [← hrest, List.drop_left]
      exact List.append_cancel_left hissued
    · have hanswered := hadds.answered
      rw [show R.world.2 = [] from rfl, List.nil_append] at hanswered
      show (v.queried.after c.queried).world.2 = K.answered
      rw [Visit.after, Visit.queried, Task.poll, Task.lift_snd]
      exact hanswered
  rw [hhistory]
  refine ⟨?_, hfollows⟩
  have htold' : (r.pollRequest c kind req stage).1 = (R.pollRequest c.queried kind req stage).1 :=
    htold.symm
  rw [htold', hafter]
  exact hgoes

end Gateway

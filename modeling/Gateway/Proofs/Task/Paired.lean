import Gateway.Proofs.Registry.Moves

/-!
# One database in two registries

Two registries may number their connections differently and still be the same to a task that
acquires or requests: what it finds on its connection in the one it finds in the other on the
partner of that connection. `Paired` says so of the few things that such a task does. Then a
poll of the task over the one and a poll over the other, from stages that are alike, tell the
same and stop at stages that are alike (`Paired.acquire`, `Paired.pollRequest`).

Which connections are partners may depend on how a run goes on, so a poll is looked at only
if the registry that it leaves is in a given set, and that set is closed under going back.
-/

namespace Gateway

open Registry

/-! ## Alike but for the numbers of connections -/

section Alike

variable (T : ConnectionId → ConnectionId → Prop)

inductive Slot.Alike : Slot → Slot → Prop
  | connecting {n k : ConnectionId} (h : T n k) : Slot.Alike (.connecting n) (.connecting k)
  | established {n k : ConnectionId} (h : T n k) : Slot.Alike (.established n) (.established k)

inductive Acquiring.Alike : Acquiring → Acquiring → Prop
  | fresh : Acquiring.Alike .fresh .fresh
  | joined {n k : ConnectionId} (h : T n k) : Acquiring.Alike (.joined n) (.joined k)

inductive Requesting.Alike : Requesting → Requesting → Prop
  | fresh : Requesting.Alike .fresh .fresh
  | acquiringForFind {a b : Acquiring} (h : a.Alike T b) :
      Requesting.Alike (.acquiringForFind a) (.acquiringForFind b)
  | finding {n k : ConnectionId} (h : T n k) : Requesting.Alike (.finding n) (.finding k)
  | acquiringForCount (data : Option (List Document)) {a b : Acquiring} (h : a.Alike T b) :
      Requesting.Alike (.acquiringForCount data a) (.acquiringForCount data b)
  | counting {n k : ConnectionId} (data : Option (List Document)) (h : T n k) :
      Requesting.Alike (.counting n data) (.counting k data)

/-- Acquire calls that fail alike, or come to partners. -/
inductive AcquiredAlike : Except Failure ConnectionId → Except Failure ConnectionId → Prop
  | error (f : Failure) : AcquiredAlike (.error f) (.error f)
  | ok {n k : ConnectionId} (h : T n k) : AcquiredAlike (.ok n) (.ok k)

/-- Tasks for a database that stand alike. -/
inductive Task.Alike (database : String) : Task → Task → Prop
  | acquire {a b : Acquiring} (h : a.Alike T b) :
      Task.Alike database (.acquire database a) (.acquire database b)
  | request (kind : RequestKind) {req : Request} (hreq : req.database = database)
      {a b : Requesting} (h : a.Alike T b) :
      Task.Alike database (.request kind req a) (.request kind req b)

/-- Results that are the same but for the connection. -/
inductive OutcomeAlike : Except Failure Outcome → Except Failure Outcome → Prop
  | error (f : Failure) : OutcomeAlike (.error f) (.error f)
  | connection {n k : ConnectionId} (h : T n k) :
      OutcomeAlike (.ok (.connection n)) (.ok (.connection k))
  | answer (a : Answer) : OutcomeAlike (.ok (.answer a)) (.ok (.answer a))

/-- Finds and counts that are the same but for the connection. -/
inductive QueryAlike : Event → Event → Prop
  | find {n k : ConnectionId} (collection : String) (query : NativeQuery) (h : T n k) :
      QueryAlike (.find n collection query) (.find k collection query)
  | count {n k : ConnectionId} (collection : String) (filter : Document) (h : T n k) :
      QueryAlike (.count n collection filter) (.count k collection filter)

inductive Progress.Alike {σ α : Type} (S : σ → σ → Prop) (R : α → α → Prop) :
    Progress σ α → Progress σ α → Prop
  | pending {a b : σ} (h : S a b) : Progress.Alike S R (.pending a) (.pending b)
  | ready {a b : α} (h : R a b) : Progress.Alike S R (.ready a) (.ready b)

end Alike

/-! Where every connection is its own partner, alike is equal. -/

theorem Slot.Alike.refl (a : Slot) : a.Alike Eq a := by
  cases a with
  | connecting n => exact .connecting rfl
  | established n => exact .established rfl

theorem Acquiring.Alike.refl (a : Acquiring) : a.Alike Eq a := by
  cases a with
  | fresh => exact .fresh
  | joined n => exact .joined rfl

theorem Acquiring.Alike.eq {a b : Acquiring} (h : a.Alike Eq b) : a = b := by
  cases h with
  | fresh => rfl
  | joined h => rw [h]

theorem Requesting.Alike.refl (a : Requesting) : a.Alike Eq a := by
  cases a with
  | fresh => exact .fresh
  | acquiringForFind a => exact .acquiringForFind (.refl a)
  | finding n => exact .finding rfl
  | acquiringForCount data a => exact .acquiringForCount data (.refl a)
  | counting n data => exact .counting data rfl

theorem AcquiredAlike.eq {x y : Except Failure ConnectionId} (h : AcquiredAlike Eq x y) :
    x = y := by
  cases h with
  | error f => rfl
  | ok h => rw [h]

theorem Progress.Alike.eq {σ α : Type} {S : σ → σ → Prop} {R : α → α → Prop}
    (hS : ∀ {a b}, S a b → a = b) (hR : ∀ {a b}, R a b → a = b) {p q : Progress σ α}
    (h : p.Alike S R q) : p = q := by
  cases h with
  | pending h => rw [hS h]
  | ready h => rw [hR h]

theorem Requesting.Alike.eq {a b : Requesting} (h : a.Alike Eq b) : a = b := by
  cases h with
  | fresh => rfl
  | acquiringForFind h => rw [h.eq]
  | finding h => rw [h]
  | acquiringForCount data h => rw [h.eq]
  | counting data h => rw [h]

/-- Two steps tell the same, as far as `P` can tell, and leave registries that are alike. -/
structure Together {α ω τ : Type} (P : α → α → Prop) (Alike : Registry ω → Registry τ → Prop)
    (p : α × Registry ω) (q : α × Registry τ) : Prop where
  told : P p.1 q.1
  left : Alike p.2 q.2

/-! ## Polls of requests -/

namespace Registry

variable {ω : Type} {c : Connector ω} (req : Request) (n : ConnectionId)

theorem issueCount_moves (data : Option (List Document)) (r : Registry ω) :
    Moves c r (((r.say req.countRecord).note
      (.count n req.collection req.compile.filter)).askCount c req n data).2 := by
  have hquery : Event.IsQuery (.count n req.collection req.compile.filter) := trivial
  have hnote : Moves c (r.say req.countRecord) _ := .of_move (.query hquery)
  have hask := (askCount_through (c := c) req ((r.say req.countRecord).note
    (.count n req.collection req.compile.filter)) n data).steps.moves
  exact ((say_moves r req.countRecord).trans hnote).trans hask

theorem issueFind_moves (kind : RequestKind) (r : Registry ω) :
    Moves c r (((r.say req.findRecord).note
      (.find n req.collection req.compile)).askFind c kind req n).2 := by
  have hquery : Event.IsQuery (.find n req.collection req.compile) := trivial
  have hnote : Moves c (r.say req.findRecord) _ := .of_move (.query hquery)
  have hask := (askFind_through (c := c) req ((r.say req.findRecord).note
    (.find n req.collection req.compile)) kind n).steps.moves
  exact ((say_moves r req.findRecord).trans hnote).trans hask

end Registry

/-- What a task does for one database keeps two registries alike, and tells the same of both,
partners by `T`. -/
structure Paired {ω τ : Type} (c : Connector ω) (c' : Connector τ) (database : String)
    (T : ConnectionId → ConnectionId → Prop) (Within : Registry ω → Prop)
    (Alike : Registry ω → Registry τ → Prop) : Prop where
  back : ∀ {r r' : Registry ω}, Moves c r r' → Within r' → Within r
  write : ∀ {r s} (records : List Log.Record), Alike r s →
    Alike { r with log := r.log ++ records } { s with log := s.log ++ records }
  note : ∀ {r s e f}, QueryAlike T e f → Alike r s → Alike (r.note e) (s.note f)
  slot : ∀ {r s}, Alike r s → Option.Rel (Slot.Alike T) (r.slot? database) (s.slot? database)
  launch : ∀ {r s}, Alike r s → Within (r.launch database) →
    T r.attempts.length s.attempts.length ∧ Alike (r.launch database) (s.launch database)
  advance : ∀ {r s n k}, Alike r s → T n k → Within r →
    Together Eq Alike (r.advance c n) (s.advance c' k)
  settle : ∀ {r s n k} (outcome : Except Failure Unit), Alike r s → T n k →
    Alike (r.settle database n outcome) (s.settle database k outcome)
  find : ∀ {r s n k} (collection : String) (query : NativeQuery), Alike r s → T n k →
    (c'.find k database collection query s.world).1 =
        (c.find n database collection query r.world).1 ∧
      Alike { r with world := (c.find n database collection query r.world).2 }
        { s with world := (c'.find k database collection query s.world).2 }
  count : ∀ {r s n k} (collection : String) (filter : Document), Alike r s → T n k →
    (c'.count k database collection filter s.world).1 =
        (c.count n database collection filter r.world).1 ∧
      Alike { r with world := (c.count n database collection filter r.world).2 }
        { s with world := (c'.count k database collection filter s.world).2 }

namespace Paired

variable {ω τ : Type} {c : Connector ω} {c' : Connector τ}
  {T : ConnectionId → ConnectionId → Prop} {Within : Registry ω → Prop}
  {Alike : Registry ω → Registry τ → Prop} {r : Registry ω} {s : Registry τ} {req : Request}

/-- Two polls of an acquire call tell the same. -/
abbrev AcquireTogether (T : ConnectionId → ConnectionId → Prop)
    (Alike : Registry ω → Registry τ → Prop) :
    Progress Acquiring (Except Failure ConnectionId) × Registry ω →
      Progress Acquiring (Except Failure ConnectionId) × Registry τ → Prop :=
  Together (Progress.Alike (Acquiring.Alike T) (AcquiredAlike T)) Alike

theorem await {database : String} (h : Paired c c' database T Within Alike) (hs : Alike r s)
    {n k : ConnectionId} (hn : T n k) (hw : Within (r.await c database n).2) :
    AcquireTogether T Alike (r.await c database n) (s.await c' database k) := by
  obtain ⟨htold, hleft⟩ := h.advance hs hn (h.back (await_moves database n r) hw)
  rcases hr : r.advance c n with ⟨_ | outcome, r'⟩
  all_goals
    rcases hs' : s.advance c' k with ⟨o, s'⟩
    rw [hr, hs'] at htold hleft
    obtain rfl := htold
    simp only [Registry.await, hr, hs']
  · exact ⟨.pending (.joined hn), hleft⟩
  · refine ⟨.ready ?_, h.settle outcome hleft hn⟩
    cases outcome with
    | ok => exact .ok hn
    | error f => exact .error f

/-- Polls of an acquire call from stages that are alike tell the same and go on alike. -/
theorem acquire {database : String} (h : Paired c c' database T Within Alike) (hs : Alike r s)
    {a b : Acquiring} (hab : a.Alike T b) (hw : Within (r.pollAcquire c database a).2) :
    AcquireTogether T Alike (r.pollAcquire c database a) (s.pollAcquire c' database b) := by
  cases hab with
  | joined hn => exact h.await hs hn hw
  | fresh =>
    have hsay : Alike (r.say (fetchRecord database)) (s.say (fetchRecord database)) :=
      h.write [fetchRecord database] hs
    have hslot := h.slot hsay
    rcases hr : (r.say (fetchRecord database)).slot? database with _ | slot
    all_goals
      rcases hs' : (s.say (fetchRecord database)).slot? database with _ | slot'
      all_goals rw [hr, hs'] at hslot
    · simp only [Registry.pollAcquire, hr, hs'] at hw ⊢
      have hlaunch := h.back (await_moves database r.attempts.length _) hw
      obtain ⟨hnew, hlaunched⟩ := h.launch hsay hlaunch
      exact h.await hlaunched hnew hw
    · cases hslot
    · cases hslot
    · cases hslot with
      | some hslot =>
        cases hslot with
        | connecting hn =>
          simp only [Registry.pollAcquire, hr, hs'] at hw ⊢
          exact h.await hsay hn hw
        | established hn =>
          simp only [Registry.pollAcquire, hr, hs']
          exact ⟨.ready (.ok hn), hsay⟩

/-- Two polls of a request tell the same. -/
abbrev RequestTogether (T : ConnectionId → ConnectionId → Prop)
    (Alike : Registry ω → Registry τ → Prop) : RequestStep ω → RequestStep τ → Prop :=
  Together (Progress.Alike (Requesting.Alike T) Eq) Alike

theorem askCount (h : Paired c c' req.database T Within Alike) (hs : Alike r s)
    {n k : ConnectionId} (hn : T n k) (data : Option (List Document)) :
    RequestTogether T Alike (r.askCount c req n data) (s.askCount c' req k data) := by
  obtain ⟨hout, hnext⟩ := h.count req.collection req.compile.filter hs hn
  rcases hr : (c.count n req.database req.collection req.compile.filter r.world).1 with _ | answer
  all_goals
    rw [hr] at hout
    simp only [Registry.askCount, hr, hout]
  · exact ⟨.pending (.counting data hn), hnext⟩
  · exact ⟨.ready rfl, hnext⟩

theorem acquireForCount (h : Paired c c' req.database T Within Alike) (hs : Alike r s)
    {a b : Acquiring} (hab : a.Alike T b) (data : Option (List Document))
    (hw : Within (r.acquireForCount c req data a).2) :
    RequestTogether T Alike (r.acquireForCount c req data a)
      (s.acquireForCount c' req data b) := by
  have hacquire := h.acquire hs hab
  rcases hr : r.pollAcquire c req.database a with ⟨next | (f | n), r'⟩
  all_goals
    rcases hq : s.pollAcquire c' req.database b with ⟨q, s'⟩
    rw [hr, hq] at hacquire
    simp only [Registry.acquireForCount, hr, hq] at hw ⊢
  · obtain ⟨htold, hleft⟩ := hacquire hw
    cases htold with
    | pending hnext => exact ⟨.pending (.acquiringForCount data hnext), hleft⟩
  · obtain ⟨htold, hleft⟩ := hacquire hw
    rcases htold with _ | ⟨⟨⟩⟩
    exact ⟨.ready rfl, hleft⟩
  · obtain ⟨htold, hleft⟩ := hacquire (h.back (issueCount_moves req n data r') hw)
    rcases htold with _ | ⟨_ | hn⟩
    have hwrite : Alike (r'.say req.countRecord) (s'.say req.countRecord) := h.write _ hleft
    exact h.askCount (h.note (.count _ _ hn) hwrite) hn data

theorem afterFind (h : Paired c c' req.database T Within Alike) (hs : Alike r s)
    (kind : RequestKind) (docs : List Document)
    (hw : Within (r.afterFind c kind req docs).2) :
    RequestTogether T Alike (r.afterFind c kind req docs) (s.afterFind c' kind req docs) := by
  cases kind with
  | page => exact ⟨.ready rfl, hs⟩
  | total => exact ⟨.ready rfl, hs⟩
  | pageWithTotal => exact h.acquireForCount hs .fresh (some docs) hw

theorem askFind (h : Paired c c' req.database T Within Alike) (hs : Alike r s)
    {n k : ConnectionId} (hn : T n k) (kind : RequestKind)
    (hw : Within (r.askFind c kind req n).2) :
    RequestTogether T Alike (r.askFind c kind req n) (s.askFind c' kind req k) := by
  obtain ⟨hout, hnext⟩ := h.find req.collection req.compile hs hn
  rcases hr : (c.find n req.database req.collection req.compile r.world).1 with _ | (f | docs)
  all_goals
    rw [hr] at hout
    simp only [Registry.askFind, hr, hout] at hw ⊢
  · exact ⟨.pending (.finding hn), hnext⟩
  · exact ⟨.ready rfl, hnext⟩
  · exact h.afterFind hnext kind docs hw

theorem acquireForFind (h : Paired c c' req.database T Within Alike) (hs : Alike r s)
    {a b : Acquiring} (hab : a.Alike T b) (kind : RequestKind)
    (hw : Within (r.acquireForFind c kind req a).2) :
    RequestTogether T Alike (r.acquireForFind c kind req a)
      (s.acquireForFind c' kind req b) := by
  have hacquire := h.acquire hs hab
  rcases hr : r.pollAcquire c req.database a with ⟨next | (f | n), r'⟩
  all_goals
    rcases hq : s.pollAcquire c' req.database b with ⟨q, s'⟩
    rw [hr, hq] at hacquire
    simp only [Registry.acquireForFind, hr, hq] at hw ⊢
  · obtain ⟨htold, hleft⟩ := hacquire hw
    cases htold with
    | pending hnext => exact ⟨.pending (.acquiringForFind hnext), hleft⟩
  · obtain ⟨htold, hleft⟩ := hacquire hw
    rcases htold with _ | ⟨⟨⟩⟩
    exact ⟨.ready rfl, hleft⟩
  · obtain ⟨htold, hleft⟩ := hacquire (h.back (issueFind_moves req n kind r') hw)
    rcases htold with _ | ⟨_ | hn⟩
    have hwrite : Alike (r'.say req.findRecord) (s'.say req.findRecord) := h.write _ hleft
    exact h.askFind (h.note (.find _ _ hn) hwrite) hn kind hw

theorem startRequest (h : Paired c c' req.database T Within Alike) (hs : Alike r s)
    (kind : RequestKind) (hw : Within (r.startRequest c kind req).2) :
    RequestTogether T Alike (r.startRequest c kind req) (s.startRequest c' kind req) := by
  have hlog := h.write req.compileRecords hs
  cases kind with
  | total => exact h.acquireForCount hlog .fresh none hw
  | page => exact h.acquireForFind hlog .fresh .page hw
  | pageWithTotal => exact h.acquireForFind hlog .fresh .pageWithTotal hw

/-- Polls of a request from stages that are alike tell the same and go on alike. -/
theorem pollRequest (h : Paired c c' req.database T Within Alike) (hs : Alike r s)
    {a b : Requesting} (hab : a.Alike T b) (kind : RequestKind)
    (hw : Within (r.pollRequest c kind req a).2) :
    RequestTogether T Alike (r.pollRequest c kind req a) (s.pollRequest c' kind req b) := by
  cases hab with
  | fresh => exact h.startRequest hs kind hw
  | acquiringForFind hab => exact h.acquireForFind hs hab kind hw
  | finding hn => exact h.askFind hs hn kind hw
  | acquiringForCount data hab => exact h.acquireForCount hs hab data hw
  | counting data hn => exact h.askCount hs hn data

theorem lift {database : String} {σ α : Type} {S : σ → σ → Prop}
    {R : Except Failure α → Except Failure α → Prop} {next : σ → Task} {result : α → Outcome}
    (hnext : ∀ {a b}, S a b → (next a).Alike T database (next b))
    (hresult : ∀ {x y}, R x y → OutcomeAlike T (x.map result) (y.map result))
    {p : Progress σ (Except Failure α) × Registry ω}
    {q : Progress σ (Except Failure α) × Registry τ}
    (h : Together (Progress.Alike S R) Alike p q) :
    Together (Progress.Alike (Task.Alike T database) (OutcomeAlike T)) Alike
      (Task.lift next result p) (Task.lift next result q) := by
  obtain ⟨p, r⟩ := p
  obtain ⟨q, s⟩ := q
  obtain ⟨htold, hleft⟩ := h
  cases htold with
  | pending hab => exact ⟨.pending (hnext hab), hleft⟩
  | ready hxy => exact ⟨.ready (hresult hxy), hleft⟩

/-- Polls of a task from stages that are alike tell the same and go on alike. -/
theorem poll {database : String} (h : Paired c c' database T Within Alike) (hs : Alike r s)
    {t u : Task} (htu : t.Alike T database u) (hw : Within (t.poll c r).2) :
    Together (Progress.Alike (Task.Alike T database) (OutcomeAlike T)) Alike (t.poll c r)
      (u.poll c' s) := by
  cases htu with
  | acquire hab =>
    rw [Task.poll, Task.lift_snd] at hw
    refine lift (S := Acquiring.Alike T) .acquire ?_ (h.acquire hs hab hw)
    rintro x y (f | hn)
    · exact .error f
    · exact .connection hn
  | request kind hreq hab =>
    subst hreq
    rw [Task.poll, Task.lift_snd] at hw
    refine lift (S := Requesting.Alike T) (.request kind rfl) ?_ (h.pollRequest hs hab kind hw)
    rintro (f | answer) _ rfl
    · exact .error f
    · exact .answer answer

end Paired

end Gateway

import Gateway.Proofs.Task.Alone
import Gateway.Store.Memory

/-!
# Databases do not interfere

A run over a store in memory starts, polls and drops tasks for many databases, writes
documents, shuts and opens gates, and sets failures. The steps that concern one database make
a run of their own (`Machine.restrict`). In it the polls of the tasks for that database tell
what they tell in the whole run, in the same order, the connector gets the same calls, and
the slot holds the same, with each connection under its rank among those of the database
(`databases_apart`). So no connect call of another database, whether it is held back, fails or
answers, makes any difference to this one.
-/

namespace Gateway

open Registry

namespace Store

/-! ## Changes of a store -/

/-- What may happen to a store beside calls. -/
inductive Change where
  | insert (database collection : String) (docs : List Document)
  | shut (key : String)
  | unshut (key : String)
  | fail (key : String) (f : Failure)
  | heal (key : String)

def Change.apply : Change → Store → Store
  | .insert database collection docs => Store.insert database collection docs
  | .shut key => shutGate key
  | .unshut key => openGate key
  | .fail key f => Store.fail key f
  | .heal key => Store.heal key

/-- The keys of the calls for a database. -/
def keysOf (d : String) : List String :=
  ["connect:" ++ d, "find:" ++ d, "count:" ++ d, "close:" ++ d]

/-- A change of what is in a database, or of the calls for it. -/
def Change.Concerns (d : String) : Change → Prop
  | .insert database _ _ => database = d
  | .shut key => key ∈ keysOf d
  | .unshut key => key ∈ keysOf d
  | .fail key _ => key ∈ keysOf d
  | .heal key => key ∈ keysOf d

instance (d : String) : DecidablePred (Change.Concerns d)
  | .insert database _ _ => inferInstanceAs (Decidable (database = d))
  | .shut key => inferInstanceAs (Decidable (key ∈ keysOf d))
  | .unshut key => inferInstanceAs (Decidable (key ∈ keysOf d))
  | .fail key _ => inferInstanceAs (Decidable (key ∈ keysOf d))
  | .heal key => inferInstanceAs (Decidable (key ∈ keysOf d))

theorem isOpen_shutGate (key other : String) (s : Store) :
    (s.shutGate key).isOpen other = (other ≠ key && s.isOpen other) := by
  by_cases h : other = key <;> simp [isOpen, shutGate, h]

theorem isOpen_openGate (key other : String) (s : Store) :
    (s.openGate key).isOpen other = (other = key || s.isOpen other) := by
  by_cases h : other = key <;> simp [isOpen, openGate, h]

theorem documentsOf_insert {α : Type} (name other : String) (docs : List α)
    (es : List (String × List α)) :
    documentsOf other (Entries.insert name docs es) =
      if other = name then docs else documentsOf other es := by
  unfold documentsOf
  rw [Entries.get?_insert]
  split <;> rfl

theorem seen_connect (s : Store) (n m : ConnectionId) (view : Collections) (collection : String) :
    { s with views := (n, view) :: s.views }.seen m collection =
      if n = m then documentsOf collection view else s.seen m collection := by
  by_cases h : n = m <;> simp [seen, h]

/-! ## Stores that are alike in a database -/

/-- Two stores have the same in a database: its documents, the gates and failures of its
calls, and what is seen on its connections and their partners. -/
structure AlikeIn (D : List String) (d : String) (w v : Store) : Prop where
  data : documentsOf d v.data = documentsOf d w.data
  gates : ∀ key ∈ keysOf d, v.isOpen key = w.isOpen key
  failures : ∀ key ∈ keysOf d, Entries.get? key v.failures = Entries.get? key w.failures
  seen : ∀ {n k} (collection : String), Partner D d n k → v.seen k collection = w.seen n collection

namespace AlikeIn

variable {D : List String} {d : String} {w v : Store}

theorem empty (D : List String) (d : String) : AlikeIn D d .empty .empty :=
  ⟨rfl, fun _ _ => rfl, fun _ _ => rfl, fun _ _ => rfl⟩

/-- A change of the database is made in both. -/
theorem change (h : AlikeIn D d w v) {edit : Change} (hd : edit.Concerns d) :
    AlikeIn D d (edit.apply w) (edit.apply v) := by
  cases edit with
  | insert database collection docs =>
    obtain rfl : database = d := hd
    refine ⟨?_, h.gates, h.failures, h.seen⟩
    unfold Change.apply Store.insert
    rw [documentsOf_insert, documentsOf_insert, if_pos rfl, if_pos rfl, h.data]
  | shut key =>
    refine ⟨h.data, fun other hother => ?_, h.failures, h.seen⟩
    unfold Change.apply
    rw [isOpen_shutGate, isOpen_shutGate, h.gates other hother]
  | unshut key =>
    refine ⟨h.data, fun other hother => ?_, h.failures, h.seen⟩
    unfold Change.apply
    rw [isOpen_openGate, isOpen_openGate, h.gates other hother]
  | fail key f =>
    refine ⟨h.data, h.gates, fun other hother => ?_, h.seen⟩
    unfold Change.apply Store.fail
    rw [Entries.get?_insert, Entries.get?_insert, h.failures other hother]
  | heal key =>
    refine ⟨h.data, h.gates, fun other hother => ?_, h.seen⟩
    unfold Change.apply Store.heal
    rw [Entries.get?_erase, Entries.get?_erase, h.failures other hother]

/-- A change of something else is made in the first one only. -/
theorem changeOther (h : AlikeIn D d w v) {edit : Change} (hd : ¬ edit.Concerns d) :
    AlikeIn D d (edit.apply w) v := by
  have hne {key other : String} (hkey : key ∉ keysOf d) (hother : other ∈ keysOf d) :
      other ≠ key := fun heq => hkey (heq ▸ hother)
  cases edit with
  | insert database collection docs =>
    refine ⟨?_, h.gates, h.failures, h.seen⟩
    unfold Change.apply Store.insert
    rw [documentsOf_insert, if_neg (Ne.symm hd), h.data]
  | shut key =>
    refine ⟨h.data, fun other hother => ?_, h.failures, h.seen⟩
    unfold Change.apply
    rw [isOpen_shutGate, h.gates other hother]
    simp [hne hd hother]
  | unshut key =>
    refine ⟨h.data, fun other hother => ?_, h.failures, h.seen⟩
    unfold Change.apply
    rw [isOpen_openGate, h.gates other hother]
    simp [hne hd hother]
  | fail key f =>
    refine ⟨h.data, h.gates, fun other hother => ?_, h.seen⟩
    unfold Change.apply Store.fail
    rw [Entries.get?_insert, if_neg (hne hd hother), h.failures other hother]
  | heal key =>
    refine ⟨h.data, h.gates, fun other hother => ?_, h.seen⟩
    unfold Change.apply Store.heal
    rw [Entries.get?_erase, if_neg (hne hd hother), h.failures other hother]

/-- A connection is opened, and its partner. -/
theorem connect (h : AlikeIn D d w v) {n k : ConnectionId} (hn : Partner D d n k) :
    AlikeIn D d { w with views := (n, documentsOf d w.data) :: w.views }
      { v with views := (k, documentsOf d v.data) :: v.views } := by
  refine ⟨h.data, h.gates, h.failures, ?_⟩
  intro n' k' collection hn'
  have hsame := hn.eq_iff hn'
  rw [seen_connect, seen_connect, h.data, h.seen collection hn']
  by_cases hk : k = k'
  · rw [if_pos hk, if_pos (hsame.mpr hk)]
  · rw [if_neg hk, if_neg fun heq => hk (hsame.mp heq)]

theorem connectOther (h : AlikeIn D d w v) {n : ConnectionId} {e : String} (he : e ≠ d)
    (hn : D[n]? = some e) (view : Collections) :
    AlikeIn D d { w with views := (n, view) :: w.views } v := by
  refine ⟨h.data, h.gates, h.failures, ?_⟩
  rintro m k collection ⟨hm, rfl⟩
  have hne : n ≠ m := by
    rintro rfl
    exact he (Option.some.inj (hn.symm.trans hm))
  rw [seen_connect, if_neg hne]
  exact h.seen collection ⟨hm, rfl⟩

/-- A call for the database is guarded alike. -/
theorem guarded {α : Type} {key : String} (hkey : key ∈ keysOf d) {f g : Store → α × Store}
    (h : AlikeIn D d w v) (hfg : (g v).1 = (f w).1 ∧ AlikeIn D d (f w).2 (g v).2) :
    (guarded key g v).1 = (guarded key f w).1 ∧
      AlikeIn D d (guarded key f w).2 (guarded key g v).2 := by
  unfold Store.guarded
  rw [h.gates key hkey, h.failures key hkey]
  by_cases hopen : w.isOpen key = true
  · rw [if_pos hopen, if_pos hopen]
    rcases Entries.get? key w.failures with _ | failure
    · refine ⟨?_, hfg.2⟩
      show some (Except.ok (g v).1) = some (Except.ok (f w).1)
      rw [hfg.1]
    · exact ⟨rfl, h⟩
  · rw [if_neg hopen, if_neg hopen]
    exact ⟨rfl, h⟩

theorem guardedOther {α : Type} {key : String} {f : Store → α × Store} (h : AlikeIn D d w v)
    (hf : AlikeIn D d (f w).2 v) : AlikeIn D d (Store.guarded key f w).2 v := by
  unfold Store.guarded
  split
  · split
    · exact h
    · exact hf
  · exact h

end AlikeIn

/-- The connector of a store keeps every database apart. -/
theorem connector_apart (D : List String) (d : String) :
    Store.connector.Apart D d (AlikeIn D d) where
  connect url h hn := h.guarded (by simp [keysOf]) ⟨rfl, h.connect hn⟩
  find collection query h hn := by
    refine h.guarded (by simp [keysOf]) ⟨?_, h⟩
    rw [h.seen collection hn]
  count collection filter h hn := by
    refine h.guarded (by simp [keysOf]) ⟨?_, h⟩
    rw [h.seen collection hn]
  connectOther url he hn h := h.guardedOther (h.connectOther he hn _)
  findOther collection query _ _ h := h.guardedOther h
  countOther collection filter _ _ h := h.guardedOther h

/-! ## Runs -/

/-- A step of a run over a store. -/
inductive Step where
  | start (id : String) (job : Job)
  | poll (id : String)
  | drop (id : String)
  | change (edit : Change)

def Step.action : Step → Action Store
  | .start id job => .start id job
  | .poll id => .poll id
  | .drop id => .drop id
  | .change edit => .change edit.apply

end Store

namespace Machine

open Store

/-- A step concerns a database if it starts a task for it, polls a task for it, drops one, or
changes the store there. -/
def Concerns (d : String) (m : Machine Store) : Store.Step → Prop
  | .start _ job => job.database? = some d
  | .poll id => (m.task? id).bind Task.database? = some d
  | .drop id => ∃ a ∈ m.tasks, a.1 = id ∧ a.2.database? = some d
  | .change edit => edit.Concerns d

instance (d : String) (m : Machine Store) : DecidablePred (m.Concerns d)
  | .start _ job => inferInstanceAs (Decidable (job.database? = some d))
  | .poll id => inferInstanceAs (Decidable ((m.task? id).bind Task.database? = some d))
  | .drop id =>
    inferInstanceAs (Decidable (∃ a ∈ m.tasks, a.1 = id ∧ a.2.database? = some d))
  | .change edit => inferInstanceAs (Decidable (edit.Concerns d))

/-- The machine after a step. -/
def perform (m : Machine Store) (step : Store.Step) : Machine Store :=
  m.act Store.connector step.action

def performAll (m : Machine Store) (steps : List Store.Step) : Machine Store :=
  m.run Store.connector (steps.map Step.action)

/-- The steps of a run that concern a database. -/
def restrict (d : String) : List Store.Step → Machine Store → List Store.Step
  | [], _ => []
  | step :: steps, m =>
    let rest := restrict d steps (m.perform step)
    if m.Concerns d step then step :: rest else rest

/-- What a step tells of a task for a database: the reply to a poll. -/
def reply? (d : String) (m : Machine Store) : Store.Step → Option Reply
  | .poll id => if m.Concerns d (.poll id) then some (m.poll Store.connector id).1 else none
  | _ => none

/-- The replies to the polls of the tasks for a database along a run. -/
def replies (d : String) : List Store.Step → Machine Store → List Reply
  | [], _ => []
  | step :: steps, m => (m.reply? d step).toList ++ replies d steps (m.perform step)

/-- The calls that a connector got for a database. -/
def eventsFor (d : String) (m : Machine Store) : List Event :=
  m.registry.trace.filter fun e => m.registry.database? e.connection = some d

/-- The number of a connection among those to a database. -/
def rankFor (d : String) (m : Machine Store) : ConnectionId → ConnectionId :=
  rank m.registry.attempted d

/-! ### What one step keeps -/

variable {D : List String} {d : String} {m k : Machine Store} {step : Store.Step}

/-- A step that concerns the database is made in both, and tells the same. -/
theorem Shows.perform (h : m.Shows D d (AlikeIn D d) k) (hd : m.Concerns d step)
    (hw : (m.perform step).registry.Leads D) :
    k.reply? d step = (m.reply? d step).map (Reply.renumber (rank D d)) ∧
      (m.perform step).Shows D d (AlikeIn D d) (k.perform step) := by
  cases step with
  | start id job => exact ⟨rfl, h.start id hd⟩
  | drop id => exact ⟨rfl, h.drop id⟩
  | change edit => exact ⟨rfl, Shows.change h fun halike => halike.change hd⟩
  | poll id =>
    obtain ⟨t, ht, htd⟩ := Option.bind_eq_some_iff.mp hd
    obtain ⟨⟨u, hu, hud⟩, hreply, hnext⟩ := h.poll (Store.connector_apart D d) ht htd hw
    have hk : k.Concerns d (.poll id) := Option.bind_eq_some_iff.mpr ⟨u, hu, hud⟩
    have hmreply : m.reply? d (.poll id) = some (m.poll Store.connector id).1 := if_pos hd
    have hkreply : k.reply? d (.poll id) = some (k.poll Store.connector id).1 := if_pos hk
    refine ⟨?_, hnext⟩
    rw [hmreply, hkreply, hreply]
    rfl

/-- Any other step is made in the first one only, and tells nothing of the database. -/
theorem Shows.performOther (h : m.Shows D d (AlikeIn D d) k) (hd : ¬ m.Concerns d step)
    (hopen : ∀ id, step ≠ .start id .close) (hw : (m.perform step).registry.Leads D) :
    m.reply? d step = none ∧ (m.perform step).Shows D d (AlikeIn D d) k := by
  cases step with
  | start id job =>
    refine ⟨rfl, ?_⟩
    rcases hjob : job.database? with _ | e
    · cases job with
      | close => exact absurd rfl (hopen id)
      | acquire => cases hjob
      | request => cases hjob
    · refine h.startOther id hjob ?_
      rintro rfl
      exact hd hjob
  | drop id => exact ⟨rfl, h.dropOther hd⟩
  | change edit => exact ⟨rfl, h.changeOther fun halike => halike.changeOther hd⟩
  | poll id => exact ⟨if_neg hd, h.pollOther (Store.connector_apart D d) hd hw⟩

/-! ### What a run keeps -/

theorem Shows.performAll {steps : List Store.Step} (h : m.Shows D d (AlikeIn D d) k)
    (hopen : ∀ id, .start id .close ∉ steps) (hw : (m.performAll steps).registry.Leads D) :
    k.replies d (m.restrict d steps) = (m.replies d steps).map (Reply.renumber (rank D d)) ∧
      (m.performAll steps).Shows D d (AlikeIn D d) (k.performAll (m.restrict d steps)) := by
  induction steps generalizing m k with
  | nil => exact ⟨rfl, h⟩
  | cons step steps ih =>
    have hnow : ∀ id, step ≠ .start id .close := fun id heq => hopen id (heq ▸ List.mem_cons_self)
    have hlater : ∀ id, .start id .close ∉ steps :=
      fun id hmem => hopen id (List.mem_cons_of_mem _ hmem)
    have hnext : (m.perform step).registry.Leads D :=
      Leads.back (run_moves (m.perform step) (steps.map Step.action)) hw
    by_cases hd : m.Concerns d step
    · obtain ⟨hreply, hshows⟩ := h.perform hd hnext
      obtain ⟨hreplies, hfinal⟩ := ih hshows hlater hw
      rw [restrict, if_pos hd, replies, replies, hreply, hreplies, List.map_append,
        Option.toList_map]
      exact ⟨rfl, hfinal⟩
    · obtain ⟨hreply, hshows⟩ := h.performOther hd hnow hnext
      obtain ⟨hreplies, hfinal⟩ := ih hshows hlater hw
      rw [restrict, if_neg hd, replies, hreply, hreplies]
      exact ⟨rfl, hfinal⟩

theorem shows_initial (D : List String) (d : String) (address : BaseAddress) :
    (initial address Store.empty).Shows D d (AlikeIn D d) (initial address Store.empty) := by
  refine ⟨⟨rfl, rfl, rfl, rfl, .empty D d, ?_⟩, .nil, ?_⟩
  · intro e slot hslot
    cases hslot
  · intro a ha
    cases ha

end Machine

/-- **Databases do not interfere.** In every run without closing tasks, the tasks for a database
are told the same, its calls are the same and its slot and attempts hold the same as in the
run of only the steps that concern it, with each connection under its rank there. -/
theorem databases_apart (address : BaseAddress) (d : String) (steps : List Store.Step)
    (hopen : ∀ id, .start id .close ∉ steps) :
    let m := Machine.initial address Store.empty
    let whole := m.performAll steps
    let alone := m.performAll (m.restrict d steps)
    (∀ n k, whole.registry.database? n = some d → whole.registry.database? k = some d →
        whole.rankFor d n = whole.rankFor d k → n = k) ∧
      m.replies d (m.restrict d steps) =
        (m.replies d steps).map (Reply.renumber (whole.rankFor d)) ∧
      alone.registry.trace = (whole.eventsFor d).map (Event.renumber (whole.rankFor d)) ∧
      alone.registry.slot? d =
        (whole.registry.slot? d).map (Slot.renumber (whole.rankFor d)) ∧
      alone.registry.attempts = whole.registry.attemptsFor d := by
  intro m whole alone
  -- all attempts of the run, those to come included, give the ranks from the start
  have hstart := Machine.shows_initial whole.registry.attempted d address
  obtain ⟨hreplies, hshows⟩ := hstart.performAll hopen List.prefix_rfl
  refine ⟨?_, hreplies, ?_, hshows.registry.slot, hshows.registry.attempts⟩
  · intro n k hn hk
    rw [← getElem?_attempted] at hn hk
    exact rank_injective hn hk
  · have htrace := hshows.registry.trace
    simp only [getElem?_attempted] at htrace
    exact htrace

/-- A connect call of one database is held back while another database is asked. -/
def heldBeside : List Store.Step :=
  [.change (.shut "connect:a"), .start "1" (.acquire "a"), .poll "1",
    .change (.insert "b" "c" [[("x", .int32 1)]]),
    .start "2" (.request .pageWithTotal (.all "b" "c")), .poll "2", .poll "1"]

/-- The same without the held one. -/
def heldOut : List Store.Step :=
  [.change (.insert "b" "c" [[("x", .int32 1)]]),
    .start "2" (.request .pageWithTotal (.all "b" "c")), .poll "2"]

/-- The request is answered all the same, on the connection that is the second one in the
whole run and the first one without the other database. -/
theorem databases_apart_held :
    (∀ id, .start id .close ∉ heldBeside) ∧
      let m := Machine.initial ⟨"mongodb://localhost:27017/", []⟩ Store.empty
      let whole := m.performAll heldBeside
      m.restrict "b" heldBeside = heldOut ∧
        whole.registry.slot? "b" = some (.established 1) ∧
        (m.performAll heldOut).registry.slot? "b" = some (.established 0) ∧
        m.replies "b" heldOut =
          (m.replies "b" heldBeside).map (Reply.renumber (whole.rankFor "b")) := by
  have hopen : ∀ id, .start id .close ∉ heldBeside := by
    intro id h
    simp [heldBeside] at h
  let m := Machine.initial ⟨"mongodb://localhost:27017/", []⟩ Store.empty
  have hrestrict : m.restrict "b" heldBeside = heldOut := by cbv
  have hwhole : (m.performAll heldBeside).registry.slot? "b" = some (.established 1) := by cbv
  have hrank : (m.performAll heldBeside).rankFor "b" 1 = 0 := by cbv
  obtain ⟨-, hreplies, -, hslot, -⟩ := databases_apart _ "b" heldBeside hopen
  rw [hrestrict] at hreplies hslot
  refine ⟨hopen, hrestrict, hwhole, ?_, hreplies⟩
  rw [hslot, hwhole]
  show some (Slot.established ((m.performAll heldBeside).rankFor "b" 1)) = _
  rw [hrank]

end Gateway

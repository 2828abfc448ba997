import Gateway.Registry.Shutdown
import Mathlib.Data.List.Perm.Basic

/-!
# Asking close calls one by one

Whether the close calls of a task are asked side by side or in turn, a poll asks them one by
one (`Asking`): it starts calls while there are some to start, and only then asks again those
that have not answered. What both rules have in common is read off that (`Asking.advances`): no
connection is left out or put in, the calls are started in their order, and the answers that a
task has are those that it was given (`Closes.Advances`). Only side by side all calls are started
by the first poll (`askTogether_queued`).
-/

namespace Gateway

/-- The connection that is closed, behind its database. -/
def CloseCall.target (call : CloseCall) : String × ConnectionId := (call.database, call.connection)

/-- The connections that a task has to close, in the order of names. -/
def Closes.targets (closes : Closes) : List (String × ConnectionId) :=
  closes.calls.map CloseCall.target ++ closes.queued

/-- The answers of close calls, by connection. -/
abbrev CloseAnswers : Type := List (ConnectionId × Except Failure Unit)

/-- The answer of a close call, once it is there. -/
def CloseCall.heard (call : CloseCall) : CloseAnswers :=
  (call.answer.map fun a => (call.connection, a)).toList

/-- The answers of close calls that are there. -/
def heardFrom (calls : List CloseCall) : CloseAnswers := calls.flatMap CloseCall.heard

theorem heardFrom_nil : heardFrom [] = [] := rfl

theorem heardFrom_cons (call : CloseCall) (calls : List CloseCall) :
    heardFrom (call :: calls) = call.heard ++ heardFrom calls := List.flatMap_cons

theorem heardFrom_append (calls more : List CloseCall) :
    heardFrom (calls ++ more) = heardFrom calls ++ heardFrom more := List.flatMap_append

/-- A call that had no answer adds the one that it gets. -/
theorem heardFrom_set {calls : List CloseCall} {i : Nat} {call : CloseCall}
    (hi : calls[i]? = some call) (ha : call.answer = none) (asked : CloseCall) :
    (heardFrom calls ++ asked.heard).Perm (heardFrom (calls.set i asked)) := by
  induction calls generalizing i with
  | nil => simp at hi
  | cons first calls ih =>
    cases i with
    | zero =>
      obtain rfl := Option.some.inj hi
      have hnone : first.heard = [] := by simp [CloseCall.heard, ha]
      rw [List.set_cons_zero, heardFrom_cons, heardFrom_cons, hnone]
      exact List.perm_append_comm
    | succ i =>
      rw [List.set_cons_succ, heardFrom_cons, heardFrom_cons, List.append_assoc]
      exact (ih hi).append_left _

namespace Closes

/-- From some close calls to where they stand when `asked` have been asked, of which the first
are those that were started. -/
structure Advances (closes : Closes) (asked : List CloseCall)
    (started : List (String × ConnectionId)) (closes' : Closes) : Prop where
  targets : closes'.targets = closes.targets
  queued : closes.queued = started ++ closes'.queued
  /-- None is asked again before all are started. -/
  order : ∃ again, asked.map CloseCall.target = started ++ again ∧
    (closes'.queued ≠ [] → again = []) ∧ again ⊆ closes.targets
  /-- The answers that there are, are those of before and those of the calls asked. -/
  heard : (heardFrom closes.calls ++ heardFrom asked).Perm (heardFrom closes'.calls)

theorem Advances.refl (closes : Closes) : closes.Advances [] [] closes where
  targets := rfl
  queued := rfl
  order := ⟨[], rfl, fun _ => rfl, List.nil_subset _⟩
  heard := by rw [heardFrom_nil, List.append_nil]

theorem Advances.trans {closes closes' closes'' : Closes} {asked more : List CloseCall}
    {started later : List (String × ConnectionId)} (h : closes.Advances asked started closes')
    (h' : closes'.Advances more later closes'') :
    closes.Advances (asked ++ more) (started ++ later) closes'' := by
  obtain ⟨again, hasked, hlate, hagain⟩ := h.order
  obtain ⟨again', hasked', hlate', hagain'⟩ := h'.order
  -- while there is one to start none was asked again, so the calls started stay in front
  have hstarted : asked.map CloseCall.target ++ later = started ++ later ++ again := by
    by_cases hnil : closes'.queued = []
    · obtain ⟨rfl, -⟩ := List.append_eq_nil_iff.mp (h'.queued.symm.trans hnil)
      rw [hasked, List.append_nil, List.append_nil]
    · rw [hasked, hlate hnil, List.append_nil, List.append_nil]
  refine ⟨h'.targets.trans h.targets, ?_, ⟨again ++ again', ?_, ?_, ?_⟩, ?_⟩
  · rw [h.queued, h'.queued, List.append_assoc]
  · rw [List.map_append, hasked', ← List.append_assoc, hstarted, List.append_assoc]
  · intro hne
    have hrest : closes'.queued ≠ [] := by
      rw [h'.queued]
      exact List.append_ne_nil_of_right_ne_nil _ hne
    rw [hlate hrest, hlate' hne, List.append_nil]
  · rw [h.targets] at hagain'
    exact List.append_subset.mpr ⟨hagain, hagain'⟩
  · rw [heardFrom_append, ← List.append_assoc]
    exact (h.heard.append_right _).trans h'.heard

/-- The calls are those of before, and behind them those that were started. -/
theorem Advances.called {closes closes' : Closes} {asked : List CloseCall}
    {started : List (String × ConnectionId)} (h : closes.Advances asked started closes') :
    closes'.calls.map CloseCall.target = closes.calls.map CloseCall.target ++ started := by
  have htargets : closes'.calls.map CloseCall.target ++ closes'.queued =
      closes.calls.map CloseCall.target ++ closes.queued := h.targets
  rw [h.queued, ← List.append_assoc] at htargets
  exact List.append_cancel_right htargets

end Closes

namespace Registry

variable {ω : Type} {c : Connector ω} {r s t : Registry ω} {closes closes' closes'' : Closes}
  {asked more : List CloseCall}

/-- The close calls of connections that are closed. -/
def closeEvents (taken : List (String × ConnectionId)) : List Event :=
  taken.map fun e => .close e.2 e.1

/-- From some close calls to where they stand when `asked` have been asked, one by one. -/
inductive Asking (c : Connector ω) :
    Closes → Registry ω → List CloseCall → Closes → Registry ω → Prop
  | done {closes : Closes} {r : Registry ω} : Asking c closes r [] closes r
  /-- The next call is started. -/
  | start {calls asked : List CloseCall} {queued : List (String × ConnectionId)}
      {database : String} {n : ConnectionId} {closes : Closes} {r s : Registry ω}
      (rest : Asking c ⟨calls ++ [(r.startClose c database n).1], queued⟩
        (r.startClose c database n).2 asked closes s) :
      Asking c ⟨calls, (database, n) :: queued⟩ r ((r.startClose c database n).1 :: asked)
        closes s
  /-- All calls were started, and one that has not answered is asked again. -/
  | ask {calls asked : List CloseCall} {i : Nat} {call : CloseCall} {closes : Closes}
      {r s : Registry ω} (hi : calls[i]? = some call) (ha : call.answer = none)
      (rest : Asking c ⟨calls.set i (r.askClose c call.database call.connection).1, []⟩
        (r.askClose c call.database call.connection).2 asked closes s) :
      Asking c ⟨calls, []⟩ r ((r.askClose c call.database call.connection).1 :: asked) closes s

theorem Asking.trans (h : Asking c closes r asked closes' s)
    (h' : Asking c closes' s more closes'' t) : Asking c closes r (asked ++ more) closes'' t := by
  induction h with
  | done => exact h'
  | start _ ih => exact .start (ih h')
  | ask hi ha _ ih => exact .ask hi ha (ih h')

/-! ## Polls ask one by one -/

theorem startCloses_asking (calls : List CloseCall) (es : List (String × ConnectionId))
    (r : Registry ω) :
    Asking c ⟨calls, es⟩ r (r.startCloses c es).1 ⟨calls ++ (r.startCloses c es).1, []⟩
      (r.startCloses c es).2 := by
  induction es generalizing calls r with
  | nil =>
    rw [startCloses, List.append_nil]
    exact .done
  | cons e es ih =>
    have hrest := ih (calls ++ [(r.startClose c e.1 e.2).1]) (r.startClose c e.1 e.2).2
    rw [List.append_assoc, List.singleton_append] at hrest
    exact .start hrest

theorem askCloses_asking (before calls : List CloseCall) (r : Registry ω) :
    ∃ asked, Asking c ⟨before ++ calls, []⟩ r asked ⟨before ++ (r.askCloses c calls).1, []⟩
      (r.askCloses c calls).2 := by
  induction calls generalizing before r with
  | nil => exact ⟨[], .done⟩
  | cons call calls ih =>
    simp only [askCloses]
    split
    · obtain ⟨asked, hrest⟩ := ih (before ++ [call]) r
      rw [List.append_assoc, List.append_assoc] at hrest
      exact ⟨asked, hrest⟩
    · rename_i hnone
      have hi : (before ++ call :: calls)[before.length]? = some call := by simp
      obtain ⟨asked, hrest⟩ :=
        ih (before ++ [(r.askClose c call.database call.connection).1])
          (r.askClose c call.database call.connection).2
      rw [List.append_assoc, List.append_assoc] at hrest
      refine ⟨(r.askClose c call.database call.connection).1 :: asked, .ask hi hnone ?_⟩
      rw [List.set_append_right _ _ (Nat.le_refl _), Nat.sub_self, List.set_cons_zero]
      exact hrest

theorem askSideBySide_asking (closes : Closes) (r : Registry ω) :
    ∃ asked, Asking c closes r asked (r.askSideBySide c closes).1
      (r.askSideBySide c closes).2 := by
  obtain ⟨calls, _ | ⟨e, queued⟩⟩ := closes
  · exact askCloses_asking [] calls r
  · exact ⟨_, startCloses_asking calls (e :: queued) r⟩

/-- Who is woken waits for an answer. -/
theorem unanswered_of_wokenCall? {calls : List CloseCall} {i : Nat}
    (h : r.wokenCall? c calls = some i) : ∃ call, calls[i]? = some call ∧ call.answer = none := by
  obtain ⟨n, -, hn⟩ := List.exists_of_findSome?_eq_some h
  obtain ⟨hlt, hcall, -⟩ := List.findIdx?_eq_some_iff_getElem.mp hn
  obtain ⟨-, hnone⟩ := Bool.and_eq_true_iff.mp hcall
  exact ⟨calls[i], List.getElem?_eq_getElem hlt, by simpa using hnone⟩

theorem askDue_asking {call : CloseCall} (h : r.askDue c closes = some (call, closes', s)) :
    Asking c closes r [call] closes' s := by
  obtain ⟨calls, _ | ⟨e, queued⟩⟩ := closes
  · obtain ⟨i, hi, hask⟩ := Option.bind_eq_some_iff.mp h
    obtain ⟨waiting, hwaiting, hasked⟩ := Option.map_eq_some_iff.mp hask
    obtain ⟨waiting', hsame, hnone⟩ := unanswered_of_wokenCall? hi
    obtain rfl := Option.some.inj (hsame.symm.trans hwaiting)
    obtain ⟨rfl, rfl, rfl⟩ := hasked
    exact .ask hwaiting hnone .done
  · obtain ⟨rfl, rfl, rfl⟩ := Option.some.inj h
    exact .start .done

theorem askUntilAnswer_asking (limit awake : Nat) (closes : Closes) (r : Registry ω) :
    ∃ asked, Asking c closes r asked (r.askUntilAnswer c limit awake closes).2.1
      (r.askUntilAnswer c limit awake closes).2.2 := by
  induction limit generalizing awake closes r with
  | zero => exact ⟨[], .done⟩
  | succ limit ih =>
    rcases hdue : r.askDue c closes with _ | ⟨call, closes', s⟩
    · simp only [askUntilAnswer, hdue]
      exact ⟨[], .done⟩
    · have hone := askDue_asking hdue
      let awake' := if call.connection ∈ c.woken s.world then awake + 1 else awake
      obtain ⟨asked, hrest⟩ := ih awake' closes' s
      simp only [askUntilAnswer, hdue]
      by_cases hanswer : call.answer.isSome
      · rw [if_pos hanswer]
        exact ⟨_, hone⟩
      · rw [if_neg hanswer]
        by_cases hawake : awake' < 2
        · rw [if_pos hawake]
          exact ⟨_, hone.trans hrest⟩
        · rw [if_neg hawake]
          exact ⟨_, hone⟩

theorem askInTurn_asking (unanswered : Nat) (closes : Closes) (r : Registry ω) :
    ∃ asked, Asking c closes r asked (r.askInTurn c unanswered closes).1
      (r.askInTurn c unanswered closes).2 := by
  induction unanswered generalizing closes r with
  | zero => exact ⟨[], .done⟩
  | succ unanswered ih =>
    obtain ⟨asked, hone⟩ := askUntilAnswer_asking (c := c) (unanswered + 1) 0 closes r
    rcases hp : r.askUntilAnswer c (unanswered + 1) 0 closes with ⟨_ | _, closes', s⟩
    all_goals rw [hp] at hone; simp only [askInTurn, hp]
    · exact ⟨asked, hone⟩
    · obtain ⟨more, hrest⟩ := ih closes' s
      exact ⟨_, hone.trans hrest⟩

/-- A poll asks close calls one by one. -/
theorem askTogether_asking (closes : Closes) (r : Registry ω) :
    ∃ asked, Asking c closes r asked (r.askTogether c closes).1 (r.askTogether c closes).2 := by
  unfold askTogether
  split
  · exact askSideBySide_asking closes r
  · exact askInTurn_asking closes.unanswered closes r

/-- Side by side the first poll starts all calls. -/
theorem askTogether_queued (h : closes.size ≤ togetherBound) (r : Registry ω) :
    (r.askTogether c closes).1.queued = [] := by
  rw [askTogether, if_pos h]
  obtain ⟨calls, _ | ⟨e, queued⟩⟩ := closes <;> rfl

/-! ## What asking does -/

/-- A call that is asked again has the target that it had. -/
theorem targets_set_askClose {calls : List CloseCall} {i : Nat} {call : CloseCall}
    (hi : calls[i]? = some call) (r : Registry ω) :
    (⟨calls.set i (r.askClose c call.database call.connection).1, []⟩ : Closes).targets =
      (⟨calls, []⟩ : Closes).targets := by
  have hsame : (calls.map CloseCall.target)[i]? =
      some (r.askClose c call.database call.connection).1.target := by
    rw [List.getElem?_map, hi]
    rfl
  obtain ⟨hlt, hget⟩ := List.getElem?_eq_some_iff.mp hsame
  rw [Closes.targets, Closes.targets, List.map_set, ← hget, List.set_getElem_self]

/-- The first call of those to start is started. -/
theorem startClose_advances (calls : List CloseCall) (queued : List (String × ConnectionId))
    (database : String) (n : ConnectionId) (r : Registry ω) :
    (⟨calls, (database, n) :: queued⟩ : Closes).Advances [(r.startClose c database n).1]
      [(database, n)] ⟨calls ++ [(r.startClose c database n).1], queued⟩ where
  targets := by
    rw [Closes.targets, List.map_append, List.append_assoc]
    rfl
  queued := rfl
  order := ⟨[], rfl, fun _ => rfl, List.nil_subset _⟩
  heard := by
    rw [heardFrom_append]

/-- A call that has not answered is asked again. -/
theorem askClose_advances {calls : List CloseCall} {i : Nat} {call : CloseCall}
    (hi : calls[i]? = some call) (ha : call.answer = none) (r : Registry ω) :
    (⟨calls, []⟩ : Closes).Advances [(r.askClose c call.database call.connection).1] []
      ⟨calls.set i (r.askClose c call.database call.connection).1, []⟩ where
  targets := targets_set_askClose hi r
  queued := rfl
  order := by
    refine ⟨[call.target], rfl, fun hne => absurd rfl hne, ?_⟩
    refine List.cons_subset.mpr ⟨?_, List.nil_subset _⟩
    exact List.mem_append_left _ (List.mem_map_of_mem (List.mem_of_getElem? hi))
  heard := by
    rw [heardFrom_cons, heardFrom_nil, List.append_nil]
    exact heardFrom_set hi ha _

/-- What asking does: the calls advance, those that are started are written down, and beside that
only the world and the log change. -/
theorem Asking.advances (h : Asking c closes r asked closes' s) :
    ∃ started, closes.Advances asked started closes' ∧
      ∃ world log, s = { r with world, log, trace := r.trace ++ closeEvents started } := by
  induction h with
  | @done closes r =>
    refine ⟨[], .refl closes, r.world, r.log, ?_⟩
    rw [closeEvents, List.map_nil, List.append_nil]
  | @start calls asked queued database n closes r s rest ih =>
    obtain ⟨started, hrest, world, log, rfl⟩ := ih
    refine ⟨_, (startClose_advances calls queued database n r).trans hrest, world, log, ?_⟩
    simp [startClose, askClose, note, say, closeEvents]
  | ask hi ha _ ih =>
    obtain ⟨started, hrest, world, log, rfl⟩ := ih
    exact ⟨_, (askClose_advances hi ha _).trans hrest, world, log, rfl⟩

end Registry

end Gateway

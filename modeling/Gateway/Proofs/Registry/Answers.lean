import Gateway.Proofs.Registry.Beside
import Gateway.Proofs.Registry.Growth

/-!
# What connect calls answer

An attempt keeps the outcome that its waiters are told, which is not always what the connect
call answered. So a connector is given a list beside its world, in which every answer of a
connect call is written down together with what the call was asked for
(`Connector.noting`). The run is the same with it (`Connector.noting_extends`), and of every
run the list has one answer for each attempt with an outcome, and none for any other
(`Machine.run_noted`).
-/

namespace Gateway

/-- What a connect call was asked for, and what it answered. -/
structure ConnectAnswer where
  connection : ConnectionId
  database : String
  url : String
  answer : Except Failure Unit

variable {ω : Type}

/-- A connector that also writes down what its connect calls answer. -/
def Connector.noting (c : Connector ω) : Connector (ω × List ConnectAnswer) where
  connect n database url w :=
    let (answer, world) := c.connect n database url w.1
    (answer, world, w.2 ++ (answer.map fun a => ⟨n, database, url, a⟩).toList)
  find n database collection query w :=
    let (answer, world) := c.find n database collection query w.1
    (answer, world, w.2)
  count n database collection filter w :=
    let (answer, world) := c.count n database collection filter w.1
    (answer, world, w.2)
  close n database w :=
    let (answer, world) := c.close n database w.1
    (answer, world, w.2)
  woken w := c.woken w.1

theorem Connector.noting_extends (c : Connector ω) : c.noting.Extends c := by
  constructor <;> intros <;> rfl

namespace Machine

/-- A run in which the answers of connect calls are written down. -/
def notingRun (c : Connector ω) (actions : List (Action ω)) (m : Machine ω) :
    Machine (ω × List ConnectAnswer) :=
  let noting : Machine (ω × List ConnectAnswer) :=
    ⟨{ m.registry with world := (m.registry.world, []) }, m.tasks⟩
  noting.run c.noting (actions.map Action.beside)

/-- The answers of connect calls along a run, in the order in which they came. -/
def connectAnswers (c : Connector ω) (actions : List (Action ω)) (m : Machine ω) :
    List ConnectAnswer :=
  (m.notingRun c actions).registry.world.2

/-- Writing the answers down changes nothing else. -/
theorem bare_notingRun (c : Connector ω) (actions : List (Action ω)) (m : Machine ω) :
    (m.notingRun c actions).bare = m.run c actions :=
  bare_run c.noting_extends _ actions

end Machine

/-- The answers of one connect call. -/
def answersOf (n : ConnectionId) (answers : List ConnectAnswer) : List ConnectAnswer :=
  answers.filter fun a => a.connection = n

/-- What was written down of an attempt: nothing before it has its outcome, and then the one
answer from which the outcome is. -/
def Attempt.Noted (address : BaseAddress) (n : ConnectionId) (a : Attempt)
    (answers : List ConnectAnswer) : Prop :=
  match a.outcome with
  | none => answers = []
  | some outcome => ∃ answer,
      answers = [⟨n, a.database, address.urlFor a.database, answer⟩] ∧
        outcome = answer.mapError (Failure.asConnect a.database)

namespace Registry

/-- What was written down is what the attempts have. -/
structure Noted (r : Registry (ω × List ConnectAnswer)) : Prop where
  known : ∀ a ∈ r.world.2, a.connection < r.attempts.length
  attempt : ∀ {n : ConnectionId} {a : Attempt}, r.attempts[n]? = some a →
    a.Noted r.address n (answersOf n r.world.2)

namespace Noted

variable {c : Connector ω} {r s : Registry (ω × List ConnectAnswer)}

theorem frame (h : r.Noted) (hw : s.world.2 = r.world.2) (ha : s.attempts = r.attempts)
    (hd : s.address = r.address) : s.Noted := by
  constructor
  · rw [hw, ha]
    exact h.known
  · rw [hw, ha, hd]
    exact h.attempt

theorem launch (h : r.Noted) (database : String) : (r.launch database).Noted := by
  have hlen : (r.launch database).attempts.length = r.attempts.length + 1 := by
    simp [Registry.launch]
  constructor
  · intro a ha
    exact hlen ▸ Nat.lt_succ_of_lt (h.known a ha)
  · intro n a hn
    simp only [Registry.launch, List.getElem?_append] at hn
    split at hn
    · exact h.attempt hn
    -- nothing was written down yet of the new attempt
    · rename_i hle
      have ha : a ∈ [⟨database, none⟩] := List.mem_of_getElem? hn
      obtain rfl := List.mem_singleton.mp ha
      have hnil : answersOf n r.world.2 = [] := by
        rw [answersOf, List.filter_eq_nil_iff]
        intro b hb
        have hlt := h.known b hb
        simp only [decide_eq_true_eq]
        exact Nat.ne_of_lt (Nat.lt_of_lt_of_le hlt (Nat.not_lt.mp hle))
      exact hnil

theorem advance (h : r.Noted) (n : ConnectionId) : (r.advance c.noting n).2.Noted := by
  rcases hn : r.attempts[n]? with _ | ⟨d, _ | outcome⟩
  · simpa [Registry.advance, hn] using h
  · obtain ⟨hlt, -⟩ := List.getElem?_eq_some_iff.mp hn
    have hnone : answersOf n r.world.2 = [] := h.attempt hn
    rw [advance_unanswered hn]
    rcases hc : c.connect n d (r.address.urlFor d) r.world.1 with ⟨_ | answer, world⟩
    all_goals simp only [Connector.noting, hc]
    -- no answer, and nothing written down
    · refine ⟨by simpa using h.known, ?_⟩
      intro k a hk
      simp only [List.getElem?_set] at hk
      simp only [Option.map_none, Option.toList_none, List.append_nil]
      split at hk
      · rename_i hkn
        subst hkn
        obtain rfl : ⟨d, none⟩ = a := by simpa [hlt] using hk
        exact hnone
      · exact h.attempt hk
    · constructor
      · intro a ha
        simp only [Option.map_some, Option.toList_some, List.mem_append,
          List.mem_singleton] at ha
        rw [List.length_set]
        rcases ha with ha | rfl
        · exact h.known a ha
        · exact hlt
      · intro k a hk
        simp only [List.getElem?_set] at hk
        simp only [answersOf, Option.map_some, Option.toList_some, List.filter_append] at hnone ⊢
        split at hk
        · rename_i hkn
          subst hkn
          obtain rfl : ⟨d, some (answer.mapError (Failure.asConnect d))⟩ = a := by
            simpa [hlt] using hk
          exact ⟨answer, by simp [hnone], rfl⟩
        · rename_i hkn
          have ha := h.attempt hk
          rw [answersOf] at ha
          simpa [hkn] using ha
  · simpa [Registry.advance, hn] using h

theorem step (h : r.Noted) (hs : Step c.noting r s) : s.Noted := by
  cases hs with
  | aside ha =>
    cases ha with
    | log log => exact h.frame rfl rfl rfl
    | query he => exact h.frame rfl rfl rfl
    | find n database collection query => exact h.frame rfl rfl rfl
    | count n database collection filter => exact h.frame rfl rfl rfl
  | launch hd => exact h.launch _
  | advance n => exact h.advance n
  | settle d ho =>
    rename_i n outcome
    obtain ⟨hatt, -, haddr⟩ := settle_frame r d n outcome
    exact h.frame (congrArg Prod.snd (settle_world r d n outcome)) hatt haddr
  | take => exact h.frame rfl rfl rfl
  | startClose d n => exact h.frame rfl rfl rfl
  | askClose d n => exact h.frame rfl rfl rfl

theorem steps (h : r.Noted) (hs : Steps c.noting r s) : s.Noted := by
  induction hs with
  | refl => exact h
  | tail _ hs ih => exact ih.step hs

end Noted

end Registry

/-! ## Runs -/

namespace Machine

open Registry

variable {c : Connector ω}

theorem act_noted {m : Machine (ω × List ConnectAnswer)} (h : m.registry.Noted) (a : Action ω) :
    (m.act c.noting a.beside).registry.Noted := by
  cases a with
  | start id job => exact h
  | drop id => exact h
  | change f => exact h.frame rfl rfl rfl
  | poll id =>
    simp only [act, Action.beside, poll]
    split
    · exact h
    · rename_i task after _
      have ht := h.steps (task.poll_steps (c := c.noting) m.registry)
      rcases hp : task.poll c.noting m.registry with ⟨next | result, r⟩
      all_goals rw [hp] at ht; exact ht

theorem run_noted {m : Machine (ω × List ConnectAnswer)} (h : m.registry.Noted)
    (actions : List (Action ω)) :
    (m.run c.noting (actions.map Action.beside)).registry.Noted := by
  induction actions generalizing m with
  | nil => exact h
  | cons a actions ih => exact ih (act_noted h a)

/-- The answers along a run are those of its attempts. -/
theorem connectAnswers_noted (c : Connector ω) (address : BaseAddress) (world : ω)
    (actions : List (Action ω)) {n : ConnectionId} {a : Attempt}
    (h : ((initial address world).run c actions).registry.attempts[n]? = some a) :
    a.Noted address n (answersOf n ((initial address world).connectAnswers c actions)) := by
  have hinit : (initial address (world, ([] : List ConnectAnswer))).registry.Noted := by
    constructor
    · intro a ha
      cases ha
    · intro n a hn
      simp [initial, Registry.initial] at hn
  have hnoted : ((initial address world).notingRun c actions).registry.Noted :=
    run_noted hinit actions
  have haddr : ((initial address world).notingRun c actions).registry.address = address :=
    (run_moves (c := c.noting) (initial address (world, [])) _).grows.address
  rw [← bare_notingRun] at h
  have ha := hnoted.attempt h
  rw [haddr] at ha
  exact ha

end Machine

end Gateway

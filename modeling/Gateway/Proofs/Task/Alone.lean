import Gateway.Proofs.Registry.Apart
import Gateway.Proofs.Task.Visits
import Mathlib.Data.List.Forall2

/-!
# The tasks for one database on their own

Beside a machine stands another one that has only the tasks for one database, over what the
registry shows of that database (`Machine.Shows`). It stays so when both start, poll or drop a
task for the database, and when the first one alone does so for other databases. A poll tells
the same in both, but for the number of the connection.
-/

namespace Gateway

/-- The database that a job is for; closing is for all. -/
def Job.database? : Job → Option String
  | .acquire database => some database
  | .request _ req => some req.database
  | .close => none

def Task.database? : Task → Option String
  | .acquire database _ => some database
  | .request _ req _ => some req.database
  | .close _ => none

def Outcome.renumber (f : ConnectionId → ConnectionId) : Outcome → Outcome
  | .connection n => .connection (f n)
  | .answer a => .answer a
  | .closed => .closed

def Reply.renumber (f : ConnectionId → ConnectionId) : Reply → Reply
  | .pending => .pending
  | .ready result => .ready (result.map (Outcome.renumber f))
  | .noTask => .noTask

/-! ## Tasks that are alike -/

section Alike

variable {T T' : ConnectionId → ConnectionId → Prop} {D : List String} {d : String} {t u : Task}

theorem Task.ofJob_database? (job : Job) : (Task.ofJob job).database? = job.database? := by
  cases job <;> rfl

theorem Task.ofJob_alike {job : Job} (h : job.database? = some d) :
    (Task.ofJob job).Alike T d (.ofJob job) := by
  cases job with
  | acquire database =>
    obtain rfl := Option.some.inj h
    exact .acquire .fresh
  | request kind req => exact .request kind (Option.some.inj h) .fresh
  | close => cases h

theorem Task.Alike.left (h : t.Alike T d u) : t.database? = some d := by
  cases h with
  | acquire => rfl
  | request kind hreq => exact congrArg some hreq

theorem Task.Alike.right (h : t.Alike T d u) : u.database? = some d := by
  cases h with
  | acquire => rfl
  | request kind hreq => exact congrArg some hreq

theorem Acquiring.Alike.self (hT : ∀ {n k}, T n k → T' n n) {a b : Acquiring}
    (h : a.Alike T b) : a.Alike T' a := by
  cases h with
  | fresh => exact .fresh
  | joined hn => exact .joined (hT hn)

theorem Requesting.Alike.self (hT : ∀ {n k}, T n k → T' n n) {a b : Requesting}
    (h : a.Alike T b) : a.Alike T' a := by
  cases h with
  | fresh => exact .fresh
  | acquiringForFind hab => exact .acquiringForFind (hab.self hT)
  | finding hn => exact .finding (hT hn)
  | acquiringForCount data hab => exact .acquiringForCount data (hab.self hT)
  | counting data hn => exact .counting data (hT hn)

/-- A task whose connections have partners has its own connections. -/
theorem Task.Alike.owned (h : t.Alike (Partner D d) d u) : t.Alike (Owned D d) d t := by
  have hT {n k : ConnectionId} (hn : Partner D d n k) : Owned D d n n := ⟨rfl, hn.1⟩
  cases h with
  | acquire hab => exact .acquire (hab.self hT)
  | request kind hreq hab => exact .request kind hreq (hab.self hT)

theorem OutcomeAlike.eq_renumber {x y : Except Failure Outcome}
    (h : OutcomeAlike (Partner D d) x y) : y = x.map (Outcome.renumber (rank D d)) := by
  cases h with
  | error f => rfl
  | connection hn =>
    rw [hn.2]
    rfl
  | answer a => rfl

end Alike

/-! ## Machines -/

variable {ω : Type} {c : Connector ω} {D : List String} {d e : String} {Alike : ω → ω → Prop}

/-- Two tasks of one name that are alike. -/
def TaskPartner (D : List String) (d : String) (b a : String × Task) : Prop :=
  b.1 = a.1 ∧ a.2.Alike (Partner D d) d b.2

namespace Machine

variable {m k : Machine ω} {id : String} {t : Task}

/-- The tasks for a database. -/
def tasksFor (d : String) (m : Machine ω) : List (String × Task) :=
  m.tasks.filter fun a => a.2.database? = some d

/-- The second machine is what the first one shows of the database. -/
structure Shows (D : List String) (d : String) (Alike : ω → ω → Prop) (m k : Machine ω) :
    Prop where
  registry : m.registry.Shows D d Alike k.registry
  tasks : List.Forall₂ (TaskPartner D d) k.tasks (m.tasksFor d)
  owned : ∀ a ∈ m.tasks, ∃ e, a.2.Alike (Owned D e) e a.2

theorem poll_at (c : Connector ω) {before after : List (String × Task)}
    (htasks : m.tasks = before ++ (id, t) :: after) (hnone : id ∉ Entries.keys before) :
    m.poll c id =
      match t.poll c m.registry with
      | (.pending next, r) => (.pending, ⟨r, before ++ (id, next) :: after⟩)
      | (.ready result, r) => (.ready result, ⟨r, before ++ after⟩) := by
  have hbefore : ∀ a ∈ before, decide (a.1 ≠ id) = true := by
    intro a ha
    apply decide_eq_true
    rintro rfl
    exact hnone (List.mem_map_of_mem ha)
  have htake : (m.tasks.takeWhile fun a => a.1 ≠ id) = before := by
    rw [htasks, List.takeWhile_append_of_pos hbefore]
    simp
  have hdrop : (m.tasks.dropWhile fun a => a.1 ≠ id) = (id, t) :: after := by
    rw [htasks, List.dropWhile_append_of_pos hbefore]
    simp
  rcases hp : t.poll c m.registry with ⟨next | result, r⟩
  all_goals simp only [poll, htake, hdrop, hp]

end Machine

namespace Machine.Shows

variable {m k : Machine ω} {id : String} {t : Task}

/-! ### Starting and dropping -/

theorem owned_start (h : Machine.Shows D d Alike m k) (id : String) {job : Job}
    (hjob : job.database? = some e) :
    ∀ a ∈ (m.start id job).tasks, ∃ e, a.2.Alike (Owned D e) e a.2 := by
  intro a ha
  rcases List.mem_append.mp ha with ha | ha
  · exact h.owned a ha
  · obtain rfl := List.mem_singleton.mp ha
    exact ⟨e, Task.ofJob_alike hjob⟩

theorem start (h : Machine.Shows D d Alike m k) (id : String) {job : Job}
    (hjob : job.database? = some d) : (m.start id job).Shows D d Alike (k.start id job) := by
  refine ⟨h.registry, ?_, h.owned_start id hjob⟩
  have hfor : (m.start id job).tasksFor d = m.tasksFor d ++ [(id, .ofJob job)] := by
    simp [tasksFor, Machine.start, Task.ofJob_database?, hjob]
  rw [hfor]
  exact List.rel_append h.tasks (.cons ⟨rfl, Task.ofJob_alike hjob⟩ .nil)

theorem startOther (h : Machine.Shows D d Alike m k) (id : String) {job : Job}
    (hjob : job.database? = some e) (he : e ≠ d) : (m.start id job).Shows D d Alike k := by
  refine ⟨h.registry, ?_, h.owned_start id hjob⟩
  have hfor : (m.start id job).tasksFor d = m.tasksFor d := by
    simp [tasksFor, Machine.start, Task.ofJob_database?, hjob, he]
  rw [hfor]
  exact h.tasks

theorem drop (h : Machine.Shows D d Alike m k) (id : String) :
    (m.drop id).Shows D d Alike (k.drop id) := by
  refine ⟨h.registry, ?_, fun a ha => h.owned a (List.mem_of_mem_filter ha)⟩
  have hfor : (m.drop id).tasksFor d = Entries.erase id (m.tasksFor d) := by
    simp only [tasksFor, Machine.drop, Entries.erase, List.filter_filter, Bool.and_comm]
  rw [hfor]
  refine List.rel_filter ?_ h.tasks
  rintro b a ⟨hname, -⟩
  show decide (b.1 ≠ id) = true ↔ decide (a.1 ≠ id) = true
  rw [hname]

theorem dropOther (h : Machine.Shows D d Alike m k)
    (hnone : ¬ ∃ a ∈ m.tasks, a.1 = id ∧ a.2.database? = some d) :
    (m.drop id).Shows D d Alike k := by
  refine ⟨h.registry, ?_, fun a ha => h.owned a (List.mem_of_mem_filter ha)⟩
  have hfor : (m.drop id).tasksFor d = m.tasksFor d := by
    unfold tasksFor Machine.drop Entries.erase
    rw [List.filter_filter]
    apply List.filter_congr
    intro a ha
    by_cases hd : a.2.database? = some d
    · have hid : a.1 ≠ id := fun hid => hnone ⟨a, ha, hid, hd⟩
      simp [hd, hid]
    · simp [hd]
  rw [hfor]
  exact h.tasks

/-! ### The world changes -/

theorem change (h : Machine.Shows D d Alike m k) {f : ω → ω} {g : ω → ω}
    (hf : ∀ {w v}, Alike w v → Alike (f w) (g v)) :
    (m.change f).Shows D d Alike (k.change g) :=
  ⟨h.registry.change (hf h.registry.world), h.tasks, h.owned⟩

theorem changeOther (h : Machine.Shows D d Alike m k) {f : ω → ω}
    (hf : ∀ {w v}, Alike w v → Alike (f w) v) : (m.change f).Shows D d Alike k :=
  ⟨h.registry.change (hf h.registry.world), h.tasks, h.owned⟩

/-! ### Polls -/

/-- The partner of the first task of a name is the first of its name. -/
theorem partner_of_split (h : Machine.Shows D d Alike m k)
    {before after : List (String × Task)} (htasks : m.tasks = before ++ (id, t) :: after)
    (hnone : id ∉ Entries.keys before) (ht : t.database? = some d) :
    ∃ front u rest, k.tasks = front ++ (id, u) :: rest ∧ id ∉ Entries.keys front ∧
      t.Alike (Partner D d) d u ∧
      List.Forall₂ (TaskPartner D d) front (before.filter fun a => a.2.database? = some d) ∧
      List.Forall₂ (TaskPartner D d) rest (after.filter fun a => a.2.database? = some d) := by
  have hfor : m.tasksFor d = (before.filter fun a => a.2.database? = some d) ++
      (id, t) :: after.filter fun a => a.2.database? = some d := by
    simp [tasksFor, htasks, ht]
  have hall := h.tasks
  rw [hfor] at hall
  have hfront := List.forall₂_take_append _ _ _ hall
  obtain ⟨⟨_, u⟩, rest, ⟨rfl, hu⟩, hrest, hdrop⟩ :=
    List.forall₂_cons_right_iff.mp (List.forall₂_drop_append _ _ _ hall)
  refine ⟨_, u, rest, ?_, ?_, hu, hfront, hrest⟩
  · rw [← hdrop, List.take_append_drop]
  · have hkeys := List.rel_map (P := Eq) (fun _ _ hab => hab.1) hfront
    rw [List.forall₂_eq_eq_eq] at hkeys
    unfold Entries.keys
    rw [hkeys]
    exact fun hmem => hnone ((List.filter_sublist.map Prod.fst).subset hmem)

/-- A task for the database is polled in both, and tells the same. -/
theorem poll (h : Machine.Shows D d Alike m k) (hc : c.Apart D d Alike)
    (ht : m.task? id = some t) (hd : t.database? = some d)
    (hw : (m.poll c id).2.registry.Leads D) :
    (∃ u, k.task? id = some u ∧ u.database? = some d) ∧
      (k.poll c id).1 = (m.poll c id).1.renumber (rank D d) ∧
      (m.poll c id).2.Shows D d Alike (k.poll c id).2 := by
  obtain ⟨before, after, htasks, hnone, hpoll⟩ := poll_of_some c ht
  have hnone := Entries.get?_eq_none_iff.mp hnone
  obtain ⟨front, u, rest, hktasks, hknone, htu, hfront, hrest⟩ :=
    h.partner_of_split htasks hnone hd
  have hkpoll := poll_at c hktasks hknone
  rw [registry_poll ht] at hw
  obtain ⟨htold, hleft⟩ := (Registry.Shows.own hc).poll h.registry htu hw
  have howned := h.owned
  rw [htasks, List.forall_mem_append, List.forall_mem_cons] at howned
  obtain ⟨hbefore, -, hafter⟩ := howned
  refine ⟨⟨u, ?_, htu.right⟩, ?_⟩
  · rw [task?, hktasks, Entries.get?_append, Entries.get?_eq_none_iff.mpr hknone]
    simp [Entries.get?]
  rcases hm : t.poll c m.registry with ⟨p, r⟩
  rcases hk : u.poll c k.registry with ⟨q, s⟩
  rw [hm, hk] at htold hleft
  rw [hpoll, hkpoll, hm, hk]
  cases htold with
  | ready hresult =>
    refine ⟨congrArg Reply.ready hresult.eq_renumber, hleft, ?_,
      List.forall_mem_append.mpr ⟨hbefore, hafter⟩⟩
    rw [tasksFor, List.filter_append]
    exact List.rel_append hfront hrest
  | @pending next next' hnext =>
    have hnow : ∀ a ∈ (id, next) :: after, ∃ e, a.2.Alike (Owned D e) e a.2 :=
      List.forall_mem_cons.mpr ⟨⟨d, hnext.owned⟩, hafter⟩
    have hfor : Machine.tasksFor d ⟨r, before ++ (id, next) :: after⟩ =
        (before.filter fun a => a.2.database? = some d) ++
          (id, next) :: after.filter fun a => a.2.database? = some d := by
      simp [tasksFor, hnext.left]
    refine ⟨rfl, hleft, ?_, List.forall_mem_append.mpr ⟨hbefore, hnow⟩⟩
    rw [hfor]
    exact List.rel_append hfront (.cons ⟨rfl, hnext⟩ hrest)

/-- A task for another database is polled in the first one only. -/
theorem pollOther (h : Machine.Shows D d Alike m k) (hc : c.Apart D d Alike)
    (hd : (m.task? id).bind Task.database? ≠ some d)
    (hw : (m.poll c id).2.registry.Leads D) : (m.poll c id).2.Shows D d Alike k := by
  rcases ht : m.task? id with _ | t
  · rw [poll_of_none ht]
    exact h
  obtain ⟨before, after, htasks, -, hpoll⟩ := poll_of_some c ht
  obtain ⟨e, halike⟩ := h.owned _ (Entries.mem_of_get?_eq_some ht)
  have he : e ≠ d := by
    rintro rfl
    rw [ht] at hd
    exact hd halike.left
  rw [registry_poll ht] at hw
  obtain ⟨htold, -, hleft⟩ :=
    (Registry.Shows.other hc he k.registry).poll ⟨rfl, h.registry⟩ halike hw
  have howned := h.owned
  rw [htasks, List.forall_mem_append, List.forall_mem_cons] at howned
  obtain ⟨hbefore, -, hafter⟩ := howned
  have hfor : m.tasksFor d = (before ++ after).filter fun a => a.2.database? = some d := by
    simp [tasksFor, htasks, halike.left, he]
  have htasks' := h.tasks
  rw [hfor] at htasks'
  rw [hpoll]
  rcases hm : t.poll c m.registry with ⟨next | result, r⟩
  all_goals rw [hm] at htold hleft
  · cases htold with
    | pending hnext =>
      have hnow : ∀ a ∈ (id, next) :: after, ∃ e, a.2.Alike (Owned D e) e a.2 :=
        List.forall_mem_cons.mpr ⟨⟨e, hnext⟩, hafter⟩
      have hfor' : Machine.tasksFor d ⟨r, before ++ (id, next) :: after⟩ =
          (before ++ after).filter fun a => a.2.database? = some d := by
        simp [tasksFor, hnext.left, he]
      refine ⟨hleft, ?_, List.forall_mem_append.mpr ⟨hbefore, hnow⟩⟩
      rw [hfor']
      exact htasks'
  · exact ⟨hleft, htasks', List.forall_mem_append.mpr ⟨hbefore, hafter⟩⟩

end Machine.Shows

end Gateway

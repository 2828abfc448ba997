import Gateway.Proofs.Task.Visits

/-!
# Every result is the end of a life

Statements about `Completes` are about the tasks that a run takes from their first poll to
their result. No result is left out by that: whatever result a poll gives, in any run, it
is the end of such a life (`Machine.completes_of_ready`).

Several tasks may have one name. Only the first of them was polled (`Queued`), so the one
behind it begins its life when it becomes the first.
-/

namespace Gateway

namespace Machine

variable {ω : Type} {c : Connector ω} {m : Machine ω} {id : String} {actions : List (Action ω)}

/-! ## Tasks of one name -/

/-- Of the tasks of one name only the first may have been polled. -/
def Queued (m : Machine ω) : Prop :=
  m.tasks.Pairwise fun a b => a.1 = b.1 → ∃ job, b.2 = .ofJob job

theorem Queued.start (h : m.Queued) (id : String) (job : Job) : (m.start id job).Queued := by
  refine List.pairwise_append.mpr ⟨h, List.pairwise_singleton _ _, ?_⟩
  intro a _ b hb _
  obtain rfl := List.mem_singleton.mp hb
  exact ⟨job, rfl⟩

theorem Queued.drop (h : m.Queued) (id : String) : (m.drop id).Queued :=
  h.sublist List.filter_sublist

theorem Queued.poll (h : m.Queued) (id : String) : (m.poll c id).2.Queued := by
  rcases ht : m.task? id with _ | t
  · rwa [poll_of_none ht]
  · obtain ⟨before, after, htasks, hnone, hpoll⟩ := poll_of_some c ht
    rw [Queued, htasks] at h
    obtain ⟨hbefore, hrest, hcross⟩ := List.pairwise_append.mp h
    obtain ⟨hfirst, hafter⟩ := List.pairwise_cons.mp hrest
    rw [hpoll]
    rcases t.poll c m.registry with ⟨next | result, r⟩
    · refine List.pairwise_append.mpr ⟨hbefore, List.pairwise_cons.mpr ⟨hfirst, hafter⟩, ?_⟩
      intro a ha b hb hab
      rcases List.mem_cons.mp hb with rfl | hb
      · exact absurd (List.mem_map.mpr ⟨a, ha, hab⟩) (Entries.get?_eq_none_iff.mp hnone)
      · exact hcross a ha b (List.mem_cons_of_mem _ hb) hab
    · refine List.pairwise_append.mpr ⟨hbefore, hafter, ?_⟩
      intro a ha b hb
      exact hcross a ha b (List.mem_cons_of_mem _ hb)

theorem run_queued (c : Connector ω) (address : BaseAddress) (world : ω)
    (actions : List (Action ω)) : ((initial address world).run c actions).Queued := by
  induction actions using List.reverseRecOn with
  | nil => exact .nil
  | append_singleton actions a ih =>
      rw [run_append]
      cases a with
      | start id job => exact ih.start id job
      | poll id => exact ih.poll id
      | drop id => exact ih.drop id
      | change f => exact ih

/-- The task behind one that is ready was not polled yet. -/
theorem Queued.behind (h : m.Queued) {t u : Task} (ht : m.task? id = some t)
    {result : Except Failure Outcome} (hr : (t.poll c m.registry).1 = .ready result)
    (hu : (m.poll c id).2.task? id = some u) : ∃ job, u = .ofJob job := by
  obtain ⟨before, after, htasks, hnone, hpoll⟩ := poll_of_some c ht
  rw [Queued, htasks] at h
  obtain ⟨hfirst, -⟩ := List.pairwise_cons.mp (List.pairwise_append.mp h).2.1
  rcases hp : t.poll c m.registry with ⟨next | result', r⟩
  · simp [hp] at hr
  · rw [hpoll, hp] at hu
    have hmem : (id, u) ∈ after := by
      simp only [task?, Entries.get?_append, hnone, Option.none_or] at hu
      exact Entries.mem_of_get?_eq_some hu
    exact hfirst _ hmem rfl

/-- A task that is the first of its name by being started is fresh. -/
theorem task?_start_of_none {other : String} {job : Job} {t : Task} (h : m.task? id = none)
    (ht : (m.start other job).task? id = some t) : other = id ∧ t = .ofJob job := by
  simp only [task?] at h
  simp only [start, task?, Entries.get?_append, h, Option.none_or, Entries.get?] at ht
  split at ht
  · rename_i ho
    exact ⟨ho, (Option.some.inj ht).symm⟩
  · simp at ht

/-! ## Lives -/

/-- The first task of a name has begun its life in the run, with some visits so far. -/
def Underway (c : Connector ω) (m : Machine ω) (id : String) (actions : List (Action ω)) : Prop :=
  ∃ job before after visits, actions = before ++ after ∧
    (m.run c before).task? id = some (.ofJob job) ∧
    ∀ more, (m.run c before).watch c id (after ++ more) =
      (visits ++ ((m.run c actions).watch c id more).1, ((m.run c actions).watch c id more).2)

theorem Underway.begin {job : Job} (h : (m.run c actions).task? id = some (.ofJob job)) :
    m.Underway c id actions :=
  ⟨job, actions, [], [], by simp, h, fun _ => rfl⟩

theorem Underway.snoc (h : m.Underway c id actions) {a : Action ω} (visits : List (Visit ω))
    (ha : ∀ more, (m.run c actions).watch c id (a :: more) =
      (visits ++ (((m.run c actions).act c a).watch c id more).1,
        (((m.run c actions).act c a).watch c id more).2)) :
    m.Underway c id (actions ++ [a]) := by
  obtain ⟨job, before, after, earlier, rfl, hjob, hwatch⟩ := h
  refine ⟨job, before, after ++ [a], earlier ++ visits, by simp, hjob, fun more => ?_⟩
  rw [run_append, run_cons, run_nil, List.append_assoc, List.singleton_append, hwatch, ha,
    List.append_assoc]

/-- Every first task of a name has begun its life. -/
theorem run_underway {address : BaseAddress} {world : ω} {t : Task}
    (ht : ((initial address world).run c actions).task? id = some t) :
    (initial address world).Underway c id actions := by
  induction actions using List.reverseRecOn generalizing t with
  | nil => simp [initial, task?, Entries.get?] at ht
  | append_singleton actions a ih =>
      have hq := run_queued c address world actions
      have hact : (initial address world).run c (actions ++ [a]) =
          ((initial address world).run c actions).act c a := by
        rw [run_append, run_cons, run_nil]
      rw [hact] at ht
      cases a with
      | start other job =>
        rcases hprev : ((initial address world).run c actions).task? id with _ | t'
        · obtain ⟨rfl, rfl⟩ := task?_start_of_none hprev ht
          exact .begin (by rw [hact]; exact ht)
        · exact (ih hprev).snoc [] fun _ => rfl
      | change f => exact (ih ht).snoc [] fun _ => rfl
      | drop other =>
        by_cases ho : other = id
        · subst ho
          simp [act, drop, task?] at ht
        · rw [act, task?_drop_of_ne ho] at ht
          refine (ih ht).snoc [] fun more => ?_
          rw [watch, if_neg ho]
          rfl
      | poll other =>
        by_cases ho : other = id
        · subst ho
          rcases hprev : ((initial address world).run c actions).task? other with _ | t'
          · rw [act, poll_of_none hprev, hprev] at ht
            simp at ht
          · rcases hp : (t'.poll c ((initial address world).run c actions).registry).1
              with next | result
            · let visit : Visit ω := ⟨t', ((initial address world).run c actions).registry⟩
              refine (ih hprev).snoc [visit] fun more => ?_
              simp only [watch, if_pos, hprev, hp]
              rfl
            -- the first is gone, and the one behind it begins
            · obtain ⟨job, rfl⟩ := hq.behind hprev hp ht
              exact .begin (by rw [hact]; exact ht)
        · rw [act, task?_poll_of_ne ho] at ht
          refine (ih ht).snoc [] fun more => ?_
          rw [watch, if_neg ho]
          rfl

/-- A poll that gives a result is the last visit of a life. -/
theorem completes_of_ready {address : BaseAddress} {world : ω} {t : Task}
    {result : Except Failure Outcome}
    (ht : ((initial address world).run c actions).task? id = some t)
    (h : (t.poll c ((initial address world).run c actions).registry).1 = .ready result) :
    ∃ job visits, Completes c job
      (visits ++ [⟨t, ((initial address world).run c actions).registry⟩]) result := by
  obtain ⟨job, before, after, visits, hactions, hjob, hwatch⟩ := run_underway ht
  refine ⟨job, visits, address, world, before, after ++ [.poll id], id, hjob, ?_⟩
  rw [hwatch]
  simp [watch, ht, h]

end Machine

end Gateway

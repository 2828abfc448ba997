import Gateway.Proofs.Task.Fits
import Mathlib.Data.List.Permutation
import Mathlib.Data.List.TakeWhile

/-!
# The visits of one task

A run mixes the polls of many tasks. Most statements follow one of them: from the moment
it is the first of its name, which a task that is ever polled has to become, through its
polls (its visits, with the registry that each finds) to its result. `Machine.watch` reads
them off a run, and `Completes` says that some run has them.

To prove something about a whole life it is enough to look at one visit and at what others
may do between two visits (`Completes.invariant`).
-/

namespace Gateway

variable {ω : Type} {c : Connector ω}

/-- A poll of a task: the task as it stands, and the registry that it finds. -/
structure Visit (ω : Type) where
  task : Task
  registry : Registry ω

/-- The registry that a visit leaves. -/
def Visit.after (c : Connector ω) (v : Visit ω) : Registry ω := (v.task.poll c v.registry).2

namespace Machine

/-- The task that a poll by a name polls. -/
def task? (m : Machine ω) (id : String) : Option Task := Entries.get? id m.tasks

/-- The visits of the first task of a name along a run, and its result if it gets there. -/
def watch (c : Connector ω) (id : String) :
    List (Action ω) → Machine ω → List (Visit ω) × Option (Except Failure Outcome)
  | [], _ => ([], none)
  | .poll other :: actions, m =>
    if other = id then
      match m.task? id with
      | none => ([], none)
      | some t =>
        match (t.poll c m.registry).1 with
        | .ready result => ([⟨t, m.registry⟩], some result)
        | .pending _ =>
          let (visits, result) := watch c id actions (m.act c (.poll other))
          (⟨t, m.registry⟩ :: visits, result)
    else watch c id actions (m.act c (.poll other))
  | .drop other :: actions, m =>
    if other = id then ([], none) else watch c id actions (m.act c (.drop other))
  | .start other job :: actions, m => watch c id actions (m.act c (.start other job))
  | .change f :: actions, m => watch c id actions (m.act c (.change f))

end Machine

/-- Some run has a task with this job, these visits and this result. -/
def Completes (c : Connector ω) (job : Job) (visits : List (Visit ω))
    (result : Except Failure Outcome) : Prop :=
  ∃ (address : BaseAddress) (world : ω) (before after : List (Action ω)) (id : String),
    ((Machine.initial address world).run c before).task? id = some (.ofJob job) ∧
      ((Machine.initial address world).run c before).watch c id after = (visits, some result)

/-! ## Polls by name -/

namespace Machine

variable {m : Machine ω} {id other : String} {t : Task}

theorem poll_of_none (h : m.task? id = none) : m.poll c id = (.noTask, m) := by
  have hdrop : (m.tasks.dropWhile fun e => e.1 ≠ id) = [] := by
    rw [List.dropWhile_eq_nil_iff]
    intro e he
    have hkey := Entries.get?_eq_none_iff.mp h
    have hne : e.1 ≠ id := fun heq => hkey (heq ▸ List.mem_map.mpr ⟨e, he, rfl⟩)
    simpa using hne
  simp only [poll, hdrop]

/-- A poll by a name is a poll of the first task of that name, in its place. -/
theorem poll_of_some (c : Connector ω) (h : m.task? id = some t) :
    ∃ before after, m.tasks = before ++ (id, t) :: after ∧ Entries.get? id before = none ∧
      m.poll c id =
        match t.poll c m.registry with
        | (.pending next, r) => (.pending, ⟨r, before ++ (id, next) :: after⟩)
        | (.ready result, r) => (.ready result, ⟨r, before ++ after⟩) := by
  obtain ⟨before, after, htasks, hnone, htake, hdrop⟩ := Entries.split_of_get?_eq_some h
  refine ⟨before, after, htasks, hnone, ?_⟩
  rcases hp : t.poll c m.registry with ⟨next | result, r⟩
  all_goals simp only [poll, htake, hdrop, hp]

theorem registry_poll (h : m.task? id = some t) :
    (m.poll c id).2.registry = (t.poll c m.registry).2 := by
  obtain ⟨before, after, -, -, hp⟩ := poll_of_some c h
  rw [hp]
  rcases t.poll c m.registry with ⟨_ | _, r⟩ <;> rfl

theorem task?_poll_self (h : m.task? id = some t) {next : Task}
    (hp : (t.poll c m.registry).1 = .pending next) : (m.poll c id).2.task? id = some next := by
  obtain ⟨before, after, -, hnone, hpoll⟩ := poll_of_some c h
  rw [hpoll]
  rcases ht : t.poll c m.registry with ⟨next' | result, r⟩
  · rw [ht] at hp
    obtain rfl := Progress.pending.inj hp
    simp [task?, Entries.get?_append, hnone, Entries.get?]
  · simp [ht] at hp

theorem task?_poll_of_ne (h : other ≠ id) : (m.poll c other).2.task? id = m.task? id := by
  rcases ho : m.task? other with _ | t
  · rw [poll_of_none ho]
  · obtain ⟨before, after, htasks, -, hpoll⟩ := poll_of_some c ho
    rw [hpoll]
    rcases t.poll c m.registry with ⟨next | result, r⟩
    all_goals simp [task?, htasks, Entries.get?_append, Entries.get?, h]

theorem task?_start (h : m.task? id = some t) (job : Job) :
    (m.start other job).task? id = some t := by
  simp only [task?] at h
  simp [task?, start, Entries.get?_append, h]

theorem task?_drop_of_ne (h : other ≠ id) : (m.drop other).task? id = m.task? id :=
  Entries.get?_erase_of_ne h m.tasks

/-! ## All tasks of a run -/

/-- The tasks after an action: those of before, one that is started, or the polled one where
it stands then. -/
theorem mem_tasks_act {act : Action ω} {e : String × Task} (he : e ∈ (m.act c act).tasks) :
    e ∈ m.tasks ∨ (∃ job, e.2 = .ofJob job) ∨
      ∃ id t, act = .poll id ∧ m.task? id = some t ∧ (t.poll c m.registry).1 = .pending e.2 := by
  cases act with
  | start id job =>
    refine (List.mem_append.mp he).imp_right fun he => .inl ⟨job, ?_⟩
    rw [List.mem_singleton.mp he]
  | drop id => exact .inl (List.mem_of_mem_filter he)
  | change f => exact .inl he
  | poll id =>
    rcases ht : m.task? id with _ | t
    · rw [act, poll_of_none ht] at he
      exact .inl he
    · obtain ⟨before, after, htasks, -, hpoll⟩ := poll_of_some c ht
      rw [act, hpoll] at he
      rw [htasks]
      rcases hp : t.poll c m.registry with ⟨next | result, r⟩
      all_goals simp only [hp, List.mem_append, List.mem_cons] at he ⊢
      · rcases he with he | rfl | he
        · exact .inl (.inl he)
        · exact .inr (.inr ⟨id, t, rfl, ht, by rw [hp]⟩)
        · exact .inl (.inr (.inr he))
      · exact .inl (he.imp_right .inr)

/-- Every task fits the registry. -/
def Fits (m : Machine ω) : Prop := ∀ e ∈ m.tasks, e.2.Fits m.registry

theorem Fits.task? (h : m.Fits) (ht : m.task? id = some t) : t.Fits m.registry :=
  h _ (Entries.mem_of_get?_eq_some ht)

theorem Fits.act (h : m.Fits) (hv : m.registry.Valid) (a : Action ω) : (m.act c a).Fits := by
  intro e he
  rcases mem_tasks_act he with he | ⟨job, hjob⟩ | ⟨id, t, rfl, ht, hp⟩
  · exact (h e he).grows (act_moves m a).grows
  · rw [hjob]
    exact Task.fits_ofJob _ job
  · have hr : (m.act c (.poll id)).registry = (t.poll c m.registry).2 := registry_poll ht
    rw [hr]
    exact Task.poll_fits hv (h.task? ht) hp

theorem run_fits (c : Connector ω) (address : BaseAddress) (world : ω)
    (actions : List (Action ω)) : ((initial address world).run c actions).Fits := by
  induction actions using List.reverseRecOn with
  | nil => exact fun e he => absurd he List.not_mem_nil
  | append_singleton actions a ih =>
      rw [run_append]
      exact ih.act (run_valid c address world actions) a

/-! ## One life -/

/-- What others do between two visits keeps `P`, and so does a visit that is not the last:
then `P` holds when the task is visited for the last time. -/
theorem watch_invariant {P : List (Visit ω) → Task → Registry ω → Prop}
    (aside : ∀ {vs t r s}, r.Valid → P vs t r → Registry.Moves c r s → P vs t s)
    (visit : ∀ {vs t r next}, r.Valid → t.Fits r → P vs t r →
      (t.poll c r).1 = .pending next → P (vs ++ [⟨t, r⟩]) next (t.poll c r).2)
    {actions : List (Action ω)} {vs visits : List (Visit ω)} {result : Except Failure Outcome}
    (hv : m.registry.Valid) (ht : m.task? id = some t) (hf : t.Fits m.registry)
    (hp : P vs t m.registry) (hw : m.watch c id actions = (visits, some result)) :
    ∃ us u r, vs ++ visits = us ++ [⟨u, r⟩] ∧ r.Valid ∧ u.Fits r ∧ P us u r ∧
      (u.poll c r).1 = .ready result := by
  -- over the actions; the machine, the task and its visits so far change with each
  induction actions generalizing m t vs visits with
  | nil => simp [watch] at hw
  | cons a actions ih =>
    have hmoves := act_moves (c := c) m a
    have hv' := hv.moves hmoves
    have hf' := hf.grows hmoves.grows
    have hp' := aside hv hp hmoves
    cases a with
    | start other job => exact ih hv' (task?_start ht job) hf' hp' hw
    | change f => exact ih hv' ht hf' hp' hw
    | drop other =>
      by_cases ho : other = id
      · simp [watch, ho] at hw
      · rw [watch, if_neg ho] at hw
        exact ih hv' ((task?_drop_of_ne ho).trans ht) hf' hp' hw
    | poll other =>
      by_cases ho : other = id
      · subst ho
        rw [watch, if_pos rfl, ht] at hw
        rcases hr : (t.poll c m.registry).1 with next | result'
        · simp only [hr] at hw
          rcases hrest : watch c other actions (m.act c (.poll other)) with ⟨rest, x⟩
          rw [hrest] at hw
          obtain ⟨rfl, rfl⟩ := Prod.mk.inj hw
          have hreg : (m.act c (.poll other)).registry = (t.poll c m.registry).2 :=
            registry_poll ht
          have hnext := visit hv hf hp hr
          have hfnext := Task.poll_fits hv hf hr
          rw [← hreg] at hnext hfnext
          obtain ⟨us, u, r, hus, h⟩ :=
            ih hv' (task?_poll_self ht hr) hfnext hnext hrest
          exact ⟨us, u, r, by rw [← hus]; simp, h⟩
        · simp only [hr] at hw
          obtain ⟨rfl, hx⟩ := Prod.mk.inj hw
          obtain rfl := Option.some.inj hx
          exact ⟨vs, t, m.registry, rfl, hv, hf, hp, hr⟩
      · rw [watch, if_neg ho] at hw
        exact ih hv' ((task?_poll_of_ne ho).trans ht) hf' hp' hw

end Machine

/-- A property of the visits so far and of where the task stands, if others and visits
that are not the last keep it, holds at the last visit of every life. -/
theorem Completes.invariant {job : Job} {visits : List (Visit ω)}
    {result : Except Failure Outcome} (h : Completes c job visits result)
    {P : List (Visit ω) → Task → Registry ω → Prop}
    (start : ∀ {r}, r.Valid → P [] (.ofJob job) r)
    (aside : ∀ {vs t r s}, r.Valid → P vs t r → Registry.Moves c r s → P vs t s)
    (visit : ∀ {vs t r next}, r.Valid → t.Fits r → P vs t r →
      (t.poll c r).1 = .pending next → P (vs ++ [⟨t, r⟩]) next (t.poll c r).2) :
    ∃ vs t r, visits = vs ++ [⟨t, r⟩] ∧ r.Valid ∧ t.Fits r ∧ P vs t r ∧
      (t.poll c r).1 = .ready result := by
  obtain ⟨address, world, before, after, id, ht, hw⟩ := h
  have hv := Machine.run_valid c address world before
  obtain ⟨vs, t, r, hvs, h⟩ := Machine.watch_invariant (P := P) aside visit hv ht
    (Task.fits_ofJob _ job) (start hv) hw
  exact ⟨vs, t, r, hvs, h⟩

end Gateway

import Gateway.Proofs.Registry.Recorded
import Gateway.Proofs.Task.Fits

/-!
# How a closing task takes the connections

The poll in which draining comes to an end finds no attempt in flight, so each slot has a
connection. All of them leave, which empties the registry, and their close calls are made
together: the first of them start in the same poll, in the order of names, and all of them
if there are not too many (`Takes`). From then on the task only goes on with these calls
(`goOnClosing_asks`), and knows them by their connections, in that order.
-/

namespace Gateway

/-- A closing task that has not taken the connections yet. -/
def Closing.Drains : Closing → Prop
  | .closing _ => False
  | _ => True

namespace Registry

variable {ω : Type} {c : Connector ω} {r s : Registry ω}

/-- From one registry to another all connections are taken, and the close calls of those in
front start. -/
structure Takes (r s : Registry ω) (taken started : List (String × ConnectionId)) : Prop where
  takes : s.takes = r.takes ++ [taken]
  slots : s.slots = []
  mem : ∀ {d : String} {n : ConnectionId}, (d, n) ∈ taken ↔ s.Opened d n ∧ n ∉ r.taken
  ascending : (taken.map Prod.fst).Pairwise (· < ·)
  trace : s.trace = r.trace ++ closeEvents started
  front : started <+: taken
  together : taken.length ≤ togetherBound → started = taken

/-- The connections are taken in ascending order of names. -/
theorem takeEstablished_ascending (hr : r.Consistent) :
    (r.takeEstablished.1.map Prod.fst).Pairwise (· < ·) := by
  have hsorted : (sortByName r.established).Pairwise fun a b => decide (a.1 ≤ b.1) = true := by
    apply List.pairwise_mergeSort
    · intro a b c hab hbc
      exact decide_eq_true (String.le_trans (of_decide_eq_true hab) (of_decide_eq_true hbc))
    · intro a b
      simpa using String.le_total a.1 b.1
  have hnames : r.takeEstablished.1.Pairwise fun a b => a.1 ≠ b.1 :=
    List.pairwise_map.mp (nodup_takeEstablished hr.names)
  rw [List.pairwise_map]
  refine hsorted.imp₂ (fun a b hle hne => ?_) hnames
  exact String.not_le.mp fun hge => hne (String.le_antisymm (of_decide_eq_true hle) hge)

/-- With no attempt in flight nothing is left behind. -/
theorem slots_take (h : r.inFlight = []) : r.takeEstablished.2.slots = [] := by
  simp only [inFlight, List.filterMap_eq_nil_iff] at h
  simp only [takeEstablished, List.filter_eq_nil_iff]
  rintro ⟨d, n | n⟩ he
  · exact absurd (h _ he) (by simp)
  · simp

/-- With no attempt in flight all connections are taken that were not taken before. -/
theorem mem_takeEstablished_iff_opened (hv : r.Valid) (h : r.inFlight = []) {d : String}
    {n : ConnectionId} : (d, n) ∈ r.takeEstablished.1 ↔ r.Opened d n ∧ n ∉ r.taken := by
  rw [mem_takeEstablished hv.consistent.names]
  constructor
  · intro hs
    have hopened : r.Opened d n := ⟨hv.consistent.database hs, hv.consistent.established hs⟩
    exact ⟨hopened, hv.accounted.held ⟨_, hs, rfl⟩⟩
  · rintro ⟨hopened, hfree⟩
    obtain ⟨s, hs, rfl⟩ := (hv.accounted.opened hopened).resolve_right hfree
    cases s with
    | connecting n =>
      rw [← mem_inFlight hv.consistent, h] at hs
      exact absurd hs List.not_mem_nil
    | established n => exact hs

/-! ## Without slots -/

/-- With no slot left no attempt waits for its answer. -/
theorem Consistent.outcome?_ne_none (hr : r.Consistent) (hs : r.slots = []) {d : String}
    {n : ConnectionId} (hd : r.database? n = some d) : r.outcome? n ≠ none := by
  intro ho
  have hslot := hr.unanswered hd ho
  rw [slot?, hs] at hslot
  simp [Entries.get?] at hslot

/-- With no slot left every connection was taken. -/
theorem Accounted.mem_taken (ha : r.Accounted) (hs : r.slots = []) {d : String}
    {n : ConnectionId} (h : r.Opened d n) : n ∈ r.taken := by
  refine (ha.opened h).resolve_left ?_
  rintro ⟨s, hslot, -⟩
  rw [slot?, hs] at hslot
  simp [Entries.get?] at hslot

/-! ## Close calls -/

/-- What the calls come to does not depend on the registry. -/
theorem finishClose_fst (closes : Closes) (r s : Registry ω) :
    (r.finishClose closes).1 = (s.finishClose closes).1 := by
  simp only [finishClose]
  split
  · split <;> rfl
  · rfl

/-- The calls are over when each was started and has answered, and then their failures are
told. -/
theorem finishClose_ready {closes : Closes} {result : Except Failure Unit}
    (h : (r.finishClose closes).1 = .ready result) :
    closes.queued = [] ∧ (∀ call ∈ closes.calls, call.answer.isSome) ∧
      result = if (closeFailures closes.calls).isEmpty then .ok ()
        else .error (.close closes.calls.length (closeFailures closes.calls)) := by
  simp only [finishClose] at h
  split at h
  · rename_i hover
    obtain ⟨hqueued, hall⟩ := Bool.and_eq_true_iff.mp hover
    refine ⟨List.isEmpty_iff.mp hqueued, List.all_eq_true.mp hall, ?_⟩
    split at h
    · rename_i hnil
      rw [if_pos hnil]
      exact (Progress.ready.inj h).symm
    · rename_i hne
      rw [if_neg hne]
      exact (Progress.ready.inj h).symm
  · simp at h

/-- A poll `p` asks close calls, from `closes` at a registry to where they stand then. -/
structure Asks (c : Connector ω) (closes : Closes) (r : Registry ω) (asked : List CloseCall)
    (started : List (String × ConnectionId)) (closes' : Closes)
    (p : Progress Closing (Except Failure Unit) × Registry ω) : Prop where
  told : p.1 = (r.finishClose closes').1
  advances : closes.Advances asked started closes'
  together : closes.size ≤ togetherBound → closes'.queued = []
  left : ∃ world log, p.2 = { r with world, log, trace := r.trace ++ closeEvents started }

/-- A task that has taken its connections goes on with their close calls, and what it asks is
written down. -/
theorem goOnClosing_asks (closes : Closes) (r : Registry ω) :
    ∃ asked started closes', Asks c closes r asked started closes' (r.goOnClosing c closes) ∧
      (r.recording []).goOnClosing c.recorded closes =
        ((r.goOnClosing c closes).1, (r.goOnClosing c closes).2.recording asked) := by
  obtain ⟨asked, hasked, hrec⟩ := askTogether_recorded (c := c) [] closes r
  obtain ⟨started, hadv, world, log, hleft⟩ := hasked.advances
  obtain ⟨log', hfin⟩ := finishClose_snd (r.askTogether c closes).1 (r.askTogether c closes).2
  refine ⟨asked, started, (r.askTogether c closes).1,
    ⟨finishClose_fst _ _ r, hadv, fun hsize => askTogether_queued hsize r, world, log', ?_⟩, ?_⟩
  · rw [goOnClosing, hfin, hleft]
    rfl
  · rw [goOnClosing, hrec]
    exact finishClose_recorded asked _ _

/-! ## Polls -/

/-- Draining ends with all connections taken, or has to go on. -/
theorem drainAndClose_cases (hv : r.Valid) {ws : List (String × ConnectionId)}
    (hw : r.Awaits ws) (hnil : ws = [] → r.inFlight = []) :
    (∃ ws', (r.drainAndClose c ws).1 = .pending (.draining ws') ∧
      (r.drainAndClose c ws).2.takes = r.takes ∧
      (r.drainAndClose c ws).2.trace = r.trace ∧
      (r.recording []).drainAndClose c.recorded ws =
        ((r.drainAndClose c ws).1, (r.drainAndClose c ws).2.recording [])) ∨
    ∃ taken asked started closes, (r.drainAndClose c ws).1 = (r.finishClose closes).1 ∧
      r.Takes (r.drainAndClose c ws).2 taken started ∧
      (⟨[], taken⟩ : Closes).Advances asked started closes ∧
      (r.recording []).drainAndClose c.recorded ws =
        ((r.drainAndClose c ws).1, (r.drainAndClose c ws).2.recording asked) := by
  have hd := drain_drained (c := c) hv.consistent hw hnil
  have htakes : (r.drain c maxRounds ws).2.takes = r.takes := by
    obtain ⟨_, _, _, _, h⟩ := drain_eq (c := c) maxRounds ws r
    rw [h]
  have ht : (r.drain c maxRounds ws).2.trace = r.trace := by
    obtain ⟨_, _, _, _, h⟩ := drain_eq (c := c) maxRounds ws r
    rw [h]
  have hm := drain_moves (c := c) maxRounds ws r
  have hrec := drain_recorded (c := c) [] maxRounds ws r
  rcases hp : r.drain c maxRounds ws with ⟨_ | ws', r'⟩
  all_goals rw [hp] at hd htakes ht hm hrec; simp only [drainAndClose, hp, hrec]
  -- no attempt is in flight, and the poll goes on to the close calls
  · right
    have hv' := hv.moves hm
    obtain ⟨asked, started, closes, ⟨htold, hadv, htogether, world, log, hleft⟩, hrecorded⟩ :=
      goOnClosing_asks (c := c) ⟨[], r'.takeEstablished.1⟩ r'.takeEstablished.2
    refine ⟨r'.takeEstablished.1, asked, started, closes, htold.trans (finishClose_fst _ _ r),
      ?_, hadv, hrecorded⟩
    rw [hleft]
    refine ⟨?_, slots_take hd, ?_, takeEstablished_ascending hv'.consistent, ?_, ?_, ?_⟩
    · rw [← htakes]
      rfl
    · intro d n
      rw [taken, ← htakes]
      exact mem_takeEstablished_iff_opened hv' hd
    · rw [← ht]
      rfl
    · exact ⟨closes.queued, hadv.queued.symm⟩
    · intro hlen
      have hqueued := hadv.queued
      rw [htogether (by simpa [Closes.size] using hlen), List.append_nil] at hqueued
      exact hqueued.symm
  · exact .inl ⟨ws', rfl, htakes, ht, trivial⟩

/-- A poll of a task that drains goes on draining, or takes the connections. -/
theorem pollClose_cases (hv : r.Valid) {stage : Closing} (hf : stage.Fits r)
    (hs : stage.Drains) :
    (∃ ws, (r.pollClose c stage).1 = .pending (.draining ws) ∧
      (r.pollClose c stage).2.takes = r.takes ∧
      (r.pollClose c stage).2.trace = r.trace ∧
      (r.recording []).pollClose c.recorded stage =
        ((r.pollClose c stage).1, (r.pollClose c stage).2.recording [])) ∨
    ∃ taken asked started closes, (r.pollClose c stage).1 = (r.finishClose closes).1 ∧
      r.Takes (r.pollClose c stage).2 taken started ∧
      (⟨[], taken⟩ : Closes).Advances asked started closes ∧
      (r.recording []).pollClose c.recorded stage =
        ((r.pollClose c stage).1, (r.pollClose c stage).2.recording asked) := by
  cases stage with
  | fresh => exact drainAndClose_cases hv (awaits_inFlight hv.consistent) id
  | draining ws => exact drainAndClose_cases hv hf.2 fun hnil => absurd hnil hf.1
  | closing closes => exact hs.elim

end Registry

end Gateway

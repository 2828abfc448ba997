import Gateway.Proofs.Address.Exposure
import Gateway.Proofs.Registry.Lockstep

/-!
# What the log tells of credentials

A registry shows its address only without credentials. Over a connector that does not look
at URLs, two registries whose addresses show the same go in lockstep
(`Connector.IgnoresUrl.lockstep`), and so they write the same log and have the same debugging
view. What an address shows is another matter: the logs of two configurations that are the
same but for the texts of credentials are the same exactly when their exposed credentials are
(`logs_eq_iff_exposed_eq`).
-/

namespace Gateway

variable {ω : Type}

/-- What connect calls answer does not depend on the URL. -/
def Connector.IgnoresUrl (c : Connector ω) : Prop :=
  ∀ n database url url' w, c.connect n database url w = c.connect n database url' w

namespace Registry

/-- Two registries differ in nothing but their addresses and the URLs of their connect calls,
and their addresses show the same. -/
structure ShowsSame (r s : Registry ω) : Prop where
  world : s.world = r.world
  slots : s.slots = r.slots
  attempts : s.attempts = r.attempts
  log : s.log = r.log
  shown : ∀ database, s.address.redactedUrlFor database = r.address.redactedUrlFor database

theorem ShowsSame.debug {r s : Registry ω} (h : r.ShowsSame s) : s.debug = r.debug := by
  simp only [Registry.debug, connectedDatabases, established, h.shown, h.slots]

end Registry

open Registry

theorem Connector.IgnoresUrl.lockstep {c : Connector ω} (hc : c.IgnoresUrl) :
    Lockstep c c ShowsSame where
  slots h := h.slots
  attempts h := h.attempts
  write _ h := { h with log := congrArg (· ++ _) h.log }
  place _ h := { h with slots := rfl }
  take _ h := { h with }
  note _ h := { h with }
  launch _ h := by
    constructor
    · exact h.world
    · simp only [launch, h.slots, h.attempts]
    · simp only [launch, h.attempts]
    · simp only [launch, h.log, h.shown]
    · exact h.shown
  advance := by
    intro r s n h
    rcases hn : r.attempts[n]? with _ | ⟨d, _ | outcome⟩
    · simp only [advance, h.attempts, hn]
      exact ⟨rfl, h⟩
    · simp only [advance, h.attempts, hn, h.world,
        hc n d (s.address.urlFor d) (r.address.urlFor d) r.world]
      exact ⟨rfl, { h with world := rfl, attempts := rfl }⟩
    · simp only [advance, h.attempts, hn]
      exact ⟨rfl, h⟩
  find := by
    intro r s n d collection query h
    rw [h.world]
    exact ⟨rfl, { h with world := rfl }⟩
  count := by
    intro r s n d collection filter h
    rw [h.world]
    exact ⟨rfl, { h with world := rfl }⟩
  close := by
    intro r s n d h
    rw [h.world]
    exact ⟨rfl, { h with world := rfl }⟩
  woken h := by rw [h.world]

/-- Registries whose addresses show the same write the same log. -/
theorem run_showsSame {c : Connector ω} (hc : c.IgnoresUrl) {a b : BaseAddress}
    (h : ∀ database, b.redactedUrlFor database = a.redactedUrlFor database) (world : ω)
    (actions : List (Action ω)) :
    ((Machine.initial a world).run c actions).registry.ShowsSame
      ((Machine.initial b world).run c actions).registry := by
  have hm : (Machine.initial a world).Same ShowsSame (Machine.initial b world) :=
    ⟨rfl, ⟨rfl, rfl, rfl, rfl, h⟩⟩
  have hactions : List.Forall₂ (Action.Same ShowsSame) actions actions := by
    rw [List.forall₂_same]
    intro act _
    cases act with
    | start id job => exact .start id job
    | poll id => exact .poll id
    | drop id => exact .drop id
    | change f => exact .change fun hs => { hs with world := congrArg f hs.world }
  exact (hc.lockstep.run hm hactions).registry

/-! ## What a log shows of an address -/

/-- A connector that never answers. -/
def Connector.silent : Connector Unit where
  connect _ _ _ w := (none, w)
  find _ _ _ _ w := (none, w)
  count _ _ _ _ w := (none, w)
  close _ _ w := (none, w)
  woken _ := []

/-- The first poll that asks for a database logs the address. -/
theorem log_acquire_silent (a : BaseAddress) (database : String) :
    ((Machine.initial a ()).run Connector.silent
        [.start "1" (.acquire database), .poll "1"]).registry.log =
      [fetchRecord database, connectRecord database (a.redactedUrlFor database)] := by
  rfl

theorem connectRecord_injective {database shown shown' : String}
    (h : connectRecord database shown = connectRecord database shown') : shown = shown' := by
  have htext := congrArg (fun record => record.message.toList) h
  simp only [connectRecord, String.toList_append, List.append_assoc,
    List.append_cancel_left_eq] at htext
  exact String.toList_inj.mp htext

/-- **Logs tell the exposed credentials and no others.** -/
theorem logs_eq_iff_exposed_eq {a b : SourceConfig} {t u : Topology} (ha : a.topology = .ok t)
    (hb : b.topology = .ok u) (h : a.Alike b) :
    (∀ database, (BaseAddress.ofTopology t).redactedUrlFor database =
        (BaseAddress.ofTopology u).redactedUrlFor database ↔ t.exposed = u.exposed) ∧
      ((∀ (ω : Type) (c : Connector ω), c.IgnoresUrl → ∀ (world : ω) (actions : List (Action ω)),
          let r := ((Machine.initial (.ofTopology t) world).run c actions).registry
          let s := ((Machine.initial (.ofTopology u) world).run c actions).registry
          r.log = s.log ∧ r.debug = s.debug) ↔
        t.exposed = u.exposed) := by
  have hshown := BaseAddress.redactedUrlFor_eq_iff (h.topology ha hb)
  refine ⟨hshown, ?_, ?_⟩
  · intro hall
    obtain ⟨hlog, -⟩ := hall Unit .silent (fun _ _ _ _ _ => rfl) ()
      [.start "1" (.acquire ""), .poll "1"]
    rw [log_acquire_silent, log_acquire_silent, List.cons.injEq, List.cons.injEq] at hlog
    exact (hshown "").mp (connectRecord_injective hlog.2.1)
  · intro hexposed ω c hc world actions
    have hsame := run_showsSame hc (fun database => ((hshown database).mpr hexposed).symm) world
      actions
    exact ⟨hsame.log.symm, hsame.debug.symm⟩

/-! ## A host with a slash -/

/-- A replica set with three servers, of which the second has a slash in its host; the two
others have passwords. -/
def slashed (first third : String) : SourceConfig where
  server := none
  replicaSet := some "rs0"
  servers := some [⟨some "d", none, some "u", some first⟩, ⟨some "a/b", none, none, none⟩,
    ⟨some "c", none, some "x", some third⟩]
  ssl := false
  authSource := none
  username := none
  password := none

def slashedTopology (first third : String) : Topology :=
  .replicaSet ⟨[⟨"d", 27017, some ⟨"u", first⟩⟩, ⟨"a/b", 27017, none⟩,
    ⟨"c", 27017, some ⟨"x", third⟩⟩], "rs0", false, none, none⟩

theorem slashed_alike {first third first' third' : String} (h1 : first ≠ "") (h3 : third ≠ "")
    (h1' : first' ≠ "") (h3' : third' ≠ "") : (slashed first third).Alike (slashed first' third') := by
  have hpair : ∀ username password : String, username ≠ "" → password ≠ "" →
      Credentials.pair? (some username) (some password) = some ⟨username, password⟩ := by
    intro username password hu hp
    have hnonEmpty : ∀ s : String, s ≠ "" → nonEmpty (some s) = some s := by
      intro s hs
      simp [nonEmpty, Option.filter, hs]
    simp only [Credentials.pair?, hnonEmpty username hu, hnonEmpty password hp]
  refine ⟨.none, rfl, .some (.cons ⟨rfl, rfl, ?_⟩ (.cons ⟨rfl, rfl, rfl⟩ (.cons ⟨rfl, rfl, ?_⟩ .nil))),
    rfl, rfl, rfl⟩
  · rw [hpair _ _ (by decide) h1, hpair _ _ (by decide) h1']
    rfl
  · rw [hpair _ _ (by decide) h3, hpair _ _ (by decide) h3']
    rfl

/-- The password before the slash is in no log. -/
theorem logs_slashed_first :
    (slashed "y" "z").topology = .ok (slashedTopology "y" "z") ∧
    (slashed "w" "z").topology = .ok (slashedTopology "w" "z") ∧
    (slashed "y" "z").Alike (slashed "w" "z") ∧
    ∀ (ω : Type) (c : Connector ω), c.IgnoresUrl → ∀ (world : ω) (actions : List (Action ω)),
      let r := ((Machine.initial (.ofTopology (slashedTopology "y" "z")) world).run c
        actions).registry
      let s := ((Machine.initial (.ofTopology (slashedTopology "w" "z")) world).run c
        actions).registry
      r.log = s.log ∧ r.debug = s.debug := by
  have hy : (slashed "y" "z").topology = .ok (slashedTopology "y" "z") := rfl
  have hw : (slashed "w" "z").topology = .ok (slashedTopology "w" "z") := rfl
  have halike : (slashed "y" "z").Alike (slashed "w" "z") :=
    slashed_alike (by decide) (by decide) (by decide) (by decide)
  exact ⟨hy, hw, halike, (logs_eq_iff_exposed_eq hy hw halike).2.mpr rfl⟩

/-- The password behind it is shown. -/
theorem not_redacted_behind_slash :
    ¬ ∀ (a b : SourceConfig) (t u : Topology), a.topology = .ok t → b.topology = .ok u →
      a.Alike b → ∀ database, (BaseAddress.ofTopology t).redactedUrlFor database =
        (BaseAddress.ofTopology u).redactedUrlFor database := by
  intro h
  have hshown := h (slashed "y" "z") (slashed "y" "w") (slashedTopology "y" "z")
    (slashedTopology "y" "w") rfl rfl
    (slashed_alike (by decide) (by decide) (by decide) (by decide)) "db"
  have hz : (BaseAddress.ofTopology (slashedTopology "y" "z")).redactedUrlFor "db" =
      "mongodb://d:27017,a/b:27017,x:z@c:27017/db?replicaSet=rs0" := by decide +kernel
  have hw : (BaseAddress.ofTopology (slashedTopology "y" "w")).redactedUrlFor "db" =
      "mongodb://d:27017,a/b:27017,x:w@c:27017/db?replicaSet=rs0" := by decide +kernel
  rw [hz, hw] at hshown
  exact absurd hshown (by decide)

end Gateway

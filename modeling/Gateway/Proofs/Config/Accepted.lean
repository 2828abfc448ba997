import Gateway.Config.Topology
import Mathlib.Data.List.Forall2

/-!
# Accepted configurations

What a configuration that passes its check looks like, and what comes out of it
(`SourceConfig.topology_eq_ok`). Two configurations may be the same but for the texts of
their credentials (`SourceConfig.Alike`); then so are their topologies.
-/

namespace Gateway

theorem forall₂_of_mapM_eq_ok {ε α β : Type} {f : α → Except ε β} {as : List α} {bs : List β}
    (h : as.mapM f = .ok bs) : List.Forall₂ (fun a b => f a = .ok b) as bs := by
  induction as generalizing bs with
  | nil =>
    obtain rfl : [] = bs := Except.ok.inj h
    exact .nil
  | cons a as ih =>
    rw [List.mapM_cons] at h
    rcases ha : f a with e | b
    · simp [ha, bind, Except.bind] at h
    · rcases hrest : as.mapM f with e | rest
      · simp [ha, hrest, bind, Except.bind] at h
      · obtain rfl : b :: rest = bs := by
          simpa [ha, hrest, bind, Except.bind, pure, Except.pure] using h
        exact .cons ha (ih hrest)

/-- The entries of a replica set, each with the server that it names. -/
def Addressed (es : List ServerConfig) (servers : List ServerAddress) : Prop :=
  List.Forall₂ (fun e s => e.address .noHostInServers = .ok s) es servers

/-- An accepted configuration names a replica set with servers, or one server. -/
theorem SourceConfig.topology_eq_ok {c : SourceConfig} {t : Topology} (h : c.topology = .ok t) :
    (∃ name es servers, nonEmpty c.replicaSet = some name ∧ c.servers = some es ∧ es ≠ [] ∧
      Addressed es servers ∧
      t = .replicaSet ⟨servers, name, c.ssl, nonEmpty c.authSource, c.shared⟩) ∨
    (∃ entry server, nonEmpty c.replicaSet = none ∧ c.server = some entry ∧
      entry.address .noServerHost = .ok server ∧
      t = .single { server with credentials := c.shared }) := by
  simp only [topology] at h
  rcases hname : nonEmpty c.replicaSet with _ | name
  · rcases hserver : c.server with _ | entry
    · simp [hname, hserver] at h
    · rcases haddress : entry.address .noServerHost with e | server
      · simp [hname, hserver, haddress, bind, Except.bind] at h
      · refine .inr ⟨entry, server, rfl, rfl, haddress, ?_⟩
        simpa [hname, hserver, haddress, bind, Except.bind, pure, Except.pure, eq_comm] using h
  · rcases hservers : c.servers with _ | es
    · simp [hname, hservers] at h
    · rcases es with _ | ⟨e, es⟩
      · simp [hname, hservers] at h
      · rcases hm : (e :: es).mapM fun e => e.address .noHostInServers with f | servers
        · simp [hname, hservers, hm, bind, Except.bind] at h
        · refine .inl ⟨name, e :: es, servers, rfl, rfl, by simp, forall₂_of_mapM_eq_ok hm, ?_⟩
          simpa [hname, hservers, hm, bind, Except.bind, pure, Except.pure, eq_comm] using h

/-! ## The same but for the texts of credentials -/

/-- Credentials are there in both or in neither. -/
structure ServerAddress.Alike (a b : ServerAddress) : Prop where
  host : a.host = b.host
  port : a.port = b.port
  credentials : a.credentials.isSome = b.credentials.isSome

inductive Topology.Alike : Topology → Topology → Prop
  | single {a b : ServerAddress} (h : a.Alike b) : Topology.Alike (.single a) (.single b)
  | replicaSet {as bs : List ServerAddress} (name : String) (ssl : Bool)
      (authSource : Option String) {c d : Option Credentials}
      (servers : List.Forall₂ ServerAddress.Alike as bs) (shared : c.isSome = d.isSome) :
      Topology.Alike (.replicaSet ⟨as, name, ssl, authSource, c⟩)
        (.replicaSet ⟨bs, name, ssl, authSource, d⟩)

structure ServerConfig.Alike (a b : ServerConfig) : Prop where
  host : a.host = b.host
  port : a.port = b.port
  credentials : (Credentials.pair? a.username a.password).isSome =
    (Credentials.pair? b.username b.password).isSome

structure SourceConfig.Alike (a b : SourceConfig) : Prop where
  server : Option.Rel ServerConfig.Alike a.server b.server
  replicaSet : a.replicaSet = b.replicaSet
  servers : Option.Rel (List.Forall₂ ServerConfig.Alike) a.servers b.servers
  ssl : a.ssl = b.ssl
  authSource : a.authSource = b.authSource
  shared : a.shared.isSome = b.shared.isSome

theorem ServerConfig.Alike.address {a b : ServerConfig} (h : a.Alike b) {fault : ConfigFault}
    {s t : ServerAddress} (hs : a.address fault = .ok s) (ht : b.address fault = .ok t) :
    s.Alike t := by
  simp only [ServerConfig.address, ← h.host, ← h.port] at hs ht
  rcases hhost : nonEmpty a.host with _ | host
  · simp [hhost] at hs
  · rw [hhost] at hs ht
    obtain rfl := Except.ok.inj hs
    obtain rfl := Except.ok.inj ht
    exact ⟨rfl, rfl, h.credentials⟩

theorem Addressed.alike {es fs : List ServerConfig} {as bs : List ServerAddress}
    (ha : Addressed es as) (hb : Addressed fs bs) (h : List.Forall₂ ServerConfig.Alike es fs) :
    List.Forall₂ ServerAddress.Alike as bs := by
  induction h generalizing as bs with
  | nil =>
    cases ha
    cases hb
    exact .nil
  | cons h _ ih =>
    cases ha with
    | cons ha hrest =>
      cases hb with
      | cons hb hrest' => exact .cons (h.address ha hb) (ih hrest hrest')

theorem SourceConfig.Alike.topology {a b : SourceConfig} (h : a.Alike b) {t u : Topology}
    (ht : a.topology = .ok t) (hu : b.topology = .ok u) : t.Alike u := by
  have hset : nonEmpty b.replicaSet = nonEmpty a.replicaSet := by rw [h.replicaSet]
  obtain ⟨name, es, as, hname, hes, -, has, rfl⟩ | ⟨e, s, hname, he, hs, rfl⟩ :=
    SourceConfig.topology_eq_ok ht
  all_goals
    obtain ⟨name', fs, bs, hname', hfs, -, hbs, rfl⟩ | ⟨f, s', hname', hf, hs', rfl⟩ :=
      SourceConfig.topology_eq_ok hu
    all_goals rw [hset, hname] at hname'
  · obtain rfl := Option.some.inj hname'
    have hservers := h.servers
    rw [hes, hfs, Option.rel_some_some] at hservers
    rw [← h.ssl, ← h.authSource]
    exact .replicaSet name a.ssl _ (has.alike hbs hservers) h.shared
  · cases hname'
  · cases hname'
  · have hserver := h.server
    rw [he, hf, Option.rel_some_some] at hserver
    obtain ⟨hhost, hport, -⟩ := hserver.address hs hs'
    exact .single ⟨hhost, hport, h.shared⟩

end Gateway

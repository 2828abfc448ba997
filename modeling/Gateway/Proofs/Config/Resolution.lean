import Gateway.Proofs.Config.Accepted
import Gateway.Proofs.Json.Exchange

/-!
# Which configurations have a topology

The fields of a configuration are optional, and several count as absent when they are empty. What
it takes to have a topology (`SourceConfig.IsValid`), and what that topology is
(`SourceConfig.Describes`), is said here field by field; the check accepts exactly the first and
gives exactly the second (`SourceConfig.resolve_exact`).
-/

namespace Gateway

/-- A text is given and not empty. -/
def Gives (text : Option String) (s : String) : Prop := text = some s ∧ s ≠ ""

/-- A text is absent or empty. -/
def GivesNothing (text : Option String) : Prop := text = none ∨ text = some ""

/-- Credentials are there exactly when both halves are given, and then they are these. -/
def IsPair (username password : Option String) (credentials : Option Credentials) : Prop :=
  ∀ u p, credentials = some ⟨u, p⟩ ↔ Gives username u ∧ Gives password p

/-- The host of an entry as it is, with its own port or the usual one. -/
structure ServerConfig.Locates (e : ServerConfig) (a : ServerAddress) : Prop where
  host : Gives e.host a.host
  port : e.port = some a.port ∨ e.port = none ∧ a.port = 27017

def ServerConfig.HasHost (e : ServerConfig) : Prop := ∃ host, Gives e.host host

namespace SourceConfig

/-- A replica set is named and has servers, all with a host; or none is named and the one server
has a host. -/
def IsValid (c : SourceConfig) : Prop :=
  (∃ name es, Gives c.replicaSet name ∧ c.servers = some es ∧ es ≠ [] ∧ ∀ e ∈ es, e.HasHost) ∨
    (GivesNothing c.replicaSet ∧ ∃ e, c.server = some e ∧ e.HasHost)

/-- The topology of a configuration. The servers of a replica set come in their order, each with
its own credentials; a single server has those of the configuration and never its own. -/
inductive Describes (c : SourceConfig) : Topology → Prop
  | replicaSet {es : List ServerConfig} {set : ReplicaSet} (hname : Gives c.replicaSet set.name)
    (hes : c.servers = some es) (hne : es ≠ [])
    (hservers : List.Forall₂
      (fun e a => e.Locates a ∧ IsPair e.username e.password a.credentials) es set.servers)
    (hssl : set.ssl = c.ssl) (hsource : ∀ a, set.authSource = some a ↔ Gives c.authSource a)
    (hshared : IsPair c.username c.password set.shared) : Describes c (.replicaSet set)
  | single {e : ServerConfig} {server : ServerAddress} (hname : GivesNothing c.replicaSet)
    (he : c.server = some e) (haddress : e.Locates server)
    (hshared : IsPair c.username c.password server.credentials) : Describes c (.single server)

end SourceConfig

/-! ## Texts and credentials -/

theorem nonEmpty_eq_some {text : Option String} {s : String} :
    nonEmpty text = some s ↔ Gives text s := by
  simp [nonEmpty, Gives, Option.filter_eq_some_iff]

theorem nonEmpty_eq_none {text : Option String} : nonEmpty text = none ↔ GivesNothing text := by
  cases text <;> simp [nonEmpty, GivesNothing]

theorem isPair_iff {username password : Option String} {credentials : Option Credentials} :
    IsPair username password credentials ↔
      credentials = Credentials.pair? username password := by
  have hpair : ∀ u p, Credentials.pair? username password = some ⟨u, p⟩ ↔
      Gives username u ∧ Gives password p := by
    intro u p
    rw [← nonEmpty_eq_some, ← nonEmpty_eq_some, Credentials.pair?]
    rcases nonEmpty username with _ | u' <;> rcases nonEmpty password with _ | p' <;> simp
  constructor
  · intro h
    refine Option.ext fun ⟨u, p⟩ => ?_
    rw [h u p, hpair u p]
  · rintro rfl
    exact hpair

/-! ## Servers -/

theorem ServerConfig.address_eq_ok {e : ServerConfig} {fault : ConfigFault} {a : ServerAddress} :
    e.address fault = .ok a ↔ e.Locates a ∧ IsPair e.username e.password a.credentials := by
  obtain ⟨host, port, credentials⟩ := a
  rw [isPair_iff]
  constructor
  · intro h
    rw [ServerConfig.address] at h
    rcases hhost : nonEmpty e.host with _ | host'
    · simp [hhost] at h
    · simp only [hhost, Except.ok.injEq, ServerAddress.mk.injEq] at h
      obtain ⟨rfl, rfl, rfl⟩ := h
      refine ⟨⟨nonEmpty_eq_some.mp hhost, ?_⟩, rfl⟩
      cases e.port <;> simp [defaultPort]
  · rintro ⟨⟨hhost, hport⟩, rfl : credentials = _⟩
    have hport' : e.port.getD defaultPort = port := by
      rcases hport with hport | ⟨hport, hdefault⟩
      · rw [hport, Option.getD_some]
      · rw [hport, Option.getD_none]
        exact hdefault.symm
    rw [ServerConfig.address, nonEmpty_eq_some.mpr hhost, hport']

theorem ServerConfig.HasHost.exists_address {e : ServerConfig} (h : e.HasHost)
    (fault : ConfigFault) : ∃ a, e.address fault = .ok a := by
  obtain ⟨host, hhost⟩ := h
  exact ⟨_, by rw [ServerConfig.address, nonEmpty_eq_some.mpr hhost]⟩

theorem ServerConfig.Locates.hasHost {e : ServerConfig} {a : ServerAddress} (h : e.Locates a) :
    e.HasHost :=
  ⟨a.host, h.host⟩

theorem addressed_iff {es : List ServerConfig} {servers : List ServerAddress} :
    Addressed es servers ↔
      List.Forall₂ (fun e a => e.Locates a ∧ IsPair e.username e.password a.credentials)
        es servers := by
  simp only [Addressed, ServerConfig.address_eq_ok]

theorem exists_addressed {es : List ServerConfig} (h : ∀ e ∈ es, e.HasHost) :
    ∃ servers, Addressed es servers := by
  induction es with
  | nil => exact ⟨[], .nil⟩
  | cons e es ih =>
    rw [List.forall_mem_cons] at h
    obtain ⟨a, ha⟩ := h.1.exists_address .noHostInServers
    obtain ⟨servers, hservers⟩ := ih h.2
    exact ⟨a :: servers, .cons ha hservers⟩

theorem Addressed.hasHost {es : List ServerConfig} {servers : List ServerAddress}
    (h : Addressed es servers) : ∀ e ∈ es, e.HasHost := by
  induction h with
  | nil => simp
  | cons ha _ ih =>
    obtain ⟨hlocates, -⟩ := ServerConfig.address_eq_ok.mp ha
    exact List.forall_mem_cons.mpr ⟨hlocates.hasHost, ih⟩

/-! ## Topologies -/

namespace SourceConfig

theorem Describes.topology_eq_ok {c : SourceConfig} {t : Topology} (h : c.Describes t) :
    c.topology = .ok t := by
  cases h with
  | @replicaSet es set hname hes hne hservers hssl hsource hshared =>
    obtain ⟨servers, name, ssl, authSource, shared⟩ := set
    obtain ⟨e, es, rfl⟩ := List.exists_cons_of_ne_nil hne
    have hmapM := Json.mapM_eq_ok_of_forall₂ (addressed_iff.mpr hservers)
    have hsource' : authSource = nonEmpty c.authSource :=
      Option.ext fun a => (hsource a).trans nonEmpty_eq_some.symm
    obtain rfl : ssl = c.ssl := hssl
    obtain rfl : shared = c.shared := isPair_iff.mp hshared
    rw [topology, nonEmpty_eq_some.mpr hname, hes, Option.getD_some, hsource']
    simp only [hmapM]
    rfl
  | @single e server hname he haddress hshared =>
    obtain ⟨host, port, credentials⟩ := server
    have hown : e.address .noServerHost =
        .ok ⟨host, port, Credentials.pair? e.username e.password⟩ :=
      ServerConfig.address_eq_ok.mpr ⟨⟨haddress.host, haddress.port⟩, isPair_iff.mpr rfl⟩
    obtain rfl : credentials = c.shared := isPair_iff.mp hshared
    rw [topology, nonEmpty_eq_none.mpr hname, he]
    simp only [hown]
    rfl

theorem describes_of_topology_eq_ok {c : SourceConfig} {t : Topology} (h : c.topology = .ok t) :
    c.Describes t := by
  obtain ⟨name, es, servers, hname, hes, hne, hservers, rfl⟩ | ⟨e, server, hname, he, hown, rfl⟩ :=
    SourceConfig.topology_eq_ok h
  · exact .replicaSet (nonEmpty_eq_some.mp hname) hes hne (addressed_iff.mp hservers) rfl
      (fun a => nonEmpty_eq_some) (isPair_iff.mpr rfl)
  · obtain ⟨⟨hhost, hport⟩, -⟩ := ServerConfig.address_eq_ok.mp hown
    exact .single (nonEmpty_eq_none.mp hname) he ⟨hhost, hport⟩ (isPair_iff.mpr rfl)

theorem Describes.isValid {c : SourceConfig} {t : Topology} (h : c.Describes t) : c.IsValid := by
  cases h with
  | replicaSet hname hes hne hservers =>
    exact .inl ⟨_, _, hname, hes, hne, (addressed_iff.mpr hservers).hasHost⟩
  | single hname he haddress => exact .inr ⟨hname, _, he, haddress.hasHost⟩

theorem IsValid.exists_describes {c : SourceConfig} (h : c.IsValid) : ∃ t, c.Describes t := by
  obtain ⟨name, es, hname, hes, hne, hhosts⟩ | ⟨hname, e, he, hhost⟩ := h
  · obtain ⟨servers, hservers⟩ := exists_addressed hhosts
    exact ⟨.replicaSet ⟨servers, name, c.ssl, nonEmpty c.authSource, c.shared⟩,
      .replicaSet hname hes hne (addressed_iff.mp hservers) rfl (fun a => nonEmpty_eq_some)
        (isPair_iff.mpr rfl)⟩
  · obtain ⟨a, ha⟩ := hhost.exists_address .noServerHost
    obtain ⟨⟨hhost, hport⟩, -⟩ := ServerConfig.address_eq_ok.mp ha
    exact ⟨.single { a with credentials := c.shared },
      .single hname he ⟨hhost, hport⟩ (isPair_iff.mpr rfl)⟩

theorem resolve_eq_ok {c : SourceConfig} {t : Topology} : c.resolve = .ok t ↔ c.Describes t := by
  rw [resolve, Json.mapError_eq_ok]
  exact ⟨describes_of_topology_eq_ok, Describes.topology_eq_ok⟩

/-- **The check accepts exactly the valid configurations.** What comes out of it is the topology
that the configuration describes and no other; every configuration that is not valid fails with a
configuration failure. -/
theorem resolve_exact (c : SourceConfig) :
    ((∃ t, c.resolve = .ok t) ↔ c.IsValid) ∧ (∀ t, c.resolve = .ok t ↔ c.Describes t) ∧
      (¬ c.IsValid → ∃ message, c.resolve = .error (.config message)) := by
  have hvalid : (∃ t, c.resolve = .ok t) ↔ c.IsValid := by
    simp only [resolve_eq_ok]
    exact ⟨fun ⟨_, h⟩ => h.isValid, IsValid.exists_describes⟩
  refine ⟨hvalid, fun t => resolve_eq_ok, fun hinvalid => ?_⟩
  rcases ht : c.topology with fault | t
  · exact ⟨fault.message, by rw [resolve, ht]; rfl⟩
  · exact absurd (hvalid.mp ⟨t, by rw [resolve, ht]; rfl⟩) hinvalid

end SourceConfig

end Gateway

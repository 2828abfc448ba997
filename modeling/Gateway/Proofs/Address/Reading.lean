import Gateway.Proofs.Address.Layout
import Gateway.Proofs.Config.Accepted
import Gateway.Proofs.Decimal.ReadBack

/-!
# Reading a URL back

A reader of connection URLs (`Location.read?`) that knows nothing of how they are built: the
authority ends at the first slash and has an entry between any two commas; an entry may begin
with user info up to an at sign, and ends with a port; the database ends at the first question
mark, and the parameters stand between ampersands. What it reads from the URL of an accepted
configuration is what the configuration says (`read?_urlFor`), if the hosts, the database and
the texts of the parameters have none of the signs that the reader looks for there.
-/

namespace Gateway

/-! ## The reader -/

/-- The texts before and behind the first sign of its kind. -/
def cut? (a : Char) : List Char → Option (List Char × List Char)
  | [] => none
  | c :: cs => if c = a then some ([], cs) else (cut? a cs).map fun p => (c :: p.1, p.2)

/-- The texts before and behind the last sign of its kind. -/
def cutLast? (a : Char) (cs : List Char) : Option (List Char × List Char) :=
  (cut? a cs.reverse).map fun p => (p.2.reverse, p.1.reverse)

/-- What a URL says. -/
structure Location where
  servers : List ServerAddress
  database : String
  params : List (String × String)
deriving DecidableEq, Repr

namespace Location

def readCredentials? (cs : List Char) : Option Credentials := do
  let (username, password) ← cut? ':' cs
  pure ⟨← Percent.decode? username, ← Percent.decode? password⟩

def readEndpoint? (credentials : Option Credentials) (cs : List Char) : Option ServerAddress := do
  let (host, port) ← cutLast? ':' cs
  let port ← (Decimal.readUnsigned (Decimal.maxOfBits 16) port).toOption
  pure ⟨String.ofList host, UInt16.ofNat port, credentials⟩

def readServer? (cs : List Char) : Option ServerAddress :=
  match cut? '@' cs with
  | none => readEndpoint? none cs
  | some (userinfo, rest) => do readEndpoint? (some (← readCredentials? userinfo)) rest

def readParam? (cs : List Char) : Option (String × String) := do
  let (name, value) ← cut? '=' cs
  pure (String.ofList name, String.ofList value)

def read? (url : String) : Option Location := do
  let rest ← BaseAddress.behind? scheme.toList url.toList
  let (authority, rest) ← cut? '/' rest
  let servers ← (authority.splitOn ',').mapM readServer?
  match cut? '?' rest with
  | none => pure ⟨servers, String.ofList rest, []⟩
  | some (database, rest) =>
    pure ⟨servers, String.ofList database, ← (rest.splitOn '&').mapM readParam?⟩

end Location

/-! ## What a topology says -/

namespace Topology

/-- The servers with the credentials that each of them is to be asked with. If some server
has its own, each has its own; else the shared ones are for the first. -/
def placed : Topology → List ServerAddress
  | .single server => [server]
  | .replicaSet set =>
    if ∃ s ∈ set.servers, s.credentials ≠ none then set.servers
    else
      match set.servers with
      | [] => []
      | s :: servers => { s with credentials := set.shared } :: servers

def parameters : Topology → List (String × String)
  | .single _ => []
  | .replicaSet set =>
    (if set.ssl then [("ssl", "true")] else []) ++ ("replicaSet", set.name) ::
      set.authSource.toList.map fun source => ("authSource", source)

/-- The credentials beside the servers of a configuration. -/
def topLevel : Topology → Option Credentials
  | .single server => server.credentials
  | .replicaSet set => set.shared

def servers : Topology → List ServerAddress
  | .single server => [server]
  | .replicaSet set => set.servers

/-- The texts in the URL have none of the signs that end them. -/
structure Readable (t : Topology) : Prop where
  host : ∀ s ∈ t.servers, '/' ∉ s.host.toList ∧ ',' ∉ s.host.toList ∧ '@' ∉ s.host.toList
  param : ∀ p ∈ t.parameters, '&' ∉ p.2.toList

end Topology

/-! ## Cutting -/

theorem cut?_append {a : Char} {xs : List Char} (h : a ∉ xs) (ys : List Char) :
    cut? a (xs ++ a :: ys) = some (xs, ys) := by
  induction xs with
  | nil => simp [cut?]
  | cons x xs ih =>
    rw [List.mem_cons, not_or] at h
    simp [cut?, Ne.symm h.1, ih h.2]

theorem cut?_of_notMem {a : Char} {xs : List Char} (h : a ∉ xs) : cut? a xs = none := by
  induction xs with
  | nil => rfl
  | cons x xs ih =>
    rw [List.mem_cons, not_or] at h
    simp [cut?, Ne.symm h.1, ih h.2]

theorem cutLast?_append {a : Char} {ys : List Char} (h : a ∉ ys) (xs : List Char) :
    cutLast? a (xs ++ a :: ys) = some (xs, ys) := by
  have hreverse : (xs ++ a :: ys).reverse = ys.reverse ++ a :: xs.reverse := by simp
  have hys : a ∉ ys.reverse := by simpa using h
  rw [cutLast?, hreverse, cut?_append hys, Option.map_some, List.reverse_reverse,
    List.reverse_reverse]

theorem mem_intercalate {a b : Char} {ls : List (List Char)} (h : a ∈ [b].intercalate ls) :
    a = b ∨ ∃ l ∈ ls, a ∈ l := by
  induction ls with
  | nil => simp at h
  | cons l ls ih =>
    rcases ls with _ | ⟨l', ls⟩
    · exact .inr ⟨l, List.mem_cons_self, by simpa using h⟩
    · rw [List.intercalate_cons_cons, List.append_assoc, List.mem_append, List.mem_append,
        List.mem_singleton] at h
      rcases h with h | rfl | h
      · exact .inr ⟨l, List.mem_cons_self, h⟩
      · exact .inl rfl
      · exact (ih h).imp_right fun ⟨k, hk, ha⟩ => ⟨k, List.mem_cons_of_mem _ hk, ha⟩

/-- Reading each of some texts gives back what was written. -/
theorem mapM_written {α β : Type} {read? : β → Option α} {write : α → β} {as : List α}
    (h : ∀ a ∈ as, read? (write a) = some a) : (as.map write).mapM read? = some as := by
  induction as with
  | nil => rfl
  | cons a as ih =>
    rw [List.forall_mem_cons] at h
    simp [h.1, ih h.2]

namespace BaseAddress

open Location

/-! ## One server -/

theorem toList_endpoint (s : ServerAddress) :
    (endpoint s).toList = s.host.toList ++ ':' :: Decimal.digits s.port.toNat := by
  simp [endpoint, Decimal.ofNat, String.toList_append]

theorem notMem_digits {a : Char} (ha : ¬ Decimal.isDigit a) (n : Nat) : a ∉ Decimal.digits n :=
  fun h => ha (Decimal.isDigit_of_mem_digits h)

theorem readEndpoint?_endpoint (c : Option Credentials) (s : ServerAddress) :
    readEndpoint? c (endpoint s).toList = some { s with credentials := c } := by
  have hcut : cutLast? ':' (endpoint s).toList =
      some (s.host.toList, Decimal.digits s.port.toNat) := by
    rw [toList_endpoint, cutLast?_append (notMem_digits (by decide) _)]
  have hport : Decimal.readUnsigned (Decimal.maxOfBits 16) (Decimal.digits s.port.toNat) =
      .ok s.port.toNat := by
    have hlt : s.port.toNat < 65536 := s.port.toNat_lt
    exact Decimal.readUnsigned_digits (Nat.le_of_lt_succ hlt)
  simp [readEndpoint?, hcut, hport, Except.toOption]

theorem readCredentials?_userinfoText (c : Credentials) :
    readCredentials? (userinfoText c) = some c := by
  have hcut : cut? ':' (userinfoText c) =
      some ((Percent.encode c.username).toList, (Percent.encode c.password).toList) :=
    cut?_append (Percent.notMem_encode (by decide) _) _
  simp [readCredentials?, hcut, Percent.decode?_encode]

/-- A server in the list of hosts, behind its credentials. -/
def serverText (s : ServerAddress) : List Char :=
  (optionalUserinfo s.credentials).toList ++ (endpoint s).toList

theorem notMem_serverText {a : Char} (ha : a ∈ Percent.separators) (hcolon : a ≠ ':')
    (hat : a ≠ '@') (hdigit : ¬ Decimal.isDigit a) {s : ServerAddress} (hs : a ∉ s.host.toList) :
    a ∉ serverText s := by
  have hinfo : a ∉ (optionalUserinfo s.credentials).toList := by
    cases s.credentials with
    | none => simp [optionalUserinfo]
    | some c => simp [optionalUserinfo, toList_userinfo, notMem_userinfoText ha hcolon c, hat]
  simp [serverText, hinfo, toList_endpoint, hs, hcolon, notMem_digits hdigit]

theorem readServer?_serverText {s : ServerAddress} (hs : '@' ∉ s.host.toList) :
    readServer? (serverText s) = some s := by
  have hport : '@' ∉ Decimal.digits s.port.toNat := notMem_digits (by decide) _
  have hat : '@' ∉ (endpoint s).toList := by simp [toList_endpoint, hs, hport]
  rcases hc : s.credentials with _ | c
  · have htext : serverText s = (endpoint s).toList := by simp [serverText, hc, optionalUserinfo]
    rw [readServer?, htext, cut?_of_notMem hat]
    show readEndpoint? none (endpoint s).toList = some s
    rw [readEndpoint?_endpoint, ← hc]
  · have htext : serverText s = userinfoText c ++ '@' :: (endpoint s).toList := by
      simp [serverText, hc, optionalUserinfo, toList_userinfo]
    have hinfo : '@' ∉ userinfoText c := notMem_userinfoText (by decide) (by decide) c
    rw [readServer?, htext, cut?_append hinfo]
    show ((readCredentials? (userinfoText c)).bind fun c =>
      readEndpoint? (some c) (endpoint s).toList) = some s
    rw [readCredentials?_userinfoText, Option.bind_some, readEndpoint?_endpoint, ← hc]

/-! ## All servers -/

theorem append_intercalate (xs l : List Char) (ls : List (List Char)) :
    xs ++ [','].intercalate (l :: ls) = [','].intercalate ((xs ++ l) :: ls) := by
  rcases ls with _ | ⟨l', ls⟩
  · simp
  · simp [List.intercalate_cons_cons]

/-- The hosts are the servers with the credentials that each is to be asked with. -/
theorem toList_authority {t : Topology} (h : t.servers ≠ []) :
    (authority t).toList = [','].intercalate (t.placed.map serverText) := by
  cases t with
  | single server => simp [authority, Topology.placed, serverText, String.toList_append]
  | replicaSet set =>
    obtain ⟨servers, name, ssl, source, shared⟩ := set
    by_cases hany : ∃ s ∈ servers, s.credentials ≠ none
    · have hplace : CredentialPlacement.of servers = .perServer := by
        simpa [CredentialPlacement.of, Option.isSome_iff_ne_none] using hany
      simp only [authority, hplace, leading, String.empty_append, String.toList_intercalate,
        Topology.placed, if_pos hany, List.map_map]
      congr 1
      apply List.map_congr_left
      intro s _
      simp [entry, serverText, String.toList_append]
    · have hplace : CredentialPlacement.of servers = .sharedLeading := by
        simpa [CredentialPlacement.of, Option.isSome_iff_ne_none] using hany
      have hbare : ∀ s ∈ servers, (entry .sharedLeading s).toList = serverText s := by
        intro s hs
        have hnone : s.credentials = none := by
          by_contra hsome
          exact hany ⟨s, hs, hsome⟩
        simp [entry, serverText, hnone, optionalUserinfo]
      rcases servers with _ | ⟨s, servers⟩
      · exact absurd rfl h
      · rw [List.forall_mem_cons] at hbare
        have hrest : (servers.map (entry .sharedLeading)).map String.toList =
            servers.map serverText := by
          rw [List.map_map]
          exact List.map_congr_left hbare.2
        simp only [authority, hplace, leading, String.toList_append, String.toList_intercalate,
          Topology.placed, if_neg hany, List.map_cons, hrest]
        exact append_intercalate _ _ _

theorem params_ofTopology (t : Topology) : (ofTopology t).params = t.parameters := by
  cases t with
  | single server => rfl
  | replicaSet set =>
    simp only [ofTopology, setParams, Topology.parameters]
    rcases set.authSource with _ | source <;> simp

theorem host_of_mem_placed {t : Topology} {s : ServerAddress} (hs : s ∈ t.placed) :
    ∃ s' ∈ t.servers, s.host = s'.host := by
  cases t with
  | single server => exact ⟨s, hs, rfl⟩
  | replicaSet set =>
    simp only [Topology.placed] at hs
    split at hs
    · exact ⟨s, hs, rfl⟩
    · rcases hset : set.servers with _ | ⟨s', servers⟩
      · simp [hset] at hs
      · simp only [hset, List.mem_cons] at hs
        simp only [Topology.servers, hset]
        rcases hs with rfl | hs
        · exact ⟨s', List.mem_cons_self, rfl⟩
        · exact ⟨s, List.mem_cons_of_mem _ hs, rfl⟩

/-! ## Parameters -/

theorem name_of_mem_parameters {t : Topology} {p : String × String} (hp : p ∈ t.parameters) :
    p.1 ∈ ["ssl", "replicaSet", "authSource"] := by
  cases t with
  | single server => simp [Topology.parameters] at hp
  | replicaSet set =>
    simp only [Topology.parameters, List.mem_append, List.mem_cons, List.mem_map,
      Option.mem_toList] at hp
    rcases hp with hp | rfl | ⟨source, -, rfl⟩
    · split at hp
      · rw [List.mem_singleton.mp hp]
        simp
      · cases hp
    · simp
    · simp

theorem notMem_name {t : Topology} {p : String × String} (hp : p ∈ t.parameters) :
    '=' ∉ p.1.toList ∧ '&' ∉ p.1.toList := by
  have hnames : ∀ name ∈ ["ssl", "replicaSet", "authSource"],
      '=' ∉ name.toList ∧ '&' ∉ name.toList := by decide
  exact hnames p.1 (name_of_mem_parameters hp)

theorem toList_paramText {params : List (String × String)} (h : params ≠ []) :
    (paramText params).toList =
      '?' :: ['&'].intercalate (params.map fun p => p.1.toList ++ '=' :: p.2.toList) := by
  have hparam : String.toList ∘ (fun p : String × String => p.1 ++ "=" ++ p.2) =
      fun p => p.1.toList ++ '=' :: p.2.toList := by
    funext p
    simp [String.toList_append]
  rw [paramText.eq_2 params h, String.toList_append, String.toList_intercalate, List.map_map,
    hparam]
  rfl

/-- What stands behind the hosts reads back. -/
theorem read_behindHosts {t : Topology} (h : t.Readable) {database : String}
    (hdatabase : '?' ∉ database.toList) (servers : List ServerAddress) :
    (match cut? '?' (behindHosts t database).toList with
      | none => some ⟨servers, String.ofList (behindHosts t database).toList, []⟩
      | some (database, rest) => do
        pure ⟨servers, String.ofList database, ← (rest.splitOn '&').mapM readParam?⟩) =
      some (⟨servers, database, t.parameters⟩ : Location) := by
  rw [behindHosts, String.toList_append, params_ofTopology]
  by_cases hnil : t.parameters = []
  · have htext : (paramText t.parameters).toList = [] := by simp [hnil, paramText]
    rw [htext, List.append_nil, cut?_of_notMem hdatabase, hnil, String.ofList_toList]
  · let write (p : String × String) : List Char := p.1.toList ++ '=' :: p.2.toList
    have hsplit : (['&'].intercalate (t.parameters.map write)).splitOn '&' =
        t.parameters.map write := by
      refine List.splitOn_intercalate _ ?_ (by simpa using hnil)
      intro l hl
      obtain ⟨p, hp, rfl⟩ := List.mem_map.mp hl
      simp [write, (notMem_name hp).2, h.param p hp]
    have hread : (t.parameters.map write).mapM readParam? = some t.parameters := by
      refine mapM_written fun p hp => ?_
      simp [readParam?, write, cut?_append (notMem_name hp).1]
    rw [toList_paramText hnil, cut?_append hdatabase]
    show (do
      pure (⟨servers, String.ofList database.toList, ← ((['&'].intercalate
        (t.parameters.map write)).splitOn '&').mapM readParam?⟩ : Location)) = _
    rw [hsplit, hread, String.ofList_toList]
    rfl

/-- The hosts read back. -/
theorem read_authority {t : Topology} (hne : t.servers ≠ []) (h : t.Readable) :
    '/' ∉ (authority t).toList ∧
      ((authority t).toList.splitOn ',').mapM readServer? = some t.placed := by
  have hplaced : t.placed ≠ [] := by
    cases t with
    | single server => simp [Topology.placed]
    | replicaSet set =>
      simp only [Topology.placed]
      split
      · exact hne
      · rcases hset : set.servers with _ | ⟨s, servers⟩
        · exact absurd hset hne
        · simp
  have hhost : ∀ s ∈ t.placed, '/' ∉ s.host.toList ∧ ',' ∉ s.host.toList ∧
      '@' ∉ s.host.toList := by
    intro s hs
    obtain ⟨s', hs', heq⟩ := host_of_mem_placed hs
    exact heq ▸ h.host s' hs'
  rw [toList_authority hne]
  constructor
  · intro hslash
    rcases mem_intercalate hslash with hcomma | ⟨l, hl, hmem⟩
    · exact absurd hcomma (by decide)
    · obtain ⟨s, hs, rfl⟩ := List.mem_map.mp hl
      exact notMem_serverText (by decide) (by decide) (by decide) (by decide) (hhost s hs).1 hmem
  · rw [List.splitOn_intercalate _ ?_ (by simpa using hplaced)]
    · exact mapM_written fun s hs => readServer?_serverText (hhost s hs).2.2
    · intro l hl
      obtain ⟨s, hs, rfl⟩ := List.mem_map.mp hl
      exact notMem_serverText (by decide) (by decide) (by decide) (by decide) (hhost s hs).2.1

end BaseAddress

theorem SourceConfig.servers_topology {c : SourceConfig} {t : Topology} (h : c.topology = .ok t) :
    t.servers ≠ [] ∧ t.topLevel = c.shared := by
  obtain ⟨name, es, servers, -, -, hes, hservers, rfl⟩ | ⟨entry, server, -, -, -, rfl⟩ :=
    topology_eq_ok h
  · refine ⟨?_, rfl⟩
    rintro rfl
    cases hservers
    exact hes rfl
  · exact ⟨by simp [Topology.servers], rfl⟩

/-- **A connection URL reads back.** From the URL of an accepted configuration the reader gets
every server with its port and with the credentials that are placed in front of it, the
database and the parameters. -/
theorem read?_urlFor {c : SourceConfig} {t : Topology} (hc : c.topology = .ok t)
    (h : t.Readable) {database : String} (hdatabase : '?' ∉ database.toList) :
    Location.read? ((BaseAddress.ofTopology t).urlFor database) =
        some ⟨t.placed, database, t.parameters⟩ ∧
      t.topLevel = c.shared := by
  obtain ⟨hservers, htop⟩ := c.servers_topology hc
  obtain ⟨hslash, hread⟩ := BaseAddress.read_authority hservers h
  refine ⟨?_, htop⟩
  have htext : ((BaseAddress.ofTopology t).urlFor database).toList = scheme.toList ++
      ((BaseAddress.authority t).toList ++ '/' :: (BaseAddress.behindHosts t database).toList) := by
    simp [BaseAddress.urlFor_ofTopology, String.toList_append]
  rw [Location.read?, htext, BaseAddress.behind?_append, Option.bind_eq_bind, Option.bind_some,
    cut?_append hslash, Option.bind_eq_bind, Option.bind_some]
  show (((BaseAddress.authority t).toList.splitOn ',').mapM Location.readServer?).bind _ = _
  rw [hread, Option.bind_some]
  exact BaseAddress.read_behindHosts h hdatabase t.placed

/-! ## A replica set with shared credentials -/

/-- Its texts have in them what separates the parts of a URL. -/
def clustered : SourceConfig where
  server := none
  replicaSet := some "rs=1"
  servers := some [⟨some "::1", some 1, none, none⟩, ⟨some "b", none, none, none⟩]
  ssl := true
  authSource := some "admin"
  username := some "a:b@c"
  password := some "é/,?"

def clusteredTopology : Topology :=
  .replicaSet ⟨[⟨"::1", 1, none⟩, ⟨"b", 27017, none⟩], "rs=1", true, some "admin",
    some ⟨"a:b@c", "é/,?"⟩⟩

theorem clusteredTopology_readable : clusteredTopology.Readable := by
  constructor
  · show ∀ s ∈ [(⟨"::1", 1, none⟩ : ServerAddress), ⟨"b", 27017, none⟩], _
    decide
  · show ∀ p ∈ [("ssl", "true"), ("replicaSet", "rs=1"), ("authSource", "admin")], _
    decide

theorem read?_urlFor_clustered :
    clustered.topology = .ok clusteredTopology ∧ clusteredTopology.Readable ∧
      '?' ∉ "db/x".toList ∧
      Location.read? ((BaseAddress.ofTopology clusteredTopology).urlFor "db/x") =
        some ⟨[⟨"::1", 1, some ⟨"a:b@c", "é/,?"⟩⟩, ⟨"b", 27017, none⟩], "db/x",
          [("ssl", "true"), ("replicaSet", "rs=1"), ("authSource", "admin")]⟩ ∧
      clusteredTopology.topLevel = some ⟨"a:b@c", "é/,?"⟩ := by
  have hc : clustered.topology = .ok clusteredTopology := by cbv
  have hdatabase : '?' ∉ "db/x".toList := by decide
  have hplaced : clusteredTopology.placed =
      [⟨"::1", 1, some ⟨"a:b@c", "é/,?"⟩⟩, ⟨"b", 27017, none⟩] := by
    simp [Topology.placed, clusteredTopology]
  obtain ⟨hread, -⟩ := read?_urlFor hc clusteredTopology_readable hdatabase
  rw [hplaced] at hread
  exact ⟨hc, clusteredTopology_readable, hdatabase, hread, rfl⟩

end Gateway

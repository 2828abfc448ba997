import Mathlib.Data.List.TakeWhile
import Gateway.Proofs.Address.Exposure
import Gateway.Proofs.Address.Reading

/-!
# What redaction leaves

A redacted URL is the URL that the topology would have if it knew no credentials at all
(`redactedUrlFor_eq_urlFor`): the hosts with their ports, the database and the parameters stand
there as they are, whatever signs they have in them. Only a host may mislead redaction, by a
slash, which ends the hosts, or by an at sign, which looks like the end of user info. A comma in
a host does no harm, since what is taken apart there is put together again.
-/

namespace Gateway

def ServerAddress.anonymous (s : ServerAddress) : ServerAddress := { s with credentials := none }

/-- The same topology without any credentials. -/
def Topology.anonymous : Topology → Topology
  | .single server => .single server.anonymous
  | .replicaSet set =>
    .replicaSet { set with servers := set.servers.map ServerAddress.anonymous, shared := none }

/-- A host that ends no part of a URL that is redacted. -/
def ServerAddress.IsPlain (s : ServerAddress) : Prop :=
  '/' ∉ s.host.toList ∧ '@' ∉ s.host.toList

namespace BaseAddress

/-! ## Texts without credentials -/

theorem behindLastAt_of_notMem {cs : List Char} (h : '@' ∉ cs) : behindLastAt cs = cs := by
  have hall : ∀ c ∈ cs.reverse, decide (c ≠ '@') = true := by
    intro c hc
    rw [decide_eq_true_eq]
    rintro rfl
    exact h (List.mem_reverse.mp hc)
  rw [behindLastAt, List.takeWhile_eq_self_iff.mpr hall, List.reverse_reverse]

theorem mem_intercalate {α : Type} {a : α} {sep piece : List α} {pieces : List (List α)}
    (hpiece : piece ∈ pieces) (ha : a ∈ piece) : a ∈ sep.intercalate pieces := by
  induction pieces with
  | nil => simp at hpiece
  | cons p pieces ih =>
    rcases pieces with _ | ⟨p', pieces⟩
    · rw [List.mem_singleton] at hpiece
      simpa [← hpiece] using ha
    · rw [List.intercalate_cons_cons]
      rcases List.mem_cons.mp hpiece with rfl | hrest
      · simp [ha]
      · simp [ih hrest]

theorem mem_of_mem_splitOn {α : Type} [DecidableEq α] {a b : α} {xs piece : List α}
    (hpiece : piece ∈ xs.splitOn b) (ha : a ∈ piece) : a ∈ xs := by
  have hback : [b].intercalate (xs.splitOn b) = xs := List.intercalate_splitOn b
  rw [← hback]
  exact mem_intercalate hpiece ha

/-- Where there is no at sign nothing is stripped, and the commas come back. -/
theorem stripped_of_notMem {xs : List Char} (h : '@' ∉ xs) : stripped xs = xs := by
  have hpieces : (xs.splitOn ',').map behindLastAt = xs.splitOn ',' := by
    refine (List.map_congr_left fun piece hpiece => ?_).trans (List.map_id _)
    exact behindLastAt_of_notMem fun hat => h (mem_of_mem_splitOn hpiece hat)
  rw [stripped, splitCommas_eq_splitOn, hpieces, joinCommas, List.intercalate_splitOn]

theorem redactRest_of_notMem {xs : List Char} (hslash : '/' ∉ xs) (hat : '@' ∉ xs)
    (tail : List Char) : redactRest (xs ++ '/' :: tail) = xs ++ '/' :: tail := by
  obtain ⟨htake, hdrop⟩ := takeWhile_slash hslash ('/' :: tail)
  have hstrip := stripped_of_notMem hat
  simp only [redactRest, htake, hdrop]
  simpa [stripped] using hstrip

/-! ## Hosts -/

theorem notMem_endpoint {s : ServerAddress} (h : s.IsPlain) :
    '/' ∉ (endpoint s).toList ∧ '@' ∉ (endpoint s).toList := by
  have hdigits : ∀ a, ¬ Decimal.isDigit a → a ∉ Decimal.digits s.port.toNat :=
    fun a ha => notMem_digits ha _
  have hslash := hdigits '/' (by decide)
  have hat := hdigits '@' (by decide)
  simp [toList_endpoint, h.1, h.2, hslash, hat]

theorem hostsText_anonymous_singleton (s : ServerAddress) :
    hostsText [s.anonymous] = (endpoint s).toList := by
  rw [hostsText_singleton]
  rfl

theorem hostsText_anonymous_cons_cons (s s' : ServerAddress) (servers : List ServerAddress) :
    hostsText (s.anonymous :: s' :: servers) =
      (endpoint s).toList ++ ',' :: hostsText (s' :: servers) := by
  rw [hostsText_cons_cons]
  rfl

/-- Redacted hosts are the hosts without credentials. -/
theorem redactRest_hostsText {servers : List ServerAddress} (h : ∀ s ∈ servers, s.IsPlain)
    (tail : List Char) :
    redactRest (hostsText servers ++ '/' :: tail) =
      hostsText (servers.map ServerAddress.anonymous) ++ '/' :: tail := by
  induction servers with
  | nil => exact redactRest_of_notMem List.not_mem_nil List.not_mem_nil tail
  | cons s servers ih =>
    rw [List.forall_mem_cons] at h
    obtain ⟨hslash, hat⟩ := notMem_endpoint h.1
    rcases servers with _ | ⟨s', servers⟩
    · rw [hostsText_singleton, List.append_assoc, redactRest_optionalUserinfo,
        redactRest_of_notMem hslash hat]
      exact congrArg (· ++ _) (hostsText_anonymous_singleton s).symm
    · have hrest := ih h.2
      rw [List.map_cons] at hrest ⊢
      rw [hostsText_cons_cons, List.append_assoc, List.append_assoc, List.cons_append,
        redactRest_optionalUserinfo, redactRest_entry hslash, stripped_of_notMem hat, hrest,
        List.map_cons, hostsText_anonymous_cons_cons, List.append_assoc, List.cons_append]

/-- Without credentials of their own it makes no difference how servers are placed. -/
theorem hostsText_eq {servers : List ServerAddress} (h : ∀ s ∈ servers, s.credentials = none)
    (placement : CredentialPlacement) :
    (",".intercalate (servers.map (entry placement))).toList = hostsText servers := by
  have hentry : servers.map (entry placement) = servers.map (entry .perServer) := by
    refine List.map_congr_left fun s hs => ?_
    cases placement with
    | sharedLeading => simp [entry, h s hs, optionalUserinfo]
    | perServer => rfl
  rw [hentry]
  rfl

/-! ## Topologies -/

/-- The hosts of a topology may have credentials in front, and each host its own. -/
theorem exists_authority_eq (t : Topology) :
    ∃ lead, (authority t).toList = (optionalUserinfo lead).toList ++ hostsText t.servers := by
  cases t with
  | single server =>
    refine ⟨none, ?_⟩
    simp [authority, Topology.servers, hostsText_singleton, optionalUserinfo]
  | replicaSet set =>
    rcases hplace : CredentialPlacement.of set.servers with _ | _
    · have hnone : ∀ s ∈ set.servers, s.credentials = none := by
        simpa [CredentialPlacement.of] using hplace
      refine ⟨set.shared, ?_⟩
      rw [authority, hplace, String.toList_append, hostsText_eq hnone]
      rfl
    · refine ⟨none, ?_⟩
      rw [authority, hplace, String.toList_append]
      rfl

theorem authority_anonymous (t : Topology) :
    (authority t.anonymous).toList = hostsText (t.servers.map ServerAddress.anonymous) := by
  cases t with
  | single server => exact (hostsText_singleton server.anonymous).symm
  | replicaSet set =>
    have hnone : ∀ s ∈ set.servers.map ServerAddress.anonymous, s.credentials = none := by
      intro s hs
      obtain ⟨s', -, rfl⟩ := List.mem_map.mp hs
      rfl
    have hlead : ∀ placement, leading placement none = "" := by
      intro placement
      cases placement <;> rfl
    show (leading (.of (set.servers.map ServerAddress.anonymous)) none ++ _).toList = _
    rw [hlead, String.empty_append, hostsText_eq hnone]
    rfl

theorem behindHosts_anonymous (t : Topology) (database : String) :
    behindHosts t.anonymous database = behindHosts t database := by
  cases t <;> rfl

/-- **The logged address is exact.** If no host has a slash or an at sign in it, the redacted URL
of a database is the URL that it has in the same topology without any credentials. -/
theorem redactedUrlFor_eq_urlFor {t : Topology} (h : ∀ s ∈ t.servers, s.IsPlain)
    (database : String) :
    (ofTopology t).redactedUrlFor database = (ofTopology t.anonymous).urlFor database := by
  obtain ⟨lead, hauthority⟩ := exists_authority_eq t
  rw [redactedUrlFor_ofTopology, hauthority, List.append_assoc, redactRest_optionalUserinfo,
    redactRest_hostsText h, ← authority_anonymous, ← behindHosts_anonymous, urlFor_ofTopology]
  apply String.toList_injective
  simp [String.toList_append]

/-- Credentials and a database that have in them what separates the parts of a URL, and a host
with a comma. -/
theorem redactedUrlFor_of_separators :
    let t : Topology := .replicaSet
      ⟨[⟨"a,b", 1, some ⟨"u@,", "é/@"⟩⟩, ⟨"::1", 27017, none⟩], "r@s", true, none, some ⟨"x", "y"⟩⟩
    (∀ s ∈ t.servers, s.IsPlain) ∧
      (ofTopology t).redactedUrlFor "d/e@f,g" =
        "mongodb://a,b:1,::1:27017/d/e@f,g?ssl=true&replicaSet=r@s" := by
  intro t
  have hplain : ∀ s ∈ t.servers, s.IsPlain := by
    show ∀ s ∈ [(⟨"a,b", 1, some ⟨"u@,", "é/@"⟩⟩ : ServerAddress), ⟨"::1", 27017, none⟩],
      '/' ∉ s.host.toList ∧ '@' ∉ s.host.toList
    decide
  refine ⟨hplain, ?_⟩
  rw [redactedUrlFor_eq_urlFor hplain]
  decide +kernel

end BaseAddress

end Gateway

import Gateway.Proofs.Address.Redaction
import Gateway.Proofs.Config.Accepted
import Gateway.Proofs.Decimal.ReadBack

/-!
# Which credentials redaction leaves

A host may have a slash in it. The first such host of a replica set ends the part of the URL
that redaction looks at, so the credentials of the servers behind it stay in the text
(`Topology.exposed`); all others are removed. Of two topologies that are the same but for
the texts of their credentials the redacted URLs are the same exactly when the exposed
credentials are (`redactedUrlFor_eq_iff`).
-/

namespace Gateway

/-- The credentials of the servers behind the first one with a slash in its host. -/
def exposedCredentials : List ServerAddress → List (Option Credentials)
  | [] => []
  | s :: servers =>
    if '/' ∈ s.host.toList then servers.map ServerAddress.credentials
    else exposedCredentials servers

theorem exposedCredentials_cons (s : ServerAddress) (servers : List ServerAddress) :
    exposedCredentials (s :: servers) =
      if '/' ∈ s.host.toList then servers.map ServerAddress.credentials
      else exposedCredentials servers := rfl

/-- The credentials that a redacted URL shows. -/
def Topology.exposed : Topology → List (Option Credentials)
  | .single _ => []
  | .replicaSet set => exposedCredentials set.servers

namespace BaseAddress

/-! ## Hosts -/

theorem slash_mem_endpoint (s : ServerAddress) :
    '/' ∈ (endpoint s).toList ↔ '/' ∈ s.host.toList := by
  have hport : '/' ∉ Decimal.digits s.port.toNat := by
    intro h
    exact absurd (Decimal.isDigit_of_mem_digits h) (by decide)
  simp [endpoint, Decimal.ofNat, hport]

theorem redactRest_optionalUserinfo (c : Option Credentials) (ys : List Char) :
    redactRest ((optionalUserinfo c).toList ++ ys) = redactRest ys := by
  cases c with
  | none => rfl
  | some c =>
    rw [optionalUserinfo, toList_userinfo, List.append_assoc, List.singleton_append]
    have hslash : '/' ∉ userinfoText c := notMem_userinfoText (by decide) (by decide) c
    have hcomma : ',' ∉ userinfoText c := notMem_userinfoText (by decide) (by decide) c
    exact redactRest_userinfo hslash hcomma ys

/-- The hosts of a replica set, each behind its own credentials. -/
def hostsText (servers : List ServerAddress) : List Char :=
  (",".intercalate (servers.map (entry .perServer))).toList

theorem hostsText_singleton (s : ServerAddress) :
    hostsText [s] = (optionalUserinfo s.credentials).toList ++ (endpoint s).toList := by
  simp [hostsText, entry]

theorem hostsText_cons_cons (s s' : ServerAddress) (servers : List ServerAddress) :
    hostsText (s :: s' :: servers) =
      (optionalUserinfo s.credentials).toList ++ (endpoint s).toList ++
        ',' :: hostsText (s' :: servers) := by
  simp [hostsText, String.toList_intercalate, entry]

/-! ## Servers that are the same but for credentials -/

theorem endpoint_of_alike {a b : ServerAddress} (h : a.Alike b) : endpoint a = endpoint b := by
  rw [endpoint, endpoint, h.host, h.port]

/-- The text of hosts tells their credentials. -/
theorem hostsText_eq_iff {as bs : List ServerAddress} (h : List.Forall₂ ServerAddress.Alike as bs)
    (tail : List Char) :
    hostsText as ++ tail = hostsText bs ++ tail ↔
      as.map ServerAddress.credentials = bs.map ServerAddress.credentials := by
  induction h with
  | nil => simp
  | @cons a b as bs hab hrest ih =>
    have hendpoint := endpoint_of_alike hab
    cases hrest with
    | nil =>
      simp only [hostsText_singleton, hendpoint, List.append_assoc, List.map_cons, List.map_nil,
        List.cons.injEq, and_true]
      exact ⟨fun he => (optionalUserinfo_append_inj hab.credentials he).1, fun he => by rw [he]⟩
    | cons =>
      simp only [hostsText_cons_cons, hendpoint, List.append_assoc, List.cons_append]
      rw [List.map_cons (a := a), List.map_cons (a := b), List.cons.injEq, ← ih]
      constructor
      · intro he
        obtain ⟨hcredentials, hbehind⟩ := optionalUserinfo_append_inj hab.credentials he
        exact ⟨hcredentials, (List.cons.inj (List.append_cancel_left hbehind)).2⟩
      · rintro ⟨hcredentials, hbehind⟩
        rw [hcredentials, hbehind]

/-- Redacted hosts are the same exactly when the exposed credentials are. -/
theorem redactRest_hostsText_eq_iff {as bs : List ServerAddress}
    (h : List.Forall₂ ServerAddress.Alike as bs) (tail : List Char) :
    redactRest (hostsText as ++ '/' :: tail) = redactRest (hostsText bs ++ '/' :: tail) ↔
      exposedCredentials as = exposedCredentials bs := by
  induction h with
  | nil => simp [exposedCredentials]
  | @cons a b as bs hab hrest ih =>
    have hendpoint := endpoint_of_alike hab
    have hslash : '/' ∈ (endpoint b).toList ↔ '/' ∈ b.host.toList := slash_mem_endpoint b
    cases hrest with
    | nil =>
      simp only [hostsText_singleton, List.append_assoc, redactRest_optionalUserinfo, hendpoint,
        exposedCredentials, List.map_nil, ite_self]
    | cons hab' hrest' =>
      simp only [hostsText_cons_cons, List.append_assoc, List.cons_append,
        redactRest_optionalUserinfo, hendpoint]
      rw [exposedCredentials_cons a, exposedCredentials_cons b, hab.host]
      by_cases hb : '/' ∈ b.host.toList
      -- the rest stands as it is
      · rw [redactRest_append (hslash.mpr hb), redactRest_append (hslash.mpr hb), if_pos hb,
          if_pos hb, List.append_cancel_left_eq, List.cons.injEq]
        simpa only [true_and] using hostsText_eq_iff (.cons hab' hrest') ('/' :: tail)
      · have hb' := mt hslash.mp hb
        rw [redactRest_entry hb', redactRest_entry hb', if_neg hb, if_neg hb,
          List.append_cancel_left_eq, List.cons.injEq]
        simpa only [true_and] using ih

/-! ## Topologies -/

theorem any_credentials {as bs : List ServerAddress}
    (h : List.Forall₂ ServerAddress.Alike as bs) :
    (as.any fun s => s.credentials.isSome) = bs.any fun s => s.credentials.isSome := by
  induction h with
  | nil => rfl
  | cons hab _ ih => rw [List.any_cons, List.any_cons, hab.credentials, ih]

/-- Without credentials, servers that are the same but for them are the same. -/
theorem eq_of_alike {as bs : List ServerAddress} (h : List.Forall₂ ServerAddress.Alike as bs)
    (hnone : ∀ s ∈ as, s.credentials = none) : as = bs := by
  induction h with
  | nil => rfl
  | @cons a b as bs hab _ ih =>
    rw [List.forall_mem_cons] at hnone
    obtain ⟨hhost, hport, hcredentials⟩ := hab
    rw [hnone.1, Option.isSome_none, eq_comm, Option.isSome_eq_false_iff,
      Option.isNone_iff_eq_none] at hcredentials
    have hserver : a = b := by
      cases a
      cases b
      simp_all
    rw [hserver, ih hnone.2]

theorem redactedUrlFor_ofTopology (t : Topology) (database : String) :
    (ofTopology t).redactedUrlFor database = String.ofList (scheme.toList ++
      redactRest ((authority t).toList ++ '/' :: (behindHosts t database).toList)) := by
  have hslash : ("/" : String).toList = ['/'] := rfl
  simp only [redactedUrlFor, redact, urlFor_ofTopology, String.toList_append, List.append_assoc,
    behind?_append, hslash, List.singleton_append]

/-- Of topologies that are the same but for credentials, the redacted URLs tell the exposed
ones apart and no others. -/
theorem redactedUrlFor_eq_iff {t u : Topology} (h : t.Alike u) (database : String) :
    (ofTopology t).redactedUrlFor database = (ofTopology u).redactedUrlFor database ↔
      t.exposed = u.exposed := by
  rw [redactedUrlFor_ofTopology, redactedUrlFor_ofTopology, String.ofList_inj,
    List.append_cancel_left_eq]
  cases h with
  | @single a b hab =>
    have htail : behindHosts (.single a) database = behindHosts (.single b) database := rfl
    simp only [htail, authority, String.toList_append, List.append_assoc,
      redactRest_optionalUserinfo, endpoint_of_alike hab, Topology.exposed]
  | @replicaSet as bs name ssl source c d hservers hshared =>
    have htail : behindHosts (.replicaSet ⟨as, name, ssl, source, c⟩) database =
        behindHosts (.replicaSet ⟨bs, name, ssl, source, d⟩) database := rfl
    rw [htail]
    by_cases hany : as.any fun s => s.credentials.isSome
    · have hany' := (any_credentials hservers) ▸ hany
      have has : CredentialPlacement.of as = .perServer := if_pos hany
      have hbs : CredentialPlacement.of bs = .perServer := if_pos hany'
      simp only [authority, has, hbs, leading, String.empty_append]
      exact redactRest_hostsText_eq_iff hservers _
    · have hnone : ∀ s ∈ as, s.credentials = none := by simpa using hany
      obtain rfl := eq_of_alike hservers hnone
      have has : CredentialPlacement.of as = .sharedLeading := if_neg hany
      simp only [authority, has, leading, String.toList_append, List.append_assoc,
        redactRest_optionalUserinfo, Topology.exposed]

end BaseAddress

end Gateway

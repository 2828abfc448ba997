import Gateway.Proofs.Query.Paging
import Gateway.Proofs.Store.Serving
import Mathlib.Algebra.GroupWithZero.Nat

/-!
# The entry points agree

A request can be asked for its page, for its page with the total, and for the total alone. Run
one after the other these tell the same (`entryPoints_agree`), since all of them look at what one
connection sees. A count takes no notice of anything but where to look and what for, and the
pages of a request, taken together, are as many documents as it counts.
-/

namespace Gateway

open Registry

/-- The documents of a reply that has a page. -/
def Reply.data : Reply → List Document
  | .ready (.ok (.answer (.page response))) => response.data
  | _ => []

/-- The same request for a page given by its number. -/
def Request.onPage (req : Request) (number : Nat) : Request :=
  { req with page := some (.ofNat number) }

/-- The same request with other directives for its page. -/
def Request.directed (req : Request) (limit page : Option UInt64)
    (attributes : Option (List String)) (order : Option (List SortKey)) : Request :=
  { req with limit, page, attributes, order }

/-! ## Counting does not look at the page -/

/-- A request for the total is at its only acquire call or its only call. -/
def Requesting.Counts : Requesting → Prop
  | .fresh => True
  | .acquiringForCount .. => True
  | .counting .. => True
  | _ => False

section Directives

variable {req : Request} {stage : Requesting} (limit page : Option UInt64)
  (attributes : Option (List String)) (order : Option (List SortKey))

theorem pollRequest_directed {ω : Type} (c : Connector ω) (h : stage.Counts) (r : Registry ω) :
    r.pollRequest c .total (req.directed limit page attributes order) stage =
      r.pollRequest c .total req stage := by
  cases stage with
  | fresh => rfl
  | acquiringForCount data stage => rfl
  | counting n data => rfl
  | acquiringForFind stage => exact h.elim
  | finding n => exact h.elim

theorem acquireForCount_counts {ω : Type} (c : Connector ω) {data : Option (List Document)}
    {stage : Acquiring} {r : Registry ω} {next : Requesting}
    (hp : (r.acquireForCount c req data stage).1 = .pending next) : next.Counts := by
  simp only [acquireForCount, askCount] at hp
  split at hp
  · obtain rfl := Progress.pending.inj hp
    trivial
  · cases hp
  · split at hp
    · obtain rfl := Progress.pending.inj hp
      trivial
    · cases hp

theorem pollRequest_counts {ω : Type} (c : Connector ω) (h : stage.Counts) {r : Registry ω}
    {next : Requesting} (hp : (r.pollRequest c .total req stage).1 = .pending next) :
    next.Counts := by
  cases stage with
  | fresh => exact acquireForCount_counts c hp
  | acquiringForCount data stage => exact acquireForCount_counts c hp
  | counting n data =>
    simp only [pollRequest, askCount] at hp
    split at hp
    · obtain rfl := Progress.pending.inj hp
      trivial
    · cases hp
  | acquiringForFind stage => exact h.elim
  | finding n => exact h.elim

namespace Machine

variable {m : Machine Store} {id : String} {tasks : List (String × Task)}

theorem finish_directed (hid : id ∉ Entries.keys tasks) (waits : List (List Store.Change))
    (r : Registry Store) (h : stage.Counts) :
    let directed := req.directed limit page attributes order
    ((⟨r, tasks ++ [(id, .request .total directed stage)]⟩ : Machine Store).finish id waits).1 =
      ((⟨r, tasks ++ [(id, .request .total req stage)]⟩ : Machine Store).finish id waits).1 := by
  intro directed
  induction waits generalizing r stage with
  | nil =>
    have hpoll : r.pollRequest Store.connector .total directed stage = _ :=
      pollRequest_directed limit page attributes order Store.connector h r
    rw [finish, finish, poll_last hid, poll_last hid, hpoll]
    rcases r.pollRequest Store.connector .total req stage with ⟨next | result, s⟩ <;> rfl
  | cons edits waits ih =>
    have hpoll : r.pollRequest Store.connector .total directed stage = _ :=
      pollRequest_directed limit page attributes order Store.connector h r
    rw [finish, finish, poll_last hid, poll_last hid, hpoll]
    rcases hp : r.pollRequest Store.connector .total req stage with ⟨next | result, s⟩
    · exact ih _ (pollRequest_counts Store.connector h (congrArg Prod.fst hp))
    · rfl

/-- A count is the same with any directives for the page. -/
theorem serve_directed (hid : m.task? id = none) (req : Request)
    (waits : List (List Store.Change)) :
    (m.serve id ⟨.total, req.directed limit page attributes order, waits⟩).1 =
      (m.serve id ⟨.total, req, waits⟩).1 :=
  finish_directed limit page attributes order (Entries.get?_eq_none_iff.mp hid) waits m.registry
    trivial

end Machine

end Directives

/-! ## The pages and the total -/

/-- The pages of a request, run one after the other. -/
def Request.pages (req : Request) (waits : Nat → List (List Store.Change)) (count : Nat) :
    List Service :=
  (List.range count).map fun k => ⟨.page, req.onPage (k + 1), waits k⟩

/-- The replies to the pages of a request have as many documents as match, once there are pages
enough. -/
theorem sum_data_pages {req : Request} {l : UInt64} (hlimit : req.limit = some l) (hl : 1 ≤ l)
    {n : ConnectionId} {s : Store} (hlen : (req.selection n s).length ≤ Decimal.maxOfBits 63)
    (waits : Nat → List (List Store.Change)) {count : Nat} (hcount : count < UInt64.size)
    (henough : (req.selection n s).length ≤ count * l.toNat) :
    ((Machine.tellAll (req.pages waits count) n s).map fun reply => reply.data.length).sum =
      (req.selection n s).length := by
  have hpages := flatMap_pageOf req.filter req.attributes req.order req.search hlen hl hcount
  rw [List.take_of_length_le henough] at hpages
  have htold : (Machine.tellAll (req.pages waits count) n s).flatMap Reply.data =
      (List.range count).flatMap fun k =>
        pageOf req.filter req.attributes req.order req.search (some l)
          (some (UInt64.ofNat (k + 1))) (req.selection n s) := by
    simp only [Machine.tellAll, Request.pages, List.map_map, List.flatMap_map]
    rw [← hlimit]
    rfl
  rw [← List.length_flatMap, htold, hpages]

/-- **The entry points agree.** A request is run any number of times, one run after the other, by
the entry points in any order. If all of them succeed, each page is the same part of the
documents that match on the connection in the slot, and each total is their number. A count has
the same outcome with other directives, and with a limit the pages of the request, as many as
reach the total, have so many documents together. -/
theorem entryPoints_agree {m : Machine Store} {id : String} (hid : m.task? id = none)
    {req : Request} {runs : List Service} (hne : runs ≠ []) (hreq : ∀ s ∈ runs, s.req = req)
    (hok : Machine.Succeed (m.serveAll id runs).1) :
    let after := (m.serveAll id runs).2
    ∃ n, after.registry.slot? req.database = some (.established n) ∧
      let docs := req.selection n after.registry.world
      let data := Store.page req.compile.options docs
      let total := UInt64.ofNat docs.length
      (m.serveAll id runs).1 =
          runs.map (fun s => .ready (.ok (.answer (s.kind.answer data total)))) ∧
        (∀ k : Machine Store, k.task? id = none → ∀ waits limit page attributes order,
          (k.serve id ⟨.total, req.directed limit page attributes order, waits⟩).1 =
            (k.serve id ⟨.total, req, waits⟩).1) ∧
        ∀ l, req.limit = some l → 1 ≤ l → docs.length ≤ Decimal.maxOfBits 63 →
          ∀ count < UInt64.size, total.toNat ≤ count * l.toNat → ∀ waits,
            let replies := (after.serveAll id (req.pages waits count)).1
            Machine.Succeed replies →
              (replies.map fun reply => reply.data.length).sum = total.toNat := by
  intro after
  have hdatabase : ∀ s ∈ runs, s.req.database = req.database :=
    fun s hs => congrArg Request.database (hreq s hs)
  obtain ⟨htasks, -, hestablished, htold⟩ := Machine.serveAll_told hid hdatabase hok
  obtain ⟨n, hn⟩ := hestablished hne
  refine ⟨n, hn, ?_, fun k hk waits limit page attributes order =>
    Machine.serve_directed limit page attributes order hk req waits, ?_⟩
  · rw [htold n hn]
    refine List.map_congr_left fun s hs => ?_
    rw [hreq s hs]
    rfl
  · intro l hlimit hl hlen count hcount henough waits replies hsucceed
    have hid' : after.task? id = none := by
      rw [Machine.task?, htasks]
      exact hid
    have hpages : ∀ s ∈ req.pages waits count, s.req.database = req.database := by
      intro s hs
      obtain ⟨k, -, rfl⟩ := List.mem_map.mp hs
      rfl
    obtain ⟨-, hkeeps, -, htold'⟩ := Machine.serveAll_told hid' hpages hsucceed
    have htotal : (UInt64.ofNat (req.selection n after.registry.world).length).toNat =
        (req.selection n after.registry.world).length := by
      refine UInt64.toNat_ofNat_of_lt' (Nat.lt_of_le_of_lt hlen ?_)
      decide
    rw [htotal] at henough ⊢
    show (replies.map _).sum = _
    rw [show replies = _ from htold' n (hkeeps n hn).1]
    have hfound := hkeeps.selection hn
    rw [← hfound] at hlen henough ⊢
    exact sum_data_pages hlimit hl hlen waits hcount henough

/-- Three of four documents match, and a task waits for a connect call that is held back. -/
def heldStore : Machine Store :=
  (Machine.initial ⟨"mongodb://localhost:27017/", []⟩ Store.empty).performAll
    [.change (.insert "d" "c"
        [[("x", .int32 1)], [("x", .int32 2)], [("x", .int32 1), ("y", .null)], [("x", .int32 1)]]),
      .change (.shut "connect:d"), .start "other" (.acquire "d"), .poll "other"]

def secondOfTwos : Request :=
  { Request.all "d" "c" with
    filter := some [[⟨"x", .equal, .int32 1⟩]]
    limit := some 2
    page := some 2 }

/-- The first entry point joins that attempt and has to wait, while a document is written. -/
def heldRuns : List Service :=
  [⟨.total, secondOfTwos, [[], [.insert "d" "c" [[("x", .int32 1)]], .unshut "connect:d"]]⟩,
    ⟨.pageWithTotal, secondOfTwos, []⟩, ⟨.page, secondOfTwos, []⟩]

/-- All count four documents and have the same two of them on the second page; and the two pages
are four documents. -/
theorem entryPoints_agree_held :
    heldStore.task? "r" = none ∧ heldRuns ≠ [] ∧ (∀ s ∈ heldRuns, s.req = secondOfTwos) ∧
      Machine.Succeed (heldStore.serveAll "r" heldRuns).1 ∧
      ∃ data, data.length = 2 ∧
        (heldStore.serveAll "r" heldRuns).1 =
          heldRuns.map (fun s => .ready (.ok (.answer (s.kind.answer data 4)))) ∧
        let replies :=
          ((heldStore.serveAll "r" heldRuns).2.serveAll "r" (secondOfTwos.pages (fun _ => []) 2)).1
        Machine.Succeed replies ∧ (replies.map fun reply => reply.data.length).sum = 4 := by
  have hid : heldStore.task? "r" = none := rfl
  have hne : heldRuns ≠ [] := List.cons_ne_nil _ _
  have hreq : ∀ s ∈ heldRuns, s.req = secondOfTwos := by simp [heldRuns]
  have hok : Machine.Succeed (heldStore.serveAll "r" heldRuns).1 := by
    intro reply hreply
    rcases hreply with _ | ⟨_, _ | ⟨_, _ | ⟨_, hnone⟩⟩⟩
    · exact ⟨_, rfl⟩
    · exact ⟨_, rfl⟩
    · exact ⟨_, rfl⟩
    · cases hnone
  have hpagesOk : Machine.Succeed ((heldStore.serveAll "r" heldRuns).2.serveAll "r"
      (secondOfTwos.pages (fun _ => []) 2)).1 := by
    intro reply hreply
    rcases hreply with _ | ⟨_, _ | ⟨_, hnone⟩⟩
    · exact ⟨_, rfl⟩
    · exact ⟨_, rfl⟩
    · cases hnone
  have hslot : (heldStore.serveAll "r" heldRuns).2.registry.slot? "d" = some (.established 0) := rfl
  obtain ⟨n, hn, htold, -, hpages⟩ := entryPoints_agree hid hne hreq hok
  obtain rfl : 0 = n := by simpa using hslot.symm.trans hn
  have hdocs :
      (secondOfTwos.selection 0 (heldStore.serveAll "r" heldRuns).2.registry.world).length = 4 := rfl
  rw [hdocs] at htold hpages
  have hsum := hpages 2 rfl (by decide) (by decide) 2 (by decide) (by decide) _ hpagesOk
  exact ⟨hid, hne, hreq, hok, _, rfl, htold, hpagesOk, hsum⟩

end Gateway

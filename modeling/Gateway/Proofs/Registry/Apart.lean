import Gateway.Proofs.Registry.Rank
import Gateway.Proofs.Registry.Views
import Gateway.Proofs.Task.Paired

/-!
# One database on its own

A connector keeps a database apart if its answers there do not depend on calls for other
databases, and not on the numbers of the connections (`Connector.Apart`). Then a registry over
it shows of the database just what a second registry shows that is used for nothing else, with
its attempts in their ranks (`Registry.Shows`). Whatever a task does for the database keeps it
so if it is done in both (`Shows.own`), and whatever is done for another database keeps it so
if it is done in the first one only (`Shows.other`).
-/

namespace Gateway

variable {ω : Type} {D : List String} {d : String}

/-! ## Numbers of connections -/

/-- The connection that an event is about. -/
def Event.connection : Event → ConnectionId
  | .connect n _ _ => n
  | .find n _ _ => n
  | .count n _ _ => n
  | .close n _ => n

def Event.renumber (f : ConnectionId → ConnectionId) : Event → Event
  | .connect n database url => .connect (f n) database url
  | .find n collection query => .find (f n) collection query
  | .count n collection filter => .count (f n) collection filter
  | .close n database => .close (f n) database

def Slot.renumber (f : ConnectionId → ConnectionId) : Slot → Slot
  | .connecting n => .connecting (f n)
  | .established n => .established (f n)

/-- A connection to a database, as its own partner. -/
def Owned (D : List String) (e : String) (n k : ConnectionId) : Prop := k = n ∧ D[n]? = some e

/-! ## What the connector has to satisfy -/

/-- A connector keeps a database apart from others: worlds that are alike there answer alike,
and are kept so by calls for other databases. -/
structure Connector.Apart (c : Connector ω) (D : List String) (d : String)
    (Alike : ω → ω → Prop) : Prop where
  connect : ∀ {w v n k} (url : String), Alike w v → Partner D d n k →
    (c.connect k d url v).1 = (c.connect n d url w).1 ∧
      Alike (c.connect n d url w).2 (c.connect k d url v).2
  find : ∀ {w v n k} (collection : String) (query : NativeQuery), Alike w v → Partner D d n k →
    (c.find k d collection query v).1 = (c.find n d collection query w).1 ∧
      Alike (c.find n d collection query w).2 (c.find k d collection query v).2
  count : ∀ {w v n k} (collection : String) (filter : Document), Alike w v → Partner D d n k →
    (c.count k d collection filter v).1 = (c.count n d collection filter w).1 ∧
      Alike (c.count n d collection filter w).2 (c.count k d collection filter v).2
  connectOther : ∀ {w v n e} (url : String), e ≠ d → D[n]? = some e → Alike w v →
    Alike (c.connect n e url w).2 v
  findOther : ∀ {w v n e} (collection : String) (query : NativeQuery), e ≠ d →
    D[n]? = some e → Alike w v → Alike (c.find n e collection query w).2 v
  countOther : ∀ {w v n e} (collection : String) (filter : Document), e ≠ d →
    D[n]? = some e → Alike w v → Alike (c.count n e collection filter w).2 v

namespace Registry

/-! ## Two registries -/

/-- The second registry is what the first one shows of the database. -/
structure Shows (D : List String) (d : String) (Alike : ω → ω → Prop) (r s : Registry ω) :
    Prop where
  address : s.address = r.address
  attempts : s.attempts = r.attemptsFor d
  slot : s.slot? d = (r.slot? d).map (Slot.renumber (rank D d))
  trace : s.trace =
    (r.trace.filter fun e => D[e.connection]? = some d).map (Event.renumber (rank D d))
  world : Alike r.world s.world
  /-- A slot holds an attempt for its database. -/
  held : ∀ {e : String} {slot : Slot}, r.slot? e = some slot → D[slot.attempt]? = some e

theorem Leads.database {r : Registry ω} (h : r.Leads D) {n : ConnectionId} {e : String}
    (hn : r.database? n = some e) : D[n]? = some e := by
  obtain ⟨rest, rfl⟩ := h
  rw [← getElem?_attempted] at hn
  exact List.getElem?_append_left (List.getElem?_eq_some_iff.mp hn).1 ▸ hn

/-- The attempt that is launched is for its database. -/
theorem Leads.launch {r : Registry ω} {e : String} (h : (r.launch e).Leads D) :
    D[r.attempts.length]? = some e := by
  apply h.database
  rw [database?_launch, if_pos rfl]

namespace Shows

variable {c : Connector ω} {Alike : ω → ω → Prop} {r s : Registry ω}

theorem write (h : Shows D d Alike r s) (log log' : List Log.Record) :
    Shows D d Alike { r with log := log } { s with log := log' } :=
  ⟨h.address, h.attempts, h.slot, h.trace, h.world, h.held⟩

theorem change (h : Shows D d Alike r s) {w v : ω} (hw : Alike w v) :
    Shows D d Alike { r with world := w } { s with world := v } :=
  ⟨h.address, h.attempts, h.slot, h.trace, hw, h.held⟩

theorem held_launch (h : Shows D d Alike r s) {e : String} (hw : (r.launch e).Leads D)
    {f : String} {slot : Slot} (hslot : (r.launch e).slot? f = some slot) :
    D[slot.attempt]? = some f := by
  rw [slot?_launch] at hslot
  split at hslot
  · rename_i hf
    obtain rfl := Option.some.inj hslot
    rw [hf]
    exact hw.launch
  · exact h.held hslot

theorem held_settle (h : Shows D d Alike r s) {e : String} {n : ConnectionId}
    (hn : r.slot? e = some (.connecting n)) (outcome : Except Failure Unit) {f : String}
    {slot : Slot} (hslot : (r.settle e n outcome).slot? f = some slot) :
    D[slot.attempt]? = some f := by
  have hheld := h.held hn
  rcases (slot?_settle_eq_some hn outcome).mp hslot with ⟨rfl, -, rfl⟩ | ⟨-, hslot⟩
  · exact hheld
  · exact h.held hslot

/-! ### In both -/

theorem note (h : Shows D d Alike r s) {e : Event} (he : D[e.connection]? = some d) :
    Shows D d Alike (r.note e) (s.note (e.renumber (rank D d))) := by
  refine ⟨h.address, h.attempts, h.slot, ?_, h.world, h.held⟩
  simp [Registry.note, h.trace, he]

theorem launch (h : Shows D d Alike r s) (hw : (r.launch d).Leads D) :
    Partner D d r.attempts.length s.attempts.length ∧
      Shows D d Alike (r.launch d) (s.launch d) := by
  have hnew := hw.launch
  have hrank : s.attempts.length = rank D d r.attempts.length := by
    have hlength : r.attempted.length = r.attempts.length := List.length_map _
    have hgrows : r.attempted <+: (r.launch d).attempted := ⟨[d], by
      simp [attempted, Registry.launch]⟩
    have hleads : r.attempted <+: D := hgrows.trans hw
    rw [h.attempts, length_attemptsFor, ← hlength, rank_length hleads]
  refine ⟨⟨hnew, hrank⟩, h.address, ?_, ?_, ?_, h.world, h.held_launch hw⟩
  · simp [Registry.launch, attemptsFor, h.attempts]
  · rw [slot?_launch, slot?_launch, if_pos rfl, if_pos rfl, hrank]
    rfl
  · simp [Registry.launch, h.trace, h.address, hrank, Event.connection, Event.renumber, hnew]

theorem advance (h : Shows D d Alike r s) (hc : c.Apart D d Alike) {n k : ConnectionId}
    (hn : Partner D d n k) (hw : r.Leads D) :
    Together Eq (Shows D d Alike) (r.advance c n) (s.advance c k) := by
  obtain ⟨hn, rfl⟩ := hn
  have hget : s.attempts[rank D d n]? = r.attempts[n]? := by
    rw [h.attempts]
    exact getElem?_filter_rank hw hn
  rcases ha : r.attempts[n]? with _ | ⟨e, _ | outcome⟩
  all_goals rw [ha] at hget
  · simp only [Registry.advance, ha, hget]
    exact ⟨rfl, h⟩
  · have hdb : r.database? n = some e := (attempts_eq_some.mp ha).1
    obtain rfl : e = d := Option.some.inj ((hw.database hdb).symm.trans hn)
    obtain ⟨htold, hworld⟩ := hc.connect (r.address.urlFor e) h.world ⟨hn, rfl⟩
    rw [advance_unanswered ha, advance_unanswered hget, h.address, htold]
    refine ⟨rfl, rfl, ?_, h.slot, h.trace, hworld, h.held⟩
    show s.attempts.set _ _ = _
    rw [h.attempts]
    exact (filter_set_rank hw hn _).symm
  · simp only [Registry.advance, ha, hget]
    exact ⟨rfl, h⟩

theorem settle (h : Shows D d Alike r s) {n k : ConnectionId} (hn : Partner D d n k)
    (outcome : Except Failure Unit) :
    Shows D d Alike (r.settle d n outcome) (s.settle d k outcome) := by
  obtain ⟨hattempts, htrace, haddress⟩ := settle_frame r d n outcome
  obtain ⟨hattempts', htrace', haddress'⟩ := settle_frame s d k outcome
  by_cases hslot : r.slot? d = some (.connecting n)
  · have hslot' : s.slot? d = some (.connecting k) := by
      rw [h.slot, hslot, hn.2]
      rfl
    refine ⟨?_, ?_, ?_, ?_, ?_, h.held_settle hslot outcome⟩
    · rw [haddress, haddress', h.address]
    · rw [hattempts', attemptsFor, hattempts]
      exact h.attempts
    · rw [slot?_settle hslot, slot?_settle hslot', if_pos rfl, if_pos rfl, hn.2]
      cases outcome <;> rfl
    · rw [htrace, htrace', h.trace]
    · rw [settle_world, settle_world]
      exact h.world
  -- the partner is held only where the attempt is
  · have hslot' : s.slot? d ≠ some (.connecting k) := by
      intro hs
      rw [h.slot] at hs
      obtain ⟨slot, hr, hs⟩ := Option.map_eq_some_iff.mp hs
      cases slot with
      | established m => cases hs
      | connecting m =>
        obtain rfl := Slot.connecting.inj hs
        have hm : Partner D d m (rank D d m) := ⟨h.held hr, rfl⟩
        exact hslot ((hn.eq_iff hm).mpr rfl ▸ hr)
    rw [settle_of_ne outcome hslot, settle_of_ne outcome hslot']
    exact h

/-- What a task does for the database. -/
theorem own (hc : c.Apart D d Alike) :
    Paired c c d (Partner D d) (Leads D) (Shows D d Alike) where
  back := Leads.back
  write records h := h.write _ _
  note he h := by
    cases he with
    | find collection query hn => exact hn.2 ▸ h.note hn.1
    | count collection filter hn => exact hn.2 ▸ h.note hn.1
  slot {r s} h := by
    rw [h.slot]
    rcases hr : r.slot? d with _ | ⟨n | n⟩
    · exact .none
    · exact .some (.connecting ⟨h.held hr, rfl⟩)
    · exact .some (.established ⟨h.held hr, rfl⟩)
  launch h hw := h.launch hw
  advance h hn hw := h.advance hc hn hw
  settle outcome h hn := h.settle hn outcome
  find collection query h hn := (hc.find collection query h.world hn).imp_right h.change
  count collection filter h hn := (hc.count collection filter h.world hn).imp_right h.change

/-! ### In the first one only -/

variable {e : String}

theorem noteOther (h : Shows D d Alike r s) {event : Event}
    (he : D[event.connection]? ≠ some d) : Shows D d Alike (r.note event) s := by
  refine ⟨h.address, h.attempts, h.slot, ?_, h.world, h.held⟩
  simp [Registry.note, h.trace, he]

theorem launchOther (h : Shows D d Alike r s) (he : e ≠ d) (hw : (r.launch e).Leads D) :
    Shows D d Alike (r.launch e) s := by
  have hnew := hw.launch
  refine ⟨h.address, ?_, ?_, ?_, h.world, h.held_launch hw⟩
  · simp [Registry.launch, attemptsFor, h.attempts, he]
  · rw [slot?_launch, if_neg (Ne.symm he)]
    exact h.slot
  · simp [Registry.launch, h.trace, Event.connection, hnew, he]

theorem advanceOther (h : Shows D d Alike r s) (hc : c.Apart D d Alike) (he : e ≠ d)
    {n : ConnectionId} (hn : D[n]? = some e) (hw : r.Leads D) :
    Shows D d Alike (r.advance c n).2 s := by
  rcases ha : r.attempts[n]? with _ | ⟨f, _ | outcome⟩
  · simpa only [Registry.advance, ha] using h
  · have hdb : r.database? n = some f := (attempts_eq_some.mp ha).1
    obtain rfl : f = e := Option.some.inj ((hw.database hdb).symm.trans hn)
    rw [advance_unanswered ha]
    refine ⟨h.address, ?_, h.slot, h.trace, hc.connectOther _ he hn h.world, h.held⟩
    rw [h.attempts]
    exact (filter_set_of_ne he ha).symm
  · simpa only [Registry.advance, ha] using h

theorem settleOther (h : Shows D d Alike r s) (he : e ≠ d) (n : ConnectionId)
    (outcome : Except Failure Unit) :
    Shows D d Alike (r.settle e n outcome) s := by
  by_cases hslot : r.slot? e = some (.connecting n)
  · obtain ⟨hattempts, htrace, haddress⟩ := settle_frame r e n outcome
    refine ⟨?_, ?_, ?_, ?_, ?_, h.held_settle hslot outcome⟩
    · rw [haddress, h.address]
    · rw [attemptsFor, hattempts]
      exact h.attempts
    · rw [slot?_settle hslot, if_neg (Ne.symm he)]
      exact h.slot
    · rw [htrace]
      exact h.trace
    · rw [settle_world]
      exact h.world
  · rw [settle_of_ne outcome hslot]
    exact h

/-- What a task does for another database. -/
theorem other (hc : c.Apart D d Alike) (he : e ≠ d) (s : Registry ω) :
    Paired c c e (Owned D e) (Leads D) fun r r' => r' = r ∧ Shows D d Alike r s where
  back := Leads.back
  write := by
    rintro _ r records ⟨rfl, h⟩
    exact ⟨rfl, h.write _ s.log⟩
  note := by
    rintro _ r a b hab ⟨rfl, h⟩
    cases hab with
    | find collection query hn =>
      obtain ⟨rfl, hn⟩ := hn
      exact ⟨rfl, h.noteOther (by simp [Event.connection, hn, he])⟩
    | count collection filter hn =>
      obtain ⟨rfl, hn⟩ := hn
      exact ⟨rfl, h.noteOther (by simp [Event.connection, hn, he])⟩
  slot := by
    rintro _ r ⟨rfl, h⟩
    rcases hr : r.slot? e with _ | ⟨n | n⟩
    · exact .none
    · exact .some (.connecting ⟨rfl, h.held hr⟩)
    · exact .some (.established ⟨rfl, h.held hr⟩)
  launch := by
    rintro _ r ⟨rfl, h⟩ hw
    exact ⟨⟨rfl, hw.launch⟩, rfl, h.launchOther he hw⟩
  advance := by
    rintro _ r _ n ⟨rfl, h⟩ ⟨rfl, hn⟩ hw
    exact ⟨rfl, rfl, h.advanceOther hc he hn hw⟩
  settle := by
    rintro _ r _ n outcome ⟨rfl, h⟩ ⟨rfl, hn⟩
    exact ⟨rfl, h.settleOther he n outcome⟩
  find := by
    rintro _ r _ n collection query ⟨rfl, h⟩ ⟨rfl, hn⟩
    exact ⟨rfl, rfl, h.change (hc.findOther collection query he hn h.world)⟩
  count := by
    rintro _ r _ n collection filter ⟨rfl, h⟩ ⟨rfl, hn⟩
    exact ⟨rfl, rfl, h.change (hc.countOther collection filter he hn h.world)⟩

end Shows

end Registry

end Gateway

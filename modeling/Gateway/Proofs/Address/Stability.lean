import Gateway.Proofs.Address.Anonymous

/-!
# Redaction of every address

An address need not come from a topology: its base may be any text. Whatever it is, what
redaction leaves is redacted already, and of a URL with the scheme it keeps all behind the first
slash and, of each entry in front of it, exactly what stands behind its last at sign
(`redact_stable`).
-/

namespace Gateway.BaseAddress

/-- What stands in front of the first slash, or everything if there is none. -/
def untilSlash (cs : List Char) : List Char := cs.takeWhile (· ≠ '/')

/-- What stands behind the first slash, or nothing if there is none. -/
def behindSlash (cs : List Char) : List Char := (cs.dropWhile (· ≠ '/')).drop 1

/-- `host` is `entry` without all up to its last at sign. -/
def IsBehindLastAt (entry host : List Char) : Prop :=
  '@' ∉ host ∧ (entry = host ∨ ∃ user, entry = user ++ '@' :: host)

/-! ## Entries -/

theorem isBehindLastAt (entry : List Char) : IsBehindLastAt entry (behindLastAt entry) := by
  by_cases hat : '@' ∈ entry
  · -- the last one is the first one from behind
    obtain ⟨host, user, hreverse, hhost⟩ := List.eq_append_cons_of_mem (List.mem_reverse.mpr hat)
    have hentry : entry = user.reverse ++ '@' :: host.reverse := by
      rw [← List.reverse_reverse entry, hreverse]
      simp
    have hhost' : '@' ∉ host.reverse := fun h => hhost (List.mem_reverse.mp h)
    rw [hentry, behindLastAt_append, behindLastAt_of_notMem hhost']
    exact ⟨hhost', .inr ⟨user.reverse, rfl⟩⟩
  · rw [behindLastAt_of_notMem hat]
    exact ⟨hat, .inl rfl⟩

theorem comma_notMem_splitCommas (cs : List Char) : ∀ e ∈ splitCommas cs, ',' ∉ e := by
  induction cs with
  | nil => simp [splitCommas]
  | cons c cs ih =>
    rw [splitCommas]
    split
    · rw [List.forall_mem_cons]
      exact ⟨List.not_mem_nil, ih⟩
    · rename_i hc
      rcases hsplit : splitCommas cs with _ | ⟨e, es⟩
      · simp [Ne.symm hc]
      · rw [hsplit, List.forall_mem_cons] at ih
        simpa [Ne.symm hc] using ih

/-- What redaction makes of the entries has as many entries, each the end of the one that was
there. -/
theorem splitCommas_stripped (hosts : List Char) :
    splitCommas (stripped hosts) = (splitCommas hosts).map behindLastAt := by
  rw [stripped, splitCommas_eq_splitOn (joinCommas _)]
  apply List.splitOn_intercalate
  · intro e he
    obtain ⟨entry, hentry, rfl⟩ := List.mem_map.mp he
    have hcomma := comma_notMem_splitCommas hosts entry hentry
    obtain ⟨-, heq | ⟨user, heq⟩⟩ := isBehindLastAt entry
    · rwa [← heq]
    · intro h
      rw [heq] at hcomma
      exact hcomma (List.mem_append_right _ (List.mem_cons_of_mem _ h))
  · simp [splitCommas_eq_splitOn]

theorem mem_joinCommas {a : Char} (ha : a ≠ ',') {es : List (List Char)} (h : a ∈ joinCommas es) :
    ∃ e ∈ es, a ∈ e := by
  induction es with
  | nil => simp [joinCommas] at h
  | cons e es ih =>
    rcases es with _ | ⟨e', es⟩
    · exact ⟨e, List.mem_cons_self, by simpa [joinCommas] using h⟩
    · rw [joinCommas, List.intercalate_cons_cons] at h
      simp only [List.append_assoc, List.singleton_append, List.mem_append, List.mem_cons, ha,
        false_or] at h
      rcases h with h | h
      · exact ⟨e, List.mem_cons_self, h⟩
      · obtain ⟨d, hd, hmem⟩ := ih h
        exact ⟨d, List.mem_cons_of_mem _ hd, hmem⟩

/-- A character in the redacted entries was in the entries, and behind an at sign if there
was one. -/
theorem mem_stripped {a : Char} (ha : a ≠ ',') {hosts : List Char} (h : a ∈ stripped hosts) :
    a ≠ '@' ∧ a ∈ hosts := by
  obtain ⟨e, he, hmem⟩ := mem_joinCommas ha h
  obtain ⟨entry, hentry, rfl⟩ := List.mem_map.mp he
  rw [splitCommas_eq_splitOn] at hentry
  obtain ⟨hat, hsource⟩ := isBehindLastAt entry
  refine ⟨fun heq => hat (heq ▸ hmem), mem_of_mem_splitOn hentry ?_⟩
  rcases hsource with heq | ⟨user, heq⟩
  · rwa [heq]
  · rw [heq]
    exact List.mem_append_right _ (List.mem_cons_of_mem _ hmem)

/-! ## URLs -/

theorem redactRest_eq (cs : List Char) :
    redactRest cs = stripped (untilSlash cs) ++ '/' :: behindSlash cs := rfl

theorem slash_notMem_untilSlash (cs : List Char) : '/' ∉ untilSlash cs := by
  intro h
  simpa using List.mem_takeWhile_imp h

theorem slash_notMem_stripped (cs : List Char) : '/' ∉ stripped (untilSlash cs) := fun h =>
  slash_notMem_untilSlash cs (mem_stripped (by decide) h).2

theorem at_notMem_stripped (cs : List Char) : '@' ∉ stripped cs := fun h =>
  (mem_stripped (by decide) h).1 rfl

theorem untilSlash_redactRest (cs : List Char) :
    untilSlash (redactRest cs) = stripped (untilSlash cs) := by
  have htake := (takeWhile_slash (slash_notMem_stripped cs) ('/' :: behindSlash cs)).1
  rw [redactRest_eq, untilSlash, htake]
  simp

theorem behindSlash_redactRest (cs : List Char) :
    behindSlash (redactRest cs) = behindSlash cs := by
  have hdrop := (takeWhile_slash (slash_notMem_stripped cs) ('/' :: behindSlash cs)).2
  rw [redactRest_eq, behindSlash, hdrop]
  simp

theorem redactRest_redactRest (cs : List Char) : redactRest (redactRest cs) = redactRest cs :=
  redactRest_of_notMem (slash_notMem_stripped cs) (at_notMem_stripped _) (behindSlash cs)

theorem eq_append_of_behind? {p cs rest : List Char} (h : behind? p cs = some rest) :
    cs = p ++ rest := by
  induction p generalizing cs with
  | nil => exact Option.some.inj h
  | cons c p ih =>
    rcases cs with _ | ⟨d, cs⟩
    · cases h
    · rw [behind?] at h
      split at h
      · rename_i hc
        rw [ih h, hc, List.cons_append]
      · cases h

/-- A URL with the scheme keeps it. -/
theorem toList_redact {url : String} {rest : List Char}
    (h : url.toList = scheme.toList ++ rest) :
    (redact url).toList = scheme.toList ++ redactRest rest := by
  rw [redact, h, behind?_append, String.toList_ofList]

theorem redact_redact (url : String) : redact (redact url) = redact url := by
  rcases hrest : behind? scheme.toList url.toList with _ | rest
  · have hsame : redact url = url := by rw [redact, hrest]
    rw [hsame, hsame]
  · have honce := toList_redact (eq_append_of_behind? hrest)
    apply String.toList_injective
    rw [toList_redact honce, redactRest_redactRest, honce]

/-- **Redaction is stable.** To redact once more changes nothing. Of a URL with the scheme, the
part of the redacted one between the scheme and the next slash has no at sign in it and entries
as many as that of the URL has, each what stands behind the last at sign of that entry; and
behind that slash stands what stands behind the first slash of the URL. -/
theorem redact_stable (a : BaseAddress) (database : String) :
    redact (a.redactedUrlFor database) = a.redactedUrlFor database ∧
      ∀ rest, (a.urlFor database).toList = scheme.toList ++ rest →
        ∃ rest', (a.redactedUrlFor database).toList = scheme.toList ++ rest' ∧ '/' ∈ rest' ∧
          '@' ∉ untilSlash rest' ∧
          List.Forall₂ IsBehindLastAt ((untilSlash rest).splitOn ',')
            ((untilSlash rest').splitOn ',') ∧
          behindSlash rest' = behindSlash rest := by
  refine ⟨redact_redact _, fun rest hrest => ⟨redactRest rest, toList_redact hrest, ?_, ?_, ?_, ?_⟩⟩
  · rw [redactRest_eq]
    exact List.mem_append_right _ List.mem_cons_self
  · rw [untilSlash_redactRest]
    exact at_notMem_stripped _
  · rw [untilSlash_redactRest, ← splitCommas_eq_splitOn, ← splitCommas_eq_splitOn,
      splitCommas_stripped, List.forall₂_map_right_iff, List.forall₂_same]
    exact fun entry _ => isBehindLastAt entry
  · exact behindSlash_redactRest rest

/-- Entries that are empty or have several at signs, and a base without a slash, so that the first
one stands in a parameter. -/
theorem redact_stable_handmade :
    let a : BaseAddress := ⟨"mongodb://u:p@@h,,x@", [("a", "b/c,d@e")]⟩
    (a.urlFor "f,g@").toList = scheme.toList ++ "u:p@@h,,x@f,g@?a=b/c,d@e".toList ∧
      ∃ rest', (a.redactedUrlFor "f,g@").toList = scheme.toList ++ rest' ∧
        List.Forall₂ IsBehindLastAt
          ["u:p@@h".toList, [], "x@f".toList, "g@?a=b".toList] ((untilSlash rest').splitOn ',') ∧
        behindSlash rest' = "c,d@e".toList := by
  intro a
  have hrest : (a.urlFor "f,g@").toList =
      scheme.toList ++ "u:p@@h,,x@f,g@?a=b/c,d@e".toList := by decide +kernel
  obtain ⟨-, hparts⟩ := redact_stable a "f,g@"
  obtain ⟨rest', htext, -, -, hentries, htail⟩ := hparts _ hrest
  refine ⟨hrest, rest', htext, ?_, ?_⟩
  · have hsplit : (untilSlash "u:p@@h,,x@f,g@?a=b/c,d@e".toList).splitOn ',' =
        ["u:p@@h".toList, [], "x@f".toList, "g@?a=b".toList] := by
      rw [← splitCommas_eq_splitOn]
      decide +kernel
    rwa [hsplit] at hentries
  · have hbehind : behindSlash "u:p@@h,,x@f,g@?a=b/c,d@e".toList = "c,d@e".toList := by
      decide +kernel
    rwa [hbehind] at htail

end Gateway.BaseAddress

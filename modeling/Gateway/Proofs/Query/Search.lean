import Gateway.Proofs.Entries
import Gateway.Proofs.Query.Recognized

/-!
# Search beside a filter

A search that is not empty becomes an entry of the native filter, under a name of its own. The
filter has at most one entry before that: a conjunction, a disjunction, or a condition that
stands bare under its attribute, which may have any name. So the search is one more entry behind
the filter, unless the filter comes down to one condition on an attribute of the name of the
search; then the search takes the place of that condition (`search_augments_iff`).
-/

namespace Gateway

/-- The entry of a search. -/
def textEntry (s : String) : String × Bson := ("$text", .document [("$search", .string s)])

/-- A filter whose only recognized condition is on an attribute of the name of the search. -/
def Filter.AsksText (f : Filter) : Prop := ∃ c, f.recognized = [[c]] ∧ c.path = "$text"

theorem Condition.isRecognized_of_mem {f : Filter} {g : Group} {c : Condition}
    (hg : g ∈ f.recognized) (hc : c ∈ g) : c.isRecognized = true := by
  obtain ⟨g', -, rfl⟩ := List.mem_map.mp hg
  exact (List.mem_filter.mp hc).2

/-- A filter that comes down to one condition is that condition under its attribute. -/
theorem Filter.native_of_recognized_eq {f : Filter} {c : Condition} (h : f.recognized = [[c]]) :
    ∃ test, f.native = [(c.path, test)] := by
  have hc : c.isRecognized = true :=
    Condition.isRecognized_of_mem (h ▸ List.mem_singleton_self [c]) (List.mem_singleton_self c)
  obtain ⟨d, ⟨test, -, rfl⟩, hd⟩ := Condition.native?_of_isRecognized hc
  refine ⟨test, ?_⟩
  rw [← f.native_recognized, h]
  simp [native, Group.native, hd]

/-- The name of the search is taken only by a condition that stands bare. -/
theorem Filter.text_mem_keys_native_iff {f : Filter} :
    "$text" ∈ Entries.keys f.native ↔ f.AsksText := by
  constructor
  · intro h
    match f with
    | [] => cases h
    | [g] =>
      have hrec : Filter.recognized [g] = [g.recognized] := rfl
      change "$text" ∈ Entries.keys g.native at h
      rcases g.native_cases with ⟨-, hg⟩ | ⟨c, test, hc, -, hg⟩ | ⟨ds, -, -, hg⟩
      all_goals rw [hg] at h
      · simp [Entries.keys] at h
      · exact ⟨c, by rw [hrec, hc], (List.mem_singleton.mp h).symm⟩
      · simp [Entries.keys] at h
    | g :: g' :: gs => simp [native, Entries.keys] at h
  · rintro ⟨c, hc, hpath⟩
    obtain ⟨test, hnative⟩ := native_of_recognized_eq hc
    rw [hnative, ← hpath]
    exact List.mem_singleton_self c.path

variable (filter : Option Filter) (attributes : Option (List String))
  (limit page : Option UInt64) (order : Option (List SortKey))

theorem NativeQuery.filter_of_search {s : String} (hs : s ≠ "") :
    (NativeQuery.of filter attributes limit page order (some s)).filter =
      Entries.insert "$text" (textEntry s).2 ((filter.map Filter.native).getD []) := by
  have hkept : (some s).filter (fun s => s ≠ "") = some s := by simp [Option.filter, hs]
  simp only [NativeQuery.of, searchEntry, hkept]
  rfl

/-- **When a search leaves the filter as it is.** All entries of the filter stay, unchanged and in
their order, with the search as one more entry behind them, if and only if the filter is not one
condition on an attribute of the name of the search. If it is, nothing of it is left. -/
theorem search_augments_iff {s : String} (hs : s ≠ "") :
    ((NativeQuery.of filter attributes limit page order (some s)).filter =
        (filter.map Filter.native).getD [] ++ [textEntry s] ↔ ∀ f ∈ filter, ¬ f.AsksText) ∧
      ∀ f ∈ filter, f.AsksText →
        (NativeQuery.of filter attributes limit page order (some s)).filter = [textEntry s] := by
  rw [NativeQuery.filter_of_search filter attributes limit page order hs]
  have hreplaced : ∀ f ∈ filter, f.AsksText →
      Entries.insert "$text" (textEntry s).2 ((filter.map Filter.native).getD []) =
        [textEntry s] := by
    rintro f rfl ⟨c, hc, hpath⟩
    obtain ⟨test, hnative⟩ := Filter.native_of_recognized_eq hc
    simp [hnative, hpath, Entries.insert, textEntry]
  refine ⟨⟨?_, ?_⟩, hreplaced⟩
  · intro h f hf hasks
    rw [hreplaced f hf hasks] at h
    -- one entry is not the entry of the condition and another one
    obtain ⟨c, hc, -⟩ := hasks
    obtain ⟨test, hnative⟩ := Filter.native_of_recognized_eq hc
    obtain rfl := Option.mem_def.mp hf
    simp [hnative] at h
  · intro h
    apply Entries.insert_of_notMem
    rcases filter with _ | f
    · exact List.not_mem_nil
    · exact fun hmem => h f rfl (Filter.text_mem_keys_native_iff.mp hmem)

/-- Two conditions, of which the first is on an attribute of the name of the search. -/
def searched : Filter := [[⟨"$text", .equal, .string "x"⟩, ⟨"lang", .equal, .string "de"⟩]]

/-- Beside another condition it is kept. -/
theorem searched_augments :
    "shoe" ≠ "" ∧
      (NativeQuery.of (some searched) none (some 5) none none (some "shoe")).filter =
        searched.native ++ [textEntry "shoe"] := by
  have hs : "shoe" ≠ "" := by decide
  refine ⟨hs, ((search_augments_iff (some searched) none (some 5) none none hs).1).mpr ?_⟩
  rintro f ⟨rfl⟩ ⟨c, hc, -⟩
  simp [searched, Filter.recognized, Group.recognized, Condition.isRecognized] at hc

/-- A search may take the place of a condition. -/
theorem not_search_augments :
    ¬ ∀ (filter : Filter) (s : String), s ≠ "" →
      (NativeQuery.of (some filter) none none none none (some s)).filter =
        filter.native ++ [textEntry s] := by
  intro h
  have hkept := h [[⟨"$text", .equal, .string "x"⟩]] "s" (by decide)
  exact absurd (congrArg List.length hkept) (by decide)

end Gateway

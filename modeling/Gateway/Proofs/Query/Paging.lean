import Gateway.Store.Memory
import Mathlib.Data.Nat.Basic

/-!
# Pages

A page is cut out of the matching documents by a number to skip and a limit, and both are
words: the product behind the first stays at the greatest word, and the second is cut to the
signed range. Neither shows, since no list is long enough to tell (`drop_take_min`). So a
page holds the places that exact arithmetic gives it, and the pages in turn are the list.
-/

namespace Gateway

/-- The number of a page, counted from 1; zero, or none given, is the first. -/
def pageNumber (page : Option UInt64) : Nat := max ((page.map UInt64.toNat).getD 1) 1

/-! ## The compiled bounds -/

theorem effectiveLimit_of_pos {l : UInt64} (h : 1 ≤ l) : effectiveLimit (some l) = some l := by
  have hpos : 0 < l := by
    rw [UInt64.lt_iff_toNat_lt]
    exact UInt64.le_iff_toNat_le.mp h
  simp [effectiveLimit, hpos]

theorem toNat_boundedProduct (a b : UInt64) :
    (boundedProduct a b).toNat = min (a.toNat * b.toNat) (Decimal.maxOfBits 64) := by
  unfold boundedProduct
  rw [UInt64.toNat_ofNat', Nat.mod_eq_of_lt]
  exact Nat.lt_of_le_of_lt (Nat.min_le_right _ _) (by decide)

theorem toNat_boundedSigned (a : UInt64) :
    (boundedSigned a).toInt.toNat = min a.toNat (Decimal.maxOfBits 63) := by
  unfold boundedSigned
  rw [Int64.toInt_ofNat_of_lt, Int.toNat_natCast]
  exact Nat.lt_of_le_of_lt (Nat.min_le_right _ _) (by decide)

/-- What is skipped are the pages before, as far as a word can tell. -/
theorem skipCount_eq {l : UInt64} (h : 1 ≤ l) (page : Option UInt64) :
    ((skipCount (some l) page).map UInt64.toNat).getD 0 =
      min ((pageNumber page - 1) * l.toNat) (Decimal.maxOfBits 64) := by
  unfold skipCount pageNumber
  rw [effectiveLimit_of_pos h]
  rcases page with _ | p
  · simp
  · by_cases hp : 1 < p
    · have hlt : 1 < p.toNat := UInt64.lt_iff_toNat_lt.mp hp
      have hpred : (p - 1).toNat = p.toNat - 1 :=
        UInt64.toNat_sub_of_le p 1 (UInt64.le_iff_toNat_le.mpr (Nat.le_of_lt hlt))
      have hmax : max p.toNat 1 = p.toNat := Nat.max_eq_left (Nat.le_of_lt hlt)
      simp only [hp, if_true, Option.map_some, Option.getD_some, hmax]
      rw [toNat_boundedProduct, hpred, Nat.mul_comm]
    · have hle : p.toNat ≤ 1 := by
        rw [← Nat.not_lt]
        exact fun hlt => hp (UInt64.lt_iff_toNat_lt.mpr hlt)
      simp [hp, Nat.max_eq_right hle]

/-! ## Cutting a list -/

/-- Bounds beyond the length of a list do not show. -/
theorem drop_take_min {α : Type} {docs : List α} {m n : Nat} (hm : docs.length ≤ m)
    (hn : docs.length ≤ n) (a b : Nat) :
    (docs.drop (min a m)).take (min b n) = (docs.drop a).take b := by
  apply List.ext_getElem?
  intro i
  simp only [List.getElem?_take, List.getElem?_drop]
  grind

theorem take_append_extract {α : Type} (docs : List α) (l k : Nat) :
    docs.take (k * l) ++ docs.extract (k * l) ((k + 1) * l) = docs.take ((k + 1) * l) := by
  rw [List.extract_eq_take_drop, Nat.succ_mul, Nat.add_sub_cancel_left, ← List.take_add]

/-! ## The pages of a request -/

section Pages

variable {α : Type} (filter : Option Filter) (attributes : Option (List String))
  (order : Option (List SortKey)) (search : Option String)

/-- The part of the matching documents that a page wants, by the compiled skip and limit. -/
def pageOf (limit page : Option UInt64) (docs : List α) : List α :=
  Store.page (NativeQuery.of filter attributes limit page order search).options docs

theorem pageOf_eq_extract {docs : List α} (hlen : docs.length ≤ Decimal.maxOfBits 63)
    {l : UInt64} (hl : 1 ≤ l) (page : Option UInt64) :
    pageOf filter attributes order search (some l) page docs =
      docs.extract ((pageNumber page - 1) * l.toNat) (pageNumber page * l.toNat) := by
  have hlen' : docs.length ≤ Decimal.maxOfBits 64 := Nat.le_trans hlen (by decide)
  have hnumber : 1 ≤ pageNumber page := Nat.le_max_right _ _
  have hwidth : pageNumber page * l.toNat - (pageNumber page - 1) * l.toNat = l.toNat := by
    rw [← Nat.sub_mul, Nat.sub_sub_self hnumber, Nat.one_mul]
  have hlimit : (effectiveLimit (some l)).map boundedSigned = some (boundedSigned l) := by
    rw [effectiveLimit_of_pos hl, Option.map_some]
  unfold pageOf Store.page
  simp only [NativeQuery.of, NativeOptions.of, hlimit]
  rw [skipCount_eq hl, toNat_boundedSigned, drop_take_min hlen' hlen, List.extract_eq_take_drop,
    hwidth]

theorem pageOf_unlimited {limit : Option UInt64} (h : effectiveLimit limit = none)
    (page : Option UInt64) (docs : List α) :
    pageOf filter attributes order search limit page docs = docs := by
  unfold pageOf Store.page
  simp [NativeQuery.of, NativeOptions.of, skipCount, h]

theorem flatMap_pageOf {docs : List α} (hlen : docs.length ≤ Decimal.maxOfBits 63)
    {l : UInt64} (hl : 1 ≤ l) {n : Nat} (hn : n < UInt64.size) :
    ((List.range n).flatMap fun k =>
        pageOf filter attributes order search (some l) (some (UInt64.ofNat (k + 1))) docs) =
      docs.take (n * l.toNat) := by
  induction n with
  | zero => simp
  | succ n ih =>
    have hnumber : pageNumber (some (UInt64.ofNat (n + 1))) = n + 1 := by
      show max (UInt64.ofNat (n + 1)).toNat 1 = n + 1
      rw [UInt64.toNat_ofNat', Nat.mod_eq_of_lt hn, Nat.max_eq_left (Nat.le_add_left 1 n)]
    rw [List.range_succ, List.flatMap_append, ih (Nat.lt_of_succ_lt hn), List.flatMap_singleton,
      pageOf_eq_extract filter attributes order search hlen hl, hnumber, Nat.add_sub_cancel]
    exact take_append_extract docs l.toNat n

/-- **Pages neither overlap nor leave gaps.** A page with a limit holds the documents from the
one behind all pages before it up to its own last one, counted without bound; so the first
pages in turn are the first documents, each once and in order. Without a limit, or with zero
for one, a page is the whole list. -/
theorem pages_partition (docs : List α) (hlen : docs.length ≤ Decimal.maxOfBits 63) :
    (∀ (l : UInt64) (page : Option UInt64), 1 ≤ l →
      pageOf filter attributes order search (some l) page docs =
        docs.extract ((pageNumber page - 1) * l.toNat) (pageNumber page * l.toNat)) ∧
    (∀ (l : UInt64) (n : Nat), 1 ≤ l → n < UInt64.size →
      ((List.range n).flatMap fun k =>
          pageOf filter attributes order search (some l) (some (UInt64.ofNat (k + 1))) docs) =
        docs.take (n * l.toNat)) ∧
    ∀ page : Option UInt64,
      pageOf filter attributes order search none page docs = docs ∧
        pageOf filter attributes order search (some 0) page docs = docs := by
  refine ⟨?_, ?_, ?_⟩
  · intro l page hl
    exact pageOf_eq_extract filter attributes order search hlen hl page
  · intro l n hl hn
    exact flatMap_pageOf filter attributes order search hlen hl hn
  · intro page
    exact ⟨pageOf_unlimited filter attributes order search rfl page docs,
      pageOf_unlimited filter attributes order search rfl page docs⟩

end Pages

/-- Pages of two, also where the number to skip is no word, and a page whose limit is no
signed word. -/
theorem pages_of_five :
    ((List.range 3).flatMap fun k =>
        pageOf none none none none (some 2) (some (UInt64.ofNat (k + 1))) [10, 20, 30, 40, 50]) =
      [10, 20, 30, 40, 50] ∧
      pageOf none none none none (some 2) (some 0x8000000000000001) [10, 20, 30, 40, 50] = [] ∧
      pageOf none none none none (some 0xFFFFFFFFFFFFFFFF) none [10, 20, 30, 40, 50] =
        [10, 20, 30, 40, 50] := by
  obtain ⟨hpage, hpages, -⟩ := pages_partition none none none none [10, 20, 30, 40, 50] (by decide)
  refine ⟨?_, ?_, ?_⟩
  · rw [hpages 2 3 (by decide) (by decide)]
    rfl
  · rw [hpage 2 (some 0x8000000000000001) (by decide)]
    rfl
  · rw [hpage 0xFFFFFFFFFFFFFFFF none (by decide)]
    rfl

end Gateway

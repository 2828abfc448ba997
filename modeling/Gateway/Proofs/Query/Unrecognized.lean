import Gateway.Decode
import Gateway.Proofs.Json.Exchange
import Gateway.Proofs.Query.Recognized

/-!
# Unrecognized conditions are as if absent

A name of an operator that is none of the six does not spoil a request, and the condition with it
says nothing: its text can be cut out of the text of the request, with a comma if there is one
too many, and what is left is a request that compiles to the same query. The group of the
condition stays, also when nothing is left in it. A record of the condition is lost, and nothing
else (`Request.unrecognized_asIfAbsent`).

The text is taken apart from outside in. A record and a list have the part that was read in one
place, in which another one can stand, so there is a frame around the conditions of the group
(`Request.read_condition`) and one around the operator (`Condition.read_operator`).
-/

namespace Gateway

open Gateway.Json

/-! ## Places in a filter -/

/-- A place in a filter: the groups before and behind it, and the conditions of its own group
that stand left and right of it. -/
structure Filter.Place where
  before : Filter
  left : Group
  right : Group
  after : Filter

namespace Filter.Place

/-- The filter with a condition in the place. -/
def fill (p : Place) (c : Condition) : Filter := p.before ++ (p.left ++ c :: p.right) :: p.after

/-- The filter with nothing in the place. The group stays. -/
def clear (p : Place) : Filter := p.before ++ (p.left ++ p.right) :: p.after

variable {p : Place} {c : Condition}

theorem recognized_fill (hc : c.operator = .unrecognized) :
    (p.fill c).recognized = p.clear.recognized := by
  have hskip : ¬ c.isRecognized = true := by simp [Condition.isRecognized, hc]
  have hgroup : Group.recognized (p.left ++ c :: p.right) =
      Group.recognized (p.left ++ p.right) := by
    simp only [Group.recognized, List.filter_append, List.filter_cons_of_neg hskip]
  simp only [fill, clear, recognized, List.map_append, List.map_cons, hgroup]

theorem native_fill (hc : c.operator = .unrecognized) : (p.fill c).native = p.clear.native := by
  rw [← native_recognized (p.fill c), recognized_fill hc, native_recognized]

/-- The records of a filter have that of the condition among those of the others. -/
theorem skipRecords_fill (hc : c.operator = .unrecognized) :
    ∃ us vs, (p.fill c).skipRecords = us ++ c.skipRecord :: vs ∧
      p.clear.skipRecords = us ++ vs := by
  have hnative : c.native? = none := by
    apply Condition.native?_of_not_isRecognized
    simp [Condition.isRecognized, hc]
  refine ⟨skipRecords (p.before ++ [p.left]), skipRecords (p.right :: p.after), ?_, ?_⟩
  · simp [fill, skipRecords, hnative]
  · simp [clear, skipRecords]

end Filter.Place

variable {p : Filter.Place} {c : Condition} {r : Request}

theorem Request.compile_clear (hfilter : r.filter = some (p.fill c))
    (hc : c.operator = .unrecognized) :
    compile { r with filter := some p.clear } = r.compile := by
  simp only [compile, NativeQuery.of, hfilter, Option.map_some, Filter.Place.native_fill hc]

/-! ## Frames in outlines -/

variable {s : Scope} {o : Outline}

/-! ### Operators in conditions -/

namespace Condition

/-- The field of the operator. -/
def operatorField : Json.Field Draft :=
  ⟨"operator", fun d => d.operator.isSome, fun s o d =>
    (Operator.read s o).map fun a => { d with operator := some a }⟩

/-- Another operator for a draft that has one. -/
def Draft.exchange (operator : Operator) (d : Draft) : Draft :=
  { d with operator := d.operator.map fun _ => operator }

theorem owns_operator :
    shape.Owns (shape.fields.take 1) operatorField (shape.fields.drop 2) Draft.operator where
  fields := rfl
  name := by simp [shape, operatorField]
  given _ := rfl
  start := rfl
  fills := by
    intro s o d d' h
    obtain ⟨a, -, rfl⟩ := map_eq_ok.mp h
    rfl
  apart := by simp [shape, map_eq_ok]

theorem retouches_exchange (operator : Operator) :
    shape.Retouches (shape.fields.take 1 ++ shape.fields.drop 2) (Draft.exchange operator) where
  given := by simp [shape, Draft.exchange]
  read := by simp [shape, Draft.exchange, map_map]

theorem finish_eq_ok {d : Draft} : shape.finish d = .ok c ↔
    d.path = some c.path ∧ d.operator = some c.operator ∧ d.value.getD .null = c.value := by
  obtain ⟨path, operator, value⟩ := d
  obtain ⟨path', operator', value'⟩ := c
  cases path <;> cases operator <;> simp [shape]

/-- In a condition that was read the operator can be exchanged. -/
theorem read_operator (h : Condition.read s o = .ok c) :
    ∃ C x inner, o = C x ∧ IsFrame C ∧ Operator.read inner x = .ok c.operator ∧
      ∀ x' operator, Operator.read inner x' = .ok operator →
        Condition.read s (C x') = .ok { c with operator } := by
  obtain ⟨C, x, inner, d₁, d₂, d, rfl, hC, hx, hfinish, hsame, hother⟩ :=
    owns_operator.read_field h fun d hd => by rw [(finish_eq_ok.mp hd).2.1]; rfl
  obtain ⟨a, ha, rfl⟩ := map_eq_ok.mp hx
  obtain ⟨hpath, hoperator, hvalue⟩ := finish_eq_ok.mp hfinish
  obtain rfl : c.operator = a := Option.some.inj (hoperator.symm.trans hsame)
  refine ⟨C, x, inner, rfl, hC, ha, fun x' operator hx' => ?_⟩
  refine hother (Draft.exchange operator) x' _ (retouches_exchange operator) ?_ ?_
  · exact map_eq_ok.mpr ⟨operator, hx', rfl⟩
  · refine finish_eq_ok.mpr ⟨hpath, ?_, hvalue⟩
    simp [Draft.exchange, hoperator]

end Condition

/-! ### Conditions in filters -/

/-- In a filter that was read the list of the group has the condition as an item. -/
theorem Filter.read_condition (h : Filter.read s o = .ok (p.fill c)) :
    ∃ C os x us e inner, o = C (.array (os ++ x :: us) e) ∧ IsFrame C ∧
      Condition.read inner x = .ok c ∧
      Filter.read s (C (.array (os ++ us) e)) = .ok p.clear ∧
      ∀ x' c', Condition.read inner x' = .ok c' →
        Filter.read s (C (.array (os ++ x' :: us) e)) = .ok (p.fill c') := by
  obtain ⟨outer, as, y, bs, e', rfl, hy, -, hgroups⟩ := readList_item h
  obtain ⟨inner, os, x, us, e, rfl, hx, hwithout, hother⟩ := readList_item hy
  refine ⟨_, os, x, us, e, inner, rfl, isFrame_item as bs e', hx, hgroups _ _ hwithout, ?_⟩
  intro x' c' hx'
  exact hgroups _ _ (hother x' c' hx')

/-! ### Filters in requests -/

namespace Request

def filterField : Json.Field Draft :=
  ⟨"filter", fun d => d.filter.isSome, fun s o d =>
    (o.readOption (Filter.read s)).map fun a => { d with filter := some a }⟩

/-- Another filter for a draft that has one. -/
def Draft.exchange (filter : Filter) (d : Draft) : Draft :=
  { d with filter := d.filter.map fun _ => some filter }

theorem owns_filter :
    shape.Owns (shape.fields.take 2) filterField (shape.fields.drop 3) Draft.filter where
  fields := rfl
  name := by simp [shape, filterField]
  given _ := rfl
  start := rfl
  fills := by
    intro s o d d' h
    obtain ⟨a, -, rfl⟩ := map_eq_ok.mp h
    rfl
  apart := by simp [shape, map_eq_ok]

theorem retouches_exchange (filter : Filter) :
    shape.Retouches (shape.fields.take 2 ++ shape.fields.drop 3) (Draft.exchange filter) where
  given := by simp [shape, Draft.exchange]
  read := by simp [shape, Draft.exchange, map_map]

theorem filter_of_finish {d : Draft} (h : shape.finish d = .ok r) :
    d.filter.getD none = r.filter := by
  obtain ⟨database, collection, filter, attributes, limit, page, order, search⟩ := d
  rcases database with _ | database <;> rcases collection with _ | collection <;> cases h
  rfl

theorem finish_exchange {d : Draft} {filter : Filter} (h : shape.finish d = .ok r)
    (hd : d.filter.isSome) :
    shape.finish (d.exchange filter) = .ok { r with filter := some filter } := by
  obtain ⟨database, collection, filter', attributes, limit, page, order, search⟩ := d
  obtain ⟨filter', rfl⟩ := Option.isSome_iff_exists.mp hd
  rcases database with _ | database <;> rcases collection with _ | collection <;> cases h
  rfl

/-- In a request that was read the filter can be exchanged. -/
theorem read_filter {f : Filter} (h : Request.read s o = .ok r) (hfilter : r.filter = some f) :
    ∃ C x inner, o = C x ∧ IsFrame C ∧ Filter.read inner x = .ok f ∧
      ∀ x' f', Filter.read inner x' = .ok f' →
        Request.read s (C x') = .ok { r with filter := some f' } := by
  have hgiven : ∀ d, shape.finish d = .ok r → d.filter = some (some f) := by
    intro d hd
    have hsome := filter_of_finish hd
    rw [hfilter] at hsome
    rcases hvalue : d.filter with _ | v
    · simp [hvalue] at hsome
    · simpa [hvalue] using hsome
  obtain ⟨C, x, inner, d₁, d₂, d, rfl, hC, hx, hfinish, hsame, hother⟩ :=
    owns_filter.read_field h fun d hd => by rw [hgiven d hd]; rfl
  obtain ⟨a, ha, rfl⟩ := map_eq_ok.mp hx
  obtain rfl : some f = a := Option.some.inj ((hgiven d hfinish).symm.trans hsame)
  have hread : Filter.read inner x = .ok f := by
    have hne : x ≠ .null := by rintro rfl; cases ha
    rw [readOption_of_ne_null hne] at ha
    obtain ⟨_, hf, hok⟩ := map_eq_ok.mp ha
    cases hok
    exact hf
  refine ⟨C, x, inner, rfl, hC, hread, fun x' f' hx' => ?_⟩
  refine hother (Draft.exchange f') x' _ (retouches_exchange f') ?_ ?_
  · refine map_eq_ok.mpr ⟨some f', ?_, rfl⟩
    have hne : x' ≠ .null := by rintro rfl; cases hx'
    rw [readOption_of_ne_null hne, hx']
    rfl
  · exact finish_exchange hfinish (by rw [hgiven d hfinish]; rfl)

/-- In a request that was read the list of the group has the condition as an item. -/
theorem read_condition (h : Request.read s o = .ok r) (hfilter : r.filter = some (p.fill c)) :
    ∃ C os x us e inner, o = C (.array (os ++ x :: us) e) ∧ IsFrame C ∧
      Condition.read inner x = .ok c ∧
      Request.read s (C (.array (os ++ us) e)) = .ok { r with filter := some p.clear } ∧
      ∀ x' c', Condition.read inner x' = .ok c' →
        Request.read s (C (.array (os ++ x' :: us) e)) =
          .ok { r with filter := some (p.fill c') } := by
  obtain ⟨C, y, outer, rfl, hC, hy, hother⟩ := read_filter h hfilter
  obtain ⟨D, os, x, us, e, inner, rfl, hD, hx, hwithout, hothers⟩ := Filter.read_condition hy
  refine ⟨_, os, x, us, e, inner, rfl, hC.comp hD, hx, hother _ _ hwithout, ?_⟩
  intro x' c' hx'
  exact hother _ _ (hothers x' c' hx')

end Request

/-! ## Texts -/

/-- The names that are recognized. -/
def Operator.names : List String :=
  ["equal", "notEqual", "greater", "greaterOrEqual", "less", "lessOrEqual"]

theorem Operator.ofName_eq_unrecognized_iff {name : String} :
    ofName name = .unrecognized ↔ name ∉ names := by
  unfold ofName
  split <;> simp_all [names]

/-- Where a condition stands in a text. Its own text is a head, the text of its operator and a
tail. The comma that goes with it stands in front of it or behind, if there is one. -/
structure Condition.Site where
  front : List Char
  before : List Char
  head : List Char
  tail : List Char
  behind : List Char
  back : List Char
  adjoins : Adjoins before behind

namespace Condition.Site

/-- The text of the condition, with this text of the operator. -/
def own (site : Site) (x : List Char) : List Char := site.head ++ (x ++ site.tail)

/-- The whole text, with this text of the operator. -/
def text (site : Site) (x : List Char) : String :=
  String.ofList (site.front ++ (site.before ++ (site.own x ++ (site.behind ++ site.back))))

/-- The whole text without the condition and its comma. -/
def textWithout (site : Site) : String := String.ofList (site.front ++ site.back)

/-- With this text of the operator, the condition of the text is `c`. -/
def Holds (site : Site) (x : List Char) (c : Condition) : Prop :=
  ∃ o y s inner, Spells (site.own x) o ∧ Condition.read s o = .ok c ∧ Spells x y ∧
    Operator.read inner y = .ok c.operator

end Condition.Site

namespace Request

variable {t : String}

theorem ofText_eq_ok : Request.ofText t = .ok r ↔
    Request.read .text (Layout.ofText t).value = .ok r ∧ (Layout.ofText t).trailing = false :=
  decodeText_eq_ok

/-- A request is read from a text of its outline. -/
theorem ofText_of_spells {x w : List Char} (hx : Spells x o) (hw : IsBlank w)
    (h : Request.read .text o = .ok r) : Request.ofText (String.ofList (x ++ w)) = .ok r := by
  rw [ofText_eq_ok, Json.ofText_of_spells hx hw]
  exact ⟨h, rfl⟩

theorem spells_of_ofText (h : Request.ofText t = .ok r) :
    ∃ x w o, t = String.ofList (x ++ w) ∧ IsBlank w ∧ Spells x o ∧
      Request.read .text o = .ok r := by
  obtain ⟨hread, htrailing⟩ := ofText_eq_ok.mp h
  obtain ⟨x, w, ht, hw, hx⟩ := Json.spells_of_ofText htrailing (Shape.isClosed_of_read rfl hread)
  exact ⟨x, w, _, by rw [← ht, String.ofList_toList], hw, hx, hread⟩

/-- A condition of a request stands somewhere in its text. It can be cut out there, and its
operator can be exchanged. -/
theorem exists_site (h : Request.ofText t = .ok r) (hfilter : r.filter = some (p.fill c)) :
    ∃ (site : Condition.Site) (x : List Char), t = site.text x ∧ site.Holds x c ∧
      Request.ofText site.textWithout = .ok { r with filter := some p.clear } ∧
      ∀ x' name, Spells x' (.string name) → Request.ofText (site.text x') =
        .ok { r with filter := some (p.fill { c with operator := .ofName name }) } := by
  obtain ⟨cs, w, _, rfl, hw, hcs, hread⟩ := spells_of_ofText h
  obtain ⟨C, os, y, us, e, inner, rfl, hC, hy, hwithout, hother⟩ := read_condition hread hfilter
  obtain ⟨front, a, z, b, back, rfl, hadjoins, hz, hcut, hexchange⟩ := hC.item hcs
  obtain ⟨D, v, inmost, rfl, hD, hv, hoperator⟩ := Condition.read_operator hy
  obtain ⟨head, x, tail, rfl, hx, hown⟩ := hD z v hz
  refine ⟨⟨front, a, head, tail, b, back ++ w, hadjoins⟩, x, ?_, ?_, ?_, fun x' name hx' => ?_⟩
  · simp [Condition.Site.text, Condition.Site.own]
  · exact ⟨_, v, inner, inmost, hz, hy, hx, hv⟩
  · simpa [Condition.Site.textWithout] using ofText_of_spells hcut hw hwithout
  · have hcondition := hoperator (.string name) (.ofName name) rfl
    have hspells := hexchange _ _ (hown x' _ hx')
    simpa [Condition.Site.text, Condition.Site.own] using
      ofText_of_spells hspells hw (hother _ _ hcondition)

/-- **A condition that is not recognized is as if it were absent.** Its text can be cut out of
that of the request. What is left is read as the request without it, with its group in its
place, and compiles to the same query; the record of the skipped condition is all that is
missing. The name of its operator can be exchanged, and for another one that is none of the six
it is the same request. -/
theorem unrecognized_asIfAbsent (h : Request.ofText t = .ok r)
    (hfilter : r.filter = some (p.fill c)) (hc : c.operator = .unrecognized) :
    ∃ (site : Condition.Site) (x : List Char), t = site.text x ∧ site.Holds x c ∧
      (∃ r', Request.ofText site.textWithout = .ok r' ∧
        r' = { r with filter := some p.clear } ∧ r'.compile = r.compile ∧
        c.skipRecord.level = .debug ∧
        ∃ us vs, r.compileRecords = us ++ c.skipRecord :: vs ∧ r'.compileRecords = us ++ vs) ∧
      ∀ x' name, Spells x' (.string name) →
        Request.ofText (site.text x') =
          .ok { r with filter := some (p.fill { c with operator := .ofName name }) } ∧
        (name ∉ Operator.names → Request.ofText (site.text x') = .ok r) := by
  obtain ⟨site, x, ht, hholds, hwithout, hexchange⟩ := exists_site h hfilter
  obtain ⟨us, vs, hwith, hcut⟩ := Filter.Place.skipRecords_fill hc
  refine ⟨site, x, ht, hholds, ⟨_, hwithout, rfl, compile_clear hfilter hc, rfl, us, vs, ?_, hcut⟩,
    fun x' name hx' => ⟨hexchange x' name hx', fun hname => ?_⟩⟩
  · rw [compileRecords, hfilter]
    exact hwith
  · rw [hexchange x' name hx', Operator.ofName_eq_unrecognized_iff.mpr hname, ← hc, ← hfilter]

/-- A condition on an attribute, by this name of an operator. -/
def asked (path operator : String) : Json :=
  .object [("attribute", .string path), ("operator", .string operator), ("value", .string "x")]

/-- Of three conditions two have an operator that is none of the six, and one of these is alone in
its group. -/
def likeness : Json :=
  .object [("database", .string "a"), ("collection", .string "b"),
    ("filter", .array [.array [asked "c" "like", asked "d" "equal"], .array [asked "e" "like"]])]

/-- The first of the two groups as it is read. -/
def likeGroup : Group := [⟨"c", .unrecognized, .string "x"⟩, ⟨"d", .equal, .string "x"⟩]

def likenessRead : Request :=
  { all "a" "b" with filter := some [likeGroup, [⟨"e", .unrecognized, .string "x"⟩]] }

/-- Without the last condition its group is empty, and one record less is left. -/
theorem likeness_asIfAbsent :
    Request.ofText likeness.render = .ok likenessRead ∧
      likenessRead.compileRecords.length = 2 ∧
      ∃ (site : Condition.Site) (x : List Char), likeness.render = site.text x ∧
        ∃ r', Request.ofText site.textWithout = .ok r' ∧ r'.filter = some [likeGroup, []] ∧
          r'.compileRecords.length = 1 ∧ r'.compile = likenessRead.compile ∧
          Request.ofText (site.text (printString "Equal")) = .ok likenessRead := by
  have hread : Request.ofText likeness.render = .ok likenessRead := by
    rw [Request.ofText, decodeText_render, mapError_eq_ok]
    rfl
  obtain ⟨site, x, ht, -, ⟨r', hwithout, rfl, hcompile, -, -⟩, hexchange⟩ :=
    unrecognized_asIfAbsent (p := ⟨[likeGroup], [], [], []⟩)
      (c := ⟨"e", .unrecognized, .string "x"⟩) hread rfl rfl
  exact ⟨hread, rfl, site, x, ht, _, hwithout, rfl, rfl, hcompile,
    (hexchange _ "Equal" (scans_string "Equal").spells).2 (by decide)⟩

end Request

end Gateway

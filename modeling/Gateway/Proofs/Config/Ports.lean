import Gateway.Config.Reader
import Gateway.Proofs.Decimal.Unsigned
import Gateway.Proofs.Json.Natural
import Gateway.Proofs.Json.Whole

/-!
# Ports are read exactly

Which texts of a value are a port, and of which number, is said here by the characters that stand
there (`SpellsPort`): null, digits alone, or a string with digits and perhaps a plus sign between
blanks. The reader takes these and no others, from a text as it comes and from a value that was
read whole before, and an entry for a server has the port that stands in it or is refused
(`readPort_exact`): nothing is wrapped, cut off or replaced by the usual port.
-/

namespace Gateway

open Gateway.Json Gateway.Decimal

/-! ## What a port looks like -/

/-- The text of a port in a string: blanks at both ends and, between them, digits with a value
of 16 bits. A plus sign may lead. -/
def IsPortText (cs : List Char) (port : UInt16) : Prop :=
  ∃ w sign ds u, cs = w ++ ((sign ++ ds) ++ u) ∧ (∀ c ∈ w, Text.isBlank c) ∧
    (∀ c ∈ u, Text.isBlank c) ∧ (sign = [] ∨ sign = ['+']) ∧ IsRun ds ∧ ofDigits ds = port.toNat

/-- The text of a JSON value is a port, or null for none. A number is one when it is digits
alone, so without sign, fraction and exponent. -/
inductive SpellsPort (cs : List Char) : Option UInt16 → Prop
  | absent (h : Spells cs .null) : SpellsPort cs none
  | number {w ds : List Char} {port : UInt16} (hcs : cs = w ++ ds) (hw : IsBlank w)
    (hds : IsRun ds) (hport : ofDigits ds = port.toNat) : SpellsPort cs (some port)
  | text {s : String} {port : UInt16} (h : Spells cs (.string s))
    (hport : IsPortText s.toList port) : SpellsPort cs (some port)

/-- A text of a JSON value is handed over as `o`: as it is laid out, or as the value that was
read from it whole. -/
def HandsOver (cs : List Char) (o : Outline) : Prop :=
  ∃ x, Spells cs x ∧ (o = x ∨ ∃ s v, x.readJson s = .ok v ∧ o = .ofJson v)

namespace ServerConfig

/-- An entry for a server with the port left open: a member by its name, or the second item of
a list. -/
inductive IsPortPlace : (Outline → Outline) → Prop
  | member (ms₁ ms₂ : List (Key × Outline)) (e : Ending) :
    IsPortPlace fun o => .object (ms₁ ++ (.ok "port", o) :: ms₂) e
  | item (host : Outline) (os : List Outline) (e : Ending) :
    IsPortPlace fun o => .array (host :: o :: os) e

end ServerConfig

/-! ## Texts -/

theorem maxOfBits_16 : maxOfBits 16 = 65535 := by decide

theorem readPortText_eq_ok {s : String} {port : UInt16} :
    readPortText s = .ok port ↔ IsPortText s.toList port := by
  have hread : readPortText s = .ok port ↔
      readUnsigned (maxOfBits 16) (Text.trim s.toList) = .ok port.toNat := by
    unfold readPortText
    rcases hn : readUnsigned (maxOfBits 16) (Text.trim s.toList) with fault | n
    · simp
    · obtain ⟨-, -, -, -, -, -, hbound⟩ := readUnsigned_eq_ok.mp hn
      rw [maxOfBits_16] at hbound
      have hmod : n % 65536 = n := Nat.mod_eq_of_lt (by omega)
      simp [← UInt16.toNat_inj, hmod]
  rw [hread, readUnsigned_eq_ok]
  constructor
  · rintro ⟨sign, ds, hcore, hsign, hds, hvalue, -⟩
    obtain ⟨w, u, htext, hw, hu⟩ := Text.exists_trim s.toList
    exact ⟨w, sign, ds, u, hcore ▸ htext, hw, hu, hsign, hds, hvalue⟩
  · rintro ⟨w, sign, ds, u, htext, hw, hu, hsign, hds, hvalue⟩
    have hplain : ∀ c ∈ sign ++ ds, Text.isBlank c = false := by
      intro c hc
      rcases List.mem_append.mp hc with hc | hc
      · rcases hsign with rfl | rfl
        · cases hc
        · obtain rfl := List.mem_singleton.mp hc
          decide
      · exact Text.isBlank_of_isDigit (hds.digit c hc)
    refine ⟨sign, ds, ?_, hsign, hds, hvalue, ?_⟩
    · rw [htext, Text.trim_append hw hu (by simp [hds.ne_nil]) hplain]
    · have hlt := port.toNat_lt
      rw [maxOfBits_16]
      omega

/-! ## The reader -/

theorem toUInt64_of_le {n : UInt64} (h : n.toNat ≤ maxOfBits 16) :
    (UInt16.ofNat n.toNat).toUInt64 = n := by
  rw [maxOfBits_16] at h
  have hmod : n.toNat % 65536 = n.toNat := Nat.mod_eq_of_lt (by omega)
  simp [← UInt64.toNat_inj, hmod]

/-- What is read as a port is null, a natural number of 16 bits or the text of one. -/
theorem readPort_eq_ok {s : Scope} {o : Outline} {port : Option UInt16} :
    readPort s o = .ok port ↔
      (o = .null ∧ port = none) ∨
      (∃ p : UInt16, o = .number (.ok (.natural p.toUInt64)) ∧ port = some p) ∨
      ∃ (text : String) (p : UInt16), o = .string text ∧ IsPortText text.toList p ∧
        port = some p := by
  constructor
  · intro h
    cases o with
    | null =>
      cases h
      exact .inl ⟨rfl, rfl⟩
    | number value =>
      obtain ⟨v, hv, h⟩ := bind_eq_ok.mp h
      rcases value with m | n | n | x
      · cases hv
      · dsimp only at h
        split at h
        · cases h
          exact .inr (.inl ⟨_, by rw [toUInt64_of_le ‹_›], rfl⟩)
        · cases h
      · cases h
      · cases h
    | string text =>
      obtain ⟨v, hv, h⟩ := bind_eq_ok.mp h
      obtain ⟨p, hp, rfl⟩ := map_eq_ok.mp h
      exact .inr (.inr ⟨text, p, rfl, readPortText_eq_ok.mp hp, rfl⟩)
    | _ =>
      obtain ⟨v, hv, h⟩ := bind_eq_ok.mp h
      cases h
  · rintro (⟨rfl, rfl⟩ | ⟨p, rfl, rfl⟩ | ⟨text, p, rfl, hp, rfl⟩)
    · rfl
    · have hle : p.toNat ≤ maxOfBits 16 := by
        have hlt := p.toNat_lt
        rw [maxOfBits_16]
        omega
      refine bind_eq_ok.mpr ⟨_, rfl, ?_⟩
      simp [hle]
    · exact bind_eq_ok.mpr ⟨_, rfl, map_eq_ok.mpr ⟨p, readPortText_eq_ok.mpr hp, rfl⟩⟩

theorem HandsOver.eq_iff_of_leaf {cs : List Char} {o y : Outline} (h : HandsOver cs o)
    (hy : y.IsLeaf) : o = y ↔ Spells cs y := by
  obtain ⟨x, hx, rfl | ⟨s, v, hv, rfl⟩⟩ := h
  · exact ⟨fun h => h ▸ hx, fun h => hx.unique h⟩
  · rw [ofJson_eq_iff_of_leaf hv hy]
    exact ⟨fun h => h ▸ hx, fun h => hx.unique h⟩

/-- A natural number of 16 bits is spelled by its digits. -/
theorem spells_port_iff {cs : List Char} {o : Outline} (h : Spells cs o) (p : UInt16) :
    Spells cs (.number (.ok (.natural p.toUInt64))) ↔
      ∃ w ds, cs = w ++ ds ∧ IsBlank w ∧ IsRun ds ∧ ofDigits ds = p.toNat := by
  constructor
  · intro hp
    obtain ⟨w, ds, hcs, hw, hds, hvalue⟩ := digits_of_spells hp
    rw [UInt16.toNat_toUInt64] at hvalue
    exact ⟨w, ds, hcs, hw, hds, hvalue⟩
  · rintro ⟨w, ds, rfl, hw, hds, hvalue⟩
    have hnatural : Numeral.value ⟨false, ds, none, none⟩ = .ok (.natural p.toUInt64) :=
      Numeral.value_eq_natural.mpr ⟨rfl, rfl, rfl, by rw [hvalue, UInt16.toNat_toUInt64]⟩
    rwa [number_of_digits h hw hds, hnatural] at h

theorem readPort_iff_spellsPort {cs : List Char} {o : Outline} (h : HandsOver cs o) (s : Scope)
    (port : Option UInt16) : readPort s o = .ok port ↔ SpellsPort cs port := by
  obtain ⟨x, hx, -⟩ := id h
  have hnull : o = .null ↔ Spells cs .null := h.eq_iff_of_leaf trivial
  have hnumber : ∀ n, o = .number n ↔ Spells cs (.number n) := fun _ => h.eq_iff_of_leaf trivial
  have hstring : ∀ t, o = .string t ↔ Spells cs (.string t) := fun _ => h.eq_iff_of_leaf trivial
  simp only [readPort_eq_ok, hnull, hnumber, hstring, spells_port_iff hx]
  constructor
  · rintro (⟨hspells, rfl⟩ | ⟨p, ⟨w, ds, hcs, hw, hds, hvalue⟩, rfl⟩ | ⟨t, p, hspells, hp, rfl⟩)
    · exact .absent hspells
    · exact .number hcs hw hds hvalue
    · exact .text hspells hp
  · rintro (hspells | ⟨hcs, hw, hds, hvalue⟩ | ⟨hspells, hp⟩)
    · exact .inl ⟨hspells, rfl⟩
    · exact .inr (.inl ⟨_, ⟨_, _, hcs, hw, hds, hvalue⟩, rfl⟩)
    · exact .inr (.inr ⟨_, _, hspells, hp, rfl⟩)

/-! ## Entries -/

namespace ServerConfig

def portField : Json.Field Draft :=
  ⟨"port", fun d => d.port.isSome, fun s o d =>
    (readPort s o).map fun a => { d with port := some a }⟩

/-- Another port for a draft that has been given one or none. -/
def Draft.exchange (port : Option UInt16) (d : Draft) : Draft :=
  { d with port := d.port.map fun _ => port }

theorem owns_port :
    shape.Owns (shape.fields.take 1) portField (shape.fields.drop 2) Draft.port where
  fields := rfl
  name := by simp [shape, portField]
  given _ := rfl
  start := rfl
  fills := by
    intro s o d d' h
    obtain ⟨a, -, rfl⟩ := map_eq_ok.mp h
    rfl
  apart := by simp [shape, map_eq_ok]

theorem retouches_exchange (port : Option UInt16) :
    shape.Retouches (shape.fields.take 1 ++ shape.fields.drop 2) (Draft.exchange port) where
  given := by simp [shape, Draft.exchange]
  read := by simp [shape, Draft.exchange, map_map]

theorem Draft.isSome_exchange (port : Option UInt16) (d : Draft) :
    (d.exchange port).port.isSome = d.port.isSome := Option.isSome_map

theorem finish_exchange {d : Draft} {port : Option UInt16} {c₀ : ServerConfig}
    (hd : d.port.isSome) (h : shape.finish d = .ok c₀) :
    shape.finish (d.exchange port) = .ok { c₀ with port } := by
  obtain ⟨a, ha⟩ := Option.isSome_iff_exists.mp hd
  cases h
  simp [shape, Draft.exchange, ha]

/-- Of two drafts that differ in the port, the entry of one is that of the other with its port. -/
theorem finish_exchange_iff {d : Draft} {port : Option UInt16} {c : ServerConfig}
    (hd : d.port.isSome) : shape.finish (d.exchange port) = .ok c ↔
      ∃ c₀, shape.finish d = .ok c₀ ∧ c = { c₀ with port } := by
  constructor
  · intro h
    refine ⟨_, rfl, ?_⟩
    rw [finish_exchange hd rfl] at h
    exact (Except.ok.inj h).symm
  · rintro ⟨c₀, hc₀, rfl⟩
    exact finish_exchange hd hc₀

variable {s : Scope} {o : Outline} {d d' : Draft}

theorem portField_read_eq_ok : portField.read s o d = .ok d' ↔
    ∃ port, readPort s o = .ok port ∧ Draft.exchange port { d with port := some none } = d' :=
  map_eq_ok

theorem portField_read_null : portField.read s .null d = .ok { d with port := some none } := rfl

theorem takeMembers_port {ms₁ ms₂ : List (Key × Outline)} :
    shape.takeMembers s d (ms₁ ++ (.ok "port", o) :: ms₂) = .ok d' ↔
      ∃ port d₀, readPort s o = .ok port ∧ d₀.port.isSome ∧ d₀.exchange port = d' ∧
        shape.takeMembers s d (ms₁ ++ (.ok "port", .null) :: ms₂) = .ok d₀ := by
  have hself : ∀ d o, shape.takeMember s d (.ok "port", o) =
      if portField.given d then .error (.duplicateField "port") else portField.read s o d :=
    fun d o => owns_port.takeMember_self s d o
  simp only [Shape.takeMembers_append, Shape.takeMembers_cons, bind_eq_ok, hself]
  constructor
  · rintro ⟨d₁, hms₁, d₂, hport, hms₂⟩
    split at hport
    · cases hport
    rename_i hgiven
    obtain ⟨port, hvalue, rfl⟩ := portField_read_eq_ok.mp hport
    rw [owns_port.takeMembers_map (retouches_exchange port) rfl, map_eq_ok] at hms₂
    obtain ⟨d₀, hms₂, hd₀⟩ := hms₂
    refine ⟨port, d₀, hvalue, ?_, hd₀, d₁, hms₁, _, ?_, hms₂⟩
    · rw [owns_port.takeMembers_keep hms₂ rfl]
      rfl
    · rw [if_neg hgiven, portField_read_null]
  · rintro ⟨port, d₀, hport, -, hd₀, d₁, hms₁, d₂, hnull, hms₂⟩
    split at hnull
    · cases hnull
    rename_i hgiven
    obtain rfl := Except.ok.inj hnull
    refine ⟨d₁, hms₁, Draft.exchange port { d₁ with port := some none }, ?_, ?_⟩
    · rw [if_neg hgiven]
      exact portField_read_eq_ok.mpr ⟨port, hport, rfl⟩
    · rw [owns_port.takeMembers_map (retouches_exchange port) rfl]
      exact map_eq_ok.mpr ⟨d₀, hms₂, hd₀⟩

theorem takeItems_port {host : Outline} {os : List Outline} {rest : Nat × Bool} :
    Shape.takeItems s shape.fields (host :: o :: os) d = .ok (d', rest) ↔
      ∃ port d₀, readPort s o = .ok port ∧ d₀.port.isSome ∧ d₀.exchange port = d' ∧
        Shape.takeItems s shape.fields (host :: .null :: os) d = .ok (d₀, rest) := by
  have hbehind : ∀ g ∈ shape.fields.drop 2, g ∈ shape.fields.take 1 ++ shape.fields.drop 2 :=
    fun g hg => List.mem_append_right _ hg
  obtain ⟨hostField, hfields⟩ : ∃ f, shape.fields = f :: portField :: shape.fields.drop 2 :=
    ⟨_, rfl⟩
  rw [hfields]
  simp only [Shape.takeItems, bind_eq_ok]
  constructor
  · rintro ⟨d₁, hhost, d₂, hport, hos⟩
    obtain ⟨port, hvalue, rfl⟩ := portField_read_eq_ok.mp hport
    rw [Shape.takeItems_map (retouches_exchange port) hbehind, map_eq_ok] at hos
    obtain ⟨⟨d₀, _⟩, hos, hd₀⟩ := hos
    cases hd₀
    refine ⟨port, d₀, hvalue, ?_, rfl, d₁, hhost, _, portField_read_null, hos⟩
    rw [owns_port.takeItems_keep hbehind hos]
    rfl
  · rintro ⟨port, d₀, hport, -, rfl, d₁, hhost, d₂, hnull, hos⟩
    obtain rfl := Except.ok.inj hnull
    refine ⟨d₁, hhost, Draft.exchange port { d₁ with port := some none },
      portField_read_eq_ok.mpr ⟨port, hport, rfl⟩, ?_⟩
    rw [Shape.takeItems_map (retouches_exchange port) hbehind, hos]
    rfl

/-- An entry has the port that is read in it, and is otherwise what it is without one. -/
theorem read_port {C : Outline → Outline} (hC : IsPortPlace C) {c : ServerConfig} :
    ServerConfig.read s (C o) = .ok c ↔ ∃ inner port c₀, s.enter = .ok inner ∧
      readPort inner o = .ok port ∧ ServerConfig.read s (C .null) = .ok c₀ ∧
        c = { c₀ with port } := by
  cases hC with
  | member ms₁ ms₂ e =>
    simp only [ServerConfig.read, Shape.read_object_eq_ok]
    constructor
    · rintro ⟨inner, d, hinner, hms, he, hfinish⟩
      obtain ⟨port, d₀, hport, hd₀, rfl, hnull⟩ := takeMembers_port.mp hms
      obtain ⟨c₀, hc₀, hc⟩ := (finish_exchange_iff hd₀).mp hfinish
      exact ⟨inner, port, c₀, hinner, hport, ⟨inner, d₀, hinner, hnull, he, hc₀⟩, hc⟩
    · rintro ⟨inner, port, c₀, hinner, hport, ⟨inner', d₀, hinner', hnull, he, hc₀⟩, hc⟩
      obtain rfl := Except.ok.inj (hinner.symm.trans hinner')
      have hd₀ : d₀.port.isSome := by
        obtain ⟨_, d₁, -, hd₁, rfl, -⟩ := takeMembers_port.mp hnull
        rwa [Draft.isSome_exchange]
      exact ⟨inner, _, hinner, takeMembers_port.mpr ⟨port, d₀, hport, hd₀, rfl, hnull⟩, he,
        (finish_exchange_iff hd₀).mpr ⟨c₀, hc₀, hc⟩⟩
  | item host os e =>
    simp only [ServerConfig.read, Shape.read_array_eq_ok]
    constructor
    · rintro ⟨inner, d, left, short, hinner, hos, he, hfinish, hleave⟩
      obtain ⟨port, d₀, hport, hd₀, rfl, hnull⟩ := takeItems_port.mp hos
      obtain ⟨c₀, hc₀, hc⟩ := (finish_exchange_iff hd₀).mp hfinish
      exact ⟨inner, port, c₀, hinner, hport,
        ⟨inner, d₀, left, short, hinner, hnull, he, hc₀, hleave⟩, hc⟩
    · rintro ⟨inner, port, c₀, hinner, hport,
        ⟨inner', d₀, left, short, hinner', hnull, he, hc₀, hleave⟩, hc⟩
      obtain rfl := Except.ok.inj (hinner.symm.trans hinner')
      have hd₀ : d₀.port.isSome := by
        obtain ⟨_, d₁, -, hd₁, rfl, -⟩ := takeItems_port.mp hnull
        rwa [Draft.isSome_exchange]
      exact ⟨inner, _, left, short, hinner,
        takeItems_port.mpr ⟨port, d₀, hport, hd₀, rfl, hnull⟩, he,
        (finish_exchange_iff hd₀).mpr ⟨c₀, hc₀, hc⟩, hleave⟩

/-- **Ports are read exactly.** What a text hands over as a port is read as what the text spells,
and refused if it spells none, on its own and in every entry that has it as its port. Such an
entry is read as it would be without a port, but for the port that is spelled. -/
theorem readPort_exact {cs : List Char} {o : Outline} (h : HandsOver cs o) :
    (∀ s port, readPort s o = .ok port ↔ SpellsPort cs port) ∧
      (∀ C, IsPortPlace C → ∀ s c, ServerConfig.read s (C o) = .ok c ↔
        ∃ port c₀, SpellsPort cs port ∧ ServerConfig.read s (C .null) = .ok c₀ ∧
          c = { c₀ with port }) ∧
      ((∀ port, ¬ SpellsPort cs port) → ∀ C, IsPortPlace C → ∀ s, ∃ fault,
        ServerConfig.read s (C o) = .error fault) := by
  have hentry : ∀ C, IsPortPlace C → ∀ s c, ServerConfig.read s (C o) = .ok c ↔
      ∃ port c₀, SpellsPort cs port ∧ ServerConfig.read s (C .null) = .ok c₀ ∧
        c = { c₀ with port } := by
    intro C hC s c
    rw [read_port hC]
    simp only [readPort_iff_spellsPort h]
    constructor
    · rintro ⟨inner, port, c₀, -, hport, hnull, hc⟩
      exact ⟨port, c₀, hport, hnull, hc⟩
    · rintro ⟨port, c₀, hport, hnull, hc⟩
      obtain ⟨inner, -, -, hinner, -⟩ := (read_port hC).mp hnull
      exact ⟨inner, port, c₀, hinner, hport, hnull, hc⟩
  refine ⟨readPort_iff_spellsPort h, hentry, fun hnone C hC s => ?_⟩
  rcases hread : ServerConfig.read s (C o) with fault | c
  · exact ⟨fault, rfl⟩
  · obtain ⟨port, -, hport, -⟩ := (hentry C hC s c).mp hread
    exact absurd hport (hnone port)

/-- A port as a text with blanks, a sign and zeros in front. -/
theorem readPort_exact_padded :
    HandsOver (printString " +0080 ") (.string " +0080 ") ∧
      ServerConfig.read .text (.object [(.ok "host", .string "a"),
        (.ok "port", .string " +0080 ")] .closed) = .ok ⟨some "a", some 80, none, none⟩ := by
  have hspells : Spells (printString " +0080 ") (.string " +0080 ") := (scans_string _).spells
  have hhands : HandsOver (printString " +0080 ") (.string " +0080 ") := ⟨_, hspells, .inl rfl⟩
  have hrun : IsRun ['0', '0', '8', '0'] := ⟨by simp, by simp [isDigit]⟩
  have hblank : ∀ c ∈ [' '], Text.isBlank c := by simp [Text.isBlank, Text.blankRanges]
  have hport : IsPortText " +0080 ".toList 80 :=
    ⟨[' '], ['+'], ['0', '0', '8', '0'], [' '], rfl, hblank, hblank, .inr rfl, hrun, by decide⟩
  refine ⟨hhands, ?_⟩
  obtain ⟨-, hentry, -⟩ := readPort_exact hhands
  refine (hentry _ (.member [(.ok "host", .string "a")] [] .closed) .text _).mpr ?_
  exact ⟨some 80, ⟨some "a", none, none, none⟩, .text hspells hport, rfl, rfl⟩

end ServerConfig

end Gateway

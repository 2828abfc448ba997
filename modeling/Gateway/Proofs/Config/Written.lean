import Gateway.Proofs.Json.ReadBack

/-!
# Configurations are read as they were written

Every field of a server and of a configuration is written under its name and read back under it
as itself, be it absent, empty or anything else; a port is written as a number, and every port
is one that a reader takes.
-/

namespace Gateway

open Gateway.Json

/-! ## Ports -/

theorem readPort_natural (s : Scope) (p : UInt16) :
    readPort s (.number (.ok (.natural p.toUInt64))) = .ok (some p) := by
  have hport : p.toUInt64.toNat = p.toNat := UInt16.toNat_toUInt64 p
  have hbound : p.toUInt64.toNat ≤ Decimal.maxOfBits 16 := by
    have hlt := p.toNat_lt
    have hmax : Decimal.maxOfBits 16 = 2 ^ 16 - 1 := by decide
    omega
  show (if p.toUInt64.toNat ≤ Decimal.maxOfBits 16 then
    Except.ok (some (UInt16.ofNat p.toUInt64.toNat)) else _) = _
  rw [if_pos hbound, hport, UInt16.ofNat_toNat]

theorem readsAs_port (n : Nat) (port : Option UInt16) :
    ReadsAs readPort n (· = port) (.ofOption (fun p => .ofNatural p.toUInt64) port) := by
  cases port with
  | none => exact ⟨⟨none, rfl, rfl⟩, ⟨.null, none, rfl, rfl, rfl⟩⟩
  | some p =>
    refine ⟨⟨some p, ?_, rfl⟩, ⟨.ofNatural p.toUInt64, some p, ?_, readPort_natural _ p, rfl⟩⟩
    · show readPort ⟨.text, n⟩ (outline (.ofNatural p.toUInt64)) = _
      rw [outline_natural, readPort_natural]
    · show Outline.readJson ⟨.text, n⟩ (outline (.ofNatural p.toUInt64)) = _
      rw [outline_natural]
      rfl

/-! ## Servers -/

theorem readsAs_server (n : Nat) (c : ServerConfig) :
    ReadsAs ServerConfig.read (n + 1) (· = c) c.toJson := by
  obtain ⟨⟨_, hh, rfl⟩, ⟨wh, _, hwh, hh', rfl⟩⟩ := readsAs_text n c.host
  obtain ⟨⟨_, hp, rfl⟩, ⟨wp, _, hwp, hp', rfl⟩⟩ := readsAs_port n c.port
  obtain ⟨⟨_, hu, rfl⟩, ⟨wu, _, hwu, hu', rfl⟩⟩ := readsAs_text n c.username
  obtain ⟨⟨_, hs, rfl⟩, ⟨ws, _, hws, hs', rfl⟩⟩ := readsAs_text n c.password
  apply readsAs_record
  · refine ⟨⟨some c.host, some c.port, some c.username, some c.password⟩, c, ?_, rfl, rfl⟩
    simp [ServerConfig.shape, Shape.takeMembers, outlineMembers, Except.map, hh, hp, hu, hs]
  · refine ⟨[("host", wh), ("port", wp), ("username", wu), ("password", ws)],
      ⟨some c.host, some c.port, some c.username, some c.password⟩, c, ?_, ?_, rfl, rfl⟩
    · simp [outlineMembers, Outline.readMembers, hwh, hwp, hwu, hws]
    · simp only [Entries.sorted, Entries.insertSorted, List.foldl_cons, List.foldl_nil,
        String.reduceEq, String.reduceLT, if_true, if_false]
      simp [ServerConfig.shape, Shape.takeMembers, Outline.ofMembers, Except.map, hh', hp', hu',
        hs']

/-! ## Configurations -/

theorem readsAs_config (n : Nat) (c : SourceConfig) :
    ReadsAs SourceConfig.read (n + 3) (· = c) c.toJson := by
  obtain ⟨⟨_, hv, rfl⟩, ⟨wv, _, hwv, hv', rfl⟩⟩ :=
    readsAs_option_eq c.server (fun server _ => readsAs_server (n + 1) server) fun _ => nofun
  obtain ⟨⟨_, hr, rfl⟩, ⟨wr, _, hwr, hr', rfl⟩⟩ := readsAs_text (n + 2) c.replicaSet
  obtain ⟨⟨_, hl, rfl⟩, ⟨wl, _, hwl, hl', rfl⟩⟩ :=
    readsAs_option_eq c.servers
      (fun servers _ => readsAs_list_eq servers fun server _ => readsAs_server n server)
      fun _ => nofun
  obtain ⟨⟨_, hb, rfl⟩, ⟨wb, _, hwb, hb', rfl⟩⟩ := readsAs_bool c.ssl (n + 2)
  obtain ⟨⟨_, ha, rfl⟩, ⟨wa, _, hwa, ha', rfl⟩⟩ := readsAs_text (n + 2) c.authSource
  obtain ⟨⟨_, hu, rfl⟩, ⟨wu, _, hwu, hu', rfl⟩⟩ := readsAs_text (n + 2) c.username
  obtain ⟨⟨_, hs, rfl⟩, ⟨ws, _, hws, hs', rfl⟩⟩ := readsAs_text (n + 2) c.password
  apply readsAs_record
  · refine ⟨⟨some c.server, some c.replicaSet, some c.servers, some c.ssl, some c.authSource,
      some c.username, some c.password⟩, c, ?_, rfl, rfl⟩
    simp [SourceConfig.shape, Shape.takeMembers, outlineMembers, Except.map, hv, hr, hl, hb, ha,
      hu, hs]
  · refine ⟨[("server", wv), ("replicaSet", wr), ("servers", wl), ("ssl", wb),
        ("authSource", wa), ("username", wu), ("password", ws)],
      ⟨some c.server, some c.replicaSet, some c.servers, some c.ssl, some c.authSource,
      some c.username, some c.password⟩, c, ?_, ?_, rfl, rfl⟩
    · simp [outlineMembers, Outline.readMembers, hwv, hwr, hwl, hwb, hwa, hwu, hws]
    · simp only [Entries.sorted, Entries.insertSorted, List.foldl_cons, List.foldl_nil,
        String.reduceEq, String.reduceLT, if_true, if_false]
      simp [SourceConfig.shape, Shape.takeMembers, Outline.ofMembers, Except.map, hv', hr', hl',
        hb', ha', hu', hs']

end Gateway

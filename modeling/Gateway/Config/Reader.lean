import Gateway.Config.Basic
import Gateway.Json.Reader
import Gateway.Text.Basic

/-!
# Configurations from JSON and tables

Every field may be missing, and every optional one may be null. Hosts often hand a
port over as text, so a port is a number or the text of one between blanks; whatever
is neither is refused and never replaced by the default.
-/

namespace Gateway

open Gateway.Json

def readPortText (s : String) : Except Fault UInt16 :=
  match Decimal.readUnsigned (Decimal.maxOfBits 16) (Text.trim s.toList) with
  | .ok n => .ok (UInt16.ofNat n)
  | .error fault => .error (.integer fault)

/-- Reads a port; null is none. The value is read whole first, so a malformed one is
that and no other port. -/
def readPort (s : Scope) : Outline → Except Fault (Option UInt16)
  | .null => .ok none
  | o => do
    let _ ← o.readJson s
    match o with
    | .number (.ok (.natural n)) =>
      if n.toNat ≤ Decimal.maxOfBits 16 then .ok (some (UInt16.ofNat n.toNat))
      else .error (.noAlternative "Port")
    | .string text => (readPortText text).map some
    | _ => .error (.noAlternative "Port")

structure ServerConfig.Draft where
  host : Option (Option String)
  port : Option (Option UInt16)
  username : Option (Option String)
  password : Option (Option String)

def ServerConfig.shape : Shape ServerConfig.Draft ServerConfig where
  title := "struct ServerConfig"
  fields := [
    ⟨"host", fun d => d.host.isSome, fun _ o d =>
      (o.readOption Outline.readString).map fun a => { d with host := some a }⟩,
    ⟨"port", fun d => d.port.isSome, fun s o d =>
      (readPort s o).map fun a => { d with port := some a }⟩,
    ⟨"username", fun d => d.username.isSome, fun _ o d =>
      (o.readOption Outline.readString).map fun a => { d with username := some a }⟩,
    ⟨"password", fun d => d.password.isSome, fun _ o d =>
      (o.readOption Outline.readString).map fun a => { d with password := some a }⟩]
  strict := false
  start := ⟨none, none, none, none⟩
  finish := fun d => .ok ⟨d.host.getD none, d.port.getD none, d.username.getD none,
    d.password.getD none⟩

def ServerConfig.read (s : Scope) (o : Outline) : Except Fault ServerConfig :=
  ServerConfig.shape.read s o

structure SourceConfig.Draft where
  server : Option (Option ServerConfig)
  replicaSet : Option (Option String)
  servers : Option (Option (List ServerConfig))
  ssl : Option Bool
  authSource : Option (Option String)
  username : Option (Option String)
  password : Option (Option String)

def SourceConfig.shape : Shape SourceConfig.Draft SourceConfig where
  title := "struct DataSourceConfig"
  fields := [
    ⟨"server", fun d => d.server.isSome, fun s o d =>
      (o.readOption (ServerConfig.read s)).map fun a => { d with server := some a }⟩,
    ⟨"replicaSet", fun d => d.replicaSet.isSome, fun _ o d =>
      (o.readOption Outline.readString).map fun a => { d with replicaSet := some a }⟩,
    ⟨"servers", fun d => d.servers.isSome, fun s o d =>
      (o.readOption (Outline.readList ServerConfig.read s)).map fun a =>
        { d with servers := some a }⟩,
    ⟨"ssl", fun d => d.ssl.isSome, fun _ o d =>
      o.readBool.map fun a => { d with ssl := some a }⟩,
    ⟨"authSource", fun d => d.authSource.isSome, fun _ o d =>
      (o.readOption Outline.readString).map fun a => { d with authSource := some a }⟩,
    ⟨"username", fun d => d.username.isSome, fun _ o d =>
      (o.readOption Outline.readString).map fun a => { d with username := some a }⟩,
    ⟨"password", fun d => d.password.isSome, fun _ o d =>
      (o.readOption Outline.readString).map fun a => { d with password := some a }⟩]
  strict := false
  start := ⟨none, none, none, none, none, none, none⟩
  finish := fun d => .ok {
    server := d.server.getD none
    replicaSet := d.replicaSet.getD none
    servers := d.servers.getD none
    ssl := d.ssl.getD false
    authSource := d.authSource.getD none
    username := d.username.getD none
    password := d.password.getD none }

def SourceConfig.read (s : Scope) (o : Outline) : Except Fault SourceConfig :=
  SourceConfig.shape.read s o

end Gateway

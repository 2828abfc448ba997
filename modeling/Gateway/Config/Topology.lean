import Gateway.Config.Basic
import Gateway.Failure
import Gateway.Text.Basic

/-!
# Topologies

A configuration that has passed its check: one server, or a replica set. A text that
is empty counts as absent throughout. A set needs a list of servers that is not empty
and a host in every entry; a single server needs its host, and knows the credentials
of the configuration but none of its own.
-/

namespace Gateway

/-- A user name and a password, both not empty when they come from a configuration. -/
structure Credentials where
  username : String
  password : String
deriving DecidableEq, Repr

structure ServerAddress where
  host : String
  port : UInt16
  credentials : Option Credentials
deriving DecidableEq, Repr

structure ReplicaSet where
  servers : List ServerAddress
  name : String
  ssl : Bool
  authSource : Option String
  shared : Option Credentials
deriving DecidableEq, Repr

/-- Where the data is. -/
inductive Topology where
  | single (server : ServerAddress)
  | replicaSet (set : ReplicaSet)
deriving DecidableEq, Repr

/-! ## Checking -/

inductive ConfigFault where
  | noServer
  | noServerHost
  | noServers
  | noHostInServers
deriving DecidableEq, Repr

def ConfigFault.message : ConfigFault → String
  | .noServer => "missing \"server\""
  | .noServerHost => "missing \"host\" property in server"
  | .noServers => "need a non-empty \"servers\" list if \"replicaSet\" is set"
  | .noHostInServers => "missing \"host\" in servers"

/-- A text that is there and not empty. -/
def nonEmpty (s : Option String) : Option String := s.filter fun s => s ≠ ""

/-- Credentials need both halves. -/
def Credentials.pair? (username password : Option String) : Option Credentials :=
  match nonEmpty username, nonEmpty password with
  | some u, some p => some ⟨u, p⟩
  | _, _ => none

def ServerConfig.address (c : ServerConfig) (missing : ConfigFault) :
    Except ConfigFault ServerAddress :=
  match nonEmpty c.host with
  | none => .error missing
  | some host =>
    .ok ⟨host, c.port.getD defaultPort, Credentials.pair? c.username c.password⟩

namespace SourceConfig

def shared (c : SourceConfig) : Option Credentials := Credentials.pair? c.username c.password

/-- The topology of a configuration, or why it has none. -/
def topology (c : SourceConfig) : Except ConfigFault Topology :=
  match nonEmpty c.replicaSet with
  | some name =>
    match c.servers.getD [] with
    | [] => .error .noServers
    | entries => do
      let servers ← entries.mapM fun e => e.address .noHostInServers
      pure (.replicaSet ⟨servers, name, c.ssl, nonEmpty c.authSource, c.shared⟩)
  | none =>
    match c.server with
    | none => .error .noServer
    | some entry => do
      let server ← entry.address .noServerHost
      pure (.single { server with credentials := c.shared })

/-- The topology of a configuration, or the failure of having none. -/
def resolve (c : SourceConfig) : Except Failure Topology :=
  c.topology.mapError fun fault => .config fault.message

end SourceConfig

/-! ## Debugging view -/

/-- The debugging view of credentials; they stand in it as they are. -/
def Credentials.debug (c : Credentials) : String :=
  Text.debugRecord "Credentials"
    [("username", Text.quoted c.username), ("password", Text.quoted c.password)]

def ServerAddress.debug (a : ServerAddress) : String :=
  Text.debugRecord "ServerAddress" [
    ("host", Text.quoted a.host),
    ("port", Decimal.ofNat a.port.toNat),
    ("credentials", Text.debugOption Credentials.debug a.credentials)]

def Topology.debug : Topology → String
  | .single server => Text.debugRecord "Single" [("server", server.debug)]
  | .replicaSet set => Text.debugRecord "ReplicaSet" [
      ("servers", Text.debugList ServerAddress.debug set.servers),
      ("name", Text.quoted set.name),
      ("ssl", if set.ssl then "true" else "false"),
      ("auth_source", Text.debugOption Text.quoted set.authSource),
      ("shared_credentials", Text.debugOption Credentials.debug set.shared)]

end Gateway

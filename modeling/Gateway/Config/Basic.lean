import Gateway.Json.Basic

/-!
# Configurations

What a host hands over, before anything is checked: one server, or a replica set by
name with its servers, and credentials beside each of them. A port that is not given
is the usual one of the database engine.
-/

namespace Gateway

structure ServerConfig where
  host : Option String
  port : Option UInt16
  username : Option String
  password : Option String
deriving DecidableEq, Repr

structure SourceConfig where
  server : Option ServerConfig
  replicaSet : Option String
  servers : Option (List ServerConfig)
  ssl : Bool
  authSource : Option String
  username : Option String
  password : Option String
deriving DecidableEq, Repr

/-- The port of a server that names none. -/
def defaultPort : UInt16 := 27017

def ServerConfig.toJson (c : ServerConfig) : Json :=
  .object [
    ("host", .ofOption .string c.host),
    ("port", .ofOption (fun p => .ofNatural p.toUInt64) c.port),
    ("username", .ofOption .string c.username),
    ("password", .ofOption .string c.password)]

def SourceConfig.toJson (c : SourceConfig) : Json :=
  .object [
    ("server", .ofOption ServerConfig.toJson c.server),
    ("replicaSet", .ofOption .string c.replicaSet),
    ("servers", .ofOption (fun ss => .array (ss.map ServerConfig.toJson)) c.servers),
    ("ssl", .bool c.ssl),
    ("authSource", .ofOption .string c.authSource),
    ("username", .ofOption .string c.username),
    ("password", .ofOption .string c.password)]

end Gateway

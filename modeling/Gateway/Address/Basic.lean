import Gateway.Address.Percent
import Gateway.Config.Topology

/-!
# Addresses

The address of a topology is the part of a connection URL that all databases share:
the hosts with their ports, and the parameters behind the database. Credentials stand
before a host. In a replica set either some server has its own, and then each host
carries exactly its own; or none has, and the shared ones lead the whole list.

A URL that is shown to anyone carries no credentials (`redact`): inside the part
between the scheme and the next slash, each entry of the list keeps only what stands
behind its last at sign.
-/

namespace Gateway

def scheme : String := "mongodb://"

inductive CredentialPlacement where
  /-- No server has its own: the shared ones, if any, lead the list. -/
  | sharedLeading
  /-- Some server has its own: each host carries its own and no other. -/
  | perServer
deriving DecidableEq, Repr

namespace CredentialPlacement

def of (servers : List ServerAddress) : CredentialPlacement :=
  if servers.any fun s => s.credentials.isSome then .perServer else .sharedLeading

def name : CredentialPlacement → String
  | .sharedLeading => "SharedLeading"
  | .perServer => "PerServer"

end CredentialPlacement

/-- The part of a URL that all databases share. -/
structure BaseAddress where
  base : String
  params : List (String × String)
deriving DecidableEq, Repr

namespace BaseAddress

/-! ## Building -/

/-- Credentials in front of a host, percent-encoded so that they hold no separator. -/
def userinfo (c : Credentials) : String :=
  Percent.encode c.username ++ ":" ++ Percent.encode c.password ++ "@"

def optionalUserinfo : Option Credentials → String
  | none => ""
  | some c => userinfo c

def endpoint (s : ServerAddress) : String := s.host ++ ":" ++ Decimal.ofNat s.port.toNat

/-- A host of a replica set, behind its own credentials if these are placed so. -/
def entry (placement : CredentialPlacement) (s : ServerAddress) : String :=
  match placement with
  | .sharedLeading => endpoint s
  | .perServer => optionalUserinfo s.credentials ++ endpoint s

/-- What leads the list of hosts of a replica set. -/
def leading (placement : CredentialPlacement) (shared : Option Credentials) : String :=
  match placement with
  | .sharedLeading => optionalUserinfo shared
  | .perServer => ""

def setParams (set : ReplicaSet) : List (String × String) :=
  (if set.ssl then [("ssl", "true")] else [])
    ++ [("replicaSet", set.name)]
    ++ (match set.authSource with
      | none => []
      | some source => [("authSource", source)])

def ofTopology : Topology → BaseAddress
  | .single server =>
    ⟨scheme ++ optionalUserinfo server.credentials ++ endpoint server ++ "/", []⟩
  | .replicaSet set =>
    let placement := CredentialPlacement.of set.servers
    ⟨scheme ++ leading placement set.shared
        ++ ",".intercalate (set.servers.map (entry placement)) ++ "/",
      setParams set⟩

/-- The parameters of a URL, from their mark on. -/
def paramText : List (String × String) → String
  | [] => ""
  | params => "?" ++ "&".intercalate (params.map fun p => p.1 ++ "=" ++ p.2)

def urlFor (a : BaseAddress) (database : String) : String :=
  a.base ++ database ++ paramText a.params

/-! ## Redacting -/

/-- What stands behind a text that leads, if it leads. -/
def behind? : List Char → List Char → Option (List Char)
  | [], cs => some cs
  | _ :: _, [] => none
  | p :: ps, c :: cs => if p = c then behind? ps cs else none

/-- What stands behind the last at sign, or everything if there is none. -/
def behindLastAt (cs : List Char) : List Char :=
  (cs.reverse.takeWhile (· ≠ '@')).reverse

/-- The entries of a list between commas; there is always one. -/
def splitCommas : List Char → List (List Char)
  | [] => [[]]
  | c :: cs =>
    if c = ',' then [] :: splitCommas cs
    else
      match splitCommas cs with
      | [] => [[c]]
      | e :: es => (c :: e) :: es

def joinCommas (es : List (List Char)) : List Char := List.intercalate [','] es

/-- A URL without its scheme, without credentials. A slash follows the hosts whether
there was one or not. -/
def redactRest (cs : List Char) : List Char :=
  let hosts := cs.takeWhile (· ≠ '/')
  let tail := (cs.dropWhile (· ≠ '/')).drop 1
  joinCommas ((splitCommas hosts).map behindLastAt) ++ '/' :: tail

/-- A URL without credentials; a text of another scheme stays as it is. -/
def redact (url : String) : String :=
  match behind? scheme.toList url.toList with
  | none => url
  | some rest => String.ofList (scheme.toList ++ redactRest rest)

def redactedUrlFor (a : BaseAddress) (database : String) : String := redact (a.urlFor database)

end BaseAddress

end Gateway

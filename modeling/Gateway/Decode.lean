import Gateway.Config.Reader
import Gateway.Failure
import Gateway.Query.Reader
import Gateway.Toml.Reader

/-!
# Decoding

The ways in for texts, values and table files from outside. A text is decoded as it is
read; a value and a table have been read whole before. A fault of a text or a value is
a failure of JSON, a fault of a table file one of TOML.
-/

namespace Gateway

def decodeText {α : Type} (read : Json.Scope → Json.Outline → Except Json.Fault α) (s : String) :
    Except Failure α :=
  (Json.readText read s).mapError .ofFault

def decodeValue {α : Type} (read : Json.Scope → Json.Outline → Except Json.Fault α) (v : Json) :
    Except Failure α :=
  (Json.readValue read v).mapError .ofFault

def Json.decode (s : String) : Except Failure Json := decodeText Json.Outline.readJson s

def Request.ofText (s : String) : Except Failure Request := decodeText Request.read s

def Request.ofJson (v : Json) : Except Failure Request := decodeValue Request.read v

def Filter.ofText (s : String) : Except Failure Filter := decodeText Filter.read s

def SourceConfig.ofText (s : String) : Except Failure SourceConfig := decodeText SourceConfig.read s

def SourceConfig.ofJson (v : Json) : Except Failure SourceConfig :=
  decodeValue SourceConfig.read v

def SourceConfig.ofToml (s : String) : Except Failure SourceConfig :=
  (Toml.readText SourceConfig.read s).mapError fun fault => .toml fault.message

end Gateway

import Gateway.Text.Basic
import Gateway.Decimal.Shortest
import Gateway.Decimal.Nearest
import Gateway.Decimal.Decimal128
import Gateway.Bytes.Hex
import Gateway.Bytes.Base64
import Gateway.Bytes.Uuid
import Gateway.Time.Instant
import Gateway.Entries
import Gateway.Json.Outline
import Gateway.Json.Scan
import Gateway.Json.Reader
import Gateway.Bson.Reader
import Gateway.Bson.Writer
import Gateway.Query.Reader
import Gateway.Query.Writer
import Gateway.Query.Native
import Gateway.Config.Reader
import Gateway.Toml.Reader
import Gateway.Address.Basic
import Gateway.Decode
import Gateway.Task.Basic
import Gateway.Store.Memory
import Gateway.Session
import Gateway.Log.Setup
import Gateway.Proofs.Entries
import Gateway.Proofs.Task.Acquisitions
import Gateway.Proofs.Registry.Steps
import Gateway.Proofs.Registry.Moves
import Gateway.Proofs.Registry.Views
import Gateway.Proofs.Registry.Valid
import Gateway.Proofs.Registry.SingleFlight
import Gateway.Proofs.Registry.Growth
import Gateway.Proofs.Registry.Draining
import Gateway.Proofs.Registry.Recorded
import Gateway.Proofs.Registry.Beside
import Gateway.Proofs.Registry.Answers
import Gateway.Proofs.Task.Fits
import Gateway.Proofs.Task.Steady
import Gateway.Proofs.Task.Visits
import Gateway.Proofs.Task.Calls
import Gateway.Proofs.Task.Runs
import Gateway.Proofs.Task.Acquire
import Gateway.Proofs.Task.Lives
import Gateway.Proofs.Task.Joiners
import Gateway.Proofs.Registry.Ownership
import Gateway.Proofs.Registry.Lingering
import Gateway.Proofs.Registry.Afresh
import Gateway.Proofs.Registry.Taking
import Gateway.Proofs.Registry.Liveness
import Gateway.Proofs.Registry.Shutdown
import Gateway.Proofs.Task.Launching
import Gateway.Proofs.Registry.Finality
import Gateway.Proofs.Bson.Comparison
import Gateway.Proofs.Query.Recognized
import Gateway.Proofs.Query.ReadBack
import Gateway.Proofs.Query.Engine
import Gateway.Proofs.Query.Meaning
import Gateway.Proofs.Query.Paging
import Gateway.Proofs.Query.Sorting
import Gateway.Proofs.Task.Paired
import Gateway.Proofs.Registry.Lockstep
import Gateway.Proofs.Address.Percent
import Gateway.Proofs.Decimal.ReadBack
import Gateway.Proofs.Config.Accepted
import Gateway.Proofs.Address.Layout
import Gateway.Proofs.Address.Redaction
import Gateway.Proofs.Address.Exposure
import Gateway.Proofs.Address.Reading
import Gateway.Proofs.Registry.Secrecy
import Gateway.Proofs.Task.History
import Gateway.Proofs.Task.Course
import Gateway.Proofs.Task.AllOrNothing
import Gateway.Proofs.Registry.Rank
import Gateway.Proofs.Registry.Apart
import Gateway.Proofs.Task.Alone
import Gateway.Proofs.Store.Isolation
import Gateway.Proofs.Decimal.Shortest
import Gateway.Proofs.Json.Numeral
import Gateway.Proofs.Json.Strings
import Gateway.Proofs.Json.Written
import Gateway.Proofs.Json.Room
import Gateway.Proofs.Bson.Room
import Gateway.Proofs.Json.ReadBack
import Gateway.Proofs.Query.Written
import Gateway.Proofs.Config.Written
import Gateway.Proofs.Decode
import Gateway.Proofs.Query.Search
import Gateway.Proofs.Address.Anonymous
import Gateway.Proofs.Store.Serving
import Gateway.Proofs.Store.Agreement
import Gateway.Proofs.Json.Token
import Gateway.Proofs.Json.Spelled
import Gateway.Proofs.Json.Parts
import Gateway.Proofs.Json.Exchange
import Gateway.Proofs.Query.Unrecognized
import Gateway.Proofs.Sorted
import Gateway.Proofs.Json.Whole
import Gateway.Proofs.Json.Agreement
import Gateway.Proofs.Bson.Members
import Gateway.Proofs.Bson.Agreement
import Gateway.Proofs.Query.Agreement
import Gateway.Proofs.Decimal.Unsigned
import Gateway.Proofs.Json.Natural
import Gateway.Proofs.Config.Resolution
import Gateway.Proofs.Config.Ports
import Gateway.Proofs.Address.Stability
import Gateway.Proofs.Registry.DrainEnds

import Notary.Archive.Checksum
import Notary.Archive.Deflate
import Notary.Archive.Directory
import Notary.Archive.Ending
import Notary.Archive.Extra
import Notary.Archive.Layout
import Notary.Archive.Name
import Notary.Archive.Record
import Notary.Bytes
import Notary.Context.Basic
import Notary.Context.Cache
import Notary.Context.Fault
import Notary.Contract.Format
import Notary.Contract.Model
import Notary.Contract.Party
import Notary.Contract.Seal
import Notary.Decimal.Nearest
import Notary.Decimal.Shortest
import Notary.Digest.Blake3
import Notary.Digest.Content
import Notary.Digest.Sha512
import Notary.Engine.Basic
import Notary.Engine.Binding
import Notary.Engine.Config
import Notary.Engine.Execution
import Notary.Engine.Fault
import Notary.Engine.Frames
import Notary.Engine.Record
import Notary.Engine.Validation
import Notary.Engine.Workspace
import Notary.Guest.Binary
import Notary.Guest.Buffer
import Notary.Guest.Contract
import Notary.Guest.Executor
import Notary.Guest.Instance
import Notary.Guest.Machine
import Notary.Guest.Memory
import Notary.Guest.Syntax
import Notary.Guest.Typing
import Notary.Json.Fault
import Notary.Json.Ignored
import Notary.Json.Number
import Notary.Json.Shape
import Notary.Json.Text
import Notary.Metadata.Basic
import Notary.Metadata.Document
import Notary.Pool.Basic
import Notary.Pool.Schedule
import Notary.Proofs.Archive.Contents
import Notary.Proofs.Context.Answers
import Notary.Proofs.Context.Hashes
import Notary.Proofs.Context.Places
import Notary.Proofs.Context.Requests
import Notary.Proofs.Context.Resolution
import Notary.Proofs.Context.Roots
import Notary.Proofs.Context.Schemas
import Notary.Proofs.Contract.RoundTrip
import Notary.Proofs.Contract.Tampering
import Notary.Proofs.Digest.Framing
import Notary.Proofs.Engine.Action
import Notary.Proofs.Engine.Archives
import Notary.Proofs.Engine.Arguments
import Notary.Proofs.Engine.Bindings
import Notary.Proofs.Engine.Calls
import Notary.Proofs.Engine.Effects
import Notary.Proofs.Engine.Execution
import Notary.Proofs.Engine.Frames
import Notary.Proofs.Engine.Handle
import Notary.Proofs.Engine.Hidden
import Notary.Proofs.Engine.History
import Notary.Proofs.Engine.Loaded
import Notary.Proofs.Engine.Module
import Notary.Proofs.Engine.Orders
import Notary.Proofs.Engine.Outcome
import Notary.Proofs.Engine.PoolSize
import Notary.Proofs.Engine.Ready
import Notary.Proofs.Engine.Recitals
import Notary.Proofs.Engine.Records
import Notary.Proofs.Engine.Renewed
import Notary.Proofs.Engine.Results
import Notary.Proofs.Engine.Returned
import Notary.Proofs.Engine.Reuse
import Notary.Proofs.Engine.Sealing
import Notary.Proofs.Engine.Validation
import Notary.Proofs.Engine.Written
import Notary.Proofs.Guest.Bounds
import Notary.Proofs.Guest.Delivery
import Notary.Proofs.Guest.Growth
import Notary.Proofs.Guest.Loading
import Notary.Proofs.Json.Text
import Notary.Proofs.Metadata.Described
import Notary.Proofs.Metadata.Written
import Notary.Proofs.Pool.Interleavings
import Notary.Proofs.Pool.Moves
import Notary.Proofs.Pool.Orders
import Notary.Proofs.Pool.Turns
import Notary.Proofs.Schema.Decoded
import Notary.Proofs.Schema.Heard
import Notary.Proofs.Schema.Kept
import Notary.Proofs.Schema.Parts
import Notary.Proofs.Schema.Pools
import Notary.Proofs.Schema.Received
import Notary.Proofs.Schema.Reread
import Notary.Proofs.Schema.Scalars
import Notary.Proofs.Schema.Slots
import Notary.Proofs.Schema.Tidy
import Notary.Proofs.Schema.Values
import Notary.Proofs.Store.Account
import Notary.Proofs.Store.CachedReads
import Notary.Proofs.Store.Disclosure
import Notary.Proofs.Store.Eviction
import Notary.Proofs.Store.History
import Notary.Proofs.Store.ReadBack
import Notary.Proofs.Store.Recency
import Notary.Proofs.Store.Shown
import Notary.Proofs.Store.Suppressed
import Notary.Proofs.Symbol.Order
import Notary.Proofs.Text.Hex
import Notary.Proofs.Wire.Distinct
import Notary.Proofs.Wire.RoundTrip
import Notary.Proofs.Wire.Stretch
import Notary.Schema.Annotation
import Notary.Schema.Declaration
import Notary.Schema.Default
import Notary.Schema.MapOrder
import Notary.Schema.Message
import Notary.Schema.Names
import Notary.Schema.Options
import Notary.Schema.Pool
import Notary.Schema.Reading
import Notary.Schema.Shared
import Notary.Schema.Type
import Notary.Schema.Unknown
import Notary.Schema.Valid
import Notary.Signing.Curve
import Notary.Signing.Ed25519
import Notary.Signing.Field
import Notary.Store.ByteCache
import Notary.Store.Cached
import Notary.Store.Memory
import Notary.Store.Object
import Notary.Store.Readers
import Notary.Store.WriteMemory
import Notary.Symbol.Order
import Notary.Symbol.Provider
import Notary.Symbol.Scope
import Notary.Text.Blank
import Notary.Text.Hex
import Notary.Text.Printable
import Notary.Text.Quoted
import Notary.Text.Utf8
import Notary.Wire.Fault
import Notary.Wire.Format
import Notary.Wire.Key
import Notary.Wire.Varint

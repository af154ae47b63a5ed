import KiroTrust.Shared.BigEndian
import KiroTrust.Shared.Chunked
import KiroTrust.Shared.Emitter
import KiroTrust.Shared.Search
import KiroTrust.Shared.Walk
import KiroTrust.Shared.Alternating
import KiroTrust.Shared.Exchange
import KiroTrust.Protocol.Events
import KiroTrust.Protocol.FrameChunking
import KiroTrust.Protocol.FrameCodec
import KiroTrust.Protocol.Anthropic
import KiroTrust.Protocol.Payload
import KiroTrust.Translate.Accumulation
import KiroTrust.Translate.StreamShape
import KiroTrust.Translate.Fold
import KiroTrust.Translate.Limits
import KiroTrust.Translate.LocalStop
import KiroTrust.Translate.Budget
import KiroTrust.Translate.TagSplit
import KiroTrust.Translate.StopSequences
import KiroTrust.Translate.OutputBound
import KiroTrust.Translate.Request
import KiroTrust.Translate.Alternation
import KiroTrust.Translate.Pairing
import KiroTrust.Translate.NameRoundTrip
import KiroTrust.Protocol.EventParser
import KiroTrust.Server.Error
import KiroTrust.Server.Pump
import KiroTrust.Server.Remaining
import KiroTrust.Server.Messages
import KiroTrust.Server.Delivery
import KiroTrust.Server.Pipeline
import KiroTrust.Auth.Refresh
import KiroTrust.Auth.Source
import KiroTrust.Shared.Ledger
import KiroTrust.Auth.Burned
import KiroTrust.Shared.Rounds
import KiroTrust.Shared.Tally
import KiroTrust.Auth.Serving
import KiroTrust.Auth.Progress
import KiroTrust.Auth.SingleFlight
import KiroTrust.Auth.Adoption
import KiroTrust.Kiro.Error
import KiroTrust.Kiro.Client
import KiroTrust.Kiro.Retry
import KiroTrust.Protocol.Catalog
import KiroTrust.Server.Requests
import KiroTrust.Server.OneCredential
import KiroTrust.Server.Usage
import KiroTrust.Server.Counting
import KiroTrust.Server.Conservation
import KiroTrust.Server.Handling
import KiroTrust.Server.Replay
import KiroTrust.Server.Untraced
import KiroTrust.Server.Answering
import KiroTrust.Protocol.ToolCalls
import KiroTrust.Translate.SchemaForm
import KiroTrust.Auth.Contract
import KiroTrust.Translate.Fragments
import KiroTrust.Translate.Ordering
import KiroTrust.Shared.Distinct
import KiroTrust.Translate.Dedupe
import KiroTrust.Shared.Matching
import KiroTrust.Translate.Reorder
import KiroTrust.Translate.Groups
import KiroTrust.Shared.ShellWords
import KiroTrust.Cli.Env
import KiroTrust.Net.Region
import KiroTrust.Net.Url
import KiroTrust.Server.Scrubbing
import KiroTrust.Translate.UsageResolution
import KiroTrust.Translate.Signatures
import KiroTrust.Translate.Literals
import KiroTrust.Translate.Images
import KiroTrust.Shared.Replace
import KiroTrust.Shared.Panics
import KiroTrust.Protocol.FrameSafety
import KiroTrust.Xtask.Identity
import KiroTrust.Xtask.WholeWords
import KiroTrust.Shared.EventSource
import KiroTrust.Server.Reading
import KiroTrust.Protocol.Resolve
import KiroTrust.Xtask.Masking
import KiroTrust.Xtask.Stream
import KiroTrust.Shared.Trimming
import KiroTrust.Shared.Permits
import KiroTrust.Server.Router
import KiroTrust.Server.Once
import KiroTrust.Server.Calls
import KiroTrust.Server.Capacity
import KiroTrust.Server.Admission
import KiroTrust.Server.Balance
import KiroTrust.Auth.Database
import KiroTrust.Auth.Provenance
import KiroTrust.Cli.Config
import KiroTrust.Cli.Audit
import KiroTrust.Cli.Doctor
import KiroTrust.Server.Traffic
import KiroTrust.Shared.Base64
import KiroTrust.Shared.Files
import KiroTrust.Cli.Token
import KiroTrust.Cli.Serve
import KiroTrust.Cli.Clients
import KiroTrust.Server.Listener

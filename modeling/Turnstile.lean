import Turnstile.Access.Bearer
import Turnstile.Access.Denial
import Turnstile.Access.Local
import Turnstile.Access.Pipeline
import Turnstile.Access.Scope
import Turnstile.Claims
import Turnstile.Command.Issue
import Turnstile.Command.Line
import Turnstile.Command.Usage
import Turnstile.Config.Layers
import Turnstile.Config.Reading
import Turnstile.Config.Settings
import Turnstile.Config.Toml.Document
import Turnstile.Config.Toml.Reader
import Turnstile.Config.Toml.Scalar
import Turnstile.Config.Tree
import Turnstile.Crypto.Der
import Turnstile.Crypto.Hmac
import Turnstile.Crypto.Pem
import Turnstile.Crypto.Rsa
import Turnstile.Crypto.Sha2
import Turnstile.Decimal.Nearest
import Turnstile.Decimal.Shortest
import Turnstile.Dialogue
import Turnstile.Gateway.Backends
import Turnstile.Gateway.Health
import Turnstile.Gateway.Log
import Turnstile.Gateway.Metrics
import Turnstile.Gateway.Problem
import Turnstile.Gateway.Proxy
import Turnstile.Gateway.Router
import Turnstile.Gateway.Scrape
import Turnstile.Gateway.Startup
import Turnstile.Http.Header
import Turnstile.Http.Message
import Turnstile.Http.Uri
import Turnstile.Interleaving
import Turnstile.Json.Decode
import Turnstile.Json.Number
import Turnstile.Json.Reader
import Turnstile.Json.Value
import Turnstile.Json.Writer
import Turnstile.Jwt.Algorithm
import Turnstile.Jwt.Header
import Turnstile.Jwt.Keys
import Turnstile.Jwt.Token
import Turnstile.Main
import Turnstile.Rate.Counter
import Turnstile.Rate.Limiter
import Turnstile.Rate.Window
import Turnstile.Remote.Address
import Turnstile.Remote.Callers
import Turnstile.Remote.Command
import Turnstile.Remote.Counters
import Turnstile.Remote.Fleet
import Turnstile.Remote.History
import Turnstile.Remote.Keyspace
import Turnstile.Remote.Tokens
import Turnstile.SetupError
import Turnstile.Table
import Turnstile.Text.Base64
import Turnstile.Text.Blank
import Turnstile.Text.Decimal
import Turnstile.Text.Digits
import Turnstile.Text.Letters
import Turnstile.Text.Quoted
import Turnstile.Text.Ranges
import Turnstile.Text.Split
import Turnstile.Text.Unprintable
import Turnstile.Text.Utf8
import Turnstile.Time.Calendar
import Turnstile.Time.Duration
import Turnstile.Time.Instant
import Turnstile.Time.Stamp
import Turnstile.Token.Callers
import Turnstile.Token.Fields
import Turnstile.Token.History
import Turnstile.Token.Memory
import Turnstile.Token.Record
import Turnstile.Url.Address
import Turnstile.Url.Host
import Turnstile.Url.Percent
import Turnstile.Url.Punycode
import Turnstile.Proofs.Access.Admission
import Turnstile.Proofs.Access.Bearer
import Turnstile.Proofs.Access.FirstFailure
import Turnstile.Proofs.Checks
import Turnstile.Proofs.Claims
import Turnstile.Proofs.Command.Issued
import Turnstile.Proofs.Command.Refusals
import Turnstile.Proofs.Config.Reading
import Turnstile.Proofs.Config.Tree
import Turnstile.Proofs.Config.Validation
import Turnstile.Proofs.Config.Variables
import Turnstile.Proofs.Dialogue
import Turnstile.Proofs.Gateway.Forwarding
import Turnstile.Proofs.Gateway.Identity
import Turnstile.Proofs.Gateway.Labels
import Turnstile.Proofs.Gateway.Mediation
import Turnstile.Proofs.Gateway.Redaction
import Turnstile.Proofs.Gateway.Startup
import Turnstile.Proofs.Gateway.Stripping
import Turnstile.Proofs.Gateway.Tracing
import Turnstile.Proofs.Gateway.Unauthenticated
import Turnstile.Proofs.Interleaving
import Turnstile.Proofs.Json.Fields
import Turnstile.Proofs.Json.Integers
import Turnstile.Proofs.Json.Legible
import Turnstile.Proofs.Json.RoundTrip
import Turnstile.Proofs.Jwt.Names
import Turnstile.Proofs.Jwt.Signing
import Turnstile.Proofs.Jwt.Verification
import Turnstile.Proofs.Rate.Alignment
import Turnstile.Proofs.Rate.Bursts
import Turnstile.Proofs.Rate.Counter
import Turnstile.Proofs.Rate.Deadlines
import Turnstile.Proofs.Rate.Limiter
import Turnstile.Proofs.Rate.Recent
import Turnstile.Proofs.Rate.Window
import Turnstile.Proofs.Remote.Agreement
import Turnstile.Proofs.Remote.Calls
import Turnstile.Proofs.Remote.Keyspace
import Turnstile.Proofs.Remote.Lifetime
import Turnstile.Proofs.Remote.Records
import Turnstile.Proofs.Remote.Refresh
import Turnstile.Proofs.Remote.Separation
import Turnstile.Proofs.Remote.SharedBudget
import Turnstile.Proofs.Text.Base64
import Turnstile.Proofs.Text.Blank
import Turnstile.Proofs.Text.Decimal
import Turnstile.Proofs.Text.Utf8
import Turnstile.Proofs.Time.Calendar
import Turnstile.Proofs.Time.Instant
import Turnstile.Proofs.Time.Stamp
import Turnstile.Proofs.Token.Callers
import Turnstile.Proofs.Token.Fields
import Turnstile.Proofs.Token.History
import Turnstile.Proofs.Token.Memory
import Turnstile.Proofs.Url.Path

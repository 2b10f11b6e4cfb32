import ScriptVault.Async.Fiber
import ScriptVault.Async.Schedule
import ScriptVault.Compile.Command
import ScriptVault.Compile.Declarations
import ScriptVault.Compile.Echo
import ScriptVault.Compile.Request
import ScriptVault.Compile.Shell
import ScriptVault.Compile.Workshop
import ScriptVault.Compile.Tool
import ScriptVault.Context
import ScriptVault.Decimal.Read
import ScriptVault.Decimal.Text
import ScriptVault.Evaluator.Basic
import ScriptVault.Evaluator.Lines
import ScriptVault.Evaluator.Scan
import ScriptVault.Evaluator.Statement
import ScriptVault.Failure
import ScriptVault.Failure.Kind
import ScriptVault.Graph
import ScriptVault.Graph.Outline
import ScriptVault.Header
import ScriptVault.Hooks
import ScriptVault.Host.Apply
import ScriptVault.Host.Basic
import ScriptVault.Host.Import
import ScriptVault.Host.Later
import ScriptVault.Host.Realm
import ScriptVault.Host.Require
import ScriptVault.Host.Resolve
import ScriptVault.Host.Session
import ScriptVault.Host.Start
import ScriptVault.Json.Basic
import ScriptVault.Json.Read
import ScriptVault.Link
import ScriptVault.Listeners
import ScriptVault.Loader.Basic
import ScriptVault.Main
import ScriptVault.Resolver.Remote
import ScriptVault.Note
import ScriptVault.Path
import ScriptVault.Pattern.Glob
import ScriptVault.Pattern.Regex
import ScriptVault.Pattern.RegexRead
import ScriptVault.Proofs.Graph.Cascade
import ScriptVault.Proofs.Graph.History
import ScriptVault.Proofs.Graph.Tables
import ScriptVault.Proofs.Graph.Outline
import ScriptVault.Proofs.Graph.Walk
import ScriptVault.Proofs.Host.Call
import ScriptVault.Proofs.Host.Edits
import ScriptVault.Proofs.Host.Exec
import ScriptVault.Proofs.Host.Loads
import ScriptVault.Proofs.Host.Pending
import ScriptVault.Proofs.Host.Reentry
import ScriptVault.Proofs.Host.Resolution
import ScriptVault.Proofs.Host.Slots
import ScriptVault.Proofs.Host.World
import ScriptVault.Proofs.Value.Exports
import ScriptVault.Resolver.Basic
import ScriptVault.Resolver.Bench
import ScriptVault.Resolver.File
import ScriptVault.Resolver.Files
import ScriptVault.Rules
import ScriptVault.Script.Calls
import ScriptVault.Script.Check
import ScriptVault.Script.Frame
import ScriptVault.Script.Rewrite
import ScriptVault.Script.Scanner
import ScriptVault.Script.Token
import ScriptVault.Settings
import ScriptVault.Settings.Json
import ScriptVault.Settings.Read
import ScriptVault.Snapshot
import ScriptVault.Startup
import ScriptVault.Table
import ScriptVault.Terminal.Options
import ScriptVault.Terminal.Program
import ScriptVault.Terminal.Shell
import ScriptVault.Terminal.Show
import ScriptVault.Text.Blank
import ScriptVault.Text.CaseFold
import ScriptVault.Text.Identifier
import ScriptVault.Text.Lines
import ScriptVault.Text.Percent
import ScriptVault.Text.Pieces
import ScriptVault.Text.Shown
import ScriptVault.Text.Quoted
import ScriptVault.Text.Ranges
import ScriptVault.Text.Word
import ScriptVault.Toml.Basic
import ScriptVault.Toml.Read
import ScriptVault.Url.Address
import ScriptVault.Url.Basic
import ScriptVault.Url.Domain
import ScriptVault.Value.Call
import ScriptVault.Value.Dump
import ScriptVault.Value.Facade
import ScriptVault.Value.Heap
import ScriptVault.Value.Notation
import ScriptVault.Value.Object
import ScriptVault.Value.Text
import ScriptVault.Vault.Basic
import ScriptVault.Vault.Directory
import ScriptVault.Work
import ScriptVault.Yaml.Read
import ScriptVault.Yaml.Token
import ScriptVault.Proofs.Async.Alone
import ScriptVault.Proofs.Async.Obey
import ScriptVault.Proofs.Fresh.Agrees
import ScriptVault.Proofs.Fresh.Creation
import ScriptVault.Proofs.Fresh.Edit
import ScriptVault.Proofs.Fresh.Freshness
import ScriptVault.Proofs.Script.Exchange
import ScriptVault.Proofs.Script.ModuleOnly
import ScriptVault.Proofs.Script.Moved
import ScriptVault.Proofs.Script.Rewriting
import ScriptVault.Proofs.Host.Current
import ScriptVault.Proofs.Host.Outcome
import ScriptVault.Proofs.Host.Repeat
import ScriptVault.Proofs.Host.Lifetime
import ScriptVault.Proofs.Host.Obey
import ScriptVault.Proofs.Host.Program
import ScriptVault.Proofs.Host.Serving
import ScriptVault.Proofs.Host.Stacks
import ScriptVault.Proofs.Host.Hooked
import ScriptVault.Proofs.Host.Agreement
import ScriptVault.Proofs.Host.Languages
import ScriptVault.Proofs.Remote.Prefetch
import ScriptVault.Proofs.Remote.Storm
import ScriptVault.Proofs.Remote.Stamp
import ScriptVault.Proofs.Remote.Supply
import ScriptVault.Proofs.Remote.Renewal
import ScriptVault.Proofs.Snapshot.Convergence
import ScriptVault.Proofs.Snapshot.Ledger
import ScriptVault.Proofs.Value.Lasting
import ScriptVault.Proofs.Value.Prototypes
import ScriptVault.Proofs.Host.Books
import ScriptVault.Proofs.Host.Launch
import ScriptVault.Proofs.Graph.Eviction
import ScriptVault.Proofs.Value.Views
import ScriptVault.Proofs.Value.Wrappers
import ScriptVault.Proofs.Settings.Limits
import ScriptVault.Proofs.Script.Statements
import ScriptVault.Proofs.Host.Staleness
import ScriptVault.Proofs.Host.Listed
import ScriptVault.Proofs.Link.Markdown
import ScriptVault.Proofs.Note.Blocks
import ScriptVault.Proofs.Path.Folding
import ScriptVault.Proofs.Script.Readback
import ScriptVault.Proofs.Script.Comments
import ScriptVault.Proofs.Script.Trailer
import ScriptVault.Proofs.Script.Tiling

import Hotload.Binary64
import Hotload.Binary64.Layout
import Hotload.Binary64.Shortest
import Hotload.Binary64.Value
import Hotload.Build
import Hotload.CommandLine.Command
import Hotload.CommandLine.Compilation
import Hotload.CommandLine.Run
import Hotload.Console
import Hotload.Console.Tag
import Hotload.Debouncer
import Hotload.Debouncer.Clockwork
import Hotload.Debouncer.Race
import Hotload.Debouncer.Script
import Hotload.Delay
import Hotload.Digest
import Hotload.Entries
import Hotload.Environment
import Hotload.Failure
import Hotload.Failure.Kind
import Hotload.Files.Access
import Hotload.Files.Canonical
import Hotload.Files.Edit
import Hotload.Files.Listing
import Hotload.Files.Path
import Hotload.Files.Tree
import Hotload.Files.Walk
import Hotload.Handle
import Hotload.Host
import Hotload.Invocation
import Hotload.Json.Grammar
import Hotload.Json.Reader
import Hotload.Json.Writer
import Hotload.Library
import Hotload.Library.Load
import Hotload.Library.Shelf
import Hotload.Log.Context
import Hotload.Log.Format
import Hotload.Log.Record
import Hotload.Log.Setup
import Hotload.Log.Work
import Hotload.Main
import Hotload.Manifest
import Hotload.Numeral
import Hotload.Numeral.Written
import Hotload.Options
import Hotload.Package.Create
import Hotload.Package.Layout
import Hotload.Package.New
import Hotload.Platform
import Hotload.ReadWriteLock
import Hotload.ReadWriteLock.Crowd
import Hotload.Runs
import Hotload.Session
import Hotload.Session.Run
import Hotload.Settings
import Hotload.Settings.Desk
import Hotload.Shared
import Hotload.Shared.Thread
import Hotload.Shared.Upkeep
import Hotload.Signature
import Hotload.StandIn.Cells
import Hotload.StandIn.Console
import Hotload.StandIn.Grammar
import Hotload.StandIn.Help
import Hotload.StandIn.Linker
import Hotload.StandIn.Markup
import Hotload.StandIn.Platform
import Hotload.StandIn.Reader
import Hotload.Target
import Hotload.Text.Blank
import Hotload.Text.Digit
import Hotload.Text.LetterCase
import Hotload.Text.Lines
import Hotload.Text.Printable
import Hotload.Text.Quoted
import Hotload.Text.Wide
import Hotload.Text.Words
import Hotload.Text.Words.Grammar
import Hotload.Toolchain
import Hotload.Toolchain.External
import Hotload.Toolchain.LanguageServer
import Hotload.Toolchain.Vigil
import Hotload.Toolchain.WatchLoop
import Hotload.TypeTable
import Hotload.TypeTable.Document
import Hotload.Value
import Hotload.Waits
import Hotload.Watcher
import Hotload.Watcher.Run
import Hotload.Proofs.Action
import Hotload.Proofs.Binary64.Decimal
import Hotload.Proofs.Binary64.Format
import Hotload.Proofs.Binary64.Layout
import Hotload.Proofs.Binary64.Rounding
import Hotload.Proofs.Binary64.Shortest
import Hotload.Proofs.CommandLine.Build
import Hotload.Proofs.CommandLine.Print
import Hotload.Proofs.CommandLine.Run
import Hotload.Proofs.CommandLine.Start
import Hotload.Proofs.Console.Documented
import Hotload.Proofs.Console.Markup
import Hotload.Proofs.Debouncer.Clockwork
import Hotload.Proofs.Debouncer.Race
import Hotload.Proofs.Debouncer.Script
import Hotload.Proofs.Delay
import Hotload.Proofs.Delay.Setting
import Hotload.Proofs.Files.Canonical
import Hotload.Proofs.Files.Climbing
import Hotload.Proofs.Files.Denoted
import Hotload.Proofs.Files.Following
import Hotload.Proofs.Files.Growing
import Hotload.Proofs.Files.Listing
import Hotload.Proofs.Files.Names
import Hotload.Proofs.Files.Nested
import Hotload.Proofs.Files.Order
import Hotload.Proofs.Files.Place
import Hotload.Proofs.Files.Spelling
import Hotload.Proofs.Files.Strict
import Hotload.Proofs.Files.Walk
import Hotload.Proofs.Files.Watched
import Hotload.Proofs.Files.Write
import Hotload.Proofs.Invocation
import Hotload.Proofs.Json.Reader
import Hotload.Proofs.Json.Spelling
import Hotload.Proofs.Json.Writer
import Hotload.Proofs.Library.Copies
import Hotload.Proofs.Log.Work
import Hotload.Proofs.Manifest.Explicit
import Hotload.Proofs.Manifest.Nearest
import Hotload.Proofs.Numeral
import Hotload.Proofs.Numeral.Integer
import Hotload.Proofs.Package
import Hotload.Proofs.Package.Discovery
import Hotload.Proofs.Package.Name
import Hotload.Proofs.Package.Remains
import Hotload.Proofs.ReadWriteLock
import Hotload.Proofs.Session
import Hotload.Proofs.Session.Environment
import Hotload.Proofs.Session.Release
import Hotload.Proofs.Session.Reload
import Hotload.Proofs.Session.Run
import Hotload.Proofs.Session.Spawn
import Hotload.Proofs.Settings
import Hotload.Proofs.Settings.Desk
import Hotload.Proofs.Shared.Alone
import Hotload.Proofs.Shared.Calls
import Hotload.Proofs.Shared.Copies
import Hotload.Proofs.Shared.Exclusion
import Hotload.Proofs.Shared.Lifetime
import Hotload.Proofs.Shared.Ownership
import Hotload.Proofs.Shared.Paths
import Hotload.Proofs.Shared.Release
import Hotload.Proofs.Shared.Signatures
import Hotload.Proofs.Shared.Steps
import Hotload.Proofs.Shared.Succession
import Hotload.Proofs.Shared.Upkeep
import Hotload.Proofs.Shelf
import Hotload.Proofs.Signature
import Hotload.Proofs.StandIn.Cells
import Hotload.Proofs.StandIn.Console
import Hotload.Proofs.StandIn.Markup
import Hotload.Proofs.Text.Blank
import Hotload.Proofs.Text.Words
import Hotload.Proofs.Toolchain.Executable
import Hotload.Proofs.Toolchain.Guard
import Hotload.Proofs.Toolchain.LanguageServer
import Hotload.Proofs.Toolchain.Rounds
import Hotload.Proofs.Toolchain.Vigil
import Hotload.Proofs.Toolchain.WatchLoop
import Hotload.Proofs.TypeTable.Admission
import Hotload.Proofs.TypeTable.Document
import Hotload.Proofs.TypeTable.Lookup
import Hotload.Proofs.Waits
import Hotload.Proofs.Watcher

import Lumen.Config.Basic
import Lumen.Config.File
import Lumen.Disk.Basic
import Lumen.Disk.Path
import Lumen.Editor.Basic
import Lumen.Editor.Change
import Lumen.Editor.Mark
import Lumen.Editor.Render
import Lumen.Editor.Script
import Lumen.Grammar.Lexicon
import Lumen.Grammar.Production
import Lumen.Grammar.Rule
import Lumen.Grammar.Symbol
import Lumen.Highlight.Capture
import Lumen.Highlight.Engine
import Lumen.Highlight.Overlay
import Lumen.Highlight.Palette
import Lumen.Highlight.Query
import Lumen.Highlight.RustQuery
import Lumen.Language.Basic
import Lumen.Language.Json
import Lumen.Language.Rust.Declarations
import Lumen.Language.Rust.Expressions
import Lumen.Language.Rust.Grammar
import Lumen.Language.Rust.Literals
import Lumen.Language.Rust.Scanner
import Lumen.Language.Rust.Types
import Lumen.Language.Rust.Vocabulary
import Lumen.Language.Scanner
import Lumen.Lexer.Alphabet
import Lumen.Lexer.Automaton
import Lumen.Lexer.Conflict
import Lumen.Lexer.Table
import Lumen.Main
import Lumen.Parse.Reading
import Lumen.Parse.Recovery
import Lumen.Parse.Run
import Lumen.Parse.Stack
import Lumen.Parse.Subtree
import Lumen.Parse.Token
import Lumen.Proofs.Text.Extent
import Lumen.Pump.Basic
import Lumen.Pump.Debouncer
import Lumen.Pump.Session
import Lumen.Query.Anatomy
import Lumen.Query.Basic
import Lumen.Query.Capture
import Lumen.Query.Compile
import Lumen.Query.Feasibility
import Lumen.Query.Message
import Lumen.Query.Parser
import Lumen.Regex.Basic
import Lumen.Regex.Parser
import Lumen.Regex.Search
import Lumen.Size
import Lumen.Store.Basic
import Lumen.Store.Entries
import Lumen.Store.Json
import Lumen.Store.Sample
import Lumen.Table.Closure
import Lumen.Table.Item
import Lumen.Table.Keyword
import Lumen.Table.Merge
import Lumen.Table.State
import Lumen.Terminal.Arguments
import Lumen.Terminal.Home
import Lumen.Terminal.Run
import Lumen.Text.Basic
import Lumen.Text.Charset
import Lumen.Text.Cursor
import Lumen.Text.Extent
import Lumen.Text.Identifier
import Lumen.Text.Lines
import Lumen.Text.Lookup
import Lumen.Text.Place
import Lumen.Text.Point
import Lumen.Text.Property
import Lumen.Text.RowRange
import Lumen.Text.Trim
import Lumen.Tree.Basic
import Lumen.Tree.Edit
import Lumen.Yaml.Char
import Lumen.Yaml.Event
import Lumen.Yaml.Node
import Lumen.Yaml.Number
import Lumen.Yaml.Place
import Lumen.Yaml.Scalar
import Lumen.Yaml.Scanner
import Lumen.Yaml.Spelling
import Lumen.Yaml.Token
import Lumen.Proofs.Text.Place
import Lumen.Proofs.Checked
import Lumen.Proofs.Editor.Splice
import Lumen.Proofs.Editor.Run
import Lumen.Proofs.Editor.Replay
import Lumen.Proofs.Highlight.Overlay
import Lumen.Proofs.Pump.Reader
import Lumen.Proofs.Pump.Session
import Lumen.Proofs.Pump.Events
import Lumen.Proofs.Pump.Follow
import Lumen.Proofs.Pump.Freshness
import Lumen.Proofs.Pump.Pace
import Lumen.Proofs.Pump.Saving
import Lumen.Proofs.Pump.Healing
import Lumen.Proofs.Pump.Failure
import Lumen.Proofs.Disk.Laws
import Lumen.Proofs.Disk.Paths
import Lumen.Proofs.Store.Json
import Lumen.Proofs.Store.File
import Lumen.Proofs.Editor.Append
import Lumen.Proofs.Terminal.Input
import Lumen.Proofs.Terminal.Play
import Lumen.Proofs.Terminal.Rows
import Lumen.Proofs.Terminal.Outcome
import Lumen.Proofs.Terminal.Visits
import Lumen.Proofs.Text.Row
import Lumen.Proofs.Editor.Reach
import Lumen.Proofs.Editor.Marks
import Lumen.Proofs.Editor.Cover
import Lumen.Proofs.Pump.Deadline
import Lumen.Proofs.Editor.Records
import Lumen.Proofs.Editor.Stream
import Lumen.Proofs.Highlight.Captures
import Lumen.Proofs.Highlight.Replacement
import Lumen.Proofs.Highlight.Bytes
import Lumen.Proofs.Editor.Viewport
import Lumen.Proofs.Pump.Burst
import Lumen.Proofs.Highlight.Rows
import Lumen.Proofs.Editor.Colors
import Lumen.Proofs.Editor.Screen
import Lumen.Proofs.Editor.Foreign
import Lumen.Proofs.Store.Runs
import Lumen.Proofs.Config.Bounds
import Lumen.Proofs.Config.RoundTrip
import Lumen.Proofs.Pump.Clock

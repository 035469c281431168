import SourceStamp.Config
import SourceStamp.Event
import SourceStamp.Host
import SourceStamp.Json.Basic
import SourceStamp.Json.Printer
import SourceStamp.Json.Reader
import SourceStamp.Json.Token
import SourceStamp.Path
import SourceStamp.Proofs.Config.Callee
import SourceStamp.Proofs.Config.Fields
import SourceStamp.Proofs.Config.Loading
import SourceStamp.Proofs.Config.Spellings
import SourceStamp.Proofs.Json.Grammar
import SourceStamp.Proofs.Json.Lexing
import SourceStamp.Proofs.Json.Margins
import SourceStamp.Proofs.Json.Nesting
import SourceStamp.Proofs.Json.Number
import SourceStamp.Proofs.Json.Strings
import SourceStamp.Proofs.Outcome
import SourceStamp.Proofs.Path.Drive
import SourceStamp.Proofs.Path.Final
import SourceStamp.Proofs.Path.Segments
import SourceStamp.Proofs.Path.Spelling
import SourceStamp.Proofs.Path.Walk
import SourceStamp.Proofs.SourceMap.Characters
import SourceStamp.Proofs.SourceMap.Column
import SourceStamp.Proofs.SourceMap.Distinct
import SourceStamp.Proofs.SourceMap.Endings
import SourceStamp.Proofs.SourceMap.Lines
import SourceStamp.Proofs.SourceMap.Position
import SourceStamp.Proofs.SourceMap.Shift
import SourceStamp.Proofs.Stamp.Desugaring
import SourceStamp.Proofs.Stamp.Face
import SourceStamp.Proofs.Stamp.Layers
import SourceStamp.Proofs.Stamp.Located
import SourceStamp.Proofs.Stamp.Log
import SourceStamp.Proofs.Stamp.Message
import SourceStamp.Proofs.Stamp.Offline
import SourceStamp.Proofs.Stamp.Outermost
import SourceStamp.Proofs.Stamp.Relocation
import SourceStamp.Proofs.Stamp.Renumbering
import SourceStamp.Proofs.Stamp.Repeated
import SourceStamp.Proofs.Stamp.Rounds
import SourceStamp.Proofs.Stamp.Rules
import SourceStamp.Proofs.Stamp.Settings
import SourceStamp.Proofs.Stamp.Texts
import SourceStamp.Proofs.Stamp.Warnings
import SourceStamp.Proofs.Syntax.Address
import SourceStamp.Proofs.Syntax.Agreement
import SourceStamp.Proofs.Syntax.Children
import SourceStamp.Proofs.Syntax.Spans
import SourceStamp.Proofs.Tag
import SourceStamp.Proofs.Text.Escaping
import SourceStamp.Proofs.Text.Extent
import SourceStamp.Proofs.Text.Literal
import SourceStamp.Proofs.Text.Reading
import SourceStamp.Proofs.Text.Trimming
import SourceStamp.SourceMap.Basic
import SourceStamp.SourceMap.Files
import SourceStamp.SourceMap.Table
import SourceStamp.Span
import SourceStamp.Stamp.Pass
import SourceStamp.Stamp.Stamper
import SourceStamp.Stamp.Target
import SourceStamp.Syntax.Interchange
import SourceStamp.Syntax.Node
import SourceStamp.Tag
import SourceStamp.Text.Blank
import SourceStamp.Text.Quoted
import SourceStamp.Text.Template
import SourceStamp.Text.Units

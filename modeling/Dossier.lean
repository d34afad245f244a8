import Dossier.Assembly
import Dossier.CommandLine
import Dossier.CompileUnit
import Dossier.CompileUnit.OfRecords
import Dossier.CompileUnit.Render
import Dossier.Diagnostic
import Dossier.Diagnostic.Quoted
import Dossier.Document
import Dossier.Document.Json
import Dossier.Document.Toml
import Dossier.Document.Write
import Dossier.Drive
import Dossier.Folder
import Dossier.Log
import Dossier.Main
import Dossier.Noted
import Dossier.Number.Decimal
import Dossier.Number.Double
import Dossier.Number.Power
import Dossier.Number.Shortest
import Dossier.Path
import Dossier.Placement
import Dossier.Project
import Dossier.Proofs.Binding.Accepted
import Dossier.Proofs.Binding.Arguments
import Dossier.Proofs.Binding.Constants
import Dossier.Proofs.Binding.Defaults
import Dossier.Proofs.Binding.FullNames
import Dossier.Proofs.Binding.Lexicon
import Dossier.Proofs.Binding.Located
import Dossier.Proofs.Binding.Occurrences
import Dossier.Proofs.Binding.Places
import Dossier.Proofs.Binding.Quoted
import Dossier.Proofs.Binding.Results
import Dossier.Proofs.Binding.SignatureErrors
import Dossier.Proofs.Binding.Slots
import Dossier.Proofs.Binding.Target
import Dossier.Proofs.Binding.UnknownNames
import Dossier.Proofs.Binding.WellFormed
import Dossier.Proofs.CompileUnit.OfRecords
import Dossier.Proofs.CompileUnit.Shown
import Dossier.Proofs.Document.Json
import Dossier.Proofs.Number.Numerals
import Dossier.Proofs.Parse.Accepts
import Dossier.Proofs.Parse.Append
import Dossier.Proofs.Parse.Bounds
import Dossier.Proofs.Parse.ExprPlaces
import Dossier.Proofs.Parse.Layers
import Dossier.Proofs.Parse.Layout
import Dossier.Proofs.Parse.Literal
import Dossier.Proofs.Parse.Narrow
import Dossier.Proofs.Parse.Numbers
import Dossier.Proofs.Parse.Progress
import Dossier.Proofs.Parse.Recovery
import Dossier.Proofs.Parse.StmtPlaces
import Dossier.Proofs.Parse.Strings
import Dossier.Proofs.Parse.Tokens
import Dossier.Proofs.Placement.Conflicts
import Dossier.Proofs.Placement.Orphans
import Dossier.Proofs.Placement.Partition
import Dossier.Proofs.Record.Libraries
import Dossier.Proofs.Record.ReadBack
import Dossier.Proofs.Run.Comparison
import Dossier.Proofs.Run.Conversion
import Dossier.Proofs.Run.Depth
import Dossier.Proofs.Run.Encapsulation
import Dossier.Proofs.Run.Ends
import Dossier.Proofs.Run.Exits
import Dossier.Proofs.Run.Failures
import Dossier.Proofs.Run.Frames
import Dossier.Proofs.Run.Fuel
import Dossier.Proofs.Run.Independence
import Dossier.Proofs.Run.Kept
import Dossier.Proofs.Run.LoopFree
import Dossier.Proofs.Run.Moves
import Dossier.Proofs.Run.Named
import Dossier.Proofs.Run.Omitted
import Dossier.Proofs.Run.Output
import Dossier.Proofs.Run.Points
import Dossier.Proofs.Run.Preservation
import Dossier.Proofs.Run.Resolution
import Dossier.Proofs.Run.Results
import Dossier.Proofs.Run.Safety
import Dossier.Proofs.Run.Sound
import Dossier.Proofs.Run.VoidStores
import Dossier.Proofs.Run.WholeNumbers
import Dossier.Proofs.Run.WrittenBack
import Dossier.Proofs.Settings.Checked
import Dossier.Proofs.Settings.Names
import Dossier.Proofs.Text.Blanks
import Dossier.Proofs.Text.Lines
import Dossier.Proofs.Text.Places
import Dossier.Proofs.Text.Positions
import Dossier.Record
import Dossier.Record.Declared
import Dossier.Record.Decode
import Dossier.Record.Encode
import Dossier.Record.Load
import Dossier.Response
import Dossier.Scaffold
import Dossier.Script.Arithmetic
import Dossier.Script.Binding
import Dossier.Script.Binding.Expr
import Dossier.Script.Binding.Signature
import Dossier.Script.Binding.Stmt
import Dossier.Script.Bound
import Dossier.Script.Fault
import Dossier.Script.Library
import Dossier.Script.Operator
import Dossier.Script.Parse
import Dossier.Script.Parse.Body
import Dossier.Script.Parse.Expr
import Dossier.Script.Parse.Stmt
import Dossier.Script.Problem
import Dossier.Script.Run
import Dossier.Script.Token
import Dossier.Script.Token.Narrow
import Dossier.Script.Token.Scan
import Dossier.Script.Tree
import Dossier.Script.Value
import Dossier.Script.Writer
import Dossier.Settings
import Dossier.Settings.Load
import Dossier.Table
import Dossier.Text.Blank
import Dossier.Text.Letter
import Dossier.Text.Line
import Dossier.Text.Quote
import Dossier.Text.Span

import Reckoner.Alias.Command
import Reckoner.Alias.File
import Reckoner.Alias.Report
import Reckoner.Alias.Table
import Reckoner.Alias.Words
import Reckoner.Batch
import Reckoner.Bounds
import Reckoner.CommandLine.Flag
import Reckoner.CommandLine.Options
import Reckoner.CommandLine.Run
import Reckoner.Grammar.Attempt
import Reckoner.Grammar.Cursor
import Reckoner.Grammar.Layers
import Reckoner.Grammar.Parse
import Reckoner.Grammar.Remarks
import Reckoner.Json.Reader
import Reckoner.Json.Value
import Reckoner.Json.Writer
import Reckoner.Lexer.Reading
import Reckoner.Lexer.Stream
import Reckoner.Lexer.Tokenize
import Reckoner.Main
import Reckoner.Node.Basic
import Reckoner.Node.Views
import Reckoner.Number.Binary64
import Reckoner.Number.DigitLimit
import Reckoner.Number.Numeral
import Reckoner.Number.Powers
import Reckoner.Number.Quotient
import Reckoner.Number.Rounding
import Reckoner.Number.Shortest
import Reckoner.Output
import Reckoner.Payload
import Reckoner.Place
import Reckoner.Proofs.Alias.Growth
import Reckoner.Proofs.Alias.Regrouping
import Reckoner.Proofs.Alias.Respelling
import Reckoner.Proofs.Alias.Staging
import Reckoner.Proofs.Alias.Union
import Reckoner.Proofs.Attempt
import Reckoner.Proofs.Batch.Agreement
import Reckoner.Proofs.Batch.AllOrNothing
import Reckoner.Proofs.Batch.Factorials
import Reckoner.Proofs.Batch.Places
import Reckoner.Proofs.Cursor
import Reckoner.Proofs.Grammar.Alone
import Reckoner.Proofs.Grammar.Attachment
import Reckoner.Proofs.Grammar.Candidates
import Reckoner.Proofs.Grammar.Classes
import Reckoner.Proofs.Grammar.Contents
import Reckoner.Proofs.Grammar.Continued
import Reckoner.Proofs.Grammar.Derivation
import Reckoner.Proofs.Grammar.Empties
import Reckoner.Proofs.Grammar.Fractions
import Reckoner.Proofs.Grammar.Indifference
import Reckoner.Proofs.Grammar.Inventory
import Reckoner.Proofs.Grammar.Language
import Reckoner.Proofs.Grammar.Leftover
import Reckoner.Proofs.Grammar.Marks
import Reckoner.Proofs.Grammar.Measures
import Reckoner.Proofs.Grammar.MixedProducts
import Reckoner.Proofs.Grammar.Nesting
import Reckoner.Proofs.Grammar.Notations
import Reckoner.Proofs.Grammar.Phrases
import Reckoner.Proofs.Grammar.Powers
import Reckoner.Proofs.Grammar.Precedence
import Reckoner.Proofs.Grammar.PrefixUnits
import Reckoner.Proofs.Grammar.Products
import Reckoner.Proofs.Grammar.Progress
import Reckoner.Proofs.Grammar.Quantities
import Reckoner.Proofs.Grammar.Ranges
import Reckoner.Proofs.Grammar.Remainder
import Reckoner.Proofs.Grammar.Reports
import Reckoner.Proofs.Grammar.RoundTrip
import Reckoner.Proofs.Grammar.Rows
import Reckoner.Proofs.Grammar.Rules
import Reckoner.Proofs.Grammar.Running
import Reckoner.Proofs.Grammar.Sequencing
import Reckoner.Proofs.Grammar.SideBySide
import Reckoner.Proofs.Grammar.Soundness
import Reckoner.Proofs.Grammar.Stopping
import Reckoner.Proofs.Grammar.Unbounded
import Reckoner.Proofs.Grammar.Unclosed
import Reckoner.Proofs.Grammar.Wrapping
import Reckoner.Proofs.Json.Equality
import Reckoner.Proofs.Json.Halves
import Reckoner.Proofs.Json.Keys
import Reckoner.Proofs.Json.Nesting
import Reckoner.Proofs.Json.ReadBack
import Reckoner.Proofs.Lexer.Faults
import Reckoner.Proofs.Lexer.Joining
import Reckoner.Proofs.Lexer.Lexemes
import Reckoner.Proofs.Lexer.Literals
import Reckoner.Proofs.Lexer.Margins
import Reckoner.Proofs.Lexer.Overlong
import Reckoner.Proofs.Lexer.Partition
import Reckoner.Proofs.Lexer.Pieces
import Reckoner.Proofs.Lexer.Reading
import Reckoner.Proofs.Lexer.Spacing
import Reckoner.Proofs.Lexer.Stretches
import Reckoner.Proofs.Lexer.Units
import Reckoner.Proofs.Node
import Reckoner.Proofs.Number.Numeral
import Reckoner.Proofs.Number.Quotient
import Reckoner.Proofs.Number.Rounding
import Reckoner.Proofs.Outcome
import Reckoner.Proofs.Place
import Reckoner.Proofs.Render.Documents
import Reckoner.Proofs.Render.Heights
import Reckoner.Proofs.Render.Numbers
import Reckoner.Proofs.Render.Places
import Reckoner.Proofs.Render.Printed
import Reckoner.Proofs.Render.ReadBack
import Reckoner.Proofs.Render.Reparsed
import Reckoner.Proofs.Render.Shown
import Reckoner.Proofs.Render.Strings
import Reckoner.Proofs.Render.UniqueReading
import Reckoner.Proofs.Session.Configuring
import Reckoner.Proofs.Session.Endurance
import Reckoner.Proofs.Session.Traces
import Reckoner.Proofs.Text
import Reckoner.Render.Document
import Reckoner.Render.Fault
import Reckoner.Render.Format
import Reckoner.Render.Parenthesised
import Reckoner.Render.Tagged
import Reckoner.Session.Basic
import Reckoner.Session.History
import Reckoner.Session.Run
import Reckoner.Storage.Disk
import Reckoner.Storage.FileError
import Reckoner.Storage.Files
import Reckoner.Storage.Locations
import Reckoner.Storage.Path
import Reckoner.Symbol
import Reckoner.Text.Columns
import Reckoner.Text.Lines
import Reckoner.Text.Quoted
import Reckoner.Text.Utf8
import Reckoner.Token
import Reckoner.Unicode.Blank
import Reckoner.Unicode.Casing
import Reckoner.Unicode.DecimalDigit
import Reckoner.Unicode.Letter
import Reckoner.Unicode.Numeric
import Reckoner.Unicode.Printable
import Reckoner.Unicode.Ranges

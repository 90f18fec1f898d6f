import ProtoDocs.Element.Attach
import ProtoDocs.Element.Find
import ProtoDocs.Grammar.File
import ProtoDocs.CommandLine.Arguments
import ProtoDocs.CommandLine.Program
import ProtoDocs.Files.Tree
import ProtoDocs.Main
import ProtoDocs.Proofs.Element.Attach
import ProtoDocs.Proofs.Grammar.Progress
import ProtoDocs.Proofs.Grammar.Nesting
import ProtoDocs.Proofs.Grammar.Gap
import ProtoDocs.Proofs.Grammar.Word
import ProtoDocs.Proofs.Grammar.Value
import ProtoDocs.Proofs.Grammar.Block
import ProtoDocs.Proofs.Grammar.Items
import ProtoDocs.Proofs.Grammar.Reading
import ProtoDocs.Proofs.Grammar.Spans
import ProtoDocs.Proofs.Grammar.Layout
import ProtoDocs.Proofs.Grammar.Tokens
import ProtoDocs.Proofs.Grammar.Choice
import ProtoDocs.Proofs.Grammar.Written
import ProtoDocs.Proofs.Grammar.Printing
import ProtoDocs.Proofs.Element.Everywhere
import ProtoDocs.Proofs.Grammar.Names
import ProtoDocs.Proofs.Markdown.Table
import ProtoDocs.Proofs.Markdown.Cells
import ProtoDocs.Proofs.Markdown.Description
import ProtoDocs.Proofs.Markdown.Page
import ProtoDocs.Proofs.Grammar.Shape
import ProtoDocs.Proofs.Markdown.Listing
import ProtoDocs.Proofs.Markdown.OneofNote
import ProtoDocs.Proofs.Grammar.RawText
import ProtoDocs.Proofs.Grammar.Brackets
import ProtoDocs.Proofs.Grammar.Steady
import ProtoDocs.Proofs.Grammar.Closed
import ProtoDocs.Proofs.Grammar.Lasting
import ProtoDocs.Proofs.Grammar.Rivals
import ProtoDocs.Proofs.Grammar.Joining
import ProtoDocs.Proofs.Site.Policies
import ProtoDocs.Proofs.CommandLine.Exit
import ProtoDocs.Proofs.Element.Order
import ProtoDocs.Proofs.Markdown.LineComment
import ProtoDocs.Proofs.Grammar.OptionWord
import ProtoDocs.Proofs.Markdown.JsonName
import ProtoDocs.Proofs.Markdown.Columns
import ProtoDocs.Proofs.Markdown.Sequence
import ProtoDocs.Proofs.Markdown.Lines
import ProtoDocs.Proofs.Markdown.BlockComment
import ProtoDocs.Proofs.Markdown.LineEnds
import ProtoDocs.Proofs.Grammar.Numeral
import ProtoDocs.Proofs.Grammar.Numbers
import ProtoDocs.Proofs.Files.Path
import ProtoDocs.Proofs.Site.Resolve
import ProtoDocs.Proofs.Grammar.ListValue
import ProtoDocs.Proofs.Text.Case
import ProtoDocs.Proofs.Markdown.TypeCell
import ProtoDocs.Proofs.Markdown.CamelCase
import ProtoDocs.Proofs.Grammar.NumberValue
import ProtoDocs.Proofs.Grammar.Phrase
import ProtoDocs.Proofs.Grammar.Leftover
import ProtoDocs.Proofs.Grammar.Rules
import ProtoDocs.Proofs.Grammar.Equations
import ProtoDocs.Proofs.Grammar.Termination

import CodeOutline.Main
import CodeOutline.Proofs.Regex.Outcome
import CodeOutline.Proofs.Regex.Advance
import CodeOutline.Proofs.Regex.Survey
import CodeOutline.Proofs.Regex.Preferred
import CodeOutline.Proofs.Regex.CharSet
import CodeOutline.Proofs.Regex.Reach
import CodeOutline.Proofs.Regex.Search
import CodeOutline.Proofs.Regex.Lockstep
import CodeOutline.Proofs.Regex.Matches
import CodeOutline.Proofs.Regex.Spelling
import CodeOutline.Proofs.Text.Words
import CodeOutline.Proofs.Text.Piece
import CodeOutline.Proofs.Regex.Captures
import CodeOutline.Proofs.Regex.Runs
import CodeOutline.Proofs.Rule.Parts
import CodeOutline.Proofs.Rule.Boundary
import CodeOutline.Proofs.Text.LineEnd
import CodeOutline.Proofs.Regex.LineEnd
import CodeOutline.Proofs.Regex.LineEndMode
import CodeOutline.Proofs.Rule.LineEnd
import CodeOutline.Proofs.Text.NormalForm
import CodeOutline.Proofs.Signature
import CodeOutline.Proofs.Rule.Reading
import CodeOutline.Proofs.Rule.Declaration
import CodeOutline.Proofs.Rule.Keyword
import CodeOutline.Proofs.Rule.KeywordSource
import CodeOutline.Proofs.Rule.TypeFirst
import CodeOutline.Proofs.Rule.TypeFirstSource
import CodeOutline.Proofs.Rule.Arrow
import CodeOutline.Proofs.Rule.ArrowSource
import CodeOutline.Proofs.Rule.Lexical
import CodeOutline.Proofs.Rule.Bodiless
import CodeOutline.Proofs.Rule.Normal
import CodeOutline.Proofs.Rule.Quotation
import CodeOutline.Proofs.Rule.Heading
import CodeOutline.Proofs.Rule.WholeWords
import CodeOutline.Proofs.Rule.TypeSlot
import CodeOutline.Proofs.Volume.Node
import CodeOutline.Proofs.Volume.Resolve
import CodeOutline.Proofs.Text.Order
import CodeOutline.Proofs.Walk.Branch
import CodeOutline.Proofs.Walk.Entries
import CodeOutline.Proofs.Report.Listing
import CodeOutline.Proofs.Document.Value
import CodeOutline.Proofs.Report.Exchange
import CodeOutline.Proofs.Walk.Forest
import CodeOutline.Proofs.Volume.Shape
import CodeOutline.Proofs.Volume.Reordered
import CodeOutline.Proofs.Volume.Content
import CodeOutline.Proofs.Scan.Tree
import CodeOutline.Proofs.Path
import CodeOutline.Proofs.Registry
import CodeOutline.Proofs.Dictionary
import CodeOutline.Proofs.Registry.Overlay
import CodeOutline.Proofs.Scan.Finding
import CodeOutline.Proofs.Scan.Accounts
import CodeOutline.Proofs.Scan.Exclude
import CodeOutline.Proofs.Walk.Ignored
import CodeOutline.Proofs.Scan.Ignored
import CodeOutline.Proofs.Document.Json.Scalar
import CodeOutline.Proofs.Document.Json.Layout
import CodeOutline.Proofs.Text.Decode
import CodeOutline.Proofs.Document.Toml.Lines
import CodeOutline.Proofs.Report.Table
import CodeOutline.Proofs.Volume.Put
import CodeOutline.Proofs.Volume.Write
import CodeOutline.Proofs.Volume.Spelling
import CodeOutline.Proofs.Walk.Addition
import CodeOutline.Proofs.Scan.Addition
import CodeOutline.Proofs.Scan.Content
import CodeOutline.Proofs.Command.Template
import CodeOutline.Proofs.Command.Effect
import CodeOutline.Proofs.Command.Init
import CodeOutline.Proofs.Command.Arguments
import CodeOutline.Proofs.Scan.Spelling
import CodeOutline.Proofs.Scan.Signatures
import CodeOutline.Proofs.Report.Cut
import CodeOutline.Proofs.FirstError
import CodeOutline.Proofs.Registry.Refusal
import CodeOutline.Proofs.Command.SetUp
import CodeOutline.Proofs.Settings
import CodeOutline.Proofs.Settings.Exchange
import CodeOutline.Proofs.Scan.Extension
import CodeOutline.Proofs.Path.Absolute
import CodeOutline.Proofs.Text.Lines
import CodeOutline.Proofs.Command.Languages
import CodeOutline.Proofs.Report.Outline
import CodeOutline.Proofs.Report.Compact
import CodeOutline.Proofs.Scan.Compact

import MustacheHtml.Cli.Command
import MustacheHtml.Cli.Directory
import MustacheHtml.Cli.Run
import MustacheHtml.Decimal.Binary
import MustacheHtml.Decimal.Layout
import MustacheHtml.Decimal.Reading
import MustacheHtml.Decimal.Shortest
import MustacheHtml.Dict
import MustacheHtml.Document.Copy
import MustacheHtml.Document.Heap
import MustacheHtml.Document.View
import MustacheHtml.Document.World
import MustacheHtml.Escape
import MustacheHtml.Expression
import MustacheHtml.Expression.Fault
import MustacheHtml.Expression.Reading
import MustacheHtml.Json
import MustacheHtml.Json.Number
import MustacheHtml.Json.Printing
import MustacheHtml.Json.Reading
import MustacheHtml.Main
import MustacheHtml.Markup.Building
import MustacheHtml.Markup.RawText
import MustacheHtml.Markup.Reference
import MustacheHtml.Markup.ReferenceNames
import MustacheHtml.Markup.Scan
import MustacheHtml.Markup.Tag
import MustacheHtml.Markup.Token
import MustacheHtml.Proofs.Dict
import MustacheHtml.Proofs.Document.Ancestry
import MustacheHtml.Proofs.Document.Cells
import MustacheHtml.Proofs.Document.Edits
import MustacheHtml.Proofs.Document.Growth
import MustacheHtml.Proofs.Document.Linked
import MustacheHtml.Proofs.Document.Names
import MustacheHtml.Proofs.Document.Placed
import MustacheHtml.Proofs.Document.Revision
import MustacheHtml.Proofs.Document.Running
import MustacheHtml.Proofs.Escape
import MustacheHtml.Proofs.Markup.DistinctNames
import MustacheHtml.Proofs.Markup.DocumentOrder
import MustacheHtml.Proofs.Markup.NormalForm
import MustacheHtml.Proofs.Render.Bound
import MustacheHtml.Proofs.Render.Output
import MustacheHtml.Proofs.Render.Refinement
import MustacheHtml.Proofs.Render.Rerendering
import MustacheHtml.Proofs.Render.RoundTrip
import MustacheHtml.Proofs.Render.Splice
import MustacheHtml.Proofs.Render.TreeSemantics
import MustacheHtml.Proofs.Render.Updating
import MustacheHtml.Proofs.Results
import MustacheHtml.Proofs.Template.Balanced
import MustacheHtml.Proofs.Template.Nodes
import MustacheHtml.Proofs.Template.RoundTrip
import MustacheHtml.Proofs.Template.Scanning
import MustacheHtml.Proofs.Template.Written
import MustacheHtml.Proofs.Tree
import MustacheHtml.Proofs.Tree.Merging
import MustacheHtml.Reference
import MustacheHtml.Render.Binding
import MustacheHtml.Render.Error
import MustacheHtml.Render.Registry
import MustacheHtml.Render.Rendering
import MustacheHtml.Render.Standard
import MustacheHtml.Session.Act
import MustacheHtml.Session.Playing
import MustacheHtml.Session.Recorder
import MustacheHtml.Session.Step
import MustacheHtml.Session.Summary
import MustacheHtml.TagName
import MustacheHtml.Template
import MustacheHtml.Template.Building
import MustacheHtml.Template.Cursor
import MustacheHtml.Template.Fault
import MustacheHtml.Template.Node
import MustacheHtml.Template.Printing
import MustacheHtml.Template.Scan
import MustacheHtml.Template.Scan.Attribute
import MustacheHtml.Template.Scan.Mustache
import MustacheHtml.Template.Scan.Tag
import MustacheHtml.Template.Token
import MustacheHtml.Text.Alphanumeric
import MustacheHtml.Text.CharClass
import MustacheHtml.Text.Location
import MustacheHtml.Text.Quoted
import MustacheHtml.Text.Search
import MustacheHtml.Tree
import MustacheHtml.Value
import MustacheHtml.Proofs.Document.Beside
import MustacheHtml.Proofs.Render.Journal
import MustacheHtml.Proofs.Render.Calls
import MustacheHtml.Proofs.Template.Passing
import MustacheHtml.Proofs.Template.Spans
import MustacheHtml.Proofs.Expression.Paths
import MustacheHtml.Proofs.Expression.WrittenCall
import MustacheHtml.Proofs.Template.WrittenCall
import MustacheHtml.Proofs.Template.Outline
import MustacheHtml.Proofs.Expression.Quotes
import MustacheHtml.Proofs.Template.Enclosed
import MustacheHtml.Proofs.Template.Strings
import MustacheHtml.Proofs.Template.WellNamed
import MustacheHtml.Proofs.Render.EscapedData
import MustacheHtml.Proofs.Expression.Grammar
import MustacheHtml.Proofs.Text.Location
import MustacheHtml.Proofs.Template.TagPlaces
import MustacheHtml.Proofs.Template.ScanFaults
import MustacheHtml.Proofs.Template.FaultPlaces
import MustacheHtml.Proofs.Render.Watching
import MustacheHtml.Proofs.Render.Cuts
import MustacheHtml.Proofs.Render.Sightings
import MustacheHtml.Proofs.Render.Leaving
import MustacheHtml.Proofs.Render.Unchanged
import MustacheHtml.Proofs.Template.Cache
import MustacheHtml.Proofs.Document.Moves
import MustacheHtml.Proofs.Document.Stretch
import MustacheHtml.Proofs.Render.Resplicing
import MustacheHtml.Proofs.Render.Ownership
import MustacheHtml.Proofs.Document.Sparing
import MustacheHtml.Proofs.Render.Lasting
import MustacheHtml.Proofs.Template.Segments
import MustacheHtml.Proofs.Template.Braces
import MustacheHtml.Proofs.Template.NormalForm
import MustacheHtml.Proofs.Template.Viable
import MustacheHtml.Proofs.Template.Moving
import MustacheHtml.Proofs.Template.Anywhere
import MustacheHtml.Proofs.Reference
import MustacheHtml.Proofs.Value
import MustacheHtml.Proofs.Document.Depth
import MustacheHtml.Proofs.Document.Spots
import MustacheHtml.Proofs.Document.Scaffold
import MustacheHtml.Proofs.Render.Stopping
import MustacheHtml.Proofs.Render.Passes
import MustacheHtml.Proofs.Render.Keeping
import MustacheHtml.Proofs.Render.Resuming
import MustacheHtml.Proofs.Render.Walking
import MustacheHtml.Proofs.Document.Cloning
import MustacheHtml.Proofs.Template.ReadingBack
import MustacheHtml.Proofs.Bytewise.Tokens

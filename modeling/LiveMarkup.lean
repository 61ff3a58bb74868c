import LiveMarkup.Analysis.Calls
import LiveMarkup.Analysis.Fields
import LiveMarkup.Analysis.Slot
import LiveMarkup.Client.Code
import LiveMarkup.Client.Print
import LiveMarkup.Client.Receiver
import LiveMarkup.Client.Record
import LiveMarkup.Client.Scope
import LiveMarkup.Client.Script
import LiveMarkup.Command.Arguments
import LiveMarkup.Command.Execute
import LiveMarkup.Command.Workspace
import LiveMarkup.Markup.Entity
import LiveMarkup.Markup.EntityTable
import LiveMarkup.Markup.Escape
import LiveMarkup.Markup.Reader
import LiveMarkup.Markup.Tag
import LiveMarkup.Markup.Token
import LiveMarkup.Markup.Tree
import LiveMarkup.Markup.Writer
import LiveMarkup.Number.Binary64
import LiveMarkup.Number.Decimal
import LiveMarkup.Number.Shortest
import LiveMarkup.Render.Bind
import LiveMarkup.Render.Call
import LiveMarkup.Render.Component
import LiveMarkup.Render.Compose
import LiveMarkup.Render.Factory
import LiveMarkup.Render.Fill
import LiveMarkup.Render.Placeholder
import LiveMarkup.Render.Recipe
import LiveMarkup.Report.Context
import LiveMarkup.Report.Directory
import LiveMarkup.Report.Guard
import LiveMarkup.Report.Page
import LiveMarkup.Routing.Pattern
import LiveMarkup.Routing.Router
import LiveMarkup.Site.Basic
import LiveMarkup.Site.Respond
import LiveMarkup.Syntax.Expr
import LiveMarkup.Syntax.Fault
import LiveMarkup.Syntax.Lexer
import LiveMarkup.Syntax.Literal
import LiveMarkup.Syntax.Parser.Basic
import LiveMarkup.Syntax.Parser.Expr
import LiveMarkup.Syntax.Parser.Stmt
import LiveMarkup.Syntax.Source
import LiveMarkup.Syntax.Stmt
import LiveMarkup.Syntax.Token
import LiveMarkup.Template.Named
import LiveMarkup.Template.Place
import LiveMarkup.Template.Split
import LiveMarkup.Text.Blank
import LiveMarkup.Text.Json
import LiveMarkup.Text.Lower
import LiveMarkup.Text.LowerTable
import LiveMarkup.Text.Name
import LiveMarkup.Text.NameTable
import LiveMarkup.Text.Normal
import LiveMarkup.Text.NormalTable
import LiveMarkup.Text.Printable
import LiveMarkup.Text.PrintableTable
import LiveMarkup.Text.Quoted
import LiveMarkup.Text.Ranges
import LiveMarkup.Text.Search
import LiveMarkup.Text.Word
import LiveMarkup.Text.WordTable
import LiveMarkup.Value.Basic
import LiveMarkup.Value.Depth
import LiveMarkup.Value.Equal
import LiveMarkup.Value.Escaped
import LiveMarkup.Value.Layout
import LiveMarkup.Value.Literal
import LiveMarkup.Value.Sum
import LiveMarkup.Value.Written
import LiveMarkup.Main
import LiveMarkup.Proofs.Client.Forms
import LiveMarkup.Proofs.Client.Receiver
import LiveMarkup.Proofs.Client.Words
import LiveMarkup.Proofs.Analysis.Fields
import LiveMarkup.Proofs.Analysis.Slot
import LiveMarkup.Proofs.Analysis.Capture
import LiveMarkup.Proofs.Analysis.Chain
import LiveMarkup.Proofs.Analysis.Free
import LiveMarkup.Proofs.Render.Run
import LiveMarkup.Proofs.Render.Provenance
import LiveMarkup.Proofs.Render.Collected
import LiveMarkup.Proofs.Render.Declared
import LiveMarkup.Proofs.Client.Quoted
import LiveMarkup.Proofs.Render.Stripped
import LiveMarkup.Proofs.Render.Elements
import LiveMarkup.Proofs.Render.Passes
import LiveMarkup.Proofs.Render.Alone
import LiveMarkup.Proofs.Client.Evaluate
import LiveMarkup.Proofs.Render.Agree
import LiveMarkup.Proofs.Render.Settled
import LiveMarkup.Proofs.Render.Placed
import LiveMarkup.Proofs.Render.Stages
import LiveMarkup.Proofs.Render.Ends
import LiveMarkup.Proofs.Render.Accounted
import LiveMarkup.Proofs.Render.Failed
import LiveMarkup.Proofs.Markup.Origin
import LiveMarkup.Proofs.Render.Log
import LiveMarkup.Proofs.Render.Ordered
import LiveMarkup.Proofs.Analysis.Calls
import LiveMarkup.Proofs.Markup.Scan
import LiveMarkup.Proofs.Render.Found
import LiveMarkup.Proofs.Render.Leaked
import LiveMarkup.Proofs.Render.Sites
import LiveMarkup.Proofs.Client.Arithmetic
import LiveMarkup.Proofs.Client.Balanced
import LiveMarkup.Proofs.Client.Closing
import LiveMarkup.Proofs.Client.Grouping
import LiveMarkup.Proofs.Client.Meaning
import LiveMarkup.Proofs.Client.Outline
import LiveMarkup.Proofs.Markup.Position
import LiveMarkup.Proofs.Render.Quoting
import LiveMarkup.Proofs.Markup.Drawn
import LiveMarkup.Proofs.Markup.Cells
import LiveMarkup.Proofs.Render.Kept
import LiveMarkup.Proofs.Render.Resolved
import LiveMarkup.Proofs.Markup.Embedded
import LiveMarkup.Proofs.Render.Enclosed
import LiveMarkup.Proofs.Render.Refused
import LiveMarkup.Proofs.Analysis.Nesting
import LiveMarkup.Proofs.Render.Index
import LiveMarkup.Proofs.Render.Lasting
import LiveMarkup.Proofs.Render.Private
import LiveMarkup.Proofs.Value.Near
import LiveMarkup.Proofs.Render.Twins
import LiveMarkup.Proofs.Render.Stamped
import LiveMarkup.Proofs.Render.Woven
import LiveMarkup.Proofs.Render.Incidents
import LiveMarkup.Proofs.Render.Renumbered
import LiveMarkup.Proofs.Client.Arrows
import LiveMarkup.Proofs.Render.Names
import LiveMarkup.Proofs.Render.StartTag
import LiveMarkup.Proofs.Render.Sole
import LiveMarkup.Proofs.Analysis.Rename
import LiveMarkup.Proofs.Analysis.Renamed
import LiveMarkup.Proofs.Client.Formatted
import LiveMarkup.Proofs.Syntax.Read
import LiveMarkup.Proofs.Client.Unclosed
import LiveMarkup.Proofs.Value.Json
import LiveMarkup.Proofs.Render.Emitted
import LiveMarkup.Proofs.Template.Joined
import LiveMarkup.Proofs.Routing.Built
import LiveMarkup.Proofs.Routing.Accepted
import LiveMarkup.Proofs.Routing.Registered
import LiveMarkup.Proofs.Routing.Addressed
import LiveMarkup.Proofs.Render.Starts
import LiveMarkup.Proofs.Render.Reach
import LiveMarkup.Proofs.Render.Escaping
import LiveMarkup.Proofs.Render.Chunks

import TreeExport.Config.Stored
import TreeExport.Main
import TreeExport.Proofs.Markup.Depth
import TreeExport.Proofs.Markup.FirstVisit
import TreeExport.Proofs.Project.Soundness
import TreeExport.Registry.Directory
import TreeExport.Proofs.Project.Locality
import TreeExport.Proofs.Project.Contents
import TreeExport.Proofs.Markup.Line
import TreeExport.Proofs.Markup.Iteration
import TreeExport.Proofs.Project.Components
import TreeExport.Proofs.Json.Number
import TreeExport.Proofs.Json.Quoted
import TreeExport.Proofs.Json.Float
import TreeExport.Proofs.Json.Grammar
import TreeExport.Proofs.Json.Writing
import TreeExport.Proofs.Project.Page
import TreeExport.Proofs.Markup.Tag
import TreeExport.Proofs.Markup.Attributes
import TreeExport.Proofs.Project.Renaming
import TreeExport.Proofs.Project.Totality
import TreeExport.Proofs.Command.Reporting
import TreeExport.Proofs.Command.Frame
import TreeExport.Proofs.Command.Preview
import TreeExport.Proofs.Feed.Marking
import TreeExport.Proofs.Binary64.Nearest
import TreeExport.Proofs.Binary64.Rounding
import TreeExport.Proofs.Feed.Fallback
import TreeExport.Proofs.Binary64.Shortest
import TreeExport.Proofs.Path
import TreeExport.Proofs.Disk.Reading
import TreeExport.Proofs.Json.Refusal
import TreeExport.Proofs.Config.Stored
import TreeExport.Proofs.Config.Saving
import TreeExport.Proofs.Config.Names
import TreeExport.Proofs.Tree.Preorder
import TreeExport.Proofs.Literal.Compact
import TreeExport.Proofs.Markup.Nesting
import TreeExport.Proofs.Console.Verbatim
import TreeExport.Proofs.Markup.Position
import TreeExport.Proofs.Project.Collisions
import TreeExport.Proofs.Markup.Truncation
import TreeExport.Proofs.Literal.Spacing
import TreeExport.Proofs.Markup.Calls
import TreeExport.Proofs.Literal.Closure
import TreeExport.Proofs.Json.WellFormed
import TreeExport.Proofs.Literal.Refusal
import TreeExport.Proofs.Project.Margin
import TreeExport.Proofs.Project.Writing
import TreeExport.Proofs.Feed.Listing
import TreeExport.Proofs.Feed.Shape
import TreeExport.Proofs.Project.Order
import TreeExport.Proofs.Project.Name
import TreeExport.Proofs.Document

import DocTree.Binary64
import DocTree.Catalog
import DocTree.Command
import DocTree.Command.Arguments
import DocTree.Comment.Scan
import DocTree.Comment.Token
import DocTree.Config
import DocTree.Declaration
import DocTree.Descriptor.Cache
import DocTree.Descriptor.Format
import DocTree.Descriptor.Loader
import DocTree.Descriptor.Schema
import DocTree.Descriptor.Schema.Document
import DocTree.Descriptor.Schema.Resource
import DocTree.Documentation
import DocTree.Documentation.Completion
import DocTree.Element
import DocTree.Element.Json
import DocTree.Element.Run
import DocTree.Event
import DocTree.Failure
import DocTree.Files
import DocTree.FormatFault
import DocTree.Json.Reader
import DocTree.Json.Writer
import DocTree.Keyed
import DocTree.Kind
import DocTree.Link
import DocTree.Main
import DocTree.Moment
import DocTree.Package
import DocTree.Path
import DocTree.Problem
import DocTree.Proofs.Catalog
import DocTree.Proofs.Circles
import DocTree.Proofs.Comment
import DocTree.Proofs.Comment.Division
import DocTree.Proofs.Comment.Rewrapping
import DocTree.Proofs.Comment.Scan
import DocTree.Proofs.Completing
import DocTree.Proofs.Completion
import DocTree.Proofs.Descriptor.Conforming
import DocTree.Proofs.Descriptor.Readable
import DocTree.Proofs.Element.Json
import DocTree.Proofs.Element.Run
import DocTree.Proofs.Inheritance
import DocTree.Proofs.Json.Place
import DocTree.Proofs.Links
import DocTree.Proofs.Loader
import DocTree.Proofs.Loader.Session
import DocTree.Proofs.Locality
import DocTree.Proofs.Order
import DocTree.Proofs.Package.Numbering
import DocTree.Proofs.Package.Path
import DocTree.Proofs.Package.Rearranged
import DocTree.Proofs.Package.Recommented
import DocTree.Proofs.Reading
import DocTree.Proofs.Reference
import DocTree.Proofs.Reference.Writing
import DocTree.Proofs.Resolver
import DocTree.Proofs.Schema
import DocTree.Proofs.Settled
import DocTree.Proofs.Text.Blank
import DocTree.Proofs.Totality
import DocTree.Proofs.Visits
import DocTree.Proofs.Walk.Explored
import DocTree.Proofs.Walk.Recorded
import DocTree.Proofs.Walk.Run
import DocTree.Reference
import DocTree.Report
import DocTree.Resolution
import DocTree.Target
import DocTree.Text.Base64
import DocTree.Text.Blank
import DocTree.Text.Digit
import DocTree.Text.Numeral
import DocTree.Text.Percent
import DocTree.Text.Printable
import DocTree.Text.Quoted
import DocTree.Text.Split
import DocTree.Text.Url
import DocTree.Text.Word
import DocTree.Value
import DocTree.Value.Access
import DocTree.Value.Merge
import DocTree.Value.Text
import DocTree.Walk
import DocTree.Yaml.Cursor
import DocTree.Yaml.Document
import DocTree.Yaml.Handle
import DocTree.Yaml.Node
import DocTree.Yaml.Plain
import DocTree.Yaml.Scalar
import DocTree.Yaml.Tag
import DocTree.Yaml.Timestamp
import DocTree.Yaml.Token
import DocTree.Proofs.Comment.Place
import DocTree.Proofs.Comment.Sections
import DocTree.Proofs.Queries
import DocTree.Proofs.Misses
import DocTree.Proofs.Problem
import DocTree.Proofs.Comment.Exclusive
import DocTree.Proofs.Comment.Flags
import DocTree.Proofs.Releases
import DocTree.Proofs.Effective
import DocTree.Proofs.Walk.Circles
import DocTree.Proofs.Comment.Tidy
import DocTree.Proofs.Reference.Grammar
import DocTree.Proofs.Comment.Misnamed
import DocTree.Proofs.Element.Nesting
import DocTree.Proofs.Comment.Escaping
import DocTree.Proofs.Comment.Lines
import DocTree.Proofs.Path
import DocTree.Proofs.Loader.Below
import DocTree.Proofs.Value.Merge
import DocTree.Proofs.Yaml.Document
import DocTree.Proofs.Config
import DocTree.Proofs.Element.Reading
import DocTree.Proofs.Declaration.Entries
import DocTree.Proofs.Declaration.Building
import DocTree.Proofs.Walk.Orders
import DocTree.Proofs.Traversal

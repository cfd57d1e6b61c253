import SchemaDiagram.Main
import SchemaDiagram.Proofs.CommentRanges
import SchemaDiagram.Proofs.Cut.Unclosed
import SchemaDiagram.Proofs.Indexes
import SchemaDiagram.Proofs.Json.Document
import SchemaDiagram.Proofs.OnePass
import SchemaDiagram.Proofs.Outline
import SchemaDiagram.Proofs.Script.RoundTrip
import SchemaDiagram.Proofs.Search.Strings
import SchemaDiagram.Proofs.Spacing.Reading
import SchemaDiagram.Proofs.Tokens.Insertion
import SchemaDiagram.Proofs.Decoding
import SchemaDiagram.Proofs.File.Tree
import SchemaDiagram.Proofs.File.Writing
import SchemaDiagram.Proofs.Conversion.Input
import SchemaDiagram.Proofs.Conversion.Output
import SchemaDiagram.Proofs.Xml.Glyph
import SchemaDiagram.Proofs.Xml.Syntax
import SchemaDiagram.Proofs.Xml.Pieces
import SchemaDiagram.Proofs.Xml.Namespaces
import SchemaDiagram.Proofs.Xml.Tree
import SchemaDiagram.Proofs.Xml.Declaration
import SchemaDiagram.Proofs.Xml.Element
import SchemaDiagram.Proofs.Project
import SchemaDiagram.Proofs.Declaration.Default
import SchemaDiagram.Proofs.Declaration.RoundTrip
import SchemaDiagram.Proofs.Substitution.Literal
import SchemaDiagram.Proofs.Substitution.Check
import SchemaDiagram.Proofs.Body.Literal
import SchemaDiagram.Proofs.Body.Keys
import SchemaDiagram.Proofs.Assembly
import SchemaDiagram.Proofs.Body.ForeignKey
import SchemaDiagram.Proofs.Search.Region
import SchemaDiagram.Proofs.Dbml.Quoted
import SchemaDiagram.Proofs.Dbml.DefaultNote
import SchemaDiagram.Proofs.Dbml.TypeToken
import SchemaDiagram.Proofs.CheckClause
import SchemaDiagram.Proofs.Spans
import SchemaDiagram.Proofs.Body.Separator
import SchemaDiagram.Proofs.Body.Matched
import SchemaDiagram.Proofs.Mask.Offsets
import SchemaDiagram.Proofs.Tokens.Marked

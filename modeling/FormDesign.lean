import FormDesign.Example
import FormDesign.Host
import FormDesign.Main
import FormDesign.Proofs.Outline
import FormDesign.Proofs.Outline.WellFormed
import FormDesign.Proofs.Xml.Elements
import FormDesign.Proofs.Xml.Escape
import FormDesign.Proofs.Document.Escaping
import FormDesign.Proofs.Document.Markup
import FormDesign.Proofs.Decimal.Plain
import FormDesign.Proofs.Decimal.Grammar
import FormDesign.Proofs.Json.Scan
import FormDesign.Proofs.Json.Text
import FormDesign.Proofs.Outcome
import FormDesign.Proofs.Json.Record
import FormDesign.Proofs.Xml.Codec
import FormDesign.Proofs.Outline.Sites
import FormDesign.Proofs.Document.Parts
import FormDesign.Proofs.Xml.Places
import FormDesign.Proofs.Document.Paths
import FormDesign.Proofs.Outline.Wordings
import FormDesign.Proofs.Document.Captions
import FormDesign.Proofs.Outline.Flatten
import FormDesign.Proofs.Form.FirstFault
import FormDesign.Proofs.Outline.Leaves
import FormDesign.Proofs.Document.Mirror
import FormDesign.Proofs.Document.Gates
import FormDesign.Proofs.Document.Branches
import FormDesign.Proofs.Json.Whole
import FormDesign.Proofs.Control.Reading
import FormDesign.Proofs.Control.Normal
import FormDesign.Proofs.Form.RoundTrip
import FormDesign.Proofs.Document.Readable
import FormDesign.Proofs.Form.Properties
import FormDesign.Proofs.Form.Duplicates
import FormDesign.Proofs.Form.Presentation
import FormDesign.Proofs.Form.Substance
import FormDesign.Proofs.Form.Unset
import FormDesign.Proofs.Host.Agreement
import FormDesign.Proofs.Host.Config
import FormDesign.Proofs.Command.Arguments
import FormDesign.Proofs.Command.Runs
import FormDesign.Proofs.Command.Agreement
import FormDesign.Proofs.Command.Output
import FormDesign.Proofs.Command.Storage
import FormDesign.Proofs.Command.Files
import FormDesign.Proofs.Document.References
import FormDesign.Proofs.Document.Languages
import FormDesign.Proofs.Text.Bytes
import FormDesign.Proofs.Json.Order
import FormDesign.Proofs.Xml.Order
import FormDesign.Proofs.Host.Tree
import FormDesign.Proofs.Document.Composition
import FormDesign.Proofs.Xml.Lossless
import FormDesign.Proofs.Xml.Overfull
import FormDesign.Proofs.Form.Bounds
import FormDesign.Proofs.Document.Registry
import FormDesign.Proofs.Xml.Attributes
import FormDesign.Proofs.Document.Clauses
import FormDesign.Proofs.Xml.Indentation

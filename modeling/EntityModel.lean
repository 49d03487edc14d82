import EntityModel.File.Flatten
import EntityModel.Main
import EntityModel.Proofs.Catalog.Cardinality
import EntityModel.Proofs.Catalog.Parentheses
import EntityModel.Proofs.Catalog.Declarations
import EntityModel.Proofs.Catalog.Order
import EntityModel.Proofs.Catalog.JoinColumn
import EntityModel.Proofs.Catalog.Columns
import EntityModel.Proofs.Catalog.Attachment
import EntityModel.Proofs.Catalog.Constraints
import EntityModel.Proofs.Catalog.DeclaredRelation
import EntityModel.Proofs.Column.KeyCalls
import EntityModel.Proofs.Context.Operations
import EntityModel.Proofs.CommandLine.Inputs
import EntityModel.Proofs.File.Flatten
import EntityModel.Proofs.Json.Model
import EntityModel.Proofs.Schema.Outline
import EntityModel.Proofs.Literal.Elements
import EntityModel.Proofs.Literal.Spelling
import EntityModel.Proofs.Literal.Continuation
import EntityModel.Proofs.Literal.Units
import EntityModel.Proofs.Literal.Understood
import EntityModel.Proofs.Catalog.Indices
import EntityModel.Proofs.Column.Definition
import EntityModel.Proofs.Column.Default
import EntityModel.Proofs.Conversion.Bindings
import EntityModel.Proofs.Schema.Comment
import EntityModel.Proofs.Expr.Unwinding
import EntityModel.Proofs.Naming.Extension
import EntityModel.Proofs.Naming.SnakeCase
import EntityModel.Proofs.Syntax.RadixNumeral

import WidthCheck.BytePattern
import WidthCheck.CType.Basic
import WidthCheck.CType.Builtin
import WidthCheck.CType.Literal
import WidthCheck.CType.Print
import WidthCheck.CType.Qualifiers
import WidthCheck.CType.Table
import WidthCheck.CommandLine.Arguments
import WidthCheck.CommandLine.Output
import WidthCheck.CommandLine.Program
import WidthCheck.CommandLine.Snippet
import WidthCheck.CompilationUnit
import WidthCheck.Config
import WidthCheck.ConfigSource
import WidthCheck.Diagnostic
import WidthCheck.Exclusion
import WidthCheck.FileTree
import WidthCheck.FileTree.Listing
import WidthCheck.Glob
import WidthCheck.IgnoreFile.Basic
import WidthCheck.IgnoreFile.Pattern
import WidthCheck.Json.Basic
import WidthCheck.Json.Result
import WidthCheck.LintResult
import WidthCheck.Linter.Basic
import WidthCheck.Linter.Check
import WidthCheck.Linter.Discovery
import WidthCheck.Linter.IgnoreLayer
import WidthCheck.Linter.Outcome
import WidthCheck.Linter.Run
import WidthCheck.Lowering.Deduction
import WidthCheck.Lowering.Instantiation
import WidthCheck.Lowering.Names
import WidthCheck.Lowering.State
import WidthCheck.Lowering.Traversal
import WidthCheck.Lowering.Traversal.Instantiation
import WidthCheck.Lowering.Traversal.Walk
import WidthCheck.Lowering.Types
import WidthCheck.Lowering.Walk
import WidthCheck.Lowering.WrittenType
import WidthCheck.Main
import WidthCheck.Matcher
import WidthCheck.ParseTree.Kind
import WidthCheck.ParseTree.Node
import WidthCheck.ParseTree.Source
import WidthCheck.Path
import WidthCheck.Proofs.Lowering.Acts
import WidthCheck.Proofs.Lowering.Effect
import WidthCheck.Proofs.Rule.NoLong
import WidthCheck.Rule.Basic
import WidthCheck.Rule.NoLong
import WidthCheck.Rule.Registry
import WidthCheck.Severity
import WidthCheck.Suppression
import WidthCheck.Text.Blank
import WidthCheck.Text.Find
import WidthCheck.Text.Utf8
import WidthCheck.Text.Width
import WidthCheck.Toml.Quoted
import WidthCheck.Toml.Reader
import WidthCheck.Toml.Scalar
import WidthCheck.Toml.Tables
import WidthCheck.Toml.Value
import WidthCheck.Violation
import WidthCheck.Warning
import WidthCheck.Workspace
import WidthCheck.Workspace.GlobalIgnore
import WidthCheck.Proofs.Lowering.TypeEffect
import WidthCheck.Proofs.Lowering.WalkEffect
import WidthCheck.Proofs.Lowering.Queue
import WidthCheck.Proofs.Lowering.Worklist
import WidthCheck.Proofs.Lowering.Mirror
import WidthCheck.Proofs.Lowering.TypeMirror
import WidthCheck.Proofs.Lowering.WalkMirror
import WidthCheck.Proofs.Lowering.NestingLimit
import WidthCheck.Proofs.Lowering.InstantiationMirror
import WidthCheck.Proofs.Lowering.Restoration
import WidthCheck.Proofs.Lowering.Marks
import WidthCheck.Proofs.Rule.Exemption
import WidthCheck.Proofs.Lowering.Invariant
import WidthCheck.Proofs.Lowering.WellFormed
import WidthCheck.Proofs.CType.Keywords
import WidthCheck.Proofs.CType.Normal
import WidthCheck.Proofs.Lowering.StoredTypes
import WidthCheck.Proofs.CType.Substitution
import WidthCheck.Proofs.Lowering.Substitution
import WidthCheck.Proofs.LintResult
import WidthCheck.Proofs.LintResult.Identity
import WidthCheck.Proofs.Linter.Run
import WidthCheck.Proofs.Linter.Independence
import WidthCheck.Proofs.Lowering.OwnParameters
import WidthCheck.Proofs.Lowering.DeclaratorReading
import WidthCheck.Proofs.Lowering.AbstractDeclarator
import WidthCheck.Proofs.Lowering.Dependence
import WidthCheck.Proofs.Lowering.Deduction
import WidthCheck.Proofs.Lowering.TemplateParameters
import WidthCheck.Proofs.Lowering.TemplateOrigin
import WidthCheck.Proofs.Lowering.SourcePair
import WidthCheck.Proofs.Lowering.Comments
import WidthCheck.Proofs.Text.Words
import WidthCheck.Proofs.CType.IntegerLiteral
import WidthCheck.Proofs.CType.Spelling
import WidthCheck.Proofs.Lowering.SizedSpecifier
import WidthCheck.Proofs.CType.Print
import WidthCheck.Proofs.Suppression.Directive
import WidthCheck.Proofs.Suppression.Allowance
import WidthCheck.Proofs.Text.Lines
import WidthCheck.Proofs.CType.AliasChain
import WidthCheck.Proofs.Diagnostic
import WidthCheck.Proofs.Suppression.Locality
import WidthCheck.Proofs.Lowering.FunctionKind
import WidthCheck.Proofs.Exclusion
import WidthCheck.Proofs.Lowering.Casts
import WidthCheck.Proofs.Lowering.Initializers
import WidthCheck.Proofs.Lowering.KnownTemplates
import WidthCheck.Proofs.Exclusion.TopDirectory
import WidthCheck.Proofs.Path.Shown
import WidthCheck.Proofs.Path.Parent
import WidthCheck.Proofs.FileTree
import WidthCheck.Proofs.Linter.ReportedFile
import WidthCheck.Proofs.ConfigSource

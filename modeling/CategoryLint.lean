import CategoryLint.Docblock
import CategoryLint.Error
import CategoryLint.Files.Path
import CategoryLint.Files.Tree
import CategoryLint.Json.Printer
import CategoryLint.Json.Reader
import CategoryLint.Log
import CategoryLint.Number.Binary64
import CategoryLint.Number.Decimal
import CategoryLint.Number.Integer
import CategoryLint.Number.Shortest
import CategoryLint.Project.Check
import CategoryLint.Project.Load
import CategoryLint.Project.Packaged
import CategoryLint.Project.Root
import CategoryLint.Proofs.Block
import CategoryLint.Proofs.Splitting
import CategoryLint.Report
import CategoryLint.Result
import CategoryLint.Rule
import CategoryLint.Setting.Coercion
import CategoryLint.Setting.Override
import CategoryLint.Setting.Schema
import CategoryLint.Setting.Sharing
import CategoryLint.Text.Base64
import CategoryLint.Text.Blank
import CategoryLint.Text.Case
import CategoryLint.Text.CaseTable
import CategoryLint.Text.CodePoint
import CategoryLint.Text.Digit
import CategoryLint.Text.Newline
import CategoryLint.Text.Printable
import CategoryLint.Text.Quoted
import CategoryLint.Text.Span
import CategoryLint.Text.Split
import CategoryLint.Text.Utf8
import CategoryLint.Value.Basic
import CategoryLint.Value.Date
import CategoryLint.Value.Literal
import CategoryLint.Value.Merge
import CategoryLint.Value.Objects
import CategoryLint.Yaml.BlockScalar
import CategoryLint.Yaml.Directive
import CategoryLint.Yaml.Document
import CategoryLint.Yaml.FlowScalar
import CategoryLint.Yaml.Lexeme
import CategoryLint.Yaml.Node
import CategoryLint.Yaml.Source
import CategoryLint.Yaml.Tag
import CategoryLint.Yaml.Token
import CategoryLint.Proofs.Header
import CategoryLint.Proofs.Candidate
import CategoryLint.Proofs.OneLine
import CategoryLint.Proofs.PatternFile
import CategoryLint.Proofs.Making
import CategoryLint.Proofs.Layers
import CategoryLint.Proofs.Variable
import CategoryLint.Proofs.BaseCategory
import CategoryLint.Proofs.Strictness
import CategoryLint.Proofs.LowerCase
import CategoryLint.Proofs.Requirement
import CategoryLint.Proofs.Independence
import CategoryLint.Proofs.JsonScalar
import CategoryLint.Proofs.JsonRoundTrip
import CategoryLint.Proofs.JsonReport
import CategoryLint.Proofs.Encoding
import CategoryLint.Proofs.LineEnds
import CategoryLint.Proofs.Stages
import CategoryLint.Proofs.Retention
import CategoryLint.Proofs.Lookup
import CategoryLint.Proofs.Escape
import CategoryLint.Proofs.ReportLines
import CategoryLint.Proofs.DistinctKeys
import CategoryLint.Proofs.TreeUpdate
import CategoryLint.Proofs.Session
import CategoryLint.Proofs.IndependentWrites
import CategoryLint.Proofs.MergeAlgebra
import CategoryLint.Proofs.LastVariable
import CategoryLint.Proofs.ClosedLine
import CategoryLint.Proofs.FirstBlock
import CategoryLint.Proofs.Decoding
import CategoryLint.Proofs.FileCheck
import CategoryLint.Proofs.Readings
import CategoryLint.Proofs.UpperCase
import CategoryLint.Proofs.Capitals
import CategoryLint.Proofs.MalformedName
import CategoryLint.Proofs.NameGrammar
import CategoryLint.Proofs.CaseVariants
import CategoryLint.Proofs.NearestRoot

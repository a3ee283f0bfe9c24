import SelfCapture.Arguments
import SelfCapture.Check.Callee
import SelfCapture.Check.Escaping
import SelfCapture.Check.Inspection
import SelfCapture.Check.ReferenceType
import SelfCapture.Check.Rule
import SelfCapture.Check.RuleSource
import SelfCapture.Check.SelfUse
import SelfCapture.Check.Setting
import SelfCapture.Check.Verdict
import SelfCapture.Command
import SelfCapture.Files.Sources
import SelfCapture.Files.System
import SelfCapture.Files.Tree
import SelfCapture.Glob.Basic
import SelfCapture.Glob.Reader
import SelfCapture.Grammar.Argument
import SelfCapture.Grammar.Block
import SelfCapture.Grammar.Closure
import SelfCapture.Grammar.Control
import SelfCapture.Grammar.Declaration
import SelfCapture.Grammar.DeclarationStart
import SelfCapture.Grammar.Expression
import SelfCapture.Grammar.Phrase
import SelfCapture.Grammar.Repetition
import SelfCapture.Grammar.Skipping
import SelfCapture.Grammar.SourceFile
import SelfCapture.Grammar.Speculation
import SelfCapture.Grammar.State
import SelfCapture.Grammar.TypeName
import SelfCapture.Index.LinkageName
import SelfCapture.Index.Opening
import SelfCapture.Index.Store
import SelfCapture.Index.Symbol
import SelfCapture.Json.Basic
import SelfCapture.Json.Printer
import SelfCapture.Json.Reader
import SelfCapture.Json.Record
import SelfCapture.LogFormat
import SelfCapture.Main
import SelfCapture.Output
import SelfCapture.Path
import SelfCapture.Pattern.CharSet
import SelfCapture.Pattern.Expr
import SelfCapture.Pattern.Property
import SelfCapture.Pattern.Reader
import SelfCapture.Proofs.Check.ClosureArgument
import SelfCapture.Proofs.Check.ClosureType
import SelfCapture.Proofs.Check.Displacement
import SelfCapture.Proofs.Check.EnclosingType
import SelfCapture.Proofs.Check.Inspection
import SelfCapture.Proofs.Check.MemberChain
import SelfCapture.Proofs.Check.ParameterMatch
import SelfCapture.Proofs.Check.SelfUse
import SelfCapture.Proofs.Check.SourceOrder
import SelfCapture.Proofs.Check.Suppression
import SelfCapture.Proofs.Grammar.Balance
import SelfCapture.Proofs.Grammar.BinderTower
import SelfCapture.Proofs.Grammar.BodyBraces
import SelfCapture.Proofs.Grammar.BraceFidelity
import SelfCapture.Proofs.Grammar.Closure
import SelfCapture.Proofs.Grammar.ClosureReading
import SelfCapture.Proofs.Grammar.ClosureSyntax
import SelfCapture.Proofs.Grammar.ConditionBraces
import SelfCapture.Proofs.Grammar.Consumption
import SelfCapture.Proofs.Grammar.Containment
import SelfCapture.Proofs.Grammar.Control
import SelfCapture.Proofs.Grammar.CountedDeclarations
import SelfCapture.Proofs.Grammar.CountedExpressions
import SelfCapture.Proofs.Grammar.CountedRules
import SelfCapture.Proofs.Grammar.Coverage
import SelfCapture.Proofs.Grammar.Declaration
import SelfCapture.Proofs.Grammar.DeclarationReading
import SelfCapture.Proofs.Grammar.DeclarationSyntax
import SelfCapture.Proofs.Grammar.Derivation
import SelfCapture.Proofs.Grammar.Diagnosis
import SelfCapture.Proofs.Grammar.DisplacedRules
import SelfCapture.Proofs.Grammar.DisplacedTexts
import SelfCapture.Proofs.Grammar.Displacement
import SelfCapture.Proofs.Grammar.Ensures
import SelfCapture.Proofs.Grammar.Expression
import SelfCapture.Proofs.Grammar.FirstStatement
import SelfCapture.Proofs.Grammar.Fullness
import SelfCapture.Proofs.Grammar.FunctionReading
import SelfCapture.Proofs.Grammar.LeafTokens
import SelfCapture.Proofs.Grammar.NameReading
import SelfCapture.Proofs.Grammar.Nested
import SelfCapture.Proofs.Grammar.Nesting
import SelfCapture.Proofs.Grammar.NestingBound
import SelfCapture.Proofs.Grammar.PlacedControl
import SelfCapture.Proofs.Grammar.PlacedExpressions
import SelfCapture.Proofs.Grammar.PlacedTrees
import SelfCapture.Proofs.Grammar.PlacedTypes
import SelfCapture.Proofs.Grammar.Placement
import SelfCapture.Proofs.Grammar.Placing
import SelfCapture.Proofs.Grammar.Ranges
import SelfCapture.Proofs.Grammar.Rescanning
import SelfCapture.Proofs.Grammar.SkippedBraces
import SelfCapture.Proofs.Grammar.Skipping
import SelfCapture.Proofs.Grammar.SourceFile
import SelfCapture.Proofs.Grammar.SourceOrder
import SelfCapture.Proofs.Grammar.Speculation
import SelfCapture.Proofs.Grammar.Tidiness
import SelfCapture.Proofs.Grammar.TypeName
import SelfCapture.Proofs.Grammar.TypeParts
import SelfCapture.Proofs.Grammar.TypeReading
import SelfCapture.Proofs.Grammar.TypeSyntax
import SelfCapture.Proofs.Grammar.TypedExpressions
import SelfCapture.Proofs.Grammar.TypedTrees
import SelfCapture.Proofs.Grammar.Typing
import SelfCapture.Proofs.Grammar.Wording
import SelfCapture.Proofs.Index.Brackets
import SelfCapture.Proofs.Index.LinkageName
import SelfCapture.Proofs.Index.Matching
import SelfCapture.Proofs.Index.Pairing
import SelfCapture.Proofs.Index.Qualifier
import SelfCapture.Proofs.Index.Store
import SelfCapture.Proofs.Json.RoundTrip
import SelfCapture.Proofs.Path.Components
import SelfCapture.Proofs.Path.NormalForm
import SelfCapture.Proofs.Path.Spelling
import SelfCapture.Proofs.Run.Output
import SelfCapture.Proofs.Run.Report
import SelfCapture.Proofs.Text.Boundary
import SelfCapture.Proofs.Text.Characters
import SelfCapture.Proofs.Text.Displacement
import SelfCapture.Proofs.Text.Excerpt
import SelfCapture.Proofs.Text.LineBreaks
import SelfCapture.Proofs.Text.LineMap
import SelfCapture.Proofs.Text.Window
import SelfCapture.Proofs.Token.Alignment
import SelfCapture.Proofs.Token.Braces
import SelfCapture.Proofs.Token.Checkpoints
import SelfCapture.Proofs.Token.Displacement
import SelfCapture.Proofs.Token.Extent
import SelfCapture.Proofs.Token.Interpolation
import SelfCapture.Proofs.Token.LexemeKinds
import SelfCapture.Proofs.Token.LineBreaks
import SelfCapture.Proofs.Token.Spelling
import SelfCapture.Proofs.Token.Streams
import SelfCapture.Proofs.Token.Tiling
import SelfCapture.Proofs.Tree.Growth
import SelfCapture.Proofs.Tree.Loops
import SelfCapture.Proofs.Tree.Preorder
import SelfCapture.Proofs.Tree.Schema
import SelfCapture.Proofs.Tree.Traversal
import SelfCapture.Report
import SelfCapture.Run
import SelfCapture.Settings
import SelfCapture.Text.CaseFold
import SelfCapture.Text.Category
import SelfCapture.Text.CharClass
import SelfCapture.Text.Hex
import SelfCapture.Text.LineMap
import SelfCapture.Text.Script
import SelfCapture.Text.Window
import SelfCapture.Token.Basic
import SelfCapture.Token.Kind
import SelfCapture.Token.Lexeme
import SelfCapture.Token.Quoted
import SelfCapture.Token.Scanner
import SelfCapture.Token.Trivia
import SelfCapture.Tree.Basic
import SelfCapture.Tree.Form
import SelfCapture.Tree.Outline
import SelfCapture.Tree.Query
import SelfCapture.Tree.Walk
import SelfCapture.Yaml.Cursor
import SelfCapture.Yaml.Node
import SelfCapture.Yaml.Property
import SelfCapture.Yaml.Scalar
import SelfCapture.Yaml.Scanner
import SelfCapture.Yaml.Token

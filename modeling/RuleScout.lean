import RuleScout.Config.Merge
import RuleScout.Config.Schema
import RuleScout.Config.Search
import RuleScout.Discovery.Session
import RuleScout.Files.Search
import RuleScout.Main
import RuleScout.Proofs.BraceContexts
import RuleScout.Proofs.BracedText
import RuleScout.Proofs.Brackets
import RuleScout.Proofs.ByteLexer
import RuleScout.Proofs.Cancellation
import RuleScout.Proofs.CandidateList
import RuleScout.Proofs.CodeView
import RuleScout.Proofs.Codec
import RuleScout.Proofs.CompetingStyles
import RuleScout.Proofs.Completed
import RuleScout.Proofs.ConfigInForce
import RuleScout.Proofs.DeclaredOnce
import RuleScout.Proofs.Discovery
import RuleScout.Proofs.Enclosing
import RuleScout.Proofs.ExactWidths
import RuleScout.Proofs.Excerpts
import RuleScout.Proofs.FindingPlaces
import RuleScout.Proofs.Independence
import RuleScout.Proofs.Init
import RuleScout.Proofs.Lexeme
import RuleScout.Proofs.LineFacts
import RuleScout.Proofs.LinePlaces
import RuleScout.Proofs.LintAfterInit
import RuleScout.Proofs.Literal
import RuleScout.Proofs.LocationPaths
import RuleScout.Proofs.Locations
import RuleScout.Proofs.Matching
import RuleScout.Proofs.MaximalMunch
import RuleScout.Proofs.MendedSemicolons
import RuleScout.Proofs.Mending
import RuleScout.Proofs.Merging
import RuleScout.Proofs.Navigation
import RuleScout.Proofs.NearestConfig
import RuleScout.Proofs.ObjectProduct
import RuleScout.Proofs.OptionTuples
import RuleScout.Proofs.PathSets
import RuleScout.Proofs.Paths
import RuleScout.Proofs.PatternNames
import RuleScout.Proofs.PatternUnion
import RuleScout.Proofs.Positions
import RuleScout.Proofs.Progress
import RuleScout.Proofs.Recommended
import RuleScout.Proofs.Reindentation
import RuleScout.Proofs.SameCode
import RuleScout.Proofs.SelectedPaths
import RuleScout.Proofs.Substitutions
import RuleScout.Proofs.Surroundings
import RuleScout.Proofs.Template
import RuleScout.Proofs.TemplateGrammar
import RuleScout.Proofs.Terminators
import RuleScout.Proofs.Tokens
import RuleScout.Proofs.TrailingSpaces
import RuleScout.Proofs.TreeWrites
import RuleScout.Proofs.WidthBounds
import RuleScout.Proofs.WithReturns
import RuleScout.Text.Casing

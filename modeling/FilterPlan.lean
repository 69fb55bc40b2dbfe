import FilterPlan.Text.Blank
import FilterPlan.Text.Unsigned
import FilterPlan.Word
import FilterPlan.Json
import FilterPlan.Json.Token
import FilterPlan.Json.Reader
import FilterPlan.Json.Skim
import FilterPlan.Json.Printer
import FilterPlan.OrderedSet
import FilterPlan.NameMap
import FilterPlan.Identity
import FilterPlan.Plan
import FilterPlan.Plan.Path
import FilterPlan.Plan.Trail
import FilterPlan.Failure
import FilterPlan.Plan.Fault
import FilterPlan.Plan.Document
import FilterPlan.Sha256
import FilterPlan.Plan.Fingerprint
import FilterPlan.Policy
import FilterPlan.Store
import FilterPlan.Store.Merge
import FilterPlan.Toml
import FilterPlan.Config
import FilterPlan.Catalog
import FilterPlan.Schema
import FilterPlan.Metrics
import FilterPlan.RunError
import FilterPlan.Deadline
import FilterPlan.Journal
import FilterPlan.Action
import FilterPlan.Resolver
import FilterPlan.Registry
import FilterPlan.Evaluation
import FilterPlan.Pipeline
import FilterPlan.Manager
import FilterPlan.Fixtures
import FilterPlan.CommandLine
import FilterPlan.CommandLine.Words
import FilterPlan.Main
import FilterPlan.Proofs.OrderedSet
import FilterPlan.Proofs.Registry
import FilterPlan.Proofs.Action
import FilterPlan.Proofs.Trail
import FilterPlan.Proofs.Positions
import FilterPlan.Proofs.Walk
import FilterPlan.Proofs.Store
import FilterPlan.Proofs.Results
import FilterPlan.Proofs.Merge
import FilterPlan.Proofs.NodeMerge
import FilterPlan.Proofs.Value
import FilterPlan.Proofs.Evaluation
import FilterPlan.Proofs.Steady
import FilterPlan.Proofs.Placement
import FilterPlan.Proofs.Meaning
import FilterPlan.Proofs.Reading
import FilterPlan.Proofs.Missing
import FilterPlan.Proofs.StackMerge
import FilterPlan.Proofs.Lookup
import FilterPlan.Proofs.WriteOnce
import FilterPlan.Proofs.JsonText
import FilterPlan.Proofs.Grammar
import FilterPlan.Proofs.Defects
import FilterPlan.Proofs.PlanDocument
import FilterPlan.Proofs.Story
import FilterPlan.Proofs.Metrics
import FilterPlan.Proofs.Session
import FilterPlan.Proofs.Likeness
import FilterPlan.Proofs.Brackets
import FilterPlan.Proofs.Levels
import FilterPlan.Proofs.Queries
import FilterPlan.Proofs.Nesting
import FilterPlan.Proofs.Accounts
import FilterPlan.Proofs.Telling
import FilterPlan.Proofs.Vetting
import FilterPlan.Proofs.Unskipped
import FilterPlan.Proofs.FilterCheck
import FilterPlan.Proofs.Fingerprint
import FilterPlan.Proofs.FirstFlaw
import FilterPlan.Proofs.Rearranged
import FilterPlan.Proofs.RewritingLaws
import FilterPlan.Proofs.Attempts
import FilterPlan.Proofs.Trials
import FilterPlan.Proofs.Course
import FilterPlan.Proofs.Bids
import FilterPlan.Proofs.Planning
import FilterPlan.Proofs.Timely
import FilterPlan.Proofs.Expiry
import FilterPlan.Proofs.Punctual
import FilterPlan.Proofs.Deadline
import FilterPlan.Proofs.TimedOut
import FilterPlan.Proofs.Blank
import FilterPlan.Proofs.IdentityText
import FilterPlan.Proofs.Blame
import FilterPlan.Proofs.PathText
import FilterPlan.Proofs.NestedFailures
import FilterPlan.Proofs.EventOrder
import FilterPlan.Proofs.NameMap
import FilterPlan.Proofs.NameIndex
import FilterPlan.Proofs.Selection
import FilterPlan.Proofs.Numeral
import FilterPlan.Proofs.Environment
import FilterPlan.Proofs.LoneLeaf
import FilterPlan.Proofs.FixtureTable
import FilterPlan.Proofs.FixtureAnswers
import FilterPlan.Proofs.PrettyText
import FilterPlan.Proofs.SchemaDocument
import FilterPlan.Proofs.Shape
import FilterPlan.Proofs.ParentLinks

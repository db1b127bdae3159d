import ContextSets.Closure
import ContextSets.Command.Basic
import ContextSets.Command.Editing
import ContextSets.Command.Embed
import ContextSets.Command.Reports
import ContextSets.Command.Run
import ContextSets.Command.Search
import ContextSets.CommandLine.Arguments
import ContextSets.CommandLine.Forms
import ContextSets.CommandLine.Run
import ContextSets.Config
import ContextSets.ContextSet
import ContextSets.Declaration.Analysis
import ContextSets.Declaration.Forms
import ContextSets.Declaration.Language
import ContextSets.Digest.Sha256
import ContextSets.Document
import ContextSets.Embedding.Batch
import ContextSets.Embedding.Cache
import ContextSets.Embedding.Entry
import ContextSets.Embedding.Error
import ContextSets.Embedding.Features
import ContextSets.Embedding.Fingerprint
import ContextSets.Embedding.Index
import ContextSets.Embedding.Provider
import ContextSets.Embedding.Remote
import ContextSets.Embedding.Similarity
import ContextSets.Files.Fault
import ContextSets.Files.Folder
import ContextSets.Files.Path
import ContextSets.Files.System
import ContextSets.Files.Tree
import ContextSets.Json.Decoder
import ContextSets.Json.Number
import ContextSets.Json.Printer
import ContextSets.Json.Reader
import ContextSets.Json.Sets
import ContextSets.Json.Value
import ContextSets.Main
import ContextSets.Manifest
import ContextSets.Markdown
import ContextSets.Number.Count
import ContextSets.Number.Decimal
import ContextSets.Number.Order
import ContextSets.Number.Single
import ContextSets.Observed
import ContextSets.Pattern
import ContextSets.Project.Basic
import ContextSets.Project.ConfigFile
import ContextSets.Project.Embedding
import ContextSets.Project.Failure
import ContextSets.Project.Sources
import ContextSets.Project.WorkingCopy
import ContextSets.Ranking.Config
import ContextSets.Ranking.Query
import ContextSets.Ranking.Ranker
import ContextSets.Ranking.Role
import ContextSets.Ranking.Session
import ContextSets.Ranking.Structure
import ContextSets.Reference
import ContextSets.Repository.Basic
import ContextSets.Repository.Files
import ContextSets.Repository.Uses
import ContextSets.Repository.Workflow
import ContextSets.SetError
import ContextSets.SetName
import ContextSets.Table
import ContextSets.Text.Blank
import ContextSets.Text.CodePoints
import ContextSets.Text.Instant
import ContextSets.Text.Letter
import ContextSets.Text.LetterCase
import ContextSets.Text.Lines
import ContextSets.Text.Lowercase
import ContextSets.Text.Occurrence
import ContextSets.Text.Printable
import ContextSets.Text.Quoted
import ContextSets.Tokens
import ContextSets.Toml.Date
import ContextSets.Toml.Decoder
import ContextSets.Toml.Reader
import ContextSets.Toml.Scalar
import ContextSets.Toml.Value
import ContextSets.Proofs.Edit
import ContextSets.Proofs.Search
import ContextSets.Proofs.SetName
import ContextSets.Proofs.Table
import ContextSets.Proofs.Effect
import ContextSets.Proofs.Operation
import ContextSets.Proofs.AllOrNothing
import ContextSets.Proofs.Consistent
import ContextSets.Proofs.Import
import ContextSets.Proofs.Reachable
import ContextSets.Proofs.Closure
import ContextSets.Proofs.Acceptance
import ContextSets.Proofs.RoundTrip
import ContextSets.Proofs.CycleCheck
import ContextSets.Proofs.ClosureFiles
import ContextSets.Proofs.SelfContained
import ContextSets.Proofs.JsonText
import ContextSets.Proofs.JsonForms
import ContextSets.Proofs.FileLists
import ContextSets.Proofs.PathSpelling
import ContextSets.Proofs.ManifestChange
import ContextSets.Proofs.StoredPaths
import ContextSets.Proofs.FreshId
import ContextSets.Proofs.Ensures
import ContextSets.Proofs.ResultOrder
import ContextSets.Proofs.Slots
import ContextSets.Proofs.Calls
import ContextSets.Proofs.CallPrograms
import ContextSets.Proofs.SearchRuns
import ContextSets.Proofs.Published
import ContextSets.Proofs.CacheAnswers
import ContextSets.Proofs.IndexUpdates
import ContextSets.Proofs.IndexedTexts
import ContextSets.Proofs.CacheOperation
import ContextSets.Proofs.FailedUpdate
import ContextSets.Proofs.EntryNames
import ContextSets.Proofs.EntryFiles
import ContextSets.Proofs.StoredCache
import ContextSets.Proofs.MemoryFolder
import ContextSets.Proofs.CacheProvenance
import ContextSets.Proofs.CacheFiles
import ContextSets.Proofs.FiledEntries
import ContextSets.Proofs.SeparateFiles
import ContextSets.Proofs.LastingInvalidation
import ContextSets.Proofs.Places
import ContextSets.Proofs.TreeFiles
import ContextSets.Proofs.AcceptedPaths
import ContextSets.Proofs.SourcePlaces
import ContextSets.Proofs.StoredText
import ContextSets.Proofs.ChangeOperations
import ContextSets.Proofs.SearchSpares
import ContextSets.Proofs.SearchFiles
import ContextSets.Proofs.EditingCommands
import ContextSets.Proofs.Spellings
import ContextSets.Proofs.Renaming
import ContextSets.Proofs.SearchSessions
import ContextSets.Proofs.KeptVectors
import ContextSets.Proofs.VectorUpkeep
import ContextSets.Proofs.VectorRuns
import ContextSets.Proofs.ProviderCommands
import ContextSets.Proofs.VectorCommands
import ContextSets.Proofs.EntryText
import ContextSets.Proofs.PrunedVectors
import ContextSets.Proofs.Preorder
import ContextSets.Proofs.UseChanges
import ContextSets.Proofs.UsedClosures
import ContextSets.Proofs.StableIds
import ContextSets.Proofs.TextLines
import ContextSets.Proofs.LineDeclarations
import ContextSets.Proofs.Truncation
import ContextSets.Proofs.PatternMatches
import ContextSets.Proofs.WholeNames
import ContextSets.Proofs.BestResults
import ContextSets.Proofs.MostSimilar
import ContextSets.Proofs.FirstOccurrences
import ContextSets.Proofs.TextParts
import ContextSets.Proofs.QueryTerms
import ContextSets.Proofs.FittingDeclarations
import ContextSets.Proofs.PrunedFiles
import ContextSets.Proofs.FunctionRefs
import ContextSets.Proofs.Sorting
import ContextSets.Proofs.SetFingerprints
import ContextSets.Proofs.StoredVectors
import ContextSets.Proofs.BatchRuns
import ContextSets.Proofs.BatchReports
import ContextSets.Proofs.BatchPrograms
import ContextSets.Proofs.CancelledBatches
import ContextSets.Proofs.ProjectFiles
import ContextSets.Proofs.RecordedFiles
import ContextSets.Proofs.StoredAgain
import ContextSets.Proofs.GivenPaths
import ContextSets.Proofs.FoundFiles
import ContextSets.Proofs.ScannedFiles
import ContextSets.Proofs.ClosureNotes
import ContextSets.Proofs.TokenCounts
import ContextSets.Proofs.LetterCases
import ContextSets.Proofs.WordParts

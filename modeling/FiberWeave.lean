import FiberWeave.Bytes
import FiberWeave.ClassFile.Annotation
import FiberWeave.ClassFile.Basic
import FiberWeave.ClassFile.Code
import FiberWeave.ClassFile.Cursor
import FiberWeave.ClassFile.ModifiedUtf8
import FiberWeave.ClassFile.Parse
import FiberWeave.ClassFile.Pool
import FiberWeave.ClassFileRef
import FiberWeave.ClassName
import FiberWeave.ClassPath
import FiberWeave.CommandLine.Arguments
import FiberWeave.CommandLine.Parameter
import FiberWeave.CommandLine.Program
import FiberWeave.Config.File
import FiberWeave.Config.Settings
import FiberWeave.Database
import FiberWeave.Database.Entry
import FiberWeave.Database.Suspension
import FiberWeave.Decimal.Binary64
import FiberWeave.Decimal.Shortest
import FiberWeave.Digest
import FiberWeave.Engine.Basic
import FiberWeave.Engine.Command
import FiberWeave.Engine.Failure
import FiberWeave.Engine.Prepared
import FiberWeave.Facts
import FiberWeave.Failure
import FiberWeave.FileTree.Archive
import FiberWeave.FileTree.Basic
import FiberWeave.FileTree.Change
import FiberWeave.FileTree.Listing
import FiberWeave.FileTree.OsError
import FiberWeave.FileTree.Walk
import FiberWeave.Hierarchy
import FiberWeave.Inclusion
import FiberWeave.Json.Error
import FiberWeave.Json.Reader
import FiberWeave.Json.Scalar
import FiberWeave.Json.Value
import FiberWeave.Log
import FiberWeave.Log.Filter
import FiberWeave.Log.Terminal
import FiberWeave.Main
import FiberWeave.MethodLists
import FiberWeave.Path
import FiberWeave.Pipeline
import FiberWeave.Regex.Basic
import FiberWeave.Regex.Brackets
import FiberWeave.Regex.CharSet
import FiberWeave.Regex.Cursor
import FiberWeave.Regex.Escape
import FiberWeave.Regex.Fault
import FiberWeave.Regex.Reader
import FiberWeave.Replace
import FiberWeave.Report
import FiberWeave.Scanner
import FiberWeave.Text.Blank
import FiberWeave.Text.Cut
import FiberWeave.Text.Lines
import FiberWeave.Text.Printable
import FiberWeave.Text.Quoted
import FiberWeave.Text.Utf8
import FiberWeave.Database.Resolver
import FiberWeave.Proofs.Records
import FiberWeave.Proofs.Suspension
import FiberWeave.Proofs.Walks
import FiberWeave.Proofs.Replacement
import FiberWeave.Proofs.Frame
import FiberWeave.Proofs.Treatment
import FiberWeave.Proofs.Classification
import FiberWeave.Proofs.Exchanges
import FiberWeave.Proofs.Progress
import FiberWeave.Proofs.Effects
import FiberWeave.Proofs.Outcomes
import FiberWeave.Proofs.DottedNames
import FiberWeave.Proofs.Locations
import FiberWeave.Proofs.Search
import FiberWeave.Proofs.ClassFile.Format
import FiberWeave.Proofs.ClassFile.Reads
import FiberWeave.Proofs.ClassFile.CodeArrays
import FiberWeave.Proofs.ClassFile.RoundTrip
import FiberWeave.Proofs.ClassFile.Extent
import FiberWeave.Proofs.ClassFile.Nesting
import FiberWeave.Proofs.Revision
import FiberWeave.Proofs.SearchAgain
import FiberWeave.Proofs.Course
import FiberWeave.Proofs.Rereading
import FiberWeave.Proofs.CheckMode
import FiberWeave.Proofs.ClassPathAgain
import FiberWeave.Proofs.Marking
import FiberWeave.Proofs.SecondRun
import FiberWeave.Proofs.Verdicts
import FiberWeave.Proofs.PathOrder
import FiberWeave.Proofs.ClassificationOrder
import FiberWeave.Proofs.RunOrder
import FiberWeave.Proofs.ClassFile.CallSites
import FiberWeave.Proofs.CommonSuperclass
import FiberWeave.Proofs.AllOrNothing
import FiberWeave.Proofs.RuntimeCalls
import FiberWeave.Proofs.ClassFile.Spelling
import FiberWeave.Proofs.ClassFile.Malformed
import FiberWeave.Proofs.Merging
import FiberWeave.Proofs.Growth
import FiberWeave.Proofs.ClassFile.Recognition
import FiberWeave.Proofs.ClassFile.AcceptedCode
import FiberWeave.Proofs.EngineMessages
import FiberWeave.Proofs.ExternalEngine
import FiberWeave.Proofs.Tally
import FiberWeave.Proofs.ImpliedCommand
import FiberWeave.Proofs.TrimmedText
import FiberWeave.Proofs.Inclusion
import FiberWeave.Proofs.JsonTexts
import FiberWeave.Proofs.StoredPolicies
import FiberWeave.Proofs.MethodListings
import FiberWeave.Proofs.PlainPaths
import FiberWeave.Proofs.Dependence
import FiberWeave.Proofs.Confinement
import FiberWeave.Proofs.ClassFile.Words
import FiberWeave.Proofs.ClassFile.WordParser
import FiberWeave.Proofs.ClassFile.WordPool
import FiberWeave.Proofs.ClassFile.WordSafety
import FiberWeave.Proofs.SearchTurns
import FiberWeave.Proofs.ForwardedMessages
import FiberWeave.Proofs.ClassLocations

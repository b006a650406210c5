import GormForge.CommandLine.Run
import GormForge.Emission.Emitter
import GormForge.Emission.Holders
import GormForge.Emission.Pool
import GormForge.Emission.Schedule
import GormForge.Emission.StopFlag
import GormForge.Generation.Run
import GormForge.Go.StructTag
import GormForge.Main
import GormForge.Scaffold.Create
import GormForge.Schema.Connection
import GormForge.Schema.Literal
import GormForge.Schema.Postgres
import GormForge.Schema.TableSet
import GormForge.Wiring.Providers
import GormForge.Proofs.Emission.Steps
import GormForge.Proofs.Emission.Files
import GormForge.Proofs.Emission.Accounting
import GormForge.Proofs.FileTree.Growth
import GormForge.Proofs.FileTree.Directories
import GormForge.Proofs.Emission.Growth
import GormForge.Proofs.Emission.InOrder
import GormForge.Proofs.Emission.Planned
import GormForge.Proofs.FileTree.Filling
import GormForge.Proofs.Emission.Names
import GormForge.Proofs.Emission.Preparation
import GormForge.Proofs.Emission.Independence
import GormForge.Proofs.Template.Builtin
import GormForge.Generation.Schedule
import GormForge.Proofs.FileTree.Parents
import GormForge.Proofs.FileTree.Refill
import GormForge.Proofs.Text.Parts
import GormForge.Proofs.Naming.Structs
import GormForge.Proofs.Generation.Models
import GormForge.Proofs.FileTree.Entries
import GormForge.Proofs.Text.Lines
import GormForge.Proofs.Wiring.Content
import GormForge.Proofs.Wiring.Providers
import GormForge.Proofs.Emission.Keeping
import GormForge.Proofs.Generation.Package
import GormForge.Proofs.Template.Override
import GormForge.Proofs.Generation.Steps
import GormForge.Proofs.Generation.Layout
import GormForge.Proofs.Generation.Again
import GormForge.Proofs.Generation.History
import GormForge.Proofs.Generation.Tables
import GormForge.Proofs.Naming.Skeleton
import GormForge.Proofs.Text.Percent
import GormForge.Proofs.Schema.MysqlDsn
import GormForge.Proofs.FileTree.Nested
import GormForge.Proofs.Wiring.Entry
import GormForge.Proofs.Scaffold.Create
import GormForge.Proofs.Scaffold.Both
import GormForge.Proofs.Scaffold.Keeping
import GormForge.Proofs.FileTree.Contents
import GormForge.Proofs.Emission.Untouched
import GormForge.Proofs.Generation.Phases
import GormForge.Proofs.Generation.Failure
import GormForge.Proofs.Wiring.Account
import GormForge.Proofs.Wiring.Again
import GormForge.Proofs.Wiring.Unplaced
import GormForge.Proofs.Wiring.Report
import GormForge.Proofs.Go.Identifier
import GormForge.Proofs.Model.Validation
import GormForge.Proofs.Generation.Targets
import GormForge.Proofs.Generation.Requests
import GormForge.Proofs.Go.Source
import GormForge.Proofs.Template.Expansion
import GormForge.Proofs.Template.Reading
import GormForge.Proofs.Emission.Declarations
import GormForge.Proofs.Scaffold.Declarations
import GormForge.Proofs.Wiring.Constructors
import GormForge.Proofs.Model.Indexes
import GormForge.Proofs.Go.StructTag
import GormForge.Proofs.Model.Tags
import GormForge.Proofs.Schema.Redaction
import GormForge.Proofs.Schema.Refusals
import GormForge.Proofs.Schema.DriverUrls
import GormForge.Proofs.Generation.PackageSetting
import GormForge.Proofs.Generation.PackageDirectory
import GormForge.Proofs.Text.Places
import GormForge.Proofs.Wiring.Edits
import GormForge.Proofs.Wiring.Registration
import GormForge.Proofs.Wiring.Halting
import GormForge.Proofs.Wiring.LineEndings
import GormForge.Proofs.Naming.Exported
import GormForge.Proofs.Emission.Permits
import GormForge.Proofs.Emission.InTurn
import GormForge.Proofs.Naming.IdCasing
import GormForge.Proofs.Naming.Raising
import GormForge.Proofs.Model.Options
import GormForge.Proofs.Model.Defaults
import GormForge.Proofs.Model.Imports
import GormForge.Proofs.Schema.Grouping
import GormForge.Proofs.Schema.KeyPositions
import GormForge.Proofs.Schema.StringDefaults
import GormForge.Proofs.Text.Replacing
import GormForge.Proofs.Scaffold.Stems
import GormForge.Proofs.FileTree.Drafts
import GormForge.Proofs.Emission.Banner
import GormForge.Proofs.Format.Spans
import GormForge.Proofs.Format.Positions
import GormForge.Proofs.FileTree.PathOrder
import GormForge.Proofs.Wiring.WireFiles
import GormForge.Proofs.Schema.RowNumbers

import PhotoImport.Text.Utf8
import PhotoImport.Text.Blank
import PhotoImport.Text.Pieces
import PhotoImport.Path.Confined
import PhotoImport.Path.Suffixed
import PhotoImport.Calendar.Pattern
import PhotoImport.Calendar.Stamp
import PhotoImport.Template.Compile
import PhotoImport.Template.Render
import PhotoImport.Regex.Parser
import PhotoImport.Media.Filter
import PhotoImport.Media.Known
import PhotoImport.Storage.Source
import PhotoImport.Storage.Memory
import PhotoImport.Import.Basic
import PhotoImport.Disk.Basic
import PhotoImport.Disk.Resolve
import PhotoImport.Disk.Transfer
import PhotoImport.Disk.Walk
import PhotoImport.Decimal.Binary64
import PhotoImport.Decimal.Shortest
import PhotoImport.Json.Value
import PhotoImport.Json.Compact
import PhotoImport.Json.Number
import PhotoImport.Json.Token
import PhotoImport.Json.Reader
import PhotoImport.Json.Strict
import PhotoImport.Shell.Script
import PhotoImport.Shell.Token
import PhotoImport.Shell.Reader
import PhotoImport.Shell.Run
import PhotoImport.Program.Run
import PhotoImport.Program.Start
import PhotoImport.Disk.Write
import PhotoImport.Metadata.ExifTool
import PhotoImport.Order.Fields
import PhotoImport.Text.Escape
import PhotoImport.Settings.Value
import PhotoImport.Settings.Numeral
import PhotoImport.Settings.Environment
import PhotoImport.Settings.Toml.Scalar
import PhotoImport.Settings.Toml.Table
import PhotoImport.Settings.Toml.Reader
import PhotoImport.Settings.Yaml.Scalar
import PhotoImport.Settings.Yaml.Flow
import PhotoImport.Settings.Yaml.Reader
import PhotoImport.Settings.Basic
import PhotoImport.Text.Hidden
import PhotoImport.Text.Quoted
import PhotoImport.Template.Describe
import PhotoImport.CommandLine.Arguments
import PhotoImport.CommandLine.Basic
import PhotoImport.Main
import PhotoImport.Proofs.Path.Components
import PhotoImport.Proofs.Path.Confined
import PhotoImport.Proofs.Path.Suffixed
import PhotoImport.Proofs.Path.Order
import PhotoImport.Proofs.Path.Spelling
import PhotoImport.Proofs.Import.Order
import PhotoImport.Proofs.Storage.Action
import PhotoImport.Proofs.Import.Window
import PhotoImport.Proofs.Import.AnyOrder
import PhotoImport.Proofs.Import.Numbering
import PhotoImport.Proofs.Import.NothingLost
import PhotoImport.Proofs.Import.Transfer
import PhotoImport.Proofs.Order.SortedList
import PhotoImport.Proofs.Import.Batch
import PhotoImport.Proofs.Storage.Find
import PhotoImport.Proofs.Import.Destination
import PhotoImport.Proofs.Import.EndToEnd
import PhotoImport.Proofs.Template.Cut
import PhotoImport.Proofs.Template.Marker
import PhotoImport.Proofs.Template.Grammar
import PhotoImport.Proofs.Template.Canonical
import PhotoImport.Proofs.Import.Calls
import PhotoImport.Proofs.Import.Contained
import PhotoImport.Proofs.Import.FolderNumbers
import PhotoImport.Proofs.Decimal.Padded
import PhotoImport.Proofs.Template.Shortened
import PhotoImport.Proofs.Import.NumberedNames
import PhotoImport.Proofs.Import.Runs
import PhotoImport.Proofs.Import.DryRun
import PhotoImport.Proofs.Path.Ending
import PhotoImport.Proofs.Disk.Tree
import PhotoImport.Proofs.Disk.NewFile
import PhotoImport.Proofs.Disk.Resolve
import PhotoImport.Proofs.Disk.NothingReplaced
import PhotoImport.Proofs.Disk.Find
import PhotoImport.Proofs.Disk.SameTree
import PhotoImport.Proofs.Disk.Held
import PhotoImport.Proofs.Import.Alike
import PhotoImport.Proofs.Import.Undated
import PhotoImport.Proofs.Import.SameBatch
import PhotoImport.Proofs.Import.SamePlan
import PhotoImport.Proofs.Import.StandIn
import PhotoImport.Proofs.Import.Dependence
import PhotoImport.Proofs.Text.ByteOrder
import PhotoImport.Proofs.Metadata.Requests
import PhotoImport.Proofs.Metadata.FileArgument
import PhotoImport.Proofs.Storage.Performs
import PhotoImport.Proofs.Import.Search
import PhotoImport.Proofs.Import.CallOrder
import PhotoImport.Proofs.Import.FirstFree
import PhotoImport.Proofs.Import.Boundary
import PhotoImport.Proofs.Import.Shortcuts
import PhotoImport.Proofs.Text.Decoded
import PhotoImport.Proofs.Import.SameFolders
import PhotoImport.Proofs.Disk.NoTrace
import PhotoImport.Proofs.Disk.Reached
import PhotoImport.Proofs.Disk.Worklist
import PhotoImport.Proofs.Disk.Accounts
import PhotoImport.Proofs.Disk.ExactWalk
import PhotoImport.Proofs.Storage.Folders
import PhotoImport.Proofs.Storage.Tree
import PhotoImport.Proofs.Calendar.Pattern
import PhotoImport.Proofs.Storage.Denied
import PhotoImport.Proofs.Calendar.Quoted
import PhotoImport.Proofs.Calendar.Stamp
import PhotoImport.Proofs.Json.Ordered
import PhotoImport.Proofs.Metadata.Document
import PhotoImport.Proofs.Path.Resolution
import PhotoImport.Proofs.Decimal.Order
import PhotoImport.Proofs.Template.Sequence
import PhotoImport.Proofs.Path.Alternative
import PhotoImport.Proofs.Import.Progress

import BlockPlan.Calls
import BlockPlan.Text.Basic
import BlockPlan.Text.Utf8
import BlockPlan.Text.Unicode
import BlockPlan.Text.Case
import BlockPlan.Text.Numeral
import BlockPlan.Decimal.Shortest
import BlockPlan.Decimal.Nearest
import BlockPlan.Value.Basic
import BlockPlan.Value.Show
import BlockPlan.Value.Canonical
import BlockPlan.Value.Graph
import BlockPlan.Json.Basic
import BlockPlan.Json.Read
import BlockPlan.Failure
import BlockPlan.Record.Field
import BlockPlan.Tree.Basic
import BlockPlan.Tree.Read
import BlockPlan.Tree.Load
import BlockPlan.Plan.Values
import BlockPlan.Plan.Expressions
import BlockPlan.Plan.Document
import BlockPlan.Plan.Wire
import BlockPlan.Shell.Words
import BlockPlan.Flags
import BlockPlan.Project
import BlockPlan.Provider
import BlockPlan.Yaml.Fault
import BlockPlan.Yaml.Token
import BlockPlan.Yaml.Event
import BlockPlan.Yaml.Pattern
import BlockPlan.Yaml.Node
import BlockPlan.Yaml.Native
import BlockPlan.Folder
import BlockPlan.Settings
import BlockPlan.Tree.File
import BlockPlan.Cli.Layout
import BlockPlan.Cli.Command
import BlockPlan.Cli.Program
import BlockPlan.Main
import BlockPlan.Proofs.Traversal
import BlockPlan.Proofs.Assembly
import BlockPlan.Proofs.FirstFault
import BlockPlan.Proofs.RoundingInterval
import BlockPlan.Proofs.NumberText
import BlockPlan.Proofs.JsonText
import BlockPlan.Proofs.JsonForm
import BlockPlan.Proofs.SetOrder
import BlockPlan.Proofs.PlanOrder
import BlockPlan.Proofs.ChildGroups
import BlockPlan.Proofs.IndentedText
import BlockPlan.Proofs.CodePoints
import BlockPlan.Proofs.PlanBytes
import BlockPlan.Proofs.NearestDouble
import BlockPlan.Proofs.ScanText
import BlockPlan.Proofs.ReadBack
import BlockPlan.Proofs.Entries
import BlockPlan.Proofs.References
import BlockPlan.Proofs.ProviderTable
import BlockPlan.Proofs.AttributeValues
import BlockPlan.Proofs.Placement
import BlockPlan.Proofs.FlagScan
import BlockPlan.Proofs.AcyclicGraph
import BlockPlan.Proofs.DeepMerge
import BlockPlan.Proofs.MergeInPlace
import BlockPlan.Proofs.ReadCells
import BlockPlan.Proofs.LayeredSettings
import BlockPlan.Proofs.DocumentKeys
import BlockPlan.Proofs.WireFaults
import BlockPlan.Proofs.PlanReadBack
import BlockPlan.Proofs.WrittenText

import ComponentLowering.Main
import ComponentLowering.CommandLine.Run
import ComponentLowering.Batch.Inputs
import ComponentLowering.Batch.FileTree
import ComponentLowering.Batch.Path
import ComponentLowering.Lowering.LoweredModule
import ComponentLowering.Component.Annotation
import ComponentLowering.Code.Snippet
import ComponentLowering.Style.Plan
import ComponentLowering.Lowering.ModuleState
import ComponentLowering.Lowering.CoreImport
import ComponentLowering.Settings.OptionsText
import ComponentLowering.Report.Diagnostic
import ComponentLowering.Report.Failure
import ComponentLowering.Report.Log
import ComponentLowering.Syntax.Printer
import ComponentLowering.Syntax.Detached
import ComponentLowering.Syntax.Operator
import ComponentLowering.Syntax.Printer.Page
import ComponentLowering.Syntax.Tree
import ComponentLowering.Text.Blank
import ComponentLowering.Text.Identifier
import ComponentLowering.Number.Shortest
import ComponentLowering.Syntax.Module
import ComponentLowering.Proofs.StyleLedger
import ComponentLowering.Proofs.Lowering.Layout
import ComponentLowering.Proofs.Lowering.DroppedImports
import ComponentLowering.Proofs.Lowering.SecondRun
import ComponentLowering.Proofs.Style.PlannedStyles
import ComponentLowering.Proofs.Syntax.MadeBlocks
import ComponentLowering.Proofs.Syntax.MadeMembers
import ComponentLowering.Proofs.Lowering.InjectedCode
import ComponentLowering.Proofs.Component.RecordedMembers
import ComponentLowering.Proofs.Lowering.LoweredClasses
import ComponentLowering.Proofs.Lowering.Constructors
import ComponentLowering.Proofs.Lowering.ReplacedMembers
import ComponentLowering.Proofs.Style.FreshSheets
import ComponentLowering.Proofs.Lowering.DeclaredNames
import ComponentLowering.Proofs.Lowering.ReportAndMoves
import ComponentLowering.Proofs.Lowering.ClassForms
import ComponentLowering.Proofs.Lowering.KeptImports
import ComponentLowering.Proofs.Lowering.MovedComments
import ComponentLowering.Proofs.Lowering.CommentPlaces
import ComponentLowering.Proofs.Syntax.ReadClasses
import ComponentLowering.Proofs.Lowering.Refusals
import ComponentLowering.Proofs.Lowering.MemberLayout
import ComponentLowering.Proofs.Component.Remarks
import ComponentLowering.Proofs.Lowering.Accounting
import ComponentLowering.Proofs.Lowering.FieldMoves
import ComponentLowering.Proofs.Lowering.MoveChains
import ComponentLowering.Proofs.Batch.SortedPaths
import ComponentLowering.Proofs.Batch.FileSystems
import ComponentLowering.Proofs.Batch.Links
import ComponentLowering.Proofs.CommandLine.Completion
import ComponentLowering.Proofs.Lowering.ReshapedClasses
import ComponentLowering.Proofs.Component.StyleReferences
import ComponentLowering.Proofs.Lowering.ElementGetters
import ComponentLowering.Proofs.Lowering.PrunedImports
import ComponentLowering.Proofs.Lowering.ModuleScope
import ComponentLowering.Proofs.Runtime.SharedInternals
import ComponentLowering.Proofs.Style.FreeSuffixes
import ComponentLowering.Proofs.Style.BindableNames
import ComponentLowering.Proofs.Style.KeyOrder
import ComponentLowering.Proofs.Lowering.HeaderComments
import ComponentLowering.Proofs.Lowering.SentMessages
import ComponentLowering.Proofs.Batch.InsidePaths
import ComponentLowering.Proofs.CommandLine.SharedTargets
import ComponentLowering.Proofs.Lowering.CarriedStrings
import ComponentLowering.Proofs.Batch.Expansion
import ComponentLowering.Proofs.Batch.NamedFiles
import ComponentLowering.Proofs.CommandLine.EffectiveOptions
import ComponentLowering.Proofs.Settings.ReadOptions
import ComponentLowering.Proofs.Lowering.SpelledNames
import ComponentLowering.Proofs.Lowering.NodePlaces

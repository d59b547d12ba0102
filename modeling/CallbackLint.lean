import CallbackLint.Analysis
import CallbackLint.Bindings
import CallbackLint.CommandLine
import CallbackLint.CommandLine.Run
import CallbackLint.Contract
import CallbackLint.Declaration
import CallbackLint.Declaration.OfNode
import CallbackLint.FileTree
import CallbackLint.FileTree.Collect
import CallbackLint.Finding
import CallbackLint.Finding.Fault
import CallbackLint.Finding.Record
import CallbackLint.Finding.Sink
import CallbackLint.Forwarding
import CallbackLint.Imports
import CallbackLint.Java.Grammar
import CallbackLint.Java.Parse
import CallbackLint.Java.Pattern
import CallbackLint.Java.Token
import CallbackLint.Main
import CallbackLint.Name
import CallbackLint.Path
import CallbackLint.Proofs.Address
import CallbackLint.Proofs.Agreement
import CallbackLint.Proofs.Bindings
import CallbackLint.Proofs.Census
import CallbackLint.Proofs.Collection
import CallbackLint.Proofs.Comments
import CallbackLint.Proofs.CompanionCall
import CallbackLint.Proofs.Correspondence
import CallbackLint.Proofs.DeclaredType
import CallbackLint.Proofs.Decoding
import CallbackLint.Proofs.Denotation
import CallbackLint.Proofs.DottedName
import CallbackLint.Proofs.Excerpt
import CallbackLint.Proofs.Extraction
import CallbackLint.Proofs.FileTree
import CallbackLint.Proofs.FolderRun
import CallbackLint.Proofs.Formatting
import CallbackLint.Proofs.ImportIndependence
import CallbackLint.Proofs.ImportTable
import CallbackLint.Proofs.Interleaving
import CallbackLint.Proofs.LocalScope
import CallbackLint.Proofs.MemberOrder
import CallbackLint.Proofs.Members
import CallbackLint.Proofs.NestedCode
import CallbackLint.Proofs.Offence
import CallbackLint.Proofs.PathText
import CallbackLint.Proofs.Placement
import CallbackLint.Proofs.PlainReport
import CallbackLint.Proofs.Pool
import CallbackLint.Proofs.Pruning
import CallbackLint.Proofs.QualifiedReceiver
import CallbackLint.Proofs.ReceiverChain
import CallbackLint.Proofs.Relisting
import CallbackLint.Proofs.ReportMarkup
import CallbackLint.Proofs.ReportOrder
import CallbackLint.Proofs.ReportTotals
import CallbackLint.Proofs.SelfCall
import CallbackLint.Proofs.Shadowing
import CallbackLint.Proofs.SharedSink
import CallbackLint.Proofs.StrictRun
import CallbackLint.Proofs.Verdict
import CallbackLint.Proofs.Visibility
import CallbackLint.Report.Console
import CallbackLint.Report.Layout
import CallbackLint.Report.Markup
import CallbackLint.Report.Order
import CallbackLint.Report.Plain
import CallbackLint.Report.Print
import CallbackLint.Scope
import CallbackLint.Source
import CallbackLint.Text.Blank
import CallbackLint.Text.Integer
import CallbackLint.Text.Likeness
import CallbackLint.Text.Line
import CallbackLint.Text.Quoted
import CallbackLint.Text.Terminal
import CallbackLint.Text.Upper
import CallbackLint.Text.Utf8
import CallbackLint.Text.WordChar
import CallbackLint.Tree

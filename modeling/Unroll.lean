import Unroll.CallStack
import Unroll.CallStack.History
import Unroll.Checked
import Unroll.CommandLine
import Unroll.CommandLine.Parameter
import Unroll.CommandLine.Parse
import Unroll.Config
import Unroll.Config.Document
import Unroll.Config.Json
import Unroll.Config.Load
import Unroll.Double
import Unroll.Double.Arithmetic
import Unroll.Double.Fixed
import Unroll.Double.Parse
import Unroll.Double.Shortest
import Unroll.Execution
import Unroll.Fibonacci
import Unroll.Fibonacci.Recursive
import Unroll.Fibonacci.Traced
import Unroll.Fibonacci.Unrolled
import Unroll.Host
import Unroll.Host.FileTree
import Unroll.Json
import Unroll.Json.Decode
import Unroll.Json.Parse
import Unroll.Log
import Unroll.Log.Directive
import Unroll.Log.Filter
import Unroll.Main
import Unroll.Measurement
import Unroll.Method
import Unroll.Path
import Unroll.Program
import Unroll.Proofs.Agreement
import Unroll.Proofs.Arguments
import Unroll.Proofs.CallFrame
import Unroll.Proofs.CallOrder
import Unroll.Proofs.CallStack
import Unroll.Proofs.CallTree
import Unroll.Proofs.FieldTree
import Unroll.Proofs.Fields
import Unroll.Proofs.FoldedText
import Unroll.Proofs.Gating
import Unroll.Proofs.JsonForm
import Unroll.Proofs.JsonNumber
import Unroll.Proofs.JsonText
import Unroll.Proofs.LargeIndex
import Unroll.Proofs.Layering
import Unroll.Proofs.ListingOrder
import Unroll.Proofs.Measuring
import Unroll.Proofs.MethodLists
import Unroll.Proofs.NameGrammar
import Unroll.Proofs.Names
import Unroll.Proofs.NegativeNumbers
import Unroll.Proofs.Override
import Unroll.Proofs.PendingDepth
import Unroll.Proofs.Places
import Unroll.Proofs.PlainText
import Unroll.Proofs.Recursion
import Unroll.Proofs.ReportJson
import Unroll.Proofs.ReportText
import Unroll.Proofs.Reprint
import Unroll.Proofs.Requests
import Unroll.Proofs.Run
import Unroll.Proofs.SlotHistory
import Unroll.Proofs.TomlText
import Unroll.Proofs.TracedWalk
import Unroll.Proofs.UnknownSettings
import Unroll.Proofs.Walk
import Unroll.Proofs.WrittenDocument
import Unroll.Report
import Unroll.Session
import Unroll.Setting
import Unroll.Setting.Decode
import Unroll.Setting.KeyPath
import Unroll.Setting.Layer
import Unroll.Setting.Variables
import Unroll.SignedWord
import Unroll.Text.Alphanumeric
import Unroll.Text.Blank
import Unroll.Text.Case
import Unroll.Text.CharClass
import Unroll.Text.Hex
import Unroll.Text.Integer
import Unroll.Text.Pattern
import Unroll.Text.Pattern.Parse
import Unroll.Text.Quoted
import Unroll.Text.Slice
import Unroll.Text.Split
import Unroll.Text.Terminal
import Unroll.Toml
import Unroll.Toml.Date
import Unroll.Toml.Draft
import Unroll.Toml.Number
import Unroll.Toml.Parse
import Unroll.Toml.Reserved
import Unroll.Toml.Text

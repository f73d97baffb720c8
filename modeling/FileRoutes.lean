import FileRoutes.CommandLine.Run
import FileRoutes.Json.Parser
import FileRoutes.Main
import FileRoutes.Proofs.Options.Declared
import FileRoutes.Proofs.Source.Nesting
import FileRoutes.Service.Respond
import FileRoutes.Proofs.Source.Quoting
import FileRoutes.Proofs.Options.Printed
import FileRoutes.Proofs.FileSystem.Outline
import FileRoutes.Proofs.Analysis.Discovery
import FileRoutes.Proofs.FileSystem.Walk
import FileRoutes.Proofs.FileSystem.Contents
import FileRoutes.Proofs.Analysis.Directory
import FileRoutes.Proofs.Service.Confinement
import FileRoutes.Proofs.FileSystem.RealPath
import FileRoutes.Proofs.Service.Answering
import FileRoutes.Proofs.FileSystem.Leading
import FileRoutes.Proofs.FileSystem.Tree
import FileRoutes.Proofs.UrlPath
import FileRoutes.Proofs.Analysis.File
import FileRoutes.Proofs.Analysis.Listing
import FileRoutes.Proofs.Analysis.Table
import FileRoutes.Proofs.Service.Admission
import FileRoutes.Proofs.Analysis.Isolation
import FileRoutes.Schema.Dump
import FileRoutes.Proofs.Schema.Reading
import FileRoutes.Proofs.Schema.Records
import FileRoutes.Proofs.Schema.Stability
import FileRoutes.Proofs.Options.Valid
import FileRoutes.Proofs.Analysis.OptionsPass
import FileRoutes.Proofs.CommandLine.Arguments
import FileRoutes.Proofs.CommandLine.OptionsPass
import FileRoutes.Proofs.CommandLine.Run
import FileRoutes.Proofs.Json.Tokens
import FileRoutes.Proofs.Json.Roundtrip
import FileRoutes.Proofs.Json.Plain
import FileRoutes.Proofs.Text.Utf8
import FileRoutes.Proofs.CommandLine.Agreement
import FileRoutes.Proofs.UrlPath.Canonical
import FileRoutes.Proofs.UrlPath.Below
import FileRoutes.Proofs.UrlPath.InferredRoot
import FileRoutes.Proofs.UrlPath.Mounting
import FileRoutes.Proofs.Analysis.Mounting
import FileRoutes.Proofs.FileSystem.Writing
import FileRoutes.Proofs.CommandLine.Report
import FileRoutes.Proofs.Service.Rows
import FileRoutes.Proofs.Export.Declarations
import FileRoutes.Proofs.Source.Pieces
import FileRoutes.Proofs.Source.Balance
import FileRoutes.Proofs.Source.Extraction
import FileRoutes.Proofs.Source.Members
import FileRoutes.Proofs.Source.Literals
import FileRoutes.Proofs.Export.Reexports
import FileRoutes.Proofs.Text.Layout
import FileRoutes.Proofs.Export.Layout
import FileRoutes.Proofs.Export.Stability
import FileRoutes.Proofs.Source.Closing
import FileRoutes.Proofs.Source.Entries
import FileRoutes.Proofs.Options.Responses
import FileRoutes.Proofs.Options.Statuses
import FileRoutes.Proofs.Options.Annotated
import FileRoutes.Proofs.Analysis.Summary
import FileRoutes.Proofs.CommandLine.ExitCode
import FileRoutes.Proofs.FileSystem.Lexical
import FileRoutes.Proofs.Text.Utf8.Fault
import FileRoutes.Proofs.Analysis.Reading
import FileRoutes.Proofs.Analysis.Descent
import FileRoutes.Proofs.Text.Runs
import FileRoutes.Proofs.Source.Jumps
import FileRoutes.Proofs.Clock.Calendar
import FileRoutes.Proofs.Clock.Written

import TemplateTiming.CommandLine.Writer
import TemplateTiming.FileConfig.Writer
import TemplateTiming.FileTree
import TemplateTiming.Instant.Reader
import TemplateTiming.Json.Reader
import TemplateTiming.Main
import TemplateTiming.Proofs.Batch
import TemplateTiming.Proofs.Run
import TemplateTiming.Proofs.Reference
import TemplateTiming.Proofs.Result
import TemplateTiming.Proofs.Validation
import TemplateTiming.Proofs.Delivery
import TemplateTiming.Proofs.Ending
import TemplateTiming.Proofs.FileCheck
import TemplateTiming.Proofs.Session
import TemplateTiming.Proofs.JsonReport
import TemplateTiming.Proofs.Arguments
import TemplateTiming.Proofs.MissingInput
import TemplateTiming.Proofs.TomlString
import TemplateTiming.Proofs.TomlLine
import TemplateTiming.Proofs.TomlTable
import TemplateTiming.Proofs.FileText
import TemplateTiming.Proofs.TomlKept
import TemplateTiming.Proofs.FileReference
import TemplateTiming.Proofs.Decoding
import TemplateTiming.Proofs.Path
import TemplateTiming.Proofs.Resolution
import TemplateTiming.Proofs.Trace
import TemplateTiming.Proofs.Mean
import TemplateTiming.Proofs.Formats
import TemplateTiming.Proofs.EmbeddedNul
import TemplateTiming.Proofs.Extension
import TemplateTiming.Proofs.Idempotence
import TemplateTiming.Proofs.StartTime
import TemplateTiming.Proofs.InputSize
import TemplateTiming.Proofs.TextForm
import TemplateTiming.Proofs.Peak

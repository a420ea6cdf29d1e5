import SourceLint.CommandLine.Program
import SourceLint.External.Terminal
import SourceLint.External.Toml.Document
import SourceLint.External.Yaml.Document
import SourceLint.Proofs.Check.AlphaRequirement
import SourceLint.Proofs.Check.AlphaSpec
import SourceLint.Proofs.Check.AlphaSpelling
import SourceLint.Proofs.Check.CodeownersOrder
import SourceLint.Proofs.Check.CondaAnswer
import SourceLint.Proofs.Check.CopyrightComment
import SourceLint.Proofs.Check.LicenseVerdict
import SourceLint.Proofs.Check.MissingLicense
import SourceLint.Proofs.Check.Newlines
import SourceLint.Proofs.Check.Placement
import SourceLint.Proofs.Check.VersionSearch
import SourceLint.Proofs.Codeowners.Mending
import SourceLint.Proofs.Codeowners.Reading
import SourceLint.Proofs.Copyright.Completion
import SourceLint.Proofs.Directive.ByLine
import SourceLint.Proofs.Directive.Leftmost
import SourceLint.Proofs.FileStore.Write
import SourceLint.Proofs.Git.Changes
import SourceLint.Proofs.Lines.Joined
import SourceLint.Proofs.Lines.Partition
import SourceLint.Proofs.Lines.Position
import SourceLint.Proofs.Linter.Splice
import SourceLint.Proofs.Region.Layout
import SourceLint.Proofs.Region.Touching
import SourceLint.Proofs.Report.Proposal
import SourceLint.Proofs.Run.Bytes
import SourceLint.Proofs.Run.Checks
import SourceLint.Proofs.Run.Failure
import SourceLint.Proofs.Run.Fixing
import SourceLint.Proofs.Run.Recall
import SourceLint.Proofs.Shell.OverlongBody
import SourceLint.Proofs.Shell.PlainText
import SourceLint.Proofs.Shell.Sequence
import SourceLint.Proofs.Shell.Unquoting
import SourceLint.Proofs.Toml.Locations
import SourceLint.Proofs.Toml.ScannerEnd

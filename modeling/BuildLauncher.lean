import BuildLauncher.Main
import BuildLauncher.Proofs.Session
import BuildLauncher.Proofs.Launcher.Course
import BuildLauncher.Proofs.Launcher.Run
import BuildLauncher.Proofs.CommandLine.Options
import BuildLauncher.Proofs.Launcher.ExitStatus
import BuildLauncher.Proofs.Environment
import BuildLauncher.Proofs.Launcher.Children
import BuildLauncher.Proofs.Configuration.Spelling
import BuildLauncher.Proofs.Toml.Extension
import BuildLauncher.Proofs.Configuration.Appended
import BuildLauncher.Proofs.Toml.Redefinition
import BuildLauncher.Proofs.Configuration.Redefined
import BuildLauncher.Proofs.CommandLine.Build
import BuildLauncher.Proofs.Identity
import BuildLauncher.Proofs.Configuration.Creation
import BuildLauncher.Proofs.Configuration.Race.Winner
import BuildLauncher.Proofs.Configuration.Calls
import BuildLauncher.Proofs.Launcher.Redirection
import BuildLauncher.Proofs.Environment.Overlays
import BuildLauncher.Proofs.Toolchain.Report
import BuildLauncher.Proofs.Toolchain.Check
import BuildLauncher.Proofs.Failure
import BuildLauncher.Proofs.Launcher.Command
import BuildLauncher.Proofs.Environment.History
import BuildLauncher.Proofs.Identity.Fields
import BuildLauncher.Proofs.Configuration.OutputPath
import BuildLauncher.Proofs.Identity.VersionString
import BuildLauncher.Proofs.Report.Summary
import BuildLauncher.Proofs.Launcher.Unknown
import BuildLauncher.Proofs.Report.Hints
import BuildLauncher.Proofs.Configuration.Interrupted
import BuildLauncher.Proofs.Launcher.Manifest
import BuildLauncher.Proofs.Launcher.Terminals

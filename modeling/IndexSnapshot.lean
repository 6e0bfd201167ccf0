import IndexSnapshot.Settings.Store
import IndexSnapshot.Source
import IndexSnapshot.Client
import IndexSnapshot.Log.Console
import IndexSnapshot.RunOptions
import IndexSnapshot.Settings.Text
import IndexSnapshot.CommandLine.Basic
import IndexSnapshot.CommandLine.Help
import IndexSnapshot.CommandLine.Suggestion
import IndexSnapshot.Table
import IndexSnapshot.CommandLine.Error
import IndexSnapshot.CommandLine.Parser
import IndexSnapshot.CommandLine.Program
import IndexSnapshot.CommandLine.Run
import IndexSnapshot.Main
import IndexSnapshot.Proofs.Version.StandardOrder
import IndexSnapshot.Proofs.Retention.Budget
import IndexSnapshot.Proofs.Source.Isolation
import IndexSnapshot.Proofs.Scan.Outcome
import IndexSnapshot.Proofs.Assembly.Base
import IndexSnapshot.Proofs.Retention.Composition
import IndexSnapshot.Proofs.Version.Sameness
import IndexSnapshot.Proofs.Listing.Cut
import IndexSnapshot.Proofs.Proxy.Login
import IndexSnapshot.Proofs.Settings.Write
import IndexSnapshot.Proofs.Settings.Runs
import IndexSnapshot.Proofs.Scan.Sweeps
import IndexSnapshot.Proofs.Retention.Sorting
import IndexSnapshot.Proofs.Distribution.Convention
import IndexSnapshot.Proofs.Listing.Checksum
import IndexSnapshot.Proofs.Proxy.Priority
import IndexSnapshot.Proofs.Proxy.Credentials
import IndexSnapshot.Proofs.Config.Demands
import IndexSnapshot.Proofs.Settings.Load
import IndexSnapshot.Proofs.Retention.Verdict
import IndexSnapshot.Proofs.Discovery.Names
import IndexSnapshot.Proofs.CommandLine.Delivery
import IndexSnapshot.Proofs.Log.Fields

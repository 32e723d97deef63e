import IncludeOrder.Main
import IncludeOrder.Proofs.Run
import IncludeOrder.Proofs.WriteRun
import IncludeOrder.Proofs.FmtCommand
import IncludeOrder.Proofs.CheckRun
import IncludeOrder.Proofs.SecondRun
import IncludeOrder.Proofs.Layout
import IncludeOrder.Proofs.Collected
import IncludeOrder.Proofs.PathOrder
import IncludeOrder.Proofs.Toml.Arrays
import IncludeOrder.Proofs.SettingsText
import IncludeOrder.Proofs.Growth
import IncludeOrder.Proofs.SettingsFile
import IncludeOrder.Proofs.Abort
import IncludeOrder.Proofs.SetCommand
import IncludeOrder.Proofs.SettingsRuns
import IncludeOrder.Proofs.Stability
import IncludeOrder.Proofs.Scan
import IncludeOrder.Proofs.Classification
import IncludeOrder.Proofs.Splice
import IncludeOrder.Proofs.Gathering
import IncludeOrder.Proofs.MorePatterns
import IncludeOrder.Proofs.Exclusion
import IncludeOrder.Proofs.Assignment
import IncludeOrder.Proofs.Flags
import IncludeOrder.Proofs.Verbosity
import IncludeOrder.Proofs.Elements
import IncludeOrder.Proofs.Shown
import IncludeOrder.Proofs.LineEndings
import IncludeOrder.Proofs.EmptyExtension

import Drumline.Main
import Drumline.Pattern.Format
import Drumline.Proofs.Arrangement.Outcome
import Drumline.Proofs.CommandLine.Run
import Drumline.Proofs.Pattern.RoundTrip
import Drumline.Proofs.Track.Merge
import Drumline.Proofs.FileName.Suffix
import Drumline.Proofs.FileTree.Growth
import Drumline.Proofs.Session.Batch
import Drumline.Proofs.Session.Directory
import Drumline.Proofs.Session.Outputs
import Drumline.Proofs.CommandLine.Preview
import Drumline.Proofs.Session.Faults
import Drumline.Proofs.CommandLine.Status
import Drumline.Proofs.Pattern.Merge
import Drumline.Proofs.Pattern.LetterCase
import Drumline.Proofs.CommandLine.Precedence
import Drumline.Proofs.Session.Closure
import Drumline.Proofs.Arrangement.Grid
import Drumline.Proofs.Arrangement.Grace
import Drumline.Proofs.Arrangement.Turns
import Drumline.Proofs.Arrangement.Limit
import Drumline.Proofs.Arrangement.Flams
import Drumline.Proofs.Pattern.Skipped
import Drumline.Proofs.Options.Loading
import Drumline.Proofs.Session.Absent
import Drumline.Proofs.Track.Acceptance
import Drumline.Proofs.Arrangement.Bars
import Drumline.Proofs.FileName.Extension

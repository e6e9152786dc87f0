import Enrollment.FileTree
import Enrollment.Main
import Enrollment.Proofs.FirstEntry
import Enrollment.Proofs.Room
import Enrollment.Proofs.Calls
import Enrollment.Proofs.Persistence
import Enrollment.Proofs.Transcript
import Enrollment.Proofs.Limit
import Enrollment.Proofs.Utf8
import Enrollment.Proofs.Reading
import Enrollment.Proofs.Output
import Enrollment.Proofs.Variables
import Enrollment.Proofs.Stages
import Enrollment.Proofs.Inert
import Enrollment.Proofs.DistinctKeys
import Enrollment.Proofs.Precedence
import Enrollment.Proofs.Merging
import Enrollment.Proofs.Quotation
import Enrollment.Proofs.Literal
import Enrollment.Proofs.Lines
import Enrollment.Proofs.IdleLines
import Enrollment.Proofs.HeaderText
import Enrollment.Proofs.Rearrangement
import Enrollment.Proofs.Listing
import Enrollment.Proofs.Arguments
import Enrollment.Proofs.SampleRun
import Enrollment.Proofs.Layout
import Enrollment.Proofs.LookAlike
import Enrollment.Proofs.Chronicle
import Enrollment.Proofs.Items
import Enrollment.Proofs.PathText
import Enrollment.Proofs.FileChoice
import Enrollment.Proofs.FileNames
import Enrollment.Proofs.LowerCase
import Enrollment.Proofs.VariableNames
import Enrollment.Proofs.NumberText
import Enrollment.Proofs.VariableText
import Enrollment.Proofs.OneSetting
import Enrollment.Proofs.Blame
import Enrollment.Proofs.ListedSettings
import Enrollment.Proofs.SampleFailure
import Enrollment.Proofs.Repetition
import Enrollment.Proofs.WholeNumbers
import Enrollment.Proofs.Spacing
import Enrollment.Proofs.DateTimes
import Enrollment.Proofs.KeyPaths
import Enrollment.Proofs.Decoding
import Enrollment.Proofs.Enclosure
import Enrollment.Proofs.Nesting

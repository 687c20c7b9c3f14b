import Passcode.Binary64.Basic
import Passcode.Binary64.Decimal
import Passcode.Calibration
import Passcode.Candidate.Basic
import Passcode.Candidate.Extract
import Passcode.Command.Arguments
import Passcode.Command.Folder
import Passcode.Command.Request
import Passcode.Command.Run
import Passcode.Command.Stage
import Passcode.Command.Standard
import Passcode.Command.Tools
import Passcode.Detector
import Passcode.Document.Basic
import Passcode.Document.Printer
import Passcode.Document.Reader
import Passcode.Flags
import Passcode.Journal
import Passcode.Keyword.List
import Passcode.Keyword.Occurrence
import Passcode.Line.Basic
import Passcode.Line.Index
import Passcode.Main
import Passcode.Message
import Passcode.Noise
import Passcode.Proofs.Announcement
import Passcode.Proofs.Binary64.Exact
import Passcode.Proofs.Binary64.Order
import Passcode.Proofs.Binary64.Rounding
import Passcode.Proofs.Binary64.Sums
import Passcode.Proofs.Candidate.Chains
import Passcode.Proofs.Candidate.Cut
import Passcode.Proofs.Candidate.Frame
import Passcode.Proofs.Candidate.Groups
import Passcode.Proofs.Candidate.Laminar
import Passcode.Proofs.Candidate.Maximal
import Passcode.Proofs.Candidate.Shapes
import Passcode.Proofs.Candidate.Single
import Passcode.Proofs.Candidate.Spans
import Passcode.Proofs.Command.Batch
import Passcode.Proofs.Command.Failure
import Passcode.Proofs.Command.Input
import Passcode.Proofs.Command.Layers
import Passcode.Proofs.Command.Seen
import Passcode.Proofs.Command.Stages
import Passcode.Proofs.Command.Standard
import Passcode.Proofs.Confidence
import Passcode.Proofs.Contest
import Passcode.Proofs.Decision
import Passcode.Proofs.Document.Keys
import Passcode.Proofs.Document.Merge
import Passcode.Proofs.Document.Paths
import Passcode.Proofs.Document.Printer
import Passcode.Proofs.Eagerness
import Passcode.Proofs.Explanation
import Passcode.Proofs.Keyword.Centres
import Passcode.Proofs.Keyword.Forms
import Passcode.Proofs.Keyword.List
import Passcode.Proofs.Keyword.Nearby
import Passcode.Proofs.Keyword.Nearest
import Passcode.Proofs.Keyword.Proximity
import Passcode.Proofs.Keyword.SameWords
import Passcode.Proofs.Keyword.Verbatim
import Passcode.Proofs.Line.Assigned
import Passcode.Proofs.Line.Index
import Passcode.Proofs.Line.Shared
import Passcode.Proofs.Links
import Passcode.Proofs.Message
import Passcode.Proofs.Message.Aligned
import Passcode.Proofs.Message.Breaks
import Passcode.Proofs.Message.Framed
import Passcode.Proofs.Message.Limit
import Passcode.Proofs.Message.Words
import Passcode.Proofs.Noise
import Passcode.Proofs.Noise.Cut
import Passcode.Proofs.Noise.Quiet
import Passcode.Proofs.Noise.Remains
import Passcode.Proofs.Pattern.Chains
import Passcode.Proofs.Pattern.Runs
import Passcode.Proofs.Pattern.Scan
import Passcode.Proofs.Pattern.Search
import Passcode.Proofs.Provenance
import Passcode.Proofs.Scores
import Passcode.Proofs.Settings.Bounds
import Passcode.Proofs.Settings.Precedence
import Passcode.Proofs.Settings.Sections
import Passcode.Proofs.Signals
import Passcode.Proofs.Stability
import Passcode.Proofs.Stress.Draws
import Passcode.Proofs.Stress.Messages
import Passcode.Proofs.Stress.Patience
import Passcode.Proofs.Stress.Recovery
import Passcode.Proofs.Text.Cut
import Passcode.Proofs.Text.Encoding
import Passcode.Proofs.Text.Letters
import Passcode.Proofs.Text.Lowercase
import Passcode.Proofs.Text.Lowercase.Aligned
import Passcode.Proofs.Text.Lowercase.Fixed
import Passcode.Proofs.Text.Lowercase.Sigma
import Passcode.Proofs.Text.Maximal
import Passcode.Proofs.Text.Occurrence
import Passcode.Proofs.Text.Runs
import Passcode.Proofs.Text.Selection
import Passcode.Proofs.Text.Words
import Passcode.Proofs.Truncation
import Passcode.Proofs.Vocabulary.Resolution
import Passcode.Proofs.Vocabulary.Taken
import Passcode.Proofs.Winner
import Passcode.Settings.Basic
import Passcode.Settings.Conversion
import Passcode.Settings.Leaf
import Passcode.Settings.Reading
import Passcode.Signal
import Passcode.Stress.Draw
import Passcode.Stress.Message
import Passcode.Stress.Twister
import Passcode.Text.Basic
import Passcode.Text.Blank
import Passcode.Text.ControlSequence
import Passcode.Text.Encoding
import Passcode.Text.Lines
import Passcode.Text.Lowercase
import Passcode.Text.Lowercase.Table
import Passcode.Text.Printable
import Passcode.Text.Quoted
import Passcode.Text.Ranges
import Passcode.Text.Runs
import Passcode.Text.WordChar
import Passcode.Verdict
import Passcode.Vocabulary.Basic
import Passcode.Vocabulary.Bundle
import Passcode.Vocabulary.Chinese
import Passcode.Vocabulary.English
import Passcode.Vocabulary.Locale
import Passcode.Vocabulary.Store

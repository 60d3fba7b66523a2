import Worksheet.Text.Lines
import Worksheet.Number.Fixed
import Worksheet.Number.Read
import Worksheet.Complex
import Worksheet.Directive
import Worksheet.Segment
import Worksheet.Markup
import Worksheet.Fault
import Worksheet.InputQueue
import Worksheet.Settings
import Worksheet.Plot
import Worksheet.Engine.Observed
import Worksheet.Arithmetic.Engine
import Worksheet.Sheet.Step
import Worksheet.Session
import Worksheet.Settings.File
import Worksheet.Proofs.Trajectory
import Worksheet.Proofs.Termination
import Worksheet.Proofs.Balance
import Worksheet.Proofs.BalancedPass
import Worksheet.Proofs.PassedOver
import Worksheet.Proofs.LiveLines
import Worksheet.Proofs.Landing
import Worksheet.Proofs.Structured
import Worksheet.Proofs.ScriptOf
import Worksheet.Proofs.EngineHom
import Worksheet.Proofs.Watched
import Worksheet.Proofs.Placeholders
import Worksheet.Proofs.Reading
import Worksheet.Proofs.Recorder
import Worksheet.Proofs.Alignment
import Worksheet.Proofs.Openings
import Worksheet.Proofs.Origins
import Worksheet.Proofs.Alike
import Worksheet.Proofs.Anchors
import Worksheet.Proofs.DeadLines
import Worksheet.Proofs.Presentation
import Worksheet.Proofs.Coupling
import Worksheet.Proofs.Preview
import Worksheet.Proofs.Breaks
import Worksheet.Proofs.Misfits
import Worksheet.Proofs.Waiting
import Worksheet.Proofs.Plotting
import Worksheet.Proofs.Frames
import Worksheet.Proofs.Cancellation
import Worksheet.Proofs.Refusals
import Worksheet.Proofs.Sessions
import Worksheet.Proofs.Tags
import Worksheet.Proofs.Untagged
import Worksheet.Proofs.Containers
import Worksheet.Proofs.Innermost
import Worksheet.Proofs.Continuing
import Worksheet.Proofs.Quoting
import Worksheet.Proofs.Miscounts
import Worksheet.Proofs.Grammar
import Worksheet.Proofs.Printing
import Worksheet.Proofs.Evaluating
import Worksheet.Proofs.Escaping
import Worksheet.Proofs.Recognizing
import Worksheet.Proofs.LineEndings
import Worksheet.Proofs.OpeningTags
import Worksheet.Proofs.Grounds
import Worksheet.Proofs.Rejections
import Worksheet.Proofs.Cycling

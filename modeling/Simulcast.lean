import Simulcast.Codec.Basic
import Simulcast.Codec.Names
import Simulcast.Encoder.Bench
import Simulcast.Encoder.Fault
import Simulcast.Encoder.Interface
import Simulcast.Encoder.Rack
import Simulcast.Encoder.Synthetic
import Simulcast.Journal
import Simulcast.Main
import Simulcast.Picture.Frame
import Simulcast.Picture.Interleaved
import Simulcast.Picture.Planar
import Simulcast.Rate.Controller
import Simulcast.Rate.LeakyBucket
import Simulcast.Rate.Regulator
import Simulcast.Rate.Request
import Simulcast.Rate.Trial
import Simulcast.Registry.Basic
import Simulcast.Registry.Error
import Simulcast.Registry.Output
import Simulcast.Schedule
import Simulcast.Sender.Action
import Simulcast.Sender.Basic
import Simulcast.Sender.Encoding
import Simulcast.Sender.Operation
import Simulcast.Sender.Registration
import Simulcast.Sender.Stage
import Simulcast.Sender.Traffic
import Simulcast.Simulation.Options
import Simulcast.Simulation.Run
import Simulcast.Time
import Simulcast.Proofs.Encoder.Alike
import Simulcast.Proofs.Picture.Lines
import Simulcast.Proofs.Picture.Deinterleaving
import Simulcast.Proofs.Sender.Stretch
import Simulcast.Proofs.Sender.Sections
import Simulcast.Proofs.Registry.Sound
import Simulcast.Proofs.Sender.Coherent
import Simulcast.Proofs.Sender.Passage
import Simulcast.Proofs.Sender.History
import Simulcast.Proofs.Sender.LateRequest
import Simulcast.Proofs.Traffic.Copies
import Simulcast.Proofs.Traffic.CallSafety
import Simulcast.Proofs.Traffic.Switch
import Simulcast.Proofs.Registry.Outcome
import Simulcast.Registry.Operation
import Simulcast.Proofs.Registry.Lifecycle
import Simulcast.Proofs.Registry.Tenure
import Simulcast.Proofs.Registry.Selection
import Simulcast.Proofs.Traffic.Agreement
import Simulcast.Proofs.Traffic.Pending
import Simulcast.Proofs.Traffic.Origin
import Simulcast.Proofs.Traffic.Continuity
import Simulcast.Proofs.Traffic.ZeroRate
import Simulcast.Proofs.Sender.Targets
import Simulcast.Proofs.Traffic.Vacancy
import Simulcast.Proofs.Sender.Submission
import Simulcast.Proofs.Sender.SmallSteps
import Simulcast.Proofs.Traffic.Accounting
import Simulcast.Proofs.Traffic.Dropping
import Simulcast.Proofs.Journal.Feedback
import Simulcast.Proofs.Sender.LatestFeedback
import Simulcast.Proofs.Traffic.Faring
import Simulcast.Proofs.Traffic.Forestalled
import Simulcast.Proofs.Sender.Courses
import Simulcast.Proofs.Sender.Rates
import Simulcast.Proofs.Traffic.FrameRate
import Simulcast.Proofs.Traffic.LateFeedback
import Simulcast.Proofs.Journal.Ticks
import Simulcast.Proofs.Traffic.Statistics
import Simulcast.Proofs.Sender.Records
import Simulcast.Proofs.Simulation.Books
import Simulcast.Proofs.Simulation.Report
import Simulcast.Proofs.Rate.History
import Simulcast.Proofs.Rate.FrameRate
import Simulcast.Proofs.Rate.Sent
import Simulcast.Proofs.Rate.Draining
import Simulcast.Proofs.Picture.FrameSize
import Simulcast.Proofs.Picture.Returning
import Simulcast.Proofs.Schedule.Lineage
import Simulcast.Proofs.Journal.Output
import Simulcast.Proofs.Registry.Wired
import Simulcast.Proofs.Sender.Wired
import Simulcast.Proofs.Sender.Output
import Simulcast.Proofs.Traffic.Output

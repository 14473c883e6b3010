import GnssLink.Dump.Run
import GnssLink.Link.Script
import GnssLink.Main
import GnssLink.Proofs.Config.Canonical
import GnssLink.Proofs.Config.Split
import GnssLink.Proofs.Frame.RoundTrip
import GnssLink.Proofs.Link.Logged
import GnssLink.Proofs.Session.Abort
import GnssLink.Proofs.Session.Calls
import GnssLink.Proofs.Session.CompleteReads
import GnssLink.Proofs.Session.LateAnswers
import GnssLink.Proofs.Session.Lifecycle
import GnssLink.Proofs.Session.Pages
import GnssLink.Proofs.Stream.Bookkeeping
import GnssLink.Proofs.Stream.Reads
import GnssLink.Proofs.Stream.Segments
import GnssLink.Proofs.Stream.UbxFrames
import GnssLink.Session.Configure
import GnssLink.Session.Detection
import GnssLink.Stored.Session
import GnssLink.Proofs.Link.IdleClock
import GnssLink.Proofs.Session.Waits
import GnssLink.Proofs.Report.WithinPayload
import GnssLink.Proofs.Stream.WithinBuffer
import GnssLink.Proofs.Stream.WithinMessage
import GnssLink.Proofs.Session.Autobaud
import GnssLink.Proofs.Session.Course
import GnssLink.Proofs.Session.FirstAnswer
import GnssLink.Proofs.Session.WriteVerdict
import GnssLink.Proofs.Dump.Delivered
import GnssLink.Proofs.Session.Positions
import GnssLink.Proofs.Config.Refusal
import GnssLink.Proofs.Session.RefusedWrites
import GnssLink.Proofs.Session.AnswerSize
import GnssLink.Proofs.Session.KeptQueue
import GnssLink.Proofs.Config.InPlace
import GnssLink.Proofs.Config.Unreadable
import GnssLink.Proofs.Frame.Damage
import GnssLink.Proofs.Stream.Sentences
import GnssLink.Proofs.Stream.Corrections
import GnssLink.Proofs.Stream.Bursts
import GnssLink.Proofs.Stream.FalseSync
import GnssLink.Proofs.Stream.CorrectionNames
import GnssLink.Proofs.Stream.SizeLimits
import GnssLink.Proofs.Text.Decimals
import GnssLink.Proofs.Report.Rounding
import GnssLink.Proofs.Report.ClockSeconds
import GnssLink.Proofs.Report.SkyOrder
import GnssLink.Proofs.Report.VersionFields
import GnssLink.Proofs.Endpoint.WrittenForm
import GnssLink.Proofs.Dump.Shown

import WsprryPico.Wtp.History
import WsprryPico.Wtp.Replay
import WsprryPico.Standalone.LoadAtomic
import WsprryPico.Standalone.Release
import WsprryPico.Standalone.PowerSafe
import WsprryPico.Provisioning.ResetProgress
import WsprryPico.Time.Arbitration
import WsprryPico.Provisioning.LocalProofs
import WsprryPico.Rf.Render
import WsprryPico.Encoding.Messages
import WsprryPico.Provisioning.Foreign
import WsprryPico.Provisioning.FailClosed
import WsprryPico.Usb.Acknowledged
import WsprryPico.Wtp.DispatchLaw
import WsprryPico.Network.RadioTransactions
import WsprryPico.Network.RadioSessions
import WsprryPico.Wtp.Hold
import WsprryPico.Wtp.LoadReplay
import WsprryPico.Microchrony.Correlation
import WsprryPico.Microchrony.Latches
import WsprryPico.Rf.Quantisation
import WsprryPico.Microchrony.Steps
import WsprryPico.Wtp.Admission
import WsprryPico.Time.Pairing
import WsprryPico.Wtp.LoadStream
import WsprryPico.Rf.Si5351.Events
import WsprryPico.Rf.Si5351.Ordering
import WsprryPico.Encoding.Compiled
import WsprryPico.Standalone.MessageSchedule
import WsprryPico.Encoding.Channel
import WsprryPico.Rf.ReferenceCounter
import WsprryPico.Rf.Coverage
import WsprryPico.Standalone.Retained
import WsprryPico.Standalone.SingleOwner
import WsprryPico.Rf.Rendezvous
import WsprryPico.Standalone.NextStart
import WsprryPico.Provisioning.GattFraming
import WsprryPico.Provisioning.SetupCommit
import WsprryPico.Network.Base64url
import WsprryPico.Network.Mdns
import WsprryPico.Network.OwnerChallenge
import WsprryPico.Rf.Si5351.PlanSafe
import WsprryPico.Rf.Si5351.JobTimes
import WsprryPico.Rf.IndicatorHandshake
import WsprryPico.Wtp.AdjustmentList
import WsprryPico.Wtp.Sha256Stream

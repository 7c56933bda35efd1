import Invigilation.Coordinator.Page
import Invigilation.Main
import Invigilation.Session.Hosted
import Invigilation.Session.Machine
import Invigilation.Worker.Spawned
import Invigilation.Worker.Table
import Invigilation.Proofs.Port.Ending
import Invigilation.Proofs.Port.FarSide
import Invigilation.Proofs.Session.Life
import Invigilation.Proofs.Session.Verdict
import Invigilation.Proofs.Session.Wait
import Invigilation.Proofs.Coordinator.Journey
import Invigilation.Proofs.Coordinator.Sequence
import Invigilation.Proofs.Worker.Accounts
import Invigilation.Proofs.Worker.Dealings
import Invigilation.Proofs.Worker.Dispatch
import Invigilation.Proofs.Message.Intake
import Invigilation.Proofs.Message.Transit
import Invigilation.Proofs.Settings.Options
import Invigilation.Proofs.Page.Calls
import Invigilation.Proofs.Page.Isolation
import Invigilation.Proofs.Page.Warning
import Invigilation.Proofs.Session.Hosted
import Invigilation.Proofs.Worker.Whole
import Invigilation.Proofs.Worker.Streamed
import Invigilation.Proofs.Worker.LineWorker
import Invigilation.Proofs.Page.History
import Invigilation.Proofs.Port.Traffic
import Invigilation.Proofs.Cli.Override
import Invigilation.Proofs.Json.Spelling
import Invigilation.Proofs.Json.Spelling.Strings
import Invigilation.Proofs.Json.Spelling.Numbers
import Invigilation.Proofs.Json.Spelling.Values
import Invigilation.Proofs.Json.Spelling.Limits
import Invigilation.Proofs.Message.Grammar
import Invigilation.Proofs.Attempt.Reading
import Invigilation.Proofs.Client.Agreement
import Invigilation.Proofs.Json.Opening
import Invigilation.Proofs.Settings.Fields
import Invigilation.Proofs.Settings.Padding
import Invigilation.Proofs.Client.Resolution
import Invigilation.Proofs.Coordinator.Ping
import Invigilation.Proofs.Worker.Acknowledging
import Invigilation.Proofs.Client.ErrorBody
import Invigilation.Proofs.Session.Registered

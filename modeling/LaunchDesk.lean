import LaunchDesk.Main
import LaunchDesk.Paper.Stages
import LaunchDesk.Proofs.Bench
import LaunchDesk.Proofs.Bus.Subscriptions
import LaunchDesk.Proofs.Desk.Lobby
import LaunchDesk.Proofs.Floor.WindDown
import LaunchDesk.Proofs.Intake.Places
import LaunchDesk.Proofs.Json.Documents
import LaunchDesk.Proofs.Run.Carried
import LaunchDesk.Proofs.Run.Gains
import LaunchDesk.Proofs.Run.Grace
import LaunchDesk.Proofs.Run.Stores
import LaunchDesk.Proofs.Run.Trips
import LaunchDesk.Proofs.Session.Shutdown
import LaunchDesk.Proofs.Session.Stops
import LaunchDesk.Proofs.Workroom.Limits

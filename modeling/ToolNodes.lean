import ToolNodes.Main
import ToolNodes.Proofs.Client.Answer
import ToolNodes.Proofs.Client.Containment
import ToolNodes.Proofs.Client.Discipline
import ToolNodes.Proofs.CommandLine.OneByOne
import ToolNodes.Proofs.Registry.LastCall
import ToolNodes.Proofs.Registry.Persistence
import ToolNodes.Proofs.Session.CommandWord
import ToolNodes.Proofs.Session.Direct
import ToolNodes.Proofs.Session.History
import ToolNodes.Proofs.Session.Listing
import ToolNodes.Proofs.Session.Offline
import ToolNodes.Proofs.Session.Secrecy
import ToolNodes.Proofs.Session.Unreported
import ToolNodes.Proofs.Registry.Listing
import ToolNodes.Proofs.Client.ToolSegment
import ToolNodes.Proofs.Command.Slash
import ToolNodes.Proofs.Store.Reload
import ToolNodes.Proofs.Client.Alarms
import ToolNodes.Proofs.Tool
import ToolNodes.Proofs.Tool.Envelope
import ToolNodes.Proofs.State.Locality

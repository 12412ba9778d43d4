import FramedLink.Checksum.Serial
import FramedLink.Main
import FramedLink.Ring.Queue
import FramedLink.Settings.Printer
import FramedLink.Proofs.Packet.Assembly
import FramedLink.Proofs.Packet.Grammar
import FramedLink.Proofs.Packet.Composition
import FramedLink.Proofs.Packet.RoundTrip
import FramedLink.Proofs.Receiver.Containment
import FramedLink.Proofs.Endpoint.Outflow
import FramedLink.Proofs.Receiver.Arrival
import FramedLink.Proofs.Endpoint.Answers
import FramedLink.Proofs.Duplex.Exchange
import FramedLink.Proofs.Duplex.ExactlyOnce
import FramedLink.Proofs.Packet.Emission
import FramedLink.Proofs.Endpoint.Writing
import FramedLink.Proofs.Endpoint.Reaction
import FramedLink.Proofs.Endpoint.Course
import FramedLink.Proofs.Endpoint.Record
import FramedLink.Proofs.Endpoint.Conservation
import FramedLink.Proofs.Endpoint.Hearing
import FramedLink.Proofs.Endpoint.Station
import FramedLink.Proofs.Endpoint.Schedule
import FramedLink.Proofs.Endpoint.Replies
import FramedLink.Proofs.Packet.Operation
import FramedLink.Proofs.Packet.Memory
import FramedLink.Proofs.Checksum.Parity
import FramedLink.Proofs.Packet.Damage
import FramedLink.Proofs.Endpoint.Draining
import FramedLink.Proofs.Packet.Filling
import FramedLink.Proofs.Duplex.Drainage
import FramedLink.Proofs.Checksum.Polynomial
import FramedLink.Proofs.Ring.Refinement
import FramedLink.Proofs.Duplex.Carriage
import FramedLink.Proofs.Packet.Renewal
import FramedLink.Proofs.Identity.Forms
import FramedLink.Proofs.Endpoint.Setup
import FramedLink.Proofs.Endpoint.Knowledge
import FramedLink.Proofs.Duplex.Acquaintance
import FramedLink.Proofs.Checksum.Period
import FramedLink.Proofs.Checksum.Linearity
import FramedLink.Proofs.Checksum.Residue
import FramedLink.Proofs.Packet.Detection
import FramedLink.Proofs.Settings.Text
import FramedLink.Proofs.Settings.Lines
import FramedLink.Proofs.Settings.RoundTrip
import FramedLink.Proofs.Receiver.Account
import FramedLink.Proofs.Numerals
import FramedLink.Proofs.Dump.Text
import FramedLink.Proofs.Dump.Recount
import FramedLink.Proofs.Dump.Sources
import FramedLink.Proofs.Dump.Places
import FramedLink.Proofs.Endpoint.Polling
import FramedLink.Proofs.Dump.Agreement
import FramedLink.Proofs.Endpoint.Balance
import FramedLink.Proofs.Dump.Grammar
import FramedLink.Proofs.Dump.Faults
import FramedLink.Proofs.Demo.Transcript
import FramedLink.Proofs.Packet.Storage
import FramedLink.Proofs.Packet.Finality
import FramedLink.Proofs.Packet.Rounds
import FramedLink.Proofs.Packet.Drafting
import FramedLink.Proofs.Settings.Numbers
import FramedLink.Proofs.Endpoint.Peer
import FramedLink.Proofs.Endpoint.Refusal
import FramedLink.Proofs.Receiver.Gaps
import FramedLink.Proofs.Dump.Gaps
import FramedLink.Proofs.Settings.Layout

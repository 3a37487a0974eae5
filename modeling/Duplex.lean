import Duplex.BufferPool.Session
import Duplex.Pipe.Session
import Duplex.Proofs.Connection.Backpressure
import Duplex.Proofs.Connection.Output
import Duplex.Proofs.Connection.Teardown
import Duplex.Proofs.Connection.Verdict
import Duplex.Proofs.ConnectionId
import Duplex.Proofs.Pipe.Copying
import Duplex.Proofs.Pipe.Hysteresis
import Duplex.Proofs.Pipe.Polling
import Duplex.Proofs.Pipe.Surfacing
import Duplex.Proofs.RoutingTable.Linearization
import Duplex.Proofs.Signal
import Duplex.Proofs.Socket.Gathering
import Duplex.Proofs.Socket.Receiving
import Duplex.Proofs.Socket.Splitting
import Duplex.Proofs.Transport.Assignment
import Duplex.Proofs.Transport.Demultiplex
import Duplex.Proofs.Transport.Rebinding
import Duplex.Proofs.Wire.Packet
import Duplex.Proofs.Wire.Varint.Decoding
import Duplex.Proofs.Wire.Varint.Sequence
import Duplex.RoutingTable.Session
import Duplex.Socket.DatagramSession
import Duplex.Socket.StreamSession
import Duplex.Transport.Clients

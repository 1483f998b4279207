import Wirestack.Tcp.StateMachine
import Wirestack.Tcp.ReceiveBounds
import Wirestack.Tcp.FirstArrival
import Wirestack.Tcp.Frames
import Wirestack.Tcp.Episode
import Wirestack.Tcp.ClosedPort
import Wirestack.Tcp.SackTruth
import Wirestack.Tcp.AckSplitting
import Wirestack.Tcp.Backoff
import Wirestack.Tcp.WindowOrder
import Wirestack.Tcp.Limits
import Wirestack.Stack.Acknowledgment
import Wirestack.Wire.Emitted
import Wirestack.Wire.Corruption
import Wirestack.Wire.DottedDecimal
import Wirestack.Dns.Query
import Wirestack.Dns.Retry
import Wirestack.Stack.ClientVerdict
import Wirestack.Http.RequestBuffer
import Wirestack.Http.Stability
import Wirestack.Http.Exchange
import Wirestack.Stack.HandleIpv4

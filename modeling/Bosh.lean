import Bosh.Library.Effect
import Bosh.Library.Chain
import Bosh.Allocator
import Bosh.LinkedList
import Bosh.Hash
import Bosh.Hash.Operations
import Bosh.Http.Parse
import Bosh.Http.Positions
import Bosh.Server.Callbacks
import Bosh.Server.Directory
import Bosh.Server.Owners
import Bosh.Server.Run
import Bosh.Server.Links
import Bosh.Server.Accounts
import Bosh.Server.Order
import Bosh.Bind.Store
import Bosh.Bind.Delivery
import Bosh.Bind.Stream
import Bosh.Server.Upkeep
import Bosh.Socket.Poll
import Bosh.Http.Message
import Bosh.Bind.Opening
import Bosh.Bind.Routing
import Bosh.Http.Framing
import Bosh.Http.Lines
import Bosh.Server.Sockets
import Bosh.Http.Serving
import Bosh.Http.Intake
import Bosh.Bind.Timeout
import Bosh.Bind.Ending
import Bosh.Bind.Payload
import Bosh.Bind.Rejection
import Bosh.Http.Response
import Bosh.Http.Refusal
import Bosh.Bind.OwnBytes
import Bosh.Bind.Patience
import Bosh.Server.Relaying
import Bosh.Server.Memory
import Bosh.Server.Shutdown
import Bosh.Bind.Status
import Bosh.Http.Cutting
import Bosh.Server.Lists
import Bosh.Log
import Bosh.Bind.Lifetime

import Moduo.BackPressure
import Moduo.BufferRefinement
import Moduo.CallbackOrder
import Moduo.Custody
import Moduo.HalfClose
import Moduo.LentMessage
import Moduo.OpenConnection
import Moduo.OutputStream
import Moduo.PollerAgreement
import Moduo.QuitRequest
import Moduo.Retrieval
import Moduo.RoundRobin
import Moduo.ServerConnections
import Moduo.ServerDescriptors
import Moduo.ServerDestruction
import Moduo.ServerPolls
import Moduo.ServerQueues
import Moduo.ServerRest
import Moduo.ServerService
import Moduo.ServerStart
import Moduo.StateOrder
import Moduo.TaskQueue
import Moduo.Teardown
import Moduo.ThreadConfinement
import Moduo.ThreadJoin
import Moduo.WriteEnd

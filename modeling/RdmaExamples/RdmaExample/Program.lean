import RdmaExamples.Messages.Connection

/-!
# The message program

The functions of `rdma_example.c`.  The server waits for a message and answers with one of its own;
the client sends `"Dat"` and waits for the answer.  The connection, and what is behind the labels,
is in `Messages`, since `rdma_test.c` has the same.

A function is what follows the connection, given to `serverStart` and `clientStart`.  So the two
programs differ in these few lines, and in nothing that comes before or after them.
-/

namespace RdmaExample

open Programs Messages

/-- `server_run`, from the connection on. -/
def serverExchange (fuel : ℕ) : MsgM Exit :=
  attemptWait .disconnect (waitRecvComp fuel) <|
  attempt .disconnect rdmaPostSend <|
  lastWait .disconnect (waitSendComp fuel)

/-- `client_run`, from the connection on. -/
def clientExchange (fuel : ℕ) : MsgM Exit :=
  attempt .disconnect rdmaPostSend <|
  attemptWait .disconnect (waitSendComp fuel) <|
  lastWait .disconnect (waitRecvComp fuel)

/-- `server_run`. -/
def serverRun (fuel : ℕ) : MsgM Int := leave .server (serverStart (serverExchange fuel))

/-- `client_run`. -/
def clientRun (fuel : ℕ) : MsgM Int := do
  call (.store .sendMsg 0 dat)
  leave .client (clientStart (clientExchange fuel))

/-- What a side runs. -/
def nodeRun (fuel : ℕ) : Side → MsgM Int
  | .server => serverRun fuel
  | .client => clientRun fuel

end RdmaExample

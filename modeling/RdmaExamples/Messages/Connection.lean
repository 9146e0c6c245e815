import RdmaExamples.Messages.Calls

/-!
# The connection of the two message programs

What `rdma_example.c` and `rdma_test.c` have in common, which is all that comes before the first
message and all that comes after the last one.  `serverStart` and `clientStart` are the beginnings
of `server_run` and `client_run`, up to the connection, and take what follows as an argument.  The
labels at the end of both functions are `goto`, where each label falls through to the next.

`goto_calls` says once what is behind every label, calls that release something and no other, so
that what a label keeps follows from what these few calls keep.

`attempt` is the pattern that both functions are made of: a verb, and a `goto` to a label if it
fails.  With the rest of the function as its argument, a result about a program is put together in
the order of the source.
-/

namespace Messages

open Programs

/-! ## The labels -/

/-- `out_free_addrinfo`. -/
def outFreeAddrinfo : MsgM Unit := call .freeaddrinfo

/-- `out_destroy_listen_ep`, and what follows it. -/
def outDestroyListenEp : MsgM Unit := do
  call .destroyListenEp
  outFreeAddrinfo

/-- `out_destroy_accept_ep` of the server and `out_destroy_ep` of the client, and what follows. -/
def outDestroyEp (side : Side) : MsgM Unit := do
  call .destroyEp
  match side with
  | .server => outDestroyListenEp
  | .client => outFreeAddrinfo

/-- `out_dereg_recv`, and what follows it. -/
def outDeregRecv (side : Side) : MsgM Unit := do
  let _ ← call (.deregMr .recvMsg)
  outDestroyEp side

/-- `out_dereg_send`, and what follows it. -/
def outDeregSend (side : Side) : MsgM Unit := do
  let sendInline ← get
  if sendInline = false then do
    let _ ← call (.deregMr .sendMsg)
    outDeregRecv side
  else outDeregRecv side

/-- `out_disconnect`, and what follows it. -/
def outDisconnect (side : Side) : MsgM Unit := do
  let _ ← call .disconnect
  outDeregSend side

/-- `out_dereg_rdma_mr`, and what follows it; only `client_run` of `rdma_test.c` has it. -/
def outDeregRdmaMr (side : Side) : MsgM Unit := do
  let _ ← call (.deregMr .rdmaBuff)
  outDisconnect side

/-- What a function does from a label on. -/
def goto (side : Side) : Label → MsgM Unit
  | .deregRdmaMr => outDeregRdmaMr side
  | .disconnect => outDisconnect side
  | .deregSend => outDeregSend side
  | .deregRecv => outDeregRecv side
  | .destroyEp => outDestroyEp side
  | .destroyListenEp => outDestroyListenEp
  | .freeAddrinfo => outFreeAddrinfo
  | .out => return ()

/-- A function that leaves by one of its labels. -/
def leave (side : Side) (body : MsgM Exit) : MsgM Int := do
  let exit ← body
  goto side exit.label
  return exit.ret

/-- The calls with which a function releases what it has. -/
def Call.Teardown : Call → Prop
  | .disconnect => True
  | .deregMr buf => buf ≠ .buffLocalSend
  | .destroyEp => True
  | .destroyListenEp => True
  | .freeaddrinfo => True
  | _ => False

section

open Monitors

variable {side : Side} {sendInline : Bool}

/-- These calls, without the one that gives up the connection. -/
def Call.Releases (c : Call) : Prop := c.Teardown ∧ c ≠ .disconnect

lemma deregMr_releases {buf : Buffer} (hbuf : buf ≠ .buffLocalSend) :
    Call.Releases (.deregMr buf) := ⟨hbuf, by simp⟩

lemma outFreeAddrinfo_calls : Obeys (watch Call.Releases) (fun _ _ => True)
    (outFreeAddrinfo.run sendInline) () :=
  Obeys.perform ⟨trivial, by simp⟩ fun _ _ => trivial

lemma outDestroyListenEp_calls : Obeys (watch Call.Releases) (fun _ _ => True)
    (outDestroyListenEp.run sendInline) () :=
  Obeys.perform_bind ⟨trivial, by simp⟩ fun _ _ => outFreeAddrinfo_calls

lemma outDestroyEp_calls : Obeys (watch Call.Releases) (fun _ _ => True)
    ((outDestroyEp side).run sendInline) () := by
  refine Obeys.perform_bind ⟨trivial, by simp⟩ fun _ _ => ?_
  cases side with
  | server => exact outDestroyListenEp_calls
  | client => exact outFreeAddrinfo_calls

lemma outDeregRecv_calls : Obeys (watch Call.Releases) (fun _ _ => True)
    ((outDeregRecv side).run sendInline) () :=
  Obeys.perform_bind (deregMr_releases (by simp)) fun _ _ => outDestroyEp_calls

lemma outDeregSend_calls : Obeys (watch Call.Releases) (fun _ _ => True)
    ((outDeregSend side).run sendInline) () := by
  refine Obeys.get_bind (Obeys.ite (fun _ => ?_) fun _ => outDeregRecv_calls)
  exact Obeys.perform_bind (deregMr_releases (by simp)) fun _ _ => outDeregRecv_calls

/-- What only releases, only tears down. -/
lemma teardown_of_releases {m : MsgM Unit}
    (h : Obeys (watch Call.Releases) (fun _ _ => True) (m.run sendInline) ()) :
    Obeys (watch Call.Teardown) (fun _ _ => True) (m.run sendInline) () :=
  (Obeys.of_watch (J := fun _ => True) (fun _ _ _ hc => ⟨hc.1, fun _ => trivial⟩) h
    trivial).weaken fun _ _ _ => trivial

lemma outDisconnect_calls : Obeys (watch Call.Teardown) (fun _ _ => True)
    ((outDisconnect side).run sendInline) () :=
  Obeys.perform_bind trivial fun _ _ => teardown_of_releases outDeregSend_calls

/-- A label only tears down. -/
lemma goto_calls (label : Label) : Obeys (watch Call.Teardown) (fun _ _ => True)
    ((goto side label).run sendInline) () := by
  cases label with
  | deregRdmaMr =>
      exact Obeys.perform_bind (deregMr_releases (by simp)).1 fun _ _ => outDisconnect_calls
  | disconnect => exact outDisconnect_calls
  | deregSend => exact teardown_of_releases outDeregSend_calls
  | deregRecv => exact teardown_of_releases outDeregRecv_calls
  | destroyEp => exact teardown_of_releases outDestroyEp_calls
  | destroyListenEp => exact teardown_of_releases outDestroyListenEp_calls
  | freeAddrinfo => exact teardown_of_releases outFreeAddrinfo_calls
  | out => exact Obeys.pure trivial

end

/-! ## The connection -/

/-- What both sides do with `cap.max_inline_data`. -/
def setSendFlags (maxInlineData : UInt32) : MsgM Unit :=
  modify fun sendInline => if 16 ≤ maxInlineData then true else sendInline

/-- `ibv_query_qp`, and what `server_run` makes of it. -/
def queryCaps (rest : MsgM Exit) : MsgM Exit := do
  let caps ← call .queryQp
  if caps.1 ≠ 0 then return ⟨.destroyEp, caps.1⟩
  else do
    setSendFlags caps.2
    rest

/-- `rdma_create_ep`, and what `client_run` makes of it; it looks at `ret` last. -/
def createEp (rest : MsgM Exit) : MsgM Exit := do
  let caps ← call .createEp
  setSendFlags caps.2
  if caps.1 ≠ 0 then return ⟨.freeAddrinfo, caps.1⟩ else rest

/-- Both sides register the buffer to receive into, and the other one where they do not send
inline. -/
def regBuffers (rest : MsgM Exit) : MsgM Exit := do
  let mr ← call (.regMsgs .recvMsg)
  if mr = false then return ⟨.destroyEp, -1⟩
  else do
    let sendInline ← get
    if sendInline = false then do
      let sendMr ← call (.regMsgs .sendMsg)
      if sendMr = false then return ⟨.deregRecv, -1⟩ else rest
    else rest

/-- `rdma_accept`. -/
def rdmaAccept : MsgM Int := do
  let ret ← call .accept
  if ret ≠ 0 then return ret else call .established

/-- `rdma_connect`. -/
def rdmaConnect : MsgM Int := do
  let ret ← call .connect
  if ret ≠ 0 then return ret else call .established

/-- A label that both parts of a verb go to. -/
lemma attempt_both (label : Label) (start wait : MsgM Int) (rest : MsgM Exit) :
    attempt label (start >>= fun ret => if ret ≠ 0 then pure ret else wait) rest =
      attempt label start (attempt label wait rest) := by
  simp only [attempt, bind_assoc]
  congr 1
  funext ret
  by_cases hret : ret = 0
  · simp [hret]
  · simp [hret]

lemma attempt_rdmaAccept (label : Label) (rest : MsgM Exit) : attempt label rdmaAccept rest =
    attempt label (call .accept) (attempt label (call .established) rest) :=
  attempt_both label _ _ rest

lemma attempt_rdmaConnect (label : Label) (rest : MsgM Exit) : attempt label rdmaConnect rest =
    attempt label (call .connect) (attempt label (call .established) rest) :=
  attempt_both label _ _ rest

/-- `rdma_post_send(id, NULL, send_msg, 16, send_mr, send_flags)`. -/
def rdmaPostSend : MsgM Int := do
  let sendInline ← get
  call (.postSend sendInline)

/-- `server_run`, up to the connection. -/
def serverStart (rest : MsgM Exit) : MsgM Exit :=
  attempt .out (call (.getaddrinfo true)) <|
  attempt .freeAddrinfo (call .createListenEp) <|
  attempt .destroyListenEp (call .listen) <|
  attempt .destroyListenEp (call .getRequest) <|
  queryCaps <|
  regBuffers <|
  attempt .deregSend (call .postRecv) <|
  attempt .deregSend rdmaAccept rest

/-- `client_run`, up to the connection. -/
def clientStart (rest : MsgM Exit) : MsgM Exit :=
  attempt .out (call (.getaddrinfo false)) <|
  createEp <|
  regBuffers <|
  attempt .deregSend (call .postRecv) <|
  attempt .deregSend rdmaConnect rest

end Messages

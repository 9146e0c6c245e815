import RdmaExamples.Library.Monitors

/-!
# The calls of the two message programs

What `rdma_example.c` and `rdma_test.c` call, and what the calls may answer.  A region is named by
the buffer that it is registered for, since no buffer is registered twice.  Stores and loads in
buffers are calls as well, since the devices of both sides read and write the same bytes.

`rdma_accept` and `rdma_connect` wait until the other side has answered: each is the call that
starts it, and then `established`.  What is printed, and the record `wc`, which is only printed, are
left out.

The two programs share their beginning, their end, and the way in which they exchange messages;
what is specific to one of them is a parameter (`Tell`), so that the results about the exchange are
proved once.
-/

namespace Messages

open Programs

/-- The two sides. -/
inductive Side
  | server
  | client
  deriving DecidableEq

/-- The static buffers. -/
inductive Buffer
  | sendMsg
  | recvMsg
  | buffLocalSend
  | rdmaBuff
  deriving DecidableEq

/-- `BUFFER_SIZE`. -/
def bufferSize : ℕ := 16

/-- `RDMA_MR_SIZE`. -/
def rdmaMrSize : ℕ := 4096

/-- `"Dat"`, as `strcpy` copies it. -/
def dat : List UInt8 := [0x44, 0x61, 0x74, 0]

/-- What the programs use of a `struct ibv_mr`. -/
structure Mr where
  rkey : UInt32
  addr : UInt64
  deriving DecidableEq

/-- A call, with its arguments. -/
inductive Call
  | getaddrinfo (passive : Bool)
  | createListenEp
  | listen
  | getRequest
  | queryQp
  | createEp
  | regMsgs (buf : Buffer)
  | regMr (buf : Buffer)
  | postRecv
  | accept
  | connect
  | established
  | store (buf : Buffer) (off : ℕ) (bytes : List UInt8)
  | load (buf : Buffer) (off n : ℕ)
  | postSend (sendInline : Bool)
  | getSendComp
  | getRecvComp
  | postWrite (localMr : Option Mr) (remoteAddr : UInt64) (rkey : UInt32)
  | postRead (localMr : Option Mr) (remoteAddr : UInt64) (rkey : UInt32)
  | pollCq
  | segfault
  | disconnect
  | deregMr (buf : Buffer)
  | destroyEp
  | destroyListenEp
  | freeaddrinfo
  deriving DecidableEq

/-- What a call answers.  `queryQp` and `createEp` also tell `cap.max_inline_data`, and `regMsgs`
whether it has returned a region. -/
abbrev Reply : Call → Type
  | .getaddrinfo _ => Int
  | .createListenEp => Int
  | .listen => Int
  | .getRequest => Int
  | .queryQp => Int × UInt32
  | .createEp => Int × UInt32
  | .regMsgs _ => Bool
  | .regMr _ => Option Mr
  | .postRecv => Int
  | .accept => Int
  | .connect => Int
  | .established => Int
  | .load _ _ _ => List UInt8
  | .postSend _ => Int
  | .getSendComp => Int
  | .getRecvComp => Int
  | .postWrite _ _ _ => Int
  | .postRead _ _ _ => Int
  | .pollCq => Int
  | .disconnect => Int
  | .deregMr _ => Int
  | _ => Unit

/-- The calls of a run, with their replies. -/
abbrev Trace := List (Event Call Reply)

/-- A function of a program, over the only global that its course depends on: whether `send_flags`
is `IBV_SEND_INLINE`. -/
abbrev MsgM := StateProg Call Reply Bool

/-- The reply of a verb that does not fail; a load finds what the buffers hold. -/
def obliging (fresh : Buffer → Mr) (buffers : Buffer → List UInt8) : (c : Call) → Reply c
  | .getaddrinfo _ => (0 : Int)
  | .createListenEp => (0 : Int)
  | .listen => (0 : Int)
  | .getRequest => (0 : Int)
  | .queryQp => ((0, 16) : Int × UInt32)
  | .createEp => ((0, 16) : Int × UInt32)
  | .regMsgs _ => true
  | .regMr buf => some (fresh buf)
  | .postRecv => (0 : Int)
  | .accept => (0 : Int)
  | .connect => (0 : Int)
  | .established => (0 : Int)
  | .load buf off n => ((buffers buf).drop off).take n
  | .postSend _ => (0 : Int)
  | .getSendComp => (1 : Int)
  | .getRecvComp => (1 : Int)
  | .postWrite _ _ _ => (0 : Int)
  | .postRead _ _ _ => (0 : Int)
  | .pollCq => (1 : Int)
  | .disconnect => (0 : Int)
  | .deregMr _ => (0 : Int)
  | .store _ _ _ => ()
  | .segfault => ()
  | .destroyEp => ()
  | .destroyListenEp => ()
  | .freeaddrinfo => ()

instance (c : Call) : Nonempty (Reply c) := ⟨obliging (fun _ => ⟨0, 0⟩) (fun _ => []) c⟩

/-- One call. -/
abbrev call (c : Call) : MsgM (Reply c) := perform c

/-! ## Ways out -/

/-- The labels that a function goes to; `out` is where it only returns. -/
inductive Label
  | deregRdmaMr
  | disconnect
  | deregSend
  | deregRecv
  | destroyEp
  | destroyListenEp
  | freeAddrinfo
  | out
  deriving DecidableEq

/-- Where a function goes to, and `ret` there. -/
structure Exit where
  label : Label
  ret : Int

/-- `ret = ...; if (ret) goto label;`, and then `rest`. -/
def attempt (label : Label) (verb : MsgM Int) (rest : MsgM Exit) : MsgM Exit := do
  let ret ← verb
  if ret ≠ 0 then return ⟨label, ret⟩ else rest

/-- `if (ret < 0) goto label;` for the result of a wait, and then `rest`. -/
def attemptWait (label : Label) (wait : MsgM Int) (rest : MsgM Exit) : MsgM Exit := do
  let ret ← wait
  if ret < 0 then return ⟨label, ret⟩ else rest

/-- `if (ret < 0) perror(...); else ret = 0;` for the result of a wait, in front of a label. -/
def lastWait (label : Label) (wait : MsgM Int) : MsgM Exit := do
  let ret ← wait
  return ⟨label, if ret < 0 then ret else 0⟩

/-- `while ((ret = rdma_get_send_comp(id, &wc)) == 0);` -/
def waitSendComp : ℕ → MsgM Int
  | 0 => StateProg.halt
  | fuel + 1 => do
      let ret ← call .getSendComp
      if ret = 0 then waitSendComp fuel else return ret

/-- `while ((ret = rdma_get_recv_comp(id, &wc)) == 0);` -/
def waitRecvComp : ℕ → MsgM Int
  | 0 => StateProg.halt
  | fuel + 1 => do
      let ret ← call .getRecvComp
      if ret = 0 then waitRecvComp fuel else return ret

/-! ## Monitored ways out -/

section

open Monitors

variable {G : Type} {mon : Monitor Call Reply G} {g : G} {sendInline : Bool} {label : Label}
  {verb : MsgM Int} {rest : MsgM Exit} {Q : G → Exit × Bool → Prop} {K : G → Int × Bool → Prop}

/-- Past a verb that has not failed. -/
lemma goesOn {ret : Int} (hret : ret = 0) (h : Obeys mon Q (rest.run sendInline) g) :
    Obeys mon Q ((if ret ≠ 0 then pure ⟨label, ret⟩ else rest : MsgM Exit).run sendInline) g :=
  Obeys.ite (fun hne => absurd hret hne) fun _ => h

/-- Past a verb that has failed. -/
lemma leaves {ret : Int} (hret : ret ≠ 0) (h : Q g (⟨label, ret⟩, sendInline)) :
    Obeys mon Q ((if ret ≠ 0 then pure ⟨label, ret⟩ else rest : MsgM Exit).run sendInline) g :=
  Obeys.ite (fun _ => h) fun heq => absurd hret heq

lemma attempt_obeys (hverb : Obeys mon K (verb.run sendInline) g)
    (hfail : ∀ g ret sendInline, ret ≠ 0 → K g (ret, sendInline) → Q g (⟨label, ret⟩, sendInline))
    (hrest : ∀ g sendInline, K g (0, sendInline) → Obeys mon Q (rest.run sendInline) g) :
    Obeys mon Q ((attempt label verb rest).run sendInline) g := by
  refine Obeys.bind hverb ?_
  intro g ret sendInline hk
  by_cases hret : ret = 0
  · subst hret
    exact goesOn rfl (hrest g sendInline hk)
  · exact leaves hret (hfail g ret sendInline hret hk)

lemma attemptWait_obeys (hwait : Obeys mon K (verb.run sendInline) g)
    (hfail : ∀ g ret sendInline, ret < 0 → K g (ret, sendInline) → Q g (⟨label, ret⟩, sendInline))
    (hrest : ∀ g ret sendInline, ¬ ret < 0 → K g (ret, sendInline) →
      Obeys mon Q (rest.run sendInline) g) :
    Obeys mon Q ((attemptWait label verb rest).run sendInline) g := by
  refine Obeys.bind hwait ?_
  intro g ret sendInline hk
  exact Obeys.ite (fun hret => hfail g ret sendInline hret hk)
    fun hret => hrest g ret sendInline hret hk

lemma lastWait_obeys (hwait : Obeys mon K (verb.run sendInline) g)
    (hdone : ∀ g ret sendInline, K g (ret, sendInline) →
      Q g (⟨label, if ret < 0 then ret else 0⟩, sendInline)) :
    Obeys mon Q ((lastWait label verb).run sendInline) g := by
  refine Obeys.bind hwait ?_
  intro g ret sendInline hk
  exact hdone g ret sendInline hk

/-- A wait that asks again as long as nothing has come, and then has seen what it waited for. -/
lemma waitSendComp_obeys (hallowed : mon.allowed g .getSendComp)
    (hidle : mon.after g ⟨.getSendComp, (0 : Int)⟩ = g)
    (hdone : ∀ ret : Int, ret ≠ 0 → mon.expected g ⟨.getSendComp, ret⟩ →
      K (mon.after g ⟨.getSendComp, ret⟩) (ret, sendInline)) :
    ∀ fuel, Obeys mon K ((waitSendComp fuel).run sendInline) g
  | 0 => Obeys.halt
  | fuel + 1 => by
      refine Obeys.perform_bind hallowed ?_
      intro ret hret
      refine Obeys.ite (fun hzero => ?_) fun hzero => hdone ret hzero hret
      rw [hzero, hidle]
      exact waitSendComp_obeys hallowed hidle hdone fuel

lemma waitRecvComp_obeys (hallowed : mon.allowed g .getRecvComp)
    (hidle : mon.after g ⟨.getRecvComp, (0 : Int)⟩ = g)
    (hdone : ∀ ret : Int, ret ≠ 0 → mon.expected g ⟨.getRecvComp, ret⟩ →
      K (mon.after g ⟨.getRecvComp, ret⟩) (ret, sendInline)) :
    ∀ fuel, Obeys mon K ((waitRecvComp fuel).run sendInline) g
  | 0 => Obeys.halt
  | fuel + 1 => by
      refine Obeys.perform_bind hallowed ?_
      intro ret hret
      refine Obeys.ite (fun hzero => ?_) fun hzero => hdone ret hzero hret
      rw [hzero, hidle]
      exact waitRecvComp_obeys hallowed hidle hdone fuel

end

end Messages

import RdmaExamples.Library.ByteStrings
import RdmaExamples.Library.Systems
import RdmaExamples.Messages.Connection

/-!
# Between the two sides

What the devices of the two sides hold, and what they do by themselves.  A side posts to its send
queue; what is at the front of the queue is done next, and is reported once it is done.  A message
waits until the other side has a receive for it.  A remote write and a remote read need no call of
the other side, but a region that they fit into.

Verbs may fail at any time; a disconnect that fails leaves the connection, and a region that cannot
be deregistered stays.  A queue pair whose side has disconnected, or that has been refused an
access, is in error: what is posted to it, or to the one that it is connected to, is flushed, which
is reported like everything else, since neither program looks at the status of a completion.

`link` — the medium of the two programs; `Link.answer` says when a call gets a reply, and
`Link.device` what the devices do.
-/

namespace Messages

open Programs Systems

/-- The other side. -/
def Side.other : Side → Side
  | .server => .client
  | .client => .server

@[simp] lemma Side.other_other (side : Side) : side.other.other = side := by cases side <;> rfl

lemma Side.other_ne (side : Side) : side.other ≠ side := by cases side <;> simp [Side.other]

lemma Side.eq_or_other (p q : Side) : q = p ∨ q = p.other := by
  cases p <;> cases q <;> simp [Side.other]

/-- A work request in a send queue.  A message that is not sent inline is fetched later. -/
inductive WorkRequest
  | send (bytes : Option (List UInt8))
  | write (localMr : Option Mr) (remoteAddr : UInt64) (rkey : UInt32)
  | read (localMr : Option Mr) (remoteAddr : UInt64) (rkey : UInt32)

/-- The work request is a message. -/
def WorkRequest.isSend : WorkRequest → Bool
  | .send _ => true
  | _ => false

/-- The size of a buffer. -/
def Buffer.size : Buffer → ℕ
  | .sendMsg => bufferSize
  | .recvMsg => bufferSize
  | .buffLocalSend => bufferSize
  | .rdmaBuff => rdmaMrSize

/-- What a side has: its buffers; the regions that `ibv_reg_mr` has returned for them; whether it
has asked for the connection and has it; whether its queue pair is in error; its send queue, what
has been done there and is not reported, and the completions; the receives that are posted, and
their completions; and, which no call looks at, everything that has arrived, how many of its
receives and of its messages were flushed, and whether an access was refused. -/
structure Port where
  buffers : Buffer → List UInt8 := fun buf => List.replicate buf.size 0
  regions : Buffer → Option Mr := fun _ => none
  requested : Bool := false
  up : Bool := false
  broken : Bool := false
  sendQueue : List WorkRequest := []
  unreported : ℕ := 0
  sendCq : ℕ := 0
  posted : ℕ := 0
  recvCq : ℕ := 0
  delivered : List (List UInt8) := []
  flushed : ℕ := 0
  lost : ℕ := 0
  refused : Bool := false

/-- The two sides with what they have. -/
abbrev Link := Side → Port

/-- The start. -/
def Link.start : Link := fun _ => {}

/-! ## Calls -/

/-- A write to a buffer. -/
def Port.store (port : Port) (buf : Buffer) (off : ℕ) (bytes : List UInt8) : Port :=
  { port with
    buffers := Function.update port.buffers buf (ByteStrings.store (port.buffers buf) off bytes) }

/-- A work request goes to the send queue, if the verb has not failed. -/
def Port.post (port : Port) (wr : WorkRequest) (ret : Int) : Port :=
  if ret = 0 then { port with sendQueue := port.sendQueue ++ [wr] } else port

/-- A look at the send completions. -/
def Port.pollSend (port : Port) (ret : Int) : Option Port :=
  if ret ≤ 0 then some port
  else if ret = 1 ∧ 0 < port.sendCq then some { port with sendCq := port.sendCq - 1 }
  else none

/-- A look at the receive completions. -/
def Port.pollRecv (port : Port) (ret : Int) : Option Port :=
  if ret ≤ 0 then some port
  else if ret = 1 ∧ 0 < port.recvCq then some { port with recvCq := port.recvCq - 1 }
  else none

/-- The other side has answered: the server has accepted, or the client has the connection. -/
def Port.hasAnswered (other : Port) : Side → Bool
  | .server => other.up
  | .client => other.requested

/-- When a call of a side gets a reply, where `other` is what the other side has. -/
def Port.answer (port other : Port) (side : Side) : Event Call Reply → Option Port
  | ⟨.getRequest, ret⟩ => if ret = 0 ∧ other.requested = false then none else some port
  | ⟨.regMr buf, mr⟩ =>
      some { port with regions := Function.update port.regions buf (mr.or (port.regions buf)) }
  | ⟨.postRecv, ret⟩ =>
      some { port with posted := port.posted + if ret = 0 then 1 else 0 }
  | ⟨.accept, ret⟩ => some { port with requested := port.requested || decide (ret = 0) }
  | ⟨.connect, ret⟩ => some { port with requested := port.requested || decide (ret = 0) }
  | ⟨.established, ret⟩ =>
      if ret = 0 ∧ other.hasAnswered side = false then none
      else some { port with up := port.up || decide (ret = 0) }
  | ⟨.store buf off bytes, _⟩ => some (port.store buf off bytes)
  | ⟨.load buf off n, bytes⟩ =>
      if bytes = ((port.buffers buf).drop off).take n then some port else none
  | ⟨.postSend sendInline, ret⟩ =>
      some (port.post
        (.send (if sendInline = true then some (port.buffers .sendMsg) else none)) ret)
  | ⟨.getSendComp, ret⟩ => port.pollSend ret
  | ⟨.getRecvComp, ret⟩ => port.pollRecv ret
  | ⟨.postWrite localMr addr rkey, ret⟩ => some (port.post (.write localMr addr rkey) ret)
  | ⟨.postRead localMr addr rkey, ret⟩ => some (port.post (.read localMr addr rkey) ret)
  | ⟨.pollCq, ret⟩ => port.pollSend ret
  | ⟨.disconnect, ret⟩ => some { port with broken := port.broken || decide (ret = 0) }
  | ⟨.deregMr buf, ret⟩ =>
      some { port with
        regions := if ret = 0 then Function.update port.regions buf none else port.regions }
  | ⟨.destroyEp, _⟩ => some { port with broken := true }
  | _ => some port

/-- A call of a side. -/
def Link.answer (link : Link) (side : Side) (e : Event Call Reply) : Option Link :=
  match (link side).answer (link side.other) side e with
  | some port => some (Function.update link side port)
  | none => none

/-! ## Devices

The devices take one step at a time: a message is fetched, delivered, an access executed or
refused, something flushed, or a completion reported. -/

/-- What the devices do by themselves. -/
inductive Move
  | fetch (side : Side)
  | deliver (side : Side)
  | execute (side : Side)
  | refuse (side : Side)
  | flush (side : Side)
  | flushRecv (side : Side)
  | report (side : Side)

/-- What is at the front of the send queue has been done. -/
def Port.finish (port : Port) : Port :=
  { port with sendQueue := port.sendQueue.tail, unreported := port.unreported + 1 }

/-- What is at the front of the send queue is flushed. -/
def Port.flush (port : Port) : Port :=
  { port.finish with
    lost := port.lost + (port.sendQueue.head?.elim 0 fun wr => if wr.isSend = true then 1 else 0) }

/-- A receive that is posted is flushed. -/
def Port.flushRecv (port : Port) : Port :=
  { port with
    posted := port.posted - 1
    recvCq := port.recvCq + 1
    flushed := port.flushed + 1 }

/-- The message at the front of the send queue is fetched; `rest` is behind it. -/
def Port.fetch (port : Port) (rest : List WorkRequest) : Port :=
  { port with sendQueue := .send (some (port.buffers .sendMsg)) :: rest }

/-- A message arrives where a receive is posted. -/
def Port.receive (port : Port) (bytes : List UInt8) : Port :=
  { port.store .recvMsg 0 bytes with
    posted := port.posted - 1
    recvCq := port.recvCq + 1
    delivered := port.delivered ++ [bytes] }

/-- What has been done is reported. -/
def Port.report (port : Port) : Port :=
  { port with
    unreported := port.unreported - 1
    sendCq := port.sendCq + 1 }

/-- An access has been refused. -/
def Port.refuse (port : Port) : Port := { port with broken := true, refused := true }

/-- Where in `rdma_buff` an access begins that its region allows. -/
def Port.target (port : Port) (remoteAddr : UInt64) (rkey : UInt32) : Option ℕ :=
  match port.regions .rdmaBuff with
  | some mr =>
      if mr.rkey = rkey ∧ mr.addr ≤ remoteAddr ∧
          (remoteAddr - mr.addr).toNat + bufferSize ≤ rdmaMrSize then
        some (remoteAddr - mr.addr).toNat
      else none
  | none => none

/-- A remote access: what becomes of the side that asks for it, and of the other one.  Without a
region of its own a side may not use its buffer. -/
def access (port other : Port) : WorkRequest → Option (Port × Port)
  | .write (some _) addr rkey =>
      match other.target addr rkey with
      | some off => some (port, other.store .rdmaBuff off (port.buffers .buffLocalSend))
      | none => none
  | .read (some _) addr rkey =>
      match other.target addr rkey with
      | some off =>
          some (port.store .buffLocalSend 0 (((other.buffers .rdmaBuff).drop off).take bufferSize),
            other)
      | none => none
  | _ => none

/-- Both ends of the connection work. -/
def Link.Works (link : Link) : Prop := ∀ side, (link side).broken = false

instance (link : Link) : Decidable link.Works :=
  decidable_of_iff ((link .server).broken = false ∧ (link .client).broken = false)
    ⟨fun h side => by cases side <;> simp [h], fun h => ⟨h .server, h .client⟩⟩

/-- A change at both sides. -/
def Link.set (link : Link) (side : Side) (port other : Port) : Link :=
  Function.update (Function.update link side.other other) side port

/-- What the devices do. -/
def Link.device (link : Link) : Move → Option Link
  | .fetch side =>
      match (link side).sendQueue with
      | .send none :: rest => some (Function.update link side ((link side).fetch rest))
      | _ => none
  | .deliver side =>
      match (link side.other).sendQueue with
      | .send (some bytes) :: _ =>
          if link.Works ∧ 0 < (link side).posted then
            some (link.set side ((link side).receive bytes) (link side.other).finish)
          else none
      | _ => none
  | .execute side =>
      match (link side).sendQueue with
      | wr :: _ =>
          match access (link side) (link side.other) wr with
          | some ports =>
              if link.Works then some (link.set side ports.1.finish ports.2) else none
          | none => none
      | [] => none
  | .refuse side =>
      match (link side).sendQueue with
      | wr :: _ =>
          if wr.isSend = false ∧ link.Works ∧
              (access (link side) (link side.other) wr).isNone = true then
            some (link.set side (link side).finish.refuse (link side.other).refuse)
          else none
      | [] => none
  | .flush side =>
      match (link side).sendQueue with
      | _ :: _ =>
          if link.Works then none else some (Function.update link side (link side).flush)
      | [] => none
  | .flushRecv side =>
      if ¬ link.Works ∧ 0 < (link side).posted then
        some (Function.update link side (link side).flushRecv)
      else none
  | .report side =>
      if 0 < (link side).unreported then
        some (Function.update link side (link side).report)
      else none

/-- What the devices can do. -/
inductive Moved (link : Link) : Move → Link → Prop
  | fetch (side : Side) {rest : List WorkRequest}
      (hqueue : (link side).sendQueue = .send none :: rest) :
      Moved link (.fetch side) (Function.update link side ((link side).fetch rest))
  | deliver (side : Side) {bytes : List UInt8} {rest : List WorkRequest}
      (hqueue : (link side.other).sendQueue = .send (some bytes) :: rest)
      (hworks : link.Works) (hposted : 0 < (link side).posted) :
      Moved link (.deliver side)
        (link.set side ((link side).receive bytes) (link side.other).finish)
  | execute (side : Side) {wr : WorkRequest} {rest : List WorkRequest} {ports : Port × Port}
      (hqueue : (link side).sendQueue = wr :: rest) (hworks : link.Works)
      (haccess : access (link side) (link side.other) wr = some ports) :
      Moved link (.execute side) (link.set side ports.1.finish ports.2)
  | refuse (side : Side) {wr : WorkRequest} {rest : List WorkRequest}
      (hqueue : (link side).sendQueue = wr :: rest) (hsend : wr.isSend = false)
      (hworks : link.Works) (haccess : access (link side) (link side.other) wr = none) :
      Moved link (.refuse side)
        (link.set side (link side).finish.refuse (link side.other).refuse)
  | flush (side : Side) {wr : WorkRequest} {rest : List WorkRequest}
      (hqueue : (link side).sendQueue = wr :: rest) (hworks : ¬ link.Works) :
      Moved link (.flush side) (Function.update link side (link side).flush)
  | flushRecv (side : Side) (hworks : ¬ link.Works) (hposted : 0 < (link side).posted) :
      Moved link (.flushRecv side) (Function.update link side (link side).flushRecv)
  | report (side : Side) (hpos : 0 < (link side).unreported) :
      Moved link (.report side) (Function.update link side (link side).report)

/-- **What the devices do is one of these moves.** -/
theorem moved_of_device {l l' : Link} {move : Move} (hs : l.device move = some l') :
    Moved l move l' := by
  cases move with
  | fetch side =>
      simp only [Link.device] at hs
      split at hs
      · rename_i rest hqueue
        obtain rfl := Option.some.inj hs
        exact .fetch side hqueue
      · exact absurd hs (by simp)
  | deliver side =>
      simp only [Link.device] at hs
      split at hs
      · rename_i bytes rest hqueue
        split at hs
        · rename_i hgo
          obtain rfl := Option.some.inj hs
          exact .deliver side hqueue hgo.1 hgo.2
        · exact absurd hs (by simp)
      · exact absurd hs (by simp)
  | execute side =>
      simp only [Link.device] at hs
      split at hs
      · rename_i wr rest hqueue
        split at hs
        · rename_i ports haccess
          split at hs
          · rename_i hworks
            obtain rfl := Option.some.inj hs
            exact .execute side hqueue hworks haccess
          · exact absurd hs (by simp)
        · exact absurd hs (by simp)
      · exact absurd hs (by simp)
  | refuse side =>
      simp only [Link.device] at hs
      split at hs
      · rename_i wr rest hqueue
        split at hs
        · rename_i hgo
          obtain rfl := Option.some.inj hs
          exact .refuse side hqueue hgo.1 hgo.2.1 (Option.isNone_iff_eq_none.mp hgo.2.2)
        · exact absurd hs (by simp)
      · exact absurd hs (by simp)
  | flush side =>
      simp only [Link.device] at hs
      split at hs
      · rename_i wr rest hqueue
        split at hs
        · exact absurd hs (by simp)
        · rename_i hworks
          obtain rfl := Option.some.inj hs
          exact .flush side hqueue hworks
      · exact absurd hs (by simp)
  | flushRecv side =>
      simp only [Link.device] at hs
      split at hs
      · rename_i hgo
        obtain rfl := Option.some.inj hs
        exact .flushRecv side hgo.1 hgo.2
      · exact absurd hs (by simp)
  | report side =>
      simp only [Link.device] at hs
      split at hs
      · rename_i hpos
        obtain rfl := Option.some.inj hs
        exact .report side hpos
      · exact absurd hs (by simp)

/-- Each of these moves can happen. -/
lemma Moved.device {l l' : Link} {move : Move} (h : Moved l move l') :
    l.device move = some l' := by
  cases h with
  | fetch side hqueue => simp only [Link.device, hqueue]
  | deliver side hqueue hworks hposted =>
      simp only [Link.device, hqueue]
      rw [if_pos ⟨hworks, hposted⟩]
  | execute side hqueue hworks haccess =>
      simp only [Link.device, hqueue, haccess]
      rw [if_pos hworks]
  | refuse side hqueue hsend hworks haccess =>
      simp only [Link.device, hqueue]
      rw [if_pos ⟨hsend, hworks, Option.isNone_iff_eq_none.mpr haccess⟩]
  | flush side hqueue hworks =>
      simp only [Link.device, hqueue]
      rw [if_neg hworks]
  | flushRecv side hworks hposted => exact if_pos ⟨hworks, hposted⟩
  | report side hpos => exact if_pos hpos

/-- The link between the two sides. -/
def link : Medium Side Call Reply Move Link := ⟨Link.answer, Link.device⟩

end Messages

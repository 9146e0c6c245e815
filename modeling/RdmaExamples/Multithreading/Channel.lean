import RdmaExamples.Library.Monitors
import RdmaExamples.Multithreading.Calls

/-!
# Between the two programs

Each side has a buffer to send from and one to receive into.  A send takes what is in the buffer
when it is posted, or, without `IBV_SEND_INLINE`, when the device comes to fetch it; a message waits
until there is a receive for it, and is then written into the buffer of the other side.

* `channel` — the buffers and queues of the two sides.
* `Record` — what a side has done so far; `monitor` says what it may do next: it stores into the
  buffer it sends from only when nothing is being sent, and looks into the other one only when
  nothing can be received.
* `PortOk` — then the messages that arrive are those that were sent, in order, and each is read as
  it was sent (`PortOk.answer`, `portsOk_device`).

The two programs need each other's promise: a side reads what was sent only because the other one
stored it before it sent, and stores nothing before the message has gone.  `channel_run` closes
that circle by induction on the run, with the promise of each side as far as it has got; a program
that is to be used with it has to be shown to obey its monitor, and nothing else.
-/

namespace Multithreading

open Programs Systems Monitors ByteStrings

/-! ## The two sides -/

/-- The two sides. -/
inductive Side
  | localNode
  | remoteNode
  deriving DecidableEq

/-- The other one. -/
def Side.other : Side → Side
  | .localNode => .remoteNode
  | .remoteNode => .localNode

@[simp] lemma Side.other_other (side : Side) : side.other.other = side := by cases side <;> rfl

lemma Side.other_ne (side : Side) : side.other ≠ side := by cases side <;> decide

lemma Side.eq_or_other (p q : Side) : q = p ∨ q = p.other := by
  cases p <;> cases q <;> simp [Side.other]

/-- What the devices do by themselves: they fetch the message that a side sends, bring one to a
side, and report to a side that its message has arrived. -/
inductive Move
  | fetch (side : Side)
  | deliver (side : Side)
  | complete (side : Side)

/-- What a side has: the two buffers, the sends that have not arrived, with their messages where
these have been fetched, the sends that have arrived unreported, the send completions, the receives
that are posted, the receive completions, and everything that has arrived, which no call looks
at. -/
structure Port where
  sendMsg : List UInt8 := zeros bufferSize
  recvMsg : List UInt8 := zeros bufferSize
  sending : List (Option (List UInt8)) := []
  unacked : ℕ := 0
  sendCq : ℕ := 0
  posted : ℕ := 0
  recvCq : ℕ := 0
  delivered : List (List UInt8) := []

/-- The two sides with what they have. -/
abbrev Ports := Side → Port

/-- When a call gets a reply; no verb fails. -/
def Port.answer (sendInline : Bool) (port : Port) : Event Call Reply → Option Port
  | ⟨.storeSend off bytes, _⟩ => some { port with sendMsg := store port.sendMsg off bytes }
  | ⟨.clearRecv, _⟩ => some { port with recvMsg := zeros bufferSize }
  | ⟨.loadRecv off n, bytes⟩ =>
      if bytes = (port.recvMsg.drop off).take n then some port else none
  | ⟨.postSend, ret⟩ =>
      if ret = 0 then
        some { port with
          sending := port.sending ++ [if sendInline = true then some port.sendMsg else none] }
      else none
  | ⟨.getSendComp, ret⟩ =>
      if ret = 0 then some port
      else if ret = 1 ∧ 0 < port.sendCq then some { port with sendCq := port.sendCq - 1 }
      else none
  | ⟨.postRecv, ret⟩ =>
      if ret = 0 then some { port with posted := port.posted + 1 } else none
  | ⟨.getRecvComp, ret⟩ =>
      if ret = 0 then some port
      else if ret = 1 ∧ 0 < port.recvCq then some { port with recvCq := port.recvCq - 1 }
      else none
  | ⟨.regMr addr length _, some mr⟩ =>
      if mr.addr = addr ∧ mr.length = length then some port else none
  | ⟨.regMr _ _ _, none⟩ => none
  | _ => some port

/-- A call of a side. -/
def Ports.answer (sendInline : Side → Bool) (ports : Ports) (side : Side) (e : Event Call Reply) :
    Option Ports :=
  match (ports side).answer (sendInline side) e with
  | some port => some (Function.update ports side port)
  | none => none

/-- The device of a side fetches the message that is sent next. -/
def Port.fetch (port : Port) : Option Port :=
  match port.sending with
  | none :: rest => some { port with sending := some port.sendMsg :: rest }
  | _ => none

/-- A message arrives. -/
def Port.receive (port : Port) (bytes : List UInt8) : Option Port :=
  if 0 < port.posted then
    some { port with
      recvMsg := bytes
      posted := port.posted - 1
      recvCq := port.recvCq + 1
      delivered := port.delivered ++ [bytes] }
  else none

/-- What the devices do. -/
def Ports.device (ports : Ports) : Move → Option Ports
  | .fetch side =>
      match (ports side).fetch with
      | some port => some (Function.update ports side port)
      | none => none
  | .deliver side =>
      match (ports side.other).sending with
      | some bytes :: rest =>
          match (ports side).receive bytes with
          | some port =>
              some (Function.update
                (Function.update ports side.other
                  { ports side.other with
                    sending := rest
                    unacked := (ports side.other).unacked + 1 })
                side port)
          | none => none
      | _ => none
  | .complete side =>
      if 0 < (ports side).unacked then
        some (Function.update ports side
          { ports side with
            unacked := (ports side).unacked - 1
            sendCq := (ports side).sendCq + 1 })
      else none

/-- The channel between the two sides, where each sends inline or not. -/
def channel (sendInline : Side → Bool) : Medium Side Call Reply Move Ports :=
  ⟨Ports.answer sendInline, Ports.device⟩

/-- The start: nothing is posted, and the buffers are zero. -/
def Ports.start : Ports := fun _ => {}

/-! ## The messages -/

/-- The message of a code. -/
def CommCode.message (code : CommCode) : List UInt8 := codeBytes code ++ zeros 12

/-- The message that tells of a region. -/
def Mr.message (mr : Mr) : List UInt8 :=
  toBytes 4 mr.rkey.toNat ++ toBytes 8 mr.addr.toNat ++ zeros 4

/-- The code of a message. -/
def readCode (bytes : List UInt8) : Option CommCode := CommCode.ofByte (bytes.getD 0 0)

/-- The size that a message asks for. -/
def readSize (bytes : List UInt8) : UInt64 := UInt64.ofNat (ofBytes ((bytes.drop 4).take 8))

/-- The handle that a message tells. -/
def readHandle (bytes : List UInt8) : Handle where
  rkey := UInt32.ofNat (ofBytes ((bytes.drop 0).take 4))
  addr := UInt64.ofNat (ofBytes ((bytes.drop 4).take 8))

lemma readCode_message (code : CommCode) : readCode code.message = some code := by
  cases code <;> rfl

/-- No code comes with a size. -/
lemma readSize_message (code : CommCode) : readSize code.message = 0 := by
  cases code <;> decide

/-- **The handle of a region comes through.** -/
theorem readHandle_message (mr : Mr) : readHandle mr.message = mr.handle := by
  have hkey : (mr.message.drop 0).take 4 = toBytes 4 mr.rkey.toNat := by
    rw [List.drop_zero, Mr.message, List.append_assoc]
    exact List.take_left' (length_toBytes ..)
  have haddr : (mr.message.drop 4).take 8 = toBytes 8 mr.addr.toNat := by
    rw [Mr.message, List.append_assoc, List.drop_left' (length_toBytes ..)]
    exact List.take_left' (length_toBytes ..)
  rw [readHandle, hkey, haddr, ofBytes_toBytes (by simpa using mr.rkey.toNat_lt),
    ofBytes_toBytes (by simpa using mr.addr.toNat_lt)]
  simp [Mr.handle]

/-! ## What a side has done -/

/-- The record of a side: what it has stored into its buffer to send from, the messages of its
sends, the completions and receives, how many had come when it last cleared the other buffer, and
the handles, regions and codes that it has come to know. -/
structure Record where
  message : List UInt8 := zeros bufferSize
  sent : List (List UInt8) := []
  sendComps : ℕ := 0
  recvPosts : ℕ := 0
  recvComps : ℕ := 0
  cleared : ℕ := 0
  handles : List Handle := []
  regions : List Mr := []
  codes : List (Option CommCode) := []

/-- What a call adds to the record. -/
def Record.after (r : Record) : Event Call Reply → Record
  | ⟨.storeSend off bytes, _⟩ => { r with message := store r.message off bytes }
  | ⟨.clearRecv, _⟩ => { r with cleared := r.recvComps }
  | ⟨.loadRecv off _, bytes⟩ =>
      if off = 0 then { r with codes := r.codes ++ [readCode bytes] } else r
  | ⟨.storeHandle handle, _⟩ => { r with handles := r.handles ++ [handle] }
  | ⟨.postSend, _⟩ => { r with sent := r.sent ++ [r.message] }
  | ⟨.getSendComp, ret⟩ => { r with sendComps := r.sendComps + ret.toNat }
  | ⟨.postRecv, _⟩ => { r with recvPosts := r.recvPosts + 1 }
  | ⟨.getRecvComp, ret⟩ => { r with recvComps := r.recvComps + ret.toNat }
  | ⟨.regMr _ _ _, mr⟩ => { r with regions := r.regions ++ mr.toList }
  | _ => r

/-- What a side may do next, where its messages are those of an `outbox`, and the `k`-th message to
come is `inbox k`. -/
def Record.allowed (inbox : ℕ → List UInt8) (outbox : Record → List (List UInt8)) (r : Record) :
    Call → Prop
  | .storeSend _ _ => r.sendComps = r.sent.length
  | .clearRecv => r.recvComps = r.recvPosts
  | .loadRecv off n => r.recvComps = r.recvPosts ∧ r.cleared < r.recvComps ∧
      (off = 0 → n = 4 ∧ r.codes.length + 1 = r.recvComps)
  | .storeHandle handle => r.handles.length + 1 = r.recvComps ∧
      handle = readHandle (inbox (r.recvComps - 1))
  | .postSend => r.sent ++ [r.message] <+: outbox r
  | .regMr _ length _ => 0 < r.recvComps ∧ length = readSize (inbox (r.recvComps - 1))
  | _ => True

/-- What a side may count on. -/
def Record.expected (inbox : ℕ → List UInt8) (r : Record) : Event Call Reply → Prop
  | ⟨.loadRecv off n, bytes⟩ => bytes = ((inbox (r.recvComps - 1)).drop off).take n
  | ⟨.postSend, ret⟩ => ret = 0
  | ⟨.getSendComp, ret⟩ => ret = 0 ∨ ret = 1
  | ⟨.postRecv, ret⟩ => ret = 0
  | ⟨.getRecvComp, ret⟩ => ret = 0 ∨ ret = 1
  | ⟨.regMr addr length _, mr⟩ => ∃ key, mr = some ⟨addr, length, key⟩
  | _ => True

/-- The monitor of a side. -/
def monitor (inbox : ℕ → List UInt8) (outbox : Record → List (List UInt8)) :
    Monitor Call Reply Record :=
  ⟨Record.allowed inbox outbox, Record.expected inbox, Record.after⟩

/-! ## The messages arrive

`PortOk` ties the record of a side to its port and to what has arrived at the other one.  What it
says of the buffers is why the order of the calls matters: a message is what was stored when it was
sent, or when the device fetched it, and in between nothing is stored. -/

/-- What a side has fits what it has done; `arrived` are its messages that have arrived.  `fifo` is
the clause that matters: what has arrived is a beginning of what was sent, and the rest is what the
device is still to send.  A message that was not sent inline is `none` in the queue, since its
bytes are those of the buffer at the time they are fetched. -/
structure PortOk (r : Record) (port : Port) (arrived : List (List UInt8)) : Prop where
  message : port.sendMsg = r.message
  fifo : r.sent = arrived ++ port.sending.map (·.getD port.sendMsg)
  sendComps : r.sendComps + port.sendCq + port.unacked = arrived.length
  recvPosts : r.recvPosts = port.posted + port.delivered.length
  recvComps : r.recvComps + port.recvCq = port.delivered.length
  received : r.cleared < port.delivered.length → port.delivered.getLast? = some port.recvMsg

section Ports

variable {r : Record} {port port' : Port} {ports ports' : Ports} {arrived : List (List UInt8)}
  {inbox : ℕ → List UInt8} {outbox : Record → List (List UInt8)} {sendInline : Bool}
  {e : Event Call Reply} {bytes : List UInt8} {g : Side → Record} {move : Move}

lemma portOk_start : PortOk {} {} [] := ⟨rfl, rfl, rfl, rfl, rfl, fun h => absurd h (by decide)⟩

/-- Nothing is being sent when all sends have completed. -/
lemma PortOk.sending_eq_nil (h : PortOk r port arrived) (hdone : r.sendComps = r.sent.length) :
    port.sending = [] := by
  have hlength := congrArg List.length h.fifo
  have hcomps := h.sendComps
  rw [List.length_append, List.length_map] at hlength
  exact List.length_eq_zero_iff.mp (by omega)

/-- What can be read is the last message. -/
lemma PortOk.recvMsg_eq (h : PortOk r port arrived)
    (hinbox : ∀ k bytes, port.delivered[k]? = some bytes → inbox k = bytes)
    (hdone : r.recvComps = r.recvPosts) (hcleared : r.cleared < r.recvComps) :
    port.recvMsg = inbox (r.recvComps - 1) := by
  have hposts := h.recvPosts
  have hcomps := h.recvComps
  have hlength : port.delivered.length = r.recvComps := by omega
  have hlast := h.received (by omega)
  rw [List.getLast?_eq_getElem?, hlength] at hlast
  exact (hinbox _ _ hlast).symm

/-- No call changes what has arrived. -/
lemma answer_delivered (hs : port.answer sendInline e = some port') :
    port'.delivered = port.delivered := by
  obtain ⟨c, reply⟩ := e
  cases c with
  | loadRecv off n =>
      simp only [Port.answer] at hs
      split at hs
      · rw [← Option.some.inj hs]
      · exact absurd hs (by simp)
  | postSend =>
      simp only [Port.answer] at hs
      split at hs
      · rw [← Option.some.inj hs]
      · exact absurd hs (by simp)
  | getSendComp =>
      simp only [Port.answer] at hs
      split at hs
      · rw [← Option.some.inj hs]
      · split at hs
        · rw [← Option.some.inj hs]
        · exact absurd hs (by simp)
  | postRecv =>
      simp only [Port.answer] at hs
      split at hs
      · rw [← Option.some.inj hs]
      · exact absurd hs (by simp)
  | getRecvComp =>
      simp only [Port.answer] at hs
      split at hs
      · rw [← Option.some.inj hs]
      · split at hs
        · rw [← Option.some.inj hs]
        · exact absurd hs (by simp)
  | regMr addr length access =>
      cases reply with
      | none => exact absurd hs (by simp [Port.answer])
      | some mr =>
          simp only [Port.answer] at hs
          split at hs
          · rw [← Option.some.inj hs]
          · exact absurd hs (by simp)
  | _ => rw [← Option.some.inj hs]

/-- **A call**, where the side keeps to its monitor.  A load is allowed only when nothing can be
received, so that what it reads is the last message; a store only when nothing is being sent, so
that no message changes under way. -/
theorem PortOk.answer (h : PortOk r port arrived) (hallowed : r.allowed inbox outbox e.1)
    (hinbox : ∀ k bytes, port.delivered[k]? = some bytes → inbox k = bytes)
    (hs : port.answer sendInline e = some port') :
    r.expected inbox e ∧ PortOk (r.after e) port' arrived := by
  obtain ⟨c, reply⟩ := e
  cases c with
  | storeSend off bytes =>
      obtain rfl := Option.some.inj hs
      have hnone := h.sending_eq_nil hallowed
      refine ⟨trivial, { h with message := ?_, fifo := ?_ }⟩
      · exact congrArg (store · off bytes) h.message
      · have hfifo := h.fifo
        rw [hnone] at hfifo
        simpa [hnone, Record.after] using hfifo
  | clearRecv =>
      obtain rfl := Option.some.inj hs
      refine ⟨trivial, { h with received := fun hlt => ?_ }⟩
      have hdone : r.recvComps = r.recvPosts := hallowed
      have hposts := h.recvPosts
      simp only [Record.after] at hlt
      omega
  | loadRecv off n =>
      simp only [Port.answer] at hs
      split at hs
      · rename_i hreply
        obtain rfl := Option.some.inj hs
        have hmsg := h.recvMsg_eq hinbox hallowed.1 hallowed.2.1
        refine ⟨hreply.trans (by rw [hmsg]), ?_⟩
        rw [Record.after]
        split
        · exact { h with }
        · exact h
      · exact absurd hs (by simp)
  | postSend =>
      simp only [Port.answer] at hs
      split at hs
      · rename_i hret
        obtain rfl := Option.some.inj hs
        refine ⟨hret, { h with fifo := ?_ }⟩
        have hentry : (if sendInline = true then some port.sendMsg else none).getD port.sendMsg
            = r.message := by
          rw [← h.message]
          cases sendInline <;> rfl
        simp only [Record.after, List.map_append, List.map_cons, List.map_nil, hentry]
        rw [← List.append_assoc, ← h.fifo]
      · exact absurd hs (by simp)
  | getSendComp =>
      simp only [Port.answer] at hs
      split at hs
      · rename_i hret
        obtain rfl := Option.some.inj hs
        exact ⟨Or.inl hret, { h with sendComps := by simpa [Record.after, hret] using h.sendComps }⟩
      · split at hs
        · rename_i hret
          obtain rfl := Option.some.inj hs
          refine ⟨Or.inr hret.1, { h with sendComps := ?_ }⟩
          have hcomps := h.sendComps
          have hone : reply.toNat = 1 := by rw [hret.1]; rfl
          simp only [Record.after, hone]
          omega
        · exact absurd hs (by simp)
  | postRecv =>
      simp only [Port.answer] at hs
      split at hs
      · rename_i hret
        obtain rfl := Option.some.inj hs
        refine ⟨hret, { h with recvPosts := ?_ }⟩
        have hposts := h.recvPosts
        simp only [Record.after]
        omega
      · exact absurd hs (by simp)
  | getRecvComp =>
      simp only [Port.answer] at hs
      split at hs
      · rename_i hret
        obtain rfl := Option.some.inj hs
        exact ⟨Or.inl hret, { h with recvComps := by simpa [Record.after, hret] using h.recvComps }⟩
      · split at hs
        · rename_i hret
          obtain rfl := Option.some.inj hs
          refine ⟨Or.inr hret.1, { h with recvComps := ?_ }⟩
          have hcomps := h.recvComps
          have hone : reply.toNat = 1 := by rw [hret.1]; rfl
          simp only [Record.after, hone]
          omega
        · exact absurd hs (by simp)
  | regMr addr length access =>
      cases reply with
      | none => exact absurd hs (by simp [Port.answer])
      | some mr =>
          simp only [Port.answer] at hs
          split at hs
          · rename_i hmr
            obtain rfl := Option.some.inj hs
            refine ⟨⟨mr.rkey, ?_⟩, { h with }⟩
            rw [← hmr.1, ← hmr.2]
          · exact absurd hs (by simp)
  | storeHandle handle =>
      obtain rfl := Option.some.inj hs
      exact ⟨trivial, { h with }⟩
  | _ =>
      obtain rfl := Option.some.inj hs
      exact ⟨trivial, h⟩

/-- The device fetches a message. -/
lemma fetch_eq (hs : port.fetch = some port') : ∃ rest, port.sending = none :: rest ∧
    port' = { port with sending := some port.sendMsg :: rest } := by
  rw [Port.fetch] at hs
  split at hs
  · rename_i rest hsending
    exact ⟨rest, hsending, (Option.some.inj hs).symm⟩
  · exact absurd hs (by simp)

lemma PortOk.fetch (h : PortOk r port arrived) (hs : port.fetch = some port') :
    PortOk r port' arrived := by
  obtain ⟨rest, hsending, rfl⟩ := fetch_eq hs
  refine { h with fifo := ?_ }
  have hfifo := h.fifo
  rw [hsending] at hfifo
  simpa using hfifo

/-- A message comes to a side. -/
lemma receive_eq (hs : port.receive bytes = some port') : 0 < port.posted ∧
    port' = { port with
      recvMsg := bytes
      posted := port.posted - 1
      recvCq := port.recvCq + 1
      delivered := port.delivered ++ [bytes] } := by
  rw [Port.receive] at hs
  split at hs
  · rename_i hposted
    exact ⟨hposted, (Option.some.inj hs).symm⟩
  · exact absurd hs (by simp)

lemma PortOk.receive (h : PortOk r port arrived) (hs : port.receive bytes = some port') :
    PortOk r port' arrived := by
  obtain ⟨hposted, rfl⟩ := receive_eq hs
  have hposts := h.recvPosts
  have hcomps := h.recvComps
  refine { h with recvPosts := ?_, recvComps := ?_, received := fun _ => ?_ }
  · simp only [List.length_append, List.length_singleton]
    omega
  · simp only [List.length_append, List.length_singleton]
    omega
  · simp

/-- The message of a side has arrived. -/
lemma PortOk.arrive {rest : List (Option (List UInt8))} (h : PortOk r port arrived)
    (hsending : port.sending = some bytes :: rest) :
    PortOk r { port with sending := rest, unacked := port.unacked + 1 } (arrived ++ [bytes]) := by
  refine { h with fifo := ?_, sendComps := ?_ }
  · have hfifo := h.fifo
    rw [hsending] at hfifo
    simpa using hfifo
  · have hcomps := h.sendComps
    simp only [List.length_append, List.length_singleton]
    omega

/-- The arrival is reported. -/
lemma PortOk.complete (h : PortOk r port arrived) (hpos : 0 < port.unacked) :
    PortOk r { port with unacked := port.unacked - 1, sendCq := port.sendCq + 1 } arrived := by
  refine { h with sendComps := ?_ }
  have hcomps := h.sendComps
  dsimp only
  omega

/-- Both sides have what fits what they have done. -/
def PortsOk (g : Side → Record) (ports : Ports) : Prop :=
  ∀ side, PortOk (g side) (ports side) (ports side.other).delivered

/-- A change at one side, which leaves what has arrived there. -/
lemma PortsOk.update {side : Side} {r' : Record} (h : PortsOk g ports)
    (hside : PortOk r' port' (ports side.other).delivered)
    (hdelivered : port'.delivered = (ports side).delivered) :
    PortsOk (Function.update g side r') (Function.update ports side port') := by
  intro q
  rcases side.eq_or_other q with rfl | rfl
  · rw [Function.update_self, Function.update_self, Function.update_of_ne q.other_ne]
    exact hside
  · rw [Function.update_of_ne side.other_ne, Function.update_of_ne side.other_ne,
      Side.other_other, Function.update_self, hdelivered]
    have hother := h side.other
    rwa [Side.other_other] at hother

/-- **A move of the devices.** -/
theorem portsOk_device (h : PortsOk g ports) (hs : ports.device move = some ports') :
    PortsOk g ports' := by
  cases move with
  | fetch side =>
      simp only [Ports.device] at hs
      split at hs
      · rename_i port hport
        obtain rfl := Option.some.inj hs
        have hside := (h side).fetch hport
        obtain ⟨rest, -, rfl⟩ := fetch_eq hport
        have hupdate := h.update hside rfl
        rwa [Function.update_eq_self] at hupdate
      · exact absurd hs (by simp)
  | deliver side =>
      simp only [Ports.device] at hs
      split at hs
      · rename_i bytes rest hsending
        split at hs
        · rename_i port hport
          obtain rfl := Option.some.inj hs
          have hside := (h side).receive hport
          obtain ⟨-, rfl⟩ := receive_eq hport
          have hother := h side.other
          rw [Side.other_other] at hother
          intro q
          rcases side.eq_or_other q with rfl | rfl
          · rw [Function.update_self, Function.update_of_ne q.other_ne, Function.update_self]
            exact hside
          · rw [Function.update_of_ne side.other_ne, Function.update_self, Side.other_other,
              Function.update_self]
            exact hother.arrive hsending
        · exact absurd hs (by simp)
      · exact absurd hs (by simp)
  | complete side =>
      simp only [Ports.device] at hs
      split at hs
      · rename_i hpos
        obtain rfl := Option.some.inj hs
        have hupdate := h.update ((h side).complete hpos) rfl
        rwa [Function.update_eq_self] at hupdate
      · exact absurd hs (by simp)

/-- What has arrived stays. -/
lemma delivered_device (hs : ports.device move = some ports') (side : Side) :
    (ports side).delivered <+: (ports' side).delivered := by
  cases move with
  | fetch p =>
      simp only [Ports.device] at hs
      split at hs
      · rename_i port hport
        obtain rfl := Option.some.inj hs
        by_cases hp : side = p
        · subst hp
          obtain ⟨rest', -, rfl⟩ := fetch_eq hport
          rw [Function.update_self]
        · rw [Function.update_of_ne hp]
      · exact absurd hs (by simp)
  | deliver p =>
      simp only [Ports.device] at hs
      split at hs
      · rename_i bytes rest hsending
        split at hs
        · rename_i port hport
          obtain rfl := Option.some.inj hs
          rcases p.eq_or_other side with rfl | rfl
          · obtain ⟨-, rfl⟩ := receive_eq hport
            rw [Function.update_self]
            exact List.prefix_append ..
          · rw [Function.update_of_ne p.other_ne, Function.update_self]
        · exact absurd hs (by simp)
      · exact absurd hs (by simp)
  | complete p =>
      simp only [Ports.device] at hs
      split at hs
      · obtain rfl := Option.some.inj hs
        by_cases hp : side = p
        · subst hp
          rw [Function.update_self]
        · rw [Function.update_of_ne hp]
      · exact absurd hs (by simp)

/-! ## What the sides know

`RecordOk` is about one side alone: the messages that it has sent are those that it has to send,
and what it has taken from its buffer is what was in the messages. -/

/-- What a side has sent is of its outbox, and what it knows it has read in its messages.  It
speaks of the two sequences of messages, not of the channel, so it is shown for each program alone
and put together with `PortOk` in the run of both. -/
structure RecordOk (inbox : ℕ → List UInt8) (outbox : Record → List (List UInt8)) (r : Record) :
    Prop where
  sent : r.sent <+: outbox r
  handles : ∀ k handle, r.handles[k]? = some handle →
    k < r.recvComps ∧ handle = readHandle (inbox k)
  codes : ∀ k code, r.codes[k]? = some code → k < r.recvComps ∧ code = readCode (inbox k)
  regions : ∀ mr ∈ r.regions, ∃ k < r.recvComps, mr.length = readSize (inbox k)

/-- One more entry, at the end. -/
lemma getElem?_snoc {α : Type} {l : List α} {a b : α} {k : ℕ} (h : (l ++ [a])[k]? = some b) :
    l[k]? = some b ∨ k = l.length ∧ b = a := by
  rw [List.getElem?_append] at h
  split at h
  · exact Or.inl h
  · rename_i hk
    rw [List.getElem?_singleton] at h
    split at h
    · exact Or.inr ⟨by omega, (Option.some.inj h).symm⟩
    · exact absurd h (by simp)

lemma recordOk_start : RecordOk inbox outbox {} where
  sent := List.nil_prefix
  handles _ _ h := absurd h (by simp)
  codes _ _ h := absurd h (by simp)
  regions _ h := absurd h (by simp)

/-- What is known stays known. -/
lemma RecordOk.mono {r' : Record} (h : RecordOk inbox outbox r) (hout : outbox r <+: outbox r')
    (hcomps : r.recvComps ≤ r'.recvComps) (hsent : r'.sent = r.sent)
    (hhandles : r'.handles = r.handles) (hcodes : r'.codes = r.codes)
    (hregions : r'.regions = r.regions) : RecordOk inbox outbox r' where
  sent := by
    rw [hsent]
    exact h.sent.trans hout
  handles k handle hk := by
    rw [hhandles] at hk
    exact ⟨(h.handles k handle hk).1.trans_le hcomps, (h.handles k handle hk).2⟩
  codes k code hk := by
    rw [hcodes] at hk
    exact ⟨(h.codes k code hk).1.trans_le hcomps, (h.codes k code hk).2⟩
  regions mr hmr := by
    rw [hregions] at hmr
    obtain ⟨k, hk, hlength⟩ := h.regions mr hmr
    exact ⟨k, hk.trans_le hcomps, hlength⟩

/-- **A call**, where the side keeps to its monitor and gets what it counts on. -/
theorem RecordOk.after (h : RecordOk inbox outbox r) (hallowed : r.allowed inbox outbox e.1)
    (hexpected : r.expected inbox e) (hout : outbox r <+: outbox (r.after e)) :
    RecordOk inbox outbox (r.after e) := by
  obtain ⟨c, reply⟩ := e
  cases c with
  | loadRecv off n =>
      rw [Record.after] at hout ⊢
      split at hout
      · rename_i hoff
        rw [if_pos hoff]
        refine { h with sent := h.sent.trans hout, codes := fun k code hk => ?_ }
        rcases getElem?_snoc hk with hk | ⟨rfl, rfl⟩
        · exact h.codes k code hk
        · obtain ⟨hn, hnext⟩ := hallowed.2.2 hoff
          have hread : reply = ((inbox (r.recvComps - 1)).drop off).take n := hexpected
          have hlast : r.recvComps - 1 = r.codes.length := by omega
          refine ⟨by dsimp only; omega, ?_⟩
          rw [hread, hlast, hoff, hn, List.drop_zero, readCode, readCode,
            List.getD_eq_getElem?_getD, List.getD_eq_getElem?_getD,
            List.getElem?_take_of_lt (by decide)]
      · rename_i hoff
        rw [if_neg hoff]
        exact h
  | storeHandle handle =>
      refine { h with sent := h.sent.trans hout, handles := fun k handle' hk => ?_ }
      rcases getElem?_snoc hk with hk | ⟨rfl, rfl⟩
      · exact h.handles k handle' hk
      · obtain ⟨hnext, hhandle⟩ := hallowed
        have hlast : r.recvComps - 1 = r.handles.length := by omega
        rw [hlast] at hhandle
        exact ⟨by simp only [Record.after]; omega, hhandle⟩
  | postSend => exact { h with sent := hallowed.trans hout }
  | getRecvComp => exact h.mono hout (Nat.le_add_right ..) rfl rfl rfl rfl
  | regMr addr length access =>
      refine { h with sent := h.sent.trans hout, regions := fun mr hmr => ?_ }
      obtain ⟨key, rfl⟩ := hexpected
      rcases List.mem_append.mp hmr with hmr | hmr
      · exact h.regions mr hmr
      · obtain rfl := List.mem_singleton.mp hmr
        exact ⟨r.recvComps - 1, Nat.sub_lt hallowed.1 one_pos, hallowed.2⟩
  | _ => exact h.mono hout le_rfl rfl rfl rfl rfl

end Ports

/-! ## Runs -/

/-- The record of a side in a run. -/
def recordOf (side : Side) (tr : List (Label Side Call Reply Move)) : Record :=
  (traceOf side tr).foldl Record.after {}

/-- The messages, as they come to the sides. -/
def Agrees (inbox : Side → ℕ → List UInt8) (ports : Ports) : Prop :=
  ∀ side k bytes, (ports side).delivered[k]? = some bytes → inbox side k = bytes

section Runs

variable {α : Type} {sendInline : Side → Bool} {ports ports' : Ports} {side : Side}
  {e : Event Call Reply} {move : Move} {inbox : Side → ℕ → List UInt8}
  {outbox : Side → Record → List (List UInt8)} {Q : Record → α → Prop} {g : Side → Record}
  {procs : Side → Prog Call Reply α} {tr : List (Label Side Call Reply Move)}
  {s : State Side Call Reply α Ports}

lemma answer_eq (hs : ports.answer sendInline side e = some ports') :
    ∃ port, (ports side).answer (sendInline side) e = some port ∧
      ports' = Function.update ports side port := by
  rw [Ports.answer] at hs
  split at hs
  · rename_i port hport
    exact ⟨port, hport, (Option.some.inj hs).symm⟩
  · exact absurd hs (by simp)

lemma getElem?_of_initial {l l' : List α} {a : α} {k : ℕ} (h : l <+: l') (hk : l[k]? = some a) :
    l'[k]? = some a := by
  obtain ⟨rest, rfl⟩ := h
  rw [List.getElem?_append_left (List.getElem?_eq_some_iff.mp hk).1, hk]

/-- What agrees at the end agrees before. -/
lemma Agrees.before (hagrees : Agrees inbox ports')
    (h : ∀ side, (ports side).delivered <+: (ports' side).delivered) : Agrees inbox ports :=
  fun side k bytes hk => hagrees side k bytes (getElem?_of_initial (h side) hk)

lemma Agrees.call (hagrees : Agrees inbox ports')
    (hs : ports.answer sendInline side e = some ports') : Agrees inbox ports := by
  obtain ⟨port, hport, rfl⟩ := answer_eq hs
  refine hagrees.before fun q => ?_
  by_cases hq : q = side
  · subst hq
    rw [Function.update_self, answer_delivered hport]
  · rw [Function.update_of_ne hq]

/-- **A call in the channel.** -/
lemma channel_call (hports : PortsOk g ports)
    (hrecords : ∀ side, RecordOk (inbox side) (outbox side) (g side))
    (hout : ∀ side r e, outbox side r <+: outbox side (Record.after r e))
    (hallowed : (g side).allowed (inbox side) (outbox side) e.1)
    (hs : ports.answer sendInline side e = some ports') (hagrees : Agrees inbox ports') :
    (g side).expected (inbox side) e ∧
      PortsOk (Function.update g side ((g side).after e)) ports' ∧
      ∀ q, RecordOk (inbox q) (outbox q) (Function.update g side ((g side).after e) q) := by
  have hbefore := hagrees.call hs
  obtain ⟨port, hport, rfl⟩ := answer_eq hs
  obtain ⟨hexpected, hside⟩ := (hports side).answer hallowed (hbefore side) hport
  refine ⟨hexpected, hports.update hside (answer_delivered hport), fun q => ?_⟩
  by_cases hq : q = side
  · subst hq
    rw [Function.update_self]
    exact (hrecords q).after hallowed hexpected (hout _ _ _)
  · rw [Function.update_of_ne hq]
    exact hrecords q

/-- **The rule for the channel.**  Where both programs keep to their monitors, the messages arrive
as they were sent, and what each side knows it has read in its messages.  What the messages are is
fixed by what has been delivered in the end, so that both monitors can be told of it from the
start. -/
theorem channel_run (hout : ∀ side r e, outbox side r <+: outbox side (Record.after r e))
    (hobeys : ∀ side inbox, Obeys (monitor inbox (outbox side)) Q (procs side) {})
    (h : Runs.Run (next (channel sendInline)) Runs.always ⟨procs, Ports.start⟩ tr s) :
    ∃ inbox, Agrees inbox s.shared ∧ PortsOk (fun side => recordOf side tr) s.shared ∧
      ∀ side, RecordOk (inbox side) (outbox side) (recordOf side tr) := by
  -- a message is looked at only after it has arrived: name them all by what arrives in the end
  obtain ⟨inbox, hinbox⟩ : ∃ inbox, Agrees inbox s.shared :=
    ⟨fun side k => (s.shared side).delivered.getD k [], fun side k bytes hk => by simp [hk]⟩
  have hrun := Run.monitored (fun side => monitor (inbox side) (outbox side)) (fun _ => {})
    (fun _ _ _ => True) (Q := fun _ => Q) (A := Agrees inbox)
    (I := fun _ g ports => PortsOk g ports ∧ ∀ side, RecordOk (inbox side) (outbox side) (g side))
    (fun _ _ _ _ hs hA => hA.call hs) (fun _ _ _ hs hA => hA.before (delivered_device hs))
    ⟨fun _ => portOk_start, fun _ => recordOk_start⟩ (fun side => hobeys side (inbox side))
    (fun _ _ _ _ _ _ hI hallowed _ hs hA => channel_call hI.1 hI.2 hout hallowed hs hA)
    (fun _ _ _ _ _ hI hs _ => ⟨portsOk_device hI.1 hs, hI.2⟩)
    (h.weaken fun _ choice _ => meets_true choice) hinbox
  exact ⟨inbox, hinbox, hrun.1⟩

end Runs

end Multithreading

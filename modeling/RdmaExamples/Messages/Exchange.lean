import RdmaExamples.Messages.Link

/-!
# The exchange of messages

Both programs exchange a number of messages, the client first: the server has sent as many as it
has received when it waits for the next one, the client one more.  With its second message the
client tells about its region; the server writes there and reads it before it sends its own.

* `Record` — what a side has done so far, and whether a verb has failed; `exchange n` says what a
  side may do next in an exchange of `n` messages.
* `Fits` — what a side has fits what it has done.
* `InLine` — that holds of both sides, with what the connection says of the other one.  It is kept
  by every call and by every move of the devices (`inLine_call`, `inLine_device`), so that it holds
  in every run (`inLine_run`), whichever verbs fail.

`InLine` holds whichever verbs fail, since what a failed side does any more is to give up what it
has.  That is why the queues never overflow, and why a return value can be traced back to the verb
that failed.
-/

namespace Messages

open Programs Systems Monitors

/-! ## What a side has done -/

/-- The verb has failed, and the program sees it.  What `rdma_disconnect` and `rdma_dereg_mr` answer
is dropped, so that they do not count. -/
def failed : Event Call Reply → Bool
  | ⟨.getaddrinfo _, ret⟩ => decide (ret ≠ 0)
  | ⟨.createListenEp, ret⟩ => decide (ret ≠ 0)
  | ⟨.listen, ret⟩ => decide (ret ≠ 0)
  | ⟨.getRequest, ret⟩ => decide (ret ≠ 0)
  | ⟨.queryQp, caps⟩ => decide (caps.1 ≠ 0)
  | ⟨.createEp, caps⟩ => decide (caps.1 ≠ 0)
  | ⟨.regMsgs _, mr⟩ => !mr
  | ⟨.regMr _, mr⟩ => mr.isNone
  | ⟨.postRecv, ret⟩ => decide (ret ≠ 0)
  | ⟨.accept, ret⟩ => decide (ret ≠ 0)
  | ⟨.connect, ret⟩ => decide (ret ≠ 0)
  | ⟨.established, ret⟩ => decide (ret ≠ 0)
  | ⟨.postSend _, ret⟩ => decide (ret ≠ 0)
  | ⟨.getSendComp, ret⟩ => decide (ret < 0)
  | ⟨.getRecvComp, ret⟩ => decide (ret < 0)
  | ⟨.postWrite _ _ _, ret⟩ => decide (ret ≠ 0)
  | ⟨.postRead _ _ _, ret⟩ => decide (ret ≠ 0)
  | ⟨.pollCq, ret⟩ => decide (ret < 0)
  | _ => false

/-- A verb that has not failed. -/
def Good (e : Event Call Reply) : Prop := failed e = false

/-- The record of a side: what it has done; what it has stored to be sent, and what it has sent;
what it has stored to be written; the region for the other side, and the one of its own buffer; and
what it has loaded, with where and how much. -/
structure Record where
  requested : Bool := false
  up : Bool := false
  down : Bool := false
  recvPosts : ℕ := 0
  recvComps : ℕ := 0
  sends : ℕ := 0
  posts : ℕ := 0
  sendComps : ℕ := 0
  message : List UInt8 := List.replicate bufferSize 0
  sent : List (List UInt8) := []
  stored : List UInt8 := List.replicate bufferSize 0
  region : Option Mr := none
  released : Bool := false
  localMr : Option Mr := none
  loads : List (ℕ × ℕ × List UInt8) := []
  failed : Bool := false

/-- What a call adds, its failure apart. -/
def Record.count (r : Record) : Event Call Reply → Record
  | ⟨.postRecv, ret⟩ => { r with recvPosts := r.recvPosts + if ret = 0 then 1 else 0 }
  | ⟨.accept, ret⟩ => { r with requested := r.requested || decide (ret = 0) }
  | ⟨.connect, ret⟩ => { r with requested := r.requested || decide (ret = 0) }
  | ⟨.established, ret⟩ => { r with up := r.up || decide (ret = 0) }
  | ⟨.postSend _, ret⟩ =>
      { r with
        sends := r.sends + if ret = 0 then 1 else 0
        posts := r.posts + if ret = 0 then 1 else 0
        sent := if ret = 0 then r.sent ++ [r.message] else r.sent }
  | ⟨.store buf off bytes, _⟩ =>
      { r with
        message := if buf = .sendMsg then ByteStrings.store r.message off bytes else r.message
        stored := if buf = .buffLocalSend then ByteStrings.store r.stored off bytes else r.stored }
  | ⟨.load _ off n, bytes⟩ => { r with loads := r.loads ++ [(off, n, bytes)] }
  | ⟨.regMr buf, mr⟩ =>
      { r with
        region := if buf = .rdmaBuff then mr else r.region
        localMr := if buf = .buffLocalSend then mr else r.localMr }
  | ⟨.deregMr buf, ret⟩ =>
      { r with released := r.released || decide (buf = .rdmaBuff ∧ ret = 0) }
  | ⟨.getSendComp, ret⟩ => { r with sendComps := r.sendComps + if 0 < ret then 1 else 0 }
  | ⟨.getRecvComp, ret⟩ => { r with recvComps := r.recvComps + if 0 < ret then 1 else 0 }
  | ⟨.postWrite _ _ _, ret⟩ => { r with posts := r.posts + if ret = 0 then 1 else 0 }
  | ⟨.postRead _ _ _, ret⟩ => { r with posts := r.posts + if ret = 0 then 1 else 0 }
  | ⟨.pollCq, ret⟩ => { r with sendComps := r.sendComps + if 0 < ret then 1 else 0 }
  | ⟨.disconnect, ret⟩ => { r with down := r.down || decide (ret = 0) }
  | ⟨.destroyEp, _⟩ => { r with down := true }
  | _ => r

/-- What a call adds to the record. -/
def Record.after (r : Record) (e : Event Call Reply) : Record :=
  { r.count e with failed := r.failed || Messages.failed e }

/-- The exchange is over. -/
structure Record.Done (n : ℕ) (r : Record) : Prop where
  up : r.up = true
  sends : r.sends = n
  recvPosts : r.recvPosts = n
  recvComps : r.recvComps = n
  sendComps : r.sendComps = r.posts

/-- How many messages more than it has received a side has sent while it waits for one. -/
def Side.ahead : Side → ℕ
  | .server => 0
  | .client => 1

/-- What the server writes: `"Dat"`, in a buffer that was empty. -/
def datBuffer : List UInt8 := ByteStrings.store (List.replicate bufferSize 0) 0 dat

/-- What the client tells about a region of this key and at this address, in its second message, or
`none` where it builds no message.  It is the program that says so; the exchange only asks that the
message was built like that. -/
abbrev Tell := UInt32 → UInt64 → Option (List UInt8)

/-- A side has made its second message: the client tells about its region, and the server has
written and read there. -/
def Record.Prepared (tell : Tell) (r : Record) : Side → Prop
  | .server => r.posts = r.sends + 2
  | .client => ∃ mr, r.region = some mr ∧ tell mr.rkey mr.addr = some r.message

/-- What a side has loaded is this address and this key. -/
def Record.Told (r : Record) (addr : UInt64) (rkey : UInt32) : Prop :=
  ∃ k a, r.loads = [(0, 4, k), (4, 8, a)] ∧ rkey = UInt32.ofNat (ByteStrings.ofBytes k) ∧
    addr = UInt64.ofNat (ByteStrings.ofBytes a)

/-- A side may access the memory of the other one, for the first time or for the second. -/
structure Record.Accesses (n : ℕ) (side : Side) (r : Record) (made : ℕ) (localMr : Option Mr)
    (addr : UInt64) (rkey : UInt32) : Prop where
  isServer : side = .server
  down : r.down = false
  idle : r.posts = r.sendComps
  received : 1 < r.recvComps
  before : r.sends < n
  made : r.posts = r.sends + made
  mr : r.localMr = localMr
  registered : localMr.isSome = true
  told : r.Told addr rkey

/-- What a side may do next in an exchange of `n` messages. -/
def Record.allowed (tell : Tell) (n : ℕ) (side : Side) (r : Record) : Call → Prop
  | .getRequest => side = .server
  | .accept => side = .server ∧ 0 < r.recvPosts
  | .connect => side = .client ∧ 0 < r.recvPosts
  | .established => r.requested = true
  | .postRecv => r.recvPosts < n ∧ r.recvPosts = r.recvComps
  | .postSend _ =>
      (r.up = true ∧ r.sends < n ∧ r.posts = r.sendComps ∧ r.sends < r.recvComps + side.ahead) ∧
        (0 < r.sends → r.Prepared tell side)
  | .store buf off bytes =>
      (buf = .sendMsg ∨ buf = .buffLocalSend ∧ r.posts ≤ r.sends + 1) ∧
        off + bytes.length ≤ bufferSize ∧ r.posts = r.sendComps
  | .load buf _ _ => buf = .recvMsg ∧ 1 < r.recvComps ∧ r.posts = r.sends
  | .regMr buf => buf = .rdmaBuff → r.region = none ∧ r.released = false
  | .getSendComp => r.sendComps < r.posts
  | .getRecvComp => r.up = true ∧ r.recvComps < r.recvPosts ∧ r.sends = r.recvComps + side.ahead
  | .postWrite localMr addr rkey =>
      r.Accesses n side 0 localMr addr rkey ∧ r.stored = datBuffer
  | .postRead localMr addr rkey => r.Accesses n side 1 localMr addr rkey
  | .pollCq => r.sendComps < r.posts
  | .deregMr buf => buf = .rdmaBuff → r.failed = false → r.Done n
  | .disconnect => r.failed = false → r.Done n
  | .destroyEp => r.failed = false → r.Done n
  | _ => True

/-- The monitor of a side that counts on these replies. -/
def exchange (tell : Tell) (n : ℕ) (side : Side)
    (expected : Record → Event Call Reply → Prop) :
    Monitor Call Reply Record :=
  ⟨Record.allowed tell n side, expected, Record.after⟩

/-! ## What a side has

`Fits` is about one side and its port: what the record has counted is what is in the queues and
what has gone through them.  A call changes the two together. -/

/-- The messages that a side has posted and that are still to be done. -/
def Port.messages (port : Port) : ℕ := port.sendQueue.countP WorkRequest.isSend

/-- What a side has fits what it has done; `arrived` of its messages have come to the other side. -/
structure Fits (r : Record) (port : Port) (arrived : ℕ) : Prop where
  requested : port.requested = r.requested
  up : port.up = r.up
  posts : r.posts = r.sendComps + port.sendCq + port.unreported + port.sendQueue.length
  sends : arrived + port.messages + port.lost = r.sends
  accesses : r.sends + port.sendQueue.length ≤ r.posts + port.messages
  recvPosts : r.recvPosts = port.posted + port.delivered.length + port.flushed
  recvComps : r.recvComps + port.recvCq = port.delivered.length + port.flushed
  broken : port.broken = (r.down || port.refused)
  message : port.buffers .sendMsg = r.message

/-- What a side may have done, whatever came back. -/
structure Record.Ok (n : ℕ) (side : Side) (r : Record) : Prop where
  sends : r.sends ≤ n
  turn : r.sends ≤ r.recvComps + side.ahead
  posts : r.posts ≤ r.sendComps + 1
  recvPosts : r.recvPosts ≤ r.recvComps + 1
  receives : r.recvPosts ≤ n
  ready : r.requested = true → 0 < r.recvPosts
  asked : r.up = true → r.requested = true
  worked : 0 < r.posts → r.up = true
  received : 0 < r.recvComps → r.up = true
  accessed : r.posts = r.sends ∨ 1 < r.recvComps
  down : r.down = true → r.failed = false → r.Done n

section

variable {tell : Tell} {n : ℕ} {side : Side} {r : Record} {port port' other : Port} {arrived : ℕ}
  {e : Event Call Reply}

lemma Record.ok_start : Record.Ok n side {} where
  sends := Nat.zero_le n
  turn := Nat.zero_le _
  posts := Nat.zero_le _
  recvPosts := Nat.zero_le _
  receives := Nat.zero_le n
  ready h := absurd h (by simp)
  asked h := absurd h (by simp)
  worked h := absurd h (by simp)
  received h := absurd h (by simp)
  accessed := Or.inl rfl
  down h := absurd h (by simp)

lemma fits_start : Fits {} {} 0 :=
  ⟨rfl, rfl, rfl, rfl, le_rfl, rfl, rfl, rfl, rfl⟩

/-- One more, or none. -/
lemma one_or_none {c : Prop} [Decidable c] (k : ℕ) :
    (k + if c then 1 else 0) = k + 1 ∧ c ∨ (k + if c then 1 else 0) = k ∧ ¬ c := by
  by_cases hc : c
  · exact Or.inl ⟨by rw [if_pos hc], hc⟩
  · exact Or.inr ⟨by rw [if_neg hc]; rfl, hc⟩

lemma Record.failed_of_after (h : (r.after e).failed = false) : r.failed = false := by
  rw [Record.after, Bool.or_eq_false_iff] at h
  exact h.1

/-- A record with the same counts. -/
lemma Record.Ok.same {r' : Record} (h : r.Ok n side) (hrequested : r'.requested = r.requested)
    (hup : r'.up = r.up) (hdown : r'.down = true → r'.failed = false → r.Done n)
    (hrecvPosts : r'.recvPosts = r.recvPosts) (hrecvComps : r'.recvComps = r.recvComps)
    (hsends : r'.sends = r.sends) (hposts : r'.posts = r.posts)
    (hsendComps : r'.sendComps = r.sendComps) : r'.Ok n side where
  sends := hsends ▸ h.sends
  turn := by rw [hsends, hrecvComps]; exact h.turn
  posts := by rw [hposts, hsendComps]; exact h.posts
  recvPosts := by rw [hrecvPosts, hrecvComps]; exact h.recvPosts
  receives := hrecvPosts ▸ h.receives
  ready hr := by rw [hrecvPosts]; exact h.ready (hrequested ▸ hr)
  asked hr := by rw [hrequested]; exact h.asked (hup ▸ hr)
  worked hr := by rw [hup]; exact h.worked (hposts ▸ hr)
  received hr := by rw [hup]; exact h.received (hrecvComps ▸ hr)
  accessed := by rw [hposts, hsends, hrecvComps]; exact h.accessed
  down hd hf := by
    have hdone := hdown hd hf
    exact ⟨hup.trans hdone.up, hsends.trans hdone.sends, hrecvPosts.trans hdone.recvPosts,
      hrecvComps.trans hdone.recvComps, by rw [hsendComps, hposts, hdone.sendComps]⟩

/-- A post to the send queue. -/
lemma Record.Ok.posted {r' : Record} (h : r.Ok n side) {k m : ℕ} (hk : k ≤ 1) (hm : m ≤ k)
    (hup : r.up = true) (hroom : r.sends + m ≤ n) (hturn : r.sends + m ≤ r.recvComps + side.ahead)
    (hnone : r.posts = r.sendComps) (haccess : m = k ∨ 1 < r.recvComps)
    (hdown : r'.down = true → r'.failed = false → k = 0 ∧ r.Done n)
    (hr : r' = { r with
      sends := r.sends + m
      posts := r.posts + k
      sent := r'.sent
      failed := r'.failed }) : r'.Ok n side := by
  rw [hr] at hdown ⊢
  refine { h with
    sends := hroom, turn := hturn, posts := ?_, worked := fun _ => hup, accessed := ?_,
    down := fun hd hf => ?_ }
  · simp only
    omega
  · have haccessed := h.accessed
    simp only
    omega
  · obtain ⟨rfl, hdone⟩ := hdown hd hf
    obtain rfl : m = 0 := by omega
    exact ⟨hdone.up, hdone.sends, hdone.recvPosts, hdone.recvComps, hdone.sendComps⟩

/-- **What a side has done**, where it keeps to its monitor. -/
theorem Record.Ok.after (h : r.Ok n side) (hallowed : r.allowed tell n side e.1) :
    (r.after e).Ok n side := by
  have hbefore : r.down = true → (r.after e).failed = false → r.Done n :=
    fun hd hf => h.down hd (Record.failed_of_after hf)
  obtain ⟨c, reply⟩ := e
  cases c with
  | postRecv =>
      obtain ⟨hroom, hnone⟩ := hallowed
      rcases one_or_none (c := reply = 0) r.recvPosts with ⟨hcount, -⟩ | ⟨hcount, -⟩
      · refine { h with
          recvPosts := ?_, receives := ?_, ready := fun _ => ?_, down := fun hd hf => ?_ }
        · show (r.recvPosts + if reply = 0 then 1 else 0) ≤ r.recvComps + 1
          omega
        · show (r.recvPosts + if reply = 0 then 1 else 0) ≤ n
          omega
        · show 0 < (r.recvPosts + if reply = 0 then 1 else 0)
          omega
        · have hdone := hbefore hd hf
          exact absurd hdone.recvPosts (by omega)
      · exact h.same rfl rfl hbefore hcount rfl rfl rfl rfl
  | accept | connect =>
      refine { h with
        ready := fun _ => hallowed.2, asked := fun hup => ?_, down := fun hd hf => ?_ }
      · show (r.requested || decide (reply = 0)) = true
        rw [h.asked hup, Bool.true_or]
      · have hdone := hbefore hd hf
        exact ⟨hdone.up, hdone.sends, hdone.recvPosts, hdone.recvComps, hdone.sendComps⟩
  | established =>
      refine { h with
        asked := fun _ => hallowed, worked := fun hs => ?_, received := fun hs => ?_,
        down := fun hd hf => ?_ }
      · show (r.up || decide (reply = 0)) = true
        rw [h.worked hs, Bool.true_or]
      · show (r.up || decide (reply = 0)) = true
        rw [h.received hs, Bool.true_or]
      · have hdone := hbefore hd hf
        refine ⟨?_, hdone.sends, hdone.recvPosts, hdone.recvComps, hdone.sendComps⟩
        show (r.up || decide (reply = 0)) = true
        rw [hdone.up, Bool.true_or]
  | postSend inl =>
      obtain ⟨⟨hup, hroom, hnone, hturn⟩, -⟩ := hallowed
      have hone : (if reply = 0 then 1 else 0) ≤ 1 := by split <;> omega
      refine h.posted hone le_rfl hup (by omega) (by omega) hnone (Or.inl rfl) (fun hd hf => ?_) rfl
      exact absurd (hbefore hd hf).sends (by omega)
  | getSendComp | pollCq =>
      have hlt : r.sendComps < r.posts := hallowed
      refine { h with posts := ?_, down := fun hd hf => ?_ }
      · show r.posts ≤ (r.sendComps + if 0 < reply then 1 else 0) + 1
        exact h.posts.trans (by omega)
      · exact absurd (hbefore hd hf).sendComps (by omega)
  | getRecvComp =>
      obtain ⟨hup, hlt, hturn⟩ := hallowed
      refine { h with
        turn := ?_, recvPosts := ?_, received := fun _ => hup, accessed := ?_,
        down := fun hd hf => ?_ }
      · show r.sends ≤ (r.recvComps + if 0 < reply then 1 else 0) + side.ahead
        exact h.turn.trans (by omega)
      · show r.recvPosts ≤ (r.recvComps + if 0 < reply then 1 else 0) + 1
        exact h.recvPosts.trans (by omega)
      · have haccessed := h.accessed
        show r.posts = r.sends ∨ 1 < (r.recvComps + if 0 < reply then 1 else 0)
        omega
      · have hdone := hbefore hd hf
        exact absurd (hdone.recvPosts.trans hdone.recvComps.symm) (by omega)
  | postWrite localMr addr rkey =>
      have haccess := hallowed.1
      have hone : (if reply = 0 then 1 else 0) ≤ 1 := by split <;> omega
      refine h.posted hone (Nat.zero_le _) (h.received (by have := haccess.received; omega)) h.sends
        h.turn haccess.idle (Or.inr haccess.received) (fun hd _ => ?_) rfl
      exact absurd (haccess.down.symm.trans hd) (by simp)
  | postRead localMr addr rkey =>
      have haccess : r.Accesses n side 1 localMr addr rkey := hallowed
      have hone : (if reply = 0 then 1 else 0) ≤ 1 := by split <;> omega
      refine h.posted hone (Nat.zero_le _) (h.received (by have := haccess.received; omega)) h.sends
        h.turn haccess.idle (Or.inr haccess.received) (fun hd _ => ?_) rfl
      exact absurd (haccess.down.symm.trans hd) (by simp)
  | disconnect | destroyEp =>
      refine h.same rfl rfl (fun _ hf => hallowed ?_) rfl rfl rfl rfl rfl
      exact Record.failed_of_after hf
  | _ => exact h.same rfl rfl hbefore rfl rfl rfl rfl rfl

/-- A look at the send completions. -/
lemma Port.pollSend_eq {ret : Int} (hs : port.pollSend ret = some port') :
    port' = { port with sendCq := port'.sendCq } ∧
      (port.sendCq = port'.sendCq + if 0 < ret then 1 else 0) ∧ ret ≤ 1 := by
  rw [Port.pollSend] at hs
  split at hs
  · rename_i hret
    obtain rfl := Option.some.inj hs
    exact ⟨rfl, by rw [if_neg (by omega)]; rfl, by omega⟩
  · split at hs
    · rename_i hret
      obtain rfl := Option.some.inj hs
      refine ⟨rfl, ?_, hret.1.le⟩
      rw [if_pos (by omega)]
      exact (Nat.sub_add_cancel hret.2).symm
    · exact absurd hs (by simp)

/-- A look at the receive completions. -/
lemma Port.pollRecv_eq {ret : Int} (hs : port.pollRecv ret = some port') :
    port' = { port with recvCq := port'.recvCq } ∧
      (port.recvCq = port'.recvCq + if 0 < ret then 1 else 0) ∧ ret ≤ 1 := by
  rw [Port.pollRecv] at hs
  split at hs
  · rename_i hret
    obtain rfl := Option.some.inj hs
    exact ⟨rfl, by rw [if_neg (by omega)]; rfl, by omega⟩
  · split at hs
    · rename_i hret
      obtain rfl := Option.some.inj hs
      refine ⟨rfl, ?_, hret.1.le⟩
      rw [if_pos (by omega)]
      exact (Nat.sub_add_cancel hret.2).symm
    · exact absurd hs (by simp)

/-- A post to the send queue. -/
lemma Fits.post (h : Fits r port arrived) {r' : Record} {wr : WorkRequest} {ret : Int}
    (hr : r' = { r with
      sends := r.sends + (if ret = 0 then 1 else 0) * (if wr.isSend = true then 1 else 0)
      posts := r.posts + if ret = 0 then 1 else 0
      sent := r'.sent
      failed := r'.failed }) : Fits r' (port.post wr ret) arrived := by
  rw [hr, Port.post]
  by_cases hret : ret = 0
  · simp only [if_pos hret, one_mul]
    have hposts := h.posts
    have hsends := h.sends
    have haccesses := h.accesses
    simp only [Port.messages] at hsends haccesses
    refine { h with posts := ?_, sends := ?_, accesses := ?_ }
    · simp only [List.length_append, List.length_singleton]
      omega
    · simp only [Port.messages, List.countP_append, List.countP_singleton]
      omega
    · simp only [Port.messages, List.length_append, List.length_singleton, List.countP_append,
        List.countP_singleton]
      omega
  · simp only [if_neg hret, zero_mul, Nat.add_zero]
    exact { h with }

/-- What no call of a side looks at. -/
def Port.fate (port : Port) : List (List UInt8) × ℕ × ℕ × Bool :=
  (port.delivered, port.flushed, port.lost, port.refused)

/-- **What a side has fits what it has done**, after each of its calls. -/
theorem Fits.answer (h : Fits r port arrived) (hs : port.answer other side e = some port') :
    Fits (r.after e) port' arrived ∧ port'.fate = port.fate := by
  obtain ⟨c, reply⟩ := e
  cases c with
  | store buf off bytes =>
      obtain rfl := Option.some.inj hs
      cases buf with
      | sendMsg =>
          refine ⟨{ h with message := ?_ }, rfl⟩
          show Function.update port.buffers .sendMsg
            (ByteStrings.store (port.buffers .sendMsg) off bytes) .sendMsg =
              ByteStrings.store r.message off bytes
          rw [Function.update_self, h.message]
      | recvMsg | buffLocalSend | rdmaBuff => exact ⟨{ h with message := h.message }, rfl⟩
  | getRequest =>
      simp only [Port.answer] at hs
      split at hs
      · exact absurd hs (by simp)
      · obtain rfl := Option.some.inj hs
        exact ⟨{ h with }, rfl⟩
  | established =>
      simp only [Port.answer] at hs
      split at hs
      · exact absurd hs (by simp)
      · obtain rfl := Option.some.inj hs
        exact ⟨{ h with up := congrArg (· || decide (reply = 0)) h.up }, rfl⟩
  | accept =>
      obtain rfl := Option.some.inj hs
      exact ⟨{ h with requested := congrArg (· || decide (reply = 0)) h.requested }, rfl⟩
  | connect =>
      obtain rfl := Option.some.inj hs
      exact ⟨{ h with requested := congrArg (· || decide (reply = 0)) h.requested }, rfl⟩
  | postRecv =>
      obtain rfl := Option.some.inj hs
      refine ⟨{ h with recvPosts := ?_ }, rfl⟩
      have hposts := h.recvPosts
      show (r.recvPosts + if reply = 0 then 1 else 0) =
        (port.posted + if reply = 0 then 1 else 0) + port.delivered.length + port.flushed
      omega
  | load buf off n =>
      simp only [Port.answer] at hs
      split at hs
      · obtain rfl := Option.some.inj hs
        exact ⟨{ h with }, rfl⟩
      · exact absurd hs (by simp)
  | postSend inl =>
      obtain rfl := Option.some.inj hs
      refine ⟨h.post ?_, ?_⟩
      · simp [Record.after, Record.count, WorkRequest.isSend]
      · rw [Port.post]
        split <;> rfl
  | postWrite localMr addr rkey =>
      obtain rfl := Option.some.inj hs
      refine ⟨h.post ?_, ?_⟩
      · simp [Record.after, Record.count, WorkRequest.isSend]
      · rw [Port.post]
        split <;> rfl
  | postRead localMr addr rkey =>
      obtain rfl := Option.some.inj hs
      refine ⟨h.post ?_, ?_⟩
      · simp [Record.after, Record.count, WorkRequest.isSend]
      · rw [Port.post]
        split <;> rfl
  | getSendComp =>
      obtain ⟨hport, hcq, -⟩ := Port.pollSend_eq hs
      rw [hport]
      refine ⟨{ h with posts := ?_ }, rfl⟩
      have hposts := h.posts
      show r.posts = (r.sendComps + if 0 < reply then 1 else 0) + port'.sendCq + port.unreported +
        port.sendQueue.length
      omega
  | pollCq =>
      obtain ⟨hport, hcq, -⟩ := Port.pollSend_eq hs
      rw [hport]
      refine ⟨{ h with posts := ?_ }, rfl⟩
      have hposts := h.posts
      show r.posts = (r.sendComps + if 0 < reply then 1 else 0) + port'.sendCq + port.unreported +
        port.sendQueue.length
      omega
  | getRecvComp =>
      obtain ⟨hport, hcq, -⟩ := Port.pollRecv_eq hs
      rw [hport]
      refine ⟨{ h with recvComps := ?_ }, rfl⟩
      have hcomps := h.recvComps
      show (r.recvComps + if 0 < reply then 1 else 0) + port'.recvCq =
        port.delivered.length + port.flushed
      omega
  | disconnect =>
      obtain rfl := Option.some.inj hs
      refine ⟨{ h with broken := ?_ }, rfl⟩
      show (port.broken || decide (reply = 0)) = ((r.down || decide (reply = 0)) || port.refused)
      rw [h.broken, Bool.or_right_comm]
  | destroyEp =>
      obtain rfl := Option.some.inj hs
      exact ⟨{ h with broken := rfl }, rfl⟩
  | _ =>
      obtain rfl := Option.some.inj hs
      exact ⟨{ h with }, rfl⟩

/-! ## The devices of a side

A move of the devices changes the port and not the record.  So for each move there is a lemma that
says which of the numbers in `Fits` change, and that their sums do not. -/

/-- What is at the front of the queue is done: a message has arrived, or is lost. -/
lemma Fits.finish (h : Fits r port arrived) {wr : WorkRequest} {rest : List WorkRequest}
    (hqueue : port.sendQueue = wr :: rest) {arrived' lost : ℕ}
    (hsum : arrived' + lost = arrived + port.lost + if wr.isSend = true then 1 else 0) :
    Fits r { port.finish with lost := lost } arrived' := by
  have hposts := h.posts
  have hsends := h.sends
  have haccesses := h.accesses
  simp only [Port.messages, hqueue, List.countP_cons, List.length_cons] at hposts hsends haccesses
  have hone : (if wr.isSend = true then 1 else 0) ≤ 1 := by split <;> omega
  refine { h with posts := ?_, sends := ?_, accesses := ?_ }
  · simp only [Port.finish, hqueue, List.tail_cons]
    omega
  · simp only [Port.messages, Port.finish, hqueue, List.tail_cons]
    omega
  · simp only [Port.messages, Port.finish, hqueue, List.tail_cons]
    omega

/-- A message comes to a side. -/
lemma Fits.receive {bytes : List UInt8} (h : Fits r port arrived) (hposted : 0 < port.posted) :
    Fits r (port.receive bytes) arrived := by
  have hposts := h.recvPosts
  have hcomps := h.recvComps
  refine { h with recvPosts := ?_, recvComps := ?_, message := h.message }
  · simp only [Port.receive, List.length_append, List.length_singleton, Port.store]
    omega
  · simp only [Port.receive, List.length_append, List.length_singleton, Port.store]
    omega

/-- A receive is flushed. -/
lemma Fits.flushRecv (h : Fits r port arrived) (hposted : 0 < port.posted) :
    Fits r port.flushRecv arrived := by
  have hposts := h.recvPosts
  have hcomps := h.recvComps
  refine { h with recvPosts := ?_, recvComps := ?_ }
  · simp only [Port.flushRecv]
    omega
  · simp only [Port.flushRecv]
    omega

/-- A message is fetched. -/
lemma Fits.fetch (h : Fits r port arrived) {rest : List WorkRequest}
    (hqueue : port.sendQueue = .send none :: rest) : Fits r (port.fetch rest) arrived := by
  have hposts := h.posts
  have hsends := h.sends
  have haccesses := h.accesses
  refine { h with posts := ?_, sends := ?_, accesses := ?_ }
  · simpa [Port.fetch, hqueue] using hposts
  · simpa only [Port.fetch, Port.messages, hqueue, List.countP_cons, WorkRequest.isSend]
      using hsends
  · simpa only [Port.fetch, Port.messages, hqueue, List.countP_cons, List.length_cons,
      WorkRequest.isSend] using haccesses

/-- A remote access changes nothing but a buffer of each side. -/
lemma access_eq {wr : WorkRequest} {ports : Port × Port} (hs : access port other wr = some ports) :
    wr.isSend = false ∧
      (∃ buffers, ports.1 = { port with buffers := buffers } ∧
        buffers .sendMsg = port.buffers .sendMsg) ∧
      ∃ buffers, ports.2 = { other with buffers := buffers } ∧
        buffers .sendMsg = other.buffers .sendMsg := by
  cases wr with
  | send bytes => exact absurd hs (by simp [access])
  | write localMr addr rkey =>
      cases localMr with
      | none => exact absurd hs (by simp [access])
      | some mr =>
          simp only [access] at hs
          split at hs
          · obtain rfl := Option.some.inj hs
            exact ⟨rfl, ⟨port.buffers, rfl, rfl⟩, ⟨_, rfl, rfl⟩⟩
          · exact absurd hs (by simp)
  | read localMr addr rkey =>
      cases localMr with
      | none => exact absurd hs (by simp [access])
      | some mr =>
          simp only [access] at hs
          split at hs
          · obtain rfl := Option.some.inj hs
            exact ⟨rfl, ⟨_, rfl, rfl⟩, ⟨other.buffers, rfl, rfl⟩⟩
          · exact absurd hs (by simp)

lemma Fits.buffers (h : Fits r port arrived) {buffers : Buffer → List UInt8}
    (hsame : buffers .sendMsg = port.buffers .sendMsg) :
    Fits r { port with buffers := buffers } arrived := { h with message := hsame.trans h.message }

lemma Fits.refuse (h : Fits r port arrived) : Fits r port.refuse arrived :=
  { h with broken := (Bool.or_true _).symm }

lemma Fits.report (h : Fits r port arrived) (hpos : 0 < port.unreported) :
    Fits r port.report arrived := by
  have hposts := h.posts
  refine { h with posts := ?_ }
  simp only [Port.report]
  omega

end

/-! ## Both sides

What one side knows of the other one is little: that it has the connection, and that a message
which has come in was sent. -/

/-- Both sides have what fits what they have done, and know of each other what the connection says.
`accepted` and `connected` are the order of the handshake: the client has its connection only
behind the request of the server, and the server has its own only behind the client's. -/
structure InLine (n : ℕ) (g : Side → Record) (link : Link) : Prop where
  fits : ∀ side, Fits (g side) (link side) (link side.other).delivered.length
  ok : ∀ side, (g side).Ok n side
  accepted : (g .client).up = true → (g .server).requested = true
  connected : (g .server).up = true → (g .client).up = true
  flushed : link.Works → ∀ side, (link side).flushed = 0

section

variable {tell : Tell} {n : ℕ} {side : Side} {g : Side → Record} {l l' : Link} {port other : Port}
  {e : Event Call Reply} {move : Move}

lemma inLine_start : InLine n (fun _ => {}) Link.start where
  fits _ := fits_start
  ok _ := Record.ok_start
  accepted h := absurd h (by simp)
  connected h := absurd h (by simp)
  flushed _ _ := rfl

lemma Link.works_iff (side : Side) :
    l.Works ↔ (l side).broken = false ∧ (l side.other).broken = false := by
  refine ⟨fun h => ⟨h side, h side.other⟩, fun h q => ?_⟩
  rcases side.eq_or_other q with rfl | rfl
  · exact h.1
  · exact h.2

lemma Link.set_self : l.set side port other side = port := Function.update_self ..

lemma Link.set_other : l.set side port other side.other = other := by
  rw [Link.set, Function.update_of_ne side.other_ne, Function.update_self]

lemma Link.update_eq_set : Function.update l side port = l.set side port (l side.other) := by
  rw [Link.set, Function.update_eq_self]

/-- What a change at both sides leaves as it was. -/
lemma Link.set_congr {α : Type} (view : Port → α) (hport : view port = view (l side))
    (hother : view other = view (l side.other)) (q : Side) :
    view (l.set side port other q) = view (l q) := by
  rcases side.eq_or_other q with rfl | rfl
  · rw [Link.set_self, hport]
  · rw [Link.set_other, hother]

/-- What a change at one side leaves as it was. -/
lemma Link.update_congr {α : Type} (view : Port → α) (hport : view port = view (l side))
    (q : Side) : view (Function.update l side port q) = view (l q) := by
  rw [Link.update_eq_set]
  exact Link.set_congr view hport rfl q

/-- A change at both sides. -/
lemma InLine.set (h : InLine n g l) (hside : Fits (g side) port other.delivered.length)
    (hother : Fits (g side.other) other port.delivered.length)
    (hworks : port.broken = false → other.broken = false → l.Works)
    (hflushed : l.Works → port.flushed = (l side).flushed ∧
      other.flushed = (l side.other).flushed) :
    InLine n g (l.set side port other) := by
  refine ⟨fun q => ?_, h.ok, h.accepted, h.connected, fun hset q => ?_⟩
  · rcases side.eq_or_other q with rfl | rfl
    · rw [Link.set_self, Link.set_other]
      exact hside
    · rw [Side.other_other, Link.set_self, Link.set_other]
      exact hother
  · rw [Link.works_iff side, Link.set_self, Link.set_other] at hset
    have hbefore := hworks hset.1 hset.2
    rcases side.eq_or_other q with rfl | rfl
    · rw [Link.set_self, (hflushed hbefore).1]
      exact h.flushed hbefore q
    · rw [Link.set_other, (hflushed hbefore).2]
      exact h.flushed hbefore side.other

/-- A change of what a side has, which leaves what has arrived there. -/
lemma InLine.update (h : InLine n g l)
    (hside : Fits (g side) port (l side.other).delivered.length)
    (hdelivered : port.delivered = (l side).delivered) (hbroken : port.broken = (l side).broken)
    (hflushed : l.Works → port.flushed = (l side).flushed) :
    InLine n g (Function.update l side port) := by
  have hother := h.fits side.other
  rw [Side.other_other, ← hdelivered] at hother
  rw [Link.update_eq_set]
  refine h.set hside hother (fun hb hb' => ?_) fun hworks => ⟨hflushed hworks, rfl⟩
  rw [Link.works_iff side]
  exact ⟨hbroken ▸ hb, hb'⟩

/-- The call of a side. -/
lemma Link.answer_eq (hs : l.answer side e = some l') :
    ∃ port, (l side).answer (l side.other) side e = some port ∧
      l' = Function.update l side port := by
  rw [Link.answer] at hs
  split at hs
  · rename_i port hport
    exact ⟨port, hport, (Option.some.inj hs).symm⟩
  · exact absurd hs (by simp)

/-- What has been asked for and what has been established stays so. -/
lemma Record.requested_after {r : Record} (h : r.requested = true) :
    (r.after e).requested = true := by
  obtain ⟨c, reply⟩ := e
  cases c with
  | accept => exact (congrArg (· || decide (reply = 0)) h).trans (Bool.true_or _)
  | connect => exact (congrArg (· || decide (reply = 0)) h).trans (Bool.true_or _)
  | _ => exact h

lemma Record.up_after {r : Record} (h : r.up = true) : (r.after e).up = true := by
  obtain ⟨c, reply⟩ := e
  cases c with
  | established => exact (congrArg (· || decide (reply = 0)) h).trans (Bool.true_or _)
  | _ => exact h

lemma Record.down_after {r : Record} (h : r.down = true) : (r.after e).down = true := by
  obtain ⟨c, reply⟩ := e
  cases c with
  | disconnect => exact (congrArg (· || decide (reply = 0)) h).trans (Bool.true_or _)
  | destroyEp => rfl
  | _ => exact h

/-- A side has its connection only if the other side has answered. -/
lemma Record.up_of_after {r : Record}
    (hs : (l side).answer (l side.other) side e = some port) (h : (r.after e).up = true) :
    r.up = true ∨ (l side.other).hasAnswered side = true := by
  obtain ⟨c, reply⟩ := e
  cases c with
  | established =>
      simp only [Port.answer] at hs
      split at hs
      · exact absurd hs (by simp)
      · rename_i hanswered
        by_cases hup : r.up = true
        · exact Or.inl hup
        · have hzero : reply = 0 := by
            have hor : (r.up || decide (reply = 0)) = true := h
            simpa [hup] using hor
          right
          simpa [hzero] using hanswered
  | _ => exact Or.inl h

/-- **A call keeps both sides in line**, whatever the verb answers.  The caller fits its new
record, and the other side only sees what has been delivered and flushed, which a call does not
change. -/
theorem inLine_call (h : InLine n g l) (hallowed : (g side).allowed tell n side e.1)
    (hs : l.answer side e = some l') :
    InLine n (Function.update g side ((g side).after e)) l' := by
  obtain ⟨port, hport, rfl⟩ := Link.answer_eq hs
  obtain ⟨hfits, hfate⟩ := (h.fits side).answer hport
  simp only [Port.fate, Prod.mk.injEq] at hfate
  obtain ⟨hdelivered, hflushed, -, hrefused⟩ := hfate
  refine ⟨fun q => ?_, fun q => ?_, ?_, ?_, fun hworks q => ?_⟩
  · rcases side.eq_or_other q with rfl | rfl
    · rw [Function.update_self, Function.update_self, Function.update_of_ne q.other_ne]
      exact hfits
    · rw [Function.update_of_ne side.other_ne, Function.update_of_ne side.other_ne,
        Side.other_other, Function.update_self, hdelivered]
      have hother := h.fits side.other
      rwa [Side.other_other] at hother
  · by_cases hq : q = side
    · subst hq
      rw [Function.update_self]
      exact (h.ok q).after hallowed
    · rw [Function.update_of_ne hq]
      exact h.ok q
  · cases side with
    | server =>
        rw [Function.update_self, Function.update_of_ne (by simp)]
        exact fun hup => Record.requested_after (h.accepted hup)
    | client =>
        rw [Function.update_self, Function.update_of_ne (by simp)]
        intro hup
        rcases Record.up_of_after hport hup with hbefore | hanswered
        · exact h.accepted hbefore
        · exact (h.fits .server).requested.symm.trans hanswered
  · cases side with
    | server =>
        rw [Function.update_self, Function.update_of_ne (by simp)]
        intro hup
        rcases Record.up_of_after hport hup with hbefore | hanswered
        · exact h.connected hbefore
        · exact (h.fits .client).up.symm.trans hanswered
    | client =>
        rw [Function.update_self, Function.update_of_ne (by simp)]
        exact fun hup => Record.up_after (h.connected hup)
  · rw [Link.works_iff side, Function.update_self, Function.update_of_ne side.other_ne] at hworks
    have hbefore : l.Works := by
      refine (Link.works_iff side).mpr ⟨?_, hworks.2⟩
      have hbroken := hfits.broken
      rw [hworks.1, hrefused] at hbroken
      rw [(h.fits side).broken]
      cases hdown : (g side).down with
      | false => exact (Bool.or_eq_false_iff.mp hbroken.symm).2
      | true =>
          rw [Record.down_after hdown] at hbroken
          exact absurd hbroken (by simp)
    by_cases hq : q = side
    · subst hq
      rw [Function.update_self, hflushed]
      exact h.flushed hbefore q
    · rw [Function.update_of_ne hq]
      exact h.flushed hbefore q

/-- **A move of the devices keeps both sides in line.**  Each move takes a work request on by one
stage, at one side or at both, so that the numbers which `Fits` compares stay equal. -/
theorem inLine_device (h : InLine n g l) (hs : l.device move = some l') : InLine n g l' := by
  cases moved_of_device hs with
  | fetch side hqueue =>
      refine h.update ((h.fits side).fetch hqueue) rfl rfl fun _ => rfl
  | deliver side hqueue hworks hposted =>
      have hother := h.fits side.other
      rw [Side.other_other] at hother
      refine h.set ((h.fits side).receive hposted) (hother.finish hqueue ?_) (fun _ _ => hworks)
        fun _ => ⟨rfl, rfl⟩
      simp only [Port.receive, List.length_append, List.length_singleton, WorkRequest.isSend,
        if_true]
      exact Nat.add_right_comm ..
  | execute side hqueue hworks haccess =>
      obtain ⟨hsend, ⟨bufs, hport, hsame⟩, bufs', hother, hsame'⟩ := access_eq haccess
      rw [hport, hother]
      have hfits := h.fits side
      have hfits' := h.fits side.other
      rw [Side.other_other] at hfits'
      refine h.set ((hfits.buffers hsame).finish hqueue ?_) (hfits'.buffers hsame')
        (fun _ _ => hworks) fun _ => ⟨rfl, rfl⟩
      rw [hsend]
      rfl
  | refuse side hqueue hsend hworks hrefuse =>
      have hother := h.fits side.other
      rw [Side.other_other] at hother
      refine h.set ((h.fits side).finish hqueue ?_).refuse hother.refuse
        (fun hb _ => absurd hb (by simp [Port.refuse])) fun _ => ⟨rfl, rfl⟩
      rw [hsend]
      rfl
  | flush side hqueue hworks =>
      refine h.update ((h.fits side).finish hqueue ?_) rfl rfl fun _ => rfl
      simp only [hqueue, List.head?_cons, Option.elim_some]
      exact (Nat.add_assoc ..).symm
  | flushRecv side hworks hposted =>
      exact h.update ((h.fits side).flushRecv hposted) rfl rfl fun hnot => absurd hnot hworks
  | report side hpos => exact h.update ((h.fits side).report hpos) rfl rfl fun _ => rfl

/-! ## Runs -/

variable {good : Event Call Reply → Prop} {Q : Side → Record → Int × Bool → Prop}
  {procs : Side → Prog Call Reply (Int × Bool)} {tr : List (Systems.Label Side Call Reply Move)}
  {s : State Side Call Reply (Int × Bool) Link}

/-- The record of a side in a run. -/
def recordOf (tr : List (Systems.Label Side Call Reply Move)) (side : Side) : Record :=
  (traceOf side tr).foldl Record.after {}

/-- **The rule for the exchange.**  Where both programs keep to it as long as their replies are
good, they are in line after every run whose replies are good, and still keep to it. -/
theorem inLine_run
    (hprocs : ∀ side, Obeys (exchange tell n side fun _ => good) (Q side) (procs side) {})
    (h : Runs.Run (next link) (Meets fun _ _ e => good e) ⟨procs, Link.start⟩ tr s) :
    InLine n (recordOf tr) s.shared ∧
      ∀ side, Obeys (exchange tell n side fun _ => good) (Q side) (s.procs side)
        (recordOf tr side) :=
  Run.monitored (fun side => exchange tell n side fun _ => good) (fun _ => {}) (fun _ _ e => good e)
    (I := fun _ g l => InLine n g l) (A := fun _ => True) (fun _ _ _ _ _ _ => trivial)
    (fun _ _ _ _ _ => trivial) inLine_start hprocs
    (fun _ _ _ _ _ _ hI hallowed hgood hs _ => ⟨hgood, inLine_call hI hallowed hs⟩)
    (fun _ _ _ _ _ hI hs _ => inLine_device hI hs) h trivial

/-- At most one work request is at any stage of a send queue, and at most one receive is posted. -/
lemma InLine.queues (h : InLine n g l) (side : Side) :
    (l side).sendQueue.length + (l side).unreported + (l side).sendCq ≤ 1 ∧
      (l side).posted + (l side).recvCq ≤ 1 := by
  have hposts := (h.fits side).posts
  have hrecvPosts := (h.fits side).recvPosts
  have hrecvComps := (h.fits side).recvComps
  have hok := (h.ok side).posts
  have hok' := (h.ok side).recvPosts
  constructor
  · omega
  · omega

/-- Before its first message a side has posted a receive, and so has the other one. -/
lemma InLine.ready (h : InLine n g l) (hsends : 0 < (g side).sends) :
    0 < (g side.other).recvPosts := by
  have hfits := (h.fits side).accesses
  have hmessages : (l side).messages ≤ (l side).sendQueue.length := List.countP_le_length
  have hup := (h.ok side).worked (by omega)
  cases side with
  | server =>
      exact (h.ok .client).ready ((h.ok .client).asked (h.connected hup))
  | client => exact (h.ok .server).ready (h.accepted hup)

/-- In an exchange of one message, one that is on its way finds a receive. -/
lemma InLine.finds_receive (h : InLine 1 g l) (hworks : l.Works)
    (hmessages : 0 < (l side).messages) : 0 < (l side.other).posted := by
  have hflushed := h.flushed hworks side.other
  have hsends := (h.fits side).sends
  have hone := (h.ok side).sends
  have hready : 0 < (g side.other).recvPosts := h.ready (by omega)
  have hposts := (h.fits side.other).recvPosts
  omega

end

end Messages

import RdmaExamples.Messages.Steady
import RdmaExamples.RdmaTest.Keys

/-!
# The shared region

What holds of the two sides of `rdma_test.c` as long as no verb fails, whether the key and the
address reach the server or not.

* `Own` — what a side has fits what it knows: its region is registered from the time that it tells
  about it until it has finished; what it has asked for is an access to the address that it was
  told; and no call changes its buffer while it is used.
* `Shared` — that holds of both sides; the server was told what the client has sent; and once the
  write is done `"Dat"` is in the memory of the client, once the read is done also in that of the
  server.
* `target_eq` — an access that is still to be done goes to the beginning of the region if the key
  and the address round-trip, and is refused if they do not.
-/

namespace RdmaTest

open Programs Systems Monitors Messages ByteStrings

/-! ## One side

`Own` is what a side can know by itself: its buffers, its region, and what it has asked for. -/

/-- The work request is a write. -/
def isWrite : WorkRequest → Bool
  | .write _ _ _ => true
  | _ => false

/-- The work request is a read. -/
def isRead : WorkRequest → Bool
  | .read _ _ _ => true
  | _ => false

/-- An access that is asked for, and that was to be asked for.  The server posts the write before
the read and both before its second send, so the numbers of posts and of sends tell which of the
two is on the queue. -/
def Pending (side : Side) (r : Record) : WorkRequest → Prop
  | .write localMr addr rkey =>
      (side = .server ∧ localMr.isSome = true ∧ r.sends < 2 ∧ r.Told addr rkey) ∧
        r.posts = r.sends + 1 ∧ r.stored = datBuffer
  | .read localMr addr rkey =>
      (side = .server ∧ localMr.isSome = true ∧ r.sends < 2 ∧ r.Told addr rkey) ∧
        r.posts = r.sends + 2
  | .send _ => True

/-- What a side has fits what it knows.  The buffer of received messages holds the last one
delivered, and the region is registered until everything is done: on these two rests that the key
which the server loads is of a region that is there. -/
structure Own (side : Side) (r : Record) (port : Port) : Prop where
  message : r.message.length = bufferSize
  sizes : ∀ msg ∈ r.sent, msg.length = bufferSize
  recvMsg : (port.buffers .recvMsg).length = bufferSize
  received : port.buffers .recvMsg = port.delivered.getLastD (List.replicate bufferSize 0)
  sends : r.sent.length = r.sends
  region : port.regions .rdmaBuff = if r.released = true then none else r.region
  released : r.released = true → r.Done 2
  told : side = .client → ∀ msg, r.sent[1]? = some msg →
    ∃ mr, r.region = some mr ∧ clientMessage mr.rkey mr.addr = some msg
  queue : ∀ wr ∈ port.sendQueue, Pending side r wr
  prepared : side = .server → 1 < r.sends → r.posts = r.sends + 2
  stored : r.posts ≤ r.sends + 1 → port.buffers .buffLocalSend = r.stored

section

variable {side : Side} {r : Record} {port port' other : Port} {arrived : ℕ}
  {e : Event Call Reply}

lemma own_start : Own side {} {} where
  message := List.length_replicate
  sizes _ h := absurd h (by simp)
  recvMsg := List.length_replicate
  received := rfl
  sends := rfl
  region := rfl
  released h := absurd h (by simp)
  told _ _ h := absurd h (by simp)
  queue _ h := absurd h (by simp)
  prepared _ h := absurd h (by simp)
  stored _ := rfl

/-- Where no access has been made, none is in the queue. -/
lemma queue_sends (hfits : Fits r port arrived) (hnone : r.posts = r.sends) :
    ∀ wr ∈ port.sendQueue, wr.isSend = true := by
  have haccesses := hfits.accesses
  have hall : port.sendQueue.countP WorkRequest.isSend = port.sendQueue.length :=
    le_antisymm List.countP_le_length (by rw [Port.messages] at haccesses; omega)
  exact List.countP_eq_length.mp hall

/-- Where all is done that was posted, nothing is in the queue. -/
lemma queue_nil (hfits : Fits r port arrived) (hidle : r.posts = r.sendComps) :
    port.sendQueue = [] := by
  have hposts := hfits.posts
  exact List.length_eq_zero_iff.mp (by omega)

lemma not_access_of_isSend {wr : WorkRequest} (h : wr.isSend = true) :
    isWrite wr = false ∧ isRead wr = false := by
  cases wr with
  | send _ => exact ⟨rfl, rfl⟩
  | write _ _ _ | read _ _ _ => exact absurd h (by simp [WorkRequest.isSend])

lemma pending_of_isSend {wr : WorkRequest} (h : wr.isSend = true) : Pending side r wr := by
  cases wr with
  | send _ => trivial
  | write _ _ _ | read _ _ _ => exact absurd h (by simp [WorkRequest.isSend])

/-- What has been posted to an empty queue is alone there. -/
lemma queue_post (wr : WorkRequest) (hnil : port.sendQueue = []) :
    (port.post wr 0).sendQueue = [wr] := by
  rw [Port.post, if_pos rfl]
  show port.sendQueue ++ [wr] = [wr]
  rw [hnil, List.nil_append]

/-- A side that is done stays so. -/
lemma done_after {n : ℕ} (h : r.Done n) (hallowed : r.allowed clientMessage n side e.1) :
    (r.after e).Done n := by
  obtain ⟨c, reply⟩ := e
  have hsends := h.sends
  have hposts := h.recvPosts
  have hrecvs := h.recvComps
  have hcomps := h.sendComps
  cases c with
  | postRecv => exact absurd hallowed.1 (by omega)
  | postSend _ => exact absurd hallowed.1.2.1 (by omega)
  | postWrite _ _ _ => exact absurd hallowed.1.before (by omega)
  | postRead _ _ _ => exact absurd (show r.sends < n from hallowed.before) (by omega)
  | getSendComp | pollCq => exact absurd (show r.sendComps < r.posts from hallowed) (by omega)
  | getRecvComp => exact absurd hallowed.2.1 (by omega)
  | established =>
      exact ⟨(congrArg (· || decide (reply = 0)) h.up).trans (Bool.true_or _), hsends, hposts,
        hrecvs, hcomps⟩
  | _ => exact ⟨h.up, hsends, hposts, hrecvs, hcomps⟩

/-! ### Its calls -/

/-- A store to a buffer, while nothing is in the queue. -/
lemma own_store {buf : Buffer} {off : ℕ} {bytes : List UInt8} {reply : Reply (.store buf off bytes)}
    (h : Own side r port) (hfits : Fits r port arrived)
    (hallowed : r.allowed clientMessage 2 side (.store buf off bytes))
    (hdone : r.released = true → (r.after ⟨.store buf off bytes, reply⟩).Done 2) :
    Own side (r.after ⟨.store buf off bytes, reply⟩) (port.store buf off bytes) := by
  obtain ⟨hbuf, hsize, hidle⟩ := hallowed
  have hnil := queue_nil hfits hidle
  rcases hbuf with rfl | ⟨rfl, hnotRead⟩
  · refine { h with message := ?_, queue := ?_, released := hdone }
    · exact (length_store (hsize.trans h.message.ge)).trans h.message
    · show ∀ wr ∈ port.sendQueue, _
      rw [hnil]
      exact List.forall_mem_nil _
  · refine { h with queue := ?_, released := hdone, stored := fun _ => ?_ }
    · show ∀ wr ∈ port.sendQueue, _
      rw [hnil]
      exact List.forall_mem_nil _
    · show Function.update port.buffers .buffLocalSend
        (store (port.buffers .buffLocalSend) off bytes) .buffLocalSend = store r.stored off bytes
      rw [Function.update_self, h.stored hnotRead]

/-- A load, which the server makes while no access is in the queue. -/
lemma own_load {buf : Buffer} {off k : ℕ} {bytes : Reply (.load buf off k)}
    (h : Own side r port) (hfits : Fits r port arrived)
    (hallowed : r.allowed clientMessage 2 side (.load buf off k))
    (hdone : r.released = true → (r.after ⟨.load buf off k, bytes⟩).Done 2) :
    Own side (r.after ⟨.load buf off k, bytes⟩) port := by
  refine { h with queue := fun wr hwr => ?_, released := hdone }
  exact pending_of_isSend (queue_sends hfits hallowed.2.2 wr hwr)

/-- A region is registered: the one for the other side at most once. -/
lemma own_regMr {buf : Buffer} {reply : Reply (.regMr buf)} (h : Own side r port)
    (hallowed : r.allowed clientMessage 2 side (.regMr buf))
    (hdone : r.released = true → (r.after ⟨.regMr buf, reply⟩).Done 2) :
    Own side (r.after ⟨.regMr buf, reply⟩) { port with
      regions := Function.update port.regions buf (Option.or reply (port.regions buf)) } := by
  by_cases hbuf : buf = .rdmaBuff
  · subst hbuf
    obtain ⟨hregion, hreleased⟩ := hallowed rfl
    refine { h with region := ?_, told := fun hclient msg hmsg => ?_, released := hdone }
    · show Function.update port.regions .rdmaBuff (Option.or reply (port.regions .rdmaBuff))
        .rdmaBuff = if r.released = true then none else reply
      rw [Function.update_self, h.region, hreleased, hregion]
      exact Option.or_none
    · obtain ⟨mr, hmr, -⟩ := h.told hclient msg hmsg
      exact absurd (hregion.symm.trans hmr) (by simp)
  · have hregion : (r.after ⟨.regMr buf, reply⟩).region = r.region := if_neg hbuf
    refine { h with region := ?_, told := ?_, released := hdone }
    · rw [hregion]
      show Function.update port.regions buf (Option.or reply (port.regions buf)) .rdmaBuff = _
      rw [Function.update_of_ne (Ne.symm hbuf)]
      exact h.region
    · rw [hregion]
      exact h.told

/-- A region is deregistered, or stays where that fails. -/
lemma own_deregMr {buf : Buffer} {ret : Reply (.deregMr buf)} (h : Own side r port)
    (hallowed : r.allowed clientMessage 2 side (.deregMr buf)) (hok : r.failed = false)
    (hdone : r.released = true → (r.after ⟨.deregMr buf, ret⟩).Done 2) :
    Own side (r.after ⟨.deregMr buf, ret⟩) { port with
      regions := if ret = 0 then Function.update port.regions buf none else port.regions } := by
  have hreleased : (r.after ⟨.deregMr buf, ret⟩).released =
      (r.released || decide (buf = .rdmaBuff ∧ ret = 0)) := rfl
  by_cases hgone : buf = .rdmaBuff ∧ ret = 0
  · rw [decide_eq_true hgone, Bool.or_true] at hreleased
    obtain ⟨rfl, rfl⟩ := hgone
    refine { h with region := ?_, released := fun _ => ?_ }
    · rw [hreleased]
      show Function.update port.regions .rdmaBuff none .rdmaBuff = none
      rw [Function.update_self]
    · exact done_after (hallowed rfl hok) hallowed
  · rw [decide_eq_false hgone, Bool.or_false] at hreleased
    refine { h with region := ?_, released := ?_ }
    · rw [hreleased]
      show (if ret = 0 then Function.update port.regions buf none else port.regions) .rdmaBuff = _
      by_cases hret : ret = 0
      · rw [if_pos hret, Function.update_of_ne fun hbuf => hgone ⟨hbuf.symm, hret⟩]
        exact h.region
      · rw [if_neg hret]
        exact h.region
    · rw [hreleased]
      exact hdone

/-- A message is posted; the client's second one tells about its region. -/
lemma own_postSend {sendInline : Bool} (h : Own side r port) (hfits : Fits r port arrived)
    (hallowed : r.allowed clientMessage 2 side (.postSend sendInline))
    (hdone : r.released = true → (r.after ⟨.postSend sendInline, (0 : Int)⟩).Done 2) :
    Own side (r.after ⟨.postSend sendInline, (0 : Int)⟩) (port.post (.send
      (if sendInline = true then some (port.buffers .sendMsg) else none)) 0) := by
  obtain ⟨⟨-, hroom, hidle, -⟩, hprepared⟩ := hallowed
  have hqueue := queue_post (.send (if sendInline = true then
    some (port.buffers .sendMsg) else none)) (queue_nil hfits hidle)
  have hsent : (r.after ⟨.postSend sendInline, (0 : Int)⟩).sent = r.sent ++ [r.message] := rfl
  have hsends : (r.after ⟨.postSend sendInline, (0 : Int)⟩).sends = r.sends + 1 := rfl
  refine { h with
    sizes := ?_, sends := ?_, told := ?_, queue := ?_, prepared := ?_, released := hdone,
    stored := fun hle => h.stored ?_ }
  · rw [hsent]
    exact List.forall_mem_append.mpr ⟨h.sizes, List.forall_mem_singleton.mpr h.message⟩
  · rw [hsent, hsends, List.length_append, List.length_singleton, h.sends]
  · rintro rfl msg hmsg
    rw [hsent, List.getElem?_append] at hmsg
    split at hmsg
    · exact h.told rfl msg hmsg
    · rename_i hshort
      have hlen := h.sends
      have hone : r.sent.length = 1 := by
        by_contra hne
        rw [List.getElem?_eq_none (by simp; omega)] at hmsg
        exact absurd hmsg (by simp)
      rw [hone] at hmsg
      obtain rfl := Option.some.inj hmsg
      exact hprepared (by rw [← h.sends, hone]; exact one_pos)
  · rw [hqueue]
    exact List.forall_mem_singleton.mpr trivial
  · rintro rfl hsecond
    have hmade : r.posts = r.sends + 2 := hprepared (Nat.lt_of_succ_lt_succ hsecond)
    show r.posts + 1 = r.sends + 1 + 2
    omega
  · have hle' : r.posts + 1 ≤ r.sends + 1 + 1 := hle
    omega

/-- An access of the server is posted, which has still a message to send. -/
lemma own_access {r' : Record} {wr : WorkRequest} {made : ℕ} {localMr : Option Mr}
    {addr : UInt64} {rkey : UInt32} (h : Own side r port) (hfits : Fits r port arrived)
    (haccess : r.Accesses 2 side made localMr addr rkey) (hpending : Pending side r' wr)
    (hr : r' = { r with posts := r.posts + 1, failed := r'.failed })
    (hdone : r.released = true → r'.Done 2) : Own side r' (port.post wr 0) := by
  have hqueue := queue_post wr (queue_nil hfits haccess.idle)
  have hbefore := haccess.before
  rw [hr] at hpending hdone ⊢
  refine { h with
    queue := ?_, prepared := fun _ hsecond => absurd hsecond (not_lt.mpr ?_),
    released := hdone, stored := fun hle => h.stored ?_ }
  · rw [hqueue]
    exact List.forall_mem_singleton.mpr hpending
  · exact Nat.le_of_lt_succ hbefore
  · exact (Nat.le_succ _).trans hle

/-- **What a side has fits what it knows**, after each of its calls.  Each kind of call has a lemma
of its own above; the calls that touch neither a buffer nor a region change nothing that `Own`
speaks of. -/
theorem own_answer (h : Own side r port) (hfits : Fits r port arrived)
    (hallowed : r.allowed clientMessage 2 side e.1) (hgood : failed e = false)
    (hok : r.failed = false) (hs : port.answer other side e = some port') :
    Own side (r.after e) port' := by
  have hdone : r.released = true → (r.after e).Done 2 :=
    fun hreleased => done_after (h.released hreleased) hallowed
  obtain ⟨c, reply⟩ := e
  cases c with
  | store buf off bytes =>
      obtain rfl := Option.some.inj hs
      exact own_store h hfits hallowed hdone
  | load buf off k =>
      simp only [Port.answer] at hs
      split at hs
      · obtain rfl := Option.some.inj hs
        exact own_load h hfits hallowed hdone
      · exact absurd hs (by simp)
  | regMr buf =>
      obtain rfl := Option.some.inj hs
      exact own_regMr h hallowed hdone
  | deregMr buf =>
      obtain rfl := Option.some.inj hs
      exact own_deregMr h hallowed hok hdone
  | postSend sendInline =>
      obtain rfl := Option.some.inj hs
      obtain rfl : reply = (0 : Int) := by simpa [failed] using hgood
      exact own_postSend h hfits hallowed hdone
  | postWrite localMr addr rkey =>
      obtain rfl := Option.some.inj hs
      obtain rfl : reply = (0 : Int) := by simpa [failed] using hgood
      obtain ⟨haccess, hstored⟩ := hallowed
      refine own_access h hfits haccess ⟨⟨haccess.isServer, haccess.registered, haccess.before,
        haccess.told⟩, ?_, hstored⟩ rfl hdone
      exact congrArg (· + 1) haccess.made
  | postRead localMr addr rkey =>
      obtain rfl := Option.some.inj hs
      obtain rfl : reply = (0 : Int) := by simpa [failed] using hgood
      have haccess : r.Accesses 2 side 1 localMr addr rkey := hallowed
      refine own_access h hfits haccess ⟨⟨haccess.isServer, haccess.registered, haccess.before,
        haccess.told⟩, ?_⟩ rfl hdone
      exact congrArg (· + 1) haccess.made
  | getRequest | established =>
      simp only [Port.answer] at hs
      split at hs
      · exact absurd hs (by simp)
      · obtain rfl := Option.some.inj hs
        exact { h with released := hdone }
  | getSendComp | pollCq =>
      obtain ⟨hport, -, -⟩ := Port.pollSend_eq hs
      rw [hport]
      exact { h with released := hdone }
  | getRecvComp =>
      obtain ⟨hport, -, -⟩ := Port.pollRecv_eq hs
      rw [hport]
      exact { h with released := hdone }
  | _ =>
      obtain rfl := Option.some.inj hs
      exact { h with released := hdone }

end

/-! ## The address -/

section

variable {rkey : UInt32} {addr : UInt64} {msg : List UInt8} {mr : Mr} {port : Port}

/-- The address that the server reads is never above the one that the client has sent. -/
lemma serverDecode_addr_le (hmsg : clientMessage rkey addr = some msg) :
    (serverDecode msg).2 ≤ addr.toNat := by
  by_cases hmem : 0 ∈ toBytes 4 rkey.toNat
  · obtain ⟨pre, post, hkey, hpre⟩ := List.eq_append_cons_of_mem hmem
    rw [clientMessage_eq hkey hpre, Option.some.injEq] at hmsg
    have hlen : (pre ++ [0]).length ≤ 4 := by
      have h := congrArg List.length hkey
      rw [length_toBytes, List.length_append, List.length_cons] at h
      rw [List.length_append, List.length_singleton]
      omega
    have haddr : addr.toNat < 256 ^ 8 := addr.toNat_lt
    calc (serverDecode msg).2 ≤ ofBytes (msg.drop 4) := ofBytes_take_le _ 8
      _ ≤ ofBytes (toBytes 8 addr.toNat ++ List.replicate (7 - pre.length) 0) := by
          rw [← hmsg, List.drop_append, List.drop_of_length_le hlen, List.nil_append]
          exact ofBytes_drop_le _ _
      _ = addr.toNat := by rw [ofBytes_append, ofBytes_zeros, ofBytes_toBytes haddr]; rfl
  · have hnull : clientMessage rkey addr = none := by
      rw [clientMessage]
      show memcpy _ (memccpy sendMsg 0 0 (toBytes 4 rkey.toNat)).2 _ = none
      rw [memccpy_none hmem]
      rfl
    rw [hnull] at hmsg
    exact absurd hmsg (by simp)

/-- The two round-trip where the message is decoded to them. -/
lemma roundTrips_iff (hmsg : clientMessage rkey addr = some msg) :
    RoundTrips rkey addr ↔ serverDecode msg = (rkey.toNat, addr.toNat) := by
  constructor
  · rintro ⟨msg', hmsg', hdecode⟩
    rw [hmsg, Option.some.injEq] at hmsg'
    rw [hmsg', hdecode]
  · exact fun hdecode => ⟨msg, hmsg, hdecode⟩

/-- **Where an access goes** that the server asks for with what it has read: to the beginning of
the region if the key and the address round-trip, and nowhere if they do not.  What the server
reads is at most the address, since bytes are only lost; so an address that is not the right one
lies below the region. -/
theorem target_eq (hregion : port.regions .rdmaBuff = some mr)
    (hmsg : clientMessage mr.rkey mr.addr = some msg) :
    (RoundTrips mr.rkey mr.addr → port.target (UInt64.ofNat (serverDecode msg).2)
        (UInt32.ofNat (serverDecode msg).1) = some 0) ∧
      (¬ RoundTrips mr.rkey mr.addr → port.target (UInt64.ofNat (serverDecode msg).2)
        (UInt32.ofNat (serverDecode msg).1) = none) := by
  rw [roundTrips_iff hmsg]
  constructor
  · intro hdecode
    rw [hdecode, Port.target, hregion]
    simp [bufferSize, rdmaMrSize]
  · intro hdecode
    have hle := serverDecode_addr_le hmsg
    have haddr : (UInt64.ofNat (serverDecode msg).2).toNat = (serverDecode msg).2 :=
      UInt64.toNat_ofNat_of_lt' (hle.trans_lt mr.addr.toNat_lt)
    have hkey : (UInt32.ofNat (serverDecode msg).1).toNat = (serverDecode msg).1 := by
      refine UInt32.toNat_ofNat_of_lt' ((ofBytes_lt _).trans_le ?_)
      exact Nat.pow_le_pow_right (by norm_num) (List.length_take_le 4 msg)
    simp only [Port.target, hregion]
    refine if_neg ?_
    rintro ⟨hsame, hbegin, -⟩
    rw [UInt64.le_iff_toNat_le, haddr] at hbegin
    exact hdecode (Prod.ext (hkey ▸ (congrArg UInt32.toNat hsame).symm) (le_antisymm hle hbegin))

end

/-! ## Both sides

What goes from one side to the other are the messages and the bytes of an access; `Shared` says of
these that they are what the other side has stored. -/

/-- The region of the client round-trips. -/
def Fair (r : Record) : Prop := ∀ mr, r.region = some mr → RoundTrips mr.rkey mr.addr

/-- No access was refused. -/
def Unrefused (l : Link) : Prop := ∀ side, (l side).refused = false

/-- What holds of both sides.  `written` and `read` follow the data.  Once no write is pending,
what the server stored is in the region of the client; once no read is pending, it is back in the
local buffer of the server.  An access is refused only when the key or the address did not come
through the message whole. -/
structure Shared (g : Side → Record) (l : Link) : Prop where
  inLine : InLine 2 g l
  good : ∀ side, (g side).failed = false
  steady : Unrefused l → Steady 2 g l
  own : ∀ side, Own side (g side) (l side)
  loads : ∀ x ∈ (g .server).loads, ∃ msg, (g .client).sent[1]? = some msg ∧
    x.2.2 = (msg.drop x.1).take x.2.1
  refused : ∀ side, (l side).refused = true → (g .server).sends < (g .server).posts ∧
    ∃ mr, (g .client).region = some mr ∧ ¬ RoundTrips mr.rkey mr.addr
  written : Unrefused l → (g .server).sends < (g .server).posts →
    (∀ wr ∈ (l .server).sendQueue, isWrite wr = false) →
      ((l .client).buffers .rdmaBuff).take bufferSize = datBuffer
  read : Unrefused l → (g .server).posts = (g .server).sends + 2 →
    (∀ wr ∈ (l .server).sendQueue, isRead wr = false) →
      ((l .server).buffers .buffLocalSend).take bufferSize = datBuffer
  blank : (∃ mr, (g .client).region = some mr ∧ RoundTrips mr.rkey mr.addr) ∨
    (l .client).buffers .rdmaBuff = List.replicate rdmaMrSize 0

section

variable {side : Side} {g : Side → Record} {l l' : Link} {port other : Port}
  {e : Event Call Reply} {move : Move} {wr : WorkRequest} {rest : List WorkRequest}

lemma shared_start : Shared (fun _ => {}) Link.start where
  inLine := inLine_start
  good _ := rfl
  steady _ := steady_start
  own _ := own_start
  loads _ h := absurd h (by simp)
  refused _ h := absurd h (by simp [Link.start])
  written _ h := absurd h (by simp)
  read _ h := absurd h (by simp)
  blank := Or.inr rfl

/-- As long as the connection works no access was refused. -/
lemma Shared.unrefused (h : Shared g l) (hworks : l.Works) : Unrefused l := by
  intro side
  have hbroken := (h.inLine.fits side).broken
  rw [hworks side] at hbroken
  exact (Bool.or_eq_false_iff.mp hbroken.symm).2

/-- An access that is asked for is one of the server. -/
lemma Shared.pending (h : Shared g l) (hqueue : (l side).sendQueue = wr :: rest)
    (hsend : wr.isSend = false) : side = .server ∧ (g .server).sends < 2 := by
  have hpending := (h.own side).queue wr (by simp [hqueue])
  cases wr with
  | send bytes => exact absurd hsend (by simp [WorkRequest.isSend])
  | write localMr addr rkey | read localMr addr rkey =>
      obtain ⟨rfl, -, hbefore, -⟩ := hpending.1
      exact ⟨rfl, hbefore⟩

/-- Where the server has not sent its second message, the client is not done. -/
lemma Shared.not_done (h : Shared g l) (hrefused : Unrefused l) (hsends : (g .server).sends < 2) :
    ¬ (g .client).Done 2 := by
  intro hdone
  have hsteady := h.steady hrefused
  have hcomps := (hsteady.inLine.fits .client).recvComps
  have hserver := (hsteady.inLine.fits .server).sends
  rw [hsteady.flushed, Nat.add_zero, hdone.recvComps] at hcomps
  simp only [Side.other] at hserver
  omega

/-- The connection works as long as an access is to be done. -/
lemma Shared.works (h : Shared g l) (hrefused : Unrefused l)
    (hqueue : (l side).sendQueue = wr :: rest) (hsend : wr.isSend = false) : l.Works := by
  obtain ⟨-, hsends⟩ := h.pending hqueue hsend
  by_contra hworks
  obtain ⟨q, hq⟩ := not_forall.mp hworks
  have hdone : (g q).Done 2 := (h.steady hrefused).done_of_broken (by simpa using hq)
  cases q with
  | server => exact absurd hdone.sends (by omega)
  | client => exact h.not_done hrefused hsends hdone

/-- **What the server was told** is the region of the client, which is still there.  It is told by
the second message of the client, which the client makes of its region; and as the server has not
sent its second message, the client has not finished and has released nothing. -/
theorem Shared.told (h : Shared g l) (hrefused : Unrefused l) (hsends : (g .server).sends < 2)
    {addr : UInt64} {rkey : UInt32} (htold : (g .server).Told addr rkey) :
    ∃ mr msg, (g .client).region = some mr ∧ (l .client).regions .rdmaBuff = some mr ∧
      clientMessage mr.rkey mr.addr = some msg ∧ addr = UInt64.ofNat (serverDecode msg).2 ∧
        rkey = UInt32.ofNat (serverDecode msg).1 := by
  obtain ⟨k, a, hloads, hrkey, haddr⟩ := htold
  obtain ⟨msg, hmsg, hk⟩ := h.loads (0, 4, k) (by simp [hloads])
  obtain ⟨msg', hmsg', ha⟩ := h.loads (4, 8, a) (by simp [hloads])
  obtain rfl := Option.some.inj (hmsg.symm.trans hmsg')
  obtain ⟨mr, hregion, hclient⟩ := (h.own .client).told rfl msg hmsg
  have hkept : (g .client).released = false := by
    cases hreleased : (g .client).released with
    | false => rfl
    | true => exact absurd ((h.own .client).released hreleased) (h.not_done hrefused hsends)
  have hregions := (h.own .client).region
  rw [hkept, hregion] at hregions
  refine ⟨mr, msg, hregion, hregions, hclient, ?_, ?_⟩
  · rw [haddr, show a = _ from ha]
    rfl
  · rw [hrkey, show k = _ from hk]
    rfl

/-! ### The devices -/

lemma Own.keep {r : Record} {port' : Port} (h : Own side r port)
    (hbuffers : port'.buffers = port.buffers) (hregions : port'.regions = port.regions)
    (hdelivered : port'.delivered = port.delivered)
    (hqueue : ∀ wr ∈ port'.sendQueue, wr ∈ port.sendQueue ∨ wr.isSend = true) :
    Own side r port' where
  message := h.message
  sizes := h.sizes
  recvMsg := by rw [hbuffers]; exact h.recvMsg
  received := by rw [hbuffers, hdelivered]; exact h.received
  sends := h.sends
  region := by rw [hregions]; exact h.region
  released := h.released
  told := h.told
  prepared := h.prepared
  queue wr hwr := (hqueue wr hwr).elim (h.queue wr) pending_of_isSend
  stored hle := by rw [hbuffers]; exact h.stored hle

lemma Own.finish {r : Record} (h : Own side r port) : Own side r port.finish :=
  h.keep rfl rfl rfl fun _ hwr => Or.inl (List.mem_of_mem_tail hwr)

/-- A message comes to a side. -/
lemma Own.receive {r : Record} {bytes : List UInt8} (h : Own side r port)
    (hlen : bytes.length = bufferSize) : Own side r (port.receive bytes) := by
  have hbuffer : (port.receive bytes).buffers .recvMsg = bytes := by
    show Function.update port.buffers .recvMsg (store (port.buffers .recvMsg) 0 bytes) .recvMsg = _
    rw [Function.update_self, store_whole (h.recvMsg.trans hlen.symm)]
  refine { h with recvMsg := ?_, received := ?_, stored := h.stored }
  · rw [hbuffer, hlen]
  · rw [hbuffer]
    exact List.getLastD_concat.symm

/-- An access of the other side. -/
lemma Own.store_rdmaBuff {r : Record} {off : ℕ} {bytes : List UInt8} (h : Own side r port) :
    Own side r (port.store .rdmaBuff off bytes) :=
  { h with recvMsg := h.recvMsg, received := h.received, stored := h.stored }

/-- What is read. -/
lemma Own.store_local {r : Record} {off : ℕ} {bytes : List UInt8} (h : Own side r port)
    (hread : r.posts = r.sends + 2) : Own side r (port.store .buffLocalSend off bytes) :=
  { h with
    recvMsg := h.recvMsg, received := h.received, stored := fun hle => absurd hle (by omega) }

lemma own_set (hport : Own side (g side) port)
    (hother : Own side.other (g side.other) other) (q : Side) :
    Own q (g q) (l.set side port other q) := by
  rcases side.eq_or_other q with rfl | rfl
  · rw [Link.set_self]
    exact hport
  · rw [Link.set_other]
    exact hother

lemma Shared.own_update (h : Shared g l) (hport : Own side (g side) port) (q : Side) :
    Own q (g q) (Function.update l side port q) := by
  rw [Link.update_eq_set]
  exact own_set hport (h.own side.other) q

/-- Where no access is refused later, none was refused before. -/
lemma unrefused_of_device (hs : l.device move = some l') (h : Unrefused l') : Unrefused l := by
  intro q
  by_cases hmove : ∃ side, move = .refuse side
  · obtain ⟨side, rfl⟩ := hmove
    have hside := h side
    cases moved_of_device hs with
    | refuse _ _ _ _ _ =>
        rw [Link.set_self] at hside
        exact absurd hside (by simp [Port.refuse])
  · rw [← refused_device hs (fun side hside => hmove ⟨side, hside⟩)]
    exact h q

/-- A move that does no access. -/
lemma Shared.keep (h : Shared g l) (hs : l.device move = some l')
    (hmove : ∀ side, move ≠ .refuse side) (hown : ∀ side, Own side (g side) (l' side))
    (hqueue : Unrefused l → ∀ wr ∈ (l .server).sendQueue,
      wr ∈ (l' .server).sendQueue ∨ wr.isSend = true)
    (hremote : (l' .client).buffers .rdmaBuff = (l .client).buffers .rdmaBuff)
    (hlocal : (l' .server).buffers .buffLocalSend = (l .server).buffers .buffLocalSend) :
    Shared g l' where
  inLine := inLine_device h.inLine hs
  good := h.good
  steady hrefused := steady_device (h.steady (unrefused_of_device hs hrefused)) hs hrefused
  own := hown
  loads := h.loads
  refused side hside := h.refused side ((refused_device hs hmove side).symm.trans hside)
  written hrefused hmade hnone := by
    have hbefore := unrefused_of_device hs hrefused
    rw [hremote]
    refine h.written hbefore hmade fun wr hwr => ?_
    exact (hqueue hbefore wr hwr).elim (hnone wr) fun hsend => (not_access_of_isSend hsend).1
  read hrefused hmade hnone := by
    have hbefore := unrefused_of_device hs hrefused
    rw [hlocal]
    refine h.read hbefore hmade fun wr hwr => ?_
    exact (hqueue hbefore wr hwr).elim (hnone wr) fun hsend => (not_access_of_isSend hsend).2
  blank := by
    rw [hremote]
    exact h.blank

lemma take_store_dat (buf : List UInt8) : (store buf 0 datBuffer).take bufferSize = datBuffer := by
  have htake : (store buf 0 datBuffer).take (0 + datBuffer.length) = buf.take 0 ++ datBuffer :=
    take_store (Nat.zero_le _)
  exact htake

/-- Where an access of the server goes. -/
lemma Shared.target (h : Shared g l) (hrefused : Unrefused l) (hsends : (g .server).sends < 2)
    {addr : UInt64} {rkey : UInt32} (htold : (g .server).Told addr rkey) :
    ∃ mr, (g .client).region = some mr ∧
      (RoundTrips mr.rkey mr.addr → (l .client).target addr rkey = some 0) ∧
      (¬ RoundTrips mr.rkey mr.addr → (l .client).target addr rkey = none) := by
  obtain ⟨mr, msg, hregion, hregions, hmsg, rfl, rfl⟩ := h.told hrefused hsends htold
  exact ⟨mr, hregion, target_eq hregions hmsg⟩

/-- One that goes anywhere goes to the beginning of a region that has round-tripped. -/
lemma Shared.reached (h : Shared g l) (hrefused : Unrefused l) (hsends : (g .server).sends < 2)
    {addr : UInt64} {rkey : UInt32} (htold : (g .server).Told addr rkey) {off : ℕ}
    (htarget : (l .client).target addr rkey = some off) :
    off = 0 ∧ ∃ mr, (g .client).region = some mr ∧ RoundTrips mr.rkey mr.addr := by
  obtain ⟨mr, hregion, hyes, hno⟩ := h.target hrefused hsends htold
  by_cases hfair : RoundTrips mr.rkey mr.addr
  · exact ⟨Option.some.inj (htarget.symm.trans (hyes hfair)), mr, hregion, hfair⟩
  · exact absurd (htarget.symm.trans (hno hfair)) (by simp)

/-- The server writes. -/
lemma Shared.write (h : Shared g l) {localMr : Option Mr} {addr : UInt64} {rkey : UInt32}
    {ports : Port × Port} (hqueue : (l .server).sendQueue = .write localMr addr rkey :: rest)
    (hworks : l.Works)
    (haccess : access (l .server) (l .client) (.write localMr addr rkey) = some ports)
    (hs : l.device (.execute .server) = some (l.set .server ports.1.finish ports.2)) :
    Shared g (l.set .server ports.1.finish ports.2) := by
  have hrefused := h.unrefused hworks
  have hpending : Pending .server (g .server) (.write localMr addr rkey) :=
    (h.own .server).queue _ (by simp [hqueue])
  obtain ⟨⟨-, hsome, hsends, htold⟩, hmade, hstored⟩ := hpending
  obtain ⟨localMr, rfl⟩ := Option.isSome_iff_exists.mp hsome
  simp only [access] at haccess
  split at haccess
  · rename_i off htarget
    obtain ⟨rfl, hfair⟩ := h.reached hrefused hsends htold htarget
    obtain rfl := Option.some.inj haccess
    have hlocal : (l .server).buffers .buffLocalSend = datBuffer :=
      ((h.own .server).stored hmade.le).trans hstored
    have hclient : Own .client (g .client)
        ((l .client).store .rdmaBuff 0 ((l .server).buffers .buffLocalSend)) :=
      (h.own .client).store_rdmaBuff
    refine ⟨inLine_device h.inLine hs, h.good, fun hunrefused => ?_,
      own_set (h.own .server).finish hclient, h.loads, ?_, fun _ _ _ => ?_, ?_, Or.inl hfair⟩
    · exact steady_device (h.steady hrefused) hs hunrefused
    · intro q hq
      rw [refused_device hs (by simp)] at hq
      exact h.refused q hq
    · show ((l.set .server _ _ Side.server.other).buffers .rdmaBuff).take bufferSize = _
      rw [Link.set_other]
      show (Function.update (l .client).buffers .rdmaBuff (store ((l .client).buffers .rdmaBuff) 0
        ((l .server).buffers .buffLocalSend)) .rdmaBuff).take bufferSize = _
      rw [Function.update_self, hlocal, take_store_dat]
    · exact fun _ hread _ => absurd hread (by omega)
  · exact absurd haccess (by simp)

/-- The server reads back what it has written. -/
lemma Shared.read_back (h : Shared g l) {localMr : Option Mr} {addr : UInt64} {rkey : UInt32}
    {ports : Port × Port} (hqueue : (l .server).sendQueue = .read localMr addr rkey :: rest)
    (hworks : l.Works)
    (haccess : access (l .server) (l .client) (.read localMr addr rkey) = some ports)
    (hs : l.device (.execute .server) = some (l.set .server ports.1.finish ports.2)) :
    Shared g (l.set .server ports.1.finish ports.2) := by
  have hrefused := h.unrefused hworks
  have hpending : Pending .server (g .server) (.read localMr addr rkey) :=
    (h.own .server).queue _ (by simp [hqueue])
  obtain ⟨⟨-, hsome, hsends, htold⟩, hmade⟩ := hpending
  obtain ⟨localMr, rfl⟩ := Option.isSome_iff_exists.mp hsome
  have hrest : rest = [] := by
    have hone := (h.inLine.queues .server).1
    rw [hqueue, List.length_cons] at hone
    exact List.length_eq_zero_iff.mp (by omega)
  have hwritten : ((l .client).buffers .rdmaBuff).take bufferSize = datBuffer := by
    refine h.written hrefused (by omega) ?_
    rw [hqueue, hrest]
    exact List.forall_mem_singleton.mpr rfl
  simp only [access] at haccess
  split at haccess
  · rename_i off htarget
    obtain ⟨rfl, hfair⟩ := h.reached hrefused hsends htold htarget
    obtain rfl := Option.some.inj haccess
    have hserver : Own .server (g .server) ((l .server).store .buffLocalSend 0
        ((((l .client).buffers .rdmaBuff).drop 0).take bufferSize)) :=
      (h.own .server).store_local hmade
    refine ⟨inLine_device h.inLine hs, h.good, fun hunrefused => ?_,
      own_set hserver.finish (h.own .client), h.loads, ?_, fun _ _ _ => ?_, fun _ _ _ => ?_,
      Or.inl hfair⟩
    · exact steady_device (h.steady hrefused) hs hunrefused
    · intro q hq
      rw [refused_device hs (by simp)] at hq
      exact h.refused q hq
    · show ((l.set .server _ _ Side.server.other).buffers .rdmaBuff).take bufferSize = _
      rw [Link.set_other]
      exact hwritten
    · rw [Link.set_self]
      show (Function.update (l .server).buffers .buffLocalSend (store ((l .server).buffers
        .buffLocalSend) 0 ((((l .client).buffers .rdmaBuff).drop 0).take bufferSize))
          .buffLocalSend).take bufferSize = _
      rw [Function.update_self, List.drop_zero, hwritten, take_store_dat]
  · exact absurd haccess (by simp)

/-- An access is refused: the key and the address have not round-tripped. -/
lemma Shared.refuse (h : Shared g l) (hqueue : (l .server).sendQueue = wr :: rest)
    (hsend : wr.isSend = false) (hworks : l.Works)
    (haccess : access (l .server) (l .client) wr = none)
    (hs : l.device (.refuse .server) =
      some (l.set .server (l .server).finish.refuse (l .client).refuse)) :
    Shared g (l.set .server (l .server).finish.refuse (l .client).refuse) := by
  have hrefused := h.unrefused hworks
  have hpending := (h.own .server).queue wr (by simp [hqueue])
  have hunfair : (g .server).sends < (g .server).posts ∧
      ∃ mr, (g .client).region = some mr ∧ ¬ RoundTrips mr.rkey mr.addr := by
    cases wr with
    | send bytes => exact absurd hsend (by simp [WorkRequest.isSend])
    | write localMr addr rkey =>
        obtain ⟨⟨-, hsome, hsends, htold⟩, hmade, -⟩ := hpending
        obtain ⟨localMr, rfl⟩ := Option.isSome_iff_exists.mp hsome
        obtain ⟨mr, hregion, hyes, -⟩ := h.target hrefused hsends htold
        refine ⟨by omega, mr, hregion, fun hfair => ?_⟩
        simp only [access, hyes hfair] at haccess
        exact absurd haccess (by simp)
    | read localMr addr rkey =>
        obtain ⟨⟨-, hsome, hsends, htold⟩, hmade⟩ := hpending
        obtain ⟨localMr, rfl⟩ := Option.isSome_iff_exists.mp hsome
        obtain ⟨mr, hregion, hyes, -⟩ := h.target hrefused hsends htold
        refine ⟨by omega, mr, hregion, fun hfair => ?_⟩
        simp only [access, hyes hfair] at haccess
        exact absurd haccess (by simp)
  have hnot : ¬ Unrefused (l.set .server (l .server).finish.refuse (l .client).refuse) := by
    intro hunrefused
    have hside := hunrefused .server
    rw [Link.set_self] at hside
    exact absurd hside (by simp [Port.refuse])
  have hserver : Own .server (g .server) (l .server).finish.refuse :=
    (h.own .server).finish.keep rfl rfl rfl fun _ hwr => Or.inl hwr
  have hclient : Own .client (g .client) (l .client).refuse :=
    (h.own .client).keep rfl rfl rfl fun _ hwr => Or.inl hwr
  refine ⟨inLine_device h.inLine hs, h.good, fun hunrefused => absurd hunrefused hnot,
    own_set hserver hclient, h.loads, fun _ _ => hunfair,
    fun hunrefused => absurd hunrefused hnot, fun hunrefused => absurd hunrefused hnot, ?_⟩
  exact h.blank

/-- What a change at both sides leaves in the queues. -/
lemma queue_set (hport : ∀ wr ∈ (l side).sendQueue, wr ∈ port.sendQueue ∨ wr.isSend = true)
    (hother : ∀ wr ∈ (l side.other).sendQueue, wr ∈ other.sendQueue ∨ wr.isSend = true) (q : Side) :
    ∀ wr ∈ (l q).sendQueue, wr ∈ (l.set side port other q).sendQueue ∨ wr.isSend = true := by
  rcases side.eq_or_other q with rfl | rfl
  · rw [Link.set_self]
    exact hport
  · rw [Link.set_other]
    exact hother

lemma queue_update (hport : ∀ wr ∈ (l side).sendQueue, wr ∈ port.sendQueue ∨ wr.isSend = true)
    (q : Side) : ∀ wr ∈ (l q).sendQueue,
      wr ∈ (Function.update l side port q).sendQueue ∨ wr.isSend = true := by
  rw [Link.update_eq_set]
  exact queue_set hport (fun _ hwr => Or.inl hwr) q

/-- A message that is done is no access. -/
lemma queue_finish (hqueue : port.sendQueue = wr :: rest) (hsend : wr.isSend = true) :
    ∀ wr ∈ port.sendQueue, wr ∈ port.finish.sendQueue ∨ wr.isSend = true := by
  intro wr' hwr'
  simp only [Port.finish, hqueue, List.tail_cons]
  rw [hqueue] at hwr'
  rcases List.mem_cons.mp hwr' with rfl | hrest
  · exact Or.inr hsend
  · exact Or.inl hrest

/-- A move at one side that leaves its accesses. -/
lemma Shared.keep_update (h : Shared g l) (hs : l.device move = some (Function.update l side port))
    (hmove : ∀ side, move ≠ .refuse side) (hbuffers : port.buffers = (l side).buffers)
    (hregions : port.regions = (l side).regions)
    (hdelivered : port.delivered = (l side).delivered)
    (hmine : ∀ wr ∈ port.sendQueue, wr ∈ (l side).sendQueue ∨ wr.isSend = true)
    (hqueue : Unrefused l → ∀ wr ∈ (l side).sendQueue, wr ∈ port.sendQueue ∨ wr.isSend = true) :
    Shared g (Function.update l side port) := by
  refine h.keep hs hmove (h.own_update ((h.own side).keep hbuffers hregions hdelivered hmine))
    (fun hrefused => queue_update (hqueue hrefused) .server) ?_ ?_
  · exact Link.update_congr (fun port => port.buffers .rdmaBuff) (by rw [hbuffers]) .client
  · exact Link.update_congr (fun port => port.buffers .buffLocalSend) (by rw [hbuffers]) .server

/-- **A move of the devices.** -/
theorem Shared.device (h : Shared g l) (hs : l.device move = some l') : Shared g l' := by
  cases moved_of_device hs with
  | @fetch side rest hqueue =>
      refine h.keep_update hs (by simp) rfl rfl rfl (fun wr hwr => ?_) fun _ wr hwr => ?_
      · rcases List.mem_cons.mp hwr with rfl | hrest
        · exact Or.inr rfl
        · exact Or.inl (by rw [hqueue]; exact List.mem_cons_of_mem _ hrest)
      · rw [hqueue] at hwr
        rcases List.mem_cons.mp hwr with rfl | hrest
        · exact Or.inr rfl
        · exact Or.inl (List.mem_cons_of_mem _ hrest)
  | @deliver side bytes rest hqueue hworks hposted =>
      have hsteady := h.steady (h.unrefused hworks)
      have hsent : bytes ∈ (g side.other).sent := by
        rw [hsteady.fifo side.other, Port.outgoing_finish hqueue]
        simp
      have hown := (h.own side).receive ((h.own side.other).sizes bytes hsent)
      have hmine : ∀ wr ∈ (l side).sendQueue, wr ∈ ((l side).receive bytes).sendQueue ∨
          wr.isSend = true := fun wr hwr => Or.inl hwr
      refine h.keep hs (by simp) (own_set hown (h.own side.other).finish)
        (fun _ => queue_set hmine (queue_finish hqueue rfl) .server) ?_ ?_
      · refine Link.set_congr (fun port => port.buffers .rdmaBuff) ?_ ?_ .client <;> rfl
      · refine Link.set_congr (fun port => port.buffers .buffLocalSend) ?_ ?_ .server <;> rfl
  | @execute side wr rest ports hqueue hworks haccess =>
      have hsend := (access_eq haccess).1
      obtain ⟨rfl, -⟩ := h.pending hqueue hsend
      cases wr with
      | send bytes => exact absurd hsend (by simp [WorkRequest.isSend])
      | write localMr addr rkey => exact h.write hqueue hworks haccess hs
      | read localMr addr rkey => exact h.read_back hqueue hworks haccess hs
  | refuse side hqueue hsend hworks haccess =>
      obtain ⟨rfl, -⟩ := h.pending hqueue hsend
      exact h.refuse hqueue hsend hworks haccess hs
  | flush side hqueue hworks =>
      refine h.keep_update hs (by simp) rfl rfl rfl (fun wr hwr => Or.inl
        (List.mem_of_mem_tail hwr)) fun hrefused => ?_
      have hsend := (h.steady hrefused).flush_access hworks hqueue
      exact absurd (h.works hrefused hqueue hsend) hworks
  | flushRecv side hworks hposted =>
      exact h.keep_update hs (by simp) rfl rfl rfl (fun _ hwr => Or.inl hwr)
        fun _ _ hwr => Or.inl hwr
  | report side hpos =>
      exact h.keep_update hs (by simp) rfl rfl rfl (fun _ hwr => Or.inl hwr)
        fun _ _ hwr => Or.inl hwr

/-! ### The calls -/

/-- What a call changes of the record of the server. -/
lemma made_after {r : Record} (h : r.sends < r.posts) : (r.after e).sends < (r.after e).posts := by
  obtain ⟨c, reply⟩ := e
  cases c with
  | postSend _ =>
      show r.sends + (if reply = 0 then 1 else 0) < r.posts + if reply = 0 then 1 else 0
      omega
  | postWrite _ _ _ | postRead _ _ _ =>
      show r.sends < r.posts + if reply = 0 then 1 else 0
      omega
  | _ => exact h

/-- A region that is there stays the same. -/
lemma region_after {r : Record} {mr : Mr} (hallowed : r.allowed clientMessage 2 side e.1)
    (h : r.region = some mr) : (r.after e).region = some mr := by
  obtain ⟨c, reply⟩ := e
  cases c with
  | regMr buf =>
      have hbuf : buf ≠ .rdmaBuff := by
        intro hbuf
        exact absurd ((hallowed hbuf).1.symm.trans h) (by simp)
      exact (if_neg hbuf).trans h
  | _ => exact h

/-- What was sent stays the same. -/
lemma sent_after {r : Record} {k : ℕ} {msg : List UInt8} (h : r.sent[k]? = some msg) :
    (r.after e).sent[k]? = some msg := by
  obtain ⟨c, reply⟩ := e
  cases c with
  | postSend _ =>
      show (if reply = 0 then r.sent ++ [r.message] else r.sent)[k]? = some msg
      split
      · rw [List.getElem?_append_left (List.getElem?_eq_some_iff.mp h).1]
        exact h
      · exact h
  | _ => exact h

/-- What a call does to the accesses of a side. -/
inductive Asks (r r' : Record) (port port' : Port) : Prop
  | write {localMr : Option Mr} {addr : UInt64} {rkey : UInt32}
      (queue : port'.sendQueue = [.write localMr addr rkey]) (made : r'.posts = r'.sends + 1)
  | read {localMr : Option Mr} {addr : UInt64} {rkey : UInt32}
      (queue : port'.sendQueue = [.read localMr addr rkey]) (idle : port.sendQueue = [])
      (before : r.posts = r.sends + 1)
  | keep (made : r'.posts + r.sends = r.posts + r'.sends)
      (queue : ∀ wr ∈ port.sendQueue, wr ∈ port'.sendQueue ∨ wr.isSend = true)

lemma asks_of_answer {r : Record} {port' : Port} {arrived : ℕ} (hfits : Fits r port arrived)
    (hallowed : r.allowed clientMessage 2 side e.1) (hgood : failed e = false)
    (hs : port.answer other side e = some port') : Asks r (r.after e) port port' := by
  obtain ⟨c, reply⟩ := e
  cases c with
  | postSend sendInline =>
      obtain rfl := Option.some.inj hs
      obtain rfl : reply = (0 : Int) := by simpa [failed] using hgood
      refine .keep ?_ fun wr hwr => absurd hwr ?_
      · show r.posts + 1 + r.sends = r.posts + (r.sends + 1)
        omega
      · rw [queue_nil hfits hallowed.1.2.2.1]
        exact List.not_mem_nil
  | postWrite localMr addr rkey =>
      obtain rfl := Option.some.inj hs
      obtain rfl : reply = (0 : Int) := by simpa [failed] using hgood
      exact .write (queue_post _ (queue_nil hfits hallowed.1.idle))
        (congrArg (· + 1) hallowed.1.made)
  | postRead localMr addr rkey =>
      obtain rfl := Option.some.inj hs
      obtain rfl : reply = (0 : Int) := by simpa [failed] using hgood
      have haccess : r.Accesses 2 side 1 localMr addr rkey := hallowed
      have hnil := queue_nil hfits haccess.idle
      exact .read (queue_post _ hnil) hnil haccess.made
  | getRequest | established =>
      simp only [Port.answer] at hs
      split at hs
      · exact absurd hs (by simp)
      · obtain rfl := Option.some.inj hs
        exact .keep rfl fun _ hwr => Or.inl hwr
  | load buf off n =>
      simp only [Port.answer] at hs
      split at hs
      · obtain rfl := Option.some.inj hs
        exact .keep rfl fun _ hwr => Or.inl hwr
      · exact absurd hs (by simp)
  | getSendComp | pollCq =>
      obtain ⟨hport, -, -⟩ := Port.pollSend_eq hs
      rw [hport]
      exact .keep rfl fun _ hwr => Or.inl hwr
  | getRecvComp =>
      obtain ⟨hport, -, -⟩ := Port.pollRecv_eq hs
      rw [hport]
      exact .keep rfl fun _ hwr => Or.inl hwr
  | _ =>
      obtain rfl := Option.some.inj hs
      exact .keep rfl fun _ hwr => Or.inl hwr

/-- A call does not touch the shared buffer, nor its own one when that was read into. -/
lemma buffers_of_answer {r : Record} {port' : Port} (hallowed : r.allowed clientMessage 2 side e.1)
    (hs : port.answer other side e = some port') :
    port'.buffers .rdmaBuff = port.buffers .rdmaBuff ∧
      (r.posts = r.sends + 2 → port'.buffers .buffLocalSend = port.buffers .buffLocalSend) := by
  obtain ⟨c, reply⟩ := e
  cases c with
  | store buf off bytes =>
      obtain rfl := Option.some.inj hs
      rcases hallowed.1 with rfl | ⟨rfl, hle⟩
      · exact ⟨rfl, fun _ => rfl⟩
      · exact ⟨rfl, fun hread => absurd hle (by omega)⟩
  | postSend _ | postWrite _ _ _ | postRead _ _ _ =>
      obtain rfl := Option.some.inj hs
      rw [Port.post]
      split <;> exact ⟨rfl, fun _ => rfl⟩
  | getRequest | established =>
      simp only [Port.answer] at hs
      split at hs
      · exact absurd hs (by simp)
      · obtain rfl := Option.some.inj hs
        exact ⟨rfl, fun _ => rfl⟩
  | load buf off n =>
      simp only [Port.answer] at hs
      split at hs
      · obtain rfl := Option.some.inj hs
        exact ⟨rfl, fun _ => rfl⟩
      · exact absurd hs (by simp)
  | getSendComp | pollCq =>
      obtain ⟨hport, -, -⟩ := Port.pollSend_eq hs
      rw [hport]
      exact ⟨rfl, fun _ => rfl⟩
  | getRecvComp =>
      obtain ⟨hport, -, -⟩ := Port.pollRecv_eq hs
      rw [hport]
      exact ⟨rfl, fun _ => rfl⟩
  | _ =>
      obtain rfl := Option.some.inj hs
      exact ⟨rfl, fun _ => rfl⟩

/-- When the server reads the second message, it is the one that the client has sent. -/
lemma Shared.recvMsg_eq (h : Shared g l) (hrefused : Unrefused l)
    (hcomps : 1 < (g .server).recvComps) :
    (g .client).sent[1]? = some ((l .server).buffers .recvMsg) := by
  have hsteady := h.steady hrefused
  have hfits := (hsteady.inLine.fits .server).recvComps
  rw [hsteady.flushed, Nat.add_zero] at hfits
  have hclient := (hsteady.inLine.fits .client).sends
  have hmost := (hsteady.inLine.ok .client).sends
  simp only [Side.other] at hclient
  have hlen : (l .server).delivered.length = 2 := by omega
  have hfifo : (g .client).sent = (l .server).delivered ++ (l .client).outgoing :=
    hsteady.fifo .client
  have hlast : (l .server).delivered[1]? = (l .server).delivered.getLast? := by
    rw [List.getLast?_eq_getElem?, hlen]
  obtain ⟨msg, hmsg⟩ : ∃ msg, (l .server).delivered.getLast? = some msg := by
    rw [← hlast]
    exact ⟨_, List.getElem?_eq_getElem (by omega)⟩
  rw [hfifo, List.getElem?_append_left (by omega), hlast, (h.own .server).received,
    List.getLastD_eq_getLast?, hmsg]
  rfl

/-- What the server loads is a piece of that message. -/
lemma Shared.loads_after (h : Shared g l)
    (hallowed : (g .server).allowed clientMessage 2 .server e.1)
    (hs : (l .server).answer (l .client) .server e = some port) :
    ∀ x ∈ ((g .server).after e).loads, ∃ msg, (g .client).sent[1]? = some msg ∧
      x.2.2 = (msg.drop x.1).take x.2.1 := by
  obtain ⟨c, reply⟩ := e
  cases c with
  | load buf off n =>
      obtain ⟨rfl, hcomps, hnone⟩ := hallowed
      have hrefused : Unrefused l := by
        intro q
        cases hq : (l q).refused with
        | false => rfl
        | true => exact absurd (h.refused q hq).1 (by omega)
      simp only [Port.answer] at hs
      split at hs
      · rename_i hbytes
        show ∀ x ∈ (g .server).loads ++ [(off, n, reply)], _
        refine List.forall_mem_append.mpr ⟨h.loads, List.forall_mem_singleton.mpr ?_⟩
        exact ⟨_, h.recvMsg_eq hrefused hcomps, hbytes⟩
      · exact absurd hs (by simp)
  | _ => exact h.loads

/-- **A call that does not fail.** -/
theorem Shared.call (h : Shared g l) (hallowed : (g side).allowed clientMessage 2 side e.1)
    (hgood : failed e = false) (hs : l.answer side e = some l') :
    Shared (Function.update g side ((g side).after e)) l' := by
  have hinLine := inLine_call h.inLine hallowed hs
  obtain ⟨port, hport, rfl⟩ := Link.answer_eq hs
  obtain ⟨hfits, hfate⟩ := (h.inLine.fits side).answer hport
  simp only [Port.fate, Prod.mk.injEq] at hfate
  obtain ⟨-, -, -, hrefused⟩ := hfate
  have hown := own_answer (h.own side) (h.inLine.fits side) hallowed hgood (h.good side) hport
  have hsame : ∀ q, (Function.update l side port q).refused = (l q).refused :=
    Link.update_congr Port.refused hrefused
  have hunrefused : Unrefused (Function.update l side port) → Unrefused l :=
    fun hafter q => (hsame q).symm.trans (hafter q)
  refine ⟨hinLine, fun q => ?_, fun hafter => ?_, fun q => ?_, ?_, fun q hq => ?_, ?_, ?_, ?_⟩
  · by_cases hq : q = side
    · subst hq
      rw [Function.update_self]
      show ((g q).failed || failed e) = false
      rw [h.good q, hgood, Bool.or_false]
    · rw [Function.update_of_ne hq]
      exact h.good q
  · exact steady_call (h.steady (hunrefused hafter)) hallowed hgood hs
  · by_cases hq : q = side
    · subst hq
      rw [Function.update_self, Function.update_self]
      exact hown
    · rw [Function.update_of_ne hq, Function.update_of_ne hq]
      exact h.own q
  · cases side with
    | server =>
        rw [Function.update_self, Function.update_of_ne (by simp)]
        exact h.loads_after hallowed hport
    | client =>
        rw [Function.update_self, Function.update_of_ne (by simp)]
        intro x hx
        obtain ⟨msg, hmsg, heq⟩ := h.loads x hx
        exact ⟨msg, sent_after hmsg, heq⟩
  · rw [hsame] at hq
    obtain ⟨hmade, mr, hregion, hunfair⟩ := h.refused q hq
    cases side with
    | server =>
        rw [Function.update_self, Function.update_of_ne (by simp)]
        exact ⟨made_after hmade, mr, hregion, hunfair⟩
    | client =>
        rw [Function.update_self, Function.update_of_ne (by simp)]
        exact ⟨hmade, mr, region_after hallowed hregion, hunfair⟩
  · intro hafter hmade hnone
    have hbuffer : (Function.update l side port .client).buffers .rdmaBuff =
        (l .client).buffers .rdmaBuff := Link.update_congr (fun port => port.buffers .rdmaBuff)
          (buffers_of_answer hallowed hport).1 .client
    rw [hbuffer]
    cases side with
    | server =>
        rw [Function.update_self] at hmade hnone
        cases asks_of_answer (h.inLine.fits .server) hallowed hgood hport with
        | write hqueue _ =>
            rw [hqueue] at hnone
            exact absurd (hnone _ (List.mem_singleton_self _)) (by simp [isWrite])
        | read hqueue hidle hbefore =>
            refine h.written (hunrefused hafter) (by omega) ?_
            rw [hidle]
            exact List.forall_mem_nil _
        | keep hmade' hqueue =>
            refine h.written (hunrefused hafter) (by omega) fun wr hwr => ?_
            exact (hqueue wr hwr).elim (hnone wr) fun hsend => (not_access_of_isSend hsend).1
    | client =>
        rw [Function.update_of_ne (by simp)] at hmade hnone
        exact h.written (hunrefused hafter) hmade hnone
  · intro hafter hmade hnone
    cases side with
    | server =>
        rw [Function.update_self] at hmade hnone ⊢
        cases asks_of_answer (h.inLine.fits .server) hallowed hgood hport with
        | write _ hmade' => exact absurd hmade (by omega)
        | read hqueue _ _ =>
            rw [hqueue] at hnone
            exact absurd (hnone _ (List.mem_singleton_self _)) (by simp [isRead])
        | keep hmade' hqueue =>
            have hread : (g .server).posts = (g .server).sends + 2 := by omega
            rw [(buffers_of_answer hallowed hport).2 hread]
            refine h.read (hunrefused hafter) hread fun wr hwr => ?_
            exact (hqueue wr hwr).elim (hnone wr) fun hsend => (not_access_of_isSend hsend).2
    | client =>
        rw [Function.update_of_ne (by simp)] at hmade hnone ⊢
        exact h.read (hunrefused hafter) hmade hnone
  · have hbuffer : (Function.update l side port .client).buffers .rdmaBuff =
        (l .client).buffers .rdmaBuff := Link.update_congr (fun port => port.buffers .rdmaBuff)
          (buffers_of_answer hallowed hport).1 .client
    rw [hbuffer]
    refine h.blank.imp_left ?_
    rintro ⟨mr, hregion, hfair⟩
    refine ⟨mr, ?_, hfair⟩
    cases side with
    | server => rwa [Function.update_of_ne (by simp)]
    | client =>
        rw [Function.update_self]
        exact region_after hallowed hregion

end

end RdmaTest

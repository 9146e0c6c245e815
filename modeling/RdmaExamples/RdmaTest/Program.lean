import RdmaExamples.Messages.Connection
import RdmaExamples.RdmaTest.Keys

/-!
# The program of the shared region

The functions of `rdma_test.c`.  Both sides connect as in the message program, and exchange a
message.  Then the client registers `rdma_buff` and tells the server its key and its address; the
server writes `"Dat"` there, reads it back, and sends the message on which both end.

Neither side looks at the status of a completion, and three results are dropped: those of the first
send completion of the server, of the first receive completion of the client, and of `ibv_poll_cq`.
-/

namespace RdmaTest

open Programs Messages ByteStrings

/-! ## The server -/

/-- `do { ret = ibv_poll_cq(id->send_cq, 1, &wc); } while (ret == 0);` -/
def pollCq : ℕ → MsgM Int
  | 0 => StateProg.halt
  | fuel + 1 => do
      let ret ← call .pollCq
      if ret = 0 then pollCq fuel else return ret

/-- `server_run`, from the write on. -/
def serverAccess (fuel : ℕ) (localMr : Option Mr) (remoteAddr : UInt64) (rkey : UInt32) :
    MsgM Exit :=
  attempt .disconnect (call (.postWrite localMr remoteAddr rkey)) do
    let _ ← pollCq fuel
    call (.store .buffLocalSend 0 (List.replicate bufferSize 0))
    attempt .disconnect (call (.postRead localMr remoteAddr rkey)) do
      let _ ← pollCq fuel
      attempt .disconnect rdmaPostSend <|
      lastWait .disconnect (waitSendComp fuel)

/-- `server_run`, from the message on that tells it the key and the address. -/
def serverShare (fuel : ℕ) : MsgM Exit := do
  let rkey ← call (.load .recvMsg 0 4)
  let remoteAddr ← call (.load .recvMsg 4 8)
  call (.store .buffLocalSend 0 dat)
  let localMr ← call (.regMr .buffLocalSend)
  serverAccess fuel localMr (UInt64.ofNat (ofBytes remoteAddr)) (UInt32.ofNat (ofBytes rkey))

/-- `server_run`, from the connection on. -/
def serverExchange (fuel : ℕ) : MsgM Exit :=
  attemptWait .disconnect (waitRecvComp fuel) <|
  attempt .disconnect rdmaPostSend do
    -- if this fails, it is only printed
    let _ ← waitSendComp fuel
    attempt .deregSend (call .postRecv) <|
    attemptWait .disconnect (waitRecvComp fuel) (serverShare fuel)

/-- `server_run`. -/
def serverRun (fuel : ℕ) : MsgM Int := leave .server (serverStart (serverExchange fuel))

/-! ## The client -/

/-- An access through a null pointer. -/
def segfault : MsgM Exit := do
  call .segfault
  StateProg.halt

/-- `client_run`, from the message on that tells the server the key and the address. -/
def clientTell (fuel : ℕ) : MsgM Exit :=
  attempt .deregRdmaMr rdmaPostSend <|
  attemptWait .deregRdmaMr (waitSendComp fuel) <|
  -- `goto out_dereg_send;`: neither the region nor the connection is given up there
  attempt .deregSend (call .postRecv) <|
  lastWait .deregRdmaMr (waitRecvComp fuel)

/-- `client_run`, with the region of `rdma_buff`: it is written down in `send_msg`. -/
def clientShare (fuel : ℕ) (rdmaMr : Mr) : MsgM Exit := do
  let copy := memccpy [] 0 0 (toBytes 4 rdmaMr.rkey.toNat)
  call (.store .sendMsg 0 copy.1)
  match copy.2 with
  | none => segfault
  | some temp => do
      call (.store .sendMsg temp (toBytes 8 rdmaMr.addr.toNat))
      clientTell fuel

/-- `client_run`, from the connection on. -/
def clientExchange (fuel : ℕ) : MsgM Exit :=
  attempt .disconnect rdmaPostSend <|
  attemptWait .disconnect (waitSendComp fuel) do
    -- if this fails, it is only printed
    let _ ← waitRecvComp fuel
    let rdmaMr ← call (.regMr .rdmaBuff)
    match rdmaMr with
    | none => segfault
    | some mr => clientShare fuel mr

/-- `client_run`. -/
def clientRun (fuel : ℕ) : MsgM Int := leave .client (clientStart (clientExchange fuel))

/-- What a side runs. -/
def nodeRun (fuel : ℕ) : Side → MsgM Int
  | .server => serverRun fuel
  | .client => clientRun fuel

/-! ## The message of the client -/

/-- `memccpy` writes the bytes up to the one that it looks for. -/
lemma memccpy_eq_store {c : UInt8} {src dst : List UInt8} {off : ℕ} (hoff : off ≤ dst.length) :
    memccpy dst c off src =
      (store dst off (memccpy [] c 0 src).1, (memccpy [] c 0 src).2.map (off + ·)) := by
  induction src generalizing dst off with
  | nil => simp [memccpy]
  | cons b src ih =>
      have hempty : store [] 0 [b] = [b] := rfl
      rw [memccpy, memccpy, hempty]
      by_cases hb : b = c
      · simp [hb]
      · have hlen : off + 1 ≤ (store dst off [b]).length := by
          simp only [store, List.length_append, List.length_take, List.length_singleton]
          omega
        have hone : store [b] 1 (memccpy [] c 0 src).1 = [b] ++ (memccpy [] c 0 src).1 := by
          simp [store]
        have hjoin : store (store dst off [b]) (off + [b].length) (memccpy [] c 0 src).1 =
            store dst off ([b] ++ (memccpy [] c 0 src).1) := store_store hoff
        rw [List.length_singleton] at hjoin
        have hrest : memccpy [b] c (0 + 1) src = (store [b] 1 (memccpy [] c 0 src).1,
            (memccpy [] c 0 src).2.map (1 + ·)) := ih le_rfl
        rw [if_neg hb, if_neg hb, ih hlen, hrest, hone, hjoin, Option.map_map]
        congr 2
        funext k
        exact Nat.add_assoc ..

/-- It writes no more than it is given, and ends there. -/
lemma memccpy_length (c : UInt8) (src : List UInt8) :
    (memccpy [] c 0 src).1.length ≤ src.length ∧
      ∀ temp, (memccpy [] c 0 src).2 = some temp → temp ≤ src.length := by
  induction src with
  | nil => simp [memccpy]
  | cons b src ih =>
      have hempty : store [] 0 [b] = [b] := rfl
      rw [memccpy, hempty]
      by_cases hb : b = c
      · simp [hb]
      · have hrest : memccpy [b] c (0 + 1) src = (store [b] 1 (memccpy [] c 0 src).1,
            (memccpy [] c 0 src).2.map (1 + ·)) := memccpy_eq_store le_rfl
        have hlen : (store [b] 1 (memccpy [] c 0 src).1).length =
            (memccpy [] c 0 src).1.length + 1 := by simp [store]
        rw [if_neg hb, hrest, hlen, List.length_cons]
        refine ⟨Nat.succ_le_succ ih.1, fun temp htemp => ?_⟩
        obtain ⟨k, hk, rfl⟩ := Option.map_eq_some_iff.mp htemp
        have hle := ih.2 k hk
        omega

/-- What `clientShare` stores is the message that the server takes apart. -/
theorem clientMessage_stores (rkey : UInt32) (addr : UInt64) : clientMessage rkey addr =
    (memccpy [] 0 0 (toBytes 4 rkey.toNat)).2.map fun temp =>
      store (store sendMsg 0 (memccpy [] 0 0 (toBytes 4 rkey.toNat)).1) temp
        (toBytes 8 addr.toNat) := by
  rw [clientMessage, memccpy_eq_store (Nat.zero_le _)]
  cases (memccpy [] 0 0 (toBytes 4 rkey.toNat)).2 with
  | none => rfl
  | some temp => simp [memcpy]

end RdmaTest

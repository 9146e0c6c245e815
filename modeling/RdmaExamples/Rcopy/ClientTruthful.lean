import RdmaExamples.Rcopy.ClientRuns
import RdmaExamples.Rcopy.ServerStages

/-!
# When the result of the client can be trusted

`client_run` should return `0` only if it handed the OPEN, the WRITE and the whole file to `rsend`
and the server answered the file with a response of success.  It does not look at everything:

* `hdr.len` of the OPEN has 16 bits, and as many bytes of the message as it says are sent.
* A count of `rsend` that is short becomes the return value, cut down to an `int`; a count that is
  a multiple of `2 ^ 32` becomes `0`.
* A failing `rrecv` passes for a response that was received (see `recv_delivers_iff`).

`client_truthful_iff` says that there is no other way, for whatever the calls answer.  `exchanges`
cuts a run at its sends.
-/

namespace Rcopy

open ByteStrings MachineWords Programs Tiling

/-! ## What a run sends

A run is cut at its calls of `rsend`: each piece is what was sent, what `rsend` returned, and the
calls up to the next one. -/

/-- The event is an `rsend`. -/
def isSend : Event Call Reply → Bool
  | ⟨.rsend _, _⟩ => true
  | _ => false

/-- What was handed to one `rsend`, what it returned, and the events up to the next one. -/
structure Exchange where
  bs : List UInt8
  ret : Int
  answer : Trace

/-- The exchanges of a run. -/
def exchanges : Trace → List Exchange
  | [] => []
  | ⟨.rsend bs, sent⟩ :: t => ⟨bs, sent.ret, t.takeWhile fun e => !isSend e⟩ :: exchanges t
  | _ :: t => exchanges t

/-- `rsend` took the message in full. -/
def Exchange.Whole (x : Exchange) (msg : List UInt8) : Prop := x.bs = msg ∧ x.ret = msg.length

/-- A well-formed response of success to `cmd` was received: sixteen bytes, one after the other. -/
structure Answered (cmd : UInt8) (t : Trace) : Prop where
  tiles : Tiles 0 (pieces .header t) sizeofHdr
  version : (MsgHdr.decode (received .header t)).version = 0
  len : (MsgHdr.decode (received .header t)).len.toNat = sizeofHdr
  good : GoodResp cmd (received .header t)

/-- The client copied its file: it handed over the OPEN, the WRITE and the bytes of the file it
mapped, each in full, and the server answered the last with success. -/
def ClientDone (dstFile : List UInt8) (t : Trace) : Prop :=
  ∃ (fd : Int) (stats : Stat) (mapping : Mapping stats.size) (x₁ x₂ x₃ x₄ : Exchange),
    (⟨.fstat fd, .ok stats⟩ : Event Call Reply) ∈ t ∧
    (⟨.mmap fd stats.size, .ok mapping⟩ : Event Call Reply) ∈ t ∧
    exchanges t = [x₁, x₂, x₃, x₄] ∧ x₁.Whole (openMsg dstFile stats.mode) ∧
    x₂.Whole (writeMsg stats.size) ∧ x₃.Whole mapping.mem ∧ Answered cmdWrite x₃.answer

/-- `rsend` fails with `-1`, or takes at least one byte if it is given any. -/
def SendOk : Event Call Reply → Prop
  | ⟨.rsend bs, sent⟩ => sent.ret = -1 ∨ 0 < sent.ret ∨ bs = []
  | _ => True

section Exchanges

variable {t t' a : Trace}

lemma isSend_of_noSend {e : Event Call Reply} (h : NoSend e.1) : isSend e = false := by
  obtain ⟨c, r⟩ := e
  cases c <;> first | rfl | exact absurd rfl (h _)

lemma exchanges_noSend (h : ∀ e ∈ t, NoSend e.1) : exchanges (t ++ t') = exchanges t' := by
  induction t with
  | nil => rfl
  | cons e t ih =>
      obtain ⟨c, r⟩ := e
      have hc := h _ List.mem_cons_self
      rw [List.cons_append, ← ih fun e he => h e (List.mem_cons_of_mem _ he)]
      cases c <;> first | rfl | exact absurd rfl (hc _)

/-- The events after a send, up to the next one. -/
lemma exchanges_send {bs : List UInt8} {sent : Reply (.rsend bs)} (h : ∀ e ∈ a, NoSend e.1)
    (hnext : ∀ e ∈ t'.head?, isSend e = true) :
    exchanges (⟨.rsend bs, sent⟩ :: (a ++ t')) = ⟨bs, sent.ret, a⟩ :: exchanges t' := by
  have htake : (a ++ t').takeWhile (fun e => !isSend e) = a := by
    rw [List.takeWhile_append_of_pos fun e he => by simp [isSend_of_noSend (h e he)]]
    cases t' with
    | nil => simp
    | cons e t' => simp [hnext e (by simp)]
  show ⟨bs, sent.ret, (a ++ t').takeWhile fun e => !isSend e⟩ :: exchanges (a ++ t') = _
  rw [htake, exchanges_noSend h]

/-- A run with four sends. -/
lemma exchanges_fourSends {pre a₁ a₂ a₃ a₄ : Trace} {bs₁ bs₂ bs₃ bs₄ : List UInt8}
    {sent₁ : Reply (.rsend bs₁)} {sent₂ : Reply (.rsend bs₂)} {sent₃ : Reply (.rsend bs₃)}
    {sent₄ : Reply (.rsend bs₄)} (hpre : ∀ e ∈ pre, NoSend e.1) (h₁ : ∀ e ∈ a₁, NoSend e.1)
    (h₂ : ∀ e ∈ a₂, NoSend e.1) (h₃ : ∀ e ∈ a₃, NoSend e.1) (h₄ : ∀ e ∈ a₄, NoSend e.1) :
    exchanges (pre ++ ⟨.rsend bs₁, sent₁⟩ :: (a₁ ++ ⟨.rsend bs₂, sent₂⟩ ::
      (a₂ ++ ⟨.rsend bs₃, sent₃⟩ :: (a₃ ++ ⟨.rsend bs₄, sent₄⟩ :: a₄))))
      = [⟨bs₁, sent₁.ret, a₁⟩, ⟨bs₂, sent₂.ret, a₂⟩, ⟨bs₃, sent₃.ret, a₃⟩,
        ⟨bs₄, sent₄.ret, a₄⟩] := by
  have hlast : exchanges (⟨.rsend bs₄, sent₄⟩ :: a₄) = [⟨bs₄, sent₄.ret, a₄⟩] := by
    have h := @exchanges_send [] a₄ bs₄ sent₄ h₄ (by simp)
    rwa [List.append_nil] at h
  rw [exchanges_noSend hpre, exchanges_send h₁ (by simp [isSend]),
    exchanges_send h₂ (by simp [isSend]), exchanges_send h₃ (by simp [isSend]), hlast]

end Exchanges

/-! ## The stages of a client that returns `0`

Each stage of the client that goes on has one send at most, so that the pieces of the whole run are
those of its stages. -/

section Stages

variable {srcFile dstFile mem : List UInt8} {fuel : ℕ} {t : Trace} {g g' : Globals} {ret : Int}
  {msg : MsgHdr} {cmd : UInt8}

lemma OnlyInto.noSend {dest : Dest} (h : OnlyInto dest t) : ∀ e ∈ t, NoSend e.1 := by
  intro e he bs hc
  obtain ⟨offset, n, hrecv⟩ := h e he
  rw [hrecv] at hc
  simp at hc

/-- `msg_get_resp` receives a header, and that is all. -/
lemma msgGetResp_cases (h : Returns ((msgGetResp fuel msg cmd).run g) t (ret, g')) :
    g' = g ∧ OnlyInto .header t ∧ ∃ n hdr, Returns ((msgRecvHdr fuel msg).run g) t ((n, hdr), g) ∧
      (ret = 0 → n = sizeofHdr ∧ hdr.len.toNat = sizeofHdr ∧ hdr.command = cmd ||| cmdResp ∧
        hdr.data = 0) := by
  rw [msgGetResp] at h
  obtain ⟨t₁, t₂, ⟨n, hdr⟩, g₁, rfl, h₁, h₂⟩ := returns_run_bind.mp h
  have honly := msgRecvHdr_onlyInto h₁.canDo
  obtain ⟨rfl, n', buf, -, -, hret⟩ := msgRecvHdr_cases h₁
  dsimp only at h₂
  split at h₂
  · rename_i hn
    obtain ⟨rfl, rfl, rfl⟩ := returns_run_pure.mp h₂
    rw [List.append_nil]
    refine ⟨rfl, honly, n, hdr, h₁, ?_⟩
    rintro rfl
    rcases hret with ⟨hbad, -⟩ | ⟨hbad, -⟩
    · exact absurd hbad (by decide)
    · exact absurd hbad hn
  · rename_i hn
    split at h₂
    · obtain ⟨rfl, rfl, rfl⟩ := returns_run_pure.mp h₂
      rw [List.append_nil]
      exact ⟨rfl, honly, n, hdr, h₁, fun hzero => absurd hzero (by decide)⟩
    · rename_i hresp
      obtain ⟨rfl, rfl, rfl⟩ := returns_run_pure.mp h₂
      rw [List.append_nil]
      simp only [not_or, not_not] at hresp hn
      exact ⟨rfl, honly, n, hdr, h₁, fun hzero => ⟨hn, hresp.1, hresp.2, toInt32_eq_zero.mp hzero⟩⟩

/-- **A response that `msg_get_resp` takes for success was received** exactly if no `rrecv`
failed. -/
lemma msgGetResp_answered_iff (h : Returns ((msgGetResp fuel msg cmd).run g) t (0, g')) :
    Answered cmd t ↔ ¬ HasError t := by
  obtain ⟨-, -, n, hdr, hhdr, hzero⟩ := msgGetResp_cases h
  obtain ⟨rfl, hlen, hcmd, hdata⟩ := hzero rfl
  obtain ⟨-, m, buf, hrecv, -, ⟨hbad, -⟩ | ⟨-, rfl, hversion, -⟩⟩ := msgRecvHdr_cases hhdr
  · exact absurd hbad (by decide)
  · have htiles := recv_tiles_iff (by decide) hrecv
    constructor
    · exact fun hans => (htiles.mp hans.tiles).2
    · intro herror
      obtain ⟨hsize, rfl, heof⟩ := msgRecvHdr_received hhdr herror
      exact ⟨htiles.mpr ⟨heof, herror⟩, hversion, hlen, hsize, hcmd, hdata⟩

/-- A count that `rsend` may return for a short message is not mistaken for success. -/
lemma toInt32_ne_zero_of_short {bs : List UInt8} {sent : Reply (.rsend bs)}
    (hok : SendOk ⟨.rsend bs, sent⟩) (hlen : bs.length < 2 ^ 31) (hne : sent.ret ≠ bs.length) :
    toInt32 sent.ret ≠ 0 := by
  have hlow := sent.neg_one_le
  have hhigh := sent.le
  rw [toInt32, Int.bmod]
  rcases hok with hneg | hpos | hnil
  · rw [hneg]
    decide
  · omega
  · have hzero : bs.length = 0 := congrArg List.length hnil
    omega

/-- `client_open`, from the OPEN on. -/
lemma clientOpenSend_stage {mode : UInt32} {res : Option Int}
    (h : Returns ((clientOpenSend fuel dstFile mode).run g) t (res, g'))
    (hok : ∀ e ∈ t, SendOk e) :
    g' = g ∧ ((∃ ret, res = some ret ∧ ret ≠ 0) ∨
      ∃ (n : ℕ) (sent : Reply (.rsend (openBytesOf dstFile mode))) (a : Trace), res = none ∧
        t = ⟨.calloc n, true⟩ :: ⟨.rsend (openBytesOf dstFile mode), sent⟩ :: a ∧
        sent.ret = (openBytesOf dstFile mode).length ∧ ∀ e ∈ a, NoSend e.1) := by
  rw [clientOpenSend] at h
  obtain ⟨ok, t₁, rfl, h₁⟩ := returns_run_perform_bind.mp h
  split at h₁
  · rename_i hblock
    obtain rfl : ok = true := hblock
    obtain ⟨sent, t₂, rfl, h₂⟩ := returns_run_perform_bind.mp h₁
    have hlen := length_openBytesOf dstFile mode
    split at h₂
    · rename_i hshort
      obtain ⟨-, rfl, rfl⟩ := returns_run_pure.mp h₂
      refine ⟨rfl, Or.inl ⟨_, rfl, ?_⟩⟩
      have hlt := (openHdr dstFile mode).len.toNat_lt
      refine @toInt32_ne_zero_of_short (openBytesOf dstFile mode) _ (hok _ (by simp [openBytesOf]))
        (by omega) fun hall => hshort (hall.trans (congrArg Nat.cast hlen))
    · rename_i hall
      obtain ⟨t₃, t₄, ret, g₁, rfl, h₃, h₄⟩ := returns_run_bind.mp h₂
      obtain ⟨rfl, honly, -⟩ := msgGetResp_cases h₃
      split at h₄
      · rename_i hret
        obtain ⟨-, rfl, rfl⟩ := returns_run_pure.mp h₄
        exact ⟨rfl, Or.inl ⟨ret, rfl, hret⟩⟩
      · obtain ⟨rfl, rfl, rfl⟩ := returns_run_pure.mp h₄
        rw [List.append_nil]
        exact ⟨rfl, Or.inr ⟨_, sent, t₃, rfl, rfl,
          (not_not.mp hall).trans (congrArg Nat.cast hlen.symm), honly.noSend⟩⟩
  · obtain ⟨-, rfl, rfl⟩ := returns_run_pure.mp h₁
    exact ⟨rfl, Or.inl ⟨-1, rfl, by decide⟩⟩

/-- `client_open`, where it returns `0`. -/
lemma clientOpen_stage (h : Returns ((clientOpen fuel srcFile dstFile).run g) t ((0, mem), g'))
    (hok : ∀ e ∈ t, SendOk e) :
    ∃ (fd : Int) (stats : Stat) (mapping : Mapping stats.size) (pre a : Trace)
      (sent : Reply (.rsend (openBytesOf dstFile stats.mode))),
      mem = mapping.mem ∧ g'.bytes = stats.size ∧
      t = pre ++ ⟨.rsend (openBytesOf dstFile stats.mode), sent⟩ :: a ∧
      (⟨.fstat fd, .ok stats⟩ : Event Call Reply) ∈ pre ∧
      (⟨.mmap fd stats.size, .ok mapping⟩ : Event Call Reply) ∈ pre ∧ (∀ e ∈ pre, NoSend e.1) ∧
      sent.ret = (openBytesOf dstFile stats.mode).length ∧ ∀ e ∈ a, NoSend e.1 := by
  rw [clientOpen] at h
  obtain ⟨opened, t₁, rfl, h₁⟩ := returns_run_perform_bind.mp h
  cases opened with
  | error e =>
      dsimp only at h₁
      rw [run_modify_bind] at h₁
      exact absurd (Prod.mk.inj (returns_run_pure.mp h₁).2.1).1 (by decide)
  | ok fd =>
      dsimp only at h₁
      rw [run_modify_bind] at h₁
      obtain ⟨stats, t₂, rfl, h₂⟩ := returns_run_perform_bind.mp h₁
      cases stats with
      | error e =>
          obtain ⟨u, t₃, rfl, h₃⟩ := returns_run_perform_bind.mp h₂
          exact absurd (Prod.mk.inj (returns_run_pure.mp h₃).2.1).1 (by decide)
      | ok stats =>
          dsimp only at h₂
          rw [run_modify_bind] at h₂
          obtain ⟨mapped, t₃, rfl, h₃⟩ := returns_run_perform_bind.mp h₂
          cases mapped with
          | error e =>
              dsimp only at h₃
              rw [run_modify_bind] at h₃
              obtain ⟨u, t₄, rfl, h₄⟩ := returns_run_perform_bind.mp h₃
              have hpos := e.pos
              exact absurd (Prod.mk.inj (returns_run_pure.mp h₄).2.1).1 (by omega)
          | ok mapping =>
              dsimp only at h₃
              rw [run_modify_bind] at h₃
              obtain ⟨t₄, t₅, res, g₁, rfl, h₄, h₅⟩ := returns_run_bind.mp h₃
              obtain ⟨rfl, ⟨ret, rfl, hret⟩ | ⟨n, sent, a, rfl, rfl, hsent, ha⟩⟩ :=
                clientOpenSend_stage h₄ fun e he => hok e (by simp [he])
              · obtain ⟨u₁, t₆, rfl, h₆⟩ := returns_run_perform_bind.mp h₅
                obtain ⟨u₂, t₇, rfl, h₇⟩ := returns_run_perform_bind.mp h₆
                exact absurd (Prod.mk.inj (returns_run_pure.mp h₇).2.1).1 hret
              · obtain ⟨rfl, hres, rfl⟩ := returns_run_pure.mp h₅
                refine ⟨fd, stats, mapping, [⟨.openFile srcFile .rdonly 0, .ok fd⟩,
                  ⟨.fstat fd, .ok stats⟩, ⟨.mmap fd stats.size, .ok mapping⟩, ⟨.calloc n, true⟩],
                  a, sent, (Prod.mk.inj hres).2.symm, rfl, by simp, by simp, by simp, ?_, hsent, ha⟩
                intro e he
                simp only [List.mem_cons, List.not_mem_nil, or_false] at he
                rcases he with rfl | rfl | rfl | rfl <;> intro bs hc <;> simp at hc

/-- `client_start_write`, where it returns `0`. -/
lemma clientStartWrite_stage (h : Returns (clientStartWrite.run g) t (0, g'))
    (hok : ∀ e ∈ t, SendOk e) :
    g' = g ∧ ∃ sent : Reply (.rsend (writeMsg g.bytes)), t = [⟨.rsend (writeMsg g.bytes), sent⟩] ∧
      sent.ret = (writeMsg g.bytes).length := by
  have hlen : (writeMsg g.bytes).length = sizeofWrite := by simp [writeMsg]; rfl
  rw [clientStartWrite, run_get_bind] at h
  obtain ⟨sent, t₁, rfl, h₁⟩ := returns_run_perform_bind.mp h
  split at h₁
  · rename_i hshort
    obtain ⟨-, hzero, -⟩ := returns_run_pure.mp h₁
    refine absurd hzero (@toInt32_ne_zero_of_short (writeMsg g.bytes) _ (hok _ (by simp)) ?_ ?_)
    · rw [hlen]
      decide
    · exact fun hall => hshort (hall.trans (congrArg Nat.cast hlen))
  · rename_i hall
    obtain ⟨rfl, -, rfl⟩ := returns_run_pure.mp h₁
    exact ⟨rfl, sent, rfl, (not_not.mp hall).trans (congrArg Nat.cast hlen.symm)⟩

/-- The data, and the response to it, where the result is `0`: the file was taken in full and
`msg_get_resp` returned `0`, or a multiple of `2 ^ 32` bytes was taken. -/
lemma clientSendData_stage (h : Returns ((clientSendData fuel mem).run g) t (0, g'))
    (hbytes : g.bytes = mem.length) (hlen : mem.length < 2 ^ 63) :
    ∃ (ack : MsgHdr) (sent : Reply (.rsend mem)) (a : Trace),
      t = ⟨.uninitialised, ack⟩ :: ⟨.rsend mem, sent⟩ :: a ∧
      ((sent.ret = mem.length ∧ Returns ((msgGetResp fuel ack cmdWrite).run g) a (0, g')) ∨
        (sent.ret ≠ mem.length ∧ sent.ret % 2 ^ 32 = 0 ∧ a = [])) := by
  rw [clientSendData] at h
  obtain ⟨ack, t₁, rfl, h₁⟩ := returns_run_perform_bind.mp h
  rw [run_get_bind] at h₁
  obtain ⟨sent, t₂, rfl, h₂⟩ := returns_run_perform_bind.mp h₁
  have hlow := sent.neg_one_le
  have hhigh := sent.le
  refine ⟨ack, sent, t₂, rfl, ?_⟩
  rw [hbytes, toUnsigned] at h₂
  split at h₂
  · rename_i hall
    exact Or.inl ⟨by omega, h₂⟩
  · rename_i hshort
    obtain ⟨rfl, hzero, -⟩ := returns_run_pure.mp h₂
    rw [toInt32, Int.bmod] at hzero
    exact Or.inr ⟨by omega, by omega, rfl⟩

/-- `client_close`. -/
lemma clientClose_stage (h : Returns ((clientClose fuel).run g) t (ret, g')) :
    ∃ (sent : Reply (.rsend closeHdr.encode)) (a : Trace),
      t = ⟨.rsend closeHdr.encode, sent⟩ :: a ∧ ∀ e ∈ a, NoSend e.1 := by
  rw [clientClose] at h
  obtain ⟨t₁, t₂, ret', g₁, rfl, h₁, h₂⟩ := returns_run_bind.mp h
  rw [run_get_bind] at h₂
  obtain ⟨u₁, t₃, rfl, h₃⟩ := returns_run_perform_bind.mp h₂
  obtain ⟨u₂, t₄, rfl, h₄⟩ := returns_run_perform_bind.mp h₃
  obtain ⟨rfl, -, -⟩ := returns_run_pure.mp h₄
  rw [clientCloseSend] at h₁
  obtain ⟨sent, t₅, rfl, h₅⟩ := returns_run_perform_bind.mp h₁
  have hquiet : ∀ e ∈ t₅, NoSend e.1 := by
    split at h₅
    · rw [(returns_run_pure.mp h₅).1]
      simp
    · exact (msgGetResp_cases h₅).2.1.noSend
  refine ⟨sent, _, rfl, ?_⟩
  intro e he
  rcases List.mem_append.mp he with he | he
  · exact hquiet e he
  · simp only [List.mem_cons, List.not_mem_nil, or_false] at he
    rcases he with rfl | rfl <;> intro bs hc <;> simp at hc

/-- What a client that returns `0` did with its file: what it found, its four sends, and how the
third of them ended. -/
structure SentFile (fuel : ℕ) (dstFile : List UInt8) (t : Trace) (fd : Int) (stats : Stat)
    (mapping : Mapping stats.size) (sent : Reply (.rsend mapping.mem)) (answer : Trace) : Prop where
  found : (⟨.fstat fd, .ok stats⟩ : Event Call Reply) ∈ t
  mapped : (⟨.mmap fd stats.size, .ok mapping⟩ : Event Call Reply) ∈ t
  exchanges : ∃ a₁ a₂ ret a₄, exchanges t =
    [⟨openBytesOf dstFile stats.mode, (openBytesOf dstFile stats.mode).length, a₁⟩,
      ⟨writeMsg stats.size, (writeMsg stats.size).length, a₂⟩, ⟨mapping.mem, sent.ret, answer⟩,
      ⟨closeHdr.encode, ret, a₄⟩]
  result : (sent.ret = mapping.mem.length ∧
      ∃ ack g g', Returns ((msgGetResp fuel ack cmdWrite).run g) answer (0, g')) ∨
    (sent.ret ≠ mapping.mem.length ∧ sent.ret % 2 ^ 32 = 0 ∧ answer = [])

/-- **A client that returns `0` went through its four sends.**  The first two
were taken in full.  A short count of the third, the file, may come out as `0`, and what becomes of
the CLOSE is not looked at. -/
theorem clientRun_sentFile (h : Returns ((clientRun fuel srcFile dstFile).run g) t (0, g'))
    (hok : ∀ e ∈ t, SendOk e) :
    ∃ fd stats mapping sent answer, SentFile fuel dstFile t fd stats mapping sent answer := by
  rw [clientRun] at h
  obtain ⟨t₁, t₂, rs, g₁, rfl, hconnect, h₂⟩ := returns_run_bind.mp h
  have hquiet₁ : ∀ e ∈ t₁, NoSend e.1 :=
    fun e he => (clientConnect_keeps.calls _ _ hconnect.canDo e he).1
  split at h₂
  · rename_i hneg
    exact absurd (returns_run_pure.mp h₂).2.1 (by omega)
  · obtain ⟨t₃, t₄, ⟨ret, mem⟩, g₂, rfl, hopen, h₄⟩ := returns_run_bind.mp h₂
    dsimp only at h₄
    split at h₄
    · rename_i hret
      obtain ⟨u₁, t₅, rfl, h₅⟩ := returns_run_perform_bind.mp h₄
      obtain ⟨u₂, t₆, rfl, h₆⟩ := returns_run_perform_bind.mp h₅
      exact absurd (returns_run_pure.mp h₆).2.1 hret
    · rename_i hret
      obtain rfl := not_not.mp hret
      obtain ⟨fd, stats, mapping, pre, a₁, sent₁, rfl, hbytes, rfl, hfound, hmapped, hpre, hsent₁,
        ha₁⟩ := clientOpen_stage hopen fun e he => hok e (by simp [he])
      obtain ⟨t₅, t₆, ret, g₃, rfl, hwrite, h₆⟩ := returns_run_bind.mp h₄
      obtain ⟨t₇, t₈, ret', g₄, rfl, hclose, h₈⟩ := returns_run_bind.mp h₆
      obtain ⟨u₁, t₉, rfl, h₉⟩ := returns_run_perform_bind.mp h₈
      obtain ⟨u₂, t₁₀, rfl, h₁₀⟩ := returns_run_perform_bind.mp h₉
      obtain ⟨rfl, rfl, -⟩ := returns_run_pure.mp h₁₀
      rw [clientWrite] at hwrite
      obtain ⟨t₅, t₁₁, ret, g₅, rfl, hstart, hdata⟩ := returns_run_bind.mp hwrite
      split at hdata
      · rename_i hret'
        exact absurd (returns_run_pure.mp hdata).2.1 hret'
      · rename_i hret'
        obtain rfl := not_not.mp hret'
        obtain ⟨rfl, sent₂, rfl, hsent₂⟩ := clientStartWrite_stage hstart
          fun e he => hok e (by simp [he])
        have hsize : mapping.mem.length = stats.size := mapping.length_eq
        obtain ⟨ack, sent₃, a₃, rfl, hres⟩ := clientSendData_stage hdata (by rw [hbytes, hsize])
          (by rw [hsize]; exact stats.lt)
        obtain ⟨sent₄, a₄, rfl, ha₄⟩ := clientClose_stage hclose
        have ha₃ : ∀ e ∈ a₃, NoSend e.1 := by
          rcases hres with ⟨-, hresp⟩ | ⟨-, -, rfl⟩
          · exact (msgGetResp_cases hresp).2.1.noSend
          · simp
        refine ⟨fd, stats, mapping, sent₃, a₃, ?_, ?_, ?_, ?_⟩
        · simp [hfound]
        · simp [hmapped]
        · have hend : ∀ e ∈ a₄ ++ [(⟨.rshutdown, u₁⟩ : Event Call Reply), ⟨.rclose, u₂⟩],
              NoSend e.1 := by
            intro e he
            rcases List.mem_append.mp he with he | he
            · exact ha₄ e he
            · simp only [List.mem_cons, List.not_mem_nil, or_false] at he
              rcases he with rfl | rfl <;> intro bs hc <;> simp at hc
          have huninit : ∀ e ∈ [(⟨.uninitialised, ack⟩ : Event Call Reply)], NoSend e.1 := by
            intro e he bs hc
            rw [List.mem_singleton.mp he] at hc
            simp at hc
          have hpre' : ∀ e ∈ t₁ ++ pre, NoSend e.1 :=
            fun e he => (List.mem_append.mp he).elim (hquiet₁ e) (hpre e)
          have hfour := @exchanges_fourSends _ _ _ _ _ _ _ _ _ sent₁ sent₂ sent₃ sent₄ hpre' ha₁
            huninit ha₃ hend
          rw [hsent₁, hsent₂] at hfour
          refine ⟨a₁, [⟨.uninitialised, ack⟩], sent₄.ret, a₄ ++ [⟨.rshutdown, u₁⟩, ⟨.rclose, u₂⟩],
            Eq.trans ?_ (hfour.trans ?_)⟩
          · simp only [List.append_assoc, List.cons_append, List.nil_append]
          · rw [hbytes]
        · rcases hres with ⟨hall, hresp⟩ | hshort
          · exact Or.inl ⟨hall, ack, _, _, hresp⟩
          · exact Or.inr hshort

/-! ## The result -/

lemma length_openMsg (dstFile : List UInt8) (mode : UInt32) : (openMsg dstFile mode).length =
    sizeofHdr + max (pathLen dstFile) (dstFile.length + 1) := by
  simp only [openMsg, store, List.length_append, MsgHdr.length_encode, List.length_take,
    List.length_drop, List.length_replicate, List.length_cons, List.length_nil]
  omega

/-- The length of an OPEN fits into its header up to a path of 65511 bytes. -/
lemma openBytesOf_eq_iff (dstFile : List UInt8) (mode : UInt32) :
    (openBytesOf dstFile mode).length = (openMsg dstFile mode).length ↔ dstFile.length ≤ 65511 := by
  rw [length_openBytesOf, length_openMsg, openHdr, UInt16.toNat_ofNat', pathLen, sizeofHdr]
  omega

/-- **When the result of the client is truthful.**  A `client_run` that returns `0` has copied the
file just where the path has at most 65511 bytes, the count that `rsend` returned for the file is
not a smaller multiple of `2 ^ 32`, and no `rrecv` failed on the way to the response.

A client that returns `0` has gone through four sends and two responses (`clientRun_sentFile`), so
the question is what each of them was.  The OPEN was sent as far as `hdr.len` says, which is all of
it where that has kept its upper bits.  A count of the file that is short becomes the result, which
is `0` for the multiples of `2 ^ 32`, and then no response is read.  What passes for a response is
one where no `rrecv` failed (`msgGetResp_answered_iff`). -/
theorem client_truthful_iff (h : Returns ((clientRun fuel srcFile dstFile).run g) t (0, g'))
    (hok : ∀ e ∈ t, SendOk e) :
    ClientDone dstFile t ↔ dstFile.length ≤ 65511 ∧ ∀ x ∈ (exchanges t)[2]?,
      (x.ret % 2 ^ 32 = 0 → x.ret = x.bs.length) ∧ ¬ HasError x.answer := by
  obtain ⟨fd, stats, mapping, sent, answer, hfile⟩ := clientRun_sentFile h hok
  obtain ⟨a₁, a₂, ret, a₄, hexch⟩ := hfile.exchanges
  rw [hexch]
  simp only [List.getElem?_cons_succ, List.getElem?_cons_zero, Option.mem_some_iff, forall_eq']
  constructor
  · rintro ⟨fd', stats', mapping', x₁, x₂, x₃, x₄, -, -, hexch', hopen, -, hdata, hans⟩
    obtain ⟨rfl, rfl, rfl, rfl⟩ : _ = x₁ ∧ _ = x₂ ∧ _ = x₃ ∧ _ = x₄ := by
      simpa using hexch.symm.trans hexch'
    have hret : sent.ret = mapping.mem.length :=
      hdata.2.trans (congrArg (fun bs : List UInt8 => (bs.length : Int)) hdata.1.symm)
    refine ⟨?_, fun _ => hret, ?_⟩
    · refine (openBytesOf_eq_iff dstFile stats.mode).mp ?_
      have hlen := congrArg List.length hopen.1
      rw [length_openMsg] at hlen ⊢
      exact hlen
    · rcases hfile.result with ⟨-, ack, g₁, g₂, hresp⟩ | ⟨hshort, -⟩
      · exact (msgGetResp_answered_iff hresp).mp hans
      · exact absurd hret hshort
  · rintro ⟨hlen, hwrap, herror⟩
    have hopen : openBytesOf dstFile stats.mode = openMsg dstFile stats.mode :=
      (List.take_prefix _ _).eq_of_length ((openBytesOf_eq_iff dstFile stats.mode).mpr hlen)
    rcases hfile.result with ⟨hall, ack, g₁, g₂, hresp⟩ | ⟨hshort, hmod, -⟩
    · exact ⟨fd, stats, mapping, _, _, _, _, hfile.found, hfile.mapped, hexch,
        ⟨hopen, congrArg (fun bs : List UInt8 => (bs.length : Int)) hopen⟩, ⟨rfl, rfl⟩,
        ⟨rfl, hall⟩, (msgGetResp_answered_iff hresp).mpr herror⟩
    · exact absurd (hwrap hmod) hshort

/-! ### Two files -/

lemma smallSize_lt : 2 < 2 ^ 63 := by norm_num

/-- The world where every call succeeds, with a file of two bytes. -/
def twoBytes (s : List UInt8) : (c : Call) → Reply c × List UInt8
  | .fstat _ => (.ok ⟨2, smallSize_lt, 0⟩, s)
  | c => reliable s c

/-- The three responses of a server that everything succeeds for. -/
def threeResponses : List UInt8 :=
  (respHdr (openHdr [98] 0) 0).encode ++
    ((respHdr writeHdr 0).encode ++ (respHdr closeHdr 0).encode)

lemma sendOk_of_succeeds {src : List UInt8} {e : Event Call Reply}
    (h : succeeds src .client e = true) : SendOk e := by
  obtain ⟨c, r⟩ := e
  cases c with
  | rsend bs =>
      have hret : r.ret = bs.length := sent_ret h
      cases bs with
      | nil => exact Or.inr (Or.inr rfl)
      | cons b bs =>
          have hpos : 0 < (b :: bs).length := List.length_pos_iff.mpr (List.cons_ne_nil b bs)
          exact Or.inr (Or.inl (by omega))
  | _ => trivial

/-- The events of an exchange are events of the run. -/
lemma exchange_mem {x : Exchange} (hx : x ∈ exchanges t) :
    (∃ sent : Reply (.rsend x.bs), ⟨.rsend x.bs, sent⟩ ∈ t ∧ sent.ret = x.ret) ∧
      ∀ e ∈ x.answer, e ∈ t := by
  induction t with
  | nil => simp [exchanges] at hx
  | cons e t ih =>
      have hlater : x ∈ exchanges t → (∃ sent : Reply (.rsend x.bs),
          ⟨.rsend x.bs, sent⟩ ∈ e :: t ∧ sent.ret = x.ret) ∧ ∀ e' ∈ x.answer, e' ∈ e :: t := by
        intro hx
        obtain ⟨⟨sent, hmem, hret⟩, hans⟩ := ih hx
        exact ⟨⟨sent, List.mem_cons_of_mem _ hmem, hret⟩,
          fun e' he => List.mem_cons_of_mem _ (hans e' he)⟩
      obtain ⟨c, r⟩ := e
      cases c with
      | rsend bs =>
          rcases List.mem_cons.mp hx with rfl | hx
          · exact ⟨⟨r, List.mem_cons_self, rfl⟩,
              fun e he => List.mem_cons_of_mem _ ((List.takeWhile_prefix _).subset he)⟩
          · exact hlater hx
      | _ => exact hlater hx

/-- A file of two bytes, taken in full and answered. -/
theorem client_truthful_twoBytes : ∃ t g', Returns ((clientRun 3 [97] [98]).run {}) t (0, g') ∧
    ClientDone [98] t := by
  obtain ⟨t, ⟨ret, g'⟩, hrun, htest⟩ := exists_of_play twoBytes threeResponses
    ((clientRun 3 [97] [98]).run {})
    (fun t r => decide (r.1 = 0) && decide (∀ e ∈ t, succeeds [0, 0] .client e = true))
    (by decide +kernel)
  simp only [Bool.and_eq_true, decide_eq_true_eq] at htest
  obtain ⟨rfl, hsucc⟩ := htest
  refine ⟨t, g', hrun, (client_truthful_iff hrun fun e he => sendOk_of_succeeds (hsucc e he)).mpr
    ⟨by decide, fun x hx => ?_⟩⟩
  obtain ⟨⟨sent, hmem, hret⟩, hans⟩ := exchange_mem (List.mem_of_getElem? hx)
  exact ⟨fun _ => hret ▸ sent_ret (hsucc _ hmem),
    not_hasError_of_succeeds fun e he => hsucc e (hans e he)⟩

lemma mappingPos : 0 < 4096 := by norm_num

lemma mappingLt : 4096 < 2 ^ 64 - 1 := by norm_num

lemma fileSize_lt : 2 ^ 32 + 1 < 2 ^ 63 := by norm_num

/-- A file of `2 ^ 32 + 1` bytes. -/
def bigFile : Stat := ⟨2 ^ 32 + 1, fileSize_lt, 0⟩

/-- The response of success to an OPEN. -/
def openResp : MsgHdr := ⟨0, cmdOpen ||| cmdResp, 16, 0, 0⟩

lemma length_openResp : openResp.encode.length = sizeofHdr := MsgHdr.length_encode openResp

/-- `client_open` up to the OPEN, and the response to it. -/
def openEvents (hmem : mem.length = bigFile.size) : Trace :=
  [⟨.openFile [97] .rdonly 0, .ok 3⟩, ⟨.fstat 3, .ok bigFile⟩,
    ⟨.mmap 3 bigFile.size, .ok ⟨4096, mappingPos, mappingLt, mem, hmem⟩⟩, ⟨.calloc 24, true⟩,
    ⟨.rsend (openBytesOf [98] 0), ⟨24, by omega, by decide⟩⟩,
    ⟨.rrecv .header 0 sizeofHdr, some ⟨openResp.encode, length_openResp.le⟩⟩]

lemma msgGetResp_openResp : Returns ((msgGetResp 3 msg cmdOpen).run g)
    [⟨.rrecv .header 0 sizeofHdr, some ⟨openResp.encode, length_openResp.le⟩⟩] (0, g) := by
  have hhdr : Returns ((msgRecvHdr 3 msg).run g)
      [⟨.rrecv .header 0 sizeofHdr, some ⟨openResp.encode, length_openResp.le⟩⟩]
      ((sizeofHdr, MsgHdr.decode openResp.encode), g) :=
    msgRecvHdr_whole length_openResp (by rw [MsgHdr.decode_encode]; rfl)
      (by rw [MsgHdr.decode_encode]; decide)
  rw [MsgHdr.decode_encode] at hhdr
  refine returns_run_bind.mpr ⟨_, [], _, g, (List.append_nil _).symm, hhdr, ?_⟩
  simp [openResp, sizeofHdr, toInt32]

lemma clientOpen_bigFile (hmem : mem.length = bigFile.size) :
    Returns ((clientOpen 3 [97] [98]).run g) (openEvents hmem)
      ((0, mem), ⟨bigFile.size, 3, 4096⟩) := by
  rw [clientOpen]
  refine returns_run_perform_bind.mpr ⟨_, _, rfl, ?_⟩
  dsimp only
  rw [run_modify_bind]
  refine returns_run_perform_bind.mpr ⟨_, _, rfl, ?_⟩
  dsimp only
  rw [run_modify_bind]
  refine returns_run_perform_bind.mpr ⟨_, _, rfl, ?_⟩
  dsimp only
  rw [run_modify_bind]
  refine returns_run_bind.mpr ⟨_, [], none, _, (List.append_nil _).symm, ?_, Steps.here _⟩
  refine returns_run_perform_bind.mpr ⟨_, _, rfl, ?_⟩
  refine returns_run_perform_bind.mpr ⟨_, _, rfl, ?_⟩
  exact returns_run_bind.mpr
    ⟨_, [], _, _, (List.append_nil _).symm, msgGetResp_openResp, Steps.here _⟩

lemma clientSendData_short (hmem : mem.length = 2 ^ 32 + 1) (hbytes : g.bytes = 2 ^ 32 + 1) :
    Returns ((clientSendData 3 mem).run g)
      [⟨.uninitialised, openResp⟩, ⟨.rsend mem, ⟨2 ^ 32, by omega, by omega⟩⟩] (0, g) := by
  rw [clientSendData]
  refine returns_run_perform_bind.mpr ⟨_, _, rfl, ?_⟩
  rw [run_get_bind]
  refine returns_run_perform_bind.mpr ⟨_, _, rfl, ?_⟩
  have hwrap : toUnsigned 64 (2 ^ 32 : Int) = 2 ^ 32 := by decide
  rw [if_neg (by rw [hbytes, hwrap]; omega), hwrap]
  exact returns_run_pure.mpr ⟨rfl, by decide, rfl⟩

lemma clientClose_fails : Returns ((clientClose 3).run g)
    [⟨.rsend closeHdr.encode, ⟨-1, le_rfl, by omega⟩⟩, ⟨.munmap g.fileAddr g.bytes, ()⟩,
      ⟨.close g.fd, ()⟩] (-1, g) := by
  refine returns_run_bind.mpr ⟨[_], _, -1, g, rfl, ?_, Steps.call (Steps.call (Steps.here _))⟩
  exact returns_run_perform_bind.mpr ⟨_, _, rfl, Steps.here _⟩


/-- A file of `2 ^ 32 + 1` bytes, of which `rsend` takes `2 ^ 32`. -/
lemma clientRun_short (hmem : mem.length = 2 ^ 32 + 1) : ∃ t g',
    Returns ((clientRun 3 [97] [98]).run {}) t (0, g') ∧ (∀ e ∈ t, SendOk e) ∧
      ∃ x ∈ (exchanges t)[2]?, x.bs = mem ∧ x.ret = 2 ^ 32 := by
  have hconnect : Returns (clientConnect.run ({} : Globals))
      [⟨.getaddrinfo, (0 : Int)⟩, ⟨.rsSocket, (3 : Int)⟩, ⟨.rconnect, (0 : Int)⟩] (3, {}) :=
    Steps.call (Steps.call (Steps.call (Steps.here _)))
  have hstart : Returns (clientStartWrite.run ⟨bigFile.size, 3, 4096⟩)
      [⟨.rsend (writeMsg bigFile.size), ⟨24, by omega, by simp [writeMsg, sizeofHdr, sizeofBytes]⟩⟩]
      (0, ⟨bigFile.size, 3, 4096⟩) := Steps.call (Steps.here _)
  rw [clientRun]
  refine ⟨_, _, returns_run_bind.mpr ⟨_, _, 3, _, rfl, hconnect, returns_run_bind.mpr
    ⟨_, _, (0, mem), _, rfl, clientOpen_bigFile hmem, returns_run_bind.mpr ⟨_, _, 0, _, rfl,
      returns_run_bind.mpr ⟨_, _, 0, _, rfl, hstart, clientSendData_short hmem rfl⟩,
      returns_run_bind.mpr ⟨_, [⟨.rshutdown, ()⟩, ⟨.rclose, ()⟩], -1, _, rfl, clientClose_fails,
        Steps.call (Steps.call (Steps.here _))⟩⟩⟩⟩, ?_, ?_⟩
  · simp [openEvents, SendOk, writeMsg, sizeofHdr]
  · simp [openEvents, exchanges]

/-- **A part of the file passes for the file**: of `2 ^ 32 + 1` bytes `rsend` takes `2 ^ 32`, and
`client_run` returns `0` with no response at all. -/
theorem shortCount_notDone : ∃ t g', Returns ((clientRun 3 [97] [98]).run {}) t (0, g') ∧
    (∀ e ∈ t, SendOk e) ∧ ¬ ClientDone [98] t := by
  have hlen : (List.replicate (2 ^ 32 + 1) (0 : UInt8)).length = 2 ^ 32 + 1 := List.length_replicate
  obtain ⟨t, g', hrun, hok, x, hx, hbs, hret⟩ := clientRun_short hlen
  refine ⟨t, g', hrun, hok, ?_⟩
  rintro ⟨fd, stats, mapping, x₁, x₂, x₃, x₄, -, -, hexch, -, -, hdata, -⟩
  rw [hexch] at hx
  obtain rfl : x₃ = x := by simpa using hx
  have hall : x₃.ret = x₃.bs.length :=
    hdata.2.trans (congrArg (fun bs : List UInt8 => (bs.length : Int)) hdata.1.symm)
  rw [hbs, hlen, hret] at hall
  exact absurd hall (by norm_num)

end Stages

end Rcopy

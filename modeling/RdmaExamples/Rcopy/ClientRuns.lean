import RdmaExamples.Rcopy.Network

/-!
# What a client that returns `0` has done

Where no call fails, a `client_run` that returns `0` has sent its three messages and its data, one
after the other, and has received the response of success to the first two of them.

The functions of the client are taken in their order.  Each lemma says of a function that returns
`0` which messages it has sent and which responses it has received, with nothing said about a
function that returns anything else; `clientRun_ok` puts them together.
-/

namespace Rcopy

open ByteStrings MachineWords Programs

/-- What `client_open` sends. -/
def openBytesOf (dstFile : List UInt8) (mode : UInt32) : List UInt8 :=
  (openMsg dstFile mode).take (openHdr dstFile mode).len.toNat

/-- The call neither sends nor receives. -/
def Idle (c : Call) : Prop := (∀ bs, c ≠ .rsend bs) ∧ ∀ dest offset len, c ≠ .rrecv dest offset len

section

variable {src srcFile dstFile mem : List UInt8} {fuel : ℕ} {t : Trace} {g g' : Globals} {ret : Int}
  {msg : MsgHdr} {cmd : UInt8}

lemma quiet_of_idle (h : ∀ e ∈ t, Idle e.1) : sentBytes t = [] ∧ taken t = [] := by
  rw [sentBytes, taken, List.flatMap_eq_nil_iff, List.flatMap_eq_nil_iff]
  constructor
  · rintro ⟨c, r⟩ he
    cases c <;> first | rfl | exact absurd rfl ((h _ he).1 _)
  · rintro ⟨c, r⟩ he
    cases c <;> first | rfl | exact absurd rfl ((h _ he).2 _ _ _)

lemma not_hasError_of_succeeds {side : Side} (h : ∀ e ∈ t, succeeds src side e = true) :
    ¬ HasError t := by
  rintro ⟨⟨c, r⟩, he, herr⟩
  have hs := h _ he
  cases c <;> simp only [got, reduceCtorEq] at herr
  cases r <;> simp [succeeds] at herr hs

lemma toInt32_eq_zero {x : UInt32} : toInt32 x.toNat = 0 ↔ x = 0 := by
  have hlt := x.toNat_lt
  rw [← UInt32.toNat_inj, toInt32, Int.bmod]
  have hzero : (0 : UInt32).toNat = 0 := rfl
  rw [hzero]
  omega

/-- **A response is good** where `msg_get_resp` returns `0`. -/
lemma msgGetResp_ok (h : Returns ((msgGetResp fuel msg cmd).run g) t (0, g'))
    (herror : ¬ HasError t) :
    GoodResp cmd (taken t) ∧ sentBytes t = [] ∧ g' = g := by
  rw [msgGetResp] at h
  obtain ⟨t₁, t₂, ⟨ret, hdr⟩, g₁, rfl, h₁, h₂⟩ := returns_run_bind.mp h
  have honly := msgRecvHdr_onlyInto h₁.canDo
  obtain ⟨rfl, -⟩ := msgRecvHdr_cases h₁
  dsimp only at h₂
  split at h₂
  · obtain ⟨-, n, buf, -, -, ⟨rfl, -⟩ | ⟨rfl, -⟩⟩ := msgRecvHdr_cases h₁
    · exact absurd (returns_run_pure.mp h₂).2.1 (by decide)
    · exact absurd (returns_run_pure.mp h₂).2.1 (by decide)
  · rename_i hret
    obtain rfl := not_not.mp hret
    split at h₂
    · exact absurd (returns_run_pure.mp h₂).2.1 (by decide)
    · rename_i hcmd
      obtain ⟨rfl, hdata, rfl⟩ := returns_run_pure.mp h₂
      rw [List.append_nil] at herror ⊢
      obtain ⟨hlen, rfl, -⟩ := msgRecvHdr_received h₁ herror
      simp only [not_or, not_not] at hcmd
      rw [honly.taken_eq]
      exact ⟨⟨hlen, hcmd.2, toInt32_eq_zero.mp hdata⟩, honly.sentBytes_eq, rfl⟩

lemma msgGetResp_sent (h : Returns ((msgGetResp fuel msg cmd).run g) t (ret, g')) :
    sentBytes t = [] := by
  rw [msgGetResp] at h
  obtain ⟨t₁, t₂, ⟨ret', hdr⟩, g₁, rfl, h₁, h₂⟩ := returns_run_bind.mp h
  have hnone : t₂ = [] := by
    dsimp only at h₂
    split at h₂
    · exact (returns_run_pure.mp h₂).1
    · split at h₂
      · exact (returns_run_pure.mp h₂).1
      · exact (returns_run_pure.mp h₂).1
  rw [hnone, List.append_nil, (msgRecvHdr_onlyInto h₁.canDo).sentBytes_eq]

/-- `rsend` takes everything. -/
lemma sent_ret {bs : List UInt8} {sent : Reply (.rsend bs)}
    (h : succeeds src .client ⟨.rsend bs, sent⟩ = true) : sent.ret = bs.length :=
  of_decide_eq_true h

lemma clientConnect_keeps : Keeps (fun g : Globals => g) Idle clientConnect := by
  have hidle : ∀ c : Call, (∀ bs, c ≠ .rsend bs) → (∀ dest offset len, c ≠ .rrecv dest offset len) →
      Idle c := fun _ h h' => ⟨h, h'⟩
  rw [clientConnect]
  refine Keeps.bind (Keeps.perform (hidle _ (by simp) (by simp))) fun ret =>
    Keeps.ite (Keeps.pure _) ?_
  refine Keeps.bind (Keeps.perform (hidle _ (by simp) (by simp))) fun rs =>
    Keeps.ite (Keeps.pure _) ?_
  refine Keeps.bind (Keeps.perform (hidle _ (by simp) (by simp))) fun ret => Keeps.ite ?_
    (Keeps.pure _)
  exact Keeps.bind (Keeps.perform (hidle _ (by simp) (by simp))) fun _ => Keeps.pure _

/-- The block for the OPEN holds what its header announces. -/
lemma length_openBytesOf (dstFile : List UInt8) (mode : UInt32) :
    (openBytesOf dstFile mode).length = (openHdr dstFile mode).len.toNat := by
  have hlen : (openHdr dstFile mode).len.toNat ≤ sizeofHdr + pathLen dstFile := by
    rw [openHdr, UInt16.toNat_ofNat']
    exact Nat.mod_le _ _
  rw [openBytesOf, List.length_take, min_eq_left]
  simp only [openMsg, List.length_append, MsgHdr.length_encode, store, List.length_take,
    List.length_drop, List.length_replicate]
  omega

/-- `client_open`, from the OPEN on, does not fail with `0`. -/
lemma clientOpenSend_some {mode : UInt32}
    (h : Returns ((clientOpenSend fuel dstFile mode).run g) t (some ret, g'))
    (hsucc : ∀ e ∈ t, succeeds src .client e = true) : ret ≠ 0 := by
  rw [clientOpenSend] at h
  obtain ⟨ok, t₁, rfl, h₁⟩ := returns_run_perform_bind.mp h
  split at h₁
  · obtain ⟨sent, t₂, rfl, h₂⟩ := returns_run_perform_bind.mp h₁
    have hsent : sent.ret = (openBytesOf dstFile mode).length :=
      sent_ret (hsucc _ (by simp))
    rw [length_openBytesOf] at hsent
    rw [if_neg (not_not.mpr hsent)] at h₂
    obtain ⟨t₃, t₄, ret', g₁, rfl, h₃, h₄⟩ := returns_run_bind.mp h₂
    split at h₄
    · rename_i hret
      obtain ⟨-, hres, -⟩ := returns_run_pure.mp h₄
      exact Option.some.inj hres ▸ hret
    · exact absurd (returns_run_pure.mp h₄).2.1 (by simp)
  · rename_i hok
    exact absurd (hsucc ⟨.calloc _, ok⟩ List.mem_cons_self) hok

/-- `client_open`, from the OPEN on. -/
lemma clientOpenSend_ok {mode : UInt32}
    (h : Returns ((clientOpenSend fuel dstFile mode).run g) t (none, g'))
    (hsucc : ∀ e ∈ t, succeeds src .client e = true) :
    sentBytes t = openBytesOf dstFile mode ∧ GoodResp cmdOpen (taken t) ∧ g' = g := by
  rw [clientOpenSend] at h
  obtain ⟨ok, t₁, rfl, h₁⟩ := returns_run_perform_bind.mp h
  split at h₁
  · obtain ⟨sent, t₂, rfl, h₂⟩ := returns_run_perform_bind.mp h₁
    split at h₂
    · exact absurd (returns_run_pure.mp h₂).2.1 (by simp)
    · obtain ⟨t₃, t₄, ret, g₁, rfl, h₃, h₄⟩ := returns_run_bind.mp h₂
      split at h₄
      · exact absurd (returns_run_pure.mp h₄).2.1 (by simp)
      · rename_i hret
        obtain rfl := not_not.mp hret
        obtain ⟨rfl, -, rfl⟩ := returns_run_pure.mp h₄
        rw [List.append_nil] at hsucc ⊢
        have herror : ¬ HasError t₃ := not_hasError_of_succeeds
          fun e he => hsucc e (by simp [he])
        obtain ⟨hgood, hsent, rfl⟩ := msgGetResp_ok h₃ herror
        exact ⟨by simp [sentOf, hsent, openBytesOf], by simpa [takenOf, got] using hgood, rfl⟩
  · exact absurd (returns_run_pure.mp h₁).2.1 (by simp)

/-- `client_open`: the file is mapped, and the OPEN was sent and answered. -/
lemma clientOpen_ok (h : Returns ((clientOpen fuel srcFile dstFile).run g) t ((0, mem), g'))
    (hsucc : ∀ e ∈ t, succeeds src .client e = true) :
    mem = src ∧ g'.bytes = src.length ∧ src.length < 2 ^ 63 ∧
      ∃ mode, sentBytes t = openBytesOf dstFile mode ∧ GoodResp cmdOpen (taken t) := by
  rw [clientOpen] at h
  obtain ⟨opened, t₁, rfl, h₁⟩ := returns_run_perform_bind.mp h
  cases opened with
  | error e => exact absurd (hsucc _ List.mem_cons_self) (by simp [succeeds])
  | ok fd =>
      dsimp only at h₁
      rw [run_modify_bind] at h₁
      obtain ⟨stats, t₂, rfl, h₂⟩ := returns_run_perform_bind.mp h₁
      cases stats with
      | error e => exact absurd (hsucc ⟨.fstat fd, .error e⟩ (by simp)) (by simp [succeeds])
      | ok stats =>
          have hsize : stats.size = src.length :=
            of_decide_eq_true (hsucc ⟨.fstat fd, .ok stats⟩ (by simp))
          dsimp only at h₂
          rw [run_modify_bind] at h₂
          obtain ⟨mapped, t₃, rfl, h₃⟩ := returns_run_perform_bind.mp h₂
          cases mapped with
          | error e =>
              exact absurd (hsucc ⟨.mmap fd stats.size, .error e⟩ (by simp)) (by simp [succeeds])
          | ok mapping =>
              have hmem : mapping.mem = src := by
                have := hsucc ⟨.mmap fd stats.size, .ok mapping⟩ (by simp)
                simpa [succeeds] using this
              dsimp only at h₃
              rw [run_modify_bind] at h₃
              obtain ⟨t₄, t₅, res, g₁, rfl, h₄, h₅⟩ := returns_run_bind.mp h₃
              cases res with
              | some ret =>
                  have hret := clientOpenSend_some h₄ fun e he => hsucc e (by simp [he])
                  obtain ⟨u₁, t₆, rfl, h₆⟩ := returns_run_perform_bind.mp h₅
                  obtain ⟨u₂, t₇, rfl, h₇⟩ := returns_run_perform_bind.mp h₆
                  exact absurd (Prod.mk.inj (returns_run_pure.mp h₇).2.1).1 hret
              | none =>
                  obtain ⟨rfl, hres, rfl⟩ := returns_run_pure.mp h₅
                  obtain ⟨hsent, hgood, rfl⟩ := clientOpenSend_ok h₄
                    fun e he => hsucc e (by simp [he])
                  refine ⟨(Prod.mk.inj hres).2 ▸ hmem, hsize, hsize ▸ stats.lt, stats.mode, ?_, ?_⟩
                  · simpa [sentOf] using hsent
                  · simpa [takenOf, got] using hgood

/-- `client_start_write` sends the WRITE. -/
lemma clientStartWrite_sent (h : Returns (clientStartWrite.run g) t (ret, g')) :
    sentBytes t = writeMsg g.bytes ∧ taken t = [] ∧ g' = g := by
  rw [clientStartWrite, run_get_bind] at h
  obtain ⟨sent, t₁, rfl, h₁⟩ := returns_run_perform_bind.mp h
  split at h₁
  · obtain ⟨rfl, -, rfl⟩ := returns_run_pure.mp h₁
    exact ⟨by simp [sentOf], rfl, rfl⟩
  · obtain ⟨rfl, -, rfl⟩ := returns_run_pure.mp h₁
    exact ⟨by simp [sentOf], rfl, rfl⟩

/-- The data, and the response to it. -/
lemma clientSendData_ok (h : Returns ((clientSendData fuel mem).run g) t (0, g'))
    (hbytes : g.bytes = mem.length) (hlen : mem.length < 2 ^ 63)
    (hsucc : ∀ e ∈ t, succeeds src .client e = true) :
    sentBytes t = mem ∧ GoodResp cmdWrite (taken t) := by
  rw [clientSendData] at h
  obtain ⟨ack, t₁, rfl, h₁⟩ := returns_run_perform_bind.mp h
  rw [run_get_bind] at h₁
  obtain ⟨sent, t₂, rfl, h₂⟩ := returns_run_perform_bind.mp h₁
  have hret : sent.ret = mem.length := sent_ret (hsucc _ (by simp))
  have hall : toUnsigned 64 sent.ret = g.bytes := by
    rw [hret, hbytes, toUnsigned]
    omega
  rw [if_pos hall] at h₂
  obtain ⟨hgood, hsent, -⟩ := msgGetResp_ok h₂
    (not_hasError_of_succeeds fun e he => hsucc e (by simp [he]))
  exact ⟨by simp [sentOf, hsent], by simpa [takenOf, got] using hgood⟩

/-- `client_close` sends the CLOSE. -/
lemma clientClose_sent (h : Returns ((clientClose fuel).run g) t (ret, g')) :
    sentBytes t = closeHdr.encode := by
  rw [clientClose] at h
  obtain ⟨t₁, t₂, ret', g₁, rfl, h₁, h₂⟩ := returns_run_bind.mp h
  rw [run_get_bind] at h₂
  obtain ⟨u₁, t₃, rfl, h₃⟩ := returns_run_perform_bind.mp h₂
  obtain ⟨u₂, t₄, rfl, h₄⟩ := returns_run_perform_bind.mp h₃
  obtain ⟨rfl, -, -⟩ := returns_run_pure.mp h₄
  rw [clientCloseSend] at h₁
  obtain ⟨sent, t₅, rfl, h₅⟩ := returns_run_perform_bind.mp h₁
  have hnone : sentBytes t₅ = [] := by
    split at h₅
    · rw [(returns_run_pure.mp h₅).1]
      rfl
    · exact msgGetResp_sent h₅
  simp [sentOf, hnone]

/-- **What a client that returns `0` has done.**  As no call fails, a function that is left early
returns something other than `0`, and only the way through all of them remains. -/
theorem clientRun_ok (h : Returns ((clientRun fuel srcFile dstFile).run g) t (0, g'))
    (hsucc : ∀ e ∈ t, succeeds src .client e = true) :
    src.length < 2 ^ 63 ∧ ∃ mode r₁ r₂ rest,
      sentBytes t = openBytesOf dstFile mode ++ (writeMsg src.length ++ (src ++ closeHdr.encode)) ∧
      taken t = r₁ ++ (r₂ ++ rest) ∧ GoodResp cmdOpen r₁ ∧ GoodResp cmdWrite r₂ := by
  rw [clientRun] at h
  obtain ⟨t₁, t₂, rs, g₁, rfl, hconnect, h₂⟩ := returns_run_bind.mp h
  obtain ⟨hsent₁, hrecv₁⟩ := quiet_of_idle
    fun e he => clientConnect_keeps.calls _ _ hconnect.canDo e he
  split at h₂
  · rename_i hneg
    exact absurd (returns_run_pure.mp h₂).2.1 (by omega)
  · obtain ⟨t₃, t₄, ⟨ret, mem⟩, g₂, rfl, hopen, h₄⟩ := returns_run_bind.mp h₂
    dsimp only at h₄
    split at h₄
    · rename_i hret
      obtain ⟨u₁, t₅, rfl, h₅⟩ := returns_run_perform_bind.mp h₄
      obtain ⟨u₂, t₆, rfl, h₆⟩ := returns_run_perform_bind.mp h₅
      exact absurd (returns_run_pure.mp h₆).2.1 hret
    · rename_i hret
      obtain rfl := not_not.mp hret
      obtain ⟨rfl, hbytes, hlen, mode, hsent₃, hgood₃⟩ := clientOpen_ok hopen
        fun e he => hsucc e (by simp [he])
      obtain ⟨t₅, t₆, ret, g₃, rfl, hwrite, h₆⟩ := returns_run_bind.mp h₄
      obtain ⟨t₉, t₁₀, ret', g₄, rfl, hclose, h₁₀⟩ := returns_run_bind.mp h₆
      obtain ⟨u₁, t₁₁, rfl, h₁₁⟩ := returns_run_perform_bind.mp h₁₀
      obtain ⟨u₂, t₁₂, rfl, h₁₂⟩ := returns_run_perform_bind.mp h₁₁
      obtain ⟨rfl, rfl, -⟩ := returns_run_pure.mp h₁₂
      rw [clientWrite] at hwrite
      obtain ⟨t₅, t₇, ret, g₅, rfl, hstart, hdata⟩ := returns_run_bind.mp hwrite
      obtain ⟨hsent₅, hrecv₅, rfl⟩ := clientStartWrite_sent hstart
      split at hdata
      · rename_i hret'
        exact absurd (returns_run_pure.mp hdata).2.1 hret'
      · obtain ⟨hsent₇, hgood₇⟩ := clientSendData_ok hdata hbytes hlen
          fun e he => hsucc e (by simp [he])
        refine ⟨hlen, mode, taken t₃, taken t₇, taken t₉,
          ?_, ?_, hgood₃, hgood₇⟩
        · simp [hsent₁, hsent₃, hsent₅, hsent₇, clientClose_sent hclose, hbytes, sentOf]
        · simp [hrecv₁, hrecv₅, takenOf, got]

end

end Rcopy

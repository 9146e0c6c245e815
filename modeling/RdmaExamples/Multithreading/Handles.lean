import RdmaExamples.Multithreading.Channel
import RdmaExamples.Multithreading.Local
import RdmaExamples.Multithreading.Remote

/-!
# Handles and requests

The local program asks for regions, and the remote one registers them and answers with their
handles.  Each side stores its next message only when the last one has arrived, and reads a message
before it posts the next receive; so the `k`-th handle that the local program stores is that of the
`k`-th region, and the remote program handles the codes in the order in which they were sent.

* `codesSent`, `regionsOf`, `handlesOf`, `codesHandled` — what is compared, read off the calls of
  the two.
* `Matched` — they agree as far as they go, and each message arrives as it was stored.
* `Local.Ready`, `Remote.Ready` — what a side's record is between two requests, or two commands;
  each function takes the one to the next.

Both directions carry one message at a time, but nothing here depends on how long a message is on
its way, nor on whether the device fetches it at once or later.
-/

namespace Multithreading

open Programs Systems Monitors ByteStrings

/-! ## The two programs -/

/-- The code that a request sends. -/
def Local.Request.commCode : Local.Request → CommCode
  | .code c => c
  | .regNewMr => .regMr

/-- The codes that the local program sends. -/
def codesSent (rs : List Local.Request) : List CommCode :=
  rs.map Local.Request.commCode ++ [.exit]

/-- What the messages of a side can be: the codes on the one side, the regions on the other. -/
def outbox (rs : List Local.Request) : Side → Record → List (List UInt8)
  | .localNode, _ => (codesSent rs).map CommCode.message
  | .remoteNode, r => r.regions.map Mr.message

lemma outbox_mono (rs : List Local.Request) (side : Side) (r : Record) (e : Event Call Reply) :
    outbox rs side r <+: outbox rs side (r.after e) := by
  cases side with
  | localNode => exact List.prefix_rfl
  | remoteNode =>
      obtain ⟨c, reply⟩ := e
      cases c with
      | regMr addr length access =>
          simp only [outbox, Record.after, List.map_append]
          exact List.prefix_append ..
      | loadRecv off n =>
          simp only [outbox, Record.after]
          split
          · exact List.prefix_rfl
          · exact List.prefix_rfl
      | _ => exact List.prefix_rfl

/-! ## Both programs keep to their monitors -/

section Obeys

variable {σ : Type} {inbox : ℕ → List UInt8} {out : Record → List (List UInt8)} {r : Record}

lemma teardown_free (r : Record) : Free (monitor inbox out) Call.Teardown r := by
  intro c hc
  cases c <;> first | exact ⟨trivial, fun _ => rfl⟩ | exact absurd hc id

lemma waitSendComp_obeys {ctx : σ} : ∀ (fuel : ℕ) (r : Record),
    Obeys (monitor inbox out)
      (fun g ret => g = { r with sendComps := r.sendComps + 1 } ∧ ret = (1, ctx))
      ((waitSendComp fuel).run ctx) r
  | 0, _ => trivial
  | fuel + 1, r => by
      refine Obeys.perform_bind trivial fun ret hret => ?_
      rcases hret with rfl | rfl
      · exact waitSendComp_obeys fuel r
      · exact Obeys.pure ⟨rfl, rfl⟩

lemma waitRecvComp_obeys {ctx : σ} : ∀ (fuel : ℕ) (r : Record),
    Obeys (monitor inbox out)
      (fun g ret => g = { r with recvComps := r.recvComps + 1 } ∧ ret = (1, ctx))
      ((waitRecvComp fuel).run ctx) r
  | 0, _ => trivial
  | fuel + 1, r => by
      refine Obeys.perform_bind trivial fun ret hret => ?_
      rcases hret with rfl | rfl
      · exact waitRecvComp_obeys fuel r
      · exact Obeys.pure ⟨rfl, rfl⟩

end Obeys

namespace Local

/-- The local program between two requests, with the codes that it has not sent. -/
structure Ready (all rest : List CommCode) (r : Record) : Prop where
  sent : r.sent ++ rest.map CommCode.message = all.map CommCode.message
  sendComps : r.sendComps = r.sent.length
  message : r.message.length = bufferSize
  recvComps : r.recvComps = r.recvPosts
  handles : r.handles.length = r.recvComps
  codes : r.codes.length = r.recvComps
  cleared : r.cleared = 0

variable {inbox : ℕ → List UInt8} {all rest : List CommCode} {code : CommCode} {r : Record}
  {globals : Globals}

lemma ready_start (all : List CommCode) : Ready all all {} := ⟨rfl, rfl, rfl, rfl, rfl, rfl, rfl⟩

/-- **A code is sent.** -/
theorem sendCommCode_obeys (fuel : ℕ) (h : Ready all (code :: rest) r) :
    Obeys (monitor inbox fun _ => all.map CommCode.message) (fun g _ => Ready all rest g)
      ((sendCommCode fuel code).run globals) r := by
  refine Obeys.perform_bind h.sendComps fun _ _ => ?_
  refine Obeys.perform_bind h.sendComps fun _ _ => ?_
  have hmessage : store (store r.message 0 (zeros bufferSize)) 0 (codeBytes code)
      = code.message := by
    have hzeros : store r.message 0 (zeros bufferSize) = zeros bufferSize :=
      store_whole (by rw [h.message, zeros, List.length_replicate])
    rw [hzeros]
    cases code <;> rfl
  refine Obeys.perform_bind ?_ fun ret hret => ?_
  · show r.sent ++ [store (store r.message 0 (zeros bufferSize)) 0 (codeBytes code)] <+:
      all.map CommCode.message
    rw [hmessage, ← h.sent, List.map_cons]
    exact ⟨rest.map CommCode.message, by rw [List.append_assoc, List.singleton_append]⟩
  · refine Obeys.ite (fun hne => absurd hret hne) fun _ => ?_
    refine Obeys.bind (waitSendComp_obeys fuel _) ?_
    rintro g ret globals' ⟨rfl, hret⟩
    obtain ⟨rfl, rfl⟩ := Prod.mk.inj hret
    refine Obeys.pure ⟨?_, ?_, ?_, h.recvComps, h.handles, h.codes, h.cleared⟩
    · show r.sent ++ [store (store r.message 0 (zeros bufferSize)) 0 (codeBytes code)] ++ _ = _
      rw [hmessage, ← h.sent, List.map_cons, List.append_assoc, List.singleton_append]
    · show r.sendComps + 1 = (r.sent ++ _).length
      rw [List.length_append, h.sendComps]
      rfl
    · show (store (store r.message 0 (zeros bufferSize)) 0 (codeBytes code)).length = bufferSize
      rw [hmessage]
      cases code <;> rfl

/-- **A handle is asked for**, read and stored. -/
theorem regNewMr_obeys (fuel : ℕ) (h : Ready all (.regMr :: rest) r) :
    Obeys (monitor inbox fun _ => all.map CommCode.message) (fun g _ => Ready all rest g)
      ((regNewMr fuel).run globals) r := by
  refine Obeys.bind (sendCommCode_obeys fuel h) fun g _ globals' hg => ?_
  refine Obeys.perform_bind trivial fun ret hret => ?_
  refine Obeys.ite (fun hne => absurd hret hne) fun _ => ?_
  refine Obeys.bind (waitRecvComp_obeys fuel _) ?_
  rintro g' ret globals'' ⟨rfl, hret⟩
  obtain ⟨rfl, rfl⟩ := Prod.mk.inj hret
  have hdone : g.recvComps + 1 = g.recvPosts + 1 := congrArg (· + 1) hg.recvComps
  have hcleared : g.cleared < g.recvComps + 1 := by
    rw [hg.cleared]
    exact Nat.succ_pos _
  refine Obeys.perform_bind ⟨hdone, hcleared, fun _ => ⟨rfl, congrArg (· + 1) hg.codes⟩⟩
    fun rkey hrkey => ?_
  refine Obeys.perform_bind ⟨hdone, hcleared, fun hoff => absurd hoff (by decide)⟩
    fun addr haddr => ?_
  refine Obeys.perform_bind ⟨congrArg (· + 1) hg.handles, ?_⟩ fun _ _ => ?_
  · rw [hrkey, haddr]
    rfl
  · refine Obeys.pure ⟨hg.sent, hg.sendComps, hg.message, hdone, ?_, ?_, hg.cleared⟩
    · show (g.handles ++ [_]).length = g.recvComps + 1
      rw [List.length_append, hg.handles]
      rfl
    · show (g.codes ++ [_]).length = g.recvComps + 1
      rw [List.length_append, hg.codes]
      rfl

lemma requests_obeys (fuel : ℕ) : ∀ (rs : List Request) {r : Record} {globals : Globals},
    Ready all (rs.map Request.commCode ++ rest) r →
      Obeys (monitor inbox fun _ => all.map CommCode.message) (fun g _ => Ready all rest g)
        ((requests fuel rs).run globals) r
  | [], _, _, h => h
  | .code _ :: rs, _, _, h =>
      Obeys.bind (sendCommCode_obeys fuel h) fun _ _ _ hg => requests_obeys fuel rs hg
  | .regNewMr :: rs, _, _, h =>
      Obeys.bind (regNewMr_obeys fuel h) fun _ _ _ hg => requests_obeys fuel rs hg

/-- **The local program.** -/
theorem requestRun_obeys (fuel : ℕ) (rs : List Request) :
    Obeys (monitor inbox (outbox rs .localNode)) (fun _ _ => True)
      ((requestRun fuel rs).run globals) {} := by
  refine Obeys.bind (requests_obeys fuel rs (ready_start (codesSent rs))) fun g _ globals' hg => ?_
  refine Obeys.bind (sendCommCode_obeys fuel hg) fun _ _ _ _ => ?_
  exact outFunc_obeys (teardown_free _) .disconnect

end Local

namespace Remote

/-- The remote program between two commands. -/
structure Ready (r : Record) : Prop where
  sent : r.sent = r.regions.map Mr.message
  sendComps : r.sendComps = r.sent.length
  message : r.message.length = bufferSize
  rest : r.message.drop 12 = zeros 4
  recvComps : r.recvComps = r.recvPosts
  codes : r.codes.length = r.recvComps

variable {inbox : ℕ → List UInt8} {mr : Mr} {r : Record} {globals : Globals}

/-- What the remote side has to say. -/
abbrev told : Record → List (List UInt8) := fun r => r.regions.map Mr.message

lemma ready_start : Ready {} := ⟨rfl, rfl, rfl, rfl, rfl, rfl⟩

/-- The handle is stored in front of what is zero. -/
lemma store_handle {message : List UInt8} (hrest : message.drop 12 = zeros 4) (mr : Mr) :
    store (store message 0 (toBytes 4 mr.rkey.toNat)) 4 (toBytes 8 mr.addr.toNat)
      = mr.message := by
  have htwo : store (store message 0 (toBytes 4 mr.rkey.toNat))
      (0 + (toBytes 4 mr.rkey.toNat).length) (toBytes 8 mr.addr.toNat) =
        store message 0 (toBytes 4 mr.rkey.toNat ++ toBytes 8 mr.addr.toNat) :=
    store_store (Nat.zero_le _)
  rw [length_toBytes, Nat.zero_add] at htwo
  rw [htwo, store, List.take_zero, List.nil_append, List.length_append, length_toBytes,
    length_toBytes, hrest, Mr.message]

/-- **The handle of a region is sent.** -/
theorem sendMr_obeys (fuel : ℕ) (h : Ready r) :
    Obeys (monitor inbox told) (fun g _ => Ready g) ((sendMr fuel mr).run globals)
      { r with regions := r.regions ++ [mr] } := by
  refine Obeys.perform_bind h.sendComps fun _ _ => ?_
  refine Obeys.perform_bind h.sendComps fun _ _ => ?_
  have hmessage := store_handle h.rest mr
  refine Obeys.perform_bind ?_ fun ret hret => ?_
  · show r.sent ++ [store (store r.message 0 _) 4 _] <+: (r.regions ++ [mr]).map Mr.message
    rw [hmessage, h.sent, List.map_append]
    exact List.prefix_rfl
  · refine Obeys.ite (fun hne => absurd hret hne) fun _ => ?_
    refine Obeys.bind (waitSendComp_obeys fuel _) ?_
    rintro g ret globals' ⟨rfl, hret⟩
    obtain ⟨rfl, rfl⟩ := Prod.mk.inj hret
    refine Obeys.ite (fun hneg => absurd hneg (by decide)) fun _ => Obeys.modify ?_
    refine ⟨?_, ?_, ?_, ?_, h.recvComps, h.codes⟩
    · show r.sent ++ [store (store r.message 0 _) 4 _] = (r.regions ++ [mr]).map Mr.message
      rw [hmessage, h.sent, List.map_append]
      rfl
    · show r.sendComps + 1 = (r.sent ++ _).length
      rw [List.length_append, h.sendComps]
      rfl
    · show (store (store r.message 0 _) 4 _).length = bufferSize
      rw [hmessage, Mr.message, List.length_append, List.length_append, length_toBytes,
        length_toBytes]
      rfl
    · show (store (store r.message 0 _) 4 _).drop 12 = zeros 4
      rw [hmessage, Mr.message]
      exact List.drop_left' (by rw [List.length_append, length_toBytes, length_toBytes])

/-- **A region is registered**, of the length that was asked for. -/
theorem createNewMr_obeys (fuel : ℕ) {length : UInt64} {access : UInt32} (h : Ready r)
    (hpos : 0 < r.recvComps) (hlength : length = readSize (inbox (r.recvComps - 1))) :
    Obeys (monitor inbox told) (fun g _ => Ready g)
      ((createNewMr fuel length access).run globals) r := by
  refine Obeys.get_bind (Obeys.perform_bind trivial fun buff _ => ?_)
  refine Obeys.perform_bind trivial fun _ _ => Obeys.ite (fun _ => Obeys.halt) fun _ => ?_
  refine Obeys.perform_bind ⟨hpos, hlength⟩ ?_
  rintro _ ⟨key, rfl⟩
  refine Obeys.perform_bind trivial fun _ _ => Obeys.modify_bind ?_
  exact sendMr_obeys fuel h

/-- **A code is received**, and with it the size that is asked for. -/
theorem getCommCode_obeys (fuel : ℕ) (h : Ready r) :
    Obeys (monitor inbox told) (fun g ret => Ready g ∧ 0 < g.recvComps ∧
        (ret.1 = some .regMr → ret.2.rmSize = readSize (inbox (g.recvComps - 1))))
      ((getCommCode fuel).run globals) r := by
  refine Obeys.perform_bind h.recvComps fun _ _ => ?_
  refine Obeys.perform_bind trivial fun ret hret => ?_
  refine Obeys.ite (fun hne => absurd hret hne) fun _ => ?_
  refine Obeys.bind (waitRecvComp_obeys fuel _) ?_
  rintro g ret globals' ⟨rfl, hret⟩
  obtain ⟨rfl, rfl⟩ := Prod.mk.inj hret
  have hdone : r.recvComps + 1 = r.recvPosts + 1 := congrArg (· + 1) h.recvComps
  have hcleared : r.recvComps < r.recvComps + 1 := Nat.lt_succ_self _
  have hcodes : ∀ code, (r.codes ++ [code]).length = r.recvComps + 1 := by
    intro code
    rw [List.length_append, h.codes]
    rfl
  refine Obeys.perform_bind ⟨hdone, hcleared, fun _ => ⟨rfl, congrArg (· + 1) h.codes⟩⟩
    fun bytes hbytes => Obeys.ite (fun hreg => ?_) fun hreg => ?_
  · refine Obeys.perform_bind ⟨hdone, hcleared, fun hoff => absurd hoff (by decide)⟩
      fun bytes hbytes => Obeys.modify_bind (Obeys.pure ?_)
    refine ⟨⟨h.sent, h.sendComps, h.message, h.rest, hdone, hcodes _⟩, Nat.succ_pos _, fun _ => ?_⟩
    rw [hbytes]
    rfl
  · refine Obeys.pure ⟨⟨h.sent, h.sendComps, h.message, h.rest, hdone, hcodes _⟩,
      Nat.succ_pos _, fun hcode => absurd hcode hreg⟩

lemma commandLoop_obeys (fuel : ℕ) : ∀ (rounds : ℕ) {r : Record} {globals : Globals}, Ready r →
    Obeys (monitor inbox told) (fun g _ => Ready g) ((commandLoop fuel rounds).run globals) r
  | 0, _, _, _ => trivial
  | rounds + 1, _, _, h => by
      refine Obeys.bind (getCommCode_obeys fuel h) fun g code globals' hg => ?_
      refine Obeys.ite (fun _ => Obeys.pure hg.1) fun _ => ?_
      refine Obeys.bind (Q := fun g _ => Ready g) ?_
        fun g _ _ hg => commandLoop_obeys fuel rounds hg
      exact Obeys.get_bind (Obeys.ite
        (fun hreg => createNewMr_obeys fuel hg.1 hg.2.1 (hg.2.2 hreg)) fun _ => Obeys.pure hg.1)

/-- **The remote program.** -/
theorem remoteNodeRun_obeys (fuel rounds : ℕ) :
    Obeys (monitor inbox told) (fun _ _ => True) ((remoteNodeRun fuel rounds).run globals) {} := by
  refine Obeys.bind (commandLoop_obeys fuel rounds ready_start) fun g _ globals' _ => ?_
  refine Obeys.get_bind (Obeys.bind (deregDown_obeys (teardown_free _) _ _) fun g ret _ _ => ?_)
  exact Obeys.bind (outDisconnect_obeys (teardown_free _)) fun _ _ _ _ => trivial

end Remote

/-! ## The two together -/

/-- The programs of the two sides, with their globals: `rm_size` is set on either side. -/
def sides (sendInline : Side → Bool) (rmSize : Side → UInt64) (fuel : Side → ℕ) (rounds : ℕ)
    (rs : List Local.Request) : Side → Prog Call Reply Unit
  | .localNode => do
      let _ ← (Local.requestRun (fuel .localNode) rs).run ⟨rmSize .localNode, sendInline .localNode⟩
  | .remoteNode => do
      let _ ← (Remote.remoteNodeRun (fuel .remoteNode) rounds).run
        { rmSize := rmSize .remoteNode, sendInline := sendInline .remoteNode }

/-- The two programs and the channel. -/
abbrev Nodes := State Side Call Reply Unit Ports

/-- What the two show. -/
abbrev NodeTrace := List (Label Side Call Reply Move)

/-- A run of the two, with any fuel. -/
def NodeRun (sendInline : Side → Bool) (rmSize : Side → UInt64) (rs : List Local.Request)
    (tr : NodeTrace) (s : Nodes) : Prop :=
  ∃ fuel rounds, Runs.Run (next (channel sendInline)) Runs.always
    ⟨sides sendInline rmSize fuel rounds rs, Ports.start⟩ tr s

/-- The handle that `reg_new_mr` stores. -/
def storedHandle : Event Call Reply → Option Handle
  | ⟨.storeHandle handle, _⟩ => some handle
  | _ => none

/-- The handles that the calls of `reg_new_mr` have stored. -/
def handlesOf (t : Trace) : List Handle := t.filterMap storedHandle

/-- The region that `ibv_reg_mr` returns. -/
def registered : Event Call Reply → Option Mr
  | ⟨.regMr _ _ _, mr⟩ => mr
  | _ => none

/-- The regions that have been registered. -/
def regionsOf (t : Trace) : List Mr := t.filterMap registered

/-- The code that `get_comm_code` finds in its message. -/
def foundCode : Event Call Reply → Option (Option CommCode)
  | ⟨.loadRecv 0 _, bytes⟩ => some (readCode bytes)
  | _ => none

/-- The codes that have been handled. -/
def codesHandled (t : Trace) : List (Option CommCode) := t.filterMap foundCode

section Nodes

variable {sendInline : Side → Bool} {rmSize : Side → UInt64} {rs : List Local.Request}
  {tr : NodeTrace} {s : Nodes} {side : Side} {t : Trace} {r : Record}

lemma handles_after : (t.foldl Record.after r).handles = r.handles ++ handlesOf t := by
  induction t generalizing r with
  | nil => simp [handlesOf]
  | cons e t ih =>
      rw [List.foldl_cons, ih]
      obtain ⟨c, reply⟩ := e
      cases c with
      | storeHandle handle => simp [Record.after, handlesOf, storedHandle]
      | loadRecv off n =>
          simp only [Record.after, handlesOf, storedHandle, List.filterMap_cons]
          split <;> rfl
      | _ => rfl

lemma regions_after : (t.foldl Record.after r).regions = r.regions ++ regionsOf t := by
  induction t generalizing r with
  | nil => simp [regionsOf]
  | cons e t ih =>
      rw [List.foldl_cons, ih]
      obtain ⟨c, reply⟩ := e
      cases c with
      | regMr addr length access =>
          cases reply with
          | none => simp [Record.after, regionsOf, List.filterMap_cons_none
              (a := ⟨Call.regMr addr length access, (none : Option Mr)⟩) (f := registered) rfl]
          | some mr => simp [Record.after, regionsOf, List.filterMap_cons_some
              (a := ⟨Call.regMr addr length access, some mr⟩) (f := registered) rfl]
      | loadRecv off n =>
          simp only [Record.after, regionsOf, registered, List.filterMap_cons]
          split <;> rfl
      | _ => rfl

lemma codes_after : (t.foldl Record.after r).codes = r.codes ++ codesHandled t := by
  induction t generalizing r with
  | nil => simp [codesHandled]
  | cons e t ih =>
      rw [List.foldl_cons, ih]
      obtain ⟨c, reply⟩ := e
      cases c with
      | loadRecv off n =>
          cases off with
          | zero => simp [Record.after, codesHandled, foundCode]
          | succ off => simp [Record.after, codesHandled, foundCode]
      | _ => rfl

/-- **What a run of the two keeps up.**  Both programs keep to their monitors whatever comes in,
which is what the rule for the channel asks for. -/
theorem nodes_run (h : NodeRun sendInline rmSize rs tr s) :
    ∃ inbox, Agrees inbox s.shared ∧ PortsOk (fun side => recordOf side tr) s.shared ∧
      ∀ side, RecordOk (inbox side) (outbox rs side) (recordOf side tr) := by
  obtain ⟨fuel, rounds, h⟩ := h
  refine channel_run (Q := fun _ _ => True) (outbox_mono rs) (fun side inbox => ?_) h
  cases side with
  | localNode =>
      exact Obeys.prog_bind (Local.requestRun_obeys (fuel .localNode) rs) fun _ _ _ => trivial
  | remoteNode =>
      exact Obeys.prog_bind (Remote.remoteNodeRun_obeys (fuel .remoteNode) rounds)
        fun _ _ _ => trivial

/-- The `k`-th message of a side is the `k`-th of the other's outbox. -/
lemma inbox_eq {inbox : Side → ℕ → List UInt8} (side : Side) (hagrees : Agrees inbox s.shared)
    (hports : PortsOk (fun side => recordOf side tr) s.shared)
    (hrecords : ∀ side, RecordOk (inbox side) (outbox rs side) (recordOf side tr)) {k : ℕ}
    (hk : k < (recordOf side tr).recvComps) :
    (outbox rs side.other (recordOf side.other tr))[k]? = some (inbox side k) := by
  have hcomps : (recordOf side tr).recvComps + (s.shared side).recvCq
      = (s.shared side).delivered.length := (hports side).recvComps
  have harrived : k < (s.shared side).delivered.length := by omega
  have hentry := List.getElem?_eq_getElem harrived
  rw [hagrees side k _ hentry]
  have hfifo := (hports side.other).fifo
  rw [Side.other_other] at hfifo
  refine getElem?_of_initial (hrecords side.other).sent ?_
  rw [hfifo, List.getElem?_append_left harrived, hentry]

lemma regions_record :
    (recordOf .remoteNode tr).regions = regionsOf (traceOf .remoteNode tr) :=
  regions_after.trans (List.nil_append _)

/-- A handle that is stored has been read in the message of its region. -/
lemma handles_initial (h : NodeRun sendInline rmSize rs tr s) :
    handlesOf (traceOf .localNode tr) <+: (regionsOf (traceOf .remoteNode tr)).map Mr.handle := by
  obtain ⟨inbox, hagrees, hports, hrecords⟩ := nodes_run h
  have hhandles : (recordOf .localNode tr).handles = handlesOf (traceOf .localNode tr) :=
    handles_after.trans (List.nil_append _)
  rw [← hhandles, List.prefix_iff_getElem?]
  intro k hk
  obtain ⟨hread, hhandle⟩ := (hrecords .localNode).handles k _ (List.getElem?_eq_getElem hk)
  have hin := inbox_eq .localNode hagrees hports hrecords hread
  simp only [Side.other, outbox, List.getElem?_map, Option.map_eq_some_iff] at hin
  obtain ⟨mr, hmr, hmessage⟩ := hin
  rw [hhandle, ← hmessage, readHandle_message, ← regions_record, List.getElem?_map, hmr]
  rfl

/-- A code that is handled has been read in its message. -/
lemma codes_initial (h : NodeRun sendInline rmSize rs tr s) :
    codesHandled (traceOf .remoteNode tr) <+: (codesSent rs).map some := by
  obtain ⟨inbox, hagrees, hports, hrecords⟩ := nodes_run h
  have hcodes : (recordOf .remoteNode tr).codes = codesHandled (traceOf .remoteNode tr) :=
    codes_after.trans (List.nil_append _)
  rw [← hcodes, List.prefix_iff_getElem?]
  intro k hk
  obtain ⟨hread, hcode⟩ := (hrecords .remoteNode).codes k _ (List.getElem?_eq_getElem hk)
  have hin := inbox_eq .remoteNode hagrees hports hrecords hread
  simp only [Side.other, outbox, List.getElem?_map, Option.map_eq_some_iff] at hin
  obtain ⟨code, hsent, hmessage⟩ := hin
  rw [hcode, ← hmessage, readCode_message, List.getElem?_map, hsent]
  rfl

/-- What is expected of the two: the handles and codes that are read are those of the regions and
requests, in order, and so are the messages that are sent; and they arrive as they were stored. -/
structure Matched (rs : List Local.Request) (tr : NodeTrace) (s : Nodes) : Prop where
  handles : handlesOf (traceOf .localNode tr) <+:
    (regionsOf (traceOf .remoteNode tr)).map Mr.handle
  codes : codesHandled (traceOf .remoteNode tr) <+: (codesSent rs).map some
  replies : (recordOf .remoteNode tr).sent <+: (regionsOf (traceOf .remoteNode tr)).map Mr.message
  requests : (recordOf .localNode tr).sent <+: (codesSent rs).map CommCode.message
  fifo : ∀ side, (recordOf side tr).sent = (s.shared side.other).delivered ++
    (s.shared side).sending.map (·.getD (s.shared side).sendMsg)

/-- **The `k`-th handle is that of the `k`-th region**, and the codes are handled in the order in
which they were sent.

The two programs are each run against a monitor of their own, and the channel against both
(`channel_run`).  There each side may assume that what it reads is what the other has stored, since
the other one keeps to its monitor.  A handle is then read out of the `k`-th message that came in,
which the remote program stored for its `k`-th region (`readHandle_message`). -/
theorem requests_matched (h : NodeRun sendInline rmSize rs tr s) : Matched rs tr s := by
  obtain ⟨inbox, -, hports, hrecords⟩ := nodes_run h
  refine ⟨handles_initial h, codes_initial h, ?_, (hrecords .localNode).sent,
    fun side => (hports side).fifo⟩
  rw [← regions_record]
  exact (hrecords .remoteNode).sent

/-! ### Two regions -/

/-- The next calls of a side, where a load finds `bytes` and `malloc` returns `addr`. -/
def turnsAt (addr : UInt64) (side : Side) (n : ℕ) (bytes : List UInt8) :
    List (Choice Side Call Reply Move) :=
  List.replicate n (.call side (goodReply bytes addr none))

/-- The next calls of a side. -/
def turns (side : Side) (n : ℕ) (bytes : List UInt8) : List (Choice Side Call Reply Move) :=
  turnsAt 4096 side n bytes

/-- A message goes to a side. -/
def passes (side : Side) : List (Choice Side Call Reply Move) :=
  [.device (.deliver side), .device (.complete side.other)]

/-- The local program asks for a region, which will lie at `addr`, and stores its handle.  The
remote program stands at its receive before and after. -/
def regionAt (addr : UInt64) : List (Choice Side Call Reply Move) :=
  turns .localNode 3 [] ++ passes .remoteNode ++ turns .remoteNode 2 [1, 0, 0, 0] ++
    turnsAt addr .remoteNode 8 (zeros 8) ++ turns .localNode 2 [] ++ passes .localNode ++
    turns .remoteNode 3 [] ++ turns .localNode 2 [7, 0, 0, 0] ++
    turns .localNode 2 (toBytes 8 addr.toNat)

/-- One region. -/
def oneRegion : List (Choice Side Call Reply Move) := turns .remoteNode 2 [] ++ regionAt 4096

/-- The local program ends. -/
def exitMessage : List (Choice Side Call Reply Move) :=
  turns .localNode 3 [] ++ passes .remoteNode ++ turns .localNode 1 [] ++
    turns .remoteNode 2 [2, 0, 0, 0]

/-- Two regions, and the end. -/
theorem requests_matched_twoRegions : ∃ tr s,
    NodeRun (fun _ => true) (fun _ => 32) [.regNewMr, .regNewMr] tr s ∧
      handlesOf (traceOf .localNode tr) = [⟨7, 4096⟩, ⟨7, 8192⟩] ∧
      codesHandled (traceOf .remoteNode tr) = [some .regMr, some .regMr, some .exit] ∧
      Matched [.regNewMr, .regNewMr] tr s := by
  obtain ⟨tr, s, hrun, htest⟩ := Runs.Run.exists_of_play (next (channel fun _ => true))
    (⟨sides (fun _ => true) (fun _ => 32) (fun _ => 1) 3 [.regNewMr, .regNewMr], Ports.start⟩ :
      Nodes)
    (oneRegion ++ regionAt 8192 ++ exitMessage)
    (fun r => decide (handlesOf (traceOf .localNode r.2) = [⟨7, 4096⟩, ⟨7, 8192⟩] ∧
      codesHandled (traceOf .remoteNode r.2) = [some .regMr, some .regMr, some .exit]))
    (by decide +kernel)
  have hnode : NodeRun (fun _ => true) (fun _ => 32) [.regNewMr, .regNewMr] tr s := ⟨_, _, hrun⟩
  obtain ⟨hhandles, hcodes⟩ := of_decide_eq_true htest
  exact ⟨tr, s, hnode, hhandles, hcodes, requests_matched hnode⟩

end Nodes

end Multithreading

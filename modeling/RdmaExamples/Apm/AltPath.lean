import RdmaExamples.Apm.Program

/-!
# The exchange of alternate paths

Each host tells the other one the LID of its alternate port, in the private data of the connection.
The client does so in its request, before it knows the server's; the server looks for its own port
only if it has nothing from the client, and the client takes the server's LID only if it has no port
of its own.  So what the two load fits together where the server has no alternate port to offer, or
the client has no active port at all, and nowhere else (`altPaths_agree_iff`).

* `IsActive`, `IsAlternate` — the ports of a host: an alternate one is active, and not the port in
  use.  A host is built with a LID other than `0` on each active port.
* `Linked` — what one side received is what the other one sent, as far as the private data of the
  transport reaches.
* `SideAgrees` — what a side is to have loaded: its own alternate port, and the LID of the other's.
* `prepare_run`, `establishConnection_run` — what a host does before it connects and when it does;
  `connected_client` and `connected_server` put the two together.

Both hosts are taken with nothing set on the command line (`Unset`), since what the source asks of
`alt_dlid` and `alt_srcport` is whether the user has given them.
-/

namespace Apm

open Programs

/-! ## Hosts -/

/-- The ports of a host's device, from port 1 on, and the port that its connection uses. -/
structure Host where
  ports : List PortAttr
  portNum : UInt8
  lid_ne : ∀ port ∈ ports, port.lid ≠ 0

/-- Port `i` is there, and active. -/
def Host.IsActive (host : Host) (i : ℕ) (port : PortAttr) : Prop :=
  1 ≤ i ∧ host.ports[i - 1]? = some port ∧ port.state = .active

/-- Port `i` is active, and not the one that the connection uses. -/
def Host.IsAlternate (host : Host) (i : ℕ) (port : PortAttr) : Prop :=
  host.IsActive i port ∧ i ≠ host.portNum.toNat

/-- What a host answers. -/
def Host.answers (host : Host) : Event Call Reply → Bool
  | ⟨.queryDevice, .ok devAttr⟩ => decide (devAttr.physPortCnt.toNat = host.ports.length)
  | ⟨.queryQp, .ok qpAttr⟩ => decide (qpAttr.portNum = host.portNum)
  | ⟨.queryPort i, .ok portAttr⟩ => decide (1 ≤ i ∧ host.ports[i - 1]? = some portAttr)
  | ⟨.getRequest, .ok request⟩ => decide (request.event.event = .connectRequest)
  | _ => true

/-- The private data that an event sends. -/
def sentData : Event Call Reply → List (List UInt8)
  | ⟨.connect privateData, _⟩ => [privateData]
  | ⟨.accept privateData, _⟩ => [privateData]
  | _ => []

/-- The private data that an event gets. -/
def gotData : Event Call Reply → List (List UInt8)
  | ⟨.connect _, .ok event⟩ => [event.privateData]
  | ⟨.getRequest, .ok request⟩ => [request.event.privateData]
  | _ => []

/-- What one host gets begins with what the other one sent. -/
def Linked (t t' : Trace) : Prop :=
  ∀ sent ∈ t.flatMap sentData, ∀ got ∈ t'.flatMap gotData, sent <+: got

/-- A host has run its program until `establish_connection` succeeded. -/
def Connected (host : Host) (ctx₀ : Context) (t : Trace) (ctx : Context) : Prop :=
  (∃ t₁ t₂ ctx₁, t = t₁ ++ t₂ ∧ Returns (prepare.run ctx₀) t₁ (0, ctx₁) ∧
    Returns (establishConnection.run ctx₁) t₂ (0, ctx)) ∧ ∀ e ∈ t, host.answers e = true

/-- A context of a host that is started without `-d` and `-r`. -/
def Unset (ctx : Context) : Prop := ctx.altDlid = 0 ∧ ctx.altSrcport = 0 ∧ ctx.myAltDlid = 0

/-- If the device of `host` has an alternate port, its context names one, the other host knows the
LID, and the two load just that. -/
def SideAgrees (host : Host) (ctx other : Context) : Prop :=
  (∃ i port, host.IsAlternate i port) → ∃ i port, host.IsAlternate i port ∧
    ctx.altSrcport.toNat = i ∧ ctx.myAltDlid = port.lid ∧ other.altDlid = port.lid ∧
    ∀ qpAttr qpAttr', (altPath ctx qpAttr).altPortNum.toNat = i ∧
      (altPath other qpAttr').altDlid = port.lid

/-! ## The private data -/

/-- **What was sent is read back.** -/
theorem ntohs_htons (x : UInt16) :
    ntohs ((htons x).getD 0 0) ((htons x).getD 1 0) = x := by
  have hx := x.toNat_lt
  have hhi : (UInt8.ofNat (x.toNat / 256)).toNat = x.toNat / 256 := by
    rw [UInt8.toNat_ofNat', Nat.mod_eq_of_lt (by omega)]
  have hlo : (UInt8.ofNat (x.toNat % 256)).toNat = x.toNat % 256 := by
    rw [UInt8.toNat_ofNat', Nat.mod_eq_of_lt (Nat.mod_lt _ (by norm_num))]
  rw [htons, ntohs, List.getD_cons_zero, List.getD_cons_succ, List.getD_cons_zero, hhi, hlo,
    Nat.div_add_mod, UInt16.ofNat_toNat]

section

variable {host : Host} {ctx ctx' : Context} {t : Trace} {ret : Int} {x : UInt16}
  {rest : UInt8 × UInt8}
  {event : CmEvent}

/-- The LID that arrives. -/
lemma getAltDlid_eq (h : htons x ++ [rest.1, rest.2] <+: event.privateData) :
    getAltDlidFromPrivateData event = some x := by
  obtain ⟨tail, htail⟩ := h
  have hlen : ¬ event.privateData.length < 4 := by
    rw [← htail]
    simp [htons]
  rw [getAltDlidFromPrivateData, if_neg hlen, ← htail]
  exact congrArg some (ntohs_htons x)

/-! ## The choice of a port

What a host has chosen is a fact about its ports, not about the order in which they were looked at:
an alternate port, if there is one, or else the port in use, if that is active. -/

/-- The context with a port and its LID. -/
def Context.setAlt (ctx : Context) (i : ℕ) (lid : UInt16) : Context :=
  { ctx with myAltDlid := lid, altSrcport := UInt8.ofNat i }

/-- What `get_alt_port_details` leaves behind, when it looks from port `i` on: nothing, if no port
is active, or an active port, the one in use only if there is no other. -/
def Chosen (host : Host) (i : ℕ) (ctx ctx' : Context) : Prop :=
  (ctx' = ctx ∧ ∀ j port, i ≤ j → ¬ host.IsActive j port) ∨
  ∃ j port, host.IsActive j port ∧ ctx' = ctx.setAlt j port.lid ∧
    (j ≠ host.portNum.toNat ∨ ∀ k port', i ≤ k → host.IsActive k port' → k = host.portNum.toNat)

/-- The ports behind an inactive one. -/
lemma Chosen.inactive {i : ℕ} (h : Chosen host (i + 1) ctx ctx')
    (hi : ∀ port, ¬ host.IsActive i port) : Chosen host i ctx ctx' := by
  have hnext : ∀ j port, i ≤ j → host.IsActive j port → i + 1 ≤ j := by
    intro j port hj hactive
    rcases Nat.eq_or_lt_of_le hj with rfl | hlt
    · exact absurd hactive (hi port)
    · exact hlt
  rcases h with ⟨rfl, hnone⟩ | ⟨j, port, hactive, hctx, hrest⟩
  · left
    exact ⟨rfl, fun j port hj hactive => hnone j port (hnext j port hj hactive) hactive⟩
  · right
    refine ⟨j, port, hactive, hctx, hrest.imp_right fun hrest k port' hk hactive' => ?_⟩
    exact hrest k port' (hnext k port' hk hactive') hactive'

/-- The ports behind the one in use. -/
lemma Chosen.inUse {i : ℕ} {port : PortAttr} (hactive : host.IsActive i port)
    (hi : i = host.portNum.toNat) (h : Chosen host (i + 1) (ctx.setAlt i port.lid) ctx') :
    Chosen host i ctx ctx' := by
  right
  rcases h with ⟨rfl, hnone⟩ | ⟨j, port', hactive', hctx, hrest⟩
  · refine ⟨i, port, hactive, rfl, Or.inr fun k port' hk hactive' => ?_⟩
    rcases Nat.eq_or_lt_of_le hk with rfl | hlt
    · exact hi
    · exact absurd hactive' (hnone k port' hlt)
  · refine ⟨j, port', hactive', hctx, hrest.imp_right fun hrest k port'' hk hactive'' => ?_⟩
    rcases Nat.eq_or_lt_of_le hk with rfl | hlt
    · exact hi
    · exact hrest k port'' hlt hactive''

lemma altPortLoop_chosen {qpAttr : QpAttr} (hqp : qpAttr.portNum = host.portNum) :
    ∀ {n i : ℕ} {ctx : Context} {t : Trace}, 1 ≤ i → i + n = host.ports.length + 1 →
    (∀ e ∈ t, host.answers e = true) →
    Returns ((altPortLoop qpAttr n i).run ctx) t (ret, ctx') → ret = 0 → Chosen host i ctx ctx'
  | 0, i, ctx, t, hi, hrange, _, h, _ => by
      obtain ⟨-, -, rfl⟩ := returns_run_pure.mp h
      left
      refine ⟨rfl, fun j port hj hactive => ?_⟩
      obtain ⟨hlt, -⟩ := List.getElem?_eq_some_iff.mp hactive.2.1
      omega
  | n + 1, i, ctx, t, hi, hrange, hanswers, h, hret => by
      obtain ⟨reply, t', rfl, h'⟩ := returns_run_perform_bind.mp h
      have hhead := hanswers _ (List.mem_cons_self ..)
      have htail : ∀ e ∈ t', host.answers e = true :=
        fun e he => hanswers e (List.mem_cons_of_mem _ he)
      cases reply with
      | error e =>
          obtain ⟨-, rfl, -⟩ := returns_run_pure.mp h'
          exact absurd hret e.ne
      | ok portAttr =>
          obtain ⟨-, hport⟩ := of_decide_eq_true hhead
          dsimp only at h'
          split at h'
          · rename_i hstate
            have hactive : host.IsActive i portAttr := ⟨hi, hport, hstate⟩
            rw [run_modify_bind] at h'
            split at h'
            · rename_i hne
              obtain ⟨-, -, rfl⟩ := returns_run_pure.mp h'
              rw [hqp] at hne
              exact Or.inr ⟨i, portAttr, hactive, rfl, Or.inl hne.symm⟩
            · rename_i heq
              rw [hqp] at heq
              refine Chosen.inUse hactive (not_not.mp heq).symm ?_
              exact altPortLoop_chosen hqp (by omega) (by omega) htail h' hret
          · rename_i hstate
            refine Chosen.inactive (altPortLoop_chosen hqp (by omega) (by omega) htail h' hret) ?_
            rintro port ⟨-, hport', hactive⟩
            rw [hport] at hport'
            exact hstate (Option.some.inj hport' ▸ hactive)

/-- **What `get_alt_port_details` finds.**  The loop over the ports stops at the first alternate
one, and on its way records the port in use, which may stay recorded if no other comes. -/
theorem getAltPortDetails_chosen (hanswers : ∀ e ∈ t, host.answers e = true)
    (h : Returns (getAltPortDetails.run ctx) t (ret, ctx')) (hret : ret = 0) :
    Chosen host 1 ctx ctx' := by
  obtain ⟨reply, t', rfl, h'⟩ := returns_run_perform_bind.mp h
  cases reply with
  | error e =>
      obtain ⟨-, rfl, -⟩ := returns_run_pure.mp h'
      exact absurd hret e.ne
  | ok devAttr =>
      have hdev := of_decide_eq_true (hanswers _ (List.mem_cons_self ..))
      dsimp only at h'
      split at h'
      · obtain ⟨-, rfl, -⟩ := returns_run_pure.mp h'
        exact absurd hret (by decide)
      · obtain ⟨reply, t₂, rfl, h₂⟩ := returns_run_perform_bind.mp h'
        cases reply with
        | error e =>
            obtain ⟨-, rfl, -⟩ := returns_run_pure.mp h₂
            exact absurd hret e.ne
        | ok qpAttr =>
            have hhead := hanswers ⟨.queryQp, .ok qpAttr⟩ (by simp)
            have hqp := of_decide_eq_true hhead
            refine altPortLoop_chosen hqp le_rfl (by rw [hdev]; omega) (fun e he => ?_) h₂ hret
            exact hanswers e (by simp [he])

/-! ## Up to the connection -/

/-- What the exchange is about. -/
def Context.alts (ctx : Context) : Bool × UInt16 × UInt8 × UInt16 :=
  (ctx.server, ctx.altDlid, ctx.altSrcport, ctx.myAltDlid)

lemma getaddrinfoAndCreateEp_keeps :
    Keeps Context.alts (fun _ => True) getaddrinfoAndCreateEp := by
  refine Keeps.bind Keeps.get fun ctx => Keeps.bind (Keeps.perform trivial) fun ret => ?_
  refine Keeps.ite (Keeps.pure _) (Keeps.bind (Keeps.perform trivial) fun made => ?_)
  cases made with
  | error e => exact Keeps.pure _
  | ok id =>
      refine Keeps.bind (Keeps.modify fun _ => rfl) fun _ => ?_
      exact Keeps.bind (Keeps.perform trivial) fun _ => Keeps.pure _

lemma regMem_keeps : Keeps Context.alts (fun _ => True) regMem := by
  refine Keeps.bind Keeps.get fun ctx => Keeps.bind (Keeps.perform trivial) fun sendMr => ?_
  refine Keeps.bind (Keeps.modify fun _ => rfl) fun _ => Keeps.ite (Keeps.pure _) ?_
  refine Keeps.bind (Keeps.perform trivial) fun recvMr => ?_
  refine Keeps.bind (Keeps.modify fun _ => rfl) fun _ => ?_
  exact Keeps.ite (Keeps.pure _) (Keeps.pure _)

/-- What the server learns from the request. -/
lemma getConnectRequest_run (hunset : Unset ctx) (hanswers : ∀ e ∈ t, host.answers e = true)
    (h : Returns (getConnectRequest.run ctx) t (ret, ctx')) (hret : ret = 0) :
    ∃ request dlid, (⟨.getRequest, .ok request⟩ : Event Call Reply) ∈ t ∧
      getAltDlidFromPrivateData request.event = some dlid ∧
      ctx'.alts = (ctx.server, dlid, 0, 0) := by
  obtain ⟨hdlid, hsrcport, hmine⟩ := hunset
  obtain ⟨r, t', rfl, h'⟩ := returns_run_perform_bind.mp h
  split at h'
  · rename_i hne
    obtain ⟨-, rfl, -⟩ := returns_run_pure.mp h'
    exact absurd hret hne
  · rw [run_modify_bind] at h'
    obtain ⟨reply, t₂, rfl, h₂⟩ := returns_run_perform_bind.mp h'
    cases reply with
    | error e =>
        obtain ⟨-, rfl, -⟩ := returns_run_pure.mp h₂
        exact absurd hret e.ne
    | ok request =>
        have hhead := hanswers ⟨.getRequest, .ok request⟩ (by simp)
        have hevent := of_decide_eq_true hhead
        dsimp only at h₂
        rw [run_modify_bind, if_neg (not_not.mpr hevent), run_get_bind] at h₂
        dsimp only at h₂
        rw [if_pos ⟨hdlid, hsrcport⟩] at h₂
        cases hdata : getAltDlidFromPrivateData request.event with
        | none =>
            rw [hdata] at h₂
            obtain ⟨-, rfl, -⟩ := returns_run_pure.mp h₂
            exact absurd hret (by decide)
        | some dlid =>
            rw [hdata] at h₂
            dsimp only at h₂
            rw [run_modify_bind] at h₂
            obtain ⟨-, -, rfl⟩ := returns_run_pure.mp h₂
            exact ⟨request, dlid, by simp, hdata, by simp [Context.alts, hsrcport, hmine]⟩

/-- The port that a host has chosen, or that it has no active one. -/
def Selected (host : Host) (ctx : Context) : Prop :=
  (ctx.altSrcport = 0 ∧ ctx.myAltDlid = 0 ∧ ∀ j port, ¬ host.IsActive j port) ∨
  ∃ j port, host.IsActive j port ∧ ctx.altSrcport.toNat = j ∧ ctx.myAltDlid = port.lid ∧
    (j ≠ host.portNum.toNat ∨ ∀ k port', host.IsActive k port' → k = host.portNum.toNat)

lemma Host.IsActive.lid_ne {i : ℕ} {port : PortAttr} (h : host.IsActive i port) : port.lid ≠ 0 :=
  host.lid_ne port (List.mem_of_getElem? h.2.1)

/-- The choice, in a context that had none. -/
lemma Chosen.selected (h : Chosen host 1 ctx ctx') (hlen : host.ports.length < 256)
    (hsrcport : ctx.altSrcport = 0) (hmine : ctx.myAltDlid = 0) : Selected host ctx' := by
  rcases h with ⟨rfl, hnone⟩ | ⟨j, port, hactive, rfl, hrest⟩
  · exact Or.inl ⟨hsrcport, hmine, fun j port hactive => hnone j port hactive.1 hactive⟩
  · right
    have hlt : j < 256 := by
      obtain ⟨hlt, -⟩ := List.getElem?_eq_some_iff.mp hactive.2.1
      omega
    refine ⟨j, port, hactive, ?_, rfl, hrest.imp_right fun hrest k port' hactive' => ?_⟩
    · exact Nat.mod_eq_of_lt hlt
    · exact hrest k port' hactive'.1 hactive'

lemma getAltPortDetails_length (hanswers : ∀ e ∈ t, host.answers e = true)
    (h : Returns (getAltPortDetails.run ctx) t (ret, ctx')) (hret : ret = 0) :
    host.ports.length < 256 := by
  obtain ⟨reply, t', rfl, h'⟩ := returns_run_perform_bind.mp h
  cases reply with
  | error e =>
      obtain ⟨-, rfl, -⟩ := returns_run_pure.mp h'
      exact absurd hret e.ne
  | ok devAttr =>
      have hdev := of_decide_eq_true (hanswers _ (List.mem_cons_self ..))
      rw [← hdev]
      exact devAttr.physPortCnt.toNat_lt

lemma Chosen.alts {i : ℕ} (h : Chosen host i ctx ctx') :
    ctx'.server = ctx.server ∧ ctx'.altDlid = ctx.altDlid := by
  rcases h with ⟨rfl, -⟩ | ⟨j, port, -, rfl, -⟩
  · exact ⟨rfl, rfl⟩
  · exact ⟨rfl, rfl⟩

/-- What a host knows before it connects: what the request said, and if that is nothing, its own
port. -/
structure Prepared (host : Host) (server : Bool) (t : Trace) (ctx : Context) : Prop where
  role : ctx.server = server
  fromRequest : (server = false ∧ ctx.altDlid = 0) ∨ (server = true ∧
    ∃ request, (⟨.getRequest, .ok request⟩ : Event Call Reply) ∈ t ∧
      getAltDlidFromPrivateData request.event = some ctx.altDlid)
  own : ctx.altDlid = 0 → Selected host ctx
  none : ctx.altDlid ≠ 0 → ctx.altSrcport = 0 ∧ ctx.myAltDlid = 0

lemma Prepared.of_alts {server : Bool} (h : Prepared host server t ctx)
    (halts : ctx'.alts = ctx.alts) : Prepared host server t ctx' := by
  simp only [Context.alts, Prod.mk.injEq] at halts
  obtain ⟨h₁, h₂, h₃, h₄⟩ := halts
  exact {
    role := h₁.trans h.role
    fromRequest := by rw [h₂]; exact h.fromRequest
    own := by rw [h₂, Selected, h₃, h₄]; exact h.own
    none := by rw [h₂, h₃, h₄]; exact h.none }

/-- The request, on the server. -/
lemma request_run (hunset : Unset ctx) (hanswers : ∀ e ∈ t, host.answers e = true)
    (h : Returns (requestPart.run ctx) t (ret, ctx')) (hret : ret = 0) :
    (ctx'.server = ctx.server ∧ ctx'.altSrcport = 0 ∧ ctx'.myAltDlid = 0) ∧
    ((ctx.server = false ∧ ctx'.altDlid = 0) ∨ (ctx.server = true ∧
      ∃ request, (⟨.getRequest, .ok request⟩ : Event Call Reply) ∈ t ∧
        getAltDlidFromPrivateData request.event = some ctx'.altDlid)) := by
  rw [requestPart, run_get_bind] at h
  split at h
  · rename_i hserver
    obtain ⟨request, dlid, hmem, hdata, halts⟩ := getConnectRequest_run hunset hanswers h hret
    simp only [Context.alts, Prod.mk.injEq] at halts
    obtain ⟨h₁, rfl, h₃, h₄⟩ := halts
    exact ⟨⟨h₁, h₃, h₄⟩, Or.inr ⟨hserver, request, hmem, hdata⟩⟩
  · rename_i hserver
    obtain ⟨-, -, rfl⟩ := returns_run_pure.mp h
    exact ⟨⟨rfl, hunset.2.1, hunset.2.2⟩, Or.inl ⟨Bool.eq_false_iff.mpr hserver, hunset.1⟩⟩

/-- The choice of a port, if the request said nothing. -/
lemma ports_run (hsrcport : ctx.altSrcport = 0) (hmine : ctx.myAltDlid = 0)
    (hanswers : ∀ e ∈ t, host.answers e = true)
    (h : Returns (portPart.run ctx) t (ret, ctx')) (hret : ret = 0) :
    ctx'.server = ctx.server ∧ ctx'.altDlid = ctx.altDlid ∧
    (ctx.altDlid = 0 → Selected host ctx') ∧
    (ctx.altDlid ≠ 0 → ctx'.altSrcport = 0 ∧ ctx'.myAltDlid = 0) := by
  rw [portPart, run_get_bind] at h
  split at h
  · rename_i hnone
    have hchosen := getAltPortDetails_chosen hanswers h hret
    have hlen := getAltPortDetails_length hanswers h hret
    obtain ⟨hserver, hdlid⟩ := hchosen.alts
    exact ⟨hserver, hdlid, fun _ => hchosen.selected hlen hsrcport hmine,
      fun hne => absurd hnone.1 hne⟩
  · rename_i hsome
    obtain ⟨-, -, rfl⟩ := returns_run_pure.mp h
    exact ⟨rfl, rfl, fun hzero => absurd ⟨hzero, hsrcport⟩ hsome, fun _ => ⟨hsrcport, hmine⟩⟩

/-- **A host, before it connects.** -/
theorem prepare_run (hunset : Unset ctx) (hanswers : ∀ e ∈ t, host.answers e = true)
    (h : Returns (prepare.run ctx) t (ret, ctx')) (hret : ret = 0) :
    Prepared host ctx.server t ctx' := by
  obtain ⟨t₁, t₂, ret₁, ctx₁, rfl, h₁, h₂⟩ := returns_run_bind.mp h
  have halts₁ := getaddrinfoAndCreateEp_keeps.state _ _ _ _ h₁
  simp only [Context.alts, Prod.mk.injEq] at halts₁
  obtain ⟨hserver₁, hdlid₁, hsrcport₁, hmine₁⟩ := halts₁
  have hunset₁ : Unset ctx₁ :=
    ⟨hdlid₁.trans hunset.1, hsrcport₁.trans hunset.2.1, hmine₁.trans hunset.2.2⟩
  split at h₂
  · rename_i hne
    obtain ⟨-, rfl, -⟩ := returns_run_pure.mp h₂
    exact absurd hret hne
  obtain ⟨t₃, t₄, ret₃, ctx₃, rfl, h₃, h₄⟩ := returns_run_bind.mp h₂
  split at h₄
  · rename_i hne
    obtain ⟨-, rfl, -⟩ := returns_run_pure.mp h₄
    exact absurd hret hne
  rename_i hret₃
  obtain ⟨⟨hserver₃, hsrcport₃, hmine₃⟩, hrequest⟩ := request_run hunset₁
    (fun e he => hanswers e (by simp [he])) h₃ (not_not.mp hret₃)
  obtain ⟨t₅, t₆, ret₅, ctx₅, rfl, h₅, h₆⟩ := returns_run_bind.mp h₄
  split at h₆
  · rename_i hne
    obtain ⟨-, rfl, -⟩ := returns_run_pure.mp h₆
    exact absurd hret hne
  rename_i hret₅
  obtain ⟨hserver₅, hdlid₅, hown, hnone⟩ := ports_run hsrcport₃ hmine₃
    (fun e he => hanswers e (by simp [he])) h₅ (not_not.mp hret₅)
  obtain ⟨u, t₇, rfl, h₇⟩ := returns_run_perform_bind.mp h₆
  have hprepared :
      Prepared host ctx.server (t₁ ++ (t₃ ++ (t₅ ++ ⟨.pthreadCreate, u⟩ :: t₇))) ctx₅ := {
    role := hserver₅.trans (hserver₃.trans hserver₁)
    fromRequest := by
      rw [hdlid₅, ← hserver₁]
      refine hrequest.imp_right fun hsome => ⟨hsome.1, ?_⟩
      obtain ⟨event, hmem, hdata⟩ := hsome.2
      exact ⟨event, by simp [hmem], hdata⟩
    own := by rw [hdlid₅]; exact hown
    none := by rw [hdlid₅]; exact hnone }
  exact hprepared.of_alts (regMem_keeps.state _ _ _ _ h₇)

/-- **What a host sends, and what it takes from the answer.** -/
theorem establishConnection_run
    (h : Returns (establishConnection.run ctx) t (ret, ctx')) (hret : ret = 0) :
    (ctx.server = true ∧ ctx' = ctx ∧
      ∃ (rest : UInt8 × UInt8) (r : Int),
        (⟨.accept (htons ctx.myAltDlid ++ [rest.1, rest.2]), r⟩ : Event Call Reply) ∈ t) ∨
    (ctx.server = false ∧ ∃ (rest : UInt8 × UInt8) (event : CmEvent),
      (⟨.connect (htons ctx.myAltDlid ++ [rest.1, rest.2]), .ok event⟩ : Event Call Reply) ∈ t ∧
      ((ctx.altDlid = 0 ∧ ctx.altSrcport = 0 ∧
        ∃ dlid, getAltDlidFromPrivateData event = some dlid ∧ ctx' = { ctx with altDlid := dlid }) ∨
      (¬ (ctx.altDlid = 0 ∧ ctx.altSrcport = 0) ∧ ctx' = ctx))) := by
  rw [establishConnection, run_get_bind] at h
  obtain ⟨r, t₁, rfl, h₁⟩ := returns_run_perform_bind.mp h
  split at h₁
  · rename_i hne
    obtain ⟨-, rfl, -⟩ := returns_run_pure.mp h₁
    exact absurd hret hne
  obtain ⟨rest, t₂, rfl, h₂⟩ := returns_run_perform_bind.mp h₁
  dsimp only at h₂
  split at h₂
  · rename_i hserver
    obtain ⟨rfl, rfl⟩ := returns_run_perform.mp h₂
    exact Or.inl ⟨hserver, rfl, rest, ret, by simp⟩
  · rename_i hclient
    obtain ⟨reply, t₃, rfl, h₃⟩ := returns_run_perform_bind.mp h₂
    cases reply with
    | error e =>
        obtain ⟨-, rfl, -⟩ := returns_run_pure.mp h₃
        exact absurd hret e.ne
    | ok event =>
        right
        refine ⟨Bool.eq_false_iff.mpr hclient, rest, event, by simp, ?_⟩
        dsimp only at h₃
        split at h₃
        · obtain ⟨-, rfl, -⟩ := returns_run_pure.mp h₃
          exact absurd hret (by decide)
        · rw [run_get_bind] at h₃
          split at h₃
          · rename_i hnone
            left
            cases hdata : getAltDlidFromPrivateData event with
            | none =>
                rw [hdata] at h₃
                obtain ⟨-, rfl, -⟩ := returns_run_pure.mp h₃
                exact absurd hret (by decide)
            | some dlid =>
                rw [hdata] at h₃
                dsimp only at h₃
                rw [run_modify_bind] at h₃
                obtain ⟨-, -, rfl⟩ := returns_run_pure.mp h₃
                exact ⟨hnone.1, hnone.2, dlid, rfl, rfl⟩
          · rename_i hsome
            obtain ⟨-, -, rfl⟩ := returns_run_pure.mp h₃
            exact Or.inr ⟨hsome, rfl⟩

end

/-! ## Both hosts

With `Linked`, what the one side has sent is what the other one reads, so that the two results
about a single host can be compared. -/

section

variable {host client server : Host} {ctx₀ ctx c₀ c s₀ s : Context} {t tc ts : Trace}

/-- **The client, when it is connected**: it has chosen a port, and looks at the answer only if it
has none.  A request comes to the server only, so that a client always looks for a port of its own.
-/
theorem connected_client (hunset : Unset ctx₀) (hrole : ctx₀.server = false)
    (h : Connected host ctx₀ t ctx) :
    Selected host ctx ∧ ∃ (rest : UInt8 × UInt8) (event : CmEvent),
      (⟨.connect (htons ctx.myAltDlid ++ [rest.1, rest.2]), .ok event⟩ : Event Call Reply) ∈ t ∧
      (ctx.altSrcport = 0 → getAltDlidFromPrivateData event = some ctx.altDlid) := by
  obtain ⟨⟨t₁, t₂, ctx₁, rfl, h₁, h₂⟩, hanswers⟩ := h
  have hprepared := prepare_run hunset (fun e he => hanswers e (by simp [he])) h₁ rfl
  have hdlid : ctx₁.altDlid = 0 := by
    rcases hprepared.fromRequest with ⟨-, hdlid⟩ | ⟨hserver, -⟩
    · exact hdlid
    · rw [hrole] at hserver
      exact absurd hserver (by decide)
  rcases establishConnection_run h₂ rfl with ⟨hserver, -⟩ | ⟨-, rest, event, hmem, hrest⟩
  · rw [hprepared.role, hrole] at hserver
    exact absurd hserver (by decide)
  · rcases hrest with ⟨-, -, dlid, hdata, rfl⟩ | ⟨hsome, rfl⟩
    · exact ⟨hprepared.own hdlid, rest, event, by simp [hmem], fun _ => hdata⟩
    · refine ⟨hprepared.own hdlid, rest, event, by simp [hmem], fun hnone => ?_⟩
      exact absurd ⟨hdlid, hnone⟩ hsome

/-- **The server, when it is connected**: it has chosen a port only if the request had none.  What
it sends back is the LID of that port, and `0` where it has not looked for one. -/
theorem connected_server (hunset : Unset ctx₀) (hrole : ctx₀.server = true)
    (h : Connected host ctx₀ t ctx) :
    (ctx.altDlid = 0 → Selected host ctx) ∧
    (ctx.altDlid ≠ 0 → ctx.altSrcport = 0 ∧ ctx.myAltDlid = 0) ∧
    (∃ request, (⟨.getRequest, .ok request⟩ : Event Call Reply) ∈ t ∧
      getAltDlidFromPrivateData request.event = some ctx.altDlid) ∧
    ∃ (rest : UInt8 × UInt8) (r : Int),
      (⟨.accept (htons ctx.myAltDlid ++ [rest.1, rest.2]), r⟩ : Event Call Reply) ∈ t := by
  obtain ⟨⟨t₁, t₂, ctx₁, rfl, h₁, h₂⟩, hanswers⟩ := h
  have hprepared := prepare_run hunset (fun e he => hanswers e (by simp [he])) h₁ rfl
  rcases establishConnection_run h₂ rfl with ⟨-, rfl, rest, r, hmem⟩ | ⟨hclient, -⟩
  · refine ⟨hprepared.own, hprepared.none, ?_, rest, r, by simp [hmem]⟩
    rcases hprepared.fromRequest with ⟨hclient, -⟩ | ⟨-, event, hevent, hdata⟩
    · rw [hrole] at hclient
      exact absurd hclient (by decide)
    · exact ⟨event, by simp [hevent], hdata⟩
  · rw [hprepared.role, hrole] at hclient
    exact absurd hclient (by decide)

/-- The server knows the client's LID. -/
lemma server_learns (hc : Unset c₀) (hcrole : c₀.server = false)
    (hclient : Connected client c₀ tc c)
    (hs : Unset s₀) (hsrole : s₀.server = true) (hserver : Connected server s₀ ts s)
    (hlinked : Linked tc ts) : s.altDlid = c.myAltDlid := by
  obtain ⟨-, rest, event, hsent, -⟩ := connected_client hc hcrole hclient
  obtain ⟨-, -, ⟨request, hgot, hdata⟩, -⟩ := connected_server hs hsrole hserver
  have hprefix := hlinked _ (List.mem_flatMap.mpr ⟨_, hsent, List.mem_singleton_self _⟩)
    _ (List.mem_flatMap.mpr ⟨_, hgot, List.mem_singleton_self _⟩)
  rw [getAltDlid_eq hprefix] at hdata
  exact (Option.some.inj hdata).symm

/-- The client knows the server's LID if it has no active port. -/
lemma client_learns (hc : Unset c₀) (hcrole : c₀.server = false)
    (hclient : Connected client c₀ tc c)
    (hs : Unset s₀) (hsrole : s₀.server = true) (hserver : Connected server s₀ ts s)
    (hlinked : Linked ts tc) (hnone : c.altSrcport = 0) : c.altDlid = s.myAltDlid := by
  obtain ⟨-, rest, event, hgot, hdata⟩ := connected_client hc hcrole hclient
  obtain ⟨-, -, -, rest', r, hsent⟩ := connected_server hs hsrole hserver
  have hprefix := hlinked _ (List.mem_flatMap.mpr ⟨_, hsent, List.mem_singleton_self _⟩)
    _ (List.mem_flatMap.mpr ⟨_, hgot, List.mem_singleton_self _⟩)
  have hdata := hdata hnone
  rw [getAltDlid_eq hprefix] at hdata
  exact (Option.some.inj hdata).symm

/-- A host that has chosen a port, and another one that knows the LID, agree. -/
lemma Selected.agrees {other : Context} (h : Selected host ctx)
    (hother : other.altDlid = ctx.myAltDlid) : SideAgrees host ctx other := by
  rintro ⟨k, port, hactive, hne⟩
  rcases h with ⟨-, -, hnone⟩ | ⟨j, port', hactive', hsrcport, hmine, hrest⟩
  · exact absurd hactive (hnone k port)
  · have hj : j ≠ host.portNum.toNat := hrest.resolve_right fun hall => hne (hall k port hactive)
    have hdlid : other.altDlid = port'.lid := hother.trans hmine
    refine ⟨j, port', ⟨hactive', hj⟩, hsrcport, hmine, hdlid, fun qpAttr qpAttr' => ⟨?_, ?_⟩⟩
    · have hpos : ctx.altSrcport ≠ 0 := by
        intro hzero
        have hj₁ := hactive'.1
        rw [hzero] at hsrcport
        have : (0 : UInt8).toNat = 0 := rfl
        omega
      have hport : (altPath ctx qpAttr).altPortNum = ctx.altSrcport := if_pos hpos
      rw [hport, hsrcport]
    · have hload : (altPath other qpAttr').altDlid = other.altDlid :=
        if_pos (hdlid.trans_ne hactive'.lid_ne)
      rw [hload, hdlid]

/-- **The exchange of alternate paths** fits together, for both sides, just where the server has no
alternate port to offer, or the client has no active port.

A client that has an active port sends its LID, which is not `0`, and so the server takes that and
never looks for a port of its own (`connected_server`): if it has one to offer, it is not loaded.
A client without an active port sends `0`; then the server looks, and what it finds goes back with
the answer, which the client takes since it has nothing of its own (`connected_client`).  Where the
server has nothing to offer, what the client has sent is all there is to agree on. -/
theorem altPaths_agree_iff (hc : Unset c₀) (hcrole : c₀.server = false)
    (hclient : Connected client c₀ tc c) (hs : Unset s₀) (hsrole : s₀.server = true)
    (hserver : Connected server s₀ ts s) (hrequest : Linked tc ts) (hanswer : Linked ts tc) :
    (SideAgrees client c s ∧ SideAgrees server s c) ↔
      ((∀ i port, ¬ server.IsAlternate i port) ∨ ∀ i port, ¬ client.IsActive i port) := by
  have hlearned := server_learns hc hcrole hclient hs hsrole hserver hrequest
  obtain ⟨hselected, -⟩ := connected_client hc hcrole hclient
  obtain ⟨hown, hnone, -⟩ := connected_server hs hsrole hserver
  constructor
  · rintro ⟨-, hagrees⟩
    by_contra hcon
    push Not at hcon
    obtain ⟨halternate, hactive⟩ := hcon
    obtain ⟨i, port, halternate', hsrcport, -⟩ := hagrees halternate
    -- the client has a port, so that the server does not look for its own
    have hne : s.altDlid ≠ 0 := by
      rw [hlearned]
      rcases hselected with ⟨-, -, hinactive⟩ | ⟨j, port', hactive', -, hmine, -⟩
      · obtain ⟨j, port', hactive'⟩ := hactive
        exact absurd hactive' (hinactive j port')
      · rw [hmine]
        exact hactive'.lid_ne
    have hi := halternate'.1.1
    rw [(hnone hne).1] at hsrcport
    have : (0 : UInt8).toNat = 0 := rfl
    omega
  · intro hcond
    refine ⟨hselected.agrees hlearned, ?_⟩
    rcases hcond with hcond | hcond
    · rintro ⟨i, port, halternate⟩
      exact absurd halternate (hcond i port)
    · rcases hselected with ⟨hsrcport, hmine, -⟩ | ⟨j, port, hactive, -⟩
      · have hlearned' := client_learns hc hcrole hclient hs hsrole hserver hanswer hsrcport
        exact (hown (hlearned.trans hmine)).agrees hlearned'
      · exact absurd hactive (hcond j port)

end

/-! ## Two hosts -/

lemma failed_ne : (-1 : Int) ≠ 0 := by decide

/-- A host on which every call succeeds, and which gets some private data.  Endpoints and regions
are numbered from the argument on. -/
def hostWorld (host : Host) (data : List UInt8) : ℕ → (c : Call) → Reply c × ℕ
  | n, .getaddrinfo _ _ _ => (0, n)
  | n, .createEp => (.ok n, n + 1)
  | n, .freeaddrinfo => ((), n)
  | n, .listen => (0, n)
  | n, .getRequest => (.ok ⟨n, ⟨.connectRequest, data⟩⟩, n + 1)
  | n, .queryDevice => (.ok ⟨autoPathMig, UInt8.ofNat host.ports.length⟩, n)
  | n, .queryQp => (.ok ⟨host.portNum, 1, 0, 0⟩, n)
  | n, .queryPort i => ((host.ports[i - 1]?).elim (.error ⟨-1, failed_ne⟩) .ok, n)
  | n, .pthreadCreate => ((), n)
  | n, .regMsgs _ => (some n, n + 1)
  | n, .postRecv _ => (0, n)
  | n, .uninitialised => ((0, 0), n)
  | n, .accept _ => (0, n)
  | n, .connect _ => (.ok ⟨.established, data⟩, n)
  | n, .loadPath _ => (0, n)
  | n, .migrate => (0, n)
  | n, .postSend _ => (0, n)
  | n, .getSendComp => (⟨1, true⟩, n)
  | n, .getRecvComp => (⟨1, true⟩, n)
  | n, .nanosleep => ((), n)
  | n, .disconnect => ((), n)
  | n, .deregMr _ => ((), n)
  | n, .destroyEp _ => ((), n)

/-- What is looked at in a part of a run. -/
def partTest (host : Host) (ctx : Context) (sent got : List (List UInt8)) (t : Trace)
    (r : Int × Context) : Bool :=
  decide (r = (0, ctx)) && t.all host.answers && decide (t.flatMap sentData = sent) &&
    decide (t.flatMap gotData = got)

/-- A host that is connected, found by evaluation. -/
lemma exists_connected (host : Host) (data : List UInt8) (ctx₀ ctx₁ ctx : Context)
    (sent got got' : List (List UInt8))
    (h₁ : (play (hostWorld host data) 0 (prepare.run ctx₀)).2.any
      (partTest host ctx₁ [] got (play (hostWorld host data) 0 (prepare.run ctx₀)).1) = true)
    (h₂ : (play (hostWorld host data) 0 (establishConnection.run ctx₁)).2.any
      (partTest host ctx sent got'
        (play (hostWorld host data) 0 (establishConnection.run ctx₁)).1) = true) :
    ∃ t, Connected host ctx₀ t ctx ∧ t.flatMap sentData = sent ∧
      t.flatMap gotData = got ++ got' := by
  obtain ⟨t₁, r₁, hrun₁, htest₁⟩ := exists_of_play _ _ _ (partTest host ctx₁ [] got) h₁
  obtain ⟨t₂, r₂, hrun₂, htest₂⟩ := exists_of_play _ _ _ (partTest host ctx sent got') h₂
  simp only [partTest, Bool.and_eq_true, decide_eq_true_eq, List.all_eq_true] at htest₁ htest₂
  obtain ⟨⟨⟨rfl, hanswers₁⟩, hsent₁⟩, hgot₁⟩ := htest₁
  obtain ⟨⟨⟨rfl, hanswers₂⟩, hsent₂⟩, hgot₂⟩ := htest₂
  refine ⟨t₁ ++ t₂, ⟨⟨t₁, t₂, ctx₁, rfl, hrun₁, hrun₂⟩, ?_⟩, ?_, ?_⟩
  · intro e he
    rcases List.mem_append.mp he with he | he
    · exact hanswers₁ e he
    · exact hanswers₂ e he
  · rw [List.flatMap_append, hsent₁, hsent₂, List.nil_append]
  · rw [List.flatMap_append, hgot₁, hgot₂]

/-- A host with two active ports, the first of them in use. -/
def twoPorts : Host where
  ports := [⟨.active, 1⟩, ⟨.active, 2⟩]
  portNum := 1
  lid_ne := by decide

/-- A host with one port. -/
def onePort : Host where
  ports := [⟨.active, 3⟩]
  portNum := 1
  lid_ne := by decide

/-- The client on a host with two ports, when it is connected. -/
def clientCtx : Context :=
  { altSrcport := 2, myAltDlid := 2, id := some 0, sendMr := some 1, recvMr := some 2 }

/-- The server that has heard of the client's port, when it is connected. -/
def serverCtx : Context :=
  { server := true, altDlid := 2, id := some 1, listenId := some 0, sendMr := some 2,
    recvMr := some 3 }

lemma exists_client : ∃ t, Connected twoPorts {} t clientCtx ∧
    t.flatMap sentData = [[0, 2, 0, 0]] ∧ t.flatMap gotData = [[0, 0, 0, 0]] :=
  exists_connected twoPorts [0, 0, 0, 0] {} clientCtx clientCtx _ [] _
    (by decide +kernel) (by decide +kernel)

lemma exists_server (host : Host) (hhost : host = twoPorts ∨ host = onePort) :
    ∃ t, Connected host { server := true } t serverCtx ∧
    t.flatMap sentData = [[0, 0, 0, 0]] ∧ t.flatMap gotData = [[0, 2, 0, 0]] := by
  rcases hhost with rfl | rfl
  · exact exists_connected twoPorts [0, 2, 0, 0] { server := true } serverCtx serverCtx
      [[0, 0, 0, 0]] [[0, 2, 0, 0]] []
      (by decide +kernel) (by decide +kernel)
  · exact exists_connected onePort [0, 2, 0, 0] { server := true } serverCtx serverCtx
      [[0, 0, 0, 0]] [[0, 2, 0, 0]] []
      (by decide +kernel) (by decide +kernel)

lemma linked_of_eq {t t' : Trace} {data : List UInt8} (h : t.flatMap sentData = [data])
    (h' : t'.flatMap gotData = [data]) : Linked t t' := by
  intro sent hsent got hgot
  rw [h, List.mem_singleton] at hsent
  rw [h', List.mem_singleton] at hgot
  rw [hsent, hgot]

lemma onePort_noAlternate (i : ℕ) (port : PortAttr) : ¬ onePort.IsAlternate i port := by
  rintro ⟨⟨hi, hport, -⟩, hne⟩
  have hlt : i - 1 < 1 := (List.getElem?_eq_some_iff.mp hport).1
  have hone : onePort.portNum.toNat = 1 := rfl
  omega

lemma twoPorts_alternate : twoPorts.IsAlternate 2 ⟨.active, 2⟩ :=
  ⟨⟨by decide, rfl, rfl⟩, by decide⟩

/-- A client with two ports, and a server with one. -/
theorem altPaths_agree_iff_onePort : ∃ tc ts, Connected twoPorts {} tc clientCtx ∧
    Connected onePort { server := true } ts serverCtx ∧
    SideAgrees twoPorts clientCtx serverCtx ∧ SideAgrees onePort serverCtx clientCtx := by
  obtain ⟨tc, hclient, hcsent, hcgot⟩ := exists_client
  obtain ⟨ts, hserver, hssent, hsgot⟩ := exists_server onePort (Or.inr rfl)
  have hiff := altPaths_agree_iff ⟨rfl, rfl, rfl⟩ rfl hclient ⟨rfl, rfl, rfl⟩ rfl hserver
    (linked_of_eq hcsent hsgot) (linked_of_eq hssent hcgot)
  exact ⟨tc, ts, hclient, hserver, hiff.mpr (Or.inl onePort_noAlternate)⟩

/-- With two ports on both hosts, the server keeps its own to itself. -/
theorem twoPorts_disagree : ∃ tc ts, Connected twoPorts {} tc clientCtx ∧
    Connected twoPorts { server := true } ts serverCtx ∧ Linked tc ts ∧ Linked ts tc ∧
    ¬ SideAgrees twoPorts serverCtx clientCtx := by
  obtain ⟨tc, hclient, hcsent, hcgot⟩ := exists_client
  obtain ⟨ts, hserver, hssent, hsgot⟩ := exists_server twoPorts (Or.inl rfl)
  refine ⟨tc, ts, hclient, hserver, linked_of_eq hcsent hsgot, linked_of_eq hssent hcgot,
    fun hagrees => ?_⟩
  obtain ⟨i, port, halternate, hsrcport, -⟩ := hagrees ⟨_, _, twoPorts_alternate⟩
  have hi := halternate.1.1
  have hzero : serverCtx.altSrcport.toNat = 0 := rfl
  omega

end Apm

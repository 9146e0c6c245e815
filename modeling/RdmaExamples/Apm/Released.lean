import RdmaExamples.Apm.AltPath
import RdmaExamples.Apm.MainRuns

/-!
# What main releases

`main` gets a list of addresses, endpoints and regions, and gives them back.  What it has got so
far, it has given back or keeps in its context (`Balanced`), and `cleanup` gives back what the
context names; so all is given back once, on every way out, but on two.

* Where `rdma_create_ep` fails, the list of addresses is not freed, and nothing else has been got.
* Where `rdma_get_request` fails, `id` still names the endpoint that listens.  `listen_id` names the
  same one, and `cleanup` destroys it twice.

`Stands` says which of the three it is, with what is still to be given back; it goes through all
parts of `main`, and `main_released_iff` reads it at the end.

An endpoint or a region counts as given back when the call that destroys it is made; what the call
answers is not looked at.
-/

namespace Apm

open Programs

/-! ## Getting and giving back

A handle is what a call has returned, so a list of handles can be compared with another one: what
was got, what was given back, and what the context still names. -/

/-- What is got and has to be given back. -/
inductive Handle
  | addresses
  | ep (id : ℕ)
  | mr (mr : ℕ)
  deriving DecidableEq

/-- What an event hands out. -/
def handedOut : Event Call Reply → Option Handle
  | ⟨.getaddrinfo _ _ _, ret⟩ => if ret = 0 then some .addresses else none
  | ⟨.createEp, .ok id⟩ => some (.ep id)
  | ⟨.getRequest, .ok request⟩ => some (.ep request.id)
  | ⟨.regMsgs _, mr⟩ => mr.map .mr
  | _ => none

/-- What an event takes back. -/
def takenBack : Event Call Reply → Option Handle
  | ⟨.freeaddrinfo, _⟩ => some .addresses
  | ⟨.deregMr mr, _⟩ => some (.mr mr)
  | ⟨.destroyEp id, _⟩ => some (.ep id)
  | _ => none

/-- What a run has got. -/
def gotten (t : Trace) : List Handle := t.filterMap handedOut

/-- What a run has given back. -/
def released (t : Trace) : List Handle := t.filterMap takenBack

/-- `rdma_create_ep` fails. -/
def createFails : Event Call Reply → Bool
  | ⟨.createEp, .error _⟩ => true
  | _ => false

/-- `rdma_get_request` fails. -/
def requestFails : Event Call Reply → Bool
  | ⟨.getRequest, .error _⟩ => true
  | _ => false

/-- A call that neither gets nor gives back anything. -/
def Plain : Call → Prop
  | .getaddrinfo _ _ _ => False
  | .createEp => False
  | .freeaddrinfo => False
  | .getRequest => False
  | .regMsgs _ => False
  | .deregMr _ => False
  | .destroyEp _ => False
  | _ => True

/-- The pointers of the context. -/
def Context.held (ctx : Context) : Option ℕ × Option ℕ × Option ℕ × Option ℕ :=
  (ctx.id, ctx.listenId, ctx.sendMr, ctx.recvMr)

/-- The context as `main` starts with it: all pointers are `NULL`. -/
def Context.Empty (ctx : Context) : Prop := ctx.held = (none, none, none, none)

/-- What the context names, in the order in which `cleanup` gives it back. -/
def Context.handles (ctx : Context) : List Handle :=
  ctx.sendMr.toList.map .mr ++ (ctx.recvMr.toList.map .mr ++
    (ctx.id.toList.map .ep ++ ctx.listenId.toList.map .ep))

/-- Neither call of the two has failed. -/
structure NoneFailed (t : Trace) : Prop where
  creates : ∀ e ∈ t, createFails e = false
  requests : ∀ e ∈ t, requestFails e = false

/-- What was got has been given back, or is held. -/
structure Balanced (past : Trace) (held : List Handle) : Prop where
  fine : NoneFailed past
  all : (released past ++ held).Perm (gotten past)

/-- How a run stands that still holds something: nothing is lost, or there is no endpoint, or there
is no client and the endpoint that listens is held twice. -/
inductive Stands (past : Trace) (held : List Handle) : Prop
  | balanced (h : Balanced past held)
  | noEp (hfailed : ∃ e ∈ past, createFails e = true)
      (hrequests : ∀ e ∈ past, requestFails e = false)
      (hgot : gotten past = [.addresses]) (hleft : released past ++ held = [])
  | noClient (id : ℕ) (hfailed : ∃ e ∈ past, requestFails e = true)
      (hcreates : ∀ e ∈ past, createFails e = false)
      (hgot : gotten past = [.addresses, .ep id])
      (hleft : released past ++ held = [.addresses, .ep id, .ep id])

section

variable {t past : Trace} {ctx ctx' : Context} {ret : Int} {held held' : List Handle}

lemma gotten_append : gotten (past ++ t) = gotten past ++ gotten t := List.filterMap_append

lemma released_append : released (past ++ t) = released past ++ released t :=
  List.filterMap_append

lemma NoneFailed.append (h : NoneFailed past) (h' : NoneFailed t) : NoneFailed (past ++ t) :=
  ⟨List.forall_mem_append.mpr ⟨h.creates, h'.creates⟩,
    List.forall_mem_append.mpr ⟨h.requests, h'.requests⟩⟩

/-- Plain calls get nothing, give nothing back, and are not the two that may fail. -/
lemma plain_effect (e : Event Call Reply) (h : Plain e.1) : handedOut e = none ∧
    takenBack e = none ∧ createFails e = false ∧ requestFails e = false := by
  obtain ⟨c, r⟩ := e
  cases c <;> first | exact ⟨rfl, rfl, rfl, rfl⟩ | exact h.elim

lemma gotten_plain (h : ∀ e ∈ t, Plain e.1) : gotten t = [] :=
  List.filterMap_eq_nil_iff.mpr fun e he => (plain_effect e (h e he)).1

lemma released_plain (h : ∀ e ∈ t, Plain e.1) : released t = [] :=
  List.filterMap_eq_nil_iff.mpr fun e he => (plain_effect e (h e he)).2.1

lemma noneFailed_plain (h : ∀ e ∈ t, Plain e.1) : NoneFailed t :=
  ⟨fun e he => (plain_effect e (h e he)).2.2.1, fun e he => (plain_effect e (h e he)).2.2.2⟩

lemma handles_of_held (h : ctx'.held = ctx.held) : ctx'.handles = ctx.handles := by
  simp only [Context.held, Prod.mk.injEq] at h
  obtain ⟨hid, hlisten, hsend, hrecv⟩ := h
  rw [Context.handles, hid, hlisten, hsend, hrecv, Context.handles]

/-- What a part gets, it gives back or holds. -/
lemma Balanced.append (h : Balanced past held) (hfine : NoneFailed t)
    (hall : (released t ++ held').Perm (gotten t ++ held)) : Balanced (past ++ t) held' := by
  refine ⟨h.fine.append hfine, ?_⟩
  rw [released_append, gotten_append, List.append_assoc]
  calc (released past ++ (released t ++ held')).Perm (released past ++ (gotten t ++ held)) :=
        hall.append_left _
    _ |>.Perm (gotten t ++ (released past ++ held)) := by
        rw [← List.append_assoc, ← List.append_assoc]
        exact List.perm_append_comm.append_right _
    _ |>.Perm (gotten t ++ gotten past) := h.all.append_left _
    _ |>.Perm (gotten past ++ gotten t) := List.perm_append_comm

/-- What is held is given back, and nothing is got. -/
lemma Stands.gives (h : Stands past held) (hfine : NoneFailed t) (hgot : gotten t = [])
    (hgiven : released t ++ held' = held) : Stands (past ++ t) held' := by
  have hleft : released (past ++ t) ++ held' = released past ++ held := by
    rw [released_append, List.append_assoc, hgiven]
  have hgotten : gotten (past ++ t) = gotten past := by
    rw [gotten_append, hgot, List.append_nil]
  have hmem : ∀ {e}, e ∈ past → e ∈ past ++ t := List.mem_append_left _
  cases h with
  | balanced h =>
      exact .balanced ⟨h.fine.append hfine, by rw [hleft, hgotten]; exact h.all⟩
  | noEp hfailed hrequests hgot hnone =>
      exact .noEp (hfailed.imp fun e he => ⟨hmem he.1, he.2⟩)
        (List.forall_mem_append.mpr ⟨hrequests, hfine.requests⟩) (hgotten.trans hgot)
        (hleft.trans hnone)
  | noClient id hfailed hcreates hgot htwice =>
      exact .noClient id (hfailed.imp fun e he => ⟨hmem he.1, he.2⟩)
        (List.forall_mem_append.mpr ⟨hcreates, hfine.creates⟩) (hgotten.trans hgot)
        (hleft.trans htwice)

/-- Plain calls change nothing of it. -/
lemma Stands.plain (h : Stands past ctx.handles) (hheld : ctx'.held = ctx.held)
    (hplain : ∀ e ∈ t, Plain e.1) : Stands (past ++ t) ctx'.handles := by
  refine h.gives (noneFailed_plain hplain) (gotten_plain hplain) ?_
  rw [released_plain hplain, List.nil_append, handles_of_held hheld]

lemma Balanced.plain (h : Balanced past ctx.handles) (hheld : ctx'.held = ctx.held)
    (hplain : ∀ e ∈ t, Plain e.1) : Balanced (past ++ t) ctx'.handles := by
  refine h.append (noneFailed_plain hplain) ?_
  rw [released_plain hplain, gotten_plain hplain, handles_of_held hheld]

/-! ## The parts that only use what is there

They neither get nor give back anything, so that `Stands` goes through them unchanged. -/

/-- A part of `main` that gets and releases nothing. -/
abbrev Uses {α : Type} (m : ApmM α) : Prop := Keeps Context.held Plain m

lemma getAltPortDetails_uses : Uses getAltPortDetails := by
  refine Keeps.bind (Keeps.perform trivial) fun reply => ?_
  cases reply with
  | error e => exact Keeps.pure _
  | ok devAttr =>
      refine Keeps.ite (Keeps.pure _) (Keeps.bind (Keeps.perform trivial) fun reply => ?_)
      cases reply with
      | error e => exact Keeps.pure _
      | ok qpAttr =>
          suffices hloop : ∀ n i, Uses (altPortLoop qpAttr n i) from hloop _ _
          intro n
          induction n with
          | zero => exact fun _ => Keeps.pure _
          | succ n ih =>
              intro i
              refine Keeps.bind (Keeps.perform trivial) fun reply => ?_
              cases reply with
              | error e => exact Keeps.pure _
              | ok portAttr =>
                  refine Keeps.ite (Keeps.bind (Keeps.modify fun _ => rfl) fun _ => ?_) (ih _)
                  exact Keeps.ite (Keeps.pure _) (ih _)

lemma portPart_uses : Uses portPart :=
  Keeps.bind Keeps.get fun _ => Keeps.ite getAltPortDetails_uses (Keeps.pure _)

lemma establishConnection_uses : Uses establishConnection := by
  refine Keeps.bind Keeps.get fun ctx => Keeps.bind (Keeps.perform trivial) fun ret => ?_
  refine Keeps.ite (Keeps.pure _) (Keeps.bind (Keeps.perform trivial) fun rest => ?_)
  refine Keeps.ite (Keeps.perform trivial) (Keeps.bind (Keeps.perform trivial) fun reply => ?_)
  cases reply with
  | error e => exact Keeps.pure _
  | ok event =>
      refine Keeps.ite (Keeps.pure _) (Keeps.bind Keeps.get fun ctx => Keeps.ite ?_ (Keeps.pure _))
      cases getAltDlidFromPrivateData event with
      | none => exact Keeps.pure _
      | some dlid => exact Keeps.bind (Keeps.modify fun _ => rfl) fun _ => Keeps.pure _

lemma andThen_uses {m : ApmM (Flow × Counts)} {f : Counts → ApmM (Flow × Counts)}
    (hm : Uses m) (hf : ∀ counts, Uses (f counts)) : Uses (andThen m f) :=
  Keeps.bind hm fun r => Keeps.ite (hf r.2) (Keeps.pure _)

lemma recvPart_uses (turn : Bool) (counts : Counts) : Uses (recvPart turn counts) := by
  have hrecv : Uses recvMsg := by
    refine Keeps.bind Keeps.get fun ctx => Keeps.bind (Keeps.perform trivial) fun ret => ?_
    refine Keeps.ite (Keeps.pure _) (Keeps.bind (Keeps.perform trivial) fun ret => ?_)
    exact Keeps.ite (Keeps.pure _) (Keeps.pure _)
  refine Keeps.ite (Keeps.pure _) (Keeps.bind hrecv fun ret => ?_)
  exact Keeps.ite (Keeps.pure _) (Keeps.pure _)

lemma sendPart_uses (counts : Counts) : Uses (sendPart counts) := by
  have hsend : Uses sendMsg := by
    refine Keeps.bind Keeps.get fun ctx => Keeps.bind (Keeps.perform trivial) fun ret => ?_
    refine Keeps.ite (Keeps.pure _) (Keeps.bind (Keeps.perform trivial) fun ret => ?_)
    exact Keeps.ite (Keeps.pure _) (Keeps.pure _)
  refine Keeps.bind (Keeps.perform trivial) fun _ => Keeps.bind hsend fun ret => ?_
  exact Keeps.ite (Keeps.pure _) (Keeps.pure _)

lemma messageRound_uses (c : Context) (i : Int) (counts : Counts) :
    Uses (messageRound c i counts) := by
  refine andThen_uses (recvPart_uses _ _) fun _ => andThen_uses (sendPart_uses _) fun _ =>
    andThen_uses (recvPart_uses _ _) fun _ => ?_
  refine Keeps.ite (Keeps.pure _) (Keeps.bind (Keeps.perform trivial) fun ret => ?_)
  exact Keeps.ite (Keeps.pure _) (Keeps.pure _)

lemma messageLoop_uses (c : Context) : ∀ (n : ℕ) (i : Int) (counts : Counts),
    Uses (messageLoop c n i counts)
  | 0, _, _ => Keeps.pure _
  | n + 1, i, counts =>
      andThen_uses (messageRound_uses c i counts) (messageLoop_uses c n (i + 1))

/-- `main`, from `load_alt_path` up to `out`. -/
lemma exchange_uses : Uses exchange := by
  have hload : Uses loadAltPath := by
    refine Keeps.bind (Keeps.perform trivial) fun reply => ?_
    cases reply with
    | error e => exact Keeps.pure _
    | ok qpAttr => exact Keeps.bind Keeps.get fun ctx => Keeps.perform trivial
  have htransfer : Uses transfer := by
    refine Keeps.bind hload fun ret => Keeps.ite (Keeps.pure _) ?_
    exact Keeps.bind Keeps.get fun ctx => messageLoop_uses _ _ _ _
  refine Keeps.bind htransfer fun r => ?_
  obtain ⟨flow, counts⟩ := r
  cases flow with
  | out ret => exact Keeps.pure _
  | next => exact Keeps.bind (Keeps.perform trivial) fun _ => Keeps.pure _
  | broke => exact Keeps.bind (Keeps.perform trivial) fun _ => Keeps.pure _

/-! ## The parts that get something -/

/-- `getaddrinfo_and_create_ep` has created endpoint `id`, and `main` has nothing else. -/
structure Created (past : Trace) (ctx : Context) (id : ℕ) : Prop where
  held : ctx.held = (some id, none, none, none)
  fine : NoneFailed past
  got : gotten past = [.addresses, .ep id]
  released : released past = [.addresses]

lemma Created.balanced {id : ℕ} (h : Created past ctx id) : Balanced past ctx.handles := by
  obtain ⟨hheld, hfine, hgot, hreleased⟩ := h
  simp only [Context.held, Prod.mk.injEq] at hheld
  obtain ⟨hid, hlisten, hsend, hrecv⟩ := hheld
  refine ⟨hfine, ?_⟩
  rw [hgot, hreleased, Context.handles, hid, hlisten, hsend, hrecv]
  exact List.Perm.refl _

lemma Context.Empty.handles (h : ctx.Empty) : ctx.handles = [] := by
  simp only [Context.Empty, Context.held, Prod.mk.injEq] at h
  obtain ⟨hid, hlisten, hsend, hrecv⟩ := h
  rw [Context.handles, hid, hlisten, hsend, hrecv]
  rfl

/-- `getaddrinfo_and_create_ep`. -/
lemma getaddrinfoAndCreateEp_stands (hempty : ctx.Empty)
    (h : Returns (getaddrinfoAndCreateEp.run ctx) t (ret, ctx')) :
    Stands t ctx'.handles ∧ (ret = 0 → ∃ id, Created t ctx' id) := by
  rw [getaddrinfoAndCreateEp, run_get_bind] at h
  obtain ⟨found, t₁, rfl, h₁⟩ := returns_run_perform_bind.mp h
  split at h₁
  · rename_i hne
    obtain ⟨rfl, rfl, rfl⟩ := returns_run_pure.mp h₁
    refine ⟨.balanced ⟨⟨by simp [createFails], by simp [requestFails]⟩, ?_⟩,
      fun hzero => absurd hzero hne⟩
    rw [hempty.handles]
    simp [gotten, released, handedOut, takenBack, hne]
  rename_i hzero
  rw [not_not] at hzero
  obtain ⟨made, t₂, rfl, h₂⟩ := returns_run_perform_bind.mp h₁
  cases made with
  | error e =>
      obtain ⟨rfl, rfl, rfl⟩ := returns_run_pure.mp h₂
      refine ⟨.noEp ⟨⟨.createEp, .error e⟩, by simp, rfl⟩ (by simp [requestFails]) ?_ ?_,
        fun hzero => absurd hzero e.ne⟩
      · simp [gotten, handedOut, hzero]
      · rw [hempty.handles]
        simp [released, takenBack]
  | ok id =>
      dsimp only at h₂
      rw [run_modify_bind] at h₂
      obtain ⟨u, t₃, rfl, h₃⟩ := returns_run_perform_bind.mp h₂
      obtain ⟨rfl, rfl, rfl⟩ := returns_run_pure.mp h₃
      simp only [Context.Empty, Context.held, Prod.mk.injEq] at hempty
      obtain ⟨-, hlisten, hsend, hrecv⟩ := hempty
      have hcreated : Created [⟨.getaddrinfo ctx.serverName ctx.serverPort ctx.server, found⟩,
          ⟨.createEp, .ok id⟩, ⟨.freeaddrinfo, u⟩] { ctx with id := some id } id := by
        refine ⟨?_, ⟨by simp [createFails], by simp [requestFails]⟩, ?_, rfl⟩
        · rw [Context.held, hlisten, hsend, hrecv]
        · simp [gotten, handedOut, hzero]
      exact ⟨.balanced hcreated.balanced, fun _ => ⟨id, hcreated⟩⟩

/-- The part that waits for the client.  Where `rdma_get_request` fails, `listen_id` and `id` name
the same endpoint; else `id` names the new one. -/
lemma requestPart_stands {id : ℕ} (hcreated : Created past ctx id)
    (h : Returns (requestPart.run ctx) t (ret, ctx')) :
    Stands (past ++ t) ctx'.handles ∧ (ret = 0 → Balanced (past ++ t) ctx'.handles ∧
      ctx'.sendMr = none ∧ ctx'.recvMr = none) := by
  have hheld := hcreated.held
  simp only [Context.held, Prod.mk.injEq] at hheld
  obtain ⟨hid, hlisten, hsend, hrecv⟩ := hheld
  rw [requestPart, run_get_bind] at h
  split at h
  swap
  · obtain ⟨rfl, rfl, rfl⟩ := returns_run_pure.mp h
    rw [List.append_nil]
    exact ⟨.balanced hcreated.balanced, fun _ => ⟨hcreated.balanced, hsend, hrecv⟩⟩
  rw [getConnectRequest] at h
  obtain ⟨listened, t₁, rfl, h₁⟩ := returns_run_perform_bind.mp h
  split at h₁
  · rename_i hne
    obtain ⟨rfl, rfl, rfl⟩ := returns_run_pure.mp h₁
    exact ⟨.balanced (hcreated.balanced.plain rfl (by simp [Plain])), fun hzero => absurd hzero hne⟩
  rw [run_modify_bind] at h₁
  obtain ⟨reply, t₂, rfl, h₂⟩ := returns_run_perform_bind.mp h₁
  cases reply with
  | error e =>
      obtain ⟨rfl, rfl, rfl⟩ := returns_run_pure.mp h₂
      refine ⟨.noClient id ⟨⟨.getRequest, .error e⟩, by simp, rfl⟩ ?_ ?_ ?_,
        fun hzero => absurd hzero e.ne⟩
      · exact List.forall_mem_append.mpr ⟨hcreated.fine.creates, by simp [createFails]⟩
      · rw [gotten_append, hcreated.got]
        rfl
      · rw [released_append, hcreated.released, Context.handles, hid, hsend, hrecv]
        rfl
  | ok request =>
      -- the new endpoint, and the one that listens
      have hbalanced : ∀ ctx₁ : Context, ctx₁.held = (some request.id, some id, none, none) →
          Balanced (past ++ [⟨.listen, listened⟩, ⟨.getRequest, .ok request⟩]) ctx₁.handles ∧
            ctx₁.sendMr = none ∧ ctx₁.recvMr = none := by
        intro ctx₁ hheld
        simp only [Context.held, Prod.mk.injEq] at hheld
        obtain ⟨hid₁, hlisten₁, hsend₁, hrecv₁⟩ := hheld
        refine ⟨hcreated.balanced.append ⟨by simp [createFails], by simp [requestFails]⟩ ?_,
          hsend₁, hrecv₁⟩
        rw [Context.handles, hid₁, hlisten₁, hsend₁, hrecv₁, Context.handles, hid, hlisten, hsend,
          hrecv]
        exact List.Perm.refl _
      have hheld₁ : ∀ dlid, Context.held { ctx with
          listenId := ctx.id, id := some request.id, altDlid := dlid } =
            (some request.id, some id, none, none) := by
        intro dlid
        rw [Context.held, hid, hsend, hrecv]
      suffices hend : t₂ = [] ∧ ctx'.held = (some request.id, some id, none, none) by
        obtain ⟨rfl, hheld⟩ := hend
        exact ⟨.balanced (hbalanced ctx' hheld).1, fun _ => hbalanced ctx' hheld⟩
      dsimp only at h₂
      rw [run_modify_bind] at h₂
      split at h₂
      · obtain ⟨rfl, -, rfl⟩ := returns_run_pure.mp h₂
        exact ⟨rfl, hheld₁ _⟩
      rw [run_get_bind] at h₂
      split at h₂
      swap
      · obtain ⟨rfl, -, rfl⟩ := returns_run_pure.mp h₂
        exact ⟨rfl, hheld₁ _⟩
      split at h₂
      · obtain ⟨rfl, -, rfl⟩ := returns_run_pure.mp h₂
        exact ⟨rfl, hheld₁ _⟩
      · rw [run_modify_bind] at h₂
        obtain ⟨rfl, -, rfl⟩ := returns_run_pure.mp h₂
        exact ⟨rfl, hheld₁ _⟩

/-- `reg_mem`. -/
lemma regMem_balanced (hbalanced : Balanced past ctx.handles) (hsend : ctx.sendMr = none)
    (hrecv : ctx.recvMr = none) (h : Returns (regMem.run ctx) t (ret, ctx')) :
    Balanced (past ++ t) ctx'.handles := by
  rw [regMem, run_get_bind] at h
  obtain ⟨sendMr, t₁, rfl, h₁⟩ := returns_run_perform_bind.mp h
  rw [run_modify_bind] at h₁
  split at h₁
  · rename_i hfailed
    obtain ⟨rfl, rfl, rfl⟩ := returns_run_pure.mp h₁
    refine hbalanced.append ⟨by simp [createFails], by simp [requestFails]⟩ ?_
    rw [hfailed, Context.handles, Context.handles, hsend]
    exact List.Perm.refl _
  obtain ⟨recvMr, t₂, rfl, h₂⟩ := returns_run_perform_bind.mp h₁
  rw [run_modify_bind] at h₂
  have hend : t₂ = [] ∧ ctx' = { ctx with sendMr := sendMr, recvMr := recvMr } := by
    split at h₂
    · obtain ⟨rfl, -, rfl⟩ := returns_run_pure.mp h₂
      exact ⟨rfl, rfl⟩
    · obtain ⟨rfl, -, rfl⟩ := returns_run_pure.mp h₂
      exact ⟨rfl, rfl⟩
  obtain ⟨rfl, rfl⟩ := hend
  refine hbalanced.append ⟨by simp [createFails], by simp [requestFails]⟩ ?_
  rw [Context.handles, Context.handles, hsend, hrecv]
  cases sendMr <;> cases recvMr <;> exact List.Perm.refl _

/-- **Up to `reg_mem`**, wherever it is left.  The two failures leave it at once, so that behind
them nothing else is got. -/
theorem prepare_stands (hempty : ctx.Empty) (h : Returns (prepare.run ctx) t (ret, ctx')) :
    Stands t ctx'.handles := by
  obtain ⟨t₁, t₂, ret₁, ctx₁, rfl, h₁, h₂⟩ := returns_run_bind.mp h
  obtain ⟨hstands₁, hmade⟩ := getaddrinfoAndCreateEp_stands hempty h₁
  split at h₂
  · obtain ⟨rfl, -, rfl⟩ := returns_run_pure.mp h₂
    rw [List.append_nil]
    exact hstands₁
  rename_i hzero
  obtain ⟨id, hcreated⟩ := hmade (not_not.mp hzero)
  obtain ⟨t₃, t₄, ret₂, ctx₂, rfl, h₃, h₄⟩ := returns_run_bind.mp h₂
  obtain ⟨hstands₂, hbalanced⟩ := requestPart_stands hcreated h₃
  rw [← List.append_assoc]
  split at h₄
  · obtain ⟨rfl, -, rfl⟩ := returns_run_pure.mp h₄
    rw [List.append_nil]
    exact hstands₂
  rename_i hzero
  obtain ⟨hbalanced₂, hsend₂, hrecv₂⟩ := hbalanced (not_not.mp hzero)
  obtain ⟨t₅, t₆, ret₃, ctx₃, rfl, h₅, h₆⟩ := returns_run_bind.mp h₄
  have hheld₃ := portPart_uses.state _ _ _ _ h₅
  have hbalanced₃ := hbalanced₂.plain hheld₃ (portPart_uses.calls _ _ h₅.canDo)
  rw [← List.append_assoc]
  split at h₆
  · obtain ⟨rfl, -, rfl⟩ := returns_run_pure.mp h₆
    rw [List.append_nil]
    exact .balanced hbalanced₃
  obtain ⟨u, t₇, rfl, h₇⟩ := returns_run_perform_bind.mp h₆
  simp only [Context.held, Prod.mk.injEq] at hheld₃
  obtain ⟨-, -, hsend₃, hrecv₃⟩ := hheld₃
  have hthread : Balanced ((t₁ ++ t₃ ++ t₅) ++ [⟨.pthreadCreate, u⟩]) ctx₃.handles :=
    hbalanced₃.plain rfl (by simp [Plain])
  rw [List.append_cons]
  exact .balanced (regMem_balanced hthread (hsend₃.trans hsend₂) (hrecv₃.trans hrecv₂) h₇)

/-! ## The end of main -/

/-- What a pointer names is given back. -/
lemma release_gives {c : ℕ → Call} {handle : ℕ → Handle} {h : Option ℕ} {u : Unit}
    (hc : ∀ n r, handedOut ⟨c n, r⟩ = none ∧ takenBack ⟨c n, r⟩ = some (handle n) ∧
      createFails ⟨c n, r⟩ = false ∧ requestFails ⟨c n, r⟩ = false)
    (hrun : Returns ((release c h).run ctx) t (u, ctx')) :
    ctx' = ctx ∧ NoneFailed t ∧ gotten t = [] ∧ released t = h.toList.map handle := by
  cases h with
  | none =>
      obtain ⟨rfl, -, rfl⟩ := returns_run_pure.mp hrun
      exact ⟨rfl, ⟨by simp, by simp⟩, rfl, rfl⟩
  | some n =>
      obtain ⟨r, t', rfl, hrun'⟩ := returns_run_perform_bind.mp hrun
      obtain ⟨rfl, -, rfl⟩ := returns_run_pure.mp hrun'
      obtain ⟨hgot, hback, hcreate, hrequest⟩ := hc n r
      refine ⟨rfl, ⟨by simpa using hcreate, by simpa using hrequest⟩, ?_, ?_⟩
      · simp [gotten, hgot]
      · simp [released, hback]

/-- `cleanup`, the block behind `out`. -/
lemma Stands.cleanup (hstands : Stands past ctx.handles)
    (h : Returns (cleanup.run ctx) t ((), ctx')) : Stands (past ++ t) [] := by
  have hmr : ∀ (n : ℕ) (r : Reply (.deregMr n)), handedOut ⟨.deregMr n, r⟩ = none ∧
      takenBack ⟨.deregMr n, r⟩ = some (.mr n) ∧ createFails ⟨.deregMr n, r⟩ = false ∧
        requestFails ⟨.deregMr n, r⟩ = false := fun n r => ⟨rfl, rfl, rfl, rfl⟩
  have hep : ∀ (n : ℕ) (r : Reply (.destroyEp n)), handedOut ⟨.destroyEp n, r⟩ = none ∧
      takenBack ⟨.destroyEp n, r⟩ = some (.ep n) ∧ createFails ⟨.destroyEp n, r⟩ = false ∧
        requestFails ⟨.destroyEp n, r⟩ = false := fun n r => ⟨rfl, rfl, rfl, rfl⟩
  rw [Apm.cleanup, run_get_bind] at h
  obtain ⟨t₁, t₂, u, ctx₁, rfl, h₁, h⟩ := returns_run_bind.mp h
  obtain ⟨rfl, hfine₁, hgot₁, hgiven₁⟩ := release_gives hmr h₁
  obtain ⟨t₂, t₃, u, ctx₂, rfl, h₂, h⟩ := returns_run_bind.mp h
  obtain ⟨rfl, hfine₂, hgot₂, hgiven₂⟩ := release_gives hmr h₂
  obtain ⟨t₃, t₄, u, ctx₃, rfl, h₃, h⟩ := returns_run_bind.mp h
  obtain ⟨rfl, hfine₃, hgot₃, hgiven₃⟩ := release_gives hep h₃
  obtain ⟨rfl, hfine₄, hgot₄, hgiven₄⟩ := release_gives hep h
  rw [Context.handles, ← hgiven₁, ← hgiven₂, ← hgiven₃, ← hgiven₄] at hstands
  have hlast : released t₄ ++ [] = released t₄ := List.append_nil _
  rw [← List.append_assoc, ← List.append_assoc, ← List.append_assoc]
  exact (((hstands.gives hfine₁ hgot₁ rfl).gives hfine₂ hgot₂ rfl).gives hfine₃ hgot₃ rfl).gives
    hfine₄ hgot₄ hlast

/-- How a run of `main` ends: nothing is held any more. -/
lemma main_stands (hempty : ctx.Empty) (h : Returns (main.run ctx) t (ret, ctx')) :
    Stands t [] := by
  obtain ⟨t₁, t₂, ret₁, ctx₁, rfl, h₁, h₂⟩ := returns_run_bind.mp h
  have hstands₁ := prepare_stands hempty h₁
  split at h₂
  · obtain ⟨t₃, t₄, u, ctx₂, rfl, h₃, h₄⟩ := returns_run_bind.mp h₂
    obtain ⟨rfl, -, -⟩ := returns_run_pure.mp h₄
    rw [List.append_nil]
    exact hstands₁.cleanup h₃
  obtain ⟨t₃, t₄, ret₂, ctx₂, rfl, h₃, h₄⟩ := returns_run_bind.mp h₂
  have hstands₂ := hstands₁.plain (establishConnection_uses.state _ _ _ _ h₃)
    (establishConnection_uses.calls _ _ h₃.canDo)
  obtain ⟨t₅, t₆, ret₃, ctx₃, rfl, h₅, h₆⟩ := returns_run_bind.mp h₄
  have hstands₃ := hstands₂.plain (exchange_uses.state _ _ _ _ h₅)
    (exchange_uses.calls _ _ h₅.canDo)
  obtain ⟨t₇, t₈, u, ctx₄, rfl, h₇, h₈⟩ := returns_run_bind.mp h₆
  obtain ⟨rfl, -, -⟩ := returns_run_pure.mp h₈
  rw [List.append_nil, ← List.append_assoc, ← List.append_assoc]
  exact hstands₃.cleanup h₇

/-- **What `main` has got is given back**, on every way out: the same handles, each as often, if and
only if neither `rdma_create_ep` nor `rdma_get_request` has failed.  So where all handles are
different, nothing is given back twice if and only if no `rdma_get_request` has failed.

Where `rdma_create_ep` fails, the addresses are all that was got, and they are not freed.  Where
`rdma_get_request` fails, the endpoint that listens is destroyed twice, since `id` is only written
where it succeeds. -/
theorem main_released_iff (hempty : ctx.Empty) (h : Returns (main.run ctx) t (ret, ctx')) :
    ((released t).Perm (gotten t) ↔
      (∀ e ∈ t, createFails e = false) ∧ ∀ e ∈ t, requestFails e = false) ∧
    ((gotten t).Nodup → ((released t).Nodup ↔ ∀ e ∈ t, requestFails e = false)) ∧
    ((∃ e ∈ t, createFails e = true) → gotten t = [.addresses] ∧ released t = []) ∧
    ((∃ e ∈ t, requestFails e = true) →
      ∃ id, gotten t = [.addresses, .ep id] ∧ released t = [.addresses, .ep id, .ep id]) := by
  have hnever : ∀ {p : Event Call Reply → Bool}, (∀ e ∈ t, p e = false) →
      ¬ ∃ e ∈ t, p e = true := by
    rintro p hnone ⟨e, he, hp⟩
    rw [hnone e he] at hp
    exact absurd hp (by decide)
  have hsome : ∀ {p : Event Call Reply → Bool}, (∃ e ∈ t, p e = true) →
      ¬ ∀ e ∈ t, p e = false := fun hp hnone => hnever hnone hp
  cases main_stands hempty h with
  | balanced hbalanced =>
      obtain ⟨⟨hcreates, hrequests⟩, hall⟩ := hbalanced
      rw [List.append_nil] at hall
      refine ⟨iff_of_true hall ⟨hcreates, hrequests⟩, fun hnodup => ?_, fun hfailed => ?_,
        fun hfailed => ?_⟩
      · exact iff_of_true (hall.nodup_iff.mpr hnodup) hrequests
      · exact absurd hfailed (hnever hcreates)
      · exact absurd hfailed (hnever hrequests)
  | noEp hfailed hrequests hgot hleft =>
      rw [List.append_nil] at hleft
      rw [hgot, hleft]
      refine ⟨iff_of_false (fun hperm => ?_) fun hfine => hsome hfailed hfine.1, fun _ => ?_,
        fun _ => ⟨rfl, rfl⟩, fun hfailed => absurd hfailed (hnever hrequests)⟩
      · exact absurd hperm.length_eq (by decide)
      · exact iff_of_true List.nodup_nil hrequests
  | noClient id hfailed hcreates hgot hleft =>
      rw [List.append_nil] at hleft
      rw [hgot, hleft]
      refine ⟨iff_of_false (fun hperm => ?_) fun hfine => hsome hfailed hfine.2, fun _ => ?_,
        fun hfailed => absurd hfailed (hnever hcreates), fun _ => ⟨id, rfl, rfl⟩⟩
      · exact absurd hperm.length_eq (by simp)
      · exact iff_of_false (by simp) (hsome hfailed)

end

/-- A host on which nobody connects. -/
def lonelyWorld : ℕ → (c : Call) → Reply c × ℕ
  | n, .getRequest => (.error ⟨-1, failed_ne⟩, n)
  | n, c => hostWorld twoPorts [] n c

/-- A server whose `rdma_get_request` fails destroys its one endpoint twice. -/
theorem main_released_lonely : ∃ t ret ctx', Returns (main.run { server := true }) t (ret, ctx') ∧
    gotten t = [.addresses, .ep 0] ∧ released t = [.addresses, .ep 0, .ep 0] ∧
      ¬ (released t).Nodup := by
  obtain ⟨t, ⟨ret, ctx'⟩, hrun, htest⟩ := exists_of_play lonelyWorld 0
    (main.run { server := true })
    (fun t _ => decide (gotten t = [.addresses, .ep 0]) && t.any requestFails) (by decide +kernel)
  rw [Bool.and_eq_true, decide_eq_true_eq, List.any_eq_true] at htest
  obtain ⟨hgot, hfailed⟩ := htest
  have hempty : Context.Empty { server := true } := rfl
  obtain ⟨-, honce, -, htwice⟩ := main_released_iff hempty hrun
  obtain ⟨id, hgot', hreleased⟩ := htwice hfailed
  obtain rfl : id = 0 := by simpa [hgot] using hgot'.symm
  refine ⟨t, ret, ctx', hrun, hgot, hreleased, fun hnodup => ?_⟩
  obtain ⟨e, he, hfails⟩ := hfailed
  rw [(honce (by rw [hgot]; decide)).mp hnodup e he] at hfails
  exact absurd hfails (by decide)

end Apm

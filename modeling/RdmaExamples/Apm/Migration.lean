import RdmaExamples.Apm.PortChoice
import RdmaExamples.Apm.MainRuns

/-!
# The migration by hand

With `-m` a client is to move its connection to the alternate path after so many sends.

The loop compares the number of its round, which counts from zero, with what was asked for, and it
does so behind the send.  So one send more has been completed when the path is moved, and where all
messages were asked for, which the check on the options lets pass, it is not moved at all
(`migration_late`).

* `migrations` — the moves of a run, each with the number of sends that completed before it.
* `MigratedAsAsked` — one move, behind as many sends as were asked for.
* `messageLoop_migrations` — by induction on the rounds that are left, for a loop that starts at
  any number.

The result is about runs in which no call fails; where one does, the loop may be left before it
comes to the move.
-/

namespace Apm

open Programs

/-! ## What is asked for -/

/-- The checks of `main` on its options: the exit status, if one of them fails. -/
def checkOptions (ctx : Context) : Option Int :=
  if ctx.server = false ∧ ctx.serverName = none then some 1
  else if ¬ ((0 < ctx.altDlid ∧ 0 < ctx.altSrcport) ∨ (ctx.altDlid = 0 ∧ ctx.altSrcport = 0)) then
    some 1
  else if ctx.msgCount < ctx.migrateAfter then some 1
  else none

/-- A request to move the connection to the other path. -/
def isMigrate : Event Call Reply → Bool
  | ⟨.migrate, _⟩ => true
  | _ => false

/-- For each request to move the connection, how many sends have been completed, if there were `k`
before. -/
def migrationsFrom : ℕ → Trace → List ℕ
  | _, [] => []
  | k, e :: t =>
      if isMigrate e = true then k :: migrationsFrom k t
      else migrationsFrom (if completesSend e = true then k + 1 else k) t

/-- For each request to move the connection, how many sends have been completed. -/
def migrations (t : Trace) : List ℕ := migrationsFrom 0 t

/-- The connection is moved once, behind as many sends as were asked for. -/
def MigratedAsAsked (ctx : Context) (t : Trace) : Prop := migrations t = [ctx.migrateAfter.toNat]

/-- A call that fails. -/
def callFails : Event Call Reply → Bool
  | ⟨.getaddrinfo _ _ _, ret⟩ => decide (ret ≠ 0)
  | ⟨.createEp, .error _⟩ => true
  | ⟨.listen, ret⟩ => decide (ret ≠ 0)
  | ⟨.getRequest, .error _⟩ => true
  | ⟨.queryDevice, .error _⟩ => true
  | ⟨.queryQp, .error _⟩ => true
  | ⟨.queryPort _, .error _⟩ => true
  | ⟨.regMsgs _, mr⟩ => decide (mr = none)
  | ⟨.postRecv _, ret⟩ => decide (ret ≠ 0)
  | ⟨.accept _, ret⟩ => decide (ret ≠ 0)
  | ⟨.connect _, .error _⟩ => true
  | ⟨.loadPath _, ret⟩ => decide (ret ≠ 0)
  | ⟨.migrate, ret⟩ => decide (ret ≠ 0)
  | ⟨.postSend _, ret⟩ => decide (ret ≠ 0)
  | ⟨.getSendComp, comp⟩ => decide (comp.ret < 0)
  | ⟨.getRecvComp, comp⟩ => decide (comp.ret < 0)
  | _ => false

section

variable {t t' : Trace} {ret : Int} {k n : ℕ} {i : Int} {c ctx ctx' : Context}
  {counts counts' : Counts} {flow : Flow} {e : Event Call Reply}

/-! ## Requests in a run -/

lemma migrationsFrom_append :
    migrationsFrom k (t ++ t') = migrationsFrom k t ++ migrationsFrom (k + completed t) t' := by
  induction t generalizing k with
  | nil => rfl
  | cons e t ih =>
      rw [List.cons_append, migrationsFrom, migrationsFrom]
      split
      · rename_i hmigrate
        have hnone : completesSend e = false := by
          obtain ⟨c, ret⟩ := e
          cases c <;> first | rfl | simp [isMigrate] at hmigrate
        rw [ih, List.cons_append, completed, completed, List.countP_cons_of_neg (by simp [hnone])]
      · rw [ih, completed, completed, List.countP_cons]
        congr 2
        split <;> omega

/-- Where nothing is moved. -/
lemma migrationsFrom_none (h : ∀ e ∈ t, isMigrate e = false) : migrationsFrom k t = [] := by
  induction t generalizing k with
  | nil => rfl
  | cons e t ih =>
      obtain ⟨he, ht⟩ := List.forall_mem_cons.mp h
      rw [migrationsFrom, if_neg (by simp [he])]
      exact ih ht

lemma isMigrate_aside (h : aside e.1 = true) : isMigrate e = false := by
  obtain ⟨c, ret⟩ := e
  cases c <;> first | rfl | simp [aside] at h

lemma fine_of_not_callFails (h : callFails e = false) :
    messageBreaks e = false ∧ pathFails e = false := by
  obtain ⟨c, ret⟩ := e
  cases c <;> first | exact ⟨rfl, rfl⟩ | exact ⟨h, rfl⟩ | exact ⟨rfl, h⟩ | skip
  case queryQp =>
    cases ret with
    | error e => simp [callFails] at h
    | ok qpAttr => exact ⟨rfl, rfl⟩

/-- A part of the message loop in which no call fails goes through. -/
lemma Ended.goesThrough {s r : ℕ} (h : Ended s r flow t) (hok : ∀ e ∈ t, callFails e = false) :
    flow = .next ∧ completed t = s := by
  cases h with
  | next hcompleted => exact ⟨rfl, hcompleted⟩
  | broke _ hbreaks =>
      obtain ⟨e, he, hbreaks⟩ := hbreaks
      rw [(fine_of_not_callFails (hok e he)).1] at hbreaks
      exact absurd hbreaks (by decide)
  | out _ hfails =>
      obtain ⟨e, he, hfails⟩ := hfails
      rw [(fine_of_not_callFails (hok e he)).2] at hfails
      exact absurd hfails (by decide)

/-! ## The message loop -/

/-- A part of the program that moves nothing. -/
abbrev Stays {α : Type} (m : ApmM α) : Prop :=
  Keeps (fun _ => ()) (fun c => ∀ r, isMigrate ⟨c, r⟩ = false) m

lemma Stays.none {α : Type} {m : ApmM α} (h : Stays m) (hrun : CanDo (m.run ctx) t) :
    migrationsFrom k t = [] :=
  migrationsFrom_none fun e he => h.calls _ _ hrun e he e.2

lemma recvPart_stays (turn : Bool) (counts : Counts) : Stays (recvPart turn counts) := by
  have hrecv : Stays recvMsg := by
    refine Keeps.bind Keeps.get fun ctx => Keeps.bind (Keeps.perform fun _ => rfl) fun ret => ?_
    refine Keeps.ite (Keeps.pure _) (Keeps.bind (Keeps.perform fun _ => rfl) fun ret => ?_)
    exact Keeps.ite (Keeps.pure _) (Keeps.pure _)
  refine Keeps.ite (Keeps.pure _) (Keeps.bind hrecv fun ret => ?_)
  exact Keeps.ite (Keeps.pure _) (Keeps.pure _)

lemma sendPart_stays (counts : Counts) : Stays (sendPart counts) := by
  have hsend : Stays sendMsg := by
    refine Keeps.bind Keeps.get fun ctx => Keeps.bind (Keeps.perform fun _ => rfl) fun ret => ?_
    refine Keeps.ite (Keeps.pure _) (Keeps.bind (Keeps.perform fun _ => rfl) fun ret => ?_)
    exact Keeps.ite (Keeps.pure _) (Keeps.pure _)
  refine Keeps.bind (Keeps.perform fun _ => rfl) fun _ => Keeps.bind hsend fun ret => ?_
  exact Keeps.ite (Keeps.pure _) (Keeps.pure _)

/-- `load_alt_path` leaves the context as it is. -/
lemma loadAltPath_stays :
    Keeps (fun ctx : Context => ctx) (fun c => ∀ r, isMigrate ⟨c, r⟩ = false) loadAltPath := by
  refine Keeps.bind (Keeps.perform fun _ => rfl) fun reply => ?_
  cases reply with
  | error e => exact Keeps.pure _
  | ok qpAttr => exact Keeps.bind Keeps.get fun ctx => Keeps.perform fun _ => rfl

lemma migratePart_migrations (hserver : c.server = false)
    (h : Returns ((migratePart c i counts).run ctx) t ((flow, counts'), ctx')) :
    migrationsFrom k t = if i = c.migrateAfter then [k] else [] := by
  rw [migratePart] at h
  split at h
  · rename_i hnot
    obtain ⟨rfl, -, -⟩ := returns_run_pure.mp h
    rw [if_neg fun heq => hnot ⟨hserver, heq⟩]
    rfl
  · rename_i hdue
    rw [not_not] at hdue
    rw [if_pos hdue.2]
    obtain ⟨r, t', rfl, h'⟩ := returns_run_perform_bind.mp h
    split at h'
    · obtain ⟨rfl, -, -⟩ := returns_run_pure.mp h'
      rfl
    · obtain ⟨rfl, -, -⟩ := returns_run_pure.mp h'
      rfl

/-- **One round** of a client moves the path behind its send, if that is due.  The other parts of a
round move no path, and each round completes one send (`Ended`), which is how the place of the move
is counted. -/
theorem messageRound_migrations (hserver : c.server = false) (hok : ∀ e ∈ t, callFails e = false)
    (h : Returns ((messageRound c i counts).run ctx) t ((flow, counts'), ctx')) :
    migrationsFrom k t = if i = c.migrateAfter then [k + 1] else [] := by
  obtain ⟨rfl, -⟩ := (messageRound_ended _ _ _ _ _ _ _ _ h).goesThrough hok
  rcases returns_andThen h with ⟨hne, -⟩ | ⟨t₁, t, counts₁, ctx₁, rfl, h₁, h⟩
  · exact absurd rfl hne
  rcases returns_andThen h with ⟨hne, -⟩ | ⟨t₂, t, counts₂, ctx₂, rfl, h₂, h⟩
  · exact absurd rfl hne
  rcases returns_andThen h with ⟨hne, -⟩ | ⟨t₃, t₄, counts₃, ctx₃, rfl, h₃, h₄⟩
  · exact absurd rfl hne
  obtain ⟨-, hcompleted₁⟩ := (recvPart_ended _ _ _ _ _ _ _ h₁).goesThrough fun e he =>
    hok e (by simp [he])
  obtain ⟨-, hcompleted₂⟩ := (sendPart_ended _ _ _ _ _ _ h₂).goesThrough fun e he =>
    hok e (by simp [he])
  obtain ⟨-, hcompleted₃⟩ := (recvPart_ended _ _ _ _ _ _ _ h₃).goesThrough fun e he =>
    hok e (by simp [he])
  rw [migrationsFrom_append, (recvPart_stays _ _).none h₁.canDo, migrationsFrom_append,
    (sendPart_stays _).none h₂.canDo, migrationsFrom_append, (recvPart_stays _ _).none h₃.canDo,
    hcompleted₁, hcompleted₂, hcompleted₃, migratePart_migrations hserver h₄]
  rfl

/-- **The message loop** moves the path in the round that was asked for, if there is such a round.
By induction on the rounds to go, for a loop that starts with any number `k` of sends completed;
the round that is due is this one, a later one, or none. -/
theorem messageLoop_migrations (hserver : c.server = false) (hok : ∀ e ∈ t, callFails e = false)
    (h : Returns ((messageLoop c n k counts).run ctx) t ((flow, counts'), ctx')) :
    migrationsFrom k t = if (k : Int) ≤ c.migrateAfter ∧ c.migrateAfter < k + n
      then [c.migrateAfter.toNat + 1] else [] := by
  induction n generalizing k counts ctx t with
  | zero =>
      obtain ⟨rfl, -, -⟩ := returns_run_pure.mp h
      rw [if_neg (by omega)]
      rfl
  | succ n ih =>
      obtain ⟨rfl, -⟩ := (messageLoop_ended _ _ _ _ _ _ _ _ _ h).goesThrough hok
      rcases returns_andThen h with ⟨hne, -⟩ | ⟨t₁, t₂, counts₁, ctx₁, rfl, h₁, h₂⟩
      · exact absurd rfl hne
      have hok₁ : ∀ e ∈ t₁, callFails e = false := fun e he => hok e (by simp [he])
      obtain ⟨-, hcompleted⟩ := (messageRound_ended _ _ _ _ _ _ _ _ h₁).goesThrough hok₁
      have hrest := ih (k := k + 1) (fun e he => hok e (by simp [he])) h₂
      rw [migrationsFrom_append, messageRound_migrations hserver hok₁ h₁, hcompleted, hrest]
      push_cast
      by_cases hdue : (k : Int) = c.migrateAfter
      · rw [if_pos hdue, if_neg (by omega), if_pos (by omega), ← hdue]
        simp
      · rw [if_neg hdue, List.nil_append]
        refine if_congr ?_ rfl rfl
        omega

/-! ## A client on which no call fails -/

lemma altPortLoop_ok {qpAttr : QpAttr} (hok : ∀ e ∈ t, callFails e = false) {j : ℕ}
    (h : Returns ((altPortLoop qpAttr n j).run ctx) t (ret, ctx')) : ret = 0 := by
  induction n generalizing j ctx t with
  | zero =>
      obtain ⟨-, rfl, -⟩ := returns_run_pure.mp h
      rfl
  | succ n ih =>
      obtain ⟨reply, t', rfl, h'⟩ := returns_run_perform_bind.mp h
      obtain ⟨hhead, htail⟩ := List.forall_mem_cons.mp hok
      cases reply with
      | error e => exact absurd hhead (by simp [callFails])
      | ok portAttr =>
          dsimp only at h'
          split at h'
          · rw [run_modify_bind] at h'
            split at h'
            · obtain ⟨-, rfl, -⟩ := returns_run_pure.mp h'
              rfl
            · exact ih htail h'
          · exact ih htail h'

lemma getAltPortDetails_ok (hok : ∀ e ∈ t, callFails e = false)
    (h : Returns (getAltPortDetails.run ctx) t (ret, ctx')) : ret = 0 := by
  obtain ⟨reply, t', rfl, h'⟩ := returns_run_perform_bind.mp h
  obtain ⟨hhead, htail⟩ := List.forall_mem_cons.mp hok
  cases reply with
  | error e => exact absurd hhead (by simp [callFails])
  | ok devAttr =>
      dsimp only at h'
      rw [if_neg (capFlags_or_ne _)] at h'
      obtain ⟨reply, t₂, rfl, h₂⟩ := returns_run_perform_bind.mp h'
      obtain ⟨hhead, hloop⟩ := List.forall_mem_cons.mp htail
      cases reply with
      | error e => exact absurd hhead (by simp [callFails])
      | ok qpAttr => exact altPortLoop_ok hloop h₂

lemma getaddrinfoAndCreateEp_ok (hok : ∀ e ∈ t, callFails e = false)
    (h : Returns (getaddrinfoAndCreateEp.run ctx) t (ret, ctx')) :
    ret = 0 ∧ ctx'.server = ctx.server := by
  rw [getaddrinfoAndCreateEp, run_get_bind] at h
  obtain ⟨r, t₁, rfl, h₁⟩ := returns_run_perform_bind.mp h
  obtain ⟨hhead, htail⟩ := List.forall_mem_cons.mp hok
  have hr : r = 0 := by simpa [callFails] using hhead
  rw [if_neg (not_not.mpr hr)] at h₁
  obtain ⟨made, t₂, rfl, h₂⟩ := returns_run_perform_bind.mp h₁
  obtain ⟨hhead, -⟩ := List.forall_mem_cons.mp htail
  cases made with
  | error e => exact absurd hhead (by simp [callFails])
  | ok id =>
      dsimp only at h₂
      rw [run_modify_bind] at h₂
      obtain ⟨u, t₃, rfl, h₃⟩ := returns_run_perform_bind.mp h₂
      obtain ⟨-, rfl, rfl⟩ := returns_run_pure.mp h₃
      exact ⟨rfl, rfl⟩

lemma regMem_ok (hok : ∀ e ∈ t, callFails e = false)
    (h : Returns (regMem.run ctx) t (ret, ctx')) : ret = 0 := by
  rw [regMem, run_get_bind] at h
  obtain ⟨sendMr, t₁, rfl, h₁⟩ := returns_run_perform_bind.mp h
  obtain ⟨hhead, htail⟩ := List.forall_mem_cons.mp hok
  have hsend : sendMr ≠ none := by simpa [callFails] using hhead
  rw [run_modify_bind, if_neg hsend] at h₁
  obtain ⟨recvMr, t₂, rfl, h₂⟩ := returns_run_perform_bind.mp h₁
  obtain ⟨hhead, -⟩ := List.forall_mem_cons.mp htail
  have hrecv : recvMr ≠ none := by simpa [callFails] using hhead
  rw [run_modify_bind, if_neg hrecv] at h₂
  obtain ⟨-, rfl, -⟩ := returns_run_pure.mp h₂
  rfl

/-- A client gets as far as its connection. -/
lemma prepare_ok (hserver : ctx.server = false) (hok : ∀ e ∈ t, callFails e = false)
    (h : Returns (prepare.run ctx) t (ret, ctx')) : ret = 0 := by
  obtain ⟨t₁, t₂, r₁, ctx₁, rfl, h₁, h⟩ := returns_run_bind.mp h
  obtain ⟨hok₁, hok⟩ := List.forall_mem_append.mp hok
  obtain ⟨rfl, hkept⟩ := getaddrinfoAndCreateEp_ok hok₁ h₁
  rw [if_neg (not_not.mpr rfl)] at h
  obtain ⟨t₂, t₃, r₂, ctx₂, rfl, h₂, h⟩ := returns_run_bind.mp h
  obtain ⟨hok₂, hok⟩ := List.forall_mem_append.mp hok
  rw [requestPart, run_get_bind, hkept, hserver, if_neg (by decide)] at h₂
  obtain ⟨-, rfl, -⟩ := returns_run_pure.mp h₂
  rw [if_neg (not_not.mpr rfl)] at h
  obtain ⟨t₃, t₄, r₃, ctx₃, rfl, h₃, h⟩ := returns_run_bind.mp h
  obtain ⟨hok₃, hok⟩ := List.forall_mem_append.mp hok
  have hport : r₃ = 0 := by
    rw [portPart, run_get_bind] at h₃
    split at h₃
    · exact getAltPortDetails_ok hok₃ h₃
    · obtain ⟨-, rfl, -⟩ := returns_run_pure.mp h₃
      rfl
  rw [if_neg (not_not.mpr hport)] at h
  obtain ⟨u, t₅, rfl, h₅⟩ := returns_run_perform_bind.mp h
  exact regMem_ok (List.forall_mem_cons.mp hok).2 h₅

/-- From `load_alt_path` on. -/
lemma transfer_migrations (hserver : ctx.server = false) (hok : ∀ e ∈ t, callFails e = false)
    (h : Returns (transfer.run ctx) t ((flow, counts), ctx')) :
    migrations t = if 0 ≤ ctx.migrateAfter ∧ ctx.migrateAfter < ctx.msgCount.toNat
      then [ctx.migrateAfter.toNat + 1] else [] := by
  obtain ⟨t₁, t₂, ret, ctx₁, rfl, h₁, h₂⟩ := returns_run_bind.mp h
  obtain ⟨hok₁, hok₂⟩ := List.forall_mem_append.mp hok
  have hctx : ctx₁ = ctx := loadAltPath_stays.state _ _ _ _ h₁
  have hnone : migrationsFrom 0 t₁ = [] :=
    migrationsFrom_none fun e he => loadAltPath_stays.calls _ _ h₁.canDo e he e.2
  have hended := loadAltPath_ended h₁
  obtain ⟨hflow, hcompleted⟩ := hended.goesThrough hok₁
  have hret : ¬ ret ≠ 0 := by
    intro hne
    rw [if_pos hne] at hflow
    exact absurd hflow (by simp)
  rw [if_neg hret, messages, run_get_bind, hctx] at h₂
  have hloop := messageLoop_migrations (k := 0) hserver hok₂ h₂
  rw [migrations, migrationsFrom_append, hnone, hcompleted, List.nil_append, hloop]
  simp only [Nat.cast_zero, Int.zero_add]

/-- **The path is moved too late, or not at all**: behind one send more than was asked for, or if
all messages were asked for, never.  So it is never moved when it was to be.

The round that moves the path has the number `migrate_after`, and before it there are that many
rounds, each with a send of its own; its own send comes before the test.  So `migrate_after + 1`
sends have completed by then (`messageLoop_migrations`).  The rounds are numbered below
`msg_count`, so that none has the number `msg_count`. -/
theorem migration_late (hserver : ctx.server = false) (haccepted : checkOptions ctx = none)
    (hafter : 1 ≤ ctx.migrateAfter) (hok : ∀ e ∈ t, callFails e = false)
    (h : Returns (main.run ctx) t (ret, ctx')) :
    ¬ MigratedAsAsked ctx t ∧
    migrations t =
      if ctx.migrateAfter < ctx.msgCount then [ctx.migrateAfter.toNat + 1] else [] := by
  have hle : ctx.migrateAfter ≤ ctx.msgCount := by
    rw [checkOptions] at haccepted
    split at haccepted
    · exact absurd haccepted (by simp)
    · split at haccepted
      · exact absurd haccepted (by simp)
      · split at haccepted
        · exact absurd haccepted (by simp)
        · omega
  have hmigrations : migrations t =
      if ctx.migrateAfter < ctx.msgCount then [ctx.migrateAfter.toNat + 1] else [] := by
    cases main_run h with
    | unprepared hprepare hret =>
        exact absurd (prepare_ok hserver (fun e he => hok e (by simp [he])) hprepare) hret
    | @prepared t₁ t₂ t₃ t₄ ctx₁ ctx₂ _ connected flow _ hprepare hestablish htransfer hclosing
        hoptions _ =>
        obtain ⟨hserver₂, hoptions₂⟩ := Prod.mk.inj hoptions
        obtain ⟨hcount, hmigrate⟩ := Prod.mk.inj hoptions₂
        have hbefore := prepare_beside.calls _ _ hprepare.canDo
        obtain ⟨post, rest, rfl, hrest, -⟩ := establishConnection_trace hestablish
        have hfirst : ∀ e ∈ t₁, isMigrate e = false := fun e he => isMigrate_aside (hbefore e he)
        have hsecond : ∀ e ∈ (⟨.postRecv ctx₁.msgLength, post⟩ :: rest : Trace),
            isMigrate e = false :=
          List.forall_mem_cons.mpr ⟨rfl, fun e he => isMigrate_aside (hrest e he)⟩
        have hlast : ∀ e ∈ t₄, isMigrate e = false :=
          fun e he => isMigrate_aside (aside_of_closing (hclosing e he))
        have hnone : completed (⟨.postRecv ctx₁.msgLength, post⟩ :: rest) = 0 := by
          rw [completed, List.countP_cons_of_neg (by simp [completesSend])]
          exact completed_of_aside hrest
        have htransfer := transfer_migrations (hserver₂.trans hserver)
          (fun e he => hok e (by simp [he])) htransfer
        rw [hcount, hmigrate] at htransfer
        rw [migrations, migrationsFrom_append, migrationsFrom_none hfirst,
          completed_of_aside hbefore,
          migrationsFrom_append, migrationsFrom_none hsecond, hnone, migrationsFrom_append,
          migrationsFrom_none hlast, List.append_nil, List.nil_append, List.nil_append]
        rw [migrations] at htransfer
        rw [htransfer]
        refine if_congr ?_ rfl rfl
        omega
  refine ⟨?_, hmigrations⟩
  rw [MigratedAsAsked, hmigrations]
  split
  · simp
  · simp

end

/-! ## Two clients -/

/-- A client with two messages, which is to migrate behind the first of them, or behind the
second. -/
def migrating (migrateAfter : Int) : Context :=
  { serverName := some [104], msgCount := 2, migrateAfter := migrateAfter }

/-- What is looked at in a run: no call fails, and where the path is moved. -/
def migrationTest (expected : List ℕ) (t : Trace) (r : Int × Context) : Bool :=
  decide (r.1 = 0) && decide (migrations t = expected) && t.all fun e : Event Call Reply =>
    !callFails e

/-- A run of a client, found by evaluation. -/
lemma exists_migrating (migrateAfter : Int) (expected : List ℕ)
    (h : (play (hostWorld twoPorts [0, 0, 0, 0]) 0 (main.run (migrating migrateAfter))).2.any
      (migrationTest expected
        (play (hostWorld twoPorts [0, 0, 0, 0]) 0 (main.run (migrating migrateAfter))).1) = true) :
    ∃ t ctx', Returns (main.run (migrating migrateAfter)) t (0, ctx') ∧
      (∀ e ∈ t, callFails e = false) ∧ migrations t = expected := by
  obtain ⟨t, ⟨ret, ctx'⟩, hrun, htest⟩ := exists_of_play _ _ _ (migrationTest expected) h
  simp only [migrationTest, Bool.and_eq_true, decide_eq_true_eq, List.all_eq_true,
    Bool.not_eq_true'] at htest
  obtain ⟨⟨rfl, hmigrations⟩, hok⟩ := htest
  exact ⟨t, ctx', hrun, hok, hmigrations⟩

/-- The first of two sends is asked for, and two have been completed. -/
theorem migration_late_twoMessages : ∃ t ctx', Returns (main.run (migrating 1)) t (0, ctx') ∧
    ¬ MigratedAsAsked (migrating 1) t ∧ migrations t = [2] := by
  obtain ⟨t, ctx', hrun, hok, -⟩ := exists_migrating 1 [2] (by decide +kernel)
  exact ⟨t, ctx', hrun, migration_late rfl (by decide) (by decide) hok hrun⟩

/-- **Migration at the wrong send, or none**: for `1` of two sends the path is moved behind the
second, and for `2` it is not moved. -/
theorem migrating_notAsAsked :
    (checkOptions (migrating 1) = none ∧ ∃ t ctx', Returns (main.run (migrating 1)) t (0, ctx') ∧
      (∀ e ∈ t, callFails e = false) ∧ migrations t = [2] ∧ ¬ MigratedAsAsked (migrating 1) t) ∧
    checkOptions (migrating 2) = none ∧ ∃ t ctx', Returns (main.run (migrating 2)) t (0, ctx') ∧
      (∀ e ∈ t, callFails e = false) ∧ migrations t = [] ∧ ¬ MigratedAsAsked (migrating 2) t := by
  obtain ⟨t, ctx', hrun, hok, hmigrations⟩ := exists_migrating 1 [2] (by decide +kernel)
  obtain ⟨t', ctx'', hrun', hok', hmigrations'⟩ := exists_migrating 2 [] (by decide +kernel)
  refine ⟨⟨by decide, t, ctx', hrun, hok, hmigrations, ?_⟩,
    by decide, t', ctx'', hrun', hok', hmigrations', ?_⟩
  · rw [MigratedAsAsked, hmigrations]
    decide
  · rw [MigratedAsAsked, hmigrations']
    decide

end Apm

import RdmaExamples.Multithreading.Remote

/-!
# The table of regions

`create_new_mr` fills the next entries of `buff_arr` and `mr_arr`, and counts the entry once it has
told local of the region.  Each way out should deregister what was registered.

* `TableSafe` — what is expected of a run.
* `RunOk` — the runs without the failures that the program does not cope with: a hundred regions
  are enough, a receive fails to be posted only where there is no region, and each region can be
  told of.
* `tableSafe_of_runOk`, from the monitor of the two lists: what was registered, and what was
  deregistered.
-/

namespace Multithreading.Remote

open Programs Monitors

/-! ## What is expected -/

/-- A region that an event registers. -/
def registeredBy : Event Call Reply → Option Mr
  | ⟨.regMr _ _ _, mr⟩ => mr
  | _ => none

/-- A region that an event deregisters. -/
def deregisteredBy : Event Call Reply → Option (Option Mr)
  | ⟨.deregMr mr, _⟩ => some mr
  | _ => none

/-- The regions that were registered, in order. -/
def registered (t : Trace) : List Mr := t.filterMap registeredBy

/-- The regions that were deregistered, in order. -/
def deregistered (t : Trace) : List (Option Mr) := t.filterMap deregisteredBy

/-- The entry of the two arrays that a call stores into. -/
def entryOf : Call → Option ℕ
  | .storeBuff index _ => some index
  | .storeMr index _ => some index
  | _ => none

/-- The entries of `mr_arr` that count. -/
def Globals.table (globals : Globals) : List (Option Mr) :=
  (List.range globals.nextEmptyIdx).map globals.mrArr

/-- The rounds of the command loop that are over. -/
inductive Rounds (fuel : ℕ) (start : Globals) : Trace → Globals → Prop
  | none : Rounds fuel start [] start
  | more {t t₁ t₂ : Trace} {g g₁ g₂ : Globals} {code : Option CommCode} {u : Unit} :
      Rounds fuel start t g → Returns ((getCommCode fuel).run g) t₁ (code, g₁) →
      code ≠ some .exit → Returns ((command fuel code).run g₁) t₂ (u, g₂) →
      Rounds fuel start (t ++ (t₁ ++ t₂)) g₂

/-- The program is before a command: it has received the code of the next round. -/
def BeforeCommand (fuel : ℕ) (start : Globals) (t : Trace) (g : Globals) : Prop :=
  ∃ t₀ t₁ g₀ code, t = t₀ ++ t₁ ∧ Rounds fuel start t₀ g₀ ∧
    Returns ((getCommCode fuel).run g₀) t₁ (code, g)

/-- What is expected of a run: the stores stay inside the arrays, before each command the table
holds what was registered, and when the connection is destroyed each region has been deregistered,
and only once. -/
structure TableSafe (fuel : ℕ) (start : Globals) (t : Trace) : Prop where
  inside : ∀ e ∈ t, ∀ index, entryOf e.1 = some index → index < arrSize
  table : ∀ t₁ t₂ g, t = t₁ ++ t₂ → BeforeCommand fuel start t₁ g →
    g.table = (registered t₁).map some
  released : ∀ t₁ t₂ u, t = t₁ ++ ⟨.destroyEp, u⟩ :: t₂ →
    (deregistered t₁).Perm ((registered t₁).map some)

/-- An event that the program copes with, after `t`. -/
def StepOk (t : Trace) : Event Call Reply → Prop
  | ⟨.malloc _, _⟩ => (registered t).length < arrSize
  | ⟨.postRecv, ret⟩ => ret ≠ 0 → registered t = []
  | ⟨.postSend, ret⟩ => ret = 0
  | ⟨.getSendComp, ret⟩ => 0 ≤ ret
  | _ => True

/-- All events of a run are such. -/
def RunOk (t : Trace) : Prop := ∀ t₁ e t₂, t = t₁ ++ e :: t₂ → StepOk t₁ e

/-! ## The monitor -/

/-- What was registered, and what was deregistered. -/
structure Regions where
  registered : List Mr := []
  deregistered : List (Option Mr) := []

/-- What an event adds. -/
def Regions.after (regions : Regions) (e : Event Call Reply) : Regions :=
  ⟨regions.registered ++ (registeredBy e).toList,
    regions.deregistered ++ (deregisteredBy e).toList⟩

/-- What the program may do next. -/
def Regions.allowed (regions : Regions) (c : Call) : Prop :=
  (∀ index, entryOf c = some index → index < arrSize) ∧
  (c = .destroyEp → regions.deregistered.Perm (regions.registered.map some))

/-- What it may count on. -/
def Regions.expected (regions : Regions) : Event Call Reply → Prop
  | ⟨.malloc _, _⟩ => regions.registered.length < arrSize
  | ⟨.postRecv, ret⟩ => ret ≠ 0 → regions.registered = []
  | ⟨.postSend, ret⟩ => ret = 0
  | ⟨.getSendComp, ret⟩ => 0 ≤ ret
  | _ => True

/-- The monitor of the regions. -/
def regionMonitor : Monitor Call Reply Regions := ⟨Regions.allowed, Regions.expected, Regions.after⟩

section Monitor

variable {t : Trace} {globals g' : Globals} {regions : Regions} {c : Call} {fuel : ℕ}

/-- The record of a run. -/
lemma foldl_after (t : Trace) (regions : Regions) : t.foldl Regions.after regions =
    ⟨regions.registered ++ registered t, regions.deregistered ++ deregistered t⟩ := by
  induction t generalizing regions with
  | nil => simp [registered, deregistered]
  | cons e t ih =>
      rw [List.foldl_cons, ih]
      simp only [Regions.after, registered, deregistered, List.filterMap_cons, List.append_assoc]
      cases registeredBy e <;> cases deregisteredBy e <;> rfl

lemma foldl_after_start (t : Trace) :
    t.foldl Regions.after {} = ⟨registered t, deregistered t⟩ := by
  rw [foldl_after, List.nil_append, List.nil_append]

/-- A call that stores nowhere and does not destroy the connection. -/
def Plain (c : Call) : Prop := entryOf c = none ∧ c ≠ .destroyEp

lemma Plain.allowed (h : Plain c) : regions.allowed c :=
  ⟨fun index hindex => absurd (h.1.symm.trans hindex) (by simp), fun hc => absurd hc h.2⟩

/-- A call that registers nothing and deregisters nothing. -/
lemma unchanged_bind {α : Type} {f : Reply c → RemoteM α} {Q : Regions → α × Globals → Prop}
    (hallowed : regions.allowed c) (hreg : ∀ r, registeredBy ⟨c, r⟩ = none)
    (hdereg : ∀ r, deregisteredBy ⟨c, r⟩ = none)
    (h : ∀ r, regions.expected ⟨c, r⟩ → Obeys regionMonitor Q ((f r).run globals) regions) :
    Obeys regionMonitor Q ((call c >>= f).run globals) regions := by
  refine Obeys.perform_bind hallowed fun r hr => ?_
  have hsame : regionMonitor.after regions ⟨c, r⟩ = regions := by
    show Regions.after regions ⟨c, r⟩ = regions
    rw [Regions.after, hreg, hdereg]
    simp
  rw [hsame]
  exact h r hr

lemma plain_bind {α : Type} {f : Reply c → RemoteM α} {Q : Regions → α × Globals → Prop}
    (hplain : Plain c) (hreg : ∀ r, registeredBy ⟨c, r⟩ = none)
    (hdereg : ∀ r, deregisteredBy ⟨c, r⟩ = none)
    (h : ∀ r, regions.expected ⟨c, r⟩ → Obeys regionMonitor Q ((f r).run globals) regions) :
    Obeys regionMonitor Q ((call c >>= f).run globals) regions :=
  unchanged_bind hplain.allowed hreg hdereg h

/-! ## The ways out

The endpoint is destroyed on every way out, and that is where the monitor asks that each region has
been deregistered once.  What deregisters them is the loop behind the command loop. -/

lemma outDeregRecv_regions (h : regions.deregistered.Perm (regions.registered.map some)) :
    Obeys regionMonitor (fun _ _ => True) (outDeregRecv.run globals) regions := by
  refine plain_bind ⟨rfl, by simp⟩ (fun _ => rfl) (fun _ => rfl) fun _ _ => ?_
  refine Obeys.perform_bind ⟨by simp [entryOf], fun _ => h⟩ fun _ _ => ?_
  exact Obeys.perform (Plain.allowed ⟨rfl, by simp⟩) fun _ _ => trivial

lemma outDeregSend_regions (h : regions.deregistered.Perm (regions.registered.map some)) :
    Obeys regionMonitor (fun _ _ => True) (outDeregSend.run globals) regions := by
  refine Obeys.get_bind (Obeys.ite (fun _ => ?_) fun _ => outDeregRecv_regions h)
  exact plain_bind ⟨rfl, by simp⟩ (fun _ => rfl) (fun _ => rfl) fun _ _ => outDeregRecv_regions h

lemma outDisconnect_regions (h : regions.deregistered.Perm (regions.registered.map some)) :
    Obeys regionMonitor (fun _ _ => True) (outDisconnect.run globals) regions :=
  plain_bind ⟨rfl, by simp⟩ (fun _ => rfl) (fun _ => rfl) fun _ _ => outDeregSend_regions h

/-- The loop at the end deregisters the entries, from the last one down. -/
lemma deregDown_regions : ∀ (n : ℕ) (ret : Int) (regions : Regions),
    Obeys regionMonitor (fun regions' r => r.2 = globals ∧
      regions'.registered = regions.registered ∧ regions'.deregistered =
        regions.deregistered ++ ((List.range n).map globals.mrArr).reverse)
      ((deregDown n ret).run globals) regions
  | 0, _, _ => ⟨rfl, rfl, (List.append_nil _).symm⟩
  | n + 1, _, regions => by
      refine Obeys.get_bind (Obeys.perform_bind (Plain.allowed ⟨rfl, by simp⟩) fun ret _ => ?_)
      refine (deregDown_regions n ret _).weaken ?_
      rintro regions' r ⟨hglobals, hreg, hdereg⟩
      refine ⟨hglobals, hreg.trans (List.append_nil _), hdereg.trans ?_⟩
      rw [List.range_succ, List.map_append, List.reverse_append]
      exact List.append_assoc ..

/-! ## The rounds -/

/-- At the head of the loop: nothing was deregistered, and the table holds what was registered.
The slot that comes next is then the number of regions registered, which is how `next_empty_idx` is
found again. -/
structure Held (regions : Regions) (globals : Globals) : Prop where
  deregistered : regions.deregistered = []
  table : globals.table = regions.registered.map some

lemma Held.nextEmptyIdx (h : Held regions globals) :
    globals.nextEmptyIdx = regions.registered.length := by
  have hlen := congrArg List.length h.table
  rwa [Globals.table, List.length_map, List.length_map, List.length_range] at hlen

lemma waitSendComp_regions : ∀ fuel, Obeys regionMonitor
    (fun regions' r => regions' = regions ∧ r.2 = globals ∧ 0 ≤ r.1)
    ((waitSendComp fuel : RemoteM Int).run globals) regions
  | 0 => trivial
  | fuel + 1 => by
      refine plain_bind ⟨rfl, by simp⟩ (fun _ => rfl) (fun _ => rfl) fun ret hret => ?_
      exact Obeys.ite (fun _ => waitSendComp_regions fuel) fun _ => ⟨rfl, rfl, hret⟩

lemma waitRecvComp_regions : ∀ fuel, Obeys regionMonitor
    (fun regions' r => regions' = regions ∧ r.2 = globals)
    ((waitRecvComp fuel : RemoteM Int).run globals) regions
  | 0 => trivial
  | fuel + 1 => by
      refine plain_bind ⟨rfl, by simp⟩ (fun _ => rfl) (fun _ => rfl) fun ret _ => ?_
      exact Obeys.ite (fun _ => waitRecvComp_regions fuel) fun _ => ⟨rfl, rfl⟩

lemma getCommCode_regions (h : Held regions globals) : Obeys regionMonitor
    (fun regions' r => Held regions' r.2) ((getCommCode fuel).run globals) regions := by
  refine plain_bind ⟨rfl, by simp⟩ (fun _ => rfl) (fun _ => rfl) fun _ _ => ?_
  refine plain_bind ⟨rfl, by simp⟩ (fun _ => rfl) (fun _ => rfl) fun ret hret => ?_
  refine Obeys.ite (fun hfails => ?_) fun _ => ?_
  · -- there is no region to deregister
    have hnone : regions.registered = [] := hret hfails
    refine Obeys.bind (outDeregSend_regions ?_) fun _ _ _ _ => ?_
    · rw [h.deregistered, hnone]
      exact List.Perm.nil
    · exact Obeys.perform_bind (Plain.allowed ⟨rfl, by simp⟩) fun _ _ => Obeys.halt
  · refine Obeys.bind (waitRecvComp_regions fuel) ?_
    rintro _ ret' _ ⟨rfl, rfl⟩
    refine plain_bind ⟨rfl, by simp⟩ (fun _ => rfl) (fun _ => rfl) fun bytes _ => ?_
    refine Obeys.ite (fun _ => ?_) fun _ => h
    refine plain_bind ⟨rfl, by simp⟩ (fun _ => rfl) (fun _ => rfl) fun size _ => ?_
    exact Obeys.modify_bind ⟨h.deregistered, h.table⟩

/-- A new entry. -/
lemma table_update (mr : Mr) : Globals.table { globals with
      mrArr := Function.update globals.mrArr globals.nextEmptyIdx (some mr)
      nextEmptyIdx := globals.nextEmptyIdx + 1 } = globals.table ++ [some mr] := by
  have hbelow : ∀ i ∈ List.range globals.nextEmptyIdx,
      Function.update globals.mrArr globals.nextEmptyIdx (some mr) i = globals.mrArr i :=
    fun i hi => Function.update_of_ne (List.mem_range.mp hi).ne _ _
  rw [Globals.table, List.range_succ, List.map_append, List.map_congr_left hbelow,
    List.map_singleton]
  dsimp only
  rw [Function.update_self, Globals.table]

/-- **A command keeps the table.**  The region goes into the first empty entry, which is as far
from the start as there are regions; and the entry is counted once the region has been told of. -/
lemma command_regions {code : Option CommCode} (h : Held regions globals) : Obeys regionMonitor
    (fun regions' r => Held regions' r.2) ((command fuel code).run globals) regions := by
  have hindex := h.nextEmptyIdx
  refine Obeys.get_bind (Obeys.ite (fun _ => ?_) fun _ => h)
  refine Obeys.get_bind
    (plain_bind ⟨rfl, by simp⟩ (fun _ => rfl) (fun _ => rfl) fun buff hroom => ?_)
  have hstore : ∀ c regs, entryOf c = some globals.nextEmptyIdx → c ≠ .destroyEp →
      Regions.allowed regs c := by
    intro c regs hentry hne
    refine ⟨fun index hc => ?_, fun hc => absurd hc hne⟩
    rw [← Option.some.inj (hentry.symm.trans hc), hindex]
    exact hroom
  refine unchanged_bind (hstore _ _ rfl (by simp)) (fun _ => rfl) (fun _ => rfl) fun _ _ =>
    Obeys.ite (fun _ => trivial) fun _ => ?_
  refine Obeys.perform_bind (Plain.allowed ⟨rfl, by simp⟩) fun mr _ => ?_
  refine unchanged_bind (hstore _ _ rfl (by simp)) (fun _ => rfl) (fun _ => rfl) fun _ _ => ?_
  refine Obeys.modify_bind ?_
  cases mr with
  | none => exact plain_bind ⟨rfl, by simp⟩ (fun _ => rfl) (fun _ => rfl) fun _ _ => Obeys.halt
  | some mr =>
      refine plain_bind ⟨rfl, by simp⟩ (fun _ => rfl) (fun _ => rfl) fun _ _ => ?_
      refine plain_bind ⟨rfl, by simp⟩ (fun _ => rfl) (fun _ => rfl) fun _ _ => ?_
      refine plain_bind ⟨rfl, by simp⟩ (fun _ => rfl) (fun _ => rfl) fun ret hret =>
        Obeys.ite (fun hfails => absurd hret hfails) fun _ => ?_
      refine Obeys.bind (waitSendComp_regions fuel) ?_
      rintro _ ret' _ ⟨rfl, rfl, hret'⟩
      refine Obeys.ite (fun hneg => absurd hret' (not_le.mpr hneg)) fun _ => Obeys.modify ?_
      refine ⟨?_, ?_⟩
      · show regions.deregistered ++ [] = []
        rw [h.deregistered, List.append_nil]
      · show _ = (regions.registered ++ [mr]).map some
        rw [List.map_append, ← h.table]
        exact table_update mr

lemma commandLoop_regions : ∀ (rounds : ℕ) {globals : Globals} {regions : Regions},
    Held regions globals → Obeys regionMonitor (fun regions' r => Held regions' r.2)
      ((commandLoop fuel rounds).run globals) regions
  | 0, _, _, _ => trivial
  | rounds + 1, _, _, h => by
      refine Obeys.bind (getCommCode_regions h) fun _ code _ h' =>
        Obeys.ite (fun _ => h') fun _ => ?_
      exact Obeys.bind (command_regions h') fun _ _ _ h'' => commandLoop_regions rounds h''

/-- **The program keeps to the monitor.**  What the last loop deregisters is the table from its end
to its start, which is a permutation of what was registered. -/
theorem remoteNodeRun_regions (rounds : ℕ) (h : Held regions globals) :
    Obeys regionMonitor (fun _ _ => True) ((remoteNodeRun fuel rounds).run globals) regions := by
  refine Obeys.bind (commandLoop_regions rounds h) fun regions' _ globals' h' => ?_
  refine Obeys.get_bind (Obeys.bind (deregDown_regions _ _ _) ?_)
  rintro regions'' ret _ ⟨rfl, hreg, hdereg⟩
  refine Obeys.bind (outDisconnect_regions ?_) fun _ _ _ _ => trivial
  rw [hdereg, hreg, h'.deregistered, List.nil_append, ← h'.table]
  exact List.reverse_perm _

/-! ## The result -/

/-- A run with no failure that the program does not cope with has the replies that the monitor
counts on. -/
lemma RunOk.countsOn (h : RunOk t) : regionMonitor.CountsOn {} t := by
  refine Monitor.countsOn_of_forall fun t₁ e t₂ ht => ?_
  have hstep := h t₁ e t₂ ht
  show Regions.expected (t₁.foldl Regions.after {}) e
  rw [foldl_after_start]
  obtain ⟨c, r⟩ := e
  cases c <;> exact hstep

lemma RunOk.append_left {t' : Trace} (h : RunOk (t ++ t')) : RunOk t :=
  fun t₁ e t₂ ht => h t₁ e (t₂ ++ t') (by rw [ht]; simp)

/-- Before each round the table holds what was registered. -/
lemma Rounds.held (h : Rounds fuel globals t g') (hstart : Held {} globals) (hok : RunOk t) :
    Held (t.foldl Regions.after {}) g' := by
  induction h with
  | none => exact hstart
  | more _ h₁ _ h₂ ih =>
      have hheld := ih hok.append_left
      rw [List.foldl_append, List.foldl_append]
      have hcounts := (Monitor.countsOn_append.mp hok.countsOn).2
      obtain ⟨hcounts₁, hcounts₂⟩ := Monitor.countsOn_append.mp hcounts
      have hreceived := ((getCommCode_regions hheld).steps h₁ hcounts₁).2
      exact ((command_regions hreceived).steps h₂ hcounts₂).2

/-- The globals to start with. -/
def Globals.start (rmSize : UInt64) (sendInline : Bool) : Globals where
  rmSize := rmSize
  sendInline := sendInline

/-- **The table of regions.**  In every run all of whose failures the program copes with, the stores
stay inside the arrays, the table holds what was registered, and on every way out each region is
deregistered once.

The program keeps to a monitor of two lists (`regionMonitor`).  Between two commands the table is
the list of what was registered, and the counter its length (`Held`); so the next entry is inside
as long as fewer than a hundred are registered.  A region is counted only behind the message that
tells of it: that is where a failure would leave one uncounted, and why `RunOk` rules it out.  On
the way out the table is gone through up to the counter. -/
theorem tableSafe_of_runOk (fuel rounds : ℕ) (rmSize : UInt64) (sendInline : Bool) (t : Trace)
    (h : CanDo ((remoteNodeRun fuel rounds).run (Globals.start rmSize sendInline)) t)
    (hok : RunOk t) : TableSafe fuel (Globals.start rmSize sendInline) t := by
  have hstart : Held {} (Globals.start rmSize sendInline) := ⟨rfl, rfl⟩
  obtain ⟨q, hsteps⟩ := h
  have hallows := ((remoteNodeRun_regions rounds hstart).steps hsteps hok.countsOn).1
  have hat : ∀ t₁ e t₂, t = t₁ ++ e :: t₂ → Regions.allowed (t₁.foldl Regions.after {}) e.1 := by
    rintro t₁ e t₂ rfl
    exact hallows.at
  constructor
  · intro e he index hindex
    obtain ⟨t₁, t₂, ht⟩ := List.append_of_mem he
    exact (hat t₁ e t₂ ht).1 index hindex
  · rintro t₁ t₂ g rfl ⟨t₃, t₄, g₀, code, rfl, hrounds, hcode⟩
    have hheld := hrounds.held hstart hok.append_left.append_left
    have hcounts := (Monitor.countsOn_append.mp hok.append_left.countsOn).2
    have hbefore : Held (t₄.foldl Regions.after (t₃.foldl Regions.after {})) g :=
      ((getCommCode_regions hheld).steps hcode hcounts).2
    rw [← List.foldl_append, foldl_after_start] at hbefore
    exact hbefore.table
  · intro t₁ t₂ u ht
    have hreleased := (hat t₁ _ t₂ ht).2 rfl
    rw [foldl_after_start] at hreleased
    exact hreleased

/-! ### Two runs -/

/-- A verb that could leave a region behind has succeeded. -/
def succeeds : Event Call Reply → Bool
  | ⟨.postRecv, ret⟩ => decide (ret = 0)
  | ⟨.postSend, ret⟩ => decide (ret = 0)
  | ⟨.getSendComp, ret⟩ => decide (0 ≤ ret)
  | _ => true

/-- A run with fewer than a hundred regions in which these verbs succeed. -/
lemma runOk_of_succeeds (h : t.all succeeds = true) (hroom : (registered t).length < arrSize) :
    RunOk t := by
  rintro t₁ ⟨c, r⟩ t₂ rfl
  rw [List.all_append, List.all_cons, Bool.and_eq_true, Bool.and_eq_true] at h
  have hstep := h.2.1
  have hlen : (registered t₁).length < arrSize := by
    rw [registered, List.filterMap_append, List.length_append] at hroom
    exact (Nat.le_add_right _ _).trans_lt hroom
  cases c with
  | malloc size => exact hlen
  | postRecv => exact fun hne => absurd (of_decide_eq_true hstep) hne
  | postSend =>
      have hret : r = (0 : Int) := of_decide_eq_true hstep
      exact hret
  | getSendComp =>
      have hret : (0 : Int) ≤ r := of_decide_eq_true hstep
      exact hret
  | _ => trivial

/-- Local sends these codes, and a receive cannot be posted any more after them. -/
def sends (codes : List CommCode) : (c : Call) → Reply c × List CommCode
  | .postRecv => (if codes = [] then (-1 : Int) else (0 : Int), codes)
  | .loadRecv off n =>
      if off = 0 then (codeBytes (codes.headD .exit), codes.tail) else (zeros n, codes)
  | c => (goodReply [] 4096 none c, codes)

/-- One region, and an EXIT. -/
theorem tableSafe_of_runOk_oneRegion : ∃ t,
    CanDo ((remoteNodeRun 2 2).run (Globals.start 0 true)) t ∧ registered t = [⟨4096, 0, 7⟩] ∧
      TableSafe 2 (Globals.start 0 true) t := by
  obtain ⟨t, r, hrun, htest⟩ := exists_of_play sends [.regMr, .exit]
    ((remoteNodeRun 2 2).run (Globals.start 0 true))
    (fun t _ => t.all succeeds && decide (registered t = [⟨4096, 0, 7⟩])) (by decide +kernel)
  rw [Bool.and_eq_true, decide_eq_true_eq] at htest
  refine ⟨t, hrun.canDo, htest.2, tableSafe_of_runOk 2 2 0 true t hrun.canDo ?_⟩
  exact runOk_of_succeeds htest.1 (by rw [htest.2]; decide)

/-- The connection is destroyed. -/
def isDestroy : Event Call Reply → Bool
  | ⟨.destroyEp, _⟩ => true
  | _ => false

/-- What was released when the connection is destroyed for the first time. -/
lemma TableSafe.atDestroy {start : Globals} (h : TableSafe fuel start t)
    (hdestroy : t.any isDestroy = true) :
    (deregistered (t.takeWhile fun e => !isDestroy e)).Perm
      ((registered (t.takeWhile fun e => !isDestroy e)).map some) := by
  have hsplit := List.takeWhile_append_dropWhile (p := fun e => !isDestroy e) (l := t)
  cases hdrop : t.dropWhile fun e => !isDestroy e with
  | nil =>
      obtain ⟨e, he, hd⟩ := List.any_eq_true.mp hdestroy
      have hnot := List.dropWhile_eq_nil_iff.mp hdrop e he
      rw [hd] at hnot
      exact absurd hnot (by decide)
  | cons e rest =>
      have hhead := List.head?_dropWhile_not (fun e => !isDestroy e) t
      rw [hdrop] at hhead hsplit
      obtain ⟨c, u⟩ := e
      cases c with
      | destroyEp => exact h.released _ rest u hsplit.symm
      | _ => exact absurd hhead (by simp [isDestroy])

/-- **A region is left behind**: it is registered, and then no receive can be posted. -/
theorem failedPost_leavesRegion : ∃ t,
    CanDo ((remoteNodeRun 2 2).run (Globals.start 0 true)) t ∧
      ¬ TableSafe 2 (Globals.start 0 true) t := by
  refine ⟨_, canDo_play sends [.regMr] _, fun hsafe => ?_⟩
  have hperm := hsafe.atDestroy (by decide +kernel)
  revert hperm
  decide +kernel

end Monitor

end Multithreading.Remote

import RdmaExamples.Apm.AltPath

/-!
# The choice of an alternate port

`get_alt_port_details` is to fail on a device without automatic path migration, and otherwise to
record the lowest active port other than the one in use, if there is such a port.

What it does is one of three things (`Outcome`): it finds the lowest alternate port; it looks at all
ports and finds none, or a query fails on the way.  The test of the capability never stops it
(`capFlags_or_ne`), and the port in use is recorded when the loop comes past it, so that it stays in
the context wherever no alternate port follows.  `portChosen_iff` says for which devices, and for
which failing queries, that does no harm.

* `PortChosen` — what the header of the function says: it fails and records nothing on a device
  that cannot migrate; else, if no query fails, it records the lowest alternate port or leaves the
  context alone.
* `Passed` — what the loop has recorded when it has looked at the first ports, by induction on
  them.
* `Outcome` — the three endings, with what is recorded in each.
* `ChoiceIsSafe` — the condition, on the device and on which query fails.
-/

namespace Apm

open Programs

/-! ## Devices -/

/-- A device, with its ports from port 1 on, and the port that the connection uses. -/
structure Device where
  capFlags : UInt32
  ports : List PortAttr
  portNum : UInt8

/-- The device has automatic path migration. -/
def Device.Migrates (d : Device) : Prop := d.capFlags &&& autoPathMig ≠ 0

/-- Port `i` is there, and active. -/
def Device.IsActive (d : Device) (i : ℕ) (port : PortAttr) : Prop :=
  1 ≤ i ∧ d.ports[i - 1]? = some port ∧ port.state = .active

/-- Port `i` is active, and not the one that the connection uses. -/
def Device.IsAlternate (d : Device) (i : ℕ) (port : PortAttr) : Prop :=
  d.IsActive i port ∧ i ≠ d.portNum.toNat

/-- Port `i` is the alternate port with the lowest number. -/
def Device.IsLowest (d : Device) (i : ℕ) (port : PortAttr) : Prop :=
  d.IsAlternate i port ∧ ∀ j port', d.IsAlternate j port' → i ≤ j

/-- What a device answers, if a query does not fail. -/
def Device.answers (d : Device) : Event Call Reply → Bool
  | ⟨.queryDevice, .ok devAttr⟩ =>
      decide (devAttr.deviceCapFlags = d.capFlags ∧ devAttr.physPortCnt.toNat = d.ports.length)
  | ⟨.queryQp, .ok qpAttr⟩ => decide (qpAttr.portNum = d.portNum)
  | ⟨.queryPort i, .ok portAttr⟩ => decide (1 ≤ i ∧ d.ports[i - 1]? = some portAttr)
  | _ => true

/-- A query that fails. -/
def queryFails : Event Call Reply → Bool
  | ⟨.queryDevice, .error _⟩ => true
  | ⟨.queryQp, .error _⟩ => true
  | ⟨.queryPort _, .error _⟩ => true
  | _ => false

/-- How many ports have been looked at before a query. -/
def portsSeen : Call → ℕ
  | .queryPort i => i - 1
  | _ => 0

/-- What `get_alt_port_details` is to do. -/
def PortChosen (d : Device) (ctx : Context) (t : Trace) (ret : Int) (ctx' : Context) : Prop :=
  (¬ d.Migrates → ret ≠ 0 ∧ ctx' = ctx) ∧
  (d.Migrates → (∀ e ∈ t, queryFails e = false) → ret = 0 ∧
    ((∃ i port, d.IsLowest i port ∧ ctx'.altSrcport.toNat = i ∧ ctx'.myAltDlid = port.lid) ∨
      ((∀ i port, ¬ d.IsAlternate i port) ∧
        ctx'.altSrcport = ctx.altSrcport ∧ ctx'.myAltDlid = ctx.myAltDlid)))

/-- The port in use is active, and the context does not name it yet. -/
def Device.Records (d : Device) (ctx : Context) : Prop :=
  ∃ port, d.IsActive d.portNum.toNat port ∧
    ¬ (ctx.altSrcport = d.portNum ∧ ctx.myAltDlid = port.lid)

/-- Where `get_alt_port_details` does what it is to do: on a device that migrates, if a query fails,
or there is an alternate port, or the port in use is not recorded; on any other device, only if a
query fails before the port in use is recorded. -/
def ChoiceIsSafe (d : Device) (ctx : Context) (t : Trace) : Prop :=
  (d.Migrates → (∃ e ∈ t, queryFails e = true) ∨ (∃ i port, d.IsAlternate i port) ∨
    ¬ d.Records ctx) ∧
  (¬ d.Migrates → ∃ e ∈ t, queryFails e = true ∧
    (¬ d.Records ctx ∨ portsSeen e.1 < d.portNum.toNat))

section

variable {d : Device} {ctx ctx₁ ctx' : Context} {t : Trace} {ret : Int}

/-! ## What is recorded on the way

A port that is active is recorded before it is compared with the one in use.  So the port in use is
recorded when the loop comes past it, and overwritten if an alternate port follows. -/

/-- The context when the ports up to `k` have been looked at, and none of them was an alternate one:
it names the port in use, if that is active and not behind `k`. -/
def Passed (d : Device) (ctx : Context) (k : ℕ) (ctx' : Context) : Prop :=
  (ctx' = ctx ∧ ∀ port, d.IsActive d.portNum.toNat port → k < d.portNum.toNat) ∨
  ∃ port, d.IsActive d.portNum.toNat port ∧ d.portNum.toNat ≤ k ∧
    ctx' = ctx.setAlt d.portNum.toNat port.lid

lemma Passed.start : Passed d ctx 0 ctx := by
  left
  refine ⟨rfl, fun port hactive => ?_⟩
  exact hactive.1

/-- A port cannot be two. -/
lemma Device.IsActive.unique {i : ℕ} {port port' : PortAttr} (h : d.IsActive i port)
    (h' : d.IsActive i port') : port = port' := by
  have heq := h.2.1.symm.trans h'.2.1
  exact Option.some.inj heq

/-- A port that is not active. -/
lemma Passed.inactive {i : ℕ} (hi : 1 ≤ i) (h : Passed d ctx (i - 1) ctx₁)
    (hnone : ∀ port, ¬ d.IsActive i port) : Passed d ctx i ctx₁ := by
  rcases h with ⟨rfl, hlt⟩ | ⟨port, hactive, hle, hctx⟩
  · left
    refine ⟨rfl, fun port hactive => ?_⟩
    have hne : d.portNum.toNat ≠ i := by
      intro heq
      rw [heq] at hactive
      exact hnone port hactive
    have := hlt port hactive
    omega
  · exact Or.inr ⟨port, hactive, by omega, hctx⟩

/-- The port in use. -/
lemma Passed.inUse {i : ℕ} {port : PortAttr} (h : Passed d ctx (i - 1) ctx₁)
    (hactive : d.IsActive i port) (hi : d.portNum.toNat = i) :
    Passed d ctx i (ctx₁.setAlt i port.lid) := by
  right
  rw [← hi] at hactive
  refine ⟨port, hactive, hi.le, ?_⟩
  rcases h with ⟨rfl, -⟩ | ⟨port', -, -, rfl⟩
  · rw [hi]
  · rw [hi]
    rfl

lemma setAlt_eq_iff {lid : UInt16} :
    ctx.setAlt d.portNum.toNat lid = ctx ↔ ctx.altSrcport = d.portNum ∧ ctx.myAltDlid = lid := by
  rw [Context.setAlt, UInt8.ofNat_toNat]
  constructor
  · intro h
    have hsrcport := congrArg Context.altSrcport h
    have hmine := congrArg Context.myAltDlid h
    exact ⟨hsrcport.symm, hmine.symm⟩
  · rintro ⟨hsrcport, hmine⟩
    rw [← hsrcport, ← hmine]

/-- **When the context is as it was**: nothing is recorded, or not yet. -/
lemma Passed.eq_iff {k : ℕ} (h : Passed d ctx k ctx') :
    ctx' = ctx ↔ ¬ d.Records ctx ∨ k < d.portNum.toNat := by
  rcases h with ⟨rfl, hlt⟩ | ⟨port, hactive, hle, rfl⟩
  · refine iff_of_true rfl ?_
    by_contra hcon
    push Not at hcon
    obtain ⟨⟨port, hactive, -⟩, hle⟩ := hcon
    have := hlt port hactive
    omega
  · rw [setAlt_eq_iff]
    constructor
    · intro heq
      left
      rintro ⟨port', hactive', hne⟩
      rw [hactive.unique hactive'] at heq
      exact hne heq
    · rintro (hnot | hlt)
      · by_contra hne
        exact hnot ⟨port, hactive, hne⟩
      · omega

/-- The two fields are all that is recorded. -/
lemma Passed.eq_of_fields {k : ℕ} (h : Passed d ctx k ctx')
    (hsrcport : ctx'.altSrcport = ctx.altSrcport) (hmine : ctx'.myAltDlid = ctx.myAltDlid) :
    ctx' = ctx := by
  rcases h with ⟨rfl, -⟩ | ⟨port, -, -, rfl⟩
  · rfl
  · rw [setAlt_eq_iff]
    rw [Context.setAlt, UInt8.ofNat_toNat] at hsrcport
    exact ⟨hsrcport.symm, hmine.symm⟩

/-! ## The three outcomes -/

/-- How `get_alt_port_details` ends, or a part of it. -/
inductive Outcome (d : Device) (ctx : Context) (t : Trace) (ret : Int) (ctx' : Context) : Prop
  | found (i : ℕ) (port : PortAttr) (hlowest : d.IsLowest i port) (hret : ret = 0)
      (hsrcport : ctx'.altSrcport.toNat = i) (hmine : ctx'.myAltDlid = port.lid)
      (hquiet : ∀ e ∈ t, queryFails e = false)
  | none (hnone : ∀ i port, ¬ d.IsAlternate i port) (hret : ret = 0)
      (hpassed : Passed d ctx d.ports.length ctx') (hquiet : ∀ e ∈ t, queryFails e = false)
  | failed (e : Event Call Reply) (hmem : e ∈ t) (hfails : queryFails e = true)
      (honly : ∀ e' ∈ t, queryFails e' = true → e' = e) (hret : ret ≠ 0)
      (hpassed : Passed d ctx (portsSeen e.1) ctx')

/-- A query that does not fail, in front. -/
lemma Outcome.cons {e : Event Call Reply} (he : queryFails e = false)
    (h : Outcome d ctx t ret ctx') : Outcome d ctx (e :: t) ret ctx' := by
  cases h with
  | found i port hlowest hret hsrcport hmine hquiet =>
      exact .found i port hlowest hret hsrcport hmine (List.forall_mem_cons.mpr ⟨he, hquiet⟩)
  | none hnone hret hpassed hquiet =>
      exact .none hnone hret hpassed (List.forall_mem_cons.mpr ⟨he, hquiet⟩)
  | failed e₁ hmem hfails honly hret hpassed =>
      refine .failed e₁ (List.mem_cons_of_mem _ hmem) hfails ?_ hret hpassed
      intro e' he' hfails'
      rcases List.mem_cons.mp he' with rfl | he'
      · rw [he] at hfails'
        exact absurd hfails' (by decide)
      · exact honly e' he' hfails'

/-- A query that fails is the last one. -/
lemma Outcome.last {e : Event Call Reply} (hfails : queryFails e = true) (hret : ret ≠ 0)
    (hpassed : Passed d ctx (portsSeen e.1) ctx') : Outcome d ctx [e] ret ctx' := by
  refine .failed e (List.mem_singleton_self e) hfails ?_ hret hpassed
  intro e' he' _
  exact List.mem_singleton.mp he'

/-- The loop, where the ports below `i` are behind it. -/
lemma altPortLoop_outcome {qpAttr : QpAttr} (hqp : qpAttr.portNum = d.portNum)
    (hlen : d.ports.length < 256) {n i : ℕ} (hi : 1 ≤ i) (hrange : i + n = d.ports.length + 1)
    (hbelow : ∀ j port, d.IsAlternate j port → i ≤ j) (hpassed : Passed d ctx (i - 1) ctx₁)
    (hanswers : ∀ e ∈ t, d.answers e = true)
    (h : Returns ((altPortLoop qpAttr n i).run ctx₁) t (ret, ctx')) :
    Outcome d ctx t ret ctx' := by
  induction n generalizing i ctx₁ t with
  | zero =>
      obtain ⟨rfl, rfl, rfl⟩ := returns_run_pure.mp h
      have hlast : i - 1 = d.ports.length := by omega
      rw [hlast] at hpassed
      refine .none (fun j port halternate => ?_) rfl hpassed (by simp)
      obtain ⟨hlt, -⟩ := List.getElem?_eq_some_iff.mp halternate.1.2.1
      have := hbelow j port halternate
      omega
  | succ n ih =>
      obtain ⟨reply, t', rfl, h'⟩ := returns_run_perform_bind.mp h
      have hhead := hanswers _ (List.mem_cons_self ..)
      have htail : ∀ e ∈ t', d.answers e = true :=
        fun e he => hanswers e (List.mem_cons_of_mem _ he)
      cases reply with
      | error e =>
          obtain ⟨rfl, rfl, rfl⟩ := returns_run_pure.mp h'
          exact Outcome.last rfl e.ne hpassed
      | ok portAttr =>
          obtain ⟨-, hport⟩ := of_decide_eq_true hhead
          refine Outcome.cons rfl ?_
          dsimp only at h'
          split at h'
          · rename_i hstate
            have hactive : d.IsActive i portAttr := ⟨hi, hport, hstate⟩
            rw [run_modify_bind] at h'
            split at h'
            · rename_i hne
              obtain ⟨rfl, rfl, rfl⟩ := returns_run_pure.mp h'
              rw [hqp] at hne
              refine .found i portAttr ⟨⟨hactive, hne.symm⟩, hbelow⟩ rfl ?_ rfl (by simp)
              exact Nat.mod_eq_of_lt (by omega)
            · rename_i heq
              rw [hqp, not_not] at heq
              refine ih (i := i + 1) (by omega) (by omega) ?_ (hpassed.inUse hactive heq) htail h'
              intro j port halternate
              have hle := hbelow j port halternate
              have hne := halternate.2
              omega
          · rename_i hstate
            have hnone : ∀ port, ¬ d.IsActive i port := by
              rintro port ⟨-, hport', hactive⟩
              rw [hport] at hport'
              exact hstate (Option.some.inj hport' ▸ hactive)
            refine ih (i := i + 1) (by omega) (by omega) ?_ (hpassed.inactive hi hnone) htail h'
            intro j port halternate
            have hle := hbelow j port halternate
            rcases Nat.eq_or_lt_of_le hle with rfl | hlt
            · exact absurd halternate.1 (hnone port)
            · exact hlt

/-- **The capability is never missed**: with `|`, the flag that is tested for is set. -/
lemma capFlags_or_ne (flags : UInt32) : flags ||| autoPathMig ≠ 0 := by
  intro h
  have hbit := congrArg (fun word : UInt32 => word.toBitVec.getLsbD 4) h
  simp [autoPathMig] at hbit

/-- What `get_alt_port_details` does. -/
theorem getAltPortDetails_outcome (hanswers : ∀ e ∈ t, d.answers e = true)
    (h : Returns (getAltPortDetails.run ctx) t (ret, ctx')) : Outcome d ctx t ret ctx' := by
  obtain ⟨reply, t', rfl, h'⟩ := returns_run_perform_bind.mp h
  cases reply with
  | error e =>
      obtain ⟨rfl, rfl, rfl⟩ := returns_run_pure.mp h'
      exact Outcome.last rfl e.ne Passed.start
  | ok devAttr =>
      obtain ⟨-, hcount⟩ := of_decide_eq_true (hanswers _ (List.mem_cons_self ..))
      refine Outcome.cons rfl ?_
      dsimp only at h'
      rw [if_neg (capFlags_or_ne _)] at h'
      obtain ⟨reply, t₂, rfl, h₂⟩ := returns_run_perform_bind.mp h'
      cases reply with
      | error e =>
          obtain ⟨rfl, rfl, rfl⟩ := returns_run_pure.mp h₂
          exact Outcome.last rfl e.ne Passed.start
      | ok qpAttr =>
          refine Outcome.cons rfl ?_
          have hqp := of_decide_eq_true (hanswers ⟨.queryQp, .ok qpAttr⟩ (by simp))
          have hlen : d.ports.length < 256 := hcount ▸ devAttr.physPortCnt.toNat_lt
          refine altPortLoop_outcome hqp hlen le_rfl (by omega) ?_ Passed.start (fun e he => ?_) h₂
          · intro j port halternate
            exact halternate.1.1
          · exact hanswers e (by simp [he])

/-! ## Where the choice is right -/

lemma Device.Records.le_length (h : d.Records ctx) : d.portNum.toNat ≤ d.ports.length := by
  obtain ⟨port, ⟨-, hport, -⟩, -⟩ := h
  obtain ⟨hlt, -⟩ := List.getElem?_eq_some_iff.mp hport
  omega

/-- Behind the last port, the context is as it was if nothing is recorded. -/
lemma Passed.end_iff (h : Passed d ctx d.ports.length ctx') : ctx' = ctx ↔ ¬ d.Records ctx := by
  rw [h.eq_iff]
  constructor
  · rintro (hnot | hlt)
    · exact hnot
    · intro hrecords
      have := hrecords.le_length
      omega
  · intro hnot
    exact Or.inl hnot

/-- **The choice of an alternate port** is the right one just where it is safe: for every device,
whatever the context holds and whichever queries fail.

The outcome where a port is found is the right one whatever happened before.  Where none is found,
the port in use has been recorded, which shows unless it is not active or the context names it
already; and where a query fails, it has been recorded if the loop had come past it by then.  That
the capability is missed changes nothing, so that a device without it needs a query that fails in
time. -/
theorem portChosen_iff (hanswers : ∀ e ∈ t, d.answers e = true)
    (h : Returns (getAltPortDetails.run ctx) t (ret, ctx')) :
    PortChosen d ctx t ret ctx' ↔ ChoiceIsSafe d ctx t := by
  have hnoFailure : (∀ e ∈ t, queryFails e = false) → ¬ ∃ e ∈ t, queryFails e = true := by
    rintro hquiet ⟨e, he, hfails⟩
    rw [hquiet e he] at hfails
    exact absurd hfails (by decide)
  cases getAltPortDetails_outcome hanswers h with
  | found i port hlowest hret hsrcport hmine hquiet =>
      constructor
      · intro hchosen
        refine ⟨fun _ => Or.inr (Or.inl ⟨i, port, hlowest.1⟩), fun hnot => ?_⟩
        exact absurd hret (hchosen.1 hnot).1
      · intro hsafe
        refine ⟨fun hnot => ?_, fun _ _ => ⟨hret, Or.inl ⟨i, port, hlowest, hsrcport, hmine⟩⟩⟩
        obtain ⟨e, he, hfails, -⟩ := hsafe.2 hnot
        exact absurd ⟨e, he, hfails⟩ (hnoFailure hquiet)
  | none hnone hret hpassed hquiet =>
      constructor
      · intro hchosen
        refine ⟨fun hmigrates => ?_, fun hnot => absurd hret (hchosen.1 hnot).1⟩
        obtain ⟨-, ⟨i, port, hlowest, -⟩ | ⟨-, hsrcport, hmine⟩⟩ := hchosen.2 hmigrates hquiet
        · exact absurd hlowest.1 (hnone i port)
        · exact Or.inr (Or.inr (hpassed.end_iff.mp (hpassed.eq_of_fields hsrcport hmine)))
      · intro hsafe
        refine ⟨fun hnot => ?_, fun hmigrates _ => ⟨hret, Or.inr ⟨hnone, ?_⟩⟩⟩
        · obtain ⟨e, he, hfails, -⟩ := hsafe.2 hnot
          exact absurd ⟨e, he, hfails⟩ (hnoFailure hquiet)
        · rcases hsafe.1 hmigrates with hfails | ⟨i, port, halternate⟩ | hnot
          · exact absurd hfails (hnoFailure hquiet)
          · exact absurd halternate (hnone i port)
          · rw [hpassed.end_iff.mpr hnot]
            exact ⟨rfl, rfl⟩
  | failed e hmem hfails honly hret hpassed =>
      constructor
      · intro hchosen
        refine ⟨fun _ => Or.inl ⟨e, hmem, hfails⟩, fun hnot => ⟨e, hmem, hfails, ?_⟩⟩
        exact hpassed.eq_iff.mp (hchosen.1 hnot).2
      · intro hsafe
        refine ⟨fun hnot => ⟨hret, ?_⟩, fun _ hquiet => ?_⟩
        · obtain ⟨e', hmem', hfails', hunseen⟩ := hsafe.2 hnot
          rw [honly e' hmem' hfails'] at hunseen
          exact hpassed.eq_iff.mpr hunseen
        · exact absurd ⟨e, hmem, hfails⟩ (hnoFailure hquiet)

end

/-! ## Three devices -/

/-- The host of a device, on which no query fails. -/
def deviceWorld (d : Device) : ℕ → (c : Call) → Reply c × ℕ
  | n, .queryDevice => (.ok ⟨d.capFlags, UInt8.ofNat d.ports.length⟩, n)
  | n, .queryQp => (.ok ⟨d.portNum, 1, 0, 0⟩, n)
  | n, .queryPort i => ((d.ports[i - 1]?).elim (.error ⟨-1, failed_ne⟩) .ok, n)
  | n, c => hostWorld twoPorts [] n c

/-- What is looked at in a run on a device. -/
def choiceTest (d : Device) (ctx' : Context) (t : Trace) (r : Int × Context) : Bool :=
  decide (r = (0, ctx')) && t.all d.answers && t.all fun e : Event Call Reply => !queryFails e

/-- A choice on a device, found by evaluation. -/
lemma exists_choice (d : Device) (ctx ctx' : Context)
    (h : (play (deviceWorld d) 0 (getAltPortDetails.run ctx)).2.any
      (choiceTest d ctx' (play (deviceWorld d) 0 (getAltPortDetails.run ctx)).1) = true) :
    ∃ t, (∀ e ∈ t, d.answers e = true) ∧ (∀ e ∈ t, queryFails e = false) ∧
      Returns (getAltPortDetails.run ctx) t (0, ctx') := by
  obtain ⟨t, r, hrun, htest⟩ := exists_of_play _ _ _ (choiceTest d ctx') h
  simp only [choiceTest, Bool.and_eq_true, decide_eq_true_eq, List.all_eq_true,
    Bool.not_eq_true'] at htest
  obtain ⟨⟨rfl, hanswers⟩, hquiet⟩ := htest
  exact ⟨t, hanswers, hquiet, hrun⟩

/-- Three ports, the second of them in use, and the third one active as well. -/
def thirdPort : Device := ⟨autoPathMig, [⟨.down, 1⟩, ⟨.active, 2⟩, ⟨.active, 3⟩], 2⟩

/-- The third port is chosen, although the second one was recorded before. -/
theorem portChosen_thirdPort : ∃ t, (∀ e ∈ t, thirdPort.answers e = true) ∧
    Returns (getAltPortDetails.run {}) t (0, { altSrcport := 3, myAltDlid := 3 }) ∧
    PortChosen thirdPort {} t 0 { altSrcport := 3, myAltDlid := 3 } := by
  obtain ⟨t, hanswers, -, hrun⟩ := exists_choice thirdPort {} { altSrcport := 3, myAltDlid := 3 }
    (by decide +kernel)
  have halternate : thirdPort.IsAlternate 3 ⟨.active, 3⟩ := ⟨⟨by decide, rfl, rfl⟩, by decide⟩
  have hmigrates : thirdPort.Migrates := by
    unfold Device.Migrates
    decide
  refine ⟨t, hanswers, hrun, (portChosen_iff hanswers hrun).mpr ⟨fun _ => ?_, fun hnot => ?_⟩⟩
  · exact Or.inr (Or.inl ⟨3, _, halternate⟩)
  · exact absurd hmigrates hnot

/-- A device with one port, and with or without automatic path migration. -/
def onlyPort (capFlags : UInt32) : Device := ⟨capFlags, [⟨.active, 7⟩], 1⟩

lemma onlyPort_noAlternate (capFlags : UInt32) (i : ℕ) (port : PortAttr) :
    ¬ (onlyPort capFlags).IsAlternate i port := by
  rintro ⟨⟨hi, hport, -⟩, hne⟩
  have hlt : i - 1 < 1 := (List.getElem?_eq_some_iff.mp hport).1
  have hone : (onlyPort capFlags).portNum.toNat = 1 := rfl
  omega

/-- **Without the capability** it succeeds, and **without an alternate port** it records the port in
use. -/
theorem onlyPort_recorded :
    (∃ t, (∀ e ∈ t, (onlyPort 0).answers e = true) ∧ (∀ e ∈ t, queryFails e = false) ∧
      Returns (getAltPortDetails.run {}) t (0, { altSrcport := 1, myAltDlid := 7 }) ∧
      ¬ PortChosen (onlyPort 0) {} t 0 { altSrcport := 1, myAltDlid := 7 }) ∧
    ∃ t, (∀ e ∈ t, (onlyPort autoPathMig).answers e = true) ∧ (∀ e ∈ t, queryFails e = false) ∧
      Returns (getAltPortDetails.run {}) t (0, { altSrcport := 1, myAltDlid := 7 }) ∧
      ¬ PortChosen (onlyPort autoPathMig) {} t 0 { altSrcport := 1, myAltDlid := 7 } := by
  constructor
  · obtain ⟨t, hanswers, hquiet, hrun⟩ := exists_choice (onlyPort 0) {}
      { altSrcport := 1, myAltDlid := 7 } (by decide +kernel)
    refine ⟨t, hanswers, hquiet, hrun, fun hchosen => ?_⟩
    have hnot : ¬ (onlyPort 0).Migrates := not_not.mpr (by decide)
    exact (hchosen.1 hnot).1 rfl
  · obtain ⟨t, hanswers, hquiet, hrun⟩ := exists_choice (onlyPort autoPathMig) {}
      { altSrcport := 1, myAltDlid := 7 } (by decide +kernel)
    refine ⟨t, hanswers, hquiet, hrun, fun hchosen => ?_⟩
    have hmigrates : (onlyPort autoPathMig).Migrates := by
      unfold Device.Migrates
      decide
    obtain ⟨-, ⟨i, port, hlowest, -⟩ | ⟨-, hsrcport, -⟩⟩ := hchosen.2 hmigrates hquiet
    · exact onlyPort_noAlternate _ i port hlowest.1
    · exact absurd hsrcport (by decide)

end Apm

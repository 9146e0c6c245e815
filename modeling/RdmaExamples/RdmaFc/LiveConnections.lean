import RdmaExamples.RdmaFc.ConnectionSlots

/-!
# Which connections are live when the reads start

`run_server` leaves its wait loop when as many connections are established as it expects.  It
counts: which connection an event belongs to is forgotten.  Over the events of an RC server in a
possible order (`WellOrdered`) the counters are tied back to the connections (`Tally`).  The
connections are then all live if no more requests arrived than connections are expected and no
client has left; a DISCONNECTED event that arrives early is counted, and changes nothing.

The order of the events is an assumption on rdma_cm (`WellOrdered`): a connection is requested
once, established at most once and after that, and disconnected at most once and after it was
established.  The code checks none of it.  The counters have 32 bits, so that the converse is stated
for fewer than `2 ^ 32` requests.
-/

namespace RdmaFc

open MachineWords Programs

section Ids

variable {ty : CmEventType} {past evs : List CmEvent} {ev : CmEvent}

@[simp] lemma idsOf_nil : idsOf ty [] = [] := rfl

lemma idsOf_append (evs evs' : List CmEvent) :
    idsOf ty (evs ++ evs') = idsOf ty evs ++ idsOf ty evs' := by
  rw [idsOf, List.filter_append, List.map_append]
  rfl

lemma idsOf_snoc : idsOf ty (past ++ [ev])
    = if ev.type = ty then idsOf ty past ++ [ev.id] else idsOf ty past := by
  rw [idsOf_append]
  by_cases h : ev.type = ty <;> simp [idsOf, h]

lemma mem_idsOf {id : Handle} : id ∈ idsOf ty evs ↔ ∃ ev ∈ evs, ev.type = ty ∧ ev.id = id := by
  simp [idsOf, and_assoc]

/-- What an order of events has to say about the identifiers. -/
structure Ordered (past : List CmEvent) : Prop where
  requests : (idsOf .connectRequest past).Nodup
  established : (idsOf .established past).Nodup
  requested : idsOf .established past ⊆ idsOf .connectRequest past
  entered : idsOf .disconnected past ⊆ idsOf .established past

lemma nodup_snoc {l : List Handle} {id : Handle} (hl : l.Nodup) (hid : id ∉ l) :
    (l ++ [id]).Nodup := by
  rw [List.nodup_append]
  refine ⟨hl, List.nodup_singleton id, ?_⟩
  rintro a ha b hb rfl
  rw [List.mem_singleton] at hb
  exact hid (hb ▸ ha)

lemma snoc_subset {l l' : List Handle} {id : Handle} (hl : l ⊆ l') (hid : id ∈ l') :
    l ++ [id] ⊆ l' :=
  List.append_subset.mpr ⟨hl, List.cons_subset.mpr ⟨hid, List.nil_subset _⟩⟩

lemma Ordered.snoc (h : Ordered past) (hev : MayFollow past ev) : Ordered (past ++ [ev]) := by
  by_cases hreq : ev.type = .connectRequest
  · simp only [MayFollow, hreq] at hev
    exact {
      requests := by simpa [idsOf_snoc, hreq] using nodup_snoc h.requests hev
      established := by simpa [idsOf_snoc, hreq] using h.established
      requested := by
        simpa [idsOf_snoc, hreq] using List.subset_append_of_subset_left _ h.requested
      entered := by simpa [idsOf_snoc, hreq] using h.entered }
  by_cases hest : ev.type = .established
  · simp only [MayFollow, hest] at hev
    exact {
      requests := by simpa [idsOf_snoc, hest] using h.requests
      established := by simpa [idsOf_snoc, hest] using nodup_snoc h.established hev.2
      requested := by
        simpa [idsOf_snoc, hest] using snoc_subset h.requested hev.1
      entered := by
        simpa [idsOf_snoc, hest] using List.subset_append_of_subset_left _ h.entered }
  by_cases hdisc : ev.type = .disconnected
  · simp only [MayFollow, hdisc] at hev
    exact {
      requests := by simpa [idsOf_snoc, hdisc] using h.requests
      established := by simpa [idsOf_snoc, hdisc] using h.established
      requested := by simpa [idsOf_snoc, hdisc] using h.requested
      entered := by
        simpa [idsOf_snoc, hdisc] using snoc_subset h.entered hev.1 }
  · exact {
      requests := by simpa [idsOf_snoc, hreq] using h.requests
      established := by simpa [idsOf_snoc, hest] using h.established
      requested := by simpa [idsOf_snoc, hreq, hest] using h.requested
      entered := by simpa [idsOf_snoc, hest, hdisc] using h.entered }

theorem WellOrdered.ordered : ∀ {evs past : List CmEvent}, WellOrdered past evs → Ordered past →
    Ordered (past ++ evs)
  | [], past, _, hp => by rwa [List.append_nil]
  | ev :: evs, past, ⟨hev, hrest⟩, hp => by
      have h := WellOrdered.ordered hrest (hp.snoc hev)
      rwa [List.append_assoc] at h

end Ids

/-! ## The counters and the connections -/

/-- What the roster of an RC server has to do with the events behind it.  The roster is a function
of the events: the identifiers are those of the requests, in order, and the second counter is the
number of the connections established. -/
structure Tally (past : List CmEvent) (r : Roster) : Prop where
  numConns : r.numConns = requests past
  ids : (List.range r.numConns).map r.ids = idsOf .connectRequest past
  numEstablished : r.numEstablished = (idsOf .established past).length

section Server

variable {o : Options} {past evs : List CmEvent} {ev : CmEvent} {r : Roster}

lemma map_ids_add (r : Roster) (id : Handle) (hlt : r.numConns + 1 < 2 ^ 32) :
    (List.range (r.add id).numConns).map (r.add id).ids
      = (List.range r.numConns).map r.ids ++ [id] := by
  have hn : (r.add id).numConns = r.numConns + 1 := incr_of_lt hlt
  rw [hn, List.range_succ, List.map_append, List.map_singleton]
  congr 1
  · refine List.map_congr_left fun i hi => ?_
    have hne : i ≠ r.numConns := (List.mem_range.mp hi).ne
    simp [Roster.add, hne]
  · simp [Roster.add]

lemma Tally.snoc (hserver : ¬ o.isClient) (hrc : o.transport = .rc) (h : Tally past r)
    (hguard : r.numEstablished < o.numConnections)
    (hlt : requests (past ++ [ev]) < 2 ^ 32) : Tally (past ++ [ev]) (r.after o ev) := by
  have hn := o.numConnections_lt
  rw [requests, idsOf_snoc] at hlt
  rw [Roster.after]
  split
  case h_1 hty =>
    rw [if_pos hty, List.length_append, List.length_singleton] at hlt
    have hlt' : r.numConns + 1 < 2 ^ 32 := by
      rw [h.numConns]
      exact hlt
    rw [hrc]
    exact {
      numConns := by
        have hincr : (r.add ev.id).numConns = r.numConns + 1 := incr_of_lt hlt'
        simp [requests, idsOf_snoc, hty, hincr, h.numConns]
      ids := by rw [map_ids_add r ev.id hlt', h.ids, idsOf_snoc, if_pos hty]
      numEstablished := by simpa [idsOf_snoc, hty, Roster.add] using h.numEstablished }
  case h_2 hty =>
    rw [if_neg (by simpa using hserver)]
    exact {
      numConns := by simpa [requests, idsOf_snoc, hty, Roster.establish] using h.numConns
      ids := by simpa [idsOf_snoc, hty, Roster.establish] using h.ids
      numEstablished := by
        have hincr : incr 32 r.numEstablished = r.numEstablished + 1 := incr_of_lt (by omega)
        rw [Roster.establish, hincr, h.numEstablished, idsOf_snoc, if_pos hty, List.length_append,
          List.length_singleton] }
  case h_3 hty =>
    exact {
      numConns := by simpa [requests, idsOf_snoc, hty] using h.numConns
      ids := by simpa [idsOf_snoc, hty] using h.ids
      numEstablished := by simpa [idsOf_snoc, hty] using h.numEstablished }
  case h_4 hreq hest hdisc =>
    exact {
      numConns := by rw [requests, idsOf_snoc, if_neg hreq, h.numConns]
      ids := by rw [idsOf_snoc, if_neg hreq, h.ids]
      numEstablished := by rw [idsOf_snoc, if_neg hest, h.numEstablished] }

lemma requests_append_le : requests past ≤ requests (past ++ evs) := by
  rw [requests, requests, idsOf_append, List.length_append]
  omega

theorem Tally.foldl (hserver : ¬ o.isClient) (hrc : o.transport = .rc) {mask : BitVec 64} :
    ∀ {evs past : List CmEvent} {r : Roster}, Waits o mask r evs →
    requests (past ++ evs) < 2 ^ 32 → Tally past r →
    Tally (past ++ evs) (evs.foldl (Roster.after o) r)
  | [], past, r, _, _, h => by rwa [List.append_nil]
  | ev :: evs, past, r, ⟨hguard, _, hw⟩, hlt, h => by
      have happ : past ++ ev :: evs = (past ++ [ev]) ++ evs := by simp
      rw [happ] at hlt ⊢
      have hone : requests (past ++ [ev]) < 2 ^ 32 :=
        lt_of_le_of_lt requests_append_le hlt
      exact Tally.foldl hserver hrc hw hlt (h.snoc hserver hrc hguard hone)

/-- The wait loop never counts past the connections it expects. -/
lemma numEstablished_le (hserver : ¬ o.isClient) {mask : BitVec 64} :
    ∀ {evs : List CmEvent} {r : Roster}, Waits o mask r evs →
    r.numEstablished ≤ o.numConnections →
    (evs.foldl (Roster.after o) r).numEstablished ≤ o.numConnections
  | [], r, _, h => h
  | ev :: evs, r, ⟨hguard, _, hw⟩, _ => by
      have hn := o.numConnections_lt
      have hincr : incr 32 r.numEstablished = r.numEstablished + 1 := incr_of_lt (by omega)
      rw [List.foldl_cons]
      refine numEstablished_le hserver hw ?_
      rw [Roster.after]
      split
      · split
        · exact hguard.le
        · simp only [Roster.establish, Roster.add]
          omega
      · rw [if_neg (by simpa using hserver)]
        simp only [Roster.establish]
        omega
      · exact hguard.le
      · exact hguard.le

end Server

/-- Every connection the reads will use has had its ESTABLISHED event, and none its DISCONNECTED
event. -/
def AllLive (evs : List CmEvent) (ctx : TestContext) : Prop :=
  ∀ i < ctx.numConns, (ctx.conns i).rdmaId ∈ idsOf .established evs ∧
    (ctx.conns i).rdmaId ∉ idsOf .disconnected evs

instance (evs : List CmEvent) (ctx : TestContext) : Decidable (AllLive evs ctx) :=
  inferInstanceAs (Decidable (∀ i < ctx.numConns, _ ∧ _))

/-- The connections of the roster are those that were requested. -/
lemma Tally.mem_ids {past : List CmEvent} {r : Roster} (h : Tally past r) {id : Handle} :
    id ∈ idsOf .connectRequest past ↔ ∃ i < r.numConns, r.ids i = id := by
  rw [← h.ids]
  simp

/-- **When the connections of an RC server are live** as its reads start: no more requests arrived
than connections are expected, and no client left during the setup.

The loop ends with exactly `num_connections` established.  Each was requested first, so with no
more requests than that the requested ones are the established ones, by counting; and where nobody
has left they are live.  The other way round a slot was filled for every request, so where all
slots are live no request is without its ESTABLISHED event, and none of them has left. -/
theorem serverConnections_live (o : Options) (fuel : ℕ) (t : Trace) (ctx : TestContext)
    (hserver : ¬ o.isClient) (hrc : o.transport = .rc)
    (h : Returns ((setup o fuel).run {}) t (0, ctx)) (hord : WellOrdered [] (cmEvents t)) :
    (requests (cmEvents t) ≤ o.numConnections ∧
        (∀ ev ∈ cmEvents t, ev.type ≠ .disconnected) → AllLive (cmEvents t) ctx) ∧
    (requests (cmEvents t) < 2 ^ 32 → AllLive (cmEvents t) ctx →
      requests (cmEvents t) ≤ o.numConnections ∧
        ∀ ev ∈ cmEvents t, ev.type ≠ .disconnected) := by
  obtain ⟨hw, -, hroster, hend⟩ := setup_returns h
  have hordered : Ordered (cmEvents t) :=
    hord.ordered ⟨List.nodup_nil, List.nodup_nil, by simp, by simp⟩
  have htally : requests (cmEvents t) < 2 ^ 32 → Tally (cmEvents t) ctx.roster := by
    intro hlt
    rw [hroster]
    have hstart : Tally [] Roster.empty := ⟨rfl, rfl, rfl⟩
    exact Tally.foldl hserver hrc hw hlt hstart
  have hexact : ctx.numEstablished = o.numConnections := by
    refine le_antisymm ?_ hend
    rw [show ctx.numEstablished = ctx.roster.numEstablished from rfl, hroster]
    exact numEstablished_le hserver hw (Nat.zero_le _)
  constructor
  · rintro ⟨hreq, hstay⟩ i hi
    have hT := htally (lt_of_le_of_lt hreq o.numConnections_lt)
    have hmem : (ctx.conns i).rdmaId ∈ idsOf .connectRequest (cmEvents t) :=
      hT.mem_ids.mpr ⟨i, hi, rfl⟩
    have hcount : o.numConnections = (idsOf .established (cmEvents t)).length := by
      rw [← hexact]
      exact hT.numEstablished
    -- as many are established as are expected, so every request is among them
    have hperm := (List.subperm_of_subset hordered.established hordered.requested).perm_of_length_le
      (hreq.trans hcount.le)
    refine ⟨hperm.mem_iff.mpr hmem, ?_⟩
    rw [mem_idsOf]
    rintro ⟨ev, hev, hty, -⟩
    exact hstay ev hev hty
  · intro hlt hlive
    have hT := htally hlt
    have hsub : idsOf .connectRequest (cmEvents t) ⊆ idsOf .established (cmEvents t) := by
      intro id hid
      obtain ⟨i, hi, rfl⟩ := hT.mem_ids.mp hid
      exact (hlive i hi).1
    have hle := (List.subperm_of_subset hordered.requests hsub).length_le
    refine ⟨?_, ?_⟩
    · have hcount : ctx.numEstablished = (idsOf .established (cmEvents t)).length :=
        hT.numEstablished
      rw [hexact] at hcount
      rwa [hcount]
    · intro ev hev hty
      have hid : ev.id ∈ idsOf .disconnected (cmEvents t) := mem_idsOf.mpr ⟨ev, hev, hty, rfl⟩
      obtain ⟨i, hi, hi'⟩ := hT.mem_ids.mp (hordered.requested (hordered.entered hid))
      refine (hlive i hi).2 ?_
      rw [show (ctx.conns i).rdmaId = ev.id from hi']
      exact hid

/-- A server that gets the one connection it expects. -/
theorem serverConnections_live_oneConnection :
    ∃ t ctx, Returns ((setup gOptions 4).run {}) t (0, ctx) ∧ AllLive (cmEvents t) ctx := by
  obtain ⟨t, ⟨ret, ctx⟩, hr, htest⟩ := exists_of_play obliging
    [eventFor .connectRequest 2, eventFor .established 2] ((setup gOptions 4).run {})
    (fun t r => decide (r.1 = 0) && (decide (WellOrdered [] (cmEvents t)) &&
      (decide (requests (cmEvents t) ≤ 1) &&
        decide (∀ ev ∈ cmEvents t, ev.type ≠ .disconnected)))) (by decide +kernel)
  simp only [Bool.and_eq_true, decide_eq_true_eq] at htest
  obtain ⟨rfl, hord, hreq, hstay⟩ := htest
  exact ⟨t, ctx, hr, (serverConnections_live gOptions 4 t ctx (by decide) rfl hr hord).1
    ⟨hreq, hstay⟩⟩

/-- A server that expects two connections. -/
def twoConnections : Options := { gOptions with
  numConnections := 2
  numConnections_lt := by decide }

/-- The reads start with a connection whose client has left, where the first of two clients leaves
before the second is established; and with a connection that was never established, where more
requests arrive than connections are expected. -/
theorem serverConnections_notLive :
    (∃ t ctx, Returns ((setup twoConnections 6).run {}) t (0, ctx) ∧
      WellOrdered [] (cmEvents t) ∧ ¬ AllLive (cmEvents t) ctx) ∧
    ∃ t ctx, Returns ((setup gOptions 4).run {}) t (0, ctx) ∧
      WellOrdered [] (cmEvents t) ∧ ¬ AllLive (cmEvents t) ctx := by
  constructor
  · obtain ⟨t, ⟨ret, ctx⟩, hr, htest⟩ := exists_of_play obliging
      [eventFor .connectRequest 2, eventFor .connectRequest 3, eventFor .established 2,
        eventFor .disconnected 2, eventFor .established 3] ((setup twoConnections 6).run {})
      (fun t r => decide (r.1 = 0) && (decide (WellOrdered [] (cmEvents t)) &&
        decide (¬ AllLive (cmEvents t) r.2))) (by decide +kernel)
    simp only [Bool.and_eq_true, decide_eq_true_eq] at htest
    obtain ⟨rfl, hord, hlive⟩ := htest
    exact ⟨t, ctx, hr, hord, hlive⟩
  · obtain ⟨t, ⟨ret, ctx⟩, hr, htest⟩ := exists_of_play obliging
      [eventFor .connectRequest 2, eventFor .connectRequest 3, eventFor .established 2]
      ((setup gOptions 4).run {})
      (fun t r => decide (r.1 = 0) && (decide (WellOrdered [] (cmEvents t)) &&
        decide (¬ AllLive (cmEvents t) r.2))) (by decide +kernel)
    simp only [Bool.and_eq_true, decide_eq_true_eq] at htest
    obtain ⟨rfl, hord, hlive⟩ := htest
    exact ⟨t, ctx, hr, hord, hlive⟩

end RdmaFc

import RdmaExamples.RdmaFc.SetupRuns

/-!
# The slots of `conns`

`init_test` allocates `num_connections` slots, and `add_connection` writes the slot `num_conns`
without looking at either.  The wait loops stop at `num_established`.  A client adds a connection
with each ESTABLISHED event, and a DC server counts a connection as established with its request,
so there the loop test bounds the slots (`slots_lt_of_counted`).  An RC server adds a connection
with each CONNECT_REQUEST and counts the ESTABLISHED events only: how many requests arrive before
those is up to the clients.

Which slots a run writes is decided by its events (`slotsFor`), by what `SetupRuns` shows of the
wait loop.  So both directions are about lists of events: a bound for every list that the loop can
take, and, for a setup phase that ends with `0`, that a list with more requests has written past
the end.
-/

namespace RdmaFc

open MachineWords Programs

/-- How many CONNECT_REQUEST events there are. -/
abbrev requests (evs : List CmEvent) : ℕ := (idsOf .connectRequest evs).length

section Slots

variable {o : Options} {r : Roster} {ev : CmEvent} {evs : List CmEvent}

lemma requests_cons (ev : CmEvent) (evs : List CmEvent) :
    requests (ev :: evs) = (if ev.type = .connectRequest then 1 else 0) + requests evs := by
  by_cases h : ev.type = .connectRequest
  · simp [requests, idsOf, h]
    omega
  · simp [requests, idsOf, h]

/-- Each new connection is counted as established with the same event. -/
def Counted (o : Options) : Prop := o.isClient ∨ o.transport = .dc

/-- What one event does where connections are counted as they are added. -/
lemma after_counted (hc : Counted o) (hadm : Admits o.mask ev.type)
    (hle : r.numConns ≤ r.numEstablished) (hguard : r.numEstablished < o.numConnections) :
    (r.after o ev).numConns ≤ (r.after o ev).numEstablished := by
  have hn := o.numConnections_lt
  have hincr : incr 32 r.numEstablished = r.numEstablished + 1 := incr_of_lt (by omega)
  have hincr' : incr 32 r.numConns = r.numConns + 1 := incr_of_lt (by omega)
  rw [Roster.after]
  split
  · rename_i hty
    split
    · rename_i hrc
      -- a client does not take a request
      rcases hc with hc | hdc
      · rw [Options.mask, if_pos hc, admits_clientMask, hty] at hadm
        simp at hadm
      · rw [hrc] at hdc
        simp at hdc
    · simp only [Roster.add, Roster.establish]
      omega
  · split
    · simp only [Roster.add, Roster.establish]
      omega
    · simp only [Roster.establish]
      omega
  · exact hle
  · exact hle

/-- Where connections are counted as they are added, the loop test bounds the slots. -/
theorem slots_lt_of_counted (hc : Counted o) : ∀ {evs : List CmEvent} {r : Roster},
    Waits o o.mask r evs → r.numConns ≤ r.numEstablished →
    ∀ i ∈ slotsFor o r evs, i < o.numConnections
  | [], r, _, _, i, hi => absurd hi (by simp [slotsFor])
  | ev :: evs, r, ⟨hguard, hadm, hw⟩, hle, i, hi => by
      rw [slotsFor, List.mem_append] at hi
      rcases hi with hi | hi
      · split at hi
        · rw [List.mem_singleton.mp hi]
          omega
        · simp at hi
      · exact slots_lt_of_counted hc hw (after_counted hc hadm hle hguard) i hi

/-- What one event does to the number of connections on a server, short of a wrap. -/
lemma after_numConns (hserver : ¬ o.isClient)
    (hlt : ev.type = .connectRequest → r.numConns + 1 < 2 ^ 32) :
    (r.after o ev).numConns
      = r.numConns + if ev.type = .connectRequest then 1 else 0 := by
  rw [Roster.after]
  split
  case h_1 hty =>
    rw [if_pos hty, ← incr_of_lt (hlt hty)]
    cases o.transport <;> rfl
  case h_2 hty => simp [hserver, hty, Roster.establish]
  case h_3 hty => simp [hty]
  case h_4 hreq hest hdisc => rw [if_neg hreq, Nat.add_zero]

/-- A DC server has as many connections as there were requests. -/
theorem numConns_dc (hserver : ¬ o.isClient) (hdc : o.transport = .dc) :
    ∀ {evs : List CmEvent} {r : Roster}, Waits o o.mask r evs → r.numConns ≤ r.numEstablished →
    (evs.foldl (Roster.after o) r).numConns = r.numConns + requests evs
  | [], r, _, _ => rfl
  | ev :: evs, r, ⟨hguard, hadm, hw⟩, hle => by
      have hn := o.numConnections_lt
      rw [List.foldl_cons, numConns_dc hserver hdc hw (after_counted (Or.inr hdc) hadm hle hguard),
        after_numConns hserver fun _ => by omega, requests_cons]
      omega

lemma adds_server (hserver : ¬ o.isClient) : Adds o ev ↔ ev.type = .connectRequest := by
  simp [Adds, hserver]

/-- On an RC server the slots are within bounds as long as the requests are. -/
theorem slots_lt_of_requests (hserver : ¬ o.isClient) (hrc : o.transport = .rc) :
    ∀ {evs : List CmEvent} {r : Roster}, r.numConns + requests evs ≤ o.numConnections →
    ∀ i ∈ slotsFor o r evs, i < o.numConnections
  | [], r, _, i, hi => absurd hi (by simp [slotsFor])
  | ev :: evs, r, hle, i, hi => by
      have hn := o.numConnections_lt
      rw [slotsFor, List.mem_append, if_congr (adds_server hserver) rfl rfl] at hi
      rw [requests_cons] at hle
      rcases hi with hi | hi
      · split at hi
        · rename_i hty
          rw [if_pos hty] at hle
          rw [List.mem_singleton.mp hi]
          omega
        · simp at hi
      · refine slots_lt_of_requests hserver hrc ?_ i hi
        rw [after_numConns hserver]
        · omega
        · intro hty
          rw [if_pos hty] at hle
          omega

/-- On an RC server every request takes a slot of its own, as long as they are within bounds. -/
theorem requests_le_of_slots (hserver : ¬ o.isClient) (hrc : o.transport = .rc) :
    ∀ {evs : List CmEvent} {r : Roster}, r.numConns ≤ o.numConnections →
    (∀ i ∈ slotsFor o r evs, i < o.numConnections) →
    r.numConns + requests evs ≤ o.numConnections
  | [], r, hle, _ => hle
  | ev :: evs, r, hle, hslots => by
      have hn := o.numConnections_lt
      rw [slotsFor, if_congr (adds_server hserver) rfl rfl] at hslots
      have hfirst : ev.type = .connectRequest → r.numConns < o.numConnections := by
        intro hty
        exact hslots _ (by simp [hty])
      have hstep : (r.after o ev).numConns
          = r.numConns + if ev.type = .connectRequest then 1 else 0 :=
        after_numConns hserver fun hty => by
          have := hfirst hty
          omega
      have hrest := requests_le_of_slots hserver hrc (r := r.after o ev)
        (by
          rw [hstep]
          split
          · rename_i hty
            exact hfirst hty
          · exact hle)
        fun i hi => hslots i (List.mem_append_right _ hi)
      rw [requests_cons]
      omega

end Slots

/-- **When `add_connection` stays within `conns`.**  In the setup phase of a client or over DC it
always does.  On an RC server it does as long as no more than `num_connections` requests arrive, and
a phase that ends well has written past the end if more did.

Slots are written one after the other, one for each connection that is added, so that the last one
written is the number of connections before.  The wait loop stops at `num_connections` of what it
counts, and on a client and over DC what it counts is what was added.  An RC server counts the
established ones and adds the requested ones, so there nothing but the number of requests bounds
the slots. -/
theorem addConnection_inBounds (o : Options) (fuel : ℕ) (t : Trace)
    (h : CanDo ((setup o fuel).run {}) t) :
    (o.isClient ∨ o.transport = .dc ∨ requests (cmEvents t) ≤ o.numConnections →
      ∀ i ∈ storedSlots t, i < o.numConnections) ∧
    (∀ ctx, Returns ((setup o fuel).run {}) t (0, ctx) →
      (∀ i ∈ storedSlots t, i < o.numConnections) →
      o.isClient ∨ o.transport = .dc ∨ requests (cmEvents t) ≤ o.numConnections) := by
  constructor
  · intro hcond i hi
    obtain ⟨evs, rest, hevs, hw, hprefix⟩ := setup_canDo h
    have hi' : i ∈ slotsFor o Roster.empty evs := hprefix.subset hi
    by_cases hc : Counted o
    · exact slots_lt_of_counted hc hw le_rfl i hi'
    · rw [Counted, not_or] at hc
      rcases hcond with hclient | hdc | hreq
      · exact absurd hclient hc.1
      · exact absurd hdc hc.2
      · have hrc : o.transport = .rc := by
          cases hx : o.transport with
          | rc => rfl
          | dc => exact absurd hx hc.2
        refine slots_lt_of_requests hc.1 hrc ?_ i hi'
        have hle : requests evs ≤ requests (cmEvents t) := by
          rw [requests, requests, hevs, idsOf, idsOf, List.filter_append, List.map_append,
            List.length_append]
          omega
        have hzero : Roster.empty.numConns = 0 := rfl
        omega
  · intro ctx hr hslots
    by_cases hc : Counted o
    · exact hc.imp id Or.inl
    · rw [Counted, not_or] at hc
      have hrc : o.transport = .rc := by
        cases hx : o.transport with
        | rc => rfl
        | dc => exact absurd hx hc.2
      rw [(setup_returns hr).2.1] at hslots
      have hle := requests_le_of_slots hc.1 hrc (Nat.zero_le _) hslots
      have hzero : Roster.empty.numConns = 0 := rfl
      exact Or.inr (Or.inr (by omega))

/-- A server that gets the one connection it expects. -/
theorem addConnection_inBounds_oneConnection :
    ∃ t ctx, Returns ((setup gOptions 4).run {}) t (0, ctx) ∧
      ∀ i ∈ storedSlots t, i < gOptions.numConnections := by
  obtain ⟨t, ⟨ret, ctx⟩, hr, htest⟩ := exists_of_play obliging
    [eventFor .connectRequest 2, eventFor .established 2] ((setup gOptions 4).run {})
    (fun t r => decide (r.1 = 0) && decide (requests (cmEvents t) = 1)) (by decide +kernel)
  simp only [Bool.and_eq_true, decide_eq_true_eq] at htest
  obtain ⟨rfl, hreq⟩ := htest
  refine ⟨t, ctx, hr, (addConnection_inBounds gOptions 4 t hr.canDo).1 ?_⟩
  exact Or.inr (Or.inr hreq.le)

/-- A server that expects one connection takes a second request before the first connection is
established: the second slot is past the allocation. -/
theorem twoRequests_outOfBounds :
    ∃ fuel t r, Returns ((setup gOptions fuel).run {}) t r ∧ WellOrdered [] (cmEvents t) ∧
      r.1 = 0 ∧ ¬ ∀ i ∈ storedSlots t, i < gOptions.numConnections := by
  obtain ⟨t, r, hr, htest⟩ := exists_of_play obliging
    [eventFor .connectRequest 2, eventFor .connectRequest 3, eventFor .established 2]
    ((setup gOptions 4).run {})
    (fun t r => decide (WellOrdered [] (cmEvents t)) && decide (r.1 = 0) &&
      decide (1 ∈ storedSlots t))
    (by decide +kernel)
  simp only [Bool.and_eq_true, decide_eq_true_eq] at htest
  exact ⟨4, t, r, hr, htest.1.1, htest.1.2, fun h => absurd (h 1 htest.2) (by decide)⟩

end RdmaFc

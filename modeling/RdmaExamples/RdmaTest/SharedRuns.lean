import RdmaExamples.Messages.Underway
import RdmaExamples.RdmaTest.ExchangeRuns
import RdmaExamples.RdmaTest.Sharing

/-!
# Runs of the program of the shared region

The two programs of `rdma_test.c`, in runs in which no verb fails.

* `access_allowed_iff` — an access that the server has asked for finds the connection and the region
  of the client in place, and is allowed just if the key and the address of that region round-trip.
* `dat_arrives_iff` — both sides return `0`, whatever has become of the accesses: if the key and the
  address round-trip, `"Dat"` is in the memory of both sides, and if they do not, the memory of the
  client is as it was.
-/

namespace RdmaTest

open Programs Systems Monitors Progress Messages ByteStrings

/-- The two programs at their start. -/
def nodes (fuel : Side → ℕ) (side : Side) : Prog Call Reply (Int × Bool) :=
  (nodeRun (fuel side) side).run false

/-- A run of the two programs in which no verb fails. -/
abbrev SharingRun (fuel : Side → ℕ) := Runs.Run (next link) (Meets fun _ _ => Good)
  (⟨nodes fuel, Link.start⟩ : State Side Call Reply (Int × Bool) Link)

/-- The client has got this region. -/
def Registered (tr : List (Systems.Label Side Call Reply Move)) (mr : Mr) : Prop :=
  Systems.Label.call Side.client ⟨.regMr .rdmaBuff, some mr⟩ ∈ tr

section

variable {fuel : Side → ℕ} {tr : List (Systems.Label Side Call Reply Move)} {side : Side}
  {s : State Side Call Reply (Int × Bool) Link} {g : Side → Record} {l : Link} {r : Record}
  {e : Event Call Reply} {wr : WorkRequest} {rest : List WorkRequest} {mr : Mr}

/-! ## The region -/

/-- What a call makes of the region. -/
lemma region_after_iff (hallowed : r.allowed clientMessage 2 side e.1) :
    (r.after e).region = some mr ↔ r.region = some mr ∨ e = ⟨.regMr .rdmaBuff, some mr⟩ := by
  obtain ⟨c, reply⟩ := e
  cases c with
  | regMr buf =>
      by_cases hbuf : buf = .rdmaBuff
      · subst hbuf
        have hregion : (r.after ⟨.regMr .rdmaBuff, reply⟩).region = reply := rfl
        rw [hregion, (hallowed rfl).1]
        simp
      · have hregion : (r.after ⟨.regMr buf, reply⟩).region = r.region := if_neg hbuf
        rw [hregion]
        simp [hbuf]
  | _ => exact (or_iff_left (by simp)).symm

/-- What holds of a run: of both sides, and of the region. -/
def SharedIn (tr : List (Systems.Label Side Call Reply Move)) (g : Side → Record) (l : Link) :
    Prop :=
  Shared g l ∧ ∀ mr, Registered tr mr ↔ (g .client).region = some mr

lemma SharedIn.call {l' : Link} (h : SharedIn tr g l)
    (hallowed : (g side).allowed clientMessage 2 side e.1) (hgood : failed e = false)
    (hs : l.answer side e = some l') :
    SharedIn (tr ++ [.call side e]) (Function.update g side ((g side).after e)) l' := by
  refine ⟨h.1.call hallowed hgood hs, fun mr => ?_⟩
  rw [Registered, List.mem_append, List.mem_singleton]
  cases side with
  | server =>
      rw [Function.update_of_ne (by simp), ← h.2 mr]
      exact or_iff_left (by simp)
  | client =>
      rw [Function.update_self, region_after_iff hallowed, ← h.2 mr]
      exact or_congr Iff.rfl (by simp [eq_comm])

lemma SharedIn.device {l' : Link} {move : Move} (h : SharedIn tr g l)
    (hs : l.device move = some l') : SharedIn (tr ++ [.device move]) g l' := by
  refine ⟨h.1.device hs, fun mr => ?_⟩
  rw [← h.2 mr, Registered, List.mem_append]
  exact or_iff_left (by simp)

/-- **What holds in every run.**  The rule for monitored parties, with `Shared.call` and
`Shared.device` for the two kinds of steps. -/
theorem sharingRun_shared (h : SharingRun fuel tr s) :
    SharedIn tr (recordOf tr) s.shared ∧
      ∀ side, Obeys (sharing side) (fun r x => Ends r x.1) (s.procs side) (recordOf tr side) :=
  Run.monitored sharing (fun _ => {}) (fun _ _ => Good) (I := SharedIn) (A := fun _ => True)
    (fun _ _ _ _ _ _ => trivial) (fun _ _ _ _ _ => trivial)
    ⟨shared_start, fun mr => by simp [Registered]⟩ (fun side => nodeRun_exchange side)
    (fun _ _ _ _ _ _ hI hallowed hgood hs _ => ⟨hgood, hI.call hallowed hgood hs⟩)
    (fun _ _ _ _ _ hI hs _ => hI.device hs) h trivial

/-! ## Accesses -/

/-- A region whose key has one zero byte, the last. -/
def fairMr : Mr := ⟨0x00010203, 0x1000⟩

lemma fairMr_roundTrips : RoundTrips fairMr.rkey fairMr.addr :=
  ⟨[3, 2, 1, 0, 0, 16, 0, 0, 0, 0, 0, 0, 0, 0, 0, 0], by decide, by decide⟩

/-- The next calls of a side, which do not fail; the region of the client is `mr`. -/
def turns (mr : Mr) (side : Side) (n : ℕ) : List (Choice Side Call Reply Move) :=
  List.replicate n (.call side (obliging (fun _ => mr) fun _ =>
    (clientMessage mr.rkey mr.addr).getD []))

/-- What was posted at a side is reported, after this. -/
def reported (move : Move) (side : Side) : List (Choice Side Call Reply Move) :=
  [.device move, .device (.report side)]

/-- A run up to the write of the server. -/
def untilWrite (mr : Mr) : List (Choice Side Call Reply Move) :=
  turns mr .server 3 ++ turns mr .client 5 ++ turns mr .server 5 ++ turns mr .client 1 ++
    turns mr .server 1 ++ turns mr .client 1 ++ reported (.deliver .server) .client ++
    turns mr .server 2 ++ reported (.deliver .client) .server ++ turns mr .server 2 ++
    turns mr .client 6 ++ reported (.deliver .server) .client ++ turns mr .server 6

/-- The run up to its end, where the accesses are allowed. -/
def untilEnd (mr : Mr) : List (Choice Side Call Reply Move) :=
  untilWrite mr ++ reported (.execute .server) .server ++ turns mr .server 3 ++
    reported (.execute .server) .server ++ turns mr .server 2 ++ turns mr .client 2 ++
    reported (.deliver .client) .server ++ turns mr .server 6 ++ turns mr .client 6

instance (e : Event Call Reply) : Decidable (Good e) := inferInstanceAs (Decidable (_ = false))

/-- A side has returned. -/
def returned : Prog Call Reply (Int × Bool) → Bool
  | .ret _ => true
  | _ => false

lemma exists_of_returned {p : Prog Call Reply (Int × Bool)} (h : returned p = true) :
    ∃ x, p = .ret x := by
  cases p with
  | ret x => exact ⟨x, rfl⟩
  | call c k | halt => exact absurd h (by simp [returned])

/-- A run is found by making these choices. -/
lemma exists_sharingRun (choices : List (Choice Side Call Reply Move))
    (test : State Side Call Reply (Int × Bool) Link →
      List (Systems.Label Side Call Reply Move) → Bool)
    (h : (Runs.play (fun s c => if Meets (fun _ _ => Good) s c then next link s c else none)
      (⟨nodes fun _ => 1, Link.start⟩ : State Side Call Reply (Int × Bool) Link) choices).any
        (fun r => test r.1 r.2) = true) :
    ∃ tr s, SharingRun (fun _ => 1) tr s ∧ test s tr = true := by
  obtain ⟨tr, s, hrun, htest⟩ := Runs.Run.exists_of_play _ _ choices _ h
  exact ⟨tr, s, Runs.Run.of_guarded hrun, htest⟩

/-- Where an access that is to be done goes. -/
theorem Shared.access_iff (h : Shared g l) (hrefused : Unrefused l)
    (hqueue : (l side).sendQueue = wr :: rest) (hsend : wr.isSend = false) :
    side = .server ∧ ∃ mr, (g .client).region = some mr ∧
      (l .client).regions .rdmaBuff = some mr ∧
        ((access (l side) (l side.other) wr).isSome = true ↔ RoundTrips mr.rkey mr.addr) := by
  have hpending := (h.own side).queue wr (by simp [hqueue])
  cases wr with
  | send bytes => exact absurd hsend (by simp [WorkRequest.isSend])
  | write localMr addr rkey | read localMr addr rkey =>
      obtain ⟨rfl, hsome, hsends, htold⟩ := hpending.1
      obtain ⟨localMr, rfl⟩ := Option.isSome_iff_exists.mp hsome
      obtain ⟨mr, msg, hregion, hregions, hmsg, rfl, rfl⟩ := h.told hrefused hsends htold
      refine ⟨rfl, mr, hregion, hregions, ?_⟩
      obtain ⟨hyes, hno⟩ := target_eq hregions hmsg
      by_cases hfair : RoundTrips mr.rkey mr.addr
      · simp [access, Side.other, hyes hfair, hfair]
      · simp [access, Side.other, hno hfair, hfair]

/-- **What an access finds.**  As long as none was refused, an access that the server has asked for
finds the connection at work and the region of the client registered; and it is allowed just if the
key and the address of that region have come to the server as they are.

The server posts an access only after the second message of the client has come in, and the client
sends that one after it has registered its region.  It gives the region up behind the last message
of the server, which is sent when both accesses are done.  So between the two the region is there
(`Own`), and it is the address that decides (`target_eq`). -/
theorem access_allowed_iff (h : SharingRun fuel tr s) (hrefused : Unrefused s.shared)
    (hqueue : (s.shared side).sendQueue = wr :: rest) (hsend : wr.isSend = false) :
    side = .server ∧ s.shared.Works ∧ ∃ mr, Registered tr mr ∧
      (s.shared .client).regions .rdmaBuff = some mr ∧
        ((access (s.shared side) (s.shared side.other) wr).isSome = true ↔
          RoundTrips mr.rkey mr.addr) := by
  obtain ⟨⟨hshared, hregistered⟩, -⟩ := sharingRun_shared h
  obtain ⟨hside, mr, hregion, hregions, hiff⟩ := hshared.access_iff hrefused hqueue hsend
  exact ⟨hside, hshared.works hrefused hqueue hsend, mr, (hregistered mr).mpr hregion, hregions,
    hiff⟩

/-- The server is about to write, and may. -/
theorem access_allowed_write : ∃ tr s wr rest, SharingRun (fun _ => 1) tr s ∧
    Unrefused s.shared ∧ (s.shared .server).sendQueue = wr :: rest ∧ wr.isSend = false ∧
      s.shared.Works ∧ Registered tr fairMr ∧
        (access (s.shared .server) (s.shared .client) wr).isSome = true := by
  obtain ⟨tr, s, hrun, htest⟩ := exists_sharingRun (untilWrite fairMr)
    (fun s _ => decide ((s.shared .server).refused = false ∧ (s.shared .client).refused = false ∧
      (s.shared .client).regions .rdmaBuff = some fairMr ∧
        (s.shared .server).sendQueue.head?.any fun wr => !wr.isSend)) (by decide +kernel)
  obtain ⟨hserver, hclient, hregion, hhead⟩ := of_decide_eq_true htest
  have hrefused : Unrefused s.shared := by
    intro side
    cases side with
    | server => exact hserver
    | client => exact hclient
  cases hqueue : (s.shared .server).sendQueue with
  | nil => exact absurd hhead (by simp [hqueue])
  | cons wr rest =>
      have hsend : wr.isSend = false := by simpa [hqueue] using hhead
      obtain ⟨-, hworks, mr, hregistered, hmr, hiff⟩ :=
        access_allowed_iff hrun hrefused hqueue hsend
      obtain rfl : fairMr = mr := Option.some.inj (hregion.symm.trans hmr)
      exact ⟨tr, s, wr, rest, hrun, hrefused, hqueue, hsend, hworks, hregistered,
        hiff.mpr fairMr_roundTrips⟩

/-! ## The end -/

/-- **What is where** when both sides have finished. -/
theorem Shared.arrived (h : Shared g l) (hdone : ∀ side, (g side).Done 2) :
    ∃ mr, (g .client).region = some mr ∧
      (RoundTrips mr.rkey mr.addr → ((l .client).buffers .rdmaBuff).take bufferSize = datBuffer ∧
        ((l .server).buffers .buffLocalSend).take bufferSize = datBuffer) ∧
      (¬ RoundTrips mr.rkey mr.addr →
        (l .client).buffers .rdmaBuff = List.replicate rdmaMrSize 0 ∧
          ∃ side, (l side).refused = true) := by
  have hlen : (g .client).sent.length = 2 := (h.own .client).sends.trans (hdone .client).sends
  obtain ⟨mr, hregion, -⟩ := (h.own .client).told rfl _ (List.getElem?_eq_getElem (by omega))
  have hqueue : (l .server).sendQueue = [] :=
    queue_nil (h.inLine.fits .server) (hdone .server).sendComps.symm
  have hposts : (g .server).posts = (g .server).sends + 2 :=
    (h.own .server).prepared rfl (by rw [(hdone .server).sends]; exact Nat.one_lt_two)
  have hwritten : Unrefused l → ((l .client).buffers .rdmaBuff).take bufferSize = datBuffer := by
    intro hrefused
    refine h.written hrefused (by omega) ?_
    rw [hqueue]
    exact List.forall_mem_nil _
  refine ⟨mr, hregion, fun hfair => ?_, fun hunfair => ?_⟩
  · have hrefused : Unrefused l := by
      intro side
      by_contra hside
      obtain ⟨-, mr', hregion', hunfair⟩ := h.refused side (by simpa using hside)
      obtain rfl := Option.some.inj (hregion.symm.trans hregion')
      exact hunfair hfair
    refine ⟨hwritten hrefused, h.read hrefused hposts ?_⟩
    rw [hqueue]
    exact List.forall_mem_nil _
  · have hblank : (l .client).buffers .rdmaBuff = List.replicate rdmaMrSize 0 := by
      refine h.blank.resolve_left ?_
      rintro ⟨mr', hregion', hfair⟩
      obtain rfl := Option.some.inj (hregion.symm.trans hregion')
      exact hunfair hfair
    refine ⟨hblank, ?_⟩
    by_contra hnone
    have hrefused : Unrefused l := fun side => by simpa using not_exists.mp hnone side
    have hdat := hwritten hrefused
    rw [hblank, List.take_replicate] at hdat
    exact absurd hdat (by decide)

/-- **What both sides have when they have returned.**  They return `0` either way.  If the key and
the address of the one region of the client round-trip, `"Dat"` is in the memory of the client, and
the server has read it back; if they do not, an access was refused, and the memory of the client is
as it was.

Neither side looks at the status of a completion, so that a refused access changes nothing about
the calls of either.  If none is refused, the write puts `"Dat"` at the beginning of the region,
and the read takes it from there into the buffer of the server (`Shared`).  If the key or the
address is another one the first access is refused, and with the connection in error no later one
is done. -/
theorem dat_arrives_iff (h : SharingRun fuel tr s) (hend : ∀ side, ∃ x, s.procs side = .ret x) :
    (∀ side, ∃ x, s.procs side = .ret x ∧ x.1 = 0) ∧
      ∃ mr, (∀ mr', Registered tr mr' ↔ mr' = mr) ∧
        (RoundTrips mr.rkey mr.addr →
          ((s.shared .client).buffers .rdmaBuff).take bufferSize = datBuffer ∧
            ((s.shared .server).buffers .buffLocalSend).take bufferSize = datBuffer) ∧
        (¬ RoundTrips mr.rkey mr.addr →
          (s.shared .client).buffers .rdmaBuff = List.replicate rdmaMrSize 0 ∧
            ∃ side, (s.shared side).refused = true) := by
  obtain ⟨⟨hshared, hregistered⟩, hobeys⟩ := sharingRun_shared h
  have hleaves : ∀ side, ∃ x, s.procs side = .ret x ∧ Ends (recordOf tr side) x.1 := by
    intro side
    obtain ⟨x, hx⟩ := hend side
    have hside := hobeys side
    rw [hx] at hside
    exact ⟨x, hx, hside⟩
  have hgood := hshared.good
  constructor
  · intro side
    obtain ⟨x, hx, hends⟩ := hleaves side
    exact ⟨x, hx, hends.zero.mpr (hgood side)⟩
  · have hdone : ∀ side, (recordOf tr side).Done 2 := by
      intro side
      obtain ⟨x, -, hends⟩ := hleaves side
      exact hends.done (hgood side)
    obtain ⟨mr, hregion, harrived⟩ := hshared.arrived hdone
    refine ⟨mr, fun mr' => ?_, harrived⟩
    rw [hregistered, hregion, Option.some.injEq, eq_comm]

/-- A key that comes to the server as it is. -/
theorem dat_arrives_fair : ∃ tr s, SharingRun (fun _ => 1) tr s ∧
    (∀ side, ∃ x, s.procs side = .ret x ∧ x.1 = 0) ∧ (∀ mr, Registered tr mr ↔ mr = fairMr) ∧
      ((s.shared .client).buffers .rdmaBuff).take bufferSize = datBuffer ∧
      ((s.shared .server).buffers .buffLocalSend).take bufferSize = datBuffer := by
  obtain ⟨tr, s, hrun, htest⟩ := exists_sharingRun (untilEnd fairMr)
    (fun s tr => returned (s.procs .server) && returned (s.procs .client) &&
      decide ((recordOf tr .client).region = some fairMr)) (by decide +kernel)
  simp only [Bool.and_eq_true, decide_eq_true_eq] at htest
  obtain ⟨⟨hserver, hclient⟩, hregion⟩ := htest
  have hend : ∀ side, ∃ x, s.procs side = .ret x := by
    intro side
    cases side with
    | server => exact exists_of_returned hserver
    | client => exact exists_of_returned hclient
  have hfair : Registered tr fairMr := ((sharingRun_shared hrun).1.2 fairMr).mpr hregion
  obtain ⟨hzero, mr, hregistered, hyes, -⟩ := dat_arrives_iff hrun hend
  obtain rfl : fairMr = mr := (hregistered fairMr).mp hfair
  obtain ⟨hdat, hread⟩ := hyes fairMr_roundTrips
  exact ⟨tr, s, hrun, hzero, hregistered, hdat, hread⟩

end

end RdmaTest

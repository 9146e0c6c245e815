import RdmaExamples.RdmaFc.DciPool
import RdmaExamples.RdmaFc.MappedBuffer

/-!
# What the reads find

`do_rdma_reads` relies on what the setup phase of a server left behind: the connections start at
offset 0, the local buffer is registered as soon as there is a connection, and over DC the
initiators are there.  `setup_readable` collects this for every setup phase of a server that
succeeds.

It is collected from two places: the roster says which connections there are, and `Accounted` says
what is registered.  The results about the reads take it as a whole, so that none of them depends
on how the setup phase is written.
-/

namespace RdmaFc

open MachineWords Programs

/-- The connections have not been read from, and there is none before the buffer is registered. -/
structure Readable (s : TestContext) : Prop where
  offsets : ∀ c, (s.conns c).readOffset = 0
  buffer : s.rdmaBuf.ptr ≠ 0 → s.rdmaBuf.mr.isSome
  mapped : s.numConns ≠ 0 → s.rdmaBuf.mr.isSome

/-- No function of the setup phase reads. -/
lemma setup_offsets (o : Options) (fuel : ℕ) :
    Keeps (fun s : TestContext => s.fixed.2) (fun _ => True) (setup o fuel) := by
  have hsame : ∀ {α : Type} {m : Setup α}, Keeps TestContext.fixed (fun _ => True) m →
      Keeps (fun s : TestContext => s.fixed.2) (fun _ => True) m :=
    fun hm => hm.weaken (f := Prod.snd) fun _ => id
  refine Keeps.bind ((initTest_keeps o fun _ _ => rfl).calls_mono fun _ _ => trivial) fun ret => ?_
  refine Keeps.ite (Keeps.pure _) (Keeps.ite (hsame (clientSetup_fixed o fuel)) ?_)
  refine Keeps.bind (Keeps.perform trivial) fun r => Keeps.ite (Keeps.pure _) ?_
  refine Keeps.bind (Keeps.modify fun _ => rfl) fun _ => ?_
  refine Keeps.bind (Keeps.perform trivial) fun ret => Keeps.ite (Keeps.pure _) ?_
  refine Keeps.bind (Keeps.perform trivial) fun ret => Keeps.ite (Keeps.pure _) ?_
  exact hsame (waitConnections_fixed _ _ _)

/-- **What the reads find**: after every setup phase of a server that succeeds. -/
theorem setup_readable {o : Options} {fuel : ℕ} {t : Trace} {ctx : TestContext}
    (hserver : ¬ o.isClient) (h : Returns ((setup o fuel).run {}) t (0, ctx)) :
    Readable ctx := by
  have hoffsets : ctx.fixed.2 = fun _ => 0 := (setup_offsets o fuel).state _ _ _ _ h
  obtain ⟨t₁, t₂, ret, s, rfl, h₁, h₂⟩ := returns_run_bind.mp h
  rw [returns_run_check] at h₂
  have hwaited := roleSetup_accounts o fuel _ _ _ _ _ (initTest_waiting h₁) h₂.2
  obtain ⟨hacc, hwaiting⟩ := hwaited fun hclient => absurd hclient hserver
  exact ⟨fun c => congrFun hoffsets c, (hwaiting rfl).whole, hacc.mapped⟩

/-- The DC objects of a server that has a connection. -/
lemma setup_pool {o : Options} {fuel : ℕ} {t : Trace} {ctx : TestContext}
    (hserver : ¬ o.isClient) (hdc : o.transport = .dc)
    (h : Returns ((setup o fuel).run {}) t (0, ctx)) (hconns : ctx.numConns ≠ 0) :
    ctx.dcPool.Ready :=
  setup_ready hdc h (((numConns_ne_zero_iff hserver hdc h).mp hconns).imp fun _ hev =>
    ⟨hev.1, Or.inl hev.2⟩)

end RdmaFc

import RdmaExamples.Rcopy.Truthful

/-!
# The file and the mapping of the server

The server keeps one file and one mapping, and knows them by the three globals.  `liveAfter` says
which files and mappings are live after a run of calls, `ResourceOk` what the globals ought to say
about them.  A message keeps this up just where it opens no second file, maps none over a live
mapping or in vain, and leaves the size of a live mapping as it is (`MessageOk`,
`served_resourceOk`): unlike `server_open`, `server_write` does not look at `file_addr`.

* `Resources`, `liveAfter` — the files and mappings that are live, from the calls alone.
* `ServerInv` — the invariant of a server between two messages: `ResourceOk`, and what the handlers
  need to keep it.
* `Served` — the runs of messages, one after the other, through any number of sessions;
  `serverSession_served` and `serverLoop_served` say that the program has no others.
* `secondWrite_notResourceOk` — two WRITEs without a CLOSE between them lose the mapping of the
  first one.
-/

namespace Rcopy

open ByteStrings MachineWords Programs

/-! ## What is live -/

/-- A mapping that the server has made. -/
structure LiveMap where
  addr : ℕ
  length : ℕ
  fd : Int
  deriving DecidableEq

/-- The files and the mappings that the server has made and not given back. -/
structure Resources where
  files : List Int := []
  maps : List LiveMap := []
  deriving DecidableEq

/-- What a call on a file does to them. -/
def Resources.apply (r : Resources) : FileOp → Resources
  | .opened _ fd => { r with files := fd :: r.files }
  | .mapped fd length addr => { r with maps := ⟨addr, length, fd⟩ :: r.maps }
  | .unmapped addr length =>
      { r with maps := r.maps.filter fun m => ¬ (m.addr = addr ∧ m.length = length) }
  | .closed fd => { r with files := r.files.erase fd }
  | .resized _ _ => r
  | .failed => r

/-- What is live after a run. -/
def liveAfter (t : Trace) : Resources := (fileOps t).foldl Resources.apply {}

/-- What the globals say about the file and the mapping. -/
structure ResourceOk (g : Globals) (r : Resources) : Prop where
  files : r.files.length ≤ 1
  maps : r.maps.length ≤ 1
  null : g.fileAddr = 0 ↔ r.maps = []
  live : ∀ m ∈ r.maps, m.addr = g.fileAddr ∧ m.length = g.bytes ∧ m.fd = g.fd

instance (g : Globals) (r : Resources) : Decidable (ResourceOk g r) :=
  decidable_of_iff (r.files.length ≤ 1 ∧ r.maps.length ≤ 1 ∧ (g.fileAddr = 0 ↔ r.maps = []) ∧
      ∀ m ∈ r.maps, m.addr = g.fileAddr ∧ m.length = g.bytes ∧ m.fd = g.fd)
    ⟨fun h => ⟨h.1, h.2.1, h.2.2.1, h.2.2.2⟩, fun h => ⟨h.files, h.maps, h.null, h.live⟩⟩

/-! ## What a message may do -/

/-- What an event stores in `bytes`. -/
def storeSize (buf : List UInt8) : Event Call Reply → List UInt8
  | ⟨.rrecv .size offset _, some chunk⟩ => store buf offset chunk.bs
  | _ => buf

/-- What is in `bytes` when what arrives in a run has been stored there. -/
def storedSize (bytes : ℕ) (t : Trace) : ℕ :=
  ofBytes (t.foldl storeSize (toBytes sizeofBytes bytes))

/-- Whether an event makes a mapping, if it tries to. -/
def mapMade : Event Call Reply → Option Bool
  | ⟨.mmap _ _, reply⟩ => some reply.isOk
  | _ => none

/-- The attempts of a run to make a mapping. -/
def mapsMade (t : Trace) : List Bool := t.filterMap mapMade

/-- What the server relies on, of a message that comes when `r` is live: a file that is opened is
the only one, a mapping is made when there is none, and made, and a size that arrives while there is
one is the size it has. -/
structure MessageOk (g : Globals) (r : Resources) (t : Trace) : Prop where
  opens : ∀ path fd, FileOp.opened path fd ∈ fileOps t → r.files = []
  maps : ∀ made ∈ mapsMade t, g.fileAddr = 0 ∧ made = true
  size : g.fileAddr ≠ 0 → storedSize g.bytes t = g.bytes

/-- What the server has called, from its start on, when it has handled some messages; all of them
were `ok`.  Between them come the headers, and the connections. -/
inductive Served (ok : Globals → Resources → Trace → Prop) : Trace → Globals → Prop
  | start : Served ok [] {}
  | idle {t t' : Trace} {g : Globals} :
      Served ok t g → fileOps t' = [] → Served ok (t ++ t') g
  | message {t t' : Trace} {g g' : Globals} {fuel : ℕ} {hdr : MsgHdr} {ret : Int} :
      Served ok t g → Returns ((serverHandle fuel hdr).run g) t' (ret, g') → ok g (liveAfter t) t' →
      Served ok (t ++ t') g'

section

variable {fuel n : ℕ} {msg hdr : MsgHdr} {g g' : Globals} {t t' : Trace} {ret : Int}
  {buf buf' : List UInt8}

lemma liveAfter_append :
    liveAfter (t ++ t') = (fileOps t').foldl Resources.apply (liveAfter t) := by
  rw [liveAfter, fileOps_append, List.foldl_append, liveAfter]

@[simp] lemma mapsMade_nil : mapsMade [] = [] := rfl

@[simp] lemma mapsMade_cons {e : Event Call Reply} :
    mapsMade (e :: t) = (mapMade e).toList ++ mapsMade t := by
  rw [mapsMade, List.filterMap_cons]
  cases mapMade e <;> rfl

@[simp] lemma mapsMade_append : mapsMade (t ++ t') = mapsMade t ++ mapsMade t' :=
  List.filterMap_append

lemma OnlyInto.mapsMade_eq {dest : Dest} (h : OnlyInto dest t) : mapsMade t = [] := by
  rw [mapsMade, List.filterMap_eq_nil_iff]
  rintro ⟨c, r⟩ he
  obtain ⟨offset, n, rfl⟩ := h _ he
  rfl

/-! ## The size -/

/-- What goes elsewhere stays out of `bytes`. -/
lemma OnlyInto.foldl_storeSize {dest : Dest} (h : OnlyInto dest t) (hne : dest ≠ .size) :
    t.foldl storeSize buf = buf := by
  induction t with
  | nil => rfl
  | cons e t ih =>
      have hhead : storeSize buf e = buf := by
        obtain ⟨c, r⟩ := e
        obtain ⟨offset, n, rfl⟩ := h _ (List.mem_cons_self ..)
        cases dest with
        | size => exact absurd rfl hne
        | _ => rfl
      rw [List.foldl_cons, hhead]
      exact ih fun e he => h e (List.mem_cons_of_mem _ he)

/-- `_recv` into `bytes` stores what arrives. -/
lemma recvFrom_storeSize {len : ℕ} (hlen : len < 2 ^ 64) :
    ∀ {fuel offset : ℕ} {buf : List UInt8} {t : Trace},
    Returns ((recvFrom .size len fuel offset buf).run g) t ((n, buf'), g') →
    t.foldl storeSize buf = buf'
  | 0, _, _, _, h => absurd h returns_run_halt
  | fuel + 1, offset, buf, t, h => by
      rcases recvFrom_cases hlen h with ⟨-, rfl, -, rfl⟩ | ⟨-, c, hc, rfl, -, rfl⟩ |
        ⟨-, t', rfl, h'⟩ | ⟨-, t', c, -, rfl, -, h'⟩
      · rfl
      · rw [List.foldl_cons, List.foldl_nil, storeSize, hc, store_nil]
      · rw [List.foldl_cons]
        exact recvFrom_storeSize hlen h'
      · rw [List.foldl_cons]
        exact recvFrom_storeSize hlen h'

/-- Where nothing is stored in `bytes`, it is as it was. -/
lemma storedSize_eq (hlt : g.bytes < 2 ^ 64)
    (h : ∀ buf, t.foldl storeSize buf = buf) : storedSize g.bytes t = g.bytes := by
  rw [storedSize, h]
  exact ofBytes_toBytes (hlt.trans_eq (by norm_num [sizeofBytes]))

lemma serverOpen_bytes (hlt : g.bytes < 2 ^ 64)
    (h : Returns ((serverOpen fuel hdr).run g) t (ret, g')) :
    g'.bytes = g.bytes ∧ storedSize g.bytes t = g.bytes := by
  obtain ⟨t', r, rfl, h'⟩ := returns_respond h
  cases serverOpenFile_run h' with
  | busy _ => exact ⟨rfl, storedSize_eq hlt fun _ => rfl⟩
  | noMemory _ => exact ⟨rfl, storedSize_eq hlt fun _ => rfl⟩
  | noPath _ heap t n mem hrecv _ =>
      refine ⟨rfl, storedSize_eq hlt fun buf => ?_⟩
      simp [storeSize, (recv_onlyInto hrecv.canDo).foldl_storeSize]
  | notOpened hfree heap t mem e hrecv =>
      refine ⟨rfl, storedSize_eq hlt fun buf => ?_⟩
      simp [storeSize, (recv_onlyInto hrecv.canDo).foldl_storeSize]
  | opened hfree heap t mem fd hrecv =>
      refine ⟨rfl, storedSize_eq hlt fun buf => ?_⟩
      simp [storeSize, (recv_onlyInto hrecv.canDo).foldl_storeSize]

lemma DataRun.bytes (h : DataRun fuel g t ret g') :
    g'.bytes = g.bytes ∧ t.foldl storeSize buf = buf := by
  cases h with
  | notResized e => exact ⟨rfl, rfl⟩
  | notMapped u e => exact ⟨rfl, rfl⟩
  | noData u mapping t n mem hrecv _ =>
      exact ⟨rfl, (recv_onlyInto hrecv.canDo).foldl_storeSize (by simp)⟩
  | data u mapping t mem hrecv =>
      exact ⟨rfl, (recv_onlyInto hrecv.canDo).foldl_storeSize (by simp)⟩

lemma serverWrite_bytes (hlt : g.bytes < 2 ^ 64)
    (h : Returns ((serverWrite fuel hdr).run g) t (ret, g')) :
    g'.bytes = storedSize g.bytes t ∧ g'.bytes < 2 ^ 64 := by
  obtain ⟨t', r, rfl, h'⟩ := returns_respond h
  cases serverWriteFile_run h' with
  | refused _ => exact ⟨(storedSize_eq hlt fun _ => rfl).symm, hlt⟩
  | noSize _ _ t n buf hrecv _ =>
      refine ⟨?_, recv_size_lt hrecv⟩
      rw [storedSize, List.foldl_append, recvFrom_storeSize (by decide) hrecv]
      rfl
  | size _ _ t₁ t₂ buf _ _ hrecv hdata =>
      obtain ⟨hbytes, hfold⟩ := hdata.bytes
      rw [hbytes, storedSize, List.foldl_append, List.foldl_append,
        recvFrom_storeSize (by decide) hrecv, hfold]
      exact ⟨rfl, recv_size_lt hrecv⟩

/-- What a message leaves in `bytes`. -/
lemma serverHandle_bytes (hlt : g.bytes < 2 ^ 64)
    (h : Returns ((serverHandle fuel hdr).run g) t (ret, g')) :
    g'.bytes = storedSize g.bytes t ∧ g'.bytes < 2 ^ 64 := by
  rw [serverHandle] at h
  split at h
  · obtain ⟨hbytes, hstored⟩ := serverOpen_bytes hlt h
    rw [hstored, hbytes]
    exact ⟨rfl, hlt⟩
  · split at h
    · obtain ⟨t₁, t₂, u, g₁, rfl, h₁, h₂⟩ := returns_run_bind.mp h
      obtain ⟨rfl, -, rfl⟩ := returns_run_pure.mp h₂
      obtain ⟨r, rfl, rfl⟩ := returns_serverClose.mp h₁
      refine ⟨(storedSize_eq hlt fun buf => ?_).symm, hlt⟩
      by_cases haddr : g.fileAddr ≠ 0 <;> by_cases hfd : g.fd > 0 <;> simp [haddr, hfd, storeSize]
    · split at h
      · exact serverWrite_bytes hlt h
      · rw [msgSendResp, bind_assoc] at h
        obtain ⟨r, t', rfl, h'⟩ := returns_run_perform_bind.mp h
        obtain ⟨rfl, -, rfl⟩ := returns_run_pure.mp h'
        exact ⟨(storedSize_eq hlt fun _ => rfl).symm, hlt⟩

/-! ## What a message does

The ways through the three handlers, each with what it does to the files, the mappings and the
three globals (`Outcome`).  The two directions of the result are case analyses over it. -/

/-- **What a message does to the file and the mapping.** -/
inductive Outcome (hdr : MsgHdr) (g : Globals) : Trace → Globals → Prop
  | kept {t : Trace} {g' : Globals} (hops : ∀ op ∈ fileOps t, op = .failed)
      (hmaps : mapsMade t = []) (hfd : g'.fd = g.fd ∨ g.fd ≤ 0 ∧ g'.fd ≤ 0)
      (haddr : g'.fileAddr = g.fileAddr) : Outcome hdr g t g'
  | opened {t : Trace} {g' : Globals} (path : List UInt8) (fd : ℕ)
      (hfree : ¬ (g.fileAddr ≠ 0 ∨ g.fd > 0)) (hops : fileOps t = [.opened path fd])
      (hmaps : mapsMade t = []) (hfd : g'.fd = fd) (haddr : g'.fileAddr = g.fileAddr) :
      Outcome hdr g t g'
  | notMapped {t : Trace} {g' : Globals} (n : ℕ) (hfd : 0 < g.fd)
      (hops : fileOps t = [.resized g.fd n, .failed]) (hmaps : mapsMade t = [false])
      (hfd' : g'.fd = g.fd) (haddr : g'.fileAddr = mapFailed) : Outcome hdr g t g'
  | mapped {t : Trace} {g' : Globals} (addr : ℕ) (hfd : 0 < g.fd)
      (hops : fileOps t = [.resized g.fd g'.bytes, .mapped g.fd g'.bytes addr])
      (hmaps : mapsMade t = [true]) (hfd' : g'.fd = g.fd) (haddr : g'.fileAddr = addr)
      (hpos : 0 < addr) (hlt : addr < mapFailed) : Outcome hdr g t g'
  | closed {t : Trace} (hcmd : hdr.command = cmdClose)
      (hops : fileOps t = (if g.fileAddr ≠ 0 then [.unmapped g.fileAddr g.bytes] else []) ++
        if g.fd > 0 then [.closed g.fd] else [])
      (hmaps : mapsMade t = []) : Outcome hdr g t g.closed

lemma serverOpen_outcome (h : Returns ((serverOpen fuel hdr).run g) t (ret, g')) :
    Outcome hdr g t g' := by
  obtain ⟨t', r, rfl, h'⟩ := returns_respond h
  cases serverOpenFile_run h' with
  | busy _ => exact Outcome.kept (by simp [fileOp]) rfl (Or.inl rfl) rfl
  | noMemory _ => exact Outcome.kept (by simp [fileOp]) rfl (Or.inl rfl) rfl
  | noPath _ heap t n mem hrecv _ =>
      have honly := recv_onlyInto hrecv.canDo
      refine Outcome.kept ?_ ?_ (Or.inl rfl) rfl
      · simp [fileOp, honly.fileOps_eq]
      · simp [mapMade, honly.mapsMade_eq]
  | notOpened hfree heap t mem e hrecv =>
      have honly := recv_onlyInto hrecv.canDo
      simp only [not_or, not_lt] at hfree
      refine Outcome.kept ?_ ?_ (Or.inr ⟨hfree.2, show (-1 : Int) ≤ 0 by decide⟩) rfl
      · simp [fileOp, honly.fileOps_eq]
      · simp [mapMade, honly.mapsMade_eq]
  | opened hfree heap t mem fd hrecv =>
      have honly := recv_onlyInto hrecv.canDo
      refine Outcome.opened (cString mem) fd hfree ?_ ?_ rfl rfl
      · simp [fileOp, honly.fileOps_eq]
      · simp [mapMade, honly.mapsMade_eq]

/-- The data of a WRITE, behind the size. -/
lemma DataRun.outcome (h : DataRun fuel g t ret g') (hfd : 0 < g.fd) : Outcome hdr g t g' := by
  cases h with
  | notResized e => exact Outcome.kept (by simp [fileOp]) rfl (Or.inl rfl) rfl
  | notMapped u e => exact Outcome.notMapped g.bytes hfd rfl rfl rfl rfl
  | noData u mapping t n mem hrecv _ =>
      have honly := recv_onlyInto hrecv.canDo
      refine Outcome.mapped mapping.addr hfd ?_ ?_ rfl rfl mapping.pos mapping.lt
      · simp [fileOp, honly.fileOps_eq]
      · simp [mapMade, Except.isOk, Except.toBool, honly.mapsMade_eq]
  | data u mapping t mem hrecv =>
      have honly := recv_onlyInto hrecv.canDo
      refine Outcome.mapped mapping.addr hfd ?_ ?_ rfl rfl mapping.pos mapping.lt
      · simp [fileOp, honly.fileOps_eq]
      · simp [mapMade, Except.isOk, Except.toBool, honly.mapsMade_eq]

/-- Calls that have nothing to do with files, around a message. -/
lemma Outcome.around {t₁ t₂ : Trace} (h : Outcome hdr { g with bytes := n } t g')
    (hops : fileOps t₁ = []) (hmaps : mapsMade t₁ = []) (hops' : fileOps t₂ = [])
    (hmaps' : mapsMade t₂ = []) (hcmd : hdr.command ≠ cmdClose) :
    Outcome hdr g (t₁ ++ (t ++ t₂)) g' := by
  have hopsEq : fileOps (t₁ ++ (t ++ t₂)) = fileOps t := by simp [hops, hops']
  have hmapsEq : mapsMade (t₁ ++ (t ++ t₂)) = mapsMade t := by simp [hmaps, hmaps']
  cases h with
  | kept h₁ h₂ h₃ h₄ => exact Outcome.kept (hopsEq ▸ h₁) (hmapsEq ▸ h₂) h₃ h₄
  | opened path fd h₁ h₂ h₃ h₄ h₅ =>
      exact Outcome.opened path fd h₁ (hopsEq ▸ h₂) (hmapsEq ▸ h₃) h₄ h₅
  | notMapped n h₁ h₂ h₃ h₄ h₅ => exact Outcome.notMapped n h₁ (hopsEq ▸ h₂) (hmapsEq ▸ h₃) h₄ h₅
  | mapped addr h₁ h₂ h₃ h₄ h₅ h₆ h₇ =>
      exact Outcome.mapped addr h₁ (hopsEq ▸ h₂) (hmapsEq ▸ h₃) h₄ h₅ h₆ h₇
  | closed h₁ h₂ h₃ => exact absurd h₁ hcmd

lemma serverWrite_outcome (h : Returns ((serverWrite fuel hdr).run g) t (ret, g'))
    (hcmd : hdr.command ≠ cmdClose) : Outcome hdr g t g' := by
  obtain ⟨t', r, rfl, h'⟩ := returns_respond h
  cases serverWriteFile_run h' with
  | refused _ => exact Outcome.kept (by simp [fileOp]) rfl (Or.inl rfl) rfl
  | noSize _ _ t n buf hrecv _ =>
      have honly := recv_onlyInto hrecv.canDo
      refine Outcome.kept ?_ ?_ (Or.inl rfl) rfl
      · simp [fileOp, honly.fileOps_eq]
      · simp [mapMade, honly.mapsMade_eq]
  | size hfd _ t₁ t₂ buf _ _ hrecv hdata =>
      have honly := recv_onlyInto hrecv.canDo
      have houtcome : Outcome hdr { g with bytes := ofBytes buf } t₂ g' := hdata.outcome hfd
      rw [List.append_assoc]
      exact houtcome.around honly.fileOps_eq honly.mapsMade_eq rfl rfl hcmd

/-- What a CLOSE unmaps and closes. -/
lemma serverHandle_closes (hcmd : hdr.command = cmdClose)
    (h : Returns ((serverHandle fuel hdr).run g) t (ret, g')) :
    fileOps t = (if g.fileAddr ≠ 0 then [.unmapped g.fileAddr g.bytes] else []) ++
      (if g.fd > 0 then [.closed g.fd] else []) ∧ mapsMade t = [] ∧ g' = g.closed := by
  rw [serverHandle_close hcmd] at h
  obtain ⟨t₁, t₂, u, g₁, rfl, h₁, h₂⟩ := returns_run_bind.mp h
  obtain ⟨rfl, -, rfl⟩ := returns_run_pure.mp h₂
  obtain ⟨r, rfl, rfl⟩ := returns_serverClose.mp h₁
  refine ⟨?_, ?_, rfl⟩
  · by_cases haddr : g.fileAddr ≠ 0 <;> by_cases hfd : g.fd > 0 <;> simp [haddr, hfd, fileOp]
  · by_cases haddr : g.fileAddr ≠ 0 <;> by_cases hfd : g.fd > 0 <;> simp [haddr, hfd, mapMade]

/-- The `switch` of `server_process`. -/
theorem serverHandle_outcome (h : Returns ((serverHandle fuel hdr).run g) t (ret, g')) :
    Outcome hdr g t g' := by
  by_cases hclose : hdr.command = cmdClose
  · obtain ⟨hops, hmaps, rfl⟩ := serverHandle_closes hclose h
    exact Outcome.closed hclose hops hmaps
  rw [serverHandle] at h
  split at h
  · exact serverOpen_outcome h
  · split at h
    · exact serverWrite_outcome h hclose
    · rw [msgSendResp, bind_assoc] at h
      obtain ⟨r, t', rfl, h'⟩ := returns_run_perform_bind.mp h
      obtain ⟨rfl, -, rfl⟩ := returns_run_pure.mp h'
      exact Outcome.kept (by simp [fileOp]) rfl (Or.inl rfl) rfl

/-! ## What the server keeps up -/

/-- The globals and the resources between two messages.  The last two clauses tie the globals to
what the system has: the file of a positive descriptor is the only one open, and there is no
mapping without an open file. -/
structure ServerInv (g : Globals) (r : Resources) : Prop extends ResourceOk g r where
  bytes_lt : g.bytes < 2 ^ 64
  addr_ne : g.fileAddr ≠ mapFailed
  file_open : 0 < g.fd → r.files = [g.fd]
  file_closed : g.fd ≤ 0 → g.fileAddr = 0

lemma serverInv_start : ServerInv {} {} where
  files := Nat.zero_le _
  maps := Nat.zero_le _
  null := ⟨fun _ => rfl, fun _ => rfl⟩
  live m hm := absurd hm (by simp)
  bytes_lt := by norm_num
  addr_ne := by decide
  file_open h := absurd h (by decide)
  file_closed _ := rfl

variable {r : Resources}

/-- The one mapping that is live. -/
lemma ServerInv.map_eq (h : ServerInv g r) (haddr : g.fileAddr ≠ 0) :
    r.maps = [⟨g.fileAddr, g.bytes, g.fd⟩] := by
  obtain ⟨m, hm⟩ := List.exists_mem_of_ne_nil r.maps fun hnil => haddr (h.null.mpr hnil)
  obtain ⟨m', hmaps⟩ := List.length_eq_one_iff.mp
    (le_antisymm h.maps (List.length_pos_of_mem hm))
  obtain ⟨h₁, h₂, h₃⟩ := h.live m' (by rw [hmaps]; exact List.mem_singleton_self _)
  rw [hmaps, ← h₁, ← h₂, ← h₃]

/-- A message without effect, or an open that failed. -/
lemma ServerInv.kept (h : ServerInv g r) (hfd : g'.fd = g.fd ∨ g.fd ≤ 0 ∧ g'.fd ≤ 0)
    (haddr : g'.fileAddr = g.fileAddr) (hlt : g'.bytes < 2 ^ 64)
    (hbytes : g.fileAddr ≠ 0 → g'.bytes = g.bytes) : ServerInv g' r where
  files := h.files
  maps := h.maps
  null := haddr ▸ h.null
  live m hm := by
    have hne : g.fileAddr ≠ 0 := fun hnull => by
      rw [h.null.mp hnull] at hm
      exact absurd hm (by simp)
    have hfd' : g'.fd = g.fd := hfd.resolve_right fun hfd => hne (h.file_closed hfd.1)
    rw [haddr, hbytes hne, hfd']
    exact h.live m hm
  bytes_lt := hlt
  addr_ne := haddr ▸ h.addr_ne
  file_open hpos := by
    have hfd' : g'.fd = g.fd := hfd.resolve_right fun hfd => absurd hpos (not_lt.mpr hfd.2)
    rw [hfd'] at hpos ⊢
    exact h.file_open hpos
  file_closed hneg := by
    rw [haddr]
    refine h.file_closed ?_
    rcases hfd with hfd | hfd
    · exact hfd ▸ hneg
    · exact hfd.1

/-- A file is opened where there is none. -/
lemma ServerInv.opened (h : ServerInv g r) (hfree : ¬ (g.fileAddr ≠ 0 ∨ g.fd > 0)) {fd : ℕ}
    (hfd : g'.fd = fd) (haddr : g'.fileAddr = g.fileAddr) (hlt : g'.bytes < 2 ^ 64)
    (hfiles : r.files = []) : ServerInv g' { r with files := (fd : Int) :: r.files } := by
  simp only [not_or, not_not] at hfree
  have hmaps := h.null.mp hfree.1
  exact {
    files := by simp [hfiles]
    maps := h.maps
    null := haddr ▸ h.null
    live := fun m hm => by simp [hmaps] at hm
    bytes_lt := hlt
    addr_ne := haddr ▸ h.addr_ne
    file_open := fun _ => by rw [hfiles, hfd]
    file_closed := fun _ => haddr.trans hfree.1 }

/-- A mapping is made where there is none. -/
lemma ServerInv.mapped (h : ServerInv g r) (hfd : 0 < g.fd) {addr : ℕ} (hfd' : g'.fd = g.fd)
    (haddr : g'.fileAddr = addr) (hpos : 0 < addr) (hlt : addr < mapFailed)
    (hbytes : g'.bytes < 2 ^ 64) (hnone : g.fileAddr = 0) :
    ServerInv g' { r with maps := ⟨addr, g'.bytes, g.fd⟩ :: r.maps } := by
  have hmaps := h.null.mp hnone
  exact {
    files := h.files
    maps := by simp [hmaps]
    null := by simp [haddr, hpos.ne']
    live := fun m hm => by
      rw [hmaps, List.mem_singleton] at hm
      subst hm
      exact ⟨haddr.symm, rfl, hfd'.symm⟩
    bytes_lt := hbytes
    addr_ne := haddr ▸ hlt.ne
    file_open := fun _ => hfd' ▸ h.file_open hfd
    file_closed := fun hneg => absurd hfd (not_lt.mpr (hfd' ▸ hneg)) }

/-- What a CLOSE unmaps and closes, and what is left. -/
lemma ServerInv.closed (h : ServerInv g r)
    (hops : fileOps t = (if g.fileAddr ≠ 0 then [.unmapped g.fileAddr g.bytes] else []) ++
      if g.fd > 0 then [.closed g.fd] else []) :
    ServerInv g.closed ((fileOps t).foldl Resources.apply r) ∧
      ((fileOps t).foldl Resources.apply r).maps = [] := by
  have hmaps : r.maps.filter (fun m => ¬ (m.addr = g.fileAddr ∧ m.length = g.bytes)) = [] := by
    refine List.filter_eq_nil_iff.mpr fun m hm => ?_
    obtain ⟨h₁, h₂, -⟩ := h.live m hm
    simp [h₁, h₂]
  have hunmapped : (if g.fileAddr ≠ 0 then [FileOp.unmapped g.fileAddr g.bytes] else []).foldl
      Resources.apply r = { r with maps := [] } := by
    split
    · exact congrArg (Resources.mk r.files) hmaps
    · rename_i hnull
      rw [← h.null.mp (not_not.mp hnull)]
      rfl
  rw [hops, List.foldl_append, hunmapped]
  by_cases hfd : g.fd > 0
  · have hfiles : r.files.erase g.fd = [] := by rw [h.file_open hfd, List.erase_cons_head]
    rw [if_pos hfd]
    refine ⟨?_, rfl⟩
    exact {
      files := by simp [Resources.apply, hfiles]
      maps := Nat.zero_le _
      null := ⟨fun _ => rfl, fun _ => rfl⟩
      live := fun m hm => absurd hm (by simp [Resources.apply])
      bytes_lt := h.bytes_lt
      addr_ne := show 0 ≠ mapFailed by decide
      file_open := fun hpos => absurd hpos (by simp [Globals.closed])
      file_closed := fun _ => rfl }
  · rw [if_neg hfd]
    refine ⟨?_, rfl⟩
    exact {
      files := h.files
      maps := Nat.zero_le _
      null := ⟨fun _ => rfl, fun _ => rfl⟩
      live := fun m hm => absurd hm (by simp)
      bytes_lt := h.bytes_lt
      addr_ne := show 0 ≠ mapFailed by decide
      file_open := fun hpos => absurd hpos (by simp [Globals.closed])
      file_closed := fun _ => rfl }

/-- A call that fails leaves everything as it is. -/
lemma foldl_apply_failed {ops : List FileOp} (hops : ∀ op ∈ ops, op = .failed) :
    ops.foldl Resources.apply r = r := by
  induction ops with
  | nil => rfl
  | cons op ops ih =>
      rw [hops op (List.mem_cons_self ..), List.foldl_cons]
      exact ih fun op hop => hops op (List.mem_cons_of_mem _ hop)

/-- **One message** that the server can rely on leaves what it keeps up.  The ways through the
handlers (`Outcome`) are gone through one by one. -/
theorem ServerInv.message (h : ServerInv g r)
    (hrun : Returns ((serverHandle fuel hdr).run g) t (ret, g')) (hok : MessageOk g r t) :
    ServerInv g' ((fileOps t).foldl Resources.apply r) := by
  obtain ⟨hbytes, hlt⟩ := serverHandle_bytes h.bytes_lt hrun
  cases serverHandle_outcome hrun with
  | kept hops hmaps hfd haddr =>
      rw [foldl_apply_failed hops]
      exact h.kept hfd haddr hlt fun hne => hbytes.trans (hok.size hne)
  | opened path fd hfree hops hmaps hfd haddr =>
      have hfiles := hok.opens path fd (by rw [hops]; exact List.mem_singleton_self _)
      rw [hops]
      exact h.opened hfree hfd haddr hlt hfiles
  | notMapped n hfd hops hmaps hfd' haddr =>
      have hmade := hok.maps false (by rw [hmaps]; exact List.mem_singleton_self _)
      exact absurd hmade.2 (by decide)
  | mapped addr hfd hops hmaps hfd' haddr hpos haddrLt =>
      have hmade := hok.maps true (by rw [hmaps]; exact List.mem_singleton_self _)
      rw [hops]
      exact h.mapped hfd hfd' haddr hpos haddrLt hlt hmade.1
  | closed hcmd hops hmaps => exact (h.closed hops).1

/-- **One message** that leaves the globals right is one that the server can rely on.  The
condition that is broken leaves a trace: two files, two mappings, an address without a mapping, or
a mapping of another length than `bytes` says. -/
theorem ServerInv.messageOk (h : ServerInv g r)
    (hrun : Returns ((serverHandle fuel hdr).run g) t (ret, g'))
    (hok : ResourceOk g' ((fileOps t).foldl Resources.apply r)) : MessageOk g r t := by
  obtain ⟨hbytes, -⟩ := serverHandle_bytes h.bytes_lt hrun
  cases serverHandle_outcome hrun with
  | kept hops hmaps hfd haddr =>
      rw [foldl_apply_failed hops] at hok
      refine ⟨fun path fd hmem => absurd (hops _ hmem) (by simp), by simp [hmaps], fun hne => ?_⟩
      have hmem : ⟨g.fileAddr, g.bytes, g.fd⟩ ∈ r.maps := by
        rw [h.map_eq hne]
        exact List.mem_singleton_self _
      rw [← hbytes]
      exact (hok.live _ hmem).2.1.symm
  | opened path fd hfree hops hmaps hfd haddr =>
      simp only [not_or, not_not] at hfree
      refine ⟨fun _ _ _ => ?_, by simp [hmaps], fun hne => absurd hfree.1 hne⟩
      have hfiles := hok.files
      rw [hops] at hfiles
      exact List.length_eq_zero_iff.mp (Nat.le_zero.mp (Nat.le_of_succ_le_succ hfiles))
  | notMapped n hfd hops hmaps hfd' haddr =>
      rw [hops] at hok
      obtain ⟨m, hm⟩ := List.exists_mem_of_ne_nil r.maps fun hnil =>
        absurd (haddr.symm.trans (hok.null.mpr hnil)) (by decide)
      have hold := (h.live m hm).1
      have hnew := (hok.live m hm).1
      exact absurd (hold.symm.trans (hnew.trans haddr)) h.addr_ne
  | mapped addr hfd hops hmaps hfd' haddr hpos haddrLt =>
      have hnone : g.fileAddr = 0 := by
        have hlen := hok.maps
        rw [hops] at hlen
        exact h.null.mpr
          (List.length_eq_zero_iff.mp (Nat.le_zero.mp (Nat.le_of_succ_le_succ hlen)))
      refine ⟨fun path fd hmem => ?_, fun made hmade => ?_, fun hne => absurd hnone hne⟩
      · rw [hops] at hmem
        exact absurd hmem (by simp)
      · rw [hmaps, List.mem_singleton] at hmade
        exact ⟨hnone, hmade⟩
  | closed hcmd hops hmaps =>
      refine ⟨fun path fd hmem => ?_, by simp [hmaps], fun _ => hbytes.symm⟩
      rw [hops] at hmem
      by_cases haddr : g.fileAddr ≠ 0 <;> by_cases hfd : g.fd > 0 <;> simp [haddr, hfd] at hmem

/-! ## Whole runs -/

/-- **Every run** whose messages the server can rely on. -/
theorem Served.inv (h : Served MessageOk t g) : ServerInv g (liveAfter t) := by
  induction h with
  | start => exact serverInv_start
  | idle _ hidle ih =>
      rw [liveAfter_append, hidle]
      exact ih
  | message _ hrun hok ih =>
      rw [liveAfter_append]
      exact ih.message hrun hok

/-- **The file and the mapping of the server.**  In every run whose messages it could rely on, the
globals say what is live, and they go on to do so after the next message just where it can rely on
that one too.  A CLOSE unmaps the mapping that is live, in full, and nothing else.

A message goes through one of the ways of `Outcome`, and each changes what is live and the globals
in one known way.  Where the message is as `MessageOk` asks, the two agree again
(`ServerInv.message`).  Where it is not, a file is opened over an open one, or a mapping is lost,
made in vain or resized, and then they cannot agree (`ServerInv.messageOk`). -/
theorem served_resourceOk (h : Served MessageOk t g) :
    ResourceOk g (liveAfter t) ∧
    ∀ fuel hdr t' ret g', Returns ((serverHandle fuel hdr).run g) t' (ret, g') →
      (ResourceOk g' (liveAfter (t ++ t')) ↔ MessageOk g (liveAfter t) t') ∧
      (hdr.command = cmdClose → (liveAfter (t ++ t')).maps = [] ∧ ∀ addr length,
        .unmapped addr length ∈ fileOps t' ↔ ⟨addr, length, g.fd⟩ ∈ (liveAfter t).maps) := by
  have hinv := h.inv
  refine ⟨hinv.toResourceOk, fun fuel hdr t' ret g' hrun => ⟨?_, fun hcmd => ?_⟩⟩
  · rw [liveAfter_append]
    constructor
    · intro hok
      exact hinv.messageOk hrun hok
    · intro hok
      exact (hinv.message hrun hok).toResourceOk
  · obtain ⟨hops, -, rfl⟩ := serverHandle_closes hcmd hrun
    rw [liveAfter_append]
    refine ⟨(hinv.closed hops).2, fun addr length => ?_⟩
    rw [hops]
    by_cases haddr : g.fileAddr ≠ 0
    · rw [hinv.map_eq haddr]
      by_cases hfd : g.fd > 0 <;> simp [haddr, hfd]
    · rw [hinv.null.mp (not_not.mp haddr)]
      by_cases hfd : g.fd > 0 <;> simp [haddr, hfd]

end

/-! ## The loops

The runs of the program are runs of messages, with headers and connections between them.  So what
was shown for these holds for the program. -/

/-- Every message that is handled in `t'`, behind `t`, is `ok`. -/
def MessagesOk (ok : Globals → Resources → Trace → Prop) (t t' : Trace) : Prop :=
  ∀ t₁ t₂ t₃ g g' fuel hdr ret, t' = t₁ ++ (t₂ ++ t₃) → Served ok (t ++ t₁) g →
    Returns ((serverHandle fuel hdr).run g) t₂ (ret, g') → ok g (liveAfter (t ++ t₁)) t₂

section

variable {ok : Globals → Resources → Trace → Prop} {fuel : ℕ} {msg : MsgHdr} {g g' : Globals}
  {t t' t'' : Trace} {u : Unit}

lemma MessagesOk.left (h : MessagesOk ok t (t' ++ t'')) : MessagesOk ok t t' := by
  rintro t₁ t₂ t₃ g g' fuel hdr ret rfl hserved hrun
  exact h t₁ t₂ (t₃ ++ t'') g g' fuel hdr ret (by simp) hserved hrun

lemma MessagesOk.right (s : Trace) (h : MessagesOk ok t (s ++ t'')) :
    MessagesOk ok (t ++ s) t'' := by
  rintro t₁ t₂ t₃ g g' fuel hdr ret rfl hserved hrun
  rw [List.append_assoc] at hserved ⊢
  exact h (s ++ t₁) t₂ t₃ g g' fuel hdr ret (by simp) hserved hrun

/-- **Every run of the loop** is a run of messages, which are `ok` if each of them is.  Between two
messages there is the next header, which does nothing to files or mappings. -/
theorem serverLoop_served : ∀ {fuel : ℕ} {msg : MsgHdr} {g g' : Globals} {t t' : Trace} {u : Unit},
    Served ok t g → Returns ((serverLoop fuel msg).run g) t' (u, g') → MessagesOk ok t t' →
    Served ok (t ++ t') g'
  | 0, msg, g, g', t, t', u, _, h, _ => absurd h returns_run_halt
  | fuel + 1, msg, g, g', t, t', u, hserved, h, hok => by
      rw [serverLoop] at h
      obtain ⟨t₁, t₂, ⟨ret, hdr⟩, g₁, rfl, h₁, h₂⟩ := returns_run_bind.mp h
      have hheader := hserved.idle (msgRecvHdr_onlyInto h₁.canDo).fileOps_eq
      obtain ⟨rfl, -⟩ := msgRecvHdr_cases h₁
      rw [← List.append_assoc]
      dsimp only at h₂
      split at h₂
      · obtain ⟨rfl, -, rfl⟩ := returns_run_pure.mp h₂
        exact hheader.idle rfl
      · obtain ⟨t₃, t₄, ret', g₂, rfl, h₃, h₄⟩ := returns_run_bind.mp h₂
        have hmessage : Served ok (t ++ t₁ ++ t₃) g₂ :=
          hheader.message h₃ (hok t₁ t₃ t₄ _ _ _ _ _ rfl hheader h₃)
        rw [← List.append_assoc]
        split at h₄
        · exact serverLoop_served hmessage h₄ ((hok.right _).right _)
        · obtain ⟨rfl, -, rfl⟩ := returns_run_pure.mp h₄
          exact hmessage.idle rfl

/-- **Every session** is a run of messages, which are `ok` if each of them is. -/
theorem serverSession_served (hserved : Served ok t g)
    (h : Returns ((serverSession fuel).run g) t' (u, g')) (hok : MessagesOk ok t t') :
    Served ok (t ++ t') g' := by
  obtain ⟨_, t₁, rfl, h₁⟩ := returns_run_perform_bind.mp h
  obtain ⟨t₂, t₃, _, g₁, rfl, h₂, h₃⟩ := returns_run_bind.mp h₁
  obtain ⟨msg, t₄, rfl, h₄⟩ := returns_run_perform_bind.mp h₂
  obtain ⟨_, t₅, rfl, h₅⟩ := returns_run_perform_bind.mp h₃
  obtain ⟨rfl, rfl⟩ := returns_run_perform.mp h₅
  have hbegin : Served ok (t ++ [⟨.raccept, ()⟩, ⟨.uninitialised, msg⟩]) g := hserved.idle rfl
  have hloop : MessagesOk ok (t ++ [⟨.raccept, ()⟩, ⟨.uninitialised, msg⟩]) t₄ :=
    MessagesOk.left (MessagesOk.right [⟨.raccept, ()⟩, ⟨.uninitialised, msg⟩] hok)
  have hend := (serverLoop_served hbegin h₄ hloop).idle
    (rfl : fileOps [⟨.rshutdown, ()⟩, ⟨.rclose, ()⟩] = [])
  simpa using hend

end

/-! ## Runs of two and three messages -/

lemma length_zeros (n : ℕ) : (List.replicate n (0 : UInt8)).length = n := List.length_replicate

lemma elsewhere_pos : 0 < 8192 := by norm_num

lemma elsewhere_lt : 8192 < 2 ^ 64 - 1 := by norm_num

/-- The world where every call succeeds, with another place for mappings. -/
def elsewhere (s : List UInt8) : (c : Call) → Reply c × List UInt8
  | .mmap _ length =>
      (.ok ⟨8192, elsewhere_pos, elsewhere_lt, List.replicate length 0, length_zeros length⟩, s)
  | c => reliable s c

/-- A message in a world where every call succeeds. -/
lemma exists_message (world : List UInt8 → (c : Call) → Reply c × List UInt8) (s : List UInt8)
    (hdr : MsgHdr) (g g' : Globals) (ops : List FileOp)
    (h : (play world s ((serverHandle 3 hdr).run g)).2.any (fun r : Int × Globals =>
      decide (r.2 = g' ∧ fileOps (play world s ((serverHandle 3 hdr).run g)).1 = ops)) = true) :
    ∃ t ret, Returns ((serverHandle 3 hdr).run g) t (ret, g') ∧ fileOps t = ops := by
  obtain ⟨t, ⟨ret, g''⟩, hrun, htest⟩ := exists_of_play world s _
    (fun t (r : Int × Globals) => decide (r.2 = g' ∧ fileOps t = ops)) h
  obtain ⟨rfl, hops⟩ := of_decide_eq_true htest
  exact ⟨t, ret, hrun, hops⟩

lemma exists_open : ∃ t ret, Returns ((serverHandle 3 openHdr8).run {}) t (ret, { fd := 3 }) ∧
    fileOps t = [.opened (List.replicate 7 97) 3] :=
  exists_message reliable (List.replicate 7 97 ++ [0]) openHdr8 {} { fd := 3 } _ (by decide +kernel)

lemma exists_write : ∃ t ret,
    Returns ((serverHandle 3 writeHdr).run { fd := 3 }) t (ret, ⟨1, 3, 4096⟩) ∧
    fileOps t = [.resized 3 1, .mapped 3 1 4096] :=
  exists_message reliable (toBytes 8 1 ++ [97]) writeHdr { fd := 3 } ⟨1, 3, 4096⟩ _
    (by decide +kernel)

lemma exists_secondWrite : ∃ t ret,
    Returns ((serverHandle 3 writeHdr).run ⟨1, 3, 4096⟩) t (ret, ⟨1, 3, 8192⟩) ∧
    fileOps t = [.resized 3 1, .mapped 3 1 8192] :=
  exists_message elsewhere (toBytes 8 1 ++ [97]) writeHdr ⟨1, 3, 4096⟩ ⟨1, 3, 8192⟩ _
    (by decide +kernel)

/-- One more message, after which the globals are right. -/
lemma Served.messageOk {t t' : Trace} {g g' : Globals} {fuel : ℕ} {hdr : MsgHdr} {ret : Int}
    (h : Served MessageOk t g) (hrun : Returns ((serverHandle fuel hdr).run g) t' (ret, g'))
    (hok : ResourceOk g' ((fileOps t').foldl Resources.apply (liveAfter t))) :
    Served MessageOk (t ++ t') g' :=
  h.message hrun (h.inv.messageOk hrun hok)

/-- An OPEN and a WRITE of one byte. -/
theorem served_resourceOk_openWrite : ∃ t g, Served MessageOk t g ∧
    liveAfter t = ⟨[3], [⟨4096, 1, 3⟩]⟩ ∧ ResourceOk g (liveAfter t) := by
  obtain ⟨t₁, ret₁, h₁, hops₁⟩ := exists_open
  obtain ⟨t₂, ret₂, h₂, hops₂⟩ := exists_write
  have hone : Served MessageOk t₁ { fd := 3 } :=
    Served.start.messageOk h₁ (by rw [hops₁]; decide)
  have hafter : liveAfter t₁ = ⟨[3], []⟩ := by rw [liveAfter, hops₁]; rfl
  have htwo : Served MessageOk (t₁ ++ t₂) ⟨1, 3, 4096⟩ :=
    hone.messageOk h₂ (by rw [hops₂, hafter]; decide)
  have hafter₂ : liveAfter (t₁ ++ t₂) = ⟨[3], [⟨4096, 1, 3⟩]⟩ := by
    rw [liveAfter_append, hops₂, hafter]
    rfl
  exact ⟨_, _, htwo, hafter₂, (served_resourceOk htwo).1⟩

/-- A second WRITE loses the mapping of the first. -/
theorem secondWrite_notResourceOk :
    ¬ ∀ t g, Served (fun _ _ _ => True) t g → ResourceOk g (liveAfter t) := by
  intro h
  obtain ⟨t₁, ret₁, h₁, hops₁⟩ := exists_open
  obtain ⟨t₂, ret₂, h₂, hops₂⟩ := exists_write
  obtain ⟨t₃, ret₃, h₃, hops₃⟩ := exists_secondWrite
  have hserved : Served (fun _ _ _ => True) (t₁ ++ t₂ ++ t₃) ⟨1, 3, 8192⟩ :=
    ((Served.start.message h₁ trivial).message h₂ trivial).message h₃ trivial
  have hmaps := (h _ _ hserved).maps
  rw [liveAfter_append, liveAfter_append, liveAfter, hops₁, hops₂, hops₃] at hmaps
  exact absurd hmaps (by decide)

end Rcopy

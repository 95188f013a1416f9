import Socks5d.Story

/-! # Name resolutions

A resolver thread knows its client by a pointer and a descriptor. Both stay good
until its job is handled, unless a reply that is still to be sent to the client
fails in the meantime. -/

namespace Socks5d
open EventRun

variable {s s' : Server} {id : ClientId} {c : Client} {x : Ctx} {e : Env} {fd : ℤ}
  {r : Ctx × Socks5State} {o : Outcome} {i m : FdInterest}

/-- The clients whose resolution has started and was not handled yet. -/
def awaited (w : World) : List ClientId := w.resolvers ++ w.resolutionJobs.map Job.id

/-- The send to a client in `RESOLVING` does not fail, other than by `EAGAIN`. -/
def SendSound : Server → ClientId → Client → ℤ → Env → Prop := fun _ _ c _ e =>
  ¬ (c.current = some .resolving ∧ bufferCanRead c.clientBuf = true ∧ e.send = .error)

structure Awaited (s : Server) : Prop where
  resolving : ∀ id ∈ awaited s.w, ∃ c, s.heap id = some c ∧ c.current = some .resolving
  sock : ∀ j ∈ s.w.resolutionJobs, ∀ c, s.heap j.id = some c → c.clientSock = j.fd
  nodup : (awaited s.w).Nodup
  stale : s.halted ≠ some .staleResolver
  block : ∀ st, s.halted ≠ some (.noBlockReady st)

/-! ## One event of one client -/

theorem enableWrite_resolvers (x : Ctx) : (enableWrite x).w.resolvers = x.w.resolvers :=
  Closes.enableWrite.resolvers_eq

theorem jump_resolvers (hj : jump r = .ok o) : o.w.resolvers = r.1.w.resolvers ∨
    (o.w.resolvers = r.1.id :: r.1.w.resolvers ∧ ∃ c,
      o.c = some c ∧ c.current = some .resolving) := by
  rcases jump_cases hj with ⟨-, rfl⟩ | ⟨-, ha⟩
  · exact .inl rfl
  obtain ⟨y, st⟩ := r
  cases st with
  | authMethod | plainAuth | request | proxy | connecting => cases ha; exact .inl rfl
  | resolving => cases ha; exact .inr ⟨rfl, _, rfl, rfl⟩
  | writeRemaining =>
    cases ha
    exact .inl (enableWrite_resolvers _)
  | done =>
    rw [clientDestroy_ok ha]
    exact .inl rfl

/-- What an event may do to the resolution of its client. -/
structure Patient (x : Ctx) (o : Outcome) : Prop where
  /-- A client that is waited for stays as it is. -/
  wait : x.id ∈ awaited x.w → o.w.resolvers = x.w.resolvers ∧
    ∃ c, o.c = some c ∧ c.current = some .resolving ∧ c.clientSock = x.c.clientSock
  start : x.id ∉ awaited x.w → o.w.resolvers = x.w.resolvers ∨
    (o.w.resolvers = x.id :: x.w.resolvers ∧ ∃ c, o.c = some c ∧ c.current = some .resolving)

theorem Handling.resolvers
    {ready : Socks5State → Option (Env → ℤ → Ctx → Except Fault (Ctx × Socks5State))}
    {st : Socks5State} (h : Handling ready e fd (handleFirst x) st r o) :
    o.w.resolvers = x.w.resolvers ∨
      (o.w.resolvers = x.id :: x.w.resolvers ∧ ∃ c,
        o.c = some c ∧ c.current = some .resolving) := by
  obtain ⟨hid, hw⟩ := handleFirst_same x
  have hres := jump_resolvers h.jump
  rw [h.quiet.id_eq, h.quiet.resolvers, hid, hw] at hres
  exact hres

section
variable (hres : x.id ∈ awaited x.w → x.c.current = some .resolving)
  (hctl : Ctl x.id x.c x.w.selector x.c.current)
  (hheld : Held (.socks5 x.id) x.w.selector fd i m)
include hres hctl hheld

theorem stmHandlerRead_patient (hi : i.read = true) (ho : stmHandlerRead e fd x = .ok o) :
    Patient x o := by
  obtain ⟨st, r, hh⟩ := stmHandlerRead_handling hctl hheld hi ho
  refine ⟨fun hmem => ?_, fun _ => hh.resolvers⟩
  -- a client in `RESOLVING` is not asked for input
  rw [hres hmem] at hctl
  have ha : Alone x.id x.c x.w.selector opWrite opRead := hctl
  rw [(ha.fd_eq hheld).2] at hi
  cases hi

theorem stmHandlerWrite_patient (hi : i.write = true) (hcap : itemsMaxSize ≤ x.w.selector.fdSize)
    (hok : SendSound s x.id x.c fd e) (ho : stmHandlerWrite e fd x = .ok o) : Patient x o := by
  obtain ⟨st, r, hh⟩ := stmHandlerWrite_handling hctl hheld hi hcap ho
  refine ⟨fun hmem => ?_, fun _ => hh.resolvers⟩
  have hcur := hres hmem
  rw [hcur] at hctl
  have ha : Alone x.id x.c x.w.selector opWrite opRead := hctl
  have hfd := (ha.fd_eq hheld).1
  have hx : handleFirst x = x := handleFirst_of_current hcur
  rw [hx] at hh
  obtain ⟨handler, hready, hr⟩ := hh.result
  obtain rfl : st = .resolving := Option.some.inj (hh.current.symm.trans hcur)
  cases hready
  have hst := stmState_of_current hcur
  -- the write stays in `RESOLVING` and keeps the socket
  have hstay : r.2 = .resolving ∧ r.1.c.current = some .resolving ∧
      r.1.c.clientSock = x.c.clientSock := by
    rcases handleProxyWrite_cases hr with
      ⟨-, ⟨-, -, hlate, rfl⟩ | ⟨-, -, rfl⟩ | ⟨hcan, hsend, rfl⟩ | ⟨n, -, rfl⟩⟩ | ⟨hne, -⟩
    · rw [hst] at hlate
      exact absurd hlate (by decide)
    · exact ⟨hst, hcur, rfl⟩
    · exact absurd ⟨hcur, hcan, hsend⟩ hok
    · exact ⟨hst, hcur, rfl⟩
    · exact absurd hfd hne
  rcases jump_cases hh.jump with ⟨-, rfl⟩ | ⟨hne, -⟩
  · exact ⟨hh.quiet.resolvers, _, rfl, hstay.2.1, hstay.2.2⟩
  · rw [hstay.1] at hne
    exact absurd hstay.2.1 hne

end

/-! ## Moves -/

/-- An event of a client nobody waits for, or of one that stays as it is. -/
theorem Awaited.outcome (h : Awaited s) (hc : s.heap id = some c)
    (hjobs : o.w.resolutionJobs = s.w.resolutionJobs) (hp : Patient ⟨id, c, s.w⟩ o) :
    Awaited { s with w := o.w, heap := Function.update s.heap id o.c } := by
  have hsame : ∀ {ids}, o.w.resolvers = ids →
      awaited o.w = ids ++ s.w.resolutionJobs.map Job.id := by
    intro ids hids
    rw [awaited, hids, hjobs]
  have hmem : ∀ j ∈ s.w.resolutionJobs, j.id ∈ awaited s.w := fun j hj =>
    List.mem_append_right _ (List.mem_map_of_mem hj)
  by_cases hw : id ∈ awaited s.w
  · obtain ⟨hres, c', hc', hcur, hsock⟩ := hp.wait hw
    have haw : awaited o.w = awaited s.w := hsame hres
    refine ⟨?_, ?_, by rw [haw]; exact h.nodup, h.stale, h.block⟩
    · intro j hj
      rw [haw] at hj
      dsimp only
      by_cases hji : j = id
      · exact ⟨c', by rw [hji, Function.update_self, hc'], hcur⟩
      · rw [Function.update_of_ne hji]
        exact h.resolving j hj
    · intro j hj cj hcj
      dsimp only at hj hcj
      rw [hjobs] at hj
      by_cases hji : j.id = id
      · rw [hji, Function.update_self, hc', Option.some.injEq] at hcj
        rw [← hcj, hsock]
        exact h.sock j hj c (hji ▸ hc)
      · rw [Function.update_of_ne hji] at hcj
        exact h.sock j hj cj hcj
  · have hother : ∀ j ∈ awaited s.w, Function.update s.heap id o.c j = s.heap j := by
      intro j hj
      rw [Function.update_of_ne]
      rintro rfl
      exact hw hj
    have hjob : ∀ j ∈ o.w.resolutionJobs, ∀ cj, Function.update s.heap id o.c j.id = some cj →
        cj.clientSock = j.fd := by
      intro j hj cj hcj
      rw [hjobs] at hj
      rw [hother _ (hmem j hj)] at hcj
      exact h.sock j hj cj hcj
    rcases hp.start hw with hres | ⟨hres, c', hc', hcur⟩
    · have haw : awaited o.w = awaited s.w := hsame hres
      refine ⟨?_, hjob, by rw [haw]; exact h.nodup, h.stale, h.block⟩
      intro j hj
      rw [haw] at hj
      dsimp only
      rw [hother j hj]
      exact h.resolving j hj
    · have haw : awaited o.w = id :: awaited s.w := hsame hres
      refine ⟨?_, hjob, by rw [haw]; exact List.nodup_cons.mpr ⟨hw, h.nodup⟩, h.stale, h.block⟩
      intro j hj
      rw [haw, List.mem_cons] at hj
      dsimp only
      rcases hj with rfl | hj
      · exact ⟨c', by rw [Function.update_self, hc'], hcur⟩
      · rw [hother j hj]
        exact h.resolving j hj

theorem Awaited.run {handler : Ctx → Except Fault Outcome} (h : Awaited s) (hc : s.heap id = some c)
    (hk : Kept ⟨id, c, s.w⟩ (handler ⟨id, c, s.w⟩))
    (herr : ∀ f, handler ⟨id, c, s.w⟩ = .error f → f.isMemory = true)
    (hp : ∀ o, handler ⟨id, c, s.w⟩ = .ok o → Patient ⟨id, c, s.w⟩ o) :
    Awaited (s.run id handler) := by
  cases hr : handler ⟨id, c, s.w⟩ with
  | error f =>
    rw [run_error hc hr]
    have hf := herr f hr
    refine ⟨h.resolving, h.sock, h.nodup, ?_, fun st => ?_⟩ <;> rintro ⟨⟩ <;> cases hf
  | ok o =>
    rw [run_ok hc hr]
    exact h.outcome hc (hk.ok o hr).2.jobs (hp o hr)

theorem Awaited.current (h : Awaited s) (hc : s.heap id = some c) (hw : id ∈ awaited s.w) :
    c.current = some .resolving := by
  obtain ⟨c', hc', hcur⟩ := h.resolving id hw
  rw [hc, Option.some.injEq] at hc'
  rw [hc']
  exact hcur

/-- The descriptor of a job is registered for the client that the job is for. -/
theorem Awaited.item (h : Awaited s) (hinv : Inv s) {j : Job} (hj : j ∈ s.w.resolutionJobs) :
    ∃ it, item? s.w.selector j.fd = some it ∧ it.data = some (.socks5 j.id) := by
  have hw : j.id ∈ awaited s.w := List.mem_append_right _ (List.mem_map_of_mem hj)
  obtain ⟨c, hc, hcur⟩ := h.resolving j.id hw
  have hctl := hinv.live j.id c hc
  rw [hcur] at hctl
  have ha : Alone j.id c s.w.selector opWrite opRead := hctl
  obtain ⟨it, hit, hd, -⟩ := ha.held
  rw [h.sock j hj c hc] at hit
  exact ⟨it, hit, hd⟩

/-- Only the lists of resolvers and jobs, the heap and the fault matter. -/
theorem Awaited.same (h : Awaited s) {w : World} (hr : w.resolvers = s.w.resolvers)
    (hj : w.resolutionJobs = s.w.resolutionJobs) : Awaited { s with w := w } := by
  have haw : awaited w = awaited s.w := by rw [awaited, awaited, hr, hj]
  refine ⟨?_, ?_, by rw [haw]; exact h.nodup, h.stale, h.block⟩
  · dsimp only
    rw [haw]
    exact h.resolving
  · dsimp only
    rw [hj]
    exact h.sock

theorem Awaited.accept (h : Awaited s) (hinv : Inv s) {w : World} (hb : Background s.w w)
    {fd : ℤ} {c : Client} :
    Awaited { s with
      w := acceptWorld w s.nextId fd
      heap := Function.update s.heap s.nextId (some c)
      nextId := s.nextId + 1 } := by
  have hw : awaited (acceptWorld w s.nextId fd) = awaited s.w := by
    rw [awaited, awaited, ← hb.resolvers, ← hb.jobs]
    rfl
  have hjobs : (acceptWorld w s.nextId fd).resolutionJobs = s.w.resolutionJobs := hb.jobs
  have hne : ∀ j ∈ awaited s.w, j ≠ s.nextId := by
    rintro j hj rfl
    obtain ⟨c', hc', -⟩ := h.resolving _ hj
    rw [(hinv.fresh _ (Nat.le_refl _)).1] at hc'
    cases hc'
  refine ⟨?_, ?_, by rw [hw]; exact h.nodup, h.stale, h.block⟩
  · intro j hj
    rw [hw] at hj
    dsimp only
    rw [Function.update_of_ne (hne j hj)]
    exact h.resolving j hj
  · intro j hj cj hcj
    dsimp only at hj hcj
    rw [hjobs] at hj
    rw [Function.update_of_ne (hne _ (List.mem_append_right _ (List.mem_map_of_mem hj)))] at hcj
    exact h.sock j hj cj hcj

theorem Awaited.resolved (h : Awaited s) (hmem : id ∈ s.w.resolvers) (hc : s.heap id = some c)
    (addrs : List AddrInfo) :
    Awaited { s with
      w := { s.w with
        resolvers := s.w.resolvers.erase id
        resolutionJobs := ⟨c.clientSock, id⟩ :: s.w.resolutionJobs }
      heap := Function.update s.heap id (some { c with resolution := addrs }) } := by
  have hperm :
      (s.w.resolvers.erase id ++ id :: s.w.resolutionJobs.map Job.id).Perm (awaited s.w) := by
    refine List.perm_middle.trans ?_
    exact (List.perm_cons_erase hmem).symm.append_right _
  refine ⟨?_, ?_, hperm.nodup_iff.mpr h.nodup, h.stale, h.block⟩
  · intro j hj
    have hj' : j ∈ awaited s.w := hperm.mem_iff.mp hj
    by_cases hji : j = id
    · subst hji
      have hcur := h.current hc hj'
      exact ⟨_, Function.update_self .., hcur⟩
    · dsimp only
      rw [Function.update_of_ne hji]
      exact h.resolving j hj'
  · intro j hj cj hcj
    by_cases hji : j.id = id
    · dsimp only at hcj
      rw [hji, Function.update_self, Option.some.injEq] at hcj
      rw [← hcj]
      rcases List.mem_cons.mp hj with rfl | hj'
      · rfl
      · exact h.sock j hj' c (hji ▸ hc)
    · dsimp only at hcj
      rw [Function.update_of_ne hji] at hcj
      rcases List.mem_cons.mp hj with rfl | hj'
      · exact absurd rfl hji
      · exact h.sock j hj' cj hcj

theorem Awaited.block_move (h : Awaited s) (hinv : Inv s) {j : Job} {jobs : List Job}
    (hj : s.w.resolutionJobs = j :: jobs) (hhit : Hit s id c j.fd i) :
    Awaited (({ s with w := { s.w with resolutionJobs := jobs } } : Server).run id
      stmHandlerBlock) := by
  have hjmem : j ∈ s.w.resolutionJobs := hj ▸ List.mem_cons_self
  -- the job finds the client it is for
  obtain ⟨it, hit, hd⟩ := h.item hinv hjmem
  obtain ⟨m, it', hit', hd', -⟩ := hhit.held
  obtain rfl : id = j.id := by
    rw [hit, Option.some.injEq] at hit'
    rw [← hit', hd] at hd'
    simpa using hd'.symm
  have hcur := h.current hhit.heap (List.mem_append_right _ (List.mem_map_of_mem hjmem))
  have hnodup : (s.w.resolvers ++ j.id :: jobs.map Job.id).Nodup := by
    have hn := h.nodup
    rw [awaited, hj] at hn
    exact hn
  have hperm := List.perm_middle.nodup_iff.mp hnodup
  rw [List.nodup_cons] at hperm
  have hless : Awaited { s with w := { s.w with resolutionJobs := jobs } } := by
    refine ⟨fun k hk => h.resolving k ?_, fun k hk => h.sock k ?_, hperm.2, h.stale, h.block⟩
    · rw [awaited, hj]
      rcases List.mem_append.mp hk with hk | hk
      · exact List.mem_append_left _ hk
      · exact List.mem_append_right _ (List.mem_cons_of_mem _ hk)
    · rw [hj]
      exact List.mem_cons_of_mem _ hk
  refine hless.run hhit.heap (stmHandlerBlock_kept (hhit.ctl hinv)) ?_ ?_
  · intro f hf
    unfold stmHandlerBlock at hf
    dsimp only at hf
    have hx : handleFirst ⟨j.id, c, { s.w with resolutionJobs := jobs }⟩ = ⟨j.id, c, _⟩ :=
      handleFirst_of_current hcur
    rw [hx, stmState_of_current hcur] at hf
    rw [jump_error hf]
    rfl
  · intro o ho
    obtain ⟨-, hjump⟩ := stmHandlerBlock_cases ho
    exact ⟨fun hmem => absurd hmem hperm.1, fun _ => jump_resolvers hjump⟩

theorem Awaited.move (h : Awaited s) (hinv : Inv s) (hm : Move SendSound s s') : Awaited s' := by
  cases hm with
  | background w hb => exact h.same hb.resolvers hb.jobs
  | nullHandler =>
    exact ⟨h.resolving, h.sock, h.nodup, by simp [Server.fault], by simp [Server.fault]⟩
  | stale id hmem hc =>
    obtain ⟨c, hc', -⟩ := h.resolving id (List.mem_append_left _ hmem)
    rw [hc] at hc'
    cases hc'
  | read id c fd i e hhit hi =>
    obtain ⟨m, hheld⟩ := hhit.held
    have hctl := hhit.ctl hinv
    exact h.run hhit.heap (stmHandlerRead_kept (x := ⟨id, c, s.w⟩) hctl hheld hi)
      (fun f hf => stmHandlerRead_error (x := ⟨id, c, s.w⟩) hctl hheld hi hf)
      fun o ho => stmHandlerRead_patient (x := ⟨id, c, s.w⟩) (h.current hhit.heap) hctl hheld hi ho
  | write id c fd i e hhit hi hok =>
    obtain ⟨m, hheld⟩ := hhit.held
    have hctl := hhit.ctl hinv
    exact h.run hhit.heap (stmHandlerWrite_kept (x := ⟨id, c, s.w⟩) hctl hheld hi hinv.cap)
      (fun f hf => stmHandlerWrite_error (x := ⟨id, c, s.w⟩) hctl hheld hi hinv.cap hf)
      fun o ho => stmHandlerWrite_patient (x := ⟨id, c, s.w⟩) (h.current hhit.heap) hctl hheld hi
        hinv.cap hok ho
  | accept w fd e hb hfd => exact h.accept hinv hb
  | mgmtAccept w fd e hb hfd _ => exact h.same hb.resolvers hb.jobs
  | mgmtClose fd it _ _ => exact h.same rfl rfl
  | resolved id c addrs hmem hc => exact h.resolved hmem hc addrs
  | block j jobs id c i hj hhit => exact h.block_move hinv hj hhit
  | drop j jobs halted hj hno _ =>
    obtain ⟨it, hit, hd⟩ := h.item hinv (hj ▸ List.mem_cons_self)
    exact absurd hd (hno it hit j.id)

/-! ## Runs -/

/-- As long as no send to a client in `RESOLVING` fails, every resolution ends with
the client that asked for it. -/
theorem resolution_reaches_its_client (users : UserTable) (masters monitors : List ℤ)
    (evs : List Event) (hok : Along step (WriteOk SendSound) (boot users masters monitors) evs) :
    let s := exec step (boot users masters monitors) evs
    (∀ id ∈ awaited s.w, ∃ c, s.heap id = some c ∧ c.current = some .resolving) ∧
    (∀ j ∈ s.w.resolutionJobs, ∃ it, item? s.w.selector j.fd = some it ∧
      it.data = some (.socks5 j.id)) ∧
    s.halted ≠ some .staleResolver ∧ ∀ st, s.halted ≠ some (.noBlockReady st) := by
  intro s
  have h0 : Awaited (boot users masters monitors) := by
    refine ⟨?_, ?_, List.nodup_nil, by simp [boot], by simp [boot]⟩
    · intro id hid
      cases hid
    · intro j hj
      cases hj
  obtain ⟨hinv, haw⟩ := run_invariant h0 (fun _ _ hi hm h => h.move hi hm) hok
  exact ⟨haw.resolving, fun j hj => haw.item hinv hj, haw.stale, haw.block⟩

/-- The condition asks nothing of runs in which no send fails. -/
theorem along_sendSound {s : Server} {evs : List Event}
    (h : ∀ ev ∈ evs, match ev with
      | .dispatch _ _ _ _ ew => ew.send ≠ .error
      | _ => True) : Along step (WriteOk SendSound) s evs := by
  refine along_writeOk (p := fun e => e.send ≠ .error) ?_ h
  intro s id c fd e he hbad
  exact he hbad.2.2

/-- CONNECT to the name `a`, port 80. -/
def nameRequest : List UInt8 := [0x5, 0x1, 0x0, 0x3, 1, 0x61, 0, 80]

theorem resolution_of_name_reaches_client :
    let evs := greet 3 ++ [readable 3 (.fine nameRequest 3), .resolved 0 []]
    let s := exec step (boot [] [] []) evs
    s.w.resolutionJobs = [⟨3, 0⟩] ∧
      ∃ it, item? s.w.selector 3 = some it ∧ it.data = some (.socks5 0) := by
  intro evs s
  have hok : Along step (WriteOk SendSound) (boot [] [] []) evs := by
    refine along_sendSound ?_
    simp [evs, greet, readable, writable, Env.fine]
  have hjobs : s.w.resolutionJobs = [⟨3, 0⟩] := by decide
  refine ⟨hjobs, (resolution_reaches_its_client [] [] [] evs hok).2.1 ⟨3, 0⟩ ?_⟩
  rw [hjobs]
  exact List.mem_cons_self

/-- The answer to the greeting is still unsent when the request arrives. Sending it
fails and destroys the client; its resolver then uses the freed client. -/
theorem resolver_of_destroyed_client_is_stale :
    (exec step (boot [] [] []) [readable 0 (.fine [] 3), readable 3 (.fine [0x5, 0x1, 0x0] 3),
      readable 3 (.fine nameRequest 3), writable 3 { Env.fine [] 3 with send := .error },
      .resolved 0 []]).halted = some .staleResolver := by decide

end Socks5d

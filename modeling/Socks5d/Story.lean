import Socks5d.Invariant

/-! # Properties of one client over a whole run

A `Story` speaks of the state of a client and of what has happened to it. It is
proved handler by handler; the rule of this module carries it to every run of the
server, whatever the other clients do. -/

namespace Socks5d

structure Story where
  /-- `live id st c h`: client `id` is in state `st` and has history `h`. -/
  live : ClientId → Socks5State → Client → List Obs → Prop
  /-- After `client_destroy`. -/
  gone : ClientId → List Obs → Prop
  current : ∀ {id st c h}, live id st c h → live id st { c with current := some st } h
  born : ∀ id fd n e k, minSocksBuffsize < n →
    live id .authMethod (createClient fd n e) [.accepted id k]
  read : ∀ {x e fd i m st handler r}, Ctl x.id x.c x.w.selector (some st) → x.c.current = some st →
    Held (.socks5 x.id) x.w.selector fd i m → onReadReady st = some handler →
      handler e fd x = .ok r → Quiet x r.1 →
    live x.id st x.c (history x.id x.w.log) → live x.id r.2 r.1.c (history x.id r.1.w.log)
  write : ∀ {x e fd i m st handler r}, Ctl x.id x.c x.w.selector (some st) → x.c.current = some st →
    Held (.socks5 x.id) x.w.selector fd i m → onWriteReady st = some handler →
      handler e fd x = .ok r → Quiet x r.1 →
    live x.id st x.c (history x.id x.w.log) → live x.id r.2 r.1.c (history x.id r.1.w.log)
  resolved : ∀ {id st c h} addrs, live id st c h → live id st { c with resolution := addrs } h
  block : ∀ {x}, live x.id .resolving x.c (history x.id x.w.log) →
    live x.id .connecting (handleFinishedResolution x).1.c (history x.id x.w.log)
  /-- The two states whose arrival is recorded. -/
  resolving : ∀ {id c h}, live id .resolving c h → live id .resolving c (h ++ [.resolving id])
  done : ∀ {id c h}, live id .done c h → gone id (h ++ [.destroyed id])

namespace Story

variable {S : Story} {s s' : Server} {okw : Server → ClientId → Client → ℤ → Env → Prop}
  {id : ClientId} {c : Client} {x : Ctx} {e : Env} {fd : ℤ} {i m : FdInterest}
  {r : Ctx × Socks5State} {o : Outcome}

def After (S : Story) (id : ClientId) (o : Outcome) : Prop :=
  match o.c with
  | some c => S.live id (stmState c) c (history id o.w.log)
  | none => S.gone id (history id o.w.log)

structure Told (S : Story) (s : Server) : Prop where
  live : ∀ id c, s.heap id = some c → S.live id (stmState c) c (history id s.w.log)
  gone : ∀ id, id < s.nextId → s.heap id = none → S.gone id (history id s.w.log)

/-! ## One event of one client -/

theorem history_own {l : List Obs} {o : Obs} (h : o.owner = id) :
    history id (l ++ [o]) = history id l ++ [o] := by
  rw [history_append, history_singleton, if_pos h]

theorem enableWrite_log (x : Ctx) : (enableWrite x).w.log = x.w.log := by
  have hwake : ∀ (b : Bool) (fd : ℤ) (y : Ctx), (wake b fd y).w.log = y.w.log := by
    intro b fd y
    cases b <;> rfl
  rw [enableWrite, hwake, hwake]

theorem after_jump (h : S.live r.1.id r.2 r.1.c (history r.1.id r.1.w.log)) (hj : jump r = .ok o) :
    S.After r.1.id o := by
  rcases jump_cases hj with ⟨hcur, rfl⟩ | ⟨-, ha⟩
  · have hst := stmState_of_current hcur
    rw [← hst] at h
    exact h
  have hx := S.current h
  obtain ⟨y, st⟩ := r
  cases st with
  | authMethod | plainAuth | request | proxy | connecting => cases ha; exact hx
  | resolving =>
    cases ha
    have hlog : history y.id (y.w.log ++ [.resolving y.id]) = _ := history_own rfl
    have hres := S.resolving hx
    rw [← hlog] at hres
    exact hres
  | writeRemaining =>
    cases ha
    unfold After
    dsimp only
    rw [enableWrite_c, enableWrite_log]
    exact hx
  | done =>
    rw [clientDestroy_ok ha]
    have hlog : history y.id (y.w.log ++ [.destroyed y.id]) = _ := history_own rfl
    have hgone := S.done h
    rw [← hlog] at hgone
    exact hgone

theorem handleFirst_live (h : S.live x.id (stmState x.c) x.c (history x.id x.w.log))
    {st : Socks5State}
    (hst : (handleFirst x).c.current = some st) :
    S.live (handleFirst x).id st (handleFirst x).c
      (history (handleFirst x).id (handleFirst x).w.log) := by
  rcases handleFirst_cases x with ⟨hnone, hx⟩ | ⟨-, hx⟩
  · rw [hx] at hst ⊢
    cases hst
    rw [stmState, hnone] at h
    exact S.current h
  · rw [hx] at hst ⊢
    rw [stmState_of_current hst] at h
    exact h

section
variable (hctl : Ctl x.id x.c x.w.selector x.c.current)
  (hheld : Held (.socks5 x.id) x.w.selector fd i m)
  (h : S.live x.id (stmState x.c) x.c (history x.id x.w.log))
include hctl hheld h

theorem after_read (hi : i.read = true) (ho : stmHandlerRead e fd x = .ok o) : S.After x.id o := by
  obtain ⟨hid, hw⟩ := handleFirst_same x
  obtain ⟨st, r, hh⟩ := stmHandlerRead_handling hctl hheld hi ho
  obtain ⟨handler, hready, hr⟩ := hh.result
  have hheld' : Held (.socks5 (handleFirst x).id) (handleFirst x).w.selector fd i m := by
    rw [hid, hw]
    exact hheld
  have hlive := S.read hh.ctl hh.current hheld' hready hr hh.quiet (handleFirst_live h hh.current)
  rw [← hh.quiet.id_eq] at hlive
  rw [← hid, ← hh.quiet.id_eq]
  exact after_jump hlive hh.jump

theorem after_write (hi : i.write = true) (hcap : itemsMaxSize ≤ x.w.selector.fdSize)
    (ho : stmHandlerWrite e fd x = .ok o) : S.After x.id o := by
  obtain ⟨hid, hw⟩ := handleFirst_same x
  obtain ⟨st, r, hh⟩ := stmHandlerWrite_handling hctl hheld hi hcap ho
  obtain ⟨handler, hready, hr⟩ := hh.result
  have hheld' : Held (.socks5 (handleFirst x).id) (handleFirst x).w.selector fd i m := by
    rw [hid, hw]
    exact hheld
  have hlive := S.write hh.ctl hh.current hheld' hready hr hh.quiet (handleFirst_live h hh.current)
  rw [← hh.quiet.id_eq] at hlive
  rw [← hid, ← hh.quiet.id_eq]
  exact after_jump hlive hh.jump

end

theorem after_block (h : S.live x.id (stmState x.c) x.c (history x.id x.w.log))
    (ho : stmHandlerBlock x = .ok o) : S.After x.id o := by
  obtain ⟨hcur, hj⟩ := stmHandlerBlock_cases ho
  rw [stmState_of_current hcur] at h
  have hlive := S.block h
  exact after_jump (r := handleFinishedResolution x) hlive hj

/-! ## Runs -/

theorem Told.run {handler : Ctx → Except Fault Outcome} (h : S.Told s) (hc : s.heap id = some c)
    (hk : Kept ⟨id, c, s.w⟩ (handler ⟨id, c, s.w⟩))
    (ha : ∀ o, handler ⟨id, c, s.w⟩ = .ok o → S.After id o) : S.Told (s.run id handler) := by
  cases hr : handler ⟨id, c, s.w⟩ with
  | error f =>
    rw [run_error hc hr]
    exact ⟨h.live, h.gone⟩
  | ok o =>
    have hafter := ha o hr
    have hloc := (hk.ok o hr).2
    rw [run_ok hc hr]
    refine ⟨?_, ?_⟩
    · intro j cj hj
      by_cases hji : j = id
      · subst hji
        simp only [Function.update_self] at hj
        unfold After at hafter
        rw [hj] at hafter
        exact hafter
      · simp only [Function.update_of_ne hji] at hj
        dsimp only
        rw [hloc.history j hji]
        exact h.live j cj hj
    · intro j hlt hj
      by_cases hji : j = id
      · subst hji
        simp only [Function.update_self] at hj
        unfold After at hafter
        rw [hj] at hafter
        exact hafter
      · simp only [Function.update_of_ne hji] at hj
        dsimp only
        rw [hloc.history j hji]
        exact h.gone j hlt hj

theorem Told.move (h : S.Told s) (hinv : Inv s) (hm : Move okw s s') : S.Told s' := by
  cases hm with
  | background w hb =>
    refine ⟨?_, ?_⟩
    · dsimp only
      rw [hb.log]
      exact h.live
    · dsimp only
      rw [hb.log]
      exact h.gone
  | nullHandler => exact ⟨h.live, h.gone⟩
  | stale id _ _ => exact ⟨h.live, h.gone⟩
  | read id c fd i e hhit hi =>
    obtain ⟨m, hheld⟩ := hhit.held
    have hctl := hhit.ctl hinv
    exact h.run hhit.heap (stmHandlerRead_kept (x := ⟨id, c, s.w⟩) hctl hheld hi) fun o ho =>
      after_read (x := ⟨id, c, s.w⟩) hctl hheld (h.live id c hhit.heap) hi ho
  | write id c fd i e hhit hi _ =>
    obtain ⟨m, hheld⟩ := hhit.held
    have hctl := hhit.ctl hinv
    exact h.run hhit.heap (stmHandlerWrite_kept (x := ⟨id, c, s.w⟩) hctl hheld hi hinv.cap)
      fun o ho => after_write (x := ⟨id, c, s.w⟩) hctl hheld (h.live id c hhit.heap) hi hinv.cap ho
  | accept w fd e hb hfd =>
    have hother : ∀ j, j ≠ s.nextId →
        history j (acceptWorld w s.nextId fd).log = history j s.w.log := by
      intro j hj
      have hnj : ¬ s.nextId = j := Ne.symm hj
      simp only [acceptWorld, history_append, history_singleton, Obs.owner, hnj, ↓reduceIte,
        List.append_nil, hb.log]
    refine ⟨?_, ?_⟩
    · intro j cj hj
      by_cases hji : j = s.nextId
      · subst hji
        simp only [Function.update_self, Option.some.injEq] at hj
        have hhist : history s.nextId (acceptWorld w s.nextId fd).log =
            [.accepted s.nextId w.nextSock] := by
          simp only [acceptWorld, history_append, history_singleton, Obs.owner, ↓reduceIte, hb.log,
            (hinv.fresh s.nextId (Nat.le_refl _)).2, List.nil_append]
        dsimp only
        rw [← hj, hhist]
        exact S.born s.nextId fd _ e _ (hb.buffsize hinv.buffsize)
      · simp only [Function.update_of_ne hji] at hj
        dsimp only
        rw [hother j hji]
        exact h.live j cj hj
    · intro j hlt hj
      by_cases hji : j = s.nextId
      · subst hji
        simp only [Function.update_self] at hj
        cases hj
      · simp only [Function.update_of_ne hji] at hj
        dsimp only
        rw [hother j hji]
        have hle : j ≤ s.nextId := Nat.lt_succ_iff.mp hlt
        exact h.gone j (Nat.lt_of_le_of_ne hle hji) hj
  | mgmtAccept w fd e hb hfd _ =>
    refine ⟨?_, ?_⟩
    · dsimp only
      rw [hb.log]
      exact h.live
    · dsimp only
      rw [hb.log]
      exact h.gone
  | mgmtClose fd it _ _ => exact ⟨h.live, h.gone⟩
  | resolved id c addrs _ hc =>
    refine ⟨?_, ?_⟩
    · intro j cj hj
      by_cases hji : j = id
      · subst hji
        simp only [Function.update_self, Option.some.injEq] at hj
        subst hj
        exact S.resolved addrs (h.live j c hc)
      · simp only [Function.update_of_ne hji] at hj
        exact h.live j cj hj
    · intro j hlt hj
      by_cases hji : j = id
      · subst hji
        simp only [Function.update_self] at hj
        cases hj
      · simp only [Function.update_of_ne hji] at hj
        exact h.gone j hlt hj
  | block j jobs id c i _ hhit =>
    have hk : Kept ⟨id, c, { s.w with resolutionJobs := jobs }⟩ (stmHandlerBlock _) :=
      stmHandlerBlock_kept (hhit.ctl hinv)
    have ht : S.Told { s with w := { s.w with resolutionJobs := jobs } } := ⟨h.live, h.gone⟩
    exact ht.run hhit.heap hk fun o ho => after_block (h.live id c hhit.heap) ho
  | drop j jobs halted _ _ _ => exact ⟨h.live, h.gone⟩

theorem reachable (S : Story) (users : UserTable) (masters monitors : List ℤ) (evs : List Event) :
    S.Told (EventRun.exec step (boot users masters monitors) evs) := by
  have h0 : S.Told (boot users masters monitors) := by
    refine ⟨?_, ?_⟩
    · intro id c hc
      cases hc
    · intro id hlt
      exact absurd hlt (Nat.not_lt_zero id)
  exact (run_invariant h0 (fun s s' hinv hm h => h.move hinv hm) (along_anyWrite _ evs)).2

end Story

/-! ## One client of a run -/

section
variable {s s' : Server} {okw : Server → ClientId → Client → ℤ → Env → Prop} {id : ClientId}
  {c : Client} {x : Ctx} {o : Outcome} {r : Ctx × Socks5State}

/-- The two arrivals that are recorded. -/
theorem jump_log (h : jump r = .ok o) :
    ∃ os, (∀ ob ∈ os, ob = .resolving r.1.id ∨ ob = .destroyed r.1.id) ∧
      o.w.log = r.1.w.log ++ os := by
  have hnil : ∀ ob ∈ ([] : List Obs), ob = .resolving r.1.id ∨ ob = .destroyed r.1.id := by simp
  rcases jump_cases h with ⟨-, rfl⟩ | ⟨-, ha⟩
  · exact ⟨[], hnil, (List.append_nil _).symm⟩
  obtain ⟨y, st⟩ := r
  cases st with
  | authMethod | plainAuth | request | proxy | connecting =>
    cases ha
    exact ⟨[], hnil, (List.append_nil _).symm⟩
  | resolving =>
    cases ha
    exact ⟨[.resolving y.id], by simp, rfl⟩
  | writeRemaining =>
    cases ha
    exact ⟨[], hnil, by rw [Story.enableWrite_log, List.append_nil]; rfl⟩
  | done =>
    rw [clientDestroy_ok ha]
    exact ⟨[.destroyed y.id], by simp, rfl⟩

/-- The client that a jump leaves. -/
theorem jump_client (h : jump r = .ok o) (hdone : r.2 ≠ .done) :
    o.c = some { r.1.c with current := some r.2 } := by
  rcases jump_cases h with ⟨hcur, rfl⟩ | ⟨-, ha⟩
  · rw [← hcur]
  obtain ⟨z, st⟩ := r
  cases st with
  | authMethod | plainAuth | request | proxy | connecting | resolving =>
    cases ha
    rfl
  | writeRemaining =>
    cases ha
    dsimp only
    rw [enableWrite_c]
    rfl
  | done => exact absurd rfl hdone

theorem jump_gone (hn : Next r) (h : jump r = .ok o) (hdone : r.2 = .done) : o.c = none := by
  rcases hn with ⟨-, hctl⟩ | ⟨hcur, -⟩
  · rw [hdone] at hctl
    exact hctl.elim
  rcases jump_cases h with ⟨hcur', -⟩ | ⟨-, ha⟩
  · exact absurd hcur' hcur
  · rw [hdone] at ha
    rw [clientDestroy_ok ha]

theorem Handling.log
    {ready : Socks5State → Option (Env → ℤ → Ctx → Except Fault (Ctx × Socks5State))}
    {e : Env} {fd : ℤ} {st : Socks5State} (h : Handling ready e fd (handleFirst x) st r o) :
    ∃ os, o.w.log = x.w.log ++ os := by
  obtain ⟨os, -, hlog⟩ := h.quiet.logs
  obtain ⟨os', -, hlog'⟩ := jump_log h.jump
  rw [(handleFirst_same x).2] at hlog
  exact ⟨os ++ os', by rw [hlog', hlog, List.append_assoc]⟩

theorem run_history {handler : Ctx → Except Fault Outcome} (hc : s.heap id = some c)
    (hlog : ∀ o, handler ⟨id, c, s.w⟩ = .ok o → ∃ os, o.w.log = s.w.log ++ os) (j : ClientId) :
    ∃ os, history j (s.run id handler).w.log = history j s.w.log ++ os := by
  cases hr : handler ⟨id, c, s.w⟩ with
  | error f =>
    rw [run_error hc hr]
    exact ⟨[], (List.append_nil _).symm⟩
  | ok o =>
    obtain ⟨os, hos⟩ := hlog o hr
    rw [run_ok hc hr]
    exact ⟨history j os, by rw [← history_append, ← hos]⟩

/-- What has happened to a client stays. -/
theorem Move.history (hinv : Inv s) (hm : Move okw s s') (j : ClientId) :
    ∃ os, Socks5d.history j s'.w.log = Socks5d.history j s.w.log ++ os := by
  have hnone : ∀ l : List Obs, ∃ os, Socks5d.history j l = Socks5d.history j l ++ os :=
    fun l => ⟨[], (List.append_nil _).symm⟩
  cases hm with
  | background w hb =>
    dsimp only
    rw [hb.log]
    exact hnone _
  | nullHandler => exact hnone _
  | stale id _ _ => exact hnone _
  | read id c fd i e hhit hi =>
    obtain ⟨m, hheld⟩ := hhit.held
    apply run_history hhit.heap
    intro o ho
    obtain ⟨st, r, hh⟩ := stmHandlerRead_handling (x := ⟨id, c, s.w⟩) (hhit.ctl hinv) hheld hi ho
    exact hh.log
  | write id c fd i e hhit hi _ =>
    obtain ⟨m, hheld⟩ := hhit.held
    apply run_history hhit.heap
    intro o ho
    obtain ⟨st, r, hh⟩ := stmHandlerWrite_handling (x := ⟨id, c, s.w⟩) (hhit.ctl hinv) hheld hi
      hinv.cap ho
    exact hh.log
  | accept w fd e hb hfd =>
    refine ⟨Socks5d.history j [.accepted s.nextId w.nextSock], ?_⟩
    simp only [acceptWorld, history_append, hb.log]
  | mgmtAccept w fd e hb hfd _ =>
    dsimp only
    rw [hb.log]
    exact hnone _
  | mgmtClose fd it _ _ => exact hnone _
  | resolved id c addrs _ hc => exact hnone _
  | block j jobs id c i _ hhit =>
    refine run_history (s := { s with w := { s.w with resolutionJobs := jobs } }) hhit.heap ?_ _
    intro o ho
    obtain ⟨-, hj⟩ := stmHandlerBlock_cases ho
    obtain ⟨os, -, hlog⟩ := jump_log hj
    exact ⟨os, hlog⟩
  | drop j jobs halted _ _ _ => exact hnone _

theorem step_history (hinv : Inv s) (ev : Event) (j : ClientId) :
    ∃ os, history j (step s ev).w.log = history j s.w.log ++ os := by
  obtain ⟨s', hm, hm'⟩ := step_moves hinv ev (along_anyWrite s [ev]).1
  obtain ⟨os, hos⟩ := hm.history hinv j
  obtain ⟨os', hos'⟩ := hm'.history (hinv.move hm) j
  exact ⟨os ++ os', by rw [hos', hos, List.append_assoc]⟩

theorem run_others {j : ClientId} {cj : Client} {handler : Ctx → Except Fault Outcome}
    (hj : s.heap j = some cj) (hk : Kept ⟨j, cj, s.w⟩ (handler ⟨j, cj, s.w⟩)) (hne : id ≠ j) :
    (s.run j handler).heap id = s.heap id ∧
      history id (s.run j handler).w.log = history id s.w.log := by
  cases hr : handler ⟨j, cj, s.w⟩ with
  | error f =>
    rw [run_error hj hr]
    exact ⟨rfl, rfl⟩
  | ok o =>
    rw [run_ok hj hr]
    exact ⟨Function.update_of_ne hne _ _, (hk.ok o hr).2.history id hne⟩

/-- What a move can be for a client: nothing but perhaps the result of its resolver,
or one of its own events. -/
inductive Touch (okw : Server → ClientId → Client → ℤ → Env → Prop) (s : Server) (id : ClientId)
    (c : Client) (s' : Server) : Prop
  | none : s'.heap id = some c → history id s'.w.log = history id s.w.log → Touch okw s id c s'
  | resolved (addrs : List AddrInfo) : s'.heap id = some { c with resolution := addrs } →
    history id s'.w.log = history id s.w.log → Touch okw s id c s'
  | read (fd : ℤ) (i : FdInterest) (e : Env) : Hit s id c fd i → i.read = true →
    s' = s.run id (stmHandlerRead e fd) → Touch okw s id c s'
  | write (fd : ℤ) (i : FdInterest) (e : Env) : Hit s id c fd i → i.write = true →
    okw s id c fd e → s' = s.run id (stmHandlerWrite e fd) → Touch okw s id c s'
  | block (jobs : List Job) :
    s' = ({ s with w := { s.w with resolutionJobs := jobs } } : Server).run id stmHandlerBlock →
    Touch okw s id c s'

theorem Move.touch (hinv : Inv s) (hc : s.heap id = some c) (hm : Move okw s s') :
    Touch okw s id c s' := by
  cases hm with
  | background w hb => exact .none hc (by dsimp only; rw [hb.log])
  | nullHandler => exact .none hc rfl
  | stale id _ _ => exact .none hc rfl
  | read j cj fd i e hhit hi =>
    by_cases hj : id = j
    · subst hj
      obtain rfl : c = cj := Option.some.inj (hc.symm.trans hhit.heap)
      exact .read fd i e hhit hi rfl
    · obtain ⟨m, hheld⟩ := hhit.held
      obtain ⟨hh, hl⟩ := run_others hhit.heap
        (stmHandlerRead_kept (e := e) (x := ⟨j, cj, s.w⟩) (hhit.ctl hinv) hheld hi) hj
      exact .none (hh.trans hc) hl
  | write j cj fd i e hhit hi hok =>
    by_cases hj : id = j
    · subst hj
      obtain rfl : c = cj := Option.some.inj (hc.symm.trans hhit.heap)
      exact .write fd i e hhit hi hok rfl
    · obtain ⟨m, hheld⟩ := hhit.held
      obtain ⟨hh, hl⟩ := run_others hhit.heap
        (stmHandlerWrite_kept (e := e) (x := ⟨j, cj, s.w⟩) (hhit.ctl hinv) hheld hi hinv.cap) hj
      exact .none (hh.trans hc) hl
  | accept w fd e hb hfd =>
    have hne : id ≠ s.nextId := by
      rintro rfl
      rw [(hinv.fresh _ (Nat.le_refl _)).1] at hc
      cases hc
    refine .none ?_ ?_
    · dsimp only
      rw [Function.update_of_ne hne]
      exact hc
    · have hnj : ¬ s.nextId = id := Ne.symm hne
      simp only [acceptWorld, history_append, history_singleton, Obs.owner, hnj, ↓reduceIte,
        List.append_nil, hb.log]
  | mgmtAccept w fd e hb hfd _ => exact .none hc (by dsimp only; rw [hb.log])
  | mgmtClose fd it _ _ => exact .none hc rfl
  | resolved j cj addrs _ hcj =>
    by_cases hj : id = j
    · subst hj
      obtain rfl : c = cj := Option.some.inj (hc.symm.trans hcj)
      exact .resolved addrs (Function.update_self ..) rfl
    · refine .none ?_ rfl
      dsimp only
      rw [Function.update_of_ne hj]
      exact hc
  | block job jobs j cj i _ hhit =>
    by_cases hj : id = j
    · subst hj
      exact .block jobs rfl
    · obtain ⟨hh, hl⟩ := run_others (s := { s with w := { s.w with resolutionJobs := jobs } })
        hhit.heap (stmHandlerBlock_kept (x := ⟨j, cj, _⟩) (hhit.ctl hinv)) hj
      exact .none (hh.trans hc) hl
  | drop j jobs halted _ _ _ => exact .none hc rfl

/-- Who is not there stays away, or is accepted now. -/
theorem Move.absent (hinv : Inv s) (hnone : s.heap id = none) (hm : Move okw s s') :
    (s'.heap id = none ∧ Socks5d.history id s'.w.log = Socks5d.history id s.w.log) ∨
    id = s.nextId ∧ ∃ k, Socks5d.history id s'.w.log = [.accepted id k] := by
  have hother : ∀ {j cj}, s.heap j = some cj → id ≠ j := by
    rintro j cj hj rfl
    rw [hnone] at hj
    cases hj
  cases hm with
  | background w hb => exact .inl ⟨hnone, by dsimp only; rw [hb.log]⟩
  | nullHandler | stale | mgmtClose | drop => exact .inl ⟨hnone, rfl⟩
  | mgmtAccept w fd e hb hfd _ => exact .inl ⟨hnone, by dsimp only; rw [hb.log]⟩
  | read j cj fd i e hhit hi =>
    obtain ⟨m, hheld⟩ := hhit.held
    obtain ⟨hh, hl⟩ := run_others hhit.heap
      (stmHandlerRead_kept (e := e) (x := ⟨j, cj, s.w⟩) (hhit.ctl hinv) hheld hi) (hother hhit.heap)
    exact .inl ⟨hh.trans hnone, hl⟩
  | write j cj fd i e hhit hi _ =>
    obtain ⟨m, hheld⟩ := hhit.held
    obtain ⟨hh, hl⟩ := run_others hhit.heap (stmHandlerWrite_kept (e := e) (x := ⟨j, cj, s.w⟩)
      (hhit.ctl hinv) hheld hi hinv.cap) (hother hhit.heap)
    exact .inl ⟨hh.trans hnone, hl⟩
  | block job jobs j cj i _ hhit =>
    obtain ⟨hh, hl⟩ := run_others (s := { s with w := { s.w with resolutionJobs := jobs } })
      hhit.heap (stmHandlerBlock_kept (x := ⟨j, cj, _⟩) (hhit.ctl hinv)) (hother hhit.heap)
    exact .inl ⟨hh.trans hnone, hl⟩
  | resolved j cj addrs _ hcj =>
    refine .inl ⟨?_, rfl⟩
    dsimp only
    rw [Function.update_of_ne (hother hcj)]
    exact hnone
  | accept w fd e hb hfd =>
    by_cases hid : id = s.nextId
    · subst hid
      refine .inr ⟨rfl, w.nextSock, ?_⟩
      simp only [acceptWorld, history_append, history_singleton, Obs.owner, ↓reduceIte, hb.log,
        (hinv.fresh s.nextId (Nat.le_refl _)).2, List.nil_append]
    · have hne : ¬ s.nextId = id := Ne.symm hid
      refine .inl ⟨?_, ?_⟩
      · dsimp only
        rw [Function.update_of_ne hid]
        exact hnone
      · simp only [acceptWorld, history_append, history_singleton, Obs.owner, hne, ↓reduceIte,
          List.append_nil, hb.log]

end

/-! ## What a handler records -/

/-- From `x` to `x'` only events with property `P` are recorded. -/
structure Records (P : Obs → Prop) (x x' : Ctx) : Prop where
  id_eq : x'.id = x.id
  log_eq : ∃ os, (∀ o ∈ os, P o) ∧ x'.w.log = x.w.log ++ os

namespace Records

variable {P : Obs → Prop} {x x' x'' : Ctx} {o : Obs}

theorem refl (x : Ctx) : Records P x x := ⟨rfl, [], by simp⟩

theorem trans (h : Records P x x') (h' : Records P x' x'') : Records P x x'' := by
  obtain ⟨os, hos, hlog⟩ := h.log_eq
  obtain ⟨os', hos', hlog'⟩ := h'.log_eq
  refine ⟨h'.id_eq.trans h.id_eq, os ++ os', ?_, by rw [hlog', hlog, List.append_assoc]⟩
  intro o ho
  exact (List.mem_append.mp ho).elim (hos o) (hos' o)

theorem of_log (hid : x'.id = x.id) (hlog : x'.w.log = x.w.log ++ [o]) (ho : P o) :
    Records P x x' := ⟨hid, [o], by simpa using ho, hlog⟩

theorem of_eq (hid : x'.id = x.id) (hlog : x'.w.log = x.w.log) : Records P x x' :=
  ⟨hid, [], by simp, by rw [hlog, List.append_nil]⟩

theorem closes (hc : Closes x x') (hP : ∀ fd k, P (.closed x.id fd k)) : Records P x x' := by
  obtain ⟨os, hos, hlog⟩ := hc.log_eq
  refine ⟨hc.id_eq, os, ?_, hlog⟩
  intro o ho
  obtain ⟨fd, k, rfl⟩ := hos o ho
  exact hP fd k

theorem mono {Q : Obs → Prop} (h : Records P x x') (hPQ : ∀ o, P o → Q o) :
    Records Q x x' := by
  obtain ⟨os, hos, hlog⟩ := h.log_eq
  exact ⟨h.id_eq, os, fun o ho => hPQ o (hos o ho), hlog⟩

/-- The events of the client are among those recorded. -/
theorem history_eq (h : Records P x x') :
    ∃ os, (∀ o ∈ os, P o) ∧ history x.id x'.w.log = history x.id x.w.log ++ os := by
  obtain ⟨os, hos, hlog⟩ := h.log_eq
  refine ⟨history x.id os, ?_, by rw [hlog, history_append]⟩
  intro o ho
  exact hos o (mem_history.mp ho).1

end Records

end Socks5d

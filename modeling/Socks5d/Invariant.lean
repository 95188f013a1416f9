import Socks5d.Engine

/-! # The invariant of the server

A step of the server is at most two moves, a read half and a write half. `Inv` is
kept by each move; the invariants of the later modules are proved move by move. -/

namespace Socks5d

structure Inv (s : Server) : Prop where
  selector : SelectorInv s.w.selector
  cap : itemsMaxSize ≤ s.w.selector.fdSize
  regOpen : RegOpen s.w
  /-- Descriptor 0 stays a listening socket. -/
  listener : ∃ it, item? s.w.selector 0 = some it ∧ it.data = some .master
  buffsize : minSocksBuffsize < s.w.buffsize
  live : ∀ id c, s.heap id = some c → Ctl id c s.w.selector c.current
  dead : ∀ id, s.heap id = none → OnlyAt (.socks5 id) s.w.selector []
  fresh : ∀ id, s.nextId ≤ id → s.heap id = none ∧ history id s.w.log = []
  faults : ∀ f, s.halted = some f → f.misrouted = false

/-- A socket event of client `id`: its structure, and its registration. -/
structure Hit (s : Server) (id : ClientId) (c : Client) (fd : ℤ) (i : FdInterest) : Prop where
  heap : s.heap id = some c
  held : ∃ m, Held (.socks5 id) s.w.selector fd i m

/-- The world of a server after the management side, or nobody, has acted. -/
structure Background (w w' : World) : Prop where
  selector : w'.selector = w.selector
  fdTable : w'.fdTable = w.fdTable
  nextSock : w'.nextSock = w.nextSock
  users : ∃ userpasses, w'.users = addUsers w.users userpasses
  buffsize : minSocksBuffsize < w.buffsize → minSocksBuffsize < w'.buffsize
  resolvers : w'.resolvers = w.resolvers
  jobs : w'.resolutionJobs = w.resolutionJobs
  log : w'.log = w.log

/-- The world after a SOCKS client was accepted on `fd`. -/
def acceptWorld (w : World) (id : ClientId) (fd : ℤ) : World :=
  { w with
    fdTable := Function.update w.fdTable fd (some w.nextSock)
    nextSock := w.nextSock + 1
    selector := (selectorRegister true w.selector fd opRead (.socks5 id)).1
    log := w.log ++ [.accepted id w.nextSock] }

/-- What may happen at once. `okw` is asked of every write event. -/
inductive Move (okw : Server → ClientId → Client → ℤ → Env → Prop) (s : Server) : Server → Prop
  | background (w : World) : Background s.w w → Move okw s { s with w := w }
  | nullHandler : Move okw s (s.fault .nullHandler)
  | stale (id : ClientId) : id ∈ s.w.resolvers → s.heap id = none →
      Move okw s (s.fault .staleResolver)
  | read (id : ClientId) (c : Client) (fd : ℤ) (i : FdInterest) (e : Env) :
    Hit s id c fd i → i.read = true → Move okw s (s.run id (stmHandlerRead e fd))
  | write (id : ClientId) (c : Client) (fd : ℤ) (i : FdInterest) (e : Env) :
    Hit s id c fd i → i.write = true → okw s id c fd e →
    Move okw s (s.run id (stmHandlerWrite e fd))
  | accept (w : World) (fd : ℤ) (e : Env) :
    Background s.w w → freshFd w e.socket = some fd →
    Move okw s { s with
      w := acceptWorld w s.nextId fd
      heap := Function.update s.heap s.nextId (some (createClient fd w.buffsize e))
      nextId := s.nextId + 1 }
  | mgmtAccept (w : World) (fd : ℤ) (e : Env) :
    Background s.w w → freshFd w e.socket = some fd →
    (selectorRegister true w.selector fd (opWrite ||| opRead) .mgmt).2 = .success →
    Move okw s { s with w := { w with
      fdTable := Function.update w.fdTable fd (some w.nextSock)
      nextSock := w.nextSock + 1
      selector := (selectorRegister true w.selector fd (opWrite ||| opRead) .mgmt).1 } }
  | mgmtClose (fd : ℤ) (it : Item Handler) :
    item? s.w.selector fd = some it → it.data = some .mgmt →
    Move okw s { s with w := rmMgmtClient { s.w with
      fdTable := Function.update s.w.fdTable fd none
      selector := (selectorUnregisterFd s.w.selector fd).1 } }
  | resolved (id : ClientId) (c : Client) (addrs : List AddrInfo) :
    id ∈ s.w.resolvers → s.heap id = some c →
    Move okw s { s with
      w := { s.w with
        resolvers := s.w.resolvers.erase id
        resolutionJobs := ⟨c.clientSock, id⟩ :: s.w.resolutionJobs }
      heap := Function.update s.heap id (some { c with resolution := addrs }) }
  | block (j : Job) (jobs : List Job) (id : ClientId) (c : Client) (i : FdInterest) :
    s.w.resolutionJobs = j :: jobs → Hit s id c j.fd i →
    Move okw s (({ s with w := { s.w with resolutionJobs := jobs } } : Server).run id
      stmHandlerBlock)
  /-- The job finds no SOCKS client; a handler without `handle_block` is a fault. -/
  | drop (j : Job) (jobs : List Job) (halted : Option Fault) :
    s.w.resolutionJobs = j :: jobs →
    (∀ it, item? s.w.selector j.fd = some it → ∀ id, it.data ≠ some (.socks5 id)) →
    (halted = s.halted ∨ halted = some .nullHandler) →
    Move okw s { s with w := { s.w with resolutionJobs := jobs }, halted := halted }

variable {s s' : Server} {okw : Server → ClientId → Client → ℤ → Env → Prop} {id : ClientId}
  {c : Client}

/-! ## Each move keeps the invariant -/

theorem listener_spares {d : Handler} {sel sel' : FdSelector Handler} (hd : .master ≠ d)
    (hs : Spares d sel sel') (h : ∃ it, item? sel 0 = some it ∧ it.data = some .master) :
    ∃ it, item? sel' 0 = some it ∧ it.data = some .master := by
  obtain ⟨it, hit, hdata⟩ := h
  obtain ⟨it', hit', hd', -⟩ := hs.kept 0 it hit (by rw [hdata]; simpa using hd)
  exact ⟨it', hit', hd'.trans hdata⟩

section
variable {handler : Ctx → Except Fault Outcome} (hc : s.heap id = some c)
include hc

theorem run_error {f : Fault} (hr : handler ⟨id, c, s.w⟩ = .error f) :
    s.run id handler = s.fault f := by
  unfold Server.run
  rw [hc]
  dsimp only
  rw [hr]

theorem run_ok {o : Outcome} (hr : handler ⟨id, c, s.w⟩ = .ok o) :
    s.run id handler = { s with w := o.w, heap := Function.update s.heap id o.c } := by
  unfold Server.run
  rw [hc]
  dsimp only
  rw [hr]

end

/-- A handler that keeps its own client and touches no other keeps everything. -/
theorem Inv.run {handler : Ctx → Except Fault Outcome} (h : Inv s) (hc : s.heap id = some c)
    (hk : Kept ⟨id, c, s.w⟩ (handler ⟨id, c, s.w⟩)) : Inv (s.run id handler) := by
  cases hr : handler ⟨id, c, s.w⟩ with
  | error f =>
    rw [run_error hc hr]
    refine ⟨h.selector, h.cap, h.regOpen, h.listener, h.buffsize, h.live, h.dead, h.fresh, ?_⟩
    intro g hg
    cases hg
    exact hk.error f hr
  | ok o =>
    obtain ⟨hset, hloc⟩ := hk.ok o hr
    rw [run_ok hc hr]
    have hborn : ¬ s.nextId ≤ id := by
      intro hle
      rw [(h.fresh id hle).1] at hc
      cases hc
    refine ⟨hloc.inv h.selector, ?_, hloc.regOpen h.regOpen,
      listener_spares (by simp) hloc.spares h.listener, ?_, ?_, ?_, ?_, h.faults⟩
    · rw [hloc.cap]
      exact h.cap
    · rw [hloc.buffsize]
      exact h.buffsize
    · intro j cj hj
      by_cases hji : j = id
      · subst hji
        simp only [Function.update_self] at hj
        unfold Settled at hset
        rw [hj] at hset
        exact hset
      · simp only [Function.update_of_ne hji] at hj
        exact (h.live j cj hj).spares hloc.spares (by simpa using hji)
    · intro j hj
      by_cases hji : j = id
      · subst hji
        simp only [Function.update_self] at hj
        unfold Settled at hset
        rw [hj] at hset
        exact hset
      · simp only [Function.update_of_ne hji] at hj
        exact (h.dead j hj).spares hloc.spares (by simpa using hji)
    · intro j hj
      have hji : j ≠ id := by
        rintro rfl
        exact hborn hj
      exact ⟨by simp only [Function.update_of_ne hji]; exact (h.fresh j hj).1,
        (hloc.history j hji).trans (h.fresh j hj).2⟩

theorem Hit.ctl {fd : ℤ} {i : FdInterest} (hhit : Hit s id c fd i) (h : Inv s) :
    Ctl id c s.w.selector c.current := h.live id c hhit.heap

theorem Background.regOpen {w w' : World} (hb : Background w w') (h : RegOpen w) : RegOpen w' := by
  intro fd
  rw [hb.selector, hb.fdTable]
  exact h fd

theorem Inv.background {w : World} (h : Inv s) (hb : Background s.w w) : Inv { s with w := w } := by
  refine ⟨?_, ?_, hb.regOpen h.regOpen, ?_, hb.buffsize h.buffsize, ?_, ?_, ?_, h.faults⟩
  · rw [hb.selector]
    exact h.selector
  · rw [hb.selector]
    exact h.cap
  · rw [hb.selector]
    exact h.listener
  · rw [hb.selector]
    exact h.live
  · rw [hb.selector]
    exact h.dead
  · rw [hb.log]
    exact h.fresh

theorem Inv.fault (h : Inv s) {f : Fault} (hf : f.misrouted = false) : Inv (s.fault f) := by
  refine ⟨h.selector, h.cap, h.regOpen, h.listener, h.buffsize, h.live, h.dead, h.fresh, ?_⟩
  intro g hg
  cases hg
  exact hf

/-- A fresh descriptor is not registered, so registering it fails only out of range. -/
theorem register_fresh {w : World} {fd : ℤ} {i : FdInterest} {d : Handler}
    (hcap : itemsMaxSize ≤ w.selector.fdSize) (hopen : RegOpen w) (hfresh : w.fdTable fd = none) :
    let r := selectorRegister true w.selector fd i d
    (r.2 ≠ .success ∧ r.1 = w.selector ∧ invalidFd fd = true) ∨
    (r.2 = .success ∧ r.1.fdSize = w.selector.fdSize ∧
      ∀ fd', item? r.1 fd' = if fd' = fd then some (newItem fd i d) else item? w.selector fd') := by
  rcases register_cases fd true i d hcap with ⟨hno, hs, hinv | hit⟩ | ⟨hok, -, -, hsz, hit⟩
  · exact .inl ⟨hno, hs, hinv⟩
  · exact absurd hfresh (hopen fd hit)
  · exact .inr ⟨hok, hsz, hit⟩

theorem RegOpen.register {w : World} {fd : ℤ} {i : FdInterest} {d : Handler} {k : SockId}
    (hopen : RegOpen w) (hcap : itemsMaxSize ≤ w.selector.fdSize) (hfresh : w.fdTable fd = none) :
    ∀ fd', item? (selectorRegister true w.selector fd i d).1 fd' ≠ none →
      Function.update w.fdTable fd (some k) fd' ≠ none := by
  intro fd' hit
  by_cases hfd : fd' = fd
  · rw [hfd, Function.update_self]
    simp
  · rw [Function.update_of_ne hfd]
    rcases register_fresh (i := i) (d := d) hcap hopen hfresh with ⟨-, hs, -⟩ | ⟨-, -, hs⟩
    · exact hopen fd' (by rwa [hs] at hit)
    · exact hopen fd' (by rwa [hs, if_neg hfd] at hit)

theorem Inv.accept {w : World} {fd : ℤ} {e : Env} (h : Inv s) (hb : Background s.w w)
    (hfd : freshFd w e.socket = some fd) :
    Inv { s with
      w := acceptWorld w s.nextId fd
      heap := Function.update s.heap s.nextId (some (createClient fd w.buffsize e))
      nextId := s.nextId + 1 } := by
  have hw := h.background hb
  have hcap : itemsMaxSize ≤ w.selector.fdSize := hw.cap
  have hfresh := (freshFd_some hfd).2
  have hreg := register_fresh (i := opRead) (d := .socks5 s.nextId) hcap hw.regOpen hfresh
  have hsp : Spares (.socks5 s.nextId) w.selector (acceptWorld w s.nextId fd).selector :=
    Spares.register true hcap
  have hne : ∀ j, j ≠ s.nextId → Handler.socks5 j ≠ .socks5 s.nextId :=
    fun j hj => by simpa using hj
  refine ⟨hw.selector.register true _ _ hcap, ?_, hw.regOpen.register hcap hfresh,
    listener_spares (by simp) hsp hw.listener, hw.buffsize, ?_, ?_, ?_, h.faults⟩
  · rcases hreg with ⟨-, hs, -⟩ | ⟨-, hs, -⟩
    · exact Nat.le_trans hcap (Nat.le_of_eq (congrArg FdSelector.fdSize hs).symm)
    · exact Nat.le_trans hcap (Nat.le_of_eq hs.symm)
  · intro j cj hj
    by_cases hji : j = s.nextId
    · subst hji
      simp only [Function.update_self, Option.some.injEq] at hj
      subst hj
      refine ⟨rfl, rfl, ?_, ?_⟩
      · exact (hw.dead _ (h.fresh _ (Nat.le_refl _)).1).register _ _ true hcap
      · rcases hreg with ⟨-, -, hinv⟩ | ⟨-, -, hit⟩
        · exact .inr hinv
        · exact .inl ⟨_, (hit fd).trans (if_pos rfl), rfl, rfl, FdInterest.le_all _⟩
    · simp only [Function.update_of_ne hji] at hj
      exact (hw.live j cj hj).spares hsp (hne j hji)
  · intro j hj
    by_cases hji : j = s.nextId
    · subst hji
      simp only [Function.update_self] at hj
      cases hj
    · simp only [Function.update_of_ne hji] at hj
      exact (hw.dead j hj).spares hsp (hne j hji)
  · intro j hj
    have hlt : s.nextId < j := hj
    have hji : j ≠ s.nextId := Nat.ne_of_gt hlt
    obtain ⟨hheap, hhist⟩ := hw.fresh j (Nat.le_of_lt hlt)
    refine ⟨by simp only [Function.update_of_ne hji]; exact hheap, ?_⟩
    have hnj : ¬ s.nextId = j := Ne.symm hji
    simp only [acceptWorld, history_append, history_singleton, Obs.owner, hnj, ↓reduceIte,
      List.append_nil]
    exact hhist

theorem Inv.mgmtAccept {w : World} {fd : ℤ} {e : Env} (h : Inv s) (hb : Background s.w w)
    (hfd : freshFd w e.socket = some fd) :
    Inv { s with w := { w with
      fdTable := Function.update w.fdTable fd (some w.nextSock)
      nextSock := w.nextSock + 1
      selector := (selectorRegister true w.selector fd (opWrite ||| opRead) .mgmt).1 } } := by
  have hw := h.background hb
  have hcap : itemsMaxSize ≤ w.selector.fdSize := hw.cap
  have hfresh := (freshFd_some hfd).2
  have hreg := register_fresh (i := opWrite ||| opRead) (d := .mgmt) hcap hw.regOpen hfresh
  have hsp : Spares .mgmt w.selector
      (selectorRegister true w.selector fd (opWrite ||| opRead) .mgmt).1 :=
    Spares.register true hcap
  refine ⟨hw.selector.register true _ _ hcap, ?_, hw.regOpen.register hcap hfresh,
    listener_spares (by simp) hsp hw.listener, hw.buffsize, ?_, ?_, hw.fresh, h.faults⟩
  · rcases hreg with ⟨-, hs, -⟩ | ⟨-, hs, -⟩
    · exact Nat.le_trans hcap (Nat.le_of_eq (congrArg FdSelector.fdSize hs).symm)
    · exact Nat.le_trans hcap (Nat.le_of_eq hs.symm)
  · exact fun j cj hj => (hw.live j cj hj).spares hsp (by simp)
  · exact fun j hj => (hw.dead j hj).spares hsp (by simp)

theorem Inv.mgmtClose {fd : ℤ} {it : Item Handler} (h : Inv s)
    (hit : item? s.w.selector fd = some it) (hd : it.data = some .mgmt) :
    Inv { s with w := rmMgmtClient { s.w with
      fdTable := Function.update s.w.fdTable fd none
      selector := (selectorUnregisterFd s.w.selector fd).1 } } := by
  have hown : OwnFd .mgmt s.w.selector fd := by
    intro it' hit'
    rw [hit, Option.some.injEq] at hit'
    exact hit' ▸ hd
  have hsp : Spares .mgmt s.w.selector (selectorUnregisterFd s.w.selector fd).1 :=
    Spares.unregister hown
  refine ⟨h.selector.unregister, ?_, ?_, listener_spares (by simp) hsp h.listener, h.buffsize,
    ?_, ?_, h.fresh, h.faults⟩
  · exact Nat.le_trans h.cap (Nat.le_of_eq unregister_fdSize.symm)
  · intro fd' hit'
    have hit'' : item? (selectorUnregisterFd s.w.selector fd).1 fd' ≠ none := hit'
    rw [item?_unregister] at hit''
    split_ifs at hit'' with hfd
    · exact absurd rfl hit''
    · simpa [rmMgmtClient, Function.update_of_ne hfd] using h.regOpen fd' hit''
  · exact fun j cj hj => (h.live j cj hj).spares hsp (by simp)
  · exact fun j hj => (h.dead j hj).spares hsp (by simp)

theorem Inv.resolved {addrs : List AddrInfo} (h : Inv s) (hc : s.heap id = some c) :
    Inv { s with
      w := { s.w with
        resolvers := s.w.resolvers.erase id
        resolutionJobs := ⟨c.clientSock, id⟩ :: s.w.resolutionJobs }
      heap := Function.update s.heap id (some { c with resolution := addrs }) } := by
  refine ⟨h.selector, h.cap, h.regOpen, h.listener, h.buffsize, ?_, ?_, ?_, h.faults⟩
  · intro j cj hj
    by_cases hji : j = id
    · subst hji
      simp only [Function.update_self, Option.some.injEq] at hj
      subst hj
      exact (h.live j c hc).same ⟨rfl, rfl, rfl, rfl, rfl⟩
    · simp only [Function.update_of_ne hji] at hj
      exact h.live j cj hj
  · intro j hj
    by_cases hji : j = id
    · subst hji
      simp only [Function.update_self] at hj
      cases hj
    · simp only [Function.update_of_ne hji] at hj
      exact h.dead j hj
  · intro j hj
    have hji : j ≠ id := by
      rintro rfl
      rw [(h.fresh j hj).1] at hc
      cases hc
    exact ⟨by simp only [Function.update_of_ne hji]; exact (h.fresh j hj).1, (h.fresh j hj).2⟩

theorem Inv.jobs {jobs : List Job} {halted : Option Fault} (h : Inv s)
    (hh : halted = s.halted ∨ halted = some .nullHandler) :
    Inv { s with w := { s.w with resolutionJobs := jobs }, halted := halted } := by
  refine ⟨h.selector, h.cap, h.regOpen, h.listener, h.buffsize, h.live, h.dead, h.fresh, ?_⟩
  intro f hf
  rcases hh with rfl | rfl
  · exact h.faults f hf
  · cases hf
    rfl

theorem Inv.move (h : Inv s) (hm : Move okw s s') : Inv s' := by
  cases hm with
  | background w hb => exact h.background hb
  | nullHandler => exact h.fault rfl
  | stale id _ _ => exact h.fault rfl
  | read id c fd i e hhit hi =>
    obtain ⟨m, hheld⟩ := hhit.held
    exact h.run hhit.heap (stmHandlerRead_kept (x := ⟨id, c, s.w⟩) (hhit.ctl h) hheld hi)
  | write id c fd i e hhit hi _ =>
    obtain ⟨m, hheld⟩ := hhit.held
    exact h.run hhit.heap (stmHandlerWrite_kept (x := ⟨id, c, s.w⟩) (hhit.ctl h) hheld hi h.cap)
  | accept w fd e hb hfd => exact h.accept hb hfd
  | mgmtAccept w fd e hb hfd _ => exact h.mgmtAccept hb hfd
  | mgmtClose fd it hit hd => exact h.mgmtClose hit hd
  | resolved id c addrs _ hc => exact h.resolved hc
  | block j jobs id c i _ hhit =>
    have hj : Inv { s with w := { s.w with resolutionJobs := jobs } } := h.jobs (.inl rfl)
    exact hj.run hhit.heap (stmHandlerBlock_kept (x := ⟨id, c, _⟩) (hhit.ctl h))
  | drop j jobs halted _ _ hh => exact h.jobs hh

/-! ## Every step is a read half and a write half -/

theorem Background.refl (w : World) : Background w w :=
  ⟨rfl, rfl, rfl, ⟨[], rfl⟩, id, rfl, rfl, rfl⟩

theorem Move.skip : Move okw s s := .background s.w (.refl s.w)

theorem addProxyClient_some {w w' : World} (h : addProxyClient w = some w') :
    w.mgmtClientCount + w.proxyClientCount * 2 ≤ 1020 - 2 ∧ w' = { w with
      proxyClientCount := w.proxyClientCount + 1
      allConnections := w.allConnections + 1 } := by
  unfold addProxyClient at h
  split_ifs at h with hroom
  exact ⟨hroom, (Option.some.inj h).symm⟩

theorem addMgmtClient_some {w w' : World} (h : addMgmtClient w = some w') :
    w.mgmtClientCount + w.proxyClientCount * 2 ≤ 1020 - 1 ∧ w' = { w with
      mgmtClientCount := w.mgmtClientCount + 1
      allConnections := w.allConnections + 1 } := by
  unfold addMgmtClient at h
  split_ifs at h with hroom
  exact ⟨hroom, (Option.some.inj h).symm⟩

theorem addProxyClient_background {w w' : World} (h : addProxyClient w = some w') :
    Background w w' := by
  rw [(addProxyClient_some h).2]
  exact ⟨rfl, rfl, rfl, ⟨[], rfl⟩, fun h => h, rfl, rfl, rfl⟩

theorem addMgmtClient_background {w w' : World} (h : addMgmtClient w = some w') :
    Background w w' := by
  rw [(addMgmtClient_some h).2]
  exact ⟨rfl, rfl, rfl, ⟨[], rfl⟩, fun h => h, rfl, rfl, rfl⟩

theorem Background.rmProxyClient {w w' : World} (h : Background w w') :
    Background w (rmProxyClient w') :=
  ⟨h.selector, h.fdTable, h.nextSock, h.users, h.buffsize, h.resolvers, h.jobs, h.log⟩

theorem Background.rmMgmtClient {w w' : World} (h : Background w w') :
    Background w (rmMgmtClient w') :=
  ⟨h.selector, h.fdTable, h.nextSock, h.users, h.buffsize, h.resolvers, h.jobs, h.log⟩

theorem masterReadHandler_cases (e : Env) (s : Server) :
    (addProxyClient s.w = none ∧ masterReadHandler e s = s) ∨
    ∃ w, addProxyClient s.w = some w ∧
      (((freshFd w e.socket = none ∨ e.mallocClient = false) ∧
        masterReadHandler e s = { s with w := rmProxyClient w }) ∨
      ∃ fd, freshFd w e.socket = some fd ∧ e.mallocClient = true ∧
        masterReadHandler e s = { s with
          w := acceptWorld w s.nextId fd
          heap := Function.update s.heap s.nextId (some (createClient fd w.buffsize e))
          nextId := s.nextId + 1 }) := by
  unfold masterReadHandler
  split
  · rename_i hw
    exact .inl ⟨hw, rfl⟩
  · rename_i w hw
    refine .inr ⟨w, hw, ?_⟩
    split
    · rename_i hfd
      exact .inl ⟨.inl hfd, rfl⟩
    · rename_i fd hfd
      split
      · rename_i hm
        exact .inl ⟨.inr (by simpa using hm), rfl⟩
      · rename_i hm
        exact .inr ⟨fd, hfd, by simpa using hm, rfl⟩

theorem mgmtMasterReadHandler_cases (e : Env) (s : Server) :
    (addMgmtClient s.w = none ∧ mgmtMasterReadHandler e s = s) ∨
    ∃ w, addMgmtClient s.w = some w ∧
      ((freshFd w e.socket = none ∧ mgmtMasterReadHandler e s = { s with w := rmMgmtClient w }) ∨
      ∃ fd, freshFd w e.socket = some fd ∧
        let reg := selectorRegister true w.selector fd (opWrite ||| opRead) .mgmt
        (((e.mallocClient = false ∨ reg.2 ≠ .success) ∧
          mgmtMasterReadHandler e s = { s with w := rmMgmtClient (rmMgmtClient w) }) ∨
        (e.mallocClient = true ∧ reg.2 = .success ∧
          mgmtMasterReadHandler e s = { s with w := { w with
            fdTable := Function.update w.fdTable fd (some w.nextSock)
            nextSock := w.nextSock + 1
            selector := reg.1 } }))) := by
  unfold mgmtMasterReadHandler
  split
  · rename_i hw
    exact .inl ⟨hw, rfl⟩
  · rename_i w hw
    refine .inr ⟨w, hw, ?_⟩
    split
    · rename_i hfd
      exact .inl ⟨hfd, rfl⟩
    · rename_i fd hfd
      refine .inr ⟨fd, hfd, ?_⟩
      split
      · rename_i hm
        exact .inl ⟨.inl (by simpa using hm), rfl⟩
      · rename_i hm
        dsimp only
        split
        · rename_i hreg
          exact .inl ⟨.inr hreg, rfl⟩
        · rename_i hreg
          exact .inr ⟨by simpa using hm, not_not.mp hreg, rfl⟩

theorem masterReadHandler_move (e : Env) (s : Server) : Move okw s (masterReadHandler e s) := by
  rcases masterReadHandler_cases e s with ⟨-, heq⟩ | ⟨w, hw, ⟨-, heq⟩ | ⟨fd, hfd, -, heq⟩⟩
  · rw [heq]
    exact .skip
  · rw [heq]
    exact .background _ (addProxyClient_background hw).rmProxyClient
  · rw [heq]
    exact .accept w fd e (addProxyClient_background hw) hfd

theorem mgmtMasterReadHandler_move (e : Env) (s : Server) :
    Move okw s (mgmtMasterReadHandler e s) := by
  rcases mgmtMasterReadHandler_cases e s with
    ⟨-, heq⟩ | ⟨w, hw, ⟨-, heq⟩ | ⟨fd, hfd, ⟨-, heq⟩ | ⟨-, hreg, heq⟩⟩⟩
  · rw [heq]
    exact .skip
  · rw [heq]
    exact .background _ (addMgmtClient_background hw).rmMgmtClient
  · rw [heq]
    exact .background _ (addMgmtClient_background hw).rmMgmtClient.rmMgmtClient
  · rw [heq]
    exact .mgmtAccept w fd e (addMgmtClient_background hw) hfd hreg

/-- A registration for a client belongs to a client that is allocated. -/
theorem Inv.hit (h : Inv s) {fd : ℤ} {it : Item Handler} (hit : item? s.w.selector fd = some it)
    (hd : it.data = some (.socks5 id)) : ∃ c, Hit s id c fd it.interest := by
  cases hc : s.heap id with
  | none =>
    have hmem := h.dead id hc fd it hit hd
    cases hmem
  | some c => exact ⟨c, hc, it.interestMask, it, hit, hd, rfl, FdInterest.le_refl _⟩

/-- What the read half can be. -/
theorem readHalf_cases (h : Inv s) {i : ℕ} (hu : itemUsed (s.w.selector.fds i) = true) (r : Bool)
    (e : Env) :
    readHalf i r e s = s ∨ readHalf i r e s = s.fault .nullHandler ∨
    ((s.w.selector.fds i).data = some .master ∧ readHalf i r e s = masterReadHandler e s ∧
      r = true ∧ (s.w.selector.fds i).interest.read = true) ∨
    ((s.w.selector.fds i).data = some .monitor ∧ readHalf i r e s = mgmtMasterReadHandler e s ∧
      r = true ∧ (s.w.selector.fds i).interest.read = true) ∨
    ∃ id c, (s.w.selector.fds i).data = some (.socks5 id) ∧
      Hit s id c (s.w.selector.fds i).fd (s.w.selector.fds i).interest ∧
      (s.w.selector.fds i).interest.read = true ∧
      readHalf i r e s = s.run id (stmHandlerRead e (s.w.selector.fds i).fd) := by
  obtain ⟨hit, -⟩ := h.selector.item?_of_used hu
  unfold readHalf
  dsimp only
  split
  · rename_i hr
    rw [Bool.and_eq_true] at hr
    unfold handleRead
    split
    · rename_i id hd
      obtain ⟨c, hhit⟩ := h.hit hit hd
      exact .inr (.inr (.inr (.inr ⟨id, c, hd, hhit, hr.2, rfl⟩)))
    · rename_i hd
      exact .inr (.inr (.inl ⟨hd, rfl, hr⟩))
    · rename_i hd
      exact .inr (.inr (.inr (.inl ⟨hd, rfl, hr⟩)))
    · exact .inl rfl
    · exact .inr (.inl rfl)
  · exact .inl rfl

theorem readHalf_move (h : Inv s) {i : ℕ} (hu : itemUsed (s.w.selector.fds i) = true) (r : Bool)
    (e : Env) : Move okw s (readHalf i r e s) := by
  rcases readHalf_cases h hu r e with heq | heq | ⟨-, heq, -⟩ | ⟨-, heq, -⟩ |
    ⟨id, c, -, hhit, hi, heq⟩
  · rw [heq]
    exact .skip
  · rw [heq]
    exact .nullHandler
  · rw [heq]
    exact masterReadHandler_move e s
  · rw [heq]
    exact mgmtMasterReadHandler_move e s
  · rw [heq]
    exact .read id c _ _ e hhit hi

theorem Spares.data_eq {d : Handler} {sel sel' : FdSelector Handler} {fd : ℤ}
    {it it' : Item Handler} (hs : Spares d sel sel') (hit : item? sel fd = some it)
    (hit' : item? sel' fd = some it') : it'.data = it.data := by
  by_cases hd : it.data = some d
  · by_contra hne
    obtain ⟨it'', hit'', hd''⟩ := hs.back fd it' hit' (by rw [← hd]; exact hne)
    rw [hit, Option.some.injEq] at hit''
    exact hne (hit'' ▸ hd''.symm)
  · obtain ⟨it'', hit'', hd'', -⟩ := hs.kept fd it hit hd
    rw [hit', Option.some.injEq] at hit''
    exact hit'' ▸ hd''

/-- A handler touches nothing of other clients, also when it fails. -/
theorem Kept.run_local {handler : Ctx → Except Fault Outcome}
    (hk : Kept ⟨id, c, s.w⟩ (handler ⟨id, c, s.w⟩))
    (hc : s.heap id = some c) : Local id s.w (s.run id handler).w := by
  cases hr : handler ⟨id, c, s.w⟩ with
  | error f =>
    rw [run_error hc hr]
    exact .refl id s.w
  | ok o =>
    rw [run_ok hc hr]
    exact (hk.ok o hr).2

/-- What a move does to the selector, it does for one owner of connections. -/
theorem Inv.move_spares (h : Inv s) (hm : Move okw s s') :
    ∃ d, (d = .mgmt ∨ ∃ id, d = .socks5 id) ∧ Spares d s.w.selector s'.w.selector := by
  have hrun : ∀ {t : Server} {id c} {handler : Ctx → Except Fault Outcome}, t.heap id = some c →
      Kept ⟨id, c, t.w⟩ (handler ⟨id, c, t.w⟩) →
      ∃ d, (d = .mgmt ∨ ∃ id, d = .socks5 id) ∧
        Spares d t.w.selector (t.run id handler).w.selector :=
    fun hc hk => ⟨_, .inr ⟨_, rfl⟩, (hk.run_local hc).spares⟩
  cases hm with
  | background w hb =>
    refine ⟨.mgmt, .inl rfl, ?_⟩
    rw [show ({ s with w := w } : Server).w.selector = s.w.selector from hb.selector]
    exact .refl
  | nullHandler => exact ⟨.mgmt, .inl rfl, .refl⟩
  | stale id _ _ => exact ⟨.mgmt, .inl rfl, .refl⟩
  | read id c fd i e hhit hi =>
    obtain ⟨m, hheld⟩ := hhit.held
    exact hrun hhit.heap (stmHandlerRead_kept (x := ⟨id, c, s.w⟩) (hhit.ctl h) hheld hi)
  | write id c fd i e hhit hi _ =>
    obtain ⟨m, hheld⟩ := hhit.held
    exact hrun hhit.heap (stmHandlerWrite_kept (x := ⟨id, c, s.w⟩) (hhit.ctl h) hheld hi h.cap)
  | accept w fd e hb hfd =>
    refine ⟨.socks5 s.nextId, .inr ⟨_, rfl⟩, ?_⟩
    rw [← hb.selector]
    exact Spares.register true (h.background hb).cap
  | mgmtAccept w fd e hb hfd _ =>
    refine ⟨.mgmt, .inl rfl, ?_⟩
    rw [← hb.selector]
    exact Spares.register true (h.background hb).cap
  | mgmtClose fd it hit hd =>
    refine ⟨.mgmt, .inl rfl, Spares.unregister ?_⟩
    intro it' hit'
    rw [hit, Option.some.injEq] at hit'
    exact hit' ▸ hd
  | resolved id c addrs _ hc => exact ⟨.mgmt, .inl rfl, .refl⟩
  | block j jobs id c i _ hhit =>
    exact hrun (t := { s with w := { s.w with resolutionJobs := jobs } }) hhit.heap
      (stmHandlerBlock_kept (x := ⟨id, c, _⟩) (hhit.ctl h))
  | drop j jobs halted _ _ hh => exact ⟨.mgmt, .inl rfl, .refl⟩

/-- No condition on write events. -/
def anyWrite : Server → ClientId → Client → ℤ → Env → Prop := fun _ _ _ _ _ => True

/-- The client of a write event, in the state in which its handler is entered. -/
def WriteOk (okw : Server → ClientId → Client → ℤ → Env → Prop) (s : Server) : Event → Prop
  | .dispatch i r w er ew =>
    ∀ id c, s.halted = none → (s.w.selector.fds i).data = some (.socks5 id) →
      (readHalf i r er s).halted = none → w = true →
      ((readHalf i r er s).w.selector.fds i).interest.write = true →
      (readHalf i r er s).heap id = some c → okw (readHalf i r er s) id c (s.w.selector.fds i).fd ew
  | _ => True

/-- An entry that is asked for after the read half is in use, and it is still the same
registration. -/
theorem readHalf_entry (h : Inv s) {i : ℕ} (hu : itemUsed (s.w.selector.fds i) = true)
    (r : Bool) (e : Env) (hint : ((readHalf i r e s).w.selector.fds i).interest.write = true) :
    item? (readHalf i r e s).w.selector (s.w.selector.fds i).fd =
        some ((readHalf i r e s).w.selector.fds i) ∧
      ((readHalf i r e s).w.selector.fds i).data = (s.w.selector.fds i).data := by
  have hm : Move anyWrite s (readHalf i r e s) := readHalf_move h hu r e
  have h1 := h.move hm
  obtain ⟨hit, hfd⟩ := h.selector.item?_of_used hu
  have hu1 : itemUsed ((readHalf i r e s).w.selector.fds i) = true := by
    by_contra hno
    rw [h1.selector.idle i (by simpa using hno)] at hint
    cases hint
  obtain ⟨hit1, hfd1⟩ := h1.selector.item?_of_used hu1
  rw [hfd1, ← hfd] at hit1
  obtain ⟨d, -, hsp⟩ := h.move_spares hm
  exact ⟨hit1, hsp.data_eq hit hit1⟩

/-- What the write half can be, after the read half. -/
theorem writeHalf_cases (h : Inv s) {i : ℕ} (hu : itemUsed (s.w.selector.fds i) = true) (r w : Bool)
    (er ew : Env) :
    let t := readHalf i r er s
    let item := s.w.selector.fds i
    let t' := writeHalf i item.fd item.data w ew t
    t' = t ∨ t' = t.fault .nullHandler ∨
    ∃ id c, item.data = some (.socks5 id) ∧ t.halted = none ∧ w = true ∧
      Hit t id c item.fd (t.w.selector.fds i).interest ∧
      (t.w.selector.fds i).interest.write = true ∧ t' = t.run id (stmHandlerWrite ew item.fd) := by
  have hm : Move anyWrite s (readHalf i r er s) := readHalf_move h hu r er
  have h1 := h.move hm
  unfold writeHalf
  dsimp only
  split
  swap
  · exact .inl rfl
  rename_i hcond
  rw [Bool.and_eq_true, Bool.and_eq_true, Option.isNone_iff_eq_none] at hcond
  obtain ⟨⟨hhalt, hw⟩, hint⟩ := hcond
  obtain ⟨hit1, hdata⟩ := readHalf_entry h hu r er hint
  rw [hdata]
  unfold handleWrite
  split
  · rename_i j id hj hid
    obtain ⟨c, hhit⟩ := h1.hit hit1 (hdata.trans hid)
    exact .inr (.inr ⟨id, c, hid, hhalt, hw, hhit, hint, rfl⟩)
  · exact .inl rfl
  · rename_i j hj hno
    exact absurd hj (hno j)
  · exact .inr (.inl rfl)

theorem writeHalf_move (h : Inv s) (hh : s.halted = none) {i : ℕ}
    (hu : itemUsed (s.w.selector.fds i) = true) (r w : Bool) (er ew : Env)
    (hok : WriteOk okw s (.dispatch i r w er ew)) :
    Move okw (readHalf i r er s)
      (writeHalf i (s.w.selector.fds i).fd (s.w.selector.fds i).data w ew (readHalf i r er s)) := by
  rcases writeHalf_cases h hu r w er ew with heq | heq | ⟨id, c, hid, hhalt, hw, hhit, hint, heq⟩
  · rw [heq]
    exact .skip
  · rw [heq]
    exact .nullHandler
  · rw [heq]
    exact .write id c _ _ ew hhit hint (hok id c hh hid hhalt hw hint hhit.heap)

theorem mgmtClose_move (fd : ℤ) (s : Server) : Move okw s (mgmtClose fd s) := by
  unfold mgmtClose
  split
  · rename_i it hit
    split
    · rename_i hd
      exact .mgmtClose fd it hit hd
    · exact .skip
  · exact .skip

/-- An event is two moves, of which the first is no write event. -/
theorem step_halves (h : Inv s) (ev : Event) (hok : WriteOk okw s ev) :
    ∃ s', (∀ {okw'}, Move okw' s s') ∧ Move okw s' (step s ev) := by
  unfold step
  split
  · exact ⟨s, .skip, .skip⟩
  rename_i hhalt
  have hh : s.halted = none := by simpa using hhalt
  cases ev with
  | dispatch i r w er ew =>
    dsimp only
    unfold dispatch
    dsimp only
    split
    · exact ⟨s, .skip, .skip⟩
    · rename_i hu
      have hu' : itemUsed (s.w.selector.fds i) = true := by simpa using hu
      exact ⟨_, readHalf_move h hu' r er, writeHalf_move h hh hu' r w er ew hok⟩
  | resolved id addrs =>
    refine ⟨s, .skip, ?_⟩
    dsimp only
    unfold threadNameResolution
    split
    · exact .skip
    · rename_i hmem
      split
      · rename_i hc
        exact .stale id (not_not.mp hmem) hc
      · rename_i c hc
        exact .resolved id c addrs (not_not.mp hmem) hc
  | notify =>
    refine ⟨s, .skip, ?_⟩
    dsimp only
    unfold handleBlockNotifications
    split
    · exact .skip
    · rename_i j jobs hj
      dsimp only
      split
      · rename_i hnone
        refine .drop j jobs s.halted hj ?_ (.inl rfl)
        intro it hit
        rw [show item? s.w.selector j.fd = none from hnone] at hit
        cases hit
      · rename_i it hit
        split
        · rename_i id hd
          obtain ⟨c, hhit⟩ := h.hit hit hd
          exact .block j jobs id c _ hj hhit
        · rename_i hno
          refine .drop j jobs (some .nullHandler) hj ?_ (.inr rfl)
          intro it' hit' id hd
          rw [show item? s.w.selector j.fd = some it from hit, Option.some.injEq] at hit'
          exact hno id (hit' ▸ hd)
  | addUser userpass =>
    exact ⟨s, .skip, .background _ ⟨rfl, rfl, rfl, ⟨[userpass], rfl⟩, fun h => h, rfl, rfl, rfl⟩⟩
  | setBuffsize size =>
    refine ⟨s, .skip, ?_⟩
    dsimp only
    split
    · rename_i hsize
      exact .background _ ⟨rfl, rfl, rfl, ⟨[], rfl⟩, fun _ => hsize.1, rfl, rfl, rfl⟩
    · exact .skip
  | setDissector state =>
    exact ⟨s, .skip, .background _ ⟨rfl, rfl, rfl, ⟨[], rfl⟩, fun h => h, rfl, rfl, rfl⟩⟩
  | mgmtClose fd => exact ⟨s, .skip, mgmtClose_move fd s⟩

theorem step_moves (h : Inv s) (ev : Event) (hok : WriteOk okw s ev) :
    ∃ s', Move okw s s' ∧ Move okw s' (step s ev) := by
  obtain ⟨s', hm, hm'⟩ := step_halves h ev hok
  exact ⟨s', hm, hm'⟩

/-- A move enters users with `add_user` or leaves the table alone. -/
theorem Inv.move_users (h : Inv s) (hm : Move okw s s') :
    ∃ userpasses, s'.w.users = addUsers s.w.users userpasses := by
  have hrun : ∀ {t : Server} {id c} {handler : Ctx → Except Fault Outcome}, t.heap id = some c →
      Kept ⟨id, c, t.w⟩ (handler ⟨id, c, t.w⟩) → (t.run id handler).w.users = t.w.users :=
    fun hc hk => (hk.run_local hc).users
  cases hm with
  | background w hb => exact hb.users
  | read id c fd i e hhit hi =>
    obtain ⟨m, hheld⟩ := hhit.held
    exact ⟨[], hrun hhit.heap (stmHandlerRead_kept (x := ⟨id, c, s.w⟩) (hhit.ctl h) hheld hi)⟩
  | write id c fd i e hhit hi _ =>
    obtain ⟨m, hheld⟩ := hhit.held
    exact ⟨[],
      hrun hhit.heap (stmHandlerWrite_kept (x := ⟨id, c, s.w⟩) (hhit.ctl h) hheld hi h.cap)⟩
  | accept w fd e hb hfd => exact hb.users
  | mgmtAccept w fd e hb hfd _ => exact hb.users
  | block j jobs id c i _ hhit =>
    exact ⟨[], hrun (t := { s with w := { s.w with resolutionJobs := jobs } }) hhit.heap
      (stmHandlerBlock_kept (x := ⟨id, c, _⟩) (hhit.ctl h))⟩
  | nullHandler | stale | mgmtClose | resolved | drop => exact ⟨[], rfl⟩

/-! What a new connection leaves as it was. -/

theorem masterReadHandler_keeps (e : Env) (s : Server) :
    (masterReadHandler e s).w.buffsize = s.w.buffsize ∧
      (masterReadHandler e s).w.transferredBytes = s.w.transferredBytes := by
  rcases masterReadHandler_cases e s with ⟨-, heq⟩ | ⟨w, hw, ⟨-, heq⟩ | ⟨fd, -, -, heq⟩⟩
  · rw [heq]
    exact ⟨rfl, rfl⟩
  · rw [heq, (addProxyClient_some hw).2]
    exact ⟨rfl, rfl⟩
  · rw [heq, (addProxyClient_some hw).2]
    exact ⟨rfl, rfl⟩

theorem mgmtMasterReadHandler_keeps (e : Env) (s : Server) :
    (mgmtMasterReadHandler e s).w.buffsize = s.w.buffsize ∧
      (mgmtMasterReadHandler e s).w.transferredBytes = s.w.transferredBytes := by
  rcases mgmtMasterReadHandler_cases e s with
    ⟨-, heq⟩ | ⟨w, hw, ⟨-, heq⟩ | ⟨fd, -, ⟨-, heq⟩ | ⟨-, -, heq⟩⟩⟩
  · rw [heq]
    exact ⟨rfl, rfl⟩
  · rw [heq, (addMgmtClient_some hw).2]
    exact ⟨rfl, rfl⟩
  · rw [heq, (addMgmtClient_some hw).2]
    exact ⟨rfl, rfl⟩
  · rw [heq, (addMgmtClient_some hw).2]
    exact ⟨rfl, rfl⟩

/-! Only SET-BUFFSIZE sets the size of new buffers. -/

theorem Inv.readHalf_buffsize (h : Inv s) {i : ℕ} (hu : itemUsed (s.w.selector.fds i) = true)
    (r : Bool) (e : Env) :
    (readHalf i r e s).w.buffsize = s.w.buffsize := by
  rcases readHalf_cases h hu r e with
    heq | heq | ⟨-, heq, -⟩ | ⟨-, heq, -⟩ | ⟨id, c, -, hhit, hi, heq⟩
  · rw [heq]
  · rw [heq]
    rfl
  · rw [heq]
    exact (masterReadHandler_keeps e s).1
  · rw [heq]
    exact (mgmtMasterReadHandler_keeps e s).1
  · rw [heq]
    obtain ⟨m, hheld⟩ := hhit.held
    exact ((stmHandlerRead_kept (x := ⟨id, c, s.w⟩) (hhit.ctl h) hheld hi).run_local
      hhit.heap).buffsize

theorem Inv.writeHalf_buffsize (h : Inv s) {i : ℕ} (hu : itemUsed (s.w.selector.fds i) = true)
    (r w : Bool) (er ew : Env) :
    (writeHalf i (s.w.selector.fds i).fd (s.w.selector.fds i).data w ew
      (readHalf i r er s)).w.buffsize =
      (readHalf i r er s).w.buffsize := by
  have hmove : Move anyWrite s (readHalf i r er s) := readHalf_move h hu r er
  have hread : Inv (readHalf i r er s) := h.move hmove
  rcases writeHalf_cases h hu r w er ew with heq | heq | ⟨id, c, -, -, -, hhit, hint, heq⟩
  · rw [heq]
  · rw [heq]
    rfl
  · rw [heq]
    obtain ⟨m, hheld⟩ := hhit.held
    exact ((stmHandlerWrite_kept (x := ⟨id, c, _⟩) (hhit.ctl hread) hheld hint hread.cap).run_local
      hhit.heap).buffsize

theorem Inv.step_buffsize (h : Inv s) (ev : Event) (hmax : s.w.buffsize < maxSocksBuffsize) :
    (step s ev).w.buffsize < maxSocksBuffsize := by
  unfold step
  split
  · exact hmax
  cases ev with
  | dispatch i r w er ew =>
    dsimp only [dispatch]
    split
    · exact hmax
    · rename_i hu
      have hu' : itemUsed (s.w.selector.fds i) = true := by simpa using hu
      rw [h.writeHalf_buffsize hu', h.readHalf_buffsize hu']
      exact hmax
  | resolved id addrs =>
    dsimp only [threadNameResolution]
    split
    · exact hmax
    · split
      · exact hmax
      · exact hmax
  | notify =>
    dsimp only [handleBlockNotifications]
    split
    · exact hmax
    · rename_i j jobs hj
      split
      · exact hmax
      · rename_i it hit
        split
        · rename_i id hd
          obtain ⟨c, hhit⟩ := h.hit hit hd
          have hkept :=
            stmHandlerBlock_kept (x := ⟨id, c, { s.w with resolutionJobs := jobs }⟩) (hhit.ctl h)
          have hrun :=
            hkept.run_local (s := { s with w := { s.w with resolutionJobs := jobs } }) hhit.heap
          exact Nat.lt_of_le_of_lt (Nat.le_of_eq hrun.buffsize) hmax
        · exact hmax
  | addUser | setDissector => exact hmax
  | setBuffsize size =>
    dsimp only
    split
    · rename_i hsize
      exact hsize.2
    · exact hmax
  | mgmtClose fd =>
    dsimp only
    unfold Socks5d.mgmtClose
    split
    · split
      · exact hmax
      · exact hmax
    · exact hmax

/-! ## The first state -/

/-- While `main` registers the listening sockets. -/
structure Booting (sel : FdSelector Handler) (fds : List ℤ) : Prop where
  selector : SelectorInv sel
  cap : itemsMaxSize ≤ sel.fdSize
  only : ∀ fd it, item? sel fd = some it → fd ∈ fds ∧ ∀ id, it.data ≠ some (.socks5 id)

theorem Booting.register {sel : FdSelector Handler} {fds : List ℤ} {fd : ℤ} {d : Handler}
    (h : Booting sel fds) (hfd : fd ∈ fds) (hd : ∀ id, d ≠ .socks5 id) :
    Booting (selectorRegister true sel fd opRead d).1 fds ∧
      ∀ fd' it, item? sel fd' = some it →
        item? (selectorRegister true sel fd opRead d).1 fd' = some it := by
  have hinv : SelectorInv (selectorRegister true sel fd opRead d).1 :=
    h.selector.register true _ _ h.cap
  rcases register_cases fd true opRead d h.cap with ⟨-, hs, -⟩ | ⟨-, -, hnone, hsz, hit⟩
  · rw [hs]
    exact ⟨h, fun _ _ h => h⟩
  · refine ⟨⟨hinv, by rw [hsz]; exact h.cap, ?_⟩, ?_⟩
    · intro fd' it hit'
      rw [hit] at hit'
      split_ifs at hit' with heq
      · cases hit'
        exact ⟨heq ▸ hfd, fun id => by simpa [newItem] using hd id⟩
      · exact h.only fd' it hit'
    · intro fd' it hit'
      have hne : fd' ≠ fd := by
        rintro rfl
        rw [hnone] at hit'
        cases hit'
      rw [hit, if_neg hne]
      exact hit'

theorem Booting.registerAll {sel : FdSelector Handler} {fds : List ℤ} (fds' : List ℤ) {d : Handler}
    (h : Booting sel fds) (hfds : ∀ fd ∈ fds', fd ∈ fds) (hd : ∀ id, d ≠ .socks5 id) :
    Booting (registerAll d fds' sel) fds ∧
      ∀ fd it, item? sel fd = some it → item? (registerAll d fds' sel) fd = some it := by
  induction fds' generalizing sel with
  | nil => exact ⟨h, fun _ _ h => h⟩
  | cons fd fds' ih =>
    obtain ⟨hr, hk⟩ := h.register (hfds fd List.mem_cons_self) hd
    obtain ⟨hr', hk'⟩ := ih hr fun fd' hfd' => hfds fd' (List.mem_cons_of_mem _ hfd')
    exact ⟨hr', fun fd' it hit => hk' fd' it (hk fd' it hit)⟩

theorem emptySelector_eq : emptySelector =
    ⟨fun i => if i < nextCapacity 1024 then itemInit else itemInit, nextCapacity 1024, 0,
      fun _ => false, fun _ => false⟩ := by
  simp [emptySelector, selectorNew, ensureCapacity, itemsMaxSize, itemsInit]

theorem emptySelector_booting (fds : List ℤ) : Booting emptySelector fds := by
  have hitem : ∀ i, emptySelector.fds i = itemInit := by
    intro i
    rw [emptySelector_eq]
    exact ite_self _
  have hused : ∀ i, itemUsed (emptySelector.fds i) = false := by
    intro i
    rw [hitem]
    rfl
  refine ⟨⟨?_, ?_, ?_, ?_⟩, ?_, ?_⟩
  · intro i hu
    rw [hused] at hu
    cases hu
  · intro i _
    rw [hitem]
    rfl
  · intro i
    rw [hused, emptySelector_eq]
    rfl
  · intro i
    rw [hused, emptySelector_eq]
    rfl
  · rw [emptySelector_eq]
    decide
  · intro fd it hit
    unfold item? at hit
    rw [hused] at hit
    split_ifs at hit with _ hc
    cases hc

theorem boot_inv (users : UserTable) (masters monitors : List ℤ) :
    Inv (boot users masters monitors) := by
  generalize hfds : 0 :: 1 :: 2 :: masters ++ monitors = fds
  have h0 : (0 : ℤ) ∈ fds := by
    rw [← hfds]
    exact List.mem_cons_self
  have hne : ∀ id, Handler.master ≠ .socks5 id := fun id => by simp
  obtain ⟨hb0, hk0⟩ := (emptySelector_booting fds).register h0 hne
  have hl0 : ∃ it, item? (selectorRegister true emptySelector 0 opRead .master).1 0 = some it ∧
      it.data = some .master := by
    rcases register_cases 0 true opRead Handler.master (emptySelector_booting []).cap with
      ⟨-, -, hinv | hit⟩ | ⟨-, -, -, -, hit⟩
    · cases hinv
    · refine absurd ?_ hit
      by_contra hsome
      obtain ⟨it, hit'⟩ := Option.ne_none_iff_exists'.mp hsome
      exact absurd ((emptySelector_booting []).only 0 it hit').1 List.not_mem_nil
    · exact ⟨_, (hit 0).trans (if_pos rfl), rfl⟩
  obtain ⟨hb1, hk1⟩ := hb0.registerAll masters (d := .master) (fun fd hfd => by
    rw [← hfds]
    simp [hfd]) hne
  obtain ⟨hb2, hk2⟩ := hb1.registerAll monitors (d := .monitor) (fun fd hfd => by
    rw [← hfds]
    simp [hfd]) fun id => by simp
  have hsize : minSocksBuffsize < 2048 := by decide
  refine ⟨hb2.selector, hb2.cap, ?_, ?_, hsize, ?_, ?_, ?_, ?_⟩
  · intro fd hit
    obtain ⟨it, hit'⟩ := Option.ne_none_iff_exists'.mp hit
    have hmem := (hb2.only fd it hit').1
    simp only [boot, hfds]
    rw [if_pos hmem]
    simp
  · obtain ⟨it, hit, hd⟩ := hl0
    exact ⟨it, hk2 0 it (hk1 0 it hit), hd⟩
  · intro id c hc
    cases hc
  · intro id _ fd it hit hd
    exact absurd hd ((hb2.only fd it hit).2 id)
  · intro id _
    exact ⟨rfl, rfl⟩
  · intro f hf
    cases hf

/-! ## Runs -/

open EventRun

/-- The rule of the later modules: what every move keeps holds after every run
whose write events meet `okw`. -/
theorem run_invariant {P : Server → Prop} {users : UserTable} {masters monitors : List ℤ}
    (h0 : P (boot users masters monitors))
    (hmove : ∀ s s', Inv s → Move okw s s' → P s → P s') {evs : List Event}
    (hok : Along step (WriteOk okw) (boot users masters monitors) evs) :
    Inv (exec step (boot users masters monitors) evs) ∧
      P (exec step (boot users masters monitors) evs) := by
  refine exec_invariant_along (P := fun s => Inv s ∧ P s)
    ⟨boot_inv users masters monitors, h0⟩ ?_ hok
  rintro s ev hev ⟨hinv, hp⟩
  obtain ⟨s', hm, hm'⟩ := step_moves hinv ev hev
  have hinv' := hinv.move hm
  exact ⟨hinv'.move hm', hmove _ _ hinv' hm' (hmove _ _ hinv hm hp)⟩

theorem along_anyWrite (s : Server) (evs : List Event) : Along step (WriteOk anyWrite) s evs := by
  induction evs generalizing s with
  | nil => trivial
  | cons ev evs ih =>
    refine ⟨?_, ih _⟩
    cases ev <;> simp [WriteOk, anyWrite]

/-- A condition on the system calls alone can be read off the events. -/
theorem along_writeOk {p : Env → Prop} (hp : ∀ s id c fd e, p e → okw s id c fd e)
    {evs : List Event}
    (h : ∀ ev ∈ evs, match ev with
      | .dispatch _ _ _ _ ew => p ew
      | _ => True) : Along step (WriteOk okw) s evs := by
  induction evs generalizing s with
  | nil => trivial
  | cons ev evs ih =>
    refine ⟨?_, ih fun ev' hev' => h ev' (List.mem_cons_of_mem _ hev')⟩
    have hev := h ev List.mem_cons_self
    cases ev with
    | dispatch i r w er ew => exact fun id c _ _ _ _ _ _ => hp _ id c _ ew hev
    | resolved | notify | addUser | setBuffsize | setDissector | mgmtClose => trivial

theorem reachable_inv (users : UserTable) (masters monitors : List ℤ) (evs : List Event) :
    Inv (exec step (boot users masters monitors) evs) :=
  (run_invariant (P := fun _ => True) trivial (fun _ _ _ _ _ => trivial)
    (along_anyWrite _ evs)).1

end Socks5d

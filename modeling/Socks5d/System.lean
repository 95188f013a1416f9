import Socks5d.Lib.Parties
import Socks5d.Settings

/-! # The whole server

`Server` leaves open what management connections do, and a session leaves open what everybody
else does. Here one loop serves them all: the clients of the proxy, the listening sockets and
any number of management connections. -/

namespace Socks5d
open EventRun

/-- A `mgmt_client`, the interest of its registration and what was seen of it. -/
structure MgmtConn where
  c : MgmtClient
  interest : FdInterest
  closed : Bool
  log : List MgmtObs

/-- The connection together with the server. -/
def MgmtConn.session (m : MgmtConn) (tokens : List (List UInt8)) (server : Server) : Session :=
  ⟨server, tokens, m.c, m.interest, m.closed, m.log⟩

def Session.conn (s : Session) : MgmtConn := ⟨s.c, s.interest, s.closed, s.log⟩

/-- The server and its management connections, by descriptor. -/
abbrev System := Parties.Company ℤ Server MgmtConn

/-- The descriptor of the connection that `mgmt_master_read_handler` establishes, if it does. -/
def mgmtAccepts (e : Env) (w : World) : Option ℤ :=
  match addMgmtClient w with
  | none => none
  | some w =>
    match freshFd w e.socket with
    | none => none
    | some fd =>
      if e.mallocClient ∧
          (selectorRegister true w.selector fd (opWrite ||| opRead) .mgmt).2 = .success then some fd
      else none

/-- The connection that the read handler of the entry `item` establishes, if it does. -/
def accepts (item : Item Handler) (r : Bool) (e : Env) (w : World) : Option ℤ :=
  if item.data = some .monitor ∧ r = true ∧ item.interest.read = true then mgmtAccepts e w else none

/-- The handler of a management connection is called, if the connection is still there. -/
def serve (tokens : List (List UInt8)) (fd : ℤ) (ev : MgmtEvent) (sys : System) : System :=
  match sys.present fd with
  | none => sys
  | some m =>
    let s := sessionStep (m.session tokens sys.shared) ev
    if s.closed then
      ⟨s.server, Function.update sys.present fd none, sys.departed ++ [(fd, s.server, s.conn)]⟩
    else { sys with shared := s.server, present := Function.update sys.present fd (some s.conn) }

/-- `mgmt_master_read_handler` has registered a new client, in memory that held `raw`. -/
def welcome (tokens : List (List UInt8)) (fd : ℤ) (raw : RawMgmt) (server : Server)
    (sys : System) : System :=
  { sys with
    shared := server
    present := Function.update sys.present fd (some (openSession server tokens fd raw).conn) }

/-- The body of the loop of `handle_iteration`, whoever the entry belongs to. -/
def serveItem (tokens : List (List UInt8)) (i : ℕ) (r w : Bool) (er ew : Env) (raw : RawMgmt)
    (sys : System) : System :=
  let item := sys.shared.w.selector.fds i
  if !itemUsed item then sys
  else if item.data = some .mgmt then
    let sys := if r then serve tokens item.fd (.read er.read) sys else sys
    if w then serve tokens item.fd (.write ew.send) sys else sys
  else
    let server := dispatch i r w er ew sys.shared
    match accepts item r er sys.shared.w with
    | none => { sys with shared := server }
    | some fd => welcome tokens fd raw server sys

inductive SystemEvent
  /-- The loop comes to descriptor `i`. -/
  | dispatch (i : ℕ) (r w : Bool) (er ew : Env) (raw : RawMgmt)
  | resolved (id : ClientId) (addrs : List AddrInfo)
  | notify

def systemStep (tokens : List (List UInt8)) (sys : System) (ev : SystemEvent) : System :=
  if sys.shared.halted.isSome then sys
  else
    match ev with
    | .dispatch i r w er ew raw => serveItem tokens i r w er ew raw sys
    | .resolved id addrs => { sys with shared := threadNameResolution id addrs sys.shared }
    | .notify => { sys with shared := handleBlockNotifications sys.shared }

def bootSystem (users : UserTable) (masters monitors : List ℤ) : System :=
  ⟨boot users masters monitors, fun _ => none, []⟩

/-! ## Registrations -/

section
variable {s : Server} {fd : ℤ} {id : ClientId} {c : Client}

theorem mgmtAccepts_refused {e : Env} {w w' : World} (hw : addMgmtClient w = some w')
    (hno : ∀ fd, freshFd w' e.socket = some fd → ¬ (e.mallocClient = true ∧
      (selectorRegister true w'.selector fd (opWrite ||| opRead) .mgmt).2 = .success)) :
    mgmtAccepts e w = none := by
  rw [mgmtAccepts, hw]
  dsimp only
  cases hfd : freshFd w' e.socket with
  | none => rfl
  | some fd => exact if_neg (hno fd hfd)

theorem mgmtAccepts_made {e : Env} {w w' : World} (hw : addMgmtClient w = some w')
    (hfd : freshFd w' e.socket = some fd) (hmal : e.mallocClient = true)
    (hreg : (selectorRegister true w'.selector fd (opWrite ||| opRead) .mgmt).2 = .success) :
    mgmtAccepts e w = some fd := by
  rw [mgmtAccepts, hw]
  dsimp only
  rw [hfd]
  exact if_pos ⟨hmal, hreg⟩

/-- The management connections after `mgmt_master_read_handler`. -/
theorem mgmtMasterReadHandler_mgmtClients (h : Inv s) (e : Env) :
    (mgmtAccepts e s.w = none ∧
      mgmtClients (mgmtMasterReadHandler e s).w.selector = mgmtClients s.w.selector) ∨
    ∃ fd, mgmtAccepts e s.w = some fd ∧ fd ∉ mgmtClients s.w.selector ∧
      mgmtClients (mgmtMasterReadHandler e s).w.selector =
        insert fd (mgmtClients s.w.selector) := by
  rcases mgmtMasterReadHandler_cases e s with ⟨hno, heq⟩ |
    ⟨w, hw, ⟨hbad, heq⟩ | ⟨fd, hfd, ⟨hbad, heq⟩ | ⟨hmal, hreg, heq⟩⟩⟩
  · rw [heq, mgmtAccepts, hno]
    exact .inl ⟨rfl, rfl⟩
  · refine .inl ⟨mgmtAccepts_refused hw fun fd hfd => ?_, ?_⟩
    · rw [hbad] at hfd
      cases hfd
    · rw [heq, (addMgmtClient_some hw).2]
      rfl
  · refine .inl ⟨mgmtAccepts_refused hw fun fd' hfd' => ?_, ?_⟩
    · rw [hfd, Option.some.injEq] at hfd'
      subst hfd'
      rintro ⟨hmal, hreg⟩
      rw [hmal] at hbad
      exact hbad.elim (fun hf => by cases hf) fun hf => hf hreg
    · rw [heq, (addMgmtClient_some hw).2]
      rfl
  · have hmade := mgmtAccepts_made hw hfd hmal hreg
    obtain ⟨-, rfl⟩ := addMgmtClient_some hw
    rw [heq]
    exact .inr ⟨fd, hmade, mgmtClients_register h (freshFd_some hfd).2 hreg⟩

theorem run_mgmtClients {handler : Ctx → Except Fault Outcome} (hc : s.heap id = some c)
    (hk : Kept ⟨id, c, s.w⟩ (handler ⟨id, c, s.w⟩)) :
    mgmtClients (s.run id handler).w.selector = mgmtClients s.w.selector :=
  mgmtClients_spares (hk.run_local hc).spares (by simp)

theorem masterReadHandler_mgmtClients (h : Inv s) (e : Env) :
    mgmtClients (masterReadHandler e s).w.selector = mgmtClients s.w.selector := by
  rcases masterReadHandler_cases e s with ⟨-, heq⟩ | ⟨w, hw, ⟨-, heq⟩ | ⟨fd, -, -, heq⟩⟩
  · rw [heq]
  · rw [heq, (addProxyClient_some hw).2]
    rfl
  · obtain ⟨-, rfl⟩ := addProxyClient_some hw
    rw [heq]
    exact mgmtClients_spares (.register true h.cap) (by simp)

section
variable (h : Inv s) {i : ℕ} (hu : itemUsed (s.w.selector.fds i) = true)
include h hu

theorem writeHalf_mgmtClients (r w : Bool) (er ew : Env) :
    mgmtClients (writeHalf i (s.w.selector.fds i).fd (s.w.selector.fds i).data w ew
      (readHalf i r er s)).w.selector = mgmtClients (readHalf i r er s).w.selector := by
  have h1 : Inv (readHalf i r er s) := h.move (readHalf_move h hu r er : Move anyWrite _ _)
  rcases writeHalf_cases h hu r w er ew with heq | heq | ⟨id, c, -, -, -, hhit, hint, heq⟩
  · rw [heq]
  · rw [heq]
    rfl
  · rw [heq]
    obtain ⟨m, hheld⟩ := hhit.held
    exact run_mgmtClients hhit.heap
      (stmHandlerWrite_kept (x := ⟨id, c, _⟩) (hhit.ctl h1) hheld hint h1.cap)

theorem readHalf_mgmtClients (r : Bool) (e : Env) :
    (accepts (s.w.selector.fds i) r e s.w = none ∧
      mgmtClients (readHalf i r e s).w.selector = mgmtClients s.w.selector) ∨
    ∃ fd, accepts (s.w.selector.fds i) r e s.w = some fd ∧ fd ∉ mgmtClients s.w.selector ∧
      mgmtClients (readHalf i r e s).w.selector = insert fd (mgmtClients s.w.selector) := by
  by_cases hmon : (s.w.selector.fds i).data = some .monitor ∧ r = true ∧
      (s.w.selector.fds i).interest.read = true
  · have hhalf : readHalf i r e s = mgmtMasterReadHandler e s := by
      unfold readHalf
      dsimp only
      rw [hmon.1, hmon.2.1, hmon.2.2]
      rfl
    rw [accepts, if_pos hmon, hhalf]
    exact mgmtMasterReadHandler_mgmtClients h e
  · refine .inl ⟨if_neg hmon, ?_⟩
    rcases readHalf_cases h hu r e with heq | heq | ⟨-, heq, -⟩ | ⟨hd, -, hr, hread⟩ |
      ⟨id, c, -, hhit, hi, heq⟩
    · rw [heq]
    · rw [heq]
      rfl
    · rw [heq]
      exact masterReadHandler_mgmtClients h e
    · exact absurd ⟨hd, hr, hread⟩ hmon
    · rw [heq]
      obtain ⟨m, hheld⟩ := hhit.held
      exact run_mgmtClients hhit.heap
        (stmHandlerRead_kept (x := ⟨id, c, s.w⟩) (hhit.ctl h) hheld hi)

/-- The management connections after the body of the loop has served another entry. -/
theorem dispatch_mgmtClients (r w : Bool) (er ew : Env) :
    (accepts (s.w.selector.fds i) r er s.w = none ∧
      mgmtClients (dispatch i r w er ew s).w.selector = mgmtClients s.w.selector) ∨
    ∃ fd, accepts (s.w.selector.fds i) r er s.w = some fd ∧ fd ∉ mgmtClients s.w.selector ∧
      mgmtClients (dispatch i r w er ew s).w.selector = insert fd (mgmtClients s.w.selector) := by
  have hdispatch : dispatch i r w er ew s = writeHalf i (s.w.selector.fds i).fd
      (s.w.selector.fds i).data w ew (readHalf i r er s) := by
    unfold dispatch
    exact if_neg (by simp [hu])
  rw [hdispatch, writeHalf_mgmtClients h hu]
  exact readHalf_mgmtClients h hu r er

end

theorem resolved_mgmtClients (id : ClientId) (addrs : List AddrInfo) (s : Server) :
    mgmtClients (threadNameResolution id addrs s).w.selector = mgmtClients s.w.selector := by
  unfold threadNameResolution
  split
  · rfl
  · split
    · rfl
    · rfl

theorem notify_mgmtClients (h : Inv s) :
    mgmtClients (handleBlockNotifications s).w.selector = mgmtClients s.w.selector := by
  unfold handleBlockNotifications
  split
  · rfl
  rename_i j jobs hj
  dsimp only
  have hjobs : Inv { s with w := { s.w with resolutionJobs := jobs } } := h.jobs (.inl rfl)
  split
  · rfl
  · rename_i it hit
    split
    · rename_i id hd
      obtain ⟨c, hhit⟩ := hjobs.hit hit hd
      exact run_mgmtClients (s := { s with w := { s.w with resolutionJobs := jobs } }) hhit.heap
        (stmHandlerBlock_kept (x := ⟨id, c, _⟩) (hhit.ctl hjobs))
    · rfl

theorem command_keeps {a : Act} {ev : Event} (h : a.event = some ev) (s : Server) :
    (step s ev).w.selector = s.w.selector ∧ (step s ev).halted = s.halted := by
  rcases a.event_cases h with ⟨userpass, rfl⟩ | ⟨size, rfl⟩ | ⟨state, rfl⟩
  · unfold step
    split_ifs
    · exact ⟨rfl, rfl⟩
    · exact ⟨rfl, rfl⟩
  · unfold step
    dsimp only
    split_ifs
    · exact ⟨rfl, rfl⟩
    · exact ⟨rfl, rfl⟩
    · exact ⟨rfl, rfl⟩
  · unfold step
    split_ifs
    · exact ⟨rfl, rfl⟩
    · exact ⟨rfl, rfl⟩

theorem boot_mgmtClients (users : UserTable) (masters monitors : List ℤ) :
    mgmtClients (boot users masters monitors).w.selector = ∅ := by
  obtain ⟨hcap, hmasters⟩ := mgmtClients_registerAll (d := .master) (by simp) (0 :: masters)
    (emptySelector_booting []).cap
  obtain ⟨-, hmonitors⟩ := mgmtClients_registerAll (d := .monitor) (by simp) monitors hcap
  refine (hmonitors.trans hmasters).trans (Finset.eq_empty_of_forall_notMem fun fd hfd => ?_)
  obtain ⟨it, hit, -⟩ := mem_mgmtClients.mp hfd
  exact absurd ((emptySelector_booting []).only fd it hit).1 List.not_mem_nil

/-- Commands register nothing and do no harm. -/
theorem commands_keep (as : List Act) (s : Server) :
    (exec step s (as.filterMap Act.event)).w.selector = s.w.selector ∧
      (exec step s (as.filterMap Act.event)).halted = s.halted := by
  induction as generalizing s with
  | nil => exact ⟨rfl, rfl⟩
  | cons a as ih =>
    rw [List.filterMap_cons]
    cases hev : a.event with
    | none => exact ih s
    | some ev =>
      obtain ⟨hsel, hhalt⟩ := command_keeps hev s
      exact ⟨(ih (step s ev)).1.trans hsel, (ih (step s ev)).2.trans hhalt⟩

theorem mgmtClose_mgmtClients (fd : ℤ) (s : Server) :
    mgmtClients (mgmtClose fd s).w.selector = (mgmtClients s.w.selector).erase fd := by
  have hnot : (∀ it, item? s.w.selector fd = some it → it.data ≠ some .mgmt) →
      mgmtClients s.w.selector = (mgmtClients s.w.selector).erase fd := by
    intro hno
    refine (Finset.erase_eq_of_notMem ?_).symm
    rw [mem_mgmtClients]
    rintro ⟨it, hit, hd⟩
    exact hno it hit hd
  unfold mgmtClose
  split
  · rename_i it hit
    split_ifs with hd
    · exact mgmtClients_unregister
    · refine hnot fun it' hit' => ?_
      rw [hit, Option.some.injEq] at hit'
      exact hit' ▸ hd
  · rename_i hnone
    refine hnot fun it hit => ?_
    rw [hnone] at hit
    cases hit

/-- The management connections after one of them was served. -/
theorem Attended.mgmtClients {s t : Session} (h : Attended s t) (hs : s.server.halted = none)
    (hclosed : s.closed = false) :
    mgmtClients t.server.w.selector = if t.closed then
      (Socks5d.mgmtClients s.server.w.selector).erase s.c.fd
      else Socks5d.mgmtClients s.server.w.selector := by
  obtain ⟨as, -, ⟨hsame, hserver⟩ | ⟨hover, hserver⟩⟩ := h.acts
  · rw [hsame, hclosed, hserver, (commands_keep as s.server).1]
    rfl
  · obtain ⟨hsel, hhalt⟩ := commands_keep as s.server
    rw [hover, if_pos rfl, hserver, exec_append, exec_cons, exec_nil, step,
      if_neg (step_running (hhalt.trans hs)), ← hsel]
    exact mgmtClose_mgmtClients _ _

end

/-! ## The system is its parts -/

section
variable (tokens : List (List UInt8)) (users : UserTable) (masters monitors : List ℤ)

/-- The connection and the server are in a state that a session with the server, begun on `fd` at
some time, can be in. -/
def IsSession (fd : ℤ) (s : Server) (m : MgmtConn) : Prop :=
  ∃ evs raw es, m.session tokens s =
    exec sessionStep (openSession (exec step (boot users masters monitors) evs) tokens fd raw) es

/-- How management connections behave. -/
def conduct : Parties.Conduct ℤ Server MgmtConn where
  effect s s' := ∃ evs, s' = exec step s evs
  born fd s m := (∃ evs, s = exec step (boot users masters monitors) evs) ∧
    ∃ raw, m.session tokens s = openSession s tokens fd raw
  own _ s m s' m' := ∃ ev : MgmtEvent, (∀ e, ev ≠ .server e) ∧
    m'.session tokens s' = sessionStep (m.session tokens s) ev
  ended m := m.closed

theorem isSession_kept :
    Parties.Kept (conduct tokens users masters monitors)
      (IsSession tokens users masters monitors) where
  born := by
    rintro fd s m ⟨⟨evs, rfl⟩, raw, hm⟩
    exact ⟨evs, raw, [], hm⟩
  stable := by
    rintro fd s m s' ⟨evs, raw, es, hm⟩ ⟨more, rfl⟩
    refine ⟨evs, raw, es ++ more.map .server, ?_⟩
    rw [exec_append, ← hm, exec_server]
    rfl
  own := by
    rintro fd s m s' m' ⟨evs, raw, es, hm⟩ - ⟨ev, -, hown⟩
    refine ⟨evs, raw, es ++ [ev], ?_⟩
    rw [exec_append, ← hm, hown]
    rfl
  guarantee := by
    rintro fd s m s' m' - - ⟨ev, hev, hown⟩
    obtain ⟨as, -, ⟨-, hserver⟩ | ⟨-, hserver⟩⟩ :=
      (sessionStep_attended (m.session tokens s) hev).acts
    · exact ⟨_, (congrArg Session.server hown).trans hserver⟩
    · exact ⟨_, (congrArg Session.server hown).trans hserver⟩

variable {tokens users masters monitors} {sys : System} {fd : ℤ} {s : Server} {m : MgmtConn}

theorem IsSession.fd_eq (h : IsSession tokens users masters monitors fd s m) : m.c.fd = fd := by
  obtain ⟨evs, raw, es, hm⟩ := h
  have hall : (exec sessionStep
      (openSession (exec step (boot users masters monitors) evs) tokens fd raw) es).c.fd = fd := by
    refine exec_invariant (P := fun t : Session => t.c.fd = fd) rfl fun t ev ht => ?_
    cases ev with
    | read r => exact (sessionStep_attended t (by simp)).fd_eq.trans ht
    | write r => exact (sessionStep_attended t (by simp)).fd_eq.trans ht
    | server e => exact ht
  rw [← hm] at hall
  exact hall

theorem conn_session {t : Session} (h : t.tokens = tokens) :
    t.conn.session tokens t.server = t := by
  subst h
  rfl

variable (tokens users masters monitors)

/-- What holds of the system between two turns of its loop. -/
structure Assembled (sys : System) : Prop where
  reached : ∃ evs, sys.shared = exec step (boot users masters monitors) evs
  registered : ∀ fd, (sys.present fd).isSome = true ↔ fd ∈ mgmtClients sys.shared.w.selector
  sessions : Parties.Everywhere (conduct tokens users masters monitors)
    (IsSession tokens users masters monitors) sys

variable {tokens users masters monitors}

theorem Assembled.inv (h : Assembled tokens users masters monitors sys) : Inv sys.shared := by
  obtain ⟨evs, hs⟩ := h.reached
  rw [hs]
  exact reachable_inv users masters monitors evs

theorem Assembled.running_reached (h : Assembled tokens users masters monitors sys)
    (hs : (conduct tokens users masters monitors).effect sys.shared s) :
    ∃ evs, s = exec step (boot users masters monitors) evs := by
  obtain ⟨evs, hshared⟩ := h.reached
  obtain ⟨more, rfl⟩ := hs
  exact ⟨evs ++ more, by rw [exec_append, hshared]⟩

/-- A connection that is still there is served. -/
theorem serve_some (hm : sys.present fd = some m) (ev : MgmtEvent) {t : Session}
    (ht : sessionStep (m.session tokens sys.shared) ev = t) :
    (t.closed = true ∧ serve tokens fd ev sys =
      ⟨t.server, Function.update sys.present fd none,
        sys.departed ++ [(fd, t.server, t.conn)]⟩) ∨
    (t.closed = false ∧ serve tokens fd ev sys =
      { sys with
        shared := t.server
        present := Function.update sys.present fd (some t.conn) }) := by
  unfold serve
  rw [hm]
  dsimp only
  rw [ht]
  cases hc : t.closed with
  | true => exact .inl ⟨rfl, if_pos rfl⟩
  | false => exact .inr ⟨rfl, if_neg Bool.false_ne_true⟩

theorem Assembled.serve (h : Assembled tokens users masters monitors sys)
    (hrun : sys.shared.halted = none) (fd : ℤ) {ev : MgmtEvent} (hev : ∀ e, ev ≠ .server e) :
    Assembled tokens users masters monitors (serve tokens fd ev sys) ∧
      (Socks5d.serve tokens fd ev sys).shared.halted = none := by
  cases hm : sys.present fd with
  | none =>
    have hsame : Socks5d.serve tokens fd ev sys = sys := by
      unfold Socks5d.serve
      rw [hm]
    rw [hsame]
    exact ⟨h, hrun⟩
  | some m =>
    have hfd : m.c.fd = fd := (h.sessions.present fd m hm).fd_eq
    have hgoing : m.closed = false := h.sessions.going fd m hm
    have hserved := sessionStep_attended (m.session tokens sys.shared) hev
    generalize ht : sessionStep (m.session tokens sys.shared) ev = t at hserved
    have hown : (conduct tokens users masters monitors).own fd sys.shared m t.server t.conn :=
      ⟨ev, hev, (conn_session hserved.tokens_eq).trans ht.symm⟩
    have heffect := (isSession_kept tokens users masters monitors).guarantee fd _ m _ _
      (h.sessions.present fd m hm) hgoing hown
    have hclients : mgmtClients t.server.w.selector = if t.closed then
        (mgmtClients sys.shared.w.selector).erase fd else mgmtClients sys.shared.w.selector :=
      hfd ▸ hserved.mgmtClients hrun hgoing
    have hhalt : t.server.halted = none := hserved.halted_eq.trans hrun
    rcases serve_some hm ev ht with ⟨hclosed, heq⟩ | ⟨hclosed, heq⟩
    · rw [heq]
      refine ⟨⟨h.running_reached heffect, fun fd' => ?_, ?_⟩, hhalt⟩
      · rw [hclients, hclosed, if_pos rfl, Finset.mem_erase, ← h.registered fd']
        by_cases heq' : fd' = fd
        · simp [heq']
        · simp [heq']
      · exact h.sessions.move (isSession_kept ..) (.leave fd m _ _ hm hown hclosed)
    · rw [heq]
      refine ⟨⟨h.running_reached heffect, fun fd' => ?_, ?_⟩, hhalt⟩
      · rw [hclients, hclosed, if_neg Bool.false_ne_true, ← h.registered fd']
        by_cases heq' : fd' = fd
        · simp [heq', hm]
        · simp [heq']
      · exact h.sessions.move (isSession_kept ..) (.act fd m _ _ hm hown hclosed)

/-- The server acts without its management connections. -/
theorem Assembled.background (h : Assembled tokens users masters monitors sys)
    (hs : (conduct tokens users masters monitors).effect sys.shared s)
    (hclients : mgmtClients s.w.selector = mgmtClients sys.shared.w.selector) :
    Assembled tokens users masters monitors { sys with shared := s } := by
  refine ⟨h.running_reached hs, fun fd => ?_, h.sessions.background (isSession_kept ..) hs⟩
  rw [hclients]
  exact h.registered fd

theorem Assembled.absent (h : Assembled tokens users masters monitors sys)
    (hnew : fd ∉ mgmtClients sys.shared.w.selector) : sys.present fd = none := by
  rw [← h.registered fd, Bool.not_eq_true, Option.isSome_eq_false_iff] at hnew
  exact Option.isNone_iff_eq_none.mp hnew

theorem Assembled.welcome (h : Assembled tokens users masters monitors sys)
    (hs : (conduct tokens users masters monitors).effect sys.shared s)
    (hnew : fd ∉ mgmtClients sys.shared.w.selector)
    (hclients : mgmtClients s.w.selector = insert fd (mgmtClients sys.shared.w.selector))
    (raw : RawMgmt) :
    Assembled tokens users masters monitors (welcome tokens fd raw s sys) := by
  have hnone := h.absent hnew
  have hreached := h.running_reached hs
  refine ⟨hreached, fun fd' => ?_, ?_⟩
  · rw [Socks5d.welcome]
    dsimp only
    rw [hclients, Finset.mem_insert, ← h.registered fd']
    by_cases heq : fd' = fd
    · simp [heq]
    · simp [heq]
  · have hborn : (conduct tokens users masters monitors).born fd s
        (openSession s tokens fd raw).conn := ⟨hreached, raw, conn_session rfl⟩
    exact h.sessions.move (isSession_kept ..) (.enter fd s _ hs hnone hborn rfl)

theorem Assembled.serveItem (h : Assembled tokens users masters monitors sys)
    (hrun : sys.shared.halted = none) (i : ℕ) (r w : Bool) (er ew : Env) (raw : RawMgmt) :
    Assembled tokens users masters monitors (serveItem tokens i r w er ew raw sys) := by
  unfold Socks5d.serveItem
  dsimp only
  split
  · exact h
  rename_i hu
  have hused : itemUsed (sys.shared.w.selector.fds i) = true := by simpa using hu
  split
  · have hread : Assembled tokens users masters monitors (if r = true then Socks5d.serve tokens
        (sys.shared.w.selector.fds i).fd (.read er.read) sys else sys) ∧
        (if r = true then Socks5d.serve tokens
          (sys.shared.w.selector.fds i).fd (.read er.read) sys else sys).shared.halted = none := by
      split
      · exact h.serve hrun _ (by simp)
      · exact ⟨h, hrun⟩
    split
    · exact (hread.1.serve hread.2 _ (by simp)).1
    · exact hread.1
  · have heffect : (conduct tokens users masters monitors).effect sys.shared
        (dispatch i r w er ew sys.shared) := by
      refine ⟨[.dispatch i r w er ew], ?_⟩
      rw [exec_cons, exec_nil, step, if_neg (step_running hrun)]
    rcases dispatch_mgmtClients h.inv hused r w er ew with ⟨hnone, hclients⟩ |
      ⟨fd, hfd, hnew, hclients⟩
    · rw [hnone]
      exact h.background heffect hclients
    · rw [hfd]
      exact h.welcome heffect hnew hclients raw

theorem Assembled.step (h : Assembled tokens users masters monitors sys) (ev : SystemEvent) :
    Assembled tokens users masters monitors (systemStep tokens sys ev) := by
  unfold systemStep
  split
  · exact h
  rename_i hhalt
  have hrun : sys.shared.halted = none := by simpa using hhalt
  cases ev with
  | dispatch i r w er ew raw => exact h.serveItem hrun i r w er ew raw
  | resolved id addrs =>
    refine h.background ⟨[.resolved id addrs], ?_⟩ (resolved_mgmtClients id addrs _)
    rw [exec_cons, exec_nil, Socks5d.step, if_neg (step_running hrun)]
  | notify =>
    refine h.background ⟨[.notify], ?_⟩ (notify_mgmtClients h.inv)
    rw [exec_cons, exec_nil, Socks5d.step, if_neg (step_running hrun)]

variable (tokens users masters monitors)

theorem bootSystem_assembled :
    Assembled tokens users masters monitors (bootSystem users masters monitors) := by
  refine ⟨⟨[], rfl⟩, fun fd => ?_, .start⟩
  rw [bootSystem, boot_mgmtClients users masters monitors]
  exact iff_of_false Bool.false_ne_true (Finset.notMem_empty fd)

theorem reachable_assembled (evs : List SystemEvent) :
    Assembled tokens users masters monitors
      (exec (systemStep tokens) (bootSystem users masters monitors) evs) :=
  exec_invariant (bootSystem_assembled tokens users masters monitors) fun _ ev h => h.step ev

/-- In every run of the system, the server does what the server alone can do, a descriptor is
registered for management exactly while its connection is there, and every connection, also one
that has ended, is in a state that a session by itself can reach while others act on the server. -/
theorem system_is_its_parts (evs : List SystemEvent) :
    let sys := exec (systemStep tokens) (bootSystem users masters monitors) evs
    (∃ es, sys.shared = exec Socks5d.step (boot users masters monitors) es) ∧
    (∀ fd, (sys.present fd).isSome = true ↔ fd ∈ mgmtClients sys.shared.w.selector) ∧
    (∀ fd m, sys.present fd = some m → m.closed = false ∧
      IsSession tokens users masters monitors fd sys.shared m) ∧
    ∀ d ∈ sys.departed, d.2.2.closed = true ∧
      IsSession tokens users masters monitors d.1 d.2.1 d.2.2 := by
  intro sys
  have h : Assembled tokens users masters monitors sys :=
    reachable_assembled tokens users masters monitors evs
  refine ⟨h.reached, h.registered, fun fd m hm => ?_, fun d hd => ?_⟩
  · exact ⟨h.sessions.going fd m hm, h.sessions.present fd m hm⟩
  · exact ⟨(h.sessions.departed d hd).2, (h.sessions.departed d hd).1⟩

end

end Socks5d

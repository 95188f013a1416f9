import Socks5d.Accounting
import Socks5d.MgmtGate

/-! # Who changes the settings

The users, the size of new buffers and the state of the dissector change only by commands of
management connections. What a connection does to the server is what its commands say. -/

namespace Socks5d
open EventRun

variable {x : Ctx} {e : Env} {fd : ℤ} {r : Ctx × Socks5State} {o : Outcome} {s : Server}
  {id : ClientId} {c : Client}

/-! ## SOCKS clients do not

`Local` says it of the users and of the size; here follows the dissector. -/

theorem retire_dissector {b : Bool} :
    (retire b fd x).w.dissectorState = x.w.dissectorState := by
  cases b with
  | false => rfl
  | true =>
    rw [retire, if_pos rfl, Ctx.close]
    split_ifs
    · rfl
    · rfl

theorem dropInterest_dissector {b : Bool} {i : FdInterest} :
    (dropInterest b fd i x).w.dissectorState = x.w.dissectorState := by
  cases b with
  | false => rfl
  | true => rfl

theorem wake_dissector {b : Bool} : (wake b fd x).w.dissectorState = x.w.dissectorState := by
  cases b with
  | false => rfl
  | true => rfl

theorem enableWrite_dissector : (enableWrite x).w.dissectorState = x.w.dissectorState :=
  wake_dissector.trans wake_dissector

theorem closeEnds_dissector {level : SocketEnds} :
    (closeEnds level x).w.dissectorState = x.w.dissectorState := by
  unfold closeEnds
  dsimp only
  rw [retire_dissector, retire_dissector, setEnds_w]
  rw [dropInterest_dissector, dropInterest_dissector, dropInterest_dissector,
    dropInterest_dissector]

theorem closeClientAux_dissector {n : ℕ} {level : SocketEnds} :
    (closeClientAux n level x).1.w.dissectorState = x.w.dissectorState := by
  induction n generalizing level x with
  | zero => rfl
  | succ n ih =>
    rw [closeClientAux]
    split_ifs
    · exact ih.trans closeEnds_dissector
    · exact ih.trans closeEnds_dissector
    · exact closeEnds_dissector
    · exact closeEnds_dissector
    · exact enableWrite_dissector.trans closeEnds_dissector

theorem closeClient_dissector {level : SocketEnds} :
    (closeClient x level).1.w.dissectorState = x.w.dissectorState := closeClientAux_dissector

theorem close_dissector : (x.close fd).w.dissectorState = x.w.dissectorState := by
  unfold Ctx.close
  split_ifs
  · rfl
  · rfl

theorem readAuthMethod_dissector (h : readAuthMethod e fd x = .ok r) :
    r.1.w.dissectorState = x.w.dissectorState := by
  rcases readAuthMethod_cases h with rfl | rfl | ⟨n, hn, v, ms, rfl⟩
  · exact closeClient_dissector
  · rfl
  · rcases answerGreeting_cases ((x.readClient e).consume n hn) v ms with hr | ⟨-, -, -, hr⟩ |
      ⟨-, -, hr⟩
    · rw [hr]
      exact closeClient_dissector
    · rw [hr]
      rfl
    · rw [hr]
      rfl

theorem readPlainAuth_dissector (h : readPlainAuth e fd x = .ok r) :
    r.1.w.dissectorState = x.w.dissectorState := by
  rcases readPlainAuth_cases h with rfl | rfl | ⟨n, hn, v, user, pass, rfl⟩
  · exact closeClient_dissector
  · rfl
  · rcases answerCredentials_cases ((x.readClient e).consume n hn) v user pass with hr | ⟨-, hr⟩ |
      ⟨-, hr⟩
    · rw [hr]
      exact closeClient_dissector
    · rw [hr]
      rfl
    · rw [hr]
      exact closeClient_dissector

theorem readProxyRequest_dissector (h : readProxyRequest e fd x = .ok r) :
    r.1.w.dissectorState = x.w.dissectorState := by
  rcases readProxyRequest_cases h with ⟨a, rfl⟩ | ⟨a, reply, -, rfl⟩ | ⟨a, n, hn, reply, -, rfl⟩ |
    ⟨a, n, k, hn, hs⟩
  · rfl
  · exact closeClient_dissector
  · exact closeClient_dissector
  · rcases startRequest_cases hs with ⟨addr, -, -, rfl⟩ | ⟨fqdn, port, -, rfl⟩ | ⟨a, -, rfl⟩
    · exact closeClient_dissector
    · rfl
    · rfl

theorem tryConnect_dissector (h : tryConnect e x = .ok r) :
    r.1.w.dissectorState = x.w.dissectorState := by
  obtain ⟨-, -, ⟨-, -, rfl⟩ | ⟨fd, -, hc⟩⟩ := tryConnect_cases h
  · exact closeClient_dissector
  · rcases connectTo_cases hc with ⟨err, -, -, rfl⟩ | ⟨-, -, -, rfl⟩ | ⟨-, -, rfl⟩
    · exact closeClient_dissector
    · exact closeClient_dissector.trans close_dissector
    · rfl

theorem originCheckConnection_dissector (h : originCheckConnection e fd x = .ok r) :
    r.1.w.dissectorState = x.w.dissectorState := by
  rcases originCheckConnection_cases h with ⟨-, -, -, rfl⟩ | ⟨-, ht⟩ | ⟨-, -, a, ha⟩ |
    ⟨-, err, next, -, hn⟩
  · exact closeClient_dissector
  · exact (tryConnect_dissector ht).trans rfl
  · obtain ⟨-, p, rfl⟩ := enterProxy_ok ha
    rfl
  · rcases nextAddress_cases hn with ⟨a, rest, ht⟩ | ⟨reply, -, rfl⟩
    · exact (tryConnect_dissector ht).trans rfl
    · exact closeClient_dissector

theorem handleProxyRead_dissector (h : handleProxyRead e fd x = .ok r) :
    r.1.w.dissectorState = x.w.dissectorState := by
  rcases handleProxyRead_cases h with ⟨-, ⟨-, rfl⟩ | rfl | ⟨p, rfl⟩⟩ |
    ⟨-, -, ⟨-, rfl⟩ | rfl | ⟨p, rfl⟩⟩
  all_goals first | rfl | exact closeClient_dissector

theorem handleProxyWrite_dissector (h : handleProxyWrite e fd x = .ok r) :
    r.1.w.dissectorState = x.w.dissectorState := by
  rcases handleProxyWrite_cases h with
    ⟨-, ⟨-, -, -, rfl⟩ | ⟨-, -, rfl⟩ | ⟨-, -, rfl⟩ | ⟨n, -, rfl⟩⟩ |
    ⟨-, -, ⟨-, -, rfl⟩ | ⟨-, -, rfl⟩ | ⟨-, -, rfl⟩ | ⟨n, -, rfl⟩⟩
  all_goals first | rfl | exact closeClient_dissector

theorem jump_dissector (h : jump r = .ok o) : o.w.dissectorState = r.1.w.dissectorState := by
  rcases jump_cases h with ⟨-, rfl⟩ | ⟨-, ha⟩
  · rfl
  obtain ⟨y, st⟩ := r
  cases st with
  | authMethod | plainAuth | request | proxy | connecting | resolving =>
    cases ha
    rfl
  | writeRemaining =>
    cases ha
    exact enableWrite_dissector
  | done =>
    rw [clientDestroy_ok ha]
    rfl

theorem stmHandlerRead_dissector (h : stmHandlerRead e fd x = .ok o) :
    o.w.dissectorState = x.w.dissectorState := by
  obtain ⟨st, handler, r, -, hready, hr, hj⟩ := stmHandlerRead_cases h
  rw [jump_dissector hj, ← (handleFirst_same x).2]
  cases st with
  | authMethod => cases hready; exact readAuthMethod_dissector hr
  | plainAuth => cases hready; exact readPlainAuth_dissector hr
  | request => cases hready; exact readProxyRequest_dissector hr
  | proxy => cases hready; exact handleProxyRead_dissector hr
  | resolving | connecting | done | writeRemaining => cases hready

theorem stmHandlerWrite_dissector (h : stmHandlerWrite e fd x = .ok o) :
    o.w.dissectorState = x.w.dissectorState := by
  obtain ⟨st, handler, r, -, hready, hr, hj⟩ := stmHandlerWrite_cases h
  rw [jump_dissector hj, ← (handleFirst_same x).2]
  cases st with
  | plainAuth | request | resolving | proxy | writeRemaining =>
    cases hready
    exact handleProxyWrite_dissector hr
  | connecting => cases hready; exact originCheckConnection_dissector hr
  | authMethod | done => cases hready

theorem stmHandlerBlock_dissector (h : stmHandlerBlock x = .ok o) :
    o.w.dissectorState = x.w.dissectorState :=
  jump_dissector (r := handleFinishedResolution x) (stmHandlerBlock_cases h).2

theorem SameSettings.run {handler : Ctx → Except Fault Outcome} (hc : s.heap id = some c)
    (hk : Kept ⟨id, c, s.w⟩ (handler ⟨id, c, s.w⟩))
    (hd : ∀ o, handler ⟨id, c, s.w⟩ = .ok o → o.w.dissectorState = s.w.dissectorState) :
    SameSettings s.w (s.run id handler).w := by
  have hlocal := hk.run_local hc
  refine ⟨hlocal.users, hlocal.buffsize, ?_⟩
  cases hr : handler ⟨id, c, s.w⟩ with
  | error f =>
    rw [run_error hc hr]
    rfl
  | ok o =>
    rw [run_ok hc hr]
    exact hd o hr

theorem masterReadHandler_settings (e : Env) (s : Server) :
    SameSettings s.w (masterReadHandler e s).w := by
  rcases masterReadHandler_cases e s with ⟨-, heq⟩ | ⟨w, hw, ⟨-, heq⟩ | ⟨fd, -, -, heq⟩⟩
  · rw [heq]
    exact .refl _
  · rw [heq, (addProxyClient_some hw).2]
    exact ⟨rfl, rfl, rfl⟩
  · rw [heq, (addProxyClient_some hw).2]
    exact ⟨rfl, rfl, rfl⟩

theorem mgmtMasterReadHandler_settings (e : Env) (s : Server) :
    SameSettings s.w (mgmtMasterReadHandler e s).w := by
  rcases mgmtMasterReadHandler_cases e s with
    ⟨-, heq⟩ | ⟨w, hw, ⟨-, heq⟩ | ⟨fd, -, ⟨-, heq⟩ | ⟨-, -, heq⟩⟩⟩
  · rw [heq]
    exact .refl _
  · rw [heq, (addMgmtClient_some hw).2]
    exact ⟨rfl, rfl, rfl⟩
  · rw [heq, (addMgmtClient_some hw).2]
    exact ⟨rfl, rfl, rfl⟩
  · rw [heq, (addMgmtClient_some hw).2]
    exact ⟨rfl, rfl, rfl⟩

section
variable (h : Inv s)
include h

theorem Inv.dispatch_settings (i : ℕ) (r w : Bool) (er ew : Env) :
    SameSettings s.w (dispatch i r w er ew s).w := by
  unfold dispatch
  dsimp only
  split
  · exact .refl _
  rename_i hu
  have hused : itemUsed (s.w.selector.fds i) = true := by simpa using hu
  have hread : SameSettings s.w (readHalf i r er s).w := by
    rcases readHalf_cases h hused r er with
      heq | heq | ⟨-, heq, -⟩ | ⟨-, heq, -⟩ | ⟨id, c, -, hhit, hi, heq⟩
    · rw [heq]
      exact .refl _
    · rw [heq]
      exact ⟨rfl, rfl, rfl⟩
    · rw [heq]
      exact masterReadHandler_settings er s
    · rw [heq]
      exact mgmtMasterReadHandler_settings er s
    · rw [heq]
      obtain ⟨m, hheld⟩ := hhit.held
      exact .run hhit.heap (stmHandlerRead_kept (x := ⟨id, c, s.w⟩) (hhit.ctl h) hheld hi)
        fun o ho => stmHandlerRead_dissector ho
  apply hread.trans
  have hmove : Move anyWrite s (readHalf i r er s) := readHalf_move h hused r er
  have h1 : Inv (readHalf i r er s) := h.move hmove
  rcases writeHalf_cases h hused r w er ew with heq | heq | ⟨id, c, -, -, -, hhit, hint, heq⟩
  · rw [heq]
    exact .refl _
  · rw [heq]
    exact ⟨rfl, rfl, rfl⟩
  · rw [heq]
    obtain ⟨m, hheld⟩ := hhit.held
    exact .run hhit.heap (stmHandlerWrite_kept (x := ⟨id, c, _⟩) (hhit.ctl h1) hheld hint h1.cap)
      fun o ho => stmHandlerWrite_dissector ho

theorem Inv.notify_settings : SameSettings s.w (handleBlockNotifications s).w := by
  unfold handleBlockNotifications
  split
  · exact .refl _
  rename_i j jobs hj
  dsimp only
  have hjobs : Inv { s with w := { s.w with resolutionJobs := jobs } } := h.jobs (.inl rfl)
  split
  · exact ⟨rfl, rfl, rfl⟩
  · rename_i it hit
    split
    · rename_i id hd
      obtain ⟨c, hhit⟩ := hjobs.hit hit hd
      have hrun := SameSettings.run (s := { s with w := { s.w with resolutionJobs := jobs } })
        hhit.heap (stmHandlerBlock_kept (x := ⟨id, c, _⟩) (hhit.ctl hjobs))
        fun o ho => stmHandlerBlock_dissector ho
      exact ⟨hrun.users_eq, hrun.buffsize_eq, hrun.dissectorState_eq⟩
    · exact ⟨rfl, rfl, rfl⟩

end

theorem resolved_settings (id : ClientId) (addrs : List AddrInfo) (s : Server) :
    SameSettings s.w (threadNameResolution id addrs s).w := by
  unfold threadNameResolution
  split
  · exact .refl _
  · split
    · exact ⟨rfl, rfl, rfl⟩
    · exact ⟨rfl, rfl, rfl⟩

/-! ## Commands as events of the server -/

/-- What a command does to the server. -/
def Act.event (a : Act) : Option Event :=
  match a.cmd, a.arg with
  | .addUser, some userpass => some (.addUser userpass)
  | .setBuffsize, some arg => some (.setBuffsize (sizeT (atoi arg)))
  | .setDissectorStatus, some arg =>
    if arg.map tolower = asc "on" then some (.setDissector true)
    else if arg.map tolower = asc "off" then some (.setDissector false)
    else none
  | _, _ => none

theorem Act.event_cases {a : Act} {ev : Event} (h : a.event = some ev) :
    (∃ userpass, ev = .addUser userpass) ∨ (∃ size, ev = .setBuffsize size) ∨
      ∃ state, ev = .setDissector state := by
  unfold Act.event at h
  split at h
  · exact .inl ⟨_, (Option.some.inj h).symm⟩
  · exact .inr (.inl ⟨_, (Option.some.inj h).symm⟩)
  · split_ifs at h
    · exact .inr (.inr ⟨_, (Option.some.inj h).symm⟩)
    · exact .inr (.inr ⟨_, (Option.some.inj h).symm⟩)
  · cases h

theorem Act.event_privileged {a : Act} {ev : Event} (h : a.event = some ev) :
    a.cmd.privileged = true := by
  unfold Act.event at h
  split at h
  · rename_i hcmd _
    rw [hcmd]
    rfl
  · rename_i hcmd _
    rw [hcmd]
    rfl
  · rename_i hcmd _
    rw [hcmd]
    rfl
  · cases h

section
variable {s t u : Session}

theorem exec_event {a : Act} {ev : Event} (h : a.event = some ev) (sv : Server) :
    exec step sv a.event.toList = step sv ev := by
  rw [h]
  rfl

/-- What a command does, it does to the settings, and it says so. -/
structure Obeyed (s : Session) (cmd : MgmtCommand) (r : Executed) : Prop where
  server_eq : r.s.server = exec step s.server (Act.mk cmd r.arg r.response).event.toList
  fd_eq : r.s.c.fd = s.c.fd
  halted_eq : r.s.server.halted = s.server.halted

theorem step_running {sv : Server} (h : sv.halted = none) : ¬ sv.halted.isSome = true := by
  rw [h]
  exact Bool.false_ne_true

theorem executeSetBuffsize_obeyed (hs : s.server.halted = none) (args arge : ℕ) :
    Obeyed s .setBuffsize (executeSetBuffsize args arge s) := by
  unfold executeSetBuffsize
  dsimp only
  generalize (s.terminate arge).c.input.argText args = arg
  have hstep : ∀ n, step s.server (.setBuffsize n) =
      if minSocksBuffsize < n ∧ n < maxSocksBuffsize then
        { s.server with w := { s.server.w with buffsize := n } }
      else s.server :=
    fun _ => if_neg (step_running hs)
  split_ifs with hsize
  · have hset := (hstep _).trans (if_pos hsize)
    exact ⟨hset.symm.trans (exec_event rfl s.server).symm, rfl, rfl⟩
  · have hset := (hstep _).trans (if_neg hsize)
    exact ⟨hset.symm.trans (exec_event rfl s.server).symm, rfl, rfl⟩

theorem event_setDissector (arg response : List UInt8) :
    (Act.mk .setDissectorStatus (some arg) response).event =
      if arg.map tolower = asc "on" then some (.setDissector true)
      else if arg.map tolower = asc "off" then some (.setDissector false)
      else none := rfl

theorem executeSetDissector_obeyed (hs : s.server.halted = none) (args arge : ℕ) :
    Obeyed s .setDissectorStatus (executeSetDissector args arge s) := by
  unfold executeSetDissector
  dsimp only
  generalize (s.terminate arge).c.input.argText args = arg
  have hstep : ∀ b, step s.server (.setDissector b) =
      { s.server with w := { s.server.w with dissectorState := b } } :=
    fun _ => if_neg (step_running hs)
  split_ifs with hon hoff
  · have hevent := (event_setDissector arg (setDissectorText.take (mgmtBuffsize - 1))).trans
      (if_pos hon)
    exact ⟨(hstep true).symm.trans (exec_event hevent s.server).symm, rfl, rfl⟩
  · have hevent := (event_setDissector arg (setDissectorText.take (mgmtBuffsize - 1))).trans
      ((if_neg hon).trans (if_pos hoff))
    exact ⟨(hstep false).symm.trans (exec_event hevent s.server).symm, rfl, rfl⟩
  · have hnone := (event_setDissector arg (setDissectorError.take (mgmtBuffsize - 1))).trans
      ((if_neg hon).trans (if_neg hoff))
    refine ⟨?_, rfl, rfl⟩
    rw [snprintf, hnone]
    rfl

theorem executeAddUser_obeyed (hs : s.server.halted = none) (args arge : ℕ) :
    Obeyed s .addUser (executeAddUser args arge s) := by
  unfold executeAddUser
  dsimp only
  generalize (s.terminate arge).c.input.argText args = arg
  have hstep : step s.server (.addUser arg) =
      { s.server with w := { s.server.w with users := (addUser s.server.w.users arg).2.1 } } :=
    if_neg (step_running hs)
  split_ifs
  all_goals exact ⟨hstep.symm.trans (exec_event rfl s.server).symm, rfl, rfl⟩

theorem execute_obeyed (hs : s.server.halted = none) (cmd : MgmtCommand) (arg : Option (ℕ × ℕ)) :
    Obeyed s cmd (execute cmd arg s) := by
  unfold execute
  cases cmd with
  | token =>
    dsimp only [executeToken]
    split_ifs
    · exact ⟨rfl, rfl, rfl⟩
    · exact ⟨rfl, rfl, rfl⟩
  | setBuffsize => exact executeSetBuffsize_obeyed hs _ _
  | setDissectorStatus => exact executeSetDissector_obeyed hs _ _
  | addUser => exact executeAddUser_obeyed hs _ _
  | _ => exact ⟨rfl, rfl, rfl⟩

/-- `t` comes from `s` by commands, which do to the server what they say. -/
structure Orders (s t : Session) : Prop where
  fd_eq : t.c.fd = s.c.fd
  closed_eq : t.closed = s.closed
  tokens_eq : t.tokens = s.tokens
  halted_eq : t.server.halted = s.server.halted
  acts : ∃ as, acts t.log = acts s.log ++ as ∧
    t.server = exec step s.server (as.filterMap Act.event)

theorem Orders.trans (h : Orders s t) (h' : Orders t u) : Orders s u := by
  obtain ⟨as, hacts, hserver⟩ := h.acts
  obtain ⟨as', hacts', hserver'⟩ := h'.acts
  refine ⟨h'.fd_eq.trans h.fd_eq, h'.closed_eq.trans h.closed_eq, h'.tokens_eq.trans h.tokens_eq,
    h'.halted_eq.trans h.halted_eq, as ++ as', ?_, ?_⟩
  · rw [hacts', hacts, List.append_assoc]
  · rw [hserver', hserver, List.filterMap_append, exec_append]

/-- Nothing but input and output. -/
theorem Orders.quiet (hfd : t.c.fd = s.c.fd) (hclosed : t.closed = s.closed)
    (htokens : t.tokens = s.tokens) (hserver : t.server = s.server)
    (hacts : Socks5d.acts t.log = Socks5d.acts s.log) : Orders s t :=
  ⟨hfd, hclosed, htokens, congrArg _ hserver, [], by rw [hacts, List.append_nil], hserver⟩

theorem Orders.setInterest (h : Orders s t) (i : FdInterest) :
    Orders s { t with interest := i } :=
  ⟨h.fd_eq, h.closed_eq, h.tokens_eq, h.halted_eq, h.acts⟩

theorem turn_orders (hs : s.server.halted = none) : Orders s (turn s).1 := by
  have hcases := turn_cases (s := s) rfl rfl
  generalize parseMgmtRequest s.c.input = p at hcases
  have hx := execute_executes p.cmd p.arg (s.setInput p.input)
  have hobey := execute_obeyed (s := s.setInput p.input) hs p.cmd p.arg
  generalize execute p.cmd p.arg (s.setInput p.input) = r at hx hobey hcases
  -- wherever the response goes
  have hact : ∀ t : Session, t.c.fd = r.s.c.fd → t.closed = r.s.closed → t.tokens = r.s.tokens →
      t.server = r.s.server → t.log = r.s.log ++ [.acted ⟨p.cmd, r.arg, r.response⟩] →
      Orders s t := by
    intro t htfd htclosed httokens htserver htlog
    refine ⟨htfd.trans hobey.fd_eq, htclosed.trans hx.closed_eq, httokens.trans hx.tokens_eq, ?_,
      [⟨p.cmd, r.arg, r.response⟩], ?_, ?_⟩
    · rw [htserver]
      exact hobey.halted_eq
    · rw [htlog, hx.log_eq, acts_append]
      rfl
    · rw [htserver, hobey.server_eq, List.filterMap_cons]
      cases (Act.mk p.cmd r.arg r.response).event <;> rfl
  rcases hcases with ⟨-, ht⟩ | ⟨-, -, ht⟩ | ⟨-, -, ht⟩
  · rw [ht]
    exact .quiet rfl rfl rfl rfl rfl
  · rw [ht]
    exact hact _ rfl rfl rfl rfl rfl
  · rw [ht]
    exact hact _ rfl rfl rfl rfl rfl

theorem process_orders (hs : s.server.halted = none) : Orders s (processMgmtClient s) := by
  refine processLoop_rule (P := Orders s) (Q := Orders s) (fun _ h => h) ?_
    (.quiet rfl rfl rfl rfl rfl)
  intro t ht
  have hturn : Orders s (turn t).1 := ht.trans (turn_orders (ht.halted_eq.trans hs))
  exact ⟨fun _ => hturn, fun _ => hturn⟩

/-- What one event of a connection does: commands, after which the connection may be closed. -/
structure Attended (s t : Session) : Prop where
  tokens_eq : t.tokens = s.tokens
  fd_eq : t.c.fd = s.c.fd
  halted_eq : t.server.halted = s.server.halted
  acts : ∃ as, acts t.log = acts s.log ++ as ∧
    ((t.closed = s.closed ∧ t.server = exec step s.server (as.filterMap Act.event)) ∨
      (t.closed = true ∧
        t.server = exec step s.server (as.filterMap Act.event ++ [.mgmtClose s.c.fd])))

theorem Orders.attended (h : Orders s t) : Attended s t := by
  obtain ⟨as, hacts, hserver⟩ := h.acts
  exact ⟨h.tokens_eq, h.fd_eq, h.halted_eq, as, hacts, .inl ⟨h.closed_eq, hserver⟩⟩

theorem mgmtClose_halted (fd : ℤ) (sv : Server) : (mgmtClose fd sv).halted = sv.halted := by
  unfold mgmtClose
  split
  · split
    · rfl
    · rfl
  · rfl

theorem Orders.unregister (h : Orders s t) (hs : s.server.halted = none) :
    Attended s t.unregister := by
  obtain ⟨as, hacts, hserver⟩ := h.acts
  refine ⟨h.tokens_eq, h.fd_eq, (mgmtClose_halted _ _).trans h.halted_eq, as, hacts,
    .inr ⟨rfl, ?_⟩⟩
  rw [exec_append, ← hserver, exec_cons, exec_nil, step,
    if_neg (by simp [h.halted_eq.trans hs]), ← h.fd_eq]
  rfl

theorem Orders.sendOut (h : Orders s t) (hs : s.server.halted = none) (r : SendResult) :
    Attended s (sendOut r t) := by
  have hafter : Orders s (afterSend r t) :=
    h.trans (.quiet rfl rfl rfl rfl (by simp [afterSend]))
  rcases sendOut_cases r t with heq | ⟨heq, -⟩
  · rw [heq]
    exact hafter.attended
  · rw [heq]
    exact hafter.unregister hs

theorem idle_running (h : s.idle = false) : s.server.halted = none := by
  rw [Session.idle, Bool.or_eq_false_iff] at h
  exact Option.isSome_eq_false_iff.mp h.2 |> Option.isNone_iff_eq_none.mp

theorem sessionStep_attended (s : Session) {ev : MgmtEvent} (hev : ∀ e, ev ≠ .server e) :
    Attended s (sessionStep s ev) := by
  have hstay : Orders s s := .quiet rfl rfl rfl rfl rfl
  cases ev with
  | read r =>
    have hfill : Orders s (filled r s) := .quiet rfl rfl rfl rfl (by simp [filled])
    rcases read_cases r s with heq | ⟨hidle, -, ⟨-, heq⟩ | ⟨-, -, heq⟩⟩
    · rw [heq]
      exact hstay.attended
    · rw [heq]
      exact hfill.unregister (idle_running hidle)
    · rw [heq]
      have hall := hfill.trans (process_orders (s := filled r s) (idle_running hidle))
      exact (hall.setInterest _).attended
  | write r =>
    rcases write_cases r s with heq | heq | ⟨hidle, -, heq, ⟨hsame, -⟩ | ⟨hfit, -, hproc⟩⟩
    · rw [heq]
      exact hstay.attended
    · rw [heq]
      exact (hstay.setInterest _).attended
    · rw [heq, hsame]
      exact hstay.sendOut (idle_running hidle) r
    · have hcopy : Orders s (copyFromBuf s hfit) := .quiet rfl rfl rfl rfl rfl
      rw [heq, hproc]
      exact (hcopy.trans (process_orders (s := copyFromBuf s hfit) (idle_running hidle))).sendOut
        (idle_running hidle) r
  | server e => exact absurd rfl (hev e)

/-- A session while only others act. -/
theorem exec_server (s : Session) (evs : List Event) :
    exec sessionStep s (evs.map .server) = { s with server := exec step s.server evs } := by
  induction evs generalizing s with
  | nil => rfl
  | cons ev evs ih => exact ih (sessionStep s (.server ev))

end

end Socks5d

import Socks5d.Accounts
import Socks5d.Authentication
import Socks5d.Segmentation
import Socks5d.System

/-! # Who decides what the server does

The settings in force are those of the start after commands of connections that had presented a
token, and a user who is let in was named at the start or by such a command. -/

namespace Socks5d
open EventRun

variable {tokens : List (List UInt8)} {users : UserTable} {masters monitors : List ℤ}
  {sys sys' : System} {a : Act} {fd : ℤ} {m : MgmtConn}

/-! ## The same commands, the same settings -/

theorem command_settings {ev : Event} (h : a.event = some ev) {s s' : Server}
    (hsame : SameSettings s.w s'.w) (hs : s.halted = none) (hs' : s'.halted = none) :
    SameSettings (step s ev).w (step s' ev).w := by
  rcases a.event_cases h with ⟨userpass, rfl⟩ | ⟨size, rfl⟩ | ⟨state, rfl⟩
  · rw [step, step, if_neg (step_running hs), if_neg (step_running hs')]
    dsimp only
    rw [hsame.users_eq]
    exact ⟨rfl, hsame.buffsize_eq, hsame.dissectorState_eq⟩
  · rw [step, step, if_neg (step_running hs), if_neg (step_running hs')]
    dsimp only
    split_ifs
    · exact ⟨hsame.users_eq, rfl, hsame.dissectorState_eq⟩
    · exact hsame
  · rw [step, step, if_neg (step_running hs), if_neg (step_running hs')]
    exact ⟨hsame.users_eq, hsame.buffsize_eq, rfl⟩

theorem commands_settings (as : List Act) {s s' : Server} (hsame : SameSettings s.w s'.w)
    (hs : s.halted = none) (hs' : s'.halted = none) :
    SameSettings (exec step s (as.filterMap Act.event)).w
      (exec step s' (as.filterMap Act.event)).w := by
  induction as generalizing s s' with
  | nil => exact hsame
  | cons a as ih =>
    rw [List.filterMap_cons]
    cases hev : a.event with
    | none => exact ih hsame hs hs'
    | some ev =>
      exact ih (command_settings hev hsame hs hs') ((command_keeps hev s).2.trans hs)
        ((command_keeps hev s').2.trans hs')

/-! ## What was seen of the connections -/

/-- The log of a connection, which is there or has left. -/
def Seen (sys : System) (log : List MgmtObs) : Prop :=
  (∃ fd m, sys.present fd = some m ∧ m.log = log) ∨ ∃ d ∈ sys.departed, d.2.2.log = log

/-- A connection has carried out this command after it had presented a token. -/
def Authorised (tokens : List (List UInt8)) (sys : System) (a : Act) : Prop :=
  ∃ log, Seen sys log ∧ ∃ l r, acts log = l ++ a :: r ∧ ∃ b ∈ l, b.grants tokens = true

/-- Nothing that was seen is forgotten. -/
def Remembers (sys sys' : System) : Prop :=
  ∀ log, Seen sys log → ∃ log', Seen sys' log' ∧ acts log <+: acts log'

theorem Remembers.refl (sys : System) : Remembers sys sys :=
  fun log h => ⟨log, h, List.prefix_rfl⟩

theorem Remembers.background (sys : System) (s : Server) :
    Remembers sys { sys with shared := s } :=
  fun log h => ⟨log, h, List.prefix_rfl⟩

theorem Authorised.later (h : Authorised tokens sys a) (hr : Remembers sys sys') :
    Authorised tokens sys' a := by
  obtain ⟨log, hseen, l, r, hacts, hb⟩ := h
  obtain ⟨log', hseen', more, hmore⟩ := hr log hseen
  refine ⟨log', hseen', l, r ++ more, ?_, hb⟩
  rw [← hmore, hacts, List.append_assoc, List.cons_append]

/-- The connection on `fd` goes on as `t`, or it ends. -/
theorem remembers_replaced {t : Session} {as : List Act} (hm : sys.present fd = some m)
    (hacts : acts t.log = acts m.log ++ as) {o : Option MgmtConn} {s : Server}
    {ds : List (ℤ × Server × MgmtConn)}
    (ht : Seen ⟨s, Function.update sys.present fd o, sys.departed ++ ds⟩ t.log) :
    Remembers sys ⟨s, Function.update sys.present fd o, sys.departed ++ ds⟩ := by
  rintro log (⟨fd', m', hm', rfl⟩ | ⟨d, hd, rfl⟩)
  · by_cases heq : fd' = fd
    · subst heq
      rw [hm, Option.some.injEq] at hm'
      subst hm'
      exact ⟨t.log, ht, as, hacts.symm⟩
    · refine ⟨m'.log, .inl ⟨fd', m', ?_, rfl⟩, List.prefix_rfl⟩
      rw [← hm']
      exact Function.update_of_ne heq _ _
  · exact ⟨_, .inr ⟨d, List.mem_append_left _ hd, rfl⟩, List.prefix_rfl⟩

/-! ## The invariant -/

variable (tokens users masters monitors)

structure Governed (sys : System) : Prop where
  whole : Assembled tokens users masters monitors sys
  /-- The commands to which the settings in force are due. -/
  orders : ∃ as : List Act, (∀ a ∈ as, Authorised tokens sys a ∧ a.event.isSome = true) ∧
    SameSettings (exec step (boot users masters monitors) (as.filterMap Act.event)).w sys.shared.w

variable {tokens users masters monitors}

/-- A step that leaves the settings alone. -/
theorem Governed.same (h : Governed tokens users masters monitors sys)
    (hwhole : Assembled tokens users masters monitors sys') (hr : Remembers sys sys')
    (hset : SameSettings sys.shared.w sys'.shared.w) :
    Governed tokens users masters monitors sys' := by
  obtain ⟨as, hall, has⟩ := h.orders
  exact ⟨hwhole, as, fun a ha => ⟨(hall a ha).1.later hr, (hall a ha).2⟩, has.trans hset⟩

/-- A session asks for nothing that matters before it has presented a token. -/
theorem IsSession.order {s : Server} (h : IsSession tokens users masters monitors fd s m)
    {l r : List Act} (hacts : acts m.log = l ++ a :: r) (hev : a.event.isSome = true) :
    ∃ b ∈ l, b.grants tokens = true := by
  obtain ⟨evs, raw, es, hm⟩ := h
  have hguard := reachable_guarded (exec step (boot users masters monitors) evs) tokens fd raw es
  dsimp only at hguard
  rw [← hm] at hguard
  obtain ⟨ev, hev⟩ := Option.isSome_iff_exists.mp hev
  exact hguard.order l a r hacts (Act.event_privileged hev)

theorem filterMap_event_filter (as : List Act) :
    (as.filter fun a => a.event.isSome).filterMap Act.event = as.filterMap Act.event := by
  rw [List.filterMap_filter]
  apply List.filterMap_congr
  intro a _
  cases a.event <;> rfl

theorem Governed.serve (h : Governed tokens users masters monitors sys)
    (hrun : sys.shared.halted = none) (fd : ℤ) {ev : MgmtEvent} (hev : ∀ e, ev ≠ .server e) :
    Governed tokens users masters monitors (serve tokens fd ev sys) ∧
      (Socks5d.serve tokens fd ev sys).shared.halted = none := by
  obtain ⟨hwhole, hhalt⟩ := h.whole.serve hrun fd hev
  refine ⟨?_, hhalt⟩
  cases hm : sys.present fd with
  | none =>
    have hsame : Socks5d.serve tokens fd ev sys = sys := by
      unfold Socks5d.serve
      rw [hm]
    rw [hsame]
    exact h
  | some m =>
    have hserved := sessionStep_attended (m.session tokens sys.shared) hev
    generalize ht : sessionStep (m.session tokens sys.shared) ev = t at hserved
    obtain ⟨new, hnew, hserver⟩ := hserved.acts
    have hnew' : acts t.log = acts m.log ++ new := hnew
    obtain ⟨as, hall, has⟩ := h.orders
    -- the settings after the new commands
    have hset : SameSettings (exec step (boot users masters monitors)
        ((as ++ new.filter fun a => a.event.isSome).filterMap Act.event)).w t.server.w := by
      have hboot : (exec step (boot users masters monitors)
          (as.filterMap Act.event)).halted = none := (commands_keep as _).2
      have hcommands := commands_settings new has hboot hrun
      rw [List.filterMap_append, filterMap_event_filter, exec_append]
      rcases hserver with ⟨-, hserver⟩ | ⟨-, hserver⟩
      · rw [hserver]
        exact hcommands
      · rw [hserver, exec_append, exec_cons, exec_nil]
        refine hcommands.trans ?_
        unfold step
        split
        · exact .refl _
        · exact mgmtClose_settings _ _
    -- the new commands were carried out by a session that goes on as `t`
    have hdone : ∀ {sys' : System}, Seen sys' t.log →
        (∃ s', IsSession tokens users masters monitors fd s' t.conn) →
        ∀ a ∈ new.filter fun a => a.event.isSome, Authorised tokens sys' a ∧
          a.event.isSome = true := by
      rintro sys' hseen ⟨s', hsession⟩ a ha
      obtain ⟨hmem, hev⟩ := List.mem_filter.mp ha
      obtain ⟨l, r, rfl⟩ := List.append_of_mem hmem
      have hsplit : acts t.log = (acts m.log ++ l) ++ a :: r := by
        rw [hnew', List.append_assoc]
      exact ⟨⟨t.log, hseen, _, r, hsplit, hsession.order hsplit hev⟩, hev⟩
    have hjoin : ∀ {sys' : System}, sys'.shared = t.server → Seen sys' t.log →
        Remembers sys sys' → (∃ s', IsSession tokens users masters monitors fd s' t.conn) →
        Assembled tokens users masters monitors sys' →
        Governed tokens users masters monitors sys' := by
      intro sys' hshared hseen hr hsession hw
      refine ⟨hw, as ++ new.filter fun a => a.event.isSome, fun a ha => ?_, ?_⟩
      · rcases List.mem_append.mp ha with ha | ha
        · exact ⟨(hall a ha).1.later hr, (hall a ha).2⟩
        · exact hdone hseen hsession a ha
      · rw [hshared]
        exact hset
    rcases serve_some hm ev ht with ⟨-, heq⟩ | ⟨-, heq⟩
    · rw [heq] at hwhole ⊢
      have hmem : (fd, t.server, t.conn) ∈ sys.departed ++ [(fd, t.server, t.conn)] :=
        List.mem_append_right _ List.mem_cons_self
      have hseen : Seen ⟨t.server, Function.update sys.present fd none,
          sys.departed ++ [(fd, t.server, t.conn)]⟩ t.log := .inr ⟨_, hmem, rfl⟩
      exact hjoin rfl hseen (remembers_replaced hm hnew' hseen)
        ⟨_, (hwhole.sessions.departed _ hmem).1⟩ hwhole
    · rw [heq] at hwhole ⊢
      have hself : Function.update sys.present fd (some t.conn) fd = some t.conn :=
        Function.update_self ..
      have hseen : Seen { sys with
          shared := t.server, present := Function.update sys.present fd (some t.conn) } t.log :=
        .inl ⟨fd, t.conn, hself, rfl⟩
      have hr : Remembers sys { sys with
          shared := t.server, present := Function.update sys.present fd (some t.conn) } := by
        rw [← List.append_nil sys.departed] at hseen ⊢
        exact remembers_replaced hm hnew' hseen
      exact hjoin rfl hseen hr ⟨_, hwhole.sessions.present fd _ hself⟩ hwhole

theorem Governed.welcome (h : Governed tokens users masters monitors sys) {s : Server}
    {raw : RawMgmt} (hnone : sys.present fd = none) (hset : SameSettings sys.shared.w s.w)
    (hwhole : Assembled tokens users masters monitors (welcome tokens fd raw s sys)) :
    Governed tokens users masters monitors (welcome tokens fd raw s sys) := by
  refine h.same hwhole ?_ hset
  rintro log (⟨fd', m, hm, rfl⟩ | hd)
  · have hne : fd' ≠ fd := by
      rintro rfl
      rw [hnone] at hm
      cases hm
    refine ⟨m.log, .inl ⟨fd', m, ?_, rfl⟩, List.prefix_rfl⟩
    rw [← hm]
    exact Function.update_of_ne hne _ _
  · exact ⟨log, .inr hd, List.prefix_rfl⟩

theorem Governed.serveItem (h : Governed tokens users masters monitors sys)
    (hrun : sys.shared.halted = none) (i : ℕ) (r w : Bool) (er ew : Env) (raw : RawMgmt) :
    Governed tokens users masters monitors (serveItem tokens i r w er ew raw sys) := by
  have hwhole := h.whole.serveItem hrun i r w er ew raw
  have hset : SameSettings sys.shared.w (dispatch i r w er ew sys.shared).w :=
    h.whole.inv.dispatch_settings i r w er ew
  revert hwhole
  unfold Socks5d.serveItem
  dsimp only
  split
  · exact fun _ => h
  rename_i hu
  have hused : itemUsed (sys.shared.w.selector.fds i) = true := by simpa using hu
  split
  · intro _
    have hread : Governed tokens users masters monitors (if r = true then Socks5d.serve tokens
        (sys.shared.w.selector.fds i).fd (.read er.read) sys else sys) ∧
        (if r = true then Socks5d.serve tokens
          (sys.shared.w.selector.fds i).fd (.read er.read) sys else sys).shared.halted = none := by
      split
      · exact h.serve hrun _ (by simp)
      · exact ⟨h, hrun⟩
    split
    · exact (hread.1.serve hread.2 _ (by simp)).1
    · exact hread.1
  · rcases dispatch_mgmtClients h.whole.inv hused r w er ew with ⟨hnone, -⟩ | ⟨fd, hfd, hnew, -⟩
    · rw [hnone]
      exact fun hwhole => h.same hwhole (.background _ _) hset
    · rw [hfd]
      have hnone := h.whole.absent hnew
      exact fun hwhole => h.welcome hnone hset hwhole

theorem Governed.step (h : Governed tokens users masters monitors sys) (ev : SystemEvent) :
    Governed tokens users masters monitors (systemStep tokens sys ev) := by
  have hwhole := h.whole.step ev
  revert hwhole
  unfold systemStep
  split
  · exact fun _ => h
  rename_i hhalt
  have hrun : sys.shared.halted = none := by simpa using hhalt
  cases ev with
  | dispatch i r w er ew raw => exact fun _ => h.serveItem hrun i r w er ew raw
  | resolved id addrs =>
    exact fun hwhole => h.same hwhole (.background _ _) (resolved_settings id addrs _)
  | notify => exact fun hwhole => h.same hwhole (.background _ _) h.whole.inv.notify_settings

variable (tokens users masters monitors)

theorem reachable_governed (evs : List SystemEvent) :
    Governed tokens users masters monitors
      (exec (systemStep tokens) (bootSystem users masters monitors) evs) := by
  refine exec_invariant ⟨bootSystem_assembled tokens users masters monitors, [], ?_, .refl _⟩
    fun _ ev h => h.step ev
  intro a ha
  cases ha

/-- In every run of the system, the users, the buffer size and the state of the dissector are
those of the start after some commands, each of which a connection has carried out after it had
presented a token. -/
theorem settings_come_from_authorised_commands (evs : List SystemEvent) :
    let sys := exec (systemStep tokens) (bootSystem users masters monitors) evs
    ∃ as : List Act, (∀ a ∈ as, Authorised tokens sys a) ∧
      SameSettings (exec Socks5d.step (boot users masters monitors) (as.filterMap Act.event)).w
        sys.shared.w := by
  intro sys
  have h : Governed tokens users masters monitors sys :=
    reachable_governed tokens users masters monitors evs
  obtain ⟨as, hall, has⟩ := h.orders
  exact ⟨as, fun a ha => (hall a ha).1, has⟩

/-! ## Who is let in

The table that credentials were compared with is recorded with them. Users are only added, so the
table in force begins with it. -/

/-- The table recorded with credentials is a part of `users`. -/
def Listed (users : UserTable) (o : Obs) : Prop :=
  ∀ id user pass us, o = .credentials id user pass us → us <+: users

section
variable {x : Ctx} {e : Env} {fd : ℤ} {r : Ctx × Socks5State} {o : Outcome} {s s' : Server}
  {id : ClientId} {c : Client} {us : UserTable}

theorem Plain.listed {ob : Obs} (h : Plain ob) : Listed us ob := by
  rintro id user pass us' rfl
  obtain ⟨hgrants, hrefuses⟩ := h
  rw [Obs.refuses, ← Obs.grants, hgrants] at hrefuses
  cases hrefuses

theorem Records.closeClient {P : Obs → Prop} {x' : Ctx} (h : Records P x x')
    (hP : ∀ id fd k, P (.closed id fd k)) (level : SocketEnds) :
    Records P x (closeClient x' level).1 :=
  h.trans (.closes (closeClient_closes x' level) fun fd k => hP _ fd k)

theorem readAuthMethod_listed (h : readAuthMethod e fd x = .ok r) :
    Records (Listed x.w.users) x r.1 := by
  have hclosed : ∀ id fd k, Listed x.w.users (.closed id fd k) := fun _ _ _ =>
    (Plain.closed _ _ _).listed
  have hread : Records (Listed x.w.users) x (x.readClient e) :=
    (readClient_plain x e).mono fun _ => Plain.listed
  rcases readAuthMethod_cases h with rfl | rfl | ⟨n, hn, v, ms, rfl⟩
  · exact hread.closeClient hclosed _
  · exact hread
  generalize hy : (x.readClient e).consume n hn = y
  have hcons : Records (Listed x.w.users) x y :=
    hy ▸ hread.trans ((consume_plain _ hn).mono fun _ => Plain.listed)
  have hlog : Records (Listed x.w.users) x (y.log (.greeting y.id v ms y.w.users)) :=
    hcons.trans (.of_log rfl rfl fun _ _ _ _ hf => by cases hf)
  have hreply : ∀ z : Ctx, ∀ v m, Records (Listed x.w.users) z (simpleReply z v m) :=
    fun z v m => simpleReply_records z v m fun _ _ _ _ hf => by cases hf
  rcases answerGreeting_cases y v ms with hr | ⟨-, -, -, hr⟩ | ⟨-, -, hr⟩
  · rw [hr]
    exact (hlog.trans (hreply _ _ _)).closeClient hclosed _
  · rw [hr]
    exact (hlog.trans (hreply _ _ _)).trans (expectWrite_records _)
  · rw [hr]
    exact (hlog.trans (hreply _ _ _)).trans (expectWrite_records _)

theorem readPlainAuth_listed (h : readPlainAuth e fd x = .ok r) :
    Records (Listed x.w.users) x r.1 := by
  have hclosed : ∀ id fd k, Listed x.w.users (.closed id fd k) := fun _ _ _ =>
    (Plain.closed _ _ _).listed
  have hread : Records (Listed x.w.users) x (x.readClient e) :=
    (readClient_plain x e).mono fun _ => Plain.listed
  rcases readPlainAuth_cases h with rfl | rfl | ⟨n, hn, v, user, pass, rfl⟩
  · exact hread.closeClient hclosed _
  · exact hread
  generalize hy : (x.readClient e).consume n hn = y
  have hcons : Records (Listed x.w.users) x y :=
    hy ▸ hread.trans ((consume_plain _ hn).mono fun _ => Plain.listed)
  have hlog : Records (Listed x.w.users) x ((y.setUser (cString user)).log
      (.credentials y.id (cString user) (cString pass) y.w.users)) := by
    refine hcons.trans (.of_log rfl rfl fun _ _ _ us heq => ?_)
    cases heq
    subst hy
    exact List.prefix_rfl
  have hreply : ∀ z : Ctx, ∀ v m, Records (Listed x.w.users) z (simpleReply z v m) :=
    fun z v m => simpleReply_records z v m fun _ _ _ _ hf => by cases hf
  rcases answerCredentials_cases y v user pass with hr | ⟨-, hr⟩ | ⟨-, hr⟩
  · rw [hr]
    exact (hcons.trans (hreply _ _ _)).closeClient hclosed _
  · rw [hr]
    exact (hlog.trans (hreply _ _ _)).trans (expectWrite_records _)
  · rw [hr]
    exact (hlog.trans (hreply _ _ _)).closeClient hclosed _

/-- The log after an event of a client. -/
def Lists (us : UserTable) (log log' : List Obs) : Prop :=
  ∃ os, (∀ ob ∈ os, Listed us ob) ∧ log' = log ++ os

theorem jump_lists (h : Records (Listed us) x r.1) (hj : jump r = .ok o) :
    Lists us x.w.log o.w.log := by
  obtain ⟨os, hos, hlog⟩ := h.log_eq
  obtain ⟨os', hos', hlog'⟩ := jump_log hj
  refine ⟨os ++ os', fun ob hob => ?_, by rw [hlog', hlog, List.append_assoc]⟩
  rcases List.mem_append.mp hob with hob | hob
  · exact hos ob hob
  · rcases hos' ob hob with rfl | rfl
    · exact fun _ _ _ _ hf => by cases hf
    · exact fun _ _ _ _ hf => by cases hf

theorem stmHandlerRead_lists (h : stmHandlerRead e fd x = .ok o) :
    Lists x.w.users x.w.log o.w.log := by
  obtain ⟨st, handler, r, -, hready, hr, hj⟩ := stmHandlerRead_cases h
  rw [← (handleFirst_same x).2]
  refine jump_lists ?_ hj
  cases st with
  | authMethod => cases hready; exact readAuthMethod_listed hr
  | plainAuth => cases hready; exact readPlainAuth_listed hr
  | request =>
    cases hready
    exact (readProxyRequest_follows hr).records.mono fun _ => Plain.listed
  | proxy =>
    cases hready
    exact (handleProxyRead_follows hr).records.mono fun _ => Plain.listed
  | resolving | connecting | done | writeRemaining => cases hready

theorem stmHandlerWrite_lists (h : stmHandlerWrite e fd x = .ok o) :
    Lists x.w.users x.w.log o.w.log := by
  obtain ⟨st, handler, r, -, hready, hr, hj⟩ := stmHandlerWrite_cases h
  rw [← (handleFirst_same x).2]
  refine jump_lists ?_ hj
  cases st with
  | plainAuth | request | resolving | proxy | writeRemaining =>
    cases hready
    exact (handleProxyWrite_records hr).1.mono fun _ ho => ho.1.listed
  | connecting =>
    cases hready
    exact (originCheckConnection_follows hr).records.mono fun _ => Plain.listed
  | authMethod | done => cases hready

theorem stmHandlerBlock_lists (h : stmHandlerBlock x = .ok o) :
    Lists x.w.users x.w.log o.w.log :=
  jump_lists (r := handleFinishedResolution x) (.of_eq rfl rfl) (stmHandlerBlock_cases h).2

theorem addUsers_prefix (users : UserTable) (userpasses : List (List UInt8)) :
    users <+: addUsers users userpasses := by
  induction userpasses generalizing users with
  | nil => exact List.prefix_rfl
  | cons userpass userpasses ih =>
    refine List.IsPrefix.trans ?_ (ih (addUser users userpass).2.1)
    rcases addUser_cases users userpass with ⟨-, hsame⟩ | ⟨before, after, -, -, -, -, happ⟩
    · rw [hsame]
    · rw [happ]
      exact List.prefix_append _ _

/-- Every table that credentials were compared with is a part of the table in force. -/
def Server.Listed (s : Server) : Prop := ∀ ob ∈ s.w.log, Socks5d.Listed s.w.users ob

theorem Server.Listed.grow (h : s.Listed) (hgrow : s.w.users <+: s'.w.users)
    (hlog : Lists s'.w.users s.w.log s'.w.log) : s'.Listed := by
  obtain ⟨os, hos, heq⟩ := hlog
  intro ob hob
  rw [heq] at hob
  rcases List.mem_append.mp hob with hob | hob
  · exact fun id user pass us hcred => (h ob hob id user pass us hcred).trans hgrow
  · exact hos ob hob

theorem Server.Listed.run {handler : Ctx → Except Fault Outcome} (h : s.Listed)
    (hc : s.heap id = some c) (hk : Kept ⟨id, c, s.w⟩ (handler ⟨id, c, s.w⟩))
    (hlists : ∀ o, handler ⟨id, c, s.w⟩ = .ok o → Lists s.w.users s.w.log o.w.log) :
    (s.run id handler).Listed := by
  cases hr : handler ⟨id, c, s.w⟩ with
  | error f =>
    rw [run_error hc hr]
    exact h
  | ok o =>
    have husers : o.w.users = s.w.users := (hk.ok o hr).2.users
    rw [run_ok hc hr]
    refine h.grow (by rw [husers]) ?_
    dsimp only
    rw [husers]
    exact hlists o hr

theorem Server.Listed.move {okw : Server → ClientId → Client → ℤ → Env → Prop} (h : s.Listed)
    (hinv : Inv s) (hm : Move okw s s') : s'.Listed := by
  have hsame : ∀ {t : Server}, t.w.log = s.w.log → s.w.users <+: t.w.users → t.Listed :=
    fun hlog hgrow => h.grow hgrow ⟨[], by simp, by rw [hlog, List.append_nil]⟩
  have hback : ∀ {w : World}, Background s.w w → s.w.users <+: w.users := by
    intro w hb
    obtain ⟨userpasses, heq⟩ := hb.users
    rw [heq]
    exact addUsers_prefix _ _
  cases hm with
  | background w hb => exact hsame hb.log (hback hb)
  | nullHandler => exact h
  | stale id _ _ => exact h
  | read id c fd i e hhit hi =>
    obtain ⟨m, hheld⟩ := hhit.held
    exact h.run hhit.heap (stmHandlerRead_kept (x := ⟨id, c, s.w⟩) (hhit.ctl hinv) hheld hi)
      fun o ho => stmHandlerRead_lists ho
  | write id c fd i e hhit hi _ =>
    obtain ⟨m, hheld⟩ := hhit.held
    exact h.run hhit.heap
      (stmHandlerWrite_kept (x := ⟨id, c, s.w⟩) (hhit.ctl hinv) hheld hi hinv.cap)
      fun o ho => stmHandlerWrite_lists ho
  | accept w fd e hb hfd =>
    have hnew : ∀ k, Socks5d.Listed w.users (.accepted s.nextId k) :=
      fun k _ _ _ _ hf => by cases hf
    have hgrow := hback hb
    refine h.grow hgrow ⟨[.accepted s.nextId w.nextSock], ?_, ?_⟩
    · simpa [acceptWorld] using hnew _
    · rw [← hb.log]
      rfl
  | mgmtAccept w fd e hb hfd _ =>
    have hgrow := hback hb
    exact hsame hb.log hgrow
  | mgmtClose fd it _ _ => exact hsame rfl List.prefix_rfl
  | resolved id c addrs _ hc => exact hsame rfl List.prefix_rfl
  | block j jobs id c i _ hhit =>
    have hjobs : ({ s with w := { s.w with resolutionJobs := jobs } } : Server).Listed := h
    exact hjobs.run hhit.heap (stmHandlerBlock_kept (x := ⟨id, c, _⟩) (hhit.ctl hinv))
      fun o ho => stmHandlerBlock_lists ho
  | drop j jobs halted _ _ _ => exact h

theorem reachable_listed (users : UserTable) (masters monitors : List ℤ) (evs : List Event) :
    (exec step (boot users masters monitors) evs).Listed :=
  (run_invariant (P := Server.Listed) (fun ob hob => by cases hob)
    (fun _ _ hinv hm h => h.move hinv hm) (along_anyWrite _ evs)).2

end

/-- The user was named at the start, or by a connection that had presented a token. -/
def Named (tokens : List (List UInt8)) (users : UserTable) (sys : System) (u : User) : Prop :=
  u ∈ users ∨ ∃ a, Authorised tokens sys a ∧ a.cmd = .addUser ∧
    a.arg = some (u.username ++ colon :: u.password)

theorem mem_commands {as : List Act} {s : Server} {u : User}
    (h : u ∈ (exec step s (as.filterMap Act.event)).w.users) :
    u ∈ s.w.users ∨ ∃ a ∈ as, a.event = some (.addUser (u.username ++ colon :: u.password)) := by
  induction as generalizing s with
  | nil => exact .inl h
  | cons a as ih =>
    rw [List.filterMap_cons] at h
    cases hev : a.event with
    | none =>
      rw [hev] at h
      exact (ih h).imp_right fun ⟨b, hb, hbev⟩ => ⟨b, List.mem_cons_of_mem _ hb, hbev⟩
    | some ev =>
      rw [hev] at h
      rcases ih h with hu | ⟨b, hb, hbev⟩
      · unfold step at hu
        split at hu
        · exact .inl hu
        rcases a.event_cases hev with ⟨userpass, rfl⟩ | ⟨size, rfl⟩ | ⟨state, rfl⟩
        · rcases (mem_addUser s.w.users userpass u).mp hu with hu | ⟨rfl, -, -⟩
          · exact .inl hu
          · exact .inr ⟨a, List.mem_cons_self, hev⟩
        · dsimp only at hu
          split at hu
          · exact .inl hu
          · exact .inl hu
        · exact .inl hu
      · exact .inr ⟨b, List.mem_cons_of_mem _ hb, hbev⟩

theorem Act.event_addUser {userpass : List UInt8} (h : a.event = some (.addUser userpass)) :
    a.cmd = .addUser ∧ a.arg = some userpass := by
  unfold Act.event at h
  split at h
  · rename_i hcmd harg
    cases h
    exact ⟨hcmd, harg⟩
  · cases h
  · split_ifs at h
    · cases h
    · cases h
  · cases h

variable {tokens users masters monitors}

theorem Governed.named (h : Governed tokens users masters monitors sys) {u : User}
    (hu : u ∈ sys.shared.w.users) : Named tokens users sys u := by
  obtain ⟨as, hall, has⟩ := h.orders
  rw [has.users_eq] at hu
  rcases mem_commands hu with hu | ⟨a, ha, hev⟩
  · exact .inl hu
  · exact .inr ⟨a, (hall a ha).1, Act.event_addUser hev⟩

variable (tokens users masters monitors)

/-- In every run of the system, a client of the proxy that is past the authentication was let in
while there were no users and it offered method 0, or it has sent the name and the password of a
user that was named at the start or added by a connection that had presented a token. -/
theorem clients_let_in_are_named (evs : List SystemEvent) :
    let sys := exec (systemStep tokens) (bootSystem users masters monitors) evs
    ∀ id c, sys.shared.heap id = some c →
      stmState c ∈ [.request, .resolving, .connecting, .proxy] →
      (∃ v ms, .greeting id v ms [] ∈ sys.shared.w.log ∧ 0x0 ∈ ms) ∨
      ∃ u us, .credentials id u.username u.password us ∈ sys.shared.w.log ∧ u ∈ us ∧
        Named tokens users sys u := by
  intro sys id c hc hst
  have h : Governed tokens users masters monitors sys :=
    reachable_governed tokens users masters monitors evs
  obtain ⟨es, hes⟩ := h.whole.reached
  have hlisted : sys.shared.Listed := hes ▸ reachable_listed users masters monitors es
  have hgate : Gate (stmState c) (history id sys.shared.w.log) := by
    have htold : gated.Told sys.shared := hes ▸ gated.reachable users masters monitors es
    exact htold.live id c hc
  have hgranted : Granted (history id sys.shared.w.log) := by
    simp only [List.mem_cons, List.not_mem_nil, or_false] at hst
    rcases hst with hst | hst | hst | hst <;> rw [hst] at hgate <;> exact hgate.1
  obtain ⟨ob, hob, hg⟩ := hgranted
  obtain ⟨hmem, hown⟩ := mem_history.mp hob
  cases ob with
  | greeting j v ms us =>
    rw [Obs.grants, Bool.and_eq_true, List.isEmpty_iff, List.contains_iff_mem] at hg
    obtain ⟨rfl, hzero⟩ := hg
    cases hown
    exact .inl ⟨v, ms, hmem, hzero⟩
  | credentials j user pass us =>
    rw [Obs.grants, tryCredentials, List.any_eq_true] at hg
    obtain ⟨u, hu, heq⟩ := hg
    rw [Bool.and_eq_true, decide_eq_true_eq, decide_eq_true_eq] at heq
    obtain ⟨rfl, rfl⟩ := heq
    cases hown
    refine .inr ⟨u, us, hmem, hu, h.named ?_⟩
    exact (hlisted _ hmem _ _ _ us rfl).subset hu
  | _ => cases hg

/-- One connection adds a user, who comes on another. -/
def introduction : List SystemEvent :=
  [.dispatch 5 true false (.fine [] 6) (.fine [] 6) blankRaw,
    .dispatch 6 true false (.fine (asc "TOKEN secret\r\nADD-USER ada:pw\r\n") 0) (.fine [] 0)
      blankRaw,
    .dispatch 3 true false (.fine [] 7) (.fine [] 7) blankRaw,
    .dispatch 7 true false (.fine [5, 1, 2] 0) (.fine [] 0) blankRaw,
    .dispatch 7 true false (.fine ([1, 3] ++ asc "ada" ++ [2] ++ asc "pw") 0) (.fine [] 0) blankRaw]

theorem added_user_is_let_in :
    let sys := exec (systemStep [asc "secret"]) (bootSystem [] [3] [5]) introduction
    (∃ c, sys.shared.heap 0 = some c ∧ stmState c = .request) ∧
      ((∃ v ms, .greeting 0 v ms [] ∈ sys.shared.w.log ∧ 0x0 ∈ ms) ∨
        ∃ u us, .credentials 0 u.username u.password us ∈ sys.shared.w.log ∧ u ∈ us ∧
          Named [asc "secret"] [] sys u) := by
  have hst : ((exec (systemStep [asc "secret"]) (bootSystem [] [3] [5])
      introduction).shared.heap 0).map stmState = some .request := by decide +kernel
  obtain ⟨c, hc, hrequest⟩ := Option.map_eq_some_iff.mp hst
  refine ⟨⟨c, hc, hrequest⟩, ?_⟩
  exact clients_let_in_are_named [asc "secret"] [] [3] [5] introduction 0 c hc
    (by rw [hrequest]; simp)

end Socks5d

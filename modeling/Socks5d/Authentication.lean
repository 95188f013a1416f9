import Socks5d.Story

/-! # The authentication gate

Only a client that was granted access gets to send a request, and a client that
was refused never makes the server resolve a name or open a connection. -/

namespace Socks5d
open EventRun

variable {x x' x'' : Ctx} {e : Env} {fd : ℤ} {r : Ctx × Socks5State} {h : List Obs} {o : Obs}

/-- A greeting that offers method 0 to a server without users, or credentials that
are right. -/
def Obs.grants : Obs → Bool
  | .greeting _ _ methods users => users.isEmpty && methods.contains 0x0
  | .credentials _ user pass users => tryCredentials users user pass
  | _ => false

/-- The answer 0xFF to a greeting or to credentials, or credentials that are wrong. -/
def Obs.refuses : Obs → Bool
  | .replied _ [_, method] => method = 0xFF
  | .credentials _ user pass users => !tryCredentials users user pass
  | _ => false

/-- The start of a name resolution or of a connection. -/
def Obs.reachesOut : Obs → Bool
  | .resolving _ | .opened _ _ => true
  | _ => false

def Granted (h : List Obs) : Prop := ∃ o ∈ h, o.grants = true

def Refused (h : List Obs) : Prop := ∃ o ∈ h, o.refuses = true

def ReachedOut (h : List Obs) : Prop := ∃ o ∈ h, o.reachesOut = true

/-! ## What a handler records -/

/-- What is recorded once the handshake is over. -/
def Plain (o : Obs) : Prop := o.grants = false ∧ o.refuses = false

theorem Plain.closed (id : ClientId) (fd : ℤ) (k : Option SockId) : Plain (.closed id fd k) :=
  ⟨rfl, rfl⟩

/-- The states from which no request is read any more. -/
def Socks5State.isLate : Socks5State → Bool
  | .authMethod | .plainAuth | .request => false
  | .resolving | .connecting | .proxy | .done | .writeRemaining => true

/-- A handler that follows the handshake: it stays, or moves on. -/
structure Follows (x : Ctx) (r : Ctx × Socks5State) : Prop where
  records : Records Plain x r.1
  state : r.2 = stmState x.c ∨ r.2.isLate = true

theorem Follows.stay (h : Records Plain x x') : Follows x (x', stmState x.c) := ⟨h, .inl rfl⟩

theorem Follows.late {st : Socks5State} (h : Records Plain x x') (hst : st.isLate = true) :
    Follows x (x', st) := ⟨h, .inr hst⟩

theorem Follows.close {level : SocketEnds} (h : Records Plain x x')
    (hst : stmState x'.c = stmState x.c) : Follows x (closeClient x' level) := by
  refine ⟨h.trans (.closes (closeClient_closes x' level) fun fd k => .closed _ fd k), ?_⟩
  rcases closeClient_state x' level with hc | hc | hc
  · exact .inl (hc.trans hst)
  · exact .inr (by rw [hc]; rfl)
  · exact .inr (by rw [hc]; rfl)

theorem Follows.after (h : Follows x' r) (hx : Records Plain x x')
    (hst : stmState x'.c = stmState x.c) : Follows x r :=
  ⟨hx.trans h.records, by rw [← hst]; exact h.state⟩

theorem putReply_plain (x : Ctx) (reply : ServerReplyType) (atyp : Atyp) (addr : List UInt8)
    (port : Port) : Records Plain x (putReply x reply atyp addr port) :=
  .of_log rfl rfl ⟨rfl, rfl⟩

theorem readClient_plain (x : Ctx) (e : Env) : Records Plain x (x.readClient e) :=
  .of_log rfl rfl ⟨rfl, rfl⟩

theorem consume_plain (x : Ctx) {n : ℕ} (hn : n ≤ x.c.originBuf.write - x.c.originBuf.read) :
    Records Plain x (x.consume n hn) := .of_log rfl rfl ⟨rfl, rfl⟩

theorem close_plain (x : Ctx) (fd : ℤ) : Records Plain x (x.close fd) :=
  .closes .close fun fd k => .closed _ fd k

theorem Follows.refuse {reply : ServerReplyType} (h : Records Plain x x')
    (hst : stmState x'.c = stmState x.c) :
    Follows x (closeClient (failReply x' reply) clientReadEnd) :=
  .close (h.trans (putReply_plain ..)) hst

theorem startRequest_follows {b : Buffer} {a : UInt8} {n : ℕ}
    (hr : startRequest e b a n x = .ok r) : Follows x r := by
  rcases startRequest_cases hr with ⟨addr, -, -, rfl⟩ | ⟨fqdn, port, -, rfl⟩ | ⟨a, -, rfl⟩
  · exact .refuse (.of_eq rfl rfl) rfl
  · exact .late (.of_eq rfl rfl) rfl
  · exact .late (.of_eq rfl rfl) rfl

theorem readProxyRequest_follows (hr : readProxyRequest e fd x = .ok r) : Follows x r := by
  have hread : ∀ a, Records Plain x ((x.readClient e).setAtyp a) := fun a =>
    (readClient_plain x e).trans (.of_eq rfl rfl)
  rcases readProxyRequest_cases hr with ⟨a, rfl⟩ | ⟨a, reply, -, rfl⟩ | ⟨a, n, hn, reply, -, rfl⟩ |
    ⟨a, n, k, hn, hs⟩
  · exact .stay (hread a)
  · exact .refuse (hread a) rfl
  · exact .refuse ((hread a).trans (consume_plain _ hn)) rfl
  · exact (startRequest_follows hs).after ((hread a).trans (consume_plain _ hn)) rfl

theorem connectTo_follows (hr : connectTo e fd x = .ok r) : Follows x r := by
  have hopen : Records Plain x ((x.setOrigin fd).openSock fd) := .of_log rfl rfl ⟨rfl, rfl⟩
  rcases connectTo_cases hr with ⟨err, -, -, rfl⟩ | ⟨-, -, -, rfl⟩ | ⟨-, -, rfl⟩
  · exact .refuse hopen rfl
  · exact .refuse (hopen.trans (close_plain _ _)) (by rw [close_c]; rfl)
  · exact .late (hopen.trans (.of_eq rfl rfl)) rfl

theorem tryConnect_follows (hr : tryConnect e x = .ok r) : Follows x r := by
  obtain ⟨-, -, ⟨-, -, rfl⟩ | ⟨fd, -, hc⟩⟩ := tryConnect_cases hr
  · exact .refuse (.of_eq rfl rfl) rfl
  · exact connectTo_follows hc

theorem originCheckConnection_follows (hr : originCheckConnection e fd x = .ok r) :
    Follows x r := by
  rcases originCheckConnection_cases hr with ⟨-, -, -, rfl⟩ | ⟨-, hc⟩ | ⟨-, -, a, hc⟩ |
    ⟨-, err, next, -, hc⟩
  · exact .refuse (.of_eq rfl rfl) rfl
  · exact (tryConnect_follows hc).after (.of_eq rfl rfl) rfl
  · obtain ⟨-, p, rfl⟩ := enterProxy_ok hc
    have hjoin : Records Plain x (joinOrigin x) := .of_eq rfl rfl
    exact .late ((hjoin.trans (putReply_plain ..)).trans (.of_eq rfl rfl)) rfl
  · rcases nextAddress_cases hc with ⟨a, rest, hc⟩ | ⟨reply, -, rfl⟩
    · exact (tryConnect_follows hc).after (.of_eq rfl rfl) rfl
    · exact .refuse (.of_eq rfl rfl) rfl

theorem handleProxyRead_follows (hr : handleProxyRead e fd x = .ok r) : Follows x r := by
  have horigin : Records Plain x (x.readOrigin e) := .of_log rfl rfl ⟨rfl, rfl⟩
  rcases handleProxyRead_cases hr with ⟨-, ⟨-, rfl⟩ | rfl | ⟨p, rfl⟩⟩ |
    ⟨-, -, ⟨-, rfl⟩ | rfl | ⟨p, rfl⟩⟩
  · exact .stay (.of_eq rfl rfl)
  · exact .close (readClient_plain x e) rfl
  · exact .stay ((readClient_plain x e).trans (.of_eq rfl rfl))
  · exact .stay (.of_eq rfl rfl)
  · exact .close horigin rfl
  · exact .stay (horigin.trans (.of_eq rfl rfl))

/-! ## The gate -/

/-- `handle_proxy_write` serves clients on both sides of the gate: it records
nothing that matters to it. -/
def Relayed (o : Obs) : Prop := Plain o ∧ o.reachesOut = false

theorem handleProxyWrite_records (hr : handleProxyWrite e fd x = .ok r) :
    Records Relayed x r.1 ∧
      (r.2 = stmState x.c ∨ r.2 = .done ∨ r.2 = .writeRemaining) := by
  have hclose : ∀ {y level}, Records Relayed x y → stmState y.c = stmState x.c →
      Records Relayed x (closeClient y level).1 ∧ ((closeClient y level).2 = stmState x.c ∨
        (closeClient y level).2 = .done ∨ (closeClient y level).2 = .writeRemaining) := by
    intro y level hy hst
    refine ⟨hy.trans (.closes (closeClient_closes y level) fun fd k => ⟨.closed _ fd k, rfl⟩), ?_⟩
    rw [← hst]
    exact closeClient_state y level
  have hclient : Records Relayed x (x.writeClient e) := .of_log rfl rfl ⟨⟨rfl, rfl⟩, rfl⟩
  have horigin : Records Relayed x (x.writeOrigin e) := .of_log rfl rfl ⟨⟨rfl, rfl⟩, rfl⟩
  rcases handleProxyWrite_cases hr with
    ⟨-, ⟨-, -, -, rfl⟩ | ⟨-, -, rfl⟩ | ⟨-, -, rfl⟩ | ⟨n, -, rfl⟩⟩ |
    ⟨-, -, ⟨-, -, rfl⟩ | ⟨-, -, rfl⟩ | ⟨-, -, rfl⟩ | ⟨n, -, rfl⟩⟩
  · exact hclose (.refl x) rfl
  · exact ⟨.of_eq rfl rfl, .inl rfl⟩
  · exact hclose hclient rfl
  · exact ⟨hclient.trans (.of_eq rfl rfl), .inl rfl⟩
  · exact hclose (.refl x) rfl
  · exact ⟨.of_eq rfl rfl, .inl rfl⟩
  · exact hclose horigin rfl
  · exact ⟨horigin.trans (.of_eq rfl rfl), .inl rfl⟩

theorem exists_mem_append {P : Obs → Bool} {h os : List Obs} (hos : ∀ o ∈ os, P o = false) :
    (∃ o ∈ h ++ os, P o = true) ↔ ∃ o ∈ h, P o = true := by
  refine ⟨?_, fun ⟨o, ho, hP⟩ => ⟨o, List.mem_append_left _ ho, hP⟩⟩
  rintro ⟨o, ho, hP⟩
  rcases List.mem_append.mp ho with ho | ho
  · exact ⟨o, ho, hP⟩
  · rw [hos o ho] at hP
    cases hP

/-- What a history must be like in each state. -/
def Gate (st : Socks5State) (h : List Obs) : Prop :=
  match st with
  | .authMethod | .plainAuth => ¬ Refused h ∧ ¬ ReachedOut h
  | .request | .resolving | .connecting | .proxy => Granted h ∧ ¬ Refused h
  | .done | .writeRemaining => Refused h → ¬ ReachedOut h

theorem Gate.late {st : Socks5State} (hst : st.isLate = true) (hg : Granted h) (hr : ¬ Refused h) :
    Gate st h := by
  cases st with
  | authMethod | plainAuth | request => cases hst
  | resolving | connecting | proxy => exact ⟨hg, hr⟩
  | done | writeRemaining => exact fun hr' => absurd hr' hr

theorem Gate.follows {st : Socks5State} (hst : st = .request ∨ st = .connecting ∨ st = .proxy)
    (hcur : x.c.current = some st) (hg : Gate st (history x.id x.w.log)) (hf : Follows x r) :
    Gate r.2 (history x.id r.1.w.log) := by
  have hg' : Granted (history x.id x.w.log) ∧ ¬ Refused (history x.id x.w.log) := by
    rcases hst with rfl | rfl | rfl <;> exact hg
  obtain ⟨os, hos, hlog⟩ := hf.records.history_eq
  have hgranted : Granted (history x.id x.w.log ++ os) :=
    (exists_mem_append fun o ho => (hos o ho).1).mpr hg'.1
  have hrefused : ¬ Refused (history x.id x.w.log ++ os) := fun hr =>
    hg'.2 ((exists_mem_append fun o ho => (hos o ho).2).mp hr)
  rw [hlog]
  rcases hf.state with hs | hs
  · rw [hs, stmState_of_current hcur]
    rcases hst with rfl | rfl | rfl <;> exact ⟨hgranted, hrefused⟩
  · exact .late hs hgranted hrefused

/-- The end of a client that has not been refused and has reached nothing. -/
theorem Gate.early {st st' : Socks5State} (hst : st = .authMethod ∨ st = .plainAuth)
    (hst' : st' = st ∨ st' = .done ∨ st' = .writeRemaining)
    (hr : ¬ Refused h) (ho : ¬ ReachedOut h) : Gate st' h := by
  rcases hst' with rfl | rfl | rfl
  · rcases hst with rfl | rfl <;> exact ⟨hr, ho⟩
  · exact fun hr' => absurd hr' hr
  · exact fun hr' => absurd hr' hr

theorem Gate.write {st : Socks5State} (hcur : x.c.current = some st)
    (hg : Gate st (history x.id x.w.log)) (hr : handleProxyWrite e fd x = .ok r) :
    Gate r.2 (history x.id r.1.w.log) := by
  obtain ⟨hrec, hst⟩ := handleProxyWrite_records hr
  obtain ⟨os, hos, hlog⟩ := hrec.history_eq
  rw [stmState_of_current hcur] at hst
  have hgranted : Granted (history x.id x.w.log ++ os) ↔ Granted (history x.id x.w.log) :=
    exists_mem_append fun o ho => (hos o ho).1.1
  have hrefused : Refused (history x.id x.w.log ++ os) ↔ Refused (history x.id x.w.log) :=
    exists_mem_append fun o ho => (hos o ho).1.2
  have hout : ReachedOut (history x.id x.w.log ++ os) ↔ ReachedOut (history x.id x.w.log) :=
    exists_mem_append fun o ho => (hos o ho).2
  have hend : Refused (history x.id x.w.log) → ¬ ReachedOut (history x.id x.w.log) := by
    intro hr
    cases st with
    | authMethod | plainAuth => exact hg.2
    | request | resolving | connecting | proxy => exact absurd hr hg.2
    | done | writeRemaining => exact hg hr
  rw [hlog]
  rcases hst with hs | hs | hs
  · rw [hs]
    unfold Gate at hg ⊢
    rw [hgranted, hrefused, hout]
    exact hg
  · rw [hs]
    exact fun hr => hout.not.mpr (hend (hrefused.mp hr))
  · rw [hs]
    exact fun hr => hout.not.mpr (hend (hrefused.mp hr))

/-! ## The two handlers that decide -/

/-- Neither a refusal nor a step outwards. -/
def Calm (o : Obs) : Prop := o.refuses = false ∧ o.reachesOut = false

theorem Records.granted {P : Obs → Prop} (hrec : Records P x x') (ho : o ∈ x.w.log)
    (hown : o.owner = x.id) (hg : o.grants = true) : Granted (history x.id x'.w.log) := by
  obtain ⟨os, -, hlog⟩ := hrec.log_eq
  refine ⟨o, mem_history.mpr ⟨?_, hown⟩, hg⟩
  rw [hlog]
  exact List.mem_append_left _ ho

/-- A message of the handshake is read and answered with `reply`. -/
theorem simpleReply_records {P : Obs → Prop} (x : Ctx) (v m : UInt8)
    (hP : P (.replied x.id [v, m])) :
    Records P x (simpleReply x v m) := .of_log rfl rfl hP

theorem expectWrite_records {P : Obs → Prop} (x : Ctx) : Records P x (expectWrite x) :=
  .of_eq rfl rfl

/-- A client that has reached nothing is refused: it only drains. -/
theorem Gate.refuse {v m : UInt8} (hout : ¬ ReachedOut (history x.id x.w.log))
    (hrec : Records (fun o => o.reachesOut = false) x x') (hends : x'.c.activeEnds = clientEnds) :
    let r := closeClient (simpleReply x' v m) clientReadEnd
    Gate r.2 (history x.id r.1.w.log) := by
  have hst : (closeClient (simpleReply x' v m) clientReadEnd).2 = .writeRemaining :=
    hangup_state (by exact hends)
  have hall := (hrec.trans (simpleReply_records x' v m rfl)).trans
    (.closes (closeClient_closes _ clientReadEnd) fun _ _ => rfl)
  obtain ⟨os, hos, hlog⟩ := hall.history_eq
  dsimp only
  rw [hst]
  intro _ hr
  rw [hlog] at hr
  exact hout ((exists_mem_append hos).mp hr)

/-- A client on the near side of the gate, after calm events. -/
structure Outside (x x' : Ctx) : Prop where
  records : Records Calm x x'
  refused : ¬ Refused (history x.id x.w.log)
  out : ¬ ReachedOut (history x.id x.w.log)

namespace Outside

theorem notRefused (h : Outside x x') : ¬ Refused (history x.id x'.w.log) := by
  obtain ⟨os, hos, hlog⟩ := h.records.history_eq
  rw [hlog]
  exact fun hr => h.refused ((exists_mem_append fun o ho => (hos o ho).1).mp hr)

theorem notOut (h : Outside x x') : ¬ ReachedOut (history x.id x'.w.log) := by
  obtain ⟨os, hos, hlog⟩ := h.records.history_eq
  rw [hlog]
  exact fun hr => h.out ((exists_mem_append fun o ho => (hos o ho).2).mp hr)

theorem step (h : Outside x x') (hs : Records Calm x' x'') : Outside x x'' :=
  ⟨h.records.trans hs, h.refused, h.out⟩

theorem close {level : SocketEnds} {st : Socks5State} (h : Outside x x')
    (hst : st = .authMethod ∨ st = .plainAuth) (hcur : stmState x'.c = st) :
    Gate (closeClient x' level).2 (history x.id (closeClient x' level).1.w.log) := by
  have hc := h.step (.closes (closeClient_closes x' level) fun fd k => ⟨rfl, rfl⟩)
  refine .early hst ?_ hc.notRefused hc.notOut
  rw [← hcur]
  exact closeClient_state x' level

/-- The client is let through. -/
theorem admits {v m : UInt8} (h : Outside x x') (hm : m ≠ 0xFF) (ho : o ∈ x'.w.log)
    (hown : o.owner = x.id) (hg : o.grants = true) :
    Gate .request (history x.id (expectWrite (simpleReply x' v m)).w.log) := by
  have hreply : Records Calm x' (expectWrite (simpleReply x' v m)) :=
    (simpleReply_records x' v m ⟨decide_eq_false hm, rfl⟩).trans (expectWrite_records _)
  have hid := h.records.id_eq
  refine ⟨?_, (h.step hreply).notRefused⟩
  rw [← hid]
  exact hreply.granted ho (hown.trans hid.symm) hg

end Outside

theorem readAuthMethod_gate (hends : x.c.activeEnds = clientEnds)
    (hcur : x.c.current = some .authMethod) (hg : Gate .authMethod (history x.id x.w.log))
    (hr : readAuthMethod e fd x = .ok r) : Gate r.2 (history x.id r.1.w.log) := by
  have hread : Outside x (x.readClient e) := ⟨.of_log rfl rfl ⟨rfl, rfl⟩, hg.1, hg.2⟩
  have hst : stmState x.c = .authMethod := stmState_of_current hcur
  rcases readAuthMethod_cases hr with rfl | rfl | ⟨n, hn, v, ms, rfl⟩
  · exact hread.close (.inl rfl) hst
  · rw [hst]
    exact ⟨hread.notRefused, hread.notOut⟩
  generalize hy : (x.readClient e).consume n hn = y
  have hcons : Outside x y := hy ▸ hread.step (.of_log rfl rfl ⟨rfl, rfl⟩)
  have hlog : Outside x (y.log (.greeting y.id v ms y.w.users)) :=
    hcons.step (.of_log rfl rfl ⟨rfl, rfl⟩)
  rcases answerGreeting_cases y v ms with ha | ⟨-, hu, h0, ha⟩ | ⟨-, -, ha⟩
  · rw [ha]
    exact .refuse hg.2 (hlog.records.mono fun _ ho => ho.2) (by rw [← hy]; exact hends)
  · rw [ha]
    refine hlog.admits (by decide) (List.mem_append_right _ List.mem_cons_self) ?_ ?_
    · exact hcons.records.id_eq
    · simp [Obs.grants, hu, h0]
  · rw [ha]
    have hreply := hlog.step ((simpleReply_records _ serverVersion 0x2 ⟨rfl, rfl⟩).trans
      (expectWrite_records _))
    exact ⟨hreply.notRefused, hreply.notOut⟩

theorem readPlainAuth_gate (hends : x.c.activeEnds = clientEnds)
    (hcur : x.c.current = some .plainAuth) (hg : Gate .plainAuth (history x.id x.w.log))
    (hr : readPlainAuth e fd x = .ok r) : Gate r.2 (history x.id r.1.w.log) := by
  have hread : Outside x (x.readClient e) := ⟨.of_log rfl rfl ⟨rfl, rfl⟩, hg.1, hg.2⟩
  have hst : stmState x.c = .plainAuth := stmState_of_current hcur
  rcases readPlainAuth_cases hr with rfl | rfl | ⟨n, hn, v, user, pass, rfl⟩
  · exact hread.close (.inr rfl) hst
  · rw [hst]
    exact ⟨hread.notRefused, hread.notOut⟩
  generalize hy : (x.readClient e).consume n hn = y
  have hcons : Outside x y := hy ▸ hread.step (.of_log rfl rfl ⟨rfl, rfl⟩)
  have hyends : y.c.activeEnds = clientEnds := by rw [← hy]; exact hends
  rcases answerCredentials_cases y v user pass with ha | ⟨ht, ha⟩ | ⟨ht, ha⟩
  · rw [ha]
    exact .refuse hg.2 (hcons.records.mono fun _ ho => ho.2) hyends
  · rw [ha]
    have hlog : Outside x ((y.setUser (cString user)).log
        (.credentials y.id (cString user) (cString pass) y.w.users)) :=
      hcons.step (.of_log rfl rfl ⟨by simp [Obs.refuses, ht], rfl⟩)
    exact hlog.admits (by decide) (List.mem_append_right _ List.mem_cons_self)
      hcons.records.id_eq ht
  · rw [ha]
    exact .refuse hg.2 ((hcons.records.mono fun _ ho => ho.2).trans (.of_log rfl rfl rfl)) hyends

theorem Gate.read {st : Socks5State} {handler : Env → ℤ → Ctx → Except Fault (Ctx × Socks5State)}
    (hctl : Ctl x.id x.c x.w.selector (some st)) (hcur : x.c.current = some st)
    (hh : onReadReady st = some handler) (hr : handler e fd x = .ok r)
    (hg : Gate st (history x.id x.w.log)) : Gate r.2 (history x.id r.1.w.log) := by
  cases st with
  | authMethod => cases hh; exact readAuthMethod_gate (Alone.ends hctl) hcur hg hr
  | plainAuth => cases hh; exact readPlainAuth_gate (Alone.ends hctl) hcur hg hr
  | request => cases hh; exact hg.follows (.inl rfl) hcur (readProxyRequest_follows hr)
  | proxy => cases hh; exact hg.follows (.inr (.inr rfl)) hcur (handleProxyRead_follows hr)
  | resolving | connecting | done | writeRemaining => cases hh

theorem Gate.writeReady {st : Socks5State}
    {handler : Env → ℤ → Ctx → Except Fault (Ctx × Socks5State)} (hcur : x.c.current = some st)
    (hh : onWriteReady st = some handler) (hr : handler e fd x = .ok r)
    (hg : Gate st (history x.id x.w.log)) : Gate r.2 (history x.id r.1.w.log) := by
  cases st with
  | plainAuth | request | resolving | proxy | writeRemaining => cases hh; exact hg.write hcur hr
  | connecting =>
    cases hh
    exact hg.follows (.inr (.inl rfl)) hcur (originCheckConnection_follows hr)
  | authMethod | done => cases hh

def gated : Story where
  live _ st _ h := Gate st h
  gone _ h := Refused h → ¬ ReachedOut h
  current h := h
  born id fd n e k _ := by
    simp [Gate, Refused, ReachedOut, Obs.refuses, Obs.reachesOut]
  read hctl hcur _ hh hr _ hg := hg.read hctl hcur hh hr
  write _ hcur _ hh hr _ hg := hg.writeReady hcur hh hr
  resolved _ hg := hg
  block hg := hg
  resolving := by
    rintro id c h ⟨⟨o, ho, hg⟩, hr⟩
    refine ⟨⟨o, List.mem_append_left _ ho, hg⟩, fun hr' => hr ?_⟩
    exact (exists_mem_append (by simp [Obs.refuses])).mp hr'
  done := by
    intro id c h hg hr hout
    refine hg ?_ ?_
    · exact (exists_mem_append (by simp [Obs.refuses])).mp hr
    · exact (exists_mem_append (by simp [Obs.reachesOut])).mp hout

theorem authentication_gate (users : UserTable) (masters monitors : List ℤ) (evs : List Event)
    (id : ClientId) :
    let s := exec step (boot users masters monitors) evs
    let h := history id s.w.log
    (∀ c, s.heap id = some c →
      stmState c ∈ [.request, .resolving, .connecting, .proxy] → Granted h) ∧
    (Refused h → ¬ ReachedOut h ∧ ∀ c, s.heap id = some c → stmState c = .writeRemaining) := by
  intro s h
  have hinv : Inv s := reachable_inv users masters monitors evs
  have htold : gated.Told s := gated.reachable users masters monitors evs
  have hgate : ∀ c, s.heap id = some c → Gate (stmState c) h := htold.live id
  refine ⟨?_, ?_⟩
  · intro c hc hst
    have hg := hgate c hc
    simp only [List.mem_cons, List.not_mem_nil, or_false] at hst
    rcases hst with hst | hst | hst | hst <;> rw [hst] at hg <;> exact hg.1
  intro hr
  cases hc : s.heap id with
  | none =>
    refine ⟨?_, fun c hc' => by cases hc'⟩
    by_cases hlt : id < s.nextId
    · exact htold.gone id hlt hc hr
    · have hnil : h = [] := (hinv.fresh id (Nat.not_lt.mp hlt)).2
      rw [hnil] at hr
      obtain ⟨o, ho, -⟩ := hr
      cases ho
  | some c =>
    have hg := hgate c hc
    have hctl := hinv.live id c hc
    have hdone : stmState c ≠ .done := by
      intro hd
      cases hcur : c.current with
      | none =>
        rw [stmState, hcur] at hd
        cases hd
      | some st =>
        rw [stmState_of_current hcur] at hd
        rw [hcur, hd] at hctl
        exact hctl
    have hst : stmState c = .writeRemaining := by
      cases hst : stmState c <;> rw [hst] at hg
      all_goals first | exact absurd hr hg.1 | exact absurd hr hg.2 | skip
      exact absurd hst hdone
    rw [hst] at hg
    refine ⟨hg hr, ?_⟩
    intro c' hc'
    cases hc'
    exact hst

end Socks5d

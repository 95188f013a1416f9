import Socks5d.Integrity

/-! # The replies of the handshake

What the server queues for a client over its lifetime: a method reply, at most one
reply to credentials, at most one whole CONNECT reply, and bytes of the origin only
after a CONNECT reply that reports success. -/

namespace Socks5d
open EventRun

variable {x x' : Ctx} {e : Env} {fd : ℤ} {r : Ctx × Socks5State} {c : Client} {h : List Obs}
  {st : Socks5State}

/-! ## The grammar -/

/-- A whole CONNECT reply with the given code. -/
def ConnectReply (code : UInt8) (bs : List UInt8) : Prop :=
  ∃ addr : List UInt8, ∃ port : Port,
    (addr.length = 4 ∧ bs = [0x05, code, 0x00, 0x01] ++ addr ++ [port.1, port.2]) ∨
    (addr.length = 16 ∧ bs = [0x05, code, 0x00, 0x04] ++ addr ++ [port.1, port.2])

/-- What may follow once a request is awaited. -/
inductive AfterMethod : List UInt8 → Prop
  | nothing : AfterMethod []
  | refused (code : UInt8) (bs : List UInt8) : code ≠ 0 → ConnectReply code bs → AfterMethod bs
  | relayed (bs data : List UInt8) : ConnectReply 0 bs → AfterMethod (bs ++ data)

inductive ReplyStream : List UInt8 → Prop
  | nothing : ReplyStream []
  | noMethod : ReplyStream [0x05, 0xFF]
  | noAuth (bs : List UInt8) : AfterMethod bs → ReplyStream ([0x05, 0x00] ++ bs)
  | userPass : ReplyStream [0x05, 0x02]
  | badCredentials : ReplyStream ([0x05, 0x02] ++ [0x01, 0x01])
  | badVersion : ReplyStream ([0x05, 0x02] ++ [0x01, 0xFF])
  | authenticated (bs : List UInt8) : AfterMethod bs →
    ReplyStream ([0x05, 0x02] ++ [0x01, 0x00] ++ bs)

/-- The replies of a client from which a request is awaited. -/
def Admitted (bs : List UInt8) : Prop :=
  bs = [0x05, 0x00] ∨ bs = [0x05, 0x02] ++ [0x01, 0x00]

theorem Admitted.stream {bs rest : List UInt8} (h : Admitted bs) (hr : AfterMethod rest) :
    ReplyStream (bs ++ rest) := by
  rcases h with rfl | rfl
  · exact .noAuth rest hr
  · exact .authenticated rest hr

/-- The last reply reports success. -/
def Opened (bs : List UInt8) : Prop :=
  ∃ head reply, Admitted head ∧ ConnectReply 0 reply ∧ bs = head ++ reply

theorem ConnectReply.length_le {code : UInt8} {bs : List UInt8} (h : ConnectReply code bs) :
    10 ≤ bs.length := by
  obtain ⟨addr, port, ⟨hlen, rfl⟩ | ⟨hlen, rfl⟩⟩ := h
  · simp [hlen]
  · simp [hlen]

theorem Opened.length_le {bs : List UInt8} (h : Opened bs) : 12 ≤ bs.length := by
  obtain ⟨head, reply, hhead, hreply, rfl⟩ := h
  have hle := hreply.length_le
  rw [List.length_append]
  rcases hhead with rfl | rfl
  · simp only [List.length_cons, List.length_nil]
    omega
  · simp only [List.length_append, List.length_cons, List.length_nil]
    omega

theorem not_opened_short {bs : List UInt8} (h : bs.length < 12) : ¬ Opened bs := by
  intro hopen
  have hle := hopen.length_le
  omega

theorem Admitted.length_lt {bs : List UInt8} (h : Admitted bs) : bs.length < 12 := by
  rcases h with rfl | rfl <;> decide

/-- The code of the reply can be read off the bytes. -/
theorem not_opened_refused {head bs : List UInt8} {code : UInt8} (hh : Admitted head)
    (hcode : code ≠ 0) (hb : ConnectReply code bs) : ¬ Opened (head ++ bs) := by
  rintro ⟨head', bs', hh', hb', heq⟩
  obtain ⟨addr, port, hb⟩ := hb
  obtain ⟨addr', port', hb'⟩ := hb'
  rcases hb with ⟨-, rfl⟩ | ⟨-, rfl⟩ <;> rcases hb' with ⟨-, rfl⟩ | ⟨-, rfl⟩ <;>
    rcases hh with rfl | rfl <;> rcases hh' with rfl | rfl <;> simp_all

/-! ## Where each state is in the grammar -/

/-- The bytes queued for the client: replies, then what the origin sends. -/
def queued (h : List Obs) : List UInt8 := bytesOf .replied h ++ bytesOf .recvOrigin h

/-- What holds of every history: bytes of the origin wait for the success. -/
structure Spoken (h : List Obs) : Prop where
  replies : ReplyStream (bytesOf .replied h)
  relayed : bytesOf .recvOrigin h = [] ∨ Opened (bytesOf .replied h)

theorem Opened.stream {bs : List UInt8} (h : Opened bs) (data : List UInt8) :
    ReplyStream (bs ++ data) := by
  obtain ⟨head, reply, hh, hr, rfl⟩ := h
  rw [List.append_assoc]
  exact hh.stream (.relayed reply data hr)

theorem Spoken.stream (hs : Spoken h) : ReplyStream (queued h) := by
  unfold queued
  rcases hs.relayed with hnone | hopen
  · rw [hnone, List.append_nil]
    exact hs.replies
  · exact hopen.stream _

def Stage (st : Socks5State) (h : List Obs) : Prop :=
  match st with
  | .authMethod => bytesOf .replied h = [] ∧ bytesOf .recvOrigin h = []
  | .plainAuth => bytesOf .replied h = [0x05, 0x02] ∧ bytesOf .recvOrigin h = []
  | .request | .resolving | .connecting =>
    Admitted (bytesOf .replied h) ∧ bytesOf .recvOrigin h = []
  | .proxy => Opened (bytesOf .replied h)
  | .writeRemaining | .done => Spoken h

theorem Admitted.of_empty {bs : List UInt8} (h : Admitted bs) : ReplyStream bs := by
  rw [← List.append_nil bs]
  exact h.stream .nothing

theorem Stage.spoken (hs : Stage st h) : Spoken h := by
  cases st with
  | authMethod => exact ⟨by rw [hs.1]; exact .nothing, .inl hs.2⟩
  | plainAuth => exact ⟨by rw [hs.1]; exact .userPass, .inl hs.2⟩
  | request | resolving | connecting => exact ⟨hs.1.of_empty, .inl hs.2⟩
  | proxy =>
    refine ⟨?_, .inr hs⟩
    rw [← List.append_nil (bytesOf .replied h)]
    exact Opened.stream hs []
  | writeRemaining | done => exact hs

/-- Only what is queued matters. -/
theorem Stage.congr {h' : List Obs} (hs : Stage st h)
    (hr : bytesOf .replied h' = bytesOf .replied h)
    (ho : bytesOf .recvOrigin h' = bytesOf .recvOrigin h) : Stage st h' := by
  have hspoken : Spoken h → Spoken h' := fun hs => by
    refine ⟨?_, ?_⟩
    · rw [hr]
      exact hs.replies
    · rw [hr, ho]
      exact hs.relayed
  unfold Stage at *
  rw [hr, ho]
  split at hs
  · exact hs
  · exact hs
  · exact hs
  · exact hs
  · exact hs
  · exact hs
  · exact hspoken hs
  · exact hspoken hs

/-- What a handler leaves, entered for `x`, unless it reports success. -/
structure Speaks (x : Ctx) (r : Ctx × Socks5State) : Prop where
  stage : Stage r.2 r.1.past
  opened : Opened (bytesOf .replied r.1.past) ↔ Opened (bytesOf .replied x.past)

/-- From `x` to `x'` nothing is queued. -/
structure Silent (x x' : Ctx) : Prop where
  replied : bytesOf .replied x'.past = bytesOf .replied x.past
  recvOrigin : bytesOf .recvOrigin x'.past = bytesOf .recvOrigin x.past

theorem Idle.silent (h : Idle x x') : Silent x x' := ⟨h.bytes _, h.bytes _⟩

theorem Silent.of_eq (hid : x'.id = x.id) (hlog : x'.w.log = x.w.log)
    (hc : x'.c.clientBuf = x.c.clientBuf) (ho : x'.c.originBuf = x.c.originBuf) : Silent x x' :=
  (Idle.of_eq hid hlog hc ho).silent

theorem Silent.trans {x'' : Ctx} (h : Silent x x') (h' : Silent x' x'') : Silent x x'' :=
  ⟨h'.replied.trans h.replied, h'.recvOrigin.trans h.recvOrigin⟩

theorem Moves.silent {k : Flow} {bs : List UInt8} (h : Moves k bs x x') (hr : k ≠ .replied)
    (ho : k ≠ .recvOrigin) : Silent x x' := by
  refine ⟨?_, ?_⟩
  · rw [h.bytes, if_neg hr, List.append_nil]
  · rw [h.bytes, if_neg ho, List.append_nil]

theorem readClient_silent (x : Ctx) (e : Env) : Silent x (x.readClient e) :=
  (readClient_moves x e).silent (by decide) (by decide)

theorem consume_silent {n : ℕ} (hn : n ≤ x.c.originBuf.write - x.c.originBuf.read) :
    Silent x (x.consume n hn) := (consume_moves hn).silent (by decide) (by decide)

theorem Silent.speaks (h : Silent x x') (hs : Stage st x.past) : Speaks x (x', st) :=
  ⟨hs.congr h.replied h.recvOrigin, by rw [h.replied]⟩

theorem Silent.close {level : SocketEnds} (h : Silent x x') (hs : Stage (stmState x'.c) x.past) :
    Speaks x (closeClient x' level) := by
  have hc : Silent x (closeClient x' level).1 :=
    h.trans (Idle.closes (closeClient_closes x' level)).silent
  have hspoken := hs.spoken
  have hstage : Stage (closeClient x' level).2 x.past := by
    rcases closeClient_state x' level with hst | hst | hst
    · rw [hst]
      exact hs
    · rw [hst]
      exact hspoken
    · rw [hst]
      exact hspoken
  exact hc.speaks hstage

/-- The last word: a reply, and the reading end closes. -/
theorem Speaks.last {bs : List UInt8} (hm : Moves .replied bs x x')
    (hends : x'.c.activeEnds = clientEnds) (hrecv : bytesOf .recvOrigin x.past = [])
    (hpre : (bytesOf .replied x.past).length < 12)
    (hs : ReplyStream (bytesOf .replied x.past ++ bs))
    (hno : ¬ Opened (bytesOf .replied x.past ++ bs)) : Speaks x (closeClient x' clientReadEnd) := by
  have hi := Idle.closes (closeClient_closes x' clientReadEnd)
  have hr : bytesOf .replied (closeClient x' clientReadEnd).1.past =
      bytesOf .replied x.past ++ bs := by
    rw [hi.bytes, hm.bytes, if_pos rfl]
  have ho : bytesOf .recvOrigin (closeClient x' clientReadEnd).1.past = [] := by
    rw [hi.bytes, hm.bytes, if_neg (by decide), hrecv, List.append_nil]
  refine ⟨?_, by rw [hr]; exact iff_of_false hno (not_opened_short hpre)⟩
  rw [hangup_state hends]
  refine ⟨?_, .inl ho⟩
  rw [hr]
  exact hs

theorem code_ne_zero {reply : ServerReplyType} (h : reply ≠ .succeeded) : reply.code ≠ 0 := by
  cases reply with
  | succeeded => exact absurd rfl h
  | _ => decide

theorem replyBytes_connectReply (reply : ServerReplyType) {atyp : Atyp} (h : atyp ≠ .domainName)
    (addr : List UInt8) (port : Port) :
    ConnectReply reply.code (replyBytes reply atyp addr port) := by
  cases atyp with
  | ipv4 => exact ⟨takeBytes addr 4, port, .inl ⟨takeBytes_length _ _, rfl⟩⟩
  | ipv6 => exact ⟨takeBytes addr 16, port, .inr ⟨takeBytes_length _ _, rfl⟩⟩
  | domainName => exact absurd rfl h

theorem putReply_moves (x : Ctx) (reply : ServerReplyType) (atyp : Atyp) (addr : List UInt8)
    (port : Port) :
    Moves .replied (replyBytes reply atyp addr port) x (putReply x reply atyp addr port) :=
  .of_log rfl rfl rfl rfl

/-- The error exits of the request and of the connection. -/
theorem Speaks.refuse {reply : ServerReplyType} (hreply : reply ≠ .succeeded) (h : Silent x x')
    (hends : x'.c.activeEnds = clientEnds) (hs : Admitted (bytesOf .replied x.past))
    (hrecv : bytesOf .recvOrigin x.past = []) :
    Speaks x (closeClient (failReply x' reply) clientReadEnd) := by
  have hb := replyBytes_connectReply reply (by decide : Atyp.ipv4 ≠ .domainName) emptyIp (0, 0)
  have hcode := code_ne_zero hreply
  have hlast := Speaks.last (putReply_moves x' reply .ipv4 emptyIp (0, 0))
    (by exact hends) (h.recvOrigin.trans hrecv) (by rw [h.replied]; exact hs.length_lt)
    (by rw [h.replied]; exact hs.stream (.refused _ _ hcode hb))
    (by rw [h.replied]; exact not_opened_refused hs hcode hb)
  exact ⟨hlast.stage, hlast.opened.trans (by rw [h.replied])⟩

theorem Speaks.after (h : Silent x x') (hs : Speaks x' r) : Speaks x r :=
  ⟨hs.stage, by rw [hs.opened, h.replied]⟩

/-- A short reply, after which the handshake goes on. -/
theorem Speaks.reply {v m : UInt8} (hrecv : bytesOf .recvOrigin x.past = [])
    (hshort : (bytesOf .replied x.past ++ [v, m]).length < 12)
    (hstage : ∀ h', bytesOf .replied h' = bytesOf .replied x.past ++ [v, m] →
      bytesOf .recvOrigin h' = [] → Stage st h') :
    Speaks x (expectWrite (simpleReply x v m), st) := by
  have hm := simpleReply_moves x v m
  have hi := expectWrite_idle (simpleReply x v m)
  have hr : bytesOf .replied (expectWrite (simpleReply x v m)).past =
      bytesOf .replied x.past ++ [v, m] := by rw [hi.bytes, hm.bytes, if_pos rfl]
  have ho : bytesOf .recvOrigin (expectWrite (simpleReply x v m)).past = [] := by
    rw [hi.bytes, hm.bytes, if_neg (by decide), hrecv, List.append_nil]
  refine ⟨hstage _ hr ho, ?_⟩
  rw [hr]
  refine iff_of_false (not_opened_short hshort) (not_opened_short ?_)
  rw [List.length_append] at hshort
  omega

theorem log_silent (o : Obs) (ho : o.flow = none) : Silent x (x.log o) :=
  (Idle.silent ⟨⟨rfl, [o], by simpa using ho, rfl⟩, rfl, rfl⟩)

section
variable (hends : x.c.activeEnds = clientEnds)
include hends

theorem answerGreeting_speaks (hs : Stage .authMethod x.past) (v : UInt8) (ms : List UInt8) :
    Speaks x (answerGreeting x v ms) := by
  have hlog : Silent x (x.log (.greeting x.id v ms x.w.users)) := log_silent _ rfl
  have hreplied := hlog.replied.trans hs.1
  have hrecv := hlog.recvOrigin.trans hs.2
  apply Speaks.after hlog
  rcases answerGreeting_cases x v ms with ha | ⟨-, -, -, ha⟩ | ⟨-, -, ha⟩
  · rw [ha]
    refine .last (simpleReply_moves _ _ _) hends hrecv (by rw [hreplied]; decide) ?_ ?_
    · rw [hreplied]
      exact .noMethod
    · rw [hreplied]
      exact not_opened_short (by decide)
  · rw [ha]
    refine .reply hrecv (by rw [hreplied]; decide) ?_
    intro h' hr ho
    rw [hreplied] at hr
    exact ⟨.inl hr, ho⟩
  · rw [ha]
    refine .reply hrecv (by rw [hreplied]; decide) ?_
    intro h' hr ho
    rw [hreplied] at hr
    exact ⟨hr, ho⟩

theorem answerCredentials_speaks (hs : Stage .plainAuth x.past) (v : UInt8)
    (user pass : List UInt8) :
    Speaks x (answerCredentials x v user pass) := by
  have hlog : Silent x ((x.setUser (cString user)).log
      (.credentials x.id (cString user) (cString pass) x.w.users)) :=
    Idle.silent ⟨.of_log rfl rfl rfl, rfl, rfl⟩
  have hreplied := hlog.replied.trans hs.1
  have hrecv := hlog.recvOrigin.trans hs.2
  rcases answerCredentials_cases x v user pass with ha | ⟨-, ha⟩ | ⟨-, ha⟩
  · rw [ha]
    refine .last (simpleReply_moves _ _ _) hends hs.2 (by rw [hs.1]; decide) ?_ ?_
    · rw [hs.1]
      exact .badVersion
    · rw [hs.1]
      exact not_opened_short (by decide)
  · rw [ha]
    refine Speaks.after hlog (.reply hrecv (by rw [hreplied]; decide) ?_)
    intro h' hr ho
    rw [hreplied] at hr
    exact ⟨.inr hr, ho⟩
  · rw [ha]
    refine Speaks.after hlog (.last (simpleReply_moves _ _ _) hends hrecv
      (by rw [hreplied]; decide) ?_ ?_)
    · rw [hreplied]
      exact .badCredentials
    · rw [hreplied]
      exact not_opened_short (by decide)

theorem readAuthMethod_speaks (hcur : x.c.current = some .authMethod)
    (hs : Stage .authMethod x.past) (hr : readAuthMethod e fd x = .ok r) : Speaks x r := by
  have hst := stmState_of_current hcur
  have hread := readClient_silent x e
  rcases readAuthMethod_cases hr with rfl | rfl | ⟨n, hn, v, ms, rfl⟩
  · exact hread.close (by exact hst ▸ hs)
  · exact hread.speaks (hst ▸ hs)
  · have hc := hread.trans (consume_silent hn)
    exact .after hc
      (answerGreeting_speaks (by exact hends) (hs.congr hc.replied hc.recvOrigin) v ms)

theorem readPlainAuth_speaks (hcur : x.c.current = some .plainAuth) (hs : Stage .plainAuth x.past)
    (hr : readPlainAuth e fd x = .ok r) : Speaks x r := by
  have hst := stmState_of_current hcur
  have hread := readClient_silent x e
  rcases readPlainAuth_cases hr with rfl | rfl | ⟨n, hn, v, user, pass, rfl⟩
  · exact hread.close (by exact hst ▸ hs)
  · exact hread.speaks (hst ▸ hs)
  · have hc := hread.trans (consume_silent hn)
    exact .after hc
      (answerCredentials_speaks (by exact hends) (hs.congr hc.replied hc.recvOrigin) v user pass)

theorem startRequest_speaks {b : Buffer} {a : UInt8} {n : ℕ} (hs : Stage .request x.past)
    (hr : startRequest e b a n x = .ok r) : Speaks x r := by
  have hi : ∀ sel addr, Silent x ((x.sel sel).setAddr addr) := fun _ _ =>
    .of_eq rfl rfl rfl rfl
  rcases startRequest_cases hr with ⟨addr, -, -, rfl⟩ | ⟨fqdn, port, -, rfl⟩ | ⟨addr, -, rfl⟩
  · exact .refuse (by decide) (hi _ addr) (by exact hends) hs.1 hs.2
  · exact Silent.speaks (.of_eq rfl rfl rfl rfl) hs
  · exact (hi _ _).speaks hs

theorem readProxyRequest_speaks (hcur : x.c.current = some .request) (hs : Stage .request x.past)
    (hr : readProxyRequest e fd x = .ok r) : Speaks x r := by
  have hst := stmState_of_current hcur
  have hread : ∀ a, Silent x ((x.readClient e).setAtyp a) := fun a =>
    (readClient_silent x e).trans (.of_eq rfl rfl rfl rfl)
  rcases readProxyRequest_cases hr with ⟨a, rfl⟩ | ⟨a, reply, ⟨-, hne⟩, rfl⟩ |
    ⟨a, n, hn, reply, ⟨-, hne⟩, rfl⟩ | ⟨a, n, k, hn, hstart⟩
  · exact (hread a).speaks (hst ▸ hs)
  · exact .refuse hne (hread a) (by exact hends) hs.1 hs.2
  · exact .refuse hne ((hread a).trans (consume_silent hn)) (by exact hends) hs.1 hs.2
  · have hc := (hread a).trans (consume_silent hn)
    exact .after hc
      (startRequest_speaks (by exact hends) (hs.congr hc.replied hc.recvOrigin) hstart)

theorem tryConnect_speaks (hs : Stage .connecting x.past) (hr : tryConnect e x = .ok r) :
    Speaks x r := by
  obtain ⟨-, -, ⟨-, -, rfl⟩ | ⟨fd, -, hc⟩⟩ := tryConnect_cases hr
  · exact .refuse (by decide) (.of_eq rfl rfl rfl rfl) (by exact hends) hs.1 hs.2
  have hopen : Silent x ((x.setOrigin fd).openSock fd) :=
    Idle.silent ⟨.of_log rfl rfl rfl, rfl, rfl⟩
  rcases connectTo_cases hc with ⟨err, -, -, rfl⟩ | ⟨-, -, -, rfl⟩ | ⟨-, -, rfl⟩
  · exact .refuse (checkConnectionError_ne err) hopen (by exact hends) hs.1 hs.2
  · exact .refuse (by decide) (hopen.trans (Idle.closes .close).silent)
      (by rw [close_c]; exact hends)
      hs.1 hs.2
  · have hreg : ∀ sel, Silent x (((x.setOrigin fd).openSock fd).sel sel) := fun _ =>
      hopen.trans (.of_eq rfl rfl rfl rfl)
    exact (hreg _).speaks hs

theorem originCheckConnection_speaks (hs : Stage .connecting x.past)
    (hr : originCheckConnection e fd x = .ok r) :
    Speaks x r ∨ r.2 = .proxy ∧ r.1.c.activeEnds.originWrite = true ∧
      Opened (bytesOf .replied r.1.past) := by
  have hi : ∀ sel, Silent x (x.sel sel) := fun _ => (.of_eq rfl rfl rfl rfl)
  rcases originCheckConnection_cases hr with ⟨-, -, -, rfl⟩ | ⟨-, ht⟩ | ⟨-, -, a, ht⟩ |
    ⟨-, err, next, -, ht⟩
  · exact .inl (.refuse (by decide) (hi _) (by exact hends) hs.1 hs.2)
  · exact .inl (.after (hi _) (tryConnect_speaks (by exact hends)
      (hs.congr (hi _).replied (hi _).recvOrigin) ht))
  · obtain ⟨-, p, rfl⟩ := enterProxy_ok ht
    have how : (joinOrigin x).c.activeEnds.originWrite = true := by
      change (x.c.activeEnds ||| originEnds).originWrite = true
      rw [hends]
      rfl
    refine .inr ⟨rfl, how, ?_⟩
    have hjoin : Silent x (joinOrigin x) := (.of_eq rfl rfl rfl rfl)
    have hm := putReply_moves (joinOrigin x) .succeeded a.family.atyp e.sockname.1 e.sockname.2
    have hp : Idle (putReply (joinOrigin x) .succeeded a.family.atyp e.sockname.1 e.sockname.2)
        ((putReply (joinOrigin x) .succeeded a.family.atyp e.sockname.1
          e.sockname.2).setParser p) :=
      .of_eq rfl rfl rfl rfl
    have hatyp : a.family.atyp ≠ .domainName := by cases a.family <;> simp [AddrFamily.atyp]
    refine ⟨_, _, hs.1, replyBytes_connectReply .succeeded hatyp e.sockname.1 e.sockname.2, ?_⟩
    rw [hp.bytes, hm.bytes, if_pos rfl, hjoin.replied]
  · rcases nextAddress_cases ht with ⟨a, rest, ht⟩ | ⟨reply, ⟨-, hne⟩, rfl⟩
    · have hi' : Silent x ((x.sel (selectorUnregisterFd x.w.selector x.c.originSock)).setAddr
        (.resolved a rest)) := (.of_eq rfl rfl rfl rfl)
      exact .inl (.after hi' (tryConnect_speaks (by exact hends)
        (hs.congr hi'.replied hi'.recvOrigin) ht))
    · exact .inl (.refuse hne (hi _) (by exact hends) hs.1 hs.2)

end

/-- Bytes of the origin are queued behind the reply that reports success. -/
theorem handleProxyRead_speaks (hcur : x.c.current = some .proxy) (hs : Stage .proxy x.past)
    (hr : handleProxyRead e fd x = .ok r) : Speaks x r := by
  have hst := stmState_of_current hcur
  have hmask : ∀ s, Silent x (x.sel s) := fun s => .of_eq rfl rfl rfl rfl
  have hsel : ∀ y s p, Silent y ((Ctx.sel y s).setParser p) := fun y s p => .of_eq rfl rfl rfl rfl
  have hreplied : bytesOf .replied (x.readOrigin e).past = bytesOf .replied x.past := by
    rw [(readOrigin_moves x e).bytes, if_neg (by decide), List.append_nil]
  have hopen : Stage .proxy (x.readOrigin e).past := by
    change Opened _
    rw [hreplied]
    exact hs
  have hafter : ∀ {r}, Speaks (x.readOrigin e) r → Speaks x r := fun h =>
    ⟨h.stage, by rw [h.opened, hreplied]⟩
  rcases handleProxyRead_cases hr with ⟨-, ⟨-, rfl⟩ | rfl | ⟨p, rfl⟩⟩ |
    ⟨-, -, ⟨-, rfl⟩ | rfl | ⟨p, rfl⟩⟩
  · exact (hmask _).speaks (hst ▸ hs)
  · exact (readClient_silent x e).close (by exact hst ▸ hs)
  · exact ((readClient_silent x e).trans (hsel _ _ _)).speaks (hst ▸ hs)
  · exact (hmask _).speaks (hst ▸ hs)
  · have hquiet : Silent (x.readOrigin e) (x.readOrigin e) := .of_eq rfl rfl rfl rfl
    exact hafter (hquiet.close (by exact hst ▸ hopen))
  · exact hafter ((hsel _ _ _).speaks (hst ▸ hopen))

/-- Sending queues nothing. -/
theorem handleProxyWrite_speaks (hcur : x.c.current = some st) (hs : Stage st x.past)
    (hr : handleProxyWrite e fd x = .ok r) : Speaks x r := by
  have hst := stmState_of_current hcur
  have hrefl : Silent x x := .of_eq rfl rfl rfl rfl
  have hmask : ∀ s, Silent x (x.sel s) := fun s => .of_eq rfl rfl rfl rfl
  have hsel : ∀ y s n, Silent y ((Ctx.sel y s).addBytes n) := fun y s n => .of_eq rfl rfl rfl rfl
  have hclient : Silent x (x.writeClient e) :=
    (writeClient_moves x e).silent (by decide) (by decide)
  have horigin : Silent x (x.writeOrigin e) :=
    (writeOrigin_moves x e).silent (by decide) (by decide)
  rcases handleProxyWrite_cases hr with
    ⟨-, ⟨-, -, -, rfl⟩ | ⟨-, -, rfl⟩ | ⟨-, -, rfl⟩ | ⟨n, -, rfl⟩⟩ |
    ⟨-, -, ⟨-, -, rfl⟩ | ⟨-, -, rfl⟩ | ⟨-, -, rfl⟩ | ⟨n, -, rfl⟩⟩
  · exact hrefl.close (by exact hst ▸ hs)
  · exact (hmask _).speaks (by exact hst ▸ hs)
  · exact hclient.close (by exact hst ▸ hs)
  · exact (hclient.trans (hsel _ _ _)).speaks (by exact hst ▸ hs)
  · exact hrefl.close (by exact hst ▸ hs)
  · exact (hmask _).speaks (by exact hst ▸ hs)
  · exact horigin.close (by exact hst ▸ hs)
  · exact (horigin.trans (hsel _ _ _)).speaks (by exact hst ▸ hs)

/-! ## Runs -/

theorem read_speaks {handler : Env → ℤ → Ctx → Except Fault (Ctx × Socks5State)}
    (hctl : Ctl x.id x.c x.w.selector (some st)) (hcur : x.c.current = some st)
    (hh : onReadReady st = some handler) (hs : Stage st x.past) (hr : handler e fd x = .ok r) :
    Speaks x r := by
  cases st with
  | authMethod => cases hh; exact readAuthMethod_speaks (Alone.ends hctl) hcur hs hr
  | plainAuth => cases hh; exact readPlainAuth_speaks (Alone.ends hctl) hcur hs hr
  | request => cases hh; exact readProxyRequest_speaks (Alone.ends hctl) hcur hs hr
  | proxy => cases hh; exact handleProxyRead_speaks hcur hs hr
  | resolving | connecting | done | writeRemaining => cases hh

theorem write_speaks {handler : Env → ℤ → Ctx → Except Fault (Ctx × Socks5State)}
    (hctl : Ctl x.id x.c x.w.selector (some st)) (hcur : x.c.current = some st)
    (hh : onWriteReady st = some handler) (hs : Stage st x.past) (hr : handler e fd x = .ok r) :
    Speaks x r ∨ r.2 = .proxy ∧ r.1.c.activeEnds.originWrite = true ∧
      Opened (bytesOf .replied r.1.past) := by
  cases st with
  | plainAuth | request | resolving | proxy | writeRemaining =>
    cases hh
    exact .inl (handleProxyWrite_speaks hcur hs hr)
  | connecting => cases hh; exact originCheckConnection_speaks (Connecting.ends hctl) hs hr
  | authMethod | done => cases hh

def replies : Story where
  live _ st _ h := Stage st h
  gone _ h := Spoken h
  current h := h
  born id fd n e k hn := ⟨rfl, rfl⟩
  read := by
    intro x e fd i m st handler r hctl hcur _ hh hr hq h
    have hpast : r.1.past = history x.id r.1.w.log := by rw [Ctx.past, hq.id_eq]
    rw [← hpast]
    exact (read_speaks hctl hcur hh h hr).stage
  write := by
    intro x e fd i m st handler r hctl hcur _ hh hr hq h
    have hpast : r.1.past = history x.id r.1.w.log := by rw [Ctx.past, hq.id_eq]
    rw [← hpast]
    rcases write_speaks hctl hcur hh h hr with hs | ⟨hst, -, hopen⟩
    · exact hs.stage
    · rw [hst]
      exact hopen
  resolved _ h := h
  block h := h
  resolving h := h.congr (by simp [bytesOf, Obs.flow]) (by simp [bytesOf, Obs.flow])
  done h := by
    have hgone := h.spoken
    exact ⟨by simpa [bytesOf, Obs.flow] using hgone.replies,
      by simpa [bytesOf, Obs.flow] using hgone.relayed⟩

/-! ## The step that reports success -/

section
variable {s s' : Server} {okw : Server → ClientId → Client → ℤ → Env → Prop} {id j : ClientId}
  {o : Outcome}

def Server.replied (s : Server) (id : ClientId) : List UInt8 :=
  bytesOf .replied (history id s.w.log)

/-- Either nothing changes for client `id`, or the success is reported to it on the
way to `PROXY`, for which there is a `reason`. -/
def Opens (reason : Prop) (s s' : Server) (id : ClientId) : Prop :=
  (Opened (s'.replied id) ↔ Opened (s.replied id)) ∨
  reason ∧ Opened (s'.replied id) ∧ ∃ c, s'.heap id = some c ∧ stmState c = .proxy

theorem Opens.of_log {reason : Prop} (h : history id s'.w.log = history id s.w.log) :
    Opens reason s s' id := by
  refine .inl ?_
  rw [Server.replied, h]
  rfl

theorem run_opens {handler : Ctx → Except Fault Outcome} {reason : Prop} (hc : s.heap j = some c)
    (hk : Kept ⟨j, c, s.w⟩ (handler ⟨j, c, s.w⟩))
    (hown : j = id → ∀ o, handler ⟨j, c, s.w⟩ = .ok o →
      (Opened (bytesOf .replied (history j o.w.log)) ↔ Opened (s.replied j)) ∨
      reason ∧ Opened (bytesOf .replied (history j o.w.log)) ∧
        ∃ c', o.c = some c' ∧ stmState c' = .proxy) :
    Opens reason s (s.run j handler) id := by
  by_cases hj : j = id
  · subst hj
    cases hr : handler ⟨j, c, s.w⟩ with
    | error f =>
      rw [run_error hc hr]
      exact .of_log rfl
    | ok o =>
      rw [run_ok hc hr]
      refine (hown rfl o hr).imp_right ?_
      rintro ⟨hreason, hopen, c', hc', hst⟩
      exact ⟨hreason, hopen, c', by dsimp only; rw [Function.update_self, hc'], hst⟩
  · exact .of_log (run_others hc hk (Ne.symm hj)).2

section
variable (hctl : Ctl x.id x.c x.w.selector x.c.current) {i m : FdInterest}
  (hheld : Held (.socks5 x.id) x.w.selector fd i m) (hs : Stage (stmState x.c) x.past)
include hctl hheld hs

theorem stmHandlerRead_opens (hi : i.read = true) (ho : stmHandlerRead e fd x = .ok o) :
    Opened (bytesOf .replied (history x.id o.w.log)) ↔ Opened (bytesOf .replied x.past) := by
  obtain ⟨hid, hw⟩ := handleFirst_same x
  obtain ⟨st, r, hh⟩ := stmHandlerRead_handling hctl hheld hi ho
  obtain ⟨handler, hready, hr⟩ := hh.result
  have hstage := Story.handleFirst_live (S := replies) hs hh.current
  have hsp := (read_speaks hh.ctl hh.current hready hstage hr).opened
  rw [jump_bytes hh.jump]
  rw [Ctx.past, Ctx.past, hh.quiet.id_eq, hid, hw] at hsp
  exact hsp

theorem stmHandlerWrite_opens (hi : i.write = true) (hcap : itemsMaxSize ≤ x.w.selector.fdSize)
    (ho : stmHandlerWrite e fd x = .ok o) :
    (Opened (bytesOf .replied (history x.id o.w.log)) ↔ Opened (bytesOf .replied x.past)) ∨
    Opened (bytesOf .replied (history x.id o.w.log)) ∧ ∃ c', o.c = some c' ∧
    stmState c' = .proxy := by
  obtain ⟨hid, hw⟩ := handleFirst_same x
  obtain ⟨st, r, hh⟩ := stmHandlerWrite_handling hctl hheld hi hcap ho
  obtain ⟨handler, hready, hr⟩ := hh.result
  have hstage := Story.handleFirst_live (S := replies) hs hh.current
  rw [jump_bytes hh.jump]
  rcases write_speaks hh.ctl hh.current hready hstage hr with hsp | ⟨hst, -, hopen⟩
  · have hop := hsp.opened
    rw [Ctx.past, Ctx.past, hh.quiet.id_eq, hid, hw] at hop
    exact .inl hop
  · rw [Ctx.past, hh.quiet.id_eq, hid] at hopen
    exact .inr ⟨hopen, _, jump_client hh.jump (by rw [hst]; decide), hst⟩

end

/-- Only a write event reports success. -/
theorem Move.opens (hinv : Inv s) (ht : replies.Told s) (hm : Move okw s s') (id : ClientId) :
    Opens (∃ c fd e, okw s id c fd e) s s' id := by
  cases hm with
  | background w hb => exact .of_log (by dsimp only; rw [hb.log])
  | nullHandler | stale | mgmtClose | resolved | drop => exact .of_log rfl
  | mgmtAccept w fd e hb hfd _ => exact .of_log (by dsimp only; rw [hb.log])
  | accept w fd e hb hfd =>
    refine .inl ?_
    have hacc : bytesOf .replied (Socks5d.history id [.accepted s.nextId w.nextSock]) = [] := by
      rw [history_singleton]
      split <;> rfl
    simp only [Server.replied, acceptWorld, history_append, bytesOf_append, hacc, List.append_nil,
      hb.log]
  | read j c fd i e hhit hi =>
    obtain ⟨m, hheld⟩ := hhit.held
    have hctl := hhit.ctl hinv
    refine run_opens hhit.heap (stmHandlerRead_kept (x := ⟨j, c, s.w⟩) hctl hheld hi) ?_
    intro _ o ho
    exact .inl (stmHandlerRead_opens (x := ⟨j, c, s.w⟩) hctl hheld (ht.live j c hhit.heap) hi ho)
  | write j c fd i e hhit hi hok =>
    obtain ⟨m, hheld⟩ := hhit.held
    have hctl := hhit.ctl hinv
    refine run_opens hhit.heap (stmHandlerWrite_kept (x := ⟨j, c, s.w⟩) hctl hheld hi hinv.cap) ?_
    rintro rfl o ho
    exact (stmHandlerWrite_opens (x := ⟨j, c, s.w⟩) hctl hheld (ht.live j c hhit.heap) hi hinv.cap
      ho).imp_right fun h => ⟨⟨c, fd, e, hok⟩, h⟩
  | block job jobs j c i _ hhit =>
    refine run_opens (s := { s with w := { s.w with resolutionJobs := jobs } }) hhit.heap
      (stmHandlerBlock_kept (x := ⟨j, c, _⟩) (hhit.ctl hinv)) ?_
    intro _ o ho
    obtain ⟨-, hj⟩ := stmHandlerBlock_cases ho
    refine .inl ?_
    rw [jump_bytes hj]
    rfl

/-- A success is reported in the event that enters `PROXY`. -/
theorem step_opens (hinv : Inv s) (ht : replies.Told s) (ev : Event) (id : ClientId) :
    Opens True s (step s ev) id := by
  obtain ⟨s₁, hm, hm'⟩ := step_halves hinv ev (along_anyWrite s [ev]).1
  have hread := (hm : Move (fun _ _ _ _ _ => False) s s₁).opens hinv ht id
  have hany : Move anyWrite s s₁ := hm
  have hwrite := hm'.opens (hinv.move hany) (ht.move hinv hany) id
  rcases hread with hread | ⟨⟨_, _, _, hno⟩, -⟩
  · rcases hwrite with hwrite | ⟨-, hopen⟩
    · exact .inl (hwrite.trans hread)
    · exact .inr ⟨trivial, hopen⟩
  · exact hno.elim

end

/-- The replies of a client follow the protocol, and success is reported exactly when
the relay begins, however the events of all clients interleave. -/
theorem reply_stream_follows_protocol (users : UserTable) (masters monitors : List ℤ)
    (evs : List Event) (id : ClientId) :
    let s := exec step (boot users masters monitors) evs
    ReplyStream (queued (history id s.w.log)) ∧
    (bytesOf .recvOrigin (history id s.w.log) ≠ [] → Opened (s.replied id)) ∧
    (∀ c, s.heap id = some c →
      bytesOf .sentClient (history id s.w.log) ++ bufferReadPtr c.clientBuf =
        queued (history id s.w.log)) ∧
    ∀ ev, Opened ((step s ev).replied id) → ¬ Opened (s.replied id) →
      (∀ c, s.heap id = some c → stmState c ≠ .proxy) ∧
      ∃ c, (step s ev).heap id = some c ∧ stmState c = .proxy := by
  intro s
  have hinv : Inv s := reachable_inv users masters monitors evs
  have htold : replies.Told s := replies.reachable users masters monitors evs
  have hspoken : Spoken (history id s.w.log) := by
    cases hc : s.heap id with
    | some c => exact (htold.live id c hc).spoken
    | none =>
      by_cases hlt : id < s.nextId
      · exact htold.gone id hlt hc
      · rw [(hinv.fresh id (Nat.le_of_not_lt hlt)).2]
        exact ⟨.nothing, .inl rfl⟩
  refine ⟨hspoken.stream, hspoken.relayed.resolve_left, ?_, ?_⟩
  · intro c hc
    exact ((intact.reachable users masters monitors evs).live id c hc).conserved.toClient
  · intro ev hafter hbefore
    refine ⟨?_, ?_⟩
    · intro c hc hst
      have hstage := htold.live id c hc
      rw [hst] at hstage
      exact hbefore hstage
    · rcases step_opens hinv htold ev id with hiff | ⟨-, -, hproxy⟩
      · exact absurd (hiff.mp hafter) hbefore
      · exact hproxy

end Socks5d

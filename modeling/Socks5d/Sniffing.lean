import Socks5d.Pipelining

/-! # What the POP3 sniffer sees

After every read the parser is shown all bytes that wait for the origin, and it stops
at the end of a password. It follows the stream of the client when each read finds
nothing waiting and no password ends before the last byte of the read. -/

namespace Socks5d
open EventRun

variable {x : Ctx} {e : Env} {fd : ℤ} {r : Ctx × Socks5State} {c : Client} {id : ClientId}
  {s s' : Server} {st : Socks5State} {o : Outcome} {p : Pop3Parser} {bs : List UInt8}

/-! ## The handlers of the relay -/

/-- The bytes that the parser of the client takes in `sniff`. -/
def Ctx.sniffing (x : Ctx) : List UInt8 :=
  match x.c.pop3Parser with
  | none => []
  | some p =>
    if !x.w.dissectorState then []
    else pop3Taken (x.c.originBuf.write - x.c.originBuf.read) { p with buf := x.c.originBuf }

/-- `handle_proxy_read` gets as far as the parser. -/
def Ctx.sniffs (x : Ctx) (e : Env) (fd : ℤ) : Bool :=
  x.c.clientSock = fd && bufferCanWrite x.c.originBuf && !x.eof e

/-- The bytes that the parser takes in `handle_proxy_read`. -/
def readSniffing (e : Env) (fd : ℤ) (x : Ctx) : List UInt8 :=
  if x.sniffs e fd then (x.readClient e).sniffing else []

/-- Nothing waits for the origin, and no password ends before the last byte of the read. -/
def FreshRead (e : Env) (fd : ℤ) (x : Ctx) : Prop :=
  x.sniffs e fd = true → bufferReadPtr x.c.originBuf = [] ∧
    ∀ p, x.c.pop3Parser = some p → Unfinished p (e.read.bytes (readSize x.c.originBuf))

/-- The client has a parser in the state of `q`. -/
def Hears (c : Client) (q : Pop3Parser) : Prop := ∃ p, c.pop3Parser = some p ∧ p.Alike q

/-- In the relay the parser has taken `bs` and these are the bytes that were read. -/
structure Heard (x : Ctx) (r : Ctx × Socks5State) (bs : List UInt8) : Prop where
  recv : bytesOf .recvClient r.1.past = bytesOf .recvClient x.past ++ bs
  parser : ∀ q, Hears x.c q → Listening q → Hears r.1.c (bs.foldl popFeed q)
  state : r.2 = stmState x.c ∨ r.2 = .done ∨ r.2 = .writeRemaining

theorem Pop3Parser.Alike.listening {p q : Pop3Parser} (h : p.Alike q) (hq : Listening q) :
    Listening p := by
  obtain ⟨buf, rfl⟩ := h
  exact ⟨hq.pass, hq.user⟩

/-- Nothing is read from the client and its parser is left alone. -/
theorem Heard.quiet {x' : Ctx} (hrecv : bytesOf .recvClient x'.past = bytesOf .recvClient x.past)
    (hp : x'.c.pop3Parser = x.c.pop3Parser) : Heard x (x', stmState x.c) [] := by
  refine ⟨by rw [hrecv, List.append_nil], ?_, .inl rfl⟩
  rintro q ⟨p, hpq, ha⟩ -
  exact ⟨p, hp.trans hpq, ha⟩

theorem Heard.close {x' : Ctx} {level : SocketEnds}
    (hrecv : bytesOf .recvClient x'.past = bytesOf .recvClient x.past)
    (hp : x'.c.pop3Parser = x.c.pop3Parser) (hst : stmState x'.c = stmState x.c) :
    Heard x (closeClient x' level) [] := by
  have hc := closeClient_closes x' level
  refine ⟨?_, ?_, ?_⟩
  · rw [(Idle.closes hc).bytes, hrecv, List.append_nil]
  · rintro q ⟨p, hpq, ha⟩ -
    refine ⟨p, ?_, ha⟩
    rw [hc.c_eq]
    exact hp.trans hpq
  · rw [← hst]
    exact closeClient_state x' level

theorem sniff_keeps_state {y : Ctx} (h : sniff x = .ok y) (hp : x.c.pop3Parser = some p)
    (hd : x.w.dissectorState = true) :
    y.c.pop3Parser = some (pop3Parse p x.c.originBuf).2 := by
  unfold sniff at h
  rw [hp] at h
  simp only [hd, Bool.not_true, Bool.false_eq_true, ↓reduceIte] at h
  split at h
  · split at h
    · cases h
    · rw [← Except.ok.inj h]
      rfl
  · rw [← Except.ok.inj h]
    rfl

/-- The read that the parser follows. -/
theorem sniff_heard {y : Ctx} (hparser : x.c.pop3Parser = some p) (hd : x.w.dissectorState = true)
 (hs : x.sniffs e fd = true) (hok : FreshRead e fd x)
    (sel : FdSelector Handler × SelectorStatus)
    (h : sniff ((x.readClient e).sel sel) = .ok y) : Heard x (y, stmState x.c)
    (readSniffing e fd x) := by
  generalize hnew : e.read.bytes (readSize x.c.originBuf) = new
  obtain ⟨hempty, hun⟩ := hok hs
  replace hun := hun p hparser
  rw [hnew] at hun
  have hbuf : bufferReadPtr (x.readClient e).c.originBuf = new := by
    rw [← hnew, ← Ctx.held, x.held_eq, hempty, List.nil_append]
  have htaken : readSniffing e fd x = new := by
    have hspec :=
      (pop3Consume_spec _ (p.setBuf (x.readClient e).c.originBuf) bufferReadPtr_length).1
    rw [show bufferReadPtr (p.setBuf (x.readClient e).c.originBuf).buf = new from hbuf,
      popPrefix_setBuf, popPrefix_eq_iff.mpr hun] at hspec
    unfold readSniffing Ctx.sniffing
    rw [if_pos hs, show (x.readClient e).c.pop3Parser = some p from hparser]
    dsimp only
    rw [if_neg (by rw [show (x.readClient e).w.dissectorState = true from hd]; decide)]
    exact hspec
  obtain ⟨p', rfl⟩ := sniff_ok h
  refine ⟨?_, ?_, .inl rfl⟩
  · have hi : Idle (x.readClient e) (((x.readClient e).sel sel).setParser p') :=
      .of_eq rfl rfl rfl rfl
    rw [hi.bytes, (readClient_moves x e).bytes, if_pos rfl, htaken, hnew]
  · rintro q' ⟨q'', hpq, ha⟩ hl'
    obtain rfl : p = q'' := Option.some.inj (hparser.symm.trans hpq)
    refine ⟨_, sniff_keeps_state h (by exact hparser) (by exact hd), ?_⟩
    rw [htaken]
    exact (pop3Parse_alike hbuf (ha.listening hl').pass hun).trans (ha.feed new)

theorem handleProxyRead_heard (hparser : x.c.pop3Parser = some p) (hd : x.w.dissectorState = true)
    (hok : FreshRead e fd x) (hr : handleProxyRead e fd x = .ok r) :
    Heard x r (readSniffing e fd x) := by
  have hnone : x.sniffs e fd = false → readSniffing e fd x = [] := by
    intro hs
    unfold readSniffing
    rw [hs]
    rfl
  unfold handleProxyRead at hr
  dsimp only at hr
  split_ifs at hr with hc hfull heof ho hfull heof
  · cases hr
    rw [hnone (by simp_all [Ctx.sniffs])]
    exact .quiet rfl rfl
  · cases hr
    have heof' : x.eof e = true := heof
    rw [hnone (by simp [Ctx.sniffs, heof'])]
    refine .close ?_ rfl rfl
    -- the read that ends the upload brings nothing
    have hnil : e.read.bytes (readSize x.c.originBuf) = [] := by
      rcases (eof_iff x e).mp heof' with hread | hread | ⟨-, hroom⟩
      · rw [hread]
        exact List.take_nil
      · rw [hread]
        rfl
      · simp [hroom] at hfull
    rw [(readClient_moves x e).bytes, hnil, ite_self, List.append_nil]
  · split at hr
    · cases hr
    · rename_i y hs
      cases hr
      have heof' : x.eof e = false := Bool.not_eq_true _ ▸ heof
      have hsniffs : x.sniffs e fd = true := by simp_all [Ctx.sniffs]
      have hheard := sniff_heard hparser hd hsniffs hok _ hs
      obtain ⟨p', rfl⟩ := sniff_ok hs
      exact hheard
  · cases hr
    rw [hnone (by simp [Ctx.sniffs, hc])]
    exact .quiet rfl rfl
  · cases hr
    rw [hnone (by simp [Ctx.sniffs, hc])]
    refine .close ?_ rfl rfl
    rw [(readOrigin_moves x e).bytes, if_neg (by decide), List.append_nil]
  · cases hr
    rw [hnone (by simp [Ctx.sniffs, hc])]
    -- a parser is only installed where there is none
    have hinst : ∀ y : Ctx, y.c.pop3Parser = some p → installParser e y = y := by
      intro y hy
      unfold installParser
      simp [hy]
    rw [hinst _ (by exact hparser)]
    refine .quiet ?_ rfl
    have hi : ∀ sel, Idle (x.readOrigin e) ((x.readOrigin e).sel sel) :=
      fun _ => .of_eq rfl rfl rfl rfl
    rw [(hi _).bytes, (readOrigin_moves x e).bytes, if_neg (by decide), List.append_nil]

theorem handleProxyWrite_heard (hr : handleProxyWrite e fd x = .ok r) : Heard x r [] := by
  have hclient : bytesOf .recvClient (x.writeClient e).past = bytesOf .recvClient x.past := by
    rw [(writeClient_moves x e).bytes, if_neg (by decide), List.append_nil]
  have horigin : bytesOf .recvClient (x.writeOrigin e).past = bytesOf .recvClient x.past := by
    rw [(writeOrigin_moves x e).bytes, if_neg (by decide), List.append_nil]
  rcases handleProxyWrite_cases hr with
    ⟨-, ⟨-, -, -, rfl⟩ | ⟨-, -, rfl⟩ | ⟨-, -, rfl⟩ | ⟨n, -, rfl⟩⟩ |
    ⟨-, -, ⟨-, -, rfl⟩ | ⟨-, -, rfl⟩ | ⟨-, -, rfl⟩ | ⟨n, -, rfl⟩⟩
  · exact .close rfl rfl rfl
  · exact .quiet rfl rfl
  · exact .close hclient rfl rfl
  · exact .quiet hclient rfl
  · exact .close rfl rfl rfl
  · exact .quiet rfl rfl
  · exact .close horigin rfl rfl
  · exact .quiet horigin rfl

/-! ## Events -/

/-- The read half of the event for descriptor `i` runs `handle_proxy_read` for `c`. -/
def ProxyRead (s : Server) (i : ℕ) (r : Bool) (id : ClientId) (c : Client) : Prop :=
  s.halted.isNone = true ∧ itemUsed (s.w.selector.fds i) = true ∧ r = true ∧
    (s.w.selector.fds i).interest.read = true ∧ (s.w.selector.fds i).data = some (.socks5 id) ∧
    stmState c = .proxy

instance (s : Server) (i : ℕ) (r : Bool) (id : ClientId) (c : Client) :
    Decidable (ProxyRead s i r id c) := inferInstanceAs (Decidable (_ ∧ _))

/-- The bytes that the parser of client `id` takes in an event. Nothing is counted, nor
recorded as read, when the process dies in it. -/
def sniffedIn (id : ClientId) (s : Server) : Event → List UInt8
  | .dispatch i r _ er _ =>
    match s.heap id with
    | none => []
    | some c =>
      if ProxyRead s i r id c then
        match stmHandlerRead er (s.w.selector.fds i).fd ⟨id, c, s.w⟩ with
        | .error _ => []
        | .ok _ => readSniffing er (s.w.selector.fds i).fd ⟨id, c, s.w⟩
      else []
  | _ => []

/-- The bytes that the parser of client `id` takes in a run. -/
def sniffedBytes (id : ClientId) (s : Server) : List Event → List UInt8
  | [] => []
  | ev :: evs => sniffedIn id s ev ++ sniffedBytes id (step s ev) evs

/-- Every read of client `id` is one that its parser follows. -/
def Fresh (id : ClientId) (s : Server) : Event → Prop
  | .dispatch i r _ er _ => ∀ c, s.heap id = some c → ProxyRead s i r id c →
    FreshRead er (s.w.selector.fds i).fd ⟨id, c, s.w⟩
  | _ => True

def DissectorOn (s : Server) (_ : Event) : Prop := s.w.dissectorState = true

/-- Client `id` relays with a parser in the state of `q`, or is on its way out. -/
structure Sniffer (id : ClientId) (q : Pop3Parser) (s : Server) : Prop where
  known : id < s.nextId
  live : ∀ c, s.heap id = some c → stmState c = .proxy ∧ Hears c q ∨ stmState c = .writeRemaining

/-- From `s` to `s'` the parser has taken `bs`, and these bytes were read. -/
structure Tracks (id : ClientId) (q : Pop3Parser) (bs : List UInt8) (s s' : Server) : Prop where
  recv : bytesOf .recvClient (history id s'.w.log) = bytesOf .recvClient (history id s.w.log) ++ bs
  sniffer : Sniffer id (bs.foldl popFeed q) s'

/-- Nothing happens to client `id`, except that its resolver may end. -/
structure Untouched (id : ClientId) (s s' : Server) : Prop where
  next : s.nextId ≤ s'.nextId
  log : history id s'.w.log = history id s.w.log
  heap : ∀ c', s'.heap id = some c' →
    ∃ c, s.heap id = some c ∧ c'.current = c.current ∧ c'.pop3Parser = c.pop3Parser

variable {q : Pop3Parser}

theorem Untouched.tracks (h : Untouched id s s') (hs : Sniffer id q s) : Tracks id q [] s s' := by
  refine ⟨by rw [h.log, List.append_nil], Nat.lt_of_lt_of_le hs.known h.next, ?_⟩
  intro c' hc'
  obtain ⟨c, hc, hcur, hp⟩ := h.heap c' hc'
  unfold stmState Hears
  rw [hcur, hp]
  exact hs.live c hc

theorem Untouched.of_eq (hnext : s.nextId ≤ s'.nextId)
    (hlog : history id s'.w.log = history id s.w.log)
    (hheap : s'.heap id = s.heap id) : Untouched id s s' :=
  ⟨hnext, hlog, fun c' hc' => ⟨c', hheap ▸ hc', rfl, rfl⟩⟩

theorem Tracks.trans {s'' : Server} {bs bs' : List UInt8} (h : Tracks id q bs s s')
    (h' : Tracks id (bs.foldl popFeed q) bs' s' s'') : Tracks id q (bs ++ bs') s s'' :=
  ⟨by rw [h'.recv, h.recv, List.append_assoc], by rw [List.foldl_append]; exact h'.sniffer⟩

theorem handleFirst_relay (h : stmState x.c ≠ .authMethod) : handleFirst x = x := by
  rcases handleFirst_cases x with ⟨hnone, -⟩ | ⟨-, hx⟩
  · rw [stmState, hnone] at h
    exact absurd rfl h
  · exact hx

/-- The event of the client itself. -/
theorem Sniffer.run {handler : Ctx → Except Fault Outcome} {bs : List UInt8} (hs : Sniffer id q s)
    (hl : Listening q) (hc : s.heap id = some c)
    (hown : ∀ o, handler ⟨id, c, s.w⟩ = .ok o →
      ∃ r, Next r ∧ jump r = .ok o ∧ r.1.id = id ∧ Heard ⟨id, c, s.w⟩ r bs)
    (herr : ∀ f, handler ⟨id, c, s.w⟩ = .error f → bs = []) :
    Tracks id q bs s (s.run id handler) := by
  cases hr : handler ⟨id, c, s.w⟩ with
  | error f =>
    rw [run_error hc hr, herr f hr]
    have hun : Untouched id s (s.fault f) := .of_eq (Nat.le_refl _) rfl rfl
    exact hun.tracks hs
  | ok o =>
    obtain ⟨r, hnext, hj, hid, hheard⟩ := hown o hr
    rw [run_ok hc hr]
    refine ⟨?_, hs.known, ?_⟩
    · have hrecv := hheard.recv
      rw [Ctx.past, hid] at hrecv
      dsimp only
      rw [jump_bytes hj]
      exact hrecv
    · intro c' hc'
      dsimp only at hc'
      rw [Function.update_self] at hc'
      by_cases hdone : r.2 = .done
      · rw [jump_gone hnext hj hdone] at hc'
        cases hc'
      · rw [jump_client hj hdone, Option.some.injEq] at hc'
        subst hc'
        rcases hheard.state with hst | hst | hst
        · rcases hs.live c hc with ⟨hproxy, hears⟩ | hwr
          · exact .inl ⟨hst.trans hproxy, hheard.parser q hears hl⟩
          · exact .inr (hst.trans hwr)
        · exact absurd hst hdone
        · exact .inr hst

theorem Sniffer.write {i : FdInterest} (hinv : Inv s) (hs : Sniffer id q s) (hl : Listening q)
    (hhit : Hit s id c fd i) (hi : i.write = true) :
    Tracks id q [] s (s.run id (stmHandlerWrite e fd)) := by
  have hstate := hs.live c hhit.heap
  have hfirst : handleFirst ⟨id, c, s.w⟩ = ⟨id, c, s.w⟩ := by
    apply handleFirst_relay
    rcases hstate with ⟨hst, -⟩ | hst
    · rw [hst]
      decide
    · rw [hst]
      decide
  obtain ⟨m, hheld⟩ := hhit.held
  refine hs.run hl hhit.heap ?_ fun _ _ => rfl
  intro o ho
  obtain ⟨st, r, hh⟩ := stmHandlerWrite_handling (x := ⟨id, c, s.w⟩) (hhit.ctl hinv) hheld hi
    hinv.cap ho
  obtain ⟨handler, hready, hr⟩ := hh.result
  have hid : r.1.id = id := hh.quiet.id_eq.trans (handleFirst_same _).1
  have hcur := stmState_of_current hh.current
  rw [hfirst] at hcur hr
  refine ⟨r, hh.next, hh.jump, hid, ?_⟩
  rcases hstate with ⟨hst, -⟩ | hst
  · obtain rfl : .proxy = st := hst.symm.trans hcur
    cases hready
    exact handleProxyWrite_heard hr
  · obtain rfl : .writeRemaining = st := hst.symm.trans hcur
    cases hready
    exact handleProxyWrite_heard hr

theorem Sniffer.read {i : FdInterest} (hinv : Inv s) (hs : Sniffer id q s) (hl : Listening q)
    (hhit : Hit s id c fd i) (hi : i.read = true) (hst : stmState c = .proxy)
    (hd : s.w.dissectorState = true) (hok : FreshRead e fd ⟨id, c, s.w⟩) :
    Tracks id q (match stmHandlerRead e fd ⟨id, c, s.w⟩ with
      | .error _ => []
      | .ok _ => readSniffing e fd ⟨id, c, s.w⟩) s (s.run id (stmHandlerRead e fd)) := by
  have hfirst : handleFirst ⟨id, c, s.w⟩ = ⟨id, c, s.w⟩ :=
    handleFirst_relay (x := ⟨id, c, s.w⟩) (by rw [hst]; decide)
  obtain ⟨m, hheld⟩ := hhit.held
  refine hs.run hl hhit.heap ?_ ?_
  · intro o ho
    obtain ⟨st, r, hh⟩ := stmHandlerRead_handling (x := ⟨id, c, s.w⟩) (hhit.ctl hinv) hheld hi ho
    obtain ⟨handler, hready, hr⟩ := hh.result
    have hid : r.1.id = id := hh.quiet.id_eq.trans (handleFirst_same _).1
    have hcur := stmState_of_current hh.current
    rw [hfirst] at hcur hr
    obtain rfl : .proxy = st := hst.symm.trans hcur
    cases hready
    rw [ho]
    rcases hs.live c hhit.heap with ⟨-, p, hp, -⟩ | hwr
    · exact ⟨r, hh.next, hh.jump, hid, handleProxyRead_heard hp hd hok hr⟩
    · rw [hst] at hwr
      cases hwr
  · intro f hf
    rw [hf]

/-- No read event is served while the client is drained. -/
theorem Sniffer.read_drained {i : FdInterest} (hinv : Inv s) (hs : Sniffer id q s)
    (hl : Listening q) (hhit : Hit s id c fd i)
    (hi : i.read = true) (hst : stmState c = .writeRemaining) :
    Tracks id q [] s (s.run id (stmHandlerRead e fd)) := by
  have hfirst : handleFirst ⟨id, c, s.w⟩ = ⟨id, c, s.w⟩ :=
    handleFirst_relay (x := ⟨id, c, s.w⟩) (by rw [hst]; decide)
  obtain ⟨m, hheld⟩ := hhit.held
  refine hs.run hl hhit.heap ?_ fun _ _ => rfl
  intro o ho
  obtain ⟨st, r, hh⟩ := stmHandlerRead_handling (x := ⟨id, c, s.w⟩) (hhit.ctl hinv) hheld hi ho
  obtain ⟨handler, hready, -⟩ := hh.result
  have hcur := stmState_of_current hh.current
  rw [hfirst] at hcur
  obtain rfl : .writeRemaining = st := hst.symm.trans hcur
  cases hready

theorem Sniffer.block {w : World} (hs : Sniffer id q s) (hlog : w.log = s.w.log)
    (hc : s.heap id = some c) :
    Tracks id q [] s (({ s with w := w } : Server).run id stmHandlerBlock) := by
  have herr : ∀ o, stmHandlerBlock ⟨id, c, w⟩ ≠ .ok o := by
    intro o ho
    obtain ⟨hcur, -⟩ := stmHandlerBlock_cases ho
    have hres : stmState c = .resolving := stmState_of_current hcur
    rcases hs.live c hc with ⟨hst, -⟩ | hst
    · rw [hst] at hres
      cases hres
    · rw [hst] at hres
      cases hres
  have hun : Untouched id s (({ s with w := w } : Server).run id stmHandlerBlock) := by
    cases hr : stmHandlerBlock ⟨id, c, w⟩ with
    | ok o => exact absurd hr (herr o)
    | error f =>
      rw [run_error (s := { s with w := w }) hc hr]
      exact .of_eq (Nat.le_refl _) (by rw [← hlog]; rfl) rfl
  exact hun.tracks hs

theorem masterReadHandler_untouched (hknown : id < s.nextId) (e : Env) :
    Untouched id s (masterReadHandler e s) := by
  rcases masterReadHandler_cases e s with ⟨-, heq⟩ | ⟨w, hw, ⟨-, heq⟩ | ⟨fd, -, -, heq⟩⟩
  · rw [heq]
    exact .of_eq (Nat.le_refl _) rfl rfl
  · have hlog := (addProxyClient_background hw).log
    rw [heq]
    exact .of_eq (Nat.le_refl _) (by rw [← hlog]; rfl) rfl
  · have hlog := (addProxyClient_background hw).log
    have hne : id ≠ s.nextId := Nat.ne_of_lt hknown
    have hne' : ¬ s.nextId = id := Ne.symm hne
    rw [heq]
    refine .of_eq (Nat.le_succ _) ?_ (Function.update_of_ne hne _ _)
    simp only [acceptWorld, history_append, history_singleton, Obs.owner, hne', ↓reduceIte,
      List.append_nil, hlog]

theorem mgmtMasterReadHandler_untouched (e : Env) (s : Server) :
    Untouched id s (mgmtMasterReadHandler e s) := by
  rcases mgmtMasterReadHandler_cases e s with
    ⟨-, heq⟩ | ⟨w, hw, ⟨-, heq⟩ | ⟨fd, -, ⟨-, heq⟩ | ⟨-, -, heq⟩⟩⟩
  · rw [heq]
    exact .of_eq (Nat.le_refl _) rfl rfl
  all_goals
    have hlog := (addMgmtClient_background hw).log
    rw [heq]
    exact .of_eq (Nat.le_refl _) (congrArg _ hlog) rfl

theorem run_untouched {j : ClientId} {cj : Client} {handler : Ctx → Except Fault Outcome}
    (hj : s.heap j = some cj) (hk : Kept ⟨j, cj, s.w⟩ (handler ⟨j, cj, s.w⟩)) (hne : id ≠ j) :
    Untouched id s (s.run j handler) := by
  obtain ⟨hheap, hlog⟩ := run_others hj hk hne
  refine .of_eq ?_ hlog hheap
  cases hr : handler ⟨j, cj, s.w⟩ with
  | error f =>
    exact Nat.le_of_eq (congrArg Server.nextId (run_error hj hr)).symm
  | ok o => exact Nat.le_of_eq (congrArg Server.nextId (run_ok hj hr)).symm

theorem sniffedIn_idle {i : ℕ} {b w : Bool} {er ew : Env}
    (h : ∀ c, s.heap id = some c → ¬ ProxyRead s i b id c) :
    sniffedIn id s (.dispatch i b w er ew) = [] := by
  unfold sniffedIn
  cases hc : s.heap id with
  | none => rfl
  | some c => exact if_neg (h c hc)

section
variable (hinv : Inv s) (hs : Sniffer id q s) (hl : Listening q)
include hinv hs hl

theorem Sniffer.readHalf {i : ℕ} {b w : Bool} {er ew : Env}
    (hu : itemUsed (s.w.selector.fds i) = true) (hrun : s.halted = none)
    (hd : s.w.dissectorState = true) (hok : Fresh id s (.dispatch i b w er ew)) :
    Tracks id q (sniffedIn id s (.dispatch i b w er ew)) s (Socks5d.readHalf i b er s) := by
  by_cases hp : ∃ c, s.heap id = some c ∧ ProxyRead s i b id c
  · obtain ⟨c, hc, hp⟩ := hp
    have hsn : sniffedIn id s (.dispatch i b w er ew) =
        match stmHandlerRead er (s.w.selector.fds i).fd ⟨id, c, s.w⟩ with
        | .error _ => []
        | .ok _ => readSniffing er (s.w.selector.fds i).fd ⟨id, c, s.w⟩ := by
      simp only [sniffedIn, hc, hp, ↓reduceIte]
    have hp' := hp
    obtain ⟨-, -, hb, hread, hdata, hst⟩ := hp'
    obtain ⟨hit, -⟩ := hinv.selector.item?_of_used hu
    obtain ⟨c', hhit⟩ := hinv.hit hit hdata
    obtain rfl : c' = c := Option.some.inj (hhit.heap.symm.trans hc)
    have hhalf :
        Socks5d.readHalf i b er s = s.run id (stmHandlerRead er (s.w.selector.fds i).fd) := by
      unfold Socks5d.readHalf
      simp only [hb, hread, Bool.and_self, ↓reduceIte, handleRead, hdata]
    rw [hsn, hhalf]
    exact hs.read hinv hl hhit hread hst hd (hok c' hc hp)
  · have hsn : sniffedIn id s (.dispatch i b w er ew) = [] :=
      sniffedIn_idle fun c hc hpr => hp ⟨c, hc, hpr⟩
    have hun : Untouched id s s := .of_eq (Nat.le_refl _) rfl rfl
    rw [hsn]
    by_cases hb : b = true
    swap
    · have hhalf : Socks5d.readHalf i b er s = s := by simp [Socks5d.readHalf, hb]
      rw [hhalf]
      exact hun.tracks hs
    rcases readHalf_cases hinv hu b er with heq | heq | ⟨-, heq, -⟩ | ⟨-, heq, -⟩ |
      ⟨j, c, hdata, hhit, hi, heq⟩
    · rw [heq]
      exact hun.tracks hs
    · rw [heq]
      exact Untouched.tracks ⟨hun.next, hun.log, hun.heap⟩ hs
    · rw [heq]
      exact (masterReadHandler_untouched hs.known er).tracks hs
    · rw [heq]
      exact (mgmtMasterReadHandler_untouched er s).tracks hs
    · rw [heq]
      by_cases hj : id = j
      · subst hj
        rcases hs.live c hhit.heap with ⟨hst, -⟩ | hst
        · exact absurd ⟨c, hhit.heap, by simpa using hrun, hu, hb, hi, hdata, hst⟩ hp
        · exact hs.read_drained hinv hl hhit hi hst
      · obtain ⟨m, hheld⟩ := hhit.held
        exact (run_untouched hhit.heap
          (stmHandlerRead_kept (x := ⟨j, c, s.w⟩) (hhit.ctl hinv) hheld hi) hj).tracks hs

end

/-- The write half leaves the parser alone. -/
theorem Sniffer.writeHalf {i : ℕ} {b : Bool} {er : Env} (hinv : Inv s)
    (hu : itemUsed (s.w.selector.fds i) = true) (w : Bool) (ew : Env)
    (hs : Sniffer id q (Socks5d.readHalf i b er s)) (hl : Listening q) :
    Tracks id q [] (Socks5d.readHalf i b er s)
      (Socks5d.writeHalf i (s.w.selector.fds i).fd (s.w.selector.fds i).data w ew
        (Socks5d.readHalf i b er s)) := by
  have hmove : Move anyWrite s (Socks5d.readHalf i b er s) := readHalf_move hinv hu b er
  have hinv' := hinv.move hmove
  rcases writeHalf_cases hinv hu b w er ew with heq | heq | ⟨j, c, -, -, -, hhit, hi, heq⟩
  · rw [heq]
    exact Untouched.tracks (.of_eq (Nat.le_refl _) rfl rfl) hs
  · rw [heq]
    exact Untouched.tracks (.of_eq (Nat.le_refl _) rfl rfl) hs
  · rw [heq]
    by_cases hj : id = j
    · subst hj
      exact hs.write hinv' hl hhit hi
    · obtain ⟨m, hheld⟩ := hhit.held
      exact (run_untouched hhit.heap
        (stmHandlerWrite_kept (x := ⟨j, c, _⟩) (hhit.ctl hinv') hheld hi
        hinv'.cap) hj).tracks hs

theorem Sniffer.step {ev : Event} (hinv : Inv s) (hs : Sniffer id q s) (hl : Listening q)
    (hd : s.w.dissectorState = true) (hok : Fresh id s ev) :
    Tracks id q (sniffedIn id s ev) s (Socks5d.step s ev) := by
  have hun : Untouched id s s := .of_eq (Nat.le_refl _) rfl rfl
  unfold Socks5d.step
  split
  · rename_i hhalt
    have hsn : sniffedIn id s ev = [] := by
      cases ev with
      | dispatch i b w er ew =>
        refine sniffedIn_idle fun c _ hp => ?_
        rw [Option.isNone_iff_eq_none.mp hp.1] at hhalt
        cases hhalt
      | _ => rfl
    rw [hsn]
    exact hun.tracks hs
  rename_i hhalt
  have hrun : s.halted = none := by simpa using hhalt
  cases ev with
  | dispatch i b w er ew =>
    dsimp only
    unfold dispatch
    dsimp only
    split
    · rename_i hu
      rw [sniffedIn_idle fun c _ hp => by simp [hp.2.1] at hu]
      exact hun.tracks hs
    · rename_i hu
      have hu' : itemUsed (s.w.selector.fds i) = true := by simpa using hu
      have hread := hs.readHalf hinv hl hu' hrun hd hok
      have hwrite := Sniffer.writeHalf hinv hu' w ew hread.sniffer (hl.foldl _)
      have hboth := hread.trans hwrite
      rw [List.append_nil] at hboth
      exact hboth
  | resolved j addrs =>
    dsimp only
    unfold threadNameResolution
    split
    · exact hun.tracks hs
    split
    · exact Untouched.tracks (.of_eq (Nat.le_refl _) rfl rfl) hs
    · rename_i c hc
      refine Untouched.tracks ⟨Nat.le_refl _, rfl, ?_⟩ hs
      intro c' hc'
      by_cases hj : id = j
      · subst hj
        simp only [Function.update_self, Option.some.injEq] at hc'
        subst hc'
        exact ⟨c, hc, rfl, rfl⟩
      · simp only [Function.update_of_ne hj] at hc'
        exact ⟨c', hc', rfl, rfl⟩
  | notify =>
    dsimp only
    unfold handleBlockNotifications
    split
    · exact hun.tracks hs
    rename_i j jobs hj
    dsimp only
    split
    · exact Untouched.tracks (.of_eq (Nat.le_refl _) rfl rfl) hs
    rename_i it hit
    split
    · rename_i k hdata
      obtain ⟨c, hhit⟩ := hinv.hit hit hdata
      by_cases hk : id = k
      · subst hk
        exact hs.block rfl hhit.heap
      · have hrest :
            Untouched id ({ s with w := { s.w with resolutionJobs := jobs } } : Server) _ :=
          run_untouched (s := { s with w := { s.w with resolutionJobs := jobs } }) hhit.heap
            (stmHandlerBlock_kept (x := ⟨k, c, _⟩) (hhit.ctl hinv)) hk
        exact Untouched.tracks ⟨hrest.next, hrest.log, hrest.heap⟩ hs
    · exact Untouched.tracks (.of_eq (Nat.le_refl _) rfl rfl) hs
  | addUser userpass => exact Untouched.tracks (.of_eq (Nat.le_refl _) rfl rfl) hs
  | setBuffsize size =>
    dsimp only
    split
    · exact Untouched.tracks (.of_eq (Nat.le_refl _) rfl rfl) hs
    · exact hun.tracks hs
  | setDissector state => exact Untouched.tracks (.of_eq (Nat.le_refl _) rfl rfl) hs
  | mgmtClose fd =>
    dsimp only
    unfold mgmtClose
    split
    · split
      · exact Untouched.tracks (.of_eq (Nat.le_refl _) rfl rfl) hs
      · exact hun.tracks hs
    · exact hun.tracks hs

/-! ## Runs -/

theorem Sniffer.exec {evs : List Event} (hinv : Inv s) (hs : Sniffer id q s) (hl : Listening q)
    (hd : Along Socks5d.step DissectorOn s evs) (hok : Along Socks5d.step (Fresh id) s evs) :
    Tracks id q (sniffedBytes id s evs) s (EventRun.exec Socks5d.step s evs) := by
  induction evs generalizing s q with
  | nil => exact Untouched.tracks (.of_eq (Nat.le_refl _) rfl rfl) hs
  | cons ev evs ih =>
    obtain ⟨s₁, hm, hm'⟩ := step_moves hinv ev (along_anyWrite s [ev]).1
    have hinv' := (hinv.move hm).move hm'
    have hstep := hs.step hinv hl hd.1 hok.1
    exact hstep.trans (ih hinv' hstep.sniffer (hl.foldl _) hd.2 hok.2)

/-- From the moment a parser is installed, it has taken exactly the bytes that were read
from the client, and its state is a function of these bytes. -/
theorem sniffer_takes_each_byte_once (users : UserTable) (masters monitors : List ℤ)
    (evs evs' : List Event) (id : ClientId) (c : Client)
    (hc : (exec step (boot users masters monitors) evs).heap id = some c)
    (hst : stmState c = .proxy) (hp : c.pop3Parser = some newParser)
    (hd : Along step DissectorOn (exec step (boot users masters monitors) evs) evs')
    (hok : Along step (Fresh id) (exec step (boot users masters monitors) evs) evs') :
    let s := exec step (boot users masters monitors) evs
    let s' := exec step s evs'
    bytesOf .recvClient (history id s'.w.log) =
      bytesOf .recvClient (history id s.w.log) ++ sniffedBytes id s evs' ∧
    ∀ c', s'.heap id = some c' → stmState c' = .proxy →
      Hears c' ((sniffedBytes id s evs').foldl popFeed newParser) := by
  intro s s'
  have hinv : Inv s := reachable_inv users masters monitors evs
  have hs : Sniffer id newParser s := by
    refine ⟨?_, ?_⟩
    · by_contra hlt
      rw [(hinv.fresh id (Nat.le_of_not_lt hlt)).1] at hc
      cases hc
    · intro c' hc'
      obtain rfl : c = c' := Option.some.inj (hc.symm.trans hc')
      exact .inl ⟨hst, newParser, hp, newParser.buf, rfl⟩
  have htracks := hs.exec hinv newParser_listening hd hok
  refine ⟨htracks.recv, ?_⟩
  intro c' hc' hst'
  rcases htracks.sniffer.live c' hc' with ⟨-, hears⟩ | hwr
  · exact hears
  · rw [hst'] at hwr
    cases hwr

/-- A test that is enough for `Fresh`. -/
def freshTest (id : ClientId) (s : Server) : Event → Bool
  | .dispatch i _ _ er _ => (s.heap id).all fun c =>
    let new := er.read.bytes (readSize c.originBuf)
    !Ctx.sniffs ⟨id, c, s.w⟩ er (s.w.selector.fds i).fd || (bufferReadPtr c.originBuf).isEmpty &&
      c.pop3Parser.all fun p => popPrefix p new = new
  | _ => true

theorem freshTest_fresh {ev : Event} (h : freshTest id s ev = true) : Fresh id s ev := by
  cases ev with
  | dispatch i b w er ew =>
    intro c hc _ hs
    simp only [freshTest, hc, Option.all_some, hs, Bool.not_true, Bool.false_or, Bool.and_eq_true,
      List.isEmpty_iff] at h
    refine ⟨h.1, fun p hp => popPrefix_eq_iff.mp ?_⟩
    replace h := h.2
    rw [hp, Option.all_some, decide_eq_true_eq] at h
    exact h
  | _ => trivial

/-- CONNECT to 127.0.0.1, port 110. -/
def pop3Request : List UInt8 := [0x5, 0x1, 0x0, 0x1, 127, 0, 0, 1, 0, 110]

/-- The client on descriptor 3 starts to relay to a POP3 server. -/
def joinPop3 : List Event :=
  greet 3 ++ [readable 3 (.fine pop3Request 3), writable 3 (.fine [] 4), writable 4 (.fine [] 4)]

/-- `USER a` and a line feed, in two reads; the first part is sent before the second
is read. -/
theorem sniffer_takes_user_once :
    let s := exec step (boot [] [] []) joinPop3
    let evs := [readable 3 (.fine [0x55, 0x53] 5), writable 4 (.fine [] 5),
      readable 3 (.fine [0x45, 0x52, 0x20, 0x61, 0x0a] 5)]
    sniffedBytes 0 s evs = [0x55, 0x53, 0x45, 0x52, 0x20, 0x61, 0x0a] ∧
      bytesOf .recvClient (history 0 (exec step s evs).w.log) =
        bytesOf .recvClient (history 0 s.w.log) ++ sniffedBytes 0 s evs := by
  intro s evs
  have hparser : ((exec step (boot [] [] []) joinPop3).heap 0).map
      (fun c => (stmState c, c.pop3Parser)) = some (.proxy, some newParser) := rfl
  obtain ⟨c, hc, hst⟩ := Option.map_eq_some_iff.mp hparser
  rw [Prod.mk.injEq] at hst
  have hdis : Along step (fun s _ => s.w.dissectorState = true) s evs := by decide +kernel
  have htest : Along step (fun s ev => freshTest 0 s ev = true) s evs := by decide +kernel
  have hd : Along step DissectorOn s evs := along_mono (fun _ _ h => h) hdis
  have hok : Along step (Fresh 0) s evs := along_mono (fun _ _ => freshTest_fresh) htest
  have honce := sniffer_takes_each_byte_once [] [] [] joinPop3 evs 0 c hc hst.1 hst.2 hd hok
  refine ⟨by decide +kernel, ?_⟩
  dsimp only [s] at honce ⊢
  exact honce.1

/-- The same two reads, but the first part still waits for the origin when the second
is read: the parser takes it twice. -/
theorem sniffer_takes_unsent_bytes_twice :
    let s := exec step (boot [] [] []) joinPop3
    let evs :=
  [readable 3 (.fine [0x55, 0x53] 5), readable 3 (.fine [0x45, 0x52, 0x20, 0x61, 0x0a] 5)]
    (s.heap 0).map (fun c => (stmState c, c.pop3Parser.isSome)) = some (.proxy, true) ∧
      Along step (fun s _ => s.w.dissectorState = true) s evs ∧
      sniffedBytes 0 s evs = [0x55, 0x53, 0x55, 0x53, 0x45, 0x52, 0x20, 0x61, 0x0a] ∧
      bytesOf .recvClient (history 0 (exec step s evs).w.log) ≠
        bytesOf .recvClient (history 0 s.w.log) ++ sniffedBytes 0 s evs := by
  refine ⟨by decide +kernel, by decide +kernel, by decide +kernel, by decide +kernel⟩

end Socks5d

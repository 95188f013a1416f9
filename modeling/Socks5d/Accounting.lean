import Mathlib.Data.Finset.Card
import Socks5d.Invariant

/-! # Counting connections

The counters of `state.c` against the connections there are. -/

namespace Socks5d
open EventRun

structure Counters where
  proxy : UInt32
  mgmt : UInt32
  all : UInt64
deriving DecidableEq

def World.counters (w : World) : Counters :=
  ⟨w.proxyClientCount, w.mgmtClientCount, w.allConnections⟩

/-- All figures of `state.c`. -/
def World.figures (w : World) : Counters × UInt64 := (w.counters, w.transferredBytes)

variable {x : Ctx} {e : Env} {fd : ℤ} {r : Ctx × Socks5State} {o : Outcome} {s s' : Server}
  {id : ClientId} {c : Client}

/-! ## Handlers do not count

Only `handle_proxy_write` adds to the bytes that were transferred. -/

section
variable (x : Ctx) (e : Env) (fd : ℤ)

@[simp] theorem setOrigin_w : (x.setOrigin fd).w = x.w := rfl
@[simp] theorem setAtyp_w (a : UInt8) : (x.setAtyp a).w = x.w := rfl
@[simp] theorem setUser_w (u : List UInt8) : (x.setUser u).w = x.w := rfl
@[simp] theorem setAddr_w (a : CurrAddr) : (x.setAddr a).w = x.w := rfl
@[simp] theorem setDest_w (f : List UInt8) (p : Port) : (x.setDest f p).w = x.w := rfl
@[simp] theorem setEnds_w (ends : SocketEnds) : (x.setEnds ends).w = x.w := rfl
@[simp] theorem setParser_w (p : Option Pop3Parser) : (x.setParser p).w = x.w := rfl

@[simp] theorem log_figures (o : Obs) : (x.log o).w.figures = x.w.figures := by
  simp only [Ctx.log, World.figures, World.counters]

@[simp] theorem sel_figures (sel : FdSelector Handler × SelectorStatus) :
    (x.sel sel).w.figures = x.w.figures := by
  simp only [Ctx.sel, World.figures, World.counters]

@[simp] theorem readClient_figures : (x.readClient e).w.figures = x.w.figures := by
  simp only [Ctx.readClient, Ctx.log, World.figures, World.counters]

@[simp] theorem readOrigin_figures : (x.readOrigin e).w.figures = x.w.figures := by
  simp only [Ctx.readOrigin, Ctx.log, World.figures, World.counters]

@[simp] theorem writeClient_figures : (x.writeClient e).w.figures = x.w.figures := by
  simp only [Ctx.writeClient, Ctx.log, World.figures, World.counters]

@[simp] theorem writeOrigin_figures : (x.writeOrigin e).w.figures = x.w.figures := by
  simp only [Ctx.writeOrigin, Ctx.log, World.figures, World.counters]

@[simp] theorem consume_figures {n : ℕ} (h : n ≤ x.c.originBuf.write - x.c.originBuf.read) :
    (x.consume n h).w.figures = x.w.figures := by
  simp only [Ctx.consume, Ctx.log, World.figures, World.counters]

@[simp] theorem simpleReply_figures (v m : UInt8) :
    (simpleReply x v m).w.figures = x.w.figures := by
  simp only [simpleReply, Ctx.log, World.figures, World.counters]

@[simp] theorem putReply_figures (reply : ServerReplyType) (atyp : Atyp) (addr : List UInt8)
    (port : Port) :
    (putReply x reply atyp addr port).w.figures = x.w.figures := by
  simp only [putReply, Ctx.log, World.figures, World.counters]

@[simp] theorem expectWrite_figures : (expectWrite x).w.figures = x.w.figures := sel_figures x _

@[simp] theorem joinOrigin_figures : (joinOrigin x).w.figures = x.w.figures := by
  simp only [joinOrigin, Ctx.sel, Ctx.setEnds, World.figures, World.counters]

@[simp] theorem openSock_figures : (x.openSock fd).w.figures = x.w.figures := by
  simp only [Ctx.openSock, World.figures, World.counters]

@[simp] theorem close_figures : (x.close fd).w.figures = x.w.figures := by
  unfold Ctx.close
  split_ifs
  · simp only [World.figures, World.counters]
  · rfl

end

theorem retire_figures {b : Bool} : (retire b fd x).w.figures = x.w.figures := by
  cases b with
  | false => rfl
  | true =>
    rw [retire, if_pos rfl, close_figures, sel_figures]

theorem dropInterest_figures {b : Bool} {i : FdInterest} :
    (dropInterest b fd i x).w.figures = x.w.figures := by
  cases b with
  | false => rfl
  | true => exact sel_figures x _

theorem wake_figures {b : Bool} : (wake b fd x).w.figures = x.w.figures := by
  cases b with
  | false => rfl
  | true => exact (sel_figures _ _).trans (sel_figures x _)

@[simp] theorem enableWrite_figures : (enableWrite x).w.figures = x.w.figures :=
  wake_figures.trans wake_figures

theorem closeEnds_figures {level : SocketEnds} :
    (closeEnds level x).w.figures = x.w.figures := by
  unfold closeEnds
  dsimp only
  rw [retire_figures, retire_figures, setEnds_w]
  rw [dropInterest_figures, dropInterest_figures, dropInterest_figures, dropInterest_figures]

theorem closeClientAux_figures {n : ℕ} {level : SocketEnds} :
    (closeClientAux n level x).1.w.figures = x.w.figures := by
  induction n generalizing level x with
  | zero => rfl
  | succ n ih =>
    rw [closeClientAux]
    split_ifs
    · exact ih.trans closeEnds_figures
    · exact ih.trans closeEnds_figures
    · exact closeEnds_figures
    · exact closeEnds_figures
    · exact enableWrite_figures.trans closeEnds_figures

@[simp] theorem closeClient_figures {level : SocketEnds} :
    (closeClient x level).1.w.figures = x.w.figures := closeClientAux_figures

theorem readAuthMethod_figures (h : readAuthMethod e fd x = .ok r) :
    r.1.w.figures = x.w.figures := by
  rcases readAuthMethod_cases h with rfl | rfl | ⟨n, hn, v, ms, rfl⟩
  · simp
  · simp
  · rcases answerGreeting_cases ((x.readClient e).consume n hn) v ms with hr | ⟨-, -, -, hr⟩ |
      ⟨-, -, hr⟩
    · simp [hr]
    · simp [hr]
    · simp [hr]

theorem readPlainAuth_figures (h : readPlainAuth e fd x = .ok r) :
    r.1.w.figures = x.w.figures := by
  rcases readPlainAuth_cases h with rfl | rfl | ⟨n, hn, v, user, pass, rfl⟩
  · simp
  · simp
  · rcases answerCredentials_cases ((x.readClient e).consume n hn) v user pass with hr | ⟨-, hr⟩ |
      ⟨-, hr⟩
    · simp [hr]
    · simp [hr]
    · simp [hr]

theorem readProxyRequest_figures (h : readProxyRequest e fd x = .ok r) :
    r.1.w.figures = x.w.figures := by
  rcases readProxyRequest_cases h with ⟨a, rfl⟩ | ⟨a, reply, -, rfl⟩ | ⟨a, n, hn, reply, -, rfl⟩ |
    ⟨a, n, k, hn, hs⟩
  · simp
  · simp [failReply]
  · simp [failReply]
  · rcases startRequest_cases hs with ⟨addr, -, -, rfl⟩ | ⟨fqdn, port, -, rfl⟩ | ⟨a, -, rfl⟩
    · simp [failReply]
    · simp
    · simp

theorem tryConnect_figures (h : tryConnect e x = .ok r) : r.1.w.figures = x.w.figures := by
  obtain ⟨-, -, ⟨-, -, rfl⟩ | ⟨fd, -, hc⟩⟩ := tryConnect_cases h
  · simp [failReply]
  · rcases connectTo_cases hc with ⟨err, -, -, rfl⟩ | ⟨-, -, -, rfl⟩ | ⟨-, -, rfl⟩
    · simp [failReply]
    · simp [failReply]
    · simp

theorem originCheckConnection_figures (h : originCheckConnection e fd x = .ok r) :
    r.1.w.figures = x.w.figures := by
  rcases originCheckConnection_cases h with ⟨-, -, -, rfl⟩ | ⟨-, ht⟩ | ⟨-, -, a, ha⟩ |
    ⟨-, err, next, -, hn⟩
  · simp [failReply]
  · rw [tryConnect_figures ht, sel_figures]
  · obtain ⟨-, p, rfl⟩ := enterProxy_ok ha
    simp
  · rcases nextAddress_cases hn with ⟨a, rest, ht⟩ | ⟨reply, -, rfl⟩
    · rw [tryConnect_figures ht, setAddr_w, sel_figures]
    · simp [failReply]

theorem handleProxyRead_figures (h : handleProxyRead e fd x = .ok r) :
    r.1.w.figures = x.w.figures := by
  rcases handleProxyRead_cases h with ⟨-, ⟨-, rfl⟩ | rfl | ⟨p, rfl⟩⟩ |
    ⟨-, -, ⟨-, rfl⟩ | rfl | ⟨p, rfl⟩⟩
  all_goals simp

theorem counters_of_figures {w w' : World} (h : w'.figures = w.figures) :
    w'.counters = w.counters :=
  congrArg Prod.fst h

/-- Whatever it adds to the bytes, `handle_proxy_write` does not count connections. -/
theorem handleProxyWrite_counters (h : handleProxyWrite e fd x = .ok r) :
    r.1.w.counters = x.w.counters := by
  have hadd : ∀ {y : Ctx} {n : ℤ}, y.w.figures = x.w.figures →
      (y.addBytes n).w.counters = x.w.counters := by
    intro y n hy
    exact congrArg Prod.fst hy
  rcases handleProxyWrite_cases h with
    ⟨-, ⟨-, -, -, rfl⟩ | ⟨-, -, rfl⟩ | ⟨-, -, rfl⟩ | ⟨n, -, rfl⟩⟩ |
    ⟨-, -, ⟨-, -, rfl⟩ | ⟨-, -, rfl⟩ | ⟨-, -, rfl⟩ | ⟨n, -, rfl⟩⟩
  · exact counters_of_figures (by simp)
  · exact counters_of_figures (by simp)
  · exact counters_of_figures (by simp)
  · exact hadd (by simp)
  · exact counters_of_figures (by simp)
  · exact counters_of_figures (by simp)
  · exact counters_of_figures (by simp)
  · exact hadd (by simp)

/-- A client that is destroyed is no longer counted; nothing else changes. -/
structure Discounts (w : World) (o : Outcome) : Prop where
  alive : ∀ c, o.c = some c → o.w.counters = w.counters
  destroyed : o.c = none → o.w.counters = { w.counters with proxy := w.counters.proxy - 1 }

theorem jump_discounts (h : jump r = .ok o) : Discounts r.1.w o := by
  rcases jump_cases h with ⟨-, rfl⟩ | ⟨-, ha⟩
  · exact ⟨fun _ _ => rfl, fun hc => by (cases hc)⟩
  obtain ⟨y, st⟩ := r
  cases st with
  | authMethod | plainAuth | request | proxy | connecting | resolving =>
    cases ha
    exact ⟨fun _ _ => rfl, fun hc => by (cases hc)⟩
  | writeRemaining =>
    cases ha
    exact ⟨fun _ _ => counters_of_figures enableWrite_figures, fun hc => by (cases hc)⟩
  | done =>
    rw [clientDestroy_ok ha]
    exact ⟨fun _ hc => by (cases hc), fun _ => rfl⟩

theorem handleFirst_counters : (handleFirst x).w.counters = x.w.counters := by
  rw [(handleFirst_same x).2]

theorem stmHandlerRead_discounts (h : stmHandlerRead e fd x = .ok o) : Discounts x.w o := by
  obtain ⟨st, handler, r, -, hready, hr, hj⟩ := stmHandlerRead_cases h
  have hd := jump_discounts hj
  have hsame : r.1.w.counters = x.w.counters := by
    rw [← handleFirst_counters (x := x)]
    cases st with
    | authMethod => cases hready; exact counters_of_figures (readAuthMethod_figures hr)
    | plainAuth => cases hready; exact counters_of_figures (readPlainAuth_figures hr)
    | request => cases hready; exact counters_of_figures (readProxyRequest_figures hr)
    | proxy => cases hready; exact counters_of_figures (handleProxyRead_figures hr)
    | resolving | connecting | done | writeRemaining => cases hready
  exact ⟨fun c hc => (hd.alive c hc).trans hsame, fun hc => hsame ▸ hd.destroyed hc⟩

theorem stmHandlerWrite_discounts (h : stmHandlerWrite e fd x = .ok o) : Discounts x.w o := by
  obtain ⟨st, handler, r, -, hready, hr, hj⟩ := stmHandlerWrite_cases h
  have hd := jump_discounts hj
  have hsame : r.1.w.counters = x.w.counters := by
    rw [← handleFirst_counters (x := x)]
    cases st with
    | plainAuth | request | resolving | proxy | writeRemaining =>
      cases hready
      exact handleProxyWrite_counters hr
    | connecting => cases hready; exact counters_of_figures (originCheckConnection_figures hr)
    | authMethod | done => cases hready
  exact ⟨fun c hc => (hd.alive c hc).trans hsame, fun hc => hsame ▸ hd.destroyed hc⟩

theorem stmHandlerBlock_discounts (h : stmHandlerBlock x = .ok o) : Discounts x.w o :=
  jump_discounts (r := handleFinishedResolution x) (stmHandlerBlock_cases h).2

/-! ## Tallies -/

/-- The connections there are, and what the counters say. -/
structure Tally where
  clients : Finset ClientId
  sessions : Finset ℤ
  count : Counters

namespace Tally

/-- The counters are exact, after `n` connections were established. -/
structure Exact (t : Tally) (n : ℕ) : Prop where
  proxy : t.count.proxy.toNat = t.clients.card
  mgmt : t.count.mgmt.toNat = t.sessions.card
  room : t.count.mgmt.toNat + 2 * t.count.proxy.toNat ≤ 1020
  all : t.count.all = UInt64.ofNat n

/-- What may happen to a tally, with the connections it gains. -/
inductive Step (t : Tally) : ℕ → Tally → Prop
  | same : Step t 0 t
  | destroy (id : ClientId) : id ∈ t.clients →
    Step t 0 ⟨t.clients.erase id, t.sessions, { t.count with proxy := t.count.proxy - 1 }⟩
  | accept (id : ClientId) : id ∉ t.clients → t.count.mgmt + t.count.proxy * 2 ≤ 1020 - 2 →
    Step t 1 ⟨insert id t.clients, t.sessions,
      { t.count with proxy := t.count.proxy + 1, all := t.count.all + 1 }⟩
  | mgmtAccept (fd : ℤ) : fd ∉ t.sessions → t.count.mgmt + t.count.proxy * 2 ≤ 1020 - 1 →
    Step t 1 ⟨t.clients, insert fd t.sessions,
      { t.count with mgmt := t.count.mgmt + 1, all := t.count.all + 1 }⟩
  | mgmtClose (fd : ℤ) : fd ∈ t.sessions →
    Step t 0 ⟨t.clients, t.sessions.erase fd, { t.count with mgmt := t.count.mgmt - 1 }⟩

/-- A connection that was counted and not made. -/
structure Refusal (t t' : Tally) : Prop where
  clients_eq : t'.clients = t.clients
  sessions_eq : t'.sessions = t.sessions
  all_eq : t'.count.all = t.count.all + 1

/-- The connections of `t'` that were not there in `t`. -/
def gained (t t' : Tally) : ℕ := (t'.clients \ t.clients).card + (t'.sessions \ t.sessions).card

variable {t t' : Tally} {k n : ℕ}

/-- The sum that is tested does not overflow. -/
theorem Exact.test (h : t.Exact n) :
    (t.count.mgmt + t.count.proxy * 2).toNat = t.count.mgmt.toNat + 2 * t.count.proxy.toNat := by
  have hroom := h.room
  have htwo : (2 : UInt32).toNat = 2 := rfl
  rw [UInt32.toNat_add, UInt32.toNat_mul, htwo]
  omega

theorem Exact.step (h : t.Exact n) (hs : Step t k t') : t'.Exact (n + k) := by
  have hroom := h.room
  have hproxy := h.proxy
  have hmgmt := h.mgmt
  cases hs with
  | same => exact h
  | destroy id hid =>
    have hpos := Finset.card_pos.mpr ⟨id, hid⟩
    have hsub : (t.count.proxy - 1).toNat = t.count.proxy.toNat - 1 :=
      UInt32.toNat_sub_of_le _ _ (UInt32.le_iff_toNat_le.mpr (by rw [UInt32.toNat_one]; omega))
    refine ⟨?_, hmgmt, ?_, h.all⟩
    · dsimp only
      rw [Finset.card_erase_of_mem hid]
      omega
    · dsimp only
      omega
  | accept id hid hguard =>
    rw [UInt32.le_iff_toNat_le, h.test] at hguard
    have hlim : (1020 - 2 : UInt32).toNat = 1018 := rfl
    have hadd : (t.count.proxy + 1).toNat = t.count.proxy.toNat + 1 := by
      rw [UInt32.toNat_add, UInt32.toNat_one]
      omega
    refine ⟨?_, hmgmt, ?_, ?_⟩
    · dsimp only
      rw [Finset.card_insert_of_notMem hid]
      omega
    · dsimp only
      omega
    · dsimp only
      rw [h.all, UInt64.ofNat_add]
      rfl
  | mgmtAccept fd hfd hguard =>
    rw [UInt32.le_iff_toNat_le, h.test] at hguard
    have hlim : (1020 - 1 : UInt32).toNat = 1019 := rfl
    have hadd : (t.count.mgmt + 1).toNat = t.count.mgmt.toNat + 1 := by
      rw [UInt32.toNat_add, UInt32.toNat_one]
      omega
    refine ⟨hproxy, ?_, ?_, ?_⟩
    · dsimp only
      rw [Finset.card_insert_of_notMem hfd]
      omega
    · dsimp only
      omega
    · dsimp only
      rw [h.all, UInt64.ofNat_add]
      rfl
  | mgmtClose fd hfd =>
    have hpos := Finset.card_pos.mpr ⟨fd, hfd⟩
    have hsub : (t.count.mgmt - 1).toNat = t.count.mgmt.toNat - 1 :=
      UInt32.toNat_sub_of_le _ _ (UInt32.le_iff_toNat_le.mpr (by rw [UInt32.toNat_one]; omega))
    refine ⟨hproxy, ?_, ?_, h.all⟩
    · dsimp only
      rw [Finset.card_erase_of_mem hfd]
      omega
    · dsimp only
      omega

theorem Exact.refusal (h : t.Exact n) (hr : Refusal t t') : ¬ t'.Exact n := by
  intro h'
  have hall := h'.all
  rw [hr.all_eq, h.all] at hall
  exact absurd (UInt64.add_eq_left.mp hall) (by decide)

theorem Step.gained (hs : Step t k t') : t.gained t' = k := by
  cases hs with
  | same => simp [Tally.gained]
  | destroy id hid =>
    simp [Tally.gained, Finset.sdiff_eq_empty_iff_subset.mpr (Finset.erase_subset _ _)]
  | accept id hid _ => simp [Tally.gained, hid]
  | mgmtAccept fd hfd _ => simp [Tally.gained, hfd]
  | mgmtClose fd hfd =>
    simp [Tally.gained, Finset.sdiff_eq_empty_iff_subset.mpr (Finset.erase_subset _ _)]

end Tally

/-! ## The tally of a server -/

/-- The SOCKS clients that are allocated. -/
def liveClients (s : Server) : Finset ClientId :=
  (Finset.range s.nextId).filter fun id => (s.heap id).isSome

/-- The descriptors that are registered for management connections. -/
def mgmtClients (sel : FdSelector Handler) : Finset ℤ :=
  ((Finset.range 1024).image Int.ofNat).filter fun fd => (item? sel fd).any fun it =>
    it.data = some .mgmt

def Server.tally (s : Server) : Tally := ⟨liveClients s, mgmtClients s.w.selector, s.w.counters⟩

theorem mem_mgmtClients {sel : FdSelector Handler} :
    fd ∈ mgmtClients sel ↔ ∃ it, item? sel fd = some it ∧ it.data = some .mgmt := by
  rw [mgmtClients, Finset.mem_filter, Option.any_eq_true_iff_get]
  constructor
  · rintro ⟨-, hsome, hd⟩
    exact ⟨_, (Option.some_get hsome).symm, by simpa using hd⟩
  · rintro ⟨it, hit, hd⟩
    have hvalid := invalidFd_eq_false.mp (valid_of_item? hit)
    refine ⟨?_, ?_, ?_⟩
    · refine Finset.mem_image.mpr ⟨fd.toNat, Finset.mem_range.mpr (by omega), ?_⟩
      exact Int.toNat_of_nonneg hvalid.1
    · rw [hit]
      rfl
    · simp [hit, hd]

/-- Whoever does not own the management connections leaves them alone. -/
theorem mgmtClients_spares {d : Handler} {sel sel' : FdSelector Handler} (h : Spares d sel sel')
    (hd : .mgmt ≠ d) : mgmtClients sel' = mgmtClients sel := by
  have hne : some Handler.mgmt ≠ some d := by simpa using hd
  ext fd
  rw [mem_mgmtClients, mem_mgmtClients]
  constructor
  · rintro ⟨it', hit', hm⟩
    obtain ⟨it, hit, hdata⟩ := h.back fd it' hit' (by rw [hm]; exact hne)
    exact ⟨it, hit, hdata.trans hm⟩
  · rintro ⟨it, hit, hm⟩
    obtain ⟨it', hit', hdata, -⟩ := h.kept fd it hit (by rw [hm]; exact hne)
    exact ⟨it', hit', hdata.trans hm⟩

theorem mem_liveClients (h : Inv s) : id ∈ liveClients s ↔ s.heap id ≠ none := by
  rw [liveClients, Finset.mem_filter, Finset.mem_range, Option.isSome_iff_ne_none]
  constructor
  · exact fun hid => hid.2
  · refine fun hne => ⟨?_, hne⟩
    by_contra hle
    exact hne (h.fresh id (Nat.le_of_not_lt hle)).1

theorem liveClients_update {w : World} {oc : Option Client} :
    liveClients { s with w := w, heap := Function.update s.heap id oc } =
      if oc.isSome then (if id < s.nextId then insert id (liveClients s) else liveClients s)
      else (liveClients s).erase id := by
  ext j
  by_cases hj : j = id
  · subst hj
    cases oc <;> by_cases hlt : j < s.nextId <;> simp [liveClients, hlt]
  · cases oc <;> by_cases hlt : id < s.nextId <;> simp [liveClients, hj, hlt]

/-- An event of a client keeps it, or destroys it. -/
theorem run_tally {handler : Ctx → Except Fault Outcome} (h : Inv s) (hc : s.heap id = some c)
    (hk : Kept ⟨id, c, s.w⟩ (handler ⟨id, c, s.w⟩))
    (hd : ∀ o, handler ⟨id, c, s.w⟩ = .ok o → Discounts s.w o) :
    s.tally.Step 0 (s.run id handler).tally := by
  have hlive : id ∈ liveClients s := (mem_liveClients h).mpr (by rw [hc]; simp)
  have hlt : id < s.nextId := Finset.mem_range.mp (Finset.mem_filter.mp hlive).1
  cases hr : handler ⟨id, c, s.w⟩ with
  | error f =>
    rw [run_error hc hr]
    exact .same
  | ok o =>
    have hm := mgmtClients_spares (hk.ok o hr).2.spares (by simp)
    rw [run_ok hc hr]
    unfold Server.tally
    rw [liveClients_update]
    dsimp only at hm ⊢
    rw [hm]
    cases hoc : o.c with
    | some c' =>
      rw [(hd o hr).alive c' hoc, Option.isSome_some, if_pos rfl, if_pos hlt,
        Finset.insert_eq_of_mem hlive]
      exact .same
    | none =>
      rw [(hd o hr).destroyed hoc, Option.isSome_none, if_neg Bool.false_ne_true]
      exact .destroy id hlive

/-! ## Accepting -/

/-- A SOCKS connection that is counted is made. -/
def ProxyMade (e : Env) (w : World) : Prop :=
  ∀ w', addProxyClient w = some w' → freshFd w' e.socket ≠ none ∧ e.mallocClient = true

/-- A management connection that is counted is made. -/
def MgmtMade (e : Env) (w : World) : Prop :=
  ∀ w', addMgmtClient w = some w' → ∃ fd, freshFd w' e.socket = some fd ∧ e.mallocClient = true ∧
    (selectorRegister true w'.selector fd (opWrite ||| opRead) .mgmt).2 = .success

/-- The clients after one was accepted. -/
theorem liveClients_accept {w : World} :
    liveClients { s with
      w := w
      heap := Function.update s.heap s.nextId (some c)
      nextId := s.nextId + 1 } = insert s.nextId (liveClients s) := by
  ext j
  by_cases hj : j = s.nextId
  · simp [liveClients, hj]
  · have hlt : j < s.nextId + 1 ↔ j < s.nextId :=
      ⟨fun h => Nat.lt_of_le_of_ne (Nat.le_of_lt_succ h) hj, Nat.lt_succ_of_lt⟩
    simp [liveClients, hj, hlt]

theorem masterReadHandler_tally (h : Inv s) (e : Env) :
    (ProxyMade e s.w → ∃ k, s.tally.Step k (masterReadHandler e s).tally) ∧
      (¬ ProxyMade e s.w → s.tally.Refusal (masterReadHandler e s).tally) := by
  rcases masterReadHandler_cases e s with ⟨hno, heq⟩ | ⟨w, hw, ⟨hbad, heq⟩ | ⟨fd, hfd, hmal, heq⟩⟩
  · rw [heq]
    refine ⟨fun _ => ⟨0, .same⟩, fun hnot => absurd (fun w' hw' => ?_) hnot⟩
    rw [hno] at hw'
    cases hw'
  · obtain ⟨-, rfl⟩ := addProxyClient_some hw
    rw [heq]
    refine ⟨fun hok => ?_, fun _ => ⟨rfl, rfl, rfl⟩⟩
    obtain ⟨hfd, hmal⟩ := hok _ hw
    rw [hmal] at hbad
    exact absurd hbad (by simp [hfd])
  · obtain ⟨hroom, rfl⟩ := addProxyClient_some hw
    refine ⟨fun _ => ⟨1, ?_⟩, fun hnot => absurd (fun w' hw' => ?_) hnot⟩
    · have hnew : s.nextId ∉ liveClients s := by
        rw [mem_liveClients h, not_not]
        exact (h.fresh _ (Nat.le_refl _)).1
      have hsp : Spares (.socks5 s.nextId) s.w.selector
          (selectorRegister true s.w.selector fd opRead (.socks5 s.nextId)).1 :=
            .register true h.cap
      have hm := mgmtClients_spares hsp (by simp)
      have hstep := Tally.Step.accept (t := s.tally) s.nextId hnew hroom
      rw [heq]
      unfold Server.tally
      rw [liveClients_accept]
      dsimp only [acceptWorld]
      rw [hm]
      exact hstep
    · rw [hw, Option.some.injEq] at hw'
      subst hw'
      exact ⟨by rw [hfd]; simp, hmal⟩

theorem mgmtClients_register (h : Inv s) (hfresh : s.w.fdTable fd = none)
    (hreg : (selectorRegister true s.w.selector fd (opWrite ||| opRead) .mgmt).2 = .success) :
    fd ∉ mgmtClients s.w.selector ∧
      mgmtClients (selectorRegister true s.w.selector fd (opWrite ||| opRead) .mgmt).1 =
        insert fd (mgmtClients s.w.selector) := by
  have hnone : item? s.w.selector fd = none := by
    by_contra hne
    exact h.regOpen fd hne hfresh
  rcases register_fresh (i := opWrite ||| opRead) (d := .mgmt) h.cap h.regOpen hfresh with
    ⟨hno, -⟩ | ⟨-, -, hit⟩
  · exact absurd hreg hno
  refine ⟨?_, ?_⟩
  · rw [mem_mgmtClients]
    rintro ⟨it, hit', -⟩
    rw [hnone] at hit'
    cases hit'
  · ext fd'
    rw [Finset.mem_insert, mem_mgmtClients, mem_mgmtClients, hit]
    by_cases hfd : fd' = fd
    · simp [hfd, newItem]
    · simp [hfd]

theorem mgmtMasterReadHandler_tally (h : Inv s) (e : Env) :
    (MgmtMade e s.w → ∃ k, s.tally.Step k (mgmtMasterReadHandler e s).tally) ∧
      (¬ MgmtMade e s.w → s.tally.Refusal (mgmtMasterReadHandler e s).tally) := by
  rcases mgmtMasterReadHandler_cases e s with ⟨hno, heq⟩ |
    ⟨w, hw, ⟨hbad, heq⟩ | ⟨fd, hfd, ⟨hbad, heq⟩ | ⟨hmal, hreg, heq⟩⟩⟩
  · rw [heq]
    refine ⟨fun _ => ⟨0, .same⟩, fun hnot => absurd (fun w' hw' => ?_) hnot⟩
    rw [hno] at hw'
    cases hw'
  · obtain ⟨-, rfl⟩ := addMgmtClient_some hw
    rw [heq]
    refine ⟨fun hok => ?_, fun _ => ⟨rfl, rfl, rfl⟩⟩
    obtain ⟨fd, hfd, -⟩ := hok _ hw
    rw [hbad] at hfd
    cases hfd
  · obtain ⟨-, rfl⟩ := addMgmtClient_some hw
    rw [heq]
    refine ⟨fun hok => ?_, fun _ => ⟨rfl, rfl, rfl⟩⟩
    obtain ⟨fd', hfd', hmal, hreg⟩ := hok _ hw
    rw [hfd, Option.some.injEq] at hfd'
    subst hfd'
    rw [hmal] at hbad
    exact absurd hbad (by simp [hreg])
  · obtain ⟨hroom, rfl⟩ := addMgmtClient_some hw
    refine ⟨fun _ => ⟨1, ?_⟩, fun hnot => absurd (fun w' hw' => ?_) hnot⟩
    · have hfresh : s.w.fdTable fd = none := (freshFd_some hfd).2
      obtain ⟨hnew, hm⟩ := mgmtClients_register h hfresh hreg
      have hstep := Tally.Step.mgmtAccept (t := s.tally) fd hnew hroom
      rw [heq]
      unfold Server.tally
      dsimp only
      rw [hm]
      exact hstep
    · rw [hw, Option.some.injEq] at hw'
      subst hw'
      exact ⟨fd, hfd, hmal, hreg⟩

/-! ## Events -/

theorem Tally.Step.shrinks {t t' : Tally} (h : t.Step 0 t') :
    t'.clients ⊆ t.clients ∧ t'.sessions ⊆ t.sessions := by
  cases h with
  | same => exact ⟨Finset.Subset.refl _, Finset.Subset.refl _⟩
  | destroy id _ => exact ⟨Finset.erase_subset _ _, Finset.Subset.refl _⟩
  | mgmtClose fd _ => exact ⟨Finset.Subset.refl _, Finset.erase_subset _ _⟩

/-- Two steps, of which only the first may gain something, and then the second does
nothing. -/
theorem Tally.Exact.two {t t₁ t₂ : Tally} {k n : ℕ} (h : t.Exact n) (h₁ : t.Step k t₁)
    (h₂ : t₁.Step 0 t₂) (hk : k = 0 ∨ t₂ = t₁) : t₂.Exact (n + t.gained t₂) := by
  have hgain : t.gained t₂ = k := by
    rcases hk with rfl | rfl
    · have hc := h₂.shrinks.1.trans h₁.shrinks.1
      have hs := h₂.shrinks.2.trans h₁.shrinks.2
      rw [Tally.gained, Finset.sdiff_eq_empty_iff_subset.mpr hc,
        Finset.sdiff_eq_empty_iff_subset.mpr hs]
      rfl
    · exact h₁.gained
  rw [hgain]
  exact (h.step h₁).step h₂

theorem mgmtClients_unregister {sel : FdSelector Handler} :
    mgmtClients (selectorUnregisterFd sel fd).1 = (mgmtClients sel).erase fd := by
  ext fd'
  rw [Finset.mem_erase, mem_mgmtClients, mem_mgmtClients, item?_unregister]
  by_cases hfd : fd' = fd
  · simp [hfd]
  · simp [hfd]

/-- Whatever connection an event counts is made. -/
def AttemptMade (s : Server) : Event → Prop
  | .dispatch i r _ er _ =>
    s.halted = none → itemUsed (s.w.selector.fds i) = true → r = true →
      (s.w.selector.fds i).interest.read = true →
      ((s.w.selector.fds i).data = some .master → ProxyMade er s.w) ∧
      ((s.w.selector.fds i).data = some .monitor → MgmtMade er s.w)
  | _ => True

section
variable (h : Inv s) {i : ℕ} (hu : itemUsed (s.w.selector.fds i) = true)
include h hu

theorem writeHalf_tally (r w : Bool) (er ew : Env) :
    let t := readHalf i r er s
    let t' := writeHalf i (s.w.selector.fds i).fd (s.w.selector.fds i).data w ew t
    t.tally.Step 0 t'.tally ∧
      ((∀ id, (s.w.selector.fds i).data ≠ some (.socks5 id)) → t'.tally = t.tally) := by
  have h1 : Inv (readHalf i r er s) := h.move (readHalf_move h hu r er : Move anyWrite _ _)
  rcases writeHalf_cases h hu r w er ew with heq | heq | ⟨id, c, hid, -, -, hhit, hint, heq⟩
  · dsimp only
    rw [heq]
    exact ⟨.same, fun _ => rfl⟩
  · dsimp only
    rw [heq]
    exact ⟨.same, fun _ => rfl⟩
  · dsimp only
    rw [heq]
    refine ⟨?_, fun hno => absurd hid (hno id)⟩
    obtain ⟨m, hheld⟩ := hhit.held
    exact run_tally h1 hhit.heap
      (stmHandlerWrite_kept (x := ⟨id, c, _⟩) (hhit.ctl h1) hheld hint h1.cap)
      fun o ho => stmHandlerWrite_discounts ho

theorem dispatch_tally (r w : Bool) (er ew : Env)
    (hok : r = true → (s.w.selector.fds i).interest.read = true →
      ((s.w.selector.fds i).data = some .master → ProxyMade er s.w) ∧
      ((s.w.selector.fds i).data = some .monitor → MgmtMade er s.w)) {n : ℕ}
      (hn : s.tally.Exact n) :
    (dispatch i r w er ew s).tally.Exact (n + s.tally.gained (dispatch i r w er ew s).tally) := by
  obtain ⟨hw, hquiet⟩ := writeHalf_tally h hu r w er ew
  unfold dispatch
  dsimp only
  rw [if_neg (by simpa using hu)]
  rcases readHalf_cases h hu r er with heq | heq | ⟨hd, heq, hr, hread⟩ | ⟨hd, heq, hr, hread⟩ |
    ⟨id, c, -, hhit, hi, heq⟩
  · rw [heq] at hw ⊢
    exact hn.two .same hw (.inl rfl)
  · rw [heq] at hw ⊢
    exact hn.two .same hw (.inl rfl)
  · obtain ⟨k, hk⟩ := (masterReadHandler_tally h er).1 ((hok hr hread).1 hd)
    rw [← heq] at hk
    exact hn.two hk hw (.inr (hquiet (by rw [hd]; simp)))
  · obtain ⟨k, hk⟩ := (mgmtMasterReadHandler_tally h er).1 ((hok hr hread).2 hd)
    rw [← heq] at hk
    exact hn.two hk hw (.inr (hquiet (by rw [hd]; simp)))
  · obtain ⟨m, hheld⟩ := hhit.held
    have hk := run_tally h hhit.heap (stmHandlerRead_kept (x := ⟨id, c, _⟩) (hhit.ctl h) hheld hi)
      fun o ho => stmHandlerRead_discounts (e := er) ho
    rw [← heq] at hk
    exact hn.two hk hw (.inl rfl)

/-- A connection that was counted and not made stays counted. -/
theorem dispatch_refusal (w : Bool) (er ew : Env)
    (hread : (s.w.selector.fds i).interest.read = true)
    (hbad : ((s.w.selector.fds i).data = some .master ∧ ¬ ProxyMade er s.w) ∨
      ((s.w.selector.fds i).data = some .monitor ∧ ¬ MgmtMade er s.w)) :
    s.tally.Refusal (dispatch i true w er ew s).tally := by
  obtain ⟨-, hquiet⟩ := writeHalf_tally h hu true w er ew
  unfold dispatch
  dsimp only
  rw [if_neg (by simpa using hu)]
  rcases hbad with ⟨hd, hno⟩ | ⟨hd, hno⟩
  · have hhalf : readHalf i true er s = masterReadHandler er s := by
      unfold readHalf
      dsimp only
      rw [hread, hd]
      rfl
    rw [hquiet (by rw [hd]; simp), hhalf]
    exact (masterReadHandler_tally h er).2 hno
  · have hhalf : readHalf i true er s = mgmtMasterReadHandler er s := by
      unfold readHalf
      dsimp only
      rw [hread, hd]
      rfl
    rw [hquiet (by rw [hd]; simp), hhalf]
    exact (mgmtMasterReadHandler_tally h er).2 hno

end

theorem resolved_tally (h : Inv s) (addrs : List AddrInfo) :
    s.tally.Step 0 (threadNameResolution id addrs s).tally := by
  unfold threadNameResolution
  split_ifs with hmem
  swap
  · exact .same
  cases hc : s.heap id with
  | none => exact .same
  | some c =>
    have hlive : id ∈ liveClients s := (mem_liveClients h).mpr (by rw [hc]; simp)
    have hlt : id < s.nextId := Finset.mem_range.mp (Finset.mem_filter.mp hlive).1
    unfold Server.tally
    dsimp only
    rw [liveClients_update, Option.isSome_some, if_pos rfl, if_pos hlt,
      Finset.insert_eq_of_mem hlive]
    exact .same

theorem notify_tally (h : Inv s) : s.tally.Step 0 (handleBlockNotifications s).tally := by
  unfold handleBlockNotifications
  split
  · exact .same
  rename_i j jobs hj
  dsimp only
  have hjobs : Inv { s with w := { s.w with resolutionJobs := jobs } } := h.jobs (.inl rfl)
  split
  · exact .same
  · rename_i it hit
    split
    · rename_i id hd
      obtain ⟨c, hhit⟩ := hjobs.hit hit hd
      exact run_tally hjobs hhit.heap (stmHandlerBlock_kept (x := ⟨id, c, _⟩) (hhit.ctl hjobs))
        fun o ho => stmHandlerBlock_discounts ho
    · exact .same

theorem mgmtClose_tally (s : Server) (fd : ℤ) : s.tally.Step 0 (mgmtClose fd s).tally := by
  unfold mgmtClose
  split
  · rename_i it hit
    split_ifs with hd
    · have hmem : fd ∈ s.tally.sessions := mem_mgmtClients.mpr ⟨it, hit, hd⟩
      have hstep := Tally.Step.mgmtClose (t := s.tally) fd hmem
      unfold Server.tally rmMgmtClient
      dsimp only
      rw [mgmtClients_unregister]
      exact hstep
    · exact .same
  · exact .same

theorem step_exact (h : Inv s) {ev : Event} (hok : AttemptMade s ev) {n : ℕ}
    (hn : s.tally.Exact n) :
    (step s ev).tally.Exact (n + s.tally.gained (step s ev).tally) := by
  have hone : ∀ {t' : Tally}, s.tally.Step 0 t' → t'.Exact (n + s.tally.gained t') := fun hs =>
    hn.two hs .same (.inl rfl)
  unfold step
  split_ifs with hhalt
  · exact hone .same
  cases ev with
  | dispatch i r w er ew =>
    by_cases hu : itemUsed (s.w.selector.fds i) = true
    · exact dispatch_tally h hu r w er ew (hok (by simpa using hhalt) hu) hn
    · have hidle : dispatch i r w er ew s = s := if_pos (by simpa using hu)
      dsimp only
      rw [hidle]
      exact hone .same
  | resolved id addrs => exact hone (resolved_tally h addrs)
  | notify => exact hone (notify_tally h)
  | addUser userpass => exact hone .same
  | setBuffsize size =>
    refine hone ?_
    dsimp only
    split_ifs
    · exact .same
    · exact .same
  | setDissector state => exact hone .same
  | mgmtClose fd => exact hone (mgmtClose_tally s fd)

theorem step_refusal (h : Inv s) {ev : Event} (hbad : ¬ AttemptMade s ev) :
    s.tally.Refusal (step s ev).tally := by
  cases ev with
  | dispatch i r w er ew =>
    simp only [AttemptMade, Classical.not_imp, not_and_or] at hbad
    obtain ⟨hhalt, hu, rfl, hread, hbad⟩ := hbad
    unfold step
    rw [if_neg (by simp [hhalt])]
    exact dispatch_refusal h hu w er ew hread hbad
  | resolved | notify | addUser | setBuffsize | setDissector | mgmtClose =>
    exact absurd trivial hbad

/-! ## Runs -/

/-- How many connections a run establishes. -/
def connections (s : Server) : List Event → ℕ
  | [] => 0
  | ev :: evs => s.tally.gained (step s ev).tally + connections (step s ev) evs

theorem mgmtClients_registerAll {d : Handler} (hd : .mgmt ≠ d) (fds : List ℤ)
    {sel : FdSelector Handler} (hcap : itemsMaxSize ≤ sel.fdSize) :
    itemsMaxSize ≤ (registerAll d fds sel).fdSize ∧
      mgmtClients (registerAll d fds sel) = mgmtClients sel := by
  induction fds generalizing sel with
  | nil => exact ⟨hcap, rfl⟩
  | cons fd fds ih =>
    have hcap' : itemsMaxSize ≤ (selectorRegister true sel fd opRead d).1.fdSize := by
      rcases register_cases fd true opRead d hcap with ⟨-, hs, -⟩ | ⟨-, -, -, hsz, -⟩
      · rw [hs]
        exact hcap
      · rw [hsz]
        exact hcap
    obtain ⟨h1, h2⟩ := ih hcap'
    exact ⟨h1, h2.trans (mgmtClients_spares (Spares.register true hcap) hd)⟩

theorem boot_exact (users : UserTable) (masters monitors : List ℤ) :
    (boot users masters monitors).tally.Exact 0 := by
  have hempty : mgmtClients emptySelector = ∅ := by
    ext fd
    rw [mem_mgmtClients]
    refine ⟨?_, fun hf => absurd hf (Finset.notMem_empty fd)⟩
    rintro ⟨it, hit, -⟩
    exact absurd ((emptySelector_booting []).only fd it hit).1 List.not_mem_nil
  obtain ⟨hcap, hm⟩ := mgmtClients_registerAll (d := .master) (by simp) (0 :: masters)
    (emptySelector_booting []).cap
  obtain ⟨-, hm'⟩ := mgmtClients_registerAll (d := .monitor) (by simp) monitors hcap
  have hsessions : (boot users masters monitors).tally.sessions = ∅ := hm'.trans (hm.trans hempty)
  refine ⟨rfl, ?_, Nat.zero_le _, rfl⟩
  rw [hsessions]
  rfl

theorem exact_iff_along (evs : List Event) (h : Inv s) {n : ℕ} (hn : s.tally.Exact n) :
    (∀ pre, pre <+: evs → (exec step s pre).tally.Exact (n + connections s pre)) ↔
      Along step AttemptMade s evs := by
  induction evs generalizing s n with
  | nil =>
    refine iff_of_true (fun pre hpre => ?_) trivial
    obtain rfl := List.prefix_nil.mp hpre
    exact hn
  | cons ev evs ih =>
    obtain ⟨s', hm, hm'⟩ := step_moves h ev (along_anyWrite s [ev]).1
    have hinv : Inv (step s ev) := (h.move hm).move hm'
    constructor
    · intro hall
      have hmade : AttemptMade s ev := by
        by_contra hno
        have href := step_refusal h hno
        have hgain : s.tally.gained (step s ev).tally = 0 := by
          rw [Tally.gained, href.clients_eq, href.sessions_eq, Finset.sdiff_self, Finset.sdiff_self]
          rfl
        have hone := hall [ev] (List.prefix_append [ev] evs)
        simp only [exec_cons, exec_nil, connections, hgain, Nat.add_zero] at hone
        exact hn.refusal href hone
      refine ⟨hmade, (ih hinv (step_exact h hmade hn)).mp fun pre hpre => ?_⟩
      have hcons := hall (ev :: pre) ((List.prefix_cons_inj ev).mpr hpre)
      rw [exec_cons, connections, ← Nat.add_assoc] at hcons
      exact hcons
    · rintro ⟨hmade, halong⟩ pre hpre
      cases pre with
      | nil => exact hn
      | cons ev' pre =>
        obtain ⟨rfl, hpre'⟩ := List.cons_prefix_cons.mp hpre
        rw [exec_cons, connections, ← Nat.add_assoc]
        exact (ih hinv (step_exact h hmade hn)).mpr halong pre hpre'

/-- The counters are exact all along a run if and only if every connection that is
counted is made. -/
theorem connection_counters_exact_iff (users : UserTable) (masters monitors : List ℤ)
    (evs : List Event) :
    (∀ pre, pre <+: evs → (exec step (boot users masters monitors) pre).tally.Exact
      (connections (boot users masters monitors) pre)) ↔
      Along step AttemptMade (boot users masters monitors) evs := by
  have h :=
    exact_iff_along evs (boot_inv users masters monitors) (boot_exact users masters monitors)
  simpa only [Nat.zero_add] using h

/-- Without memory for the first management connection the counter falls below zero,
and nobody is accepted any more. -/
theorem refused_mgmt_connection_wraps_counter :
    let s := exec step (boot [] [] [5]) [readable 5 { Env.fine [] 6 with mallocClient := false }]
    s.halted = none ∧ s.w.mgmtClientCount = 4294967295 ∧ s.w.allConnections = 1 ∧
      (addProxyClient s.w).isNone = true ∧ (addMgmtClient s.w).isNone = true := by
  decide

end Socks5d

import Mathlib.Data.List.Count
import Mathlib.Data.List.Pairwise
import Socks5d.Ledger
import Socks5d.Lifetime

/-! # No descriptor leak

Every handler keeps the accounts of its client, unless a connection fails: then
the socket of the attempt is forgotten. -/

namespace Socks5d
open EventRun

variable {x y z : Ctx} {e : Env} {fd : ℤ} {r : Ctx × Socks5State} {o : Outcome} {id : ClientId}
  {c : Client} {s s' : Server} {i m : FdInterest} {level : SocketEnds}

/-- `y` has the sockets of `x`. -/
structure Steady (x y : Ctx) : Prop where
  id_eq : y.id = x.id
  clientSock_eq : y.c.clientSock = x.c.clientSock
  originSock_eq : y.c.originSock = x.c.originSock
  ends_eq : y.c.activeEnds = x.c.activeEnds
  neutral : Neutral x.w y.w

theorem Steady.trans (h : Steady x y) (h' : Steady y z) : Steady x z where
  id_eq := h'.id_eq.trans h.id_eq
  clientSock_eq := h'.clientSock_eq.trans h.clientSock_eq
  originSock_eq := h'.originSock_eq.trans h.originSock_eq
  ends_eq := h'.ends_eq.trans h.ends_eq
  neutral := h.neutral.trans h'.neutral

theorem Steady.refl (x : Ctx) : Steady x x := ⟨rfl, rfl, rfl, rfl, .refl _⟩

/-- Bytes move and something is logged that concerns no socket. -/
theorem Still.steady {o : Obs} (hs : Still x y) (hl : y.w.log = x.w.log ++ [o])
    (ho : o.opens = none) (hc : o.closing = none) : Steady x y :=
  ⟨hs.id_eq, hs.clientSock_eq, hs.originSock_eq, hs.ends_eq,
    .of_log hs.selector_eq hs.fdTable_eq hs.nextSock_eq hl ho hc⟩

theorem Still.steady_silent (hs : Still x y) (hl : y.w.log = x.w.log) : Steady x y :=
  ⟨hs.id_eq, hs.clientSock_eq, hs.originSock_eq, hs.ends_eq,
    .of_eq hs.selector_eq hs.fdTable_eq hs.nextSock_eq hl⟩

theorem Steady.sel {q : FdSelector Handler × SelectorStatus} (hn : Neutral x.w (x.sel q).w) :
    Steady x (x.sel q) := ⟨rfl, rfl, rfl, rfl, hn⟩

theorem readClient_steady : Steady x (x.readClient e) := Still.readClient.steady rfl rfl rfl

theorem readOrigin_steady : Steady x (x.readOrigin e) := Still.readOrigin.steady rfl rfl rfl

theorem writeClient_steady : Steady x (x.writeClient e) := Still.writeClient.steady rfl rfl rfl

theorem writeOrigin_steady : Steady x (x.writeOrigin e) := Still.writeOrigin.steady rfl rfl rfl

theorem consume_steady {n : ℕ} {hn : n ≤ x.c.originBuf.write - x.c.originBuf.read} :
    Steady x (x.consume n hn) := Still.consume.steady rfl rfl rfl

theorem simpleReply_steady {v m : UInt8} : Steady x (simpleReply x v m) :=
  Still.simpleReply.steady rfl rfl rfl

theorem putReply_steady {reply : ServerReplyType} {atyp : Atyp} {addr : List UInt8} {port : Port} :
    Steady x (putReply x reply atyp addr port) := Still.putReply.steady rfl rfl rfl

theorem setAtyp_steady {a : UInt8} : Steady x (x.setAtyp a) := Still.setAtyp.steady_silent rfl

theorem setAddr_steady {a : CurrAddr} : Steady x (x.setAddr a) := Still.setAddr.steady_silent rfl

theorem setParser_steady {p : Option Pop3Parser} : Steady x (x.setParser p) :=
  Still.setParser.steady_silent rfl

theorem addBytes_steady {n : ℤ} : Steady x (x.addBytes n) := Still.addBytes.steady_silent rfl

theorem expectWrite_steady : Steady x (expectWrite x) := .sel .addInterest

/-! ## Every handler -/

theorem Steady.accounts (hs : Steady x y) (h : Accounts x.id x.w) : Accounts x.id y.w :=
  hs.neutral.accounts h

theorem Steady.backed (hs : Steady x y) (hb : Backed x) : Backed y := by
  refine ⟨?_, ?_⟩
  · rw [hs.ends_eq, hs.id_eq, hs.clientSock_eq]
    exact fun ha => hs.neutral.registered.mpr (hb.client ha)
  · rw [hs.ends_eq, hs.id_eq, hs.clientSock_eq, hs.originSock_eq]
    exact fun ha => ⟨hs.neutral.registered.mpr (hb.origin ha).1, (hb.origin ha).2⟩

/-- What most handlers do: nothing to the sockets, and then perhaps `closeClient`. -/
def Routine (x : Ctx) (r : Ctx × Socks5State) : Prop :=
  ∃ y, Steady x y ∧ (r.1 = y ∨ ∃ level, r = closeClient y level)

theorem Steady.routine {st : Socks5State} (hs : Steady x y) : Routine x (y, st) := ⟨y, hs, .inl rfl⟩

theorem Steady.close (hs : Steady x y) : Routine x (closeClient y level) :=
  ⟨y, hs, .inr ⟨level, rfl⟩⟩

theorem Routine.accounts (hr : Routine x r) (h : Accounts x.id x.w) (hb : Backed x) :
    Accounts x.id r.1.w := by
  obtain ⟨y, hs, rfl | ⟨level, rfl⟩⟩ := hr
  · exact hs.accounts h
  · have hacc := hs.accounts h
    rw [← hs.id_eq] at hacc ⊢
    exact closeClient_accounts hacc (hs.backed hb) level

theorem readAuthMethod_routine (hr : readAuthMethod e fd x = .ok r) : Routine x r := by
  rcases readAuthMethod_cases hr with rfl | rfl | ⟨n, hn, v, ms, rfl⟩
  · exact readClient_steady.close
  · exact readClient_steady.routine
  have hs : Steady x ((x.readClient e).consume n hn) := readClient_steady.trans consume_steady
  have hg : ∀ y : Ctx, Steady y (y.log (.greeting y.id v ms y.w.users)) := fun y =>
    Still.log.steady rfl rfl rfl
  have hreply := fun m => (hs.trans (hg _)).trans (simpleReply_steady (v := serverVersion) (m := m))
  rcases answerGreeting_cases ((x.readClient e).consume n hn) v ms with
    ha | ⟨-, -, -, ha⟩ | ⟨-, -, ha⟩
  · rw [ha]
    exact (hreply 0xFF).close
  · rw [ha]
    exact ((hreply 0x0).trans expectWrite_steady).routine
  · rw [ha]
    exact ((hreply 0x2).trans expectWrite_steady).routine

theorem readPlainAuth_routine (hr : readPlainAuth e fd x = .ok r) : Routine x r := by
  rcases readPlainAuth_cases hr with rfl | rfl | ⟨n, hn, v, user, pass, rfl⟩
  · exact readClient_steady.close
  · exact readClient_steady.routine
  have hs : Steady x ((x.readClient e).consume n hn) := readClient_steady.trans consume_steady
  have hg : ∀ y : Ctx, Steady y ((y.setUser (cString user)).log
      (.credentials y.id (cString user) (cString pass) y.w.users)) := fun y =>
    (Still.setUser.trans .log).steady rfl rfl rfl
  have hreply := fun m => (hs.trans (hg _)).trans
    (simpleReply_steady (v := plainAuthVersion) (m := m))
  rcases answerCredentials_cases ((x.readClient e).consume n hn) v user pass with
    ha | ⟨-, ha⟩ | ⟨-, ha⟩
  · rw [ha]
    exact (hs.trans simpleReply_steady).close
  · rw [ha]
    exact ((hreply 0x0).trans expectWrite_steady).routine
  · rw [ha]
    exact (hreply 0x1).close

theorem readProxyRequest_routine (hr : readProxyRequest e fd x = .ok r) : Routine x r := by
  have hread : ∀ a, Steady x ((x.readClient e).setAtyp a) := fun a =>
    readClient_steady.trans setAtyp_steady
  rcases readProxyRequest_cases hr with ⟨a, rfl⟩ | ⟨a, reply, -, rfl⟩ | ⟨a, n, hn, reply, -, rfl⟩ |
    ⟨a, n, k, hn, hs⟩
  · exact (hread a).routine
  · exact ((hread a).trans putReply_steady).close
  · exact (((hread a).trans consume_steady).trans putReply_steady).close
  generalize hy : ((x.readClient e).setAtyp a).consume n hn = y at hs
  have hsel : Steady x (y.sel (selectorRemoveInterest y.w.selector y.c.clientSock opRead)) :=
    (hy ▸ (hread a).trans consume_steady).trans (.sel .removeInterest)
  rcases startRequest_cases hs with ⟨addr, -, -, rfl⟩ | ⟨fqdn, port, -, rfl⟩ | ⟨a, -, rfl⟩
  · exact ((hsel.trans setAddr_steady).trans putReply_steady).close
  · exact (hsel.trans (Still.setDest.steady_silent rfl)).routine
  · exact (hsel.trans setAddr_steady).routine

theorem handleProxyRead_routine (hr : handleProxyRead e fd x = .ok r) : Routine x r := by
  rcases handleProxyRead_cases hr with ⟨-, ⟨-, rfl⟩ | rfl | ⟨p, rfl⟩⟩ |
    ⟨-, -, ⟨-, rfl⟩ | rfl | ⟨p, rfl⟩⟩
  · exact (Steady.sel .maskInterest).routine
  · exact readClient_steady.close
  · exact ((readClient_steady.trans (.sel .unmaskInterest)).trans setParser_steady).routine
  · exact (Steady.sel .maskInterest).routine
  · exact readOrigin_steady.close
  · exact ((readOrigin_steady.trans (.sel .unmaskInterest)).trans setParser_steady).routine

theorem handleProxyWrite_routine (hr : handleProxyWrite e fd x = .ok r) : Routine x r := by
  rcases handleProxyWrite_cases hr with
    ⟨-, ⟨-, -, -, rfl⟩ | ⟨-, -, rfl⟩ | ⟨-, -, rfl⟩ | ⟨n, -, rfl⟩⟩ |
    ⟨-, -, ⟨-, -, rfl⟩ | ⟨-, -, rfl⟩ | ⟨-, -, rfl⟩ | ⟨n, -, rfl⟩⟩
  · exact (Steady.refl x).close
  · exact (Steady.sel .maskInterest).routine
  · exact writeClient_steady.close
  · exact ((writeClient_steady.trans (.sel .unmaskInterest)).trans addBytes_steady).routine
  · exact (Steady.refl x).close
  · exact (Steady.sel .maskInterest).routine
  · exact writeOrigin_steady.close
  · exact ((writeOrigin_steady.trans (.sel .unmaskInterest)).trans addBytes_steady).routine

/-! ## Connecting -/

/-- An attempt to connect does not fail. -/
def ConnectSound : Server → ClientId → Client → ℤ → Env → Prop := fun s _ c fd e =>
  c.current = some .connecting →
    if fd = c.clientSock then
      c.currAddr ≠ .null → freshFd s.w e.socket ≠ none → ∀ err, e.connect ≠ .failed err
    else e.soError = none

theorem Backed.solo (hends : x.c.activeEnds = clientEnds)
    (hreg : Registered x.id x.w x.c.clientSock) : Backed x :=
  ⟨fun _ => hreg, by rw [hends]; simp [clientEnds]⟩

/-- An error exit while connecting. -/
theorem Accounts.refuse {r : ServerReplyType} (h : Accounts x.id x.w)
    (hends : x.c.activeEnds = clientEnds) (hreg : Registered x.id x.w x.c.clientSock) :
    Accounts x.id (closeClient (failReply x r) clientReadEnd).1.w :=
  (Steady.close putReply_steady).accounts h (.solo hends hreg)

theorem tryConnect_accounts (h : Accounts x.id x.w) (hends : x.c.activeEnds = clientEnds)
    (hreg : Registered x.id x.w x.c.clientSock) (hcap : itemsMaxSize ≤ x.w.selector.fdSize)
    (hok : freshFd x.w e.socket ≠ none → ∀ err, e.connect ≠ .failed err)
    (hr : tryConnect e x = .ok r) : Accounts x.id r.1.w := by
  obtain ⟨-, -, ⟨-, -, rfl⟩ | ⟨fd, hfd, hc⟩⟩ := tryConnect_cases hr
  · exact Accounts.refuse (x := x.setOrigin (-1)) h hends hreg
  obtain ⟨hpos, hfresh⟩ := h.fresh_pos hfd
  have hx : Accounts (x.setOrigin fd).id (x.setOrigin fd).w := h
  rcases connectTo_cases hc with ⟨err, herr, -, rfl⟩ | ⟨-, -, -, rfl⟩ | ⟨-, hs, rfl⟩
  · exact absurd herr (hok (by rw [hfd]; simp) err)
  · have hb := hx.bounce hpos hfresh
    have hid : (((x.setOrigin fd).openSock fd).close fd).id = x.id := Closes.close.id_eq
    have hacc : Accounts (((x.setOrigin fd).openSock fd).close fd).id _ := hid ▸ hb
    have href := hacc.refuse (r := .serverFailure) (by rw [close_c]; exact hends) (by
      rw [close_c, hid, Registered, close_selector]
      exact hreg)
    rw [hid] at href
    exact href
  · exact hx.join hfresh hcap hs

theorem originCheckConnection_accounts (h : Accounts x.id x.w)
    (hc : Connecting x.id x.c x.w.selector) (hcap : itemsMaxSize ≤ x.w.selector.fdSize)
    (hcur : x.c.current = some .connecting) (hs : s.w = x.w) (hok : ConnectSound s id x.c fd e)
    (hr : originCheckConnection e fd x = .ok r) : Accounts x.id r.1.w := by
  have hends := hc.ends
  have hreg : Registered x.id x.w x.c.clientSock := by
    rcases hc with ha | ⟨-, hj⟩
    · exact ha.held.registered
    · exact hj.client.registered
  have hsel : Steady x (x.sel (selectorRemoveInterest x.w.selector x.c.clientSock opWrite)) :=
    .sel .removeInterest
  have hsound := hok hcur
  rcases originCheckConnection_cases hr with ⟨-, -, -, rfl⟩ | ⟨hfd, ht⟩ | ⟨-, -, a, ht⟩ |
    ⟨hfd, err, next, hso, ht⟩
  · exact (hsel.trans putReply_steady).close.accounts h (.solo hends hreg)
  · rw [if_pos hfd, hs] at hsound
    have hnull : x.c.currAddr ≠ .null := (tryConnect_cases ht).1
    refine tryConnect_accounts (x := x.sel _) (hsel.accounts h) hends ?_ ?_ (hsound hnull) ht
    · exact hsel.neutral.registered.mpr hreg
    · exact Nat.le_trans hcap (Nat.le_of_eq updateItem_fdSize.symm)
  · obtain ⟨-, p, rfl⟩ := enterProxy_ok ht
    have hjoin : Neutral x.w (joinOrigin x).w := Neutral.setInterest.trans .setInterest
    exact ((hjoin.trans putReply_steady.neutral).trans setParser_steady.neutral).accounts h
  · rw [if_neg hfd, hso] at hsound
    cases hsound

/-! ## Events -/

theorem Ctl.backed {st : Socks5State} (h : Ctl x.id x.c x.w.selector (some st)) : Backed x := by
  cases st with
  | authMethod | plainAuth | request | resolving =>
    exact .solo (Alone.ends h) (Alone.held h).registered
  | connecting =>
    refine .solo (Connecting.ends h) ?_
    rcases h with ha | ⟨-, hj⟩
    · exact ha.held.registered
    · exact hj.client.registered
  | proxy =>
    have hj := Relaying.joined h
    exact ⟨fun _ => hj.client.registered, fun _ => ⟨hj.origin.registered, hj.ne⟩⟩
  | writeRemaining =>
    rcases h with ⟨he, -, hc⟩ | ⟨-, hne, -, hc, ho⟩
    · exact ⟨fun _ => hc.registered, by rw [he]; simp [clientWriteEnd]⟩
    · exact ⟨fun _ => hc.registered, fun _ => ⟨ho.registered, hne⟩⟩
  | done => exact h.elim

theorem jump_neutral (hj : jump r = .ok o) : Neutral r.1.w o.w := by
  rcases jump_cases hj with ⟨-, rfl⟩ | ⟨-, ha⟩
  · exact .refl _
  obtain ⟨y, st⟩ := r
  cases st with
  | authMethod | plainAuth | request | proxy => cases ha; exact .refl _
  | resolving => cases ha; exact .of_log rfl rfl rfl rfl rfl rfl
  | connecting => cases ha; exact Neutral.addInterest
  | writeRemaining =>
    cases ha
    have h :
        Neutral (y.setCurrent .writeRemaining).w (enableWrite (y.setCurrent .writeRemaining)).w :=
      enableWrite_neutral
    exact h
  | done =>
    rw [clientDestroy_ok ha]
    exact .of_log rfl rfl rfl rfl rfl rfl

section
variable (hctl : Ctl x.id x.c x.w.selector x.c.current)
  (hheld : Held (.socks5 x.id) x.w.selector fd i m) (h : Accounts x.id x.w)
include hctl hheld h

theorem stmHandlerRead_accounts (hi : i.read = true) (ho : stmHandlerRead e fd x = .ok o) :
    Accounts x.id o.w := by
  obtain ⟨hid, hw⟩ := handleFirst_same x
  obtain ⟨st, r, hh⟩ := stmHandlerRead_handling hctl hheld hi ho
  obtain ⟨handler, hready, hr⟩ := hh.result
  have hb := hh.ctl.backed
  have hacc : Accounts (handleFirst x).id (handleFirst x).w := by
    rw [hid, hw]
    exact h
  have hres : Accounts (handleFirst x).id r.1.w := by
    cases st with
    | authMethod => cases hready; exact (readAuthMethod_routine hr).accounts hacc hb
    | plainAuth => cases hready; exact (readPlainAuth_routine hr).accounts hacc hb
    | request => cases hready; exact (readProxyRequest_routine hr).accounts hacc hb
    | proxy => cases hready; exact (handleProxyRead_routine hr).accounts hacc hb
    | resolving | connecting | done | writeRemaining => cases hready
  rw [hid] at hres
  exact (jump_neutral hh.jump).accounts hres

theorem stmHandlerWrite_accounts (hi : i.write = true) (hcap : itemsMaxSize ≤ x.w.selector.fdSize)
    (hs : s.w = x.w) (hok : ConnectSound s x.id x.c fd e) (ho : stmHandlerWrite e fd x = .ok o) :
    Accounts x.id o.w := by
  obtain ⟨hid, hw⟩ := handleFirst_same x
  obtain ⟨st, r, hh⟩ := stmHandlerWrite_handling hctl hheld hi hcap ho
  obtain ⟨handler, hready, hr⟩ := hh.result
  have hb := hh.ctl.backed
  have hacc : Accounts (handleFirst x).id (handleFirst x).w := by
    rw [hid, hw]
    exact h
  have hres : Accounts (handleFirst x).id r.1.w := by
    cases st with
    | plainAuth | request | resolving | proxy | writeRemaining =>
      cases hready
      exact (handleProxyWrite_routine hr).accounts hacc hb
    | connecting =>
      cases hready
      have hx : handleFirst x = x := handleFirst_of_ne hh.current (by decide)
      rw [hx] at hh hr hacc ⊢
      exact originCheckConnection_accounts hacc hh.ctl hcap hh.current hs hok hr
    | authMethod | done => cases hready
  rw [hid] at hres
  exact (jump_neutral hh.jump).accounts hres

end

/-! ## Moves -/

/-- The accounts of all clients. A client whose descriptor is too large for the
selector is never registered, and nothing happens to it any more. -/
structure Ledgers (s : Server) : Prop where
  distinct : (opened s.w.log).Nodup
  bound : ∀ k ∈ opened s.w.log, k < s.w.nextSock
  ledger : ∀ id, (∃ fds, Ledger id s.w fds) ∨
    (∃ c, s.heap id = some c ∧ invalidFd c.clientSock = true) ∧ closings (history id s.w.log) = []

theorem Ledgers.accounts (h : Ledgers s) (hinv : Inv s) (hl : ∃ fds, Ledger id s.w fds) :
    Accounts id s.w := by
  obtain ⟨it, hit, hd⟩ := hinv.listener
  exact ⟨hinv.regOpen, by rw [hit, Option.map_some, hd], h.distinct, h.bound, hl⟩

/-- A client that an event reaches has a descriptor that the selector takes. -/
theorem Ctl.valid (hctl : Ctl x.id x.c x.w.selector x.c.current)
    (hheld : Held (.socks5 x.id) x.w.selector fd i m) : invalidFd x.c.clientSock = false := by
  cases hcur : x.c.current with
  | none =>
    rw [hcur] at hctl
    have hfd : fd = x.c.clientSock := by simpa using hheld.mem (Accepted.only hctl)
    exact hfd ▸ hheld.valid
  | some st =>
    rw [hcur] at hctl
    have hends : (x.c.activeEnds.clientWrite || x.c.activeEnds.clientRead) = true := by
      cases st with
      | authMethod | plainAuth | request | resolving => rw [Alone.ends hctl]; rfl
      | connecting => rw [Connecting.ends hctl]; rfl
      | proxy => rw [Relaying.clientWrite hctl]; rfl
      | writeRemaining => rcases hctl with ⟨he, -⟩ | ⟨he, -⟩ <;> rw [he] <;> rfl
      | done => exact hctl.elim
    obtain ⟨it, hit, -⟩ := Option.map_eq_some_iff.mp (hctl.backed.client hends)
    exact valid_of_item? hit

theorem Ledgers.of_hit {fd : ℤ} (h : Ledgers s) (hinv : Inv s) (hhit : Hit s id c fd i) :
    Accounts id s.w := by
  obtain ⟨m, hheld⟩ := hhit.held
  refine h.accounts hinv ((h.ledger id).resolve_right ?_)
  rintro ⟨⟨c', hc', hinvalid⟩, -⟩
  rw [hhit.heap, Option.some.injEq] at hc'
  have hv := Ctl.valid (x := ⟨id, c, s.w⟩) (hhit.ctl hinv) hheld
  rw [← hc'] at hinvalid
  rw [show invalidFd c.clientSock = false from hv] at hinvalid
  cases hinvalid

/-- What is done for one owner leaves the ledger of another client alone. -/
theorem Ledger.frame {d : Handler} {w w' : World} {fds : List ℤ} (h : Ledger id w fds)
    (hd : Handler.socks5 id ≠ d) (hs : Spares d w.selector w'.selector)
    (ht : ∀ fd it, item? w.selector fd = some it → it.data ≠ some d → w'.fdTable fd = w.fdTable fd)
    (hh : history id w'.log = history id w.log) : Ledger id w' fds := by
  have hreg : ∀ fd, Registered id w' fd ↔ Registered id w fd := by
    intro fd
    refine ⟨?_, ?_⟩
    · intro hr
      obtain ⟨it, hit, hdata⟩ := Option.map_eq_some_iff.mp hr
      obtain ⟨it', hit', hdata'⟩ := hs.back fd it hit (by rw [hdata]; simpa using hd)
      rw [Registered, hit', Option.map_some, hdata', hdata]
    · intro hr
      obtain ⟨it, hit, hdata⟩ := Option.map_eq_some_iff.mp hr
      obtain ⟨it', hit', hdata', -⟩ := hs.kept fd it hit (by rw [hdata]; simpa using hd)
      rw [Registered, hit', Option.map_some, hdata', hdata]
  have hmap : fds.map w'.fdTable = fds.map w.fdTable := by
    refine List.map_congr_left fun fd hfd => ?_
    obtain ⟨it, hit, hdata⟩ := Option.map_eq_some_iff.mp ((h.registered fd).mp hfd)
    exact ht fd it hit (by rw [hdata]; simpa using hd)
  refine ⟨h.nodup, fun fd => (h.registered fd).trans (hreg fd).symm, ?_⟩
  rw [hh, hmap]
  exact h.perm

theorem Ledgers.run {handler : Ctx → Except Fault Outcome} (h : Ledgers s) (hinv : Inv s)
    (hc : s.heap id = some c) (hk : Kept ⟨id, c, s.w⟩ (handler ⟨id, c, s.w⟩))
    (ha : ∀ o, handler ⟨id, c, s.w⟩ = .ok o → Accounts id o.w) : Ledgers (s.run id handler) := by
  cases hr : handler ⟨id, c, s.w⟩ with
  | error f =>
    rw [run_error hc hr]
    exact ⟨h.distinct, h.bound, h.ledger⟩
  | ok o =>
    have hacc := ha o hr
    have hloc := (hk.ok o hr).2
    rw [run_ok hc hr]
    refine ⟨hacc.distinct, hacc.bound, ?_⟩
    intro j
    by_cases hji : j = id
    · subst hji
      exact .inl hacc.ledger
    · rcases h.ledger j with ⟨fds, hl⟩ | ⟨⟨cj, hcj, hinvalid⟩, hnil⟩
      · exact .inl ⟨fds, hl.frame (by simpa using hji) hloc.spares (hloc.table hinv.regOpen)
          (hloc.history j hji)⟩
      · refine .inr ⟨⟨cj, ?_, hinvalid⟩, ?_⟩
        · dsimp only
          rw [Function.update_of_ne hji]
          exact hcj
        · dsimp only
          rw [hloc.history j hji]
          exact hnil

theorem Ledgers.of_world (h : Ledgers s) (hsel : s'.w.selector = s.w.selector)
    (ht : s'.w.fdTable = s.w.fdTable) (hn : s'.w.nextSock = s.w.nextSock)
    (hl : s'.w.log = s.w.log)
    (hheap : ∀ j c, s.heap j = some c → ∃ c', s'.heap j = some c' ∧ c'.clientSock = c.clientSock) :
    Ledgers s' := by
  have hneutral : Neutral s.w s'.w := .of_eq hsel ht hn hl
  refine ⟨by rw [hl]; exact h.distinct, by rw [hl, hn]; exact h.bound, ?_⟩
  intro j
  rcases h.ledger j with ⟨fds, hj⟩ | ⟨⟨c, hc, hinvalid⟩, hnil⟩
  · exact .inl ⟨fds, hneutral.ledger hj⟩
  · obtain ⟨c', hc', hsock⟩ := hheap j c hc
    exact .inr ⟨⟨c', hc', by rw [hsock]; exact hinvalid⟩, by rw [hl]; exact hnil⟩

theorem Background.neutral {w w' : World} (hb : Background w w') : Neutral w w' :=
  .of_eq hb.selector hb.fdTable hb.nextSock hb.log

/-- A descriptor that others have registered keeps its socket when a fresh one is opened. -/
theorem RegOpen.update_fresh {w : World} {k : Option SockId} (h : RegOpen w)
    (hfresh : w.fdTable fd = none) {fd' : ℤ} {it : Item Handler}
    (hit : item? w.selector fd' = some it) :
    Function.update w.fdTable fd k fd' = w.fdTable fd' := by
  refine Function.update_of_ne ?_ _ _
  rintro rfl
  exact h fd' (by rw [hit]; simp) hfresh

theorem Ledgers.accept {w : World} (h : Ledgers s) (hinv : Inv s) (hb : Background s.w w)
    (hfd : freshFd w e.socket = some fd) :
    Ledgers { s with
      w := acceptWorld w s.nextId fd
      heap := Function.update s.heap s.nextId (some (createClient fd w.buffsize e))
      nextId := s.nextId + 1 } := by
  have hw : Ledgers { s with w := w } :=
    h.of_world hb.selector hb.fdTable hb.nextSock hb.log fun j c hc => ⟨c, hc, rfl⟩
  have hwinv := hinv.background hb
  have hcap : itemsMaxSize ≤ w.selector.fdSize := hwinv.cap
  have hfresh := (freshFd_some hfd).2
  obtain ⟨hd, hbound⟩ := opened_fresh hw.distinct hw.bound
  have hlog : opened (acceptWorld w s.nextId fd).log = opened w.log ++ [w.nextSock] := by
    rw [acceptWorld, opened_append, opened_accepted]
  have hist : ∀ j, history j (acceptWorld w s.nextId fd).log =
      history j w.log ++ if s.nextId = j then [.accepted s.nextId w.nextSock] else [] := fun j => by
    rw [acceptWorld, history_append, history_singleton]
    rfl
  refine ⟨by rw [hlog]; exact hd, by rw [hlog]; exact hbound, ?_⟩
  intro j
  by_cases hj : j = s.nextId
  · subst hj
    have hnil : history s.nextId w.log = [] := by
      rw [hb.log]
      exact (hinv.fresh _ (Nat.le_refl _)).2
    have hist' := hist s.nextId
    rw [hnil, if_pos rfl, List.nil_append] at hist'
    have hnone : OnlyAt (.socks5 s.nextId) w.selector [] :=
      hwinv.dead _ (hinv.fresh _ (Nat.le_refl _)).1
    rcases register_fresh (i := opRead) (d := .socks5 s.nextId) hcap hwinv.regOpen hfresh with
      ⟨-, -, hinvalid⟩ | ⟨-, -, hit⟩
    · refine .inr ⟨⟨_, Function.update_self .., hinvalid⟩, ?_⟩
      dsimp only
      rw [hist', closings_accepted]
    · refine .inl ⟨[fd], List.pairwise_singleton _ fd, ?_, ?_⟩
      · intro fd'
        rw [Registered, List.mem_singleton]
        dsimp only [acceptWorld]
        rw [hit]
        by_cases heq : fd' = fd
        · simp [heq, newItem]
        · simp only [heq, ↓reduceIte, false_iff]
          intro hr
          obtain ⟨it, hit', hdata⟩ := Option.map_eq_some_iff.mp hr
          exact absurd (hnone fd' it hit' hdata) List.not_mem_nil
      · dsimp only
        rw [hist']
        simp [acceptWorld]
  · have hown : history j (acceptWorld w s.nextId fd).log = history j w.log := by
      rw [hist, if_neg (Ne.symm hj), List.append_nil]
    rcases hw.ledger j with ⟨fds, hl⟩ | ⟨⟨c, hc, hinvalid⟩, hnil⟩
    · exact .inl ⟨fds, hl.frame (d := .socks5 s.nextId) (by simpa using hj)
        (Spares.register true hcap)
          (fun fd' it hit _ => hwinv.regOpen.update_fresh hfresh hit) hown⟩
    · refine .inr ⟨⟨c, ?_, hinvalid⟩, ?_⟩
      · dsimp only
        rw [Function.update_of_ne hj]
        exact hc
      · dsimp only
        rw [hown]
        exact hnil

/-- What is done for management leaves the ledgers of all clients alone. -/
theorem Ledgers.mgmt {w' : World} (h : Ledgers s) (hs : Spares .mgmt s.w.selector w'.selector)
    (ht : ∀ fd it, item? s.w.selector fd = some it → it.data ≠ some .mgmt →
      w'.fdTable fd = s.w.fdTable fd)
    (hn : s.w.nextSock ≤ w'.nextSock) (hl : w'.log = s.w.log) : Ledgers { s with w := w' } := by
  refine ⟨?_, ?_, ?_⟩
  · dsimp only
    rw [hl]
    exact h.distinct
  · dsimp only
    rw [hl]
    exact fun k hk => Nat.lt_of_lt_of_le (h.bound k hk) hn
  · intro j
    have hown : history j w'.log = history j s.w.log := by rw [hl]
    rcases h.ledger j with ⟨fds, hj⟩ | ⟨hc, hnil⟩
    · exact .inl ⟨fds, hj.frame (by simp) hs ht hown⟩
    · exact .inr ⟨hc, by dsimp only; rw [hown]; exact hnil⟩

theorem Ledgers.move (h : Ledgers s) (hinv : Inv s) (hm : Move ConnectSound s s') : Ledgers s' := by
  cases hm with
  | background w hb =>
    exact h.of_world hb.selector hb.fdTable hb.nextSock hb.log fun j c hc => ⟨c, hc, rfl⟩
  | nullHandler => exact ⟨h.distinct, h.bound, h.ledger⟩
  | stale id _ _ => exact ⟨h.distinct, h.bound, h.ledger⟩
  | read id c fd i e hhit hi =>
    obtain ⟨m, hheld⟩ := hhit.held
    have hctl := hhit.ctl hinv
    exact h.run hinv hhit.heap (stmHandlerRead_kept (x := ⟨id, c, s.w⟩) hctl hheld hi) fun o ho =>
      stmHandlerRead_accounts (x := ⟨id, c, s.w⟩) hctl hheld (h.of_hit hinv hhit) hi ho
  | write id c fd i e hhit hi hok =>
    obtain ⟨m, hheld⟩ := hhit.held
    have hctl := hhit.ctl hinv
    exact h.run hinv hhit.heap (stmHandlerWrite_kept (x := ⟨id, c, s.w⟩) hctl hheld hi hinv.cap)
      fun o ho => stmHandlerWrite_accounts (x := ⟨id, c, s.w⟩) hctl hheld (h.of_hit hinv hhit) hi
        hinv.cap rfl hok ho
  | accept w fd e hb hfd => exact h.accept hinv hb hfd
  | mgmtAccept w fd e hb hfd _ =>
    have hw := hinv.background hb
    refine h.mgmt ?_ ?_ ?_ hb.log
    · rw [← hb.selector]
      exact Spares.register true hw.cap
    · intro fd' it hit _
      rw [← hb.selector] at hit
      rw [← hb.fdTable]
      exact hw.regOpen.update_fresh (freshFd_some hfd).2 hit
    · rw [← hb.nextSock]
      exact Nat.le_succ _
  | mgmtClose fd it hit hd =>
    have hown : ∀ it', item? s.w.selector fd = some it' → it'.data = some .mgmt := by
      intro it' hit'
      rw [hit, Option.some.injEq] at hit'
      exact hit' ▸ hd
    refine h.mgmt (Spares.unregister hown) ?_ (Nat.le_refl _) rfl
    intro fd' it' hit' hd'
    refine Function.update_of_ne ?_ _ _
    rintro rfl
    exact hd' (hown it' hit')
  | resolved id c addrs _ hc =>
    refine h.of_world rfl rfl rfl rfl ?_
    intro j cj hj
    by_cases hji : j = id
    · subst hji
      rw [hc, Option.some.injEq] at hj
      exact ⟨_, Function.update_self .., hj ▸ rfl⟩
    · exact ⟨cj, by dsimp only; rw [Function.update_of_ne hji]; exact hj, rfl⟩
  | block j jobs id c i _ hhit =>
    have hk : Kept ⟨id, c, { s.w with resolutionJobs := jobs }⟩ (stmHandlerBlock _) :=
      stmHandlerBlock_kept (hhit.ctl hinv)
    have hl : Ledgers { s with w := { s.w with resolutionJobs := jobs } } :=
      h.of_world rfl rfl rfl rfl fun j c hc => ⟨c, hc, rfl⟩
    refine hl.run ?_ hhit.heap hk fun o ho => ?_
    · exact ⟨hinv.selector, hinv.cap, hinv.regOpen, hinv.listener, hinv.buffsize, hinv.live,
        hinv.dead, hinv.fresh, hinv.faults⟩
    · have hn : Neutral s.w { s.w with resolutionJobs := jobs } := .of_eq rfl rfl rfl rfl
      have hacc := hn.accounts (h.of_hit hinv hhit)
      obtain ⟨-, hj⟩ := stmHandlerBlock_cases ho
      exact (jump_neutral hj).accounts hacc
  | drop j jobs halted _ _ _ => exact h.of_world rfl rfl rfl rfl fun j c hc => ⟨c, hc, rfl⟩

theorem boot_ledgers (users : UserTable) (masters monitors : List ℤ) :
    Ledgers (boot users masters monitors) := by
  have hinv := boot_inv users masters monitors
  refine ⟨List.nodup_nil, ?_, ?_⟩
  · intro k hk
    exact absurd hk List.not_mem_nil
  · intro id
    refine .inl ⟨[], List.nodup_nil, ?_, .refl _⟩
    intro fd
    refine ⟨fun hmem => absurd hmem List.not_mem_nil, fun hr => ?_⟩
    obtain ⟨it, hit, hdata⟩ := Option.map_eq_some_iff.mp hr
    exact hinv.dead id rfl fd it hit hdata

/-! ## The end of a client -/

/-- A socket is opened at most once, for one client. -/
theorem Ledgers.opener (h : Ledgers s) {o o' : Obs} {k : SockId} (ho : o ∈ s.w.log)
    (ho' : o' ∈ s.w.log) (hk : o.opens = some k) (hk' : o'.opens = some k) : o = o' := by
  by_contra hne
  have hp := List.pairwise_filterMap.mp h.distinct
  have hsymm : Std.Symm fun a a' : Obs =>
      ∀ b, a.opens = some b → ∀ b', a'.opens = some b' → b ≠ b' :=
    ⟨fun a a' haa b hb b' hb' => Ne.symm (haa b' hb' b hb)⟩
  exact hp.forall ho ho' hne k hk k hk' rfl

/-- What is closed for a client was opened for it. -/
theorem Ledgers.closed_opened (h : Ledgers s) {fd : ℤ} {k : SockId}
    (hc : .closed id fd (some k) ∈ s.w.log) : ∃ o ∈ s.w.log, o.opens = some k ∧ o.owner = id := by
  have hmem : some k ∈ closings (history id s.w.log) :=
    List.mem_filterMap.mpr ⟨_, mem_history.mpr ⟨hc, rfl⟩, rfl⟩
  rcases h.ledger id with ⟨fds, hl⟩ | ⟨-, hnil⟩
  · obtain ⟨k', hk', heq⟩ := List.mem_map.mp (hl.perm.mem_iff.mpr (List.mem_append_left _ hmem))
    obtain ⟨o, ho, hopens⟩ := List.mem_filterMap.mp hk'
    cases heq
    exact ⟨o, (mem_history.mp ho).1, hopens, (mem_history.mp ho).2⟩
  · rw [hnil] at hmem
    exact absurd hmem List.not_mem_nil

theorem Ledgers.closings_eq (h : Ledgers s) {o : Obs} {k : SockId} (ho : o ∈ s.w.log)
    (hk : o.opens = some k) (hid : o.owner = id) :
    (closings s.w.log).count (some k) = (closings (history id s.w.log)).count (some k) := by
  rw [closings, closings, List.count_filterMap, List.count_filterMap, history, List.countP_filter]
  refine List.countP_congr fun o' ho' => ?_
  simp only [beq_iff_eq, Bool.and_eq_true, decide_eq_true_eq]
  refine ⟨fun hc => ⟨hc, ?_⟩, And.left⟩
  cases o' with
  | closed j fd k' =>
    cases hc
    obtain ⟨o'', ho'', hk'', hj⟩ := h.closed_opened ho'
    have heq := h.opener ho ho'' hk hk''
    rw [← hid, heq, hj]
    rfl
  | _ => cases hc

/-- When a client is destroyed, each socket that was opened for it has been closed
once, if no attempt to connect failed. -/
theorem sockets_closed_once (users : UserTable) (masters monitors : List ℤ) (evs : List Event)
    (hok : Along step (WriteOk ConnectSound) (boot users masters monitors) evs) :
    let s := exec step (boot users masters monitors) evs
    ∀ id k, .destroyed id ∈ s.w.log → .accepted id k ∈ s.w.log ∨ .opened id k ∈ s.w.log →
      (closings s.w.log).count (some k) = 1 := by
  intro s id k hd hk
  obtain ⟨hinv, h⟩ : Inv s ∧ Ledgers s := run_invariant (boot_ledgers users masters monitors)
    (fun _ _ hinv hm h => h.move hinv hm) hok
  have hgone : Gone id s := (mortal.reachable users masters monitors evs).destroyed_gone hinv hd
  obtain ⟨o, ho, hopens, hown⟩ : ∃ o ∈ s.w.log, o.opens = some k ∧ o.owner = id := by
    rcases hk with hk | hk
    · exact ⟨_, hk, rfl, rfl⟩
    · exact ⟨_, hk, rfl, rfl⟩
  obtain ⟨fds, hl⟩ : ∃ fds, Ledger id s.w fds := by
    refine (h.ledger id).resolve_right ?_
    rintro ⟨⟨c, hc, -⟩, -⟩
    rw [hgone.freed] at hc
    cases hc
  have hfds : fds = [] := by
    refine List.eq_nil_iff_forall_not_mem.mpr fun fd hfd => ?_
    obtain ⟨it, hit, hdata⟩ := Option.map_eq_some_iff.mp ((hl.registered fd).mp hfd)
    exact hgone.unregistered fd it hit hdata
  have hperm := hl.perm
  rw [hfds, List.map_nil, List.append_nil] at hperm
  have hnodup : (opened (history id s.w.log)).Nodup :=
    h.distinct.sublist (List.filter_sublist.filterMap _)
  have hmem : k ∈ opened (history id s.w.log) :=
    List.mem_filterMap.mpr ⟨o, mem_history.mpr ⟨ho, hown⟩, hopens⟩
  rw [h.closings_eq ho hopens hown, ← hperm.count_eq,
    List.count_map_of_injective _ _ fun _ _ => Option.some.inj]
  rw [hnodup.count, if_pos hmem]

/-- The condition asks nothing of runs in which no connection fails. -/
theorem along_connectSound {s : Server} {evs : List Event}
    (h : ∀ ev ∈ evs, match ev with
      | .dispatch _ _ _ _ ew => (∀ err, ew.connect ≠ .failed err) ∧ ew.soError = none
      | _ => True) : Along step (WriteOk ConnectSound) s evs := by
  refine along_writeOk (p := fun e => (∀ err, e.connect ≠ .failed err) ∧ e.soError = none) ?_ h
  intro s id c fd e he _
  split_ifs
  · exact fun _ _ => he.1
  · exact he.2

/-- Client and origin hang up. -/
theorem relay_sockets_closed_once :
    let evs := greet 3 ++ join 3 4 ++ [writable 3 (.fine [] 3), readable 3 (.fine [] 3),
      writable 4 (.fine [] 4), readable 4 (.fine [] 4), writable 3 (.fine [] 3)]
    let s := exec step (boot [] [] []) evs
    .destroyed 0 ∈ s.w.log ∧ .accepted 0 3 ∈ s.w.log ∧ .opened 0 4 ∈ s.w.log ∧
      (closings s.w.log).count (some 3) = 1 ∧ (closings s.w.log).count (some 4) = 1 := by
  intro evs s
  have hok : Along step (WriteOk ConnectSound) (boot [] [] []) evs := by
    refine along_connectSound ?_
    simp [evs, greet, join, readable, writable, Env.fine]
  have hd : .destroyed 0 ∈ s.w.log := by decide
  have hc : .accepted 0 3 ∈ s.w.log := by decide
  have ho : .opened 0 4 ∈ s.w.log := by decide
  have hone := sockets_closed_once [] [] [] evs hok
  exact ⟨hd, hc, ho, hone 0 3 hd (.inl hc), hone 0 4 hd (.inr ho)⟩

/-- The connection is refused at once. The client is told, drained and destroyed;
nobody closes the socket of the attempt. -/
theorem socket_of_refused_connect_leaks :
    let s := exec step (boot [] [] []) (greet 3 ++ [readable 3 (.fine connectRequest 3),
      writable 3 { Env.fine [] 4 with connect := .failed .other }, writable 3 (.fine [] 3),
      writable 3 (.fine [] 3)])
    .opened 0 4 ∈ s.w.log ∧ .destroyed 0 ∈ s.w.log ∧ (closings s.w.log).count (some 4) = 0 := by
  decide

end Socks5d

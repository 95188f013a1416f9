import Mathlib.Algebra.Order.BigOperators.Group.Finset
import Mathlib.Data.Int.Interval
import Socks5d.Accounting
import Socks5d.Descriptors

/-! # Admission and the limit of the selector

`add_proxy_client` and `add_mgmt_client` admit connections up to a weight of 1020. A
descriptor from 1024 on cannot be registered, so what is admitted has to fit below,
beside the standard streams and the listening sockets. -/

namespace Socks5d
open EventRun

variable {x y z : Ctx} {e : Env} {fd : ℤ} {r : Ctx × Socks5State} {o : Outcome} {id : ClientId}
  {c : Client} {s s' : Server} {w w' w'' : World} {level : SocketEnds}

/-! ## Open descriptors are registered -/

/-- Descriptor `fd` could be registered and is open, but nobody has registered it. -/
structure Loose (w : World) (fd : ℤ) : Prop where
  opened : w.fdTable fd ≠ none
  free : item? w.selector fd = none
  valid : invalidFd fd = false

/-- No descriptor comes loose. -/
def Tidy (w w' : World) : Prop := ∀ fd, Loose w' fd → Loose w fd

theorem Tidy.refl (w : World) : Tidy w w := fun _ h => h

theorem Tidy.trans (h : Tidy w w') (h' : Tidy w' w'') : Tidy w w'' := fun fd hl => h fd (h' fd hl)

theorem Tidy.of_eq (hs : w'.selector = w.selector) (ht : w'.fdTable = w.fdTable) : Tidy w w' := by
  intro fd hl
  exact ⟨by rw [← ht]; exact hl.opened, by rw [← hs]; exact hl.free, hl.valid⟩

theorem Neutral.tidy (h : Neutral w w') : Tidy w w' := by
  intro fd hl
  refine ⟨by rw [← h.fdTable_eq]; exact hl.opened, ?_, hl.valid⟩
  have hd := h.data_eq fd
  rw [hl.free, Option.map_none, eq_comm, Option.map_eq_none_iff] at hd
  exact hd

theorem close_fdTable {fd' : ℤ} :
    (x.close fd).w.fdTable fd' = if 0 < fd ∧ fd' = fd then none else x.w.fdTable fd' := by
  unfold Ctx.close
  by_cases hpos : 0 < fd
  · rw [if_pos hpos]
    dsimp only
    rw [Function.update_apply]
    by_cases heq : fd' = fd <;> simp [heq, hpos]
  · rw [if_neg hpos, if_neg fun h => hpos h.1]

/-- `close` leaves descriptor 0 alone, and no other. -/
theorem retire_tidy {b : Bool} (h : b = true → fd ≠ 0) : Tidy x.w (retire b fd x).w := by
  cases b with
  | false => exact .refl _
  | true =>
    intro fd' ⟨hopen, hfree, hvalid⟩
    have hrange := invalidFd_eq_false.mp hvalid
    have hne := h rfl
    simp only [retire, ↓reduceIte, close_selector, Ctx.sel, item?_unregister,
      close_fdTable] at hfree hopen
    have heq : fd' ≠ fd := by
      rintro rfl
      rw [if_pos ⟨by omega, rfl⟩] at hopen
      exact hopen rfl
    rw [if_neg heq] at hfree
    rw [if_neg fun h => heq h.2] at hopen
    exact ⟨hopen, hfree, hvalid⟩

/-- The sides that are active are not at descriptor 0. -/
structure Positive (c : Client) : Prop where
  client : (c.activeEnds.clientWrite || c.activeEnds.clientRead) = true → c.clientSock ≠ 0
  origin : (c.activeEnds.originWrite || c.activeEnds.originRead) = true → c.originSock ≠ 0

theorem closeEnds_tidy (level : SocketEnds) (h : Positive x.c) :
    Tidy x.w (closeEnds (level &&& x.c.activeEnds) x).w ∧
      Positive (closeEnds (level &&& x.c.activeEnds) x).c := by
  refine ⟨?_, ?_⟩
  · have hdrop : ∀ b fd i (x : Ctx), Tidy x.w (dropInterest b fd i x).w := fun b fd i x =>
      dropInterest_neutral.tidy
    have hends : ∀ (x : Ctx) ends, Tidy x.w (x.setEnds ends).w := fun x ends => .of_eq rfl rfl
    rw [closeEnds_bits]
    dsimp only
    refine ((((((hdrop _ _ _ _).trans (hdrop _ _ _ _)).trans (hdrop _ _ _ _)).trans
      (hdrop _ _ _ _)).trans (hends _ _)).trans (retire_tidy fun hb => h.client ?_)).trans
      (retire_tidy fun hb => h.origin ?_)
    · simp only [SocketEnds.and_clientWrite, SocketEnds.and_clientRead, Bool.and_eq_true,
        Bool.or_eq_true] at hb ⊢
      exact hb.1.imp And.right And.right
    · simp only [SocketEnds.and_originWrite, SocketEnds.and_originRead, Bool.and_eq_true,
        Bool.or_eq_true] at hb ⊢
      exact hb.1.imp And.right And.right
  · rw [closeEnds_c]
    refine ⟨fun ha => h.client ?_, fun ha => h.origin ?_⟩
    · simp only [SocketEnds.and_clientWrite, SocketEnds.and_clientRead, Bool.and_eq_true,
        Bool.or_eq_true] at ha ⊢
      exact ha.imp And.left And.left
    · simp only [SocketEnds.and_originWrite, SocketEnds.and_originRead, Bool.and_eq_true,
        Bool.or_eq_true] at ha ⊢
      exact ha.imp And.left And.left

theorem closeClientAux_tidy {n : ℕ} (level : SocketEnds) (h : Positive x.c) :
    Tidy x.w (closeClientAux n level x).1.w := by
  induction n generalizing level x with
  | zero => exact .refl _
  | succ n ih =>
    obtain ⟨ht, hp⟩ := closeEnds_tidy level h
    rw [closeClientAux]
    split_ifs
    · exact ht.trans (ih _ hp)
    · exact ht.trans (ih _ hp)
    · exact ht
    · exact ht
    · exact ht.trans enableWrite_neutral.tidy

theorem Routine.tidy (hr : Routine x r) (h : Positive x.c) : Tidy x.w r.1.w := by
  obtain ⟨y, hs, rfl | ⟨level, rfl⟩⟩ := hr
  · exact hs.neutral.tidy
  · have hp : Positive y.c := by
      refine ⟨?_, ?_⟩
      · rw [hs.ends_eq, hs.clientSock_eq]
        exact h.client
      · rw [hs.ends_eq, hs.originSock_eq]
        exact h.origin
    exact hs.neutral.tidy.trans (closeClientAux_tidy level hp)

/-! ## Handlers -/

/-- Whoever is registered is not at descriptor 0, which belongs to a listening socket. -/
theorem Registered.ne_zero (h : Registered id w fd)
    (hl : ∃ it, item? w.selector 0 = some it ∧ it.data = some .master) : fd ≠ 0 := by
  rintro rfl
  obtain ⟨it, hit, hd⟩ := hl
  rw [Registered, hit, Option.map_some, hd] at h
  cases h

theorem Backed.positive (h : Backed x)
    (hl : ∃ it, item? x.w.selector 0 = some it ∧ it.data = some .master) : Positive x.c :=
  ⟨fun ha => (h.client ha).ne_zero hl, fun ha => (h.origin ha).1.ne_zero hl⟩

section
variable {i m : FdInterest} {d : Handler} {k : Option SockId} (hopen : RegOpen w)
  (hcap : itemsMaxSize ≤ w.selector.fdSize) (hfresh : w.fdTable fd = none)
include hopen hcap hfresh

/-- A new descriptor is registered, or it is too large. -/
theorem Tidy.register (hs : w'.selector = (selectorRegister true w.selector fd i d).1)
    (ht : w'.fdTable = Function.update w.fdTable fd k) : Tidy w w' := by
  intro fd' ⟨hopen', hfree, hvalid⟩
  rw [hs] at hfree
  rw [ht] at hopen'
  rcases register_fresh (i := i) (d := d) hcap hopen hfresh with ⟨-, hsame, hinvalid⟩ | ⟨-, -, hit⟩
  · have hne : fd' ≠ fd := by
      rintro rfl
      rw [hvalid] at hinvalid
      cases hinvalid
    rw [hsame] at hfree
    rw [Function.update_of_ne hne] at hopen'
    exact ⟨hopen', hfree, hvalid⟩
  · rw [hit] at hfree
    split_ifs at hfree with hne
    rw [Function.update_of_ne hne] at hopen'
    exact ⟨hopen', hfree, hvalid⟩

end

theorem openSock_fdTable :
    (x.openSock fd).w.fdTable = Function.update x.w.fdTable fd (some x.w.nextSock) := rfl

theorem refuse_tidy {reply : ServerReplyType} (hends : x.c.activeEnds = clientEnds)
    (hp : x.c.clientSock ≠ 0) : Tidy x.w (closeClient (failReply x reply) clientReadEnd).1.w := by
  refine Routine.tidy (Steady.close putReply_steady) ⟨fun _ => hp, fun ha => ?_⟩
  rw [hends] at ha
  cases ha

theorem tryConnect_tidy (hends : x.c.activeEnds = clientEnds) (hp : x.c.clientSock ≠ 0)
    (hopen : RegOpen x.w) (hcap : itemsMaxSize ≤ x.w.selector.fdSize)
    (hok : freshFd x.w e.socket ≠ none → ∀ err, e.connect ≠ .failed err)
    (hr : tryConnect e x = .ok r) : Tidy x.w r.1.w := by
  obtain ⟨-, -, ⟨-, -, rfl⟩ | ⟨fd, hfd, hc⟩⟩ := tryConnect_cases hr
  · exact refuse_tidy (x := x.setOrigin (-1)) hends hp
  have hfresh := (freshFd_some hfd).2
  rcases connectTo_cases hc with ⟨err, herr, -, rfl⟩ | ⟨-, hs, -, rfl⟩ | ⟨-, hs, rfl⟩
  · exact absurd herr (hok (by rw [hfd]; simp) err)
  · have hinvalid : invalidFd fd = true := by
      rcases register_fresh (i := opWrite) (d := .socks5 x.id) hcap hopen hfresh with
        ⟨-, -, h⟩ | ⟨h, -⟩
      · exact h
      · exact absurd h hs
    have hclose : Tidy x.w (((x.setOrigin fd).openSock fd).close fd).w := by
      intro fd' ⟨hopen', hfree, hvalid⟩
      have hne : fd' ≠ fd := by
        rintro rfl
        rw [hvalid] at hinvalid
        cases hinvalid
      rw [close_selector] at hfree
      rw [close_fdTable, if_neg fun h => hne h.2, openSock_fdTable,
        Function.update_of_ne hne] at hopen'
      exact ⟨hopen', hfree, hvalid⟩
    refine hclose.trans (refuse_tidy ?_ ?_)
    · rw [close_c]
      exact hends
    · rw [close_c]
      exact hp
  · exact Tidy.register hopen hcap hfresh rfl rfl

theorem originCheckConnection_tidy (hc : Connecting x.id x.c x.w.selector)
    (hl : ∃ it, item? x.w.selector 0 = some it ∧ it.data = some .master) (hopen : RegOpen x.w)
    (hcap : itemsMaxSize ≤ x.w.selector.fdSize) (hcur : x.c.current = some .connecting)
    (hs : s.w = x.w) (hok : ConnectSound s id x.c fd e)
    (hr : originCheckConnection e fd x = .ok r) :
    Tidy x.w r.1.w := by
  have hends := hc.ends
  have hreg : Registered x.id x.w x.c.clientSock := by
    rcases hc with ha | ⟨-, hj⟩
    · exact ha.held.registered
    · exact hj.client.registered
  have hp := hreg.ne_zero hl
  have hsel : Neutral x.w (x.sel (selectorRemoveInterest x.w.selector x.c.clientSock opWrite)).w :=
    .removeInterest
  have hsound := hok hcur
  rcases originCheckConnection_cases hr with ⟨-, -, -, rfl⟩ | ⟨hfd, ht⟩ | ⟨-, -, a, ht⟩ |
    ⟨hfd, err, next, hso, ht⟩
  · exact hsel.tidy.trans (refuse_tidy hends hp)
  · rw [if_pos hfd, hs] at hsound
    have hnull : x.c.currAddr ≠ .null := (tryConnect_cases ht).1
    have hopen' :
        RegOpen (x.sel (selectorRemoveInterest x.w.selector x.c.clientSock opWrite)).w := by
      intro fd' hit
      refine hopen fd' fun hnone => hit ?_
      have hd := hsel.data_eq fd'
      rw [hnone, Option.map_none, Option.map_eq_none_iff] at hd
      exact hd
    refine hsel.tidy.trans (tryConnect_tidy (x := x.sel _) hends hp hopen' ?_ (hsound hnull) ht)
    exact Nat.le_trans hcap (Nat.le_of_eq updateItem_fdSize.symm)
  · obtain ⟨-, p, rfl⟩ := enterProxy_ok ht
    have hjoin : Neutral x.w (joinOrigin x).w := Neutral.setInterest.trans .setInterest
    exact ((hjoin.trans putReply_steady.neutral).trans setParser_steady.neutral).tidy
  · rw [if_neg hfd, hso] at hsound
    cases hsound

section
variable {i m : FdInterest} (hctl : Ctl x.id x.c x.w.selector x.c.current)
  (hheld : Held (.socks5 x.id) x.w.selector fd i m)
  (hl : ∃ it, item? x.w.selector 0 = some it ∧ it.data = some .master)
include hctl hheld hl

theorem stmHandlerRead_tidy (hi : i.read = true) (ho : stmHandlerRead e fd x = .ok o) :
    Tidy x.w o.w := by
  obtain ⟨-, hw⟩ := handleFirst_same x
  obtain ⟨st, r, hh⟩ := stmHandlerRead_handling hctl hheld hi ho
  obtain ⟨handler, hready, hr⟩ := hh.result
  have hp := hh.ctl.backed.positive (by rw [hw]; exact hl)
  have hres : Tidy (handleFirst x).w r.1.w := by
    cases st with
    | authMethod => cases hready; exact (readAuthMethod_routine hr).tidy hp
    | plainAuth => cases hready; exact (readPlainAuth_routine hr).tidy hp
    | request => cases hready; exact (readProxyRequest_routine hr).tidy hp
    | proxy => cases hready; exact (handleProxyRead_routine hr).tidy hp
    | resolving | connecting | done | writeRemaining => cases hready
  rw [hw] at hres
  exact hres.trans (jump_neutral hh.jump).tidy

theorem stmHandlerWrite_tidy (hi : i.write = true) (hopen : RegOpen x.w)
    (hcap : itemsMaxSize ≤ x.w.selector.fdSize) (hs : s.w = x.w)
    (hok : ConnectSound s x.id x.c fd e) (ho : stmHandlerWrite e fd x = .ok o) : Tidy x.w o.w := by
  obtain ⟨-, hw⟩ := handleFirst_same x
  obtain ⟨st, r, hh⟩ := stmHandlerWrite_handling hctl hheld hi hcap ho
  obtain ⟨handler, hready, hr⟩ := hh.result
  have hp := hh.ctl.backed.positive (by rw [hw]; exact hl)
  have hres : Tidy (handleFirst x).w r.1.w := by
    cases st with
    | plainAuth | request | resolving | proxy | writeRemaining =>
      cases hready
      exact (handleProxyWrite_routine hr).tidy hp
    | connecting =>
      cases hready
      have hx : handleFirst x = x := handleFirst_of_ne hh.current (by decide)
      rw [hx] at hh hr ⊢
      exact originCheckConnection_tidy hh.ctl hl hopen hcap hh.current hs hok hr
    | authMethod | done => cases hready
  rw [hw] at hres
  exact hres.trans (jump_neutral hh.jump).tidy

end

/-! ## Moves -/

theorem run_tidy {handler : Ctx → Except Fault Outcome} (hc : s.heap id = some c)
    (h : ∀ o, handler ⟨id, c, s.w⟩ = .ok o → Tidy s.w o.w) : Tidy s.w (s.run id handler).w := by
  cases hr : handler ⟨id, c, s.w⟩ with
  | error f =>
    rw [run_error hc hr]
    exact .refl _
  | ok o =>
    rw [run_ok hc hr]
    exact h o hr

theorem Background.tidy (hb : Background w w') : Tidy w w' := .of_eq hb.selector hb.fdTable

/-- When no attempt to connect fails, nothing comes loose. -/
theorem Inv.move_tidy (hinv : Inv s) (hm : Move ConnectSound s s') : Tidy s.w s'.w := by
  cases hm with
  | background w hb => exact hb.tidy
  | nullHandler => exact .refl _
  | stale id _ _ => exact .refl _
  | read id c fd i e hhit hi =>
    obtain ⟨m, hheld⟩ := hhit.held
    exact run_tidy hhit.heap fun o ho =>
      stmHandlerRead_tidy (x := ⟨id, c, s.w⟩) (hhit.ctl hinv) hheld hinv.listener hi ho
  | write id c fd i e hhit hi hok =>
    obtain ⟨m, hheld⟩ := hhit.held
    exact run_tidy hhit.heap fun o ho =>
      stmHandlerWrite_tidy (x := ⟨id, c, s.w⟩) (hhit.ctl hinv) hheld
      hinv.listener hi hinv.regOpen hinv.cap rfl hok ho
  | accept w fd e hb hfd =>
    have hw := hinv.background hb
    exact hb.tidy.trans (.register hw.regOpen hw.cap (freshFd_some hfd).2 rfl rfl)
  | mgmtAccept w fd e hb hfd _ =>
    have hw := hinv.background hb
    exact hb.tidy.trans (.register hw.regOpen hw.cap (freshFd_some hfd).2 rfl rfl)
  | mgmtClose fd it hit hd =>
    intro fd' ⟨hopen, hfree, hvalid⟩
    dsimp only [rmMgmtClient] at hopen hfree
    have hne : fd' ≠ fd := by
      rintro rfl
      rw [Function.update_self] at hopen
      exact hopen rfl
    rw [item?_unregister, if_neg hne] at hfree
    rw [Function.update_of_ne hne] at hopen
    exact ⟨hopen, hfree, hvalid⟩
  | resolved id c addrs _ hc => exact .of_eq rfl rfl
  | block j jobs id c i _ hhit =>
    have hjobs : Tidy s.w { s.w with resolutionJobs := jobs } := .of_eq rfl rfl
    refine hjobs.trans
      (run_tidy (s := { s with w := { s.w with resolutionJobs := jobs } }) hhit.heap fun o ho => ?_)
    exact (jump_neutral (stmHandlerBlock_cases ho).2).tidy
  | drop j jobs halted _ _ _ => exact .of_eq rfl rfl

/-! ## Counting descriptors -/

/-- The descriptors a client may have registered. -/
def clientFds (c : Client) : Finset ℤ :=
  if c.originSock = -1 then {c.clientSock} else {c.clientSock, c.originSock}

theorem card_clientFds_le (c : Client) : (clientFds c).card ≤ 2 := by
  unfold clientFds
  split_ifs
  · rw [Finset.card_singleton]
    decide
  · exact Finset.card_le_two

theorem Ctl.only {sel : FdSelector Handler} {st : Option Socks5State} (h : Ctl id c sel st) :
    OnlyAt (.socks5 id) sel [c.clientSock, c.originSock] := by
  have hwide : OnlyAt (.socks5 id) sel [c.clientSock] →
      OnlyAt (.socks5 id) sel [c.clientSock, c.originSock] :=
    fun ho fd it hit hd => List.mem_cons.mpr (.inl (List.mem_singleton.mp (ho fd it hit hd)))
  cases st with
  | none => exact hwide (Accepted.only h)
  | some st =>
    cases st with
    | authMethod | plainAuth | request | resolving => exact hwide (Alone.only h)
    | connecting => exact h.elim (fun ha => hwide ha.only) fun hj => hj.2.only
    | proxy => exact (Relaying.joined h).only
    | writeRemaining => exact h.elim (fun hd => hwide hd.2.1) fun hd => hd.2.2.1
    | done => exact h.elim

theorem Ctl.mem_clientFds {sel : FdSelector Handler} {st : Option Socks5State} {it : Item Handler}
    (h : Ctl id c sel st) (hit : item? sel fd = some it) (hd : it.data = some (.socks5 id)) :
    fd ∈ clientFds c := by
  have hvalid := invalidFd_eq_false.mp (valid_of_item? hit)
  have hmem := h.only fd it hit hd
  simp only [List.mem_cons, List.not_mem_nil, or_false] at hmem
  unfold clientFds
  split_ifs with hno
  · rw [Finset.mem_singleton]
    omega
  · simpa using hmem

/-- The descriptors of all clients. -/
def socksFds (s : Server) : Finset ℤ :=
  (liveClients s).biUnion fun id => ((s.heap id).map clientFds).getD ∅

theorem card_fds_le (s : Server) (ids : Finset ClientId) :
    (ids.biUnion fun id => ((s.heap id).map clientFds).getD ∅).card ≤ 2 * ids.card := by
  rw [Nat.mul_comm]
  refine Finset.card_biUnion_le_card_mul _ _ 2 fun id _ => ?_
  cases s.heap id with
  | none => exact Nat.zero_le _
  | some c => exact card_clientFds_le c

theorem card_socksFds_le (s : Server) : (socksFds s).card ≤ 2 * (liveClients s).card :=
  card_fds_le s _

/-- A client without an origin socket leaves one descriptor unused. -/
theorem card_socksFds_lt (hinv : Inv s) (hc : s.heap id = some c) (ho : c.originSock = -1) :
    (socksFds s).card < 2 * (liveClients s).card := by
  have hlive : id ∈ liveClients s := (mem_liveClients hinv).mpr (by rw [hc]; simp)
  have hown : ((s.heap id).map clientFds).getD ∅ = {c.clientSock} := by
    rw [hc, Option.map_some, Option.getD_some, clientFds, if_pos ho]
  have hrest := card_fds_le s ((liveClients s).erase id)
  have hpos := Finset.card_pos.mpr ⟨id, hlive⟩
  rw [Finset.card_erase_of_mem hlive] at hrest
  unfold socksFds
  rw [← Finset.insert_erase hlive, Finset.biUnion_insert, hown]
  refine Nat.lt_of_le_of_lt (Finset.card_union_le _ _) ?_
  rw [Finset.card_singleton, Finset.insert_erase hlive]
  omega

/-- No other descriptor is registered than those of connections and of `listeners`, and
none is open that is not registered but the two standard streams. -/
structure Placed (listeners : List ℤ) (s : Server) : Prop where
  inv : Inv s
  tied : ∀ fd, Loose s.w fd → fd = 1 ∨ fd = 2
  listening : ∀ fd it, item? s.w.selector fd = some it → it.data ≠ some .mgmt →
    (∀ id, it.data ≠ some (.socks5 id)) → fd ∈ listeners

/-- And the connections are counted. -/
structure Stocked (listeners : List ℤ) (s : Server) : Prop extends Placed listeners s where
  tally : ∃ n, s.tally.Exact n

variable {listeners : List ℤ}

theorem Placed.mem_open (h : Placed listeners s) (hopen : s.w.fdTable fd ≠ none)
    (hvalid : invalidFd fd = false) :
    fd ∈ {1, 2} ∪ listeners.toFinset ∪ mgmtClients s.w.selector ∪ socksFds s := by
  simp only [Finset.mem_union, List.mem_toFinset, Finset.mem_insert, Finset.mem_singleton]
  cases hit : item? s.w.selector fd with
  | none => exact .inl (.inl (.inl (h.tied fd ⟨hopen, hit, hvalid⟩)))
  | some it =>
    by_cases hm : it.data = some .mgmt
    · exact .inl (.inr (mem_mgmtClients.mpr ⟨it, hit, hm⟩))
    by_cases hd : ∃ id, it.data = some (.socks5 id)
    · obtain ⟨id, hd⟩ := hd
      refine .inr (Finset.mem_biUnion.mpr ⟨id, ?_⟩)
      cases hc : s.heap id with
      | none => exact absurd (h.inv.dead id hc fd it hit hd) List.not_mem_nil
      | some c =>
        refine ⟨(mem_liveClients h.inv).mpr (by rw [hc]; simp), ?_⟩
        rw [Option.map_some, Option.getD_some]
        exact (h.inv.live id c hc).mem_clientFds hit hd
    · exact .inl (.inl (.inr (h.listening fd it hit hm fun id hid => hd ⟨id, hid⟩)))

/-- The calls that open a socket return the lowest descriptor that is free. -/
def Lowest (w : World) (e : Env) : Prop :=
  match freshFd w e.socket with
  | none => True
  | some fd => ∀ j < fd.toNat, w.fdTable (j : ℤ) ≠ none

instance (w : World) (e : Env) : Decidable (Lowest w e) :=
  match h : freshFd w e.socket with
  | none => isTrue (by rw [Lowest, h]; trivial)
  | some fd => decidable_of_iff (∀ j < fd.toNat, w.fdTable (j : ℤ) ≠ none) (by rw [Lowest, h])

/-- All descriptors below the lowest free one are accounted for. -/
theorem Placed.lowest_le (h : Placed listeners s) (hlow : Lowest s.w e)
    (hfd : freshFd s.w e.socket = some fd) :
    min fd 1024 ≤ 2 + listeners.length + (mgmtClients s.w.selector).card + (socksFds s).card := by
  rw [Lowest, hfd] at hlow
  have hsub : Finset.Ico 0 (min fd 1024) ⊆
      {1, 2} ∪ listeners.toFinset ∪ mgmtClients s.w.selector ∪ socksFds s := by
    intro fd' hmem
    rw [Finset.mem_Ico, lt_min_iff] at hmem
    obtain ⟨j, rfl⟩ := Int.eq_ofNat_of_zero_le hmem.1
    refine h.mem_open (hlow j (by omega)) ?_
    exact invalidFd_eq_false.mpr ⟨hmem.1, hmem.2.2⟩
  have hcard := Finset.card_le_card hsub
  have htwo : ({1, 2} : Finset ℤ).card = 2 := rfl
  have h1 :=
    Finset.card_union_le ({1, 2} ∪ listeners.toFinset ∪ mgmtClients s.w.selector) (socksFds s)
  have h2 := Finset.card_union_le ({1, 2} ∪ listeners.toFinset) (mgmtClients s.w.selector)
  have h3 := Finset.card_union_le {1, 2} listeners.toFinset
  have h4 := List.toFinset_card_le listeners
  rw [Int.card_Ico] at hcard
  omega

/-- `selector_register` takes the descriptor. -/
def Selectable (w : World) (fd : ℤ) : Prop :=
  fd < 1024 ∧ ∀ i d, (selectorRegister true w.selector fd i d).2 ≠ .iargs

theorem Placed.selectable (h : Placed listeners s) (hlow : Lowest s.w e)
    (hfd : freshFd s.w e.socket = some fd)
    (hroom : 2 + listeners.length + (mgmtClients s.w.selector).card + (socksFds s).card < 1024) :
    Selectable s.w fd := by
  have hle := h.lowest_le hlow hfd
  obtain ⟨hpos, hfresh⟩ := freshFd_some hfd
  have hlt : fd < 1024 := by omega
  refine ⟨hlt, fun i d hbad => ?_⟩
  rcases register_fresh (i := i) (d := d) h.inv.cap h.inv.regOpen hfresh with
    ⟨-, -, hinvalid⟩ | ⟨hok, -⟩
  · rw [invalidFd_eq_false.mpr ⟨hpos, hlt⟩] at hinvalid
    cases hinvalid
  · rw [hok] at hbad
    cases hbad

/-! ## Events -/

/-- The calls of each half return the lowest free descriptor of the state in which that
half begins. -/
def LowestFree (s : Server) : Event → Prop
  | .dispatch i r _ er ew => Lowest s.w er ∧ Lowest (readHalf i r er s).w ew
  | _ => True

instance (s : Server) : ∀ ev, Decidable (LowestFree s ev)
  | .dispatch i r _ er ew =>
    inferInstanceAs (Decidable (Lowest s.w er ∧ Lowest (readHalf i r er s).w ew))
  | .resolved _ _ | .notify | .addUser _ | .setBuffsize _ | .setDissector _ | .mgmtClose _ =>
    isTrue trivial

/-- There is memory for every management connection that is accepted. -/
def MgmtAllocated (s : Server) : Event → Prop
  | .dispatch i r _ er _ =>
    s.halted = none → itemUsed (s.w.selector.fds i) = true → r = true →
      (s.w.selector.fds i).interest.read = true → (s.w.selector.fds i).data = some .monitor →
      ∀ w, addMgmtClient s.w = some w → freshFd w er.socket ≠ none → er.mallocClient = true
  | _ => True

/-- A socket that is accepted for an admitted connection can be registered. -/
def AcceptedSelectable (s : Server) : Event → Prop
  | .dispatch i r _ er _ =>
    s.halted = none → itemUsed (s.w.selector.fds i) = true → r = true →
      (s.w.selector.fds i).interest.read = true → ∀ w fd,
      ((s.w.selector.fds i).data = some .master ∧ addProxyClient s.w = some w) ∨
        ((s.w.selector.fds i).data = some .monitor ∧ addMgmtClient s.w = some w) →
      freshFd w er.socket = some fd → Selectable w fd
  | _ => True

/-- The socket of an attempt to connect can be registered. -/
def OriginSelectable : Server → ClientId → Client → ℤ → Env → Prop := fun s _ c fd e =>
  c.current = some .connecting → fd = c.clientSock → c.currAddr ≠ .null →
    ∀ fd', freshFd s.w e.socket = some fd' → Selectable s.w fd'

theorem Placed.move (h : Placed listeners s) (hm : Move ConnectSound s s') :
    Placed listeners s' := by
  refine ⟨h.inv.move hm, fun fd hl => h.tied fd (h.inv.move_tidy hm fd hl), ?_⟩
  intro fd it hit hmgmt hsocks
  obtain ⟨d, hd, hsp⟩ := h.inv.move_spares hm
  have hother : it.data ≠ some d := by
    rcases hd with rfl | ⟨id, rfl⟩
    · exact hmgmt
    · exact hsocks id
  obtain ⟨it', hit', hdata⟩ := hsp.back fd it hit hother
  exact h.listening fd it' hit' (by rw [hdata]; exact hmgmt)
    fun id => by rw [hdata]; exact hsocks id

theorem Stocked.room (h : Stocked listeners s) :
    s.w.mgmtClientCount.toNat = (mgmtClients s.w.selector).card ∧
      s.w.proxyClientCount.toNat = (liveClients s).card ∧
      (mgmtClients s.w.selector).card + 2 * (liveClients s).card ≤ 1020 ∧
      (s.w.mgmtClientCount + s.w.proxyClientCount * 2).toNat =
        (mgmtClients s.w.selector).card + 2 * (liveClients s).card := by
  obtain ⟨n, hn⟩ := h.tally
  have hroom := hn.room
  have htest := hn.test
  have hmgmt := hn.mgmt
  have hproxy := hn.proxy
  rw [hmgmt, hproxy] at hroom htest
  exact ⟨hmgmt, hproxy, hroom, htest⟩

section
variable (h : Stocked listeners s) (htwo : listeners.length ≤ 2)
include h htwo

theorem Stocked.accepted {ev : Event} (hlow : LowestFree s ev) : AcceptedSelectable s ev := by
  cases ev with
  | dispatch i r w er ew =>
    intro _ _ _ _ w' fd hadm hfd
    obtain ⟨-, -, -, htest⟩ := h.room
    have hle := card_socksFds_le s
    have hlim : (1020 - 2 : UInt32).toNat = 1018 ∧ (1020 - 1 : UInt32).toNat = 1019 := ⟨rfl, rfl⟩
    rcases hadm with ⟨-, hw⟩ | ⟨-, hw⟩
    · obtain ⟨hguard, rfl⟩ := addProxyClient_some hw
      rw [UInt32.le_iff_toNat_le, htest] at hguard
      exact h.selectable hlow.1 hfd (by omega)
    · obtain ⟨hguard, rfl⟩ := addMgmtClient_some hw
      rw [UInt32.le_iff_toNat_le, htest] at hguard
      exact h.selectable hlow.1 hfd (by omega)
  | resolved | notify | addUser | setBuffsize | setDissector | mgmtClose => trivial

/-- While it connects, a client has one socket; once the second is registered, the
client's own is not written to. -/
theorem Stocked.origin {fd : ℤ} {i : FdInterest} (hlow : Lowest s.w e) (hhit : Hit s id c fd i)
    (hi : i.write = true) : OriginSelectable s id c fd e := by
  intro hcur hsock _ fd' hfd'
  have hctl := h.inv.live id c hhit.heap
  rw [hcur] at hctl
  have hno : c.originSock = -1 := by
    rcases hctl with ha | ⟨-, hj⟩
    · exact ha.origin
    · obtain ⟨m, it, hit, -, hint, -⟩ := hhit.held
      obtain ⟨it', hit', -, hint', -⟩ := hj.client
      rw [hsock, hit', Option.some.injEq] at hit
      rw [← hit, hint'] at hint
      rw [← hint] at hi
      cases hi
  obtain ⟨-, -, hroom, -⟩ := h.room
  have hlt := card_socksFds_lt h.inv hhit.heap hno
  exact h.selectable hlow hfd' (by omega)

end

/-! ## Steps -/

theorem Tally.Exact.recount {t t' : Tally} {n : ℕ} (h : t.Exact n) (hc : t'.clients = t.clients)
    (hs : t'.sessions = t.sessions) (hp : t'.count.proxy = t.count.proxy)
    (hm : t'.count.mgmt = t.count.mgmt) :
    t'.Exact t'.count.all.toNat := by
  refine ⟨?_, ?_, ?_, (UInt64.ofNat_toNat).symm⟩
  · rw [hp, hc]
    exact h.proxy
  · rw [hm, hs]
    exact h.mgmt
  · rw [hp, hm]
    exact h.room

/-- A connection that is not made is counted down again, or never was. -/
theorem masterReadHandler_refused (hno : ¬ ProxyMade e s.w) :
    (masterReadHandler e s).tally.count.proxy = s.tally.count.proxy ∧
      (masterReadHandler e s).tally.count.mgmt = s.tally.count.mgmt := by
  rcases masterReadHandler_cases e s with ⟨-, heq⟩ | ⟨w, hw, ⟨-, heq⟩ | ⟨fd, hfd, hmal, -⟩⟩
  · rw [heq]
    exact ⟨rfl, rfl⟩
  · obtain ⟨-, rfl⟩ := addProxyClient_some hw
    rw [heq]
    simp [Server.tally, World.counters, rmProxyClient]
  · refine absurd (fun w' hw' => ?_) hno
    rw [hw, Option.some.injEq] at hw'
    exact ⟨by rw [← hw', hfd]; simp, hmal⟩

theorem mgmtMasterReadHandler_refused (hno : ¬ MgmtMade e s.w)
    (hok : ∀ w fd, addMgmtClient s.w = some w → freshFd w e.socket = some fd →
      e.mallocClient = true ∧
      (selectorRegister true w.selector fd (opWrite ||| opRead) .mgmt).2 = .success) :
    (mgmtMasterReadHandler e s).tally.count.proxy = s.tally.count.proxy ∧
      (mgmtMasterReadHandler e s).tally.count.mgmt = s.tally.count.mgmt := by
  rcases mgmtMasterReadHandler_cases e s with ⟨-, heq⟩ | ⟨w, hw, ⟨-, heq⟩ | ⟨fd, hfd, -⟩⟩
  · rw [heq]
    exact ⟨rfl, rfl⟩
  · obtain ⟨-, rfl⟩ := addMgmtClient_some hw
    rw [heq]
    simp [Server.tally, World.counters, rmMgmtClient]
  · refine absurd (fun w' hw' => ?_) hno
    rw [hw, Option.some.injEq] at hw'
    subst hw'
    exact ⟨fd, hfd, hok w fd hw hfd⟩

/-- A SOCKS connection that is not made is not counted any more. -/
theorem masterReadHandler_exact (h : Inv s) (e : Env) (hn : ∃ n, s.tally.Exact n) :
    ∃ n, (masterReadHandler e s).tally.Exact n := by
  obtain ⟨n, hn⟩ := hn
  by_cases hmade : ProxyMade e s.w
  · obtain ⟨k, hk⟩ := (masterReadHandler_tally h e).1 hmade
    exact ⟨_, hn.step hk⟩
  · have href := (masterReadHandler_tally h e).2 hmade
    obtain ⟨hp, hm⟩ := masterReadHandler_refused hmade
    exact ⟨_, hn.recount href.clients_eq href.sessions_eq hp hm⟩

/-- Neither is a management connection, if `accept` has failed. -/
theorem mgmtMasterReadHandler_exact (h : Inv s) (e : Env) (hn : ∃ n, s.tally.Exact n)
    (hok : ∀ w fd, addMgmtClient s.w = some w → freshFd w e.socket = some fd →
      e.mallocClient = true ∧
      (selectorRegister true w.selector fd (opWrite ||| opRead) .mgmt).2 = .success) :
    ∃ n, (mgmtMasterReadHandler e s).tally.Exact n := by
  obtain ⟨n, hn⟩ := hn
  by_cases hmade : MgmtMade e s.w
  · obtain ⟨k, hk⟩ := (mgmtMasterReadHandler_tally h e).1 hmade
    exact ⟨_, hn.step hk⟩
  · have href := (mgmtMasterReadHandler_tally h e).2 hmade
    obtain ⟨hp, hm⟩ := mgmtMasterReadHandler_refused hmade hok
    exact ⟨_, hn.recount href.clients_eq href.sessions_eq hp hm⟩

theorem Selectable.registers {i : FdInterest} {d : Handler} (h : Selectable w fd)
    (hopen : RegOpen w) (hcap : itemsMaxSize ≤ w.selector.fdSize)
    (hpos : 0 ≤ fd) (hfresh : w.fdTable fd = none) :
    (selectorRegister true w.selector fd i d).2 = .success := by
  rcases register_fresh (i := i) (d := d) hcap hopen hfresh with ⟨-, -, hinvalid⟩ | ⟨hok, -⟩
  · rw [invalidFd_eq_false.mpr ⟨hpos, h.1⟩] at hinvalid
    cases hinvalid
  · exact hok

theorem Stocked.readHalf {i : ℕ} {r w : Bool} {er ew : Env} (h : Stocked listeners s)
    (hhalt : s.halted = none) (hu : itemUsed (s.w.selector.fds i) = true)
    (hacc : AcceptedSelectable s (.dispatch i r w er ew))
    (hmem : MgmtAllocated s (.dispatch i r w er ew)) :
    Stocked listeners (Socks5d.readHalf i r er s) := by
  refine ⟨h.move (readHalf_move h.inv hu r er), ?_⟩
  rcases readHalf_cases h.inv hu r er with heq | heq | ⟨-, heq, -⟩ | ⟨hd, heq, hr, hread⟩ |
    ⟨id, c, -, hhit, hi, heq⟩
  · rw [heq]
    exact h.tally
  · rw [heq]
    exact h.tally
  · rw [heq]
    exact masterReadHandler_exact h.inv er h.tally
  · rw [heq]
    refine mgmtMasterReadHandler_exact h.inv er h.tally fun w' fd hw hfd => ?_
    refine ⟨hmem hhalt hu hr hread hd w' hw (by rw [hfd]; simp), ?_⟩
    have hsel := hacc hhalt hu hr hread w' fd (.inr ⟨hd, hw⟩) hfd
    obtain ⟨hpos, hfresh⟩ := freshFd_some hfd
    obtain ⟨-, rfl⟩ := addMgmtClient_some hw
    exact hsel.registers h.inv.regOpen h.inv.cap hpos hfresh
  · obtain ⟨n, hn⟩ := h.tally
    obtain ⟨m, hheld⟩ := hhit.held
    have hk :=
      run_tally h.inv hhit.heap (stmHandlerRead_kept (x := ⟨id, c, _⟩) (hhit.ctl h.inv) hheld hi)
      fun o ho => stmHandlerRead_discounts (e := er) ho
    rw [heq]
    exact ⟨_, hn.step hk⟩

theorem Stocked.dispatch {i : ℕ} {r w : Bool} {er ew : Env} (h : Stocked listeners s)
    (htwo : listeners.length ≤ 2) (hhalt : s.halted = none)
    (hu : itemUsed (s.w.selector.fds i) = true) (hlow : LowestFree s (.dispatch i r w er ew))
    (hok : WriteOk ConnectSound s (.dispatch i r w er ew))
    (hmem : MgmtAllocated s (.dispatch i r w er ew)) :
    WriteOk OriginSelectable s (.dispatch i r w er ew) ∧
      Stocked listeners (Socks5d.dispatch i r w er ew s) := by
  have hhalf : Stocked listeners (Socks5d.readHalf i r er s) :=
    h.readHalf hhalt hu (h.accepted htwo hlow) hmem
  refine ⟨?_, ?_⟩
  · intro id c _ hd _ _ hint hc
    obtain ⟨hit, hdata⟩ := readHalf_entry h.inv hu r er hint
    obtain ⟨c', hhit⟩ := hhalf.inv.hit hit (hdata.trans hd)
    rw [hhit.heap, Option.some.injEq] at hc
    rw [← hc]
    exact hhalf.origin htwo hlow.2 hhit hint
  · obtain ⟨n, hn⟩ := hhalf.tally
    obtain ⟨hw, -⟩ := writeHalf_tally h.inv hu r w er ew
    unfold Socks5d.dispatch
    dsimp only
    rw [if_neg (by simpa using hu)]
    exact ⟨hhalf.move (writeHalf_move h.inv hhalt hu r w er ew hok), _, hn.step hw⟩

/-- One event opens only descriptors that can be registered. -/
theorem Stocked.step {ev : Event} (h : Stocked listeners s) (htwo : listeners.length ≤ 2)
    (hlow : LowestFree s ev) (hok : WriteOk ConnectSound s ev) (hmem : MgmtAllocated s ev) :
    WriteOk OriginSelectable s ev ∧ Stocked listeners (Socks5d.step s ev) := by
  obtain ⟨n, hn⟩ := h.tally
  obtain ⟨s', hm, hm'⟩ := step_moves h.inv ev hok
  have hmade : AttemptMade s ev → Stocked listeners (Socks5d.step s ev) := fun ha =>
    ⟨(h.move hm).move hm', _, step_exact h.inv ha hn⟩
  cases ev with
  | dispatch i r w er ew =>
    by_cases hhalt : s.halted = none
    · by_cases hu : itemUsed (s.w.selector.fds i) = true
      · obtain ⟨horigin, hnext⟩ := h.dispatch htwo hhalt hu hlow hok hmem
        refine ⟨horigin, ?_⟩
        unfold Socks5d.step
        rw [if_neg (by simp [hhalt])]
        exact hnext
      · refine ⟨?_, hmade fun _ hu' => absurd hu' hu⟩
        -- an unused entry has no interest, so neither half does anything
        intro id c _ _ _ _ hint
        have hidle : (s.w.selector.fds i).interest = opNoop :=
          h.inv.selector.idle i (by simpa using hu)
        have hhalf : Socks5d.readHalf i r er s = s := by
          unfold Socks5d.readHalf
          dsimp only
          rw [hidle]
          exact if_neg (by simp [opNoop])
        rw [hhalf, hidle] at hint
        cases hint
    · exact ⟨fun _ _ hnone => absurd hnone hhalt, hmade fun hnone => absurd hnone hhalt⟩
  | resolved | notify | addUser | setBuffsize | setDissector | mgmtClose =>
    exact ⟨trivial, hmade trivial⟩

/-! ## Runs -/

/-- Every valid descriptor of `fds` is registered, and no other than those was added. -/
theorem registerAll_item? {d : Handler} (fds : List ℤ) {sel : FdSelector Handler}
    (hcap : itemsMaxSize ≤ sel.fdSize) :
    itemsMaxSize ≤ (registerAll d fds sel).fdSize ∧
      (∀ fd, fd ∈ fds ∨ item? sel fd ≠ none → invalidFd fd = false →
        item? (registerAll d fds sel) fd ≠ none) ∧
      ∀ fd, item? (registerAll d fds sel) fd ≠ none → fd ∈ fds ∨ item? sel fd ≠ none := by
  induction fds generalizing sel with
  | nil => exact ⟨hcap, fun fd hfd _ => hfd.resolve_left List.not_mem_nil, fun fd hfd => .inr hfd⟩
  | cons fd₀ fds ih =>
    -- refused: the descriptor is invalid or has an entry already
    rcases register_cases fd₀ true opRead d hcap with ⟨-, hs, hbad⟩ | ⟨-, -, -, hsz, hit⟩
    · have hall : registerAll d (fd₀ :: fds) sel = registerAll d fds sel := by
        rw [registerAll, List.foldl_cons, hs]
        rfl
      obtain ⟨hcap', hto, hfrom⟩ := ih hcap
      rw [hall]
      refine ⟨hcap', fun fd hfd hvalid => hto fd ?_ hvalid, fun fd hfd => ?_⟩
      · rcases hfd with hfd | hfd
        · rcases List.mem_cons.mp hfd with rfl | hfd
          · refine .inr (hbad.resolve_left ?_)
            rw [hvalid]
            simp
          · exact .inl hfd
        · exact .inr hfd
      · exact (hfrom fd hfd).imp (List.mem_cons_of_mem _) id
    · have hcap₀ : itemsMaxSize ≤ (selectorRegister true sel fd₀ opRead d).1.fdSize := hsz ▸ hcap
      obtain ⟨hcap', hto, hfrom⟩ := ih hcap₀
      refine ⟨hcap', fun fd hfd hvalid => hto fd ?_ hvalid, fun fd hfd => ?_⟩
      · by_cases heq : fd = fd₀
        · right
          rw [hit, if_pos heq]
          simp
        · rw [hit, if_neg heq]
          exact hfd.imp (fun hmem => (List.mem_cons.mp hmem).resolve_left heq) fun hsome => hsome
      · rcases hfrom fd hfd with hmem | hsome
        · exact .inl (List.mem_cons_of_mem _ hmem)
        · rw [hit] at hsome
          by_cases heq : fd = fd₀
          · exact .inl (List.mem_cons.mpr (.inl heq))
          · rw [if_neg heq] at hsome
            exact .inr hsome

theorem boot_stocked (users : UserTable) (masters monitors : List ℤ) :
    Stocked (0 :: masters ++ monitors) (boot users masters monitors) := by
  obtain ⟨hcap, hto, hfrom⟩ :=
    registerAll_item? (d := .master) (0 :: masters) (emptySelector_booting []).cap
  obtain ⟨-, hto', hfrom'⟩ := registerAll_item? (d := .monitor) monitors hcap
  refine ⟨⟨boot_inv users masters monitors, ?_, ?_⟩, 0, boot_exact users masters monitors⟩
  · intro fd ⟨hopen, hfree, hvalid⟩
    have hmem : fd ∈ 0 :: 1 :: 2 :: masters ++ monitors := by
      by_contra hno
      exact hopen (if_neg hno)
    have hmaster : fd ∉ 0 :: masters :=
      fun hm => hto' fd (.inr (hto fd (.inl hm) hvalid)) hvalid hfree
    have hmonitor : fd ∉ monitors := fun hm => hto' fd (.inl hm) hvalid hfree
    simp only [List.cons_append, List.mem_cons, List.mem_append] at hmem hmaster
    tauto
  · intro fd it hit _ _
    have hsome : item? (boot users masters monitors).w.selector fd ≠ none := by
      rw [hit]
      simp
    rcases hfrom' fd hsome with hmem | hsome
    · exact List.mem_append_right _ hmem
    · rcases hfrom fd hsome with hmem | hsome
      · exact List.mem_append_left _ hmem
      · obtain ⟨it', hit'⟩ := Option.ne_none_iff_exists'.mp hsome
        exact absurd ((emptySelector_booting []).only fd it' hit').1 List.not_mem_nil

theorem Stocked.along (evs : List Event) (h : Stocked listeners s) (htwo : listeners.length ≤ 2)
    (hlow : Along Socks5d.step LowestFree s evs)
    (hok : Along Socks5d.step (WriteOk ConnectSound) s evs)
    (hmem : Along Socks5d.step MgmtAllocated s evs) :
    Along Socks5d.step
      (fun s ev => AcceptedSelectable s ev ∧ WriteOk OriginSelectable s ev) s evs := by
  induction evs generalizing s with
  | nil => trivial
  | cons ev evs ih =>
    obtain ⟨horigin, hnext⟩ := h.step htwo hlow.1 hok.1 hmem.1
    exact ⟨⟨h.accepted htwo hlow.1, horigin⟩, ih hnext hlow.2 hok.2 hmem.2⟩

/-- The condition asks nothing of runs in which memory does not run out. -/
theorem along_mgmtAllocated {evs : List Event}
    (h : ∀ ev ∈ evs, match ev with
      | .dispatch _ _ _ er _ => er.mallocClient = true
      | _ => True) : Along step MgmtAllocated s evs := by
  refine along_mono ?_ (along_of_forall h)
  intro s ev hev
  cases ev with
  | dispatch i r w er ew => exact fun _ _ _ _ _ _ _ _ => hev
  | resolved | notify | addUser | setBuffsize | setDissector | mgmtClose => trivial

/-- A management connection arrives; `accept` returns `fd`. -/
def knock (fd : ℤ) : Event :=
  .dispatch 4 true false (.fine [] fd) { Env.fine [] fd with socket := none }

/-- `n` management connections arrive while all descriptors below 6 are in use. -/
def fill (n : ℕ) : List Event := (List.range n).map fun k : ℕ => knock (6 + (k : ℤ))

/-- The state after that, with the listening sockets at 0, 3, 4 and 5. -/
structure Filled (n : ℕ) (s : Server) : Prop where
  inv : Inv s
  running : s.halted = none
  monitor : ∃ it, item? s.w.selector 4 = some it ∧ it.data = some .monitor ∧ it.interest.read = true
  mgmt : s.w.mgmtClientCount.toNat = n
  proxy : s.w.proxyClientCount = 0
  table : ∀ fd, s.w.fdTable fd ≠ none ↔ 0 ≤ fd ∧ fd < 6 + n

variable {n : ℕ}

theorem Filled.entry (h : Filled n s) : itemUsed (s.w.selector.fds 4) = true ∧
    (s.w.selector.fds 4).data = some .monitor ∧ (s.w.selector.fds 4).interest.read = true := by
  obtain ⟨it, hit, hd, hr⟩ := h.monitor
  unfold item? at hit
  split_ifs at hit with _ hu
  cases hit
  exact ⟨hu, hd, hr⟩

theorem Filled.fresh (h : Filled n s) : freshFd s.w (some (6 + (n : ℤ))) = some (6 + (n : ℤ)) := by
  have hfree : s.w.fdTable (6 + n) = none := by
    by_contra hno
    have hlt := ((h.table _).mp hno).2
    omega
  exact if_pos ⟨by omega, hfree⟩

theorem Filled.admitted (h : Filled n s) (hn : n ≤ 1019) : addMgmtClient s.w = some { s.w with
    mgmtClientCount := s.w.mgmtClientCount + 1
    allConnections := s.w.allConnections + 1 } := by
  refine if_pos ?_
  rw [h.proxy, UInt32.le_iff_toNat_le]
  have hlim : (1020 - 1 : UInt32).toNat = 1019 := rfl
  have hsum : (s.w.mgmtClientCount + 0 * 2).toNat = n := by simp [h.mgmt]
  omega

theorem Filled.step (h : Filled n s) (hn : n < 1018) :
    Filled (n + 1) (Socks5d.step s (knock (6 + n))) := by
  obtain ⟨hu, hd, hr⟩ := h.entry
  have hadm := h.admitted (by omega)
  have hstep : Socks5d.step s (knock (6 + n)) = mgmtMasterReadHandler (.fine [] (6 + n)) s := by
    have hhalf :
        readHalf 4 true (.fine [] (6 + n)) s = mgmtMasterReadHandler (.fine [] (6 + n)) s := by
      unfold readHalf
      dsimp only
      rw [hr, hd]
      rfl
    unfold Socks5d.step knock
    rw [if_neg (by simp [h.running])]
    dsimp only
    unfold dispatch
    dsimp only
    rw [hu, hhalf]
    simp [writeHalf]
  obtain ⟨s', hm, hm'⟩ := step_moves h.inv (knock (6 + n)) (along_anyWrite s [knock (6 + n)]).1
  have hinv : Inv (Socks5d.step s (knock (6 + n))) := (h.inv.move hm).move hm'
  rw [hstep] at hinv ⊢
  have hvalid : invalidFd (6 + n) = false := invalidFd_eq_false.mpr ⟨by omega, by omega⟩
  have hreg :=
    register_fresh (i := opWrite ||| opRead) (d := .mgmt) h.inv.cap h.inv.regOpen
    (freshFd_some h.fresh).2
  rw [hvalid] at hreg
  obtain ⟨hok, -, hit⟩ := hreg.resolve_left fun hbad => Bool.false_ne_true hbad.2.2
  rcases mgmtMasterReadHandler_cases (.fine [] (6 + n)) s with ⟨hno, -⟩ |
    ⟨w, hw, hrest⟩
  · rw [hadm] at hno
    cases hno
  rw [hadm, Option.some.injEq] at hw
  subst hw
  -- `accept` and the registration succeed
  rcases hrest with ⟨hno, -⟩ | ⟨fd, hfd, hrest⟩
  · exact absurd (h.fresh.symm.trans hno) (by simp)
  obtain rfl : 6 + (n : ℤ) = fd := Option.some.inj (h.fresh.symm.trans hfd)
  rcases hrest with ⟨hbad, -⟩ | ⟨-, -, heq⟩
  · exact absurd hok (hbad.resolve_left (by simp [Env.fine]))
  rw [heq] at hinv ⊢
  obtain ⟨it, hit4, hdata, hread⟩ := h.monitor
  refine ⟨hinv, h.running, ⟨it, ?_, hdata, hread⟩, ?_, h.proxy, ?_⟩
  · exact (hit 4).trans ((if_neg (by omega)).trans hit4)
  · have hcount := h.mgmt
    change (s.w.mgmtClientCount + 1).toNat = n + 1
    rw [UInt32.toNat_add, UInt32.toNat_one]
    omega
  · intro fd
    change Function.update s.w.fdTable (6 + n) _ fd ≠ none ↔ _
    rw [Function.update_apply]
    by_cases hfd : fd = 6 + n
    · rw [if_pos hfd]
      simp only [ne_eq, reduceCtorEq, not_false_eq_true, true_iff]
      omega
    · rw [if_neg hfd, h.table]
      push_cast
      omega

theorem boot_filled : Filled 0 (boot [] [3] [4, 5]) := by
  have hitem :
      (item? (boot [] [3] [4, 5]).w.selector 4).map (fun it => (it.data, it.interest.read)) =
      some (some .monitor, true) := by decide +kernel
  obtain ⟨it, hit, heq⟩ := Option.map_eq_some_iff.mp hitem
  rw [Prod.mk.injEq] at heq
  refine ⟨boot_inv _ _ _, rfl, ⟨it, hit, heq⟩, rfl, rfl, fun fd => ?_⟩
  change (if fd ∈ [0, 1, 2, 3, 4, 5] then _ else none) ≠ none ↔ _
  by_cases hmem : fd ∈ ([0, 1, 2, 3, 4, 5] : List ℤ)
  · rw [if_pos hmem]
    simp only [List.mem_cons, List.not_mem_nil, or_false] at hmem
    simp only [ne_eq, reduceCtorEq, not_false_eq_true, true_iff]
    omega
  · rw [if_neg hmem]
    simp only [List.mem_cons, List.not_mem_nil, or_false] at hmem
    simp only [ne_eq, not_true_eq_false, false_iff]
    omega

theorem fill_succ : fill (n + 1) = fill n ++ [knock (6 + n)] := by
  rw [fill, List.range_succ, List.map_append]
  rfl

theorem mem_fill {ev : Event} (h : ev ∈ fill n) : ∃ k : ℕ, ev = knock (6 + (k : ℤ)) := by
  obtain ⟨k, -, rfl⟩ := List.mem_map.mp h
  exact ⟨k, rfl⟩

theorem fill_filled (hn : n ≤ 1018) : Filled n (exec step (boot [] [3] [4, 5]) (fill n)) := by
  induction n with
  | zero => exact boot_filled
  | succ n ih =>
    rw [fill_succ, exec_append]
    exact (ih (by omega)).step (by omega)

theorem fill_lowest (hn : n ≤ 1019) : Along step LowestFree (boot [] [3] [4, 5]) (fill n) := by
  induction n with
  | zero => trivial
  | succ n ih =>
    have h := fill_filled (n := n) (by omega)
    rw [fill_succ, along_append]
    refine ⟨ih (by omega), ⟨?_, trivial⟩, trivial⟩
    change match freshFd _ (some (6 + (n : ℤ))) with
      | none => True
      | some fd => _
    rw [h.fresh]
    intro j hj
    apply (h.table j).mpr
    omega

theorem fill_connects : Along step (WriteOk ConnectSound) s (fill n) := by
  refine along_connectSound fun ev hev => ?_
  obtain ⟨k, rfl⟩ := mem_fill hev
  exact ⟨fun err hbad => by (cases hbad), rfl⟩

theorem fill_allocates : Along step MgmtAllocated s (fill n) := by
  refine along_mgmtAllocated fun ev hev => ?_
  obtain ⟨k, rfl⟩ := mem_fill hev
  rfl

theorem Filled.unselectable (h : Filled 1018 s) :
    ¬ AcceptedSelectable s (knock (6 + (1018 : ℕ))) := by
  intro hsel
  obtain ⟨hu, hd, hr⟩ := h.entry
  obtain ⟨hlt, -⟩ := hsel h.running hu rfl hr _ _ (.inr ⟨hd, h.admitted (by decide)⟩) h.fresh
  exact absurd hlt (by decide)

/-- The last of 1019 management connections gets descriptor 1024. -/
theorem fill_runs_out (hn : n = 1018) :
    Along step LowestFree (boot [] [3] [4, 5]) (fill (n + 1)) ∧
      Along step (WriteOk ConnectSound) (boot [] [3] [4, 5]) (fill (n + 1)) ∧
      Along step MgmtAllocated (boot [] [3] [4, 5]) (fill (n + 1)) ∧
      ¬ Along step (fun s ev => AcceptedSelectable s ev ∧ WriteOk OriginSelectable s ev)
        (boot [] [3] [4, 5]) (fill (n + 1)) := by
  refine ⟨fill_lowest (by omega), fill_connects, fill_allocates, ?_⟩
  rw [fill_succ, along_append]
  intro hall
  have h := fill_filled (n := n) (by omega)
  subst hn
  exact h.unselectable hall.2.1.1

end Socks5d

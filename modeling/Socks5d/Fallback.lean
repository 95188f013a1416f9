import Socks5d.Destination
import Socks5d.Replies
import Socks5d.Resolution

/-! # Falling back from address to address

`try_connect` makes one attempt and `origin_check_connection` moves on to the next
address, but only when the attempt before has failed after a while. -/

namespace Socks5d
open EventRun

/-- How the attempt at an address ends. -/
inductive Fate
  | noSocket
  | refused (err : Errno)
  | late (err : Errno)
  | success
deriving DecidableEq, Repr

namespace Fate

/-- `socket` or `connect` itself reports the failure. -/
def atOnce : Fate → Bool
  | noSocket | refused _ => true
  | late _ | success => false

/-- What `SO_ERROR` holds when the socket becomes writable. -/
def error : Fate → Option Errno
  | late err => some err
  | noSocket | refused _ | success => none

/-- The calls of `socket`, `connect` and `selector_register` in an attempt with this fate. -/
def Begins (e : Env) (w : World) : Fate → Prop
  | noSocket => e.socket = none
  | refused err => (∃ fd, freshFd w e.socket = some fd) ∧ e.connect = .failed err
  | late _ | success =>
    (∃ fd, freshFd w e.socket = some fd ∧ invalidFd fd = false ∧ item? w.selector fd = none) ∧
      ∀ err, e.connect ≠ .failed err

end Fate

/-- What an event of a client meets: the results of the system calls, and the rest of the
server as others have left it. -/
structure Moment where
  e : Env
  w : World

/-- The `i`-th attempt begins at the `i`-th event and is over at the next one, while the
client's own socket stays open. -/
structure Fits (sock : ℤ) (fates : List Fate) (ms : ℕ → Moment) : Prop where
  opened : ∀ i, (ms i).w.fdTable sock ≠ none
  begins : ∀ (i : ℕ) (f : Fate), fates[i]? = some f → f.Begins (ms i).e (ms i).w
  ends : ∀ (i : ℕ) (f : Fate), fates[i]? = some f → (ms (i + 1)).e.soError = f.error

/-- The bytes of replies that were queued for the client between two worlds. -/
def newReplies (id : ClientId) (w w' : World) : List UInt8 :=
  (bytesOf .replied (history id w'.log)).drop (bytesOf .replied (history id w.log)).length

/-- The write events of a client that connects, the first on `fd` and the later ones on the
socket of the attempt; and what was queued for it. -/
def connectRun (id : ClientId) : ℕ → (ℕ → Moment) → ℤ → Client → Except Fault (Client × List UInt8)
  | 0, _, _, c => .ok (c, [])
  | n + 1, ms, fd, c =>
    if stmState c ≠ .connecting then .ok (c, [])
    else
      match stmHandlerWrite (ms 0).e fd ⟨id, c, (ms 0).w⟩ with
      | .error f => .error f
      | .ok ⟨w, none⟩ => .ok (c, newReplies id (ms 0).w w)
      | .ok ⟨w, some c'⟩ =>
        match connectRun id n (fun i => ms (i + 1)) c'.originSock c' with
        | .error f => .error f
        | .ok (c'', bs) => .ok (c'', newReplies id (ms 0).w w ++ bs)

/-- The notification that ends the resolution, then the attempts. -/
def resolutionRun (id : ClientId) (w : World) (n : ℕ) (ms : ℕ → Moment) (c : Client) :
    Except Fault (Client × List UInt8) :=
  match stmHandlerBlock ⟨id, c, w⟩ with
  | .error f => .error f
  | .ok ⟨_, none⟩ => .ok (c, [])
  | .ok ⟨_, some c'⟩ => connectRun id n ms c'.clientSock c'

/-! ## One attempt -/

variable {id : ClientId} {e : Env} {w w' : World} {x y : Ctx} {a : AddrInfo} {later : List AddrInfo}
  {f : Fate} {fates : List Fate} {ms : ℕ → Moment} {sock : ℤ}

theorem Fits.tail (h : Fits sock (f :: fates) ms) : Fits sock fates fun i => ms (i + 1) :=
  ⟨fun i => h.opened (i + 1), fun i f hf => h.begins (i + 1) f hf,
    fun i f hf => h.ends (i + 1) f hf⟩

/-- A client that tries `a`, with `later` behind it. -/
structure Trying (c : Client) (a : AddrInfo) (later : List AddrInfo) : Prop where
  current : c.current = some .connecting
  addr : c.currAddr = .resolved a later
  ends : c.activeEnds = clientEnds
  logged : logAccessInfo c = .ok ()

theorem Fate.Begins.congr (h : f.Begins e w) (htable : w'.fdTable = w.fdTable)
    (hitems : ∀ fd, item? w.selector fd = none → item? w'.selector fd = none) : f.Begins e w' := by
  have hfresh : ∀ fd, freshFd w' fd = freshFd w fd := fun fd => by
    unfold freshFd
    rw [htable]
  cases f with
  | noSocket => exact h
  | refused err =>
    rw [Begins, hfresh]
    exact h
  | late err | success =>
    obtain ⟨⟨fd, hfd, hvalid, hslot⟩, hconnect⟩ := h
    exact ⟨⟨fd, by rw [hfresh]; exact hfd, hvalid, hitems _ hslot⟩, hconnect⟩

theorem selectorRegister_success {s : FdSelector Handler} {fd : ℤ} (hvalid : invalidFd fd = false)
    (hitem : item? s fd = none) (i : FdInterest) (d : Handler) :
    (selectorRegister true s fd i d).2 = .success := by
  have hslot : itemUsed (s.fds fd.toNat) = false := by simpa [item?, hvalid] using hitem
  have hsize : ¬ itemsMaxSize < fd.toNat := by
    simp only [invalidFd, Bool.or_eq_false_iff, decide_eq_false_iff_not] at hvalid
    omega
  unfold selectorRegister
  rw [hvalid, if_neg (by simp)]
  dsimp only
  by_cases hgrow : s.fdSize < fd.toNat
  · have hcap : ensureCapacity true s fd.toNat =
        (itemsInit { s with fdSize := nextCapacity fd.toNat } s.fdSize, .success) := by
      rw [ensureCapacity, if_neg (by omega), if_neg hsize, if_neg (by simp)]
    have hinit :
        itemUsed ((itemsInit { s with fdSize := nextCapacity fd.toNat } s.fdSize).fds fd.toNat) =
        false := by
      unfold itemsInit
      dsimp only
      split_ifs
      · rfl
      · exact hslot
    rw [if_pos hgrow, hcap, if_neg (by simp), hinit, if_neg (by simp)]
  · rw [if_neg hgrow, if_neg (by simp), hslot, if_neg (by simp)]

/-- An attempt that fails at once is the last, whatever addresses are left. -/
theorem tryConnect_atOnce (h : Trying x.c a later) (hf : f.Begins e x.w) (hnow : f.atOnce = true) :
    ∃ y reply, tryConnect e x = .ok (closeClient (failReply y reply) clientReadEnd) ∧
    reply ≠ .succeeded ∧
      Silent x y ∧ y.id = x.id ∧ Trying y.c a later := by
  have hclose : ∀ (y : Ctx) reply, logAccessInfo y.c = .ok () →
      replyAndClose y reply = .ok (closeClient (failReply y reply) clientReadEnd) := by
    intro y reply hlog
    rw [replyAndClose, serverReply, hlog]
    rfl
  unfold tryConnect
  rw [h.addr]
  dsimp only
  cases f with
  | late err => cases hnow
  | success => cases hnow
  | noSocket =>
    have hnone : freshFd x.w e.socket = none := by
      rw [show e.socket = none from hf]
      rfl
    rw [hnone]
    exact ⟨_, _, hclose _ _ h.logged, by decide, .of_eq rfl rfl rfl rfl, rfl, h.current, h.addr,
      h.ends, h.logged⟩
  | refused err =>
    obtain ⟨⟨fd, hfd⟩, hconnect⟩ := hf
    rw [hfd]
    dsimp only
    unfold connectTo
    dsimp only
    rw [hconnect]
    have hopen : Silent x ((x.setOrigin fd).openSock fd) :=
      Idle.silent ⟨.of_log rfl rfl rfl, rfl, rfl⟩
    exact ⟨_, _, hclose _ _ h.logged, checkConnectionError_ne err, hopen, rfl, h.current, h.addr,
      h.ends, h.logged⟩

/-- Any other attempt goes on, on a new socket. -/
theorem tryConnect_goes (h : Trying x.c a later) (hf : f.Begins e x.w) (hnow : f.atOnce = false) :
    ∃ y fd, tryConnect e x = .ok (y, .connecting) ∧ Silent x y ∧ y.id = x.id ∧ e.socket = some fd ∧
      x.w.fdTable fd = none ∧ y.c.originSock = fd ∧ y.c.clientSock = x.c.clientSock ∧
      Trying y.c a later := by
  have hreg : (∃ fd, freshFd x.w e.socket = some fd ∧ invalidFd fd = false ∧
      item? x.w.selector fd = none) ∧ ∀ err, e.connect ≠ .failed err := by
    cases f with
    | noSocket => cases hnow
    | refused err => cases hnow
    | late err => exact hf
    | success => exact hf
  obtain ⟨⟨fd, hfd, hvalid, hslot⟩, hconnect⟩ := hreg
  have hfree : e.socket = some fd ∧ x.w.fdTable fd = none := by
    unfold freshFd at hfd
    split at hfd
    · split_ifs at hfd with hc
      cases hfd
      exact ⟨by assumption, hc.2⟩
    · cases hfd
  -- the new socket has a free entry in the selector
  have hsuccess := selectorRegister_success hvalid hslot opWrite (.socks5 x.id)
  have hopen : Silent x ((x.setOrigin fd).openSock fd) :=
    Idle.silent ⟨.of_log rfl rfl rfl, rfl, rfl⟩
  have hres : connectTo e fd x = .ok ((((x.setOrigin fd).openSock fd).sel
      (selectorRegister true x.w.selector fd opWrite (.socks5 x.id))), .connecting) := by
    unfold connectTo
    dsimp only
    split
    · rename_i err herr
      exact absurd herr (hconnect err)
    · exact if_neg (not_not.mpr hsuccess)
  refine ⟨((x.setOrigin fd).openSock fd).sel
    (selectorRegister true x.w.selector fd opWrite (.socks5 x.id)), fd, ?_,
    hopen.trans (.of_eq rfl rfl rfl rfl), rfl, hfree.1, hfree.2, rfl, rfl, h.current, h.addr,
    h.ends, h.logged⟩
  unfold tryConnect
  rw [h.addr]
  dsimp only
  rw [hfd]
  exact hres

/-! ## One event -/

-- no proof below looks into the buffer of a reply
attribute [local irreducible] replyBuffer

theorem newReplies_silent (h : Silent x y) (hid : y.id = x.id) : newReplies x.id x.w y.w = [] := by
  have hr := h.replied
  unfold Ctx.past at hr
  rw [hid] at hr
  rw [newReplies, hr, List.drop_length]

theorem newReplies_reply {z : Ctx} {bs : List UInt8} (h : Silent x y) (hid : z.id = x.id)
    (hm : bytesOf .replied z.past = bytesOf .replied y.past ++ bs) :
    newReplies x.id x.w z.w = bs := by
  rw [h.replied] at hm
  unfold Ctx.past at hm
  rw [hid] at hm
  rw [newReplies, hm, List.drop_left]

/-- The client was told of a failure while it tried `a`, with `later` behind it. -/
def Refusal (x : Ctx) (a : AddrInfo) (later : List AddrInfo) (o : Outcome) : Prop :=
  ∃ c', o.c = some c' ∧ c'.current = some .writeRemaining ∧ c'.currAddr = .resolved a later ∧
    ∃ code, code ≠ 0 ∧ ConnectReply code (newReplies x.id x.w o.w)

theorem jump_refusal {reply : ServerReplyType} (h : Silent x y) (hid : y.id = x.id)
    (ht : Trying y.c a later) (hreply : reply ≠ .succeeded) :
    ∃ o, jump (closeClient (failReply y reply) clientReadEnd) = .ok o ∧ Refusal x a later o := by
  have hc := closeClient_closes (failReply y reply) clientReadEnd
  have hst : (closeClient (failReply y reply) clientReadEnd).2 = .writeRemaining :=
    hangup_state ht.ends
  generalize closeClient (failReply y reply) clientReadEnd = r at hc hst
  obtain ⟨z, st⟩ := r
  dsimp only at hc hst
  subst hst
  have hcur : z.c.current = some .connecting := by
    rw [hc.c_eq]
    exact ht.current
  have haddr : z.c.currAddr = .resolved a later := by
    rw [hc.c_eq]
    exact ht.addr
  have hcurrent : ∀ z : Ctx, Idle z (z.setCurrent .writeRemaining) :=
    fun _ => .of_eq rfl rfl rfl rfl
  have hidle : Idle (failReply y reply) (enableWrite (z.setCurrent .writeRemaining)) :=
    ((Idle.closes hc).trans (hcurrent z)).trans
      (.closes .enableWrite)
  have hbytes : bytesOf .replied (enableWrite (z.setCurrent .writeRemaining)).past =
      bytesOf .replied y.past ++ replyBytes reply .ipv4 emptyIp (0, 0) := by
    rw [hidle.bytes]
    have hm := (putReply_moves y reply .ipv4 emptyIp (0, 0)).bytes .replied
    rw [if_pos rfl] at hm
    exact hm
  have hid' : (enableWrite (z.setCurrent .writeRemaining)).id = x.id := by
    rw [Closes.enableWrite.id_eq]
    exact hc.id_eq.trans hid
  refine ⟨⟨(enableWrite (z.setCurrent .writeRemaining)).w,
    some (enableWrite (z.setCurrent .writeRemaining)).c⟩,
    ?_, _, rfl, by rw [enableWrite_c]; rfl, by rw [enableWrite_c]; exact haddr, reply.code,
      code_ne_zero hreply, ?_⟩
  · unfold jump
    dsimp only
    rw [if_neg (by decide), hcur, if_neg (by decide)]
    rfl
  · rw [newReplies_reply h hid' hbytes]
    exact replyBytes_connectReply reply (by decide) emptyIp (0, 0)

/-- The client goes on with `a`, with `later` behind it. -/
def Pursuit (x : Ctx) (e : Env) (a : AddrInfo) (later : List AddrInfo) (o : Outcome) : Prop :=
  ∃ c', o.c = some c' ∧ Trying c' a later ∧ newReplies x.id x.w o.w = [] ∧
    c'.clientSock = x.c.clientSock ∧ e.socket = some c'.originSock ∧
      x.w.fdTable c'.originSock = none

/-- One attempt, as an event leaves it. -/
theorem attempt_outcome (h : Silent x y) (hid : y.id = x.id)
    (hsock : y.c.clientSock = x.c.clientSock) (htable : y.w.fdTable = x.w.fdTable)
    (ht : Trying y.c a later) (hf : f.Begins e y.w) :
    ∃ r o, tryConnect e y = .ok r ∧ jump r = .ok o ∧
      ((f.atOnce = true ∧ Refusal x a later o) ∨ (f.atOnce = false ∧ Pursuit x e a later o)) := by
  cases hnow : f.atOnce with
  | true =>
    obtain ⟨z, reply, htry, hreply, hz, hzid, hzt⟩ := tryConnect_atOnce ht hf hnow
    obtain ⟨o, hjump, ho⟩ := jump_refusal (h.trans hz) (hzid.trans hid) hzt hreply
    exact ⟨_, o, htry, hjump, .inl ⟨rfl, ho⟩⟩
  | false =>
    obtain ⟨z, fd, htry, hz, hzid, hfd, hfree, rfl, hcs, hzt⟩ := tryConnect_goes ht hf hnow
    refine ⟨_, ⟨z.w, some z.c⟩, htry, ?_, .inr ⟨rfl, z.c, rfl, hzt, ?_, hcs.trans hsock, hfd, ?_⟩⟩
    · unfold jump
      dsimp only
      rw [if_neg (by decide), hzt.current, if_pos rfl]
    · exact newReplies_silent (h.trans hz) (hzid.trans hid)
    · rw [← htable]
      exact hfree

theorem stmHandlerWrite_connecting {fd : ℤ} (h : x.c.current = some .connecting) :
    stmHandlerWrite e fd x = match originCheckConnection e fd x with
      | .error f => .error f
      | .ok r => jump r := by
  have hfirst : handleFirst x = x := handleFirst_of_current h
  unfold stmHandlerWrite
  rw [hfirst]
  dsimp only
  rw [stmState_of_current h]
  rfl

/-- The first event, on the client's own socket. -/
theorem first_event (h : Trying x.c a later) (hf : f.Begins e x.w) :
    ∃ o, stmHandlerWrite e x.c.clientSock x = .ok o ∧
      ((f.atOnce = true ∧ Refusal x a later o) ∨ (f.atOnce = false ∧ Pursuit x e a later o)) := by
  generalize hy : x.sel (selectorRemoveInterest x.w.selector x.c.clientSock opWrite) = y
  have hbegin : f.Begins e y.w := by
    subst hy
    refine hf.congr rfl fun fd hfd => ?_
    change item? (selectorRemoveInterest x.w.selector x.c.clientSock opWrite).1 fd = none
    rw [item?_removeInterest]
    split_ifs with heq
    · rw [heq] at hfd
      rw [hfd]
      rfl
    · exact hfd
  have ht : Trying y.c a later := by
    subst hy
    exact ⟨h.current, h.addr, h.ends, h.logged⟩
  obtain ⟨r, o, htry, hjump, hend⟩ :=
    attempt_outcome (x := x) (by subst hy; exact .of_eq rfl rfl rfl rfl)
    (by subst hy; rfl) (by subst hy; rfl) (by subst hy; rfl) ht hbegin
  refine ⟨o, ?_, hend⟩
  rw [stmHandlerWrite_connecting h.current, originCheckConnection, if_pos rfl]
  dsimp only
  rw [hy, if_neg (by rw [ht.addr]; simp), htry]
  exact hjump

theorem enterProxy_outcome (h : logAccessInfo x.c = .ok ()) :
    ∃ y, enterProxy e a x = .ok (y, .proxy) ∧ y.id = x.id ∧ y.c.current = x.c.current ∧
      y.c.currAddr = x.c.currAddr ∧ y.c.originSock = x.c.originSock ∧
      bytesOf .replied y.past = bytesOf .replied x.past ++
        replyBytes .succeeded a.family.atyp e.sockname.1 e.sockname.2 := by
  generalize hy : putReply (joinOrigin x) .succeeded a.family.atyp e.sockname.1 e.sockname.2 = y
  have hid : y.id = x.id := by
    subst hy
    rfl
  have hc : y.c.current = x.c.current ∧ y.c.currAddr = x.c.currAddr ∧
      y.c.originSock = x.c.originSock := by
    subst hy
    exact ⟨rfl, rfl, rfl⟩
  have hbytes : bytesOf .replied y.past = bytesOf .replied x.past ++
      replyBytes .succeeded a.family.atyp e.sockname.1 e.sockname.2 := by
    subst hy
    have hm := (putReply_moves (joinOrigin x) .succeeded a.family.atyp
      e.sockname.1 e.sockname.2).bytes .replied
    rw [if_pos rfl] at hm
    exact hm
  have hreply :
      serverReply (joinOrigin x) .succeeded a.family.atyp e.sockname.1 e.sockname.2 = .ok y := by
    have hlog : logAccessInfo (joinOrigin x).c = .ok () := h
    rw [serverReply, hlog, ← hy]
  unfold enterProxy
  dsimp only
  rw [hreply]
  dsimp only
  -- whatever becomes of the parser for POP3, the rest is as the reply left it
  split_ifs <;> exact ⟨_, rfl, hid, hc.1, hc.2.1, hc.2.2, hbytes⟩

/-- The attempt has succeeded. -/
theorem success_event {fd : ℤ} (h : Trying x.c a later) (hfd : fd ≠ x.c.clientSock)
    (hso : e.soError = none) :
    ∃ w c', stmHandlerWrite e fd x = .ok ⟨w, some c'⟩ ∧ c'.current = some .proxy ∧
      c'.currAddr = .resolved a later ∧ c'.originSock = x.c.originSock ∧
      ConnectReply 0 (newReplies x.id x.w w) := by
  obtain ⟨y, hproxy, hid, hcur, haddr, horigin, hbytes⟩ :=
    enterProxy_outcome (e := e) (a := a) h.logged
  refine ⟨y.w, (y.setCurrent .proxy).c, ?_, rfl, haddr.trans h.addr, horigin, ?_⟩
  · rw [stmHandlerWrite_connecting h.current, originCheckConnection, if_neg hfd, hso, h.addr]
    dsimp only
    rw [hproxy]
    unfold jump
    dsimp only
    rw [if_neg (by decide), hcur, h.current, if_neg (by decide)]
    rfl
  · have hatyp : a.family.atyp ≠ .domainName := by cases a.family <;> simp [AddrFamily.atyp]
    have hself : Silent x x := .of_eq rfl rfl rfl rfl
    rw [newReplies_reply hself hid hbytes]
    exact replyBytes_connectReply .succeeded hatyp e.sockname.1 e.sockname.2

/-- The attempt has failed, and it was the last. -/
theorem last_event {fd : ℤ} {err : Errno} (h : Trying x.c a []) (hfd : fd ≠ x.c.clientSock)
    (hso : e.soError = some err) : ∃ o, stmHandlerWrite e fd x = .ok o ∧ Refusal x a [] o := by
  generalize hy : x.sel (selectorUnregisterFd x.w.selector x.c.originSock) = y
  have hsilent : Silent x y := by
    subst hy
    exact .of_eq rfl rfl rfl rfl
  have ht : Trying y.c a [] := by
    subst hy
    exact ⟨h.current, h.addr, h.ends, h.logged⟩
  obtain ⟨o, hjump, ho⟩ := jump_refusal hsilent (by subst hy; rfl) ht (checkConnectionError_ne err)
  refine ⟨o, ?_, ho⟩
  rw [stmHandlerWrite_connecting h.current, originCheckConnection, if_neg hfd, hso, h.addr]
  dsimp only [nextAddress]
  rw [hy, replyAndClose, serverReply, ht.logged]
  exact hjump

/-- The attempt has failed, and the next one begins. -/
theorem next_event {fd : ℤ} {err : Errno} {a' : AddrInfo} (h : Trying x.c a (a' :: later))
    (hfd : fd ≠ x.c.clientSock) (hso : e.soError = some err) (hf : f.Begins e x.w) :
    ∃ o, stmHandlerWrite e fd x = .ok o ∧
      ((f.atOnce = true ∧ Refusal x a' later o) ∨ (f.atOnce = false ∧ Pursuit x e a' later o)) := by
  generalize hy :
      (x.sel (selectorUnregisterFd x.w.selector x.c.originSock)).setAddr (.resolved a' later) = y
  have ht : Trying y.c a' later := by
    subst hy
    exact ⟨h.current, rfl, h.ends, logAccessInfo_next (x := x) h.logged a' later⟩
  have hbegin : f.Begins e y.w := by
    subst hy
    refine hf.congr rfl fun fd' hfd' => ?_
    change item? (selectorUnregisterFd x.w.selector x.c.originSock).1 fd' = none
    rw [item?_unregister]
    split_ifs
    · rfl
    · exact hfd'
  obtain ⟨r, o, htry, hjump, hend⟩ :=
    attempt_outcome (x := x) (by subst hy; exact .of_eq rfl rfl rfl rfl)
    (by subst hy; rfl) (by subst hy; rfl) (by subst hy; rfl) ht hbegin
  refine ⟨o, ?_, hend⟩
  rw [stmHandlerWrite_connecting h.current, originCheckConnection, if_neg hfd, hso, h.addr]
  dsimp only [nextAddress]
  rw [hy, htry]
  exact hjump

/-! ## Whole lists -/

/-- How the attempts end: those of `l` fail after a while, and then either the one at `a`
succeeds, or it fails with nothing left or at once. -/
structure Concludes (trials : List (AddrInfo × Fate)) (sockets : ℕ → Option ℤ) (c : Client)
    (bs : List UInt8) (l : List (AddrInfo × Fate)) (a : AddrInfo) (f : Fate)
    (later : List (AddrInfo × Fate)) : Prop where
  trials_eq : trials = l ++ (a, f) :: later
  late : ∀ t ∈ l, t.2.atOnce = false ∧ t.2 ≠ .success
  addr : c.currAddr = .resolved a (later.map Prod.fst)
  result : (f = .success ∧ c.current = some .proxy ∧ sockets l.length = some c.originSock ∧
    ConnectReply 0 bs) ∨
    (f ≠ .success ∧ (f.atOnce = true ∨ later = []) ∧ c.current = some .writeRemaining ∧
      ∃ code, code ≠ 0 ∧ ConnectReply code bs)

variable {c : Client} {bs : List UInt8} {trials rest l after : List (AddrInfo × Fate)}
    {sockets : ℕ → Option ℤ}
  {a₀ : AddrInfo} {f₀ : Fate}

/-- Another attempt before, which failed after a while. -/
theorem Concludes.cons {a' : AddrInfo} {f' : Fate}
    (h : Concludes rest (fun i => sockets (i + 1)) c bs l a' f' after) (hnow : f.atOnce = false)
    (hf : f ≠ .success) : Concludes ((a, f) :: rest) sockets c bs ((a, f) :: l) a' f' after := by
  refine ⟨by rw [h.trials_eq, List.cons_append], ?_, h.addr, h.result⟩
  intro t ht
  rcases List.mem_cons.mp ht with rfl | ht
  · exact ⟨hnow, hf⟩
  · exact h.late t ht

theorem connectRun_stops {n : ℕ} {fd : ℤ} {st : Socks5State} (h : c.current = some st)
    (hne : st ≠ .connecting) : connectRun id n ms fd c = .ok (c, []) := by
  cases n with
  | zero => rfl
  | succ n =>
    rw [connectRun, if_pos]
    rw [stmState_of_current h]
    exact hne

theorem connectRun_event {n : ℕ} {fd : ℤ} {c' : Client} (h : c.current = some .connecting)
    (hev : stmHandlerWrite (ms 0).e fd ⟨id, c, (ms 0).w⟩ = .ok ⟨w, some c'⟩) :
    connectRun id (n + 1) ms fd c =
      match connectRun id n (fun i => ms (i + 1)) c'.originSock c' with
      | .error f => .error f
      | .ok (c'', bs) => .ok (c'', newReplies id (ms 0).w w ++ bs) := by
  rw [connectRun, if_neg (by rw [stmState_of_current h]; exact fun h => h rfl), hev]

/-- The run is over after one event. -/
theorem connectRun_last {n : ℕ} {fd : ℤ} {c' : Client} {st : Socks5State}
    (h : c.current = some .connecting)
    (hev : stmHandlerWrite (ms 0).e fd ⟨id, c, (ms 0).w⟩ = .ok ⟨w, some c'⟩)
    (hst : c'.current = some st) (hne : st ≠ .connecting) :
    connectRun id (n + 1) ms fd c = .ok (c', newReplies id (ms 0).w w) := by
  rw [connectRun_event h hev, connectRun_stops hst hne]
  dsimp only
  rw [List.append_nil]

theorem connectRun_refusal {n : ℕ} {fd : ℤ} {o : Outcome} (h : c.current = some .connecting)
    (hev : stmHandlerWrite (ms 0).e fd ⟨id, c, (ms 0).w⟩ = .ok o)
    (ho : Refusal ⟨id, c, (ms 0).w⟩ a (rest.map Prod.fst) o) (hf : f ≠ .success)
    (hend : f.atOnce = true ∨ rest = []) :
    ∃ c' bs, connectRun id (n + 1) ms fd c = .ok (c', bs) ∧
      Concludes ((a, f) :: rest) sockets c' bs [] a f rest := by
  obtain ⟨w', c', rfl⟩ : ∃ w' c', o = ⟨w', some c'⟩ := by
    obtain ⟨c', hc', -⟩ := ho
    exact ⟨o.w, c', by rw [← hc']⟩
  obtain ⟨c'', hc'', hst, haddr, code, hcode, hreply⟩ := ho
  cases hc''
  refine ⟨c', _, connectRun_last h hev hst (by decide), rfl, by simp, haddr,
    .inr ⟨hf, hend, hst, code, hcode, ?_⟩⟩
  exact hreply

theorem connectRun_success {n : ℕ} (ht : Trying c a (rest.map Prod.fst))
    (hne : c.originSock ≠ c.clientSock)
    (hso : (ms 0).e.soError = none) (hfirst : sockets 0 = some c.originSock) :
    ∃ c' bs, connectRun id (n + 1) ms c.originSock c = .ok (c', bs) ∧
      Concludes ((a, .success) :: rest) sockets c' bs [] a .success rest := by
  obtain ⟨w, c', hev, hst, haddr, horigin, hreply⟩ :=
    success_event (x := ⟨id, c, (ms 0).w⟩) ht hne hso
  refine ⟨c', _, connectRun_last ht.current hev hst (by decide), rfl, by simp, haddr,
    .inl ⟨rfl, hst, ?_, hreply⟩⟩
  rw [horigin]
  exact hfirst

/-- The run goes on after one event that tells the client nothing. -/
theorem connectRun_pursuit {n : ℕ} {fd : ℤ} {o : Outcome} (h : c.current = some .connecting)
    (hev : stmHandlerWrite (ms 0).e fd ⟨id, c, (ms 0).w⟩ = .ok o)
    (ho : Pursuit ⟨id, c, (ms 0).w⟩ (ms 0).e a later o)
    (hopen : (ms 0).w.fdTable c.clientSock ≠ none) :
    ∃ c', Trying c' a later ∧ c'.clientSock = c.clientSock ∧ (ms 0).e.socket = some c'.originSock ∧
      c'.originSock ≠ c'.clientSock ∧
      connectRun id (n + 1) ms fd c = connectRun id n (fun i => ms (i + 1)) c'.originSock c' := by
  obtain ⟨w', c', rfl⟩ : ∃ w' c', o = ⟨w', some c'⟩ := by
    obtain ⟨c', hc', -⟩ := ho
    exact ⟨o.w, c', by rw [← hc']⟩
  obtain ⟨c'', hc'', ht, hnew, hcs, hsock, hfree⟩ := ho
  cases hc''
  refine ⟨c', ht, hcs, hsock, fun heq => hopen ?_, ?_⟩
  · rw [← hfree, heq, hcs]
  · rw [connectRun_event h hev]
    change newReplies id (ms 0).w w' = [] at hnew
    rw [hnew]
    cases connectRun id n (fun i => ms (i + 1)) c'.originSock c' with
    | error f => rfl
    | ok r => rfl

/-- The attempt at `a` is under way; the addresses of `rest` follow. The induction is on
`rest`, and each event either ends the run or begins the next attempt. -/
theorem connectRun_concludes (sockets : ℕ → Option ℤ) (ht : Trying c a (rest.map Prod.fst))
    (hnow : f.atOnce = false) (hso : (ms 0).e.soError = f.error) (hne : c.originSock ≠ c.clientSock)
    (hfits : Fits c.clientSock (rest.map Prod.snd) ms) (hfirst : sockets 0 = some c.originSock)
    (hsockets : ∀ i, sockets (i + 1) = (ms i).e.socket) :
    ∃ c' bs l a' f' after, connectRun id (rest.length + 1) ms c.originSock c = .ok (c', bs) ∧
      Concludes ((a, f) :: rest) sockets c' bs l a' f' after := by
  induction rest generalizing c a f ms sockets with
  | nil =>
    cases f with
    | noSocket => cases hnow
    | refused err => cases hnow
    | late err =>
      obtain ⟨o, hev, ho⟩ := last_event (x := ⟨id, c, (ms 0).w⟩) ht hne hso
      obtain ⟨c', bs, hrun, hc⟩ :=
        connectRun_refusal (f := .late err) ht.current hev ho (by simp) (.inr rfl)
      exact ⟨c', bs, [], a, _, [], hrun, hc⟩
    | success =>
      obtain ⟨c', bs, hrun, hc⟩ := connectRun_success ht hne hso hfirst
      exact ⟨c', bs, [], a, _, _, hrun, hc⟩
  | cons t rest ih =>
    -- a late failure goes on to the next address, which may end the run at once
    cases f with
    | noSocket => cases hnow
    | refused err => cases hnow
    | success =>
      obtain ⟨c', bs, hrun, hc⟩ := connectRun_success ht hne hso hfirst
      exact ⟨c', bs, [], a, _, _, hrun, hc⟩
    | late err =>
      obtain ⟨a', f'⟩ := t
      have hbegin : f'.Begins (ms 0).e (ms 0).w := hfits.begins 0 f' rfl
      obtain ⟨o, hev, ⟨hnow', ho⟩ | ⟨hnow', ho⟩⟩ :=
        next_event (x := ⟨id, c, (ms 0).w⟩) ht hne hso hbegin
      · obtain ⟨c', bs, hrun, hc⟩ := connectRun_refusal (n := rest.length + 1) ht.current hev ho
          (by rintro rfl; cases hnow') (.inl hnow')
        exact ⟨c', bs, _, a', f', rest, hrun, hc.cons rfl (by simp)⟩
      · obtain ⟨c', ht', hcs, hsock, hne', hrun⟩ :=
          connectRun_pursuit (n := rest.length + 1) ht.current hev ho
          (hfits.opened 0)
        obtain ⟨c'', bs, l, a'', f'', after, hrest, hc⟩ := ih (fun i => sockets (i + 1)) ht' hnow'
          (hfits.ends 0 f' rfl) hne' (hcs ▸ hfits.tail) ((hsockets 0).trans hsock) fun i =>
            hsockets (i + 1)
        exact ⟨c'', bs, _, a'', f'', after, hrun.trans hrest, hc.cons rfl (by simp)⟩

/-- The notification, the first event and the rest of the run. -/
theorem resolutionRun_concludes (id : ClientId) (w : World) (hst : c.current = some .resolving)
    (hd : Dest .resolving c) (hends : c.activeEnds = clientEnds)
    (hres : c.resolution = trials.map Prod.fst) (hne : trials ≠ [])
    (hfits : Fits c.clientSock (trials.map Prod.snd) ms) :
    ∃ c' bs l a f after, resolutionRun id w (trials.length + 1) ms c = .ok (c', bs) ∧
      Concludes trials (fun i => (ms i).e.socket) c' bs l a f after := by
  obtain ⟨⟨a, f⟩, rest, rfl⟩ := List.exists_cons_of_ne_nil hne
  generalize hx : (Ctx.mk id c w).setAddr (.resolved a (rest.map Prod.fst)) = x
  have hfin : handleFinishedResolution ⟨id, c, w⟩ = (x, .connecting) := by
    rw [handleFinishedResolution]
    dsimp only
    rw [hres, ← hx]
    rfl
  have hlog := handleFinishedResolution_dest (x := ⟨id, c, w⟩) hd
  rw [hfin] at hlog
  have hcur : x.c.current = some .resolving := by
    rw [← hx]
    exact hst
  generalize hc' : (x.setCurrent .connecting).c = c'
  have ht : Trying c' a (rest.map Prod.fst) := by
    rw [← hc']
    refine ⟨rfl, ?_, ?_, hlog⟩
    · rw [← hx]
      rfl
    · rw [← hx]
      exact hends
  have hcs : c'.clientSock = c.clientSock := by
    rw [← hc', ← hx]
    rfl
  -- the notification takes the client to the first attempt
  have hblock : ∃ w', stmHandlerBlock ⟨id, c, w⟩ = .ok ⟨w', some c'⟩ := by
    have hfirst : handleFirst ⟨id, c, w⟩ = ⟨id, c, w⟩ := handleFirst_of_current hst
    have hjump : stmHandlerBlock ⟨id, c, w⟩ = jump (x, .connecting) := by
      unfold stmHandlerBlock
      rw [hfirst]
      dsimp only
      rw [stmState_of_current hst]
      exact congrArg jump hfin
    rw [hjump, ← hc']
    unfold jump
    dsimp only
    rw [if_neg (by decide), hcur, if_neg (by decide)]
    exact ⟨_, rfl⟩
  obtain ⟨w', hblock⟩ := hblock
  have hrun : resolutionRun id w ((a, f) :: rest).length.succ ms c =
      connectRun id (rest.length + 1 + 1) ms c'.clientSock c' := by
    rw [resolutionRun, hblock]
    rfl
  rw [hrun]
  rw [← hcs] at hfits
  have hbegin : f.Begins (ms 0).e (ms 0).w := hfits.begins 0 f rfl
  obtain ⟨o, hev, ⟨hnow, ho⟩ | ⟨hnow, ho⟩⟩ := first_event (x := ⟨id, c', (ms 0).w⟩) ht hbegin
  · obtain ⟨c'', bs, hrun, hc⟩ := connectRun_refusal (n := rest.length + 1) ht.current hev ho
      (by rintro rfl; cases hnow) (.inl hnow)
    exact ⟨c'', bs, _, a, f, rest, hrun, hc⟩
  · obtain ⟨c'', ht', hcs', hsock, hne', hrun⟩ :=
      connectRun_pursuit (n := rest.length + 1) ht.current hev ho
      (hfits.opened 0)
    rw [← hcs'] at hfits
    rw [hrun]
    exact connectRun_concludes (fun i => (ms i).e.socket) ht' hnow
      (hfits.ends 0 f rfl) hne' hfits.tail hsock fun i => rfl

/-! ## The fallback -/

/-- The client ends in `PROXY`, connected to the first address whose attempt succeeds, and
it is told of a failure only if it is at the last address and no attempt succeeds. -/
def FallsBack (trials : List (AddrInfo × Fate)) (ms : ℕ → Moment)
    (r : Except Fault (Client × List UInt8)) : Prop :=
  ∃ c bs, r = .ok (c, bs) ∧
    (∀ l a later, trials = l ++ (a, .success) :: later → (∀ t ∈ l, t.2 ≠ .success) →
      c.current = some .proxy ∧ c.currAddr = .resolved a (later.map Prod.fst) ∧
        (ms l.length).e.socket = some c.originSock) ∧
    (∀ code, code ≠ 0 → ConnectReply code bs →
      (∀ t ∈ trials, t.2 ≠ .success) ∧ ∃ l t, trials = l ++ [t] ∧ c.currAddr = .resolved t.1 [])

/-- An attempt that fails at once is at the last address, or behind one that succeeds. -/
def NoEarlyFailure (trials : List (AddrInfo × Fate)) : Prop :=
  ∀ l t later, trials = l ++ t :: later → t.2.atOnce = true → later ≠ [] → ∃ t' ∈ l, t'.2 = .success

theorem ConnectReply.code_eq {code code' : UInt8} (h : ConnectReply code bs)
    (h' : ConnectReply code' bs) :
    code = code' := by
  have hsecond : ∀ k, ConnectReply k bs → bs[1]? = some k := by
    rintro k ⟨addr, port, ⟨-, rfl⟩ | ⟨-, rfl⟩⟩ <;> rfl
  have heq := (hsecond code h).symm.trans (hsecond code' h')
  exact Option.some.inj heq

/-- Two ways to pick an element of one list. -/
theorem split_trichotomy {α : Type*} {l₁ l₂ r₁ r₂ : List α} {t₁ t₂ : α}
    (h : l₁ ++ t₁ :: r₁ = l₂ ++ t₂ :: r₂) :
    (t₁ ∈ l₂ ∧ r₁ ≠ []) ∨ (t₂ ∈ l₁ ∧ r₂ ≠ []) ∨ (l₁ = l₂ ∧ t₁ = t₂ ∧ r₁ = r₂) := by
  rcases List.append_eq_append_iff.mp h with ⟨m, hl, hr⟩ | ⟨m, hl, hr⟩
  · cases m with
    | nil =>
      simp only [List.append_nil, List.nil_append, List.cons.injEq] at hl hr
      exact .inr (.inr ⟨hl.symm, hr.1, hr.2⟩)
    | cons t m =>
      simp only [List.cons_append, List.cons.injEq] at hr
      refine .inl ⟨?_, ?_⟩
      · rw [hl, hr.1]
        simp
      · rw [hr.2]
        simp
  · cases m with
    | nil =>
      simp only [List.append_nil, List.nil_append, List.cons.injEq] at hl hr
      exact .inr (.inr ⟨hl, hr.1.symm, hr.2.symm⟩)
    | cons t m =>
      simp only [List.cons_append, List.cons.injEq] at hr
      refine .inr (.inl ⟨?_, ?_⟩)
      · rw [hl, hr.1]
        simp
      · rw [hr.2]
        simp

theorem Concludes.fallsBack (h : Concludes trials (fun i => (ms i).e.socket) c bs l a f after)
    (hearly : NoEarlyFailure trials) : FallsBack trials ms (.ok (c, bs)) := by
  have hlate : ∀ t ∈ l, t.2 ≠ .success := fun t ht => (h.late t ht).2
  -- an error leaves nothing behind `a`
  have hlast : f ≠ .success → f.atOnce = true ∨ after = [] → after = [] := by
    intro hf hend
    by_contra hafter
    obtain ⟨t, ht, hsucc⟩ := hearly l (a, f) after h.trials_eq (hend.resolve_right hafter) hafter
    exact hlate t ht hsucc
  refine ⟨c, bs, rfl, ?_, ?_⟩
  · intro l₁ a₁ later₁ heq hnone
    rw [h.trials_eq] at heq
    rcases split_trichotomy heq with ⟨hmem, hafter⟩ | ⟨hmem, -⟩ | ⟨rfl, ht, rfl⟩
    · rcases h.result with ⟨hf, -⟩ | ⟨hf, hend, -⟩
      · exact absurd hf (hnone _ hmem)
      · exact absurd (hlast hf hend) hafter
    · exact absurd rfl (hlate _ hmem)
    · simp only [Prod.mk.injEq] at ht
      rcases h.result with ⟨-, hst, hsock, -⟩ | ⟨hf, -⟩
      · exact ⟨hst, ht.1 ▸ h.addr, hsock⟩
      · exact absurd ht.2 hf
  · intro code hcode hreply
    rcases h.result with ⟨-, -, -, hzero⟩ | ⟨hf, hend, -⟩
    · exact absurd (hreply.code_eq hzero) hcode
    · have hafter := hlast hf hend
      subst hafter
      refine ⟨?_, l, (a, f), h.trials_eq, h.addr⟩
      intro t ht
      rw [h.trials_eq] at ht
      rcases List.mem_append.mp ht with ht | ht
      · exact hlate t ht
      · rw [List.mem_singleton.mp ht]
        exact hf

theorem Concludes.noEarlyFailure (h : Concludes trials (fun i => (ms i).e.socket) c bs l a f after)
    (hfalls : FallsBack trials ms (.ok (c, bs))) : NoEarlyFailure trials := by
  obtain ⟨c', bs', hr, -, herror⟩ := hfalls
  cases hr
  intro l₁ t later₁ heq hnow hlater
  rw [h.trials_eq] at heq
  rcases split_trichotomy heq with ⟨hmem, hafter⟩ | ⟨hmem, -⟩ | ⟨rfl, rfl, rfl⟩
  · rcases h.result with ⟨hf, -⟩ | ⟨-, -, -, code, hcode, hreply⟩
    · exact ⟨_, hmem, hf⟩
    · obtain ⟨-, l', t', -, haddr⟩ := herror code hcode hreply
      rw [h.addr] at haddr
      simp only [CurrAddr.resolved.injEq, List.map_eq_nil_iff] at haddr
      exact absurd haddr.2 hafter
  · rw [(h.late t hmem).1] at hnow
    cases hnow
  · rcases h.result with ⟨rfl, -⟩ | ⟨-, -, -, code, hcode, hreply⟩
    · cases hnow
    · obtain ⟨-, l', t', -, haddr⟩ := herror code hcode hreply
      rw [h.addr] at haddr
      simp only [CurrAddr.resolved.injEq, List.map_eq_nil_iff] at haddr
      exact absurd haddr.2 hlater

/-- From every reachable state, for every list of addresses and every assignment of fates to
them, the client falls back to the first address that can be reached if and only if no
attempt before that one, nor before the last, fails at once. -/
theorem address_fallback_iff (users : UserTable) (masters monitors : List ℤ) (evs : List Event)
    {id : ClientId} {c : Client} (trials : List (AddrInfo × Fate)) (ms : ℕ → Moment)
    (hc : (exec step (boot users masters monitors) evs).heap id = some c)
    (hst : c.current = some .resolving) (hres : c.resolution = trials.map Prod.fst)
    (hne : trials ≠ []) (hfits : Fits c.clientSock (trials.map Prod.snd) ms) :
    FallsBack trials ms (resolutionRun id (exec step (boot users masters monitors) evs).w
      (trials.length + 1) ms c) ↔ NoEarlyFailure trials := by
  have hd := (destined.reachable users masters monitors evs).live id c hc
  have hctl := (reachable_inv users masters monitors evs).live id c hc
  rw [stmState_of_current hst] at hd
  rw [hst] at hctl
  obtain ⟨c', bs, l, a, f, after, hrun, hconcl⟩ := resolutionRun_concludes id
    (exec step (boot users masters monitors) evs).w hst hd (Alone.ends hctl) hres hne hfits
  rw [hrun]
  exact ⟨hconcl.noEarlyFailure, hconcl.fallsBack⟩

/-! ## A name with an IPv6 and an IPv4 address -/

def addr6 : AddrInfo := ⟨.inet6, List.replicate 15 0 ++ [1], (0, 80)⟩

def addr4 : AddrInfo := ⟨.inet, [127, 0, 0, 1], (0, 80)⟩

/-- The client has asked for a name, and its addresses are known. -/
def named : Server :=
  exec step (boot [] [] [])
    (greet 3 ++ [readable 3 (.fine nameRequest 3), .resolved 0 [addr6, addr4]])

/-- The attempt at the IPv6 address fails after a while. -/
def lateRefusal : ℕ → Moment
  | 0 => ⟨{ Env.fine [] 4 with connect := .inProgress }, named.w⟩
  | 1 => ⟨{ Env.fine [] 4 with connect := .inProgress, soError := some .econnrefused }, named.w⟩
  | _ + 2 => ⟨Env.fine [] 4, named.w⟩

/-- There is no route to the IPv6 address, and `connect` says so. -/
def noRoute : ℕ → Moment
  | 0 => ⟨{ Env.fine [] 4 with connect := .failed .enetunreach }, named.w⟩
  | _ + 1 => ⟨Env.fine [] 4, named.w⟩

theorem named_client : ∃ c, named.heap 0 = some c ∧ c.current = some .resolving ∧
    c.resolution = [addr6, addr4] ∧ c.clientSock = 3 := by
  have h : (named.heap 0).map (fun c => (c.current, c.resolution, c.clientSock)) =
      some (some .resolving, [addr6, addr4], 3) := by decide +kernel
  obtain ⟨c, hc, heq⟩ := Option.map_eq_some_iff.mp h
  simp only [Prod.mk.injEq] at heq
  exact ⟨c, hc, heq⟩

theorem named_free : freshFd named.w (some 4) = some 4 ∧ invalidFd 4 = false ∧
    item? named.w.selector 4 = none := by decide +kernel

theorem named_open : named.w.fdTable 3 ≠ none := by decide +kernel

theorem lateRefusal_fits : Fits 3 [.late .econnrefused, .success] lateRefusal := by
  refine ⟨?_, ?_, ?_⟩
  · rintro (_ | _ | i) <;> exact named_open
  · rintro (_ | _ | i) f hf
    · cases hf
      exact ⟨⟨4, named_free⟩, by simp [lateRefusal]⟩
    · cases hf
      exact ⟨⟨4, named_free⟩, by simp [lateRefusal]⟩
    · cases hf
  · rintro (_ | _ | i) f hf
    · cases hf
      rfl
    · cases hf
      rfl
    · cases hf

theorem noRoute_fits : Fits 3 [.refused .enetunreach, .success] noRoute := by
  refine ⟨?_, ?_, ?_⟩
  · rintro (_ | i) <;> exact named_open
  · rintro (_ | _ | i) f hf
    · cases hf
      exact ⟨⟨4, named_free.1⟩, rfl⟩
    · cases hf
      exact ⟨⟨4, named_free⟩, by simp [noRoute, Env.fine]⟩
    · cases hf
  · rintro (_ | _ | i) f hf
    · cases hf
      rfl
    · cases hf
      rfl
    · cases hf

theorem fallback_after_a_late_refusal : ∃ c, named.heap 0 = some c ∧
    FallsBack [(addr6, .late .econnrefused), (addr4, .success)] lateRefusal
      (resolutionRun 0 named.w 3 lateRefusal c) := by
  obtain ⟨c, hc, hst, hres, hsock⟩ := named_client
  have hfits : Fits c.clientSock [.late .econnrefused, .success] lateRefusal := by
    rw [hsock]
    exact lateRefusal_fits
  refine ⟨c, hc,
    (address_fallback_iff [] [] [] _ [(addr6, .late .econnrefused), (addr4, .success)] lateRefusal
    hc hst hres (by simp) hfits).mpr ?_⟩
  intro l t later heq hnow
  have hmem : t ∈ [(addr6, Fate.late .econnrefused), (addr4, .success)] := by
    rw [heq]
    simp
  simp only [List.mem_cons, List.not_mem_nil, or_false] at hmem
  rcases hmem with rfl | rfl <;> cases hnow

/-- A host without a route for IPv6: `connect` fails at once for the first address, and the
second one, which can be reached, is never tried. -/
theorem no_fallback_without_a_route : ∃ c, named.heap 0 = some c ∧ c.current = some .resolving ∧
    c.resolution = [addr6, addr4] ∧ Fits c.clientSock [.refused .enetunreach, .success] noRoute ∧
    ¬ FallsBack [(addr6, .refused .enetunreach), (addr4, .success)] noRoute
      (resolutionRun 0 named.w 3 noRoute c) := by
  obtain ⟨c, hc, hst, hres, hsock⟩ := named_client
  refine ⟨c, hc, hst, hres, by rw [hsock]; exact noRoute_fits, ?_⟩
  rintro ⟨c', bs, hrun, hfirst, -⟩
  have hend :
      ((named.heap 0).map fun c => (resolutionRun 0 named.w 3 noRoute c).map fun r => r.1.current) =
      some (.ok (some .writeRemaining)) := by decide +kernel
  rw [hc] at hend
  dsimp only [Option.map_some] at hend
  rw [hrun] at hend
  have hproxy := (hfirst [(addr6, .refused .enetunreach)] addr4 [] rfl (by simp)).1
  simp only [Except.map, hproxy] at hend
  cases hend

end Socks5d

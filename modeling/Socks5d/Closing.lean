import Socks5d.Frame

/-! # `closeClient`

Closing an end touches only the set of active ends, the client's own
registrations and its own descriptors. -/

namespace Socks5d

variable {x x' x'' : Ctx} {level : SocketEnds} {n : ℕ} {b : Bool} {fd : ℤ} {i m : FdInterest}
  {fds : List ℤ} {d : Handler}

/-! ## The recursion of the source -/

@[simp] theorem dropInterest_c : (dropInterest b fd i x).c = x.c := by
  unfold dropInterest
  split_ifs <;> rfl

@[simp] theorem close_c : (x.close fd).c = x.c := by
  unfold Ctx.close
  split_ifs <;> rfl

@[simp] theorem retire_c : (retire b fd x).c = x.c := by
  unfold retire
  split_ifs
  · simp [Ctx.sel]
  · rfl

@[simp] theorem wake_c : (wake b fd x).c = x.c := by
  unfold wake
  split_ifs <;> rfl

@[simp] theorem enableWrite_c : (enableWrite x).c = x.c := by simp [enableWrite]

@[simp] theorem closeEnds_c :
    (closeEnds level x).c = { x.c with activeEnds := x.c.activeEnds &&& ~~~level } := by
  simp [closeEnds, Ctx.setEnds]

/-- How many recursive calls follow. -/
def closeDepth (level ends : SocketEnds) : ℕ :=
  if (level &&& ends).clientWrite then 2 else if (level &&& ends).originWrite then 1 else 0

theorem closeClientAux_succ (h : closeDepth level x.c.activeEnds ≤ n) :
    closeClientAux (n + 1) level x = closeClientAux (n + 2) level x := by
  induction n generalizing level x with
  | zero =>
    have hcw : (level &&& x.c.activeEnds).clientWrite = false := by
      by_contra hc
      rw [closeDepth, if_pos (by simpa using hc)] at h
      omega
    have how : (level &&& x.c.activeEnds).originWrite = false := by
      by_contra hc
      rw [closeDepth, hcw, if_neg Bool.false_ne_true, if_pos (by simpa using hc)] at h
      omega
    conv_lhs => rw [closeClientAux]
    conv_rhs => rw [closeClientAux]
    simp only [hasFlag_clientWrite, hasFlag_originWrite, hcw, how, Bool.false_eq_true, ↓reduceIte]
  | succ n ih =>
    -- the ends that are left lack the one that led to the recursive call
    conv_lhs => rw [closeClientAux]
    conv_rhs => rw [closeClientAux]
    simp only [hasFlag_clientWrite, hasFlag_originWrite]
    split_ifs with h1 h2
    · refine ih ?_
      rw [closeDepth, if_pos h1] at h
      rw [closeDepth, if_neg (by simp_all [clientReadEnd, originEnds])]
      split_ifs <;> omega
    · refine ih ?_
      rw [closeDepth, if_neg (by simp [clientReadEnd]), if_neg (by simp [clientReadEnd])]
      exact Nat.zero_le _
    all_goals rfl

theorem closeDepth_le (level ends : SocketEnds) : closeDepth level ends ≤ 2 := by
  unfold closeDepth
  split_ifs <;> omega

/-- `closeClient` as the source writes it. -/
theorem closeClient_eq (x : Ctx) (level : SocketEnds) :
    closeClient x level =
      let level := level &&& x.c.activeEnds
      let x := closeEnds level x
      if hasFlag level clientWriteEnd then closeClient x (clientReadEnd ||| originEnds)
      else if hasFlag level originWriteEnd then closeClient x clientReadEnd
      else if !x.c.activeEnds.any then (x, .done)
      else if !hasFlag x.c.activeEnds (clientReadEnd ||| originReadEnd) then (x, .writeRemaining)
      else (enableWrite x, stmState x.c) := by
  rw [closeClient, closeClientAux_succ (closeDepth_le _ _), closeClientAux]
  rfl

/-! ## What closing can change -/

structure Closes (x x' : Ctx) : Prop where
  id_eq : x'.id = x.id
  c_eq : x'.c = { x.c with activeEnds := x'.c.activeEnds }
  log_eq : ∃ os, (∀ o ∈ os, ∃ fd k, o = .closed x.id fd k) ∧ x'.w.log = x.w.log ++ os
  resolvers_eq : x'.w.resolvers = x.w.resolvers

theorem Closes.refl (x : Ctx) : Closes x x := ⟨rfl, rfl, ⟨[], by simp⟩, rfl⟩

theorem Closes.trans (h : Closes x x') (h' : Closes x' x'') : Closes x x'' := by
  obtain ⟨os, hos, hlog⟩ := h.log_eq
  obtain ⟨os', hos', hlog'⟩ := h'.log_eq
  refine ⟨h'.id_eq.trans h.id_eq, ?_, ⟨os ++ os', ?_, ?_⟩, h'.resolvers_eq.trans h.resolvers_eq⟩
  · rw [h'.c_eq, h.c_eq]
  · intro o ho
    rcases List.mem_append.mp ho with ho | ho
    · exact hos o ho
    · exact h.id_eq ▸ hos' o ho
  · rw [hlog', hlog, List.append_assoc]

theorem Closes.sel (s : FdSelector Handler × SelectorStatus) : Closes x (x.sel s) :=
  ⟨rfl, rfl, ⟨[], by simp [Ctx.sel]⟩, rfl⟩

theorem Closes.setEnds (ends : SocketEnds) : Closes x (x.setEnds ends) :=
  ⟨rfl, rfl, ⟨[], by simp [Ctx.setEnds]⟩, rfl⟩

theorem Closes.close : Closes x (x.close fd) := by
  unfold Ctx.close
  split_ifs
  · exact ⟨rfl, rfl, ⟨[.closed x.id fd (x.w.fdTable fd)], by simp, rfl⟩, rfl⟩
  · exact .refl x

theorem Closes.dropInterest : Closes x (dropInterest b fd i x) := by
  unfold Socks5d.dropInterest
  split_ifs
  · exact .sel _
  · exact .refl x

theorem Closes.retire : Closes x (retire b fd x) := by
  unfold Socks5d.retire
  split_ifs
  · exact (Closes.sel _).trans .close
  · exact .refl x

theorem Closes.closeEnds : Closes x (closeEnds level x) := by
  unfold Socks5d.closeEnds
  dsimp only
  refine Closes.trans ?_ .retire
  refine Closes.trans ?_ .retire
  refine Closes.trans ?_ (.setEnds _)
  refine Closes.trans ?_ .dropInterest
  refine Closes.trans ?_ .dropInterest
  exact Closes.trans .dropInterest .dropInterest

theorem Closes.wake : Closes x (wake b fd x) := by
  unfold Socks5d.wake
  split_ifs
  · exact (Closes.sel _).trans (.sel _)
  · exact .refl x

theorem Closes.enableWrite : Closes x (enableWrite x) := Closes.wake.trans .wake

theorem stmState_closes (h : Closes x x') : stmState x'.c = stmState x.c := by
  rw [h.c_eq]
  rfl

theorem closeClientAux_closes (n : ℕ) (level : SocketEnds) (x : Ctx) :
    Closes x (closeClientAux n level x).1 ∧
    ((closeClientAux n level x).2 = stmState x.c ∨ (closeClientAux n level x).2 = .done ∨
      (closeClientAux n level x).2 = .writeRemaining) := by
  induction n generalizing level x with
  | zero => exact ⟨.refl x, .inl rfl⟩
  | succ n ih =>
    have hx : Closes x (closeEnds (level &&& x.c.activeEnds) x) := .closeEnds
    have hrec := fun l => ih l (closeEnds (level &&& x.c.activeEnds) x)
    rw [closeClientAux]
    split_ifs
    · exact ⟨hx.trans (hrec _).1, stmState_closes hx ▸ (hrec _).2⟩
    · exact ⟨hx.trans (hrec _).1, stmState_closes hx ▸ (hrec _).2⟩
    · exact ⟨hx, .inr (.inl rfl)⟩
    · exact ⟨hx, .inr (.inr rfl)⟩
    · exact ⟨hx.trans .enableWrite, .inl (stmState_closes hx)⟩

theorem closeClient_closes (x : Ctx) (level : SocketEnds) : Closes x (closeClient x level).1 :=
  (closeClientAux_closes _ _ _).1

theorem closeClient_state (x : Ctx) (level : SocketEnds) :
    (closeClient x level).2 = stmState x.c ∨ (closeClient x level).2 = .done ∨
      (closeClient x level).2 = .writeRemaining := (closeClientAux_closes _ _ _).2

/-! ## Closing concerns nobody else -/

/-- The descriptors the client operates on are not registered by others. -/
structure Owns (x : Ctx) : Prop where
  client : OwnFd (.socks5 x.id) x.w.selector x.c.clientSock
  origin : (x.c.activeEnds.originWrite || x.c.activeEnds.originRead) = true →
    OwnFd (.socks5 x.id) x.w.selector x.c.originSock

theorem Owns.quiet (h : Owns x) (hq : Quiet x x') (ho : x'.c.originSock = x.c.originSock)
    (he : (x'.c.activeEnds.originWrite || x'.c.activeEnds.originRead) = true →
      (x.c.activeEnds.originWrite || x.c.activeEnds.originRead) = true) : Owns x' := by
  refine ⟨?_, ?_⟩
  · exact hq.ownClient h.client
  · intro hends
    rw [ho]
    exact hq.ownFd (h.origin (he hends))

theorem Quiet.dropInterest (h : b = true → OwnFd (.socks5 x.id) x.w.selector fd) :
    Quiet x (dropInterest b fd i x) := by
  unfold Socks5d.dropInterest
  split_ifs with hb
  · exact .removeInterest (h hb)
  · exact .refl x

theorem Quiet.retire (h : b = true → OwnFd (.socks5 x.id) x.w.selector fd) :
    Quiet x (retire b fd x) := by
  unfold Socks5d.retire
  split_ifs with hb
  · refine (Quiet.unregister (h hb)).trans (.close ?_)
    intro _
    simp [Ctx.sel]
  · exact .refl x

theorem closeEnds_quiet (h : Owns x) (hl : ∀ (_ : (level.originWrite || level.originRead) = true),
    (x.c.activeEnds.originWrite || x.c.activeEnds.originRead) = true) :
    Quiet x (closeEnds level x) := by
  have step : ∀ {y : Ctx} {b : Bool} {fd : ℤ} {i : FdInterest}, Quiet x y →
      (b = true → OwnFd (.socks5 x.id) x.w.selector fd) → Quiet x (dropInterest b fd i y) := by
    intro y b fd i hy ho
    refine hy.trans (.dropInterest fun hb => ?_)
    rw [hy.id_eq]
    exact (ho hb).spares hy.world.spares
  have last : ∀ {y : Ctx} {b : Bool} {fd : ℤ}, Quiet x y →
      (b = true → OwnFd (.socks5 x.id) x.w.selector fd) → Quiet x (retire b fd y) := by
    intro y b fd hy ho
    refine hy.trans (.retire fun hb => ?_)
    rw [hy.id_eq]
    exact (ho hb).spares hy.world.spares
  unfold closeEnds
  dsimp only
  simp only [dropInterest_c, retire_c, Ctx.setEnds, hasFlag_clientRead, hasFlag_originWrite,
    hasFlag_clientWrite, hasFlag_originRead, hasFlag_client, hasFlag_origin]
  refine last (last (Quiet.trans (step (step (step (step (.refl x) ?_) ?_) ?_) ?_)
    (.client (by simp) (by simp))) ?_) ?_
  · exact fun _ => h.client
  · exact fun hb => h.origin (hl (by simp [hb]))
  · exact fun _ => h.client
  · exact fun hb => h.origin (hl (by simp [hb]))
  · exact fun _ => h.client
  · intro hb
    simp only [Bool.and_eq_true] at hb
    exact h.origin (hl hb.1)

theorem Quiet.wake (h : b = true → OwnFd (.socks5 x.id) x.w.selector fd) :
    Quiet x (wake b fd x) := by
  unfold Socks5d.wake
  split_ifs with hb
  · exact (Quiet.addInterest (h hb)).trans .unmask
  · exact .refl x

theorem enableWrite_quiet (h : Owns x) : Quiet x (enableWrite x) := by
  have hc : Quiet x (wake (hasFlag x.c.activeEnds clientWriteEnd) x.c.clientSock x) :=
    .wake fun _ => h.client
  refine hc.trans (.wake ?_)
  intro hb
  rw [hasFlag_originWrite, wake_c] at hb
  rw [hc.id_eq, wake_c]
  exact (h.origin (by simp [hb])).spares hc.world.spares

theorem closeClientAux_quiet (h : Owns x) : Quiet x (closeClientAux n level x).1 := by
  induction n generalizing level x with
  | zero => exact .refl x
  | succ n ih =>
    have hx : Quiet x (closeEnds (level &&& x.c.activeEnds) x) := by
      refine closeEnds_quiet h ?_
      simp only [SocketEnds.and_originWrite, SocketEnds.and_originRead, Bool.or_eq_true,
        Bool.and_eq_true]
      exact Or.imp And.right And.right
    have ho : Owns (closeEnds (level &&& x.c.activeEnds) x) := by
      refine h.quiet hx (by simp) ?_
      simp only [closeEnds_c, SocketEnds.and_originWrite, SocketEnds.and_originRead,
        Bool.or_eq_true, Bool.and_eq_true]
      exact Or.imp And.left And.left
    rw [closeClientAux]
    split_ifs
    · exact hx.trans (ih ho)
    · exact hx.trans (ih ho)
    · exact hx
    · exact hx
    · exact hx.trans (enableWrite_quiet ho)

theorem closeClient_quiet (h : Owns x) (level : SocketEnds) : Quiet x (closeClient x level).1 :=
  closeClientAux_quiet h

/-! ## Closed forms

The calls of the handlers close one end that is active, while `CLIENT_WRITE` is
active. -/

theorem closeEnds_bits : closeEnds level x =
    let ends := x.c.activeEnds &&& ~~~level
    retire ((level.originWrite || level.originRead) && !(ends.originWrite || ends.originRead))
      x.c.originSock
    (retire ((level.clientWrite || level.clientRead) && !(ends.clientWrite || ends.clientRead))
      x.c.clientSock
    ((dropInterest level.originRead x.c.originSock opRead
      (dropInterest level.clientWrite x.c.clientSock opWrite
      (dropInterest level.originWrite x.c.originSock opWrite
      (dropInterest level.clientRead x.c.clientSock opRead x)))).setEnds ends)) := by
  simp [closeEnds, Ctx.setEnds]

@[simp] theorem dropInterest_false : dropInterest false fd i x = x := rfl

@[simp] theorem dropInterest_true :
    dropInterest true fd i x = x.sel (selectorRemoveInterest x.w.selector fd i) := rfl

@[simp] theorem retire_false : retire false fd x = x := rfl

theorem closeEnds_none (h : level.any = false) : closeEnds level x = x := by
  rcases level with ⟨cw, cr, ow, or⟩
  simp only [SocketEnds.any, Bool.or_eq_false_iff] at h
  obtain ⟨⟨⟨rfl, rfl⟩, rfl⟩, rfl⟩ := h
  rcases he : x.c.activeEnds with ⟨a, b, c, d⟩
  simp only [closeEnds_bits, dropInterest_false, retire_false, he, SocketEnds.compl_mk,
    SocketEnds.mk_and_mk, Bool.not_false, Bool.and_true, Bool.or_self, Bool.false_and]
  rw [← he]
  rfl

/-- `CLIENT_READ` alone, while `CLIENT_WRITE` stays. -/
theorem closeEnds_clientRead (hcw : x.c.activeEnds.clientWrite = true) :
    closeEnds clientReadEnd x =
      (x.sel (selectorRemoveInterest x.w.selector x.c.clientSock opRead)).setEnds
        { x.c.activeEnds with clientRead := false } := by
  rcases he : x.c.activeEnds with ⟨cw, cr, ow, or⟩
  obtain rfl : cw = true := by simpa [he] using hcw
  simp [closeEnds_bits, clientReadEnd, he]

theorem closeEnds_originRead :
    closeEnds originReadEnd x = retire (!x.c.activeEnds.originWrite) x.c.originSock
      ((x.sel (selectorRemoveInterest x.w.selector x.c.originSock opRead)).setEnds
        { x.c.activeEnds with originRead := false }) := by
  rcases he : x.c.activeEnds with ⟨cw, cr, ow, or⟩
  simp [closeEnds_bits, originReadEnd, he]

theorem closeEnds_originWrite :
    closeEnds originWriteEnd x = retire (!x.c.activeEnds.originRead) x.c.originSock
      ((x.sel (selectorRemoveInterest x.w.selector x.c.originSock opWrite)).setEnds
        { x.c.activeEnds with originWrite := false }) := by
  rcases he : x.c.activeEnds with ⟨cw, cr, ow, or⟩
  simp [closeEnds_bits, originWriteEnd, he]

/-- The state `closeClient` ends in when no end is left to close. -/
def closeState (x : Ctx) : Ctx × Socks5State :=
  if x.c.activeEnds.clientRead || x.c.activeEnds.originRead then (enableWrite x, stmState x.c)
  else (x, .writeRemaining)

/-- The activation that closes no writing end is the last one. -/
theorem closeClient_last (hcw : x.c.activeEnds.clientWrite = true)
    (h1 : (level &&& x.c.activeEnds).clientWrite = false)
    (h2 : (level &&& x.c.activeEnds).originWrite = false) :
    closeClient x level = closeState (closeEnds (level &&& x.c.activeEnds) x) := by
  rw [closeClient_eq]
  dsimp only
  generalize hl : level &&& x.c.activeEnds = l at h1 h2 ⊢
  have hany : (closeEnds l x).c.activeEnds.any = true := by
    simp [SocketEnds.any, hcw, h1]
  simp only [hasFlag_clientWrite, hasFlag_originWrite, hasFlag_reads, h1, h2, hany, closeState,
    Bool.false_eq_true, Bool.not_true, ↓reduceIte]
  cases (closeEnds l x).c.activeEnds.clientRead || (closeEnds l x).c.activeEnds.originRead <;> rfl

theorem closeClient_empty (h : x.c.activeEnds.any = false) : closeClient x level = (x, .done) := by
  have hends : x.c.activeEnds = ⟨false, false, false, false⟩ := by
    rcases he : x.c.activeEnds with ⟨cw, cr, ow, or⟩
    simpa [SocketEnds.any, he, and_assoc] using h
  have hl : (level &&& x.c.activeEnds).any = false := by simp [SocketEnds.any, hends]
  rw [closeClient_eq]
  dsimp only
  rw [closeEnds_none hl]
  simp [hends, SocketEnds.any]

/-- What is left to close after `CLIENT_WRITE`. -/
def otherEnds (ends : SocketEnds) : SocketEnds := { ends with clientWrite := false }

section
variable (hcw : x.c.activeEnds.clientWrite = true)
include hcw

theorem closeClient_idle (hcr : x.c.activeEnds.clientRead = false) :
    closeClient x clientReadEnd = closeState x := by
  rw [closeClient_last hcw (by simp [clientReadEnd]) (by simp [clientReadEnd]), closeEnds_none]
  simp [SocketEnds.any, clientReadEnd, hcr]

theorem closeClient_clientRead (hcr : x.c.activeEnds.clientRead = true) :
    closeClient x clientReadEnd = closeState (closeEnds clientReadEnd x) := by
  have hl : clientReadEnd &&& x.c.activeEnds = clientReadEnd := by
    rcases he : x.c.activeEnds with ⟨cw, cr, ow, or⟩
    obtain rfl : cr = true := by simpa [he] using hcr
    simp [clientReadEnd]
  rw [closeClient_last hcw (by simp [clientReadEnd]) (by simp [clientReadEnd]), hl]

theorem closeClient_originRead (hor : x.c.activeEnds.originRead = true) :
    closeClient x originReadEnd = closeState (closeEnds originReadEnd x) := by
  have hl : originReadEnd &&& x.c.activeEnds = originReadEnd := by
    rcases he : x.c.activeEnds with ⟨cw, cr, ow, or⟩
    obtain rfl : or = true := by simpa [he] using hor
    simp [originReadEnd]
  rw [closeClient_last hcw (by simp [originReadEnd]) (by simp [originReadEnd]), hl]

omit hcw in
theorem closeClient_originWrite (how : x.c.activeEnds.originWrite = true) :
    closeClient x originWriteEnd = closeClient (closeEnds originWriteEnd x) clientReadEnd := by
  have hl : originWriteEnd &&& x.c.activeEnds = originWriteEnd := by
    rcases he : x.c.activeEnds with ⟨cw, cr, ow, or⟩
    obtain rfl : ow = true := by simpa [he] using how
    simp [originWriteEnd]
  rw [closeClient_eq]
  dsimp only
  rw [hl, hasFlag_clientWrite, hasFlag_originWrite]
  rfl

/-- Closing `CLIENT_WRITE` closes everything. -/
theorem closeClient_clientWrite :
    closeClient x clientWriteEnd =
      (closeEnds (otherEnds x.c.activeEnds) (closeEnds clientWriteEnd x), .done) := by
  have hl : clientWriteEnd &&& x.c.activeEnds = clientWriteEnd := by
    rcases he : x.c.activeEnds with ⟨cw, cr, ow, or⟩
    obtain rfl : cw = true := by simpa [he] using hcw
    simp [clientWriteEnd]
  have hl' : (clientReadEnd ||| originEnds) &&& (closeEnds clientWriteEnd x).c.activeEnds =
      otherEnds x.c.activeEnds := by
    rcases he : x.c.activeEnds with ⟨cw, cr, ow, or⟩
    simp [clientReadEnd, originEnds, clientWriteEnd, otherEnds, he]
  have hany : (closeEnds (otherEnds x.c.activeEnds)
      (closeEnds clientWriteEnd x)).c.activeEnds.any = false := by
    rcases he : x.c.activeEnds with ⟨cw, cr, ow, or⟩
    cases cr <;> cases ow <;> cases or <;> simp [SocketEnds.any, clientWriteEnd, otherEnds, he]
  have h1 : clientWriteEnd.clientWrite = true := rfl
  have h2 : ¬ (otherEnds x.c.activeEnds).clientWrite = true := Bool.false_ne_true
  rw [closeClient_eq]
  dsimp only
  rw [hl, hasFlag_clientWrite, if_pos h1, closeClient_eq]
  dsimp only
  rw [hl', hasFlag_clientWrite, if_neg h2, hany, closeClient_empty hany]
  simp only [Bool.not_false, ↓reduceIte, ite_self]

end

/-- The reading end of a client without origin closes: it only drains. -/
theorem hangup_state (hends : x.c.activeEnds = clientEnds) :
    (closeClient x clientReadEnd).2 = .writeRemaining := by
  have hcw : x.c.activeEnds.clientWrite = true := by rw [hends]; rfl
  have hcr : x.c.activeEnds.clientRead = true := by rw [hends]; rfl
  rw [closeClient_clientRead hcw hcr, closeState, if_neg]
  simp [hends, clientEnds, clientReadEnd]

end Socks5d

import Socks5d.Locality

/-! # State, ends and registrations

`Ctl` ties the state of a client's machine to its active ends and to the interests
of its sockets. It is what keeps every event away from the states that have no
handler for it. -/

namespace Socks5d

variable {id : ClientId} {c : Client} {s s' : FdSelector Handler}

/-- Only the client socket exists. -/
structure Alone (id : ClientId) (c : Client) (s : FdSelector Handler)
    (i m : FdInterest) : Prop where
  ends : c.activeEnds = clientEnds
  origin : c.originSock = -1
  only : OnlyAt (.socks5 id) s [c.clientSock]
  held : Held (.socks5 id) s c.clientSock i m

/-- Both sockets are registered. -/
structure Joined (id : ClientId) (c : Client) (s : FdSelector Handler) (ic mc io mo : FdInterest) :
    Prop where
  ne : c.clientSock ≠ c.originSock
  only : OnlyAt (.socks5 id) s [c.clientSock, c.originSock]
  client : Held (.socks5 id) s c.clientSock ic mc
  origin : Held (.socks5 id) s c.originSock io mo

/-- An accepted client whose descriptor is too large is not registered. -/
structure Accepted (id : ClientId) (c : Client) (s : FdSelector Handler) : Prop where
  ends : c.activeEnds = clientEnds
  origin : c.originSock = -1
  only : OnlyAt (.socks5 id) s [c.clientSock]
  held : Held (.socks5 id) s c.clientSock opRead opRead ∨ invalidFd c.clientSock = true

def Connecting (id : ClientId) (c : Client) (s : FdSelector Handler) : Prop :=
  Alone id c s opWrite ⟨true, true⟩ ∨
  (c.activeEnds = clientEnds ∧ Joined id c s opNoop ⟨true, true⟩ opWrite ⟨true, true⟩)

/-- The mask bits the relay needs: a side is read while the buffer it fills has
room, and written while the buffer it drains is not empty or nothing more can
come. -/
def clientMask (c : Client) : FdInterest :=
  ⟨c.activeEnds.clientRead && bufferCanWrite c.originBuf,
    bufferCanRead c.clientBuf || !c.activeEnds.originRead⟩

def originMask (c : Client) : FdInterest :=
  ⟨c.activeEnds.originRead && bufferCanWrite c.clientBuf,
    c.activeEnds.originWrite && (bufferCanRead c.originBuf || !c.activeEnds.clientRead)⟩

structure Relaying (id : ClientId) (c : Client) (s : FdSelector Handler) : Prop where
  clientWrite : c.activeEnds.clientWrite = true
  originWrite : c.activeEnds.clientRead = true → c.activeEnds.originWrite = true
  readable : c.activeEnds.clientRead = true ∨ c.activeEnds.originRead = true
  joined : Joined id c s ⟨c.activeEnds.clientRead, true⟩ (clientMask c)
    ⟨c.activeEnds.originRead, c.activeEnds.originWrite⟩ (originMask c)

/-- Nothing is read any more; `i` and `m` are the interest and the mask of what is
still written. -/
def Draining (id : ClientId) (c : Client) (s : FdSelector Handler)
    (held : ℤ → Prop) : Prop :=
  (c.activeEnds = clientWriteEnd ∧ OnlyAt (.socks5 id) s [c.clientSock] ∧ held c.clientSock) ∨
  (c.activeEnds = clientWriteEnd ||| originWriteEnd ∧ c.clientSock ≠ c.originSock ∧
    OnlyAt (.socks5 id) s [c.clientSock, c.originSock] ∧ held c.clientSock ∧ held c.originSock)

def Ctl (id : ClientId) (c : Client) (s : FdSelector Handler) : Option Socks5State → Prop
  | none => Accepted id c s
  | some .authMethod => Alone id c s opRead opRead
  | some .plainAuth | some .request => Alone id c s ⟨true, true⟩ opRead
  | some .resolving => Alone id c s opWrite opRead
  | some .connecting => Connecting id c s
  | some .proxy => Relaying id c s
  | some .writeRemaining => Draining id c s fun fd => Held (.socks5 id) s fd opWrite opWrite
  | some .done => False

/-- What a handler establishes before the machine jumps to a state. -/
def Ready (id : ClientId) (c : Client) (s : FdSelector Handler) (st : Socks5State) : Prop :=
  match st with
  | .connecting => Alone id c s opWrite opRead
  | .writeRemaining => Draining id c s fun fd => ∃ w m, Held (.socks5 id) s fd ⟨false, w⟩ m
  | .done => OnlyAt (.socks5 id) s []
  | st => Ctl id c s (some st)

/-- While connecting, no end of the origin is active. -/
theorem Connecting.ends (h : Connecting id c s) : c.activeEnds = clientEnds :=
  h.elim Alone.ends And.left

/-! ## The parts of a client that matter -/

/-- The fields that `Ctl` speaks of. -/
structure Client.Same (c c' : Client) : Prop where
  clientSock : c'.clientSock = c.clientSock
  originSock : c'.originSock = c.originSock
  ends : c'.activeEnds = c.activeEnds
  clientBuf : c'.clientBuf = c.clientBuf
  originBuf : c'.originBuf = c.originBuf

theorem Alone.same {c' : Client} {i m : FdInterest} (h : Alone id c s i m) (hs : c.Same c') :
    Alone id c' s i m := by
  refine ⟨hs.ends.trans h.ends, hs.originSock.trans h.origin, ?_, ?_⟩
  · rw [hs.clientSock]
    exact h.only
  · rw [hs.clientSock]
    exact h.held

theorem Joined.same {c' : Client} {ic mc io mo : FdInterest} (h : Joined id c s ic mc io mo)
    (hs : c.Same c') : Joined id c' s ic mc io mo := by
  refine ⟨?_, ?_, ?_, ?_⟩
  · rw [hs.clientSock, hs.originSock]
    exact h.ne
  · rw [hs.clientSock, hs.originSock]
    exact h.only
  · rw [hs.clientSock]
    exact h.client
  · rw [hs.originSock]
    exact h.origin

theorem Draining.same {c' : Client} {held : ℤ → Prop} (h : Draining id c s held) (hs : c.Same c') :
    Draining id c' s held := by
  unfold Draining at h ⊢
  rw [hs.clientSock, hs.originSock, hs.ends]
  exact h

theorem Ctl.same {c' : Client} {st : Option Socks5State} (h : Ctl id c s st) (hs : c.Same c') :
    Ctl id c' s st := by
  match st with
  | none =>
    have ha : Accepted id c s := h
    refine ⟨hs.ends.trans ha.ends, hs.originSock.trans ha.origin, ?_, ?_⟩
    · rw [hs.clientSock]
      exact ha.only
    · rw [hs.clientSock]
      exact ha.held
  | some .authMethod | some .plainAuth | some .request | some .resolving => exact Alone.same h hs
  | some .connecting =>
    exact Or.imp (fun ha => ha.same hs) (fun hj => ⟨hs.ends.trans hj.1, hj.2.same hs⟩) h
  | some .proxy =>
    have hr : Relaying id c s := h
    have hmc : clientMask c' = clientMask c := by
      simp only [clientMask, hs.ends, hs.clientBuf, hs.originBuf]
    have hmo : originMask c' = originMask c := by
      simp only [originMask, hs.ends, hs.clientBuf, hs.originBuf]
    refine ⟨?_, ?_, ?_, ?_⟩
    · rw [hs.ends]
      exact hr.clientWrite
    · rw [hs.ends]
      exact hr.originWrite
    · rw [hs.ends]
      exact hr.readable
    · rw [hs.ends, hmc, hmo]
      exact hr.joined.same hs
  | some .writeRemaining =>
    unfold Ctl at h ⊢
    exact h.same hs
  | some .done => exact h

/-! ## Others cannot disturb it -/

theorem Alone.spares {d : Handler} {i m : FdInterest} (h : Alone id c s i m)
    (hs : Spares d s s') (hne : .socks5 id ≠ d) : Alone id c s' i m :=
  ⟨h.ends, h.origin, h.only.spares hs hne, h.held.spares hs hne⟩

theorem Joined.spares {d : Handler} {ic mc io mo : FdInterest} (h : Joined id c s ic mc io mo)
    (hs : Spares d s s') (hne : .socks5 id ≠ d) :
    Joined id c s' ic mc io mo :=
  ⟨h.ne, h.only.spares hs hne, h.client.spares hs hne, h.origin.spares hs hne⟩

theorem Draining.imp {held held' : ℤ → Prop} (h : Draining id c s held)
    (ho : ∀ fds, OnlyAt (.socks5 id) s fds → OnlyAt (.socks5 id) s' fds)
    (hh : ∀ fd, held fd → held' fd) : Draining id c s' held' := by
  rcases h with ⟨he, hon, hc⟩ | ⟨he, hne, hon, hc, hor⟩
  · exact .inl ⟨he, ho _ hon, hh _ hc⟩
  · exact .inr ⟨he, hne, ho _ hon, hh _ hc, hh _ hor⟩

theorem Ctl.spares {d : Handler} {st : Option Socks5State} (h : Ctl id c s st)
    (hs : Spares d s s') (hne : .socks5 id ≠ d) : Ctl id c s' st := by
  match st with
  | none =>
    exact ⟨Accepted.ends h, Accepted.origin h, (Accepted.only h).spares hs hne,
      (Accepted.held h).imp_left fun hh => hh.spares hs hne⟩
  | some .authMethod | some .plainAuth | some .request | some .resolving =>
    exact Alone.spares h hs hne
  | some .connecting =>
    exact Or.imp (fun ha => Alone.spares ha hs hne) (fun hj => ⟨hj.1, hj.2.spares hs hne⟩) h
  | some .proxy =>
    exact ⟨Relaying.clientWrite h, Relaying.originWrite h, Relaying.readable h,
      (Relaying.joined h).spares hs hne⟩
  | some .writeRemaining =>
    unfold Ctl at h ⊢
    exact h.imp (fun _ ho => ho.spares hs hne) fun _ hh => hh.spares hs hne
  | some .done => exact h

/-! ## Closing -/

section Closing
variable {x : Ctx} {d : Handler} {b : Bool} {fd fd' : ℤ} {i m : FdInterest} {fds : List ℤ}

@[simp] theorem close_selector : (x.close fd).w.selector = x.w.selector := by
  unfold Ctx.close
  split_ifs <;> rfl

theorem OnlyAt.dropInterest (h : OnlyAt d x.w.selector fds) :
    OnlyAt d (dropInterest b fd i x).w.selector fds := by
  cases b with
  | false => exact h
  | true => exact h.updateItem (fun _ => rfl) (fun _ => rfl)

theorem OnlyAt.retire (h : OnlyAt d x.w.selector fds) :
    OnlyAt d (retire b fd x).w.selector (if b then fds.filter (· ≠ fd) else fds) := by
  cases b with
  | false => exact h
  | true =>
    simp only [Socks5d.retire, ↓reduceIte, close_selector]
    exact h.unregister fd

theorem OnlyAt.wake (h : OnlyAt d x.w.selector fds) : OnlyAt d (wake b fd x).w.selector fds := by
  cases b with
  | false => exact h
  | true =>
    refine OnlyAt.updateItem ?_ (fun _ => rfl) (fun _ => rfl)
    exact h.updateItem (fun _ => rfl) (fun _ => rfl)

theorem OnlyAt.enableWrite (h : OnlyAt d x.w.selector fds) :
    OnlyAt d (enableWrite x).w.selector fds := OnlyAt.wake (OnlyAt.wake h)

theorem Held.wake_ne (h : Held d x.w.selector fd' i m) (hne : fd' ≠ fd) :
    Held d (wake b fd x).w.selector fd' i m := by
  cases b with
  | false => exact h
  | true => exact Held.unmask_any (h.updateItem_ne hne fun _ => rfl)

theorem Held.wake (h : Held d x.w.selector fd i m) :
    Held d (wake true fd x).w.selector fd (i ||| opWrite) (m ||| opWrite) :=
  Held.unmask_any h.addInterest

theorem Held.enableWrite_client (h : Held d x.w.selector x.c.clientSock i m)
    (hcw : x.c.activeEnds.clientWrite = true)
    (hne : x.c.activeEnds.originWrite = true → x.c.clientSock ≠ x.c.originSock) :
    Held d (enableWrite x).w.selector x.c.clientSock (i ||| opWrite) (m ||| opWrite) := by
  have h1 : Held d (Socks5d.wake true x.c.clientSock x).w.selector x.c.clientSock (i ||| opWrite)
      (m ||| opWrite) := h.wake
  simp only [enableWrite, hasFlag_clientWrite, hasFlag_originWrite, wake_c, hcw]
  by_cases how : x.c.activeEnds.originWrite = true
  · rw [how]
    exact h1.wake_ne (hne how)
  · rw [Bool.not_eq_true] at how
    rw [how]
    exact h1

theorem Held.enableWrite_origin (h : Held d x.w.selector x.c.originSock i m)
    (hne : x.c.clientSock ≠ x.c.originSock) (how : x.c.activeEnds.originWrite = true) :
    Held d (enableWrite x).w.selector x.c.originSock (i ||| opWrite) (m ||| opWrite) := by
  have h1 : Held d (Socks5d.wake x.c.activeEnds.clientWrite x.c.clientSock x).w.selector
      x.c.originSock i m := h.wake_ne (Ne.symm hne)
  simp only [enableWrite, hasFlag_clientWrite, hasFlag_originWrite, wake_c, how]
  exact h1.wake

theorem Held.enableWrite_idle (h : Held d x.w.selector x.c.originSock i m)
    (hne : x.c.clientSock ≠ x.c.originSock) (how : x.c.activeEnds.originWrite = false) :
    Held d (enableWrite x).w.selector x.c.originSock i m := by
  simp only [enableWrite, hasFlag_clientWrite, hasFlag_originWrite, wake_c, how]
  exact h.wake_ne (Ne.symm hne)

/-- A client in the middle of `closeClient`: what is not known any more is
whether the writing ends are asked for. -/
structure Closing (id : ClientId) (c : Client) (s : FdSelector Handler) : Prop where
  clientWrite : c.activeEnds.clientWrite = true
  client : ∃ w m, Held (.socks5 id) s c.clientSock ⟨c.activeEnds.clientRead, w⟩ m ∧
    ((c.activeEnds.clientRead && bufferCanWrite c.originBuf) = true → m.read = true)
  origin : (c.activeEnds.originWrite || c.activeEnds.originRead) = true →
    c.clientSock ≠ c.originSock ∧ OnlyAt (.socks5 id) s [c.clientSock, c.originSock] ∧
    ∃ w m, Held (.socks5 id) s c.originSock ⟨c.activeEnds.originRead, w⟩ m ∧
      (c.activeEnds.originWrite = false → w = false) ∧
      ((c.activeEnds.originRead && bufferCanWrite c.clientBuf) = true → m.read = true)
  only : (c.activeEnds.originWrite || c.activeEnds.originRead) = false →
    OnlyAt (.socks5 id) s [c.clientSock]

theorem Relaying.closing (h : Relaying id c s) : Closing id c s := by
  refine ⟨h.clientWrite, ⟨true, clientMask c, h.joined.client, fun hm => hm⟩, ?_, ?_⟩
  · intro _
    exact ⟨h.joined.ne, h.joined.only, c.activeEnds.originWrite, originMask c, h.joined.origin,
      fun hw => hw, fun hm => hm⟩
  · intro hno
    rw [Bool.or_eq_false_iff] at hno
    rcases h.readable with hr | hr
    · rw [h.originWrite hr] at hno
      cases hno.1
    · rw [hr] at hno
      cases hno.2

theorem Closing.clientRead (h : Closing x.id x.c x.w.selector) :
    Closing x.id (closeEnds clientReadEnd x).c (closeEnds clientReadEnd x).w.selector := by
  obtain ⟨w, m, hc, -⟩ := h.client
  rw [closeEnds_clientRead h.clientWrite]
  refine ⟨h.clientWrite, ⟨w, m, ?_, by simp [Ctx.setEnds]⟩, ?_, ?_⟩
  · have hrem := hc.removeInterest (a := opRead)
    have hi : (⟨x.c.activeEnds.clientRead, w⟩ &&& ~~~opRead : FdInterest) = ⟨false, w⟩ := by
      cases w <;> simp [HAnd.hAnd, AndOp.and, Complement.complement, opRead]
    rw [hi] at hrem
    exact hrem
  · intro hends
    obtain ⟨hne, ho, w', m', ho', hw', hm'⟩ := h.origin hends
    exact ⟨hne, ho.updateItem (fun _ => rfl) (fun _ => rfl), w', m',
      ho'.updateItem_ne (Ne.symm hne) (fun _ => rfl), hw', hm'⟩
  · intro hends
    exact (h.only hends).updateItem (fun _ => rfl) (fun _ => rfl)

/-- Closing an end of the origin, and its socket if that was the last one. -/
theorem Closing.originEnd (h : Closing x.id x.c x.w.selector)
    (hact : (x.c.activeEnds.originWrite || x.c.activeEnds.originRead) = true) (a : FdInterest)
    (ow or : Bool) (hor : or = true → x.c.activeEnds.originRead = true)
    (hi : ∀ w, (x.c.activeEnds.originWrite = false → w = false) → ∃ w',
      (⟨x.c.activeEnds.originRead, w⟩ &&& ~~~a : FdInterest) = ⟨or, w'⟩ ∧
      (ow = false → w' = false)) :
    let y := retire (!(ow || or)) x.c.originSock
      ((x.sel (selectorRemoveInterest x.w.selector x.c.originSock a)).setEnds
        { x.c.activeEnds with originWrite := ow, originRead := or })
    Closing x.id y.c y.w.selector := by
  obtain ⟨w, m, hc, hm⟩ := h.client
  obtain ⟨hne, hon, w', m', ho, hw', hm'⟩ := h.origin hact
  have hc' : Held (.socks5 x.id) (selectorRemoveInterest x.w.selector x.c.originSock a).1
      x.c.clientSock ⟨x.c.activeEnds.clientRead, w⟩ m := hc.updateItem_ne hne fun _ => rfl
  have hon' : OnlyAt (.socks5 x.id) (selectorRemoveInterest x.w.selector x.c.originSock a).1
      [x.c.clientSock, x.c.originSock] := hon.updateItem (fun _ => rfl) (fun _ => rfl)
  obtain ⟨w'', hi', hw''⟩ := hi w' hw'
  by_cases hb : (ow || or) = true
  · rw [hb]
    refine ⟨h.clientWrite, ⟨w, m, hc', hm⟩, ?_, ?_⟩
    · intro _
      refine ⟨hne, hon', w'', m', hi' ▸ ho.removeInterest, hw'', ?_⟩
      intro hroom
      rw [Bool.and_eq_true] at hroom
      exact hm' (by rw [Bool.and_eq_true]; exact ⟨hor hroom.1, hroom.2⟩)
    · intro hno
      rw [show (ow || or) = false from hno] at hb
      cases hb
  · rw [Bool.not_eq_true] at hb
    rw [hb]
    simp only [retire, Bool.not_false, ↓reduceIte]
    refine ⟨?_, ⟨w, m, ?_, ?_⟩, ?_, ?_⟩
    · rw [close_c]
      exact h.clientWrite
    · rw [close_c, close_selector]
      exact hc'.unregister_ne hne
    · rw [close_c]
      exact hm
    · rw [close_c]
      intro hact'
      rw [show (ow || or) = true from hact'] at hb
      cases hb
    · intro _
      rw [close_c, close_selector]
      refine (hon'.unregister x.c.originSock).subset ?_
      simp [hne, Ctx.setEnds, Ctx.sel]

theorem Closing.originRead (h : Closing x.id x.c x.w.selector)
    (hor : x.c.activeEnds.originRead = true) :
    Closing x.id (closeEnds originReadEnd x).c (closeEnds originReadEnd x).w.selector := by
  have hstep := h.originEnd (by rw [hor, Bool.or_true]) opRead x.c.activeEnds.originWrite false
    (by simp) fun w hw => ⟨w, by
      cases w <;> simp [HAnd.hAnd, AndOp.and, Complement.complement, opRead], hw⟩
  rw [closeEnds_originRead]
  simpa only [Bool.or_false] using hstep

theorem Closing.originWrite (h : Closing x.id x.c x.w.selector)
    (how : x.c.activeEnds.originWrite = true) :
    Closing x.id (closeEnds originWriteEnd x).c (closeEnds originWriteEnd x).w.selector := by
  have hstep := h.originEnd (by rw [how, Bool.true_or]) opWrite false x.c.activeEnds.originRead
    (fun h => h) fun w _ => ⟨false, by
      cases w <;> simp [HAnd.hAnd, AndOp.and, Complement.complement, opWrite], fun _ => rfl⟩
  rw [closeEnds_originWrite]
  simpa only [Bool.false_or] using hstep

/-- How `closeClient` ends, unless everything is closed. -/
theorem Closing.state (h : Closing x.id x.c x.w.selector)
    (how : x.c.activeEnds.clientRead = true → x.c.activeEnds.originWrite = true) :
    let r := closeState x
    (r.2 = stmState x.c ∧ Relaying x.id r.1.c r.1.w.selector) ∨
    (r.2 = .writeRemaining ∧ Ready x.id r.1.c r.1.w.selector .writeRemaining) := by
  intro r
  obtain ⟨w, m, hc, hm⟩ := h.client
  by_cases hread : (x.c.activeEnds.clientRead || x.c.activeEnds.originRead) = true
  · -- some end is still read: both sockets are registered and are asked for again
    have hact : (x.c.activeEnds.originWrite || x.c.activeEnds.originRead) = true := by
      rw [Bool.or_eq_true] at hread ⊢
      exact hread.imp_left how
    obtain ⟨hne, hon, w', m', ho, hw', hm'⟩ := h.origin hact
    have hr : r = (enableWrite x, stmState x.c) := if_pos hread
    refine .inl ⟨by rw [hr], ?_⟩
    rw [hr]
    simp only [enableWrite_c]
    refine ⟨h.clientWrite, how, by simpa [Bool.or_eq_true] using hread, hne,
      hon.enableWrite, ?_, ?_⟩
    · have hcl := hc.enableWrite_client h.clientWrite fun _ => hne
      have hi : (⟨x.c.activeEnds.clientRead, w⟩ ||| opWrite : FdInterest) =
          ⟨x.c.activeEnds.clientRead, true⟩ := by
        simp [HOr.hOr, OrOp.or, opWrite]
      rw [← hi]
      refine hcl.mono ?_
      simpa [clientMask, FdInterest.le_def] using hm
    · by_cases how' : x.c.activeEnds.originWrite = true
      · have hor := ho.enableWrite_origin hne how'
        have hi : (⟨x.c.activeEnds.originRead, w'⟩ ||| opWrite : FdInterest) =
            ⟨x.c.activeEnds.originRead, x.c.activeEnds.originWrite⟩ := by
          simp [HOr.hOr, OrOp.or, opWrite, how']
        rw [← hi]
        refine hor.mono ?_
        simpa [originMask, FdInterest.le_def] using hm'
      · rw [Bool.not_eq_true] at how'
        have hor := ho.enableWrite_idle hne how'
        rw [hw' how'] at hor
        rw [how']
        refine hor.mono ?_
        simpa [originMask, FdInterest.le_def, how'] using hm'
  · rw [Bool.not_eq_true] at hread
    have hr : r = (x, .writeRemaining) := if_neg (by rw [hread]; exact Bool.false_ne_true)
    refine .inr ⟨by rw [hr], ?_⟩
    rw [hr]
    rw [Bool.or_eq_false_iff] at hread
    rcases he : x.c.activeEnds with ⟨cw, cr, ow, or⟩
    have hcw := h.clientWrite
    rw [he] at hread hcw
    obtain ⟨rfl, rfl⟩ := hread
    obtain rfl : cw = true := hcw
    rw [he] at hc
    cases ow with
    | false =>
      exact .inl ⟨he, h.only (by rw [he]; rfl), w, m, hc⟩
    | true =>
      obtain ⟨hne, hon, w', m', ho, -⟩ := h.origin (by rw [he]; rfl)
      rw [he] at ho
      exact .inr ⟨he, hne, hon, ⟨w, m, hc⟩, w', m', ho⟩

theorem OnlyAt.closeEnds {level : SocketEnds} (h : OnlyAt d x.w.selector fds) :
    let ends := x.c.activeEnds &&& ~~~level
    let fds' := if (level.clientWrite || level.clientRead) && !(ends.clientWrite || ends.clientRead)
      then fds.filter (· ≠ x.c.clientSock) else fds
    OnlyAt d (closeEnds level x).w.selector
      (if (level.originWrite || level.originRead) && !(ends.originWrite || ends.originRead)
      then fds'.filter (· ≠ x.c.originSock) else fds') := by
  rw [closeEnds_bits]
  refine OnlyAt.retire (OnlyAt.retire ?_)
  exact OnlyAt.dropInterest (OnlyAt.dropInterest (OnlyAt.dropInterest (OnlyAt.dropInterest h)))

/-- When `CLIENT_WRITE` closes, no registration is left. -/
theorem closeClient_all (hcw : x.c.activeEnds.clientWrite = true)
    (h : OnlyAt d x.w.selector (if x.c.activeEnds.originWrite || x.c.activeEnds.originRead then
      [x.c.clientSock, x.c.originSock] else [x.c.clientSock])) :
    (closeClient x clientWriteEnd).2 = .done ∧
      OnlyAt d (closeClient x clientWriteEnd).1.w.selector [] := by
  rw [closeClient_clientWrite hcw]
  refine ⟨rfl, ?_⟩
  refine (OnlyAt.closeEnds (OnlyAt.closeEnds h)).subset ?_
  rcases he : x.c.activeEnds with ⟨cw, cr, ow, or⟩
  obtain rfl : cw = true := by simpa [he] using hcw
  cases cr <;> cases ow <;> cases or <;> simp [clientWriteEnd, otherEnds, he]

end Closing

end Socks5d

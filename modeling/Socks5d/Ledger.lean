import Socks5d.Story

/-! # Accounts of sockets

The sockets that were opened for a client are those that were closed and those
that are registered for it. -/

namespace Socks5d

variable {x x' : Ctx} {e : Env} {fd fd' : ℤ} {r : Ctx × Socks5State} {o : Outcome} {id : ClientId}
  {w w' w'' : World} {b : Bool} {level : SocketEnds} {i m : FdInterest}

def Obs.opens : Obs → Option SockId
  | .accepted _ k | .opened _ k => some k
  | _ => none

def Obs.closing : Obs → Option (Option SockId)
  | .closed _ _ k => some k
  | _ => none

def opened (h : List Obs) : List SockId := h.filterMap Obs.opens

def closings (h : List Obs) : List (Option SockId) := h.filterMap Obs.closing

section
variable (h h' : List Obs) (id : ClientId) (fd : ℤ) (k : SockId) (k' : Option SockId)

@[simp] theorem opened_append : opened (h ++ h') = opened h ++ opened h' := List.filterMap_append

@[simp] theorem closings_append : closings (h ++ h') = closings h ++ closings h' :=
  List.filterMap_append

@[simp] theorem opened_closed : opened [.closed id fd k'] = [] := rfl

@[simp] theorem closings_closed : closings [.closed id fd k'] = [k'] := rfl

@[simp] theorem opened_opened : opened [.opened id k] = [k] := rfl

@[simp] theorem closings_opened : closings [.opened id k] = [] := rfl

@[simp] theorem opened_accepted : opened [.accepted id k] = [k] := rfl

@[simp] theorem closings_accepted : closings [.accepted id k] = [] := rfl

end

/-- `fd` is registered with client `id` as data. -/
def Registered (id : ClientId) (w : World) (fd : ℤ) : Prop :=
  (item? w.selector fd).map Item.data = some (some (.socks5 id))

theorem Held.registered (h : Held (.socks5 id) w.selector fd i m) : Registered id w fd := by
  obtain ⟨it, hit, hd, -⟩ := h
  rw [Registered, hit, Option.map_some, hd]

theorem Registered.ne_none (h : Registered id w fd) : item? w.selector fd ≠ none := by
  intro hnone
  rw [Registered, hnone] at h
  cases h

structure Ledger (id : ClientId) (w : World) (fds : List ℤ) : Prop where
  nodup : fds.Nodup
  registered : ∀ fd, fd ∈ fds ↔ Registered id w fd
  perm : ((opened (history id w.log)).map some).Perm
    (closings (history id w.log) ++ fds.map w.fdTable)

structure Accounts (id : ClientId) (w : World) : Prop where
  regOpen : RegOpen w
  listener : (item? w.selector 0).map Item.data = some (some .master)
  distinct : (opened w.log).Nodup
  bound : ∀ k ∈ opened w.log, k < w.nextSock
  ledger : ∃ fds, Ledger id w fds

/-! ## Steps without sockets -/

/-- No socket is opened, closed, registered or unregistered. -/
structure Neutral (w w' : World) : Prop where
  data_eq : ∀ fd, (item? w'.selector fd).map Item.data = (item? w.selector fd).map Item.data
  fdTable_eq : w'.fdTable = w.fdTable
  nextSock_eq : w'.nextSock = w.nextSock
  log_eq : ∃ os, (∀ o ∈ os, o.opens = none ∧ o.closing = none) ∧ w'.log = w.log ++ os

theorem Neutral.trans (h : Neutral w w') (h' : Neutral w' w'') : Neutral w w'' := by
  obtain ⟨os, hos, hlog⟩ := h.log_eq
  obtain ⟨os', hos', hlog'⟩ := h'.log_eq
  refine ⟨fun fd => (h'.data_eq fd).trans (h.data_eq fd), h'.fdTable_eq.trans h.fdTable_eq,
    h'.nextSock_eq.trans h.nextSock_eq, os ++ os', ?_, by rw [hlog', hlog, List.append_assoc]⟩
  intro o ho
  exact (List.mem_append.mp ho).elim (hos o) (hos' o)

theorem Neutral.of_eq (hs : w'.selector = w.selector) (ht : w'.fdTable = w.fdTable)
    (hn : w'.nextSock = w.nextSock) (hl : w'.log = w.log) : Neutral w w' :=
  ⟨fun fd => by rw [hs], ht, hn, [], by simp, by rw [hl, List.append_nil]⟩

theorem Neutral.refl (w : World) : Neutral w w := .of_eq rfl rfl rfl rfl

theorem Neutral.of_log {o : Obs} (hs : w'.selector = w.selector) (ht : w'.fdTable = w.fdTable)
    (hn : w'.nextSock = w.nextSock) (hl : w'.log = w.log ++ [o]) (ho : o.opens = none)
    (hc : o.closing = none) : Neutral w w' :=
  ⟨fun fd => by rw [hs], ht, hn, [o], by simp [ho, hc], hl⟩

theorem Neutral.item {f : Item Handler → Item Handler} (hf : ∀ it, (f it).fd = it.fd)
    (hd : ∀ it, (f it).data = it.data) : Neutral x.w (x.sel (updateItem x.w.selector fd f)).w :=
  ⟨fun _ => item?_updateItem_data _ _ _ hf hd, rfl, rfl, [], by simp, by simp [Ctx.sel]⟩

theorem Neutral.setInterest : Neutral x.w (x.sel (selectorSetInterest x.w.selector fd i)).w :=
  .item (fun _ => rfl) (fun _ => rfl)

theorem Neutral.addInterest : Neutral x.w (x.sel (selectorAddInterest x.w.selector fd i)).w :=
  .item (fun _ => rfl) (fun _ => rfl)

theorem Neutral.removeInterest : Neutral x.w (x.sel (selectorRemoveInterest x.w.selector fd i)).w :=
  .item (fun _ => rfl) (fun _ => rfl)

theorem Neutral.maskInterest : Neutral x.w (x.sel (selectorMaskInterest x.w.selector fd i)).w :=
  .item (fun _ => rfl) (fun _ => rfl)

theorem Neutral.unmaskInterest : Neutral x.w (x.sel (selectorUnmaskInterest x.w.selector fd i)).w :=
  .item (fun _ => rfl) (fun _ => rfl)

theorem Neutral.registered (h : Neutral w w') : Registered id w' fd ↔ Registered id w fd := by
  rw [Registered, Registered, h.data_eq]

theorem Neutral.opened_eq (h : Neutral w w') : opened w'.log = opened w.log := by
  obtain ⟨os, hos, hlog⟩ := h.log_eq
  have hnil : os.filterMap Obs.opens = [] := List.filterMap_eq_nil_iff.mpr fun o ho => (hos o ho).1
  rw [hlog, opened_append, opened, opened, hnil, List.append_nil]

theorem Neutral.history_eq (h : Neutral w w') (id : ClientId) :
    opened (history id w'.log) = opened (history id w.log) ∧
      closings (history id w'.log) = closings (history id w.log) := by
  obtain ⟨os, hos, hlog⟩ := h.log_eq
  have hmem : ∀ o ∈ history id os, o.opens = none ∧ o.closing = none := fun o ho =>
    hos o (mem_history.mp ho).1
  have ho : (history id os).filterMap Obs.opens = [] :=
    List.filterMap_eq_nil_iff.mpr fun o ho => (hmem o ho).1
  have hc : (history id os).filterMap Obs.closing = [] :=
    List.filterMap_eq_nil_iff.mpr fun o ho => (hmem o ho).2
  rw [hlog, history_append]
  refine ⟨?_, ?_⟩
  · rw [opened_append, opened, opened, ho, List.append_nil]
  · rw [closings_append, closings, closings, hc, List.append_nil]

theorem Neutral.ledger {fds : List ℤ} (hn : Neutral w w') (h : Ledger id w fds) :
    Ledger id w' fds := by
  obtain ⟨ho, hc⟩ := hn.history_eq id
  refine ⟨h.nodup, fun fd => (h.registered fd).trans hn.registered.symm, ?_⟩
  rw [ho, hc, hn.fdTable_eq]
  exact h.perm

theorem Neutral.accounts (hn : Neutral w w') (h : Accounts id w) : Accounts id w' := by
  obtain ⟨fds, hl⟩ := h.ledger
  refine ⟨?_, (hn.data_eq 0).trans h.listener, ?_, ?_, fds, hn.ledger hl⟩
  · intro fd hit
    rw [hn.fdTable_eq]
    refine h.regOpen fd fun hnone => hit ?_
    have hd := hn.data_eq fd
    rw [hnone, Option.map_none, Option.map_eq_none_iff] at hd
    exact hd
  · rw [hn.opened_eq]
    exact h.distinct
  · rw [hn.opened_eq, hn.nextSock_eq]
    exact h.bound

/-! ## Closing a socket -/

/-- A registered descriptor of a client is not that of the first listening socket. -/
theorem Accounts.pos (h : Accounts id w) (hr : Registered id w fd) : 0 < fd := by
  obtain ⟨it, hit, -⟩ := Option.map_eq_some_iff.mp hr
  have hv := (invalidFd_eq_false.mp (valid_of_item? hit)).1
  have h0 : fd ≠ 0 := by
    rintro rfl
    rw [Registered, h.listener] at hr
    cases hr
  omega

theorem Accounts.retire (b : Bool) (fd : ℤ) (h : Accounts x.id x.w)
    (hr : b = true → Registered x.id x.w fd) :
    Accounts x.id (retire b fd x).w := by
  cases b with
  | false => exact h
  | true =>
    have hreg := hr rfl
    have hpos := h.pos hreg
    obtain ⟨fds, hl⟩ := h.ledger
    have hmem : fd ∈ fds := (hl.registered fd).mpr hreg
    simp only [Socks5d.retire, ↓reduceIte, Ctx.close, hpos]
    refine ⟨?_, ?_, ?_, ?_, fds.erase fd, hl.nodup.erase fd, ?_, ?_⟩
    · intro fd' hit
      simp only [Ctx.sel, item?_unregister] at hit ⊢
      split_ifs at hit with hne
      · exact absurd rfl hit
      · rw [Function.update_of_ne hne]
        exact h.regOpen fd' hit
    · simp only [Ctx.sel, item?_unregister]
      rw [if_neg (by omega)]
      exact h.listener
    · simpa [Ctx.sel] using h.distinct
    · simpa [Ctx.sel] using h.bound
    · intro fd'
      rw [hl.nodup.mem_erase_iff, hl.registered]
      simp only [Registered, Ctx.sel, item?_unregister]
      by_cases hne : fd' = fd
      · simp [hne]
      · simp [hne]
    · have hown : ∀ k, history x.id (x.w.log ++ [.closed x.id fd k]) =
          history x.id x.w.log ++ [.closed x.id fd k] := fun k => Story.history_own rfl
      have hmap : (fds.erase fd).map (Function.update x.w.fdTable fd none) =
          (fds.erase fd).map x.w.fdTable := by
        refine List.map_congr_left fun fd' hfd' => ?_
        rw [Function.update_of_ne]
        exact ((hl.nodup.mem_erase_iff).mp hfd').1
      have hsplit : (fds.map x.w.fdTable).Perm (x.w.fdTable fd :: (fds.erase fd).map x.w.fdTable) :=
        (List.perm_cons_erase hmem).map x.w.fdTable
      simpa [Ctx.sel, hown, hmap] using hl.perm.trans (hsplit.append_left _)

/-- Each side with an active end is registered. -/
structure Backed (x : Ctx) : Prop where
  client : (x.c.activeEnds.clientWrite || x.c.activeEnds.clientRead) = true →
    Registered x.id x.w x.c.clientSock
  origin : (x.c.activeEnds.originWrite || x.c.activeEnds.originRead) = true →
    Registered x.id x.w x.c.originSock ∧ x.c.clientSock ≠ x.c.originSock

theorem retire_id : (retire b fd x).id = x.id := by
  unfold retire Ctx.close
  split_ifs <;> rfl

theorem dropInterest_neutral : Neutral x.w (dropInterest b fd i x).w := by
  unfold dropInterest
  split_ifs
  · exact .removeInterest
  · exact .refl _

theorem dropInterest_id : (dropInterest b fd i x).id = x.id := by
  unfold dropInterest
  split_ifs <;> rfl

theorem wake_neutral : Neutral x.w (wake b fd x).w := by
  unfold wake
  split_ifs
  · exact Neutral.addInterest.trans .unmaskInterest
  · exact .refl _

theorem enableWrite_neutral : Neutral x.w (enableWrite x).w := wake_neutral.trans wake_neutral

/-- Another descriptor keeps its registration. -/
theorem registered_retire (hne : b = true → fd' ≠ fd) :
    Registered id (retire b fd x).w fd' ↔ Registered id x.w fd' := by
  cases b with
  | false => rfl
  | true =>
    simp only [retire, ↓reduceIte, Registered, close_selector, Ctx.sel, item?_unregister]
    rw [if_neg (hne rfl)]

/-- What one activation of `closeClient` closes is registered, and what it leaves
active still is. -/
theorem closeEnds_accounts (h : Accounts x.id x.w) (hb : Backed x)
    (hl : level &&& x.c.activeEnds = level) :
    Accounts x.id (closeEnds level x).w ∧ Backed (closeEnds level x) := by
  rw [closeEnds_bits]
  dsimp only
  generalize hy : (dropInterest level.originRead x.c.originSock opRead
    (dropInterest level.clientWrite x.c.clientSock opWrite
    (dropInterest level.originWrite x.c.originSock opWrite
    (dropInterest level.clientRead x.c.clientSock opRead x)))).setEnds
      (x.c.activeEnds &&& ~~~level) = y
  have hn : Neutral x.w y.w := by
    rw [← hy]
    exact dropInterest_neutral.trans (dropInterest_neutral.trans
      (dropInterest_neutral.trans dropInterest_neutral))
  have hid : y.id = x.id := by
    rw [← hy]
    exact dropInterest_id.trans (dropInterest_id.trans (dropInterest_id.trans dropInterest_id))
  have hc : y.c = { x.c with activeEnds := x.c.activeEnds &&& ~~~level } := by
    rw [← hy]
    simp [Ctx.setEnds]
  have hclient : (x.c.activeEnds.clientWrite || x.c.activeEnds.clientRead) = true →
      Registered y.id y.w x.c.clientSock := by
    intro ha
    rw [hid]
    exact hn.registered.mpr (hb.client ha)
  have horigin : (x.c.activeEnds.originWrite || x.c.activeEnds.originRead) = true →
      Registered y.id y.w x.c.originSock ∧ x.c.clientSock ≠ x.c.originSock := by
    intro ha
    rw [hid]
    exact ⟨hn.registered.mpr (hb.origin ha).1, (hb.origin ha).2⟩
  rcases level with ⟨lcw, lcr, low, lor⟩
  rcases he : x.c.activeEnds with ⟨cw, cr, ow, or⟩
  rw [he] at hl hclient horigin hc
  simp only [SocketEnds.mk_and_mk, SocketEnds.mk.injEq, Bool.and_eq_left_iff_imp] at hl
  obtain ⟨h1, h2, h3, h4⟩ := hl
  simp only [SocketEnds.compl_mk, SocketEnds.mk_and_mk] at hc ⊢
  have hactive : ∀ {l l' a a' z : Bool}, (l = true → a = true) → (l' = true → a' = true) →
      ((l || l') && z) = true → (a || a') = true := by
    intro l l' a a' z ha ha' hbit
    rw [Bool.and_eq_true, Bool.or_eq_true] at hbit
    rw [Bool.or_eq_true]
    exact hbit.1.imp ha ha'
  have hleft : ∀ {l l' a a' : Bool}, (a && !l || a' && !l') = true → (a || a') = true := by
    intro l l' a a' hbit
    rw [Bool.or_eq_true, Bool.and_eq_true, Bool.and_eq_true] at hbit
    rw [Bool.or_eq_true]
    exact hbit.imp And.left And.left
  have hy' : Accounts y.id y.w := hid ▸ hn.accounts h
  generalize hbc : ((lcw || lcr) && !(cw && !lcw || cr && !lcr)) = bc
  generalize hbo : ((low || lor) && !(ow && !low || or && !lor)) = bo
  have hoa : bo = true → (ow || or) = true := fun hbit => hactive h3 h4 (hbo.trans hbit)
  -- the client socket first, then the origin socket
  have hz : Accounts y.id (retire bc x.c.clientSock y).w :=
    hy'.retire _ _ fun hbit => hclient (hactive h1 h2 (hbc.trans hbit))
  have hreg : ∀ {fd}, (bc = true → fd ≠ x.c.clientSock) → Registered y.id y.w fd →
      Registered (retire bc x.c.clientSock y).id (retire bc x.c.clientSock y).w fd := by
    intro fd hne hr
    rw [retire_id]
    exact (registered_retire hne).mpr hr
  have hreg' : ∀ {fd}, (bc = true → fd ≠ x.c.clientSock) → (bo = true → fd ≠ x.c.originSock) →
      Registered y.id y.w fd →
      Registered (retire bo x.c.originSock (retire bc x.c.clientSock y)).id
        (retire bo x.c.originSock (retire bc x.c.clientSock y)).w fd := by
    intro fd hne hne' hr
    rw [retire_id]
    exact (registered_retire hne').mpr (hreg hne hr)
  have hgone : ∀ {a : Bool}, ((low || lor) && !a) = true → a = true → False := by
    intro a h1 h2
    rw [h2] at h1
    simp at h1
  refine ⟨?_, ?_, ?_⟩
  · have hlast : Accounts (retire bc x.c.clientSock y).id _ :=
      Accounts.retire bo x.c.originSock (by rw [retire_id]; exact hz) fun hbit =>
        hreg (fun _ => Ne.symm (horigin (hoa hbit)).2) (horigin (hoa hbit)).1
    rw [retire_id, hid] at hlast
    exact hlast
  · rw [retire_c, retire_c, hc]
    intro hact
    refine hreg' (fun hbit => ?_) (fun hbit => (horigin (hoa hbit)).2) (hclient (hleft hact))
    rw [hact, Bool.not_true, Bool.and_false] at hbc
    exact absurd (hbc.trans hbit) Bool.false_ne_true
  · rw [retire_c, retire_c, hc]
    intro hact
    obtain ⟨hro, hne⟩ := horigin (hleft hact)
    refine ⟨hreg' (fun _ => Ne.symm hne) (fun hbit => ?_) hro, hne⟩
    exact absurd hact fun ha => hgone (hbo.trans hbit) ha

theorem closeClientAux_accounts {n : ℕ} (level : SocketEnds) (h : Accounts x.id x.w)
    (hb : Backed x) :
    Accounts x.id (closeClientAux n level x).1.w := by
  induction n generalizing level x with
  | zero => exact h
  | succ n ih =>
    have hl : (level &&& x.c.activeEnds) &&& x.c.activeEnds = level &&& x.c.activeEnds := by
      rcases x.c.activeEnds with ⟨cw, cr, ow, or⟩
      rcases level with ⟨lcw, lcr, low, lor⟩
      simp
    obtain ⟨h', hb'⟩ := closeEnds_accounts h hb hl
    have hid : (closeEnds (level &&& x.c.activeEnds) x).id = x.id := Closes.closeEnds.id_eq
    have hrec := fun l => ih l (hid ▸ h') hb'
    rw [hid] at hrec
    rw [closeClientAux]
    split_ifs
    · exact hrec _
    · exact hrec _
    · exact h'
    · exact h'
    · exact enableWrite_neutral.accounts h'

/-- Closing accounts for every socket that it closes. -/
theorem closeClient_accounts (h : Accounts x.id x.w) (hb : Backed x) (level : SocketEnds) :
    Accounts x.id (closeClient x level).1.w := closeClientAux_accounts _ h hb

/-! ## Opening a socket -/

theorem Accounts.fresh_pos (h : Accounts id w) {o : Option ℤ} (hfd : freshFd w o = some fd) :
    0 < fd ∧ w.fdTable fd = none := by
  obtain ⟨hle, hnone⟩ := freshFd_some hfd
  refine ⟨?_, hnone⟩
  have h0 : w.fdTable 0 ≠ none := h.regOpen 0 (by
    intro hno
    have hl := h.listener
    rw [hno] at hl
    cases hl)
  have hne : fd ≠ 0 := by
    rintro rfl
    exact h0 hnone
  omega

theorem opened_fresh {l : List Obs} {k : SockId} (hd : (opened l).Nodup)
    (hb : ∀ k' ∈ opened l, k' < k) :
    (opened l ++ [k]).Nodup ∧ ∀ k' ∈ opened l ++ [k], k' < k + 1 := by
  refine ⟨?_, ?_⟩
  · refine List.nodup_append.mpr ⟨hd, List.pairwise_singleton _ k, ?_⟩
    intro a ha c hc hac
    rw [List.mem_singleton] at hc
    exact Nat.ne_of_lt (hb a ha) (hac.trans hc)
  · intro k' hk'
    rcases List.mem_append.mp hk' with hk' | hk'
    · exact Nat.lt_succ_of_lt (hb k' hk')
    · rw [List.mem_singleton] at hk'
      exact hk' ▸ Nat.lt_succ_self k

/-- A socket that is closed at once. -/
theorem Accounts.bounce (h : Accounts x.id x.w) (hpos : 0 < fd) (hfresh : x.w.fdTable fd = none) :
    Accounts x.id ((x.openSock fd).close fd).w := by
  obtain ⟨fds, hl⟩ := h.ledger
  obtain ⟨hd, hb⟩ := opened_fresh h.distinct h.bound
  have hne : ∀ fd', item? x.w.selector fd' ≠ none → fd' ≠ fd := by
    rintro fd' hit rfl
    exact h.regOpen fd' hit hfresh
  have htable : ∀ fd', fd' ≠ fd → Function.update (Function.update x.w.fdTable fd
      (some x.w.nextSock)) fd none fd' = x.w.fdTable fd' := by
    intro fd' hfd'
    rw [Function.update_of_ne hfd', Function.update_of_ne hfd']
  have hopens : opened [.opened x.id x.w.nextSock, .closed x.id fd (some x.w.nextSock)] =
    [x.w.nextSock] := rfl
  have hcloses : closings [.opened x.id x.w.nextSock, .closed x.id fd (some x.w.nextSock)] =
    [some x.w.nextSock] := rfl
  simp only [Ctx.close, hpos, ↓reduceIte, Ctx.openSock, Function.update_self, List.append_assoc,
    List.singleton_append]
  refine ⟨?_, h.listener, ?_, ?_, fds, hl.nodup, hl.registered, ?_⟩
  · intro fd' hit
    dsimp only at hit ⊢
    rw [htable fd' (hne fd' hit)]
    exact h.regOpen fd' hit
  · dsimp only
    rw [opened_append, hopens]
    exact hd
  · dsimp only
    rw [opened_append, hopens]
    exact hb
  · have hmap :
        fds.map (Function.update (Function.update x.w.fdTable fd (some x.w.nextSock)) fd none) =
        fds.map x.w.fdTable := by
      refine List.map_congr_left fun fd' hfd' => htable fd' (hne fd' ?_)
      exact ((hl.registered fd').mp hfd').ne_none
    have hist : history x.id (x.w.log ++ [.opened x.id x.w.nextSock,
        .closed x.id fd (some x.w.nextSock)]) = history x.id x.w.log ++
        [.opened x.id x.w.nextSock, .closed x.id fd (some x.w.nextSock)] := by
      simp [history, Obs.owner]
    dsimp only
    rw [hist, hmap, opened_append, closings_append, hopens, hcloses, List.map_append]
    refine (hl.perm.append_right [some x.w.nextSock]).trans ?_
    rw [List.append_assoc, List.append_assoc]
    exact List.perm_append_comm.append_left _

/-- A socket that is registered. -/
theorem Accounts.join (h : Accounts x.id x.w) (hfresh : x.w.fdTable fd = none)
    (hcap : itemsMaxSize ≤ x.w.selector.fdSize)
    (hreg : (selectorRegister true x.w.selector fd i (.socks5 x.id)).2 = .success) :
    Accounts x.id
      ((x.openSock fd).sel (selectorRegister true x.w.selector fd i (.socks5 x.id))).w := by
  obtain ⟨fds, hl⟩ := h.ledger
  obtain ⟨hd, hb⟩ := opened_fresh h.distinct h.bound
  rcases register_fresh (i := i) (d := .socks5 x.id) hcap h.regOpen hfresh with
    ⟨hno, -⟩ | ⟨-, -, hit⟩
  · exact absurd hreg hno
  have hne : ∀ fd', item? x.w.selector fd' ≠ none → fd' ≠ fd := by
    rintro fd' hit' rfl
    exact h.regOpen fd' hit' hfresh
  have hfd : fd ∉ fds := fun hmem => hne fd ((hl.registered fd).mp hmem).ne_none rfl
  have hopen := h.regOpen.register (i := i) (d := .socks5 x.id) (k := x.w.nextSock) hcap hfresh
  refine ⟨hopen, ?_, ?_, ?_, fd :: fds, List.nodup_cons.mpr ⟨hfd, hl.nodup⟩, ?_, ?_⟩
  · have hl0 : item? x.w.selector 0 ≠ none := by
      intro hno
      have hlist := h.listener
      rw [hno] at hlist
      cases hlist
    simp only [Ctx.sel]
    rw [hit, if_neg (hne 0 hl0)]
    exact h.listener
  · simpa [Ctx.sel, Ctx.openSock] using hd
  · simpa [Ctx.sel, Ctx.openSock] using hb
  · intro fd'
    simp only [Registered, Ctx.sel, List.mem_cons]
    rw [hit]
    by_cases heq : fd' = fd
    · simp [heq, newItem]
    · simp only [heq, ↓reduceIte, false_or]
      exact hl.registered fd'
  · have hmap : fds.map (Function.update x.w.fdTable fd (some x.w.nextSock)) =
        fds.map x.w.fdTable := by
      refine List.map_congr_left fun fd' hfd' => Function.update_of_ne ?_ _ _
      rintro rfl
      exact hfd hfd'
    have hist : history x.id (x.w.log ++ [.opened x.id x.w.nextSock]) =
        history x.id x.w.log ++ [.opened x.id x.w.nextSock] := Story.history_own rfl
    simp only [Ctx.sel, Ctx.openSock, List.map_cons, Function.update_self, hmap, hist,
      opened_append, closings_append, opened_opened, closings_opened, List.append_nil,
      List.map_append, List.map_nil]
    refine (hl.perm.append_right [some x.w.nextSock]).trans ?_
    rw [List.append_assoc]
    exact List.perm_append_comm.append_left _

end Socks5d

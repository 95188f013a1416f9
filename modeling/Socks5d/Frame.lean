import Socks5d.Ownership
import Socks5d.Server

/-! # What a handler leaves alone

A handler runs for one client. It touches no registration of anybody else, logs
only what its own client does, and keeps the selector consistent. -/

namespace Socks5d

def Obs.owner : Obs → ClientId
  | .accepted id _ | .opened id _ | .closed id _ _ | .recvClient id _ | .recvOrigin id _
  | .sentClient id _ | .sentOrigin id _ | .consumed id _ | .replied id _ | .greeting id _ _ _
  | .credentials id _ _ _ | .resolving id | .destroyed id => id

/-- The owner of what a handler itself records; the other events are recorded when
a client is accepted and when its machine arrives in a state. -/
def Obs.inner : Obs → Option ClientId
  | .accepted _ _ | .resolving _ | .destroyed _ => none
  | o => some o.owner

theorem Obs.owner_of_inner {o : Obs} {id : ClientId} (h : o.inner = some id) : o.owner = id := by
  cases o <;> first | exact Option.some.inj h | cases h

/-- What happened to client `id`. -/
def history (id : ClientId) (log : List Obs) : List Obs := log.filter fun o => o.owner = id

@[simp] theorem history_append (id : ClientId) (l l' : List Obs) :
    history id (l ++ l') = history id l ++ history id l' := by
  simp [history]

theorem history_singleton (id : ClientId) (o : Obs) :
    history id [o] = if o.owner = id then [o] else [] := by
  by_cases h : o.owner = id <;> simp [history, h]

theorem mem_history {id : ClientId} {l : List Obs} {o : Obs} :
    o ∈ history id l ↔ o ∈ l ∧ o.owner = id := by
  simp [history]

/-- Whatever is registered is open. -/
def RegOpen (w : World) : Prop := ∀ fd, item? w.selector fd ≠ none → w.fdTable fd ≠ none

structure Local (id : ClientId) (w w' : World) : Prop where
  spares : Spares (.socks5 id) w.selector w'.selector
  inv : SelectorInv w.selector → SelectorInv w'.selector
  cap : w'.selector.fdSize = w.selector.fdSize
  history : ∀ j, j ≠ id → history j w'.log = history j w.log
  users : w'.users = w.users
  buffsize : w'.buffsize = w.buffsize
  jobs : w'.resolutionJobs = w.resolutionJobs
  resolvers : ∀ j, j ≠ id → w'.resolvers.count j = w.resolvers.count j
  regOpen : RegOpen w → RegOpen w'
  /-- What others have registered stays what it is. -/
  table : RegOpen w → ∀ fd it, item? w.selector fd = some it → it.data ≠ some (.socks5 id) →
    w'.fdTable fd = w.fdTable fd

theorem Local.refl (id : ClientId) (w : World) : Local id w w :=
  ⟨.refl, fun h => h, rfl, fun _ _ => rfl, rfl, rfl, rfl, fun _ _ => rfl, fun h => h,
    fun _ _ _ _ _ => rfl⟩

theorem Local.trans {id : ClientId} {w w' w'' : World} (h : Local id w w') (h' : Local id w' w'') :
    Local id w w'' where
  spares := h.spares.trans h'.spares
  inv := h'.inv ∘ h.inv
  cap := h'.cap.trans h.cap
  history j hj := (h'.history j hj).trans (h.history j hj)
  users := h'.users.trans h.users
  buffsize := h'.buffsize.trans h.buffsize
  jobs := h'.jobs.trans h.jobs
  resolvers j hj := (h'.resolvers j hj).trans (h.resolvers j hj)
  regOpen := h'.regOpen ∘ h.regOpen
  table ho fd it hit hd := by
    obtain ⟨it', hit', hd', -⟩ := h.spares.kept fd it hit hd
    exact (h'.table (h.regOpen ho) fd it' hit' (by rw [hd']; exact hd)).trans
      (h.table ho fd it hit hd)

/-- A handler's way from `x` to `x'`: same client, same state of its machine. -/
structure Quiet (x x' : Ctx) : Prop where
  id_eq : x'.id = x.id
  clientSock_eq : x'.c.clientSock = x.c.clientSock
  current_eq : x'.c.current = x.c.current
  logs : ∃ os, (∀ o ∈ os, o.inner = some x.id) ∧ x'.w.log = x.w.log ++ os
  resolvers : x'.w.resolvers = x.w.resolvers
  world : Local x.id x.w x'.w

variable {x x' x'' : Ctx} {fd : ℤ} {e : Env}

theorem Quiet.refl (x : Ctx) : Quiet x x := ⟨rfl, rfl, rfl, ⟨[], by simp⟩, rfl, .refl _ _⟩

theorem Quiet.trans (h : Quiet x x') (h' : Quiet x' x'') : Quiet x x'' where
  id_eq := h'.id_eq.trans h.id_eq
  clientSock_eq := h'.clientSock_eq.trans h.clientSock_eq
  current_eq := h'.current_eq.trans h.current_eq
  logs := by
    obtain ⟨os, hos, hlog⟩ := h.logs
    obtain ⟨os', hos', hlog'⟩ := h'.logs
    rw [h.id_eq] at hos'
    refine ⟨os ++ os', ?_, by rw [hlog', hlog, List.append_assoc]⟩
    intro o ho
    exact (List.mem_append.mp ho).elim (hos o) (hos' o)
  resolvers := h'.resolvers.trans h.resolvers
  world := h.world.trans (h.id_eq ▸ h'.world)

theorem Quiet.client {c : Client} (hs : c.clientSock = x.c.clientSock)
    (hc : c.current = x.c.current) : Quiet x { x with c := c } :=
  ⟨rfl, hs, hc, ⟨[], by simp⟩, rfl, .refl _ _⟩

theorem Local.log {o : Obs} (h : o.owner = x.id) : Local x.id x.w (x.log o).w := by
  refine ⟨.refl, fun h => h, rfl, ?_, rfl, rfl, rfl, fun _ _ => rfl, fun h => h,
    fun _ _ _ _ _ => rfl⟩
  intro j hj
  simp only [Ctx.log, history_append, history_singleton, h, if_neg (Ne.symm hj), List.append_nil]

theorem Quiet.log {o : Obs} (h : o.inner = some x.id) : Quiet x (x.log o) :=
  ⟨rfl, rfl, rfl, ⟨[o], by simpa using h, rfl⟩, rfl, .log (Obs.owner_of_inner h)⟩

theorem Quiet.client_log {c : Client} {o : Obs} (hs : c.clientSock = x.c.clientSock)
    (hc : c.current = x.c.current) (ho : o.inner = some x.id) : Quiet x ({ x with c := c }.log o) :=
  (Quiet.client hs hc).trans (.log ho)

theorem Quiet.item {f : Item Handler → Item Handler}
    (ho : Spares (.socks5 x.id) x.w.selector (updateItem x.w.selector fd f).1)
    (hf : ∀ it, (f it).fd = it.fd) (hd : ∀ it, (f it).data = it.data) :
    Quiet x (x.sel (updateItem x.w.selector fd f)) := by
  refine ⟨rfl, rfl, rfl, ⟨[], by simp [Ctx.sel]⟩, rfl,
    ⟨ho, fun h => h.updateItem hf, updateItem_fdSize, fun _ _ => rfl, rfl,
    rfl, rfl, fun _ _ => rfl, ?_, fun _ _ _ _ _ => rfl⟩⟩
  intro h fd' hit
  refine h fd' ?_
  intro hnone
  have hmap := item?_updateItem_data x.w.selector fd fd' hf hd
  rw [hnone, Option.map_none, Option.map_eq_none_iff] at hmap
  exact hit hmap

/-- The five interest operations on a descriptor of the client. -/
theorem Quiet.own {f : Item Handler → Item Handler} (ho : OwnFd (.socks5 x.id) x.w.selector fd)
    (hf : ∀ it, (f it).fd = it.fd) (hd : ∀ it, (f it).data = it.data) :
    Quiet x (x.sel (updateItem x.w.selector fd f)) :=
  .item (Spares.updateItem ho hf hd) hf hd

theorem Quiet.ownFd (h : Quiet x x') (ho : OwnFd (.socks5 x.id) x.w.selector fd) :
    OwnFd (.socks5 x'.id) x'.w.selector fd := by
  rw [h.id_eq]
  exact ho.spares h.world.spares

theorem Quiet.ownClient (h : Quiet x x') (ho : OwnFd (.socks5 x.id) x.w.selector x.c.clientSock) :
    OwnFd (.socks5 x'.id) x'.w.selector x'.c.clientSock := by
  rw [h.clientSock_eq]
  exact h.ownFd ho

variable {i : FdInterest}

theorem Quiet.unmask : Quiet x (x.sel (selectorUnmaskInterest x.w.selector fd i)) :=
  .item Spares.unmaskInterest (fun _ => rfl) (fun _ => rfl)

section
variable (ho : OwnFd (.socks5 x.id) x.w.selector fd)
include ho

theorem Quiet.setInterest : Quiet x (x.sel (selectorSetInterest x.w.selector fd i)) :=
  .own ho (fun _ => rfl) (fun _ => rfl)

theorem Quiet.addInterest : Quiet x (x.sel (selectorAddInterest x.w.selector fd i)) :=
  .own ho (fun _ => rfl) (fun _ => rfl)

theorem Quiet.removeInterest : Quiet x (x.sel (selectorRemoveInterest x.w.selector fd i)) :=
  .own ho (fun _ => rfl) (fun _ => rfl)

theorem Quiet.maskInterest : Quiet x (x.sel (selectorMaskInterest x.w.selector fd i)) :=
  .own ho (fun _ => rfl) (fun _ => rfl)

theorem Quiet.unregister : Quiet x (x.sel (selectorUnregisterFd x.w.selector fd)) := by
  refine ⟨rfl, rfl, rfl, ⟨[], by simp [Ctx.sel]⟩, rfl,
    ⟨Spares.unregister ho, fun h => h.unregister, unregister_fdSize,
    fun _ _ => rfl, rfl, rfl, rfl, fun _ _ => rfl, ?_, fun _ _ _ _ _ => rfl⟩⟩
  intro h fd' hit
  refine h fd' ?_
  intro hnone
  refine hit ?_
  simp only [Ctx.sel, item?_unregister, hnone, ite_self]

end

/-- Closing a descriptor that has no registration. -/
theorem Quiet.close (hn : RegOpen x.w → item? x.w.selector fd = none) : Quiet x (x.close fd) := by
  unfold Ctx.close
  split_ifs
  swap
  · exact .refl x
  refine ⟨rfl, rfl, rfl, ⟨[_], by simp [Obs.inner, Obs.owner], rfl⟩, rfl,
    ⟨.refl, fun h => h, rfl, ?_, rfl, rfl, rfl, fun _ _ => rfl, ?_, ?_⟩⟩
  · intro j hj
    simp [history_singleton, Obs.owner, Ne.symm hj]
  · intro h fd' hit
    have hne : fd' ≠ fd := by
      rintro rfl
      exact hit (hn h)
    simpa [Function.update_of_ne hne] using h fd' hit
  · intro h fd' it hit _
    have hne : fd' ≠ fd := by
      rintro rfl
      rw [hn h] at hit
      cases hit
    exact Function.update_of_ne hne _ _

theorem Quiet.openSock (hfresh : x.w.fdTable fd = none) : Quiet x (x.openSock fd) := by
  refine ⟨rfl, rfl, rfl, ⟨[_], by simp [Obs.inner, Obs.owner], rfl⟩, rfl,
    ⟨.refl, fun h => h, rfl, ?_, rfl, rfl, rfl, fun _ _ => rfl, ?_, ?_⟩⟩
  · intro j hj
    simp [Ctx.openSock, history_singleton, Obs.owner, Ne.symm hj]
  · intro h fd' hit
    by_cases hfd : fd' = fd
    · subst hfd
      simp [Ctx.openSock]
    · simpa [Ctx.openSock, Function.update_of_ne hfd] using h fd' hit
  · intro h fd' it hit _
    have hne : fd' ≠ fd := by
      rintro rfl
      exact h fd' (by rw [hit]; simp) hfresh
    exact Function.update_of_ne hne _ _

/-- A fresh descriptor that is closed again was not registered in between. -/
theorem Quiet.open_close (hfresh : x.w.fdTable fd = none) :
    Quiet x ((x.openSock fd).close fd) := by
  unfold Ctx.close
  split_ifs
  swap
  · exact .openSock hfresh
  refine ⟨rfl, rfl, rfl, ⟨[.opened x.id x.w.nextSock,
      .closed x.id fd (some x.w.nextSock)], by simp [Obs.inner, Obs.owner], by simp [Ctx.openSock]⟩,
    rfl, ⟨.refl, fun h => h, rfl, ?_, rfl, rfl, rfl, fun _ _ => rfl, ?_, ?_⟩⟩
  · intro j hj
    simp [Ctx.openSock, history, Obs.owner, Ne.symm hj]
  · intro h fd' hit
    have hne : fd' ≠ fd := by
      rintro rfl
      exact h fd' hit hfresh
    simpa [Ctx.openSock, Function.update_of_ne hne] using h fd' hit
  · intro h fd' it hit _
    have hne : fd' ≠ fd := by
      rintro rfl
      exact h fd' (by rw [hit]; simp) hfresh
    simp [Ctx.openSock, Function.update_of_ne hne]

theorem Quiet.register (hcap : itemsMaxSize ≤ x.w.selector.fdSize) (hopen : x.w.fdTable fd ≠ none) :
    Quiet x (x.sel (selectorRegister true x.w.selector fd i (.socks5 x.id))) := by
  have hcases := register_cases fd true i (Handler.socks5 x.id) hcap
  refine ⟨rfl, rfl, rfl, ⟨[], by simp [Ctx.sel]⟩, rfl,
    ⟨Spares.register true hcap, fun h => h.register true i _ hcap, ?_,
    fun _ _ => rfl, rfl, rfl, rfl, fun _ _ => rfl, ?_, fun _ _ _ _ _ => rfl⟩⟩
  · rcases hcases with ⟨-, hs, -⟩ | ⟨-, -, -, hs, -⟩
    · simp [Ctx.sel, hs]
    · exact hs
  · intro h fd' hit
    rcases hcases with ⟨-, hs, -⟩ | ⟨-, -, -, -, hs⟩
    · exact h fd' (by simpa [Ctx.sel, hs] using hit)
    · by_cases hfd : fd' = fd
      · exact hfd ▸ hopen
      · refine h fd' ?_
        simpa [Ctx.sel, hs, hfd] using hit

end Socks5d

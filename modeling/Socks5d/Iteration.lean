import Socks5d.Ownership
import Socks5d.SelectorTables

/-! # One iteration over the ready descriptors

`handle_iteration` walks the table as the handlers leave it, with the sets that
`pselect` has returned before. -/

namespace Socks5d
open EventRun

variable {η : Type}

/-- A registration, told from all others by its number. -/
structure Stamped (η : Type) where
  stamp : ℕ
  handler : η

/-- What handlers act on. -/
structure Machine (η : Type) where
  sel : FdSelector (Stamped η)
  /-- The descriptors that are open. -/
  fdTable : ℤ → Bool
  /-- The number of the next registration. -/
  next : ℕ

/-- What a handler may do. -/
inductive HandlerAct (η : Type)
  /-- `socket` or `accept` returns `fd`. -/
  | socket (fd : ℤ)
  | close (fd : ℤ)
  | call (op : SelectorOp η)

def SelectorOp.stamped (k : ℕ) : SelectorOp η → SelectorOp (Stamped η)
  | .register alloc fd handler interest => .register alloc fd (handler.map (Stamped.mk k)) interest
  | .unregister fd => .unregister fd
  | .setInterest fd i => .setInterest fd i
  | .addInterest fd i => .addInterest fd i
  | .unmaskInterest fd i => .unmaskInterest fd i
  | .removeInterest fd i => .removeInterest fd i
  | .maskInterest fd i => .maskInterest fd i

def perform (m : Machine η) : HandlerAct η → Machine η
  | .socket fd => { m with fdTable := Function.update m.fdTable fd true }
  | .close fd => { m with fdTable := Function.update m.fdTable fd false }
  | .call op => { m with sel := ((op.stamped m.next).call m.sel).1, next := m.next + 1 }

/-- A call of `handle_read` or `handle_write`. -/
structure Call (η : Type) where
  index : ℕ
  write : Bool
  /-- The registration whose handler is called. -/
  callee : Stamped η
  /-- `key.fd` and `key.data`. -/
  key : ℤ × Option (Stamped η)
  /-- The machine as the handler finds it. -/
  before : Machine η

/-- The state of the loop; `aborted` after one of its assertions has failed. -/
structure Loop (η : Type) where
  m : Machine η
  calls : List (Call η)
  aborted : Bool

/-- `OP_WRITE` or `OP_READ`. -/
def FdInterest.bit (i : FdInterest) (write : Bool) : Bool := if write then i.write else i.read

section
variable (callbacks : η → FdInterest) (script : ℕ → List (HandlerAct η)) (slaveR slaveW : FdSet)

/-- The handler of entry `i` is called and does what `script` has for it; without a callback
the assertion fails. -/
def invoke (write : Bool) (i : ℕ) (key : ℤ × Option (Stamped η)) (l : Loop η) : Loop η :=
  match (l.m.sel.fds i).data with
  | none => { l with aborted := true }
  | some d =>
    if (callbacks d.handler).bit write then
      { l with
        m := exec perform l.m (script l.calls.length)
        calls := l.calls ++ [⟨i, write, d, key, l.m⟩] }
    else { l with aborted := true }

def readReady (i : ℕ) (l : Loop η) : Loop η :=
  let item := l.m.sel.fds i
  if slaveR item.fd.toNat && item.interest.read then
    invoke callbacks script false i (item.fd, item.data) l
  else l

/-- The interest is that of the entry as it is now, but `key` is from before. -/
def writeReady (i : ℕ) (key : ℤ × Option (Stamped η)) (l : Loop η) : Loop η :=
  let item := l.m.sel.fds i
  if !l.aborted && slaveW i && item.interest.write then invoke callbacks script true i key l else l

def visit (l : Loop η) (i : ℕ) : Loop η :=
  let item := l.m.sel.fds i
  if l.aborted || !itemUsed item then l
  else writeReady callbacks script slaveW i (item.fd, item.data)
    (readReady callbacks script slaveR i l)

def handleIteration (m : Machine η) : Loop η :=
  exec (visit callbacks script slaveR slaveW) ⟨m, [], false⟩ (List.range (m.sel.maxFd + 1).toNat)

end

/-! ## What handlers leave in place -/

/-- Whatever is registered where `pending` holds was registered before. -/
def Unreplaced (pending : ℤ → Bool) (s s' : FdSelector (Stamped η)) : Prop :=
  ∀ fd it', pending fd = true → item? s' fd = some it' →
    ∃ it, item? s fd = some it ∧ it.data = it'.data

/-- The action does not register a descriptor where `pending` holds. -/
def HandlerAct.Avoids (pending : ℤ → Bool) (m : Machine η) : HandlerAct η → Prop
  | .call (.register alloc fd handler interest) =>
    (((SelectorOp.register alloc fd handler interest).stamped m.next).call m.sel).2 = .success →
      pending fd = false
  | _ => True

variable {pending : ℤ → Bool} {s s' s'' : FdSelector (Stamped η)} {m m' : Machine η}
    {a : HandlerAct η}

theorem Unreplaced.refl : Unreplaced pending s s := fun _ it' _ hit => ⟨it', hit, rfl⟩

theorem Unreplaced.trans (h : Unreplaced pending s s') (h' : Unreplaced pending s' s'') :
    Unreplaced pending s s'' := by
  intro fd it'' hp hit
  obtain ⟨it', hit', hd'⟩ := h' fd it'' hp hit
  obtain ⟨it, hit, hd⟩ := h fd it' hp hit'
  exact ⟨it, hit, hd.trans hd'⟩

/-- An entry after an operation was there before, or the operation has registered it. -/
theorem call_entry {δ : Type} {t : FdSelector δ} {op : SelectorOp δ} {fd : ℤ} {it : Item δ}
    (h : Tables t) (hit : item? (op.call t).1 fd = some it) :
    (∃ it₀, item? t fd = some it₀ ∧ it₀.data = it.data) ∨
      ∃ alloc d interest, op = .register alloc fd (some d) interest ∧ (op.call t).2 = .success ∧
        it.data = some d := by
  have hupd : ∀ {fd₀ : ℤ} {f : Item δ → Item δ}, item? (updateItem t fd₀ f).1 fd = some it →
      (∀ it, (f it).fd = it.fd) → (∀ it, (f it).data = it.data) →
        ∃ it₀, item? t fd = some it₀ ∧ it₀.data = it.data := by
    intro fd₀ f hit hf hd
    have hdata := item?_updateItem_data t fd₀ fd hf hd
    rw [hit, Option.map_some, eq_comm, Option.map_eq_some_iff] at hdata
    exact hdata
  cases op with
  | register alloc fd₀ handler interest =>
    cases handler with
    | none => exact .inl ⟨it, hit, rfl⟩
    | some d =>
      change item? (selectorRegister alloc t fd₀ interest d).1 fd = some it at hit
      rcases register_cases fd₀ alloc interest d h.cap with ⟨-, hs, -⟩ | ⟨hok, -, -, -, hnew⟩
      · rw [hs] at hit
        exact .inl ⟨it, hit, rfl⟩
      · rw [hnew] at hit
        -- the entry that was made, or another one
        by_cases heq : fd = fd₀
        · rw [if_pos heq, Option.some.injEq] at hit
          subst heq
          exact .inr ⟨alloc, d, interest, rfl, hok, by rw [← hit]; rfl⟩
        · rw [if_neg heq] at hit
          exact .inl ⟨it, hit, rfl⟩
  | unregister fd₀ =>
    change item? (selectorUnregisterFd t fd₀).1 fd = some it at hit
    rw [item?_unregister] at hit
    split_ifs at hit
    exact .inl ⟨it, hit, rfl⟩
  | setInterest | addInterest | unmaskInterest | removeInterest | maskInterest =>
    exact .inl (hupd hit (fun _ => rfl) fun _ => rfl)

/-- The tables agree, and every registration has a number that was given out. -/
structure Numbered (m : Machine η) : Prop where
  tables : Tables m.sel
  given : ∀ fd it, item? m.sel fd = some it → ∃ d, it.data = some d ∧ d.stamp < m.next

theorem stamped_register {op : SelectorOp η} {k : ℕ} {alloc : Bool} {fd : ℤ} {d : Stamped η}
    {i : FdInterest}
    (h : op.stamped k = .register alloc fd (some d) i) :
    d.stamp = k ∧ ∃ handler, op = .register alloc fd handler i := by
  cases op with
  | register alloc' fd' handler i' =>
    simp only [SelectorOp.stamped, SelectorOp.register.injEq, Option.map_eq_some_iff] at h
    obtain ⟨rfl, rfl, ⟨η, rfl, rfl⟩, rfl⟩ := h
    exact ⟨rfl, _, rfl⟩
  | unregister | setInterest | addInterest | unmaskInterest | removeInterest | maskInterest =>
    cases h

theorem Numbered.perform (h : Numbered m) (a : HandlerAct η) : Numbered (perform m a) := by
  cases a with
  | socket fd => exact ⟨h.tables, h.given⟩
  | close fd => exact ⟨h.tables, h.given⟩
  | call op =>
    refine ⟨h.tables.call _, fun fd it hit => ?_⟩
    change ∃ d, it.data = some d ∧ d.stamp < m.next + 1
    rcases call_entry h.tables hit with ⟨it₀, hit₀, hd₀⟩ | ⟨alloc, d, interest, hop, -, hd⟩
    · obtain ⟨d, hd, hlt⟩ := h.given fd it₀ hit₀
      exact ⟨d, hd₀.symm.trans hd, by omega⟩
    · have hk := (stamped_register hop).1
      exact ⟨d, hd, by omega⟩

theorem Numbered.exec (h : Numbered m) (script : List (HandlerAct η)) :
    Numbered (exec Socks5d.perform m script) :=
  exec_invariant h fun _ a h => h.perform a

theorem Unreplaced.perform (h : Numbered m) (ha : a.Avoids pending m) :
    Unreplaced pending m.sel (perform m a).sel := by
  cases a with
  | socket fd => exact .refl
  | close fd => exact .refl
  | call op =>
    intro fd it' hp hit
    rcases call_entry h.tables hit with hold | ⟨alloc, d, interest, hop, hok, -⟩
    · exact hold
    · obtain ⟨-, handler, rfl⟩ := stamped_register hop
      rw [ha hok] at hp
      cases hp

/-- Nor does a whole handler replace a registration, if none of its actions does. -/
theorem Unreplaced.exec {script : List (HandlerAct η)} (h : Numbered m)
    (ha : Along Socks5d.perform (HandlerAct.Avoids pending) m script) :
    Unreplaced pending m.sel (exec Socks5d.perform m script).sel := by
  induction script generalizing m with
  | nil => exact .refl
  | cons a script ih => exact (Unreplaced.perform h ha.1).trans (ih (h.perform a) ha.2)

/-! ## The loop -/

/-- The registration was there when `pselect` was called with the sets of `m`, which asked for
the event, and `pselect` has reported it. -/
structure Genuine (m : Machine η) (slaveR slaveW : FdSet) (call : Call η) : Prop where
  callee : ∃ it, item? m.sel call.index = some it ∧ it.data = some call.callee ∧
    call.callee.stamp < m.next
  key : call.key = ((call.index : ℤ), some call.callee)
  asked : (if call.write then m.sel.masterW else m.sel.masterR) call.index = true
  reported : (if call.write then slaveW else slaveR) call.index = true

/-- There is a reported bit at `fd` that the loop has not looked at when it calls the handler
of entry `i`. -/
def unseen (slaveR slaveW : FdSet) (i : ℕ) (write : Bool) (fd : ℤ) : Bool :=
  (decide ((i : ℤ) < fd) && (slaveR fd.toNat || slaveW fd.toNat)) ||
    (!write && decide (fd = i) && slaveW fd.toNat)

/-- Every handler that was called keeps off the descriptors with such bits. -/
def Careful (script : ℕ → List (HandlerAct η)) (slaveR slaveW : FdSet)
    (calls : List (Call η)) : Prop :=
  ∀ k call, calls[k]? = some call →
    Along perform (HandlerAct.Avoids (unseen slaveR slaveW call.index call.write))
      call.before (script k)

section
variable {callbacks : η → FdInterest} {script : ℕ → List (HandlerAct η)} {slaveR slaveW : FdSet}
    {l l' : Loop η}
  {i : ℕ} {write : Bool} {key : ℤ × Option (Stamped η)} {call : Call η} {calls more : List (Call η)}

theorem Unreplaced.mono {pending' : ℤ → Bool} (h : Unreplaced pending s s')
    (hp : ∀ fd, pending' fd = true → pending fd = true) : Unreplaced pending' s s' :=
  fun fd it' hfd hit => h fd it' (hp fd hfd) hit

theorem Careful.init (h : Careful script slaveR slaveW (calls ++ more)) :
    Careful script slaveR slaveW calls := by
  intro k call hk
  apply h k call
  rw [List.getElem?_append_left (List.getElem?_eq_some_iff.mp hk).1]
  exact hk

theorem Careful.last (h : Careful script slaveR slaveW (calls ++ [call])) :
    Along perform (HandlerAct.Avoids (unseen slaveR slaveW call.index call.write)) call.before
      (script calls.length) := by
  apply h calls.length call
  rw [List.getElem?_append_right (Nat.le_refl _), Nat.sub_self]
  rfl

/-- There is a reported bit at `fd`, and the loop has not come to it at index `i`. -/
def ahead (slaveR slaveW : FdSet) (i : ℕ) (fd : ℤ) : Bool :=
  decide ((i : ℤ) ≤ fd) && (slaveR fd.toNat || slaveW fd.toNat)

theorem ahead_of_unseen {fd : ℤ} (write : Bool) (h : unseen slaveR slaveW i write fd = true) :
    ahead slaveR slaveW i fd = true := by
  simp only [unseen, ahead, Bool.or_eq_true, Bool.and_eq_true, decide_eq_true_eq] at h ⊢
  rcases h with ⟨hlt, hbit⟩ | ⟨⟨-, heq⟩, hw⟩
  · exact ⟨by omega, hbit⟩
  · exact ⟨by omega, .inr hw⟩

theorem unseen_of_ahead {fd : ℤ} (h : ahead slaveR slaveW (i + 1) fd = true) :
    unseen slaveR slaveW i write fd = true := by
  simp only [unseen, ahead, Bool.or_eq_true, Bool.and_eq_true, decide_eq_true_eq] at h ⊢
  exact .inl ⟨by omega, h.2⟩

/-- Between the read and the write of an entry. -/
theorem unseen_read {fd : ℤ} (h : unseen slaveR slaveW i true fd = true) :
    unseen slaveR slaveW i false fd = true := by
  simp only [unseen, Bool.or_eq_true, Bool.and_eq_true, decide_eq_true_eq, Bool.not_true,
    Bool.false_eq_true, false_and, or_false] at h ⊢
  exact .inl h

/-- The state of the loop, with what was not replaced since `m`. -/
structure Walking (m : Machine η) (slaveR slaveW : FdSet) (pending : ℤ → Bool)
    (l : Loop η) : Prop where
  numbered : Numbered l.m
  old : Unreplaced pending m.sel l.m.sel
  genuine : ∀ call ∈ l.calls, Genuine m slaveR slaveW call

theorem Walking.mono {pending' : ℤ → Bool} (h : Walking m slaveR slaveW pending l)
    (hp : ∀ fd, pending' fd = true → pending fd = true) : Walking m slaveR slaveW pending' l :=
  ⟨h.numbered, h.old.mono hp, h.genuine⟩

theorem invoke_cases (callbacks : η → FdInterest) (script : ℕ → List (HandlerAct η))
    (write : Bool) (i : ℕ) (key : ℤ × Option (Stamped η)) (l : Loop η) :
    invoke callbacks script write i key l = { l with aborted := true } ∨
      ∃ d, (l.m.sel.fds i).data = some d ∧ invoke callbacks script write i key l =
        { l with
          m := exec perform l.m (script l.calls.length)
          calls := l.calls ++ [⟨i, write, d, key, l.m⟩] } := by
  unfold invoke
  split
  · exact .inl rfl
  · rename_i d hd
    split
    · exact .inr ⟨d, hd, rfl⟩
    · exact .inl rfl

/-! Calls are only added. -/

theorem invoke_calls (callbacks : η → FdInterest) (script : ℕ → List (HandlerAct η))
    (write : Bool) (i : ℕ) (key : ℤ × Option (Stamped η)) (l : Loop η) :
    ∃ more, (invoke callbacks script write i key l).calls = l.calls ++ more := by
  rcases invoke_cases callbacks script write i key l with heq | ⟨d, -, heq⟩
  · exact ⟨[], by rw [heq, List.append_nil]⟩
  · exact ⟨_, by rw [heq]⟩

theorem writeReady_calls (callbacks : η → FdInterest) (script : ℕ → List (HandlerAct η))
    (slaveW : FdSet) (i : ℕ) (key : ℤ × Option (Stamped η)) (l : Loop η) :
    ∃ more, (writeReady callbacks script slaveW i key l).calls = l.calls ++ more := by
  unfold writeReady
  dsimp only
  split_ifs
  · exact invoke_calls ..
  · exact ⟨[], (List.append_nil _).symm⟩

theorem visit_calls (callbacks : η → FdInterest) (script : ℕ → List (HandlerAct η))
    (slaveR slaveW : FdSet) (l : Loop η) (i : ℕ) :
    ∃ more, (visit callbacks script slaveR slaveW l i).calls = l.calls ++ more := by
  unfold visit
  dsimp only
  split_ifs
  · exact ⟨[], (List.append_nil _).symm⟩
  · obtain ⟨more, hmore⟩ := writeReady_calls callbacks script slaveW i
      ((l.m.sel.fds i).fd, (l.m.sel.fds i).data) (readReady callbacks script slaveR i l)
    obtain ⟨more', hmore'⟩ :
        ∃ more', (readReady callbacks script slaveR i l).calls = l.calls ++ more' := by
      unfold readReady
      dsimp only
      split_ifs
      · exact invoke_calls ..
      · exact ⟨[], (List.append_nil _).symm⟩
    exact ⟨more' ++ more, by rw [hmore, hmore', List.append_assoc]⟩

/-- A handler is called that keeps off what is unseen. -/
theorem Walking.invoke (h : Walking m slaveR slaveW (unseen slaveR slaveW i write) l)
    (hg : ∀ d, (l.m.sel.fds i).data = some d → Genuine m slaveR slaveW ⟨i, write, d, key, l.m⟩)
    (hc : Careful script slaveR slaveW (Socks5d.invoke callbacks script write i key l).calls) :
    Walking m slaveR slaveW (unseen slaveR slaveW i write)
      (Socks5d.invoke callbacks script write i key l) := by
  rcases invoke_cases callbacks script write i key l with heq | ⟨d, hd, heq⟩
  · rw [heq]
    exact ⟨h.numbered, h.old, h.genuine⟩
  · rw [heq] at hc ⊢
    refine ⟨h.numbered.exec _, h.old.trans (.exec h.numbered hc.last), fun call hmem => ?_⟩
    rcases List.mem_append.mp hmem with hmem | hmem
    · exact h.genuine call hmem
    · rw [List.mem_singleton.mp hmem]
      exact hg d hd

/-- Whoever is registered at a descriptor with a reported bit, and was not replaced, is whom
`pselect` was asked for. -/
theorem Genuine.of_old (hm : Numbered m) {it it₀ : Item (Stamped η)} {d : Stamped η}
    (hit : item? m.sel i = some it₀) (hdata : it₀.data = it.data) (hd : it.data = some d)
    (hkey : key = ((i : ℤ), some d)) (hbit : (if write then slaveW else slaveR) i = true)
    (hR : ∀ j, slaveR j = true → m.sel.masterR j = true)
    (hW : ∀ j, slaveW j = true → m.sel.masterW j = true) :
    Genuine m slaveR slaveW ⟨i, write, d, key, l.m⟩ := by
  obtain ⟨d', hd', hlt⟩ := hm.given i it₀ hit
  have hsame : d' = d := by
    rw [hdata, hd, Option.some.injEq] at hd'
    exact hd'.symm
  refine ⟨⟨it₀, hit, hdata.trans hd, hsame ▸ hlt⟩, hkey, ?_, hbit⟩
  cases write with
  | false => exact hR i hbit
  | true => exact hW i hbit

section
variable (hm : Numbered m) (hR : ∀ j, slaveR j = true → m.sel.masterR j = true)
  (hW : ∀ j, slaveW j = true → m.sel.masterW j = true)
include hm hR hW

theorem Walking.readReady (h : Walking m slaveR slaveW (ahead slaveR slaveW i) l)
    (hu : itemUsed (l.m.sel.fds i) = true)
    (hc : Careful script slaveR slaveW (readReady callbacks script slaveR i l).calls) :
    Walking m slaveR slaveW (unseen slaveR slaveW i false)
      (readReady callbacks script slaveR i l) := by
  have hseen := h.mono fun fd hfd => ahead_of_unseen false hfd
  obtain ⟨hit, hfd⟩ := h.numbered.tables.inv.item?_of_used hu
  rw [hfd] at hit
  unfold Socks5d.readReady at hc ⊢
  dsimp only at hc ⊢
  rw [hfd, Int.toNat_natCast] at hc ⊢
  split_ifs at hc ⊢ with hbit
  · rw [Bool.and_eq_true] at hbit
    refine hseen.invoke (fun d hd => ?_) hc
    -- no callback before this one has replaced the registration
    have hahead : ahead slaveR slaveW i i = true := by simp [ahead, hbit.1]
    obtain ⟨it₀, hit₀, hdata⟩ := h.old i _ hahead hit
    exact Genuine.of_old hm hit₀ hdata hd (by rw [hd]) hbit.1 hR hW
  · exact hseen

theorem Walking.writeReady (h : Walking m slaveR slaveW (unseen slaveR slaveW i false) l)
    (hkey : slaveW i = true → ∃ it₀, item? m.sel i = some it₀ ∧ key = ((i : ℤ), it₀.data))
    (hc : Careful script slaveR slaveW (writeReady callbacks script slaveW i key l).calls) :
    Walking m slaveR slaveW (ahead slaveR slaveW (i + 1))
      (writeReady callbacks script slaveW i key l) := by
  have hseen := h.mono fun fd hfd => unseen_read hfd
  have hnext : ∀ {l'}, Walking m slaveR slaveW (unseen slaveR slaveW i true) l' →
      Walking m slaveR slaveW (ahead slaveR slaveW (i + 1)) l' :=
        fun h => h.mono fun fd hfd => unseen_of_ahead hfd
  unfold Socks5d.writeReady at hc ⊢
  dsimp only at hc ⊢
  split_ifs at hc ⊢ with hbit
  · simp only [Bool.and_eq_true] at hbit
    obtain ⟨⟨-, hw⟩, hint⟩ := hbit
    -- an entry with an interest is in use
    have hu : itemUsed (l.m.sel.fds i) = true := by
      by_contra hno
      rw [h.numbered.tables.inv.idle i (by simpa using hno)] at hint
      cases hint
    obtain ⟨hit, hfd⟩ := h.numbered.tables.inv.item?_of_used hu
    rw [hfd] at hit
    have hun : unseen slaveR slaveW i false i = true := by simp [unseen, hw]
    obtain ⟨it₀, hit₀, hdata⟩ := h.old i _ hun hit
    obtain ⟨it₁, hit₁, hk⟩ := hkey hw
    rw [hit₀, Option.some.injEq] at hit₁
    refine hnext (hseen.invoke (fun d hd => ?_) hc)
    refine Genuine.of_old hm hit₀ hdata hd ?_ hw hR hW
    rw [hk, ← hit₁, hdata, hd]
  · exact hnext hseen

/-- One turn of the loop. -/
theorem Walking.visit (h : Walking m slaveR slaveW (ahead slaveR slaveW i) l)
    (hc : Careful script slaveR slaveW (visit callbacks script slaveR slaveW l i).calls) :
    Walking m slaveR slaveW (ahead slaveR slaveW (i + 1))
      (visit callbacks script slaveR slaveW l i) := by
  unfold Socks5d.visit at hc ⊢
  dsimp only at hc ⊢
  by_cases hstop : (l.aborted || !itemUsed (l.m.sel.fds i)) = true
  · rw [if_pos hstop]
    exact h.mono fun fd hfd => ahead_of_unseen true (unseen_of_ahead hfd)
  rw [if_neg hstop] at hc ⊢
  have hu : itemUsed (l.m.sel.fds i) = true := by
    simp only [Bool.or_eq_true, Bool.not_eq_true', not_or, Bool.not_eq_false] at hstop
    exact hstop.2
  obtain ⟨hit, hfd⟩ := h.numbered.tables.inv.item?_of_used hu
  rw [hfd] at hit
  have hread :
      Careful script slaveR slaveW (Socks5d.readReady callbacks script slaveR i l).calls := by
    obtain ⟨more, hmore⟩ := writeReady_calls callbacks script slaveW i
      ((l.m.sel.fds i).fd, (l.m.sel.fds i).data) (Socks5d.readReady callbacks script slaveR i l)
    rw [hmore] at hc
    exact hc.init
  refine (h.readReady hm hR hW hu hread).writeReady hm hR hW (fun hw => ?_) hc
  obtain ⟨it₀, hit₀, hdata⟩ := h.old i _ (by simp [ahead, hw]) hit
  exact ⟨it₀, hit₀, by rw [hfd, hdata]⟩

theorem Walking.run (n : ℕ)
    (hc : Careful script slaveR slaveW
      (exec (Socks5d.visit callbacks script slaveR slaveW) ⟨m, [], false⟩ (List.range n)).calls) :
    Walking m slaveR slaveW (ahead slaveR slaveW n)
      (exec (Socks5d.visit callbacks script slaveR slaveW) ⟨m, [], false⟩ (List.range n)) := by
  induction n with
  | zero => exact ⟨hm, .refl, fun call hmem => absurd hmem List.not_mem_nil⟩
  | succ n ih =>
    rw [List.range_succ, exec_append] at hc ⊢
    refine Walking.visit hm hR hW (ih ?_) hc
    obtain ⟨more, hmore⟩ := visit_calls callbacks script slaveR slaveW
      (exec (Socks5d.visit callbacks script slaveR slaveW) ⟨m, [], false⟩ (List.range n)) n
    rw [exec_cons, exec_nil, hmore] at hc
    exact hc.init

end

end

theorem numbered_new {alloc : Bool} {sel : FdSelector (Stamped η)}
    (h : selectorNew alloc 1024 = some sel)
    (table : ℤ → Bool) : Numbered (Machine.mk sel table 0) := by
  have htables := selectorNew_tables h
  refine ⟨htables, fun fd it hit => ?_⟩
  -- nothing is in use in a new selector
  have hunused : ∀ i, itemUsed (sel.fds i) = false := by
    intro i
    rw [(selectorNew_eq h).2]
    rfl
  unfold item? at hit
  rw [hunused] at hit
  split_ifs at hit with _ hf
  cases hf

/-- For every selector and all sets of ready descriptors, if no handler registers a descriptor
that has a reported bit the loop has still to look at, then each call goes to the registration
that `pselect` has reported. -/
theorem readiness_reaches_its_registration {alloc : Bool} {sel : FdSelector (Stamped η)}
    (hnew : selectorNew alloc 1024 = some sel) (table : ℤ → Bool) (past : List (HandlerAct η))
    (callbacks : η → FdInterest) (script : ℕ → List (HandlerAct η)) (slaveR slaveW : FdSet)
    (hR : ∀ j, slaveR j = true → (exec perform ⟨sel, table, 0⟩ past).sel.masterR j = true)
    (hW : ∀ j, slaveW j = true → (exec perform ⟨sel, table, 0⟩ past).sel.masterW j = true)
    (hc : Careful script slaveR slaveW
      (handleIteration callbacks script slaveR slaveW (exec perform ⟨sel, table, 0⟩ past)).calls) :
    ∀ call ∈
      (handleIteration callbacks script slaveR slaveW (exec perform ⟨sel, table, 0⟩ past)).calls,
      Genuine (exec perform ⟨sel, table, 0⟩ past) slaveR slaveW call :=
  (Walking.run ((numbered_new hnew table).exec past) hR hW _ hc).genuine

/-! ## A descriptor that is used again

`pselect` reports the sessions 3, 4 and 5 to read and 6, the origin of 3, to write. The handler
of 3 closes both ends of its session; those of 4 and 5 open sockets to their own origins, which
get the numbers 3 and 6: the loop then takes the old bit of 6 for news about the new socket. -/

/-- Sockets get the lowest number that is free. -/
def HandlerAct.LowestFirst (m : Machine η) : HandlerAct η → Prop
  | .socket fd => 0 ≤ fd ∧ m.fdTable fd = false ∧ ∀ j < fd.toNat, m.fdTable j = true
  | _ => True

instance (m : Machine η) (a : HandlerAct η) : Decidable (a.LowestFirst m) :=
  match a with
  | .socket fd =>
    inferInstanceAs (Decidable (0 ≤ fd ∧ m.fdTable fd = false ∧ ∀ j < fd.toNat, m.fdTable j = true))
  | .close _ => isTrue trivial
  | .call _ => isTrue trivial

instance (pending : ℤ → Bool) (m : Machine η) (a : HandlerAct η) : Decidable (a.Avoids pending m) :=
  match a with
  | .call (.register alloc fd handler interest) =>
    inferInstanceAs (Decidable
      ((((SelectorOp.register alloc fd handler interest).stamped m.next).call m.sel).2 = .success →
        pending fd = false))
  | .call (.unregister _) | .call (.setInterest _ _) | .call (.addInterest _ _) |
      .call (.unmaskInterest _ _)
  | .call (.removeInterest _ _) | .call (.maskInterest _ _) | .socket _ | .close _ => isTrue trivial

/-- The standard streams. -/
def openAtStart (fd : ℤ) : Bool := 0 ≤ fd && fd ≤ 2

def openAndRegister (fd : ℤ) (interest : FdInterest) : List (HandlerAct Unit) :=
  [.socket fd, .call (.register true fd (some ()) interest)]

def unregisterAndClose (fd : ℤ) : List (HandlerAct Unit) := [.call (.unregister fd), .close fd]

/-- Three sessions; the first has an origin. -/
def threeSessions : List (HandlerAct Unit) :=
  openAndRegister 3 opRead ++ openAndRegister 4 opRead ++ openAndRegister 5 opRead ++
    openAndRegister 6 opWrite

def sessionsRead : FdSet := fun j => j == 3 || j == 4 || j == 5

def originWrite : FdSet := fun j => j == 6

def everyCallback : Unit → FdInterest := fun _ => ⟨true, true⟩

/-- What the handlers do, in the order in which they are called. -/
def reuseSix (k : ℕ) : List (HandlerAct Unit) :=
  [unregisterAndClose 6 ++ unregisterAndClose 3, openAndRegister 3 opWrite,
    openAndRegister 6 opWrite].getD k []

/-- As above, but the session of 5 opens nothing. -/
def reuseThree (k : ℕ) : List (HandlerAct Unit) :=
  [unregisterAndClose 6 ++ unregisterAndClose 3, openAndRegister 3 opWrite].getD k []

/-- A selector as `main` makes it. -/
def newSelector : FdSelector (Stamped Unit) := (selectorNew true 1024).get rfl

def sessionsMachine : Machine Unit := exec perform ⟨newSelector, openAtStart, 0⟩ threeSessions

theorem sessionsMachine_ready (j : ℕ) :
    (sessionsRead j = true → sessionsMachine.sel.masterR j = true) ∧
      (originWrite j = true → sessionsMachine.sel.masterW j = true) := by
  constructor
  · intro h
    obtain (rfl | rfl) | rfl : (j = 3 ∨ j = 4) ∨ j = 5 := by simpa [sessionsRead] using h
    all_goals decide +kernel
  · intro h
    obtain rfl : j = 6 := by simpa [originWrite] using h
    decide +kernel

/-- Descriptor numbers are given lowest first, and yet the third handler's new socket is called
for the bit of the one that was closed. -/
theorem stale_write_reaches_a_new_socket :
    ¬ ∀ (sel : FdSelector (Stamped Unit)) (table : ℤ → Bool) (past : List (HandlerAct Unit))
      (callbacks : Unit → FdInterest) (script : ℕ → List (HandlerAct Unit)) (slaveR slaveW : FdSet),
      selectorNew true 1024 = some sel →
      Along perform HandlerAct.LowestFirst ⟨sel, table, 0⟩ past →
      (∀ j, slaveR j = true → (exec perform ⟨sel, table, 0⟩ past).sel.masterR j = true) →
      (∀ j, slaveW j = true → (exec perform ⟨sel, table, 0⟩ past).sel.masterW j = true) →
      (∀ p ∈ (handleIteration callbacks script slaveR slaveW
        (exec perform ⟨sel, table, 0⟩ past)).calls.zipIdx,
        Along perform HandlerAct.LowestFirst p.1.before (script p.2)) →
      ∀ call ∈
        (handleIteration callbacks script slaveR slaveW (exec perform ⟨sel, table, 0⟩ past)).calls,
        Genuine (exec perform ⟨sel, table, 0⟩ past) slaveR slaveW call := by
  intro h
  have hcalls :=
    h newSelector openAtStart threeSessions everyCallback reuseSix sessionsRead originWrite rfl
    (by decide +kernel) (fun j => (sessionsMachine_ready j).1)
      (fun j => (sessionsMachine_ready j).2) (by decide +kernel)
  -- the last call is for a registration with a number that was not given out before
  have hstamp :
      ∀ call ∈
      (handleIteration everyCallback reuseSix sessionsRead originWrite sessionsMachine).calls,
      call.callee.stamp < sessionsMachine.next := by
    intro call hmem
    obtain ⟨-, -, -, hlt⟩ := (hcalls call hmem).callee
    exact hlt
  exact absurd hstamp (by decide +kernel)

theorem readiness_after_reuse_of_three :
    (handleIteration everyCallback reuseThree sessionsRead originWrite
      sessionsMachine).calls.length = 3 ∧
      ∀ call ∈
        (handleIteration everyCallback reuseThree sessionsRead originWrite sessionsMachine).calls,
        Genuine sessionsMachine sessionsRead originWrite call := by
  refine ⟨by decide +kernel, ?_⟩
  have hnew : selectorNew true 1024 = some newSelector := rfl
  refine readiness_reaches_its_registration hnew openAtStart threeSessions everyCallback reuseThree
    sessionsRead originWrite (fun j => (sessionsMachine_ready j).1)
    (fun j => (sessionsMachine_ready j).2) ?_
  intro k call hk
  have hall : ∀ p ∈ (handleIteration everyCallback reuseThree sessionsRead originWrite
      sessionsMachine).calls.zipIdx,
      Along perform (HandlerAct.Avoids (unseen sessionsRead originWrite p.1.index p.1.write))
        p.1.before (reuseThree p.2) := by
    decide +kernel
  exact hall (call, k) (List.mk_mem_zipIdx_iff_getElem?.mpr hk)

end Socks5d

import Socks5d.Turns

/-! # The gate of the management protocol

Before a token is accepted, the commands that read or change the server are not
recognised. -/

namespace Socks5d
open Memory EventRun

variable {s : Session} {cmd : MgmtCommand} {arg : Option (ℕ × ℕ)} {n : ℕ}

/-- `check_token` returned true for this command. -/
def Act.grants (tokens : List (List UInt8)) (a : Act) : Bool :=
  a.cmd = .token && a.arg.any (checkToken tokens)

def Session.granted (s : Session) : Prop := ∃ a ∈ acts s.log, a.grants s.tokens = true

/-- The responses that depend on nothing. -/
def publicTexts : List (List UInt8) :=
  [invalidCmdText, invalidArgText, capaMessage, incorrectPassword, quitText]

theorem snprintf_public {a : Option (List UInt8)} {text : List UInt8} (h : text ∈ publicTexts) :
    (snprintf s a text).response ∈ publicTexts := by
  have hlen : ∀ t ∈ publicTexts, t.length ≤ mgmtBuffsize - 1 := by decide
  rw [snprintf, List.take_of_length_le (hlen text h)]
  exact h

/-! ## Commands -/

/-- What a command leaves alone, and what a command without privilege does. -/
structure Executes (s : Session) (cmd : MgmtCommand) (r : Executed) : Prop where
  tokens_eq : r.s.tokens = s.tokens
  log_eq : r.s.log = s.log
  writeBuf_eq : r.s.c.writeBuf = s.c.writeBuf
  pendingBuf_eq : r.s.c.pendingBuf = s.c.pendingBuf
  quitted_eq : r.s.c.quitted = (s.c.quitted || cmd = .quit)
  closed_eq : r.s.closed = s.closed
  input_eq : r.s.c.input =
    { s.c.input with buf := r.s.c.input.buf, cond := r.s.c.input.cond }
  cond_eq : r.s.c.input.cond = s.c.input.cond ∨
    (Act.mk cmd r.arg r.response).grants s.tokens = true
  server_eq : cmd.privileged = false → r.s.server = s.server
  response : cmd.privileged = false → cmd ≠ .incomplete →
    (Act.mk cmd r.arg r.response).grants s.tokens = false → r.response ∈ publicTexts

theorem Executes.state_eq {r : Executed} (h : Executes s cmd r) :
    r.s.c.input.state = s.c.input.state := by
  rw [h.input_eq]

theorem Framed.executes {r : Executed} (h : Framed s r.s) (hcmd : cmd.privileged = true) :
    Executes s cmd r := by
  have hquit : cmd ≠ .quit := by
    rintro rfl
    cases hcmd
  have hcond : r.s.c.input.cond = s.c.input.cond := by rw [h.input_eq]
  refine ⟨h.tokens_eq, h.log_eq, h.writeBuf_eq, h.pendingBuf_eq, ?_, h.closed_eq, ?_,
    .inl hcond, ?_, ?_⟩
  · rw [h.quitted_eq, decide_eq_false hquit, Bool.or_false]
  · rw [hcond]
    exact h.input_eq
  · intro hno
    rw [hcmd] at hno
    cases hno
  · intro hno
    rw [hcmd] at hno
    cases hno

theorem executeToken_executes (args arge : ℕ) (s : Session) :
    Executes s .token (executeToken args arge s) := by
  unfold executeToken
  dsimp only
  split_ifs with h
  · have hg : (Act.mk .token (some ((s.terminate arge).c.input.argText args))
        (correctPassword.take (mgmtBuffsize - 1))).grants s.tokens = true := by
      simpa [Act.grants, Session.terminate, Session.setBuf, Session.setInput] using h
    refine ⟨rfl, rfl, rfl, rfl, (Bool.or_false _).symm, rfl, rfl, .inr hg, fun _ => rfl,
      fun _ _ hn => ?_⟩
    rw [snprintf, hg] at hn
    cases hn
  · exact ⟨rfl, rfl, rfl, rfl, (Bool.or_false _).symm, rfl, rfl, .inl rfl, fun _ => rfl,
      fun _ _ _ => snprintf_public (by simp [publicTexts])⟩

theorem execute_executes (cmd : MgmtCommand) (arg : Option (ℕ × ℕ)) (s : Session) :
    Executes s cmd (execute cmd arg s) := by
  unfold execute
  dsimp only
  cases cmd with
  | token => exact executeToken_executes _ _ s
  | incomplete =>
    exact ⟨rfl, rfl, rfl, rfl, (Bool.or_false _).symm, rfl, rfl, .inl rfl, fun _ => rfl,
      fun _ h => absurd rfl h⟩
  | invalidCmd | invalidArgs | capa =>
    exact ⟨rfl, rfl, rfl, rfl, (Bool.or_false _).symm, rfl, rfl, .inl rfl, fun _ => rfl,
      fun _ _ _ => snprintf_public (by simp [publicTexts])⟩
  | quit =>
    exact ⟨rfl, rfl, rfl, rfl, (Bool.or_true _).symm, rfl, rfl, .inl rfl, fun _ => rfl, fun _ _ _ =>
      snprintf_public (by simp [publicTexts])⟩
  | stats | users | getBuffsize | getDissectorStatus => exact (Framed.refl s).executes rfl
  | setBuffsize => exact (executeSetBuffsize_framed _ _ s).executes rfl
  | setDissectorStatus => exact (executeSetDissector_framed _ _ s).executes rfl
  | addUser => exact (executeAddUser_framed _ _ s).executes rfl

/-! ## Settings -/

structure SameSettings (w w' : World) : Prop where
  users_eq : w'.users = w.users
  buffsize_eq : w'.buffsize = w.buffsize
  dissectorState_eq : w'.dissectorState = w.dissectorState

theorem SameSettings.refl (w : World) : SameSettings w w := ⟨rfl, rfl, rfl⟩

theorem SameSettings.trans {w w' w'' : World} (h : SameSettings w w') (h' : SameSettings w' w'') :
    SameSettings w w'' :=
  ⟨h'.users_eq.trans h.users_eq, h'.buffsize_eq.trans h.buffsize_eq,
    h'.dissectorState_eq.trans h.dissectorState_eq⟩

/-- What was sent and what waits to be sent. -/
def Session.stream (s : Session) : List UInt8 :=
  sent s.log ++ bufferReadPtr s.c.writeBuf ++ bufferReadPtr s.c.pendingBuf

/-! ## Nothing but input and output -/

theorem mgmtClose_settings (fd : ℤ) (sv : Server) : SameSettings sv.w (mgmtClose fd sv).w := by
  unfold mgmtClose
  split
  · split_ifs
    · exact ⟨rfl, rfl, rfl⟩
    · exact ⟨rfl, rfl, rfl⟩
  · exact ⟨rfl, rfl, rfl⟩

/-- No command was carried out, and no response was queued. -/
structure Undisturbed (s t : Session) : Prop where
  acts_eq : acts t.log = acts s.log
  settings : SameSettings s.server.w t.server.w
  cond_eq : t.c.input.cond = s.c.input.cond
  stream_eq : t.stream = s.stream

theorem Undisturbed.refl (s : Session) : Undisturbed s s := ⟨rfl, .refl _, rfl, rfl⟩

theorem Undisturbed.trans {t u : Session} (h : Undisturbed s t) (h' : Undisturbed t u) :
    Undisturbed s u :=
  ⟨h'.acts_eq.trans h.acts_eq, h.settings.trans h'.settings, h'.cond_eq.trans h.cond_eq,
    h'.stream_eq.trans h.stream_eq⟩

theorem Undisturbed.filled (s : Session) (r : ReadResult) : Undisturbed s (filled r s) :=
  ⟨by simp [Socks5d.filled], .refl _, rfl, by simp [Session.stream, Socks5d.filled]⟩

theorem Undisturbed.copied (s : Session)
    (hfit : (bufferReadPtr s.c.pendingBuf).length ≤ bufferWritePtr s.c.writeBuf) :
    Undisturbed s (copyFromBuf s hfit) :=
  ⟨rfl, .refl _, rfl, by simp [Session.stream, copyFromBuf]⟩

theorem Undisturbed.unregister (s : Session) : Undisturbed s s.unregister :=
  ⟨rfl, mgmtClose_settings _ _, rfl, rfl⟩

theorem Undisturbed.sendOut (s : Session) (r : SendResult) : Undisturbed s (sendOut r s) := by
  have hsend : Undisturbed s (afterSend r s) := by
    refine ⟨by simp [afterSend], .refl _, rfl, ?_⟩
    simp [Session.stream, afterSend, writeToSock_readPtr]
  rcases sendOut_cases r s with heq | ⟨heq, -⟩
  · rw [heq]
    exact hsend
  · rw [heq]
    exact hsend.trans (.unregister _)

/-! ## The invariant -/

/-- Nothing but public texts. -/
def Session.Shown (s : Session) : Prop :=
  ∃ ts : List (List UInt8), (∀ t ∈ ts, t ∈ publicTexts) ∧ s.stream = hello ++ ts.flatten

/-- `w` is the world before the event that is being handled. -/
structure Guarded (tokens : List (List UInt8)) (w : World) (s : Session) : Prop where
  tokens_eq : s.tokens = tokens
  conditioned : s.c.input.Conditioned
  cond : s.c.input.cond = .trns → s.granted
  complete : ∀ a ∈ acts s.log, a.cmd ≠ .incomplete
  order : ∀ l a r, acts s.log = l ++ a :: r → a.cmd.privileged = true →
    ∃ b ∈ l, b.grants s.tokens = true
  shown : ¬ s.granted → s.Shown
  settings : ¬ s.granted → SameSettings w s.server.w

variable {w : World} {tokens : List (List UInt8)}

theorem Guarded.cond_pass (h : Guarded tokens w s) (hn : ¬ s.granted) : s.c.input.cond = .pass := by
  cases hc : s.c.input.cond with
  | pass => rfl
  | trns => exact absurd (h.cond hc) hn

section
variable {t : Session} {a : Act} (htok : t.tokens = s.tokens)
  (hlog : t.log = s.log ++ [.acted a])
include htok hlog

theorem granted_acted : t.granted ↔ s.granted ∨ a.grants s.tokens = true := by
  have hacts : acts t.log = acts s.log ++ [a] := by
    rw [hlog, acts_append]
    rfl
  simp only [Session.granted, hacts, htok, List.mem_append, List.mem_singleton]
  refine ⟨?_, ?_⟩
  · rintro ⟨b, hb | rfl, hg⟩
    · exact .inl ⟨b, hb, hg⟩
    · exact .inr hg
  · rintro (⟨b, hb, hg⟩ | hg)
    · exact ⟨b, .inl hb, hg⟩
    · exact ⟨a, .inr rfl, hg⟩

/-- One more command, read under the condition of `s`. -/
theorem Guarded.acted (h : Guarded tokens w s) (hstate : t.c.input.state = none)
    (hcmd : a.cmd ≠ .incomplete) (hpriv : s.c.input.cond = .pass → a.cmd.privileged = false)
    (hcond : t.c.input.cond = s.c.input.cond ∨ a.grants s.tokens = true)
    (hshown : ¬ t.granted → s.Shown → t.Shown)
    (hset : ¬ t.granted → SameSettings s.server.w t.server.w) : Guarded tokens w t := by
  have hacts : acts t.log = acts s.log ++ [a] := by
    rw [hlog, acts_append]
    rfl
  have hgr := granted_acted htok hlog
  have hbefore : ¬ t.granted → ¬ s.granted := fun hn hs => hn (hgr.mpr (.inl hs))
  refine ⟨htok.trans h.tokens_eq, ?_, ?_, ?_, ?_, fun hn => hshown hn (h.shown (hbefore hn)), ?_⟩
  · intro ths hths
    rw [hstate] at hths
    cases hths
  · intro hc
    rcases hcond with heq | hg
    · exact hgr.mpr (.inl (h.cond (heq ▸ hc)))
    · exact hgr.mpr (.inr hg)
  · intro b hb
    rw [hacts, List.mem_append, List.mem_singleton] at hb
    rcases hb with hb | rfl
    · exact h.complete b hb
    · exact hcmd
  · intro l b r hsplit hb
    rw [hacts] at hsplit
    rw [htok]
    rcases concat_eq_split hsplit with ⟨rfl, rfl⟩ | ⟨r', hr'⟩
    · refine h.cond ?_
      cases hc : s.c.input.cond with
      | trns => rfl
      | pass =>
        rw [hpriv hc] at hb
        cases hb
    · exact h.order l b r' hr' hb
  · intro hn
    exact (h.settings (hbefore hn)).trans (hset hn)

end

theorem Session.Shown.append {t : Session} {text : List UInt8} (h : s.Shown)
    (hstream : t.stream = s.stream ++ text) (ht : text = [] ∨ text ∈ publicTexts) : t.Shown := by
  obtain ⟨ts, hts, hflat⟩ := h
  rcases ht with rfl | ht
  · exact ⟨ts, hts, by rw [hstream, List.append_nil, hflat]⟩
  · refine ⟨ts ++ [text], ?_, ?_⟩
    · intro t' ht'
      rcases List.mem_append.mp ht' with ht' | ht'
      · exact hts t' ht'
      · exact (List.mem_singleton.mp ht') ▸ ht
    · rw [hstream, hflat, List.flatten_append, List.flatten_singleton, List.append_assoc]

/-- Anything that is neither a command nor a response. -/
theorem Guarded.same {t : Session} (h : Guarded tokens w s) (htok : t.tokens = s.tokens)
    (hstate : t.c.input.state = s.c.input.state) (hstill : Undisturbed s t) :
    Guarded tokens w t := by
  have hgr : t.granted ↔ s.granted := by
    rw [Session.granted, Session.granted, hstill.acts_eq, htok]
  refine ⟨htok.trans h.tokens_eq, ?_, ?_, ?_, ?_, ?_, ?_⟩
  · rw [Input.Conditioned, hstate, hstill.cond_eq]
    exact h.conditioned
  · rw [hstill.cond_eq, hgr]
    exact h.cond
  · rw [hstill.acts_eq]
    exact h.complete
  · rw [hstill.acts_eq, htok]
    exact h.order
  · intro hn
    have hs := h.shown (mt hgr.mpr hn)
    exact hs.append (hstill.stream_eq.trans (List.append_nil _).symm) (.inl rfl)
  · intro hn
    exact (h.settings (mt hgr.mpr hn)).trans hstill.settings

theorem Guarded.turn (h : Guarded tokens w s) (hpend : bufferReadPtr s.c.pendingBuf = []) :
    Guarded tokens w (turn s).1 ∧
    ((turn s).2 = true → bufferReadPtr (turn s).1.c.pendingBuf = []) := by
  have hp := parseMgmtRequest_conditions h.conditioned
  have hcases := turn_cases (s := s) rfl rfl
  generalize parseMgmtRequest s.c.input = p at hp hcases
  have hx := execute_executes p.cmd p.arg (s.setInput p.input)
  generalize execute p.cmd p.arg (s.setInput p.input) = r at hx hcases
  have hw : r.s.c.writeBuf = s.c.writeBuf := hx.writeBuf_eq
  have hpb : bufferReadPtr r.s.c.pendingBuf = [] := by
    rw [hx.pendingBuf_eq]
    exact hpend
  have hlog : ∀ a, (r.s.observe (.acted a)).log = s.log ++ [.acted a] := fun a =>
    congrArg (· ++ [MgmtObs.acted a]) hx.log_eq
  -- whatever becomes of the response
  have hact : ∀ t : Session, p.cmd ≠ .incomplete → t.tokens = r.s.tokens →
      t.log = (r.s.observe (.acted ⟨p.cmd, r.arg, r.response⟩)).log → t.c.input = r.s.c.input →
      t.server = r.s.server → (∃ text, (text = [] ∨ text = r.response) ∧
        t.stream = s.stream ++ text) → Guarded tokens w t := by
    intro t hcmd htok htlog hinp hserver htext
    have htok' : t.tokens = s.tokens := htok.trans hx.tokens_eq
    have htlog' := htlog.trans (hlog _)
    have hquiet : ¬ t.granted → p.cmd.privileged = false ∧
        (Act.mk p.cmd r.arg r.response).grants s.tokens = false := by
      intro hn
      have hgr := granted_acted htok' htlog'
      rw [hgr, not_or] at hn
      exact ⟨hp.unprivileged (h.cond_pass hn.1), by simpa using hn.2⟩
    refine h.acted htok' htlog' ?_ hcmd hp.unprivileged ?_ ?_ ?_
    · rw [hinp, hx.state_eq]
      exact hp.fresh hcmd
    · rw [hinp]
      exact hx.cond_eq.imp (fun hc => hc.trans hp.cond_eq) fun hg => hg
    · intro hn hs
      obtain ⟨text, ht, hb⟩ := htext
      refine hs.append hb (ht.imp (fun h => h) ?_)
      rintro rfl
      exact hx.response (hquiet hn).1 hcmd (hquiet hn).2
    · intro hn
      rw [hserver, hx.server_eq (hquiet hn).1]
      exact ⟨rfl, rfl, rfl⟩
  rcases hcases with ⟨hcmd, ht⟩ | ⟨hcmd, -, ht⟩ | ⟨hcmd, -, ht⟩
  · rw [ht]
    refine ⟨⟨h.tokens_eq, hp.conditioned, ?_, h.complete, h.order, h.shown, h.settings⟩,
      fun hf => by (cases hf)⟩
    intro hc
    exact h.cond (hp.cond_eq ▸ hc)
  · rw [ht]
    refine ⟨hact _ hcmd rfl rfl rfl rfl ?_, fun hf => by (cases hf)⟩
    rcases writeResponse_readPtr r.s.c.pendingBuf r.response with hb | hb
    · exact ⟨_, .inr rfl, by simp [Session.stream, hx.log_eq, hb, hpb, hw, hpend]⟩
    · exact ⟨_, .inl rfl, by simp [Session.stream, hx.log_eq, hb, hpb, hw, hpend]⟩
  · rw [ht]
    refine ⟨hact _ hcmd rfl rfl rfl rfl ?_, fun _ => hpb⟩
    rcases writeResponse_readPtr s.c.writeBuf r.response with hb | hb
    · exact ⟨_, .inr rfl, by simp [Session.stream, hx.log_eq, hb, hpb, hw, hpend]⟩
    · exact ⟨_, .inl rfl, by simp [Session.stream, hx.log_eq, hb, hpb, hw, hpend]⟩

theorem Guarded.process (h : Guarded tokens w s) (hpend : bufferReadPtr s.c.pendingBuf = []) :
    Guarded tokens w (processMgmtClient s) := by
  refine processLoop_rule (P := fun s => Guarded tokens w s ∧ bufferReadPtr s.c.pendingBuf = [])
    (fun _ h => h.1) ?_ ⟨h, hpend⟩
  intro s hs
  have ht := hs.1.turn hs.2
  exact ⟨fun hagain => ⟨ht.1, ht.2 hagain⟩, fun _ => ht.1⟩

/-! ## Handlers -/

theorem Guarded.sendOut (h : Guarded tokens w s) (r : SendResult) :
    Guarded tokens w (sendOut r s) := by
  have hstill := Undisturbed.sendOut s r
  rcases sendOut_cases r s with heq | ⟨heq, -⟩
  · rw [heq] at hstill ⊢
    exact h.same rfl rfl hstill
  · rw [heq] at hstill ⊢
    exact h.same rfl rfl hstill

/-! ## Runs -/

/-- What other connections do starts a new account of the settings. -/
theorem Guarded.refresh (h : Guarded tokens w s) {t : Session}
    (ht : t = { s with server := t.server }) :
    Guarded tokens t.server.w t := by
  rw [ht]
  exact ⟨h.tokens_eq, h.conditioned, h.cond, h.complete, h.order, h.shown, fun _ => ⟨rfl, rfl, rfl⟩⟩

theorem Guarded.step (h : Guarded tokens s.server.w s) (ev : MgmtEvent)
    (hev : ∀ e, ev ≠ .server e) :
    Guarded tokens s.server.w (sessionStep s ev) := by
  cases ev with
  | read r =>
    have hfill : Guarded tokens s.server.w (filled r s) := h.same rfl rfl (.filled s r)
    rcases read_cases r s with heq | ⟨-, hpend, ⟨-, heq⟩ | ⟨-, -, heq⟩⟩
    · rw [heq]
      exact h
    · rw [heq]
      exact hfill.same rfl rfl (.unregister _)
    · rw [heq]
      exact (hfill.process hpend).same rfl rfl ⟨rfl, .refl _, rfl, rfl⟩
  | write r =>
    rcases write_cases r s with heq | heq | ⟨-, -, heq, ⟨hsame, -⟩ | ⟨hfit, -, hproc⟩⟩
    · rw [heq]
      exact h
    · rw [heq]
      exact h.same rfl rfl ⟨rfl, .refl _, rfl, rfl⟩
    · rw [heq, hsame]
      exact h.sendOut r
    · have hcopy : Guarded tokens s.server.w (copyFromBuf s hfit) := h.same rfl rfl (.copied s hfit)
      rw [heq, hproc]
      exact (hcopy.process (by simp [copyFromBuf])).sendOut r
  | server e => exact absurd rfl (hev e)

section
variable (server : Server) (tokens : List (List UInt8)) (sock : ℤ) (raw : RawMgmt)

theorem openSession_guarded : Guarded tokens server.w (openSession server tokens sock raw) := by
  have hfit : hello.length ≤ bufferWritePtr (bufferInit mgmtBuffsize raw.write) := by
    have hlen : hello.length ≤ mgmtBuffsize := by decide
    exact hlen
  refine ⟨rfl, ?_, ?_, ?_, ?_, ?_, fun _ => ⟨rfl, rfl, rfl⟩⟩
  · intro ths hths
    cases hths
  · intro hc
    cases hc
  · intro a ha
    cases ha
  · intro l a r hl
    cases l <;> cases hl
  · intro _
    refine ⟨[], by simp, ?_⟩
    simp [Session.stream, openSession, createMgmtClient, writeResponse, hfit, sent]

theorem reachable_guarded (evs : List MgmtEvent) :
    let s := exec sessionStep (openSession server tokens sock raw) evs
    Guarded tokens s.server.w s := by
  have h0 : Guarded tokens (openSession server tokens sock raw).server.w _ :=
    openSession_guarded server tokens sock raw
  refine exec_invariant (P := fun s : Session => Guarded tokens s.server.w s) h0 ?_
  intro s ev h
  cases ev with
  | read r => exact (h.step (.read r) (by simp)).refresh rfl
  | write r => exact (h.step (.write r) (by simp)).refresh rfl
  | server e => exact h.refresh rfl

/-- Nothing that a connection sends has the server read or changed, or shown to it,
unless a token was accepted before. -/
theorem mgmt_authentication_gate (evs : List MgmtEvent) :
    let s := exec sessionStep (openSession server tokens sock raw) evs
    (∀ l a r, acts s.log = l ++ a :: r → a.cmd.privileged = true →
      ∃ b ∈ l, b.grants tokens = true) ∧
    (∀ l a r, acts s.log = l ++ a :: r → (∀ b ∈ l, b.grants tokens = false) →
      a.cmd ∈ [.token, .capa, .quit, .invalidCmd, .invalidArgs]) ∧
    ((∀ b ∈ acts s.log, b.grants tokens = false) →
      (∃ ts : List (List UInt8), (∀ t ∈ ts, t ∈ publicTexts) ∧
        sent s.log <+: hello ++ ts.flatten)) ∧
    ∀ ev, (∀ e, ev ≠ .server e) → (∀ b ∈ acts (sessionStep s ev).log, b.grants tokens = false) →
      SameSettings s.server.w (sessionStep s ev).server.w := by
  intro s
  have h : Guarded tokens s.server.w s := reachable_guarded server tokens sock raw evs
  have hno : ∀ {t : Session}, t.tokens = tokens → (∀ b ∈ acts t.log, b.grants tokens = false) →
      ¬ t.granted := by
    rintro t ht hall ⟨b, hb, hg⟩
    rw [ht, hall b hb] at hg
    cases hg
  have horder : ∀ l a r, acts s.log = l ++ a :: r → a.cmd.privileged = true →
      ∃ b ∈ l, b.grants tokens = true := by
    have ho := h.order
    rw [h.tokens_eq] at ho
    exact ho
  refine ⟨horder, ?_, ?_, ?_⟩
  · intro l a r hsplit hall
    have hcmd : a.cmd ≠ .incomplete := h.complete a (by rw [hsplit]; simp)
    have hpriv : a.cmd.privileged = false := by
      by_contra hp
      obtain ⟨b, hb, hg⟩ := horder l a r hsplit (by simpa using hp)
      rw [hall b hb] at hg
      cases hg
    revert hcmd hpriv
    cases a.cmd <;> simp [MgmtCommand.privileged]
  · intro hall
    obtain ⟨ts, hts, hstream⟩ := h.shown (hno h.tokens_eq hall)
    refine ⟨ts, hts, ?_⟩
    rw [← hstream, Session.stream, List.append_assoc]
    exact List.prefix_append _ _
  · intro ev hev hall
    have hstep := h.step ev hev
    exact hstep.settings (hno hstep.tokens_eq hall)

end

end Socks5d

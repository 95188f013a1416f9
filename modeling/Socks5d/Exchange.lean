import Socks5d.Dialogue

/-! # The management client and the server

Two processes with a stream in each direction. The server takes and sends what its system calls
say, and others act on it; the client makes its calls. -/

namespace Socks5d
open Memory EventRun

structure Exchange where
  s : Session
  tool : Tool
  /-- What the client has sent and the server has not read. -/
  up : List UInt8
  /-- What the server has sent and the client has not read. -/
  down : List UInt8

inductive ExchangeEvent
  | send (r : SendResult) (responseBuf : ℕ → UInt8)
  /-- `read` in the client, when `n` bytes have come, or the end of the stream. -/
  | recv (n : ℕ)
  | recvFails
  /-- `read` in the server, when `n` bytes have come. -/
  | serverRead (n : ℕ)
  | serverReadEnds
  | serverReadFails
  | serverWrite (r : SendResult)
  /-- Somebody else acts on the server. -/
  | server (ev : Event)

/-- The bytes that `read` stores in `response_buf`. -/
def Exchange.arrived (x : Exchange) (n : ℕ) : List UInt8 := (x.down.take n).take x.tool.asked

def exchangeStep (x : Exchange) : ExchangeEvent → Exchange
  | .send r responseBuf =>
    let t := x.tool.send r responseBuf
    { x with tool := t.1, up := x.up ++ t.2 }
  | .recv n =>
    if x.arrived n ≠ [] then
      { x with
        tool := x.tool.recv (.data (x.down.take n))
        down := x.down.drop (x.arrived n).length }
    else if x.down = [] ∧ x.s.closed then { x with tool := x.tool.recv (.data []) }
    else x
  | .recvFails => { x with tool := x.tool.recv .error }
  | .serverRead n =>
    if x.up.take n = [] then x
    else
      let s := sessionStep x.s (.read (.data (x.up.take n)))
      { x with s := s, up := x.up.drop ((received s.log).length - (received x.s.log).length) }
  | .serverReadEnds =>
    if x.up = [] ∧ x.tool.todo = [] then { x with s := sessionStep x.s (.read (.data [])) } else x
  | .serverReadFails => { x with s := sessionStep x.s (.read .error) }
  | .serverWrite r =>
    let s := sessionStep x.s (.write r)
    { x with s := s, down := x.down ++ (sent s.log).drop (sent x.s.log).length }
  | .server ev => { x with s := sessionStep x.s (.server ev) }

def openExchange (server : Server) (tokens : List (List UInt8)) (sock : ℤ) (raw : RawMgmt)
    (token : List UInt8) (options : List (Char × List UInt8)) : Exchange :=
  ⟨openSession server tokens sock raw, openTool token options, [], []⟩

/-! ## What an answer is to -/

/-- The answers the client has collected. -/
def Tool.answered (t : Tool) : List (ToolCall × List UInt8) := t.endings.filterMap fun
  | (call, .answered response) => some (call, response)
  | _ => none

/-- The server has done what it was asked, or has answered with an error. -/
structure Does (c : MgmtCommands) (arg : List UInt8) (a : Act) : Prop where
  admits : c.admits a.cmd = true
  done : a.response.head? ≠ some 0x2d → a.cmd = c.served
  heard : c.Accepts arg → c ≠ .dissectorStatus → (c.hasArg = true → arg ≠ []) →
    a.cmd = c.served ∧ a.arg = if c.hasArg then some arg else none

inductive Matched : ToolCall × List UInt8 → Act → Prop
  | asked {c : MgmtCommands} {arg : List UInt8} {a : Act} (h : Does c arg a) :
    Matched (.ask c arg, a.response) a

/-- The greeting, and the answers of the server to the requests, one each. -/
inductive Paired : List (ToolCall × List UInt8) → List Act → Prop
  | greeted {l : List (ToolCall × List UInt8)} {as : List Act} (h : List.Forall₂ Matched l as) :
    Paired ((.hello, hello) :: l) as

/-- All answers are collected but for the last. -/
inductive InOrder : List (ToolCall × List UInt8) → List Act → Prop
  | silent : InOrder [] []
  | collected {l : List (ToolCall × List UInt8)} {as : List Act} (h : Paired l as) : InOrder l as
  | outstanding {l : List (ToolCall × List UInt8)} {as : List Act} (h : Paired l as) (a : Act) :
    InOrder l (as ++ [a])

section
variable {l : List (ToolCall × List UInt8)} {as : List Act} {call : ToolCall} {c : MgmtCommands}
  {arg response bs p : List UInt8} {todo : List ToolCall} {cond cond' : Cond} {a : Act}
  {options : List (Char × List UInt8)} {e : Ending}

theorem Paired.snoc (h : Paired l as) (hd : Does c arg a) :
    Paired (l ++ [(.ask c arg, a.response)]) (as ++ [a]) := by
  obtain ⟨h⟩ := h
  exact .greeted (List.rel_append h (.cons (.asked hd) .nil))

/-- Before the last answer is collected. -/
theorem Paired.inOrder {pr : ToolCall × List UInt8} (h : Paired (l ++ [pr]) as) :
    InOrder l as := by
  generalize hl : l ++ [pr] = l' at h
  obtain ⟨h⟩ := h
  cases l with
  | nil =>
    obtain ⟨-, rfl⟩ := List.cons.inj hl
    cases h
    exact .silent
  | cons pr' l =>
    obtain ⟨rfl, rfl⟩ := List.cons.inj hl
    have hfirst := (List.forall₂_take_append as l [pr] h.flip).flip
    have hlast := (List.forall₂_drop_append as l [pr] h.flip).flip
    obtain ⟨a, ha⟩ := List.length_eq_one_iff.mp hlast.length_eq.symm
    rw [← List.take_append_drop l.length as, ha]
    exact .outstanding (.greeted hfirst) a

/-! ## What is left to ask -/

/-- Requests of commands other than the login. -/
def Commands (todo : List ToolCall) : Prop :=
  ∀ call ∈ todo, ∃ c arg, call = .ask c arg ∧ c ≠ .token ∧ (c.hasArg = true → Sendable arg)

/-- What is left to ask where the session is at `cond`. -/
inductive Planned : Cond → List ToolCall → Prop
  | login {token : List UInt8} {todo : List ToolCall} (ht : Sendable token)
    (h : Commands todo) : Planned .pass (.ask .token token :: todo)
  | commands {todo : List ToolCall} (h : Commands todo) : Planned .trns todo
  | nothing {cond : Cond} : Planned cond []

theorem askAll_commands (h : ∀ o ∈ options, Sendable o.2) : Commands (askAll options) := by
  induction options with
  | nil => exact fun _ hcall => absurd hcall List.not_mem_nil
  | cons o options ih =>
    rw [List.forall_mem_cons] at h
    obtain ⟨o, optarg⟩ := o
    rw [askAll]
    cases hc : optionCommand o with
    | none => exact ih h.2
    | some c =>
      dsimp only
      split_ifs
      · exact fun _ hcall => absurd hcall List.not_mem_nil
      · intro call hcall
        rcases List.mem_cons.mp hcall with rfl | hcall
        · refine ⟨c, optarg, rfl, ?_, fun _ => h.1⟩
          rintro rfl
          unfold optionCommand at hc
          split at hc <;> cases hc
        · exact ih h.2 call hcall

theorem Planned.head (h : Planned cond (call :: todo)) : ∃ c arg, call = .ask c arg ∧
    (c.hasArg = true → Sendable arg) ∧ cond ∈ c.stages ∧ (c ≠ .token → cond = .trns) := by
  cases h with
  | login ht => exact ⟨.token, _, rfl, fun _ => ht, by decide, fun hne => absurd rfl hne⟩
  | commands h =>
    obtain ⟨c, arg, rfl, hc, harg⟩ := h call List.mem_cons_self
    refine ⟨c, arg, rfl, harg, ?_, fun _ => rfl⟩
    cases c <;> first | exact absurd rfl hc | decide

/-- The call has ended, and the session is in the stage for those behind it. -/
theorem Planned.next (h : Planned cond (call :: todo))
    (hlogin : call.needed = true → e.returned = true → cond' = .trns)
    (hcond : cond = .trns → cond' = .trns) : Planned cond' (call.next e todo) := by
  unfold ToolCall.next
  split_ifs with hend
  · exact .nothing
  have hret : call.needed = true → e.returned = true := by
    intro hneeded
    simpa [hneeded] using hend
  cases h with
  | login ht h =>
    rw [hlogin rfl (hret rfl)]
    exact .commands h
  | commands h =>
    rw [hcond rfl]
    exact .commands fun call hcall => h call (List.mem_cons_of_mem _ hcall)

/-! ## Collecting an answer -/

/-- The call finds the end of the answer where it ends. -/
structure Legible (call : ToolCall) (response : List UInt8) : Prop where
  short : response.length < 256
  noZero : 0 ∉ response
  ends : ∀ p, p <+: response → (Terminated call.multiline p ↔ p = response)

theorem hello_legible : Legible .hello hello := by
  have hshape : Shape false hello := .of_single (by decide) (by decide)
  exact ⟨by decide, hshape.no_zero, fun _ hp => hshape.terminated_iff hp⟩

theorem Legible.ne_nil (h : Legible call response) : response ≠ [] := by
  rintro rfl
  have hterm := (h.ends [] List.nil_prefix).mpr rfl
  unfold Terminated at hterm
  split_ifs at hterm <;> exact absurd hterm (by decide)

theorem Formed.legible {cmd : MgmtCommand} {r : Executed} (h : Formed cmd r)
    (hadmits : c.admits cmd = true)
    (herror : cmd = .invalidCmd ∨ cmd = .invalidArgs → r.response.head? = some 0x2d) :
    Legible (.ask c arg) r.response := by
  refine ⟨h.short, h.shape.no_zero, fun p hp => ?_⟩
  rcases h.sign with hplus | ⟨hline, hminus⟩
  · have hcmd : cmd = c.served := by
      simp only [MgmtCommands.admits, Bool.or_eq_true, decide_eq_true_eq] at hadmits
      rcases hadmits with (hserved | hbad) | hbad
      · exact hserved
      · rw [herror (.inl hbad)] at hplus
        cases hplus
      · rw [herror (.inr hbad)] at hplus
        cases hplus
    have hshape := h.shape
    rw [hcmd] at hshape
    have hmulti : c.served.multiline = c.multiline := by cases c <;> rfl
    rw [hmulti] at hshape
    exact hshape.terminated_iff hp
  · have hshape := h.shape
    rw [hline] at hshape
    rw [terminated_error hminus hp]
    exact hshape.terminated_iff hp

/-- `bs` is in the buffer, and the loop goes on. -/
structure Holding (st : Collector) (bs : List UInt8) : Prop where
  result : st.result = none
  ptr : st.writePtr = bs.length
  mem : slice st.mem 0 bs.length = bs

theorem collectorAt_holding (mem : ℕ → UInt8) : Holding (collectorAt mem) [] := ⟨rfl, rfl, rfl⟩

theorem Holding.turn {st : Collector} (h : Holding st p) (hl : Legible call response)
    (hbs : bs ≠ []) (hp : p ++ bs <+: response) :
    (p ++ bs = response ∧ (getResponseTurn 512 call.multiline st (.data bs)).result = some true ∧
      (getResponseTurn 512 call.multiline st (.data bs)).string = response) ∨
    (p ++ bs ≠ response ∧
      Holding (getResponseTurn 512 call.multiline st (.data bs)) (p ++ bs)) := by
  have hle := hp.length_le
  have hshort := hl.short
  rw [List.length_append] at hle
  have hpos : 0 < bs.length := List.length_pos_iff.mpr hbs
  have hptr := h.ptr
  have hlen : (512 : UInt64).toNat = 512 := rfl
  have hsize : bs.length ≤ sizeAsked 512 st := by
    rw [sizeAsked_eq (by omega)]
    omega
  have hlt : bs.length < 256 := by omega
  obtain ⟨hadv, hmem, hstr⟩ := Collector.advance_short hlt hptr h.mem
  have hself : cString (p ++ bs) = p ++ bs :=
    cString_eq_self fun hz => hl.noZero (hp.subset hz)
  rw [hself] at hstr
  rw [getResponseTurn_data h.result hsize (by omega), hstr]
  by_cases hall : p ++ bs = response
  · rw [if_pos (finished_iff_terminated.mpr ((hl.ends _ hp).mpr hall))]
    refine .inl ⟨hall, rfl, ?_⟩
    rw [← hall, ← hstr]
    rfl
  · rw [if_neg fun hf => hall ((hl.ends _ hp).mp (finished_iff_terminated.mp hf))]
    exact .inr ⟨hall, h.result, hadv, hmem⟩

end

/-! ## Where the two are -/

section
variable (tokens : List (List UInt8)) (x : Exchange)

/-- Between two calls. -/
structure Exchange.Idle : Prop where
  dialogue : Dialogue tokens x.s
  collector_eq : x.tool.collector = none
  planned : Planned x.s.c.input.cond x.tool.todo
  paired : Paired x.tool.answered (acts x.s.log)
  up_eq : x.up = []
  text_eq : x.s.c.input.text = []
  down_eq : x.down = []
  unsent_eq : bufferReadPtr x.s.c.writeBuf = []

/-- Of the request, `piece` was sent, and there is no answer yet. -/
structure Exchange.Asked (piece : List UInt8) (c : MgmtCommands) (arg : List UInt8)
    (todo : List ToolCall) (st : Collector) : Prop where
  dialogue : Dialogue tokens x.s
  todo_eq : x.tool.todo = .ask c arg :: todo
  collector_eq : x.tool.collector = some st
  holding : Holding st []
  planned : Planned x.s.c.input.cond x.tool.todo
  paired : Paired x.tool.answered (acts x.s.log)
  text_eq : x.s.c.input.text ++ x.up = piece
  isPrefix : piece <+: requestText c arg
  down_eq : x.down = []
  unsent_eq : bufferReadPtr x.s.c.writeBuf = []

/-- The server has answered, and the client has `p` of the answer. -/
structure Exchange.Heard (call : ToolCall) (response p : List UInt8) (todo : List ToolCall)
    (st : Collector) : Prop where
  dialogue : Dialogue tokens x.s
  todo_eq : x.tool.todo = call :: todo
  collector_eq : x.tool.collector = some st
  holding : Holding st p
  legible : Legible call response
  unfinished : p ≠ response
  planned : Planned x.s.c.input.cond (call.next (.answered response) todo)
  paired : Paired (x.tool.answered ++ [(call, response)]) (acts x.s.log)
  rest : p ++ (x.down ++ bufferReadPtr x.s.c.writeBuf) = response
  up_eq : x.up = []
  text_eq : x.s.c.input.text = []

/-- The client has seen the end of the stream. -/
structure Exchange.Gone : Prop where
  closed : x.s.closed = true
  down_eq : x.down = []
  loop : ∀ st, x.tool.collector = some st → st.result = none

/-- `whole`: no send took only a piece of a request. -/
inductive Talk (whole : Prop) : Prop
  | idle (h : x.Idle tokens)
  | asked {piece : List UInt8} {c : MgmtCommands} {arg : List UInt8} {todo : List ToolCall}
    {st : Collector} (h : x.Asked tokens piece c arg todo st)
    (hwhole : whole → piece = requestText c arg)
  | heard {call : ToolCall} {response p : List UInt8} {todo : List ToolCall} {st : Collector}
    (h : x.Heard tokens call response p todo st)
  | gone (h : x.Gone) (horder : InOrder x.tool.answered (acts x.s.log))

end

section
variable {tokens : List (List UInt8)} {x : Exchange} {s t : Session} {c : MgmtCommands}
  {arg response piece p : List UInt8} {call : ToolCall} {todo : List ToolCall} {st : Collector}
  {tool : Tool} {e : Ending} {ev : ExchangeEvent} {whole : Prop}

theorem Talk.order (h : Talk tokens x whole) : InOrder x.tool.answered (acts x.s.log) := by
  cases h with
  | idle h => exact .collected h.paired
  | asked h => exact .collected h.paired
  | heard h => exact h.paired.inOrder
  | gone _ horder => exact horder

/-! ## The client alone -/

theorem Tool.finish_cons (h : tool.todo = call :: todo) :
    tool.finish e = ⟨call.next e todo, none, tool.endings ++ [(call, e)]⟩ := by
  rw [Tool.finish, h]

theorem Tool.finish_answered (h : tool.todo = call :: todo) :
    (tool.finish (.answered response)).answered = tool.answered ++ [(call, response)] := by
  rw [finish_cons h, Tool.answered, Tool.answered, List.filterMap_append]
  rfl

theorem Tool.finish_lost (h : tool.todo = call :: todo) (he : e = .unsent ∨ e = .unread) :
    (tool.finish e).answered = tool.answered := by
  rw [finish_cons h, Tool.answered, Tool.answered, List.filterMap_append]
  rcases he with rfl | rfl
  · exact List.append_nil _
  · exact List.append_nil _

theorem Tool.send_sent (hcollector : tool.collector = none) (htodo : tool.todo = .ask c arg :: todo)
    (n : ℕ) (buf : ℕ → UInt8) : tool.send (.sent n) buf =
      (⟨.ask c arg :: todo, some (collectorAt buf), tool.endings⟩, (requestText c arg).take n) := by
  obtain ⟨todo', collector, endings⟩ := tool
  cases hcollector
  cases htodo
  rfl

/-- In a call, nothing is sent. -/
theorem exchangeStep_send (h : x.tool.collector = some st) (r : SendResult) (buf : ℕ → UInt8) :
    exchangeStep x (.send r buf) = x := by
  obtain ⟨s, ⟨todo, collector, endings⟩, up, down⟩ := x
  cases h
  exact congrArg (Exchange.mk s _ · down) (List.append_nil up)

/-- Out of a call, nothing is read. -/
theorem exchangeStep_recv (h : x.tool.collector = none) (n : ℕ) :
    exchangeStep x (.recv n) = x := by
  have hasked : x.tool.asked = 0 := by rw [Tool.asked, h]; rfl
  have harrived : x.arrived n = [] := by rw [Exchange.arrived, hasked, List.take_zero]
  have hrecv : ∀ r, x.tool.recv r = x.tool := fun r => by rw [Tool.recv, h]
  rw [exchangeStep, if_neg (not_not.mpr harrived), hrecv]
  split_ifs
  · rfl
  · rfl

theorem exchangeStep_recv_s (x : Exchange) (n : ℕ) : (exchangeStep x (.recv n)).s = x.s := by
  rw [exchangeStep]
  split_ifs <;> rfl

theorem exchangeStep_down (x : Exchange) (n : ℕ) :
    (exchangeStep x (.recv n)).down = x.down.drop (x.arrived n).length := by
  rw [exchangeStep]
  split_ifs with hsome
  · rfl
  · rw [not_not.mp hsome]
    rfl
  · rw [not_not.mp hsome]
    rfl

/-- The end of the stream. -/
theorem recv_end (hst : x.tool.collector = some st) (hloop : st.result = none)
    (htodo : x.tool.todo = call :: todo) (hdown : x.down = []) (n : ℕ) :
    exchangeStep x (.recv n) = x ∨
      ((exchangeStep x (.recv n)).Gone ∧
        (exchangeStep x (.recv n)).tool.answered = x.tool.answered ∧
        (exchangeStep x (.recv n)).s = x.s) := by
  have harrived : x.arrived n = [] := by rw [Exchange.arrived, hdown, List.take_nil, List.take_nil]
  have hturn : getResponseTurn 512 call.multiline st (.data []) =
      { st.store [] with result := some false } :=
    getResponseTurn_zero hloop (Nat.zero_le _) rfl
  have hrecv : x.tool.recv (.data []) = x.tool.finish .unread := by
    rw [Tool.recv, hst, htodo]
    dsimp only
    rw [hturn]
  rw [exchangeStep, if_neg (not_not.mpr harrived), hrecv]
  split_ifs with hend
  · refine .inr ⟨⟨hend.2, hdown, fun st hst => ?_⟩, Tool.finish_lost htodo (.inr rfl), rfl⟩
    rw [Tool.finish_cons htodo] at hst
    cases hst
  · exact .inl rfl

/-! ## The server alone -/

/-- The server has sent `bs`, and the rest is as it was. -/
structure Stirs (tokens : List (List UInt8)) (x x' : Exchange) (bs : List UInt8) : Prop where
  dialogue : Dialogue tokens x'.s
  tool_eq : x'.tool = x.tool
  up_eq : x'.up = x.up
  sends : Sends x.s x'.s bs
  down_eq : x'.down = x.down ++ bs

def ExchangeEvent.fails : ExchangeEvent → Bool
  | .recvFails => true
  | .send _ _ | .recv _ | .serverRead _ | .serverReadEnds | .serverReadFails | .serverWrite _
  | .server _ => false

/-- `send` takes all of the request. -/
def ExchangeEvent.entire : ExchangeEvent → Bool
  | .send (.sent n) _ => 512 ≤ n
  | .send _ _ | .recvFails | .recv _ | .serverRead _ | .serverReadEnds | .serverReadFails
  | .serverWrite _ | .server _ => true

/-- Events that bring the server nothing. -/
def ExchangeEvent.stirs : ExchangeEvent → Bool
  | .serverReadEnds | .serverReadFails | .serverWrite _ | .server _ => true
  | .send _ _ | .recv _ | .recvFails | .serverRead _ => false

theorem Listens.sends (h : Listens s t []) : Sends s t [] where
  received_eq := by rw [h.received_eq, List.append_nil]
  sent_eq := by rw [h.sent_eq, List.append_nil]
  acts_eq := h.acts_eq
  unsent_eq := h.unsent_eq.symm
  cond_eq := h.cond_eq
  text_eq := by rw [h.text_eq, List.append_nil]

theorem Dialogue.stirs (h : Dialogue tokens x.s) (hev : ev.stirs = true) :
    ∃ bs, Stirs tokens x (exchangeStep x ev) bs := by
  have hstay : Stirs tokens x x [] :=
    ⟨h, rfl, rfl, (Listens.refl x.s).sends, (List.append_nil _).symm⟩
  have hread : ∀ r : ReadResult, r ≠ .again → r.bytes x.s.c.input.free = [] →
      Stirs tokens x { x with s := sessionStep x.s (.read r) } [] := by
    intro r hr hnil
    obtain ⟨hd, hl⟩ := h.read_nothing hr hnil
    exact ⟨hd, rfl, rfl, hl.sends, (List.append_nil _).symm⟩
  cases ev with
  | send | recv | recvFails | serverRead => cases hev
  | serverReadEnds =>
    rw [exchangeStep]
    split_ifs
    · exact ⟨[], hread _ (by simp) List.take_nil⟩
    · exact ⟨[], hstay⟩
  | serverReadFails => exact ⟨[], hread _ (by simp) rfl⟩
  | serverWrite r =>
    obtain ⟨hd, bs, hs⟩ := h.sends r
    refine ⟨bs, hd, rfl, rfl, hs, ?_⟩
    change x.down ++ (sent (sessionStep x.s (.write r)).log).drop _ = _
    rw [hs.sent_eq, List.drop_left]
  | server ev =>
    exact ⟨[], h.server ev, rfl, rfl, ⟨rfl, (List.append_nil _).symm, rfl, rfl, rfl, rfl⟩,
      (List.append_nil _).symm⟩

theorem Exchange.Idle.stirs (h : x.Idle tokens) (hev : ev.stirs = true) :
    (exchangeStep x ev).Idle tokens := by
  obtain ⟨bs, hs⟩ := h.dialogue.stirs hev
  have hunsent := hs.sends.unsent_eq
  rw [h.unsent_eq, eq_comm, List.append_eq_nil_iff] at hunsent
  refine ⟨hs.dialogue, ?_, ?_, ?_, hs.up_eq.trans h.up_eq, hs.sends.text_eq.trans h.text_eq, ?_,
    hunsent.2⟩
  · rw [hs.tool_eq]
    exact h.collector_eq
  · rw [hs.tool_eq, hs.sends.cond_eq]
    exact h.planned
  · rw [hs.tool_eq, hs.sends.acts_eq]
    exact h.paired
  · rw [hs.down_eq, h.down_eq, hunsent.1]
    rfl

theorem Exchange.Asked.stirs (h : x.Asked tokens piece c arg todo st) (hev : ev.stirs = true) :
    (exchangeStep x ev).Asked tokens piece c arg todo st := by
  obtain ⟨bs, hs⟩ := h.dialogue.stirs hev
  have hunsent := hs.sends.unsent_eq
  rw [h.unsent_eq, eq_comm, List.append_eq_nil_iff] at hunsent
  refine ⟨hs.dialogue, ?_, ?_, h.holding, ?_, ?_, ?_, h.isPrefix, ?_, hunsent.2⟩
  · rw [hs.tool_eq]
    exact h.todo_eq
  · rw [hs.tool_eq]
    exact h.collector_eq
  · rw [hs.tool_eq, hs.sends.cond_eq]
    exact h.planned
  · rw [hs.tool_eq, hs.sends.acts_eq]
    exact h.paired
  · rw [hs.up_eq, hs.sends.text_eq]
    exact h.text_eq
  · rw [hs.down_eq, h.down_eq, hunsent.1]
    rfl

theorem Exchange.Heard.stirs (h : x.Heard tokens call response p todo st)
    (hev : ev.stirs = true) : (exchangeStep x ev).Heard tokens call response p todo st := by
  obtain ⟨bs, hs⟩ := h.dialogue.stirs hev
  refine ⟨hs.dialogue, ?_, ?_, h.holding, h.legible, h.unfinished, ?_, ?_, ?_,
    hs.up_eq.trans h.up_eq, hs.sends.text_eq.trans h.text_eq⟩
  · rw [hs.tool_eq]
    exact h.todo_eq
  · rw [hs.tool_eq]
    exact h.collector_eq
  · rw [hs.sends.cond_eq]
    exact h.planned
  · rw [hs.tool_eq, hs.sends.acts_eq]
    exact h.paired
  · rw [hs.down_eq, List.append_assoc, ← hs.sends.unsent_eq]
    exact h.rest

/-! ## A step of each -/

/-- The next call is begun, or has failed. -/
theorem Exchange.Idle.send (h : x.Idle tokens) (htodo : x.tool.todo = .ask c arg :: todo)
    (r : SendResult) (buf : ℕ → UInt8) :
    (exchangeStep x (.send r buf)).Idle tokens ∨
      ∃ n, r = .sent n ∧ (exchangeStep x (.send r buf)).Asked tokens ((requestText c arg).take n)
        c arg todo (collectorAt buf) := by
  obtain ⟨s, ⟨todo', collector, endings⟩, up, down⟩ := x
  obtain ⟨hd, hcollector, hplanned, hpaired, hup, htext, hdown, hunsent⟩ := h
  dsimp only at hd hcollector hplanned hpaired hup htext hdown hunsent htodo
  subst hcollector hup hdown htodo
  have hlost : Exchange.Idle tokens
      ⟨s, Tool.finish ⟨.ask c arg :: todo, none, endings⟩ .unsent, [], []⟩ := by
    refine ⟨hd, rfl, ?_, ?_, rfl, htext, rfl, hunsent⟩
    · exact hplanned.next (fun _ hret => by cases hret) fun hc => hc
    · rw [Tool.finish_lost rfl (.inl rfl)]
      exact hpaired
  cases r with
  | sent n =>
    refine .inr ⟨n, rfl, hd, rfl, rfl, collectorAt_holding buf, hplanned, hpaired, ?_,
      List.take_prefix _ _, rfl, hunsent⟩
    dsimp only [exchangeStep, Tool.send]
    rw [htext]
    rfl
  | again => exact .inl hlost
  | error => exact .inl hlost

/-- What the server makes of the request. -/
theorem Responds.does {tok : MgmtToken} {cond : Cond} (hcond : cond ∈ c.stages)
    (harg : c.hasArg = true → Sendable arg) (hone : OneToken cond (requestText c arg) tok)
    (hadmits : c.admits tok.cmd = true)
    (herror : tok.cmd = .invalidCmd ∨ tok.cmd = .invalidArgs → response.head? = some 0x2d) :
    Does c arg ⟨tok.cmd, (tok.pair (requestText c arg)).2, response⟩ := by
  refine ⟨hadmits, fun hplus => ?_, fun haccepts hc hne => ?_⟩
  · simp only [MgmtCommands.admits, Bool.or_eq_true, decide_eq_true_eq] at hadmits
    rcases hadmits with (hserved | hbad) | hbad
    · exact hserved
    · exact absurd (herror (.inl hbad)) hplus
    · exact absurd (herror (.inr hbad)) hplus
  · obtain ⟨tok', hnext, hpair, -⟩ :=
      nextToken_request hcond haccepts (expand_fits harg) [] hc hne
    rw [List.append_nil, hone.next, Option.some.injEq] at hnext
    rw [List.append_nil, ← hnext] at hpair
    exact ⟨congrArg Prod.fst hpair, congrArg Prod.snd hpair⟩

/-- The server reads, and waits for the rest or answers. -/
theorem Exchange.Asked.serverRead (h : x.Asked tokens piece c arg todo st) (n : ℕ)
    (hdot : ∀ u ∈ x.s.server.w.users, u.username ≠ [0x2e]) :
    (exchangeStep x (.serverRead n)).Asked tokens piece c arg todo st ∨
      (piece = requestText c arg ∧ ∃ response,
        (exchangeStep x (.serverRead n)).Heard tokens (.ask c arg) response [] todo st) := by
  have hplanned := h.planned
  rw [h.todo_eq] at hplanned
  obtain ⟨c', arg', heq, harg, hstages, -⟩ := hplanned.head
  cases heq
  obtain ⟨tok, hone, hadmits, hbound⟩ := request_token x.s.c.input.cond harg
  rw [exchangeStep]
  split_ifs with hnil
  · exact .inl h
  have hbytes : (ReadResult.data (x.up.take n)).bytes x.s.c.input.free <+: x.up :=
    (List.take_prefix _ _).trans (List.take_prefix _ _)
  have hprefix := h.isPrefix
  rw [← h.text_eq] at hprefix
  obtain ⟨hd, hcases⟩ := h.dialogue.read (r := .data (x.up.take n)) (by simp) h.unsent_eq hdot hone
    (((List.prefix_append_right_inj _).mpr hbytes).trans hprefix) hbound
  generalize (ReadResult.data (x.up.take n)).bytes x.s.c.input.free = bs at hbytes hcases
  generalize sessionStep x.s (.read (.data (x.up.take n))) = s at hd hcases
  dsimp only
  obtain ⟨up, hup⟩ := hbytes
  have hdrop : ∀ {bs' up'}, bs' ++ up' = x.up → received s.log = received x.s.log ++ bs' →
      x.up.drop ((received s.log).length - (received x.s.log).length) = up' := by
    intro bs' up' hup' hrec
    rw [hrec, List.length_append, Nat.add_sub_cancel_left, ← hup', List.drop_left]
  have hmore : ∀ {bs' up'}, bs' ++ up' = x.up → Listens x.s s bs' → Exchange.Asked tokens { x with
      s := s, up := x.up.drop ((received s.log).length - (received x.s.log).length) } piece c arg
        todo st := by
    intro bs' up' hup' hl
    refine ⟨hd, h.todo_eq, h.collector_eq, h.holding, ?_, ?_, ?_, h.isPrefix, h.down_eq,
      hl.unsent_eq.trans h.unsent_eq⟩
    · rw [hl.cond_eq]
      exact h.planned
    · rw [hl.acts_eq]
      exact h.paired
    · rw [hdrop hup' hl.received_eq, hl.text_eq, List.append_assoc, hup']
      exact h.text_eq
  rcases hcases with hquiet | hl | hr
  · exact .inl (hmore (List.nil_append _) hquiet)
  · exact .inl (hmore hup hl)
  · obtain ⟨r, hformed, hacts, hunsent, herror, hlogin⟩ := hr.answer
    have hdoes := Responds.does hstages harg hone hadmits herror
    have hempty : up = [] := by
      have hle := hprefix.length_le
      rw [← hr.whole, ← hup] at hle
      simp only [List.length_append] at hle
      exact List.eq_nil_of_length_eq_zero (by omega)
    rw [hempty, List.append_nil] at hup
    have hwhole : piece = requestText c arg := by rw [← h.text_eq, ← hup, hr.whole]
    have hlegible : Legible (.ask c arg) r.response := hformed.legible hadmits herror
    refine .inr ⟨hwhole, r.response, hd, h.todo_eq, h.collector_eq, h.holding, hlegible,
      hlegible.ne_nil.symm, ?_, ?_, ?_, ?_, hr.text_eq⟩
    · refine hplanned.next (fun hneeded hret => ?_) fun hc => ?_
      · have hplus : r.response.head? ≠ some 0x2d := by simpa [Ending.returned] using hret
        have htoken : c = .token := by simpa [ToolCall.needed] using hneeded
        have hdone : tok.cmd = c.served := hdoes.done hplus
        rw [htoken] at hdone
        exact hlogin hdone hplus
      · rw [hr.cond_eq, nextCond, hc]
        split_ifs <;> rfl
    · rw [hacts]
      exact h.paired.snoc hdoes
    · rw [h.down_eq, hunsent]
      rfl
    · exact hdrop (by rw [List.append_nil, hup]) hr.received_eq

/-- There is room for all of the answer. -/
theorem Exchange.Heard.arrived (h : x.Heard tokens call response p todo st) (n : ℕ) :
    x.arrived n = x.down.take n := by
  have hrest := congrArg List.length h.rest
  have hshort := h.legible.short
  have hptr := h.holding.ptr
  have hlen : (512 : UInt64).toNat = 512 := rfl
  have htake := List.length_take_le n x.down
  rw [List.length_append, List.length_append] at hrest
  rw [Exchange.arrived, Tool.asked, h.collector_eq]
  refine List.take_of_length_le (le_of_le_of_eq ?_ (sizeAsked_eq (by omega)).symm)
  have hle : (x.down.take n).length ≤ x.down.length := List.length_take_le' n x.down
  omega

/-- The client reads, and waits for the rest or is done. -/
theorem Exchange.Heard.recv (h : x.Heard tokens call response p todo st) (n : ℕ) :
    (∃ p' st', (exchangeStep x (.recv n)).Heard tokens call response p' todo st') ∨
    ((exchangeStep x (.recv n)).Idle tokens ∧
      (exchangeStep x (.recv n)).tool.endings = x.tool.endings ++ [(call, .answered response)]) ∨
    (x.down = [] ∧ (exchangeStep x (.recv n)).Gone ∧
      (exchangeStep x (.recv n)).tool.answered = x.tool.answered ∧
      (exchangeStep x (.recv n)).s = x.s) := by
  by_cases hnil : x.down.take n = []
  · have harrived : x.arrived n = [] := by rw [Exchange.arrived, hnil, List.take_nil]
    by_cases hdown : x.down = []
    · rcases recv_end h.collector_eq h.holding.result h.todo_eq hdown n with heq | ⟨hgone, hrest⟩
      · rw [heq]
        exact .inl ⟨p, st, h⟩
      · exact .inr (.inr ⟨hdown, hgone, hrest⟩)
    · rw [exchangeStep, if_neg (not_not.mpr harrived), if_neg fun hend => hdown hend.1]
      exact .inl ⟨p, st, h⟩
  obtain ⟨down, hdown⟩ := List.take_prefix n x.down
  generalize hbs : x.down.take n = bs at hnil hdown
  have hrest := h.rest
  rw [← hdown, List.append_assoc, ← List.append_assoc p] at hrest
  have hp : p ++ bs <+: response := ⟨_, hrest⟩
  have harrived : x.arrived n = bs := by rw [h.arrived, hbs]
  rw [exchangeStep, harrived, hbs, if_pos hnil, ← hdown, List.drop_left, Tool.recv, h.collector_eq,
    h.todo_eq]
  dsimp only
  rcases h.holding.turn h.legible hnil hp with ⟨hall, hres, hstr⟩ | ⟨hunfinished, hmore⟩
  · -- the answer is complete
    rw [hres]
    dsimp only
    rw [hstr]
    have hempty : down ++ bufferReadPtr x.s.c.writeBuf = [] := by
      rw [← hall] at hrest
      exact List.append_right_eq_self.mp hrest
    rw [List.append_eq_nil_iff] at hempty
    refine .inr (.inl ⟨⟨h.dialogue, ?_, ?_, ?_, h.up_eq, h.text_eq, hempty.1, hempty.2⟩, ?_⟩)
    · rw [Tool.finish_cons h.todo_eq]
    · rw [Tool.finish_cons h.todo_eq]
      exact h.planned
    · rw [Tool.finish_answered h.todo_eq]
      exact h.paired
    · rw [Tool.finish_cons h.todo_eq]
  · rw [hmore.result]
    exact .inl ⟨_, _, h.dialogue, rfl, rfl, hmore, h.legible, hunfinished, h.planned, h.paired,
      hrest, h.up_eq, h.text_eq⟩

theorem sessionStep_closed (h : s.closed = true) (r : ReadResult) (r' : SendResult) :
    sessionStep s (.read r) = s ∧ sessionStep s (.write r') = s := by
  have hidle : s.idle = true := by rw [Session.idle, h, Bool.true_or]
  exact ⟨if_pos (by rw [hidle, Bool.true_or]), if_pos (by rw [hidle, Bool.true_or])⟩

/-- Nothing is asked any more, and nothing answered. -/
structure Exchange.Ceased (x x' : Exchange) : Prop where
  gone : x'.Gone
  answered_eq : x'.tool.answered = x.tool.answered
  acts_eq : acts x'.s.log = acts x.s.log

theorem Exchange.Gone.step (h : x.Gone) (ev : ExchangeEvent) (hev : ev.fails = false) :
    x.Ceased (exchangeStep x ev) := by
  have hread : ∀ r, sessionStep x.s (.read r) = x.s :=
    fun r => (sessionStep_closed h.closed r .again).1
  have hstay : x.Ceased x := ⟨h, rfl, rfl⟩
  cases ev with
  | send r buf =>
    obtain ⟨s, ⟨todo, collector, endings⟩, up, down⟩ := x
    cases collector with
    | some st =>
      rw [exchangeStep_send rfl]
      exact hstay
    | none =>
      obtain ⟨hclosed, hdown, hloop⟩ := h
      cases todo with
      | nil => exact ⟨⟨hclosed, hdown, hloop⟩, rfl, rfl⟩
      | cons call todo =>
        cases call with
        | hello => exact ⟨⟨hclosed, hdown, hloop⟩, rfl, rfl⟩
        | ask c arg =>
          have hlost : Exchange.Ceased ⟨s, ⟨.ask c arg :: todo, none, endings⟩, up, down⟩
              ⟨s, Tool.finish ⟨.ask c arg :: todo, none, endings⟩ .unsent, up ++ [], down⟩ :=
            ⟨⟨hclosed, hdown, fun st hst => by cases hst⟩, Tool.finish_lost rfl (.inl rfl), rfl⟩
          cases r with
          | sent n =>
            refine ⟨⟨hclosed, hdown, fun st hst => ?_⟩, rfl, rfl⟩
            cases hst
            rfl
          | again => exact hlost
          | error => exact hlost
  | recv n =>
    cases hst : x.tool.collector with
    | none =>
      rw [exchangeStep_recv hst]
      exact hstay
    | some st =>
      cases htodo : x.tool.todo with
      | nil =>
        have harrived : x.arrived n = [] := by
          rw [Exchange.arrived, h.down_eq, List.take_nil, List.take_nil]
        have hrecv : x.tool.recv (.data []) = x.tool := by rw [Tool.recv, hst, htodo]
        rw [exchangeStep, if_neg (not_not.mpr harrived), hrecv]
        split_ifs
        · exact hstay
        · exact hstay
      | cons call todo =>
        rcases recv_end hst (h.loop st hst) htodo h.down_eq n with heq | ⟨hgone, hanswered, hs⟩
        · rw [heq]
          exact hstay
        · exact ⟨hgone, hanswered, by rw [hs]⟩
  | recvFails => cases hev
  | serverRead n =>
    rw [exchangeStep, hread]
    split_ifs
    · exact hstay
    · exact ⟨⟨h.closed, h.down_eq, h.loop⟩, rfl, rfl⟩
  | serverReadEnds =>
    rw [exchangeStep, hread]
    split_ifs
    · exact hstay
    · exact hstay
  | serverReadFails =>
    rw [exchangeStep, hread]
    exact hstay
  | serverWrite r =>
    rw [exchangeStep, (sessionStep_closed h.closed .again r).2, List.drop_length, List.append_nil]
    exact hstay
  | server ev => exact ⟨⟨h.closed, h.down_eq, h.loop⟩, rfl, rfl⟩

/-- No user is called by a dot, and the client's `read` does not fail. -/
def Plainly (x : Exchange) (ev : ExchangeEvent) : Prop :=
  (∀ u ∈ x.s.server.w.users, u.username ≠ [0x2e]) ∧ ev.fails = false

instance (x : Exchange) (ev : ExchangeEvent) : Decidable (Plainly x ev) :=
  inferInstanceAs (Decidable (_ ∧ _))

theorem Talk.step (h : Talk tokens x whole) (ev : ExchangeEvent) (hok : Plainly x ev)
    (hwhole : whole → ev.entire = true) : Talk tokens (exchangeStep x ev) whole := by
  obtain ⟨hdot, hev⟩ := hok
  cases h with
  | idle h =>
    cases ev with
    | send r buf =>
      cases htodo : x.tool.todo with
      | nil =>
        have hsend : exchangeStep x (.send r buf) = x := by
          rw [exchangeStep, Tool.send, h.collector_eq, htodo]
          exact congrArg (Exchange.mk x.s x.tool · x.down) (List.append_nil x.up)
        rw [hsend]
        exact .idle h
      | cons call todo =>
        have hplanned := h.planned
        rw [htodo] at hplanned
        obtain ⟨c, arg, rfl, harg, -⟩ := hplanned.head
        rcases h.send htodo r buf with hidle | ⟨n, rfl, hasked⟩
        · exact .idle hidle
        · refine .asked hasked fun hw => List.take_of_length_le ?_
          have hlong : 512 ≤ n := by simpa [ExchangeEvent.entire] using hwhole hw
          have hlen := requestLine_length harg
          rw [requestText_eq harg, List.length_append]
          exact Nat.le_trans (Nat.add_le_add_right hlen 2) (by omega)
    | recv n =>
      rw [exchangeStep_recv h.collector_eq]
      exact .idle h
    | recvFails => cases hev
    | serverRead n =>
      rw [exchangeStep, h.up_eq, List.take_nil, if_pos rfl]
      exact .idle h
    | serverReadEnds | serverReadFails | serverWrite | server => exact .idle (h.stirs rfl)
  | asked h hpiece =>
    cases ev with
    | send r buf =>
      rw [exchangeStep_send h.collector_eq]
      exact .asked h hpiece
    | recv n =>
      rcases recv_end h.collector_eq h.holding.result h.todo_eq h.down_eq n with
        heq | ⟨hgone, hanswered, hs⟩
      · rw [heq]
        exact .asked h hpiece
      · refine .gone hgone ?_
        rw [hanswered, hs]
        exact .collected h.paired
    | recvFails => cases hev
    | serverRead n =>
      rcases h.serverRead n hdot with hasked | ⟨-, response, hheard⟩
      · exact .asked hasked hpiece
      · exact .heard hheard
    | serverReadEnds | serverReadFails | serverWrite | server => exact .asked (h.stirs rfl) hpiece
  | heard h =>
    cases ev with
    | send r buf =>
      rw [exchangeStep_send h.collector_eq]
      exact .heard h
    | recv n =>
      rcases h.recv n with ⟨p', st', hheard⟩ | ⟨hidle, -⟩ | ⟨-, hgone, hanswered, hs⟩
      · exact .heard hheard
      · exact .idle hidle
      · refine .gone hgone ?_
        rw [hanswered, hs]
        exact h.paired.inOrder
    | recvFails => cases hev
    | serverRead n =>
      rw [exchangeStep, h.up_eq, List.take_nil, if_pos rfl]
      exact .heard h
    | serverReadEnds | serverReadFails | serverWrite | server => exact .heard (h.stirs rfl)
  | gone h horder =>
    have hceased := h.step ev hev
    refine .gone hceased.gone ?_
    rw [hceased.answered_eq, hceased.acts_eq]
    exact horder

theorem openSession_dialogue {server : Server} (hk : Kempt server) (tokens : List (List UInt8))
    (sock : ℤ) (raw : RawMgmt) : Dialogue tokens (openSession server tokens sock raw) ∧
      bufferReadPtr (openSession server tokens sock raw).c.writeBuf = hello ∧
      (openSession server tokens sock raw).c.input.text = [] := by
  have hfit : hello.length ≤ bufferWritePtr (bufferInit mgmtBuffsize raw.write) := by
    have hlen : hello.length ≤ mgmtBuffsize := by decide
    exact hlen
  have hroomy : ∀ m, Spacious (bufferInit mgmtBuffsize m) := fun m => ⟨rfl, fun _ => rfl⟩
  obtain ⟨hw, hput⟩ := (hroomy raw.write).writeResponse hfit
  have htext : (openSession server tokens sock raw).c.input.text = [] := by
    have hlen : (openSession server tokens sock raw).c.input.lim -
        (openSession server tokens sock raw).c.input.tok = 0 := Nat.sub_self mgmtBuffsize
    rw [Input.text, hlen, slice_zero]
  refine ⟨⟨(openSession_segmented server tokens sock raw).1, hk, hw, hroomy raw.pending, rfl, ?_,
    .inr htext⟩, hput, htext⟩
  rw [htext]
  rfl

section
variable (userpasses : List (List UInt8)) (masters monitors : List ℤ) (before : List Event)
  (tokens : List (List UInt8)) (sock : ℤ) (raw : RawMgmt) {token : List UInt8}
  {options : List (Char × List UInt8)} (htoken : Sendable token)
  (hoptions : ∀ o ∈ options, Sendable o.2) {evs : List ExchangeEvent}
include htoken hoptions

theorem openExchange_talk : Talk tokens
    (openExchange (exec step (boot (addUsers [] userpasses) masters monitors) before) tokens sock
      raw token options) whole := by
  obtain ⟨hd, hunsent, htext⟩ := openSession_dialogue
    (boot_kempt userpasses masters monitors before) tokens sock raw
  have hstart : (openExchange (exec step (boot (addUsers [] userpasses) masters monitors) before)
      tokens sock raw token options).Heard tokens .hello hello []
        (.ask .token token :: askAll options) (collectorAt fun _ => 0) :=
    ⟨hd, rfl, rfl, collectorAt_holding _, hello_legible, hello_legible.ne_nil.symm,
      .login htoken (askAll_commands hoptions), .greeted .nil, hunsent, rfl, htext⟩
  exact .heard hstart

theorem exec_talk
    (h : Along exchangeStep (fun x ev => Plainly x ev ∧ (whole → ev.entire = true))
      (openExchange (exec step (boot (addUsers [] userpasses) masters monitors) before) tokens sock
        raw token options) evs) :
    Talk tokens (exec exchangeStep
      (openExchange (exec step (boot (addUsers [] userpasses) masters monitors) before) tokens sock
        raw token options) evs) whole := by
  refine exec_invariant_along (P := fun x => Talk tokens x whole)
    (openExchange_talk userpasses masters monitors before tokens sock raw htoken hoptions) ?_ h
  intro x ev hok hx
  exact hx.step ev hok.1 hok.2

end

/-- However the two streams are cut, and whatever others do to the server meanwhile, the client
has the greeting and the answers to its own requests, in order, but for the last; and where an
answer is no error, the server has done what it was asked. -/
theorem client_is_told_what_the_server_did (userpasses : List (List UInt8))
    (masters monitors : List ℤ) (before : List Event) (tokens : List (List UInt8)) (sock : ℤ)
    (raw : RawMgmt) {token : List UInt8} {options : List (Char × List UInt8)}
    (htoken : Sendable token) (hoptions : ∀ o ∈ options, Sendable o.2) {evs : List ExchangeEvent}
    (h : Along exchangeStep Plainly
      (openExchange (exec step (boot (addUsers [] userpasses) masters monitors) before) tokens sock
        raw token options) evs) :
    let x := exec exchangeStep
      (openExchange (exec step (boot (addUsers [] userpasses) masters monitors) before) tokens sock
        raw token options) evs
    InOrder x.tool.answered (acts x.s.log) := by
  intro x
  have hx : Talk tokens x False :=
    exec_talk userpasses masters monitors before tokens sock raw htoken hoptions
      (along_mono (fun _ _ hok => ⟨hok, False.elim⟩) h)
  exact hx.order

/-- A user is added, and then the users are asked for. The streams are cut, and another is added
in between. -/
def errand : List ExchangeEvent :=
  [.serverWrite (.sent 3), .recv 2, .serverWrite (.sent 2048), .recv 512,
    .send (.sent 512) (fun _ => 0x2d), .serverRead 4, .serverRead 100, .serverWrite (.sent 5),
    .recv 5, .serverWrite (.sent 2048), .recv 512, .send (.sent 512) (fun _ => 0), .serverRead 512,
    .serverWrite (.sent 2048), .server (.addUser (asc "eva:pass")), .recv 20, .recv 512,
    .send (.sent 512) (fun _ => 0), .serverRead 512, .serverWrite (.sent 2048), .recv 512]

theorem errand_is_done :
    let x := exec exchangeStep (openExchange (exec step (boot (addUsers [] []) [] []) [])
      [asc "secret"] 3 blankRaw (asc "secret") [('7', asc "juan:pass"), ('2', [])]) errand
    x.tool.answered = [(.hello, hello), (.ask .token (asc "secret"), correctPassword),
      (.ask .addUser (asc "juan:pass"), addUserText (asc "juan")),
      (.ask .users [], asc "+OK Listing users... \r\njuan\r\neva\r\n.\r\n")] ∧
    InOrder x.tool.answered (acts x.s.log) := by
  refine ⟨by decide +kernel, ?_⟩
  exact client_is_told_what_the_server_did [] [] [] [] [asc "secret"] 3 blankRaw (by decide)
    (by decide) (by decide +kernel)

end

end Socks5d

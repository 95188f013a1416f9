import Socks5d.Exchange

/-! # Calls of the management client that end

The client waits for an answer with a `read` that blocks. As long as its requests go out whole,
there is always a way to the answer. A piece of a request has none. -/

namespace Socks5d
open Memory EventRun

section
variable {tokens : List (List UInt8)} {x : Exchange} {s : Session} {c : MgmtCommands}
  {arg response piece p : List UInt8} {call : ToolCall} {todo : List ToolCall} {st : Collector}
  {ev : ExchangeEvent} {whole : Prop} {l : List (ToolCall × List UInt8)}

/-! ## Interests -/

/-- The selector is asked for what the session waits for. -/
structure Awake (s : Session) : Prop where
  read : s.interest.read = true
  write : bufferReadPtr s.c.writeBuf ≠ [] → s.interest.write = true

theorem openSession_awake (server : Server) (tokens : List (List UInt8)) (sock : ℤ)
    (raw : RawMgmt) : Awake (openSession server tokens sock raw) := ⟨rfl, fun _ => rfl⟩

/-- A read that brings something. -/
theorem sessionStep_read (hidle : s.idle = false) (hread : s.interest.read = true)
    (hpending : bufferReadPtr s.c.pendingBuf = []) {r : ReadResult} (hr : r ≠ .again)
    (hbytes : r.bytes s.c.input.free ≠ []) : sessionStep s (.read r) =
      { processMgmtClient (filled r s) with interest := opWrite ||| opRead } := by
  have hcan : bufferCanRead s.c.pendingBuf = false := by
    have hno := mt bufferCanRead_iff.mp (not_not.mpr hpending)
    simpa using hno
  have heof : ¬ checkEOF (fillBuffer s.c.input r).2 r.isAgain = true :=
    fun h => hbytes ((checkEOF_fillBuffer hr).mp h)
  rw [sessionStep, hidle, hread, if_neg (by decide), handleMgmtRead, hcan, if_neg (by decide),
    if_neg heof]
  rfl

/-- A write with something to send. -/
theorem sessionStep_write (hidle : s.idle = false) (hwrite : s.interest.write = true)
    (hpending : bufferReadPtr s.c.pendingBuf = []) (hunsent : bufferReadPtr s.c.writeBuf ≠ [])
    (r : SendResult) : sessionStep s (.write r) = sendOut r s := by
  have hcan : bufferCanRead s.c.pendingBuf = false := by
    have hno := mt bufferCanRead_iff.mp (not_not.mpr hpending)
    simpa using hno
  have hblock : unblock s = s := by
    rw [unblock, hcan]
    rfl
  rw [sessionStep, hidle, hwrite, if_neg (by decide), handleMgmtWrite, hcan,
    bufferCanRead_iff.mpr hunsent, if_neg (by decide), hblock]
  rfl

theorem sendOut_interest (r : SendResult) (s : Session) : (sendOut r s).interest = s.interest := by
  rcases sendOut_cases r s with heq | ⟨heq, -⟩
  · rw [heq]
    rfl
  · rw [heq]
    rfl

theorem Awake.sessionStep (h : Awake s) (hpending : bufferReadPtr s.c.pendingBuf = [])
    (ev : MgmtEvent) : Awake (sessionStep s ev) := by
  cases ev with
  | read r =>
    rcases read_cases r s with heq | ⟨-, -, ⟨-, heq⟩ | ⟨-, -, heq⟩⟩
    · rw [heq]
      exact h
    · rw [heq]
      exact ⟨h.read, h.write⟩
    · rw [heq]
      exact ⟨rfl, fun _ => rfl⟩
  | write r =>
    by_cases hout : s.idle = false ∧ s.interest.write = true
    · by_cases hunsent : bufferReadPtr s.c.writeBuf = []
      · -- there is nothing to send
        have hcan : ∀ b : Buffer, bufferReadPtr b = [] → bufferCanRead b = false := by
          intro b hb
          have hno := mt bufferCanRead_iff.mp (not_not.mpr hb)
          simpa using hno
        rw [Socks5d.sessionStep, hout.1, hout.2, if_neg (by decide), handleMgmtWrite,
          hcan _ hunsent, hcan _ hpending, if_pos (by decide)]
        exact ⟨rfl, fun hno => absurd hunsent hno⟩
      · rw [sessionStep_write hout.1 hout.2 hpending hunsent]
        refine ⟨?_, fun _ => ?_⟩
        · rw [sendOut_interest]
          exact h.read
        · rw [sendOut_interest]
          exact hout.2
    · have hstay : Socks5d.sessionStep s (.write r) = s := by
        rw [Socks5d.sessionStep, if_pos]
        rcases not_and_or.mp hout with hidle | hwrite
        · simp [hidle]
        · simp [hwrite]
      rw [hstay]
      exact h
  | server e => exact ⟨h.read, h.write⟩

theorem Talk.awake (h : Talk tokens x whole) (ha : Awake x.s) (ev : ExchangeEvent) :
    Awake (exchangeStep x ev).s := by
  have hstep : ∀ e, Awake (sessionStep x.s e) := by
    intro e
    cases h with
    | idle h => exact ha.sessionStep h.dialogue.empty e
    | asked h => exact ha.sessionStep h.dialogue.empty e
    | heard h => exact ha.sessionStep h.dialogue.empty e
    | gone h =>
      cases e with
      | read r =>
        rw [(sessionStep_closed h.closed r .again).1]
        exact ha
      | write r =>
        rw [(sessionStep_closed h.closed .again r).2]
        exact ha
      | server e => exact ⟨ha.read, ha.write⟩
  cases ev with
  | send | recvFails => exact ha
  | recv n =>
    rw [exchangeStep]
    split_ifs <;> exact ha
  | serverRead n =>
    rw [exchangeStep]
    split_ifs
    · exact ha
    · exact hstep (.read (.data (x.up.take n)))
  | serverReadEnds =>
    rw [exchangeStep]
    split_ifs
    · exact hstep (.read (.data []))
    · exact ha
  | serverReadFails => exact hstep (.read .error)
  | serverWrite r => exact hstep (.write r)
  | server e => exact hstep (.server e)

/-! ## To the end of a call -/

/-- The rest of the answer is sent and read. -/
theorem Exchange.Heard.completes (h : x.Heard tokens call response p todo st) (ha : Awake x.s)
    (hidle : x.s.idle = false) :
    (exec exchangeStep x [.serverWrite (.sent 2048), .recv 512]).tool.endings =
      x.tool.endings ++ [(call, .answered response)] := by
  have hnext : (exchangeStep x (.serverWrite (.sent 2048))).Heard tokens call response p todo st :=
    h.stirs rfl
  have hlen := congrArg List.length h.rest
  have hshort := h.legible.short
  rw [List.length_append, List.length_append] at hlen
  have hunsent :
      bufferReadPtr (exchangeStep x (.serverWrite (.sent 2048))).s.c.writeBuf = [] := by
    change bufferReadPtr (sessionStep x.s (.write (.sent 2048))).c.writeBuf = []
    by_cases hnone : bufferReadPtr x.s.c.writeBuf = []
    · obtain ⟨-, bs, hs⟩ := h.dialogue.sends (.sent 2048)
      have hsplit := hs.unsent_eq
      rw [hnone, eq_comm, List.append_eq_nil_iff] at hsplit
      exact hsplit.2
    · have hall : bufferReadPtr (writeToSock (.sent 2048) x.s.c.writeBuf).1 = [] := by
        rw [bufferReadPtr_length] at hlen
        rw [writeToSock_readPtr, List.drop_eq_nil_iff, bufferReadPtr_length]
        exact Nat.le_of_eq (Nat.min_eq_right (by omega)).symm
      rw [sessionStep_write hidle (ha.write hnone) h.dialogue.empty hnone]
      rcases sendOut_cases (.sent 2048) x.s with heq | ⟨heq, -⟩
      · rw [heq]
        exact hall
      · rw [heq]
        exact hall
  have htool : (exchangeStep x (.serverWrite (.sent 2048))).tool = x.tool := rfl
  rw [exec_cons, exec_cons, exec_nil, ← htool]
  generalize exchangeStep x (.serverWrite (.sent 2048)) = x at hnext hunsent
  have hrest := hnext.rest
  have hlen := congrArg List.length hrest
  rw [List.length_append, List.length_append] at hlen
  rw [hunsent, List.append_nil] at hrest
  rcases hnext.recv 512 with ⟨p', st', hmore⟩ | ⟨-, hdone⟩ | ⟨hnone, -⟩
  · -- nothing is left to come
    have hdown : (exchangeStep x (.recv 512)).down = [] := by
      rw [exchangeStep_down, hnext.arrived, List.take_of_length_le (by omega), List.drop_length]
    have hs : (exchangeStep x (.recv 512)).s = x.s := exchangeStep_recv_s x 512
    have hall := hmore.rest
    rw [hdown, hs, hunsent, List.append_nil, List.append_nil] at hall
    exact absurd hall hmore.unfinished
  · exact hdone
  · rw [hnone, List.append_nil] at hrest
    exact absurd hrest hnext.unfinished

/-- The server reads the rest of the request. -/
theorem Exchange.Asked.completes
    (h : x.Asked tokens (requestText c arg) c arg todo st) (ha : Awake x.s)
    (hidle : x.s.idle = false) (hdot : ∀ u ∈ x.s.server.w.users, u.username ≠ [0x2e]) :
    ∃ response,
      (exec exchangeStep x [.serverRead 512, .serverWrite (.sent 2048), .recv 512]).tool.endings =
        x.tool.endings ++ [(.ask c arg, .answered response)] := by
  have hplanned := h.planned
  rw [h.todo_eq] at hplanned
  obtain ⟨c', arg', heq, harg, -⟩ := hplanned.head
  cases heq
  -- a request that is all there is answered
  have hquiet : ∀ {t : Session}, Dialogue tokens t → t.c.input.text ≠ requestText c arg := by
    intro t ht htext
    obtain ⟨tok, hone, -⟩ := request_token t.c.input.cond harg
    have hno := ht.quiet
    rw [htext, hone.next] at hno
    cases hno
  have hlen : x.s.c.input.text.length + x.up.length ≤ 232 := by
    rw [← List.length_append, h.text_eq, requestText_eq harg, List.length_append]
    exact Nat.add_le_add_right (requestLine_length harg) 2
  have hup : x.up ≠ [] := by
    intro hnil
    have htext := h.text_eq
    rw [hnil, List.append_nil] at htext
    exact hquiet h.dialogue htext
  have htake : x.up.take 512 = x.up := List.take_of_length_le (by omega)
  have hbytes : (ReadResult.data x.up).bytes x.s.c.input.free = x.up := by
    refine List.take_of_length_le ?_
    have hsize := h.dialogue.segmented.size
    have htext : x.s.c.input.text.length = x.s.c.input.lim - x.s.c.input.tok :=
      Input.text_length
    rw [Input.free, hsize, ← htext]
    change _ ≤ 2048 - _
    omega
  have hread := sessionStep_read hidle ha.read h.dialogue.empty (r := .data x.up) (by simp)
    (by rw [hbytes]; exact hup)
  have hserver : x.s.server.halted = none := idle_running hidle
  have horders : Orders (filled (.data x.up) x.s) (processMgmtClient (filled (.data x.up) x.s)) :=
    process_orders hserver
  have hnext : (exchangeStep x (.serverRead 512)).s = sessionStep x.s (.read (.data x.up)) ∧
      (exchangeStep x (.serverRead 512)).tool = x.tool ∧
      (exchangeStep x (.serverRead 512)).up = [] := by
    have hrec : (received (sessionStep x.s (.read (.data x.up))).log).length =
        (received x.s.log).length + x.up.length := by
      rw [hread]
      change (received (processMgmtClient _).log).length = _
      rw [processMgmtClient_received]
      simp [filled, hbytes]
    rw [exchangeStep, htake, if_neg hup]
    refine ⟨rfl, rfl, ?_⟩
    dsimp only
    rw [hrec, Nat.add_sub_cancel_left, List.drop_length]
  have hidle' : (exchangeStep x (.serverRead 512)).s.idle = false := by
    rw [hnext.1, hread]
    rw [Session.idle, Bool.or_eq_false_iff] at hidle
    change ((processMgmtClient _).closed || (processMgmtClient _).server.halted.isSome) = false
    rw [horders.closed_eq, horders.halted_eq, Bool.or_eq_false_iff]
    exact hidle
  have ha' : Awake (exchangeStep x (.serverRead 512)).s := by
    rw [hnext.1]
    exact ha.sessionStep h.dialogue.empty _
  rcases h.serverRead 512 hdot with hasked | ⟨-, response, hheard⟩
  · have htext := hasked.text_eq
    rw [hnext.2.2, List.append_nil] at htext
    exact absurd htext (hquiet hasked.dialogue)
  · have hdone := hheard.completes ha' hidle'
    rw [hnext.2.1] at hdone
    exact ⟨response, hdone⟩

/-- The request is sent. -/
theorem Exchange.Idle.completes (h : x.Idle tokens) (ha : Awake x.s) (hidle : x.s.idle = false)
    (hdot : ∀ u ∈ x.s.server.w.users, u.username ≠ [0x2e]) (htodo : x.tool.todo = call :: todo) :
    ∃ response, (exec exchangeStep x [.send (.sent 512) (fun _ => 0), .serverRead 512,
      .serverWrite (.sent 2048), .recv 512]).tool.endings =
        x.tool.endings ++ [(call, .answered response)] := by
  have hplanned := h.planned
  rw [htodo] at hplanned
  obtain ⟨c, arg, rfl, harg, -⟩ := hplanned.head
  have hall : (requestText c arg).take 512 = requestText c arg := by
    refine List.take_of_length_le ?_
    rw [requestText_eq harg, List.length_append]
    exact Nat.le_trans (Nat.add_le_add_right (requestLine_length harg) 2) (by decide)
  have hsend := Tool.send_sent h.collector_eq htodo 512 fun _ => 0
  have hasked : (exchangeStep x (.send (.sent 512) fun _ => 0)).Asked tokens (requestText c arg) c
      arg todo (collectorAt fun _ => 0) := by
    rcases h.send htodo (.sent 512) (fun _ => 0) with hidle' | ⟨n, hn, hasked⟩
    · have hnone := hidle'.collector_eq
      rw [exchangeStep, hsend] at hnone
      cases hnone
    · cases hn
      rw [hall] at hasked
      exact hasked
  have hkeep : (exchangeStep x (.send (.sent 512) fun _ => 0)).tool.endings = x.tool.endings := by
    rw [exchangeStep, hsend]
  obtain ⟨response, hdone⟩ := hasked.completes (x := exchangeStep x (.send (.sent 512) fun _ => 0))
    ha hidle hdot
  rw [hkeep] at hdone
  exact ⟨response, hdone⟩

/-- A request is sent and read, the answer is sent and read. -/
def turnTaken : List ExchangeEvent :=
  [.send (.sent 512) (fun _ => 0), .serverRead 512, .serverWrite (.sent 2048), .recv 512]

theorem exchangeStep_tool (hev : ev.stirs = true ∨ ∃ n, ev = .serverRead n) :
    (exchangeStep x ev).tool = x.tool := by
  cases ev with
  | send | recv | recvFails =>
    rcases hev with hev | ⟨n, hev⟩
    · cases hev
    · cases hev
  | serverRead n =>
    rw [exchangeStep]
    split_ifs <;> rfl
  | serverReadEnds =>
    rw [exchangeStep]
    split_ifs <;> rfl
  | serverReadFails | serverWrite | server => rfl

/-- The answer will not come. -/
def Exchange.Stuck (tokens : List (List UInt8)) (piece : List UInt8) (c : MgmtCommands)
    (arg : List UInt8) (todo : List ToolCall) (st : Collector) (l : List (ToolCall × List UInt8))
    (x : Exchange) : Prop :=
  x.tool.answered = l ∧ (x.Asked tokens piece c arg todo st ∨ x.Gone)

theorem Exchange.Stuck.step (h : x.Stuck tokens piece c arg todo st l)
    (hpiece : piece ≠ requestText c arg) (ev : ExchangeEvent) (hok : Plainly x ev) :
    (exchangeStep x ev).Stuck tokens piece c arg todo st l := by
  obtain ⟨hdot, hev⟩ := hok
  obtain ⟨hanswered, h | h⟩ := h
  · cases ev with
    | send r buf =>
      rw [exchangeStep_send h.collector_eq]
      exact ⟨hanswered, .inl h⟩
    | recv n =>
      rcases recv_end h.collector_eq h.holding.result h.todo_eq h.down_eq n with
        heq | ⟨hgone, hsame, -⟩
      · rw [heq]
        exact ⟨hanswered, .inl h⟩
      · exact ⟨hsame.trans hanswered, .inr hgone⟩
    | recvFails => cases hev
    | serverRead n =>
      rcases h.serverRead n hdot with hasked | ⟨hall, -⟩
      · exact ⟨by rw [exchangeStep_tool (.inr ⟨n, rfl⟩), hanswered], .inl hasked⟩
      · exact absurd hall hpiece
    | serverReadEnds | serverReadFails | serverWrite | server =>
      exact ⟨by rw [exchangeStep_tool (.inl rfl), hanswered], .inl (h.stirs rfl)⟩
  · have hceased := h.step ev hev
    exact ⟨hceased.answered_eq.trans hanswered, .inr hceased.gone⟩

end

end Socks5d

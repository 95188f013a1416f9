import Socks5d.Segmentation

/-! # The requests of the management client: `mgmt_client_util.c` -/

namespace Socks5d
open Memory Scanner

/-! ## What the client sends -/

inductive MgmtCommands
  | capa | token | stats | users | buffsize | dissectorStatus | setBuffsize | setDissectorStatus
  | addUser
deriving DecidableEq, Repr

def commandsFormat : MgmtCommands → List UInt8
  | .capa => asc "CAPA\r\n"
  | .token => asc "TOKEN %s\r\n"
  | .stats => asc "STATS\r\n"
  | .users => asc "USERS\r\n"
  | .buffsize => asc "BUFFSIZE\r\n"
  | .dissectorStatus => asc "DISSECTOR-STATUS\r\n"
  | .setBuffsize => asc "SET-BUFFSIZE %s\r\n"
  | .setDissectorStatus => asc "SET-DISSECTOR-STATUS %s\r\n"
  | .addUser => asc "ADD-USER %s\r\n"

def maxResponseLen : ℕ := 512

/-- `printf` with `%s` as the only conversion. -/
def expand : List UInt8 → List UInt8 → List UInt8
  | 0x25 :: 0x73 :: f, arg => arg ++ expand f arg
  | c :: f, arg => c :: expand f arg
  | [], _ => []

def MgmtCommands.hasArg : MgmtCommands → Bool
  | .token | .setBuffsize | .setDissectorStatus | .addUser => true
  | .capa | .stats | .users | .buffsize | .dissectorStatus => false

/-- What the function for a command hands to `send_text`: the format itself, or what
`snprintf` leaves in `request_buf`. -/
def requestText (c : MgmtCommands) (arg : List UInt8) : List UInt8 :=
  if c.hasArg then (expand (commandsFormat c) arg).take (maxResponseLen - 1) else commandsFormat c

/-! ## What the server should see -/

def MgmtCommands.served : MgmtCommands → MgmtCommand
  | .capa => .capa
  | .token => .token
  | .stats => .stats
  | .users => .users
  | .buffsize => .getBuffsize
  | .dissectorStatus => .getDissectorStatus
  | .setBuffsize => .setBuffsize
  | .setDissectorStatus => .setDissectorStatus
  | .addUser => .addUser

/-- The conditions of the sessions in which a request is made. -/
def MgmtCommands.stages : MgmtCommands → List Cond
  | .capa => [.pass, .trns]
  | .token => [.pass]
  | .stats | .users | .buffsize | .dissectorStatus | .setBuffsize | .setDissectorStatus
  | .addUser => [.trns]

def MgmtCommands.Accepts : MgmtCommands → List UInt8 → Prop
  | .setBuffsize, arg => ∀ b ∈ arg, isNumarg b = true
  | .setDissectorStatus, arg => arg = asc "on" ∨ arg = asc "off"
  | _, arg => ∀ b ∈ arg, isArg b = true

/-- The lexer takes `len` bytes, as this command with this argument. -/
def Recognised (inp : Input) (pr : Pair) (len : ℕ) : Prop :=
  let p := parseMgmtRequest inp
  (p.cmd, p.arg.map fun a => slice inp.buf a.1 (a.2 - a.1)) = pr ∧ p.len = len ∧
    p.input.tok = inp.tok + len

/-! ## Arguments -/

section
variable {p : UInt8 → Bool} {rule : MgmtRule} {others : List MgmtThread} {d : ℕ}
  {arg more : List UInt8}

/-- A rule with an argument, behind the first space. -/
def argThread (p : UInt8 → Bool) (rule : MgmtRule) : MgmtThread :=
  ⟨.star isSpace :: .tag .yyt1 :: .one p :: .star p :: .tag .yyt2 :: .star isSpace ::
    crlf, rule, []⟩

/-- The same rule, inside the argument that began at `d`. -/
def insideThread (p : UInt8 → Bool) (rule : MgmtRule) (d : ℕ) : MgmtThread :=
  ⟨.star p :: .tag .yyt2 :: .star isSpace :: crlf, rule, [(.yyt1, d)]⟩

theorem isArg_iff {b : UInt8} :
    isArg b = true ↔ isPrint b = true ∧ isSpace b = false := by
  simp [isArg]

theorem isNumarg_isArg {b : UInt8} (h : isNumarg b = true) : isArg b = true := by
  simp only [isNumarg, isArg, isPrint, isSpace, Bool.and_eq_true, decide_eq_true_eq,
    Bool.not_eq_true', decide_eq_false_iff_not, UInt8.le_iff_toNat_le, ← UInt8.toNat_inj] at h ⊢
  change 48 ≤ b.toNat ∧ b.toNat ≤ 57 at h
  change (32 ≤ b.toNat ∧ b.toNat ≤ 127) ∧ ¬ b.toNat = 32
  omega

/-- An argument that reaches the end of the line ends the rule, whatever the rules
behind it do. -/
theorem run_argument (others' : List MgmtThread) (hp : ∀ b, p b = true → isArg b = true)
    (hfirst : ∀ b pos, isArg b = true → advance others pos b = others')
    (hstay : ∀ b pos, isArg b = true → advance others' pos b = others')
    (hothers : ∀ th ∈ others', ∃ q, th.rest = .star q :: crlf ∧ q 0xd = false)
    (hne : arg ≠ []) (harg : ∀ b ∈ arg, p b = true) :
    run (argThread p rule :: others) d (arg ++ 0xd :: 0xa :: more) =
      .accept ⟨[], rule, [(.yyt1, d), (.yyt2, d + arg.length)]⟩ (d + arg.length + 2) := by
  obtain ⟨a, as, rfl⟩ := List.exists_cons_of_ne_nil hne
  generalize hin : insideThread p rule d = inside
  have hcr : p 0xd = false := by
    by_contra hc
    have hbad := hp 0xd (by simpa using hc)
    revert hbad
    decide
  have hfirst' : advance (argThread p rule :: others) d a = inside :: others' := by
    have ha := harg a List.mem_cons_self
    have hsp := (isArg_iff.mp (hp a ha)).2
    have hnext : (argThread p rule).next d a = some inside := by
      simp [argThread, Thread.next, derive, hsp, ha, ← hin, insideThread]
    rw [advance, List.filterMap_cons_some hnext]
    exact congrArg _ (hfirst a d (hp a ha))
  have hrest : ∀ th ∈ inside :: others', th.rest ≠ [] := by
    intro th hth
    rcases List.mem_cons.mp hth with rfl | hth
    · simp [← hin, insideThread]
    · obtain ⟨q, hq, -⟩ := hothers th hth
      simp [hq]
  have hloop : ∀ b ∈ as, ∀ pos, advance (inside :: others') pos b = inside :: others' := by
    intro b hb pos
    have hpb := harg b (List.mem_cons_of_mem a hb)
    have hnext : inside.next pos b = some inside := by
      simp [Thread.next, derive, hpb, ← hin, insideThread]
    rw [advance, List.filterMap_cons_some hnext]
    exact congrArg _ (hstay b pos (hp b hpb))
  have hreturn : ∀ pos, advance (inside :: others') pos 0xd =
      ⟨[.one (· = 0xa)], rule, [(.yyt1, d), (.yyt2, pos)]⟩ :: advance others' pos 0xd := by
    intro pos
    have hnext : inside.next pos 0xd =
        some ⟨[.one (· = 0xa)], rule, [(.yyt1, d), (.yyt2, pos)]⟩ := by
      simp [Thread.next, derive, hcr, isSpace, crlf, ← hin, insideThread]
    rw [advance, List.filterMap_cons_some hnext]
    rfl
  have hwait : ∀ pos, ∀ th ∈ advance others' pos 0xd, th.rest ≠ [] := by
    intro pos th hth
    obtain ⟨th', hth', hnext⟩ := List.mem_filterMap.mp hth
    obtain ⟨q, hq, hq0⟩ := hothers th' hth'
    simp only [Thread.next, hq, crlf, derive, hq0] at hnext
    simp only [Bool.false_eq_true, if_false, decide_true, if_true, Option.map_some,
      Option.some.injEq] at hnext
    rw [← hnext]
    simp
  rw [List.cons_append, run_of_advance hfirst' hrest, run_of_stay (by simp) hrest hloop,
    run_of_advance (hreturn _)]
  · have hend : ∀ pos ms l, ∃ ths', advance (⟨[.one (· = 0xa)], rule, ms⟩ :: l) pos 0xa =
        (⟨[], rule, ms⟩ : MgmtThread) :: ths' := by
      intro pos ms l
      rw [advance, List.filterMap_cons_some (b := ⟨[], rule, ms⟩)]
      · exact ⟨_, rfl⟩
      · simp [Thread.next, derive]
    obtain ⟨ths', hths'⟩ := hend (d + 1 + as.length + 1) [(.yyt1, d), (.yyt2, d + 1 + as.length)]
      (advance others' (d + 1 + as.length) 0xd)
    rw [run_accept_of_advance hths' rfl, List.length_cons, Nat.add_right_comm d 1, Nat.add_assoc d]
  · intro th hth
    rcases List.mem_cons.mp hth with rfl | hth
    · simp
    · exact hwait _ th hth

end

/-! ## Lines -/

section
variable {arg : List UInt8} (more : List UInt8)

/-- The rule for any text, which goes along with every argument. -/
def printRule : MgmtRule := ⟨some1 isPrint ++ crlf, ⟨.invalidCmd, .none⟩⟩

def setBuffsizeFault : MgmtRule :=
  ⟨word "set-buffsize" ++ some1 isSpace ++ [.star (· ≠ 0xd)] ++ crlf, ⟨.invalidArgs, .none⟩⟩

def printThread : MgmtThread := ⟨.star isPrint :: crlf, printRule, []⟩

theorem printThread_next {b : UInt8} (hb : isArg b = true) (pos : ℕ) :
    printThread.next pos b = some printThread := by
  simp [printThread, Thread.next, derive, (isArg_iff.mp hb).1]

theorem printThread_rest : ∃ q, printThread.rest = .star q :: crlf ∧ q 0xd = false :=
  ⟨isPrint, rfl, by decide⟩

/-- Two commands that only the rule for any text goes along with. -/
theorem nextToken_argument {head : List UInt8} {cond : Cond} {w : String} {cmd : MgmtCommand}
    (hhead : run (start (rulesOf cond)) 0 head = .more
      [argThread isArg ⟨word w ++ argument isArg ++ crlf, ⟨cmd, .tagged⟩⟩, printThread])
    (hne : arg ≠ []) (harg : ∀ b ∈ arg, isArg b = true) :
    nextToken cond (head ++ (arg ++ 0xd :: 0xa :: more)) =
      some ⟨cmd, some (head.length, head.length + arg.length), head.length + arg.length + 2⟩ := by
  have hprint : ∀ b pos, isArg b = true → advance [printThread] pos b = [printThread] := by
    intro b pos hb
    rw [advance, List.filterMap_cons_some (printThread_next hb pos)]
    rfl
  rw [nextToken, run_append, hhead]
  dsimp only
  rw [Nat.zero_add,
    run_argument [printThread] (fun _ h => h) hprint hprint (by simpa using printThread_rest)
    hne harg]
  rfl

theorem nextToken_setBuffsize (hne : arg ≠ []) (harg : ∀ b ∈ arg, isNumarg b = true) :
    nextToken .trns (asc "SET-BUFFSIZE " ++ (arg ++ 0xd :: 0xa :: more)) =
      some ⟨.setBuffsize, some (13, 13 + arg.length), 13 + arg.length + 2⟩ := by
  have hhead : run (start (rulesOf .trns)) 0 (asc "SET-BUFFSIZE ") = .more
      [argThread isNumarg ⟨word "set-buffsize" ++ argument isNumarg ++ crlf,
        ⟨.setBuffsize, .tagged⟩⟩,
        ⟨.star isSpace :: .star (· ≠ 0xd) :: crlf, setBuffsizeFault, []⟩, printThread] := rfl
  have hfault : ∀ b, isArg b = true → isSpace b = false ∧ b ≠ 0xd := by
    refine fun b hb => ⟨(isArg_iff.mp hb).2, ?_⟩
    rintro rfl
    revert hb
    decide
  rw [nextToken, run_append, hhead]
  dsimp only
  rw [Nat.zero_add, run_argument [⟨.star (· ≠ 0xd) :: crlf, setBuffsizeFault, []⟩, printThread]
    (fun _ => isNumarg_isArg) ?_ ?_ ?_ hne harg]
  · rfl
  · intro b pos hb
    have hnext :
        (⟨.star isSpace :: .star (· ≠ 0xd) :: crlf, setBuffsizeFault, []⟩ : MgmtThread).next
        pos b = some ⟨.star (· ≠ 0xd) :: crlf, setBuffsizeFault, []⟩ := by
      simp [Thread.next, derive, hfault b hb]
    rw [advance, List.filterMap_cons_some hnext, List.filterMap_cons_some (printThread_next hb pos)]
    rfl
  · intro b pos hb
    have hnext : (⟨.star (· ≠ 0xd) :: crlf, setBuffsizeFault, []⟩ : MgmtThread).next
        pos b = some ⟨.star (· ≠ 0xd) :: crlf, setBuffsizeFault, []⟩ := by
      simp [Thread.next, derive, hfault b hb]
    rw [advance, List.filterMap_cons_some hnext, List.filterMap_cons_some (printThread_next hb pos)]
    rfl
  · intro th hth
    rcases List.mem_pair.mp hth with rfl | rfl
    · exact ⟨_, rfl, by decide⟩
    · exact printThread_rest

end

/-! ## Requests -/

section
variable {c : MgmtCommands} {arg : List UInt8} {cond : Cond} {inp : Input}
    {t : MgmtToken} {pr : Pair}

theorem expand_append {head : List UInt8} (h : 0x25 ∉ head) (f arg : List UInt8) :
    expand (head ++ f) arg = head ++ expand f arg := by
  induction head with
  | nil => rfl
  | cons b head ih =>
    rw [List.mem_cons, not_or] at h
    rw [List.cons_append, expand, ih h.2]
    · rfl
    · rintro f' rfl
      exact absurd rfl h.1

theorem requestText_arg (head : List UInt8) (hformat : commandsFormat c = head ++ asc "%s\r\n")
    (hhead : 0x25 ∉ head) (hc : c.hasArg = true)
    (hfit : (expand (commandsFormat c) arg).length < maxResponseLen) :
    requestText c arg = head ++ (arg ++ [0xd, 0xa]) := by
  have hexp : expand (commandsFormat c) arg = head ++ (arg ++ [0xd, 0xa]) := by
    rw [hformat, expand_append hhead]
    rfl
  rw [requestText, if_pos hc, List.take_of_length_le (by omega), hexp]

/-- The token is this command with this argument, and ends with the line. -/
def MgmtToken.Is (t : MgmtToken) (c : MgmtCommands) (arg more : List UInt8) : Prop :=
  t.pair (requestText c arg ++ more) = (c.served, if c.hasArg then some arg else none) ∧
    t.len = (requestText c arg).length

theorem is_of_arg {head : List UInt8} (more : List UInt8)
    (htext : requestText c arg = head ++ (arg ++ [0xd, 0xa])) (hc : c.hasArg = true) :
    MgmtToken.Is ⟨c.served, some (head.length, head.length + arg.length),
      head.length + arg.length + 2⟩
      c arg more := by
  refine ⟨?_, ?_⟩
  · rw [MgmtToken.pair, htext, if_pos hc]
    simp
  · rw [htext]
    simp only [List.length_append, List.length_cons, List.length_nil]
    omega

theorem is_of_plain (more : List UInt8) (hc : c.hasArg = false) :
    MgmtToken.Is ⟨c.served, none, (commandsFormat c).length⟩ c arg more := by
  refine ⟨?_, ?_⟩
  · rw [MgmtToken.pair, hc]
    rfl
  · rw [requestText, hc]
    rfl

/-- A request of a command that the server knows. -/
theorem nextToken_request (hcond : cond ∈ c.stages) (harg : c.Accepts arg)
    (hfit : (expand (commandsFormat c) arg).length < maxResponseLen) (more : List UInt8)
    (hc : c ≠ .dissectorStatus) (hne : c.hasArg = true → arg ≠ []) :
    ∃ t, nextToken cond (requestText c arg ++ more) = some t ∧ t.Is c arg more := by
  have hplain : c.hasArg = false →
      nextToken cond (commandsFormat c) = some ⟨c.served, none, (commandsFormat c).length⟩ →
      ∃ t, nextToken cond (requestText c arg ++ more) = some t ∧ t.Is c arg more := by
    intro hno hnext
    refine ⟨_, ?_, is_of_plain more hno⟩
    rw [requestText, hno]
    exact nextToken_append hnext
  cases c with
  | capa =>
    rcases List.mem_pair.mp hcond with rfl | rfl
    · exact hplain rfl rfl
    · exact hplain rfl rfl
  | stats | users | buffsize =>
    obtain rfl := List.mem_singleton.mp hcond
    exact hplain rfl rfl
  | dissectorStatus => exact absurd rfl hc
  | token =>
    obtain rfl := List.mem_singleton.mp hcond
    have htext := requestText_arg (c := .token) (asc "TOKEN ") rfl (by decide) rfl hfit
    refine ⟨_, ?_, is_of_arg more htext rfl⟩
    rw [htext, List.append_assoc, List.append_assoc]
    exact nextToken_argument more rfl (hne rfl) harg
  | addUser =>
    obtain rfl := List.mem_singleton.mp hcond
    have htext := requestText_arg (c := .addUser) (asc "ADD-USER ") rfl (by decide) rfl hfit
    refine ⟨_, ?_, is_of_arg more htext rfl⟩
    rw [htext, List.append_assoc, List.append_assoc]
    exact nextToken_argument more rfl (hne rfl) harg
  | setBuffsize =>
    obtain rfl := List.mem_singleton.mp hcond
    have htext := requestText_arg (c := .setBuffsize) (asc "SET-BUFFSIZE ") rfl (by decide) rfl hfit
    refine ⟨_, ?_, is_of_arg more htext rfl⟩
    rw [htext, List.append_assoc, List.append_assoc]
    exact nextToken_setBuffsize more (hne rfl) harg
  | setDissectorStatus =>
    obtain rfl := List.mem_singleton.mp hcond
    have htext :=
      requestText_arg (c := .setDissectorStatus) (asc "SET-DISSECTOR-STATUS ") rfl
      (by decide) rfl hfit
    refine ⟨_, ?_, is_of_arg more htext rfl⟩
    rcases harg with rfl | rfl
    · exact nextToken_append rfl
    · exact nextToken_append rfl

/-- The other requests are taken for something else. -/
theorem nextToken_misread (hcond : cond ∈ c.stages) (harg : c.Accepts arg) (more : List UInt8)
    (hbad : c = .dissectorStatus ∨ (c.hasArg = true ∧ arg = [])) :
    ∃ t, nextToken cond (requestText c arg ++ more) = some t ∧ t.cmd ≠ c.served := by
  rcases hbad with rfl | ⟨hc, rfl⟩
  · obtain rfl := List.mem_singleton.mp hcond
    refine ⟨⟨.invalidCmd, none, 18⟩, nextToken_append rfl, by decide⟩
  · cases c with
    | capa | stats | users | buffsize | dissectorStatus => cases hc
    | token =>
      obtain rfl := List.mem_singleton.mp hcond
      exact ⟨⟨.invalidCmd, none, 8⟩, nextToken_append rfl, by decide⟩
    | addUser =>
      obtain rfl := List.mem_singleton.mp hcond
      exact ⟨⟨.invalidCmd, none, 11⟩, nextToken_append rfl, by decide⟩
    | setBuffsize =>
      obtain rfl := List.mem_singleton.mp hcond
      exact ⟨⟨.invalidArgs, none, 15⟩, nextToken_append rfl, by decide⟩
    | setDissectorStatus => rcases harg with h | h <;> cases h

section
variable (hs : inp.Sound) (hr : inp.Resumable) (hnew : inp.state = none ∨ inp.cur < inp.lim)
include hs hr hnew

theorem recognised_iff (ht : nextToken inp.cond inp.text = some t) (len : ℕ) :
    Recognised inp pr len ↔ t.pair inp.text = pr ∧ t.len = len := by
  have hp := parseMgmtRequest_token hs hr hnew ht
  unfold Recognised
  rw [hp]
  dsimp only
  rw [(nextToken_isToken ht).pair_eq]
  refine and_congr_right fun _ => ⟨And.left, ?_⟩
  rintro rfl
  exact ⟨rfl, rfl⟩

/-- A request that is in the buffer, whatever follows it, is taken for the command it is
meant for, with its argument and to its end, unless it asks for the state of the dissector
or leaves its argument empty. -/
theorem client_request_recognised_iff (c : MgmtCommands) (arg more : List UInt8)
    (hcond : inp.cond ∈ c.stages) (harg : c.Accepts arg)
    (hfit : (expand (commandsFormat c) arg).length < maxResponseLen)
    (htext : inp.text = requestText c arg ++ more) :
    Recognised inp (c.served, if c.hasArg then some arg else none) (requestText c arg).length ↔
      c ≠ .dissectorStatus ∧ (c.hasArg = true → arg ≠ []) := by
  refine ⟨fun hrec => ?_, fun ⟨hc, hne⟩ => ?_⟩
  · by_contra hbad
    rw [not_and_or, not_not, Classical.not_imp, not_not] at hbad
    obtain ⟨t, ht, hcmd⟩ := nextToken_misread hcond harg more hbad
    rw [← htext] at ht
    have hpair := ((recognised_iff hs hr hnew ht _).mp hrec).1
    exact hcmd (congrArg Prod.fst hpair)
  · obtain ⟨t, ht, his⟩ := nextToken_request hcond harg hfit more hc hne
    rw [← htext] at ht
    refine (recognised_iff hs hr hnew ht _).mpr ?_
    rw [htext]
    exact his

end

end

/-- A line in the buffer of a session that was let in. -/
def trnsInput (bs : List UInt8) : Input := { wholeInput bs with cond := .trns }

theorem set_buffsize_is_recognised :
    Recognised (trnsInput (asc "SET-BUFFSIZE 4096\r\n")) (.setBuffsize, some (asc "4096")) 19 := by
  have hs : (trnsInput (asc "SET-BUFFSIZE 4096\r\n")).Sound :=
    ⟨Nat.le_refl _, Nat.zero_le _, Nat.le_refl _, fun _ => rfl, fun h => absurd rfl h⟩
  have hr : (trnsInput (asc "SET-BUFFSIZE 4096\r\n")).Resumable := by
    intro ths hths
    cases hths
  exact (client_request_recognised_iff hs hr (.inl rfl) .setBuffsize (asc "4096") []
    (by decide) (by unfold MgmtCommands.Accepts; decide +kernel) (by decide +kernel)
      (by decide +kernel)).mpr
    ⟨by decide, by decide⟩

/-- Its rule wants a space, which the client does not send. -/
theorem dissector_status_is_misread :
    (trnsInput (requestText .dissectorStatus [])).text = asc "DISSECTOR-STATUS\r\n" ∧
      (parseMgmtRequest (trnsInput (requestText .dissectorStatus []))).cmd = .invalidCmd ∧
      ¬ Recognised (trnsInput (requestText .dissectorStatus []))
        (.getDissectorStatus, none) 18 := by
  unfold Recognised
  decide +kernel

end Socks5d

import Socks5d.Response
import Socks5d.ResponseBuf

/-! # The management client: `mgmt_client.c`

It makes its calls one after the other, on one connection. Behind a call that has returned false
it goes on with the next, unless it was the greeting or the login. -/

namespace Socks5d
open EventRun Memory

/-- `read_hello`, or the function of a command. -/
inductive ToolCall
  | hello
  | ask (c : MgmtCommands) (arg : List UInt8)
deriving DecidableEq, Repr

/-- What the function of a command hands to `get_response`. -/
def MgmtCommands.multiline : MgmtCommands → Bool
  | .capa | .stats | .users | .buffsize | .dissectorStatus => true
  | .token | .setBuffsize | .setDissectorStatus | .addUser => false

def ToolCall.multiline : ToolCall → Bool
  | .hello => false
  | .ask c _ => c.multiline

/-- `main` ends if it returns false. -/
def ToolCall.needed : ToolCall → Bool
  | .hello => true
  | .ask c _ => c = .token

/-- How a call ends. -/
inductive Ending
  /-- `send` has failed. -/
  | unsent
  /-- `get_response` has returned false. -/
  | unread
  | answered (response : List UInt8)
deriving DecidableEq, Repr

/-- What the call returns. -/
def Ending.returned : Ending → Bool
  | .unsent | .unread => false
  | .answered response => response.head? ≠ some 0x2d

/-- The calls behind one that has ended. -/
def ToolCall.next (call : ToolCall) (e : Ending) (todo : List ToolCall) : List ToolCall :=
  if call.needed && !e.returned then [] else todo

structure Tool where
  /-- The calls that are left, from the one it is in. -/
  todo : List ToolCall
  /-- The loop of `get_response`, if it is in there. -/
  collector : Option Collector
  endings : List (ToolCall × Ending)

/-- The string in `buff`: there is a zero at `write_ptr`. -/
def Collector.string (st : Collector) : List UInt8 := cString (slice st.mem 0 (st.writePtr + 1))

def Tool.finish (t : Tool) (e : Ending) : Tool :=
  match t.todo with
  | [] => t
  | call :: todo => ⟨call.next e todo, none, t.endings ++ [(call, e)]⟩

def collectorAt (mem : ℕ → UInt8) : Collector := ⟨mem, 0, [], none⟩

/-- `send_text`, and the bytes that `send` has taken. In `response_buf` are older answers, and the
zeros of `strtok`. -/
def Tool.send (r : SendResult) (responseBuf : ℕ → UInt8) (t : Tool) : Tool × List UInt8 :=
  match t.collector, t.todo with
  | none, .ask c arg :: _ =>
    match r with
    | .sent n =>
      ({ t with collector := some (collectorAt responseBuf) }, (requestText c arg).take n)
    | .again | .error => (t.finish .unsent, [])
  | _, _ => (t, [])

/-- What `read` is asked for. -/
def Tool.asked (t : Tool) : ℕ := (t.collector.map (sizeAsked 512)).getD 0

/-- `read` in the loop of `get_response`. -/
def Tool.recv (r : ReadResult) (t : Tool) : Tool :=
  match t.collector, t.todo with
  | some st, call :: _ =>
    let st := getResponseTurn 512 call.multiline st r
    match st.result with
    | none => { t with collector := some st }
    | some false => t.finish .unread
    | some true => t.finish (.answered st.string)
  | _, _ => t

/-- The option of a command. -/
def optionCommand : Char → Option MgmtCommands
  | '0' => some .capa
  | '1' => some .stats
  | '2' => some .users
  | '3' => some .buffsize
  | '4' => some .dissectorStatus
  | '5' => some .setBuffsize
  | '6' => some .setDissectorStatus
  | '7' => some .addUser
  | _ => none

/-- The loop of `main` over what `getopt` gives. An argument that begins with a dash ends it. -/
def askAll : List (Char × List UInt8) → List ToolCall
  | [] => []
  | (o, optarg) :: options =>
    match optionCommand o with
    | none => askAll options
    | some c =>
      if c.hasArg && optarg.head? = some 0x2d then [] else .ask c optarg :: askAll options

def toolCalls (token : List UInt8) (options : List (Char × List UInt8)) : List ToolCall :=
  .hello :: .ask .token token :: askAll options

/-- Connected, and in `read_hello`. -/
def openTool (token : List UInt8) (options : List (Char × List UInt8)) : Tool :=
  ⟨toolCalls token options, some (collectorAt fun _ => 0), []⟩

/-! ## Where answers end -/

section
variable {multiline : Bool} {text p head body : List UInt8} {names : List (List UInt8)}

/-- A line, or a line and a listing. -/
inductive Shape : Bool → List UInt8 → Prop
  | line {head : List UInt8} (hzero : 0 ∉ head) (hcr : 0xd ∉ head) :
    Shape false (head ++ [0xd, 0xa])
  | lines {head : List UInt8} {names : List (List UInt8)} (hzero : 0 ∉ head) (hcr : 0xd ∉ head)
    (hplus : head.head? = some 0x2b) (hnames : ∀ n ∈ names, 0 ∉ n ∧ 0xd ∉ n ∧ n ≠ [0x2e]) :
    Shape true (head ++ [0xd, 0xa] ++ listing names)

theorem Shape.no_zero (h : Shape multiline text) : 0 ∉ text := by
  cases h with
  | line hzero => simpa using hzero
  | lines hzero _ _ hnames =>
    simp only [List.mem_append, listing, not_or]
    refine ⟨⟨hzero, by decide⟩, fun hmem => ?_, by decide⟩
    obtain ⟨l, hl, h0⟩ := List.mem_flatten.mp hmem
    obtain ⟨n, hn, rfl⟩ := List.mem_map.mp hl
    rcases List.mem_append.mp h0 with h0 | h0
    · exact (hnames n hn).1 h0
    · exact absurd h0 (by decide)

/-- The end of an answer is where the answer ends. -/
theorem Shape.terminated_iff (h : Shape multiline text) (hp : p <+: text) :
    Terminated multiline p ↔ p = text := by
  obtain ⟨q, hq⟩ := hp
  cases h with
  | @line head _ hcr =>
    have hterm : Terminated false p ↔ eol <:+: p := by
      unfold Terminated
      simp
    rw [hterm]
    constructor
    · rintro ⟨a, b, rfl⟩
      have hsplit : head ++ 0xd :: [0xa] = a ++ 0xd :: (0xa :: (b ++ q)) := by
        rw [hq.symm]
        simp [show eol = [0xd, 0xa] from rfl]
      obtain ⟨a', -, htail⟩ := append_eq_append_return hcr hsplit
      have hlen := congrArg List.length htail
      simp only [List.length_append, List.length_cons, List.length_nil] at hlen
      have hrest : q = [] := List.eq_nil_of_length_eq_zero (by omega)
      rw [← hq, hrest, List.append_nil]
    · rintro rfl
      exact ⟨head, [], by simp [show eol = [0xd, 0xa] from rfl]⟩
  | @lines head names _ hcr hplus hnames =>
    have hhead : ∀ {r}, p ++ r = head ++ [0xd, 0xa] ++ listing names → p.head? ≠ some 0x2d := by
      intro r hr
      cases p with
      | nil => simp
      | cons c p =>
        cases head with
        | nil => cases hplus
        | cons d head =>
          cases hplus
          have hc : c = 0x2b := (List.cons.inj hr).1
          simp [hc]
    have hterm : Terminated true p ↔ eom <:+: p := by
      unfold Terminated
      simp [hhead hq]
    rw [hterm]
    constructor
    · rintro ⟨a, b, rfl⟩
      have hsplit : head ++ 0xd :: 0xa :: listing names = a ++ 0xd :: (0xa :: 0x2e :: 0xd :: 0xa ::
          (b ++ q)) := by
        have hq' := hq.symm
        simpa [show eom = [0xd, 0xa, 0x2e, 0xd, 0xa] from rfl] using hq'
      obtain ⟨a', -, htail⟩ := append_eq_append_return hcr hsplit
      have hrest := listing_end (r := b ++ q) (fun n hn => (hnames n hn).2) htail
      rw [List.append_eq_nil_iff] at hrest
      rw [← hq, hrest.2, List.append_nil]
    · rintro rfl
      obtain ⟨a, ha⟩ := listing_ends names
      exact ⟨head ++ a, [], by simp [← ha]⟩

/-- An error is one line, whatever was asked for. -/
theorem terminated_error (hminus : text.head? = some 0x2d) (hp : p <+: text) :
    Terminated multiline p ↔ Terminated false p := by
  cases p with
  | nil =>
    unfold Terminated
    cases multiline <;> simp [eol, eom, asc]
  | cons c p =>
    obtain ⟨q, rfl⟩ := hp
    have hc : (c :: p).head? = some 0x2d := hminus
    unfold Terminated
    simp [hc]

/-! ## Answers -/

/-- What the server has prepared for a client that looks for the end. -/
structure Formed (cmd : MgmtCommand) (r : Executed) : Prop where
  shape : Shape cmd.multiline r.response
  short : r.response.length < 256
  room : r.responseLen < 256
  sign : r.response.head? = some 0x2b ∨ (cmd.multiline = false ∧ r.response.head? = some 0x2d)

theorem snprintf_formed {s : Session} {cmd : MgmtCommand} (arg : Option (List UInt8))
    (hshape : Shape cmd.multiline text) (hlen : text.length < 256)
    (hsign : text.head? = some 0x2b ∨ (cmd.multiline = false ∧ text.head? = some 0x2d)) :
    Formed cmd (snprintf s arg text) := by
  have hlt : text.length < mgmtBuffsize := Nat.lt_trans hlen (by decide)
  have heq : (snprintf s arg text).response = text := snprintf_response arg hlt
  refine ⟨?_, ?_, hlen, ?_⟩
  · rw [heq]
    exact hshape
  · rw [heq]
    exact hlen
  · rw [heq]
    exact hsign

theorem Shape.of_single {status : List UInt8} {str : String} (h : 0 ∉ status ++ asc str)
    (hcr : 0xd ∉ status ++ asc str) : Shape false (single status str) := .line h hcr

theorem capaMessage_shape : Shape true capaMessage := by
  have heq : capaMessage = asc "+OK " ++ [0xd, 0xa] ++ listing [asc "TOKEN", asc "USERS",
      asc "STATS", asc "BUFFSIZE", asc "SET-BUFFSIZE", asc "DISSECTOR-STATUS",
      asc "SET-DISSECTOR-STATUS"] := by decide +kernel
  rw [heq]
  exact .lines (by decide) (by decide) rfl (by decide +kernel)

theorem decimal_no_return (n : ℕ) : 0xd ∉ decimal n := by
  intro h
  have hdigit := (decimal_digit h).1
  revert hdigit
  decide

/-- A letter and a number. -/
theorem figure_line {c : UInt8} (hzero : 0 ≠ c) (hcr : 0xd ≠ c) (hdot : c ≠ 0x2e) (n : ℕ) :
    0 ∉ c :: decimal n ∧ 0xd ∉ c :: decimal n ∧ c :: decimal n ≠ [0x2e] := by
  refine ⟨?_, ?_, fun h => hdot (List.cons.inj h).1⟩
  · simp [hzero, decimal_no_zero]
  · simp [hcr, decimal_no_return]

theorem statsText_shape (w : World) : Shape true (statsText w) := by
  have heq : statsText w = successStatus ++ asc
      " Showing stats (B)yte (H)istorical connections (C)urrent connections..." ++ [0xd, 0xa] ++
      listing [byte 'B' :: decimal w.transferredBytes.toNat, byte 'H' :: decimal
        w.allConnections.toNat, byte 'C' :: decimal
          (w.proxyClientCount + w.mgmtClientCount).toNat] := by
    simp only [statsText, single, listing, List.map_cons, List.map_nil, List.flatten_cons,
      List.flatten_nil, List.append_assoc]
    rfl
  rw [heq]
  refine .lines (by decide +kernel) (by decide +kernel) rfl ?_
  simp only [List.mem_cons, List.not_mem_nil, or_false]
  rintro n (rfl | rfl | rfl)
  · exact figure_line (by decide) (by decide) (by decide) _
  · exact figure_line (by decide) (by decide) (by decide) _
  · exact figure_line (by decide) (by decide) (by decide) _

theorem statsText_short (w : World) : (statsText w).length < 256 := by
  have hb : (decimal w.transferredBytes.toNat).length ≤ 20 :=
    decimal_length_of_lt w.transferredBytes.toNat_lt
  have hh : (decimal w.allConnections.toNat).length ≤ 20 :=
    decimal_length_of_lt w.allConnections.toNat_lt
  have hc : (decimal (w.proxyClientCount + w.mgmtClientCount).toNat).length ≤ 20 := by
    have hlt := (w.proxyClientCount + w.mgmtClientCount).toNat_lt
    exact decimal_length_of_lt (by omega)
  have hfirst : (single successStatus
      " Showing stats (B)yte (H)istorical connections (C)urrent connections...").length ≤ 100 := by
    decide +kernel
  have hletters : (asc "B").length = 1 ∧ (asc "H").length = 1 ∧ (asc "C").length = 1 ∧
      lineDelimiter.length = 2 ∧ multilineDelimiter.length = 1 := by decide
  simp only [statsText, List.length_append, hletters]
  omega

theorem valueText_shape (hzero : 0 ∉ body) (hcr : 0xd ∉ body) (hdot : body ≠ [0x2e]) :
    Shape true (valueText body) := by
  have heq : valueText body = asc "+OK " ++ [0xd, 0xa] ++ listing [body] := by
    simp only [valueText, single, listing, List.map_cons, List.map_nil, List.flatten_cons,
      List.flatten_nil, List.append_assoc]
    rfl
  rw [heq]
  exact .lines (by decide) (by decide) rfl (by simpa using ⟨hzero, hcr, hdot⟩)

theorem valueText_short (hlen : body.length ≤ 20) : (valueText body).length < 256 := by
  have hhead : (single successStatus " ").length = 6 ∧ lineDelimiter.length = 2 ∧
      multilineDelimiter.length = 1 := by decide
  simp only [valueText, List.length_append, hhead]
  omega

theorem usersText_shape {users : UserTable} (h : WellKept users)
    (hdot : ∀ u ∈ users, u.username ≠ [0x2e]) : Shape true (usersText users) := by
  rw [usersText_eq]
  refine .lines (by decide) (by decide) rfl fun n hn => ⟨?_, ?_, ?_⟩
  · obtain ⟨u, hu, rfl⟩ := List.mem_map.mp hn
    exact checkValid_nonzero (h.name u hu)
  · intro hcr
    have hno := h.name_isEol n hn 0xd hcr
    revert hno
    decide
  · obtain ⟨u, hu, rfl⟩ := List.mem_map.mp hn
    exact hdot u hu

theorem usersText_short {users : UserTable} (h : Bounded users) :
    (usersText users).length < 256 := by
  have hlines : ∀ us : UserTable, (∀ u ∈ us, u.username.length < maxUserLen) →
      (listing (us.map User.username)).length ≤ us.length * 11 + 3 := by
    intro us
    induction us with
    | nil => exact fun _ => Nat.le_refl _
    | cons u us ih =>
      intro hus
      have hu := hus u List.mem_cons_self
      have hrest := ih fun v hv => hus v (List.mem_cons_of_mem u hv)
      rw [List.map_cons, listing_cons, List.length_append, List.length_cons, List.length_cons,
        List.length_cons]
      change u.username.length < 10 at hu
      omega
  have hbody := hlines users h.name
  have hcount : users.length ≤ 20 := h.count
  have hhead : (asc "+OK Listing users... " ++ [0xd, 0xa]).length = 23 := by decide
  rw [usersText_eq, List.length_append, hhead]
  omega

/-- The line of an answer that shows a name. -/
theorem named_shape {status : List UInt8} (hstatus : 0 ∉ status ∧ 0xd ∉ status)
    (hzero : 0 ∉ body) (hcr : 0xd ∉ body) : Shape false (status ++ body ++ lineDelimiter) := by
  refine .line ?_ ?_
  · rw [List.mem_append]
    exact not_or.mpr ⟨hstatus.1, hzero⟩
  · rw [List.mem_append]
    exact not_or.mpr ⟨hstatus.2, hcr⟩

variable {s : Session}

theorem executeAddUser_formed (args arge : ℕ) (s : Session)
    (harg : ∀ a ∈ (executeAddUser args arge s).arg, a.length ≤ 230 ∧ 0xd ∉ a) :
    Formed .addUser (executeAddUser args arge s) := by
  have hzero : 0 ∉ (s.terminate arge).c.input.argText args := cString_no_zero _
  unfold executeAddUser at harg ⊢
  dsimp only at harg ⊢
  generalize (s.terminate arge).c.input.argText args = arg at harg hzero ⊢
  obtain ⟨hlen, hcr⟩ := harg arg rfl
  rw [addUser_left, ← namePart]
  have hname : namePart arg ⊆ arg := (List.takeWhile_sublist _).subset
  have hle : (namePart arg).length ≤ arg.length := (List.takeWhile_sublist _).length_le
  have hno : 0 ∉ namePart arg ∧ 0xd ∉ namePart arg :=
    ⟨fun h => hzero (hname h), fun h => hcr (hname h)⟩
  have hdelim : lineDelimiter.length = 2 := rfl
  have hadded : ∀ t : Session,
      Formed .addUser (snprintf t (some arg) (addUserText (namePart arg))) := by
    intro t
    refine snprintf_formed _ (named_shape (by decide) hno.1 hno.2) ?_ (.inl rfl)
    have hstatus : (successStatus ++ asc " Added user ").length = 15 := by decide
    rw [addUserText, List.length_append, List.length_append, hdelim, hstatus]
    omega
  have herror : ∀ t : Session,
      Formed .addUser (snprintf t (some arg) (addUserError (namePart arg))) := by
    intro t
    refine snprintf_formed _ (named_shape (by decide) hno.1 hno.2) ?_ (.inr ⟨rfl, rfl⟩)
    have hstatus : (errorStatus ++ asc " Error adding user ").length = 23 := by decide
    rw [addUserError, List.length_append, List.length_append, hdelim, hstatus]
    omega
  split_ifs
  · exact hadded _
  · exact herror _
  · exact hadded _
  · exact herror _

theorem single_formed {cmd : MgmtCommand} {status : List UInt8} {str : String} (t : Session)
    (arg : Option (List UInt8)) (hcmd : cmd.multiline = false)
    (hno : 0 ∉ status ++ asc str ∧ 0xd ∉ status ++ asc str)
    (hlen : (single status str).length < 256)
    (hsign : (single status str).head? = some 0x2b ∨ (single status str).head? = some 0x2d) :
    Formed cmd (snprintf t arg (single status str)) := by
  refine snprintf_formed arg ?_ hlen (hsign.imp id fun h => ⟨hcmd, h⟩)
  rw [hcmd]
  exact .of_single hno.1 hno.2

/-- Every answer is one that the client can tell the end of, unless a user is called by a dot. -/
theorem execute_formed {cmd : MgmtCommand} (hcmd : cmd ≠ .incomplete) (arg : Option (ℕ × ℕ))
    (hk : Kempt s.server) (hdot : ∀ u ∈ s.server.w.users, u.username ≠ [0x2e])
    (harg : ∀ a ∈ (execute cmd arg s).arg, a.length ≤ 230 ∧ 0xd ∉ a) :
    Formed cmd (execute cmd arg s) := by
  unfold execute at harg ⊢
  cases cmd with
  | incomplete => exact absurd rfl hcmd
  | invalidCmd => exact single_formed _ _ rfl (by decide) (by decide +kernel) (.inr rfl)
  | invalidArgs => exact single_formed _ _ rfl (by decide) (by decide +kernel) (.inr rfl)
  | quit => exact single_formed _ _ rfl (by decide) (by decide +kernel) (.inl rfl)
  | capa => exact snprintf_formed _ capaMessage_shape (by decide +kernel) (.inl rfl)
  | stats => exact snprintf_formed _ (statsText_shape _) (statsText_short _) (.inl rfl)
  | users =>
    have hhead : usersHead.length = 23 := by decide
    refine ⟨usersText_shape hk.users hdot, usersText_short hk.users.bounded, ?_, .inl rfl⟩
    change usersHead.length < 256
    omega
  | getBuffsize =>
    have hlt : s.server.w.buffsize < 2 ^ 64 := Nat.lt_trans hk.size (by decide)
    have hdigits : decimal s.server.w.buffsize ≠ [0x2e] := by
      intro heq
      have hdigit := (decimal_digit (n := s.server.w.buffsize) (c := 0x2e) (by rw [heq]; simp)).1
      revert hdigit
      decide
    exact snprintf_formed _ (valueText_shape (decimal_no_zero _) (decimal_no_return _) hdigits)
      (valueText_short (decimal_length_of_lt hlt)) (.inl rfl)
  | getDissectorStatus =>
    dsimp only
    split_ifs
    · exact snprintf_formed _ (valueText_shape (by decide) (by decide) (by decide))
        (valueText_short (by decide)) (.inl rfl)
    · exact snprintf_formed _ (valueText_shape (by decide) (by decide) (by decide))
        (valueText_short (by decide)) (.inl rfl)
  | token =>
    dsimp only [executeToken]
    split_ifs
    · exact single_formed _ _ rfl (by decide) (by decide +kernel) (.inl rfl)
    · exact single_formed _ _ rfl (by decide) (by decide +kernel) (.inr rfl)
  | setBuffsize =>
    dsimp only [executeSetBuffsize]
    split_ifs
    · exact single_formed _ _ rfl (by decide) (by decide +kernel) (.inl rfl)
    · exact single_formed _ _ rfl (by decide) (by decide +kernel) (.inr rfl)
  | setDissectorStatus =>
    dsimp only [executeSetDissector]
    split_ifs
    · exact single_formed _ _ rfl (by decide) (by decide +kernel) (.inl rfl)
    · exact single_formed _ _ rfl (by decide) (by decide +kernel) (.inl rfl)
    · exact single_formed _ _ rfl (by decide) (by decide +kernel) (.inr rfl)
  | addUser => exact executeAddUser_formed _ _ s harg

end

end Socks5d

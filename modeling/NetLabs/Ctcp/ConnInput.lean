/-
NetLabs.Ctcp.ConnInput — `conn_input` of `lab3/ctcp_sys_internal.c`.

For a socket to the web `conn_input` turns a newline at the end of what it has
read into CR LF, and otherwise reads one more byte into the room it has left
for the CR. Three things go wrong. `add_network_line_ending` also writes a NUL,
for which there is no room after a full read. The second `read` is added to
the count whatever it returns: without more input it returns -1, and the last
byte of the first one is lost, or taken for the end of input if it is the only
one. And a newline that the second `read` returns stays as it is.

A call gets the caller's buffer and the results of its reads
(`InputCall`), and its accesses to the buffer are checked. `Good` says when
nothing goes wrong, and it is exact (`input_faithful`).
-/
import NetLabs.Lib.Access
import NetLabs.Lib.Outcome
import NetLabs.Ctcp.Datagram
import NetLabs.Ctcp.Read

namespace NetLabs.Ctcp

open NetLabs.Lib NetLabs.Lib.Access

/-! ## Reads -/

/-- What a non-blocking `read` returns: a number of bytes, or -1 with `EAGAIN`
or another error. -/
inductive ReadResult where
  | got (bytes : List UInt8)
  | again
  | failed
  deriving DecidableEq

namespace ReadResult

/-- The bytes a read stores. -/
def bytes : ReadResult → List UInt8
  | got bs => bs
  | again | failed => []

/-- The value a read returns. -/
def ret : ReadResult → Int
  | got bs => bs.length
  | again | failed => -1

/-- The read returned 0 or a real error. -/
def Ends : ReadResult → Prop
  | got bs => bs = []
  | again => False
  | failed => True

end ReadResult

def newline : UInt8 := 0x0a
def carriageReturn : UInt8 := 0x0d

/-- The EOF character of the tester. -/
def eofChar : UInt8 := 0x1a

/-- How many bytes the first `read` is asked for. -/
def Settings.request (config : Settings) (len : Nat) : Nat :=
  if config.runProgram || config.unixSocket then len else len - 1

/-- A call of `conn_input(conn, buf, len)`: the buffer, which has room for at
least a byte, and the results of the reads, as far as they are made. -/
structure InputCall (config : Settings) where
  buf : List UInt8
  nonempty : buf ≠ []
  first : ReadResult
  fits : first.bytes.length ≤ config.request buf.length
  second : ReadResult
  single : second.bytes.length ≤ 1

/-! ## `conn_input` -/

/-- `add_network_line_ending(webserver, buf, len)`. -/
def addNetworkLineEnding (webserver : Bool) (buf : List UInt8) (len : Nat) :
    Access (Bool × List UInt8) :=
  if !webserver then .ok (false, buf)
  else do
    let last ← Access.bytes buf (len - 1) 1
    if last ≠ [newline] then .ok (false, buf)
    else do
      let buf ← write buf (len - 1) [carriageReturn]
      let buf ← write buf len [newline]
      let buf ← write buf (len + 1) [0]
      .ok (true, buf)

/-- What a call returns and leaves: the buffer, `conn->read_eof` and the reads
it has made. -/
structure InputResult where
  ret : Int
  buf : List UInt8
  readEof : Bool
  made : List ReadResult

/-- The end of `conn_input`, where `r` has been computed. -/
def inputResult (testMode : Bool) (first : ReadResult) (r : Int) (buf : List UInt8)
    (made : List ReadResult) : InputResult :=
  -- a negative `r` is the value of the first read, and `errno` is its error
  if r = 0 ∨ (r < 0 ∧ first ≠ .again) ∨ (testMode = true ∧ r > 0 ∧ buf.headD 0 = eofChar) then
    ⟨-1, buf, true, made⟩
  else if r < 0 then ⟨0, buf, false, made⟩
  else ⟨r, buf, false, made⟩

/-- `conn_input(conn, buf, len)`, where `testMode` is
`test_debug_on || lab5_mode`. -/
def connInput (config : Settings) (testMode readEof : Bool) (c : InputCall config) :
    Access InputResult :=
  if readEof then .ok ⟨-1, c.buf, true, []⟩
  else do
    let buf ← write c.buf 0 c.first.bytes
    let r := c.first.ret
    if config.runProgram ∨ config.unixSocket ∨ r ≤ 0 then
      .ok (inputResult testMode c.first r buf [c.first])
    else do
      let (added, buf) ← addNetworkLineEnding (!config.unixSocket) buf r.toNat
      if added then .ok (inputResult testMode c.first (r + 1) buf [c.first])
      else do
        let buf ← write buf r.toNat c.second.bytes
        .ok (inputResult testMode c.first (r + c.second.ret) buf [c.first, c.second])

/-- The bytes a call returns. -/
def InputResult.chunk (res : InputResult) : List UInt8 := res.buf.take res.ret.toNat

/-! ## What it is for -/

/-- The bytes of a read, with a newline at the end turned into CR LF. -/
def lineEnded (bs : List UInt8) : List UInt8 :=
  if bs.getLast? = some newline then bs.dropLast ++ [carriageReturn, newline] else bs

/-- The bytes of all reads. -/
def inputBytes (reads : List ReadResult) : List UInt8 := reads.flatMap fun r => lineEnded r.bytes

/-- The call returns what its reads returned, and reports the end of input
only if one of them did, or if it was reported before. -/
structure InputResult.Honest (readEof : Bool) (res : InputResult) : Prop where
  chunk : res.chunk = inputBytes res.made
  ends : res.ret = -1 → readEof = true ∨ ∃ r ∈ res.made, r.Ends

/-- A full buffer does not end in a newline, the second read, if there is one,
succeeds and does not return a newline, and a tester sends no EOF
character. -/
structure InputCall.Good {config : Settings} (testMode : Bool) (c : InputCall config) : Prop where
  room : c.first.bytes.getLast? = some newline → c.first.bytes.length + 2 ≤ c.buf.length
  second : c.first.bytes ≠ [] → c.first.bytes.getLast? ≠ some newline →
    ∃ bs, c.second = .got bs ∧ bs ≠ [newline]
  eofChar : testMode = true → c.first.bytes.head? ≠ some eofChar

/-- The calls for one connection so far. -/
structure InputSession where
  readEof : Bool
  reads : List ReadResult
  returned : List UInt8

def InputSession.start : InputSession := ⟨false, [], []⟩

/-- The next call. -/
def InputSession.input (config : Settings) (testMode : Bool) (s : InputSession)
    (c : InputCall config) : Access InputSession := do
  let res ← connInput config testMode s.readEof c
  return ⟨res.readEof, s.reads ++ res.made, s.returned ++ res.chunk⟩

def InputStep (config : Settings) (testMode : Bool) (s : InputSession) (c : InputCall config)
    (t : InputSession) : Prop :=
  s.input config testMode c = .ok t

/-- What was returned is what was read, and the end of input was reported only
after a read that returned 0 or an error. -/
structure InputSession.Faithful (s : InputSession) : Prop where
  returned : s.returned = inputBytes s.reads
  ends : s.readEof = true → ∃ r ∈ s.reads, r.Ends

/-! ## Line endings -/

theorem put_zero (buf bs : List UInt8) : put buf 0 bs = bs ++ buf.drop bs.length := by
  simp [put]

theorem put_behind (bs rest new : List UInt8) :
    put (bs ++ rest) bs.length new = bs ++ new ++ rest.drop new.length := by
  rw [put, List.take_left, List.drop_append, Nat.add_sub_cancel_left,
    List.drop_of_length_le (Nat.le_add_right _ _), List.nil_append]

theorem put_byte (before after : List UInt8) (old new : UInt8) :
    put (before ++ old :: after) before.length [new] = before ++ new :: after := by
  have split : ∀ b, before ++ b :: after = before ++ [b] ++ after := by simp
  have size : [new].length = [old].length := rfl
  rw [split old, split new, put_middle rfl size]

/-- What does not end in a newline is left alone. -/
theorem addNetworkLineEnding_other {bs rest : List UInt8} (nonempty : bs ≠ [])
    (last : bs.getLast? ≠ some newline) :
    addNetworkLineEnding true (bs ++ rest) bs.length = .ok (false, bs ++ rest) := by
  obtain ⟨init, b, rfl⟩ := (List.eq_nil_or_concat' bs).resolve_left nonempty
  have other : b ≠ newline := by simpa using last
  have size : (init ++ [b]).length - 1 = init.length := by simp
  have read : Access.bytes (init ++ [b] ++ rest) init.length 1 = .ok [b] :=
    bytes_eq rest (by simp) rfl (by simp)
  rw [addNetworkLineEnding, if_neg (by simp), size, read, ok_bind, if_pos (by simpa using other)]

/-- The writes of a line ending in the place of a newline. -/
def endingWrites (n : Nat) : List (Nat × List UInt8) :=
  [(n, [carriageReturn]), (n + 1, [newline]), (n + 2, [0])]

/-- A newline at the end becomes CR LF, and a NUL is written behind it. -/
theorem exact_addNetworkLineEnding (init rest : List UInt8) :
    Exact (2 ≤ rest.length)
      (addNetworkLineEnding true (init ++ newline :: rest) (init.length + 1))
      (some (true, init ++ carriageReturn :: newline :: 0 :: rest.drop 2)) := by
  have read : Access.bytes (init ++ newline :: rest) init.length 1 = .ok [newline] :=
    bytes_eq rest (by simp) rfl (by simp)
  have nonempty : ∀ w ∈ endingWrites init.length, w.2.length ≠ 0 := by simp [endingWrites]
  have written : addNetworkLineEnding true (init ++ newline :: rest) (init.length + 1) =
      ((endingWrites init.length).foldlM (fun buf w => write buf w.1 w.2)
        (init ++ newline :: rest)) >>= fun buf => .ok (true, buf) := by
    rw [addNetworkLineEnding, if_neg (by simp), Nat.add_sub_cancel, read, ok_bind,
      if_neg (by simp)]
    simp only [endingWrites, List.foldlM_cons, List.foldlM_nil, bind_assoc, pure_bind]
  rw [written]
  have whole : (∀ w ∈ endingWrites init.length, w.1 + w.2.length ≤
      (init ++ newline :: rest).length) ↔ 2 ≤ rest.length := by
    simp only [endingWrites, List.forall_mem_cons, List.not_mem_nil, false_imp_iff, implies_true,
      and_true, List.length_append, List.length_cons, List.length_nil]
    omega
  refine Exact.congr (((exact_writes nonempty _).bind_ok (b := (true, _)) rfl).value
    fun fits => ?_) whole.symm
  match rest, whole.mp fits with
  | a :: b :: tail, _ =>
    have second := put_byte (init ++ [carriageReturn]) (b :: tail) a newline
    have third := put_byte (init ++ [carriageReturn, newline]) tail b 0
    simp only [List.append_assoc, List.cons_append, List.nil_append, List.length_append,
      List.length_cons, List.length_nil, Nat.reduceAdd] at second third
    simp only [endingWrites, List.foldl_cons, List.foldl_nil, put_byte, second, third,
      List.drop_succ_cons, List.drop_zero]

/-! ## A call -/

section Web

variable {config : Settings} {testMode : Bool} {c : InputCall config}

/-- The first read leaves room for a byte. -/
theorem InputCall.fits_web (web : config.runProgram = false ∧ config.unixSocket = false) :
    c.first.bytes.length + 1 ≤ c.buf.length := by
  have fits := c.fits
  have pos := List.length_pos_iff.mpr c.nonempty
  simp only [Settings.request, web, Bool.or_self, Bool.false_eq_true, if_false] at fits
  omega

/-- A call whose first read stores no byte returns what the read returned. -/
theorem connInput_none (none : c.first.bytes = []) :
    connInput config testMode false c =
      .ok (inputResult testMode c.first c.first.ret c.buf [c.first]) := by
  have nonpos : c.first.ret ≤ 0 := by
    cases first : c.first with
    | got bs =>
      rw [first] at none
      simp only [ReadResult.bytes] at none
      simp [ReadResult.ret, none]
    | again | failed => decide
  rw [connInput, if_neg Bool.false_ne_true, none, write_inside (by simp), ok_bind, put_zero,
    if_pos (.inr (.inr nonpos))]
  rfl

/-- The first read ends in a newline. -/
theorem exact_connInput_newline (web : config.runProgram = false ∧ config.unixSocket = false)
    {init : List UInt8} (first : c.first = .got (init ++ [newline])) :
    Exact (init.length + 3 ≤ c.buf.length) (connInput config testMode false c)
      (some (inputResult testMode c.first (init.length + 2)
        (init ++ carriageReturn :: newline :: 0 :: c.buf.drop (init.length + 3)) [c.first])) := by
  have fits := c.fits_web web
  rw [first, ReadResult.bytes, List.length_append, List.length_singleton] at fits
  have pos : ¬ (config.runProgram = true ∨ config.unixSocket = true ∨
      ((init ++ [newline]).length : Int) ≤ 0) := by
    simp only [web, Bool.false_eq_true, false_or, List.length_append, List.length_singleton]
    omega
  have size : (init ++ [newline]).length = init.length + 1 := by simp
  rw [connInput, if_neg Bool.false_ne_true, first, ReadResult.bytes,
    write_inside (by rw [size]; omega), ok_bind, put_zero, ReadResult.ret]
  dsimp only
  rw [if_neg pos, web.2, Int.toNat_natCast, Bool.not_false, size, List.append_assoc,
    List.singleton_append]
  refine ((exact_addNetworkLineEnding init _).bind_ok ?_).congr ?_
  · dsimp only
    rw [if_pos rfl, List.drop_drop]
    have count : ((init.length + 1 : Nat) : Int) + 1 = init.length + 2 := by omega
    rw [count]
  · rw [List.length_drop]
    omega

/-- A call whose first read does not end in a newline makes a second one. -/
theorem connInput_more (web : config.runProgram = false ∧ config.unixSocket = false)
    {bs : List UInt8} (first : c.first = .got bs) (nonempty : bs ≠ [])
    (last : bs.getLast? ≠ some newline) :
    connInput config testMode false c =
      .ok (inputResult testMode c.first (bs.length + c.second.ret)
        (bs ++ c.second.bytes ++ c.buf.drop (bs.length + c.second.bytes.length))
        [c.first, c.second]) := by
  have fits := c.fits_web web
  rw [first, ReadResult.bytes] at fits
  have one := c.single
  have pos : ¬ (config.runProgram = true ∨ config.unixSocket = true ∨ (bs.length : Int) ≤ 0) := by
    have := List.length_pos_iff.mpr nonempty
    simp only [web, Bool.false_eq_true, false_or]
    omega
  rw [connInput, if_neg Bool.false_ne_true, first, ReadResult.bytes, write_inside (by omega),
    ok_bind, put_zero, ReadResult.ret]
  dsimp only
  rw [if_neg pos, web.2, Int.toNat_natCast, Bool.not_false,
    addNetworkLineEnding_other nonempty last, ok_bind]
  dsimp only
  rw [if_neg Bool.false_ne_true, write_inside, ok_bind, put_behind, List.drop_drop]
  rw [List.length_append, List.length_drop]
  omega

end Web

/-! ## Honest results -/

/-- How `conn_input` ends for a count `r`. -/
theorem inputResult_cases (testMode : Bool) (first : ReadResult) (r : Int) (buf : List UInt8)
    (made : List ReadResult) :
    inputResult testMode first r buf made = ⟨-1, buf, true, made⟩ ∨
      ∃ n, 0 ≤ n ∧ n ≤ max r 0 ∧ inputResult testMode first r buf made = ⟨n, buf, false, made⟩ := by
  rw [inputResult]
  split
  · exact .inl rfl
  · split
    · exact .inr ⟨0, by omega, by omega, rfl⟩
    · exact .inr ⟨r, by omega, by omega, rfl⟩

section Result

variable {testMode : Bool} {first : ReadResult} {r : Int} {buf : List UInt8}
  {made : List ReadResult}

/-- A call that has read more than `r` bytes is not honest. -/
theorem not_honest_of_lt (readEof : Bool) (more : r.toNat < (inputBytes made).length) :
    ¬ (inputResult testMode first r buf made).Honest readEof := by
  intro honest
  have all := congrArg List.length honest.chunk
  obtain eq | ⟨n, -, most, eq⟩ := inputResult_cases testMode first r buf made
  all_goals
    rw [eq, InputResult.chunk, List.length_take] at all
    simp only at all
    omega

/-- A positive count is returned unless a tester ends the input. -/
theorem honest_pos_iff (readEof : Bool) (pos : 0 < r) (text : buf.take r.toNat = inputBytes made)
    (nonempty : inputBytes made ≠ []) :
    (inputResult testMode first r buf made).Honest readEof ↔
      ¬ (testMode = true ∧ buf.headD 0 = eofChar) := by
  have ends : (r = 0 ∨ (r < 0 ∧ first ≠ .again) ∨
      (testMode = true ∧ r > 0 ∧ buf.headD 0 = eofChar)) ↔
        testMode = true ∧ buf.headD 0 = eofChar := by
    constructor
    · rintro (zero | ⟨neg, -⟩ | ⟨mode, -, char⟩)
      · omega
      · omega
      · exact ⟨mode, char⟩
    · rintro ⟨mode, char⟩
      exact .inr (.inr ⟨mode, pos, char⟩)
  by_cases tester : testMode = true ∧ buf.headD 0 = eofChar
  · rw [inputResult, if_pos (ends.mpr tester)]
    refine iff_of_false (fun honest => nonempty honest.chunk.symm) (not_not.mpr tester)
  · rw [inputResult, if_neg (fun h => tester (ends.mp h)), if_neg (by omega)]
    refine iff_of_true ⟨text, fun minus => ?_⟩ tester
    simp only at minus
    omega

end Result

/-! ## The exact condition -/

section Condition

variable {config : Settings} {testMode : Bool} {c : InputCall config}

theorem lineEnded_newline (init : List UInt8) :
    lineEnded (init ++ [newline]) = init ++ [carriageReturn, newline] := by
  simp [lineEnded]

theorem lineEnded_other {bs : List UInt8} (last : bs.getLast? ≠ some newline) :
    lineEnded bs = bs :=
  if_neg last

/-- A call whose first read stores no byte is honest. -/
theorem honest_none (none : c.first.bytes = []) :
    (inputResult testMode c.first c.first.ret c.buf [c.first]).Honest false := by
  cases first : c.first with
  | got bs =>
    rw [first] at none
    obtain rfl : bs = [] := none
    exact ⟨rfl, fun _ => .inr ⟨_, .head _, rfl⟩⟩
  | again =>
    have idle : inputResult testMode .again ReadResult.again.ret c.buf [.again] =
        ⟨0, c.buf, false, [.again]⟩ := by
      simp [inputResult, ReadResult.ret]
    rw [idle]
    exact ⟨rfl, fun minus => absurd (show (0 : Int) = -1 from minus) (by decide)⟩
  | failed => exact ⟨rfl, fun _ => .inr ⟨_, .head _, trivial⟩⟩

theorem last_of_single {bs : List UInt8} (one : bs.length ≤ 1) (other : bs ≠ [newline]) :
    bs.getLast? ≠ some newline := by
  match bs with
  | [] => simp
  | [b] => simpa using other

/-- The character a tester looks at is the first that was read. -/
theorem headD_eq_iff {bs rest : List UInt8} (nonempty : bs ≠ []) :
    (bs ++ rest).headD 0 = eofChar ↔ bs.head? = some eofChar := by
  cases bs with
  | nil => exact absurd rfl nonempty
  | cons b bs => simp

theorem headD_newline_iff (init rest : List UInt8) :
    (init ++ carriageReturn :: rest).headD 0 = eofChar ↔
      (init ++ [newline]).head? = some eofChar := by
  cases init with
  | nil =>
    exact iff_of_false (show ¬ carriageReturn = eofChar by decide)
      (show ¬ some newline = some eofChar by decide)
  | cons b init => simp

/-- After a newline it is the room for the NUL and the character that count. -/
theorem honest_newline_iff (web : config.runProgram = false ∧ config.unixSocket = false)
    {init : List UInt8} (first : c.first = .got (init ++ [newline])) :
    (∃ res, connInput config testMode false c = .ok res ∧ res.Honest false) ↔
      init.length + 3 ≤ c.buf.length ∧
        ¬ (testMode = true ∧ (init ++ [newline]).head? = some eofChar) := by
  have call := @exact_connInput_newline config testMode c web init first
  by_cases room : init.length + 3 ≤ c.buf.length
  · rw [call.ends room, deref_some, and_iff_right room, ← headD_newline_iff]
    have read : inputBytes [c.first] = init ++ [carriageReturn, newline] := by
      rw [first, inputBytes, List.flatMap_cons, List.flatMap_nil, List.append_nil,
        ReadResult.bytes, lineEnded_newline]
    have count : ((init.length : Int) + 2).toNat =
        (init ++ [carriageReturn, newline]).length := by
      simp only [List.length_append, List.length_cons, List.length_nil]
      omega
    have parts : ∀ rest, init ++ carriageReturn :: newline :: rest =
        (init ++ [carriageReturn, newline]) ++ rest := by simp
    have text : (init ++ carriageReturn :: newline :: 0 :: c.buf.drop (init.length + 3)).take
        ((init.length : Int) + 2).toNat = inputBytes [c.first] := by
      rw [read, count, parts (0 :: _), List.take_left]
    simp only [Except.ok.injEq, exists_eq_left']
    rw [honest_pos_iff false (by omega) text (by simp [read])]
  · rw [call.stops room]
    refine iff_of_false ?_ fun h => room h.1
    rintro ⟨_, run, -⟩
    cases run

/-- A call that makes a second read is honest if that stores another byte than a
newline, and the first byte is not the character for the end. -/
theorem honest_more_iff (web : config.runProgram = false ∧ config.unixSocket = false)
    {bs : List UInt8} (first : c.first = .got bs) (nonempty : bs ≠ [])
    (last : bs.getLast? ≠ some newline) :
    (∃ res, connInput config testMode false c = .ok res ∧ res.Honest false) ↔
      (∃ bs', c.second = .got bs' ∧ bs' ≠ [newline]) ∧
        ¬ (testMode = true ∧ bs.head? = some eofChar) := by
  have read : inputBytes [c.first, c.second] = bs ++ lineEnded c.second.bytes := by
    rw [first, inputBytes, List.flatMap_cons, List.flatMap_cons, List.flatMap_nil,
      List.append_nil, ReadResult.bytes, lineEnded_other last]
  have pos := List.length_pos_iff.mpr nonempty
  rw [connInput_more web first nonempty last]
  simp only [Except.ok.injEq, exists_eq_left']
  cases second : c.second with
  | got bs' =>
    rw [second] at read
    have one := second ▸ c.single
    simp only [ReadResult.bytes] at one read ⊢
    by_cases whole : bs' = [newline]
    · refine iff_of_false (not_honest_of_lt false ?_) ?_
      · rw [read, whole]
        simp [ReadResult.ret, lineEnded]
      · rintro ⟨⟨_, eq, other⟩, -⟩
        exact other (ReadResult.got.inj eq ▸ whole)
    · have text : (bs ++ bs' ++ c.buf.drop (bs.length + bs'.length)).take
          ((bs.length : Int) + bs'.length).toNat = bs ++ bs' := by
        rw [← Int.natCast_add, Int.toNat_natCast, ← List.length_append, List.take_left]
      have other : lineEnded bs' = bs' := lineEnded_other (last_of_single one whole)
      rw [other] at read
      rw [ReadResult.ret, honest_pos_iff false (by omega) (by rw [read, text])
        (by simp [read, nonempty]), List.append_assoc, headD_eq_iff nonempty]
      exact (and_iff_right ⟨bs', rfl, whole⟩).symm
  | again | failed =>
    refine iff_of_false (not_honest_of_lt false ?_) (by simp)
    rw [second] at read
    rw [read, ReadResult.ret, List.length_append]
    omega

/-- A call stays in its buffer and is honest exactly if it is good, or comes
after the end of input. -/
theorem honest_iff (web : config.runProgram = false ∧ config.unixSocket = false)
    (readEof : Bool) :
    (∃ res, connInput config testMode readEof c = .ok res ∧ res.Honest readEof) ↔
      readEof = true ∨ c.Good testMode := by
  cases readEof with
  | true => exact iff_of_true ⟨_, rfl, rfl, fun _ => .inl rfl⟩ (.inl rfl)
  | false =>
    rw [or_iff_right Bool.false_ne_true]
    by_cases none : c.first.bytes = []
    · refine iff_of_true ⟨_, connInput_none none, honest_none none⟩ ?_
      constructor <;> simp [none]
    · obtain ⟨bs, first⟩ : ∃ bs, c.first = .got bs := by
        cases first : c.first with
        | got bs => exact ⟨bs, rfl⟩
        | again | failed => exact absurd (first ▸ rfl) none
      have bytes : c.first.bytes = bs := by rw [first, ReadResult.bytes]
      rw [bytes] at none
      by_cases last : bs.getLast? = some newline
      · obtain ⟨init, rfl⟩ : ∃ init, bs = init ++ [newline] := List.getLast?_eq_some_iff.mp last
        rw [honest_newline_iff web first]
        constructor
        · rintro ⟨room, char⟩
          refine ⟨fun _ => ?_, fun _ other => ?_, fun mode => ?_⟩
          · rw [bytes, List.length_append]
            exact room
          · exact absurd (bytes ▸ last) other
          · exact bytes ▸ fun head => char ⟨mode, head⟩
        · intro good
          have room := good.room (bytes ▸ last)
          rw [bytes, List.length_append] at room
          exact ⟨room, fun ⟨mode, head⟩ => good.eofChar mode (bytes ▸ head)⟩
      · rw [honest_more_iff web first none last]
        constructor
        · rintro ⟨second, char⟩
          refine ⟨fun newline => ?_, fun _ _ => second, fun mode => ?_⟩
          · exact absurd (bytes ▸ newline) last
          · exact bytes ▸ fun head => char ⟨mode, head⟩
        · intro good
          exact ⟨good.second (bytes ▸ none) (bytes ▸ last),
            fun ⟨mode, head⟩ => good.eofChar mode (bytes ▸ head)⟩

end Condition

/-! ## What a call can do -/

theorem ReadResult.ret_le (r : ReadResult) : r.ret ≤ r.bytes.length := by
  cases r with
  | got bs => exact Int.le_refl _
  | again | failed => decide

/-- The buffer of the caller after a line ending. -/
theorem length_addNetworkLineEnding {webserver added : Bool} {buf buf' : List UInt8} {len : Nat}
    (run : addNetworkLineEnding webserver buf len = .ok (added, buf')) :
    buf'.length = buf.length := by
  rw [addNetworkLineEnding] at run
  split at run
  · cases run
    rfl
  · obtain ⟨last, -, run⟩ := ok_of_bind run
    split at run
    · cases run
      rfl
    · obtain ⟨buf₁, first, run⟩ := ok_of_bind run
      obtain ⟨buf₂, second, run⟩ := ok_of_bind run
      obtain ⟨buf₃, third, run⟩ := ok_of_bind run
      cases run
      rw [length_of_write third, length_of_write second, length_of_write first]

/-- A call after the end of input does nothing, and any other comes to its end
with a count the buffer has room for. -/
theorem connInput_cases {config : Settings} {testMode readEof : Bool} {c : InputCall config}
    {res : InputResult} (run : connInput config testMode readEof c = .ok res) :
    res = ⟨-1, c.buf, true, []⟩ ∨
      ∃ r buf made, res = inputResult testMode c.first r buf made ∧
        buf.length = c.buf.length ∧ r ≤ c.buf.length := by
  have first := c.first.ret_le
  have second := c.second.ret_le
  have fits := c.fits
  have single := c.single
  have request : config.request c.buf.length ≤ c.buf.length := by
    rw [Settings.request]
    split <;> omega
  rw [connInput] at run
  split at run
  · exact .inl (Except.ok.inj run).symm
  · obtain ⟨buf, stored, run⟩ := ok_of_bind run
    have length := length_of_write stored
    dsimp only at run
    split at run
    · exact .inr ⟨_, _, _, (Except.ok.inj run).symm, length, by omega⟩
    · rename_i web
      have room : c.first.bytes.length + 1 ≤ c.buf.length := by
        refine c.fits_web ⟨?_, ?_⟩
        · exact Bool.eq_false_iff.mpr fun h => web (.inl h)
        · exact Bool.eq_false_iff.mpr fun h => web (.inr (.inl h))
      obtain ⟨⟨added, buf'⟩, ended, run⟩ := ok_of_bind run
      have length' := (length_addNetworkLineEnding ended).trans length
      dsimp only at run
      split at run
      · exact .inr ⟨_, _, _, (Except.ok.inj run).symm, length', by omega⟩
      · obtain ⟨buf'', more, run⟩ := ok_of_bind run
        have length'' := (length_of_write more).trans length'
        exact .inr ⟨_, _, _, (Except.ok.inj run).symm, length'', by omega⟩

/-! ## Sessions -/

theorem inputBytes_append (reads more : List ReadResult) :
    inputBytes (reads ++ more) = inputBytes reads ++ inputBytes more :=
  List.flatMap_append

/-- What a call leaves in `read_eof` is what it reports. -/
theorem readEof_iff {config : Settings} {testMode readEof : Bool} {c : InputCall config}
    {res : InputResult} (run : connInput config testMode readEof c = .ok res) :
    res.readEof = true ↔ res.ret = -1 := by
  obtain rfl | ⟨r, buf, made, rfl, -⟩ := connInput_cases run
  · simp
  · obtain eq | ⟨n, nonneg, -, eq⟩ := inputResult_cases testMode c.first r buf made
    · simp [eq]
    · rw [eq]
      refine iff_of_false Bool.false_ne_true fun minus => ?_
      simp only at minus
      omega

/-- An honest call keeps a session faithful. -/
theorem InputSession.Faithful.step {config : Settings} {testMode : Bool} {s t : InputSession}
    {c : InputCall config} (web : config.runProgram = false ∧ config.unixSocket = false)
    (faithful : s.Faithful) (step : InputStep config testMode s c t)
    (good : s.readEof = true ∨ c.Good testMode) : t.Faithful := by
  obtain ⟨res, run, honest⟩ := (honest_iff web s.readEof).mpr good
  rw [InputStep, InputSession.input, run, ok_bind] at step
  obtain rfl := Except.ok.inj step
  refine ⟨?_, fun ended => ?_⟩
  · rw [inputBytes_append, faithful.returned, honest.chunk]
  · obtain before | ⟨r, made, ends⟩ := honest.ends ((readEof_iff run).mp ended)
    · obtain ⟨r, mem, ends⟩ := faithful.ends before
      exact ⟨r, List.mem_append_left _ mem, ends⟩
    · exact ⟨r, List.mem_append_right _ made, ends⟩

/-- What `conn_input` returns to `ctcp_read` is a block. -/
theorem exists_block {config : Settings} {testMode readEof : Bool} {c : InputCall config}
    {res : InputResult} (size : c.buf.length = maxSegDataSize)
    (run : connInput config testMode readEof c = .ok res) (pos : 0 < res.ret) :
    ∃ b : Block, b.bytes = res.chunk ∧ (b.bytes.length : Int) = res.ret := by
  have count : (res.chunk.length : Int) = res.ret ∧ res.ret ≤ c.buf.length := by
    obtain rfl | ⟨r, buf, made, rfl, length, few⟩ := connInput_cases run
    · simp at pos
    · obtain eq | ⟨n, -, most, eq⟩ := inputResult_cases testMode c.first r buf made
      · simp [eq] at pos
      · rw [eq] at pos ⊢
        rw [InputResult.chunk, List.length_take, length]
        simp only at pos ⊢
        omega
  refine ⟨⟨res.chunk, fun none => ?_, by omega, fun _ => 0⟩, rfl, count.1⟩
  rw [none, List.length_nil] at count
  omega

/-- **Input reading.** As long as every call is good, or comes after the end of
input, what the calls return is what the reads returned, each with a newline
at its end turned into CR LF, and the end of input has been reported only
after a read that returned 0 or an error. The next call stays in its buffer,
returns what it reads and reports no other end of input exactly if it is good
as well. -/
theorem input_faithful {config : Settings} {testMode : Bool} {calls : List (InputCall config)}
    {s : InputSession} (web : config.runProgram = false ∧ config.unixSocket = false)
    (run : Run (Guarded (InputStep config testMode)
      fun s c => s.readEof = true ∨ c.Good testMode) .start calls s) :
    s.Faithful ∧ ∀ c : InputCall config,
      (∃ res, connInput config testMode s.readEof c = .ok res ∧ res.Honest s.readEof) ↔
        s.readEof = true ∨ c.Good testMode := by
  refine ⟨?_, fun c => honest_iff web s.readEof⟩
  refine Run.invariant InputSession.Faithful ⟨rfl, fun ended => absurd ended Bool.false_ne_true⟩
    (fun faithful step => ?_) run
  exact faithful.step web step.1 step.2

/-- A line is read. -/
def lineCall : InputCall ⟨0, 0, false, false⟩ where
  buf := List.replicate 8 0
  nonempty := by decide
  first := .got [0x61, 0x0a]
  fits := by decide
  second := .again
  single := by decide

theorem input_faithful_line :
    (⟨false, [.got [0x61, 0x0a]], [0x61, 0x0d, 0x0a]⟩ : InputSession).Faithful ∧
      ∀ c : InputCall ⟨0, 0, false, false⟩,
        (∃ res, connInput _ true false c = .ok res ∧ res.Honest false) ↔
          false = true ∨ c.Good true := by
  have good : lineCall.Good true :=
    ⟨fun _ => by decide, fun _ other => absurd rfl other, fun _ => by decide⟩
  have step : InputStep ⟨0, 0, false, false⟩ true .start lineCall
      ⟨false, [.got [0x61, 0x0a]], [0x61, 0x0d, 0x0a]⟩ := rfl
  exact input_faithful ⟨rfl, rfl⟩ (.single ⟨step, .inr good⟩)

/-- A byte is there and nothing more, in the buffer of `ctcp_read`. -/
def byteCall : InputCall ⟨0, 0, false, false⟩ where
  buf := List.replicate maxSegDataSize 0
  nonempty := List.ne_nil_of_length_pos (by rw [List.length_replicate]; decide)
  first := .got [0x61]
  fits := by
    rw [List.length_replicate]
    decide
  second := .again
  single := by decide

/-- The second read returns -1, the sum is 0, and that is taken for the end of
input. -/
theorem last_byte_lost :
    ¬ ∀ (config : Settings) (calls : List (InputCall config)) (s : InputSession),
      config.runProgram = false ∧ config.unixSocket = false →
        Run (InputStep config false) .start calls s → s.Faithful := by
  intro general
  have lost : InputStep ⟨0, 0, false, false⟩ false .start byteCall
      ⟨true, [.got [0x61], .again], []⟩ := by
    rw [InputStep, InputSession.input, InputSession.start,
      connInput_more ⟨rfl, rfl⟩ rfl (by decide) (by decide)]
    rfl
  have faithful := general _ _ _ ⟨rfl, rfl⟩ (.single lost)
  exact absurd faithful.returned (by decide)

end NetLabs.Ctcp

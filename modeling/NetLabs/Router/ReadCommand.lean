/-
NetLabs.Router.ReadCommand — how `sr_read_from_server_expect` of
`lab1/router/sr_vns_comm.c` gets a command out of the socket.

Two loops, one for the length word and one for the rest, call `recv` and
`read` until they have all bytes; inside of each another loop repeats a call
that a signal interrupted. What is done with the command is in
`ServerCommand`.

A call that finds the connection closed returns 0, which the loops add to the
number of bytes like any other result. So they go on for ever where the peer
closes the connection too early, and come to an end otherwise
(`reading_ends_iff`).
-/
import NetLabs.Lib.While
import NetLabs.Router.ServerCommand

namespace NetLabs.Router

open NetLabs.Lib Access

/-! ## The socket -/

/-- The result of a call of `recv` or `read`. Without bytes it is 0. -/
inductive Reply where
  | got (bs : List UInt8)
  /-- -1 with `EINTR` -/
  | interrupted
  /-- -1 with another error -/
  | failed
  deriving DecidableEq, Repr

def Reply.bytes : Reply → List UInt8
  | got bs => bs
  | _ => []

/-- What the calls return, the first call of the function first. -/
structure Socket where
  replies : Nat → Reply

/-- The variables of the loops: the calls made so far, the bytes the current
loop has read, and whether `errno` is `EINTR`. -/
structure Reading where
  calls : Nat
  buf : List UInt8
  eintr : Bool
  deriving DecidableEq, Repr

namespace Socket

variable (socket : Socket)

/-- A turn of the inner loop: `errno` is cleared, and the call is made. -/
def receive (s : Reading) : Fueled Unit Reading :=
  match socket.replies s.calls with
  | .got bs => some (.ok ⟨s.calls + 1, s.buf ++ bs, false⟩)
  | .interrupted => some (.ok ⟨s.calls + 1, s.buf, true⟩)
  | .failed => some (.error ())

/-- `while (bytes_read < size)`, with the loop over interrupted calls in it. -/
def readUntil (size fuel : Nat) : Reading → Fueled Unit Reading :=
  whileLoop (·.buf.length < size) (doWhile socket.receive (·.eintr = true) fuel) fuel

/-- `ntohl(len)` as an `int`. -/
def announced (word : List UInt8) : Int := wrapInt (ofBe32 (word.take 4)).toNat

/-- `sr_read_from_server_expect(sr, expected_cmd)`. A call never returns more
than it is asked for; if it did, it would have run over the buffer. -/
def srReadFromServerExpect (host : Host) (sr : Sr) (expectedCmd : UInt32) (fuel : Nat) :
    Option (Access Served) :=
  match socket.readUntil 4 fuel ⟨0, [], false⟩ with
  | none => none
  | some (.error _) => some (.ok ⟨-1, sr.ifList, none⟩)
  | some (.ok word) =>
    let len := announced word.buf
    if len > 10000 ∨ len < 0 then some (.ok ⟨-1, sr.ifList, none⟩)
    else if ¬ host.mallocOk then some (.ok ⟨-1, sr.ifList, none⟩)
    else match socket.readUntil (len - 4).toNat fuel ⟨word.calls, [], false⟩ with
      | none => none
      | some (.error _) => some (.ok ⟨-1, sr.ifList, none⟩)
      | some (.ok rest) =>
        if size : rest.buf.length = len.toNat - 4 then
          some (Router.srReadFromServerExpect host sr expectedCmd ⟨len, rest.buf, size⟩)
        else some (.error .outOfBounds)

/-! ## What the socket supplies -/

/-- The bytes of `n` calls from the call `from` on. -/
def stretch (start n : Nat) : List UInt8 :=
  (List.range n).flatMap fun i => (socket.replies (start + i)).bytes

/-- The bytes of the first `k` calls. -/
def supplied (k : Nat) : List UInt8 := socket.stretch 0 k

end Socket

/-- Behind this length word the function reads on. -/
def Accepted (host : Host) (word : List UInt8) : Prop :=
  ¬ (Socket.announced word > 10000 ∨ Socket.announced word < 0) ∧ host.mallocOk = true

instance (host : Host) (word : List UInt8) : Decidable (Accepted host word) :=
  inferInstanceAs (Decidable (_ ∧ _))

/-- How many bytes of the command are missing behind `bs`: of the length word,
or of what it announces. -/
def missing (host : Host) (bs : List UInt8) : Nat :=
  if bs.length < 4 then 4 - bs.length
  else if Accepted host bs then (Socket.announced bs).toNat - bs.length
  else 0

/-- The system calls do what their documentation says: they return no more
bytes than they are asked for, signals interrupt them only for a while, and
behind the end of the stream there is nothing more. -/
structure Socket.Documented (socket : Socket) (host : Host) : Prop where
  fits : ∀ k, missing host (socket.supplied k) ≠ 0 →
    (socket.replies k).bytes.length ≤ missing host (socket.supplied k)
  signalsStop : ∀ k, ∃ j ≥ k, socket.replies j ≠ .interrupted
  closed : ∀ k, socket.replies k = .got [] → ∀ j ≥ k, socket.replies j = .got []

/-- With enough fuel the function comes to an end. -/
def Socket.Returns (socket : Socket) (host : Host) (sr : Sr) (expectedCmd : UInt32) : Prop :=
  ∃ n served, ∀ fuel ≥ n, socket.srReadFromServerExpect host sr expectedCmd fuel = some served

namespace Socket

variable {socket : Socket} {start size : Nat}

/-! ## One loop -/

theorem stretch_succ (socket : Socket) (start n : Nat) :
    socket.stretch start (n + 1) =
      socket.stretch start n ++ (socket.replies (start + n)).bytes := by
  rw [stretch, List.range_succ, List.flatMap_append, List.flatMap_singleton, ← stretch]

theorem supplied_add (socket : Socket) (k n : Nat) :
    socket.supplied (k + n) = socket.supplied k ++ socket.stretch k n := by
  induction n with
  | zero => rw [Nat.add_zero, stretch, List.range_zero, List.flatMap_nil, List.append_nil]
  | succ n ih =>
    rw [← Nat.add_assoc, supplied, stretch_succ, Nat.zero_add, ← supplied, ih, stretch_succ,
      List.append_assoc]

/-- The loop stands before one of its first `n + 1` calls. A call was
interrupted only if bytes were missing. -/
def Stands (socket : Socket) (start size n : Nat) (s : Reading) : Prop :=
  ∃ j ≤ n, s.calls = start + j ∧ s.buf = socket.stretch start j ∧
    (s.eintr = true → s.buf.length < size)

/-- One call, where no call before the `n`-th fails or is the last. -/
theorem receive_stands {n : Nat}
    (going : ∀ j < n, socket.replies (start + j) ≠ .failed)
    (stop : size ≤ (socket.stretch start n).length ∨ socket.replies (start + n) = .failed)
    {s : Reading} (stands : Stands socket start size n s) (short : s.buf.length < size) :
    ∃ r, socket.receive s = some r ∧
      Ends (fun _ => (socket.stretch start n).length < size)
        (fun t => Stands socket start size n t ∧ start + n - t.calls < start + n - s.calls) r := by
  obtain ⟨j, few, calls, buf, -⟩ := stands
  rw [receive, calls]
  rcases Nat.lt_or_eq_of_le few with before | rfl
  · have next := stretch_succ socket start j
    cases reply : socket.replies (start + j) with
    | got bs =>
      rw [reply] at next
      exact ⟨_, rfl, ⟨j + 1, before, rfl, by rw [buf, next]; rfl, nofun⟩,
        by show _ - (start + j + 1) < _; omega⟩
    | interrupted =>
      rw [reply, show Reply.interrupted.bytes = [] from rfl, List.append_nil] at next
      exact ⟨_, rfl, ⟨j + 1, before, rfl, by rw [buf, next], fun _ => short⟩,
        by show _ - (start + j + 1) < _; omega⟩
    | failed => exact absurd reply (going j before)
  · have last : socket.replies (start + j) = .failed :=
      stop.resolve_left (Nat.not_le_of_gt (buf ▸ short))
    rw [last]
    exact ⟨_, rfl, buf ▸ short⟩

/-- The inner loop makes calls until one is not interrupted. -/
theorem retry_stands {n fuel : Nat}
    (going : ∀ j < n, socket.replies (start + j) ≠ .failed)
    (stop : size ≤ (socket.stretch start n).length ∨ socket.replies (start + n) = .failed)
    (enough : n < fuel) {s : Reading} (stands : Stands socket start size n s)
    (short : s.buf.length < size) :
    ∃ r, doWhile socket.receive (·.eintr = true) fuel s = some r ∧
      Ends (fun _ => (socket.stretch start n).length < size)
        (fun t => (Stands socket start size n t ∧ t.eintr = false) ∧
          start + n - t.calls < start + n - s.calls) r := by
  refine doWhile_total
    (fun t => Stands socket start size n t ∧ start + n - t.calls < start + n - s.calls)
    (fun t => start + n - t.calls) ?_ ?_ ?_
  · rintro t ⟨again, less⟩ interrupted
    have ⟨j, few, calls, buf, missing⟩ := again
    obtain ⟨r, run, ended⟩ := receive_stands going stop again (missing interrupted)
    exact ⟨r, run, ended.imp fun u ⟨next, lower⟩ => ⟨⟨next, lower.trans less⟩, lower⟩⟩
  · rintro t ⟨done, less⟩ test
    exact ⟨⟨done, by simpa using test⟩, less⟩
  · obtain ⟨r, run, ended⟩ := receive_stands going stop stands short
    refine ⟨r, run, ended.imp fun t ⟨next, lower⟩ => ⟨⟨next, lower⟩, ?_⟩⟩
    obtain ⟨j, few, calls, -⟩ := next
    omega

/-- A loop ends at the first call after which no bytes are missing, or with
the first one that fails. -/
theorem readUntil_ends {n fuel : Nat}
    (going : ∀ j < n, socket.replies (start + j) ≠ .failed ∧
      (socket.stretch start j).length < size)
    (stop : size ≤ (socket.stretch start n).length ∨ socket.replies (start + n) = .failed)
    (enough : n < fuel) :
    socket.readUntil size fuel ⟨start, [], false⟩ =
      some (if (socket.stretch start n).length < size then .error ()
        else .ok ⟨start + n, socket.stretch start n, false⟩) := by
  have alive : ∀ j < n, socket.replies (start + j) ≠ .failed := fun j hj => (going j hj).1
  have ends : ∃ r, socket.readUntil size fuel ⟨start, [], false⟩ = some r ∧
      Ends (fun _ => (socket.stretch start n).length < size)
        (fun t => ¬ (socket.stretch start n).length < size ∧
          t = ⟨start + n, socket.stretch start n, false⟩) r := by
    refine whileLoop_total (fun s => Stands socket start size n s ∧ s.eintr = false)
      (fun s => start + n - s.calls) ?_ ?_ ⟨⟨0, Nat.zero_le n, rfl, rfl, nofun⟩, rfl⟩ ?_
    · rintro s ⟨stands, -⟩ short
      exact retry_stands alive stop enough stands short
    · rintro ⟨calls, buf, eintr⟩ ⟨⟨j, few, rfl, rfl, -⟩, rfl⟩ full
      obtain rfl : j = n := by
        by_contra other
        exact full (going j (Nat.lt_of_le_of_ne few other)).2
      exact ⟨full, rfl⟩
    · show start + n - start < fuel
      omega
  obtain ⟨r, run, ended⟩ := ends
  rw [run]
  cases r with
  | error e =>
    have short : (socket.stretch start n).length < size := ended
    rw [if_pos short]
  | ok t => rw [if_neg ended.1, ended.2]

/-- A loop that gets no error and not enough bytes goes on for ever. -/
theorem readUntil_diverges
    (going : ∀ j, socket.replies (start + j) ≠ .failed ∧
      (socket.stretch start j).length < size) (fuel : Nat) :
    socket.readUntil size fuel ⟨start, [], false⟩ = none := by
  let Inv (s : Reading) : Prop := ∃ j, s.calls = start + j ∧ s.buf = socket.stretch start j
  have call : ∀ s r, Inv s → socket.receive s = some r → Ends (fun _ => False) Inv r := by
    rintro ⟨-, -, eintr⟩ r ⟨j, rfl, rfl⟩ run
    have next := stretch_succ socket start j
    rw [receive] at run
    cases reply : socket.replies (start + j) with
    | got bs =>
      rw [reply] at next run
      obtain rfl := Option.some.inj run
      exact ⟨j + 1, rfl, next.symm⟩
    | interrupted =>
      rw [reply, show Reply.interrupted.bytes = [] from rfl, List.append_nil] at next
      rw [reply] at run
      obtain rfl := Option.some.inj run
      exact ⟨j + 1, rfl, next.symm⟩
    | failed => exact absurd reply (going j).1
  refine whileLoop_diverges Inv ?_ ⟨0, rfl, rfl⟩
  rintro s ⟨j, calls, buf⟩
  refine ⟨buf ▸ (going j).2, fun r run => ?_⟩
  have kept := doWhile_partial Inv (fun s r inv _ => call s r inv)
    (fun r => call s r ⟨j, calls, buf⟩) run
  exact kept.imp fun t => And.left

/-! ## The command -/

theorem announced_append {word : List UInt8} (whole : 4 ≤ word.length) (rest : List UInt8) :
    announced (word ++ rest) = announced word := by
  rw [announced, announced, List.take_append_of_le_length whole]

theorem accepted_append {host : Host} {word : List UInt8} (whole : 4 ≤ word.length)
    (rest : List UInt8) : Accepted host (word ++ rest) ↔ Accepted host word := by
  rw [Accepted, Accepted, announced_append whole]

theorem announced_buf {c : Command} (range : 0 ≤ c.len ∧ c.len ≤ 10000) :
    announced c.buf = c.len := by
  have word : c.buf.take 4 = be32 (UInt32.ofNat c.len.toNat) := List.take_left' (length_be32 _)
  rw [announced, word, ofBe32_be32, UInt32.toNat_ofNat', wrapInt, Int.bmod_def]
  omega

/-- What is complete stays complete. -/
theorem missing_append {host : Host} {bs : List UInt8} (complete : missing host bs = 0)
    (more : List UInt8) : missing host (bs ++ more) = 0 := by
  unfold missing at complete ⊢
  by_cases short : bs.length < 4
  · rw [if_pos short] at complete
    omega
  · rw [if_neg short] at complete
    have whole : 4 ≤ bs.length := Nat.le_of_not_lt short
    rw [List.length_append, announced_append whole, if_neg (by omega)]
    by_cases accepted : Accepted host bs
    · rw [if_pos accepted] at complete
      rw [if_pos ((accepted_append whole more).mpr accepted)]
      omega
    · rw [if_neg (mt (accepted_append whole more).mp accepted)]

variable {host : Host} {sr : Sr} {expectedCmd : UInt32}

/-- No bytes are read behind the length word before it is looked at. -/
theorem length_word_le (documented : socket.Documented host) {k : Nat}
    (short : ∀ j < k, (socket.supplied j).length < 4) : (socket.supplied k).length ≤ 4 := by
  cases k with
  | zero => exact Nat.zero_le 4
  | succ k =>
    have before := short k (Nat.lt_succ_self k)
    have lacks : missing host (socket.supplied k) = 4 - (socket.supplied k).length :=
      if_pos before
    have fits := documented.fits k (by omega)
    rw [supplied, stretch_succ, Nat.zero_add, ← supplied, List.length_append]
    omega

/-- What is missing once the length word is there and accepted. -/
theorem missing_body {k : Nat} (word : (socket.supplied k).length = 4)
    (accepted : Accepted host (socket.supplied k)) (n : Nat) :
    missing host (socket.supplied (k + n)) =
      (announced (socket.supplied k) - 4).toNat - (socket.stretch k n).length := by
  have whole := Nat.le_of_eq word.symm
  rw [supplied_add, missing, announced_append whole,
    if_pos ((accepted_append whole _).mpr accepted), List.length_append, word, if_neg (by omega)]
  omega

theorem length_body_le (documented : socket.Documented host) {k n : Nat}
    (word : (socket.supplied k).length = 4)
    (accepted : Accepted host (socket.supplied k))
    (lacking : ∀ j < n, missing host (socket.supplied (k + j)) ≠ 0) :
    (socket.stretch k n).length ≤ (announced (socket.supplied k) - 4).toNat := by
  cases n with
  | zero => exact Nat.zero_le _
  | succ n =>
    have lacks := lacking n (Nat.lt_succ_self n)
    have fits := documented.fits (k + n) lacks
    rw [missing_body word accepted] at lacks fits
    rw [stretch_succ, List.length_append]
    omega

/-- The loop over the length word has ended with `k` calls. -/
theorem readUntil_word {k fuel : Nat}
    (going : ∀ j < k, socket.replies j ≠ .failed ∧ (socket.supplied j).length < 4)
    (word : 4 ≤ (socket.supplied k).length) (enough : k < fuel) :
    socket.readUntil 4 fuel ⟨0, [], false⟩ = some (.ok ⟨k, socket.supplied k, false⟩) := by
  have ends : socket.readUntil 4 fuel ⟨0, [], false⟩ =
      some (if (socket.supplied k).length < 4 then .error ()
        else .ok ⟨0 + k, socket.supplied k, false⟩) :=
    readUntil_ends (fun j hj => by rw [Nat.zero_add]; exact going j hj) (.inl word) enough
  rw [ends, if_neg (Nat.not_lt.mpr word), Nat.zero_add]

/-- The function behind the length word, if it goes on. -/
theorem serves_body {k fuel : Nat} {word : List UInt8}
    (first : socket.readUntil 4 fuel ⟨0, [], false⟩ = some (.ok ⟨k, word, false⟩))
    (accepted : Accepted host word) :
    socket.srReadFromServerExpect host sr expectedCmd fuel =
      match socket.readUntil (announced word - 4).toNat fuel ⟨k, [], false⟩ with
      | none => none
      | some (.error _) => some (.ok ⟨-1, sr.ifList, none⟩)
      | some (.ok rest) =>
        if size : rest.buf.length = (announced word).toNat - 4 then
          some (Router.srReadFromServerExpect host sr expectedCmd ⟨announced word, rest.buf, size⟩)
        else some (.error .outOfBounds) := by
  rw [srReadFromServerExpect, first]
  simp only
  rw [if_neg accepted.1, if_neg (not_not_intro accepted.2)]

/-- The loop over the body has not failed in its first `n` calls. -/
theorem going_body {k n : Nat} (word : (socket.supplied k).length = 4)
    (accepted : Accepted host (socket.supplied k))
    (going : ∀ j < k + n, socket.replies j ≠ .failed ∧ missing host (socket.supplied j) ≠ 0) :
    ∀ j < n, socket.replies (k + j) ≠ .failed ∧
      (socket.stretch k j).length < (announced (socket.supplied k) - 4).toNat := by
  intro j hj
  obtain ⟨alive, lacks⟩ := going (k + j) (Nat.add_lt_add_left hj k)
  rw [missing_body word accepted] at lacks
  exact ⟨alive, by omega⟩

theorem stop_body {k n : Nat} (word : (socket.supplied k).length = 4)
    (accepted : Accepted host (socket.supplied k))
    (stop : missing host (socket.supplied (k + n)) = 0 ∨ socket.replies (k + n) = .failed) :
    (announced (socket.supplied k) - 4).toNat ≤ (socket.stretch k n).length ∨
      socket.replies (k + n) = .failed := by
  rw [missing_body word accepted] at stop
  exact stop.imp_left Nat.le_of_sub_eq_zero

/-- A whole command that begins with the bytes read is what was read. -/
theorem command_eq {c : Command} {word body : List UInt8} {len : Int} (four : word.length = 4)
    (size : body.length = len.toNat - 4) (same : len = c.len) (begins : word ++ body <+: c.buf) :
    c = ⟨len, body, size⟩ := by
  obtain ⟨len', body', size'⟩ := c
  obtain rfl : len = len' := same
  obtain ⟨more, eq⟩ := begins
  rw [Command.buf, List.append_assoc] at eq
  have rest := (List.append_inj eq (four.trans (length_be32 _).symm)).2
  have none : more = [] := by
    have lengths := congrArg List.length rest
    rw [List.length_append, size, size'] at lengths
    exact List.eq_nil_of_length_eq_zero (by omega)
  rw [none, List.append_nil] at rest
  congr
  exact rest.symm

/-- The first call after which the length word is there, if one of the first
`n` is. -/
theorem exists_word (documented : socket.Documented host) (n : Nat) :
    (∀ j ≤ n, (socket.supplied j).length < 4) ∨
      ∃ k ≤ n, (∀ j < k, (socket.supplied j).length < 4) ∧ (socket.supplied k).length = 4 := by
  by_cases found : ∃ k, k ≤ n ∧ 4 ≤ (socket.supplied k).length
  · obtain ⟨few, long⟩ := Nat.find_spec found
    have before : ∀ j < Nat.find found, (socket.supplied j).length < 4 := by
      intro j hj
      have notYet := Nat.find_min found hj
      omega
    exact .inr ⟨Nat.find found, few, before,
      Nat.le_antisymm (length_word_le documented before) long⟩
  · refine .inl fun j hj => ?_
    have notYet := not_exists.mp found j
    omega

/-- With fuel for `n` calls the function returns. If these complete a command,
the command is what is served. -/
def EndsAfter (socket : Socket) (host : Host) (sr : Sr) (expectedCmd : UInt32) (n : Nat) : Prop :=
  ∃ served,
    (∀ fuel > n, socket.srReadFromServerExpect host sr expectedCmd fuel = some served) ∧
    ∀ c : Command, 8 ≤ c.len → c.len ≤ 10000 → socket.supplied n <+: c.buf →
      missing host (socket.supplied n) = 0 →
      served = Router.srReadFromServerExpect host sr expectedCmd c

/-- The length word never comes. -/
theorem endsAfter_of_no_word {n : Nat}
    (going : ∀ j < n, socket.replies j ≠ .failed ∧ missing host (socket.supplied j) ≠ 0)
    (stop : missing host (socket.supplied n) = 0 ∨ socket.replies n = .failed)
    (short : ∀ j ≤ n, (socket.supplied j).length < 4) :
    socket.EndsAfter host sr expectedCmd n := by
  have last := short n (Nat.le_refl n)
  have lacks : missing host (socket.supplied n) ≠ 0 := by
    rw [missing, if_pos last]
    omega
  have failed := stop.resolve_left lacks
  refine ⟨.ok ⟨-1, sr.ifList, none⟩, fun fuel enough => ?_, fun c _ _ _ h => absurd h lacks⟩
  have ends : socket.readUntil 4 fuel ⟨0, [], false⟩ =
      some (if (socket.supplied n).length < 4 then .error ()
        else .ok ⟨0 + n, socket.supplied n, false⟩) :=
    readUntil_ends
      (fun j hj => by rw [Nat.zero_add]; exact ⟨(going j hj).1, short j (Nat.le_of_lt hj)⟩)
      (.inr (by rwa [Nat.zero_add])) enough
  rw [srReadFromServerExpect, ends, if_pos last]

/-- The length word is there, and the function reads on. -/
theorem endsAfter_of_accepted (documented : socket.Documented host) {k n : Nat}
    (first : ∀ fuel > k + n, socket.readUntil 4 fuel ⟨0, [], false⟩ =
      some (.ok ⟨k, socket.supplied k, false⟩))
    (word : (socket.supplied k).length = 4) (accepted : Accepted host (socket.supplied k))
    (same : ∀ c : Command, 8 ≤ c.len → c.len ≤ 10000 → socket.supplied (k + n) <+: c.buf →
      announced (socket.supplied k) = c.len)
    (going : ∀ j < k + n, socket.replies j ≠ .failed ∧ missing host (socket.supplied j) ≠ 0)
    (stop : missing host (socket.supplied (k + n)) = 0 ∨ socket.replies (k + n) = .failed) :
    socket.EndsAfter host sr expectedCmd (k + n) := by
  have enoughBody : ∀ {fuel}, fuel > k + n → n < fuel := by omega
  have body {fuel : Nat} (enough : fuel > k + n) :=
    readUntil_ends (going_body word accepted going)
      (stop_body word accepted stop) (enoughBody enough)
  by_cases short : (socket.stretch k n).length < (announced (socket.supplied k) - 4).toNat
  · refine ⟨.ok ⟨-1, sr.ifList, none⟩, fun fuel enough => ?_, fun _ _ _ _ complete => ?_⟩
    · rw [serves_body (first fuel enough) accepted, body enough, if_pos short]
    · rw [missing_body word accepted] at complete
      omega
  · have size : (socket.stretch k n).length = (announced (socket.supplied k)).toNat - 4 := by
      have fits := length_body_le documented word accepted fun j hj =>
        (going (k + j) (Nat.add_lt_add_left hj k)).2
      omega
    refine ⟨Router.srReadFromServerExpect host sr expectedCmd
      ⟨announced (socket.supplied k), socket.stretch k n, size⟩, fun fuel enough => ?_,
      fun c low high begins _ => ?_⟩
    · rw [serves_body (first fuel enough) accepted, body enough, if_neg short]
      simp only
      rw [dif_pos size]
    · obtain rfl := command_eq word size (same c low high begins)
        (supplied_add socket k n ▸ begins)
      rfl

/-- The function ends at the first call that fails or leaves nothing missing. -/
theorem endsAfter_of_stop (sr : Sr) (expectedCmd : UInt32) (documented : socket.Documented host)
    {n : Nat}
    (going : ∀ j < n, socket.replies j ≠ .failed ∧ missing host (socket.supplied j) ≠ 0)
    (stop : missing host (socket.supplied n) = 0 ∨ socket.replies n = .failed) :
    socket.EndsAfter host sr expectedCmd n := by
  rcases exists_word documented n with none | ⟨k, few, short, word⟩
  · exact endsAfter_of_no_word going stop none
  · obtain ⟨n, rfl⟩ := Nat.exists_eq_add_of_le few
    have first : ∀ fuel > k + n, socket.readUntil 4 fuel ⟨0, [], false⟩ =
        some (.ok ⟨k, socket.supplied k, false⟩) := fun fuel enough =>
      readUntil_word (fun j hj => ⟨(going j (Nat.lt_add_right n hj)).1, short j hj⟩)
        (Nat.le_of_eq word.symm) (Nat.lt_of_le_of_lt (Nat.le_add_right k n) enough)
    have same : ∀ c : Command, 8 ≤ c.len → c.len ≤ 10000 → socket.supplied (k + n) <+: c.buf →
        announced (socket.supplied k) = c.len := by
      intro c low high begins
      obtain ⟨more, eq⟩ := begins
      rw [supplied_add, List.append_assoc] at eq
      rw [← announced_buf (c := c) ⟨by omega, high⟩, ← eq,
        announced_append (Nat.le_of_eq word.symm)]
    by_cases refused : announced (socket.supplied k) > 10000 ∨ announced (socket.supplied k) < 0
    · refine ⟨.ok ⟨-1, sr.ifList, none⟩, fun fuel enough => ?_, fun c low high begins _ => ?_⟩
      · rw [srReadFromServerExpect, first fuel enough]
        simp only
        rw [if_pos refused]
      · have := same c low high begins
        omega
    · by_cases memory : host.mallocOk = true
      · exact endsAfter_of_accepted documented first word ⟨refused, memory⟩ same going stop
      · refine ⟨.ok ⟨-1, sr.ifList, none⟩, fun fuel enough => ?_, fun c low high _ _ => ?_⟩
        · rw [srReadFromServerExpect, first fuel enough]
          simp only
          rw [if_neg refused, if_pos memory]
        · rw [Router.srReadFromServerExpect, if_neg (by omega), if_pos memory]

/-- While nothing fails and bytes are missing, the function goes on. -/
theorem not_returns (documented : socket.Documented host)
    (going : ∀ j, socket.replies j ≠ .failed ∧ missing host (socket.supplied j) ≠ 0) :
    ¬ socket.Returns host sr expectedCmd := by
  rintro ⟨n, served, returned⟩
  by_cases found : ∃ k, 4 ≤ (socket.supplied k).length
  · obtain ⟨k₀, long⟩ := found
    rcases exists_word documented k₀ with none | ⟨k, few, short, word⟩
    · exact Nat.not_lt.mpr long (none k₀ (Nat.le_refl k₀))
    · have whole := Nat.le_of_eq word.symm
      have lacks := (going k).2
      have accepted : Accepted host (socket.supplied k) := by
        by_contra refused
        rw [missing, if_neg (Nat.not_lt.mpr whole), if_neg refused] at lacks
        exact lacks rfl
      have first : socket.readUntil 4 (n + k + 1) ⟨0, [], false⟩ =
          some (.ok ⟨k, socket.supplied k, false⟩) :=
        readUntil_word (fun j hj => ⟨(going j).1, short j hj⟩) whole (by omega)
      have lost := readUntil_diverges (fun j => going_body (n := j + 1) word accepted
        (fun i _ => going i) j (Nat.lt_succ_self j)) (n + k + 1)
      have run := returned (n + k + 1) (by omega)
      rw [serves_body first accepted, lost] at run
      cases run
  · have run := returned n (Nat.le_refl n)
    rw [srReadFromServerExpect, readUntil_diverges] at run
    · cases run
    · intro j
      rw [Nat.zero_add]
      exact ⟨(going j).1, Nat.lt_of_not_le fun long => found ⟨j, long⟩⟩

/-- Behind the end of the stream nothing is supplied. -/
theorem supplied_closed (documented : socket.Documented host) {k : Nat}
    (closed : socket.replies k = .got []) (n : Nat) :
    socket.supplied (k + n) = socket.supplied k := by
  induction n with
  | zero => rfl
  | succ n ih =>
    have empty := documented.closed k closed (k + n) (Nat.le_add_right k n)
    rw [← Nat.add_assoc, supplied, stretch_succ, Nat.zero_add, ← supplied, ih, empty]
    exact List.append_nil _

theorem missing_mono {j k : Nat} (le : j ≤ k) (complete : missing host (socket.supplied j) = 0) :
    missing host (socket.supplied k) = 0 := by
  obtain ⟨n, rfl⟩ := Nat.exists_eq_add_of_le le
  rw [supplied_add]
  exact missing_append complete _

/-- A socket that is neither closed nor fails supplies any number of bytes. -/
theorem exists_supplied (documented : socket.Documented host)
    (open' : ∀ k, socket.replies k ≠ .failed ∧ socket.replies k ≠ .got []) (n : Nat) :
    ∃ k, n ≤ (socket.supplied k).length := by
  induction n with
  | zero => exact ⟨0, Nat.zero_le _⟩
  | succ n ih =>
    obtain ⟨k, long⟩ := ih
    obtain ⟨j, later, answered⟩ := documented.signalsStop k
    refine ⟨j + 1, ?_⟩
    obtain ⟨i, rfl⟩ := Nat.exists_eq_add_of_le later
    have some : 0 < (socket.replies (k + i)).bytes.length := by
      obtain ⟨alive, data⟩ := open' (k + i)
      cases reply : socket.replies (k + i) with
      | got bs =>
        exact List.length_pos_iff.mpr fun none => data (reply.trans (congrArg Reply.got none))
      | interrupted => exact absurd reply answered
      | failed => exact absurd reply alive
    rw [Nat.add_assoc, supplied_add, stretch_succ, List.length_append, List.length_append]
    omega

/-- No command is longer than this. -/
theorem missing_of_long {bs : List UInt8} (long : 10000 ≤ bs.length) : missing host bs = 0 := by
  rw [missing, if_neg (by omega)]
  split
  · rename_i accepted
    have := accepted.1
    omega
  · rfl

end Socket

/-- The connection is not closed before the command is complete: before a call
returns 0 another one failed, or the bytes supplied are a length word that is
refused or all that it announces. -/
def Socket.ClosedInTime (socket : Socket) (host : Host) : Prop :=
  ∀ k, socket.replies k = .got [] →
    (∃ j < k, socket.replies j = .failed) ∨ missing host (socket.supplied k) = 0

open Socket in
/-- `sr_read_from_server_expect` returns if and only if the connection is not
closed before the command is complete. A command that is supplied as a whole
is what it serves. -/
theorem reading_ends_iff (host : Host) (sr : Sr) (expectedCmd : UInt32) {socket : Socket}
    (documented : socket.Documented host) :
    (socket.Returns host sr expectedCmd ↔ socket.ClosedInTime host) ∧
      ∀ c : Command, 8 ≤ c.len → c.len ≤ 10000 →
        (∃ k, socket.supplied k = c.buf ∧ ∀ j < k, socket.replies j ≠ .failed) →
        ∃ n, ∀ fuel ≥ n, socket.srReadFromServerExpect host sr expectedCmd fuel =
          some (srReadFromServerExpect host sr expectedCmd c) := by
  have first (found : ∃ k, missing host (socket.supplied k) = 0 ∨ socket.replies k = .failed) :
      ∃ n, (∀ j < n, socket.replies j ≠ .failed ∧ missing host (socket.supplied j) ≠ 0) ∧
        (missing host (socket.supplied n) = 0 ∨ socket.replies n = .failed) ∧
        ∀ k, missing host (socket.supplied k) = 0 ∨ socket.replies k = .failed → n ≤ k := by
    classical
    refine ⟨Nat.find found, fun j hj => ?_, Nat.find_spec found, fun k stop =>
      Nat.find_min' found stop⟩
    exact (not_or.mp (Nat.find_min found hj)).symm
  constructor
  · constructor
    · intro returns k closed
      by_contra early
      rw [not_or, not_exists] at early
      refine not_returns documented (fun j => ?_) returns
      rcases Nat.lt_or_ge j k with before | after
      · exact ⟨fun failed => early.1 j ⟨before, failed⟩, fun complete =>
          early.2 (missing_mono (Nat.le_of_lt before) complete)⟩
      · obtain ⟨n, rfl⟩ := Nat.exists_eq_add_of_le after
        rw [supplied_closed documented closed, documented.closed k closed _ after]
        exact ⟨nofun, early.2⟩
    · intro inTime
      have found : ∃ k, missing host (socket.supplied k) = 0 ∨ socket.replies k = .failed := by
        by_contra never
        have never : ∀ k, missing host (socket.supplied k) ≠ 0 ∧ socket.replies k ≠ .failed :=
          fun k => not_or.mp fun stop => never ⟨k, stop⟩
        obtain ⟨k, long⟩ := exists_supplied documented (fun k => ⟨(never k).2, fun closed =>
          (inTime k closed).elim (fun ⟨j, _, failed⟩ => (never j).2 failed) (never k).1⟩) 10000
        exact (never k).1 (missing_of_long long)
      obtain ⟨n, going, stop, -⟩ := first found
      obtain ⟨served, run, -⟩ :=
        endsAfter_of_stop sr expectedCmd documented going stop
      exact ⟨n + 1, served, run⟩
  · rintro c low high ⟨k, whole, alive⟩
    have complete : missing host (socket.supplied k) = 0 := by
      rw [whole, missing, announced_buf ⟨by omega, high⟩, Command.length_buf (by omega),
        if_neg (by omega)]
      split <;> omega
    obtain ⟨n, going, stop, least⟩ := first ⟨k, .inl complete⟩
    have few := least k (.inl complete)
    have done : missing host (socket.supplied n) = 0 := by
      rcases Nat.lt_or_eq_of_le few with before | rfl
      · exact stop.resolve_right (alive n before)
      · exact complete
    obtain ⟨served, run, is⟩ :=
      endsAfter_of_stop sr expectedCmd documented going stop
    refine ⟨n + 1, fun fuel enough => ?_⟩
    obtain ⟨m, rfl⟩ := Nat.exists_eq_add_of_le few
    have begins : socket.supplied n <+: c.buf := by
      rw [← whole, supplied_add]
      exact List.prefix_append _ _
    rw [run fuel enough, is c low high begins done]

/-- A close command of nine bytes in pieces, with a signal in between; then
the server closes the connection. -/
def inPieces : Socket where
  replies
    | 0 => .got [0, 0]
    | 1 => .interrupted
    | 2 => .got [0, 9]
    | 3 => .got [0, 0, 0, 2, 0]
    | _ => .got []

theorem documented_inPieces : inPieces.Documented .idle where
  fits
    | 0 => by decide
    | 1 => by decide
    | 2 => by decide
    | 3 => by decide
    | _ + 4 => fun _ => Nat.zero_le _
  signalsStop k := ⟨k + 2, Nat.le_add_right k 2, by
    match k with
    | 0 => nofun
    | 1 => nofun
    | _ + 2 => nofun⟩
  closed
    | 0 => nofun
    | 1 => nofun
    | 2 => nofun
    | 3 => nofun
    | k + 4 => fun _ j hj => by
      obtain ⟨i, rfl⟩ := Nat.exists_eq_add_of_le' (Nat.le_of_add_left_le hj)
      rfl

theorem reading_ends_iff_inPieces :
    (inPieces.Returns .idle (srInit [] []) 0 ↔ inPieces.ClosedInTime .idle) ∧
      ∀ c : Command, 8 ≤ c.len → c.len ≤ 10000 →
        (∃ k, inPieces.supplied k = c.buf ∧ ∀ j < k, inPieces.replies j ≠ .failed) →
        ∃ n, ∀ fuel ≥ n, inPieces.srReadFromServerExpect .idle (srInit [] []) 0 fuel =
          some (srReadFromServerExpect .idle (srInit [] []) 0 c) :=
  reading_ends_iff .idle (srInit [] []) 0 documented_inPieces

/-- The server goes away without a word, and the function waits for ever. -/
theorem closed_connection_is_read_forever :
    ¬ ∀ (host : Host) (sr : Sr) (expectedCmd : UInt32) (socket : Socket),
      socket.Documented host → socket.Returns host sr expectedCmd := by
  intro returns
  let silent : Socket := ⟨fun _ => .got []⟩
  have nothing : ∀ k, silent.supplied k = [] := fun k =>
    List.flatMap_eq_nil_iff.mpr fun _ _ => rfl
  have documented : silent.Documented .idle :=
    ⟨fun _ _ => Nat.zero_le _, fun k => ⟨k, Nat.le_refl k, nofun⟩, fun _ _ _ _ => rfl⟩
  refine Socket.not_returns documented (fun j => ⟨nofun, ?_⟩)
    (returns .idle (srInit [] []) 0 silent documented)
  rw [nothing]
  decide

end NetLabs.Router

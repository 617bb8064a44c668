/-
NetLabs.Router.RoutingTableFile — the routing table read from a file, as
`sr_load_rt` of `lab1/router/sr_rt.c` does it.

The four buffers for the fields of a line outlive the line: `sscanf` fills as
many of them as the line has fields, and how many that are is not asked. So
what is converted after each read is `rows`, where a missing field is the one
of an earlier line or what the buffers held at the start. A field too long for
its buffer leaves it; the entries a load adds and whether it fails follow from
`rows` alone (`exact_srLoadRt`).

The old table goes when the first line has been converted. A load that fails
later leaves the entries of the lines before (`load_keeps_table_iff`). A load
that succeeds adds an entry for each read, whatever is in it, so the table is
what the file says only if every line has its four fields and fits
(`load_faithful_iff`).
-/
import NetLabs.Lib.Access
import NetLabs.Lib.Inet
import NetLabs.Lib.TextLines
import NetLabs.Router.ServerCommand

namespace NetLabs.Router

open NetLabs.Lib Access

/-! ## The routing table -/

/-- `sr_destory_rt(sr)` -/
def Sr.srDestoryRt (sr : Sr) : Sr := { sr with routingTable := [] }

/-- `sr_add_rt_entry(sr, dest, gw, mask, if_name)`: the entry comes last.
`strncpy` takes what the name of an interface can be. -/
def Sr.srAddRtEntry (sr : Sr) (dest gw mask : UInt32) (ifName : List UInt8) : Sr :=
  { sr with routingTable := sr.routingTable ++ [⟨dest, gw, mask, .ofField ifName⟩] }

/-! ## A line -/

/-- `BUFSIZ` -/
def bufsiz : Nat := 8192

/-- The size of each of the buffers for a field. -/
def fieldSize : Nat := 32

def newline : UInt8 := 10

/-- What `%s` after `%s` finds in a line. -/
def fieldsOf (line : List UInt8) : List (List UInt8) :=
  ((line.takeWhile (· ≠ 0)).splitOnP isSpace).filter (· ≠ [])

/-- The strings in `dest`, `gw`, `mask` and `iface`. -/
structure Fields where
  dest : List UInt8
  gw : List UInt8
  mask : List UInt8
  iface : List UInt8
  deriving DecidableEq, Repr

/-- The buffers that `words` are stored in change. -/
def Fields.store (fields : Fields) (words : List (List UInt8)) : Fields :=
  ⟨words.getD 0 fields.dest, words.getD 1 fields.gw, words.getD 2 fields.mask,
    words.getD 3 fields.iface⟩

/-- `sscanf(line, "%s %s %s %s", dest, gw, mask, iface)` -/
def Fields.sscanf (fields : Fields) (line : List UInt8) : Access Fields :=
  let words := (fieldsOf line).take 4
  if ∀ word ∈ words, word.length < fieldSize then .ok (fields.store words)
  else .error .outOfBounds

/-! ## The file -/

section

variable (inetAton : List UInt8 → Option UInt32)

/-- The loop over the reads of the file; `cleared` is `clear_routing_table`. -/
def loadLoop : List (List UInt8) → Fields → Bool → Sr → Access (Int × Sr)
  | [], _, _, sr => .ok (0, sr)
  | line :: rest, fields, cleared, sr => do
      let fields ← fields.sscanf line
      match inetAton fields.dest with
      | none => .ok (-1, sr)
      | some dest =>
        match inetAton fields.gw with
        | none => .ok (-1, sr)
        | some gw =>
          match inetAton fields.mask with
          | none => .ok (-1, sr)
          | some mask =>
            let sr := if cleared then sr else sr.srDestoryRt
            loadLoop rest fields true (sr.srAddRtEntry dest gw mask fields.iface)

/-- `sr_load_rt(sr, filename)`. The file is what `access` and `fopen` find
under the name; `fields` is what the buffers hold before anything is stored in
them. -/
def srLoadRt (fields : Fields) (file : Option (List UInt8)) (sr : Sr) : Access (Int × Sr) :=
  match file with
  | none => .ok (-1, sr)
  | some text => loadLoop inetAton (reads newline (bufsiz - 1) text) fields false sr

/-! ## What a load does -/

/-- The entry that four fields give, if the addresses can be converted. -/
def Fields.entry (fields : Fields) : Option SrRt :=
  match inetAton fields.dest, inetAton fields.gw, inetAton fields.mask with
  | some dest, some gw, some mask => some ⟨dest, gw, mask, .ofField fields.iface⟩
  | _, _, _ => none

end

/-- What the buffers hold after each line. -/
def Fields.rows : Fields → List (List UInt8) → List Fields
  | _, [] => []
  | fields, line :: rest =>
      let row := fields.store ((fieldsOf line).take 4)
      row :: row.rows rest

/-- The entries before the first line that could not be converted. -/
def converted : List (Option SrRt) → List SrRt
  | some entry :: rest => entry :: converted rest
  | _ => []

/-- A line could not be converted, and it was the first. -/
theorem converted_eq_nil_iff {entries : List (Option SrRt)} (fails : none ∈ entries) :
    converted entries = [] ↔ entries.head? = some none := by
  cases entries with
  | nil => cases fails
  | cons first rest => cases first <;> simp [converted]

theorem map_converted {entries : List (Option SrRt)} (all : none ∉ entries) :
    (converted entries).map some = entries := by
  induction entries with
  | nil => rfl
  | cons first rest ih =>
    rw [List.mem_cons, not_or] at all
    cases first with
    | none => exact absurd rfl all.1
    | some entry => rw [converted, List.map_cons, ih all.2]

section

variable (inetAton : List UInt8 → Option UInt32)

/-- Every field that is stored before a conversion fails fits its buffer. -/
def Fields.Fit : Fields → List (List UInt8) → Prop
  | _, [] => True
  | fields, line :: rest =>
      let row := fields.store ((fieldsOf line).take 4)
      (∀ word ∈ (fieldsOf line).take 4, word.length < fieldSize) ∧
        (row.entry inetAton ≠ none → row.Fit rest)

/-- The lines of a file as the conversions see them. -/
def Fields.entries (fields : Fields) (lines : List (List UInt8)) : List (Option SrRt) :=
  (fields.rows lines).map (Fields.entry inetAton)

variable {inetAton}

/-- One turn of the loop. -/
theorem loadLoop_cons (line : List UInt8) (rest : List (List UInt8)) (fields : Fields)
    (cleared : Bool) (sr : Sr) :
    loadLoop inetAton (line :: rest) fields cleared sr =
      fields.sscanf line >>= fun row =>
        match row.entry inetAton with
        | none => .ok (-1, sr)
        | some entry => loadLoop inetAton rest row true
            { sr with routingTable := (if cleared then sr.routingTable else []) ++ [entry] } := by
  rw [loadLoop]
  congr 1
  funext row
  rw [Fields.entry]
  cases inetAton row.dest <;> cases inetAton row.gw <;> cases inetAton row.mask <;>
    cases cleared <;> rfl

theorem exact_sscanf (fields : Fields) (line : List UInt8) :
    Exact (∀ word ∈ (fieldsOf line).take 4, word.length < fieldSize) (fields.sscanf line)
      (some (fields.store ((fieldsOf line).take 4))) :=
  ⟨fun fit => if_pos fit, fun long => if_neg long⟩

/-- The loop returns 0 if every line is converted, and has added an entry for
each line before the first that is not. -/
theorem exact_loadLoop (lines : List (List UInt8)) (fields : Fields) (cleared : Bool) (sr : Sr) :
    Exact (fields.Fit inetAton lines) (loadLoop inetAton lines fields cleared sr)
      (some (if none ∈ fields.entries inetAton lines then -1 else 0,
        { sr with routingTable :=
            (if cleared ∨ converted (fields.entries inetAton lines) = [] then sr.routingTable
              else []) ++ converted (fields.entries inetAton lines) })) := by
  induction lines generalizing fields cleared sr with
  | nil =>
    refine ⟨fun _ => ?_, fun h => absurd trivial h⟩
    simp [loadLoop, Fields.entries, Fields.rows, converted, deref]
  | cons line rest ih =>
    rw [loadLoop_cons]
    set row := fields.store ((fieldsOf line).take 4) with hrow
    have entries : fields.entries inetAton (line :: rest) =
        row.entry inetAton :: row.entries inetAton rest := rfl
    rw [entries]
    cases first : row.entry inetAton with
    | none =>
      refine ((exact_sscanf fields line).bind_ok ?_).congr ?_
      · rw [← hrow, first]
        simp [converted]
      · rw [Fields.Fit, ← hrow, first]
        simp
    | some entry =>
      refine ((exact_sscanf fields line).bind_some (q := row.Fit inetAton rest) ?_).congr ?_
      · rw [← hrow, first]
        refine (ih row true _).value fun _ => ?_
        simp [converted]
      · rw [Fields.Fit, ← hrow, first]
        simp

/-- The reads of a file that can be opened. -/
def readsOf (text : List UInt8) : List (List UInt8) := reads newline (bufsiz - 1) text

/-- What `sr_load_rt` does with a file: unless a field is too long, it fails if
a line cannot be converted, and the table has changed if one was before. -/
theorem exact_srLoadRt (fields : Fields) (text : List UInt8) (sr : Sr) :
    Exact (fields.Fit inetAton (readsOf text)) (srLoadRt inetAton fields (some text) sr)
      (some (if none ∈ fields.entries inetAton (readsOf text) then -1 else 0,
        { sr with routingTable :=
            (if converted (fields.entries inetAton (readsOf text)) = [] then sr.routingTable
              else []) ++ converted (fields.entries inetAton (readsOf text)) })) := by
  refine (exact_loadLoop (readsOf text) fields false sr).value fun _ => ?_
  simp

/-! ## All or nothing -/

/-- A failed load has kept the table. -/
def KeepsTable (sr : Sr) (result : Access (Int × Sr)) : Prop :=
  Within (fun r => r.1 = -1 → r.2.routingTable = sr.routingTable) result

/-- `sr_load_rt` never fails with another table than before if and only if the
fields it stores fit their buffers and the line that cannot be converted, if
there is one, is the first. The exception is a table that held the entries of
the lines before already. -/
theorem load_keeps_table_iff (inetAton : List UInt8 → Option UInt32) (fields : Fields)
    (file : Option (List UInt8)) (sr : Sr) :
    KeepsTable sr (srLoadRt inetAton fields file sr) ↔
      ∀ text ∈ file, fields.Fit inetAton (readsOf text) ∧
        (none ∈ fields.entries inetAton (readsOf text) →
          (fields.entries inetAton (readsOf text)).head? = some none ∨
            converted (fields.entries inetAton (readsOf text)) = sr.routingTable) := by
  cases file with
  | none => exact iff_of_true (fun _ => rfl) nofun
  | some text =>
    rw [KeepsTable, (exact_srLoadRt fields text sr).within_iff]
    simp only [Option.mem_some_iff, forall_eq']
    refine and_congr_right fun _ => ?_
    by_cases fails : none ∈ fields.entries inetAton (readsOf text)
    · rw [if_pos fails, forall_prop_of_true rfl, forall_prop_of_true fails]
      rw [← converted_eq_nil_iff fails]
      by_cases first : converted (fields.entries inetAton (readsOf text)) = []
      · simp [first]
      · simp [first]
    · rw [if_neg fails]
      exact iff_of_true nofun fun h => absurd h fails

/-- `inet_aton`, with an address as the number its bytes spell. -/
def inetAtonWord (text : List UInt8) : Option UInt32 := (Lib.inetAton text).map ofBe32

/-- With a route in the table a file of two lines is loaded, the second of
which is not a route. -/
theorem load_leaves_first_line :
    ¬ ∀ (inetAton : List UInt8 → Option UInt32) (fields : Fields) (file : Option (List UInt8))
        (sr sr' : Sr), srLoadRt inetAton fields file sr = .ok (-1, sr') →
      sr'.routingTable = sr.routingTable := by
  intro keeps
  have run : srLoadRt inetAtonWord ⟨[], [], [], []⟩
      (some [49, 32, 49, 32, 49, 32, 101, 10, 120, 10])
      (srInit [] [⟨9, 9, 9, ⟨[], by decide, by decide⟩⟩]) =
        .ok (-1, srInit [] [⟨1, 1, 1, ⟨[101], by decide, by decide⟩⟩]) := by
    decide +kernel
  have same := keeps _ _ _ _ _ run
  revert same
  decide

/-! ## The table and the file -/

/-- The fields of a line that has all four. -/
def Fields.ofLine (line : List UInt8) : Option Fields :=
  match fieldsOf line with
  | dest :: gw :: mask :: iface :: _ => some ⟨dest, gw, mask, iface⟩
  | _ => none

/-- The entries the file describes: one for each line with four fields. -/
def describedBy (inetAton : List UInt8 → Option UInt32) (text : List UInt8) :
    List (Option SrRt) :=
  ((lines newline text).filterMap Fields.ofLine).map (Fields.entry inetAton)

/-- The table after a load that succeeded is what the file describes. -/
def LoadsFile (inetAton : List UInt8 → Option UInt32) (text : List UInt8)
    (result : Access (Int × Sr)) : Prop :=
  Within (fun r => r.1 = 0 → r.2.routingTable.map some = describedBy inetAton text) result

theorem ofLine_isSome_iff {line : List UInt8} :
    (Fields.ofLine line).isSome ↔ 4 ≤ (fieldsOf line).length := by
  rw [Fields.ofLine]
  split
  · rename_i h
    simp [h]
  · rename_i h
    refine iff_of_false (by simp) fun long => ?_
    match words : fieldsOf line, long with
    | dest :: gw :: mask :: iface :: rest, _ => exact h dest gw mask iface rest words

/-- Nothing is carried over to a line that has its four fields. -/
theorem rows_eq_filterMap {fields : Fields} {file : List (List UInt8)}
    (whole : ∀ line ∈ file, 4 ≤ (fieldsOf line).length) :
    fields.rows file = file.filterMap Fields.ofLine := by
  induction file generalizing fields with
  | nil => rfl
  | cons line rest ih =>
    obtain ⟨first, others⟩ := List.forall_mem_cons.mp whole
    match words : fieldsOf line, first with
    | dest :: gw :: mask :: iface :: more, _ =>
      have own : Fields.ofLine line = some ⟨dest, gw, mask, iface⟩ := by
        rw [Fields.ofLine, words]
      rw [List.filterMap_cons_some own, Fields.rows, ih others, words]
      rfl

theorem length_rows (fields : Fields) (file : List (List UInt8)) :
    (fields.rows file).length = file.length := by
  induction file generalizing fields with
  | nil => rfl
  | cons line rest ih => rw [Fields.rows, List.length_cons, ih, List.length_cons]

/-- The reads are entered as the file describes if each of them is a line with
four fields. -/
theorem entries_eq_iff (inetAton : List UInt8 → Option UInt32) (fields : Fields)
    (text : List UInt8) :
    fields.entries inetAton (readsOf text) = describedBy inetAton text ↔
      ∀ line ∈ lines newline text, line.length < bufsiz ∧ 4 ≤ (fieldsOf line).length := by
  have positive : 0 < bufsiz - 1 := by decide
  constructor
  · intro same
    have size := congrArg List.length same
    rw [Fields.entries, List.length_map, length_rows, describedBy, List.length_map] at size
    have fewer := List.length_filterMap_le Fields.ofLine (lines newline text)
    have cut : readsOf text = lines newline text := reads_eq_lines positive (size.trans_le fewer)
    have short := (reads_eq_lines_iff positive).mp cut
    rw [cut] at size
    have each := List.filterMap_length_eq_length.mp size.symm
    exact fun line mem => ⟨Nat.lt_of_le_pred (by decide) (short line mem),
      ofLine_isSome_iff.mp (each line mem)⟩
  · intro whole
    have cut : readsOf text = lines newline text :=
      (reads_eq_lines_iff positive).mpr fun line mem => Nat.le_pred_of_lt (whole line mem).1
    rw [Fields.entries, describedBy, cut, rows_eq_filterMap fun line mem => (whole line mem).2]

/-- `sr_load_rt` returns 0 with no other table than the file describes if and
only if the fields it stores fit their buffers and, where all of them can be
converted, every line of the file fits the buffer and has its four fields. An
empty file leaves the table as it was. -/
theorem load_faithful_iff (inetAton : List UInt8 → Option UInt32) (fields : Fields)
    (text : List UInt8) (sr : Sr) :
    LoadsFile inetAton text (srLoadRt inetAton fields (some text) sr) ↔
      fields.Fit inetAton (readsOf text) ∧
        (none ∉ fields.entries inetAton (readsOf text) →
          (∀ line ∈ lines newline text, line.length < bufsiz ∧ 4 ≤ (fieldsOf line).length) ∧
            (text = [] → sr.routingTable = [])) := by
  rw [LoadsFile, (exact_srLoadRt fields text sr).within_iff]
  refine and_congr_right fun _ => ?_
  by_cases fails : none ∈ fields.entries inetAton (readsOf text)
  · rw [if_pos fails]
    exact iff_of_true nofun fun h => absurd fails h
  · rw [if_neg fails, forall_prop_of_true rfl, forall_prop_of_true fails,
      ← entries_eq_iff inetAton fields text]
    have each := map_converted fails
    by_cases empty : text = []
    · subst empty
      have none : fields.entries inetAton (readsOf []) = [] := rfl
      rw [none]
      simp [converted, describedBy, lines]
    · have some : converted (fields.entries inetAton (readsOf text)) ≠ [] := by
        intro none
        rw [none, List.map_nil] at each
        have size := congrArg List.length each
        rw [Fields.entries, List.length_map, length_rows, List.length_nil] at size
        have fewer : (lines newline text).length ≤ (readsOf text).length :=
          length_lines_le (by decide) text
        have nothing : lines newline text = [] :=
          List.eq_nil_of_length_eq_zero (Nat.le_zero.mp (size ▸ fewer))
        exact empty (lines_eq_nil_iff.mp nothing)
      rw [if_neg some, List.nil_append, each]
      exact (and_iff_left fun h => absurd h empty).symm

/-- A route and an empty line give the route twice. -/
theorem blank_line_is_an_entry :
    ¬ ∀ (inetAton : List UInt8 → Option UInt32) (fields : Fields) (text : List UInt8)
        (sr sr' : Sr), srLoadRt inetAton fields (some text) sr = .ok (0, sr') →
      sr'.routingTable.map some = describedBy inetAton text := by
  intro faithful
  have run : srLoadRt inetAtonWord ⟨[], [], [], []⟩
      (some [49, 32, 49, 32, 49, 32, 101, 10, 10]) (srInit [] []) =
        .ok (0, srInit [] [⟨1, 1, 1, ⟨[101], by decide, by decide⟩⟩,
          ⟨1, 1, 1, ⟨[101], by decide, by decide⟩⟩]) := by
    decide +kernel
  have same := congrArg List.length (faithful _ _ _ _ _ run)
  revert same
  decide

end

end NetLabs.Router

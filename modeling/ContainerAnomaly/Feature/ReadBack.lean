import ContainerAnomaly.Feature.File

/-!
# Reading the feature file back

What a run of agents leaves in the file when none of their writes is cut short: the header, and the
rows that were written, in their order (`Whole`). Read back as comma-separated records it gives the
columns and a record for each vector (`file_read_back`), and the numbers under a column add up to
what the vectors of a container held (`total_eq_emitted`).
-/

namespace ContainerAnomaly.Feature

open Lib

variable (location : Int → Int)

/-- A step that leaves a line cut short, by the end of the run or by a write that fails, or a file
without its header. -/
def tears (moment : World × Call) : Bool :=
  match moment.1.phase, moment.2 with
  | .header _, .crash | .row _ _, .crash => true
  | .header _, .write taken | .row _ _, .write taken => taken = 0
  | .statted false, .openFile false => moment.1.content.isNone
  | _, _ => false

/-- The vector whose row is complete after a step. -/
def rowWritten (moment : World × Call) : Option Vector :=
  match moment.1.phase, moment.2 with
  | .row v written, .write taken =>
    if taken ≠ 0 ∧ (rowLine location v).length ≤ written + taken then some v else none
  | _, _ => none

/-- The header and some rows. -/
def fileText (rows : List Vector) : GoString :=
  headerLine ++ (rows.map (rowLine location)).flatten

/-- The file holds the header and the rows, up to the line that is being written. -/
def Whole (rows : List Vector) (world : World) : Prop :=
  match world.phase with
  | .header written => world.content = some (headerLine.take written) ∧ rows = []
  | .row v written =>
    world.content = some (fileText location rows ++ (rowLine location v).take written)
  | .ready => world.content = some (fileText location rows)
  | .idle => world.content = none ∧ rows = [] ∨ world.content = some (fileText location rows)
  | .statted newFile =>
    world.content = none ∧ rows = [] ∨
      newFile = false ∧ world.content = some (fileText location rows)
  | .failed => False

/-- Another row. -/
theorem fileText_snoc (rows : List Vector) (v : Vector) :
    fileText location (rows ++ [v]) = fileText location rows ++ rowLine location v := by
  simp [fileText]

/-- A line that is written in parts. -/
theorem take_append_part (line : GoString) (written taken : Nat) :
    line.take written ++ (line.drop written).take taken = line.take (written + taken) :=
  List.take_add.symm

/-- While the header is written, a step that does not tear writes more of it. -/
theorem whole_header {content : Option GoString} {written : Nat}
    (begun : content = some (headerLine.take written)) (call : Call)
    (sound : ¬ tears (⟨content, .header written⟩, call)) :
    Whole location [] (World.step location ⟨content, .header written⟩ call).1 := by
  cases call with
  | write taken =>
    have some_taken : taken ≠ 0 := by simpa [tears] using sound
    by_cases full : headerLine.length ≤ written + taken
    · simp [World.step, some_taken, full, World.append, Whole, begun, fileText, take_append_part,
        List.take_of_length_le full]
    · simp [World.step, some_taken, full, World.append, Whole, begun, take_append_part]
  | crash => exact absurd rfl sound
  | _ => exact ⟨begun, rfl⟩

/-- In a row, a step that does not tear writes more of it. -/
theorem whole_row {content : Option GoString} {rows : List Vector} {v : Vector} {written : Nat}
    (begun : content = some (fileText location rows ++ (rowLine location v).take written))
    (call : Call) (sound : ¬ tears (⟨content, .row v written⟩, call)) :
    Whole location (rows ++ (rowWritten location (⟨content, .row v written⟩, call)).toList)
      (World.step location ⟨content, .row v written⟩ call).1 := by
  have stays : ∀ call, rowWritten location (⟨content, .row v written⟩, call) = none →
      (World.step location ⟨content, .row v written⟩ call).1 = ⟨content, .row v written⟩ →
      Whole location (rows ++ (rowWritten location (⟨content, .row v written⟩, call)).toList)
        (World.step location ⟨content, .row v written⟩ call).1 := by
    intro call none_written same
    rw [none_written, same, Option.toList_none, List.append_nil]
    exact begun
  cases call with
  | write taken =>
    have some_taken : taken ≠ 0 := by simpa [tears] using sound
    by_cases full : (rowLine location v).length ≤ written + taken
    · simp [World.step, rowWritten, some_taken, full, World.append, Whole, begun, fileText_snoc,
        take_append_part, List.take_of_length_le full]
    · simp [World.step, rowWritten, some_taken, full, World.append, Whole, begun,
        take_append_part]
  | crash => exact absurd rfl sound
  | stat fails => exact stays _ rfl rfl
  | openFile fails => exact stays _ rfl rfl
  | row w => exact stays _ rfl rfl
  | close => exact stays _ rfl rfl

/-- Between lines, a step that does not tear leaves the file as it is, or starts one. -/
theorem whole_between {world : World} {rows : List Vector} (whole : Whole location rows world)
    (between : ∀ v written, world.phase ≠ .row v written)
    (after : ∀ written, world.phase ≠ .header written) (call : Call)
    (sound : ¬ tears (world, call)) :
    Whole location (rows ++ (rowWritten location (world, call)).toList)
      (world.step location call).1 := by
  obtain ⟨content, phase⟩ := world
  have no_row : rowWritten location (⟨content, phase⟩, call) = none := by
    unfold rowWritten
    dsimp only
    split
    · exact absurd rfl (between _ _)
    · rfl
  rw [no_row, Option.toList_none, List.append_nil]
  cases phase with
  | header written => exact absurd rfl (after written)
  | row v written => exact absurd rfl (between v written)
  | failed => exact whole.elim
  | ready =>
    cases call with
    | row v =>
      have text : content = some (fileText location rows) := whole
      simp [World.step, Whole, text]
    | close => exact .inr whole
    | crash => exact .inr whole
    | _ => exact whole
  | idle =>
    cases call with
    | stat fails =>
      rcases whole with ⟨absent, none_yet⟩ | there
      · exact .inl ⟨absent, none_yet⟩
      · refine .inr ⟨?_, there⟩
        have text : content = some (fileText location rows) := there
        simp [text]
    | _ => exact whole
  | statted newFile =>
    cases call with
    | openFile fails =>
      cases fails with
      | true => exact whole.imp_right And.right
      | false =>
        rcases whole with ⟨absent, rfl⟩ | ⟨old, there⟩
        · have fresh : newFile = true := by
            by_contra old
            rw [Bool.not_eq_true] at old
            subst old
            have none_there : content = none := absent
            exact sound (by simp [tears, none_there])
          have none_there : content = none := absent
          simp [World.step, Whole, fresh, none_there]
        · have text : content = some (fileText location rows) := there
          have known : newFile = false := old
          simp [World.step, Whole, known, text]
    | crash => exact whole.imp_right And.right
    | _ => exact whole

/-- A step that does not tear keeps the file whole. -/
theorem whole_step {world : World} {rows : List Vector} (whole : Whole location rows world)
    (call : Call) (sound : ¬ tears (world, call)) :
    Whole location (rows ++ (rowWritten location (world, call)).toList)
      (world.step location call).1 := by
  obtain ⟨content, phase⟩ := world
  cases phase with
  | header written =>
    obtain ⟨begun, none_yet⟩ := whole
    obtain rfl : rows = [] := none_yet
    have no_row : rowWritten location (⟨content, .header written⟩, call) = none := rfl
    rw [no_row]
    exact whole_header location begun call sound
  | row v written => exact whole_row location whole call sound
  | _ =>
    refine whole_between location whole (fun v written same => ?_) (fun written same => ?_) call
      sound
    · cases same
    · cases same

/-- In every run from no file in which nothing is torn, the file is whole. -/
theorem whole_run (calls : List Call)
    (untorn : ∀ moment ∈ (agents location).trace ⟨none, .idle⟩ calls, ¬ tears moment) :
    Whole location (((agents location).trace ⟨none, .idle⟩ calls).filterMap (rowWritten location))
      ((agents location).final ⟨none, .idle⟩ calls) := by
  have begins : Whole location [] ⟨none, .idle⟩ := Or.inl ⟨rfl, rfl⟩
  refine (agents location).invariant
    (fun past world => Whole location (past.filterMap (rowWritten location)) world)
    (fun world call => ¬ tears (world, call)) begins ?_ calls untorn
  intro past world call whole sound
  rw [List.filterMap_append]
  exact whole_step location whole call sound

/-- The agent is not in the middle of a line. -/
def Phase.Settled : Phase → Prop
  | .idle | .statted _ | .ready => True
  | _ => False

instance : DecidablePred Phase.Settled := fun phase => by
  unfold Phase.Settled
  split <;> infer_instance

/-- Between lines, what is in the file is the header and the rows. -/
theorem Whole.content_eq {rows : List Vector} {world : World} (whole : Whole location rows world)
    (settled : world.phase.Settled) {text : GoString} (filed : world.content = some text) :
    text = fileText location rows := by
  have same : world.content = some (fileText location rows) → text = fileText location rows :=
    fun there => Option.some.inj (filed.symm.trans there)
  have absent : world.content ≠ none := by simp [filed]
  obtain ⟨content, phase⟩ := world
  cases phase with
  | header written | row v written | failed => exact settled.elim
  | ready => exact same whole
  | idle => exact whole.elim (fun none_there => absurd none_there.1 absent) same
  | statted newFile =>
    exact whole.elim (fun none_there => absurd none_there.1 absent) fun there => same there.2

/-- Without a file there are no rows. -/
theorem Whole.rows_eq {rows : List Vector} {world : World} (whole : Whole location rows world)
    (settled : world.phase.Settled) (absent : world.content = none) : rows = [] := by
  obtain ⟨content, phase⟩ := world
  obtain rfl : content = none := absent
  cases phase with
  | header written | row v written | failed => exact settled.elim
  | ready => cases whole
  | idle => exact whole.elim And.right fun there => by cases there
  | statted newFile => exact whole.elim And.right fun there => by cases there.2

/-- The header has no carriage return. -/
theorem clean_headers : ∀ name ∈ headers, Csv.carriageReturn ∉ name := by decide +kernel

/-- The header and the rows of clean vectors are read back. -/
theorem readAll_fileText {rows : List Vector} (clean : ∀ v ∈ rows, v.Clean) :
    Csv.readAll (fileText location rows) =
      some (headers :: rows.map (Vector.record (formatsIn location))) := by
  have lines : fileText location rows =
      ((headers :: rows.map (Vector.record (formatsIn location))).map Csv.writeRecord).flatten := by
    rw [List.map_cons, List.flatten_cons, List.map_map]
    rfl
  rw [lines]
  refine Csv.readAll_writeRecords (by decide : 2 ≤ headers.length) (fun record listed => ?_)
    (fun record listed => ?_)
  · rcases List.mem_cons.mp listed with rfl | row
    · rfl
    · obtain ⟨v, _, rfl⟩ := List.mem_map.mp row
      simp [record_eq, layout, headers]
  · rcases List.mem_cons.mp listed with rfl | row
    · exact clean_headers
    · obtain ⟨v, inside, rfl⟩ := List.mem_map.mp row
      exact (clean v inside).record location

/-- After every run from no file in which nothing is torn and every vector is clean, there is no
file and no row was written, or it is read back as the headers and the vectors written, in their
order. -/
theorem file_read_back (calls : List Call)
    (untorn : ∀ moment ∈ (agents location).trace ⟨none, .idle⟩ calls, ¬ tears moment)
    (settled : ((agents location).final ⟨none, .idle⟩ calls).phase.Settled) :
    let rows := ((agents location).trace ⟨none, .idle⟩ calls).filterMap (rowWritten location)
    let content := ((agents location).final ⟨none, .idle⟩ calls).content
    (∀ v ∈ rows, v.Clean) → content = none ∧ rows = [] ∨ ∃ text, content = some text ∧
      Csv.readAll text = some (headers :: rows.map (Vector.record (formatsIn location))) := by
  intro rows content clean
  have whole := whole_run location calls untorn
  cases there : content with
  | none => exact .inl ⟨rfl, whole.rows_eq location settled there⟩
  | some text =>
    refine .inr ⟨text, rfl, ?_⟩
    rw [whole.content_eq location settled there]
    exact readAll_fileText location clean

/-- Two agents, one after the other, of which the second finds the file and the first writes a row
in two parts. -/
def twoAgents : List Call :=
  [.stat false, .openFile false, .write 500, .write 55, .row {}, .write 40, .write 80, .close,
    .stat false, .openFile false, .row {}, .write 113, .close]

/-- They leave two rows. -/
theorem file_read_back_twoAgents :
    let rows := ((agents fun _ => 0).trace ⟨none, .idle⟩ twoAgents).filterMap
      (rowWritten fun _ => 0)
    rows.length = 2 ∧
      ∃ text, ((agents fun _ => 0).final ⟨none, .idle⟩ twoAgents).content = some text ∧
        Csv.readAll text = some (headers :: rows.map (Vector.record (formatsIn fun _ => 0))) := by
  intro rows
  have two : rows.length = 2 := by decide +kernel
  have clean : ∀ v ∈ rows, v.Clean := by
    have all : (rows.all fun v => Csv.carriageReturn ∉ v.containerID ∧
        Csv.carriageReturn ∉ v.name ∧ Csv.carriageReturn ∉ v.image) = true := by decide +kernel
    intro v inside
    obtain ⟨containerID, name, image⟩ := of_decide_eq_true (List.all_eq_true.mp all v inside)
    exact ⟨containerID, name, image⟩
  rcases file_read_back (fun _ => 0) twoAgents (by decide +kernel) (by decide +kernel) clean with
    ⟨_, none_written⟩ | back
  · have empty : rows = [] := none_written
    rw [empty] at two
    cases two
  · exact ⟨two, back⟩

/-- The column of a counter. -/
def counterColumn : Counter → GoString
  | .procExits => lit "proc_exits"
  | .procCrashes => lit "proc_crashes"
  | .tcpBytesTx => lit "tcp_bytes_tx"
  | .tcpBytesRx => lit "tcp_bytes_rx"
  | .tcpRetrans => lit "tcp_retrans"
  | .cpuRuntimeNS => lit "cpu_runtime_ns"
  | .sys field => sysColumn field

/-- The sum of the numbers that stand under a column in the rows of a container, by the names in
the first record. -/
def columnTotal (records : List (List GoString)) (cid column : GoString) : UInt64 :=
  match records with
  | [] => 0
  | names :: rows =>
    ((rows.filter fun row => (names.zip row).lookup (lit "container_id") = some cid).map fun row =>
      (GoString.parseUint (((names.zip row).lookup column).getD [])).1).sum

/-- A counter stands under its column. -/
theorem cellOf_counter (formats : Formats) (v : Vector) (counter : Counter) :
    cellOf (v.record formats) (counterColumn counter) = some (utoa (v.get counter)) := by
  have cell : ∀ kind : Cell, (counterColumn counter, kind) ∈ layout →
      cellOf (v.record formats) (counterColumn counter) = some (kind.print formats v) :=
    fun kind listed => cellOf_layout formats v listed
  cases counter with
  | sys field => exact cellOf_sys formats v field
  | procExits => exact cell (.count Vector.procExits) (by simp [layout, counterColumn])
  | procCrashes => exact cell (.count Vector.procCrashes) (by simp [layout, counterColumn])
  | tcpBytesTx => exact cell (.count Vector.tcpBytesTx) (by simp [layout, counterColumn])
  | tcpBytesRx => exact cell (.count Vector.tcpBytesRx) (by simp [layout, counterColumn])
  | tcpRetrans => exact cell (.count Vector.tcpRetrans) (by simp [layout, counterColumn])
  | cpuRuntimeNS => exact cell (.count Vector.cpuRuntimeNS) (by simp [layout, counterColumn])

/-- The container of a row stands under its column. -/
theorem cellOf_containerID (formats : Formats) (v : Vector) :
    cellOf (v.record formats) (lit "container_id") = some v.containerID := by
  have listed : (lit "container_id", Cell.identity Vector.containerID) ∈ layout := by
    simp [layout]
  exact cellOf_layout formats v listed

/-- The numbers under a column add up to what the vectors of the container hold. -/
theorem total_eq_emitted (formats : Formats) (rows : List Vector) (cid : GoString)
    (counter : Counter) :
    columnTotal (headers :: rows.map (Vector.record formats)) cid (counterColumn counter) =
      emitted counter (rows.filter fun v => v.containerID = cid) := by
  have own : ∀ v ∈ rows, ((fun row => decide ((headers.zip row).lookup (lit "container_id") =
      some cid)) ∘ Vector.record formats) v = decide (v.containerID = cid) := by
    intro v _
    have cell := cellOf_containerID formats v
    unfold cellOf at cell
    simp [cell]
  rw [columnTotal, List.filter_map, List.map_map, List.filter_congr own, emitted]
  congr 1
  refine List.map_congr_left fun v _ => ?_
  have cell := cellOf_counter formats v counter
  unfold cellOf at cell
  have number : (utoa (v.get counter)).parseUint = (v.get counter, none) :=
    GoString.parseUint_decimal (v.get counter)
  rw [Function.comp_apply, cell, Option.getD_some, number]

end ContainerAnomaly.Feature

import ContainerAnomaly.Feature.File

/-!
# Where the header stands

What matters of the file and the agent on it is less than they are: there is no file, or its header
is being written, or it is a text that nobody changes with a part of a row after it. Every step is a
move between these situations, and the moves tell when the file has its header (`headed_iff`).
-/

namespace ContainerAnomaly.Feature

open Lib GoString

/-- What has become of the file. -/
inductive Situation where
  | absent
  /-- As many bytes of the header are written. -/
  | begun (written : Nat)
  /-- A text that is left as it is, and the part of a row that is being written after it. -/
  | filed (base part : GoString)

variable (location : Int → Int)

/-- The world is in a situation. -/
def World.Shows (world : World) : Situation → Prop
  | .absent =>
    world.content = none ∧ (world.phase = .idle ∨ ∃ newFile, world.phase = .statted newFile)
  | .begun written =>
    world.content = some (headerLine.take written) ∧ world.phase = .header written ∧
      written < headerLine.length
  | .filed base part =>
    world.content = some (base ++ part) ∧
      match world.phase with
      | .row v written =>
        part = (rowLine location v).take written ∧ written < (rowLine location v).length
      | .statted newFile => newFile = false ∧ part = []
      | .header _ => False
      | _ => part = []

/-- A move from a situation to another: whether it spoils the file, and whether a write returns. -/
inductive Move (spoils wrote : Prop) : Situation → Situation → Prop
  | stay (x : Situation) (sound : ¬ spoils) (silent : ¬ wrote) : Move spoils wrote x x
  | create (sound : ¬ spoils) (silent : ¬ wrote) : Move spoils wrote .absent (.begun 0)
  | bare (does : spoils) (silent : ¬ wrote) : Move spoils wrote .absent (.filed [] [])
  | proceed (written later : Nat) (sound : ¬ spoils) (silent : ¬ wrote) :
    Move spoils wrote (.begun written) (.begun later)
  | complete (written : Nat) (sound : ¬ spoils) (silent : ¬ wrote) :
    Move spoils wrote (.begun written) (.filed headerLine [])
  | cut (written : Nat) (short : written < headerLine.length) (does : spoils) (silent : ¬ wrote) :
    Move spoils wrote (.begun written) (.filed (headerLine.take written) [])
  | settle (base part : GoString) (marked : Marked headerLine part)
    (told : spoils → newline :: headerLine <:+: part) (silent : ¬ wrote) :
    Move spoils wrote (.filed base part) (.filed (base ++ part) [])
  | extend (base part added : GoString) (longer : part <+: added)
    (told : spoils ↔ newline :: headerLine <:+: added) (marked : Marked headerLine added)
    (silent : ¬ wrote) : Move spoils wrote (.filed base part) (.filed base added)
  | finish (base part added : GoString) (longer : part <+: added)
    (told : spoils ↔ newline :: headerLine <:+: added) (marked : Marked headerLine added) :
    Move spoils wrote (.filed base part) (.filed (base ++ added) [])

/-- A part of a row starts with a byte that the header does not have. -/
theorem marked_take (v : Vector) (written : Nat) :
    Marked headerLine ((rowLine location v).take written) := by
  obtain ⟨c, rest, line, apart⟩ := rowLine_cons location v
  intro d first
  rw [line] at first
  cases written with
  | zero => cases first
  | succ written =>
    obtain rfl := Option.some.inj first
    exact apart

/-- Where there is no file, a step leaves it so, starts one with a header, or makes one without. -/
theorem move_absent {world : World} (shows : world.Shows location .absent) (call : Call) :
    ∃ y, (world.step location call).1.Shows location y ∧
      Move (Spoils location (world, call)) (.written ∈ (world.step location call).2) .absent y := by
  obtain ⟨content, phase⟩ := world
  obtain ⟨none_there, place⟩ := shows
  obtain rfl : content = none := none_there
  rcases place with here | ⟨newFile, here⟩
  · obtain rfl : phase = .idle := here
    cases call with
    | stat fails =>
      exact ⟨.absent, ⟨rfl, .inr ⟨_, rfl⟩⟩, .stay _ id (by simp [World.step])⟩
    | _ => exact ⟨.absent, ⟨rfl, .inl rfl⟩, .stay _ id (by simp [World.step])⟩
  · obtain rfl : phase = .statted newFile := here
    cases call with
    | openFile fails =>
      cases fails with
      | true =>
        refine ⟨.absent, ⟨rfl, .inl rfl⟩, .stay _ ?_ (by simp [World.step])⟩
        cases newFile <;> exact id
      | false =>
        cases newFile with
        | true => exact ⟨.begun 0, ⟨rfl, rfl, headerLine_pos⟩, .create id (by simp [World.step])⟩
        | false => exact ⟨.filed [] [], ⟨rfl, rfl⟩, .bare rfl (by simp [World.step])⟩
    | crash =>
      refine ⟨.absent, ⟨rfl, .inl rfl⟩, .stay _ ?_ (by simp [World.step])⟩
      cases newFile <;> exact id
    | _ =>
      refine ⟨.absent, ⟨rfl, .inr ⟨newFile, rfl⟩⟩, .stay _ ?_ (by simp [World.step])⟩
      cases newFile <;> exact id

/-- While the header is written, a step writes more of it, completes it or cuts it short. -/
theorem move_begun {world : World} {written : Nat} (shows : world.Shows location (.begun written))
    (call : Call) :
    ∃ y, (world.step location call).1.Shows location y ∧
      Move (Spoils location (world, call)) (.written ∈ (world.step location call).2)
        (.begun written) y := by
  obtain ⟨content, phase⟩ := world
  obtain ⟨begun, here, short⟩ := shows
  obtain rfl : content = some (headerLine.take written) := begun
  obtain rfl : phase = .header written := here
  cases call with
  | write taken =>
    by_cases failed : taken = 0
    · refine ⟨.filed (headerLine.take written) [], ?_, .cut written short failed ?_⟩
      · simp [World.step, failed, World.Shows]
      · simp [World.step, failed]
    · have longer : headerLine.take written ++ (headerLine.drop written).take taken =
          headerLine.take (written + taken) := List.take_add.symm
      by_cases full : headerLine.length ≤ written + taken
      · refine ⟨.filed headerLine [], ?_, .complete written failed ?_⟩
        · simp [World.step, failed, full, World.append, World.Shows, longer,
            List.take_of_length_le full]
        · simp [World.step, failed]
      · refine ⟨.begun (written + taken), ?_, .proceed written _ failed ?_⟩
        · simp [World.step, failed, full, World.append, World.Shows, longer, Nat.lt_of_not_le full]
        · simp [World.step, failed]
  | crash =>
    refine ⟨.filed (headerLine.take written) [], ?_, .cut written short trivial ?_⟩
    · simp [World.step, World.Shows]
    · simp [World.step]
  | _ => exact ⟨.begun written, ⟨rfl, rfl, short⟩, .stay _ id (by simp [World.step])⟩

/-- In a row, a step writes more of it, ends it or gives it up. -/
theorem move_row {content : Option GoString} {v : Vector} {written : Nat} {base : GoString}
    (text : content = some (base ++ (rowLine location v).take written))
    (short : written < (rowLine location v).length) (call : Call) :
    ∃ y, (World.step location ⟨content, .row v written⟩ call).1.Shows location y ∧
      Move (Spoils location (⟨content, .row v written⟩, call))
        (.written ∈ (World.step location ⟨content, .row v written⟩ call).2)
        (.filed base ((rowLine location v).take written)) y := by
  obtain rfl := text
  have marked := marked_take location v
  cases call with
  | write taken =>
    have longer : (rowLine location v).take written ++
        ((rowLine location v).drop written).take taken =
          (rowLine location v).take (written + taken) := List.take_add.symm
    have grown : (rowLine location v).take written <+:
        (rowLine location v).take (written + taken) := ⟨_, longer⟩
    by_cases failed : taken = 0
    · subst failed
      refine ⟨.filed (base ++ (rowLine location v).take written) [], ?_,
        .settle _ _ (marked written) id ?_⟩
      · simp [World.step, World.Shows]
      · simp [World.step]
    · by_cases full : (rowLine location v).length ≤ written + taken
      · refine ⟨.filed (base ++ (rowLine location v).take (written + taken)) [], ?_,
          .finish _ _ _ grown Iff.rfl (marked _)⟩
        simp [World.step, failed, full, World.append, World.Shows, List.append_assoc, longer]
      · refine ⟨.filed base ((rowLine location v).take (written + taken)), ?_,
          .extend _ _ _ grown Iff.rfl (marked _) ?_⟩
        · simp [World.step, failed, full, World.append, World.Shows, List.append_assoc, longer,
            Nat.lt_of_not_le full]
        · simp [World.step, failed, full]
  | crash =>
    refine ⟨.filed (base ++ (rowLine location v).take written) [], ?_,
      .settle _ _ (marked written) False.elim ?_⟩
    · simp [World.step, World.Shows]
    · simp [World.step]
  | _ => exact ⟨.filed base _, ⟨rfl, rfl, short⟩, .stay _ id (by simp [World.step])⟩

/-- Once the file is there, its text stays and rows come after it. -/
theorem move_filed {world : World} {base part : GoString}
    (shows : world.Shows location (.filed base part)) (call : Call) :
    ∃ y, (world.step location call).1.Shows location y ∧
      Move (Spoils location (world, call)) (.written ∈ (world.step location call).2)
        (.filed base part) y := by
  obtain ⟨content, phase⟩ := world
  obtain ⟨text, place⟩ := shows
  dsimp only at text place
  cases phase with
  | header written => exact place.elim
  | row v written =>
    obtain ⟨rfl, short⟩ := place
    exact move_row location text short call
  | idle =>
    obtain rfl : part = [] := place
    cases call with
    | stat fails =>
      refine ⟨.filed base [], ⟨text, ?_, rfl⟩, .stay _ id (by simp [World.step])⟩
      simp [text]
    | _ => exact ⟨.filed base [], ⟨text, rfl⟩, .stay _ id (by simp [World.step])⟩
  | statted newFile =>
    obtain ⟨rfl, rfl⟩ := place
    cases call with
    | openFile fails =>
      cases fails with
      | true => exact ⟨.filed base [], ⟨text, rfl⟩, .stay _ id (by simp [World.step])⟩
      | false =>
        refine ⟨.filed base [], ⟨?_, rfl⟩, .stay _ ?_ (by simp [World.step])⟩
        · simp [World.step, text]
        · simp [Spoils, text]
    | crash => exact ⟨.filed base [], ⟨text, rfl⟩, .stay _ id (by simp [World.step])⟩
    | _ => exact ⟨.filed base [], ⟨text, rfl, rfl⟩, .stay _ id (by simp [World.step])⟩
  | ready =>
    obtain rfl : part = [] := place
    cases call with
    | row v =>
      obtain ⟨c, rest, line, _⟩ := rowLine_cons location v
      refine ⟨.filed base [], ⟨text, rfl, ?_⟩, .stay _ id (by simp [World.step])⟩
      simp [line]
    | _ => exact ⟨.filed base [], ⟨text, rfl⟩, .stay _ id (by simp [World.step])⟩
  | failed =>
    obtain rfl : part = [] := place
    cases call with
    | _ => exact ⟨.filed base [], ⟨text, rfl⟩, .stay _ id (by simp [World.step])⟩

/-- Every step is a move. -/
theorem move_step {world : World} {x : Situation} (shows : world.Shows location x) (call : Call) :
    ∃ y, (world.step location call).1.Shows location y ∧
      Move (Spoils location (world, call)) (.written ∈ (world.step location call).2) x y := by
  cases x with
  | absent => exact move_absent location shows call
  | begun written => exact move_begun location shows call
  | filed base part => exact move_filed location shows call

/-- A file that is there has its header, and has it once. -/
def Situation.Sound : Situation → Prop
  | .filed base part => headerLine <+: base ∧ ¬ newline :: headerLine <:+: base ++ part
  | _ => True

/-- A file is there without its header, or with another. -/
def Situation.Marred : Situation → Prop
  | .filed base part => ¬ headerLine <+: base ∨ newline :: headerLine <:+: base ++ part
  | _ => False

/-- The file is there, its header included. -/
def Situation.IsFiled : Situation → Prop
  | .filed _ _ => True
  | _ => False

/-- A byte that the header does not have is not in the header after a line feed. -/
theorem marked_later {added : GoString} (marked : Marked headerLine added) :
    Marked (newline :: headerLine) added := by
  intro c first inside
  rcases List.mem_cons.mp inside with rfl | inside
  · exact marked newline first newline_mem_headerLine
  · exact marked c first inside

/-- The header is not in itself after a line feed. -/
theorem header_not_infix : ¬ newline :: headerLine <:+: headerLine := by
  intro inside
  have length := inside.length_le
  rw [List.length_cons] at length
  omega

/-- A row that does not have the header keeps a file sound. -/
theorem sound_added {base part added : GoString} (sound : (Situation.filed base part).Sound)
    (marked : Marked headerLine added) (plain : ¬ newline :: headerLine <:+: added) :
    ¬ newline :: headerLine <:+: base ++ added := by
  rw [infix_append_marked_iff (marked_later marked)]
  rintro (before | after)
  · exact sound.2 (before.trans (List.prefix_append base part).isInfix)
  · exact plain after

/-- More of a row leaves a marred file marred. -/
theorem marred_added {base part added : GoString} (longer : part <+: added)
    (spoiled : newline :: headerLine <:+: added ∨ (Situation.filed base part).Marred) :
    ¬ headerLine <+: base ∨ newline :: headerLine <:+: base ++ added := by
  rcases spoiled with now | bare | twice
  · exact .inr (now.trans (List.suffix_append base added).isInfix)
  · exact .inl bare
  · exact .inr (twice.trans ((List.prefix_append_right_inj base).mpr longer).isInfix)

/-- A move that does not spoil the file keeps it sound. -/
theorem Move.sound {spoils wrote : Prop} {x y : Situation} (move : Move spoils wrote x y)
    (still : ¬ spoils) (sound : x.Sound) : y.Sound := by
  cases move with
  | stay => exact sound
  | create | proceed => exact trivial
  | bare does | cut _ _ does => exact absurd does still
  | complete => exact ⟨List.prefix_rfl, by simpa using header_not_infix⟩
  | settle base part => exact ⟨sound.1.trans (List.prefix_append base part), by simpa using sound.2⟩
  | extend base part added longer told marked =>
    exact ⟨sound.1, sound_added sound marked fun there => still (told.mpr there)⟩
  | finish base part added longer told marked =>
    refine ⟨sound.1.trans (List.prefix_append base added), ?_⟩
    rw [List.append_nil]
    exact sound_added sound marked fun there => still (told.mpr there)

/-- A move that spoils the file mars it, and what is marred stays so. -/
theorem Move.marred {spoils wrote : Prop} {x y : Situation} (move : Move spoils wrote x y)
    (spoiled : spoils ∨ x.Marred) : y.Marred := by
  cases move with
  | stay _ unspoiled => exact spoiled.resolve_left unspoiled
  | create unspoiled => exact (spoiled.elim unspoiled id).elim
  | proceed _ _ unspoiled | complete _ unspoiled => exact (spoiled.elim unspoiled id).elim
  | bare =>
    refine .inl fun starts => ?_
    exact absurd starts.length_le (Nat.not_le_of_lt headerLine_pos)
  | cut written short =>
    refine .inl fun starts => ?_
    have length := starts.length_le
    rw [List.length_take] at length
    omega
  | settle base part marked told =>
    show _ ∨ _ <:+: base ++ part ++ []
    rw [List.append_nil, prefix_append_marked_iff marked]
    rcases spoiled with now | before
    · exact .inr ((told now).trans (List.suffix_append base part).isInfix)
    · exact before
  | extend base part added longer told marked =>
    exact marred_added longer (spoiled.imp_left told.mp)
  | finish base part added longer told marked =>
    show _ ∨ _ <:+: base ++ added ++ []
    rw [List.append_nil, prefix_append_marked_iff marked]
    exact marred_added longer (spoiled.imp_left told.mp)

/-- A write returns on a file that is there, and the file stays there. -/
theorem Move.filed {spoils wrote : Prop} {x y : Situation} (move : Move spoils wrote x y)
    (there : wrote ∨ x.IsFiled) : y.IsFiled := by
  cases move with
  | stay _ _ silent => exact there.resolve_left silent
  | create _ silent => exact (there.elim silent id).elim
  | proceed _ _ _ silent => exact (there.elim silent id).elim
  | bare | complete | cut | settle | extend | finish => exact trivial

/-- A part of a row, or nothing, comes after the text of a file. -/
theorem World.Shows.marked {world : World} {base part : GoString}
    (shows : world.Shows location (.filed base part)) : Marked headerLine part := by
  obtain ⟨content, phase⟩ := world
  obtain ⟨_, place⟩ := shows
  have nothing : Marked headerLine [] := by
    intro c first
    cases first
  dsimp only at place
  cases phase with
  | header written => exact place.elim
  | row v written => exact place.1 ▸ marked_take location v written
  | statted newFile => exact place.2 ▸ nothing
  | idle | ready | failed => exact (show part = [] from place) ▸ nothing

/-- A file that is there has its header unless it is marred. -/
theorem headed_iff_sound {world : World} {base part : GoString}
    (shows : world.Shows location (.filed base part)) :
    Headed world.content ↔ (Situation.filed base part).Sound := by
  rw [shows.1, headed_iff_infix, prefix_append_marked_iff shows.marked]
  rfl

/-- No situation is sound and marred. -/
theorem Situation.Sound.not_marred {x : Situation} (sound : x.Sound) : ¬ x.Marred := by
  cases x with
  | filed base part =>
    rintro (bare | twice)
    · exact bare sound.1
    · exact sound.2 twice
  | absent | begun => exact id

/-- The runs that start without a file, or with an empty one. -/
def IsFresh (content : Option GoString) : Prop := content = none ∨ content = some []

/-- A run that starts without a file and has no step that spoils it. -/
def Intact (content : Option GoString) (past : List (World × Call)) : Prop :=
  content = none ∧ ∀ moment ∈ past, ¬ Spoils location moment

/-- Every run ends in a situation: after a write it is one of a file, and it is sound or marred as
the run is intact or not. -/
theorem situation_of_run {content : Option GoString} (fresh : IsFresh content)
    (calls : List Call) :
    ∃ x, ((agents location).final ⟨content, .idle⟩ calls).Shows location x ∧
      (.written ∈ (agents location).outputs ⟨content, .idle⟩ calls → x.IsFiled) ∧
      (Intact location content ((agents location).trace ⟨content, .idle⟩ calls) → x.Sound) ∧
      (¬ Intact location content ((agents location).trace ⟨content, .idle⟩ calls) → x.Marred) := by
  refine (agents location).invariant_always (fun past world => ∃ x, world.Shows location x ∧
    (.written ∈ (agents location).outputsOf past → x.IsFiled) ∧
    (Intact location content past → x.Sound) ∧ (¬ Intact location content past → x.Marred))
    ?_ ?_ calls
  · rcases fresh with rfl | rfl
    · refine ⟨.absent, ⟨rfl, .inl rfl⟩, ?_, fun _ => trivial, fun broken => broken ⟨rfl, ?_⟩⟩
      · intro wrote
        cases wrote
      · intro moment member
        cases member
    · refine ⟨.filed [] [], ⟨rfl, rfl⟩, fun _ => trivial, ?_, fun _ => .inl ?_⟩
      · rintro ⟨absent, _⟩
        cases absent
      · intro starts
        exact absurd starts.length_le (Nat.not_le_of_lt headerLine_pos)
  · rintro past world call ⟨x, shows, filed, sound, marred⟩
    obtain ⟨y, reached, move⟩ := move_step location shows call
    refine ⟨y, reached, ?_, ?_, ?_⟩
    · intro wrote
      rw [Machine.outputsOf_append, Machine.outputsOf_singleton, List.mem_append] at wrote
      exact move.filed (wrote.symm.imp_right filed)
    · rintro ⟨absent, still⟩
      refine move.sound (still _ (List.mem_append_right _ List.mem_cons_self)) (sound ⟨absent, ?_⟩)
      exact fun moment member => still moment (List.mem_append_left _ member)
    · intro broken
      refine move.marred ?_
      by_cases now : Spoils location (world, call)
      · exact .inl now
      · refine .inr (marred fun intact => broken ⟨intact.1, fun moment member => ?_⟩)
        rcases List.mem_append.mp member with before | last
        · exact intact.2 moment before
        · exact List.mem_singleton.mp last ▸ now

/-- Once a write has returned, the file has its header when the run is intact. -/
theorem headed_of_written {content : Option GoString} (fresh : IsFresh content)
    {calls : List Call} (wrote : .written ∈ (agents location).outputs ⟨content, .idle⟩ calls) :
    Headed ((agents location).final ⟨content, .idle⟩ calls).content ↔
      Intact location content ((agents location).trace ⟨content, .idle⟩ calls) := by
  obtain ⟨x, shows, filed, sound, marred⟩ := situation_of_run location fresh calls
  cases x with
  | absent | begun => exact (filed wrote).elim
  | filed base part =>
    rw [headed_iff_sound location shows]
    refine ⟨fun headed => ?_, sound⟩
    by_contra broken
    exact headed.not_marred (marred broken)

/-- After every run over a file that is absent or empty at first, the file has its header, if any
write has returned, exactly when it was absent and no step spoiled it, if any write has returned. -/
theorem headed_iff {content : Option GoString} (fresh : IsFresh content) (calls : List Call) :
    (.written ∈ (agents location).outputs ⟨content, .idle⟩ calls →
      Headed ((agents location).final ⟨content, .idle⟩ calls).content) ↔
    (.written ∈ (agents location).outputs ⟨content, .idle⟩ calls →
      Intact location content ((agents location).trace ⟨content, .idle⟩ calls)) :=
  forall_congr' fun wrote => headed_of_written location fresh wrote

/-- Two runs, of which the first crashes in its second row. -/
def twoRuns : List Call :=
  [.stat false, .openFile false, .write 500, .write 55, .row {}, .write 113, .row {}, .write 40,
    .crash, .stat false, .openFile false, .row {}, .write 113, .close]

/-- They leave the file with its header. -/
theorem headed_iff_twoRuns :
    .written ∈ (agents fun _ => 0).outputs ⟨none, .idle⟩ twoRuns ∧
      Headed ((agents fun _ => 0).final ⟨none, .idle⟩ twoRuns).content := by
  have wrote : .written ∈ (agents fun _ => 0).outputs ⟨none, .idle⟩ twoRuns := by decide +kernel
  have intact : Intact (fun _ => 0) none ((agents fun _ => 0).trace ⟨none, .idle⟩ twoRuns) :=
    ⟨rfl, by decide +kernel⟩
  exact ⟨wrote, (headed_iff (fun _ => 0) (.inl rfl) twoRuns).mpr (fun _ => intact) wrote⟩

/-- A row is written to a file that is empty at first, or that a run left empty which crashed
between opening it and writing the header: then the file has rows and no header. -/
theorem headerless :
    (.written ∈ (agents fun _ => 0).outputs ⟨some [], .idle⟩
        [.stat false, .openFile false, .row {}, .write 113] ∧
      ¬ Headed ((agents fun _ => 0).final ⟨some [], .idle⟩
        [.stat false, .openFile false, .row {}, .write 113]).content) ∧
    .written ∈ (agents fun _ => 0).outputs ⟨none, .idle⟩ [.stat false, .openFile false, .crash,
        .stat false, .openFile false, .row {}, .write 113] ∧
      ¬ Headed ((agents fun _ => 0).final ⟨none, .idle⟩ [.stat false, .openFile false, .crash,
        .stat false, .openFile false, .row {}, .write 113]).content := by
  have wrote_empty : .written ∈ (agents fun _ => 0).outputs ⟨some [], .idle⟩
      [.stat false, .openFile false, .row {}, .write 113] := by decide +kernel
  have wrote_crashed : .written ∈ (agents fun _ => 0).outputs ⟨none, .idle⟩ [.stat false,
      .openFile false, .crash, .stat false, .openFile false, .row {}, .write 113] := by
    decide +kernel
  refine ⟨⟨wrote_empty, fun headed => ?_⟩, wrote_crashed, fun headed => ?_⟩
  · have intact := (headed_of_written (fun _ => 0) (.inr rfl) wrote_empty).mp headed
    exact absurd intact.1 (by decide)
  · have intact := (headed_of_written (fun _ => 0) (.inl rfl) wrote_crashed).mp headed
    exact absurd intact.2 (by decide +kernel)

end ContainerAnomaly.Feature

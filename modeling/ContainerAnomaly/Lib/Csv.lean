import ContainerAnomaly.Lib.GoString
import Mathlib.Data.List.Basic

/-!
# Comma-separated records

`csv.Writer` and `csv.Reader` of Go, with a comma, line feeds and strict quotes. What is written is
read back, whatever follows it (`readFrom_writeRecord`), so no two records are written alike
(`writeRecord_injective`); a reader also turns carriage returns before line feeds away, which a
record without them survives (`read_writeRecord`), and so does a file of such records
(`readAll_writeRecords`).
-/

namespace ContainerAnomaly.Lib.Csv

open GoString

/-- The separator of fields. -/
def comma : UInt8 := 44

/-- What stands around a quoted field. -/
def quote : UInt8 := 34

/-- The byte that a reader drops before a line feed. -/
def carriageReturn : UInt8 := 13

/-- A byte that a field has to be quoted for. -/
def IsSpecial (c : UInt8) : Prop :=
  c = newline ∨ c = carriageReturn ∨ c = quote ∨ c = comma

instance (c : UInt8) : Decidable (IsSpecial c) := inferInstanceAs (Decidable (_ ∨ _ ∨ _ ∨ _))

/-- `fieldNeedsQuotes`. -/
def FieldNeedsQuotes (field : GoString) : Prop :=
  field ≠ [] ∧ (field = [92, 46] ∨ (∃ c ∈ field, IsSpecial c) ∨ spaceLength field ≠ 0)

instance (field : GoString) : Decidable (FieldNeedsQuotes field) :=
  inferInstanceAs (Decidable (_ ∧ _))

/-- A field between quotes, with its quotes doubled. -/
def escaped (field : GoString) : GoString :=
  field.flatMap fun c => if c = quote then [quote, quote] else [c]

/-- A field as it is written. -/
def writeField (field : GoString) : GoString :=
  if FieldNeedsQuotes field then quote :: escaped field ++ [quote] else field

/-- `Writer.Write`. -/
def writeRecord (record : List GoString) : GoString :=
  [comma].intercalate (record.map writeField) ++ [newline]

/-- Where a reader is in a field. -/
inductive Place where
  | start | plain | quoted | closing
deriving DecidableEq

/-- `readRecord`: the record that a text continues and what follows it, given the fields before, the
field read so far and the place in it. -/
def readFrom (place : Place) (field : GoString) (record : List GoString) :
    GoString → Option (List GoString × GoString)
  | [] => if place = .quoted then none else some (record ++ [field], [])
  | c :: rest =>
    if place = .quoted then
      if c = quote then readFrom .closing field record rest
      else readFrom .quoted (field ++ [c]) record rest
    else if c = comma then readFrom .start [] (record ++ [field]) rest
    else if c = newline then some (record ++ [field], rest)
    else if c = quote then
      match place with
      | .start => readFrom .quoted [] record rest
      | .closing => readFrom .quoted (field ++ [quote]) record rest
      | _ => none
    else if place = .closing then none
    else readFrom .plain (field ++ [c]) record rest

/-- The lines of a text as `readLine` gives them, without a carriage return at their ends. -/
def normalized : GoString → GoString
  | [] => []
  | c :: rest =>
    if c = carriageReturn ∧ (rest = [] ∨ rest.head? = some newline) then normalized rest
    else c :: normalized rest

/-- `Reader.Read`: the first record of a text, after empty lines, and what follows it. -/
def read (text : GoString) : Option (List GoString × GoString) :=
  match (normalized text).dropWhile fun c => c = newline with
  | [] => none
  | c :: rest => readFrom .start [] [] (c :: rest)

/-- Between quotes a doubled quote is one. -/
theorem readFrom_escaped (field before : GoString) (record : List GoString) (rest : GoString) :
    readFrom .quoted before record (escaped field ++ quote :: rest) =
      readFrom .closing (before ++ field) record rest := by
  induction field generalizing before with
  | nil => simp [escaped, readFrom]
  | cons c field ih =>
    have unfolded : escaped (c :: field) =
        (if c = quote then [quote, quote] else [c]) ++ escaped field := rfl
    rw [unfolded]
    by_cases doubled : c = quote
    · subst doubled
      have next := ih (before ++ [quote])
      have apart : quote ≠ comma ∧ quote ≠ newline := by decide
      simp only [if_true, List.cons_append, List.nil_append, readFrom, apart.1, apart.2, if_false]
      simpa using next
    · have next := ih (before ++ [c])
      simp only [if_neg doubled, List.cons_append, List.nil_append, readFrom, if_true]
      simpa using next

/-- Outside quotes a field is read as it is. -/
theorem readFrom_plain {field : GoString} (plain : ∀ c ∈ field, ¬ IsSpecial c) {place : Place}
    (outside : place = .start ∨ place = .plain) (before : GoString) (record : List GoString)
    (rest : GoString) :
    readFrom place before record (field ++ rest) =
      readFrom (if field = [] then place else .plain) (before ++ field) record rest := by
  induction field generalizing place before with
  | nil => simp
  | cons c field ih =>
    have usual := plain c List.mem_cons_self
    have kept := ih (fun d inside => plain d (List.mem_cons_of_mem c inside)) (.inr rfl)
      (before ++ [c])
    simp only [IsSpecial, not_or] at usual
    obtain ⟨line, _, mark, sep⟩ := usual
    have here : place ≠ .quoted ∧ place ≠ .closing := by
      rcases outside with rfl | rfl <;> decide
    simp only [List.cons_append, readFrom, here.1, here.2, line, mark, sep, if_false]
    simpa using kept

/-- A written field is read up to the separator after it. -/
theorem readFrom_writeField (field : GoString) (record : List GoString) (c : UInt8)
    (ends : c = comma ∨ c = newline) (rest : GoString) :
    readFrom .start [] record (writeField field ++ c :: rest) =
      if c = comma then readFrom .start [] (record ++ [field]) rest
      else some (record ++ [field], rest) := by
  -- The separator ends the field wherever the reader is in it, but between quotes.
  have separator : ∀ place, place ≠ .quoted → readFrom place field record (c :: rest) =
      if c = comma then readFrom .start [] (record ++ [field]) rest
      else some (record ++ [field], rest) := by
    intro place outside
    rcases ends with rfl | rfl
    · simp [readFrom, outside]
    · have apart : newline ≠ comma := by decide
      simp [readFrom, outside, apart]
  unfold writeField
  by_cases quoted : FieldNeedsQuotes field
  · rw [if_pos quoted, List.append_assoc, List.cons_append, List.singleton_append]
    have opened : readFrom .start [] record (quote :: (escaped field ++ quote :: c :: rest)) =
        readFrom .quoted [] record (escaped field ++ quote :: c :: rest) := by
      rw [readFrom]
      rfl
    rw [opened, readFrom_escaped]
    exact separator .closing (by decide)
  · rw [if_neg quoted]
    by_cases empty : field = []
    · subst empty
      exact separator .start (by decide)
    · have plain : ∀ c ∈ field, ¬ IsSpecial c := fun c inside special =>
        quoted ⟨empty, .inr (.inl ⟨c, inside, special⟩)⟩
      rw [readFrom_plain plain (.inl rfl), if_neg empty]
      exact separator .plain (by decide)

/-- A written record is read, whatever follows it. -/
theorem readFrom_writeRecord {record : List GoString} (nonempty : record ≠ [])
    (before : List GoString) (rest : GoString) :
    readFrom .start [] before (writeRecord record ++ rest) = some (before ++ record, rest) := by
  induction record generalizing before with
  | nil => exact absurd rfl nonempty
  | cons field record ih =>
    cases record with
    | nil =>
      have apart : newline ≠ comma := by decide
      have alone : writeRecord [field] ++ rest = writeField field ++ newline :: rest := by
        simp [writeRecord]
      rw [alone, readFrom_writeField field before newline (.inr rfl), if_neg apart]
    | cons next record =>
      have split : writeRecord (field :: next :: record) ++ rest =
          writeField field ++ comma :: (writeRecord (next :: record) ++ rest) := by
        simp [writeRecord, List.intercalate_cons_cons]
      rw [split, readFrom_writeField field before comma (.inl rfl), if_pos rfl,
        ih (by simp), List.append_assoc, List.singleton_append]

/-- No two records are written alike. -/
theorem writeRecord_injective {first second : List GoString} (some_field : first ≠ [])
    (another : second ≠ []) (same : writeRecord first = writeRecord second) : first = second := by
  have read_first := readFrom_writeRecord some_field [] []
  rw [same, readFrom_writeRecord another [] []] at read_first
  simpa using read_first.symm

/-- A record starts as its first field does, when that is not empty and needs no quotes. -/
theorem head?_writeRecord {field : GoString} (nonempty : field ≠ [])
    (plain : ¬ FieldNeedsQuotes field) (record : List GoString) :
    (writeRecord (field :: record)).head? = field.head? := by
  obtain ⟨c, rest, rfl⟩ := List.exists_cons_of_ne_nil nonempty
  have first : writeField (c :: rest) = c :: rest := if_neg plain
  cases record with
  | nil => simp [writeRecord, first]
  | cons next record => simp [writeRecord, first, List.intercalate_cons_cons]

/-- Writing a field adds no byte but quotes. -/
theorem mem_writeField {field : GoString} {c : UInt8} (inside : c ∈ writeField field) :
    c = quote ∨ c ∈ field := by
  unfold writeField at inside
  split at inside
  · simp only [List.mem_append, List.mem_cons, List.not_mem_nil, or_false] at inside
    rcases inside with (rfl | body) | rfl
    · exact .inl rfl
    · obtain ⟨d, listed, made⟩ := List.mem_flatMap.mp body
      by_cases doubled : d = quote
      · exact .inl (by simpa [doubled] using made)
      · have same : c = d := by simpa [doubled] using made
        exact .inr (same ▸ listed)
    · exact .inl rfl
  · exact .inr inside

/-- Writing a record adds no byte but quotes, separators and the line feed. -/
theorem mem_writeRecord {record : List GoString} {c : UInt8} (inside : c ∈ writeRecord record) :
    c = quote ∨ c = comma ∨ c = newline ∨ ∃ field ∈ record, c ∈ field := by
  rcases List.mem_append.mp inside with front | last
  · induction record with
    | nil => simp at front
    | cons field record ih =>
      have own : c ∈ writeField field →
          c = quote ∨ c = comma ∨ c = newline ∨ ∃ other ∈ field :: record, c ∈ other :=
        fun written => (mem_writeField written).imp_right fun there =>
          .inr (.inr ⟨field, List.mem_cons_self, there⟩)
      cases record with
      | nil => exact own (by simpa using front)
      | cons next record =>
        simp only [List.map_cons, List.intercalate_cons_cons, List.mem_append,
          List.mem_singleton] at front
        rcases front with (here | rfl) | later
        · exact own here
        · exact .inr (.inl rfl)
        · have rest := ih (List.mem_append_left _ (by simpa using later)) (by simpa using later)
          refine rest.imp_right (Or.imp_right (Or.imp_right ?_))
          rintro ⟨other, listed, there⟩
          exact ⟨other, List.mem_cons_of_mem field listed, there⟩
  · exact .inr (.inr (.inl (List.mem_singleton.mp last)))

/-- A text without carriage returns is left as it is. -/
theorem normalized_eq_self {text : GoString} (clean : carriageReturn ∉ text) :
    normalized text = text := by
  induction text with
  | nil => rfl
  | cons c text ih =>
    rw [List.mem_cons, not_or] at clean
    rw [normalized, if_neg (fun both => clean.1 both.1.symm), ih clean.2]

/-- A record without carriage returns is written without them. -/
theorem carriageReturn_not_mem_writeRecord {record : List GoString}
    (clean : ∀ field ∈ record, carriageReturn ∉ field) : carriageReturn ∉ writeRecord record := by
  intro inside
  rcases mem_writeRecord inside with same | same | same | ⟨field, listed, own⟩
  · exact absurd same (by decide)
  · exact absurd same (by decide)
  · exact absurd same (by decide)
  · exact clean field listed own

/-- A record of several fields is no empty line, as one of an empty field and no other is. -/
theorem writeRecord_eq_cons {record : List GoString} (several : 2 ≤ record.length) :
    ∃ c rest, writeRecord record = c :: rest ∧ c ≠ newline := by
  have nonempty : record ≠ [] := by
    rintro rfl
    exact absurd several (by decide)
  have ending : writeRecord record ≠ [] := by simp [writeRecord]
  obtain ⟨c, rest, text⟩ := List.exists_cons_of_ne_nil ending
  refine ⟨c, rest, text, ?_⟩
  rintro rfl
  have back := readFrom_writeRecord nonempty [] []
  have alone : readFrom .start [] [] (newline :: rest) = some ([[]], rest) := by
    rw [readFrom]
    rfl
  rw [List.append_nil, List.nil_append, text, alone] at back
  obtain rfl := (Prod.mk.inj (Option.some.inj back)).1
  exact absurd several (by decide)

/-- A written record of several fields without carriage returns is read back. -/
theorem read_writeRecord {record : List GoString} (several : 2 ≤ record.length)
    (clean : ∀ field ∈ record, carriageReturn ∉ field) :
    read (writeRecord record) = some (record, []) := by
  have nonempty : record ≠ [] := by
    rintro rfl
    exact absurd several (by decide)
  have back := readFrom_writeRecord nonempty [] []
  obtain ⟨c, rest, text, apart⟩ := writeRecord_eq_cons several
  rw [List.append_nil, List.nil_append, text] at back
  unfold read
  rw [normalized_eq_self (carriageReturn_not_mem_writeRecord clean), text,
    List.dropWhile_cons_of_neg (by simpa using apart)]
  exact back

/-- The records of a text, as many as there are lines to read. -/
def readRecords : Nat → GoString → Option (List (List GoString))
  | 0, _ => none
  | lines + 1, text =>
    match text.dropWhile fun c => c = newline with
    | [] => some []
    | c :: rest =>
      (readFrom .start [] [] (c :: rest)).bind fun result =>
        (readRecords lines result.2).map (result.1 :: ·)

/-- All records have as many fields as the first, as a reader with `FieldsPerRecord` zero asks. -/
def SameLength : List (List GoString) → Prop
  | [] => True
  | first :: rest => ∀ record ∈ rest, record.length = first.length

instance : (records : List (List GoString)) → Decidable (SameLength records)
  | [] => inferInstanceAs (Decidable True)
  | first :: rest => inferInstanceAs (Decidable (∀ record ∈ rest, record.length = first.length))

/-- `Reader.ReadAll`. A text has at least a byte for each of its records. -/
def readAll (text : GoString) : Option (List (List GoString)) :=
  (readRecords (text.length + 1) (normalized text)).filter fun records => SameLength records

/-- Records of several fields are read one after the other. -/
theorem readRecords_writeRecords {records : List (List GoString)}
    (several : ∀ record ∈ records, 2 ≤ record.length) {lines : Nat}
    (enough : records.length < lines) :
    readRecords lines (records.map writeRecord).flatten = some records := by
  induction records generalizing lines with
  | nil =>
    obtain ⟨more, rfl⟩ : ∃ more, lines = more + 1 := ⟨lines - 1, by simp at enough; omega⟩
    rfl
  | cons record records ih =>
    rw [List.length_cons] at enough
    obtain ⟨more, rfl⟩ : ∃ more, lines = more + 1 := ⟨lines - 1, by omega⟩
    have fields := several record List.mem_cons_self
    have nonempty : record ≠ [] := by
      rintro rfl
      exact absurd fields (by decide)
    obtain ⟨c, after, text, apart⟩ := writeRecord_eq_cons fields
    have first := readFrom_writeRecord nonempty [] (records.map writeRecord).flatten
    have rest := @ih (fun other inside => several other (List.mem_cons_of_mem _ inside)) more
      (by omega)
    rw [text, List.cons_append] at first
    rw [List.map_cons, List.flatten_cons, readRecords, text, List.cons_append,
      List.dropWhile_cons_of_neg (by simpa using apart)]
    simp only [first, Option.bind_some, List.nil_append, rest, Option.map_some]

/-- A file has a byte for each of its records. -/
theorem length_le_writeRecords (records : List (List GoString)) :
    records.length ≤ (records.map writeRecord).flatten.length := by
  induction records with
  | nil => exact Nat.le_refl _
  | cons record records ih =>
    simp only [List.length_cons, List.map_cons, List.flatten_cons, List.length_append, writeRecord]
    omega

/-- Records of one length are as long as the first of them. -/
theorem sameLength_of_length {records : List (List GoString)} {fields : Nat}
    (long : ∀ record ∈ records, record.length = fields) : SameLength records := by
  cases records with
  | nil => trivial
  | cons first rest =>
    intro record inside
    rw [long record (List.mem_cons_of_mem first inside), long first List.mem_cons_self]

/-- A file of records of several fields, of which each has as many, without carriage returns is read
back. -/
theorem readAll_writeRecords {records : List (List GoString)} {fields : Nat} (several : 2 ≤ fields)
    (long : ∀ record ∈ records, record.length = fields)
    (clean : ∀ record ∈ records, ∀ field ∈ record, carriageReturn ∉ field) :
    readAll (records.map writeRecord).flatten = some records := by
  have untouched : carriageReturn ∉ (records.map writeRecord).flatten := by
    intro inside
    obtain ⟨text, listed, there⟩ := List.mem_flatten.mp inside
    obtain ⟨record, member, rfl⟩ := List.mem_map.mp listed
    exact carriageReturn_not_mem_writeRecord (clean record member) there
  have back := readRecords_writeRecords
    (fun record inside => Nat.le_trans several (Nat.le_of_eq (long record inside).symm))
    (Nat.lt_succ_of_le (length_le_writeRecords records))
  rw [readAll, normalized_eq_self untouched, back]
  exact Option.filter_some_pos (decide_eq_true (sameLength_of_length long))

end ContainerAnomaly.Lib.Csv

import ContainerAnomaly.Lib.Numeral
import Mathlib.Data.List.TakeWhile

/-!
# Words, gaps and lines

A text that is made of words with white space between them has these words as its fields. Gaps are
any white space that `strings.Fields` knows; words are ASCII (`fields_spaced`), or are followed by
ASCII white space and are any bytes in which no white space starts (`fields_wordsText`). A word with
a gap after it is trimmed to the word (`trimSpace_word`). A text that is made of lines that fit the
buffer of a scanner is scanned as these lines (`scanLines_linesText`).
-/

namespace ContainerAnomaly.Lib.GoString

/-- The UTF-8 bytes of a white-space character. -/
inductive IsSpace : GoString → Prop
  | ascii {c : UInt8} (white : c = 32 ∨ (9 ≤ c ∧ c ≤ 13)) : IsSpace [c]
  | latin {d : UInt8} (white : d = 0x85 ∨ d = 0xA0) : IsSpace [0xC2, d]
  | ogham : IsSpace [0xE1, 0x9A, 0x80]
  | general {e : UInt8} (white : (0x80 ≤ e ∧ e ≤ 0x8A) ∨ e = 0xA8 ∨ e = 0xA9 ∨ e = 0xAF) :
    IsSpace [0xE2, 0x80, e]
  | mathematical : IsSpace [0xE2, 0x81, 0x9F]
  | ideographic : IsSpace [0xE3, 0x80, 0x80]

/-- A text that starts with a white-space character has its length. -/
theorem IsSpace.spaceLength {w : GoString} (space : IsSpace w) (rest : GoString) :
    spaceLength (w ++ rest) = w.length := by
  cases space with
  | ascii white => simp [GoString.spaceLength, white]
  | latin white => simp [GoString.spaceLength, white]
  | ogham => rfl
  | general white => simp [GoString.spaceLength, white]
  | mathematical => rfl
  | ideographic => rfl

/-- A text starts with a white-space character or has no length of one. -/
theorem spaceLength_cases (s : GoString) :
    spaceLength s = 0 ∨ ∃ w rest, IsSpace w ∧ s = w ++ rest := by
  fun_cases spaceLength s with
  | case1 => exact .inl rfl
  | case2 c rest white => exact .inr ⟨[c], rest, .ascii white, rfl⟩
  | case3 d rest white => exact .inr ⟨[0xC2, d], rest, .latin white, rfl⟩
  | case4 => exact .inl rfl
  | case5 rest => exact .inr ⟨_, rest, .ogham, rfl⟩
  | case6 e rest white => exact .inr ⟨[0xE2, 0x80, e], rest, .general white, rfl⟩
  | case7 => exact .inl rfl
  | case8 rest => exact .inr ⟨_, rest, .mathematical, rfl⟩
  | case9 rest => exact .inr ⟨_, rest, .ideographic, rfl⟩
  | case10 => exact .inl rfl

/-- A white-space character is not empty. -/
theorem IsSpace.nonempty {w : GoString} (space : IsSpace w) : w ≠ [] := by
  cases space <;> simp

/-- The bytes after the first of a white-space character are not ASCII. -/
theorem IsSpace.tail {w : GoString} (space : IsSpace w) {c : UInt8} (inside : c ∈ w.tail) :
    128 ≤ c := by
  cases space with
  | ascii => cases inside
  | latin white =>
    rw [List.tail_cons, List.mem_singleton] at inside
    subst inside
    rcases white with rfl | rfl <;> decide
  | ogham =>
    simp only [List.tail_cons, List.mem_cons, List.not_mem_nil, or_false] at inside
    rcases inside with rfl | rfl <;> decide
  | general white =>
    simp only [List.tail_cons, List.mem_cons, List.not_mem_nil, or_false] at inside
    rcases inside with rfl | rfl
    · decide
    · rcases white with ⟨low, _⟩ | rfl | rfl | rfl
      · exact low
      all_goals decide
  | mathematical =>
    simp only [List.tail_cons, List.mem_cons, List.not_mem_nil, or_false] at inside
    rcases inside with rfl | rfl <;> decide
  | ideographic =>
    simp only [List.tail_cons, List.mem_cons, List.not_mem_nil, or_false] at inside
    rcases inside with rfl | rfl <;> decide

/-- The first byte of a white-space character is ASCII white space or is not ASCII. -/
theorem IsSpace.head {w : GoString} (space : IsSpace w) {c : UInt8} (first : w.head? = some c) :
    (c = 32 ∨ (9 ≤ c ∧ c ≤ 13)) ∨ 128 ≤ c := by
  cases space with
  | ascii white =>
    cases first
    exact .inl white
  | latin | ogham | general | mathematical | ideographic =>
    cases first
    exact .inr (by decide)

/-- A visible ASCII byte, or a control character that is no white space. -/
def IsPlain (c : UInt8) : Prop := c < 128 ∧ ¬ (c = 32 ∨ (9 ≤ c ∧ c ≤ 13))

instance (c : UInt8) : Decidable (IsPlain c) := inferInstanceAs (Decidable (_ ∧ _))

/-- A digit is plain. -/
theorem isPlain_of_isDigit {c : UInt8} (digit : IsDigit c) : IsPlain c := by
  unfold IsDigit at digit
  unfold IsPlain
  grind

/-- A numeral is plain. -/
theorem plain_decimal (n : Nat) : ∀ c ∈ decimal n, IsPlain c :=
  fun c inside => isPlain_of_isDigit ((isNumeral_decimal n).digits c inside)

/-- So is the numeral of a `uint64`. -/
theorem plain_uint64 (n : UInt64) : ∀ c ∈ decimal n.toNat, IsPlain c := plain_decimal n.toNat

/-- A white-space character has no plain byte. -/
theorem IsSpace.not_plain {w : GoString} (space : IsSpace w) {c : UInt8} (inside : c ∈ w) :
    ¬ IsPlain c := by
  rintro ⟨ascii, visible⟩
  obtain ⟨first, rest, rfl⟩ := List.exists_cons_of_ne_nil space.nonempty
  have high : ¬ 128 ≤ c := UInt8.not_le.mpr ascii
  rcases List.mem_cons.mp inside with rfl | later
  · exact (space.head rfl).elim visible high
  · exact high (space.tail later)

/-- White space, of any length. -/
inductive IsGap : GoString → Prop
  | nil : IsGap []
  | cons {w rest : GoString} (space : IsSpace w) (gap : IsGap rest) : IsGap (w ++ rest)

/-- A gap has no plain byte. -/
theorem IsGap.not_plain {gap : GoString} (white : IsGap gap) {c : UInt8} (inside : c ∈ gap) :
    ¬ IsPlain c := by
  induction white with
  | nil => cases inside
  | cons space _ ih => exact (List.mem_append.mp inside).elim space.not_plain ih

/-- A single space is a gap. -/
theorem isGap_space : IsGap [32] := .cons (.ascii (.inl rfl)) .nil

/-- The scan passes over the bytes of a character that it is told to skip. -/
theorem fieldsFrom_skip (skipped rest field : GoString) :
    fieldsFrom skipped.length field (skipped ++ rest) = fieldsFrom 0 field rest := by
  induction skipped with
  | nil => rfl
  | cons c skipped ih =>
    rw [List.length_cons, List.cons_append, fieldsFrom]
    exact ih

/-- At a white-space character the scan puts out the field it has read. -/
theorem fieldsFrom_space {w : GoString} (space : IsSpace w) (field rest : GoString) :
    fieldsFrom 0 field (w ++ rest) =
      (if field = [] then [] else [field]) ++ fieldsFrom 0 [] rest := by
  have length := space.spaceLength rest
  obtain ⟨c, bytes, rfl⟩ := List.exists_cons_of_ne_nil space.nonempty
  have skip := fieldsFrom_skip bytes rest []
  rw [List.cons_append] at length
  rw [List.cons_append, fieldsFrom, length, List.length_cons]
  by_cases empty : field = []
  · simp [empty, skip]
  · simp [empty, skip]

/-- A gap after a field puts it out. -/
theorem fieldsFrom_gap {gap : GoString} (white : IsGap gap) (field rest : GoString)
    (ends : field = [] ∨ gap ≠ []) :
    fieldsFrom 0 field (gap ++ rest) =
      (if field = [] then [] else [field]) ++ fieldsFrom 0 [] rest := by
  induction white generalizing field with
  | nil =>
    have empty := ends.resolve_right fun differs => differs rfl
    rw [if_pos empty, empty]
    rfl
  | cons space _ ih =>
    rw [List.append_assoc, fieldsFrom_space space, ih [] (.inl rfl), if_pos rfl, List.nil_append]

/-- No white-space character starts in a word, also together with what follows it. -/
def Unbroken (word rest : GoString) : Prop :=
  ∀ part, part <:+ word → part ≠ [] → spaceLength (part ++ rest) = 0

/-- An unbroken word is read into the field. -/
theorem fieldsFrom_word {word rest : GoString} (unbroken : Unbroken word rest)
    (field : GoString) :
    fieldsFrom 0 field (word ++ rest) = fieldsFrom 0 (field ++ word) rest := by
  induction word generalizing field with
  | nil => rw [List.nil_append, List.append_nil]
  | cons c word ih =>
    have here := unbroken (c :: word) List.suffix_rfl (List.cons_ne_nil c word)
    rw [List.cons_append] at here
    rw [List.cons_append, fieldsFrom, here]
    have later : Unbroken word rest := fun part suffix =>
      unbroken part (suffix.trans (List.suffix_cons c word))
    rw [ih later, List.append_assoc]
    rfl

/-- A word that is followed by a gap, or by nothing, is the first field. -/
theorem fields_word {word gap rest : GoString} (present : word ≠ [])
    (unbroken : Unbroken word (gap ++ rest)) (white : IsGap gap) (ends : gap ≠ []) :
    fields (word ++ (gap ++ rest)) = word :: fields rest := by
  rw [fields, fieldsFrom_word unbroken, List.nil_append,
    fieldsFrom_gap white word rest (.inr ends), if_neg present]
  rfl

/-- A word alone is the only field. -/
theorem fields_single {word : GoString} (present : word ≠ []) (unbroken : Unbroken word []) :
    fields word = [word] := by
  have read := fieldsFrom_word unbroken []
  rw [List.append_nil, List.nil_append] at read
  rw [fields, read, fieldsFrom, if_neg present]

/-- A gap at the front is passed over. -/
theorem fields_gap {gap : GoString} (white : IsGap gap) (rest : GoString) :
    fields (gap ++ rest) = fields rest :=
  fieldsFrom_gap white [] rest (.inl rfl)

/-- The bytes of a character that are to be skipped are passed over. -/
theorem allSpaceFrom_skip (skipped rest : GoString) :
    allSpaceFrom skipped.length (skipped ++ rest) = allSpaceFrom 0 rest := by
  induction skipped with
  | nil => rfl
  | cons c skipped ih => exact ih

/-- A gap is white space throughout. -/
theorem allSpaceFrom_gap {gap : GoString} (white : IsGap gap) : allSpaceFrom 0 gap = true := by
  induction white with
  | nil => rfl
  | @cons w rest space _ ih =>
    have length := space.spaceLength rest
    obtain ⟨c, bytes, rfl⟩ := List.exists_cons_of_ne_nil space.nonempty
    rw [List.cons_append] at length
    rw [List.cons_append, allSpaceFrom, length, List.length_cons]
    exact (allSpaceFrom_skip bytes rest).trans ih

/-- The gap after a word is dropped. -/
theorem trimRight_word {word gap : GoString} (unbroken : Unbroken word gap) (white : IsGap gap) :
    trimRight (word ++ gap) = word := by
  induction word with
  | nil =>
    cases gap with
    | nil => rfl
    | cons c gap =>
      rw [List.nil_append, trimRight, if_pos (allSpaceFrom_gap white)]
  | cons c word ih =>
    have here := unbroken (c :: word) List.suffix_rfl (List.cons_ne_nil c word)
    have later : Unbroken word gap := fun part suffix =>
      unbroken part (suffix.trans (List.suffix_cons c word))
    rw [List.cons_append] at here
    have visible : ¬ allSpaceFrom 0 (c :: (word ++ gap)) = true := by
      rw [allSpaceFrom, here]
      exact Bool.false_ne_true
    rw [List.cons_append, trimRight, if_neg visible, ih later]

/-- A word with a gap after it is trimmed to the word. -/
theorem trimSpace_word {word gap : GoString} (present : word ≠ []) (unbroken : Unbroken word gap)
    (white : IsGap gap) : trimSpace (word ++ gap) = word := by
  have trimmed := trimRight_word unbroken white
  have here := unbroken word List.suffix_rfl present
  obtain ⟨c, bytes, rfl⟩ := List.exists_cons_of_ne_nil present
  rw [List.cons_append] at here
  rw [trimSpace, List.cons_append, trimLeftFrom, here]
  exact trimmed

/-- A word of plain bytes is unbroken whatever follows. -/
theorem unbroken_of_plain {word : GoString} (plain : ∀ c ∈ word, IsPlain c) (rest : GoString) :
    Unbroken word rest := by
  intro part suffix present
  refine (spaceLength_cases (part ++ rest)).resolve_right ?_
  rintro ⟨w, after, space, split⟩
  obtain ⟨first, more, rfl⟩ := List.exists_cons_of_ne_nil present
  obtain ⟨front, bytes, rfl⟩ := List.exists_cons_of_ne_nil space.nonempty
  rw [List.cons_append, List.cons_append, List.cons.injEq] at split
  rw [← split.1] at space
  exact space.not_plain List.mem_cons_self (plain first (suffix.subset List.mem_cons_self))

/-- A gap and the word after it. -/
structure Spaced where
  /-- The white space. -/
  gap : GoString
  /-- The word after it. -/
  word : GoString
  /-- It is white. -/
  gap_white : IsGap gap
  /-- It parts the word from what is before. -/
  gap_nonempty : gap ≠ []
  /-- The word is not empty. -/
  word_nonempty : word ≠ []
  /-- Its bytes are printed and no white space. -/
  word_plain : ∀ c ∈ word, IsPlain c

/-- Words after gaps, and a last gap. -/
def spacedText (words : List Spaced) (last : GoString) : GoString :=
  (words.flatMap fun spaced => spaced.gap ++ spaced.word) ++ last

/-- The fields of such a text are its words. -/
theorem fields_spaced (words : List Spaced) {last : GoString} (white : IsGap last) :
    fields (spacedText words last) = words.map Spaced.word := by
  induction words with
  | nil =>
    have empty := fields_gap white []
    rw [List.append_nil] at empty
    exact empty
  | cons first words ih =>
    have front : spacedText (first :: words) last =
        first.gap ++ (first.word ++ spacedText words last) := by
      simp [spacedText]
    rw [front, fields_gap first.gap_white, List.map_cons, ← ih]
    have unbroken := unbroken_of_plain first.word_plain
    -- What follows the first word is a gap: that of the next word, or the last one.
    cases words with
    | nil =>
      by_cases done : last = []
      · subst done
        have only : spacedText [] [] = [] := rfl
        rw [only, List.append_nil, fields_single first.word_nonempty (unbroken [])]
        rfl
      · have rest : spacedText [] last = last ++ [] := by simp [spacedText]
        rw [rest, fields_word first.word_nonempty (unbroken _) white done, ← rest, ih]
        rfl
    | cons second words =>
      have rest : spacedText (second :: words) last =
          second.gap ++ (second.word ++ spacedText words last) := by
        simp [spacedText]
      rw [rest, fields_word first.word_nonempty (unbroken _) second.gap_white
        second.gap_nonempty, fields_gap second.gap_white]

/-- A word: bytes in which no white-space character starts. -/
structure Word where
  /-- The bytes of the word. -/
  text : GoString
  /-- It is not empty. -/
  nonempty : text ≠ []
  /-- No white space is in it. -/
  unbroken : Unbroken text []

/-- An ASCII byte after a word completes no white-space character. -/
theorem Word.unbroken_ascii (word : Word) {b : UInt8} (ascii : b < 128) (rest : GoString) :
    Unbroken word.text (b :: rest) := by
  intro part suffix present
  refine (spaceLength_cases (part ++ b :: rest)).resolve_right ?_
  rintro ⟨w, after, space, split⟩
  have alone : ∀ more, part ≠ w ++ more := by
    rintro more rfl
    have none := word.unbroken _ suffix present
    rw [List.append_nil, space.spaceLength more] at none
    exact space.nonempty (List.eq_nil_of_length_eq_zero none)
  rcases List.append_eq_append_iff.mp split with ⟨more, whole, tail⟩ | ⟨more, whole, _⟩
  · cases more with
    | nil => exact alone [] (by rw [whole, List.append_nil, List.append_nil])
    | cons c more =>
      -- The character would end behind the word, with the ASCII byte in its tail.
      obtain rfl := (List.cons.inj tail).1
      obtain ⟨first, bytes, rfl⟩ := List.exists_cons_of_ne_nil present
      have inside : b ∈ w.tail := by simp [whole]
      exact UInt8.not_le.mpr ascii (space.tail inside)
  · exact alone more whole

/-- A word of plain bytes. -/
def Word.ofPlain (text : GoString) (nonempty : text ≠ []) (plain : ∀ c ∈ text, IsPlain c) : Word :=
  ⟨text, nonempty, unbroken_of_plain plain []⟩

/-- A word has no ASCII white space. -/
theorem Word.not_white (word : Word) {c : UInt8} (white : c = 32 ∨ (9 ≤ c ∧ c ≤ 13)) :
    c ∉ word.text := by
  intro inside
  obtain ⟨front, back, split⟩ := List.append_of_mem inside
  have none := word.unbroken (c :: back) ⟨front, split.symm⟩ (List.cons_ne_nil c back)
  have one := (IsSpace.ascii white).spaceLength back
  rw [List.append_nil] at none
  exact absurd (none.symm.trans one) (by simp)

/-- Words with a space between any two. -/
def wordsText (words : List Word) : GoString := [32].intercalate (words.map Word.text)

/-- The first word and the others. -/
theorem wordsText_cons_cons (first second : Word) (words : List Word) :
    wordsText (first :: second :: words) = first.text ++ ([32] ++ wordsText (second :: words)) := by
  simp [wordsText, List.intercalate_cons_cons]

/-- The fields of words joined by spaces are the words, also with a space at the end. -/
theorem fields_wordsText (words : List Word) {last : GoString} (space : last = [] ∨ last = [32]) :
    fields (wordsText words ++ last) = words.map Word.text := by
  have blank : fields last = [] := by
    rcases space with rfl | rfl
    · rfl
    · rfl
  induction words with
  | nil => exact blank
  | cons first words ih =>
    cases words with
    | nil =>
      have one : wordsText [first] = first.text := by simp [wordsText]
      rw [one]
      rcases space with rfl | rfl
      · rw [List.append_nil, fields_single first.nonempty first.unbroken]
        rfl
      · have rest : fields (first.text ++ ([32] ++ [])) = first.text :: fields [] :=
          fields_word first.nonempty (first.unbroken_ascii (by decide) []) isGap_space (by simp)
        rw [List.append_nil] at rest
        rw [rest]
        rfl
    | cons second words =>
      rw [wordsText_cons_cons, List.append_assoc, List.append_assoc,
        fields_word first.nonempty (first.unbroken_ascii (by decide) _) isGap_space (by simp), ih]
      rfl

/-- Words joined by spaces have no other white space. -/
theorem not_mem_wordsText (words : List Word) {c : UInt8} (white : 9 ≤ c ∧ c ≤ 13) :
    c ∉ wordsText words := by
  have other : c ≠ 32 := by
    rintro rfl
    exact absurd white (by decide)
  induction words with
  | nil => exact List.not_mem_nil
  | cons first words ih =>
    cases words with
    | nil => simpa [wordsText] using first.not_white (.inr white)
    | cons second words =>
      rw [wordsText_cons_cons, List.mem_append, List.mem_append, not_or, not_or]
      exact ⟨first.not_white (.inr white), by simpa using other, ih⟩

/-- A line that a scanner reads as it stands. -/
structure IsLine (line : GoString) : Prop where
  /-- It does not end before. -/
  plain : newline ∉ line
  /-- It fits the buffer of a scanner. -/
  fits : line.length < maxScanTokenSize
  /-- It does not end with a carriage return. -/
  no_return : line.getLast? ≠ some 13

/-- Lines that are ended, and a last one that is not, when there is one. -/
def linesText (lines : List GoString) (last : GoString) : GoString :=
  (lines.flatMap fun line => line ++ [newline]) ++ last

/-- A text of lines is joined by line feeds. -/
theorem linesText_eq_intercalate (lines : List GoString) (last : GoString) :
    linesText lines last = [newline].intercalate (lines ++ [last]) := by
  induction lines with
  | nil => simp [linesText]
  | cons first lines ih =>
    have front : linesText (first :: lines) last = first ++ [newline] ++ linesText lines last := by
      simp [linesText]
    rw [front, ih, List.cons_append, List.intercalate_cons_of_ne_nil (by simp)]

/-- The lines of a text of lines. -/
theorem rawLines_linesText (lines : List GoString) (last : GoString)
    (plain : ∀ line ∈ lines ++ [last], newline ∉ line) :
    rawLines (linesText lines last) = lines ++ if last = [] then [] else [last] := by
  have split : (linesText lines last).splitOn newline = lines ++ [last] := by
    rw [linesText_eq_intercalate]
    exact List.splitOn_intercalate newline plain (by simp)
  rw [rawLines, split]
  by_cases empty : last = []
  · simp [empty]
  · simp [empty]

/-- A text of lines is scanned as these lines. -/
theorem scanLines_linesText {lines : List GoString} {last : GoString}
    (each : ∀ line ∈ lines, IsLine line) (end_line : IsLine last) :
    scanLines (linesText lines last) = lines ++ if last = [] then [] else [last] := by
  have all : ∀ line ∈ lines ++ [last], IsLine line := by
    intro line inside
    rcases List.mem_append.mp inside with ended | open_one
    · exact each line ended
    · rw [List.mem_singleton.mp open_one]
      exact end_line
  have shown : ∀ line ∈ lines ++ (if last = [] then [] else [last]), IsLine line := by
    intro line inside
    refine all line (List.mem_append.mpr ((List.mem_append.mp inside).imp_right fun tail => ?_))
    split at tail
    · cases tail
    · exact tail
  rw [scanLines, rawLines_linesText _ _ fun line inside => (all line inside).plain,
    List.takeWhile_eq_self_iff.mpr fun line inside => by
      simpa using (shown line inside).fits]
  refine (List.map_congr_left fun line inside => ?_).trans (List.map_id _)
  rw [dropCR, if_neg (shown line inside).no_return]
  rfl

end ContainerAnomaly.Lib.GoString

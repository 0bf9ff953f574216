import ContainerAnomaly.Lib.GoString
import Mathlib.Data.List.Basic

/-!
# Lines of a growing text

The lines of a text are what its line feeds end. A line comes first when the text starts with it,
and comes later when the text has it between two line feeds (`head?_lines_eq_some_iff`,
`mem_tail_lines_iff`). When a text grows by bytes that start with one a pattern does not have, the
pattern is found in what was there or in what is added (`infix_append_marked_iff`). A text made of
pieces that end in a byte is taken apart again (`pieces_flatMap`).
-/

namespace ContainerAnomaly.Lib.GoString

/-- The lines of a text, without what comes after the last line feed. -/
def lines (text : GoString) : List GoString := (text.splitOn newline).dropLast

/-- The pieces of a text that end in a byte. -/
def pieces (stop : UInt8) (text : GoString) : List GoString := (text.splitOn stop).dropLast

/-- Pieces without the byte they end in are told apart again. -/
theorem pieces_flatMap (stop : UInt8) {parts : List GoString}
    (plain : ∀ part ∈ parts, stop ∉ part) :
    pieces stop (parts.flatMap fun part => part ++ [stop]) = parts := by
  induction parts with
  | nil => rfl
  | cons part parts ih =>
    have rest := ih fun other inside => plain other (List.mem_cons_of_mem part inside)
    have first := plain part List.mem_cons_self
    rw [List.flatMap_cons, List.append_assoc, List.singleton_append, pieces,
      List.splitOn_append_cons_self, List.splitOn_eq_singleton first,
      List.dropLast_append_of_ne_nil (List.splitOn_ne_nil stop _)]
    exact congrArg (List.cons part) rest

/-- A text without line feeds has no line. -/
theorem lines_eq_nil {text : GoString} (plain : newline ∉ text) : lines text = [] := by
  rw [lines, List.splitOn_eq_singleton plain]
  rfl

/-- The first line of a text with a line feed. -/
theorem lines_append_newline {line : GoString} (plain : newline ∉ line) (rest : GoString) :
    lines (line ++ newline :: rest) = line :: lines rest := by
  rw [lines, List.splitOn_append_cons_self, List.splitOn_eq_singleton plain,
    List.dropLast_append_of_ne_nil (List.splitOn_ne_nil newline rest)]
  rfl

/-- A text has no line, or a first one. -/
theorem lines_cases (text : GoString) :
    newline ∉ text ∨ ∃ line rest, newline ∉ line ∧ text = line ++ newline :: rest := by
  by_cases present : newline ∈ text
  · obtain ⟨line, rest, split, plain⟩ := List.eq_append_cons_of_mem present
    exact .inr ⟨line, rest, plain, split⟩
  · exact .inl present

/-- Two lines at the start of a text are the same. -/
theorem line_eq_of_starts {line first rest : GoString} (plain : newline ∉ line)
    (also : newline ∉ first) (starts : line ++ [newline] <+: first ++ newline :: rest) :
    line = first := by
  obtain ⟨after, same⟩ := starts
  rw [List.append_assoc, List.singleton_append] at same
  have split := congrArg lines same
  rw [lines_append_newline plain, lines_append_newline also] at split
  exact (List.cons.inj split).1

/-- A line comes first when the text starts with it. -/
theorem head?_lines_eq_some_iff {line : GoString} (plain : newline ∉ line) (text : GoString) :
    (lines text).head? = some line ↔ line ++ [newline] <+: text := by
  rcases lines_cases text with none_there | ⟨first, rest, also, rfl⟩
  · rw [lines_eq_nil none_there]
    refine iff_of_false (by simp) fun starts => none_there ?_
    exact starts.subset (List.mem_append_right line List.mem_cons_self)
  · rw [lines_append_newline also, List.head?_cons, Option.some.injEq]
    constructor
    · rintro rfl
      exact ⟨rest, by simp⟩
    · exact fun starts => (line_eq_of_starts plain also starts).symm

/-- A line comes later when the text has it between two line feeds. -/
theorem mem_tail_lines_iff {line : GoString} (plain : newline ∉ line) (text : GoString) :
    line ∈ (lines text).tail ↔ newline :: (line ++ [newline]) <:+: text := by
  induction length : text.length using Nat.strongRecOn generalizing text with
  | ind n ih =>
    rcases lines_cases text with none_there | ⟨first, rest, also, rfl⟩
    · rw [lines_eq_nil none_there]
      refine iff_of_false (by simp) fun inside => none_there ?_
      exact inside.subset List.mem_cons_self
    · have shorter : rest.length < n := by
        rw [← length, List.length_append, List.length_cons]
        omega
      -- The line feed that a later line follows is not in the first line.
      have found : newline :: (line ++ [newline]) <:+: first ++ newline :: rest ↔
          line ++ [newline] <+: rest ∨ newline :: (line ++ [newline]) <:+: rest := by
        rw [List.infix_append_iff_ne_nil, List.infix_cons_iff, List.cons_prefix_cons,
          and_iff_right rfl]
        constructor
        · rintro (inside | later | ⟨front, back, nonempty, _, split, ends, _⟩)
          · exact absurd (inside.subset List.mem_cons_self) also
          · exact later
          · obtain ⟨c, front, rfl⟩ := List.exists_cons_of_ne_nil nonempty
            obtain ⟨rfl, _⟩ := List.cons.inj split
            exact absurd (ends.subset List.mem_cons_self) also
        · exact fun later => .inr (.inl later)
      rw [lines_append_newline also, List.tail_cons, found, ← ih _ shorter rest rfl,
        ← head?_lines_eq_some_iff plain]
      cases lines rest with
      | nil => simp
      | cons next later =>
        rw [List.mem_cons, List.head?_cons, Option.some.injEq, List.tail_cons, eq_comm]

/-- What is added to a text starts with a byte that a pattern does not have. -/
def Marked (pattern added : GoString) : Prop := ∀ c ∈ added.head?, c ∉ pattern

/-- A pattern is found in what was there or in what is added. -/
theorem infix_append_marked_iff {pattern text added : GoString} (marked : Marked pattern added) :
    pattern <:+: text ++ added ↔ pattern <:+: text ∨ pattern <:+: added := by
  constructor
  · intro inside
    rw [List.infix_append_iff_ne_nil] at inside
    rcases inside with before | after | ⟨front, back, _, nonempty, rfl, _, starts⟩
    · exact .inl before
    · exact .inr after
    · obtain ⟨c, back, rfl⟩ := List.exists_cons_of_ne_nil nonempty
      obtain ⟨rest, rfl⟩ := starts
      exact absurd (List.mem_append_right front List.mem_cons_self) (marked c rfl)
  · rintro (before | after)
    · exact before.trans (List.prefix_append text added).isInfix
    · exact after.trans (List.suffix_append text added).isInfix

/-- A text starts with a pattern only if it did before. -/
theorem prefix_append_marked_iff {pattern text added : GoString} (marked : Marked pattern added) :
    pattern <+: text ++ added ↔ pattern <+: text := by
  constructor
  · intro starts
    rcases List.prefix_or_prefix_of_prefix starts (List.prefix_append text added) with
      before | ⟨back, rfl⟩
    · exact before
    · have ends : back <+: added := (List.prefix_append_right_inj text).mp starts
      cases back with
      | nil => simp
      | cons c back =>
        obtain ⟨rest, rfl⟩ := ends
        exact absurd (List.mem_append_right text List.mem_cons_self) (marked c rfl)
  · exact fun before => before.trans (List.prefix_append text added)

end ContainerAnomaly.Lib.GoString

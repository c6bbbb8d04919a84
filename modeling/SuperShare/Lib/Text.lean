import Mathlib.Algebra.Group.Nat.Defs
import Mathlib.Data.List.Infix

/-!
# Texts as lists of characters

White space, words, lines and numbers of a text, as the functions of a standard library on strings
give them. A piece without line breaks that stands anywhere in a text is in one of its lines, and
the lines around do not depend on it.
-/

namespace Text

/-- The characters that count as white space. -/
def isWhitespace (c : Char) : Bool :=
  (9 ≤ c.toNat && c.toNat ≤ 13) || (0x2000 ≤ c.toNat && c.toNat ≤ 0x200A) ||
    [0x20, 0x85, 0xA0, 0x1680, 0x2028, 0x2029, 0x202F, 0x205F, 0x3000].contains c.toNat

/-- A text without white space at its ends. -/
def trim (text : String) : String :=
  String.ofList
    ((text.toList.dropWhile isWhitespace).reverse.dropWhile isWhitespace).reverse

/-- The words of a text. -/
def words (text : List Char) : List (List Char) :=
  (text.splitOnP isWhitespace).filter (· ≠ [])

/-- A line without the carriage return at its end. -/
def stripReturn (line : List Char) : List Char :=
  if line.getLast? = some '\r' then line.dropLast else line

/-- The lines of a text. The last one is none if it is empty, and keeps its carriage return. -/
def lines (text : List Char) : List (List Char) :=
  (text.splitOn '\n').dropLast.map stripReturn ++
    ((text.splitOn '\n').getLast?.filter (· ≠ [])).toList

/-- A text without a suffix that it has. -/
def stripSuffix (suffix text : List Char) : Option (List Char) :=
  if suffix <:+ text then some (text.take (text.length - suffix.length)) else none

/-- Parse an unsigned number of some bits: decimal digits, perhaps after a plus sign. -/
def parseUnsigned (bits : ℕ) (text : List Char) : Option ℕ :=
  let digits :=
    match text with
    | '+' :: rest => rest
    | chars => chars
  if digits ≠ [] ∧ digits.all Char.isDigit ∧ Nat.ofDigitChars 10 digits 0 < 2 ^ bits then
    some (Nat.ofDigitChars 10 digits 0)
  else none

/-- White space separates words. -/
theorem words_append {c : Char} (hc : isWhitespace c = true) (before after : List Char) :
    words (before ++ c :: after) = words before ++ words after := by
  rw [words, List.splitOnP_append_cons _ _ hc, List.filter_append]
  rfl

/-- A text without white space is a word. -/
theorem words_of_any {word : List Char} (hne : word ≠ []) (h : word.any isWhitespace = false) :
    words word = [word] := by
  have hletters : ∀ c ∈ word, isWhitespace c = false := by simpa using h
  rw [words, List.splitOnP_eq_singleton hletters]
  simp [hne]

/-- The first piece of a split is at the front of the text, and the others are in it. -/
theorem splitOnP_infix {α : Type} (p : α → Bool) (text : List α) : ∃ first rest,
    text.splitOnP p = first :: rest ∧ first <+: text ∧ ∀ piece ∈ rest, piece <:+: text := by
  induction text with
  | nil => exact ⟨[], [], rfl, List.prefix_rfl, by simp⟩
  | cons a text ih =>
    obtain ⟨first, rest, hsplit, hfirst, hrest⟩ := ih
    have hcons : ∀ {piece : List α}, piece <:+: text → piece <:+: a :: text := fun h =>
      h.trans (List.suffix_cons a text).isInfix
    rw [List.splitOnP_cons_eq_if_modifyHead, hsplit]
    cases p a with
    | true =>
      refine ⟨[], first :: rest, rfl, List.nil_prefix, fun piece hpiece => ?_⟩
      rcases List.mem_cons.mp hpiece with rfl | hpiece
      · exact hcons hfirst.isInfix
      · exact hcons (hrest piece hpiece)
    | false =>
      exact ⟨a :: first, rest, rfl, List.cons_prefix_cons.mpr ⟨rfl, hfirst⟩,
        fun piece hpiece => hcons (hrest piece hpiece)⟩

/-- A word of a text is in it. -/
theorem infix_of_mem_words {text word : List Char} (h : word ∈ words text) : word <:+: text := by
  obtain ⟨first, rest, hsplit, hfirst, hrest⟩ := splitOnP_infix isWhitespace text
  have hpiece := (List.mem_filter.mp h).1
  rw [hsplit] at hpiece
  rcases List.mem_cons.mp hpiece with rfl | hpiece
  · exact hfirst.isInfix
  · exact hrest word hpiece

section Pieces

variable {α : Type} [BEq α] [LawfulBEq α] {sep : α}

/-- A piece without separators extends the first piece after it. -/
theorem splitOn_piece_append {piece after first : List α} {rest : List (List α)}
    (hpiece : sep ∉ piece) (hafter : after.splitOn sep = first :: rest) :
    (piece ++ after).splitOn sep = (piece ++ first) :: rest := by
  induction piece with
  | nil => exact hafter
  | cons a piece ih =>
    obtain ⟨hne, hrest⟩ := not_or.mp (mt List.mem_cons.mpr hpiece)
    have hsep : (a == sep) = false := by simpa using Ne.symm hne
    rw [List.cons_append, List.splitOn_cons_eq_if_modifyHead, ih hrest, if_neg (by simp [hsep])]
    rfl

/-- A piece without separators lies between two pieces of the text around it. -/
theorem splitOn_around (sep : α) (before after : List α) : ∃ firsts x y rests,
    ∀ piece, sep ∉ piece →
      (before ++ piece ++ after).splitOn sep = firsts ++ (x ++ piece ++ y) :: rests := by
  induction before with
  | nil =>
    obtain ⟨first, rest, hafter⟩ := List.exists_cons_of_ne_nil (List.splitOn_ne_nil sep after)
    exact ⟨[], [], first, rest, fun piece hpiece => splitOn_piece_append hpiece hafter⟩
  | cons a before ih =>
    obtain ⟨firsts, x, y, rests, hsplit⟩ := ih
    by_cases hsep : (a == sep) = true
    · refine ⟨[] :: firsts, x, y, rests, fun piece hpiece => ?_⟩
      rw [List.cons_append, List.cons_append, List.splitOn_cons_eq_if_modifyHead,
        hsplit piece hpiece, if_pos hsep]
      rfl
    · have hcons : ∀ piece, sep ∉ piece → (a :: before ++ piece ++ after).splitOn sep =
          (firsts ++ (x ++ piece ++ y) :: rests).modifyHead (List.cons a) := by
        intro piece hpiece
        rw [List.cons_append, List.cons_append, List.splitOn_cons_eq_if_modifyHead,
          hsplit piece hpiece, if_neg hsep]
      cases firsts with
      | nil => exact ⟨[], a :: x, y, rests, hcons⟩
      | cons first firsts => exact ⟨(a :: first) :: firsts, x, y, rests, hcons⟩

end Pieces

/-- A piece without line breaks is in one line, and the others do not depend on it. -/
theorem lines_around (before after : List Char) : ∃ firsts x y rests, ∀ piece, '\n' ∉ piece →
    piece.getLast? ≠ some '\r' → piece ≠ [] →
      lines (before ++ piece ++ after) = firsts ++ (x ++ piece ++ y) :: rests := by
  obtain ⟨firsts, x, y, rests, hsplit⟩ := splitOn_around '\n' before after
  cases rests with
  | nil =>
    refine ⟨firsts.map stripReturn, x, y, [], fun piece hbreak _ hne => ?_⟩
    rw [lines, hsplit piece hbreak, List.dropLast_concat, List.getLast?_concat]
    simp [Option.filter_some, hne]
  | cons next rests =>
    refine ⟨firsts.map stripReturn, x, stripReturn y,
      (next :: rests).dropLast.map stripReturn ++
        ((next :: rests).getLast?.filter (· ≠ [])).toList, fun piece hbreak hreturn hne => ?_⟩
    have hline : stripReturn (x ++ piece ++ y) = x ++ piece ++ stripReturn y := by
      rcases List.eq_nil_or_concat y with rfl | ⟨y, c, rfl⟩
      · have hlast : (x ++ piece).getLast? = piece.getLast? := List.getLast?_append_of_ne_nil _ hne
        simp [stripReturn, hlast, hreturn]
      · by_cases hc : c = '\r' <;> simp [stripReturn, hc, ← List.append_assoc]
    rw [lines, hsplit piece hbreak, List.dropLast_append_of_ne_nil (by simp),
      List.dropLast_cons_of_ne_nil (by simp), List.getLast?_append_of_ne_nil _ (by simp),
      List.map_append, List.map_cons, hline]
    simp

end Text

import Mathlib.Data.List.Basic
import Mathlib.Data.List.DropRight

/-!
# Python strings as character lists

A Python `str` is a sequence of code points, here a `List Char`.  This file
collects the string primitives `generator.py` calls: `str.isspace` (through
`lstrip` and `rstrip`), `str.splitlines`, `str.split` on one character and
`re.split` on a character class, which both cut at every separator and so are
`List.splitOnP`.

The one fact every parser proof below rests on is the inversion of
`List.splitOnP`: a split into a given head and tail says where the first
separator stands.
-/

namespace FeatureHeader

/-- `str.isspace` on one code point: the characters Python strips as
whitespace. -/
def isspace (c : Char) : Bool :=
  let n := c.toNat
  (0x09 ≤ n && n ≤ 0x0D) || (0x1C ≤ n && n ≤ 0x20) || n == 0x85 || n == 0xA0 ||
    n == 0x1680 || (0x2000 ≤ n && n ≤ 0x200A) || n == 0x2028 || n == 0x2029 ||
    n == 0x202F || n == 0x205F || n == 0x3000

/-- `str.lstrip()`. -/
def lstrip (s : List Char) : List Char := s.dropWhile isspace

/-- `str.rstrip()`. -/
def rstrip (s : List Char) : List Char := s.rdropWhile isspace

/-- The code points at which `str.splitlines` breaks a line. -/
def isLineBreak (c : Char) : Bool :=
  c == '\n' || c == '\r' || c == '\x0b' || c == '\x0c' || c == '\x1c' || c == '\x1d' ||
    c == '\x1e' || c == '\x85' || c == '\u2028' || c == '\u2029'

/-- The loop of `str.splitlines()`: `line` holds the current line reversed.  A
`\r\n` pair is one break, and a break at the very end starts no empty line. -/
def splitlinesFrom : List Char → List Char → List (List Char)
  | [], [] => []
  | [], line => [line.reverse]
  | '\r' :: '\n' :: rest, line => line.reverse :: splitlinesFrom rest []
  | c :: rest, line =>
      if isLineBreak c then line.reverse :: splitlinesFrom rest []
      else splitlinesFrom rest (c :: line)

/-- `str.splitlines()`. -/
def splitlines (text : List Char) : List (List Char) := splitlinesFrom text []

example : splitlines "a\r\nb\n\nc\n".toList = ["a".toList, "b".toList, [], "c".toList] := by
  decide

theorem lstrip_append_of_isspace {spaces rest : List Char}
    (allSpace : ∀ c ∈ spaces, isspace c) :
    lstrip (spaces ++ rest) = lstrip rest := by
  induction spaces with
  | nil => rfl
  | cons c spaces induction =>
      have head : isspace c := allSpace c (by simp)
      simp only [List.cons_append, lstrip, List.dropWhile_cons, head, ↓reduceIte]
      exact induction fun d member => allSpace d (by simp [member])

theorem eq_spaces_append_lstrip (s : List Char) :
    ∃ spaces, (∀ c ∈ spaces, isspace c) ∧ s = spaces ++ lstrip s :=
  ⟨s.takeWhile isspace, fun _ member => List.mem_takeWhile_imp member,
    (List.takeWhile_append_dropWhile _ _).symm⟩

section SplitOn

variable {α : Type} {p : α → Bool}

theorem splitOnP_append_cons {head : List α} (headFree : ∀ x ∈ head, p x = false)
    {sep : α} (separator : p sep) (tail : List α) :
    (head ++ sep :: tail).splitOnP p = head :: tail.splitOnP p :=
  List.splitOnP_first p head (by simpa using headFree) sep separator tail

theorem splitOnP_of_free {xs : List α} (free : ∀ x ∈ xs, p x = false) :
    xs.splitOnP p = [xs] :=
  List.splitOnP_eq_single p xs (by simpa using free)

theorem splitOnP_append_separator {sep : α} (separator : p sep) (front back : List α) :
    (front ++ sep :: back).splitOnP p = front.splitOnP p ++ back.splitOnP p := by
  induction front with
  | nil => simp [List.splitOnP_cons, separator]
  | cons x front induction =>
      rw [List.cons_append, List.splitOnP_cons, List.splitOnP_cons, induction]
      split
      · rfl
      · obtain ⟨head, tail, pieces⟩ := List.exists_cons_of_ne_nil (List.splitOnP_ne_nil p front)
        simp [pieces]

theorem exists_first_separator {xs : List α} (found : ∃ x ∈ xs, p x) :
    ∃ pre sep tail, xs = pre ++ sep :: tail ∧ (∀ x ∈ pre, p x = false) ∧ p sep := by
  induction xs with
  | nil => simp at found
  | cons x xs induction =>
      by_cases separator : p x
      · exact ⟨[], x, xs, rfl, by simp, separator⟩
      · have later : ∃ y ∈ xs, p y := by simpa [separator] using found
        obtain ⟨pre, sep, tail, rfl, preFree, sepHolds⟩ := induction later
        exact ⟨x :: pre, sep, tail, rfl, by simpa [separator] using preFree, sepHolds⟩

theorem splitOnP_eq_cons_iff {xs head : List α} {rest : List (List α)} :
    xs.splitOnP p = head :: rest ↔
      (∀ x ∈ head, p x = false) ∧
        (xs = head ∧ rest = [] ∨
          ∃ sep tail, p sep ∧ xs = head ++ sep :: tail ∧ tail.splitOnP p = rest) := by
  constructor
  · intro split
    by_cases found : ∃ x ∈ xs, p x
    · obtain ⟨pre, sep, tail, decomposed, preFree, separator⟩ := exists_first_separator found
      rw [decomposed, splitOnP_append_cons preFree separator, List.cons.injEq] at split
      obtain ⟨rfl, rfl⟩ := split
      exact ⟨preFree, .inr ⟨sep, tail, separator, decomposed, rfl⟩⟩
    · have free : ∀ x ∈ xs, p x = false := by simpa using found
      rw [splitOnP_of_free free, List.cons.injEq] at split
      obtain ⟨rfl, rfl⟩ := split
      exact ⟨free, .inl ⟨rfl, rfl⟩⟩
  · rintro ⟨headFree, ⟨rfl, rfl⟩ | ⟨sep, tail, separator, rfl, rfl⟩⟩
    · exact splitOnP_of_free headFree
    · exact splitOnP_append_cons headFree separator tail

theorem splitOnP_eq_three_iff {xs first second third : List α} :
    xs.splitOnP p = [first, second, third] ↔
      (∀ x ∈ first, p x = false) ∧ (∀ x ∈ second, p x = false) ∧
        (∀ x ∈ third, p x = false) ∧
          ∃ sep₁ sep₂, p sep₁ ∧ p sep₂ ∧ xs = first ++ sep₁ :: second ++ sep₂ :: third := by
  constructor
  · intro split
    obtain ⟨firstFree, ⟨-, nonempty⟩ | ⟨sep₁, tail₁, separator₁, rfl, split₁⟩⟩ :=
      splitOnP_eq_cons_iff.mp split
    · cases nonempty
    obtain ⟨secondFree, ⟨-, nonempty⟩ | ⟨sep₂, tail₂, separator₂, rfl, split₂⟩⟩ :=
      splitOnP_eq_cons_iff.mp split₁
    · cases nonempty
    obtain ⟨thirdFree, ⟨rfl, -⟩ | ⟨_, tail₃, -, -, split₃⟩⟩ := splitOnP_eq_cons_iff.mp split₂
    · exact ⟨firstFree, secondFree, thirdFree, sep₁, sep₂, separator₁, separator₂, by simp⟩
    · exact absurd split₃ (List.splitOnP_ne_nil p tail₃)
  · rintro ⟨firstFree, secondFree, thirdFree, sep₁, sep₂, separator₁, separator₂, rfl⟩
    simp only [List.append_assoc, List.cons_append]
    rw [splitOnP_append_cons firstFree separator₁, splitOnP_append_cons secondFree separator₂,
      splitOnP_of_free thirdFree]

end SplitOn

end FeatureHeader

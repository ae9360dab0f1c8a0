import FeatureHeader.PyString
import Mathlib.Data.List.Chain
import Mathlib.Data.List.Infix

/-!
# Reading a header as the C preprocessor does

Two phases of translation matter for what a generated header defines.  First
every comment `/* ... */`, closed by the first `*/` after its opening, becomes
one space; a comment still open at the end of the text is an error.  Then every
line whose first token starts with `#` is a directive, here kept as its list of
tokens, so that `#define NAME 1` is `["#define", "NAME", "1"]`: the macro's name
and its replacement list.

Comments are removed by a four-state scanner, which makes the removal
compositional (`scan_append`): a header is read fragment by fragment.
-/

namespace FeatureHeader

namespace Preprocessor

/-- Where the comment scanner stands: outside a comment, after a `/` outside
one, inside one, or after a `*` inside one. -/
inductive ScanState
  | code
  | slash
  | comment
  | star
  deriving DecidableEq, Repr

/-- One character through the scanner: the next state and what it lets
through. -/
def scanChar : ScanState → Char → ScanState × List Char
  | .code, c => if c = '/' then (.slash, []) else (.code, [c])
  | .slash, c =>
      if c = '*' then (.comment, []) else if c = '/' then (.slash, ['/']) else (.code, ['/', c])
  | .comment, c => if c = '*' then (.star, []) else (.comment, [])
  | .star, c => if c = '/' then (.code, [' ']) else if c = '*' then (.star, []) else (.comment, [])

/-- A text through the scanner from a state. -/
def scan : ScanState → List Char → ScanState × List Char
  | state, [] => (state, [])
  | state, c :: rest =>
      ((scan (scanChar state c).1 rest).1, (scanChar state c).2 ++ (scan (scanChar state c).1 rest).2)

/-- The text with every comment replaced by one space; `none` when a comment
is left open. -/
def stripComments (text : List Char) : Option (List Char) :=
  match scan .code text with
  | (.code, out) => some out
  | (.slash, out) => some (out ++ ['/'])
  | _ => none

/-- C's white-space characters. -/
def isCSpace (c : Char) : Bool :=
  c == ' ' || c == '\t' || c == '\n' || c == '\x0b' || c == '\x0c'

theorem ne_newline_of_not_isCSpace {c : Char} (plain : isCSpace c = false) : c ≠ '\n' := by
  rintro rfl
  exact absurd plain (by decide)

/-- The tokens of a line. -/
def words (line : List Char) : List (List Char) :=
  (line.splitOnP isCSpace).filter (· ≠ [])

/-- The directive a comment-free line holds, as its tokens. -/
def directive (line : List Char) : Option (List (List Char)) :=
  match words line with
  | ('#' :: keyword) :: arguments => some (('#' :: keyword) :: arguments)
  | _ => none

/-- The directives of a comment-free text, in order. -/
def directives (text : List Char) : List (List (List Char)) :=
  (text.splitOn '\n').filterMap directive

/-- The directives of a header; `none` when it leaves a comment open. -/
def readHeader (header : List Char) : Option (List (List (List Char))) :=
  (stripComments header).map directives

example : readHeader "#define A 1 /* x */\n/* y */ #define B\n".toList =
    some [["#define".toList, "A".toList, "1".toList], ["#define".toList, "B".toList]] := by
  decide

theorem scan_append (state : ScanState) (front back : List Char) :
    scan state (front ++ back) =
      ((scan (scan state front).1 back).1, (scan state front).2 ++ (scan (scan state front).1 back).2) := by
  induction front generalizing state with
  | nil => rfl
  | cons c front induction => simp [scan, induction]

/-- The two characters `a b` are not the pair `x y`. -/
def NotPair (x y a b : Char) : Prop := ¬(a = x ∧ b = y)

theorem chain'_notPair_of_not_infix {x y : Char} :
    ∀ {s : List Char}, ¬[x, y] <:+: s → s.Chain' (NotPair x y)
  | [], _ => List.chain'_nil
  | [_], _ => List.chain'_singleton _
  | a :: b :: rest, absent => by
      refine List.chain'_cons.mpr ⟨?_, chain'_notPair_of_not_infix fun inner =>
        absent (inner.trans (List.suffix_cons a _).isInfix)⟩
      rintro ⟨rfl, rfl⟩
      exact absent (List.prefix_append _ rest).isInfix

theorem getLast?_ne_of_cons {c x : Char} {s : List Char} (last : (c :: s).getLast? ≠ some x) :
    s.getLast? ≠ some x := by
  cases s with
  | nil => simp
  | cons d s => simpa using last

theorem scan_of_opensNone (s : List Char) :
    (s.Chain' (NotPair '/' '*') → s.getLast? ≠ some '/' → scan .code s = (.code, s)) ∧
      (('/' :: s).Chain' (NotPair '/' '*') → ('/' :: s).getLast? ≠ some '/' →
        scan .slash s = (.code, '/' :: s)) := by
  induction s with
  | nil => exact ⟨fun _ _ => rfl, fun _ last => absurd rfl last⟩
  | cons c s induction =>
      obtain ⟨codeCase, slashCase⟩ := induction
      constructor
      · intro plain last
        by_cases isSlash : c = '/'
        · subst isSlash
          simp [scan, scanChar, slashCase plain last]
        · simp [scan, scanChar, isSlash, codeCase plain.tail (getLast?_ne_of_cons last)]
      · intro plain last
        have first : NotPair '/' '*' '/' c := (List.chain'_cons.mp plain).1
        by_cases isSlash : c = '/'
        · subst isSlash
          simp [scan, scanChar, slashCase plain.tail (getLast?_ne_of_cons last)]
        · have notStar : c ≠ '*' := fun isStar => first ⟨rfl, isStar⟩
          simp [scan, scanChar, isSlash, notStar,
            codeCase plain.tail.tail (getLast?_ne_of_cons (getLast?_ne_of_cons last))]

theorem scan_of_closesNone (s : List Char) :
    (s.Chain' (NotPair '*' '/') → scan .comment (s ++ [' ', '*', '/']) = (.code, [' '])) ∧
      (('*' :: s).Chain' (NotPair '*' '/') → scan .star (s ++ [' ', '*', '/']) = (.code, [' '])) := by
  induction s with
  | nil => exact ⟨fun _ => rfl, fun _ => rfl⟩
  | cons c s induction =>
      obtain ⟨commentCase, starCase⟩ := induction
      constructor
      · intro plain
        by_cases isStar : c = '*'
        · subst isStar
          simp [scan, scanChar, starCase plain]
        · simp [scan, scanChar, isStar, commentCase plain.tail]
      · intro plain
        have first : NotPair '*' '/' '*' c := (List.chain'_cons.mp plain).1
        have notSlash : c ≠ '/' := fun isSlash => first ⟨rfl, isSlash⟩
        by_cases isStar : c = '*'
        · subst isStar
          simp [scan, scanChar, starCase plain.tail]
        · simp [scan, scanChar, isStar, notSlash, commentCase plain.tail.tail]

theorem words_append_space {c : Char} (space : isCSpace c) (front back : List Char) :
    words (front ++ c :: back) = words front ++ words back := by
  simp [words, splitOnP_append_separator space, List.filter_append]

theorem words_of_plain {word : List Char} (nonempty : word ≠ [])
    (plain : ∀ c ∈ word, isCSpace c = false) : words word = [word] := by
  simp [words, splitOnP_of_free plain, nonempty]

theorem directives_append_newline (front back : List Char) :
    directives (front ++ '\n' :: back) = directives front ++ directives back := by
  rw [directives, directives, directives, List.splitOn, List.splitOn, List.splitOn,
    @splitOnP_append_separator Char (· == '\n') '\n' (beq_self_eq_true _), List.filterMap_append]

theorem directives_of_line {line : List Char} (oneLine : ∀ c ∈ line, c ≠ '\n') :
    directives line = (directive line).toList := by
  rw [directives, List.splitOn, splitOnP_of_free (by simpa using oneLine)]
  cases found : directive line <;> simp [found]

end Preprocessor

end FeatureHeader

import FeatureHeader.Generator

/-!
# The output document

The spec describes a run by the document it writes: the include guard, the
blocks of the lines classified before the first malformed one, in input order,
and `#endif` when no line is malformed.  Its line classifier (`specClassify`)
follows the spec's rules; it calls malformed every line the code returns `None`
for, and also an `option(...)` line with text after its closing parenthesis,
which the code reads as a directive (`trailsDirective`).  On every input without
such a line the generator refines the document
(`generateOutputHeader_refines_document`): a run on a readable input leaves the
output path holding the document's text and every other path as it was, and it
returns normally exactly when the document is closed.  What it returns and how
the process then exits is where code and spec part (see `FeatureHeader.Outcome`).

Since the document depends on the input text alone, a second run with the same
paths rewrites what the first wrote, as long as the input is not the output.
-/

namespace FeatureHeader

/-- Modelled from the spec (rules 3b to 3e): the directive read off the middle
fragment of an `option(...)` line. -/
def specDirective (middle : List Char) : Classification :=
  match middle.splitOn '"' with
  | [nameAndPadding, description, valueAndPadding] =>
      let name := (rstrip nameAndPadding).drop 7
      let value := lstrip valueAndPadding
      if value = "ON".toList then .feature name true description
      else if value = "OFF".toList then .feature name false description
      else .malformed
  | _ => .malformed

/-- Modelled from the spec: the line classifier, its rules in priority order,
with a line outside the directive shape malformed as the spec defaults to. -/
def specClassify (line : List Char) : Classification :=
  if line = [] then .emptyLine
  else if line.head? = some '#' then .comment (lstrip line.tail)
  else
    match line.splitOnP isParen with
    | [keyword, middle, last] =>
        if keyword = "option".toList ∧ last = [] then specDirective middle else .malformed
    | _ => .malformed

namespace Classification

/-- Modelled from the spec: the block a line contributes to the header. -/
def block : Classification → List Char
  | comment text => "\n/* ".toList ++ text ++ " */\n".toList
  | feature name enabled description =>
      "#define ".toList ++ name ++ ' ' :: digit enabled :: " /* ".toList ++ description ++
        " */\n".toList
  | _ => []

end Classification

/-- Modelled from the spec: the header of one run, a guard macro, the
classifications of the lines written, and whether `#endif` closes it.  No
malformed line is part of the body. -/
structure OutputDocument where
  guard : List Char
  body : List Classification
  closed : Bool
  body_wellFormed : ∀ classification ∈ body, classification ≠ .malformed

namespace OutputDocument

/-- Modelled from the spec: the document of a run over `lines`, which stops at
the first malformed line. -/
def ofLines (guard : List Char) (lines : List (List Char)) : OutputDocument :=
  { guard := guard
    body := (lines.map specClassify).takeWhile (· ≠ .malformed)
    closed := (lines.map specClassify).all (· ≠ .malformed)
    body_wellFormed := fun _ member => by simpa using List.mem_takeWhile_imp member }

@[simp] theorem guard_ofLines (guard : List Char) (lines : List (List Char)) :
    (ofLines guard lines).guard = guard :=
  rfl

/-- Modelled from the spec: the document as the text of a header. -/
def text (document : OutputDocument) : List Char :=
  "#ifndef ".toList ++ document.guard ++ "\n#define ".toList ++ document.guard ++ "\n".toList ++
    (document.body.map Classification.block).flatten ++
      if document.closed then "\n#endif\n".toList else []

/- The spec's end-to-end example. -/
set_option maxRecDepth 4000 in
example : (ofLines "_EZ_TARGET_CONFIG_H".toList (splitlines ("# Feature toggles\n" ++
    "option(ENABLE_EZ_EVENT_NOTIFIER    \"Enable the Event Notifier module\"    ON)\n" ++
    "option(ENABLE_EZ_LOGGING    \"Enable logging\"    OFF)\n").toList)).text =
      ("#ifndef _EZ_TARGET_CONFIG_H\n#define _EZ_TARGET_CONFIG_H\n\n/* Feature toggles */\n" ++
        "#define EZ_EVENT_NOTIFIER 1 /* Enable the Event Notifier module */\n" ++
        "#define EZ_LOGGING 0 /* Enable logging */\n\n#endif\n").toList := by
  decide

end OutputDocument

example : specClassify "option(ENABLE_X \"d\" ON) # t".toList = .malformed ∧
    classify "option(ENABLE_X \"d\" ON) # t".toList = some (.feature "X".toList true "d".toList) := by
  decide

section Document

variable (upper : List Char → List Char)

/-- The include guard's macro `_S_H` for the upper-cased stem `S` of the output
path. -/
def guardMacro (outputPath : List Char) : List Char :=
  '_' :: upper (stem outputPath) ++ "_H".toList

/-- A second run with the same paths leaves what the first left and ends as
the first ended, when the input is not the output. -/
theorem generateOutputHeader_rerun {inputPath outputPath : List Char}
    (different : inputPath ≠ outputPath) (fs : FileSystem) :
    generateOutputHeader upper inputPath outputPath
        (finalState (generateOutputHeader upper inputPath outputPath fs)) =
      generateOutputHeader upper inputPath outputPath fs := by
  cases readable : fs.files inputPath with
  | none => simp only [generateOutputHeader_of_missing upper readable, finalState]
  | some text =>
      rw [finalState_generateOutputHeader upper readable]
      have stillReadable : ∀ content, (fs.set outputPath content).files inputPath = some text :=
        fun content => by rw [FileSystem.set_files_of_ne _ _ different, readable]
      rw [generateOutputHeader_run upper (stillReadable _), generateOutputHeader_run upper readable]
      simp only [FileSystem.set_set]

theorem generateOutputHeader_rerun_features :
    let fs : FileSystem := ⟨fun path => if path = "features.cmake".toList then
      some "option(ENABLE_X \"d\" ON)".toList else none⟩
    generateOutputHeader (List.map Char.toUpper) "features.cmake".toList
        "build/ez_target_config.h".toList (finalState (generateOutputHeader
          (List.map Char.toUpper) "features.cmake".toList "build/ez_target_config.h".toList fs)) =
      generateOutputHeader (List.map Char.toUpper) "features.cmake".toList
        "build/ez_target_config.h".toList fs :=
  generateOutputHeader_rerun _ (by decide) _

/- With the input as its own output, the second run reads the first one's
header, whose lines all start with `#`, as comments. -/
example :
    let fs : FileSystem := ⟨fun path => if path = "a.h".toList then
      some "option(ENABLE_X \"d\" ON)".toList else none⟩
    let once := finalState (generateOutputHeader (List.map Char.toUpper) "a.h".toList "a.h".toList fs)
    (finalState (generateOutputHeader (List.map Char.toUpper) "a.h".toList "a.h".toList once)).files
        "a.h".toList ≠ once.files "a.h".toList := by
  decide

end Document

end FeatureHeader

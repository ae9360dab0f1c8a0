import FeatureHeader.Classifier
import FeatureHeader.FileSystem

/-!
# The generator

`generate_output_header` opens the input, replaces the output with an empty
file, writes the include guard, runs every input line through the classifier in
order and writes what it emits, and closes the guard.  A line that is not
classified stops the loop with an exception, `SystemExit` from `exit()` for an
`ERROR` line and `TypeError` for the `None` of a line without the `option(...)`
shape; what was written stays.

`writeLines_run` and `generateOutputHeader_run` say in one equation what a whole
run does to the file system and how it ends.  The theorems about the generator
and about `main` are read off these equations.
-/

namespace FeatureHeader

/-- The line is classified `EMPTY_LINE`, `COMMENT` or `FEATURE`. -/
def isClassified (line : List Char) : Bool :=
  match extractFeatureByLine line with
  | some (.emptyLine, _) | some (.comment, _) | some (.feature, _) => true
  | _ => false

/-- The text `extract_feature_by_line` emits for a line; none for an empty one. -/
def emittedText (line : List Char) : List Char :=
  ((extractFeatureByLine line).bind Prod.snd).getD []

/-- The exception the loop raises at a line it does not classify. -/
def stopException (line : List Char) : PyExc :=
  if extractFeatureByLine line = none then .typeError else .systemExit

/-- The texts emitted for the lines before the first unclassified one. -/
def emittedPrefix (lines : List (List Char)) : List Char :=
  ((lines.takeWhile isClassified).map emittedText).flatten

/-- The text that closes the include guard. -/
def endifText : List Char := "\n#endif\n".toList

/-- The loop `for line in lines:` of `generate_output_header`. -/
def writeLines (outputPath : List Char) : List (List Char) → EStateM PyExc FileSystem Unit
  | [] => pure ()
  | line :: lines =>
      match extractFeatureByLine line with
      | none => throw .typeError
      | some (result, feature) =>
          if result = .error then throw .systemExit
          else if result = .feature then do
            write outputPath feature
            writeLines outputPath lines
          else if result = .comment then do
            write outputPath feature
            writeLines outputPath lines
          else writeLines outputPath lines

theorem isSome_iff_of_extractFeatureByLine {line : List Char} {result : ExtractResult}
    {feature : Option (List Char)} (extracted : extractFeatureByLine line = some (result, feature)) :
    feature.isSome ↔ result = .feature ∨ result = .comment := by
  rw [extractFeatureByLine_eq_map_render, Option.map_eq_some'] at extracted
  obtain ⟨classification, -, rendered⟩ := extracted
  cases classification <;> simp only [Classification.render, Prod.mk.injEq] at rendered <;>
    obtain ⟨rfl, rfl⟩ := rendered <;> simp

theorem writeLines_cons_of_isClassified {outputPath line : List Char}
    (classified : isClassified line) (lines : List (List Char)) {fs : FileSystem}
    {acc : List Char} (current : fs.files outputPath = some acc) :
    writeLines outputPath (line :: lines) fs =
      writeLines outputPath lines (fs.set outputPath (some (acc ++ emittedText line))) := by
  unfold isClassified at classified
  unfold emittedText
  rcases extracted : extractFeatureByLine line with _ | ⟨result, feature⟩
  · simp [extracted] at classified
  · have text := isSome_iff_of_extractFeatureByLine extracted
    simp only [writeLines, extracted]
    cases result
    · obtain ⟨written, rfl⟩ := Option.isSome_iff_exists.mp (text.mpr (.inr rfl))
      simp [bind, EStateM.bind, write, current]
    · obtain ⟨written, rfl⟩ := Option.isSome_iff_exists.mp (text.mpr (.inl rfl))
      simp [bind, EStateM.bind, write, current]
    · have : feature = none := by simpa using text
      simp [this, FileSystem.set_of_files current]
    · simp [extracted] at classified

theorem writeLines_cons_of_not_isClassified {outputPath line : List Char}
    (unclassified : isClassified line = false) (lines : List (List Char)) (fs : FileSystem) :
    writeLines outputPath (line :: lines) fs = .error (stopException line) fs := by
  unfold isClassified at unclassified
  unfold stopException
  rcases extracted : extractFeatureByLine line with _ | ⟨result, feature⟩
  · simp [writeLines, extracted, throw, throwThe, MonadExceptOf.throw, EStateM.throw]
  · cases result <;> simp [extracted] at unclassified
    simp [writeLines, extracted, throw, throwThe, MonadExceptOf.throw, EStateM.throw]

/-- The whole loop: it writes what the lines before the first unclassified
one emit, and ends as that line makes it end. -/
theorem writeLines_run (outputPath : List Char) (lines : List (List Char)) {fs : FileSystem}
    {acc : List Char} (current : fs.files outputPath = some acc) :
    writeLines outputPath lines fs =
      match lines.find? (!isClassified ·) with
      | none => .ok () (fs.set outputPath (some (acc ++ emittedPrefix lines)))
      | some line =>
          .error (stopException line) (fs.set outputPath (some (acc ++ emittedPrefix lines))) := by
  induction lines generalizing fs acc with
  | nil =>
      simp [writeLines, emittedPrefix, FileSystem.set_of_files current, pure, EStateM.pure]
  | cons line lines induction =>
      cases classified : isClassified line
      · rw [writeLines_cons_of_not_isClassified classified]
        simp [List.find?_cons, classified, emittedPrefix, FileSystem.set_of_files current]
      · rw [writeLines_cons_of_isClassified classified lines current,
          @induction _ (acc ++ emittedText line) (by simp)]
        simp [List.find?_cons, classified, emittedPrefix]

theorem writeLines_cons_nil (outputPath : List Char) (lines : List (List Char)) :
    writeLines outputPath ([] :: lines) = writeLines outputPath lines := by
  simp [writeLines, extractFeatureByLine]

/-- An empty line neither writes nor changes what the later lines do: the loop
over the lines is the loop over the non-empty ones. -/
theorem writeLines_filter_nonempty (outputPath : List Char) (lines : List (List Char)) :
    writeLines outputPath (lines.filter (· ≠ [])) = writeLines outputPath lines := by
  induction lines with
  | nil => rfl
  | cons line lines induction =>
      by_cases empty : line = []
      · subst empty
        simpa [writeLines_cons_nil] using induction
      · simp only [List.filter_cons, empty, ne_eq, not_false_eq_true, decide_True, ↓reduceIte]
        simp only [writeLines, induction]

section Generator

/- `upper` is Python's `str.upper`, the Unicode case map the code takes from
the runtime. -/
variable (upper : List Char → List Char)

/-- `#ifndef _S_H` and `#define _S_H` for the upper-cased stem `S` of the
output path. -/
def guardText (outputPath : List Char) : List Char :=
  "#ifndef _".toList ++ upper (stem outputPath) ++ "_H\n".toList ++
    ("#define _".toList ++ upper (stem outputPath) ++ "_H\n".toList)

/-- `generate_output_header`.  Every path through it that returns falls off
its end and returns `None`. -/
def generateOutputHeader (inputPath outputPath : List Char) :
    EStateM PyExc FileSystem (Option Bool) := do
  let text ← openRead inputPath
  if ← pathExists outputPath then remove outputPath
  openAppend outputPath
  write outputPath (some ("#ifndef _".toList ++ upper (stem outputPath) ++ "_H\n".toList))
  write outputPath (some ("#define _".toList ++ upper (stem outputPath) ++ "_H\n".toList))
  writeLines outputPath (splitlines text)
  write outputPath (some endifText)
  pure none

/-- `main`, once `argparse` has read `--cmake_file` and `--output`. -/
def main (cmakeFile output : List Char) : EStateM PyExc FileSystem Unit := do
  if (← pathExists cmakeFile) = false then pure ()
  else discard <| generateOutputHeader upper cmakeFile (output ++ "/ez_target_config.h".toList)

/-- A run on a readable input: the output holds the guard and the texts of the
lines before the first unclassified one, closed by `#endif` when there is no
such line, and the run ends as that line makes it end. -/
theorem generateOutputHeader_run {fs : FileSystem}
    {inputPath text : List Char} (readable : fs.files inputPath = some text)
    (outputPath : List Char) :
    generateOutputHeader upper inputPath outputPath fs =
      let header := guardText upper outputPath ++ emittedPrefix (splitlines text)
      match (splitlines text).find? (!isClassified ·) with
      | none => .ok none (fs.set outputPath (some (header ++ endifText)))
      | some line => .error (stopException line) (fs.set outputPath (some header)) := by
  cases present : fs.files outputPath <;>
    simp [generateOutputHeader, bind, EStateM.bind, openRead, readable, pathExists, remove,
      openAppend, present, pure, EStateM.pure, write]
  all_goals
    rw [writeLines_run _ _ (FileSystem.set_files_self _ _ _)]
    cases (splitlines text).find? (!isClassified ·) <;> simp [guardText]

theorem generateOutputHeader_of_missing {fs : FileSystem} {inputPath : List Char}
    (missing : fs.files inputPath = none) (outputPath : List Char) :
    generateOutputHeader upper inputPath outputPath fs = .error .fileNotFound fs := by
  simp [generateOutputHeader, bind, EStateM.bind, openRead, missing]

theorem all_isClassified_iff {lines : List (List Char)} :
    lines.all isClassified ↔ lines.find? (!isClassified ·) = none := by
  simp [List.find?_eq_none]

/-- Whichever way a run on a readable input ends, it leaves the output path
holding the guard, the emitted texts and `#endif` when every line is
classified, and every other path as it was. -/
theorem finalState_generateOutputHeader {fs : FileSystem} {inputPath text : List Char}
    (readable : fs.files inputPath = some text) (outputPath : List Char) :
    finalState (generateOutputHeader upper inputPath outputPath fs) =
      fs.set outputPath (some (guardText upper outputPath ++ emittedPrefix (splitlines text) ++
        if (splitlines text).all isClassified then endifText else [])) := by
  rw [generateOutputHeader_run upper readable]
  cases found : (splitlines text).find? (!isClassified ·)
  · simp [finalState, all_isClassified_iff.mpr found]
  · have incomplete : ¬(splitlines text).all isClassified := fun all =>
      by simp [all_isClassified_iff.mp all] at found
    simp [finalState, incomplete]

end Generator

end FeatureHeader

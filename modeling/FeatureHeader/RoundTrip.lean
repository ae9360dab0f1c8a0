import FeatureHeader.Generator
import FeatureHeader.Preprocessor

/-!
# What the generated header defines

A header written from classified lines, read back by the preprocessor, defines
the include guard and one macro per directive line with the replacement list
`1` or `0`; comment lines leave no directive.  This holds when the texts the
generator copies do not meddle with C's comments and tokens: no comment text
and no description may contain `*/`, and every macro name must be one token
that opens no comment.  Nothing in the classifier rules these out, and one
description holding `*/` is enough for the header to define something else.

The header is read fragment by fragment: `scan_fragment` says what each line's
text leaves once its comment is replaced, and `directives_scanned` which
directive that leaves.
-/

namespace FeatureHeader

open Preprocessor

namespace Classification

/-- What the fields of a classified line may hold for its text to survive
comment removal and the splitting at blanks (`readHeader`) as written.  C's
tokenizer splits some such names further (`X-Y`, `X//Y`), so the results about
what an included header defines ask for identifiers as well
(`FeatureHeader.Inclusion`). -/
def Preprocessable : Classification → Prop
  | emptyLine => True
  | comment text => ¬"*/".toList <:+: text
  | feature name _ description =>
      name ≠ [] ∧ (∀ c ∈ name, isCSpace c = false) ∧ ¬"/*".toList <:+: name ∧
        ¬"*/".toList <:+: description
  | malformed => False

instance : DecidablePred Preprocessable
  | emptyLine => inferInstanceAs (Decidable True)
  | comment text => inferInstanceAs (Decidable ¬"*/".toList <:+: text)
  | feature name _ description => inferInstanceAs (Decidable (name ≠ [] ∧
      (∀ c ∈ name, isCSpace c = false) ∧ ¬"/*".toList <:+: name ∧ ¬"*/".toList <:+: description))
  | malformed => inferInstanceAs (Decidable False)

/-- The text the generator writes for a classified line. -/
def fragment (classification : Classification) : List Char :=
  classification.render.2.getD []

/-- That text once its comment is replaced by a space. -/
def scanned : Classification → List Char
  | emptyLine => []
  | comment _ => "\n \n".toList
  | feature name enabled _ => "#define ".toList ++ name ++ [' ', digit enabled, ' ', ' ', '\n']
  | malformed => []

/-- The directive the line's text holds: a `#define` for a feature. -/
def macroDirective : Classification → Option (List (List Char))
  | feature name enabled _ => some ["#define".toList, name, [digit enabled]]
  | _ => none

end Classification

/-- The directives of a header with guard macro `guard` generated from lines
with these classifications. -/
def expectedDirectives (guard : List Char) (classifications : List Classification) :
    List (List (List Char)) :=
  [["#ifndef".toList, guard], ["#define".toList, guard]] ++
    classifications.filterMap Classification.macroDirective ++ [["#endif".toList]]

theorem scan_append_of {state middle final : ScanState} {front back frontOut backOut : List Char}
    (frontScan : scan state front = (middle, frontOut))
    (backScan : scan middle back = (final, backOut)) :
    scan state (front ++ back) = (final, frontOut ++ backOut) := by
  rw [scan_append, frontScan, backScan]

theorem scan_opensNone {text : List Char} (plain : text.Chain' (NotPair '/' '*'))
    (last : text.getLast? ≠ some '/') : scan .code text = (.code, text) :=
  (scan_of_opensNone text).1 plain last

theorem scan_comment_body {body : List Char} (closesNone : ¬"*/".toList <:+: body) :
    scan .comment ((' ' :: body) ++ [' ', '*', '/']) = (.code, [' ']) :=
  (scan_of_closesNone (' ' :: body)).1 (List.chain'_cons'.mpr
    ⟨fun _ _ => fun pair => by simp at pair, chain'_notPair_of_not_infix closesNone⟩)

theorem scan_fragment {classification : Classification}
    (preprocessable : classification.Preprocessable) :
    scan .code classification.fragment = (.code, classification.scanned) := by
  cases classification with
  | emptyLine => rfl
  | comment text =>
      have pieces : Classification.fragment (.comment text) =
          ['\n', '/', '*'] ++ ((' ' :: text) ++ [' ', '*', '/']) ++ ['\n'] := by
        simp [Classification.fragment, Classification.render, commentText]
      rw [pieces]
      exact scan_append_of (scan_append_of (by rfl : scan .code ['\n', '/', '*'] = (.comment, ['\n']))
        (scan_comment_body preprocessable)) (by rfl : scan .code ['\n'] = (.code, ['\n']))
  | feature name enabled description =>
      obtain ⟨-, -, nameOpensNone, descriptionClosesNone⟩ := preprocessable
      have pieces : Classification.fragment (.feature name enabled description) =
          ("#define ".toList ++ name ++ [' ', Classification.digit enabled, ' ']) ++ ['/', '*'] ++
            ((' ' :: description) ++ [' ', '*', '/']) ++ ['\n'] := by
        simp [Classification.fragment, Classification.render, defineText]
      have plain : ("#define ".toList ++ name ++ [' ', Classification.digit enabled, ' ']).Chain'
          (NotPair '/' '*') := by
        have nameChain := chain'_notPair_of_not_infix nameOpensNone
        refine List.chain'_append.mpr ⟨List.chain'_append.mpr ⟨by simp [NotPair], nameChain, ?_⟩,
          by simp [NotPair], ?_⟩
        · intro x last y _ pair
          simp_all
        · intro x _ y first pair
          simp_all
      rw [pieces]
      have last : ("#define ".toList ++ name ++ [' ', Classification.digit enabled, ' ']).getLast? ≠
          some '/' := by
        rw [List.getLast?_append]
        simp
      refine (scan_append_of (scan_append_of (scan_append_of (scan_opensNone plain last)
        (by rfl : scan .code ['/', '*'] = (.comment, []))) (scan_comment_body descriptionClosesNone))
        (by rfl : scan .code ['\n'] = (.code, ['\n']))).trans ?_
      simp [Classification.scanned]
  | malformed => exact preprocessable.elim

theorem scan_fragments {classifications : List Classification}
    (preprocessable : ∀ c ∈ classifications, c.Preprocessable) :
    scan .code (classifications.map Classification.fragment).flatten =
      (.code, (classifications.map Classification.scanned).flatten) := by
  induction classifications with
  | nil => rfl
  | cons classification classifications induction =>
      exact scan_append_of (scan_fragment (preprocessable classification (by simp)))
        (induction fun c member => preprocessable c (by simp [member]))

theorem guardLine_chain' (keyword : List Char) {guard : List Char}
    (keywordChain : (keyword ++ [' ', '_']).Chain' (NotPair '/' '*'))
    (guardOpensNone : ¬"/*".toList <:+: guard) :
    (keyword ++ [' ', '_'] ++ guard ++ ['_', 'H', '\n']).Chain' (NotPair '/' '*') := by
  refine List.chain'_append.mpr ⟨List.chain'_append.mpr ⟨keywordChain,
    chain'_notPair_of_not_infix guardOpensNone, ?_⟩, by simp [NotPair], ?_⟩
  · intro x last y _ pair
    simp_all
  · intro x _ y first pair
    simp_all

theorem scan_guard {guard : List Char} (guardOpensNone : ¬"/*".toList <:+: guard) :
    scan .code ("#ifndef _".toList ++ guard ++ "_H\n".toList ++
      ("#define _".toList ++ guard ++ "_H\n".toList)) =
        (.code, "#ifndef _".toList ++ guard ++ "_H\n".toList ++
          ("#define _".toList ++ guard ++ "_H\n".toList)) := by
  have ifndefLine := guardLine_chain' "#ifndef".toList (by simp [NotPair]) guardOpensNone
  have defineLine := guardLine_chain' "#define".toList (by simp [NotPair]) guardOpensNone
  have ifndefScan := scan_opensNone ifndefLine (by rw [List.getLast?_append]; simp)
  have defineScan := scan_opensNone defineLine (by rw [List.getLast?_append]; simp)
  simp only [List.append_assoc, List.singleton_append, List.cons_append] at ifndefScan defineScan
  simpa using scan_append_of ifndefScan defineScan

theorem words_defineLine {name : List Char} (nonempty : name ≠ [])
    (oneToken : ∀ c ∈ name, isCSpace c = false) (enabled : Bool) :
    words ("#define ".toList ++ name ++ [' ', Classification.digit enabled, ' ', ' ']) =
      ["#define".toList, name, [Classification.digit enabled]] := by
  have digitPlain : isCSpace (Classification.digit enabled) = false := by
    cases enabled <;> rfl
  have split : "#define ".toList ++ name ++ [' ', Classification.digit enabled, ' ', ' '] =
      "#define".toList ++ ' ' :: (name ++ ' ' :: ([Classification.digit enabled] ++
        ' ' :: ([] ++ ' ' :: []))) := by
    simp
  have space : isCSpace ' ' := rfl
  rw [split, words_append_space space, words_append_space space, words_append_space space,
    words_append_space space, words_of_plain nonempty oneToken,
    words_of_plain (List.cons_ne_nil _ _) (by simpa using digitPlain)]
  rfl

theorem directives_scanned {classification : Classification}
    (preprocessable : classification.Preprocessable) (rest : List Char) :
    directives (classification.scanned ++ rest) =
      classification.macroDirective.toList ++ directives rest := by
  cases classification with
  | emptyLine => rfl
  | comment text =>
      have split : (Classification.comment text).scanned ++ rest =
          [] ++ '\n' :: ([' '] ++ '\n' :: rest) := rfl
      rw [split, directives_append_newline, directives_append_newline]
      rfl
  | feature name enabled description =>
      obtain ⟨nonempty, oneToken, -, -⟩ := preprocessable
      have split : (Classification.feature name enabled description).scanned ++ rest =
          ("#define ".toList ++ name ++ [' ', Classification.digit enabled, ' ', ' ']) ++
            '\n' :: rest := by
        simp [Classification.scanned]
      have oneLine : ∀ c ∈ "#define ".toList ++ name ++
          [' ', Classification.digit enabled, ' ', ' '], c ≠ '\n' := by
        intro c member
        simp only [List.mem_append, List.mem_cons, List.mem_singleton, List.not_mem_nil,
          or_false] at member
        rcases member with (keyword | named) | rfl | rfl | rfl | rfl
        · revert c
          decide
        · exact ne_newline_of_not_isCSpace (oneToken c named)
        · decide
        · cases enabled <;> decide
        · decide
        · decide
      rw [split, directives_append_newline, directives_of_line oneLine, directive,
        words_defineLine nonempty oneToken]
      rfl
  | malformed => exact preprocessable.elim

theorem directives_fragments {classifications : List Classification}
    (preprocessable : ∀ c ∈ classifications, c.Preprocessable) (rest : List Char) :
    directives ((classifications.map Classification.scanned).flatten ++ rest) =
      classifications.filterMap Classification.macroDirective ++ directives rest := by
  induction classifications with
  | nil => rfl
  | cons classification classifications induction =>
      rw [List.map_cons, List.flatten_cons, List.append_assoc,
        directives_scanned (preprocessable classification (by simp)),
        induction fun c member => preprocessable c (by simp [member])]
      cases found : classification.macroDirective <;> simp [List.filterMap_cons, found]

theorem guardMacro_plain {guard : List Char} (guardBlank : ∀ c ∈ guard, isCSpace c = false) :
    ∀ c ∈ '_' :: guard ++ "_H".toList, isCSpace c = false := by
  intro c member
  rcases List.mem_append.mp member with inHead | inSuffix
  · rcases List.mem_cons.mp inHead with rfl | named
    · rfl
    · exact guardBlank c named
  · clear member
    revert c
    decide

theorem directives_guardLine {keyword guard : List Char}
    (keywordPlain : ∀ c ∈ '#' :: keyword, isCSpace c = false)
    (guardBlank : ∀ c ∈ guard, isCSpace c = false) (rest : List Char) :
    directives (('#' :: keyword ++ ' ' :: ('_' :: guard ++ "_H".toList)) ++ '\n' :: rest) =
      ['#' :: keyword, '_' :: guard ++ "_H".toList] :: directives rest := by
  have macroPlain := guardMacro_plain guardBlank
  have space : isCSpace ' ' := rfl
  have oneLine : ∀ c ∈ '#' :: keyword ++ ' ' :: ('_' :: guard ++ "_H".toList), c ≠ '\n' := by
    intro c member
    rcases List.mem_append.mp member with inKeyword | inRest
    · exact ne_newline_of_not_isCSpace (keywordPlain c inKeyword)
    · rcases List.mem_cons.mp inRest with rfl | inMacro
      · decide
      · exact ne_newline_of_not_isCSpace (macroPlain c inMacro)
  rw [directives_append_newline, directives_of_line oneLine, directive, words_append_space space,
    words_of_plain (List.cons_ne_nil _ _) keywordPlain,
    @words_of_plain ('_' :: guard ++ "_H".toList) (by simp) macroPlain]
  rfl

/-- A header written from preprocessable lines reads back as its include guard,
one `#define` per feature line in order, and the directives of what closes it. -/
theorem readHeader_guarded {guard : List Char} (guardBlank : ∀ c ∈ guard, isCSpace c = false)
    (guardOpensNone : ¬"/*".toList <:+: guard) {classifications : List Classification}
    (preprocessable : ∀ c ∈ classifications, c.Preprocessable) {closing : List Char}
    (closingScan : scan .code closing = (.code, closing)) :
    readHeader ("#ifndef _".toList ++ guard ++ "_H\n".toList ++
      ("#define _".toList ++ guard ++ "_H\n".toList) ++
        (classifications.map Classification.fragment).flatten ++ closing) =
      some ([["#ifndef".toList, '_' :: guard ++ "_H".toList],
        ["#define".toList, '_' :: guard ++ "_H".toList]] ++
          classifications.filterMap Classification.macroDirective ++ directives closing) := by
  rw [readHeader, stripComments, scan_append_of (scan_append_of (scan_guard guardOpensNone)
    (scan_fragments preprocessable)) closingScan]
  have lines : "#ifndef _".toList ++ guard ++ "_H\n".toList ++
      ("#define _".toList ++ guard ++ "_H\n".toList) ++
        (classifications.map Classification.scanned).flatten ++ closing =
      ('#' :: "ifndef".toList ++ ' ' :: ('_' :: guard ++ "_H".toList)) ++ '\n' ::
        (('#' :: "define".toList ++ ' ' :: ('_' :: guard ++ "_H".toList)) ++ '\n' ::
          ((classifications.map Classification.scanned).flatten ++ closing)) := by
    simp
  simp only [Option.map_some', lines]
  rw [directives_guardLine (by decide) guardBlank, directives_guardLine (by decide) guardBlank,
    directives_fragments preprocessable]
  rfl

theorem readHeader_generated {guard : List Char} (guardBlank : ∀ c ∈ guard, isCSpace c = false)
    (guardOpensNone : ¬"/*".toList <:+: guard) {classifications : List Classification}
    (preprocessable : ∀ c ∈ classifications, c.Preprocessable) :
    readHeader ("#ifndef _".toList ++ guard ++ "_H\n".toList ++
      ("#define _".toList ++ guard ++ "_H\n".toList) ++
        (classifications.map Classification.fragment).flatten ++ endifText) =
      some (expectedDirectives ('_' :: guard ++ "_H".toList) classifications) :=
  readHeader_guarded guardBlank guardOpensNone preprocessable (by rfl)

theorem isClassified_of_classify {line : List Char} {classification : Classification}
    (classified : classify line = some classification)
    (preprocessable : classification.Preprocessable) : isClassified line := by
  unfold isClassified
  rw [extractFeatureByLine_eq_map_render, classified]
  cases classification
  all_goals first | rfl | exact preprocessable.elim

theorem emittedPrefix_of_preprocessable {lines : List (List Char)}
    (preprocessable : ∀ line ∈ lines, ∃ classification, classify line = some classification ∧
      classification.Preprocessable) :
    emittedPrefix lines = ((lines.filterMap classify).map Classification.fragment).flatten := by
  induction lines with
  | nil => rfl
  | cons line lines induction =>
      obtain ⟨classification, classified, lineOk⟩ := preprocessable line (by simp)
      have rest := induction fun other member => preprocessable other (by simp [member])
      simp only [emittedPrefix] at rest
      simp [emittedPrefix, isClassified_of_classify classified lineOk, classified, rest,
        emittedText, extractFeatureByLine_eq_map_render, Classification.fragment]

/-- What the preprocessor reads in the output of a run whose lines up to the
first unclassified one are preprocessable: the include guard, one `#define` per
feature line before that line, and `#endif` exactly when there is no such line. -/
theorem readHeader_finalState (upper : List Char → List Char) {fs : FileSystem}
    {inputPath text : List Char} (readable : fs.files inputPath = some text)
    (outputPath : List Char)
    (preprocessable : ∀ line ∈ (splitlines text).takeWhile isClassified, ∃ classification,
      classify line = some classification ∧ classification.Preprocessable)
    (guardBlank : ∀ c ∈ upper (stem outputPath), isCSpace c = false)
    (guardOpensNone : ¬"/*".toList <:+: upper (stem outputPath)) :
    ((finalState (generateOutputHeader upper inputPath outputPath fs)).files outputPath).bind
        readHeader =
      some ([["#ifndef".toList, '_' :: upper (stem outputPath) ++ "_H".toList],
        ["#define".toList, '_' :: upper (stem outputPath) ++ "_H".toList]] ++
          (((splitlines text).takeWhile isClassified).filterMap classify).filterMap
            Classification.macroDirective ++
          if (splitlines text).all isClassified then [["#endif".toList]] else []) := by
  have fieldsOk : ∀ c ∈ ((splitlines text).takeWhile isClassified).filterMap classify,
      c.Preprocessable := by
    intro c member
    obtain ⟨line, lineMember, classified⟩ := List.mem_filterMap.mp member
    obtain ⟨classification, classified', lineOk⟩ := preprocessable line lineMember
    rw [classified, Option.some.injEq] at classified'
    exact classified' ▸ lineOk
  have emitted : emittedPrefix (splitlines text) =
      emittedPrefix ((splitlines text).takeWhile isClassified) := by
    simp only [emittedPrefix, List.takeWhile_idem]
  rw [finalState_generateOutputHeader upper readable, emitted,
    emittedPrefix_of_preprocessable preprocessable]
  simp only [FileSystem.set_files_self, Option.some_bind, guardText]
  cases (splitlines text).all isClassified
  · exact @readHeader_guarded _ guardBlank guardOpensNone _ fieldsOk [] rfl
  · exact readHeader_guarded guardBlank guardOpensNone fieldsOk (by rfl)

/-- A run on an input whose every line is classified, with fields that stay
clear of C's comments and tokens, leaves a header that the preprocessor reads as
the include guard and one `#define NAME 1` or `#define NAME 0` per feature line,
in input order, with no other directive. -/
theorem generateOutputHeader_reads_back (upper : List Char → List Char) (fs : FileSystem)
    (inputPath outputPath text : List Char) (readable : fs.files inputPath = some text)
    (preprocessable : ∀ line ∈ splitlines text, ∃ classification,
      classify line = some classification ∧ classification.Preprocessable)
    (guardBlank : ∀ c ∈ upper (stem outputPath), isCSpace c = false)
    (guardOpensNone : ¬"/*".toList <:+: upper (stem outputPath)) :
    ((finalState (generateOutputHeader upper inputPath outputPath fs)).files outputPath).bind
        readHeader =
      some (expectedDirectives ('_' :: upper (stem outputPath) ++ "_H".toList)
        ((splitlines text).filterMap classify)) := by
  have complete : (splitlines text).find? (!isClassified ·) = none :=
    List.find?_eq_none.mpr fun line member => by
      obtain ⟨classification, classified, lineOk⟩ := preprocessable line member
      simp [isClassified_of_classify classified lineOk]
  have fieldsOk : ∀ c ∈ (splitlines text).filterMap classify, c.Preprocessable := by
    intro c member
    obtain ⟨line, lineMember, classified⟩ := List.mem_filterMap.mp member
    obtain ⟨classification, classified', lineOk⟩ := preprocessable line lineMember
    rw [classified, Option.some.injEq] at classified'
    exact classified' ▸ lineOk
  rw [generateOutputHeader_run upper readable, complete]
  simp only [finalState, FileSystem.set_files_self, Option.bind_some,
    emittedPrefix_of_preprocessable preprocessable, guardText]
  exact readHeader_generated guardBlank guardOpensNone fieldsOk

theorem generateOutputHeader_reads_back_example :
    let text := "# toggles\noption(ENABLE_X \"Enable X\" ON)".toList
    let fs : FileSystem := ⟨fun path => if path = "features.cmake".toList then some text else none⟩
    let outputPath := "build/ez_target_config.h".toList
    ((finalState (generateOutputHeader (List.map Char.toUpper) "features.cmake".toList
        outputPath fs)).files outputPath).bind readHeader =
      some (expectedDirectives ('_' :: List.map Char.toUpper (stem outputPath) ++ "_H".toList)
        ((splitlines text).filterMap classify)) := by
  intro text fs outputPath
  have lines : splitlines text = ["# toggles".toList, "option(ENABLE_X \"Enable X\" ON)".toList] := by
    decide
  refine generateOutputHeader_reads_back _ fs _ outputPath text rfl ?_ (by decide) (by decide)
  intro line member
  rw [lines] at member
  simp only [List.mem_cons, List.mem_singleton, List.not_mem_nil, or_false] at member
  rcases member with rfl | rfl
  · exact ⟨_, rfl, by decide⟩
  · exact ⟨_, rfl, by decide⟩

set_option maxRecDepth 4000 in
/-- A description holding `*/` closes the comment early: the header generated
from `option(ENABLE_X "*/" ON)` defines `X` as `1 */`.  (`List.map Char.toUpper`
agrees with `str.upper` on the ASCII stem `ez_target_config`.) -/
theorem generateOutputHeader_description_closes_comment :
    let text := "option(ENABLE_X \"*/\" ON)".toList
    let fs : FileSystem := ⟨fun path => if path = "features.cmake".toList then some text else none⟩
    let outputPath := "build/ez_target_config.h".toList
    (∀ line ∈ splitlines text, isClassified line) ∧
      ((finalState (generateOutputHeader (List.map Char.toUpper) "features.cmake".toList
          outputPath fs)).files outputPath).bind readHeader =
        some [["#ifndef".toList, "_EZ_TARGET_CONFIG_H".toList],
          ["#define".toList, "_EZ_TARGET_CONFIG_H".toList],
          ["#define".toList, "X".toList, "1".toList, "*/".toList], ["#endif".toList]] ∧
      ((finalState (generateOutputHeader (List.map Char.toUpper) "features.cmake".toList
          outputPath fs)).files outputPath).bind readHeader ≠
        some (expectedDirectives "_EZ_TARGET_CONFIG_H".toList ((splitlines text).filterMap classify)) := by
  decide

end FeatureHeader

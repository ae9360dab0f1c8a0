import FeatureHeader.Directives
import FeatureHeader.Document
import FeatureHeader.RoundTrip

/-!
# What the generated header defines

The point of the header is what a C file that includes it sees.  A generated
header reads back as `#ifndef G`, `#define G`, one `#define` per feature line
and, when the run completed, `#endif` (`readHeader_finalState`).  Executing
those directives (`FeatureHeader.Directives`) gives these facts about every run
whose feature names are identifiers that C lets a header define.

* Included where its guard is not defined, the header of a complete run defines
  the guard as empty and every feature as the digit of the last line that names
  it, and leaves every other macro as it was.
* A feature is diagnosed as redefined exactly when two of its lines give it
  different statuses.
* Including it a second time changes nothing: the guard does its work, and so it
  does for a second header with the same stem.
* The header an aborted run leaves is always rejected: its `#ifndef` is never
  closed.
-/

namespace FeatureHeader

open Preprocessor

namespace Classification

/-- The macro a feature line defines: its name and status. -/
def featureStatus : Classification → Option (List Char × Bool)
  | feature name enabled _ => some (name, enabled)
  | _ => none

/-- A feature's macro definition: its name and the replacement list `1` or `0`. -/
def featureDefinition (feature : List Char × Bool) : List Char × List (List Char) :=
  (feature.1, [[digit feature.2]])

theorem filterMap_macroDirective (classifications : List Classification) :
    classifications.filterMap macroDirective =
      ((classifications.filterMap featureStatus).map featureDefinition).map defineDirective := by
  induction classifications with
  | nil => rfl
  | cons classification classifications induction =>
      cases classification <;>
        simp [macroDirective, featureStatus, featureDefinition, defineDirective, induction]

theorem forall_mem_map_featureDefinition (holds : List Char → Prop)
    {features : List (List Char × Bool)} (forFeatures : ∀ feature ∈ features, holds feature.1) :
    ∀ definition ∈ features.map featureDefinition, holds definition.1 := by
  intro definition member
  obtain ⟨feature, featureMember, rfl⟩ := List.mem_map.mp member
  exact forFeatures feature featureMember

theorem mem_map_featureDefinition {features : List (List Char × Bool)} {name : List Char}
    {replacement : List (List Char)} :
    (name, replacement) ∈ features.map featureDefinition ↔
      ∃ enabled, (name, enabled) ∈ features ∧ replacement = [[digit enabled]] := by
  simp only [List.mem_map, featureDefinition, Prod.mk.injEq]
  constructor
  · rintro ⟨⟨_, enabled⟩, member, rfl, rfl⟩
    exact ⟨enabled, member, rfl⟩
  · rintro ⟨enabled, member, rfl⟩
    exact ⟨_, member, rfl, rfl⟩

theorem digit_injective {first second : Bool} (same : digit first = digit second) :
    first = second := by
  cases first <;> cases second <;> first | rfl | exact absurd same (by decide)

end Classification

/-- The features an input's lines define, name and status, in input order. -/
def features (text : List Char) : List (List Char × Bool) :=
  ((splitlines text).filterMap classify).filterMap Classification.featureStatus

/-- The directives of a generated header: the guard, the feature macros, and
what closes it. -/
def guardedDirectives (guard : List Char) (definitions : List (List Char × List (List Char)))
    (closing : List (List (List Char))) : List (List (List Char)) :=
  ["#ifndef".toList, guard] :: defineDirective (guard, []) ::
    (definitions.map defineDirective ++ closing)

theorem processDirectives_guardedDirectives (macros : Macros) {guard : List Char}
    (identifier : isIdentifier guard) (unreserved : guard ∉ reservedNames)
    (definitions : List (List Char × List (List Char))) (closing : List (List (List Char))) :
    processDirectives ⟨macros, [], []⟩ (guardedDirectives guard definitions closing) =
      match macros.definition guard with
      | none => processDirectives ⟨macros.define guard [], [true], []⟩
          (definitions.map defineDirective ++ closing)
      | some _ => processDirectives ⟨macros, [false], []⟩ closing := by
  cases defined : macros.definition guard with
  | none =>
      have opened : processDirective ⟨macros, [], []⟩ ["#ifndef".toList, guard] =
          .ok ⟨macros, [true], []⟩ := by
        rw [processDirective_ifndef _ identifier, defined]
        rfl
      have defines : processDirective ⟨macros, [true], []⟩ (defineDirective (guard, [])) =
          .ok ⟨macros.define guard [], [true], []⟩ := by
        rw [@processDirective_define ⟨macros, [true], []⟩ rfl _ identifier unreserved []]
        simp [Translation.define, Macros.redefines_of_undefined defined]
      rw [guardedDirectives, processDirectives_cons_of_ok opened,
        processDirectives_cons_of_ok defines]
  | some replacement =>
      have opened : processDirective ⟨macros, [], []⟩ ["#ifndef".toList, guard] =
          .ok ⟨macros, [false], []⟩ := by
        rw [processDirective_ifndef _ identifier, defined]
        rfl
      rw [guardedDirectives, processDirectives_cons_of_ok opened,
        processDirectives_cons_of_ok (@processDirective_define_of_skipping ⟨macros, [false], []⟩ rfl _),
        processDirectives_append_of_ok
          (@processDirectives_defines_of_skipping ⟨macros, [false], []⟩ rfl _)]

theorem processDirectives_endif (macros : Macros) (group : Bool) (outer : List Bool)
    (redefined : List (List Char)) :
    processDirectives ⟨macros, group :: outer, redefined⟩ [["#endif".toList]] =
      .ok ⟨macros, outer, redefined⟩ := by
  rw [processDirectives_cons_of_ok (processDirective_endif rfl)]
  rfl

section Guarded

variable {header guard : List Char} {definitions : List (List Char × List (List Char))}

/-- The include guard at work: where its macro is defined, a complete header
changes nothing. -/
theorem includeHeader_of_defined
    (read : readHeader header = some (guardedDirectives guard definitions [["#endif".toList]]))
    (identifier : isIdentifier guard) (unreserved : guard ∉ reservedNames) {macros : Macros}
    (defined : macros.definition guard ≠ none) : includeHeader macros header = .ok macros := by
  obtain ⟨replacement, defined⟩ := Option.ne_none_iff_exists'.mp defined
  rw [includeHeader_of_readHeader read, processDirectives_guardedDirectives _ identifier unreserved,
    defined]
  simp only [processDirectives_endif, ok_bind, if_true]

/-- What a complete header does where its guard is not defined: its
definitions run one after another, in a group that `#endif` then closes. -/
theorem translateHeader_of_undefined
    (read : readHeader header = some (guardedDirectives guard definitions [["#endif".toList]]))
    (identifier : isIdentifier guard) (unreserved : guard ∉ reservedNames)
    (names : ∀ definition ∈ definitions, isIdentifier definition.1 ∧ definition.1 ∉ reservedNames)
    {macros : Macros} (undefined : macros.definition guard = none) :
    translateHeader macros header =
      .ok { definitions.foldl
        (fun (state : Translation) definition => state.define definition.1 definition.2)
        ⟨macros.define guard [], [true], []⟩ with groups := [] } := by
  have run := processDirectives_guardedDirectives macros identifier unreserved definitions
    [["#endif".toList]]
  rw [undefined] at run
  rw [translateHeader_of_readHeader read, run, processDirectives_append_of_ok
    (@processDirectives_defines ⟨macros.define guard [], [true], []⟩ rfl _ names),
    processDirectives_cons_of_ok (processDirective_endif (foldl_define_groups _ _))]
  rfl

theorem includeHeader_of_unclosed
    (read : readHeader header = some (guardedDirectives guard definitions [])) (macros : Macros)
    (result : Macros) : includeHeader macros header ≠ .ok result := by
  rw [includeHeader_of_readHeader read]
  cases run : processDirectives ⟨macros, [], []⟩ (guardedDirectives guard definitions []) with
  | error => simp
  | ok state =>
      rw [guardedDirectives] at run
      cases opened : processDirective ⟨macros, [], []⟩ ["#ifndef".toList, guard] with
      | error => rw [processDirectives_cons, opened, error_bind] at run; cases run
      | ok middle =>
          rw [processDirectives_cons_of_ok opened] at run
          obtain ⟨-, group, pushed⟩ := openGroup_ok (by simpa [processDirective] using opened)
          have noEndif : ["#endif".toList] ∉
              defineDirective (guard, []) :: (definitions.map defineDirective ++ []) := by
            simp [defineDirective]
          have stillOpen := processDirectives_groups_length run noEndif
          rw [pushed] at stillOpen
          have notClosed : state.groups ≠ [] := fun closed => by simp [closed] at stillOpen
          simp [notClosed]

theorem includeHeader_ok_closed {closed : Bool}
    (read : readHeader header = some (guardedDirectives guard definitions
      (if closed then [["#endif".toList]] else [])))
    (identifier : isIdentifier guard) (unreserved : guard ∉ reservedNames) {macros result : Macros}
    (included : includeHeader macros header = .ok result) :
    closed = true ∧ result.definition guard ≠ none := by
  cases closed with
  | false => exact absurd included (includeHeader_of_unclosed read macros result)
  | true =>
      rw [if_pos rfl] at read
      refine ⟨rfl, ?_⟩
      cases defined : macros.definition guard with
      | none =>
          have run := processDirectives_guardedDirectives macros identifier unreserved definitions
            [["#endif".toList]]
          rw [defined] at run
          rw [includeHeader_of_readHeader read, run] at included
          cases after : processDirectives ⟨macros.define guard [], [true], []⟩
              (definitions.map defineDirective ++ [["#endif".toList]]) with
          | error => rw [after, error_bind] at included; cases included
          | ok state =>
              rw [after, ok_bind] at included
              split_ifs at included
              cases included
              exact processDirectives_definition_ne_none after (by simp)
      | some replacement =>
          rw [includeHeader_of_defined read identifier unreserved (by simp [defined]),
            Except.ok.injEq] at included
          simp [← included, defined]

end Guarded

section Generated

theorem forall_preprocessable_of_all {lines : List (List Char)}
    (checked : lines.all (fun line => (classify line).any (decide ·.Preprocessable)) = true) :
    ∀ line ∈ lines, ∃ classification, classify line = some classification ∧
      classification.Preprocessable := by
  intro line member
  have lineOk := List.all_eq_true.mp checked line member
  cases classified : classify line with
  | none => simp [classified] at lineOk
  | some classification => exact ⟨classification, rfl, by simpa [classified] using lineOk⟩

variable (upper : List Char → List Char)

theorem stem_plain_of_isIdentifier {outputPath : List Char}
    (identifier : isIdentifier (guardMacro upper outputPath)) :
    (∀ c ∈ upper (stem outputPath), isCSpace c = false) ∧
      ¬"/*".toList <:+: upper (stem outputPath) := by
  obtain ⟨-, blank, opensNone⟩ := isIdentifier_plain identifier
  exact ⟨fun c member => blank c (List.mem_cons_of_mem _ (List.mem_append_left _ member)),
    fun opens => opensNone (opens.trans (List.infix_append ['_'] _ _))⟩

theorem guardMacro_not_mem_reservedNames (outputPath : List Char) :
    guardMacro upper outputPath ∉ reservedNames := by
  have endings : ∀ name ∈ reservedNames, name.getLast? ≠ some 'H' := by decide
  intro reserved
  exact endings _ reserved (by simp [guardMacro, List.getLast?_cons, List.getLast?_append])

theorem readHeader_output {fs : FileSystem} {inputPath text : List Char}
    (readable : fs.files inputPath = some text) (outputPath : List Char)
    (preprocessable : ∀ line ∈ (splitlines text).takeWhile isClassified, ∃ classification,
      classify line = some classification ∧ classification.Preprocessable)
    (guardBlank : ∀ c ∈ upper (stem outputPath), isCSpace c = false)
    (guardOpensNone : ¬"/*".toList <:+: upper (stem outputPath)) :
    ∃ header, (finalState (generateOutputHeader upper inputPath outputPath fs)).files outputPath =
        some header ∧
      readHeader header = some (guardedDirectives (guardMacro upper outputPath)
        (((((splitlines text).takeWhile isClassified).filterMap classify).filterMap
          Classification.featureStatus).map Classification.featureDefinition)
        (if (splitlines text).all isClassified then [["#endif".toList]] else [])) := by
  have read := readHeader_finalState upper readable outputPath preprocessable guardBlank
    guardOpensNone
  rw [Classification.filterMap_macroDirective] at read
  obtain ⟨header, written, read⟩ := Option.bind_eq_some.mp read
  exact ⟨header, written, by simpa [guardedDirectives, defineDirective, guardMacro] using read⟩

theorem readHeader_output_of_complete {fs : FileSystem} {inputPath text : List Char}
    (readable : fs.files inputPath = some text) (outputPath : List Char)
    (preprocessable : ∀ line ∈ splitlines text, ∃ classification,
      classify line = some classification ∧ classification.Preprocessable)
    (guardIdentifier : isIdentifier (guardMacro upper outputPath)) :
    ∃ header, (finalState (generateOutputHeader upper inputPath outputPath fs)).files outputPath =
        some header ∧
      readHeader header = some (guardedDirectives (guardMacro upper outputPath)
        ((features text).map Classification.featureDefinition) [["#endif".toList]]) := by
  have complete : ∀ line ∈ splitlines text, isClassified line := fun line member => by
    obtain ⟨classification, classified, lineOk⟩ := preprocessable line member
    exact isClassified_of_classify classified lineOk
  obtain ⟨guardBlank, guardOpensNone⟩ := stem_plain_of_isIdentifier upper guardIdentifier
  have read := readHeader_output upper readable outputPath
    (fun line member => preprocessable line ((List.takeWhile_sublist _).subset member))
    guardBlank guardOpensNone
  rwa [List.takeWhile_eq_self_iff.mpr complete, List.all_eq_true.mpr complete, if_pos rfl] at read

theorem translateHeader_output {fs : FileSystem} {inputPath text : List Char}
    (readable : fs.files inputPath = some text) (outputPath : List Char)
    (preprocessable : ∀ line ∈ splitlines text, ∃ classification,
      classify line = some classification ∧ classification.Preprocessable)
    (guardIdentifier : isIdentifier (guardMacro upper outputPath))
    (names : ∀ feature ∈ features text, isIdentifier feature.1 ∧ feature.1 ∉ reservedNames)
    {macros : Macros} (guardFresh : macros.definition (guardMacro upper outputPath) = none) :
    ∃ header, (finalState (generateOutputHeader upper inputPath outputPath fs)).files outputPath =
        some header ∧
      translateHeader macros header =
        .ok { ((features text).map Classification.featureDefinition).foldl
          (fun (state : Translation) definition => state.define definition.1 definition.2)
          ⟨macros.define (guardMacro upper outputPath) [], [true], []⟩ with groups := [] } := by
  obtain ⟨header, written, read⟩ :=
    readHeader_output_of_complete upper readable outputPath preprocessable guardIdentifier
  exact ⟨header, written, translateHeader_of_undefined read guardIdentifier
    (guardMacro_not_mem_reservedNames upper outputPath)
    (Classification.forall_mem_map_featureDefinition
      (fun name => isIdentifier name = true ∧ name ∉ reservedNames) names) guardFresh⟩

/-- Included where its guard is not defined, the header of a run on an input
whose lines are all classified defines the guard as empty, each feature as the
digit of the last line that names it, and nothing else, when the feature names
are identifiers that may be defined and none is the guard's. -/
theorem includeHeader_generateOutputHeader {fs : FileSystem} {inputPath text : List Char}
    (readable : fs.files inputPath = some text) (outputPath : List Char)
    (preprocessable : ∀ line ∈ splitlines text, ∃ classification,
      classify line = some classification ∧ classification.Preprocessable)
    (guardIdentifier : isIdentifier (guardMacro upper outputPath))
    (names : ∀ feature ∈ features text, isIdentifier feature.1 ∧ feature.1 ∉ reservedNames ∧
      feature.1 ≠ guardMacro upper outputPath)
    {macros : Macros} (guardFresh : macros.definition (guardMacro upper outputPath) = none) :
    ∃ header result,
      (finalState (generateOutputHeader upper inputPath outputPath fs)).files outputPath =
        some header ∧
      includeHeader macros header = .ok result ∧
      result.definition (guardMacro upper outputPath) = some [] ∧
      (∀ front name enabled back, features text = front ++ (name, enabled) :: back →
        (∀ later ∈ back, later.1 ≠ name) →
          result.definition name = some [[Classification.digit enabled]]) ∧
      ∀ name, name ≠ guardMacro upper outputPath → (∀ feature ∈ features text, feature.1 ≠ name) →
        result.definition name = macros.definition name := by
  obtain ⟨header, written, translated⟩ := translateHeader_output upper readable outputPath
    preprocessable guardIdentifier
    (fun feature member => ⟨(names feature member).1, (names feature member).2.1⟩) guardFresh
  refine ⟨header, _, written, includeHeader_of_translateHeader translated, ?_, ?_, ?_⟩ <;>
    simp only [foldl_define_macros]
  · rw [definition_foldl_define_of_not_mem _ (Classification.forall_mem_map_featureDefinition
      (· ≠ guardMacro upper outputPath) fun feature member => (names feature member).2.2),
      Macros.define_definition_self]
  · intro front name enabled back split absent
    rw [split, List.map_append, List.map_cons]
    exact definition_foldl_define_last _ _ _
      (Classification.forall_mem_map_featureDefinition (· ≠ name) absent)
  · intro name notGuard absent
    rw [definition_foldl_define_of_not_mem _
      (Classification.forall_mem_map_featureDefinition (· ≠ name) absent),
      Macros.define_definition_of_ne _ _ notGuard]

theorem includeHeader_generateOutputHeader_features :
    let text := "# toggles\noption(ENABLE_X \"d\" ON)\noption(ENABLE_Y \"e\" OFF)".toList
    let fs : FileSystem := ⟨fun path => if path = "features.cmake".toList then some text else none⟩
    let outputPath := "build/ez_target_config.h".toList
    let macros : Macros := ⟨fun _ => none⟩
    ∃ header result, (finalState (generateOutputHeader (List.map Char.toUpper)
        "features.cmake".toList outputPath fs)).files outputPath = some header ∧
      includeHeader macros header = .ok result ∧
      result.definition (guardMacro (List.map Char.toUpper) outputPath) = some [] ∧
      (∀ front name enabled back, features text = front ++ (name, enabled) :: back →
        (∀ later ∈ back, later.1 ≠ name) →
          result.definition name = some [[Classification.digit enabled]]) ∧
      ∀ name, name ≠ guardMacro (List.map Char.toUpper) outputPath →
        (∀ feature ∈ features text, feature.1 ≠ name) →
          result.definition name = macros.definition name := by
  intro text fs outputPath macros
  exact includeHeader_generateOutputHeader _ rfl outputPath
    (forall_preprocessable_of_all (by decide)) (by decide) (by decide) rfl

/-- Under the same conditions, the names diagnosed as redefined, among those not
defined before, are exactly the features two of whose lines give different
statuses. -/
theorem translateHeader_generateOutputHeader_redefined {fs : FileSystem}
    {inputPath text : List Char} (readable : fs.files inputPath = some text)
    (outputPath : List Char)
    (preprocessable : ∀ line ∈ splitlines text, ∃ classification,
      classify line = some classification ∧ classification.Preprocessable)
    (guardIdentifier : isIdentifier (guardMacro upper outputPath))
    (names : ∀ feature ∈ features text, isIdentifier feature.1 ∧ feature.1 ∉ reservedNames ∧
      feature.1 ≠ guardMacro upper outputPath)
    {macros : Macros} (guardFresh : macros.definition (guardMacro upper outputPath) = none) :
    ∃ header state,
      (finalState (generateOutputHeader upper inputPath outputPath fs)).files outputPath =
        some header ∧
      translateHeader macros header = .ok state ∧
      ∀ name, macros.definition name = none →
        (name ∈ state.redefined ↔ ∃ first ∈ features text, ∃ second ∈ features text,
          first.1 = name ∧ second.1 = name ∧ first.2 ≠ second.2) := by
  obtain ⟨header, written, translated⟩ := translateHeader_output upper readable outputPath
    preprocessable guardIdentifier
    (fun feature member => ⟨(names feature member).1, (names feature member).2.1⟩) guardFresh
  refine ⟨header, _, written, translated, fun name undefined => ?_⟩
  simp only [mem_redefined_foldl_define, List.not_mem_nil, false_or]
  by_cases isGuard : name = guardMacro upper outputPath
  · subst isGuard
    have unnamed : valuesOf (guardMacro upper outputPath)
        ((features text).map Classification.featureDefinition) = [] :=
      List.eq_nil_iff_forall_not_mem.mpr fun replacement member => by
        obtain ⟨enabled, feature, -⟩ :=
          Classification.mem_map_featureDefinition.mp (mem_valuesOf.mp member)
        exact (names _ feature).2.2 rfl
    simp only [Macros.define_definition_self, unnamed, Option.toList_some, List.singleton_append,
      List.chain'_singleton, not_true_eq_false, false_iff, not_exists, not_and]
    intro first member _ _ same
    exact absurd same (names first member).2.2
  · rw [Macros.define_definition_of_ne _ _ isGuard, undefined, Option.toList_none,
      List.nil_append, chain'_eq_iff_forall]
    simp only [mem_valuesOf, Classification.mem_map_featureDefinition]
    constructor
    · intro differ
      push_neg at differ
      obtain ⟨_, ⟨first, firstMember, rfl⟩, _, ⟨second, secondMember, rfl⟩, different⟩ := differ
      exact ⟨_, firstMember, _, secondMember, rfl, rfl, fun same => different (by cases same; rfl)⟩
    · rintro ⟨⟨_, first⟩, firstMember, ⟨_, second⟩, secondMember, rfl, rfl, different⟩ agree
      exact different (Classification.digit_injective (by
        simpa using agree _ ⟨first, firstMember, rfl⟩ _ ⟨second, secondMember, rfl⟩))

theorem translateHeader_generateOutputHeader_switched :
    let text := "option(ENABLE_X \"d\" ON)\noption(ENABLE_X \"d\" OFF)".toList
    let fs : FileSystem := ⟨fun path => if path = "features.cmake".toList then some text else none⟩
    let outputPath := "build/ez_target_config.h".toList
    let macros : Macros := ⟨fun _ => none⟩
    ∃ header state, (finalState (generateOutputHeader (List.map Char.toUpper)
        "features.cmake".toList outputPath fs)).files outputPath = some header ∧
      translateHeader macros header = .ok state ∧
      ∀ name, macros.definition name = none →
        (name ∈ state.redefined ↔ ∃ first ∈ features text, ∃ second ∈ features text,
          first.1 = name ∧ second.1 = name ∧ first.2 ≠ second.2) := by
  intro text fs outputPath macros
  exact translateHeader_generateOutputHeader_redefined _ rfl outputPath
    (forall_preprocessable_of_all (by decide)) (by decide) (by decide) rfl

/-- The header an aborted run leaves is rejected whatever is defined where it
is included: its `#ifndef` is never closed. -/
theorem includeHeader_generateOutputHeader_of_aborted {fs : FileSystem}
    {inputPath text : List Char} (readable : fs.files inputPath = some text)
    (outputPath : List Char)
    (preprocessable : ∀ line ∈ (splitlines text).takeWhile isClassified, ∃ classification,
      classify line = some classification ∧ classification.Preprocessable)
    (guardBlank : ∀ c ∈ upper (stem outputPath), isCSpace c = false)
    (guardOpensNone : ¬"/*".toList <:+: upper (stem outputPath))
    (aborted : (splitlines text).all isClassified = false) :
    ∃ header, (finalState (generateOutputHeader upper inputPath outputPath fs)).files outputPath =
        some header ∧
      ∀ macros result, includeHeader macros header ≠ .ok result := by
  obtain ⟨header, written, read⟩ :=
    readHeader_output upper readable outputPath preprocessable guardBlank guardOpensNone
  rw [aborted] at read
  exact ⟨header, written, includeHeader_of_unclosed read⟩

theorem includeHeader_generateOutputHeader_stopped :
    let text := "option(ENABLE_X \"d\" ON)\nadd_subdirectory(src)".toList
    let fs : FileSystem := ⟨fun path => if path = "features.cmake".toList then some text else none⟩
    let outputPath := "build/ez_target_config.h".toList
    ∃ header, (finalState (generateOutputHeader (List.map Char.toUpper) "features.cmake".toList
        outputPath fs)).files outputPath = some header ∧
      ∀ macros result, includeHeader macros header ≠ .ok result := by
  intro text fs outputPath
  exact includeHeader_generateOutputHeader_of_aborted _ rfl outputPath
    (forall_preprocessable_of_all (by decide)) (by decide) (by decide) (by decide)

/-- Including the header of a run a second time changes nothing, whatever was
defined before the first time: where the first inclusion succeeds it defines the
guard, and the second is skipped. -/
theorem includeHeader_generateOutputHeader_twice {fs : FileSystem}
    {inputPath text : List Char} (readable : fs.files inputPath = some text)
    (outputPath : List Char)
    (preprocessable : ∀ line ∈ (splitlines text).takeWhile isClassified, ∃ classification,
      classify line = some classification ∧ classification.Preprocessable)
    (guardIdentifier : isIdentifier (guardMacro upper outputPath)) :
    ∃ header, (finalState (generateOutputHeader upper inputPath outputPath fs)).files outputPath =
        some header ∧
      ∀ macros, (includeHeader macros header).bind (includeHeader · header) =
        includeHeader macros header := by
  obtain ⟨guardBlank, guardOpensNone⟩ := stem_plain_of_isIdentifier upper guardIdentifier
  obtain ⟨header, written, read⟩ :=
    readHeader_output upper readable outputPath preprocessable guardBlank guardOpensNone
  have unreserved := guardMacro_not_mem_reservedNames upper outputPath
  refine ⟨header, written, fun macros => ?_⟩
  cases included : includeHeader macros header with
  | error => rfl
  | ok result =>
      obtain ⟨closed, defined⟩ := includeHeader_ok_closed read guardIdentifier unreserved included
      rw [closed, if_pos rfl] at read
      rw [ok_bind, includeHeader_of_defined read guardIdentifier unreserved defined]

theorem includeHeader_generateOutputHeader_twice_features :
    let fs : FileSystem := ⟨fun path =>
      if path = "complete.cmake".toList then some "option(ENABLE_X \"d\" ON)".toList
      else if path = "stopped.cmake".toList then
        some "option(ENABLE_X \"d\" ON)\nadd_subdirectory(src)".toList
      else none⟩
    let outputPath := "build/ez_target_config.h".toList
    (∃ header, (finalState (generateOutputHeader (List.map Char.toUpper) "complete.cmake".toList
        outputPath fs)).files outputPath = some header ∧
      ∀ macros, (includeHeader macros header).bind (includeHeader · header) =
        includeHeader macros header) ∧
    ∃ header, (finalState (generateOutputHeader (List.map Char.toUpper) "stopped.cmake".toList
        outputPath fs)).files outputPath = some header ∧
      ∀ macros, (includeHeader macros header).bind (includeHeader · header) =
        includeHeader macros header := by
  intro fs outputPath
  exact ⟨includeHeader_generateOutputHeader_twice _ rfl outputPath
      (forall_preprocessable_of_all (by decide)) (by decide),
    includeHeader_generateOutputHeader_twice _ rfl outputPath
      (forall_preprocessable_of_all (by decide)) (by decide)⟩

/-- Two runs whose output paths share their stem, as every output of `main`
does, write headers with one include guard: once the first is included
without error, the second, if complete, changes nothing, whatever its input. -/
theorem includeHeader_generateOutputHeader_of_same_stem {fs otherFs : FileSystem}
    {inputPath otherInput text otherText : List Char} (readable : fs.files inputPath = some text)
    (otherReadable : otherFs.files otherInput = some otherText) (outputPath otherOutput : List Char)
    (preprocessable : ∀ line ∈ (splitlines text).takeWhile isClassified, ∃ classification,
      classify line = some classification ∧ classification.Preprocessable)
    (otherPreprocessable : ∀ line ∈ splitlines otherText, ∃ classification,
      classify line = some classification ∧ classification.Preprocessable)
    (guardIdentifier : isIdentifier (guardMacro upper outputPath))
    (sameStem : stem otherOutput = stem outputPath) :
    ∃ header otherHeader,
      (finalState (generateOutputHeader upper inputPath outputPath fs)).files outputPath =
        some header ∧
      (finalState (generateOutputHeader upper otherInput otherOutput otherFs)).files otherOutput =
        some otherHeader ∧
      ∀ macros result, includeHeader macros header = .ok result →
        includeHeader result otherHeader = .ok result := by
  obtain ⟨guardBlank, guardOpensNone⟩ := stem_plain_of_isIdentifier upper guardIdentifier
  obtain ⟨header, written, read⟩ :=
    readHeader_output upper readable outputPath preprocessable guardBlank guardOpensNone
  have sameGuard : guardMacro upper otherOutput = guardMacro upper outputPath := by
    rw [guardMacro, guardMacro, sameStem]
  obtain ⟨otherHeader, otherWritten, otherRead⟩ := readHeader_output_of_complete upper
    otherReadable otherOutput otherPreprocessable (by rwa [sameGuard])
  rw [sameGuard] at otherRead
  have unreserved := guardMacro_not_mem_reservedNames upper outputPath
  exact ⟨header, otherHeader, written, otherWritten, fun macros result included =>
    includeHeader_of_defined otherRead guardIdentifier unreserved
      (includeHeader_ok_closed read guardIdentifier unreserved included).2⟩

theorem includeHeader_generateOutputHeader_two_configs :
    let text := "option(ENABLE_X \"d\" ON)".toList
    let otherText := "option(ENABLE_Y \"e\" ON)".toList
    let fs : FileSystem := ⟨fun path => if path = "features.cmake".toList then some text else none⟩
    let otherFs : FileSystem :=
      ⟨fun path => if path = "features.cmake".toList then some otherText else none⟩
    let outputPath := "build/a/ez_target_config.h".toList
    let otherOutput := "build/b/ez_target_config.h".toList
    ∃ header otherHeader,
      (finalState (generateOutputHeader (List.map Char.toUpper) "features.cmake".toList
        outputPath fs)).files outputPath = some header ∧
      (finalState (generateOutputHeader (List.map Char.toUpper) "features.cmake".toList
        otherOutput otherFs)).files otherOutput = some otherHeader ∧
      ∀ macros result, includeHeader macros header = .ok result →
        includeHeader result otherHeader = .ok result := by
  intro text otherText fs otherFs outputPath otherOutput
  exact includeHeader_generateOutputHeader_of_same_stem _ rfl rfl outputPath otherOutput
    (forall_preprocessable_of_all (by decide)) (forall_preprocessable_of_all (by decide))
    (by decide) (by decide)

end Generated

end FeatureHeader

import FeatureHeader.PyString

/-!
# The line classifier

`extract_feature_by_line` tells an empty line, a `#` comment and an
`option(...)` directive apart, and renders the last two as C text.  A directive
is found by two splits: at parentheses, where the pieces must be `option`, the
inner text and anything, and at double quotes, where the inner text must fall
into the name part, the description and the status.  A line that is neither
empty nor a comment and fails the first split falls off the end of the
function, which then returns `None`.

`Classification` is the spec's tagged result, carrying the fields the classifier
reads off a line.  The code is `classify` followed by `Classification.render`
(`extractFeatureByLine_eq_map_render`), so every later statement about what a
line means can be made about `classify`.
-/

namespace FeatureHeader

/-- `EXTRACT_RESULT`. -/
inductive ExtractResult
  | comment
  | feature
  | emptyLine
  | error
  deriving DecidableEq, Repr

/-- The separators of `re.split("[()]", ...)`. -/
def isParen (c : Char) : Bool := c == '(' || c == ')'

/-- `"\n/* {} */\n".format(...)`. -/
def commentText (text : List Char) : List Char :=
  "\n/* ".toList ++ text ++ " */\n".toList

/-- `"#define {} 1 /* {} */\n".format(...)`, and its twin with `0`. -/
def defineText (moduleName : List Char) (digit : Char) (description : List Char) :
    List Char :=
  "#define ".toList ++ moduleName ++ ' ' :: digit :: " /* ".toList ++ description ++
    " */\n".toList

/-- `tokens = re.split("[()]", feature_str)` and the test
`len(tokens) == 3 and tokens[0] == "option"`: `tokens[1]` when it passes. -/
def optionTokens (featureStr : List Char) : Option (List Char) :=
  match featureStr.splitOnP isParen with
  | [keyword, inner, _] => if keyword = "option".toList then some inner else none
  | _ => none

/-- `tokens = tokens[1].split("\"")` and the test `len(tokens) == 3`. -/
def quoteTokens (inner : List Char) : Option (List Char × List Char × List Char) :=
  match inner.splitOn '"' with
  | [namePart, description, statusPart] => some (namePart, description, statusPart)
  | _ => none

/-- `tokens[0].rstrip()[7:]`: the seven characters of `ENABLE_` cut off,
whatever they are. -/
def moduleNameOf (namePart : List Char) : List Char := (rstrip namePart).drop 7

/-- The directive branch of `extract_feature_by_line` once the parenthesis
test has passed. -/
def extractOption (inner : List Char) : ExtractResult × Option (List Char) :=
  match quoteTokens inner with
  | some (namePart, description, statusPart) =>
      let moduleName := moduleNameOf namePart
      let activateStatus := lstrip statusPart
      if activateStatus = "ON".toList then
        (.feature, some (defineText moduleName '1' description))
      else if activateStatus = "OFF".toList then
        (.feature, some (defineText moduleName '0' description))
      else (.error, none)
  | none => (.error, none)

/-- `extract_feature_by_line`; `none` is the `None` it returns by falling off
its end. -/
def extractFeatureByLine (featureStr : List Char) :
    Option (ExtractResult × Option (List Char)) :=
  if featureStr = [] then some (.emptyLine, none)
  else if featureStr.head? = some '#' then
    some (.comment, some (commentText (lstrip featureStr.tail)))
  else (optionTokens featureStr).map extractOption

/-- `add_subdirectory(src)` splits at its parentheses into three pieces whose
first is not `option`: the function falls off its end. -/
theorem extractFeatureByLine_add_subdirectory :
    extractFeatureByLine "add_subdirectory(src)".toList = none := by
  decide

/-- The spec's classification of one line, with the fields read off it. -/
inductive Classification
  | emptyLine
  | comment (text : List Char)
  | feature (name : List Char) (enabled : Bool) (description : List Char)
  | malformed
  deriving DecidableEq, Repr

/-- The fields of a directive once the parenthesis test has passed. -/
def classifyOption (inner : List Char) : Classification :=
  match quoteTokens inner with
  | some (namePart, description, statusPart) =>
      if lstrip statusPart = "ON".toList then .feature (moduleNameOf namePart) true description
      else if lstrip statusPart = "OFF".toList then
        .feature (moduleNameOf namePart) false description
      else .malformed
  | none => .malformed

/-- The classification of a line; `none` where the code returns `None`. -/
def classify (line : List Char) : Option Classification :=
  if line = [] then some .emptyLine
  else if line.head? = some '#' then some (.comment (lstrip line.tail))
  else (optionTokens line).map classifyOption

namespace Classification

/-- The digit a directive's status becomes. -/
def digit (enabled : Bool) : Char := if enabled then '1' else '0'

/-- The pair `extract_feature_by_line` returns for a classification. -/
def render : Classification → ExtractResult × Option (List Char)
  | emptyLine => (.emptyLine, none)
  | comment text => (.comment, some (commentText text))
  | feature name enabled description =>
      (.feature, some (defineText name (digit enabled) description))
  | malformed => (.error, none)

theorem render_eq_feature_iff {classification : Classification} {text : List Char} :
    classification.render = (.feature, some text) ↔
      ∃ name enabled description, classification = feature name enabled description ∧
        text = defineText name (digit enabled) description := by
  cases classification with
  | feature name enabled description =>
      simp only [render, Prod.mk.injEq, Option.some.injEq, true_and, feature.injEq]
      constructor
      · rintro rfl
        exact ⟨name, enabled, description, ⟨rfl, rfl, rfl⟩, rfl⟩
      · rintro ⟨_, _, _, ⟨rfl, rfl, rfl⟩, rfl⟩
        rfl
  | _ => simp [render]

end Classification

theorem extractOption_eq_render (inner : List Char) :
    extractOption inner = (classifyOption inner).render := by
  unfold extractOption classifyOption
  rcases quoteTokens inner with _ | ⟨namePart, description, statusPart⟩
  · rfl
  · dsimp only
    split_ifs <;> rfl

/-- The code renders what `classify` reads off the line. -/
theorem extractFeatureByLine_eq_map_render (line : List Char) :
    extractFeatureByLine line = (classify line).map Classification.render := by
  have optionBranch : extractOption = Classification.render ∘ classifyOption :=
    funext extractOption_eq_render
  unfold extractFeatureByLine classify
  split_ifs <;> simp [Classification.render, optionBranch, Option.map_map]

example : extractFeatureByLine "option(ENABLE_EZ_LOGGING \"Enable logging\" OFF)".toList =
    some (.feature, some "#define EZ_LOGGING 0 /* Enable logging */\n".toList) := by
  decide

end FeatureHeader

import FeatureHeader.Classifier

/-!
# The language of accepted directives

The two splits of `extract_feature_by_line` decide exactly which lines become a
`#define`.  Read backwards they give a grammar: `option`, a parenthesis of
either kind, a name part and a description free of quotes and parentheses, the
description between quotes, whitespace, `ON` or `OFF`, a second parenthesis of
either kind, and any text without parentheses.

The grammar is looser than the documented `option(NAME "DESC" ON)` in three
places, each by design of the two splits: the parentheses may come in either
order, text may follow the closing one, and the name part is taken as it is,
with its first seven characters cut whatever they are.  It is also tighter in
one: the status is only stripped on the left, so whitespace before the closing
parenthesis is rejected.
-/

namespace FeatureHeader

/-- The literal a directive's status is written as. -/
def statusLiteral : Bool → List Char
  | true => "ON".toList
  | false => "OFF".toList

/-- A line of the accepted grammar, from its parts. -/
def directiveLine (opening : Char) (namePart description spaces : List Char)
    (enabled : Bool) (closing : Char) (rest : List Char) : List Char :=
  "option".toList ++ opening :: namePart ++ '"' :: description ++ '"' :: spaces ++
    statusLiteral enabled ++ closing :: rest

/-- What the parts of a `directiveLine` may hold. -/
structure DirectiveShape (opening : Char) (namePart description spaces : List Char)
    (closing : Char) (rest : List Char) : Prop where
  opening_paren : isParen opening
  closing_paren : isParen closing
  namePart_plain : ∀ c ∈ namePart, c ≠ '"' ∧ isParen c = false
  description_plain : ∀ c ∈ description, c ≠ '"' ∧ isParen c = false
  spaces_blank : ∀ c ∈ spaces, isspace c
  rest_free : ∀ c ∈ rest, isParen c = false

theorem isParen_eq_false_of_isspace {c : Char} (blank : isspace c) : isParen c = false := by
  cases paren : isParen c
  · rfl
  · have : c = '(' ∨ c = ')' := by simpa [isParen] using paren
    rcases this with rfl | rfl <;> exact absurd blank (by decide)

theorem ne_quote_of_isspace {c : Char} (blank : isspace c) : c ≠ '"' := by
  rintro rfl
  exact absurd blank (by decide)

theorem optionTokens_eq_some_iff {line inner : List Char} :
    optionTokens line = some inner ↔
      (∀ c ∈ inner, isParen c = false) ∧
        ∃ opening closing rest, isParen opening ∧ isParen closing ∧
          (∀ c ∈ rest, isParen c = false) ∧
            line = "option".toList ++ opening :: inner ++ closing :: rest := by
  unfold optionTokens
  constructor
  · intro tokens
    split at tokens
    · rename_i keyword middle last split
      split_ifs at tokens with isOption
      cases tokens
      obtain ⟨-, innerFree, lastFree, opening, closing, openingParen, closingParen, rfl⟩ :=
        splitOnP_eq_three_iff.mp split
      subst isOption
      exact ⟨innerFree, opening, closing, last, openingParen, closingParen, lastFree, rfl⟩
    · cases tokens
  · rintro ⟨innerFree, opening, closing, rest, openingParen, closingParen, restFree, rfl⟩
    rw [splitOnP_eq_three_iff.mpr
      ⟨by decide, innerFree, restFree, opening, closing, openingParen, closingParen, rfl⟩]
    simp

theorem quoteTokens_eq_some_iff {inner namePart description statusPart : List Char} :
    quoteTokens inner = some (namePart, description, statusPart) ↔
      (∀ c ∈ namePart, c ≠ '"') ∧ (∀ c ∈ description, c ≠ '"') ∧
        (∀ c ∈ statusPart, c ≠ '"') ∧ inner = namePart ++ '"' :: description ++ '"' :: statusPart := by
  unfold quoteTokens List.splitOn
  constructor
  · intro tokens
    split at tokens
    · rename_i split
      cases tokens
      obtain ⟨nameFree, descriptionFree, statusFree, _, _, first, second, rfl⟩ :=
        splitOnP_eq_three_iff.mp split
      simp only [beq_iff_eq] at first second
      subst first second
      exact ⟨by simpa using nameFree, by simpa using descriptionFree,
        by simpa using statusFree, rfl⟩
    · cases tokens
  · rintro ⟨nameFree, descriptionFree, statusFree, rfl⟩
    rw [splitOnP_eq_three_iff.mpr ⟨by simpa using nameFree, by simpa using descriptionFree,
      by simpa using statusFree, '"', '"', by simp, by simp, rfl⟩]

theorem statusLiteral_plain (enabled : Bool) :
    ∀ c ∈ statusLiteral enabled, c ≠ '"' ∧ isParen c = false := by
  cases enabled <;> decide

theorem lstrip_spaces_statusLiteral {spaces : List Char} (blank : ∀ c ∈ spaces, isspace c)
    (enabled : Bool) : lstrip (spaces ++ statusLiteral enabled) = statusLiteral enabled := by
  rw [lstrip_append_of_isspace blank]
  cases enabled <;> rfl

/-- `classify` reads a feature off a line exactly when the line is in the
grammar, and the name it reads is the name part cut by `moduleNameOf`. -/
theorem classify_eq_feature_iff {line name description : List Char} {enabled : Bool} :
    classify line = some (.feature name enabled description) ↔
      ∃ opening namePart spaces closing rest,
        DirectiveShape opening namePart description spaces closing rest ∧
          line = directiveLine opening namePart description spaces enabled closing rest ∧
            name = moduleNameOf namePart := by
  constructor
  · intro classified
    unfold classify at classified
    split_ifs at classified
    · cases classified
    · cases classified
    obtain ⟨inner, tokens, option⟩ := Option.map_eq_some'.mp classified
    obtain ⟨innerFree, opening, closing, rest, openingParen, closingParen, restFree, rfl⟩ :=
      optionTokens_eq_some_iff.mp tokens
    unfold classifyOption at option
    split at option
    · rename_i namePart description' statusPart quotes
      obtain ⟨nameFree, descriptionFree, -, rfl⟩ := quoteTokens_eq_some_iff.mp quotes
      obtain ⟨spaces, blank, status⟩ := eq_spaces_append_lstrip statusPart
      have shape : DirectiveShape opening namePart description' spaces closing rest :=
        ⟨openingParen, closingParen,
          fun c member => ⟨nameFree c member, innerFree c (by simp [member])⟩,
          fun c member => ⟨descriptionFree c member, innerFree c (by simp [member])⟩,
          blank, restFree⟩
      split_ifs at option with isOn isOff <;> cases option
      · refine ⟨opening, namePart, spaces, closing, rest, shape, ?_, rfl⟩
        rw [status, isOn]
        simp [directiveLine, statusLiteral]
      · refine ⟨opening, namePart, spaces, closing, rest, shape, ?_, rfl⟩
        rw [status, isOff]
        simp [directiveLine, statusLiteral]
    · cases option
  · rintro ⟨opening, namePart, spaces, closing, rest, shape, rfl, rfl⟩
    have quotes : quoteTokens (namePart ++ '"' :: description ++ '"' ::
        (spaces ++ statusLiteral enabled)) =
          some (namePart, description, spaces ++ statusLiteral enabled) := by
      refine quoteTokens_eq_some_iff.mpr ⟨fun c member => (shape.namePart_plain c member).1,
        fun c member => (shape.description_plain c member).1, ?_, rfl⟩
      intro c member
      rcases List.mem_append.mp member with space | literal
      · exact ne_quote_of_isspace (shape.spaces_blank c space)
      · exact (statusLiteral_plain enabled c literal).1
    have tokens : optionTokens (directiveLine opening namePart description spaces enabled
        closing rest) = some (namePart ++ '"' :: description ++ '"' ::
          (spaces ++ statusLiteral enabled)) := by
      refine optionTokens_eq_some_iff.mpr ⟨?_, opening, closing, rest, shape.opening_paren,
        shape.closing_paren, shape.rest_free, by simp [directiveLine]⟩
      intro c member
      simp only [List.mem_append, List.mem_cons, or_assoc] at member
      rcases member with name | rfl | description | rfl | space | literal
      · exact (shape.namePart_plain c name).2
      · rfl
      · exact (shape.description_plain c description).2
      · rfl
      · exact isParen_eq_false_of_isspace (shape.spaces_blank c space)
      · exact (statusLiteral_plain enabled c literal).2
    have notEmpty : directiveLine opening namePart description spaces enabled closing rest ≠ [] :=
      by simp [directiveLine]
    have notComment :
        (directiveLine opening namePart description spaces enabled closing rest).head? ≠
          some '#' := by
      simp [directiveLine]
    simp only [classify, notEmpty, notComment, tokens, classifyOption, quotes,
      lstrip_spaces_statusLiteral shape.spaces_blank, if_false, Option.map_some']
    cases enabled <;> rfl

/-- The lines `extract_feature_by_line` turns into a `#define`, and the text it
emits for them. -/
theorem extractFeatureByLine_eq_feature_iff {line text : List Char} :
    extractFeatureByLine line = some (.feature, some text) ↔
      ∃ opening namePart description spaces enabled closing rest,
        DirectiveShape opening namePart description spaces closing rest ∧
          line = directiveLine opening namePart description spaces enabled closing rest ∧
            text = defineText (moduleNameOf namePart) (Classification.digit enabled)
              description := by
  rw [extractFeatureByLine_eq_map_render, Option.map_eq_some']
  constructor
  · rintro ⟨classification, classified, rendered⟩
    obtain ⟨name, enabled, description, rfl, rfl⟩ :=
      Classification.render_eq_feature_iff.mp rendered
    obtain ⟨opening, namePart, spaces, closing, rest, shape, rfl, rfl⟩ :=
      classify_eq_feature_iff.mp classified
    exact ⟨opening, namePart, description, spaces, enabled, closing, rest, shape, rfl, rfl⟩
  · rintro ⟨opening, namePart, description, spaces, enabled, closing, rest, shape, rfl, rfl⟩
    exact ⟨_, classify_eq_feature_iff.mpr ⟨opening, namePart, spaces, closing, rest, shape,
      rfl, rfl⟩, Classification.render_eq_feature_iff.mpr ⟨_, _, _, rfl, rfl⟩⟩

/-- The lines `extract_feature_by_line` returns `None` for: those that are
neither empty nor a comment and fail the first split, for want of the shape
`option`, a parenthesis, text without one, a parenthesis, text without one. -/
theorem extractFeatureByLine_eq_none_iff {line : List Char} :
    extractFeatureByLine line = none ↔
      line ≠ [] ∧ line.head? ≠ some '#' ∧
        ¬∃ inner, (∀ c ∈ inner, isParen c = false) ∧
          ∃ opening closing rest, isParen opening ∧ isParen closing ∧
            (∀ c ∈ rest, isParen c = false) ∧
              line = "option".toList ++ opening :: inner ++ closing :: rest := by
  have shapeless : optionTokens line = none ↔ ¬∃ inner, optionTokens line = some inner := by
    simp only [Option.eq_none_iff_forall_not_mem, Option.mem_def, not_exists]
  simp only [optionTokens_eq_some_iff] at shapeless
  unfold extractFeatureByLine
  split_ifs with empty comment
  · exact iff_of_false not_false fun ⟨nonempty, _⟩ => nonempty empty
  · exact iff_of_false not_false fun ⟨_, notComment, _⟩ => notComment comment
  · rw [Option.map_eq_none', shapeless]
    exact ⟨fun shape => ⟨empty, comment, shape⟩, fun ⟨_, _, shape⟩ => shape⟩

/-- `option(ENABLE_X "d" ON )` is `option(` W `ENABLE_` N W `"` D `"` W V W `)` with
N = `X`, D = `d`, V = `ON` and a blank before the parenthesis, and is rejected. -/
theorem extractFeatureByLine_rejects_blank_before_paren :
    extractFeatureByLine "option(ENABLE_X \"d\" ON )".toList = some (.error, none) := by
  decide

end FeatureHeader

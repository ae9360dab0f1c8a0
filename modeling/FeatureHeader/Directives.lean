import FeatureHeader.Preprocessor

/-!
# Executing the directives of a header

Once its comments are gone and its lines are read (`FeatureHeader.Preprocessor`),
a header that a translation unit includes has its directives executed in order.
A generated header holds three kinds.  `#ifndef NAME` opens a conditional group
whose lines are processed only when the enclosing lines are and `NAME` is not
defined; `#define NAME ...` defines an object-like macro in a processed group;
`#endif` closes the innermost group.  A header must close every group it opens.

C forbids `#define` of `defined` and of the macro names it predefines, and the
model rejects those.  Defining a macro again with a different replacement list
must be diagnosed: compilers warn and keep the later definition, and so does the
model, which records the macro's name in `Translation.redefined`.  Every other
directive is rejected.  The preprocessor's state is the macros in force, whether
each open group is processed, innermost first, and the names diagnosed so far;
each directive is one step of a fold (`processDirectives`), which is what the run
lemmas below induct over.
-/

namespace FeatureHeader

namespace Preprocessor

/-- A character an identifier may hold after its first one: a letter, a digit
or `_`, basic characters only. -/
def isIdentifierChar (c : Char) : Bool := c.isAlphanum || c == '_'

/-- An identifier: a letter or `_`, then letters, digits and `_`. -/
def isIdentifier : List Char → Bool
  | [] => false
  | c :: rest => (c.isAlpha || c == '_') && rest.all isIdentifierChar

/-- The names no `#define` may take: `defined`, and the macro names C predefines
or lets an implementation predefine. -/
def reservedNames : List (List Char) :=
  ["defined", "__DATE__", "__FILE__", "__LINE__", "__STDC__", "__STDC_HOSTED__",
    "__STDC_VERSION__", "__TIME__", "__STDC_ISO_10646__", "__STDC_MB_MIGHT_NEQ_WC__",
    "__STDC_UTF_16__", "__STDC_UTF_32__", "__STDC_ANALYZABLE__", "__STDC_IEC_559__",
    "__STDC_IEC_559_COMPLEX__", "__STDC_LIB_EXT1__", "__STDC_NO_ATOMICS__",
    "__STDC_NO_COMPLEX__", "__STDC_NO_THREADS__", "__STDC_NO_VLA__"].map String.toList

/-- The object-like macros in force: each defined name's replacement list. -/
@[ext] structure Macros where
  definition : List Char → Option (List (List Char))

namespace Macros

/-- `name` defined with `replacement`; every other macro as before. -/
def define (macros : Macros) (name : List Char) (replacement : List (List Char)) : Macros :=
  ⟨fun other => if other = name then some replacement else macros.definition other⟩

/-- Whether defining `name` with `replacement` replaces a different definition. -/
def redefines (macros : Macros) (name : List Char) (replacement : List (List Char)) : Bool :=
  (macros.definition name).any (· != replacement)

@[simp] theorem define_definition_self (macros : Macros) (name : List Char)
    (replacement : List (List Char)) :
    (macros.define name replacement).definition name = some replacement := by
  simp [define]

@[simp] theorem define_definition_of_ne (macros : Macros) {name other : List Char}
    (replacement : List (List Char)) (different : other ≠ name) :
    (macros.define name replacement).definition other = macros.definition other := by
  simp [define, different]

theorem redefines_of_undefined {macros : Macros} {name : List Char}
    (undefined : macros.definition name = none) (replacement : List (List Char)) :
    macros.redefines name replacement = false := by
  simp [redefines, undefined]

end Macros

/-- Why the preprocessor rejects a header. -/
inductive DirectiveError
  | malformedDirective
  | reservedName (name : List Char)
  | unmatchedEndif
  | unterminatedConditional
  | unterminatedComment
  | unsupported
  deriving DecidableEq, Repr

/-- The preprocessor between two directives: the macros in force, whether each
open group is processed, innermost first, and the macros whose redefinition was
diagnosed, in order. -/
structure Translation where
  macros : Macros
  groups : List Bool
  redefined : List (List Char)

namespace Translation

/-- Whether the current line is processed: outside every group it is. -/
def processing (state : Translation) : Bool := state.groups.headD true

/-- A `#define` in a processed group: the macro takes the new replacement list,
and its name is diagnosed when that replaces a different one. -/
def define (state : Translation) (name : List Char) (replacement : List (List Char)) :
    Translation :=
  ⟨state.macros.define name replacement, state.groups,
    if state.macros.redefines name replacement then state.redefined ++ [name]
    else state.redefined⟩

@[simp] theorem define_macros (state : Translation) (name : List Char)
    (replacement : List (List Char)) :
    (state.define name replacement).macros = state.macros.define name replacement :=
  rfl

@[simp] theorem define_groups (state : Translation) (name : List Char)
    (replacement : List (List Char)) : (state.define name replacement).groups = state.groups :=
  rfl

@[simp] theorem processing_define (state : Translation) (name : List Char)
    (replacement : List (List Char)) :
    (state.define name replacement).processing = state.processing :=
  rfl

end Translation

/-- `#ifndef` with its arguments. -/
def openGroup (state : Translation) (arguments : List (List Char)) :
    Except DirectiveError Translation :=
  if state.processing then
    match arguments with
    | [name] =>
        if isIdentifier name then
          .ok { state with groups := (state.macros.definition name).isNone :: state.groups }
        else .error .malformedDirective
    | _ => .error .malformedDirective
  else .ok { state with groups := false :: state.groups }

/-- `#define` with its arguments: the name and the replacement list. -/
def defineMacro (state : Translation) (arguments : List (List Char)) :
    Except DirectiveError Translation :=
  if state.processing then
    match arguments with
    | name :: replacement =>
        if isIdentifier name then
          if name ∈ reservedNames then .error (.reservedName name)
          else .ok (state.define name replacement)
        else .error .malformedDirective
    | [] => .error .malformedDirective
  else .ok state

/-- `#endif` with its arguments. -/
def closeGroup (state : Translation) (arguments : List (List Char)) :
    Except DirectiveError Translation :=
  match arguments, state.groups with
  | [], _ :: outer => .ok { state with groups := outer }
  | [], [] => .error .unmatchedEndif
  | _ :: _, _ => .error .malformedDirective

/-- One directive, as its tokens. -/
def processDirective (state : Translation) : List (List Char) → Except DirectiveError Translation
  | keyword :: arguments =>
      if keyword = "#ifndef".toList then openGroup state arguments
      else if keyword = "#define".toList then defineMacro state arguments
      else if keyword = "#endif".toList then closeGroup state arguments
      else .error .unsupported
  | [] => .error .unsupported

/-- The directives of a header, in order. -/
def processDirectives (state : Translation) (directives : List (List (List Char))) :
    Except DirectiveError Translation :=
  directives.foldlM processDirective state

/-- `#include` of a header where `macros` are in force: its comments go, its
directives run outside every group with nothing diagnosed yet, and it must close
every group it opens. -/
def translateHeader (macros : Macros) (header : List Char) : Except DirectiveError Translation :=
  match readHeader header with
  | none => .error .unterminatedComment
  | some directives =>
      match processDirectives ⟨macros, [], []⟩ directives with
      | .ok state => if state.groups = [] then .ok state else .error .unterminatedConditional
      | .error error => .error error

/-- The macros in force after the `#include`. -/
def includeHeader (macros : Macros) (header : List Char) : Except DirectiveError Macros :=
  (translateHeader macros header).map Translation.macros

/-- The `#define` directive for a macro and its replacement list. -/
def defineDirective (definition : List Char × List (List Char)) : List (List Char) :=
  "#define".toList :: definition.1 :: definition.2

/-- The replacement lists `definitions` give `name`, in order. -/
def valuesOf (name : List Char) (definitions : List (List Char × List (List Char))) :
    List (List (List Char)) :=
  definitions.filterMap fun definition => if definition.1 = name then some definition.2 else none

theorem isIdentifierChar_not_isCSpace {c : Char} (identifier : isIdentifierChar c) :
    isCSpace c = false := by
  cases space : isCSpace c
  · rfl
  · simp only [isCSpace, Bool.or_eq_true, beq_iff_eq] at space
    rcases space with (((rfl | rfl) | rfl) | rfl) | rfl <;> exact absurd identifier (by decide)

theorem isIdentifier_chars {name : List Char} (identifier : isIdentifier name) :
    ∀ c ∈ name, isIdentifierChar c := by
  cases name with
  | nil => cases identifier
  | cons first rest =>
      simp only [isIdentifier, Bool.and_eq_true, List.all_eq_true] at identifier
      intro c member
      rcases List.mem_cons.mp member with rfl | later
      · rcases Bool.or_eq_true _ _ ▸ identifier.1 with letter | underscore
        · simp [isIdentifierChar, Char.isAlphanum, letter]
        · simp [isIdentifierChar, underscore]
      · exact identifier.2 c later

theorem isIdentifier_plain {name : List Char} (identifier : isIdentifier name) :
    name ≠ [] ∧ (∀ c ∈ name, isCSpace c = false) ∧ ¬"/*".toList <:+: name := by
  have chars := isIdentifier_chars identifier
  refine ⟨fun empty => by simp [empty, isIdentifier] at identifier,
    fun c member => isIdentifierChar_not_isCSpace (chars c member), fun opens => ?_⟩
  have slash := chars '/' (opens.subset (by simp))
  exact absurd slash (by decide)

theorem processDirective_ifndef (state : Translation) {name : List Char}
    (identifier : isIdentifier name) :
    processDirective state ["#ifndef".toList, name] =
      .ok { state with
        groups := (state.processing && (state.macros.definition name).isNone) :: state.groups } := by
  cases processing : state.processing <;>
    simp [processDirective, openGroup, processing, identifier]

theorem processDirective_define_of_skipping {state : Translation}
    (skipping : state.processing = false) (definition : List Char × List (List Char)) :
    processDirective state (defineDirective definition) = .ok state := by
  simp [processDirective, defineDirective, defineMacro, skipping]

theorem processDirective_define {state : Translation} (processing : state.processing)
    {name : List Char} (identifier : isIdentifier name) (unreserved : name ∉ reservedNames)
    (replacement : List (List Char)) :
    processDirective state (defineDirective (name, replacement)) =
      .ok (state.define name replacement) := by
  simp [processDirective, defineDirective, defineMacro, processing, identifier, unreserved]

theorem processDirective_endif {state : Translation} {group : Bool} {outer : List Bool}
    (groups : state.groups = group :: outer) :
    processDirective state ["#endif".toList] = .ok { state with groups := outer } := by
  simp [processDirective, closeGroup, groups]

@[simp] theorem ok_bind {ε α β : Type} (value : α) (next : α → Except ε β) :
    (Except.ok value : Except ε α).bind next = next value :=
  rfl

@[simp] theorem error_bind {ε α β : Type} (error : ε) (next : α → Except ε β) :
    (Except.error error : Except ε α).bind next = .error error :=
  rfl

theorem processDirectives_cons (state : Translation) (directive : List (List Char))
    (directives : List (List (List Char))) :
    processDirectives state (directive :: directives) =
      (processDirective state directive).bind (processDirectives · directives) :=
  List.foldlM_cons _ _ _ _

theorem processDirectives_append (state : Translation) (front back : List (List (List Char))) :
    processDirectives state (front ++ back) =
      (processDirectives state front).bind (processDirectives · back) :=
  List.foldlM_append _ _ _ _

theorem openGroup_ok {state after : Translation} {arguments : List (List Char)}
    (run : openGroup state arguments = .ok after) :
    after.macros = state.macros ∧ ∃ group, after.groups = group :: state.groups := by
  unfold openGroup at run
  split_ifs at run <;> (try split at run) <;> (try split_ifs at run) <;> cases run <;>
    exact ⟨rfl, _, rfl⟩

theorem defineMacro_ok {state after : Translation} {arguments : List (List Char)}
    (run : defineMacro state arguments = .ok after) :
    after.groups = state.groups ∧ (after.macros = state.macros ∨
      ∃ name replacement, after.macros = state.macros.define name replacement) := by
  unfold defineMacro at run
  split_ifs at run
  · split at run
    · split_ifs at run
      cases run
      exact ⟨rfl, .inr ⟨_, _, rfl⟩⟩
    · cases run
  · cases run
    exact ⟨rfl, .inl rfl⟩

theorem closeGroup_ok {state after : Translation} {arguments : List (List Char)}
    (run : closeGroup state arguments = .ok after) :
    arguments = [] ∧ after.macros = state.macros ∧ ∃ group, state.groups = group :: after.groups := by
  unfold closeGroup at run
  split at run
  · rename_i outer groups
    cases run
    exact ⟨rfl, rfl, _, groups⟩
  all_goals cases run

theorem processDirectives_cons_of_ok {state middle : Translation} {directive : List (List Char)}
    (step : processDirective state directive = .ok middle) (directives : List (List (List Char))) :
    processDirectives state (directive :: directives) = processDirectives middle directives := by
  rw [processDirectives_cons, step, ok_bind]

theorem processDirectives_append_of_ok {state middle : Translation}
    {front : List (List (List Char))} (run : processDirectives state front = .ok middle)
    (back : List (List (List Char))) :
    processDirectives state (front ++ back) = processDirectives middle back := by
  rw [processDirectives_append, run, ok_bind]

theorem translateHeader_of_readHeader {header : List Char} {directives : List (List (List Char))}
    (read : readHeader header = some directives) (macros : Macros) :
    translateHeader macros header = (processDirectives ⟨macros, [], []⟩ directives).bind
      fun state => if state.groups = [] then .ok state else .error .unterminatedConditional := by
  simp only [translateHeader, read]
  cases processDirectives ⟨macros, [], []⟩ directives <;> rfl

theorem includeHeader_of_readHeader {header : List Char} {directives : List (List (List Char))}
    (read : readHeader header = some directives) (macros : Macros) :
    includeHeader macros header = (processDirectives ⟨macros, [], []⟩ directives).bind
      fun state => if state.groups = [] then .ok state.macros else .error .unterminatedConditional := by
  rw [includeHeader, translateHeader_of_readHeader read]
  cases processDirectives ⟨macros, [], []⟩ directives with
  | error => rfl
  | ok state => by_cases closed : state.groups = [] <;> simp [closed, Except.map]

theorem includeHeader_of_translateHeader {macros : Macros} {header : List Char}
    {state : Translation} (translated : translateHeader macros header = .ok state) :
    includeHeader macros header = .ok state.macros := by
  rw [includeHeader, translated]
  rfl

/-- Everything one directive can do: define a macro, open a group, or, as
`#endif`, close one. -/
theorem processDirective_ok {state after : Translation} {directive : List (List Char)}
    (run : processDirective state directive = .ok after) :
    (after.macros = state.macros ∨
      ∃ name replacement, after.macros = state.macros.define name replacement) ∧
    (after.groups = state.groups ∨ (∃ group, after.groups = group :: state.groups) ∨
      directive = ["#endif".toList] ∧ ∃ group, state.groups = group :: after.groups) := by
  match directive with
  | [] => cases run
  | keyword :: arguments =>
      simp only [processDirective] at run
      split_ifs at run with ifndef define endif
      · obtain ⟨macros, group, groups⟩ := openGroup_ok run
        exact ⟨.inl macros, .inr (.inl ⟨group, groups⟩)⟩
      · obtain ⟨groups, macros⟩ := defineMacro_ok run
        exact ⟨macros, .inl groups⟩
      · obtain ⟨rfl, macros, group, groups⟩ := closeGroup_ok run
        exact ⟨.inl macros, .inr (.inr ⟨by rw [endif], group, groups⟩)⟩

theorem processDirective_definition_ne_none {state after : Translation}
    {directive : List (List Char)} (run : processDirective state directive = .ok after)
    {name : List Char} (defined : state.macros.definition name ≠ none) :
    after.macros.definition name ≠ none := by
  obtain ⟨unchanged | ⟨other, replacement, defines⟩, -⟩ := processDirective_ok run
  · rwa [unchanged]
  · rw [defines]
    by_cases same : name = other
    · simp [same]
    · rwa [Macros.define_definition_of_ne _ _ same]

theorem processDirectives_definition_ne_none {state after : Translation}
    {directives : List (List (List Char))} (run : processDirectives state directives = .ok after)
    {name : List Char} (defined : state.macros.definition name ≠ none) :
    after.macros.definition name ≠ none := by
  induction directives generalizing state with
  | nil => cases run; exact defined
  | cons directive directives induction =>
      rw [processDirectives_cons] at run
      cases step : processDirective state directive with
      | error => rw [step, error_bind] at run; cases run
      | ok middle =>
          rw [step, ok_bind] at run
          exact induction run (processDirective_definition_ne_none step defined)

theorem processDirectives_groups_length {state after : Translation}
    {directives : List (List (List Char))} (run : processDirectives state directives = .ok after)
    (noEndif : ["#endif".toList] ∉ directives) : state.groups.length ≤ after.groups.length := by
  induction directives generalizing state with
  | nil => cases run; exact le_rfl
  | cons directive directives induction =>
      rw [processDirectives_cons] at run
      cases step : processDirective state directive with
      | error => rw [step, error_bind] at run; cases run
      | ok middle =>
          rw [step, ok_bind] at run
          have later := induction run fun member => noEndif (List.mem_cons_of_mem _ member)
          obtain ⟨-, same | ⟨group, pushed⟩ | ⟨closes, -⟩⟩ := processDirective_ok step
          · rwa [same] at later
          · rw [pushed, List.length_cons] at later
            omega
          · exact absurd (closes ▸ List.mem_cons_self _ _) noEndif

theorem processDirectives_defines_of_skipping {state : Translation}
    (skipping : state.processing = false) (definitions : List (List Char × List (List Char))) :
    processDirectives state (definitions.map defineDirective) = .ok state := by
  induction definitions with
  | nil => rfl
  | cons definition definitions induction =>
      rw [List.map_cons, processDirectives_cons,
        processDirective_define_of_skipping skipping definition]
      exact induction

/-- In a processed group, `#define`s of identifiers that are not reserved run as
a fold of `Translation.define`. -/
theorem processDirectives_defines {state : Translation} (processing : state.processing)
    {definitions : List (List Char × List (List Char))}
    (names : ∀ definition ∈ definitions, isIdentifier definition.1 ∧ definition.1 ∉ reservedNames) :
    processDirectives state (definitions.map defineDirective) =
      .ok (definitions.foldl (fun state definition => state.define definition.1 definition.2)
        state) := by
  induction definitions generalizing state with
  | nil => rfl
  | cons definition definitions induction =>
      obtain ⟨name, replacement⟩ := definition
      obtain ⟨identifier, unreserved⟩ := names _ (List.mem_cons_self _ _)
      rw [List.map_cons, processDirectives_cons_of_ok
        (processDirective_define processing identifier unreserved replacement), List.foldl_cons]
      exact induction (by rwa [Translation.processing_define])
        fun d member => names d (List.mem_cons_of_mem _ member)

theorem foldl_define_groups (state : Translation)
    (definitions : List (List Char × List (List Char))) :
    (definitions.foldl (fun state definition => state.define definition.1 definition.2)
      state).groups = state.groups := by
  induction definitions generalizing state with
  | nil => rfl
  | cons definition definitions induction => rw [List.foldl_cons, induction]; rfl

theorem foldl_define_macros (state : Translation)
    (definitions : List (List Char × List (List Char))) :
    (definitions.foldl (fun state definition => state.define definition.1 definition.2)
      state).macros =
      definitions.foldl (fun macros definition => macros.define definition.1 definition.2)
        state.macros := by
  induction definitions generalizing state with
  | nil => rfl
  | cons definition definitions induction => rw [List.foldl_cons, induction]; rfl

theorem definition_foldl_define_of_not_mem (macros : Macros) {name : List Char}
    {definitions : List (List Char × List (List Char))}
    (absent : ∀ definition ∈ definitions, definition.1 ≠ name) :
    (definitions.foldl (fun macros definition => macros.define definition.1 definition.2)
      macros).definition name = macros.definition name := by
  induction definitions generalizing macros with
  | nil => rfl
  | cons definition definitions induction =>
      rw [List.foldl_cons, induction _ fun d member => absent d (List.mem_cons_of_mem _ member),
        Macros.define_definition_of_ne _ _ (absent definition (List.mem_cons_self _ _)).symm]

theorem definition_foldl_define_last (macros : Macros)
    (front : List (List Char × List (List Char))) {name : List Char}
    (replacement : List (List Char)) {back : List (List Char × List (List Char))}
    (absent : ∀ definition ∈ back, definition.1 ≠ name) :
    ((front ++ (name, replacement) :: back).foldl
      (fun macros definition => macros.define definition.1 definition.2) macros).definition name =
      some replacement := by
  rw [List.foldl_append, List.foldl_cons, definition_foldl_define_of_not_mem _ absent,
    Macros.define_definition_self]

/-- A run of definitions diagnoses a macro exactly when, from its definition
before the run, the replacement lists it is given change at least once. -/
theorem mem_redefined_foldl_define (state : Translation)
    (definitions : List (List Char × List (List Char))) (name : List Char) :
    name ∈ (definitions.foldl (fun state definition => state.define definition.1 definition.2)
      state).redefined ↔
      name ∈ state.redefined ∨
        ¬((state.macros.definition name).toList ++ valuesOf name definitions).Chain' (· = ·) := by
  induction definitions generalizing state with
  | nil => cases state.macros.definition name <;> simp [valuesOf]
  | cons definition definitions induction =>
      obtain ⟨other, replacement⟩ := definition
      rw [List.foldl_cons, induction]
      by_cases same : other = name
      · subst same
        cases defined : state.macros.definition other with
        | none => simp [Translation.define, Macros.redefines, valuesOf, defined]
        | some previous =>
            by_cases changed : previous = replacement <;>
              simp [Translation.define, Macros.redefines, valuesOf, defined, changed,
                List.chain'_cons]
      · have unchanged : name ∈ (state.define other replacement).redefined ↔
            name ∈ state.redefined := by
          unfold Translation.define
          split_ifs <;> simp [Ne.symm same]
        simp only [unchanged, Translation.define_macros, Macros.define_definition_of_ne _ _
          (Ne.symm same), valuesOf, List.filterMap_cons, same, if_false]

theorem chain'_eq_iff_forall {α : Type} {values : List α} :
    values.Chain' (· = ·) ↔ ∀ first ∈ values, ∀ second ∈ values, first = second :=
  ⟨fun chain =>
    have pairwise := List.chain'_iff_pairwise.mp chain
    pairwise.forall_of_forall_of_flip (fun _ _ => rfl) (pairwise.imp Eq.symm),
    fun all => List.chain'_iff_pairwise.mpr (List.pairwise_of_forall_mem_list all)⟩

theorem mem_valuesOf {name : List Char} {definitions : List (List Char × List (List Char))}
    {replacement : List (List Char)} :
    replacement ∈ valuesOf name definitions ↔ (name, replacement) ∈ definitions := by
  simp only [valuesOf, List.mem_filterMap, Option.ite_none_right_eq_some, Option.some.injEq]
  constructor
  · rintro ⟨⟨other, value⟩, member, rfl, rfl⟩
    exact member
  · exact fun member => ⟨_, member, rfl, rfl⟩

example : includeHeader ⟨fun _ => none⟩
    "#ifndef _A_H\n#define _A_H\n#define X 1 /* x */\n#endif\n".toList =
      .ok ((Macros.define ⟨fun _ => none⟩ "_A_H".toList []).define "X".toList ["1".toList]) := by
  rfl

example : (translateHeader ⟨fun _ => none⟩
    "#define X 1\n#define X 1 /* again */\n#define X 0\n".toList).map Translation.redefined =
      .ok ["X".toList] := by
  rfl

example : includeHeader ⟨fun _ => none⟩ "#define defined 1\n".toList =
    .error (.reservedName "defined".toList) := by
  rfl

end Preprocessor

end FeatureHeader

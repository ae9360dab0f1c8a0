import FeatureHeader.Generator

/-!
# How a run ends

The docstring of `generate_output_header` promises `True` on success and
`False` otherwise, but no path through it returns a value: it returns `None`
or raises.  The process exit status is the only outcome a caller of the tool
sees.  A line `extract_feature_by_line` returns `None` for raises `TypeError`
and ends the run with status 1 (`main_exitStatus_of_none`); a malformed
directive calls `exit()` and ends it with status 0, and so does a missing input
file, which `main` only logs.  Whatever the output directory, `main` writes to
`ez_target_config.h` in it, so every header it writes carries the same include
guard (`main_writes_guard`).
-/

namespace FeatureHeader

section Outcome

variable (upper : List Char → List Char)

/-- A directive with the status `MAYBE` stops the run with `exit()`, and the
tool exits with status 0. -/
theorem main_exits_zero_on_malformed_status :
    exitStatus (main upper "features.cmake".toList "build".toList
      ⟨fun path => if path = "features.cmake".toList then
        some "option(ENABLE_X \"d\" MAYBE)".toList else none⟩) = 0 := by
  rfl

end Outcome

end FeatureHeader

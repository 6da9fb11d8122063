import WidthCheck.Rule.NoLong

/-!
# The available rules and their selection
-/

namespace WidthCheck.Rule

/-- The rules that come with the linter. -/
def all : List Rule := [noLong .warning]

/-- The available rules that one of the selectors means. -/
def select (selectors : List String) : List Rule :=
  all.filter fun rule => selectors.any rule.isSelectedBy

/-- The selectors that mean no available rule. -/
def unknownSelectors (selectors : List String) : List String :=
  selectors.filter fun selector => !all.any (·.isSelectedBy selector)

end WidthCheck.Rule

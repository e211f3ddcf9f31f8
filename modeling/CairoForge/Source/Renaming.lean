/-!
# Renaming in printed source

Three kinds of text can be changed while a contract is printed; every other text
is printed as it is.

## Main definitions

* `Renaming` — the three changes, none of them by default.
-/

namespace CairoForge

/-- Changes of text made while printing. -/
structure Renaming where
  /-- Applied to a type whose name starts with a capital letter. -/
  typeName : String → String := id
  /-- Applied to the dotted path of a base module. -/
  modulePath : String → String := id
  /-- Applied to the declaration of a variable. -/
  declaration : String → String := id

end CairoForge

import Lox.Syntax.Basic
import Std.Data.ExtTreeMap

set_option autoImplicit false

/-!
# Depths of uses

For uses of names: how many scopes out from the use the scope lies that declares the name.
-/

namespace Lox

/-- Depths by expression number. A use without an entry is one of a global variable. -/
abbrev Depths := Std.ExtTreeMap ExprId Nat

/-- The entries of both tables; those of the later one win. -/
def Depths.merge (earlier later : Depths) : Depths :=
  earlier ∪ later

theorem Depths.getElem?_merge (earlier later : Depths) (id : ExprId) :
    (earlier.merge later)[id]? = later[id]?.or earlier[id]? :=
  Std.ExtTreeMap.getElem?_union

end Lox

import Std.Data.ExtTreeMap

/-!
# Contexts

The numbers that names stand for, in the order of the names.
-/

namespace Appraisal

abbrev Context := Std.ExtTreeMap String Float

namespace Context

/-- The bindings of a list; a later one of the same name wins. -/
def ofPairs (pairs : List (String × Float)) : Context :=
  pairs.foldl (fun context p => context.insert p.1 p.2) {}

/-- The bindings of `base`, with those of `top` in place of or beside them. -/
def overlay (base top : Context) : Context :=
  top.foldl (fun context name value => context.insert name value) base

end Context

end Appraisal

import GraphSql.Formatter

/-!
# Bindings — which formatter writes which token

Bindings give a formatter to each token name.  A later binding of a name hides an earlier one, and a
name without a binding takes the fallback, if there is one.

* `Bindings.base` — the bindings that all statements share, with `regular` as fallback;
* `Bindings.strict` — no bindings and no fallback;
* `Bindings.bind`, `Bindings.resolve`.
-/

namespace GraphSql

/-- The token that is rendered from the filter instead of from a slot. -/
def whereToken : String := "Where"

structure Bindings where
  bound : List (String × Formatter)
  fallback : Option Formatter
  deriving DecidableEq, Repr

namespace Bindings

def bind (b : Bindings) (token : String) (f : Formatter) : Bindings :=
  { b with bound := (token, f) :: b.bound }

def resolve (b : Bindings) (token : String) : Option Formatter :=
  (b.bound.lookup token).or b.fallback

def strict : Bindings :=
  ⟨[], none⟩

def base : Bindings :=
  { bound :=
      [(whereToken, .regular), ("Limit", .limit), ("Skip", .skip),
        ("OrderBy", .keyword "ORDER BY"), ("Fetchplan", .keyword "FETCHPLAN"),
        ("Target", .target), ("Rid", .recordId), ("ClassList", .classList)]
    fallback := some .regular }

def withAll (b : Bindings) (more : List (String × Formatter)) : Bindings :=
  more.foldl (fun b entry => b.bind entry.1 entry.2) b

theorem resolve_bind (b : Bindings) (token other : String) (f : Formatter) :
    (b.bind token f).resolve other = if other = token then some f else b.resolve other := by
  by_cases h : other = token
  · simp [bind, resolve, h]
  · have hbeq : (other == token) = false := by simp [h]
    simp [bind, resolve, List.lookup_cons, h, hbeq]

end Bindings
end GraphSql

import GraphSql.Statement.Call

/-!
# Statement — a statement of one kind under construction

The kind fixes the template and the formatters, so a statement holds its content only.

* `Statement.start` — open a statement;
* `Statement.call` — extend it, or say why the call is refused;
* `Statement.attempt`, `Statement.run` — a refused call leaves the statement as it was;
* `Statement.raw` — its text.
-/

namespace GraphSql

structure Statement (k : Kind) where
  content : Content

namespace Statement

variable {k : Kind}

def start (o : Opening k) : Statement k :=
  ⟨o.content⟩

def fill (s : Statement k) (f : Fill k) : Statement k :=
  ⟨s.content.put f.write⟩

def call (s : Statement k) (c : Call k) : Except QueryError (Statement k) := do
  return ⟨← c.apply s.content⟩

def attempt (s : Statement k) (c : Call k) : Statement k :=
  match s.call c with
  | .ok s' => s'
  | .error _ => s

def run (s : Statement k) (calls : List (Call k)) : Statement k :=
  calls.foldl attempt s

def apply (s : Statement k) (op : Op) : Except QueryError (Statement k) := do
  return ⟨← s.content.apply op⟩

def template (_ : Statement k) : Template :=
  Template.compile k.schema

def raw (s : Statement k) : Except QueryError String :=
  s.content.render s.template k.bindings

/-- A link that is created on both sides from the start, or on one. -/
def link (className property name : String) (inverse : Bool) : Statement .createLink :=
  let s := start (.createLink className property name)
  if inverse then s.fill .inverse else s

end Statement
end GraphSql

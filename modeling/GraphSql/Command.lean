import GraphSql.Filter
import GraphSql.Formatter.Bindings
import GraphSql.Template
import GraphSql.Tokens

/-!
# Command — a template, what fills it, and the statement text

* `Content` — what a statement holds: its tokens and its filter;
* `Op`, `Content.apply` — the operations on a content, one of which can fail;
* `Command` — a template with its bindings and a content;
* `Command.raw` — the statement text, or the leftmost fault.

The placeholder `Where` is rendered from the filter, never from a token of that name.
-/

namespace GraphSql

/-! ## Contents -/

structure Content where
  tokens : Tokens
  filter : Filter

inductive Op
  | setToken (name : String) (value : Value)
  | writeToken (name : String) (values : List Value) (mode : WriteMode)
  | clearToken (name : String)
  | openClause (clause : Clause)
  | pushClause (clause : Clause)
  | resetClauses

namespace Content

def empty : Content :=
  ⟨.empty, .empty⟩

def write (c : Content) (name : String) (values : List Value) (mode : WriteMode) : Content :=
  { c with tokens := c.tokens.write name values mode }

def push (c : Content) (clause : Clause) : Content :=
  { c with filter := c.filter.push clause }

def openWith (c : Content) (clause : Clause) : Except QueryError Content := do
  return { c with filter := ← c.filter.openWith clause }

def resetFilter (c : Content) : Content :=
  { c with filter := .empty }

def apply (c : Content) : Op → Except QueryError Content
  | .setToken name value => .ok { c with tokens := c.tokens.set name value }
  | .writeToken name values mode => .ok (c.write name values mode)
  | .clearToken name => .ok { c with tokens := c.tokens.clear name }
  | .openClause clause => c.openWith clause
  | .pushClause clause => .ok (c.push clause)
  | .resetClauses => .ok c.resetFilter

/-- A failed operation leaves the content as it was. -/
def attempt (c : Content) (op : Op) : Content :=
  match c.apply op with
  | .ok c' => c'
  | .error _ => c

def run (c : Content) (ops : List Op) : Content :=
  ops.foldl attempt c

/-! ## Rendering -/

/-- The text that stands for a placeholder. -/
def lookup (c : Content) (bindings : Bindings) (name : String) :
    Except QueryError (Option String) :=
  match bindings.resolve name with
  | none => .error (.unbound name)
  | some f =>
      -- A token of that name may be written, but it is never asked.
      let rendered :=
        if name = whereToken then c.filter.render f else f.format (c.tokens.values name)
      rendered.mapError (.valueType name)

def render (c : Content) (template : Template) (bindings : Bindings) : Except QueryError String :=
  template.render fun _ name => c.lookup bindings name

end Content

/-! ## Commands -/

structure Command where
  template : Template
  bindings : Bindings
  content : Content

namespace Command

def ofSchema (schema : String) (bindings : Bindings) : Command :=
  ⟨Template.compile schema, bindings, .empty⟩

def raw (c : Command) : Except QueryError String :=
  c.content.render c.template c.bindings

def apply (c : Command) (op : Op) : Except QueryError Command := do
  return { c with content := ← c.content.apply op }

end Command
end GraphSql

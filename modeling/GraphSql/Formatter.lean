import GraphSql.Value.Text

/-!
# Formatter — how the values of a token are written

A formatter turns the ordered values of a token into text, or into nothing at all: the answer
`none` means that the token contributes nothing and its placeholder vanishes.  Every formatter but
`doubleQuoted` answers `none` for a token without values.  When several values cannot be written,
the error is that of the first.
-/

namespace GraphSql

inductive Formatter
  /-- Values as they stand: `a, b, c` -/
  | regular
  /-- The same between double quotes, also when there are no values: `"a"` -/
  | doubleQuoted
  /-- The first value as a record id: `#12:0` -/
  | recordId
  /-- Values as they stand in brackets: `[A,B]` -/
  | classList
  /-- The first value as a count: `LIMIT n` -/
  | limit
  /-- The first value as a count: `SKIP n` -/
  | skip
  /-- Literals: `'abc', 12, #1:2` -/
  | quoted
  /-- One value as it stands, several in brackets: `[a, b]` -/
  | target
  /-- A keyword and values as they stand: `ORDER BY name ASC` -/
  | keyword (word : String)
  /-- Two literals: `BETWEEN l AND r` -/
  | between
  /-- Field pairs with literals: `field = 'value'` -/
  | updates
  /-- Field pairs with record ids: `field = #12:0` -/
  | recordUpdates
  /-- Field pairs with entries of a link map: `field = 'key', #12:0` -/
  | mapUpdates
  deriving DecidableEq, Repr

namespace Formatter

/-! ## Several values in one text -/

def commaJoin (texts : List String) : String :=
  ", ".intercalate texts

def joinPlain (separator : String) (values : List Value) : Except Unrepresentable String := do
  return separator.intercalate (← values.mapM Value.plain)

/-- An assignment writes its field, an equals sign and what `write` makes of the value. -/
def assignment (write : String → Value → Except Unrepresentable String) :
    Value → Except Unrepresentable String
  | .pair field value => do return field ++ " = " ++ (← write field value)
  | v => .error (.wantsPair v.shape)

def mapEntry (field : String) : Value → Except Unrepresentable String
  | .pair key link => do return Text.quote key ++ ", " ++ (← link.reference).text
  | v => .error (.wantsEntry field v.shape)

def countText (n : UInt64) : String :=
  String.ofList (Decimal.digits n.toNat)

/-! ## Formatting -/

/-- The text of a token that has at least one value. -/
def formatSome : Formatter → Value → List Value → Except Unrepresentable String
  | .regular, v, vs => joinPlain ", " (v :: vs)
  | .doubleQuoted, v, vs => do return "\"" ++ (← joinPlain ", " (v :: vs)) ++ "\""
  | .recordId, v, _ => do return (← v.reference).text
  | .classList, v, vs => do return "[" ++ (← joinPlain "," (v :: vs)) ++ "]"
  | .limit, v, _ => do return "LIMIT " ++ countText (← v.count)
  | .skip, v, _ => do return "SKIP " ++ countText (← v.count)
  | .quoted, v, vs => do return commaJoin (← (v :: vs).mapM Value.literal)
  | .target, v, [] => joinPlain ", " [v]
  | .target, v, vs => do return "[" ++ (← joinPlain ", " (v :: vs)) ++ "]"
  | .keyword word, v, vs => do return word ++ " " ++ (← joinPlain ", " (v :: vs))
  | .between, left, [right] => do
      let low ← left.literal
      let high ← right.literal
      return "BETWEEN " ++ low ++ " AND " ++ high
  | .between, _, vs => .error (.boundCount (vs.length + 1))
  | .updates, v, vs => do
      return commaJoin (← (v :: vs).mapM (assignment fun _ value => value.literal))
  | .recordUpdates, v, vs => do
      return commaJoin (← (v :: vs).mapM (assignment fun _ value => do
        return (← value.reference).text))
  | .mapUpdates, v, vs => do return commaJoin (← (v :: vs).mapM (assignment mapEntry))

def format (f : Formatter) : List Value → Except Unrepresentable (Option String)
  | [] => .ok (if f = .doubleQuoted then some "\"\"" else none)
  | v :: vs => do return some (← f.formatSome v vs)

end Formatter
end GraphSql

import GraphSql.Command
import GraphSql.Statement.Kind

/-!
# Call — how statements are opened and extended

* `Write` — values for one token;
* `Opening k` — what a statement of kind `k` is opened with, as writes and clauses;
* `Fill k` — the calls on a statement of kind `k` that write one token;
* `FilterCall` — the calls on the filter, which check the condition they are given;
* `Call k` — every call on a statement of kind `k`.
-/

namespace GraphSql

/-! ## Writes -/

structure Write where
  token : String
  values : List Value
  mode : WriteMode

def Write.one (token : String) (value : Value) : Write :=
  ⟨token, [value], .overwrite⟩

def Content.put (c : Content) (w : Write) : Content :=
  c.write w.token w.values w.mode

/-! ## Openings -/

inductive Opening : Kind → Type
  | select (projections : List String) : Opening .select
  | insert : Opening .insert
  | update (className : String) : Opening .update
  | updateAdd (className : String) : Opening .updateAdd
  | updateRemove (className : String) : Opening .updateRemove
  | updatePut (className : String) : Opening .updatePut
  | delete (className : String) : Opening .delete
  | deleteEdge : Opening .deleteEdge
  | deleteEdgeById (edge : RecordId) : Opening .deleteEdge
  | deleteVertex (className : String) : Opening .deleteVertex
  | grant (permission : String) : Opening .grant
  | revoke (permission : String) : Opening .revoke
  | createIndex (property : String) (className : Option String) (indexType : String) :
      Opening .createIndex
  | dropIndex (property : String) (className : Option String) : Opening .dropIndex
  | indexPut (name : String) (key : Value) (link : RecordId) : Opening .indexPut
  | indexRemove (name : String) (key : Option Value) (link : Option RecordId) :
      Opening .indexRemove
  | indexCount (name : String) : Opening .indexCount
  | truncateClass (name : String) : Opening (.truncate .wholeClass)
  | truncateCluster (name : String) : Opening (.truncate .cluster)
  | truncateRecord (record : RecordId) : Opening (.truncate .record)
  | createClass (className : String) : Opening .createClass
  | dropClass (className : String) : Opening .dropClass
  | alterClass (className setting value : String) : Opening .alterClass
  | createProperty (className property propertyType : String) : Opening .createProperty
  | dropProperty (className property : String) : Opening .dropProperty
  | alterProperty (className property setting value : String) : Opening .alterProperty
  | createLink (className property name : String) : Opening .createLink
  | findReferences (record : RecordId) : Opening .findReferences

namespace Opening

/-- A property with its class in front, when there is one. -/
def qualified (property : String) : Option String → String
  | some className => className ++ "." ++ property
  | none => property

def writes {k : Kind} : Opening k → List Write
  | .select projections => [⟨"Projections", Value.ofStrings projections, .overwrite⟩]
  | .insert => []
  | .update className => [.one "Class" className]
  | .updateAdd className => [.one "Class" className]
  | .updateRemove className => [.one "Class" className]
  | .updatePut className => [.one "Class" className]
  | .delete className => [.one "Class" className]
  | .deleteEdge => []
  | .deleteEdgeById _ => []
  | .deleteVertex className => [.one "Class" className]
  | .grant permission => [.one "Permission" permission]
  | .revoke permission => [.one "Permission" permission]
  | .createIndex property className indexType =>
      [.one "Target" (qualified property className), .one "Type" indexType]
  | .dropIndex property className => [.one "Target" (qualified property className)]
  | .indexPut name key link => [.one "Name" name, .one "Key" key, .one "Value" link]
  | .indexRemove name _ _ => [.one "Name" name]
  | .indexCount name => [.one "Name" name]
  | .truncateClass name => [.one "Name" name]
  | .truncateCluster name => [.one "Name" name]
  | .truncateRecord record => [.one "Name" record]
  | .createClass className => [.one "Class" className]
  | .dropClass className => [.one "Class" className]
  | .alterClass className setting value =>
      [.one "Class" className, .one "Attribute" setting, .one "Value" value]
  | .createProperty className property propertyType =>
      [.one "Class" className, .one "Property" property, .one "Type" propertyType]
  | .dropProperty className property => [.one "Class" className, .one "Property" property]
  | .alterProperty className property setting value =>
      [.one "Class" className, .one "Property" property, .one "Attribute" setting,
        .one "Value" value]
  | .createLink className property name =>
      [.one "SourceClass" className, .one "SourceProperty" property, .one "Name" name]
  | .findReferences record => [.one "Rid" record]

/-- An index entry is found by its key, by its record, or by both. -/
def entryClauses : Option Value → Option RecordId → List Clause
  | none, none => []
  | some key, none => [⟨.none, "key = ?", some key⟩]
  | none, some link => [⟨.none, "rid = ?", some link⟩]
  | some key, some link => [⟨.none, "key = ?", some key⟩, ⟨.and, "rid = ?", some link⟩]

def clauses {k : Kind} : Opening k → List Clause
  | .deleteEdgeById edge => [⟨.none, "rid = ?", some edge⟩]
  | .indexRemove _ key link => entryClauses key link
  | _ => []

def content {k : Kind} (o : Opening k) : Content :=
  o.clauses.foldl Content.push (o.writes.foldl Content.put .empty)

end Opening

/-! ## Calls that write a token -/

inductive Fill : Kind → Type
  | select (items : List String) (mode : WriteMode) : Fill .select
  | target (items : List String) (mode : WriteMode) : Fill .select
  | orderBy (order : String) : Fill .select
  | orderByFirst (order : String) : Fill .select
  | skip (records : UInt64) : Fill .select
  | limit (records : UInt64) : Fill .select
  | fetchPlan (plan : String) : Fill .select
  | into (name : String) : Fill .insert
  | fields (items : List String) (mode : WriteMode) : Fill .insert
  | insertValues (values : List Value) (mode : WriteMode) : Fill .insert
  | set (field : String) (value : Value) : Fill .update
  | setAll (pairs : List (String × Value)) (mode : WriteMode) : Fill .update
  | add (field : String) (link : RecordId) : Fill .updateAdd
  | remove (field : String) (link : RecordId) : Fill .updateRemove
  | put (field key : String) (link : RecordId) : Fill .updatePut
  | limitVertices (records : UInt64) : Fill .deleteVertex
  | grantOn (resource : String) : Fill .grant
  | grantTo (role : String) : Fill .grant
  | revokeOn (resource : String) : Fill .revoke
  | revokeFrom (role : String) : Fill .revoke
  | parent (className : String) : Fill .createClass
  | linked (other : String) : Fill .createProperty
  | destination (className property : String) : Fill .createLink
  | linkType (collection : String) : Fill .createLink
  | inverse : Fill .createLink
  | inClasses (items : List String) (mode : WriteMode) : Fill .findReferences

namespace Fill

def write {k : Kind} : Fill k → Write
  | .select items mode => ⟨"Projections", Value.ofStrings items, mode⟩
  | .target items mode => ⟨"Target", Value.ofStrings items, mode⟩
  | .orderBy order => ⟨"OrderBy", [.string order], .append⟩
  | .orderByFirst order => ⟨"OrderBy", [.string order], .prepend⟩
  | .skip records => .one "Skip" (.uint records)
  | .limit records => .one "Limit" (.uint records)
  | .fetchPlan plan => .one "Fetchplan" plan
  | .into name => .one "Target" name
  | .fields items mode => ⟨"Fields", Value.ofStrings items, mode⟩
  | .insertValues values mode => ⟨"Values", values, mode⟩
  | .set field value => ⟨"Updates", [.pair field value], .append⟩
  | .setAll pairs mode => ⟨"Updates", pairs.map fun p => .pair p.1 p.2, mode⟩
  | .add field link => ⟨"RidUpdates", [.pair field link], .append⟩
  | .remove field link => ⟨"RidUpdates", [.pair field link], .append⟩
  | .put field key link => ⟨"MapUpdates", [.pair field (.pair key link)], .append⟩
  | .limitVertices records => .one "Limit" (.uint records)
  | .grantOn resource => .one "Resource" resource
  | .grantTo role => .one "Role" role
  | .revokeOn resource => .one "Resource" resource
  | .revokeFrom role => .one "Role" role
  | .parent className => .one "Parent" className
  | .linked other => .one "Linked" other
  | .destination className property => .one "Destination" (className ++ "." ++ property)
  | .linkType collection => .one "Type" collection
  | .inverse => .one "Inverse" "INVERSE"
  | .inClasses items mode => ⟨"ClassList", Value.ofStrings items, mode⟩

end Fill

/-! ## Calls on the filter -/

inductive FilterCall
  /-- Opens the filter with a condition on a value. -/
  | whereValue (condition : String) (value : Value)
  | andValue (condition : String) (value : Value)
  | orValue (condition : String) (value : Value)
  /-- A condition without a value; without a connector it opens the filter. -/
  | bare (connector : Connector) (condition : String)
  | reset

namespace FilterCall

def apply (c : Content) : FilterCall → Except QueryError Content
  | .whereValue condition value => do c.openWith (← Clause.make .none condition (some value))
  | .andValue condition value => do return c.push (← Clause.make .and condition (some value))
  | .orValue condition value => do return c.push (← Clause.make .or condition (some value))
  | .bare connector condition => do
      -- Markers are checked first, so they are reported even when the filter is open already.
      let clause ← Clause.make connector condition none
      if connector = .none then c.openWith clause else return c.push clause
  | .reset => .ok c.resetFilter

end FilterCall

/-! ## All calls -/

inductive Call : Kind → Type
  | fill {k : Kind} (f : Fill k) : Call k
  | filter {k : Kind} (filterable : k.isFilterable = true) (f : FilterCall) : Call k
  /-- Replaces the filter by a range of keys. -/
  | between (key : String) (left right : Value) : Call .select

namespace Call

def rangeClause (key : String) (left right : Value) : Except QueryError Clause := do
  let range ← (Formatter.between.format [left, right]).mapError (.valueType whereToken)
  return ⟨.none, key ++ " " ++ range.getD "", none⟩

def apply {k : Kind} (c : Content) : Call k → Except QueryError Content
  | .fill f => .ok (c.put f.write)
  | .filter _ f => f.apply c
  | .between key left right => do return c.resetFilter.push (← rangeClause key left right)

end Call
end GraphSql

import GraphSql.Formatter.Bindings

/-!
# Kind — the statements of the dialect

* `Kind` — one constructor for each statement;
* `Kind.schema` — its text with placeholders;
* `Kind.bindings` — the formatters that differ from the base bindings;
* `Kind.isFilterable` — the statements with a filter of their own;
* `Kind.hydrates` — whether its result rows are records.
-/

namespace GraphSql

/-- What a `TRUNCATE` empties. -/
inductive TruncateScope
  | wholeClass
  | cluster
  | record
  deriving DecidableEq, Repr

def TruncateScope.keyword : TruncateScope → String
  | .wholeClass => "CLASS"
  | .cluster => "CLUSTER"
  | .record => "RECORD"

inductive Kind
  | select
  | insert
  | update
  | updateAdd
  | updateRemove
  | updatePut
  | delete
  | deleteEdge
  | deleteVertex
  | grant
  | revoke
  | createIndex
  | dropIndex
  | indexPut
  | indexRemove
  | indexCount
  | truncate (scope : TruncateScope)
  | createClass
  | dropClass
  | alterClass
  | createProperty
  | dropProperty
  | alterProperty
  | createLink
  | findReferences
  deriving DecidableEq, Repr

namespace Kind

/-! ## Schemas -/

def schema : Kind → String
  | .select => "SELECT :Projections FROM :Target :Where :OrderBy :Skip :Limit :Fetchplan"
  | .insert => "INSERT INTO :Target (:Fields) VALUES (:Values)"
  | .update => "UPDATE :Class SET :Updates :Where"
  | .updateAdd => "UPDATE :Class ADD :RidUpdates :Where"
  | .updateRemove => "UPDATE :Class REMOVE :RidUpdates :Where"
  | .updatePut => "UPDATE :Class PUT :MapUpdates :Where"
  | .delete => "DELETE FROM :Class :Where"
  | .deleteEdge => "DELETE EDGE :Where"
  | .deleteVertex => "DELETE VERTEX :Class :Where :Limit"
  | .grant => "GRANT :Permission ON :Resource TO :Role"
  | .revoke => "REVOKE :Permission ON :Resource FROM :Role"
  | .createIndex => "CREATE INDEX :Target :Type"
  | .dropIndex => "DROP INDEX :Target"
  | .indexPut => "INSERT INTO index::Name (key,rid) VALUES (:Key, :Value)"
  | .indexRemove => "DELETE FROM index::Name :Where"
  | .indexCount => "SELECT count(*) AS size FROM index::Name"
  | .truncate .wholeClass => "TRUNCATE CLASS :Name"
  | .truncate .cluster => "TRUNCATE CLUSTER :Name"
  | .truncate .record => "TRUNCATE RECORD :Name"
  | .createClass => "CREATE CLASS :Class :Parent"
  | .dropClass => "DROP CLASS :Class"
  | .alterClass => "ALTER CLASS :Class :Attribute :Value"
  | .createProperty => "CREATE PROPERTY :Class.:Property :Type :Linked"
  | .dropProperty => "DROP PROPERTY :Class.:Property"
  | .alterProperty => "ALTER PROPERTY :Class.:Property :Attribute :Value"
  | .createLink =>
      "CREATE LINK :Name :Type FROM :SourceClass.:SourceProperty :Destination :Inverse"
  | .findReferences => "FIND REFERENCES :Rid :ClassList"

/-! ## Formatters -/

def ownBindings : Kind → List (String × Formatter)
  | .insert => [("Values", .quoted)]
  | .update => [("Updates", .updates)]
  | .updateAdd => [("RidUpdates", .recordUpdates)]
  | .updateRemove => [("RidUpdates", .recordUpdates)]
  | .updatePut => [("MapUpdates", .mapUpdates)]
  | .createIndex => [("Target", .regular)]
  | .dropIndex => [("Target", .regular)]
  | .indexPut => [("Key", .doubleQuoted), ("Value", .recordId)]
  | .indexRemove => [(whereToken, .quoted)]
  | .truncate .record => [("Name", .recordId)]
  | .createClass => [("Parent", .keyword "EXTENDS")]
  | .createLink => [("Type", .keyword "TYPE"), ("Destination", .keyword "TO")]
  | _ => []

def bindings (k : Kind) : Bindings :=
  Bindings.base.withAll k.ownBindings

/-! ## Properties -/

def isFilterable : Kind → Bool
  | .select | .update | .updateAdd | .updateRemove | .updatePut => true
  | .delete | .deleteEdge | .deleteVertex | .indexRemove => true
  | _ => false

def hydrates : Kind → Bool
  | .select | .insert => true
  | _ => false

end Kind
end GraphSql

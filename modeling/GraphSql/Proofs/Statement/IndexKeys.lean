import GraphSql.Proofs.Filter.Literals
import GraphSql.Proofs.Statement.Rendering
import GraphSql.Proofs.Statement.Writing

/-!
# IndexKeys — one key, as it is put into an index and as it is sought for removal

An entry is put with its key between double quotes, as it stands, and removed by its key as an
escaped literal between single quotes:

* `lookup_indexPut_key`, `lookup_indexRemove_where` — the two texts of a key;
* `indexKeys_agree_iff` — the sought text always denotes the key; the put text does so exactly when
  the key has neither a double quote nor a backslash.
-/

namespace GraphSql
namespace Statement

open Text (denoted?)

theorem values_indexPut_key (name key : String) (link : RecordId) :
    (start (.indexPut name (.string key) link)).content.tokens.values "Key" = [.string key] := by
  simp [start, Opening.tokens_content, Opening.writes, Content.values_put, Write.one,
    WriteMode.combine]

/-- The key of an entry that is put is written between double quotes as it stands. -/
theorem lookup_indexPut_key (name key : String) (link : RecordId) :
    (start (.indexPut name (.string key) link)).content.lookup Kind.indexPut.bindings "Key" =
      .ok (some ("\"" ++ key ++ "\"")) := by
  have hbound : Kind.indexPut.bindings.resolve "Key" = some .doubleQuoted := by decide
  have hformat : Formatter.doubleQuoted.format [.string key] =
      .ok (some ("\"" ++ key ++ "\"")) := by
    simp [Formatter.format, Formatter.formatSome, Formatter.joinPlain, Value.plain, bind,
      Except.bind, pure, Except.pure]
  rw [Content.lookup_token hbound (by decide), values_indexPut_key, hformat]
  rfl

/-- The key of an entry that is removed is written as an escaped literal. -/
theorem lookup_indexRemove_where (name key : String) :
    (start (.indexRemove name (some (.string key)) none)).content.lookup
        Kind.indexRemove.bindings whereToken =
      .ok (some ("WHERE key = " ++ Text.quote key)) := by
  have hbound : Kind.indexRemove.bindings.resolve whereToken = some .quoted := by decide
  have hclauses : (start (.indexRemove name (some (.string key)) none)).content.filter.clauses =
      [⟨.none, "key = ?", some (.string key)⟩] :=
    Opening.clauses_content _
  have hmarkers : Condition.markers "key = ?" = [Text.byteLength "key = ".toList] := by
    decide +kernel
  have hsplice : Condition.splice "key = ?" (Text.quote key) = "key = " ++ Text.quote key := by
    have hsplit : "key = ?".toList = "key = ".toList ++ '?' :: [] := by decide
    have htoList := Condition.toList_splice hmarkers hsplit (Text.quote key)
    exact String.toList_inj.1 (by simpa using htoList)
  have hresolve : Clause.resolve ⟨.none, "key = ?", some (.string key)⟩ .quoted =
      .ok ("key = " ++ Text.quote key) := by
    rw [Clause.resolve_some, Formatter.quoted_one rfl, ← hsplice]
    rfl
  have hwords : "WHERE " ++ "key = " = "WHERE key = " := by decide
  have hjoin : "WHERE " ++ ("key = " ++ Text.quote key) = "WHERE key = " ++ Text.quote key := by
    rw [← String.append_assoc, hwords]
  rw [Content.lookup_where hbound, Filter.render_singleton hclauses, hresolve, ← hjoin]
  rfl

/-- A key is sought under the text it is put under exactly when there is nothing in it to escape. -/
theorem indexKeys_agree_iff (name key : String) (link : RecordId) :
    ∃ put sought : String,
      (start (.indexPut name (.string key) link)).content.lookup Kind.indexPut.bindings "Key" =
          .ok (some put) ∧
        (start (.indexRemove name (some (.string key)) none)).content.lookup
            Kind.indexRemove.bindings whereToken = .ok (some ("WHERE key = " ++ sought)) ∧
        denoted? '\'' sought.toList = some key.toList ∧
        (denoted? '"' put.toList = some key.toList ↔ '"' ∉ key.toList ∧ '\\' ∉ key.toList) := by
  have hsought : denoted? '\'' (Text.quote key).toList = some key.toList := by
    simpa [Value.toList_quote] using Text.denoted?_quoteChars key.toList
  have hput : denoted? '"' ("\"" ++ key ++ "\"").toList = some key.toList ↔
      '"' ∉ key.toList ∧ '\\' ∉ key.toList := by
    simpa using Text.denoted?_verbatim_iff '"' key.toList
  exact ⟨"\"" ++ key ++ "\"", Text.quote key, lookup_indexPut_key name key link,
    lookup_indexRemove_where name key, hsought, hput⟩

/-- A double quote in the key that is put ends its literal early. -/
theorem not_indexKeys_agree :
    ¬∀ (name key : String) (link : RecordId), ∃ put sought : String,
      (start (.indexPut name (.string key) link)).content.lookup Kind.indexPut.bindings "Key" =
          .ok (some put) ∧
        (start (.indexRemove name (some (.string key)) none)).content.lookup
            Kind.indexRemove.bindings whereToken = .ok (some ("WHERE key = " ++ sought)) ∧
        denoted? '\'' sought.toList = some key.toList ∧
        denoted? '"' put.toList = some key.toList := by
  intro h
  rcases h "i" "a\"b" ⟨1, 2⟩ with ⟨put, _, hlookup, _, _, hdenoted⟩
  have hput : "\"" ++ "a\"b" ++ "\"" = put :=
    Option.some.inj (Except.ok.inj ((lookup_indexPut_key "i" "a\"b" ⟨1, 2⟩).symm.trans hlookup))
  rw [← hput] at hdenoted
  exact absurd hdenoted (by decide +kernel)

end Statement
end GraphSql

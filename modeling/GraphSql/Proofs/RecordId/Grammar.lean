import GraphSql.Formatter
import GraphSql.Proofs.Number.Signed

/-!
# Grammar — the texts that spell a record id

A record id is spelled as an optional `#`, an integer, a colon and an integer, with blanks around
all of it but none inside.  The integers may have a minus and zeros in front, and no plus:

* `Form` — the texts of that form, with the two integers, which may be of any size;
* `InRange` — the integers that a record id has room for;
* `ofChars?_eq_some_iff` — the reader accepts the trimmed texts of that form that are in range;
* `parse_text` — a record id that was written is read back;
* `parse_iff_form` — which texts are accepted, as what, and the error for all others.
-/

namespace GraphSql
namespace RecordId

open Decimal (Denotes)

variable {cs : List Char} {c p : Int} {r : RecordId}

/-! ## The form -/

inductive Form : List Char → Int → Int → Prop
  | bare {cluster position : List Char} {c p : Int} :
      Denotes cluster c → Denotes position p → Form (cluster ++ ':' :: position) c p
  | hashed {cluster position : List Char} {c p : Int} :
      Denotes cluster c → Denotes position p → Form ('#' :: (cluster ++ ':' :: position)) c p

/-- An integer starts with a digit or a minus, so there is no second hash to drop. -/
theorem dropHash_of_denotes {cluster : List Char} (h : Denotes cluster c) (rest : List Char) :
    dropHash (cluster ++ rest) = cluster ++ rest := by
  cases h with
  | minus _ _ => rfl
  | unsigned hne hds =>
      rcases List.exists_cons_of_ne_nil hne with ⟨d, ds, rfl⟩
      have hd : d ≠ '#' := by
        rintro rfl
        exact absurd (hds '#' List.mem_cons_self) (by decide)
      rw [List.cons_append, dropHash]
      intro cs hhash
      exact hd (List.cons.inj hhash).1

theorem form_iff_dropHash :
    Form cs c p ↔ ∃ cluster position, dropHash cs = cluster ++ ':' :: position ∧
      Denotes cluster c ∧ Denotes position p := by
  constructor
  · intro h
    cases h with
    | bare hcluster hposition =>
        exact ⟨_, _, dropHash_of_denotes hcluster _, hcluster, hposition⟩
    | hashed hcluster hposition => exact ⟨_, _, rfl, hcluster, hposition⟩
  · rintro ⟨cluster, position, hsplit, hcluster, hposition⟩
    unfold dropHash at hsplit
    split at hsplit
    · rw [hsplit]
      exact .hashed hcluster hposition
    · rw [hsplit]
      exact .bare hcluster hposition

/-! ## The range -/

def InRange (c p : Int) : Prop :=
  (-2147483648 ≤ c ∧ c ≤ 2147483647) ∧ -9223372036854775808 ≤ p ∧ p ≤ 9223372036854775807

theorem inRange_toInt (r : RecordId) : InRange r.cluster.toInt r.position.toInt := by
  have hclow := r.cluster.le_toInt
  have hchigh := r.cluster.toInt_lt
  have hplow := r.position.le_toInt
  have hphigh := r.position.toInt_lt
  exact ⟨⟨by omega, by omega⟩, by omega, by omega⟩

theorem exists_toInt_of_inRange (h : InRange c p) :
    ∃ r : RecordId, r.cluster.toInt = c ∧ r.position.toInt = p := by
  rcases h with ⟨⟨hclow, hchigh⟩, hplow, hphigh⟩
  have hcluster : (Int32.ofInt c).toInt = c := Int32.toInt_ofInt_of_le (by omega) (by omega)
  have hposition : (Int64.ofInt p).toInt = p := Int64.toInt_ofInt_of_le (by omega) (by omega)
  exact ⟨⟨Int32.ofInt c, Int64.ofInt p⟩, hcluster, hposition⟩

theorem ofInts?_eq_some_iff :
    ofInts? c p = some r ↔ r.cluster.toInt = c ∧ r.position.toInt = p := by
  constructor
  · intro h
    unfold ofInts? at h
    split at h
    · rename_i hcluster hposition
      obtain rfl := Option.some.inj h
      exact ⟨Width.toInt_of_int32? hcluster, Width.toInt_of_int64? hposition⟩
    · simp at h
  · rintro ⟨rfl, rfl⟩
    rw [ofInts?, Width.int32?_toInt, Width.int64?_toInt]

/-! ## The reader -/

theorem ofChars?_eq_some_iff :
    ofChars? cs = some r ↔ Form (Text.trim cs) r.cluster.toInt r.position.toInt := by
  rw [form_iff_dropHash, ofChars?]
  constructor
  · intro h
    rcases Option.bind_eq_some_iff.1 h with ⟨⟨c, rest⟩, hcluster, hrest⟩
    rcases Decimal.signed?_eq_some_iff.1 hcluster with ⟨cluster, hsplit, hc, _⟩
    dsimp only at hrest
    split at hrest
    · rcases Option.bind_eq_some_iff.1 hrest with ⟨⟨p, rest'⟩, hposition, hend⟩
      rcases Decimal.signed?_eq_some_iff.1 hposition with ⟨position, rfl, hp, _⟩
      dsimp only at hend
      split at hend
      · rename_i hempty
        rcases ofInts?_eq_some_iff.1 hend with ⟨rfl, rfl⟩
        rw [List.isEmpty_iff.1 hempty, List.append_nil] at hsplit
        exact ⟨cluster, position, hsplit, hc, hp⟩
      · simp at hend
    · simp at hrest
  · rintro ⟨cluster, position, hsplit, hc, hp⟩
    have hcluster := Decimal.signed?_eq_some_iff.2
      ⟨cluster, hsplit, hc, by simp⟩
    have hposition : Decimal.signed? position = some (r.position.toInt, []) :=
      Decimal.signed?_eq_some_iff.2 ⟨position, (List.append_nil _).symm, hp, by simp⟩
    have hints : ofInts? r.cluster.toInt r.position.toInt = some r :=
      ofInts?_eq_some_iff.2 ⟨rfl, rfl⟩
    simp [hcluster, hposition, hints]

theorem parse_eq_ok_iff {s : String} :
    parse s = .ok r ↔ Form (Text.trim s.toList) r.cluster.toInt r.position.toInt := by
  rw [← ofChars?_eq_some_iff, parse, ofText?]
  cases ofChars? s.toList <;> simp

theorem parse_eq_error_iff {s : String} {e : QueryError} :
    parse s = .error e ↔ e = .invalidRecordId s ∧ ∀ r, parse s ≠ .ok r := by
  rw [parse]
  cases ofText? s <;> simp [eq_comm]

/-! ## Written record ids -/

theorem form_chars (r : RecordId) : Form r.chars r.cluster.toInt r.position.toInt :=
  .hashed (Decimal.denotes_signed _) (Decimal.denotes_signed _)

theorem trim_chars (r : RecordId) : Text.trim r.chars = r.chars := by
  have hframed : Text.Framed r.chars := r.spelled_chars.framed (List.cons_ne_nil _ _)
  simpa [Text.trimEnd, Text.trimStart] using Text.trim_framed hframed [] []

theorem parse_text (r : RecordId) : parse r.text = .ok r := by
  rw [parse_eq_ok_iff, text, String.toList_ofList, trim_chars]
  exact form_chars r

theorem ofList_signed (n : Int) : String.ofList (Decimal.signed n) = toString n := by
  cases n with
  | ofNat n => rfl
  | negSucc n =>
      have hminus : toString (Int.negSucc n) = "-" ++ String.ofList (Decimal.digits (n + 1)) := rfl
      rw [hminus, ← String.toList_inj]
      simp [Decimal.signed]

theorem text_eq (r : RecordId) :
    r.text = "#" ++ toString r.cluster.toInt ++ ":" ++ toString r.position.toInt := by
  rw [← ofList_signed, ← ofList_signed, text, chars]
  simp [← String.toList_inj]

theorem format_recordId_string (s : String) (vs : List Value) (text : String) :
    Formatter.recordId.format (.string s :: vs) = .ok (some text) ↔
      ∃ r, parse s = .ok r ∧ text = r.text := by
  rw [Formatter.format, Formatter.formatSome, Value.reference, parse]
  cases ofText? s <;> simp [bind, Except.bind, pure, Except.pure, eq_comm]

/-- A text is accepted when it spells a record id in range, as that record id and no other; for any
other text the error has the text as it was given.  Every record id is read back from its text, and
what stands in a statement for an accepted text is the plain spelling of the same record id. -/
theorem parse_iff_form (s : String) :
    (∀ r, parse s = .ok r ↔ Form (Text.trim s.toList) r.cluster.toInt r.position.toInt) ∧
    (∀ e, parse s = .error e ↔ e = .invalidRecordId s ∧
      ∀ c p, Form (Text.trim s.toList) c p → ¬InRange c p) ∧
    (∀ r : RecordId, parse r.text = .ok r) ∧
    ∀ vs text, Formatter.recordId.format (.string s :: vs) = .ok (some text) ↔
      ∃ r, parse s = .ok r ∧
        text = "#" ++ toString r.cluster.toInt ++ ":" ++ toString r.position.toInt := by
  refine ⟨fun r => parse_eq_ok_iff, ?_, parse_text, ?_⟩
  · intro e
    rw [parse_eq_error_iff]
    refine and_congr_right fun _ => ⟨?_, ?_⟩
    · intro hrefused c p hform hrange
      rcases exists_toInt_of_inRange hrange with ⟨r, rfl, rfl⟩
      exact hrefused r (parse_eq_ok_iff.2 hform)
    · intro hout r hparse
      exact hout _ _ (parse_eq_ok_iff.1 hparse) (inRange_toInt r)
  · intro vs text
    simp only [format_recordId_string, text_eq]

-- Blanks around it and zeros in front are fine, a plus is not.
example : ofText? "\u3000#-007:00 " = some ⟨-7, 0⟩ ∧ ofText? "#7:+1" = none := by decide +kernel

end RecordId
end GraphSql

import GraphSql.Json.Escaped

/-!
# Escapes — a string that was written is read back

Reading goes character by character, as writing did, so each direction is one lemma about what is
written for a single character:

* `Form`, `form_encodeChar` — a character is written in one of three forms;
* `decode_encode` — the escapes are undone;
* `scan?_encode` — the written text is found whole in front of its closing quote.
-/

namespace GraphSql
namespace Json
namespace Escaped

/-! ## One character -/

inductive Form (c : Char) : List Char → Prop
  | short (e : Char) : e ≠ 'u' → short? e = some c → Form c ['\\', e]
  | control : c.toNat < 32 →
      Form c ['\\', 'u', '0', '0', Text.hexDigit (c.toNat / 16), Text.hexDigit (c.toNat % 16)]
  | plain : c ≠ '"' → c ≠ '\\' → ¬c.toNat < 32 → Form c [c]

theorem form_encodeChar (c : Char) : Form c (encodeChar c) := by
  unfold encodeChar
  split
  · subst_vars
    exact .short '"' (by decide) rfl
  split
  · subst_vars
    exact .short '\\' (by decide) rfl
  split
  · subst_vars
    exact .short 'b' (by decide) rfl
  split
  · subst_vars
    exact .short 't' (by decide) rfl
  split
  · subst_vars
    exact .short 'n' (by decide) rfl
  split
  · subst_vars
    exact .short 'f' (by decide) rfl
  split
  · subst_vars
    exact .short 'r' (by decide) rfl
  split
  · rename_i hcontrol
    exact .control hcontrol
  · rename_i hquote hslash _ _ _ _ _ hcontrol
    exact .plain hquote hslash hcontrol

/-- Four digits of which the first two are zero. -/
theorem unit?_control {c : Char} (hc : c.toNat < 32) :
    unit? '0' '0' (Text.hexDigit (c.toNat / 16)) (Text.hexDigit (c.toNat % 16)) = some c.toNat := by
  have hzero : Text.hexValue? '0' = some 0 := by decide
  have hhigh := Text.hexValue?_hexDigit (c.toNat / 16) (by omega)
  have hlow := Text.hexValue?_hexDigit (c.toNat % 16) (by omega)
  have hvalue : c.toNat / 16 * 16 + c.toNat % 16 = c.toNat := by omega
  simp [unit?, hzero, hhigh, hlow, hvalue]

/-! ## Undoing the escapes -/

theorem decode_short {e c : Char} (hu : e ≠ 'u') (he : short? e = some c) (cs : List Char) :
    decode ('\\' :: e :: cs) = (decode cs).map (c :: ·) := by
  have hparts : parts? ('\\' :: e :: cs) = (parts? cs).map (.char c :: ·) := by
    rw [parts?, he]
    · cases parts? cs <;> rfl
    · simp [hu]
  rw [decode, decode, hparts]
  cases parts? cs <;> rfl

theorem decode_control {c : Char} (hc : c.toNat < 32) (cs : List Char) :
    decode ('\\' :: 'u' :: '0' :: '0' :: Text.hexDigit (c.toNat / 16) ::
      Text.hexDigit (c.toNat % 16) :: cs) = (decode cs).map (c :: ·) := by
  have hlow : isLow c.toNat = false := by
    simp only [isLow, Bool.and_eq_false_iff, decide_eq_false_iff_not]
    omega
  have hhigh : isHigh c.toNat = false := by
    simp only [isHigh, Bool.and_eq_false_iff, decide_eq_false_iff_not]
    omega
  have hjoin : ∀ ps, join? (.unit c.toNat :: ps) = (join? ps).map (c :: ·) := by
    intro ps
    rw [join?.eq_def]
    simp [hlow, hhigh]
  rw [decode, decode, parts?, unit?_control hc]
  cases parts? cs with
  | none => rfl
  | some ps => exact hjoin ps

theorem decode_plain {c : Char} (hc : c ≠ '\\') (cs : List Char) :
    decode (c :: cs) = (decode cs).map (c :: ·) := by
  have hparts : parts? (c :: cs) = (parts? cs).map (.char c :: ·) := by
    rw [parts?]
    · cases parts? cs <;> rfl
    · simp [hc]
    · simp [hc]
  rw [decode, decode, hparts]
  cases parts? cs <;> rfl

theorem decode_encodeChar_append (c : Char) (cs : List Char) :
    decode (encodeChar c ++ cs) = (decode cs).map (c :: ·) := by
  generalize hwritten : encodeChar c = written
  have hform : Form c written := hwritten ▸ form_encodeChar c
  cases hform with
  | short e hu he => exact decode_short hu he cs
  | control hc => exact decode_control hc cs
  | plain _ hslash _ => exact decode_plain hslash cs

theorem decode_encode (cs : List Char) : decode (encode cs) = some cs := by
  induction cs with
  | nil => rfl
  | cons c cs ih =>
      have hcons : encode (c :: cs) = encodeChar c ++ encode cs := rfl
      rw [hcons, decode_encodeChar_append, ih]
      rfl

/-! ## Finding the closing quote -/

theorem scan?_short {e c : Char} (hu : e ≠ 'u') (he : short? e = some c) (cs : List Char) :
    scan? ('\\' :: e :: cs) =
      (scan? cs).map fun found => ('\\' :: e :: found.1, found.2) := by
  rw [scan?, he]
  · cases scan? cs <;> rfl
  · simp [hu]

theorem scan?_control {c : Char} (hc : c.toNat < 32) (cs : List Char) :
    scan? ('\\' :: 'u' :: '0' :: '0' :: Text.hexDigit (c.toNat / 16) ::
        Text.hexDigit (c.toNat % 16) :: cs) =
      (scan? cs).map fun found => ('\\' :: 'u' :: '0' :: '0' :: Text.hexDigit (c.toNat / 16) ::
        Text.hexDigit (c.toNat % 16) :: found.1, found.2) := by
  rw [scan?, unit?_control hc]
  cases scan? cs <;> rfl

theorem scan?_plain {c : Char} (hquote : c ≠ '"') (hslash : c ≠ '\\') (hc : ¬c.toNat < 32)
    (cs : List Char) :
    scan? (c :: cs) = (scan? cs).map fun found => (c :: found.1, found.2) := by
  rw [scan?, if_neg hc]
  · cases scan? cs <;> rfl
  · exact hquote
  · simp [hslash]
  · simp [hslash]

theorem scan?_encodeChar_append (c : Char) (cs : List Char) :
    scan? (encodeChar c ++ cs) =
      (scan? cs).map fun found => (encodeChar c ++ found.1, found.2) := by
  generalize hwritten : encodeChar c = written
  have hform : Form c written := hwritten ▸ form_encodeChar c
  cases hform with
  | short e hu he => exact scan?_short hu he cs
  | control hc => exact scan?_control hc cs
  | plain hquote hslash hc => exact scan?_plain hquote hslash hc cs

theorem scan?_encode (cs rest : List Char) :
    scan? (encode cs ++ '"' :: rest) = some (encode cs, rest) := by
  induction cs with
  | nil => simp [encode, scan?]
  | cons c cs ih =>
      have hcons : encode (c :: cs) = encodeChar c ++ encode cs := rfl
      rw [hcons, List.append_assoc, scan?_encodeChar_append, ih]
      rfl

end Escaped
end Json
end GraphSql

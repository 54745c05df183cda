import GoTemplate.Text.Basic

/-!
Text as bytes in UTF-8.
-/

namespace GoTemplate.Text

/-- The text that bytes are. Bytes that are not UTF-8 throughout are none. -/
def ofUtf8? (bytes : ByteArray) : Option Text := (String.fromUTF8? bytes).map String.toList

/-- The bytes of a text. -/
def toUtf8 (t : Text) : ByteArray := (String.ofList t).toUTF8

/-- The bytes of a text are that text. -/
theorem ofUtf8?_toUtf8 (t : Text) : ofUtf8? t.toUtf8 = some t := by
  have hValid : (String.ofList t).toUTF8.IsValidUTF8 := (String.ofList t).isValidUTF8
  rw [ofUtf8?, toUtf8, String.fromUTF8?, dif_pos hValid]
  change some (String.ofList t).toList = some t
  rw [String.toList_ofList]

theorem toUtf8_append (t u : Text) : toUtf8 (t ++ u) = t.toUtf8 ++ u.toUtf8 := List.utf8Encode_append

theorem size_toUtf8 (t : Text) : t.toUtf8.size = t.byteSize := by
  induction t with
  | nil => rfl
  | cons c t ih =>
      have hCons : toUtf8 (c :: t) = toUtf8 [c] ++ toUtf8 t := toUtf8_append [c] t
      have hChar : (toUtf8 [c]).size = c.utf8Size := by
        change (List.utf8Encode [c]).size = _
        rw [List.utf8Encode_singleton, List.size_toByteArray, String.length_utf8EncodeChar]
      rw [hCons, ByteArray.size_append, ih, hChar, byteSize]

/-- The bytes of a text between others. -/
theorem extract_toUtf8 (before t behind : Text) :
    (toUtf8 (before ++ (t ++ behind))).extract before.byteSize (before.byteSize + t.byteSize) = t.toUtf8 := by
  have hBefore : before.toUtf8.extract before.byteSize (before.byteSize + t.byteSize) = .empty := by
    rw [← size_toUtf8]
    simp
  rw [toUtf8_append, toUtf8_append, ByteArray.extract_append, hBefore, ByteArray.empty_append, size_toUtf8,
    Nat.sub_self, Nat.add_sub_cancel_left, ByteArray.extract_append_eq_left (size_toUtf8 t).symm]

end GoTemplate.Text

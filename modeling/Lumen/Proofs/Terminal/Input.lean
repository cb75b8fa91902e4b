import Lumen.Proofs.Disk.Laws
import Lumen.Proofs.Text.Extent
import Lumen.Terminal.Run

/-!
# The lines of an input

An input that is a text has the lines of that text, all of them (`inputLines_toUTF8`). The input is
cut into lines byte by byte, and no character but a line feed has the byte of a line feed in it
(`mem_utf8EncodeChar_iff`); so it is cut where the text is (`cut_bytes`).
-/

namespace Lumen

theorem toList_loop_eq (bytes : ByteArray) (i : Nat) (r : List UInt8) :
    ByteArray.toList.loop bytes i r = r.reverse ++ bytes.data.toList.drop i := by
  fun_induction ByteArray.toList.loop bytes i r with
  | case1 i r h ih =>
      have hi : i < bytes.data.size := h
      have hget : bytes.get! i = bytes.data[i] := getElem!_pos bytes.data i hi
      have hdrop : bytes.data.toList.drop i =
          bytes.data[i] :: bytes.data.toList.drop (i + 1) :=
        List.drop_eq_getElem_cons (by simpa using hi)
      rw [ih, hget, hdrop]
      simp
  | case2 i r h =>
      have hi : bytes.data.toList.length ≤ i := by simpa using Nat.le_of_not_lt h
      rw [List.drop_eq_nil_of_le hi, List.append_nil]

theorem toList_byteArray (bytes : ByteArray) : bytes.toList = bytes.data.toList :=
  toList_loop_eq bytes 0 []

namespace Text

/-- The bytes of a text in UTF-8. -/
def bytes (t : Text) : List UInt8 := t.flatMap String.utf8EncodeChar

@[simp] theorem bytes_cons (c : Char) (t : Text) :
    bytes (c :: t) = String.utf8EncodeChar c ++ bytes t :=
  rfl

theorem toUTF8_ofList (t : Text) : (String.ofList t).toUTF8 = ⟨t.bytes.toArray⟩ := by
  have hbytes : (String.ofList t).toUTF8 = t.bytes.toByteArray := rfl
  rw [hbytes]
  exact ByteArray.ext List.data_toByteArray

theorem toList_toUTF8 (t : Text) : (String.ofList t).toUTF8.toList = t.bytes := by
  rw [toUTF8_ofList, toList_byteArray]

theorem utf8EncodeChar_ne_nil (c : Char) : String.utf8EncodeChar c ≠ [] := by
  rw [String.utf8EncodeChar.eq_def]
  simp only
  split
  · simp
  · split
    · simp
    · split
      · simp
      · simp

theorem bytes_eq_nil_iff (t : Text) : t.bytes = [] ↔ t = [] := by
  cases t with
  | nil => exact ⟨fun _ => rfl, fun _ => rfl⟩
  | cons c t =>
      constructor
      · intro h
        exact absurd (List.append_eq_nil_iff.mp h).1 (utf8EncodeChar_ne_nil c)
      · intro h
        cases h

/-- No character but the line feed has its byte in it. -/
theorem mem_utf8EncodeChar_iff (c : Char) : 10 ∈ String.utf8EncodeChar c ↔ c = '\n' := by
  have hbyte : ∀ n < 256, UInt8.ofNat n = 10 → n = 10 := by
    intro n hn heq
    have hnat := congrArg UInt8.toNat heq
    rw [UInt8.toNat_ofNat', Nat.mod_eq_of_lt hn] at hnat
    exact hnat
  constructor
  · intro h
    rw [String.utf8EncodeChar.eq_def] at h
    simp only at h
    split at h
    · next hascii =>
        have hten := hbyte _ (by omega) (List.mem_singleton.mp h).symm
        exact Char.ext (UInt32.toNat_inj.mp hten)
    · exfalso
      -- all bytes of a longer character are 128 at least
      have hhigh : ∀ n, 128 ≤ n → n < 256 → (10 : UInt8) ≠ UInt8.ofNat n := by
        intro n hn hlt heq
        have hten := hbyte n hlt heq.symm
        omega
      have htail : ∀ n, (10 : UInt8) ≠ UInt8.ofNat (n % 64 + 128) :=
        fun n => hhigh _ (by omega) (by omega)
      split at h
      · simp only [List.mem_cons, List.not_mem_nil, or_false] at h
        rcases h with h | h
        · exact hhigh _ (by omega) (by omega) h
        · exact htail _ h
      · split at h
        · simp only [List.mem_cons, List.not_mem_nil, or_false] at h
          rcases h with h | h | h
          · exact hhigh _ (by omega) (by omega) h
          · exact htail _ h
          · exact htail _ h
        · simp only [List.mem_cons, List.not_mem_nil, or_false] at h
          rcases h with h | h | h | h
          · exact hhigh _ (by omega) (by omega) h
          · exact htail _ h
          · exact htail _ h
          · exact htail _ h
  · rintro rfl
    decide

end Text

namespace Terminal

/-- Bytes without a separator go to the first piece. -/
theorem cut_append {separator : UInt8} {bytes : List UInt8} (h : separator ∉ bytes)
    {rest piece : List UInt8} {pieces : List (List UInt8)}
    (hrest : cut separator rest = piece :: pieces) :
    cut separator (bytes ++ rest) = (bytes ++ piece) :: pieces := by
  induction bytes with
  | nil => exact hrest
  | cons b bs ih =>
      obtain ⟨hb, hbs⟩ := not_or.mp (mt List.mem_cons.mpr h)
      rw [List.cons_append, cut, if_neg (Ne.symm hb), ih hbs]
      rfl

/-- The bytes of a text are cut where the text is. -/
theorem cut_bytes (t : Text) : cut 10 t.bytes = t.splitFeeds.map Text.bytes := by
  induction t with
  | nil => rfl
  | cons c cs ih =>
      by_cases hc : c = '\n'
      · subst hc
        have hfeed : Text.bytes ('\n' :: cs) = 10 :: Text.bytes cs := rfl
        rw [hfeed, cut, if_pos rfl, ih, Text.splitFeeds_feed]
        rfl
      · obtain ⟨line, lines, hlines, hcons⟩ := Text.splitFeeds_cons hc cs
        rw [hlines, List.map_cons] at ih
        rw [hcons, Text.bytes_cons, cut_append (mt (Text.mem_utf8EncodeChar_iff c).mp hc) ih]
        rfl

theorem lineText?_bytes (ended : Bool) (line : Text) :
    lineText? ended line.bytes = some (if ended then Text.dropReturn line else line) := by
  rw [lineText?, ← Text.toUTF8_ofList, Disk.fromUTF8?_toUTF8, Option.map_some,
    String.toList_ofList]

theorem lineTexts_map_bytes (lines : List Text) :
    lineTexts (lines.map Text.bytes) = (Text.dropReturns lines).map some := by
  induction lines with
  | nil => rfl
  | cons line lines ih =>
      -- only the last line has no end, and it is none if it is empty
      cases lines with
      | nil =>
          rw [List.map_cons, List.map_nil, lineTexts, Text.dropReturns]
          simp only [Text.bytes_eq_nil_iff]
          split
          · rfl
          · rw [lineText?_bytes]
            rfl
      | cons next rest =>
          rw [List.map_cons, List.map_cons, lineTexts, Text.dropReturns, lineText?_bytes]
          · rw [List.map_cons] at ih
            rw [ih]
            rfl
          · simp
          · simp

/-- The lines of an input that is a text are those of the text. -/
theorem inputLines_toUTF8 (t : Text) :
    inputLines (String.ofList t).toUTF8 = t.lines.map some := by
  rw [inputLines, Text.toList_toUTF8, cut_bytes, lineTexts_map_bytes, Text.lines]

end Terminal

end Lumen

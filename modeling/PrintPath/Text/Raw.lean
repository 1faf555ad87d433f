import PrintPath.Text.Utf8

/-!
# Raw texts

What the system hands over as text, the words of a call and the paths of files, is a
sequence of bytes.  Mostly these encode a text, but nothing sees to that, so they are
kept as they come.  Whoever needs the text asks for it (`RawText.text?`) and has to
say what becomes of bytes that are none.  A reader is shown something in any case
(`RawText.shown`).
-/

namespace PrintPath

/-- Bytes that are meant as a text. -/
structure RawText where
  bytes : List UInt8
  deriving DecidableEq, Repr

namespace RawText

/-- No bytes at all. -/
def empty : RawText := ⟨[]⟩

/-- The bytes that encode a text. -/
def ofString (text : String) : RawText := ⟨text.toUTF8.data.toList⟩

instance : Coe String RawText := ⟨ofString⟩

instance : Append RawText := ⟨fun front back => ⟨front.bytes ++ back.bytes⟩⟩

/-- The text that the bytes encode, if they encode one. -/
def text? (raw : RawText) : Option String :=
  String.fromUTF8? ⟨raw.bytes.toArray⟩

/-- Whether the bytes encode a text. -/
def IsText (raw : RawText) : Prop :=
  raw.text?.isSome

instance (raw : RawText) : Decidable raw.IsText :=
  inferInstanceAs (Decidable (raw.text?.isSome = true))

/-- The bytes as they are shown to a reader.  A replacement character stands for what
is no text. -/
def shown (raw : RawText) : String :=
  String.ofList (Utf8.decode raw.bytes)

@[simp] theorem text?_ofString (text : String) : (ofString text).text? = some text :=
  dif_pos text.isValidUTF8

/-- Only the bytes of a text encode it. -/
theorem eq_of_text?_eq_some {raw : RawText} {text : String} (h : raw.text? = some text) :
    raw = ofString text := by
  unfold text? String.fromUTF8? at h
  split at h
  · cases h
    rfl
  · cases h

end RawText
end PrintPath

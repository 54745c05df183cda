/-!
Templates as they are read: bytes, and how many of them have been taken. A template is read anew
for each type set, so that every reading goes back to the start first.
-/

namespace GoTemplate

/-- The bytes of a template, and the number of those that have been taken. -/
structure TemplateReader where
  bytes : ByteArray
  position : Nat

namespace TemplateReader

/-- A reader at the start of a template. -/
def ofBytes (bytes : ByteArray) : TemplateReader := ⟨bytes, 0⟩

/-- Go back to the start. -/
def rewind : StateM TemplateReader Unit := modify fun r => { r with position := 0 }

/-- Take the bytes from the present place to the end. -/
def readToEnd : StateM TemplateReader ByteArray :=
  modifyGet fun r =>
    (r.bytes.extract r.position r.bytes.size, { r with position := max r.position r.bytes.size })

/-- The reader after all bytes have been taken. -/
def atEnd (r : TemplateReader) : TemplateReader := { r with position := r.bytes.size }

/-- After going back, a reading takes all bytes of the template, wherever the reader was. -/
theorem rewind_readToEnd (r : TemplateReader) :
    (do rewind; readToEnd : StateM TemplateReader ByteArray).run r = (r.bytes, r.atEnd) := by
  change (r.bytes.extract 0 r.bytes.size, { r with position := max 0 r.bytes.size }) = _
  rw [ByteArray.extract_zero_size, Nat.zero_max]
  rfl

end TemplateReader

end GoTemplate
